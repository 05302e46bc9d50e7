import SerialNet.At.Handlers
import SerialNet.At.Parse

namespace SerialNet

open Prog

/-!
# Response functions read only arguments they were given

`argv` is an array on the stack that `parseParameter` fills up to `argc`, so a response function
must look at `argc` before it reads `argv[i]`.  `ArgBelow argc` is that condition on the
operations of a program; each program meets it for every `argc`, with one exception:
`responseBAUDRATE` compares `argv[1]` first, which is only there from `argc` 2 on.

Each proof takes the numbers of arguments that the function tests for, and the other ones, apart:
for a fixed number the guards disappear, and the reads that remain are compared with it.
-/

/-- Arguments are read below `argc` only. -/
@[simp] def ArgBelow (argc : ℕ) : ∀ β, AtOp β → Prop
  | _, .arg i => i < argc
  | _, _ => True

namespace AtCmd

/-! ### The programs -/

theorem args_baudrate {argc : ℕ} (hargc : 2 ≤ argc) :
    All (ArgBelow argc) (responseBAUDRATE argc) := by
  have h1 : 1 < argc := hargc
  by_cases h : argc = 2
  · simp [responseBAUDRATE, h]
  · simp [responseBAUDRATE, h, h1]

theorem args_uartfl (argc : ℕ) : All (ArgBelow argc) (responseUARTFL argc) := by
  by_cases h : argc = 2
  · simp [responseUARTFL, h]
  · simp [responseUARTFL, h]

theorem args_uartft (argc : ℕ) : All (ArgBelow argc) (responseUARTFT argc) := by
  by_cases h : argc = 2
  · simp [responseUARTFT, h]
  · simp [responseUARTFT, h]

theorem args_lslpt (argc : ℕ) : All (ArgBelow argc) (responseLSLPT argc) := by
  by_cases h : argc = 4
  · simp [responseLSLPT, h]
  · simp [responseLSLPT, h]

theorem args_ping (argc : ℕ) : All (ArgBelow argc) (responsePING argc) := by
  by_cases h : argc = 3
  · simp [responsePING, h]
  · simp [responsePING, h]

theorem args_wqsopt (argc : ℕ) : All (ArgBelow argc) (responseWQSOPT argc) := by
  by_cases h2 : argc = 2
  · simp [responseWQSOPT, h2]
  · by_cases h6 : argc = 6
    · simp [responseWQSOPT, h6]
    · simp [responseWQSOPT, h2, h6]

theorem args_wtxrate (argc : ℕ) : All (ArgBelow argc) (responseWTXRATE argc) := by
  have hset : ∀ r, All (ArgBelow 2) (setTxRate r) := by
    rintro (_ | r) <;> simp [setTxRate]
  by_cases h : argc = 2
  · subst h
    simp [responseWTXRATE, hset]
  · simp [responseWTXRATE, h]

theorem args_wscanap (argc : ℕ) : All (ArgBelow argc) (responseWSCANAP argc) := by
  rw [responseWSCANAP, all_perform_bind]
  refine ⟨trivial, ?_⟩
  rintro (_ | p)
  · exact trivial
  · by_cases h : argc = 2
    · simp [h]
    · simp [h]

theorem args_wsbcn (argc : ℕ) : All (ArgBelow argc) (responseWSBCN argc) := by
  by_cases h2 : argc = 2
  · simp [responseWSBCN, h2]
  · by_cases h3 : argc = 3
    · simp [responseWSBCN, h3]
    · simp [responseWSBCN, h2, h3]

theorem args_wscap (argc : ℕ) : All (ArgBelow argc) (responseWSCAP argc) := by
  by_cases h2 : argc = 2
  · simp [responseWSCAP, h2]
  · by_cases h4 : argc = 4
    · simp [responseWSCAP, h4]
    · simp [responseWSCAP, h2, h4]

theorem args_wphymode (argc : ℕ) : All (ArgBelow argc) (responseWPHYMODE argc) := by
  by_cases h : argc = 2
  · simp [responseWPHYMODE, h]
  · simp [responseWPHYMODE, h]

/-- Each part of `AT+NQSCNN` reads the argument behind its shift. -/
theorem args_nqscnn (argc : ℕ) : All (ArgBelow argc) (responseNQSCNN argc) := by
  by_cases h2 : argc = 2
  · simp [responseNQSCNN, h2]
  · by_cases h5 : argc = 5
    · subst h5
      have hbinary : ∀ set, ∀ shift < 4, All (ArgBelow 5) (responseBinary set 2 shift) := by
        intro set shift hshift
        have hlt : shift + 1 < 5 := by omega
        simp [responseBinary, hlt]
      simp only [responseNQSCNN, isQuery, allOf_cons]
      apply All.bind (by simp)
      intro b
      rw [all_ite]
      refine ⟨fun _ => trivial, fun _ => ?_⟩
      rw [if_pos trivial]
      refine (hbinary _ 0 (by decide)).bind fun _ => (hbinary _ 1 (by decide)).bind fun _ => ?_
      simp [responseNPORT, responseNRMTIP]
    · simp [responseNQSCNN, h2, h5]

theorem args_nlocip (argc : ℕ) : All (ArgBelow argc) (responseNLOCIP argc) := by
  by_cases h2 : argc = 2
  · simp [responseNLOCIP, h2]
  · by_cases h4 : argc = 4
    · simp [responseNLOCIP, h4]
    · simp [responseNLOCIP, h2, h4]

theorem args_bcttxstart (argc : ℕ) : All (ArgBelow argc) (responseBCTTXSTART argc) := by
  by_cases h : argc = 2
  · simp [responseBCTTXSTART, h]
  · simp [responseBCTTXSTART, h]

theorem args_bctrxstart (argc : ℕ) : All (ArgBelow argc) (responseBCTRXSTART argc) := by
  by_cases h : argc = 2
  · simp [responseBCTRXSTART, h]
  · simp [responseBCTRXSTART, h]

theorem args_bcttxdata (argc : ℕ) : All (ArgBelow argc) (responseBCTTXDATA argc) := by
  by_cases h : argc = 3
  · simp [responseBCTTXDATA, h]
  · simp [responseBCTTXDATA, h]

/-- **All programs** but one case read below `argc` only. -/
theorem args_program {responseFunction : AtHandler} {argc : ℕ} (hargc : 1 ≤ argc)
    (h : ¬ (responseFunction = .baudrate ∧ argc = 1)) :
    All (ArgBelow argc) (program responseFunction argc) := by
  cases responseFunction with
  | baudrate => exact args_baudrate (by simp at h; omega)
  | uartfl => exact args_uartfl argc
  | uartft => exact args_uartft argc
  | lslpt => exact args_lslpt argc
  | ping => exact args_ping argc
  | wqsopt => exact args_wqsopt argc
  | wtxrate => exact args_wtxrate argc
  | wscanap => exact args_wscanap argc
  | wsbcn => exact args_wsbcn argc
  | wscap => exact args_wscap argc
  | wphymode => exact args_wphymode argc
  | nqscnn => exact args_nqscnn argc
  | nlocip => exact args_nlocip argc
  | bcttxstart => exact args_bcttxstart argc
  | bctrxstart => exact args_bctrxstart argc
  | bcttxdata => exact args_bcttxdata argc
  -- these read no argument
  | save => simp [program, responseSAVE]
  | factory => simp [program, responseFACTORY]
  | rst => simp [program, responseRST]
  | wsmtconf => simp [program, responseWSMTCONF]
  | quit => simp [program, responseQUIT]
  | bcttxstop => simp [program, responseBCTTXSTOP]
  | bctrxstop => simp [program, responseBCTRXSTOP]
  | _ => exact trivial

end AtCmd

/-! ### Calls -/

/-- An operation reads an argument, or none. -/
theorem reads_atStep (env : AtEnv) {β : Type} (e : AtOp β) (s : CallState) :
    (∃ i, (atStep env β e s).2.reads = s.reads ++ [i] ∧ ∀ argc, ArgBelow argc β e ↔ i < argc) ∨
      (atStep env β e s).2.reads = s.reads := by
  cases e with
  | arg i => exact .inl ⟨i, rfl, fun _ => Iff.rfl⟩
  | socket use =>
    right
    show (s.openSocket use env.socket).2.reads = s.reads
    rw [CallState.openSocket_eq]
  | _ => exact .inr rfl

/-- A program whose operations read below `argc` reads below `argc`. -/
theorem reads_below {argc : ℕ} {p : AtProg Unit} (h : All (ArgBelow argc) p) (env : AtEnv)
    (s : CallState) (hs : ∀ i ∈ s.reads, i < argc) :
    ∀ i ∈ (p.exec (atStep env) s).2.reads, i < argc := by
  have hstep : ∀ β (e : AtOp β) (t : CallState), ArgBelow argc β e → (∀ i ∈ t.reads, i < argc) →
      ∀ i ∈ (atStep env β e t).2.reads, i < argc := by
    intro β e t he ht i hi
    rcases reads_atStep env e t with ⟨j, hreads, hj⟩ | hreads
    · rw [hreads, List.mem_append, List.mem_singleton] at hi
      rcases hi with hi | rfl
      · exact ht i hi
      · exact (hj argc).mp he
    · exact ht i (hreads ▸ hi)
  exact exec_invariant hstep h hs

/-- What is behind `argc` in `argv` is not seen by a program that reads below `argc`. -/
theorem exec_argv_congr {argc : ℕ} {p : AtProg Unit} (h : All (ArgBelow argc) p) (env : AtEnv)
    {argv : ℕ → List UInt8} (hargv : ∀ i < argc, argv i = env.argv i) (s : CallState) :
    p.exec (atStep { env with argv := argv }) s = p.exec (atStep env) s := by
  refine exec_congr ?_ h s
  intro β e t he
  cases e with
  | arg i => exact congrArg (·, _) (hargv i he)
  | _ => rfl

/-- `AT+BAUDRATE` without an argument reads `argv[1]`. -/
theorem baudrate_reads (env : AtEnv) (s : CallState) :
    (callHandler env .baudrate 1 s).reads = [1] := by
  unfold callHandler AtCmd.program AtCmd.responseBAUDRATE
  simp

/-- A call has at least the command itself as an argument. -/
theorem processCommand_call {m m' : Memory} {pointers : List ℕ} {responseFunction : AtHandler}
    {argc : ℕ} {argv : List (List UInt8)}
    (h : processCommand m pointers = some (m', .call responseFunction argc argv)) : 1 ≤ argc := by
  cases pointers with
  | nil => cases h
  | cons arg0 rest =>
    rw [processCommand, Option.bind_eq_some_iff] at h
    obtain ⟨r, -, h⟩ := h
    split at h
    · obtain ⟨args, -, h⟩ := Option.map_eq_some_iff.mp h
      cases h
      exact Nat.succ_pos rest.length
    · cases h

/-- The name of the command is the first argument. -/
theorem parseParameter_call {m m' : Memory} {args : ℕ} {responseFunction : AtHandler}
    {argc : ℕ} {argv : List (List UInt8)}
    (h : parseParameter m args = some (m', .call responseFunction argc argv)) : 1 ≤ argc := by
  rw [parseParameter, Option.bind_eq_some_iff] at h
  obtain ⟨r, -, h⟩ := h
  split at h
  · exact processCommand_call h
  · obtain ⟨a, -, h⟩ := Option.bind_eq_some_iff.mp h
    exact processCommand_call h

/-- **Only given arguments are read**: for every command line, and whatever the stack held, the
    response function reads `argv[i]` for `i < argc` only, unless it is `responseBAUDRATE` with
    `argc` 1; and then nothing depends on what is behind `argc`. -/
theorem arguments_below_argc_iff {m m' : Memory} {args : ℕ} {responseFunction : AtHandler}
    {argc : ℕ} {argv : List (List UInt8)}
    (h : parseParameter m args = some (m', .call responseFunction argc argv)) (env : AtEnv)
    (s : CallState) :
    ((∀ i ∈ (callHandler env responseFunction argc s).reads, i < argc) ↔
      ¬ (responseFunction = .baudrate ∧ argc = 1)) ∧
    (¬ (responseFunction = .baudrate ∧ argc = 1) →
      ∀ stack : ℕ → List UInt8, (∀ i < argc, stack i = env.argv i) →
        callHandler { env with argv := stack } responseFunction argc s =
          callHandler env responseFunction argc s) := by
  have hall (hne : ¬ (responseFunction = .baudrate ∧ argc = 1)) :=
    AtCmd.args_program (parseParameter_call h) hne
  refine ⟨⟨?_, ?_⟩, ?_⟩
  · rintro hreads ⟨rfl, rfl⟩
    rw [baudrate_reads] at hreads
    exact absurd (hreads 1 (List.mem_singleton.mpr rfl)) (lt_irrefl 1)
  · intro hne
    exact reads_below (hall hne) env _ fun i hi => absurd hi List.not_mem_nil
  · intro hne stack hstack
    exact congrArg Prod.snd (exec_argv_congr (hall hne) env hstack _)

/-- The buffer with a line in it. -/
def lineMemory (line : List UInt8) : Memory := storeBytes (fun _ => 0) uartRecAtcmd (line ++ [0])

/-- The line lies in the buffer with a NUL behind it. -/
theorem bytesAt_lineMemory (line : List UInt8) :
    BytesAt (lineMemory line) uartRecAtcmd (line ++ [0]) := bytesAt_storeBytes _ uartRecAtcmd _

/-- `+uartfl=512` reads its argument only. -/
theorem arguments_below_argc_iff_uartfl : ∃ m', parseParameter
      (lineMemory (commandLine (ascii "+uartfl") [ascii "512"])) uartRecAtcmd
        = some (m', .call .uartfl 2 [ascii "+UARTFL", ascii "512"]) ∧
    ∀ env s, ∀ i ∈ (callHandler env .uartfl 2 s).reads, i < 2 := by
  obtain ⟨m', hparse⟩ := parseParameter_spec
    (bytesAt_lineMemory (commandLine (ascii "+uartfl") [ascii "512"])) (by decide +kernel)
    (by decide +kernel) (by decide +kernel) (by decide)
  have hevent : dispatch ((ascii "+uartfl").map toupper) [ascii "512"]
      = .call .uartfl 2 [ascii "+UARTFL", ascii "512"] := by decide +kernel
  rw [hevent] at hparse
  exact ⟨m', hparse, fun env s => (arguments_below_argc_iff hparse env s).1.mpr (by decide)⟩

/-- The line `AT+BAUDRATE` reads `argv[1]`, which nothing has written. -/
theorem baudrate_without_argument :
    ¬ ∀ (m m' : Memory) (args : ℕ) (responseFunction : AtHandler) (argc : ℕ)
      (argv : List (List UInt8)) (env : AtEnv) (s : CallState),
      parseParameter m args = some (m', .call responseFunction argc argv) →
        ∀ i ∈ (callHandler env responseFunction argc s).reads, i < argc := by
  intro hall
  obtain ⟨m', hparse⟩ := parseParameter_spec
    (bytesAt_lineMemory (commandLine (ascii "+BAUDRATE") [])) (by decide +kernel)
    (by decide +kernel) (by decide +kernel) (by decide)
  have hevent : dispatch ((ascii "+BAUDRATE").map toupper) []
      = .call .baudrate 1 [ascii "+BAUDRATE"] := by decide +kernel
  rw [hevent] at hparse
  let env : AtEnv := ⟨fun _ => [], none, 0, none, 0, 0, 0, 0, 0, 0, fun _ => 0⟩
  let s : CallState := ⟨firstBoot (fun _ => 0) .zero .zero [] (true, true), .zero, [], [], [], [],
    [], false, false⟩
  have hread := hall _ m' uartRecAtcmd .baudrate 1 _ env s hparse 1
  rw [baudrate_reads] at hread
  exact absurd (hread (List.mem_singleton.mpr rfl)) (lt_irrefl 1)

end SerialNet
