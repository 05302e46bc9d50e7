import SerialNet.At.EndToEnd
import SerialNet.Net.SendTask

namespace SerialNet

/-!
# The bounds of `uart_rec_atcmd`

The interrupt fills `uart_rec_atcmd` while the tasks run: `AtThread` parses a complete line in
place, commands and `TestSerialToWifi` switch the mode, a line may be given up at any point.  The
store pointer nevertheless stays in the buffer, except that a line feed directly after `AT` puts
its NUL in front of it (`line_buffer_iff`).
-/

/-! ### The tasks around the buffer -/

/-- Where `AtThread` is: it polls `at_state`, or it has a line in `parseParameter`. -/
inductive AtPc where
  | poll | parsing
deriving DecidableEq, Repr

/-- The system with `AtThread`. -/
structure LineSystem where
  sys : System
  atPc : AtPc

/-- One step of the system or of `AtThread`. -/
inductive LineLabel where
  | sys (l : Label)
  /-- `parseParameter(uart_rec_atcmd)`: the command leaves `mem` behind. -/
  | parse (mem : Memory) (events : List AtEvent)
  /-- `at_state = at_statIdle` of `AtThread`. -/
  | finish

/-- The step; what a command does to the rest of the system are steps of their own. -/
def lineStep (s : LineSystem) : LineLabel → Option LineSystem
  | .sys l => (systemStep s.sys l).map fun sys => { s with sys := sys }
  | .parse mem events =>
      if s.atPc = .poll ∧ s.sys.dev.atMode = .at ∧ s.sys.dev.cmd.atState = .process then
        let cmd := { s.sys.dev.cmd with mem := mem, events := events }
        some { s with sys := { s.sys with dev := { s.sys.dev with cmd := cmd } }, atPc := .parsing }
      else none
  | .finish =>
      if s.atPc = .parsing then
        some { s with sys := { s.sys with dev := atThreadFinish s.sys.dev }, atPc := .poll }
      else none

/-- `parseParameter` as modelled is one way to take the step `parse`. -/
theorem lineStep_parse {s : LineSystem} {d : Device} (hpc : s.atPc = .poll)
    (h : atThreadParse s.sys.dev = some d) :
    lineStep s (.parse d.cmd.mem d.cmd.events) =
      some { s with sys := { s.sys with dev := d }, atPc := .parsing } := by
  unfold atThreadParse at h
  split at h
  case isTrue hpoll =>
    obtain ⟨r, -, hd⟩ := Option.map_eq_some_iff.mp h
    rw [lineStep, if_pos ⟨hpc, hpoll⟩, ← hd]
  case isFalse => cases h

/-! ### The store pointer -/

/-- While a line is received, the next byte goes into the buffer. -/
def PointerInside (cmd : AtUart) : Prop :=
  cmd.atState = .recving → uartRecAtcmd ≤ cmd.pCmdLine ∧ cmd.pCmdLine < uartRecAtcmdEnd

/-- Whatever the memory holds, the byte changes it inside the buffer only. -/
def StoresInside (cmd : AtUart) (dummy : UInt8) : Prop :=
  ∀ m, FrameAt m (atRecv { cmd with mem := m } dummy).mem uartRecAtcmd maxAtRecvSize

/-- If the byte completes a line, there is a NUL in the buffer before its last byte. -/
def EndsLine (cmd : AtUart) (dummy : UInt8) : Prop :=
  cmd.atState ≠ .process → (atRecv cmd dummy).atState = .process →
    ∃ i ≤ 198, (atRecv cmd dummy).mem (uartRecAtcmd + i) = 0

/-- The line ends before its first byte. -/
def EmptyLine (cmd : AtUart) (dummy : UInt8) : Prop :=
  cmd.atState = .recving ∧ cmd.pCmdLine = uartRecAtcmd ∧ dummy = 10

variable {cmd : AtUart} {dummy : UInt8}

/-- A byte of a line is stored; a line feed ends the line, and a full buffer gives it up. -/
theorem atRecv_recving (cmd : AtUart) (dummy : UInt8) (h : cmd.atState = .recving) :
    (dummy = 10 ∧ (atRecv cmd dummy).atState = .process ∧
      (atRecv cmd dummy).mem = store8 (store8 cmd.mem cmd.pCmdLine 10) (cmd.pCmdLine - 1) 0) ∨
    (dummy ≠ 10 ∧ (atRecv cmd dummy).mem = store8 cmd.mem cmd.pCmdLine dummy ∧
      (atRecv cmd dummy).pCmdLine = cmd.pCmdLine + 1 ∧
      (atRecv cmd dummy).atState =
        if cmd.pCmdLine + 1 ≥ uartRecAtcmdEnd then .idle else .recving) := by
  rw [atRecv, h]
  by_cases hlf : dummy = 10
  · refine .inl ⟨hlf, ?_⟩
    subst hlf
    exact ⟨rfl, rfl⟩
  · refine .inr ⟨hlf, ?_⟩
    unfold uartRecAtcmdEnd maxAtRecvSize
    by_cases hfull : cmd.pCmdLine ≥ uartRecAtcmd + 199
    · simp [hlf, hfull, show cmd.pCmdLine + 1 ≥ uartRecAtcmd + 200 by omega]
    · simp [hlf, hfull, show ¬ cmd.pCmdLine + 1 ≥ uartRecAtcmd + 200 by omega]

/-- Outside of a line nothing is stored, and a line starts at the front of the buffer. -/
theorem atRecv_not_recving (cmd : AtUart) (dummy : UInt8) (h : cmd.atState ≠ .recving) :
    (atRecv cmd dummy).mem = cmd.mem ∧
      ((atRecv cmd dummy).atState = .process → cmd.atState = .process) ∧
      ((atRecv cmd dummy).atState = .recving → (atRecv cmd dummy).pCmdLine = uartRecAtcmd) := by
  unfold atRecv
  split
  case h_1 =>
    extract_lets s
    split_ifs
    · exact ⟨rfl, by rintro ⟨⟩, fun _ => rfl⟩
    · exact ⟨rfl, fun h' => h', fun h' => absurd h' h⟩
  case h_2 hrecving => exact absurd hrecving h
  case h_3 =>
    split_ifs
    · exact ⟨rfl, fun h' => h', fun h' => absurd h' h⟩
    · exact ⟨rfl, fun h' => h', fun h' => absurd h' h⟩
  all_goals exact ⟨rfl, fun h' => h', fun h' => absurd h' h⟩

/-- A byte keeps the pointer in the buffer. -/
theorem PointerInside.atRecv (h : PointerInside cmd) : PointerInside (atRecv cmd dummy) := by
  intro hnext
  by_cases hstate : cmd.atState = .recving
  · obtain ⟨hlow, hhigh⟩ := h hstate
    rcases atRecv_recving cmd dummy hstate with ⟨-, hend, -⟩ | ⟨-, -, hpointer, hmore⟩
    · rw [hend] at hnext
      cases hnext
    · rw [hmore] at hnext
      split at hnext
      · cases hnext
      · omega
  · rw [(atRecv_not_recving cmd dummy hstate).2.2 hnext]
    exact ⟨le_rfl, by decide⟩

/-- With the pointer in the buffer, a byte is stored outside exactly if it is a line feed that ends
    an empty line. -/
theorem storesInside_iff (h : PointerInside cmd) :
    StoresInside cmd dummy ↔ ¬ EmptyLine cmd dummy := by
  by_cases hstate : cmd.atState = .recving
  · obtain ⟨hlow, hhigh⟩ := h hstate
    unfold uartRecAtcmdEnd at hhigh
    have hbase : uartRecAtcmd = 0x20000000 := rfl
    constructor
    · rintro hinside ⟨-, hfront, rfl⟩
      -- the NUL goes to the byte before the buffer
      have hbyte := hinside (fun _ => 1) (uartRecAtcmd - 1) (.inl (by omega))
      rcases atRecv_recving { cmd with mem := fun _ => 1 } 10 hstate with
        ⟨-, -, hmem⟩ | ⟨hne, -⟩
      · rw [hmem, hfront, store8_self] at hbyte
        cases hbyte
      · exact hne rfl
    · intro hempty m q hq
      rcases atRecv_recving { cmd with mem := m } dummy hstate with
        ⟨hlf, -, hmem⟩ | ⟨-, hmem, -⟩
      · have hfront : cmd.pCmdLine ≠ uartRecAtcmd := fun hfront => hempty ⟨hstate, hfront, hlf⟩
        rw [hmem, store8_of_ne (by show q ≠ cmd.pCmdLine - 1; omega),
          store8_of_ne (by show q ≠ cmd.pCmdLine; omega)]
      · rw [hmem, store8_of_ne (by show q ≠ cmd.pCmdLine; omega)]
  · refine iff_of_true (fun m => ?_) fun hempty => hstate hempty.1
    rw [(atRecv_not_recving { cmd with mem := m } dummy hstate).1]
    exact fun _ _ => rfl

/-- A line that is not empty is complete with a NUL in the buffer. -/
theorem endsLine_of_not_emptyLine (h : PointerInside cmd) (hempty : ¬ EmptyLine cmd dummy) :
    EndsLine cmd dummy := by
  intro hbefore hafter
  by_cases hstate : cmd.atState = .recving
  · obtain ⟨hlow, hhigh⟩ := h hstate
    unfold uartRecAtcmdEnd maxAtRecvSize at hhigh
    rcases atRecv_recving cmd dummy hstate with ⟨hlf, -, hmem⟩ | ⟨-, -, -, hmore⟩
    · have hfront : cmd.pCmdLine ≠ uartRecAtcmd := fun hfront => hempty ⟨hstate, hfront, hlf⟩
      refine ⟨cmd.pCmdLine - 1 - uartRecAtcmd, by omega, ?_⟩
      rw [hmem, show uartRecAtcmd + (cmd.pCmdLine - 1 - uartRecAtcmd) = cmd.pCmdLine - 1 by omega,
        store8_self]
    · rw [hmore] at hafter
      split at hafter <;> cases hafter
  · exact absurd ((atRecv_not_recving cmd dummy hstate).2.1 hafter) hbefore

/-! ### Every interleaving -/

/-- The command path after a step of the system: a byte went into it, or at most the line was given
    up. -/
theorem systemStep_cmd {s s' : System} {l : Label} (h : systemStep s l = some s') :
    (∃ dummy, l = .byte dummy ∧ s'.dev = uartDataRecv s.dev dummy) ∨ s'.dev.cmd = s.dev.cmd ∨
      s'.dev.cmd = { s.dev.cmd with atState := .idle } := by
  cases l
  case byte dummy => exact .inl ⟨dummy, rfl, congrArg System.dev (Option.some.inj h).symm⟩
  case timer =>
    obtain ⟨d, hd, rfl⟩ := Option.map_eq_some_iff.mp h
    unfold timerIsr timerFuncProcess at hd
    split at hd
    · rw [← Option.some.inj hd]
      refine .inr (.inl ?_)
      show (if _ then _ else _ : Device).cmd = _
      split <;> rfl
    · cases hd
  case task snd =>
    refine .inr (.inl ?_)
    rw [sendStep_dev h]
  case mode =>
    change modeStep s = some s' at h
    cases hpc : s.modePc <;> simp only [modeStep, hpc] at h
    case setIdle => exact .inr (.inr (congrArg (·.dev.cmd) (Option.some.inj h).symm))
    case pend =>
      split at h
      · exact .inr (.inl (congrArg (·.dev.cmd) (Option.some.inj h).symm))
      · cases h
    all_goals exact .inr (.inl (congrArg (·.dev.cmd) (Option.some.inj h).symm))
  case close i => exact .inr (.inl (congrArg (·.dev.cmd) (Option.some.inj h).symm))
  case sockets => exact .inr (.inl (congrArg (·.dev.cmd) (Option.some.inj h).symm))
  case call =>
    change (if _ then _ else none) = some s' at h
    split at h
    · exact .inr (.inl (congrArg (·.dev.cmd) (Option.some.inj h).symm))
    · cases h
  all_goals
    change (if s.dev.atMode = .at then _ else none) = some s' at h
    split at h
    · exact .inr (.inl (congrArg (·.dev.cmd) (Option.some.inj h).symm))
    · cases h

/-- The step brings a byte in `AT_MODE`. -/
def BringsByte (s : LineSystem) (l : LineLabel) (dummy : UInt8) : Prop :=
  l = .sys (.byte dummy) ∧ s.sys.dev.atMode = .at

/-- In `DATA_MODE` a byte leaves the command path alone. -/
theorem dataRecv_cmd (d : Device) (dummy : UInt8) : (dataRecv d dummy).cmd = d.cmd := by
  simp only [dataRecv, resetTimer0, apply_ite Device.cmd, ite_self]

/-- A step keeps the pointer in the buffer. -/
theorem pointerInside_step {s s' : LineSystem} {l : LineLabel}
    (hs : PointerInside s.sys.dev.cmd) (h : lineStep s l = some s') :
    PointerInside s'.sys.dev.cmd := by
  cases l with
  | sys l =>
    obtain ⟨sys, hsys, rfl⟩ := Option.map_eq_some_iff.mp h
    show PointerInside sys.dev.cmd
    rcases systemStep_cmd hsys with ⟨dummy, -, hdev⟩ | hcmd | hcmd
    · rw [hdev, uartDataRecv]
      split
      · rwa [dataRecv_cmd]
      · exact hs.atRecv
    · rwa [hcmd]
    · rw [hcmd]
      rintro ⟨⟩
  | parse mem events =>
    change (if _ then _ else none) = some s' at h
    split at h
    case isTrue hpoll =>
      rw [← Option.some.inj h]
      intro hrecving
      exact absurd (hpoll.2.2.symm.trans hrecving) (by decide)
    case isFalse => cases h
  | finish =>
    change (if _ then _ else none) = some s' at h
    split at h
    · rw [← Option.some.inj h]
      rintro ⟨⟩
    · cases h

/-- **When the line buffer is respected.**  For every interleaving of bytes in either mode with the
    steps of `AtThread` and of the mode switches: all bytes received in `AT_MODE` are stored inside
    `uart_rec_atcmd`, and all lines end with a NUL in it, if and only if no line feed comes directly
    after the `AT` of its line. -/
theorem line_buffer_iff {s : LineSystem} (hs : PointerInside s.sys.dev.cmd)
    (ls : List LineLabel) :
    Along lineStep (fun s l => ∀ dummy, BringsByte s l dummy →
        StoresInside s.sys.dev.cmd dummy ∧ EndsLine s.sys.dev.cmd dummy) s ls ↔
      Along lineStep (fun s l => ∀ dummy, BringsByte s l dummy →
        ¬ EmptyLine s.sys.dev.cmd dummy) s ls := by
  have hstep : ∀ (s : LineSystem) l s', PointerInside s.sys.dev.cmd → lineStep s l = some s' →
      PointerInside s'.sys.dev.cmd := fun s l s' hs h => pointerInside_step hs h
  refine along_congr hstep (fun s l hs => ?_) hs
  apply forall_congr'
  intro dummy
  apply imp_congr_right
  intro _
  rw [storesInside_iff hs]
  exact and_iff_left_of_imp (endsLine_of_not_emptyLine hs)

/-- The system at start. -/
def lineInit : LineSystem :=
  { sys := { dev := initDevice [], sendPc := .returned, proto := .udp, role := .client
             sendBuf := [], sent := [], modePc := .loopTop }
    atPc := .poll }

/-- `ATX` and a line feed, from the start. -/
def oneByteLine : List LineLabel :=
  [.sys (.byte 65), .sys (.byte 84), .sys (.byte 88), .sys (.byte 10)]

theorem line_buffer_iff_init :
    Along lineStep (fun s l => ∀ dummy, BringsByte s l dummy →
        StoresInside s.sys.dev.cmd dummy ∧ EndsLine s.sys.dev.cmd dummy) lineInit oneByteLine ↔
      Along lineStep (fun s l => ∀ dummy, BringsByte s l dummy →
        ¬ EmptyLine s.sys.dev.cmd dummy) lineInit oneByteLine :=
  line_buffer_iff (by rintro ⟨⟩) oneByteLine

/-- `AT` and a line feed store in front of the buffer. -/
theorem line_feed_before_buffer :
    ¬ ∀ ls, Along lineStep (fun s l => ∀ dummy, BringsByte s l dummy →
        StoresInside s.sys.dev.cmd dummy ∧ EndsLine s.sys.dev.cmd dummy) lineInit ls := by
  intro hall
  have hright := hall [.sys (.byte 65), .sys (.byte 84), .sys (.byte 10)]
  have hbyte := ((hright.2 _ rfl).2 _ rfl).1 10 ⟨rfl, rfl⟩
  exact absurd (hbyte.1 (fun _ => 1) (uartRecAtcmd - 1) (.inl (by decide))) (by decide)

end SerialNet
