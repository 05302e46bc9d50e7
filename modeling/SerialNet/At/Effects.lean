import SerialNet.At.Broadcast

namespace SerialNet

open Prog AtCmd

/-!
# What the response functions do to the settings

A response function has been translated twice: as a function on the settings (`respond`), and as a
program (`AtCmd.program`), which has all that it calls but prints.  `respond_eq_callHandler` says
that the two agree, so what is shown of the settings along sequences of commands holds of the
programs too.

`settingsOp` is `atStep` on the settings alone.  A program that leaves the sockets alone runs alike
with both (`exec_settings_eq`), and there its conditions are those of the function.
-/

/-- What an operation answers, and how it changes the settings, as long as the broadcast status is
    `sts`. -/
def settingsOp (env : AtEnv) (sts : UdpBroadcastSts) (β : Type) (e : AtOp β) (s : Settings) :
    β × Settings :=
  match e with
  | .arg i => (env.argv i, s)
  | .settings => (s, s)
  | .setSettings f => ((), f s)
  | .broadcast => (sts, s)
  | .setBroadcast _ => ((), s)
  | .malloc _ => (env.malloc, s)
  | .free _ => ((), s)
  | .scanStart _ => (env.scanStart, s)
  | .socket _ => (-1, s)
  | .setsockopt _ => (env.setsockopt, s)
  | .bind _ => (env.bind, s)
  | .sendto _ _ _ => (env.sendto, s)
  | .close _ => ((), s)
  | .pingInit _ => (env.pingInit, s)
  | .txRateSet _ _ => (env.txRateSet, s)
  | .beaconPeriodSet _ _ => (env.beaconPeriodSet, s)
  | .inetAton str => (env.inetAton str, s)
  | .chipReset => ((), s)

/-- The settings behind a program. -/
def settingsAfter {α : Type} (env : AtEnv) (sts : UdpBroadcastSts) (p : AtProg α) (s : Settings) :
    Settings :=
  (p.exec (settingsOp env sts) s).2

/-- Without sockets the settings behind a program depend on the settings before it. -/
theorem exec_settings_eq {env : AtEnv} {p : AtProg Unit} (hp : All NoSocket p) (s : CallState) :
    (p.exec (atStep env) s).2.settings = settingsAfter env s.broadcast p s.settings := by
  have hstep : ∀ β (e : AtOp β) (t : CallState) (u : Settings), NoSocket β e →
      (t.settings = u ∧ t.broadcast = s.broadcast) →
      (atStep env β e t).1 = (settingsOp env s.broadcast β e u).1 ∧
        ((atStep env β e t).2.settings = (settingsOp env s.broadcast β e u).2 ∧
          (atStep env β e t).2.broadcast = s.broadcast) := by
    rintro β e t u he ⟨rfl, hsts⟩
    cases e with
    | setBroadcast f => exact he.elim
    | socket use => exact he.elim
    | sendto fd data len => exact he.elim
    | close fd => exact he.elim
    | broadcast => exact ⟨hsts, rfl, hsts⟩
    | _ => exact ⟨rfl, rfl, hsts⟩
  exact (exec_simulates hstep hp ⟨rfl, rfl⟩).2.1

/-! ### How a program goes on behind an operation -/

section Rules

variable {α β : Type} (env : AtEnv) (sts : UdpBroadcastSts) (s : Settings)

/-- A program that only returns leaves the settings alone. -/
@[simp] theorem settingsAfter_pure (a : α) : settingsAfter env sts (pure a) s = s := rfl

/-- A single operation acts on the settings as `settingsOp` says. -/
@[simp] theorem settingsAfter_perform (e : AtOp β) :
    settingsAfter env sts (perform e) s = (settingsOp env sts β e s).2 := rfl

/-- Reading an argument leaves the settings alone. -/
@[simp] theorem settingsAfter_arg (i : ℕ) (f : List UInt8 → AtProg α) :
    settingsAfter env sts (perform (.arg i) >>= f) s = settingsAfter env sts (f (env.argv i)) s :=
  rfl

/-- The rest of a program gets the settings as they are. -/
@[simp] theorem settingsAfter_settings (f : Settings → AtProg α) :
    settingsAfter env sts (perform .settings >>= f) s = settingsAfter env sts (f s) s := rfl

/-- The rest of a program starts with what is stored. -/
@[simp] theorem settingsAfter_setSettings (g : Settings → Settings) (f : Unit → AtProg α) :
    settingsAfter env sts (perform (.setSettings g) >>= f) s =
      settingsAfter env sts (f ()) (g s) := rfl

/-- `OSMMalloc` leaves the settings alone. -/
@[simp] theorem settingsAfter_malloc (size : ℕ) (f : Option ℕ → AtProg α) :
    settingsAfter env sts (perform (.malloc size) >>= f) s =
      settingsAfter env sts (f env.malloc) s := rfl

/-- `InfScanStart` leaves the settings alone. -/
@[simp] theorem settingsAfter_scanStart (rssi : ℤ) (f : ℤ → AtProg α) :
    settingsAfter env sts (perform (.scanStart rssi) >>= f) s =
      settingsAfter env sts (f env.scanStart) s := rfl

/-- `inet_aton` leaves the settings alone. -/
@[simp] theorem settingsAfter_inetAton (str : List UInt8) (f : ℕ → AtProg α) :
    settingsAfter env sts (perform (.inetAton str) >>= f) s =
      settingsAfter env sts (f (env.inetAton str)) s := rfl

/-- A test picks the branch whose settings remain. -/
@[simp] theorem settingsAfter_ite (c : Prop) [Decidable c] (p q : AtProg α) :
    settingsAfter env sts (if c then p else q) s =
      if c then settingsAfter env sts p s else settingsAfter env sts q s := by
  split <;> rfl

/-- One program after another whose result does not matter. -/
theorem settingsAfter_seq (p : AtProg β) (q : AtProg α) :
    settingsAfter env sts (p >>= fun _ => q) s =
      settingsAfter env sts q (settingsAfter env sts p s) :=
  congrArg Prod.snd (exec_bind p (fun _ => q) s)

end Rules

/-! ### The commands -/

/-- The arguments of a call are those of the list. -/
def Passes (env : AtEnv) (argv : List (List UInt8)) : Prop :=
  ∀ i (h : i < argv.length), env.argv i = argv[i]

section Shapes

variable {α : Type} {l : List α}

/-- `argc` is not 2 where `argv` has not the shape of one argument behind the name. -/
theorem length_ne_two (h : ∀ a b, l = [a, b] → False) : l.length ≠ 2 := by
  intro hl
  match l, hl with
  | [a, b], _ => exact h a b rfl

/-- `argc` is not 4 where there are not three arguments behind the name. -/
theorem length_ne_four (h : ∀ a b c d, l = [a, b, c, d] → False) : l.length ≠ 4 := by
  intro hl
  match l, hl with
  | [a, b, c, d], _ => exact h a b c d rfl

/-- `argc` is not 5 where there are not four. -/
theorem length_ne_five (h : ∀ a b c d e, l = [a, b, c, d, e] → False) : l.length ≠ 5 := by
  intro hl
  match l, hl with
  | [a, b, c, d, e], _ => exact h a b c d e rfl

/-- `argc` is not 6 where there are not five. -/
theorem length_ne_six (h : ∀ a b c d e f, l = [a, b, c, d, e, f] → False) : l.length ≠ 6 := by
  intro hl
  match l, hl with
  | [a, b, c, d, e, f], _ => exact h a b c d e f rfl

end Shapes

section Commands

variable {env : AtEnv} {argv : List (List UInt8)} (sts : UdpBroadcastSts) (s : Settings)

/-- `AT+SAVE`, as a program and as a function, keeps the settings for the next boot. -/
theorem settings_save :
    settingsAfter env sts (AtCmd.responseSAVE argv.length) s = SerialNet.responseSAVE s argv := by
  simp [AtCmd.responseSAVE, SerialNet.responseSAVE, settingsOp]

/-- `AT+BAUDRATE`: the program reads `argv[1]` before it looks at `argc`, the function only where it
    is there. -/
theorem settings_baudrate (henv : Passes env argv) :
    settingsAfter env sts (AtCmd.responseBAUDRATE argv.length) s
      = SerialNet.responseBAUDRATE s argv := by
  unfold SerialNet.responseBAUDRATE
  split
  · rename_i arg
    have h1 : env.argv 1 = arg := henv 1 (by simp)
    simp [AtCmd.responseBAUDRATE, settingsOp, h1]
  · rename_i hshape
    simp [AtCmd.responseBAUDRATE, length_ne_two hshape]

/-- `AT+UARTFL`: the length is cut to 16 bits, limited and stored. -/
theorem settings_uartfl (henv : Passes env argv) :
    settingsAfter env sts (AtCmd.responseUARTFL argv.length) s
      = SerialNet.responseUARTFL s argv := by
  unfold SerialNet.responseUARTFL
  split
  · rename_i arg
    have h1 : env.argv 1 = arg := henv 1 (by simp)
    simp [AtCmd.responseUARTFL, settingsOp, h1]
  · rename_i hshape
    simp [AtCmd.responseUARTFL, length_ne_two hshape]

/-- `AT+UARTFT`: the time is limited and stored. -/
theorem settings_uartft (henv : Passes env argv) :
    settingsAfter env sts (AtCmd.responseUARTFT argv.length) s
      = SerialNet.responseUARTFT s argv := by
  unfold SerialNet.responseUARTFT
  split
  · rename_i arg
    have h1 : env.argv 1 = arg := henv 1 (by simp)
    simp [AtCmd.responseUARTFT, settingsOp, h1]
  · rename_i hshape
    simp [AtCmd.responseUARTFT, length_ne_two hshape]

/-- `AT+LSLPT`: the sleep mode, when all three arguments are right. -/
theorem settings_lslpt (henv : Passes env argv) :
    settingsAfter env sts (AtCmd.responseLSLPT argv.length) s
      = SerialNet.responseLSLPT s argv := by
  unfold SerialNet.responseLSLPT
  split
  · rename_i arg1 arg2 arg3
    have h1 : env.argv 1 = arg1 := henv 1 (by simp)
    have h2 : env.argv 2 = arg2 := henv 2 (by simp)
    have h3 : env.argv 3 = arg3 := henv 3 (by simp)
    simp [AtCmd.responseLSLPT, settingsOp, h1, h2, h3, ite_or]
  · rename_i hshape
    simp [AtCmd.responseLSLPT, length_ne_four hshape]

/-- `AT+WQSOPT`: mode, channel, encryption, authentication and WMM, when all are right. -/
theorem settings_wqsopt (henv : Passes env argv) :
    settingsAfter env sts (AtCmd.responseWQSOPT argv.length) s
      = SerialNet.responseWQSOPT s argv := by
  unfold SerialNet.responseWQSOPT
  split
  · rename_i arg1 arg2 arg3 arg4 arg5
    have h1 : env.argv 1 = arg1 := henv 1 (by simp)
    have h2 : env.argv 2 = arg2 := henv 2 (by simp)
    have h3 : env.argv 3 = arg3 := henv 3 (by simp)
    have h4 : env.argv 4 = arg4 := henv 4 (by simp)
    have h5 : env.argv 5 = arg5 := henv 5 (by simp)
    -- The second argument is read only if the first one is not 0.
    by_cases hmode : u8 (atoi arg1) = 0
    · simp [AtCmd.responseWQSOPT, settingsOp, h1, h2, h3, h4, h5, ite_and, hmode]
    · simp [AtCmd.responseWQSOPT, settingsOp, h1, h2, h3, h4, h5, ite_and, hmode]
  · rename_i hshape
    simp [AtCmd.responseWQSOPT, length_ne_six hshape]

/-- `AT+WPHYMODE`: the physical mode, while WiFi is not started. -/
theorem settings_wphymode (henv : Passes env argv) :
    settingsAfter env sts (AtCmd.responseWPHYMODE argv.length) s
      = SerialNet.responseWPHYMODE s argv := by
  unfold SerialNet.responseWPHYMODE
  split
  · rename_i arg
    have h1 : env.argv 1 = arg := henv 1 (by simp)
    simp [AtCmd.responseWPHYMODE, settingsOp, h1, ite_and]
  · rename_i hshape
    simp [AtCmd.responseWPHYMODE, length_ne_two hshape]

/-- The return for a filter above the range of `INT8` is not reached. -/
theorem settings_wscanap (henv : Passes env argv) :
    settingsAfter env sts (AtCmd.responseWSCANAP argv.length) s
      = SerialNet.responseWSCANAP s argv env.malloc.isSome := by
  unfold SerialNet.responseWSCANAP
  cases hmalloc : env.malloc with
  | none =>
    simp only [AtCmd.responseWSCANAP, settingsAfter_malloc, hmalloc, settingsAfter_pure]
    split <;> simp
  | some p =>
    split
    · rename_i arg
      have h1 : env.argv 1 = arg := henv 1 (by simp)
      have hrssi := i8_le (u8 (atoi arg))
      simp [AtCmd.responseWSCANAP, hmalloc, settingsOp, h1, ite_and, hrssi]
    · rename_i hshape
      simp [AtCmd.responseWSCANAP, hmalloc, length_ne_two hshape]

/-- `AT+WSCAP`: the name, the key and, for a station, the try count. -/
theorem settings_wscap (henv : Passes env argv) :
    settingsAfter env sts (AtCmd.responseWSCAP argv.length) s
      = SerialNet.responseWSCAP s argv := by
  unfold SerialNet.responseWSCAP
  split
  · rename_i arg
    have h1 : env.argv 1 = arg := henv 1 (by simp)
    simp [AtCmd.responseWSCAP, settingsOp, h1]
  · rename_i arg1 arg2 arg3
    have h1 : env.argv 1 = arg1 := henv 1 (by simp)
    have h2 : env.argv 2 = arg2 := henv 2 (by simp)
    have h3 : env.argv 3 = arg3 := henv 3 (by simp)
    simp [AtCmd.responseWSCAP, settingsOp, h1, h2, h3, ite_and, ite_or]
  · rename_i hquery hshape
    simp [AtCmd.responseWSCAP, length_ne_two hquery, length_ne_four hshape]

/-- `AT+WSMTCONF`: the station mode, and that the configuration has begun. -/
theorem settings_wsmtconf :
    settingsAfter env sts (AtCmd.responseWSMTCONF argv.length) s
      = SerialNet.responseWSMTCONF s argv := by
  simp [AtCmd.responseWSMTCONF, SerialNet.responseWSMTCONF, settingsOp]

section Parts

variable {shift : ℕ} {arg : List UInt8} (harg : env.argv (shift + 1) = arg)
include harg

/-- The protocol of `AT+NQSCNN`, whose part is called with a shifted `argv`. -/
theorem settings_nmode : settingsAfter env sts (AtCmd.responseNMODE 2 shift) s
    = (SerialNet.responseNMODE s arg).1 := by
  simp [AtCmd.responseNMODE, AtCmd.responseBinary, SerialNet.responseNMODE, harg, ite_and,
    apply_ite Prod.fst]

/-- The type of `AT+NQSCNN`. -/
theorem settings_ntype : settingsAfter env sts (AtCmd.responseNTYPE 2 shift) s
    = (SerialNet.responseNTYPE s arg).1 := by
  simp [AtCmd.responseNTYPE, AtCmd.responseBinary, SerialNet.responseNTYPE, harg, ite_and,
    apply_ite Prod.fst]

/-- The port of `AT+NQSCNN`. -/
theorem settings_nport : settingsAfter env sts (AtCmd.responseNPORT 2 shift) s
    = (SerialNet.responseNPORT s arg).1 := by
  simp [AtCmd.responseNPORT, SerialNet.responseNPORT, harg, ite_or,
    apply_ite Prod.fst]

/-- The remote address of `AT+NQSCNN`, which a server ignores. -/
theorem settings_nrmtip : settingsAfter env sts (AtCmd.responseNRMTIP 2 shift) s
    = (SerialNet.responseNRMTIP env.inetAton s arg).1 := by
  simp [AtCmd.responseNRMTIP, SerialNet.responseNRMTIP, harg, apply_ite Prod.fst]

end Parts

/-- The four parts one after the other. -/
theorem settings_nqscnn (henv : Passes env argv) :
    settingsAfter env sts (AtCmd.responseNQSCNN argv.length) s
      = SerialNet.responseNQSCNN env.inetAton s argv := by
  unfold SerialNet.responseNQSCNN
  split
  · rename_i arg1 arg2 arg3 arg4
    have h1 : env.argv (0 + 1) = arg1 := henv 1 (by simp)
    have h2 : env.argv (1 + 1) = arg2 := henv 2 (by simp)
    have h3 : env.argv (2 + 1) = arg3 := henv 3 (by simp)
    have h4 : env.argv (3 + 1) = arg4 := henv 4 (by simp)
    dsimp only
    rw [← settings_nmode sts s h1, ← settings_ntype sts _ h2, ← settings_nport sts _ h3,
      ← settings_nrmtip sts _ h4]
    simp [AtCmd.responseNQSCNN, settingsAfter_seq]
  · rename_i hshape
    simp [AtCmd.responseNQSCNN, length_ne_five hshape]

/-- `AT+NLOCIP`: the address and, for a station, the DHCP mode and its try count. -/
theorem settings_nlocip (henv : Passes env argv) :
    settingsAfter env sts (AtCmd.responseNLOCIP argv.length) s
      = SerialNet.responseNLOCIP env.inetAton s argv := by
  unfold SerialNet.responseNLOCIP
  split
  · rename_i arg1 arg2 arg3
    have h1 : env.argv 1 = arg1 := henv 1 (by simp)
    have h2 : env.argv 2 = arg2 := henv 2 (by simp)
    have h3 : env.argv 3 = arg3 := henv 3 (by simp)
    simp [AtCmd.responseNLOCIP, settingsOp, h1, h2, h3, ite_and, ite_or]
  · rename_i hshape
    simp [AtCmd.responseNLOCIP, length_ne_four hshape]

/-- `AT+QUIT`: the data mode, while WiFi is started. -/
theorem settings_quit :
    settingsAfter env sts (AtCmd.responseQUIT argv.length) s = SerialNet.responseQUIT s argv := by
  simp [AtCmd.responseQUIT, SerialNet.responseQUIT, settingsOp]

end Commands

/-! ### The two models -/

/-- The operation changes no settings. -/
@[simp] def NoSettings : ∀ β, AtOp β → Prop
  | _, .setSettings _ => False
  | _, _ => True

/-- The operation does not reset the device. -/
@[simp] def NoReset : ∀ β, AtOp β → Prop
  | _, .chipReset => False
  | _, _ => True

/-- The commands that change settings. -/
def settingsHandlers : List AtHandler :=
  [.save, .factory, .baudrate, .uartft, .uartfl, .lslpt, .wqsopt, .wphymode, .wscanap, .wscap,
    .wsmtconf, .nqscnn, .nlocip, .quit]

/-- The programs of all the other handlers have no operation that stores a setting. -/
theorem noSettings_program {responseFunction : AtHandler}
    (h : responseFunction ∉ settingsHandlers) (argc : ℕ) :
    All NoSettings (AtCmd.program responseFunction argc) := by
  have hnone : OpKind.setSettings ∉ operations responseFunction := by
    revert h
    cases responseFunction <;> decide
  apply (program_operations responseFunction argc).mono
  intro β e he
  cases e with
  | setSettings f => exact hnone he
  | _ => exact trivial

/-- Only `AT+RST` and `AT+FACTORY` reset the device. -/
theorem noReset_program {responseFunction : AtHandler} (hrst : responseFunction ≠ .rst)
    (hfactory : responseFunction ≠ .factory) (argc : ℕ) :
    All NoReset (AtCmd.program responseFunction argc) := by
  have hnone : OpKind.chipReset ∉ operations responseFunction := by
    revert hrst hfactory
    cases responseFunction <;> decide
  apply (program_operations responseFunction argc).mono
  intro β e he
  cases e with
  | chipReset => exact hnone he
  | _ => exact trivial

section Call

variable {env : AtEnv} {argv : List (List UInt8)} {responseFunction : AtHandler}

/-- A call of one of the other handlers leaves the settings alone. -/
theorem callHandler_settings_of_noSettings (h : responseFunction ∉ settingsHandlers) (argc : ℕ)
    (s : CallState) : (callHandler env responseFunction argc s).settings = s.settings := by
  have hstep : ∀ β (e : AtOp β) (t : CallState), NoSettings β e → t.settings = s.settings →
      (atStep env β e t).2.settings = s.settings := by
    intro β e t he ht
    cases e with
    | setSettings f => exact he.elim
    | socket use => exact (congrArg CallState.settings (t.openSocket_eq use env.socket)).trans ht
    | _ => exact ht
  exact exec_invariant hstep (noSettings_program h argc) rfl

/-- Only `AT+RST` and `AT+FACTORY` reset the system. -/
theorem callHandler_resetting (hrst : responseFunction ≠ .rst)
    (hfactory : responseFunction ≠ .factory) (argc : ℕ) (s : CallState) :
    (callHandler env responseFunction argc s).resetting = s.resetting := by
  have hstep : ∀ β (e : AtOp β) (t : CallState), NoReset β e → t.resetting = s.resetting →
      (atStep env β e t).2.resetting = s.resetting := by
    intro β e t he ht
    cases e with
    | chipReset => exact he.elim
    | socket use => exact (congrArg CallState.resetting (t.openSocket_eq use env.socket)).trans ht
    | _ => exact ht
  exact exec_invariant hstep (noReset_program hrst hfactory argc) rfl

/-- The settings behind a command that does not reset the device. -/
theorem callHandler_settings (henv : Passes env argv) (pin : Bool × Bool)
    (hrst : responseFunction ≠ .rst) (hfactory : responseFunction ≠ .factory) (s : CallState) :
    (callHandler env responseFunction argv.length s).settings =
      respond env.inetAton s.settings responseFunction argv ⟨pin, env.malloc.isSome⟩ := by
  by_cases hset : responseFunction ∈ settingsHandlers
  · have hbct : responseFunction ∉ bctHandlers := by
      revert hset
      cases responseFunction <;> decide
    have hexec : (callHandler env responseFunction argv.length s).settings = settingsAfter env
        s.broadcast (AtCmd.program responseFunction argv.length) s.settings :=
      exec_settings_eq (noSocket_program hbct argv.length) _
    rw [hexec]
    cases responseFunction with
    | save => exact settings_save _ _
    | baudrate => exact settings_baudrate _ _ henv
    | uartft => exact settings_uartft _ _ henv
    | uartfl => exact settings_uartfl _ _ henv
    | lslpt => exact settings_lslpt _ _ henv
    | wqsopt => exact settings_wqsopt _ _ henv
    | wphymode => exact settings_wphymode _ _ henv
    | wscanap => exact settings_wscanap _ _ henv
    | wscap => exact settings_wscap _ _ henv
    | wsmtconf => exact settings_wsmtconf _ _
    | nqscnn => exact settings_nqscnn _ _ henv
    | nlocip => exact settings_nlocip _ _ henv
    | quit => exact settings_quit _ _
    | factory => exact absurd rfl hfactory
    | _ => exact absurd hset (by decide)
  · rw [callHandler_settings_of_noSettings hset]
    cases responseFunction with
    | rst => exact absurd rfl hrst
    | _ => first | rfl | exact absurd (by decide) hset

/-- **The two models agree**: the settings behind a response function are those behind its program,
    followed by a boot if the program has reset the device. -/
theorem respond_eq_callHandler (henv : Passes env argv) (pin : Bool × Bool) (s : CallState)
    (hs : s.resetting = false) :
    respond env.inetAton s.settings responseFunction argv ⟨pin, env.malloc.isSome⟩ =
      let t := callHandler env responseFunction argv.length s
      if t.resetting then reboot env.inetAton t.settings pin else t.settings := by
  by_cases hrst : responseFunction = .rst
  · subst hrst
    by_cases hargc : argv.length = 1 <;>
      simp [respond, SerialNet.responseRST, callHandler, AtCmd.program, AtCmd.responseRST, hargc,
        atStep, hs]
  · by_cases hfactory : responseFunction = .factory
    · subst hfactory
      by_cases hargc : argv.length = 1 <;>
        simp [respond, SerialNet.responseFACTORY, callHandler, AtCmd.program,
          AtCmd.responseFACTORY, hargc, atStep, hs]
    · dsimp only
      rw [callHandler_resetting hrst hfactory, hs, callHandler_settings henv pin hrst hfactory]
      rfl

end Call

end SerialNet
