import SerialNet.At.Responses
import SerialNet.Lib.Run

namespace SerialNet

/-!
# `AT+SAVE`, a reset, and the settings after it

`LoadUserParam` sets `atMode` and `SleepMode`, limits `frameLength` to 32 to 1400 and leaves all
else as it was saved.  `AT+UARTFL` applies the same limits, so that a `frameLength` it has set or
that was loaded before is not changed (`frameLengthOk_run`).  Only `InitFactoryParam` stores
another one: `DEF_RECV_BUFFER_SIZE`, which is 10240.  So settings survive exactly if `frameLength`
is not that default (`settings_survive_iff`).
-/

variable (inetAton : List UInt8 → ℕ)

/-- The limits leave what is within them. -/
theorem limitFrameLength_eq_self {n : ℕ} :
    limitFrameLength n = n ↔ minRecvBufferSize ≤ n ∧ n ≤ maxRecvBufferSize := by
  unfold limitFrameLength minRecvBufferSize maxRecvBufferSize
  split
  · omega
  · split <;> omega

/-- A limited frame length is one that a boot accepts. -/
theorem limitFrameLength_range (n : ℕ) :
    minRecvBufferSize ≤ limitFrameLength n ∧ limitFrameLength n ≤ maxRecvBufferSize := by
  unfold limitFrameLength minRecvBufferSize maxRecvBufferSize
  split
  · omega
  · split <;> omega

/-- A limited length fits into 16 bits. -/
theorem limitFrameLength_mod (n : ℕ) : limitFrameLength n % 65536 = limitFrameLength n := by
  have hrange := limitFrameLength_range n
  unfold maxRecvBufferSize at hrange
  omega

/-! ### A reset after `AT+SAVE` -/

/-- The settings that `AT+SAVE` saves. -/
def savedParam (s : Settings) : UserCfgParam := (responseSAVE s [ascii "+SAVE"]).userParam

/-- The settings after `AT+SAVE` and a reset with the factory pin high. -/
def saveAndReset (s : Settings) : Settings :=
  reboot inetAton (responseSAVE s [ascii "+SAVE"]) (true, true)

/-- All settings survive, except that the device starts in `AT_MODE` and `NORMAL_MODE`. -/
def SettingsSurvive (s : Settings) : Prop :=
  (saveAndReset inetAton s).userParam
      = { savedParam s with atMode := atModeAt, sleepMode := normalMode } ∧
    (saveAndReset inetAton s).sysParam = (savedParam s).cfg

/-- Valid user parameters are loaded and limited. -/
theorem reboot_valid {s : Settings} (h : s.userSector.isValid = userParamFlagValid) :
    (reboot inetAton s (true, true)).userParam = { s.userSector with
        atMode := atModeAt, sleepMode := normalMode
        frameLength := limitFrameLength s.userSector.frameLength } ∧
      (reboot inetAton s (true, true)).sysParam = s.userSector.cfg := by
  -- With the pin high and valid parameters the boot takes the user path.
  have hload : reboot inetAton s (true, true) = loadUserParam (getUserParam { s with
      userParam := .zero, factoryParam := .zero, sysParam := .zero, linkStatus := .linkDown
      smtconfigBegin := 0 }) := by
    rw [reboot, initDefaultData, if_neg (by simp)]
    exact if_pos h
  rw [hload]
  exact ⟨rfl, rfl⟩

/-- The settings survive exactly if `frameLength` is within the limits. -/
theorem settingsSurvive_iff_range (s : Settings) : SettingsSurvive inetAton s ↔
    minRecvBufferSize ≤ s.userParam.frameLength ∧ s.userParam.frameLength ≤ maxRecvBufferSize := by
  have hvalid : (responseSAVE s [ascii "+SAVE"]).userSector.isValid = userParamFlagValid := rfl
  obtain ⟨huser, hsys⟩ := reboot_valid inetAton hvalid
  rw [← limitFrameLength_eq_self]
  constructor
  · rintro ⟨hall, -⟩
    -- All other fields agree anyway, so only `frameLength` says something.
    rw [saveAndReset, huser] at hall
    exact congrArg UserCfgParam.frameLength hall
  · intro hlimit
    refine ⟨?_, hsys⟩
    rw [saveAndReset, huser]
    show ({ savedParam s with
      atMode := atModeAt, sleepMode := normalMode
      frameLength := limitFrameLength s.userParam.frameLength } : UserCfgParam) = _
    rw [hlimit]
    rfl

/-! ### What `frameLength` can be -/

/-- The factory default, or a length within the limits. -/
def FrameLengthOk (s : Settings) : Prop :=
  s.userParam.frameLength = defRecvBufferSize ∨
    minRecvBufferSize ≤ s.userParam.frameLength ∧ s.userParam.frameLength ≤ maxRecvBufferSize

/-- The frame length alone matters. -/
theorem FrameLengthOk.congr {s s' : Settings} (h : FrameLengthOk s)
    (heq : s'.userParam.frameLength = s.userParam.frameLength) : FrameLengthOk s' := by
  rw [FrameLengthOk, heq]
  exact h

/-- Every boot loads the factory default or a limited length. -/
theorem frameLengthOk_reboot (s : Settings) (pin : Bool × Bool) :
    FrameLengthOk (reboot inetAton s pin) := by
  rw [reboot, initDefaultData]
  split
  · exact .inl rfl
  · dsimp only
    split
    · exact .inr (limitFrameLength_range _)
    · exact .inl rfl

/-- `AT+UARTFL` stores a limited length. -/
theorem frameLengthOk_uartfl {s : Settings} (h : FrameLengthOk s) (argv : List (List UInt8)) :
    FrameLengthOk (responseUARTFL s argv) := by
  unfold responseUARTFL
  split
  · split
    · exact h
    · split
      · refine .inr ?_
        show minRecvBufferSize ≤ limitFrameLength _ % 65536 ∧ limitFrameLength _ % 65536 ≤ _
        rw [limitFrameLength_mod]
        exact limitFrameLength_range _
      · exact h
  · exact h

/-! No other response function changes it. -/

theorem responseSAVE_frameLength (s : Settings) (argv : List (List UInt8)) :
    (responseSAVE s argv).userParam.frameLength = s.userParam.frameLength := by
  unfold responseSAVE
  split <;> rfl

theorem responseBAUDRATE_frameLength (s : Settings) (argv : List (List UInt8)) :
    (responseBAUDRATE s argv).userParam.frameLength = s.userParam.frameLength := by
  unfold responseBAUDRATE
  repeat' split
  all_goals rfl

theorem responseUARTFT_frameLength (s : Settings) (argv : List (List UInt8)) :
    (responseUARTFT s argv).userParam.frameLength = s.userParam.frameLength := by
  unfold responseUARTFT
  repeat' split
  all_goals rfl

theorem responseLSLPT_frameLength (s : Settings) (argv : List (List UInt8)) :
    (responseLSLPT s argv).userParam.frameLength = s.userParam.frameLength := by
  unfold responseLSLPT
  dsimp only
  repeat' split
  all_goals rfl

theorem responseWQSOPT_frameLength (s : Settings) (argv : List (List UInt8)) :
    (responseWQSOPT s argv).userParam.frameLength = s.userParam.frameLength := by
  unfold responseWQSOPT
  dsimp only
  repeat' split
  all_goals rfl

theorem responseWSCANAP_frameLength (s : Settings) (argv : List (List UInt8)) (malloc : Bool) :
    (responseWSCANAP s argv malloc).userParam.frameLength = s.userParam.frameLength := by
  unfold responseWSCANAP
  repeat' split
  all_goals rfl

theorem responseWSCAP_frameLength (s : Settings) (argv : List (List UInt8)) :
    (responseWSCAP s argv).userParam.frameLength = s.userParam.frameLength := by
  unfold responseWSCAP
  dsimp only
  repeat' split
  all_goals rfl

theorem responseWSMTCONF_frameLength (s : Settings) (argv : List (List UInt8)) :
    (responseWSMTCONF s argv).userParam.frameLength = s.userParam.frameLength := by
  unfold responseWSMTCONF
  repeat' split
  all_goals rfl

theorem responseWPHYMODE_frameLength (s : Settings) (argv : List (List UInt8)) :
    (responseWPHYMODE s argv).userParam.frameLength = s.userParam.frameLength := by
  unfold responseWPHYMODE
  dsimp only
  repeat' split
  all_goals rfl

theorem responseNMODE_frameLength (s : Settings) (arg : List UInt8) :
    (responseNMODE s arg).1.userParam.frameLength = s.userParam.frameLength := by
  unfold responseNMODE
  repeat' split
  all_goals rfl

theorem responseNTYPE_frameLength (s : Settings) (arg : List UInt8) :
    (responseNTYPE s arg).1.userParam.frameLength = s.userParam.frameLength := by
  unfold responseNTYPE
  repeat' split
  all_goals rfl

theorem responseNPORT_frameLength (s : Settings) (arg : List UInt8) :
    (responseNPORT s arg).1.userParam.frameLength = s.userParam.frameLength := by
  unfold responseNPORT
  repeat' split
  all_goals rfl

theorem responseNRMTIP_frameLength (s : Settings) (arg : List UInt8) :
    (responseNRMTIP inetAton s arg).1.userParam.frameLength = s.userParam.frameLength := by
  unfold responseNRMTIP
  repeat' split
  all_goals rfl

theorem responseNQSCNN_frameLength (s : Settings) (argv : List (List UInt8)) :
    (responseNQSCNN inetAton s argv).userParam.frameLength = s.userParam.frameLength := by
  unfold responseNQSCNN
  split
  · rw [responseNRMTIP_frameLength, responseNPORT_frameLength, responseNTYPE_frameLength,
      responseNMODE_frameLength]
  · rfl

theorem responseNLOCIP_frameLength (s : Settings) (argv : List (List UInt8)) :
    (responseNLOCIP inetAton s argv).userParam.frameLength = s.userParam.frameLength := by
  unfold responseNLOCIP
  dsimp only
  repeat' split
  all_goals rfl

theorem responseQUIT_frameLength (s : Settings) (argv : List (List UInt8)) :
    (responseQUIT s argv).userParam.frameLength = s.userParam.frameLength := by
  unfold responseQUIT
  repeat' split
  all_goals rfl

/-! ### Runs -/

/-- **One command.** -/
theorem frameLengthOk_respond {s : Settings} (h : FrameLengthOk s) (responseFunction : AtHandler)
    (argv : List (List UInt8)) (env : CommandEnv) :
    FrameLengthOk (respond inetAton s responseFunction argv env) := by
  cases responseFunction with
  | save => exact h.congr (responseSAVE_frameLength s argv)
  | factory =>
    simp only [respond, responseFACTORY]
    split
    · exact h
    · exact frameLengthOk_reboot inetAton _ env.pin
  | rst =>
    simp only [respond, responseRST]
    split
    · exact h
    · exact frameLengthOk_reboot inetAton s env.pin
  | baudrate => exact h.congr (responseBAUDRATE_frameLength s argv)
  | uartft => exact h.congr (responseUARTFT_frameLength s argv)
  | uartfl => exact frameLengthOk_uartfl h argv
  | lslpt => exact h.congr (responseLSLPT_frameLength s argv)
  | wqsopt => exact h.congr (responseWQSOPT_frameLength s argv)
  | wphymode => exact h.congr (responseWPHYMODE_frameLength s argv)
  | wscanap => exact h.congr (responseWSCANAP_frameLength s argv env.malloc)
  | wscap => exact h.congr (responseWSCAP_frameLength s argv)
  | wsmtconf => exact h.congr (responseWSMTCONF_frameLength s argv)
  | nqscnn => exact h.congr (responseNQSCNN_frameLength inetAton s argv)
  | nlocip => exact h.congr (responseNLOCIP_frameLength inetAton s argv)
  | quit => exact h.congr (responseQUIT_frameLength s argv)
  | _ => exact h

/-- **One event.** -/
theorem frameLengthOk_step {s s' : Settings} {e : SettingsEvent} (h : FrameLengthOk s)
    (hs : settingsStep inetAton s e = some s') : FrameLengthOk s' := by
  cases e with
  | command responseFunction argv env =>
    simp only [settingsStep] at hs
    split at hs
    · obtain rfl := Option.some.inj hs
      exact frameLengthOk_respond inetAton h responseFunction argv env
    · cases hs
  | sysParam cfg =>
    obtain rfl := Option.some.inj hs
    exact h
  | linkStatus event =>
    obtain rfl := Option.some.inj hs
    exact h
  | smartconfig =>
    obtain rfl := Option.some.inj hs
    rw [responseSmartconfig]
    split <;> exact h
  | cmdMode =>
    obtain rfl := Option.some.inj hs
    exact h
  | reset pin =>
    obtain rfl := Option.some.inj hs
    exact frameLengthOk_reboot inetAton s pin

/-- In every reachable state `frameLength` is the factory default or within the limits. -/
theorem frameLengthOk_run {userSector factorySector : UserCfgParam} {permanentAddress : List UInt8}
    {pin : Bool × Bool} {es : List SettingsEvent} {s : Settings}
    (h : run (settingsStep inetAton)
      (firstBoot inetAton userSector factorySector permanentAddress pin) es = some s) :
    FrameLengthOk s :=
  run_invariant (fun _ _ _ hinv _ hs => frameLengthOk_step inetAton hinv hs) es _ s
    (frameLengthOk_reboot inetAton _ pin)
    (along_of_forall (fun _ _ _ => trivial) _) h

/-- **Saved settings survive** a reset, from every state that can be reached from a first boot
    with any content of the flash, exactly if `frameLength` is not the factory default. -/
theorem settings_survive_iff {userSector factorySector : UserCfgParam}
    {permanentAddress : List UInt8} {pin : Bool × Bool} {es : List SettingsEvent} {s : Settings}
    (h : run (settingsStep inetAton)
      (firstBoot inetAton userSector factorySector permanentAddress pin) es = some s) :
    SettingsSurvive inetAton s ↔ s.userParam.frameLength ≠ defRecvBufferSize := by
  rw [settingsSurvive_iff_range]
  rcases frameLengthOk_run inetAton h with hdefault | hrange
  · rw [hdefault]
    decide
  · apply iff_of_true hrange
    intro hdefault
    rw [hdefault] at hrange
    exact absurd hrange (by decide)

/-- What `inet_aton` stores for four decimal numbers. -/
def dottedDecimal (str : List UInt8) : ℕ :=
  ((str.splitOnP (· = 46)).map atoi).foldr (fun part rest => part + 256 * rest) 0

/-- After the first boot of an empty flash, `AT+UARTFL=1024` and `AT+NQSCNN=0,0,80,10.0.0.7`. -/
theorem settings_survive_iff_set :
    ∃ s, run (settingsStep dottedDecimal) (firstBoot dottedDecimal .zero .zero [2, 0, 0, 0, 0, 1]
        (true, true))
      [.command .uartfl [ascii "+UARTFL", ascii "1024"] ⟨(true, true), true⟩,
        .command .nqscnn [ascii "+NQSCNN", ascii "0", ascii "0", ascii "80", ascii "10.0.0.7"]
          ⟨(true, true), true⟩] = some s ∧
      (s.userParam.frameLength, s.userParam.remoteCommIp) = (1024, 117440522) ∧
      (SettingsSurvive dottedDecimal s ↔ s.userParam.frameLength ≠ defRecvBufferSize) := by
  have hrun : (run (settingsStep dottedDecimal) (firstBoot dottedDecimal .zero .zero
      [2, 0, 0, 0, 0, 1] (true, true))
      [.command .uartfl [ascii "+UARTFL", ascii "1024"] ⟨(true, true), true⟩,
        .command .nqscnn [ascii "+NQSCNN", ascii "0", ascii "0", ascii "80", ascii "10.0.0.7"]
          ⟨(true, true), true⟩]).map (fun s => (s.userParam.frameLength, s.userParam.remoteCommIp))
      = some (1024, 117440522) := by
    decide +kernel
  obtain ⟨s, hs, hvalues⟩ := Option.map_eq_some_iff.mp hrun
  exact ⟨s, hs, hvalues, settings_survive_iff dottedDecimal hs⟩

/-- The factory default itself does not survive: after the first boot of an empty flash `AT+SAVE`
    stores `frameLength` 10240, and after the reset it is 1400. -/
theorem factory_default_lost :
    (firstBoot dottedDecimal .zero .zero [2, 0, 0, 0, 0, 1] (true, true)).userParam.frameLength
      = 10240 ∧
    (saveAndReset dottedDecimal
      (firstBoot dottedDecimal .zero .zero [2, 0, 0, 0, 0, 1] (true, true))).userParam.frameLength
      = 1400 ∧
    ¬ SettingsSurvive dottedDecimal
      (firstBoot dottedDecimal .zero .zero [2, 0, 0, 0, 0, 1] (true, true)) := by
  refine ⟨rfl, rfl, fun hsurvive => ?_⟩
  -- 1400 = 10240
  have hlength := congrArg UserCfgParam.frameLength hsurvive.1
  exact absurd hlength (by decide)

end SerialNet
