import Mathlib.Data.List.TakeWhile
import SerialNet.At.SaveReload

namespace SerialNet

/-!
# The configuration stays well-formed

`WellFormed` is what the WiFi stack relies on when it reads a `WIFI_CFG`.  Each setter of
`param.c` keeps it whatever its arguments are, and so do the writes that do not go through a
setter: those of `responseWQSOPT`, of the query of `responseWSCAP` and of `SoftApConfThread`.
There are two copies, and the commands copy in both directions; `ConfigInv` therefore speaks of
both and of the user sector, from which a reset loads them if it is marked valid.

The runs are those of `settingsStep` in which `SysParam` is written as `SysParamWrite` says
(`ConfigStep`); `AT+FACTORY` is left out, since it clears `UserParam` before it resets the device.
-/

variable (inetAton : List UInt8 → ℕ)

/-! ### Writes of `SysParam` from outside the commands -/

/-- A call of a setter with any argument, or a write of `SoftApConfThread`.  The modes are
    converted to `UINT8`, and NULL is `none`. -/
inductive SysParamWrite where
  | netMode (mode : ℤ)
  | phyMode (mode : ℤ)
  | ssid (pSsid : Option (List UInt8))
  | channel (ch : ℤ)
  | encMode (encMode : ℤ)
  | authMode (authMode : ℤ)
  | key (index : ℤ) (keyBuf : Option (List UInt8))
  | conTryTimes (tryTimes : ℤ)
  /-- The address of the access point. -/
  | softApIp (addrs : List ℕ)
  | softApEncry
  | softApAuthMode
  /-- The security of the network to join. -/
  | softApJoin

/-- One write. -/
def sysParamWrite (cfg : CfgParam) : SysParamWrite → CfgParam
  | .netMode mode => infNetModeSet cfg (u8 mode)
  | .phyMode mode => infPhyModeSet cfg (u8 mode)
  | .ssid pSsid => infSsidSet cfg pSsid
  | .channel ch => infChannelSet cfg (u8 ch)
  | .encMode encMode => infEncModeSet cfg (u8 encMode)
  | .authMode authMode => infAuthModeSet cfg (u8 authMode)
  | .key index keyBuf =>
    match keyBuf with
    | none => cfg
    | some keyBuf => infKeySet cfg (u8 index) keyBuf
  | .conTryTimes tryTimes => infConTryTimesSet cfg (u8 tryTimes)
  | .softApIp addrs => { cfg with ipCfg := { cfg.ipCfg with ip := addrs } }
  | .softApEncry => { cfg with wiFiCfg := { cfg.wiFiCfg with encry := 3 } }
  | .softApAuthMode => { cfg with wiFiCfg := { cfg.wiFiCfg with authMode := 3 } }
  | .softApJoin => { cfg with wiFiCfg := { cfg.wiFiCfg with encry := 4 } }

/-- The events of the runs: any command but `AT+FACTORY`, and `SysParam` only by its writes. -/
def ConfigStep (s : Settings) : SettingsEvent → Prop
  | .command responseFunction _ _ => responseFunction ≠ .factory
  | .sysParam cfg => ∃ w, cfg = sysParamWrite s.sysParam w
  | _ => True

/-! ### Well-formed configurations -/

/-- What the WiFi stack relies on. -/
structure WellFormed (cfg : WifiCfg) : Prop where
  protocol_le : cfg.protocol ≤ 2
  phyMode_le : cfg.phyMode ≤ 2
  channel_pos : 1 ≤ cfg.channel
  channel_le : cfg.channel ≤ 13
  encry_le : cfg.encry ≤ 4
  authMode_le : cfg.authMode ≤ 3
  keyIndex_le : cfg.keyIndex ≤ 3
  keyLength_le : cfg.keyLength ≤ 64
  ssid_size : cfg.ssid.length = 33
  ssid_ends : 0 ∈ cfg.ssid

/-- The name is a C string of at most 32 bytes. -/
theorem WellFormed.ssid_length_le {cfg : WifiCfg} (h : WellFormed cfg) :
    (cfg.ssid.takeWhile (· ≠ 0)).length ≤ 32 := by
  have hsplit := congrArg List.length
    (List.takeWhile_append_dropWhile (p := (· ≠ 0)) (l := cfg.ssid))
  rw [List.length_append, h.ssid_size] at hsplit
  have hpos : 0 < (cfg.ssid.dropWhile (· ≠ 0)).length := by
    rw [List.length_pos_iff, ne_eq, List.dropWhile_eq_nil_iff]
    intro hall
    exact absurd (hall 0 h.ssid_ends) (by decide)
  omega

/-! ### The setters -/

section Setters

variable {cfg : CfgParam}

/-- `InfNetModeSet` accepts the modes of the range only. -/
theorem WellFormed.netMode (h : WellFormed cfg.wiFiCfg) (mode : ℕ) :
    WellFormed (infNetModeSet cfg mode).wiFiCfg := by
  unfold infNetModeSet
  split
  · exact h
  · exact { h with protocol_le := by dsimp only; omega }

/-- `InfPhyModeSet` accepts the modes of the range only. -/
theorem WellFormed.phyMode (h : WellFormed cfg.wiFiCfg) (mode : ℕ) :
    WellFormed (infPhyModeSet cfg mode).wiFiCfg := by
  unfold infPhyModeSet
  split
  · exact h
  · exact { h with phyMode_le := by dsimp only; omega }

/-- `InfChannelSet` accepts the channels of the range only. -/
theorem WellFormed.channel (h : WellFormed cfg.wiFiCfg) (ch : ℕ) :
    WellFormed (infChannelSet cfg ch).wiFiCfg := by
  unfold infChannelSet
  split
  · exact h
  · exact { h with
      channel_pos := by dsimp only; omega
      channel_le := by dsimp only; omega }

/-- `InfEncModeSet` accepts the modes of the range only. -/
theorem WellFormed.encMode (h : WellFormed cfg.wiFiCfg) (encMode : ℕ) :
    WellFormed (infEncModeSet cfg encMode).wiFiCfg := by
  unfold infEncModeSet
  split
  · exact h
  · exact { h with encry_le := by dsimp only; omega }

/-- `InfAuthModeSet` accepts the modes of the range only. -/
theorem WellFormed.authMode (h : WellFormed cfg.wiFiCfg) (authMode : ℕ) :
    WellFormed (infAuthModeSet cfg authMode).wiFiCfg := by
  unfold infAuthModeSet
  split
  · exact h
  · exact { h with authMode_le := by dsimp only; omega }

/-- A NUL at any of the 33 places ends the name. -/
theorem WellFormed.endSsid (h : WellFormed cfg.wiFiCfg) {ssid : List UInt8} {n : ℕ}
    (hlen : ssid.length = 33) (hn : n ≤ 32) :
    WellFormed { cfg.wiFiCfg with ssid := ssid.set n 0 } :=
  { h with
    ssid_size := by rw [List.length_set, hlen]
    ssid_ends := List.mem_iff_getElem?.mpr ⟨n, List.getElem?_set_self (by omega)⟩ }

/-- `InfSsidSet` accepts at most 32 bytes and puts a NUL behind them. -/
theorem WellFormed.ssid (h : WellFormed cfg.wiFiCfg) (pSsid : Option (List UInt8)) :
    WellFormed (infSsidSet cfg pSsid).wiFiCfg := by
  cases pSsid with
  | none => exact h.endSsid h.ssid_size (Nat.zero_le _)
  | some ssid =>
    simp only [infSsidSet]
    split
    · exact h.endSsid h.ssid_size (Nat.zero_le _)
    · have hlen : 0 + ssid.length ≤ cfg.wiFiCfg.ssid.length := by
        rw [h.ssid_size]; omega
      exact h.endSsid ((length_writeAt hlen).trans h.ssid_size) (by omega)

/-- `InfKeySet` accepts at most 64 bytes. -/
theorem WellFormed.key (h : WellFormed cfg.wiFiCfg) (index : ℕ) (keyBuf : List UInt8) :
    WellFormed (infKeySet cfg index keyBuf).wiFiCfg := by
  unfold infKeySet
  split
  · exact h
  · exact { h with
      keyIndex_le := by dsimp only; omega
      keyLength_le := by dsimp only; omega }

/-- The NUL behind the key changes no length. -/
theorem WellFormed.endKey {cfg : WifiCfg} (h : WellFormed cfg) : WellFormed cfg.endKey := by
  unfold WifiCfg.endKey
  split
  · exact { h with }
  · exact { h with }

/-- `InfConTryTimesSet` stores what it is given. -/
theorem WellFormed.conTryTimes (h : WellFormed cfg.wiFiCfg) (tryTimes : ℕ) :
    WellFormed (infConTryTimesSet cfg tryTimes).wiFiCfg := { h with }

/-- The direct writes of `responseWQSOPT`, with what it checks before. -/
theorem WellFormed.direct {cfg : WifiCfg} (h : WellFormed cfg) {channel encry authMode : ℕ}
    (hpos : 1 ≤ channel) (hchannel : channel ≤ 13) (hencry : encry ≤ 4) (hauth : authMode ≤ 3)
    (wmmEn : ℕ) : WellFormed { cfg with
      channel := channel, encry := encry, authMode := authMode, wmmEn := wmmEn } :=
  { h with
    channel_pos := hpos
    channel_le := hchannel
    encry_le := hencry
    authMode_le := hauth }

/-- **Each write keeps the configuration well-formed.** -/
theorem WellFormed.write (h : WellFormed cfg.wiFiCfg) (w : SysParamWrite) :
    WellFormed (sysParamWrite cfg w).wiFiCfg := by
  cases w with
  | netMode mode => exact h.netMode _
  | phyMode mode => exact h.phyMode _
  | ssid pSsid => exact h.ssid pSsid
  | channel ch => exact h.channel _
  | encMode encMode => exact h.encMode _
  | authMode authMode => exact h.authMode _
  | key index keyBuf =>
    cases keyBuf with
    | none => exact h
    | some keyBuf => exact h.key _ keyBuf
  | conTryTimes tryTimes => exact h.conTryTimes _
  | softApIp addrs => exact h
  | softApEncry => exact { h with encry_le := Nat.le_succ 3 }
  | softApAuthMode => exact { h with authMode_le := le_rfl }
  | softApJoin => exact { h with encry_le := le_rfl }

end Setters

/-- Two digits for each byte. -/
theorem length_flatten_hex2 (address : List UInt8) :
    (address.map hex2).flatten.length = 2 * address.length := by
  induction address with
  | nil => rfl
  | cons b address ih =>
    rw [List.map_cons, List.flatten_cons, List.length_append, ih, List.length_cons]
    show 2 + _ = _
    omega

/-- The factory configuration is well-formed, whatever the address of the device is. -/
theorem wellFormed_default (permanentAddress : List UInt8) :
    WellFormed (infLoadDefaultParam permanentAddress).wiFiCfg := by
  have hname : (ascii "nuap" ++ (((permanentAddress.drop 3).take 3).map hex2).flatten
      ++ [0]).length ≤ 33 := by
    rw [List.length_append, List.length_append, length_flatten_hex2, List.length_take]
    show 4 + 2 * _ + 1 ≤ 33
    omega
  constructor
  case ssid_size =>
    show (writeAt (List.replicate 33 0) 0 _).length = 33
    rw [length_writeAt (by rw [List.length_replicate]; omega), List.length_replicate]
  case ssid_ends =>
    show 0 ∈ writeAt (List.replicate 33 0) 0 _
    simp [writeAt]
  all_goals show (_ : ℕ) ≤ _; exact Nat.le_of_ble_eq_true rfl

/-! ### Both copies -/

/-- Both copies of the configuration are well-formed, and so is the saved one if it is valid. -/
structure ConfigInv (s : Settings) : Prop where
  sysParam : WellFormed s.sysParam.wiFiCfg
  userParam : WellFormed s.userParam.cfg.wiFiCfg
  userSector : s.userSector.isValid = userParamFlagValid → WellFormed s.userSector.cfg.wiFiCfg

/-- What does not touch the three configurations keeps the invariant. -/
theorem ConfigInv.congr {s s' : Settings} (h : ConfigInv s) (hsys : s'.sysParam = s.sysParam)
    (huser : s'.userParam.cfg = s.userParam.cfg) (hsector : s'.userSector = s.userSector) :
    ConfigInv s' where
  sysParam := hsys ▸ h.sysParam
  userParam := huser ▸ h.userParam
  userSector := hsector ▸ h.userSector

/-- A write of `SysParam` alone. -/
theorem ConfigInv.set {s : Settings} (h : ConfigInv s) {cfg : CfgParam}
    (hcfg : WellFormed cfg.wiFiCfg) : ConfigInv { s with sysParam := cfg } :=
  { h with sysParam := hcfg }

/-- A write of `SysParam` that is then copied. -/
theorem ConfigInv.keep {s : Settings} (h : ConfigInv s) : ConfigInv (keepSysParam s) :=
  { h with userParam := h.sysParam }

/-! ### The commands -/

theorem configInv_save {s : Settings} (h : ConfigInv s) (argv : List (List UInt8)) :
    ConfigInv (responseSAVE s argv) := by
  unfold responseSAVE
  split
  · exact h
  · exact { h with userSector := fun _ => h.userParam }

theorem configInv_wqsopt {s : Settings} (h : ConfigInv s) (argv : List (List UInt8)) :
    ConfigInv (responseWQSOPT s argv) := by
  unfold responseWQSOPT
  split
  · rename_i arg1 arg2 arg3 arg4 arg5
    dsimp only
    generalize (if u8 (atoi arg1) = 0 then 1 else u8 (atoi arg2)) = channel
    split
    · split
      · exact h
      · split
        · exact h
        · split
          · exact h
          · -- The direct writes have been checked before.
            have hmode := h.sysParam.netMode (u8 (atoi arg1))
            refine ConfigInv.keep (h.set ?_)
            exact hmode.direct (by omega) (by omega) (by omega) (by omega) _
    · exact h
  · exact h

theorem configInv_wscanap {s : Settings} (h : ConfigInv s) (argv : List (List UInt8))
    (malloc : Bool) : ConfigInv (responseWSCANAP s argv malloc) := by
  unfold responseWSCANAP
  split
  · split
    · exact h.set (h.sysParam.ssid none)
    · exact h
  · exact h

theorem configInv_wscap {s : Settings} (h : ConfigInv s) (argv : List (List UInt8)) :
    ConfigInv (responseWSCAP s argv) := by
  unfold responseWSCAP
  split
  · split
    · exact h.set h.sysParam.endKey
    · exact h
  · split
    · split
      · split
        · exact h
        · dsimp only
          split
          · exact h
          · refine ConfigInv.keep (h.set ?_)
            exact (((h.sysParam.netMode 0).ssid _).key 0 _).conTryTimes _
      · split
        · -- `SysParam` is replaced by the other copy first.
          refine ConfigInv.keep (h.set ?_)
          refine WellFormed.key (WellFormed.ssid (WellFormed.netMode ?_ 2) _) 0 _
          exact h.userParam
        · exact h
    · exact h
  · exact h

theorem configInv_wsmtconf {s : Settings} (h : ConfigInv s) (argv : List (List UInt8)) :
    ConfigInv (responseWSMTCONF s argv) := by
  unfold responseWSMTCONF
  split
  · exact h
  · split
    · exact { h with sysParam := h.sysParam.netMode 0 }
    · exact h

theorem configInv_wphymode {s : Settings} (h : ConfigInv s) (argv : List (List UInt8)) :
    ConfigInv (responseWPHYMODE s argv) := by
  unfold responseWPHYMODE
  split
  · split
    · exact h
    · split
      · dsimp only
        split
        · exact h
        · split
          · exact h
          · exact ConfigInv.keep (h.set (h.sysParam.phyMode _))
      · exact h
  · exact h

/-- The four parts of `AT+NQSCNN` change other settings and copy `SysParam`. -/
theorem configInv_nqscnn {s : Settings} (h : ConfigInv s) (argv : List (List UInt8)) :
    ConfigInv (responseNQSCNN inetAton s argv) := by
  have hmode : ∀ {s : Settings}, ConfigInv s → ∀ arg, ConfigInv (responseNMODE s arg).1 := by
    intro s h arg
    unfold responseNMODE
    repeat' split
    all_goals first | exact h | exact { h with userParam := h.sysParam }
  have htype : ∀ {s : Settings}, ConfigInv s → ∀ arg, ConfigInv (responseNTYPE s arg).1 := by
    intro s h arg
    unfold responseNTYPE
    repeat' split
    all_goals first | exact h | exact { h with userParam := h.sysParam }
  have hport : ∀ {s : Settings}, ConfigInv s → ∀ arg, ConfigInv (responseNPORT s arg).1 := by
    intro s h arg
    unfold responseNPORT
    repeat' split
    all_goals first | exact h | exact { h with userParam := h.sysParam }
  have hrmtip : ∀ {s : Settings}, ConfigInv s → ∀ arg,
      ConfigInv (responseNRMTIP inetAton s arg).1 := by
    intro s h arg
    unfold responseNRMTIP
    repeat' split
    all_goals first | exact h | exact { h with userParam := h.sysParam }
  unfold responseNQSCNN
  split
  · exact hrmtip (hport (htype (hmode h _) _) _) _
  · exact h

theorem configInv_nlocip {s : Settings} (h : ConfigInv s) (argv : List (List UInt8)) :
    ConfigInv (responseNLOCIP inetAton s argv) := by
  unfold responseNLOCIP
  dsimp only
  repeat' split
  -- The addresses are no part of what is checked here.
  all_goals first | exact h | exact { h with userParam := h.sysParam }

theorem configInv_baudrate {s : Settings} (h : ConfigInv s) (argv : List (List UInt8)) :
    ConfigInv (responseBAUDRATE s argv) := by
  unfold responseBAUDRATE
  repeat' split
  all_goals exact h.congr rfl rfl rfl

theorem configInv_uartft {s : Settings} (h : ConfigInv s) (argv : List (List UInt8)) :
    ConfigInv (responseUARTFT s argv) := by
  unfold responseUARTFT
  repeat' split
  all_goals exact h.congr rfl rfl rfl

theorem configInv_uartfl {s : Settings} (h : ConfigInv s) (argv : List (List UInt8)) :
    ConfigInv (responseUARTFL s argv) := by
  unfold responseUARTFL
  repeat' split
  all_goals exact h.congr rfl rfl rfl

theorem configInv_lslpt {s : Settings} (h : ConfigInv s) (argv : List (List UInt8)) :
    ConfigInv (responseLSLPT s argv) := by
  unfold responseLSLPT
  dsimp only
  repeat' split
  all_goals exact h.congr rfl rfl rfl

theorem configInv_quit {s : Settings} (h : ConfigInv s) (argv : List (List UInt8)) :
    ConfigInv (responseQUIT s argv) := by
  unfold responseQUIT
  repeat' split
  all_goals exact h.congr rfl rfl rfl

/-! ### Runs -/

/-- A boot loads the factory configuration, or the saved one if it is valid. -/
theorem configInv_reboot {s : Settings}
    (h : s.userSector.isValid = userParamFlagValid → WellFormed s.userSector.cfg.wiFiCfg)
    (pin : Bool × Bool) : ConfigInv (reboot inetAton s pin) := by
  -- The factory path stores invalid parameters, so the user sector is not loaded next time.
  have hfactory : ∀ s : Settings, ConfigInv (loadFactoryParam inetAton s) := fun s =>
    { sysParam := wellFormed_default s.permanentAddress
      userParam := wellFormed_default s.permanentAddress
      userSector := fun hvalid =>
        absurd (show userParamFlagInvalid = userParamFlagValid from hvalid) (by decide) }
  rw [reboot, initDefaultData]
  split
  · exact hfactory _
  · dsimp only
    split
    · rename_i hvalid
      exact ⟨h hvalid, h hvalid, h⟩
    · exact hfactory _

/-- **One command.** -/
theorem configInv_respond {s : Settings} (h : ConfigInv s) {responseFunction : AtHandler}
    (hf : responseFunction ≠ .factory) (argv : List (List UInt8)) (env : CommandEnv) :
    ConfigInv (respond inetAton s responseFunction argv env) := by
  cases responseFunction with
  | save => exact configInv_save h argv
  | factory => exact absurd rfl hf
  | rst =>
    simp only [respond, responseRST]
    split
    · exact h
    · exact configInv_reboot inetAton h.userSector env.pin
  | baudrate => exact configInv_baudrate h argv
  | uartft => exact configInv_uartft h argv
  | uartfl => exact configInv_uartfl h argv
  | lslpt => exact configInv_lslpt h argv
  | wqsopt => exact configInv_wqsopt h argv
  | wphymode => exact configInv_wphymode h argv
  | wscanap => exact configInv_wscanap h argv env.malloc
  | wscap => exact configInv_wscap h argv
  | wsmtconf => exact configInv_wsmtconf h argv
  | nqscnn => exact configInv_nqscnn inetAton h argv
  | nlocip => exact configInv_nlocip inetAton h argv
  | quit => exact configInv_quit h argv
  | _ => exact h

/-- **One event.** -/
theorem configInv_step {s s' : Settings} {e : SettingsEvent} (h : ConfigInv s)
    (he : ConfigStep s e) (hs : settingsStep inetAton s e = some s') : ConfigInv s' := by
  cases e with
  | command responseFunction argv env =>
    simp only [settingsStep] at hs
    split at hs
    · obtain rfl := Option.some.inj hs
      exact configInv_respond inetAton h he argv env
    · cases hs
  | sysParam cfg =>
    obtain ⟨w, rfl⟩ := he
    obtain rfl := Option.some.inj hs
    exact h.set (h.sysParam.write w)
  | linkStatus event =>
    obtain rfl := Option.some.inj hs
    exact h.congr rfl rfl rfl
  | smartconfig =>
    obtain rfl := Option.some.inj hs
    rw [responseSmartconfig]
    split
    · exact { h with userParam := h.sysParam }
    · exact h
  | cmdMode =>
    obtain rfl := Option.some.inj hs
    exact h.congr rfl rfl rfl
  | reset pin =>
    obtain rfl := Option.some.inj hs
    exact configInv_reboot inetAton h.userSector pin

/-- A sector of the erased flash: every byte is 0xff. -/
def UserCfgParam.erased : UserCfgParam where
  isValid := 4294967295
  atMode := 255
  sleepMode := 255
  baudrate := 4294967295
  socketProtocol := 255
  socketType := 255
  socketPort := 65535
  remoteCommIp := 4294967295
  frameLength := 65535
  frameGap := 65535
  cfg :=
    { wiFiCfg := ⟨List.replicate 33 255, 255, 255, 255, 255, 255, 255, 255, 255,
        List.replicate 64 255, 255, 255, 255⟩
      ipCfg := ⟨List.replicate 4 255, List.replicate 4 255, List.replicate 4 255,
        List.replicate 4 255, 255, 255, List.replicate 2 255⟩
      bDhcpServer := 255
      bDnsServer := 255
      dnsName := List.replicate 33 255
      res3 := 255 }

/-- **The configuration stays well-formed** in every state that can be reached from a first boot
    with an erased flash. -/
theorem config_wellFormed {permanentAddress : List UInt8} {pin : Bool × Bool}
    {es : List SettingsEvent} {s : Settings}
    (hes : Along (settingsStep inetAton) ConfigStep
      (firstBoot inetAton .erased .erased permanentAddress pin) es)
    (h : run (settingsStep inetAton)
      (firstBoot inetAton .erased .erased permanentAddress pin) es = some s) :
    WellFormed s.sysParam.wiFiCfg ∧ WellFormed s.userParam.cfg.wiFiCfg := by
  have hboot : ConfigInv (firstBoot inetAton .erased .erased permanentAddress pin) :=
    configInv_reboot inetAton (fun hvalid =>
      absurd (show UserCfgParam.erased.isValid = userParamFlagValid from hvalid) (by decide)) pin
  have hinv := run_invariant (fun _ _ _ hinv hok hs => configInv_step inetAton hinv hok hs)
    es _ s hboot hes h
  exact ⟨hinv.sysParam, hinv.userParam⟩

/-- The events of a small run: a mode that is only valid as a `UINT8`, `AT+WQSOPT=2,6,3,3,0`,
    `AT+SAVE` and a reset. -/
def configEvents : List SettingsEvent :=
  [.sysParam (sysParamWrite (infLoadDefaultParam []) (.netMode 257)),
    .command .wqsopt [ascii "+WQSOPT", ascii "2", ascii "6", ascii "3", ascii "3", ascii "0"]
      ⟨(true, true), true⟩,
    .command .save [ascii "+SAVE"] ⟨(true, true), true⟩,
    .reset (true, true)]

theorem config_wellFormed_saved : ∃ s, run (settingsStep dottedDecimal)
      (firstBoot dottedDecimal .erased .erased [] (true, true)) configEvents = some s ∧
    s.userParam.cfg.wiFiCfg.channel = 6 ∧
    WellFormed s.sysParam.wiFiCfg ∧ WellFormed s.userParam.cfg.wiFiCfg := by
  have hes : Along (settingsStep dottedDecimal) ConfigStep
      (firstBoot dottedDecimal .erased .erased [] (true, true)) configEvents :=
    ⟨⟨.netMode 257, rfl⟩, fun _ _ => ⟨by simp [ConfigStep], fun _ _ =>
      ⟨by simp [ConfigStep], fun _ _ => ⟨trivial, fun _ _ => trivial⟩⟩⟩⟩
  have hrun : (run (settingsStep dottedDecimal) (firstBoot dottedDecimal .erased .erased []
      (true, true)) configEvents).map (fun s => s.userParam.cfg.wiFiCfg.channel) = some 6 := by
    decide +kernel
  obtain ⟨s, hs, hchannel⟩ := Option.map_eq_some_iff.mp hrun
  exact ⟨s, hs, hchannel, config_wellFormed dottedDecimal hes hs⟩

end SerialNet
