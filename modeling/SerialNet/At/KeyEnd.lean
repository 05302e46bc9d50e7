import SerialNet.At.Queries
import SerialNet.At.WellFormed

namespace SerialNet

/-!
# The end of the key

`InfKeySet` stores a NUL behind a key that does not fill its array, and no other write touches `PSK`
or `KeyLength`; copies and resets carry both along.  So in every state that is reached the NUL that
the query of `AT+WSCAP` stores is already there, unless the key has 64 bytes.
-/

variable (inetAton : List UInt8 → ℕ)

/-! ### Keys -/

/-- The key of a configuration and its length. -/
def CfgParam.key (cfg : CfgParam) : List UInt8 × ℕ := (cfg.wiFiCfg.psk, cfg.wiFiCfg.keyLength)

/-- A key in an array of 64 bytes, with a NUL behind it if there is room. -/
structure KeyEnds (key : List UInt8 × ℕ) : Prop where
  psk_size : key.1.length = 64
  keyLength_le : key.2 ≤ 64
  ends : key.2 < 64 → key.1[key.2]? = some 0

section Setters

variable {cfg : CfgParam}

/-- `InfNetModeSet` leaves the key alone. -/
@[simp] theorem key_netMode (mode : ℕ) : (infNetModeSet cfg mode).key = cfg.key := by
  unfold infNetModeSet
  split <;> rfl

/-- `InfPhyModeSet` leaves the key alone. -/
@[simp] theorem key_phyMode (mode : ℕ) : (infPhyModeSet cfg mode).key = cfg.key := by
  unfold infPhyModeSet
  split <;> rfl

/-- `InfSsidSet` leaves the key alone. -/
@[simp] theorem key_ssid (pSsid : Option (List UInt8)) : (infSsidSet cfg pSsid).key = cfg.key := by
  cases pSsid with
  | none => rfl
  | some ssid =>
    unfold infSsidSet
    dsimp only
    split <;> rfl

/-- `InfKeySet` ends the key that it stores. -/
theorem KeyEnds.set (h : KeyEnds cfg.key) (index : ℕ) (keyBuf : List UInt8) :
    KeyEnds (infKeySet cfg index keyBuf).key := by
  unfold infKeySet
  split
  case isTrue => exact h
  case isFalse hrange =>
    have hlength : (writeAt cfg.wiFiCfg.psk 0 keyBuf).length = 64 :=
      (length_writeAt (by rw [show cfg.wiFiCfg.psk.length = 64 from h.psk_size]; omega)).trans
        h.psk_size
    constructor
    case psk_size =>
      show (if keyBuf.length < 64 then _ else _ : List UInt8).length = 64
      split
      · rw [List.length_set, hlength]
      · exact hlength
    case keyLength_le =>
      show keyBuf.length ≤ 64
      omega
    case ends =>
      intro hshort
      show (if keyBuf.length < 64 then _ else _ : List UInt8)[keyBuf.length]? = some 0
      have hshort' : keyBuf.length < 64 := hshort
      rw [if_pos hshort', List.getElem?_set_self (by omega)]

/-- The query of `responseWSCAP` keeps the key ended. -/
theorem KeyEnds.endKey (h : KeyEnds cfg.key) :
    KeyEnds { cfg with wiFiCfg := cfg.wiFiCfg.endKey }.key := by
  unfold WifiCfg.endKey
  split
  case isTrue => exact ⟨h.psk_size, h.keyLength_le, h.ends⟩
  case isFalse hlength =>
    have hsize : cfg.wiFiCfg.psk.length = 64 := h.psk_size
    have hle : cfg.wiFiCfg.keyLength ≤ 64 := h.keyLength_le
    refine ⟨(List.length_set ..).trans hsize, hle, fun _ => ?_⟩
    show (cfg.wiFiCfg.psk.set cfg.wiFiCfg.keyLength 0)[cfg.wiFiCfg.keyLength]? = some 0
    exact List.getElem?_set_self (by omega)

/-- Every write of `SysParam` is a call of `InfKeySet` or leaves the key alone. -/
theorem sysParamWrite_key (w : SysParamWrite) :
    (∃ index keyBuf, sysParamWrite cfg w = infKeySet cfg index keyBuf) ∨
      (sysParamWrite cfg w).key = cfg.key := by
  cases w with
  | key index keyBuf =>
    cases keyBuf with
    | none => exact Or.inr rfl
    | some keyBuf => exact Or.inl ⟨_, keyBuf, rfl⟩
  | netMode mode => exact Or.inr (key_netMode _)
  | phyMode mode => exact Or.inr (key_phyMode _)
  | ssid pSsid => exact Or.inr (key_ssid pSsid)
  | channel ch =>
    apply Or.inr
    unfold sysParamWrite infChannelSet
    dsimp only
    split <;> rfl
  | encMode encMode =>
    apply Or.inr
    unfold sysParamWrite infEncModeSet
    dsimp only
    split <;> rfl
  | authMode authMode =>
    apply Or.inr
    unfold sysParamWrite infAuthModeSet
    dsimp only
    split <;> rfl
  | conTryTimes tryTimes => exact Or.inr rfl
  | softApIp addrs => exact Or.inr rfl
  | softApEncry => exact Or.inr rfl
  | softApAuthMode => exact Or.inr rfl
  | softApJoin => exact Or.inr rfl

end Setters

/-- The factory key. -/
theorem keyEnds_default (permanentAddress : List UInt8) :
    KeyEnds (infLoadDefaultParam permanentAddress).key := by
  have hpsk : (infLoadDefaultParam permanentAddress).key =
      (writeAt (List.replicate 64 0) 0 (ascii "1234567890" ++ [0]), 10) := rfl
  rw [hpsk]
  exact ⟨by decide +kernel, by decide, fun _ => by decide +kernel⟩

/-! ### Commands -/

/-- No key is written, though one may be copied. -/
structure KeepsKey (s s' : Settings) : Prop where
  sysParam : s'.sysParam.key = s.sysParam.key
  userParam : s'.userParam.cfg.key = s.userParam.cfg.key ∨
    s'.userParam.cfg.key = s.sysParam.key
  userSector : s'.userSector = s.userSector ∨ s'.userSector.cfg = s.userParam.cfg

/-- Settings that do not change keep their key. -/
theorem KeepsKey.refl (s : Settings) : KeepsKey s s := ⟨rfl, Or.inl rfl, Or.inl rfl⟩

/-- A write of `SysParam` beside the key, which is then copied. -/
theorem KeepsKey.keep {s : Settings} {cfg : CfgParam} (hcfg : cfg.key = s.sysParam.key) :
    KeepsKey s (keepSysParam { s with sysParam := cfg }) := ⟨hcfg, Or.inr hcfg, Or.inl rfl⟩

section Commands

variable {s : Settings} (argv : List (List UInt8))

theorem keepsKey_save : KeepsKey s (responseSAVE s argv) := by
  unfold responseSAVE
  split
  · exact KeepsKey.refl s
  · exact ⟨rfl, Or.inl rfl, Or.inr rfl⟩

theorem keepsKey_baudrate : KeepsKey s (responseBAUDRATE s argv) := by
  unfold responseBAUDRATE
  repeat' split
  all_goals exact ⟨rfl, Or.inl rfl, Or.inl rfl⟩

theorem keepsKey_uartfl : KeepsKey s (responseUARTFL s argv) := by
  unfold responseUARTFL
  repeat' split
  all_goals exact ⟨rfl, Or.inl rfl, Or.inl rfl⟩

theorem keepsKey_uartft : KeepsKey s (responseUARTFT s argv) := by
  unfold responseUARTFT
  repeat' split
  all_goals exact ⟨rfl, Or.inl rfl, Or.inl rfl⟩

theorem keepsKey_lslpt : KeepsKey s (responseLSLPT s argv) := by
  unfold responseLSLPT
  dsimp only
  repeat' split
  all_goals exact ⟨rfl, Or.inl rfl, Or.inl rfl⟩

theorem keepsKey_quit : KeepsKey s (responseQUIT s argv) := by
  unfold responseQUIT
  repeat' split
  all_goals exact ⟨rfl, Or.inl rfl, Or.inl rfl⟩

theorem keepsKey_wqsopt : KeepsKey s (responseWQSOPT s argv) := by
  unfold responseWQSOPT
  dsimp only
  repeat' split
  all_goals first | exact KeepsKey.refl s | exact KeepsKey.keep (key_netMode _)

theorem keepsKey_wphymode : KeepsKey s (responseWPHYMODE s argv) := by
  unfold responseWPHYMODE
  dsimp only
  repeat' split
  all_goals first | exact KeepsKey.refl s | exact KeepsKey.keep (key_phyMode _)

theorem keepsKey_wscanap (malloc : Bool) : KeepsKey s (responseWSCANAP s argv malloc) := by
  unfold responseWSCANAP
  repeat' split
  all_goals exact ⟨rfl, Or.inl rfl, Or.inl rfl⟩

theorem keepsKey_wsmtconf : KeepsKey s (responseWSMTCONF s argv) := by
  unfold responseWSMTCONF
  repeat' split
  all_goals first | exact KeepsKey.refl s | exact ⟨key_netMode _, Or.inl rfl, Or.inl rfl⟩

theorem keepsKey_nlocip : KeepsKey s (responseNLOCIP inetAton s argv) := by
  unfold responseNLOCIP
  dsimp only
  repeat' split
  all_goals first | exact KeepsKey.refl s | exact KeepsKey.keep rfl

/-- The four parts change other settings and copy `SysParam`, or do nothing. -/
theorem keepsKey_nqscnn : KeepsKey s (responseNQSCNN inetAton s argv) := by
  unfold responseNQSCNN
  split
  case h_1 command arg1 arg2 arg3 arg4 =>
    dsimp only
    rw [threeParts_eq, responseNRMTIP_eq]
    change KeepsKey s (if StoresIp s arg2 arg4 then _ else _ : Settings × Bool).1
    by_cases hip : StoresIp s arg2 arg4
    · rw [if_pos hip]
      exact ⟨rfl, Or.inr rfl, Or.inl rfl⟩
    · rw [if_neg hip]
      refine ⟨rfl, ?_, Or.inl rfl⟩
      show (if _ then s.sysParam else s.userParam.cfg : CfgParam).key = _ ∨ _
      split
      · exact Or.inr rfl
      · exact Or.inl rfl
  case h_2 => exact KeepsKey.refl s

end Commands

/-! ### Runs -/

/-- Both keys end, and so does the saved one if it is valid. -/
structure KeyInv (s : Settings) : Prop where
  sysParam : KeyEnds s.sysParam.key
  userParam : KeyEnds s.userParam.cfg.key
  userSector : s.userSector.isValid = userParamFlagValid → KeyEnds s.userSector.cfg.key

/-- A step that keeps the key keeps its length in bounds. -/
theorem KeyInv.keeps {s s' : Settings} (h : KeyInv s) (hkeeps : KeepsKey s s') : KeyInv s' where
  sysParam := by rw [hkeeps.sysParam]; exact h.sysParam
  userParam := by
    rcases hkeeps.userParam with heq | heq
    · rw [heq]; exact h.userParam
    · rw [heq]; exact h.sysParam
  userSector := by
    intro hvalid
    rcases hkeeps.userSector with heq | heq
    · rw [heq] at hvalid ⊢
      exact h.userSector hvalid
    · rw [heq]; exact h.userParam

/-- A boot loads the factory key, or the saved one if it is valid. -/
theorem keyInv_reboot {s : Settings}
    (h : s.userSector.isValid = userParamFlagValid → KeyEnds s.userSector.cfg.key)
    (pin : Bool × Bool) : KeyInv (reboot inetAton s pin) := by
  have hfactory : ∀ s : Settings, KeyInv (loadFactoryParam inetAton s) := fun s =>
    { sysParam := keyEnds_default s.permanentAddress
      userParam := keyEnds_default s.permanentAddress
      userSector := fun _ => keyEnds_default s.permanentAddress }
  rw [reboot, initDefaultData]
  split
  · exact hfactory _
  · dsimp only
    split
    case isTrue hvalid => exact ⟨h hvalid, h hvalid, h⟩
    case isFalse => exact hfactory _

/-- `AT+WSCAP` stores a key of at most 64 bytes, and the query ends it. -/
theorem keyInv_wscap {s : Settings} (h : KeyInv s) (argv : List (List UInt8)) :
    KeyInv (responseWSCAP s argv) := by
  unfold responseWSCAP
  split
  case h_1 command arg =>
    split
    · exact { h with sysParam := h.sysParam.endKey }
    · exact h
  case h_2 command arg1 arg2 arg3 =>
    dsimp only
    split
    case isFalse => exact h
    split
    · split
      · exact h
      · split
        · exact h
        · have hkey : KeyEnds (infSsidSet (infNetModeSet s.sysParam 0) (some arg1)).key := by
            rw [key_ssid, key_netMode]
            exact h.sysParam
          exact ⟨hkey.set 0 arg2, hkey.set 0 arg2, h.userSector⟩
    · split
      · -- `SysParam` is replaced by the other copy first
        have hkey : KeyEnds (infSsidSet (infNetModeSet { s.userParam.cfg with
            bDhcpServer := 1, bDnsServer := 1 } 2) (some arg1)).key := by
          rw [key_ssid, key_netMode]
          exact h.userParam
        exact ⟨hkey.set 0 arg2, hkey.set 0 arg2, h.userSector⟩
      · exact h
  case h_3 => exact h

/-- **One command.** -/
theorem keyInv_respond {s : Settings} (h : KeyInv s) (responseFunction : AtHandler)
    (argv : List (List UInt8)) (env : CommandEnv) :
    KeyInv (respond inetAton s responseFunction argv env) := by
  cases responseFunction with
  | save => exact h.keeps (keepsKey_save argv)
  | factory =>
    simp only [respond, responseFACTORY]
    split
    · exact h
    · -- the sector that is saved is not valid
      exact keyInv_reboot inetAton (fun hvalid =>
        absurd (show UserCfgParam.zero.isValid = userParamFlagValid from hvalid) (by decide))
        env.pin
  | rst =>
    simp only [respond, responseRST]
    split
    · exact h
    · exact keyInv_reboot inetAton h.userSector env.pin
  | baudrate => exact h.keeps (keepsKey_baudrate argv)
  | uartft => exact h.keeps (keepsKey_uartft argv)
  | uartfl => exact h.keeps (keepsKey_uartfl argv)
  | lslpt => exact h.keeps (keepsKey_lslpt argv)
  | wqsopt => exact h.keeps (keepsKey_wqsopt argv)
  | wphymode => exact h.keeps (keepsKey_wphymode argv)
  | wscanap => exact h.keeps (keepsKey_wscanap argv env.malloc)
  | wscap => exact keyInv_wscap h argv
  | wsmtconf => exact h.keeps (keepsKey_wsmtconf argv)
  | nqscnn => exact h.keeps (keepsKey_nqscnn inetAton argv)
  | nlocip => exact h.keeps (keepsKey_nlocip inetAton argv)
  | quit => exact h.keeps (keepsKey_quit argv)
  | _ => exact h

/-- The events of the runs: outside the commands a key is written by `InfKeySet` only. -/
def KeyStep (s : Settings) : SettingsEvent → Prop
  | .sysParam cfg => (∃ index keyBuf, cfg = infKeySet s.sysParam index keyBuf) ∨
      cfg.key = s.sysParam.key
  | _ => True

/-- The writes of the configuration threads are among them. -/
theorem keyStep_of_configStep {s : Settings} {e : SettingsEvent} (h : ConfigStep s e) :
    KeyStep s e := by
  cases e with
  | sysParam cfg =>
    obtain ⟨w, rfl⟩ := h
    exact sysParamWrite_key w
  | _ => exact trivial

/-- **One event.** -/
theorem keyInv_step {s s' : Settings} {e : SettingsEvent} (h : KeyInv s) (he : KeyStep s e)
    (hs : settingsStep inetAton s e = some s') : KeyInv s' := by
  cases e with
  | command responseFunction argv env =>
    simp only [settingsStep] at hs
    split at hs
    · obtain rfl := Option.some.inj hs
      exact keyInv_respond inetAton h responseFunction argv env
    · cases hs
  | sysParam cfg =>
    obtain rfl := Option.some.inj hs
    rcases he with ⟨index, keyBuf, rfl⟩ | hkey
    · exact { h with sysParam := h.sysParam.set index keyBuf }
    · exact { h with sysParam := by rw [hkey]; exact h.sysParam }
  | linkStatus event =>
    obtain rfl := Option.some.inj hs
    exact h.keeps ⟨rfl, Or.inl rfl, Or.inl rfl⟩
  | smartconfig =>
    obtain rfl := Option.some.inj hs
    apply h.keeps
    unfold responseSmartconfig
    split
    · exact ⟨rfl, Or.inr rfl, Or.inl rfl⟩
    · exact KeepsKey.refl s
  | cmdMode =>
    obtain rfl := Option.some.inj hs
    exact h.keeps ⟨rfl, Or.inl rfl, Or.inl rfl⟩
  | reset pin =>
    obtain rfl := Option.some.inj hs
    exact keyInv_reboot inetAton h.userSector pin

/-- Every run from a first boot with an erased flash. -/
theorem keyInv_run {permanentAddress : List UInt8} {pin : Bool × Bool} {es : List SettingsEvent}
    {s : Settings} (hes : Along (settingsStep inetAton) KeyStep
      (firstBoot inetAton .erased .erased permanentAddress pin) es)
    (h : run (settingsStep inetAton)
      (firstBoot inetAton .erased .erased permanentAddress pin) es = some s) : KeyInv s := by
  have hboot : KeyInv (firstBoot inetAton .erased .erased permanentAddress pin) :=
    keyInv_reboot inetAton (fun hvalid =>
      absurd (show UserCfgParam.erased.isValid = userParamFlagValid from hvalid) (by decide)) pin
  exact run_invariant (fun _ _ _ hinv hok hs => keyInv_step inetAton hinv hok hs) es _ s hboot hes h

/-! ### The query of `AT+WSCAP` -/

section Query

variable {m : Memory} {s : Settings} {env : QueryEnv}

/-- The one store of the query. -/
theorem exec_wscap (env : QueryEnv) (m : Memory) :
    (Query.wscap.exec env m).mem =
        store8 m (CfgField.psk.address + (m CfgField.keyLength.address).toNat) 0 ∧
      (Query.wscap.exec env m).stores =
        [CfgField.psk.address + (m CfgField.keyLength.address).toNat] := ⟨rfl, rfl⟩

/-- The length that the query reads. -/
theorem SettingsAt.keyLength (hm : SettingsAt m s) (hkey : KeyEnds s.sysParam.key) :
    (m CfgField.keyLength.address).toNat = s.sysParam.wiFiCfg.keyLength := by
  have hle : s.sysParam.wiFiCfg.keyLength ≤ 64 := hkey.keyLength_le
  have hbyte : m CfgField.keyLength.address = .ofNat s.sysParam.wiFiCfg.keyLength :=
    (hm.sysParam .keyLength).1
  rw [hbyte, UInt8.toNat_ofNat']
  omega

/-- A key with a NUL behind it is not changed, and the store is inside `PSK`. -/
theorem readsOnly_wscap_iff (hm : SettingsAt m s) (hkey : KeyEnds s.sysParam.key) :
    ReadsOnly .wscap env m ↔ s.sysParam.wiFiCfg.keyLength < 64 := by
  obtain ⟨hmem, hstores⟩ := exec_wscap env m
  rw [hm.keyLength hkey] at hmem hstores
  have hle : s.sysParam.wiFiCfg.keyLength ≤ 64 := hkey.keyLength_le
  have hssid : CfgField.ssid.address + 33 ≤ CfgField.psk.address := by decide
  constructor
  · intro h
    by_contra hlong
    obtain ⟨f, hf, hcovers⟩ := h.inside _ (by rw [hstores]; exact List.mem_singleton_self _)
    have hnames : f = .ssid ∨ f = .psk := by simpa [Query.names] using hf
    rcases hnames with rfl | rfl
    · have hend := hcovers.2
      change _ < CfgField.ssid.address + 33 at hend
      omega
    · have hend := hcovers.2
      change _ < CfgField.psk.address + 64 at hend
      omega
  · intro hshort
    have hnul := (hm.sysParam .psk).getElem? (hkey.ends hshort)
    constructor
    case unchanged =>
      intro a _
      rw [hmem]
      exact congrFun (store8_eq_self hnul) a
    case inside =>
      intro a ha
      rw [hstores, List.mem_singleton] at ha
      have hsize : CfgField.psk.size = 64 := rfl
      exact ⟨.psk, by decide, by rw [ha]; exact Nat.le_add_right _ _, by rw [ha, hsize]; omega⟩

/-- All response functions but `responseWSCAP` leave the settings alone when they are queried. -/
theorem respond_query {q : Query} (h : q ≠ .wscap) (command : List UInt8) (cenv : CommandEnv) :
    respond inetAton s q.responseFunction [command, query] cenv = s := by
  cases q with
  | wscap => exact absurd rfl h
  | baudrate => simp [Query.responseFunction, respond, responseBAUDRATE]
  | uartfl => simp [Query.responseFunction, respond, responseUARTFL]
  | uartft => simp [Query.responseFunction, respond, responseUARTFT]
  | wphymode => simp [Query.responseFunction, respond, responseWPHYMODE]
  | _ => rfl

/-- A key that ends is not changed by ending it, unless the NUL goes over `WscEn`. -/
theorem endKey_eq {cfg : CfgParam} (hkey : KeyEnds cfg.key) :
    cfg.wiFiCfg.endKey =
      if cfg.wiFiCfg.keyLength = 64 then { cfg.wiFiCfg with wscEn := 0 } else cfg.wiFiCfg := by
  have hle : cfg.wiFiCfg.keyLength ≤ 64 := hkey.keyLength_le
  unfold WifiCfg.endKey
  split
  case isTrue => rfl
  case isFalse hlength =>
    have hends : cfg.wiFiCfg.psk[cfg.wiFiCfg.keyLength]? = some 0 :=
      hkey.ends (show cfg.wiFiCfg.keyLength < 64 by omega)
    obtain ⟨hlt, hnul⟩ := List.getElem?_eq_some_iff.mp hends
    have hset : cfg.wiFiCfg.psk.set cfg.wiFiCfg.keyLength 0 = cfg.wiFiCfg.psk := by
      rw [← hnul, List.set_getElem_self hlt]
    rw [hset]

/-- The byte behind a full `PSK` is `WscEn`. -/
theorem wscEn_address : CfgField.psk.address + 64 = CfgField.wscEn.address := by decide

/-- The other fields are in front of it or behind it. -/
theorem CfgField.apart_wscEn {f : CfgField} (h : f ≠ .wscEn) :
    CfgField.wscEn.address < f.address ∨ f.address + f.size ≤ CfgField.wscEn.address := by
  revert h
  cases f <;> decide

/-- Another field does not see `WscEn`. -/
theorem CfgField.value_wscEn {f : CfgField} (h : f ≠ .wscEn) (cfg : CfgParam) (n : ℕ) :
    f.value { cfg with wiFiCfg := { cfg.wiFiCfg with wscEn := n } } = f.value cfg := by
  cases f with
  | wscEn => exact absurd rfl h
  | _ => rfl

/-- **The queries are those of the response functions**: what they make of the memory is what
    `respond` makes of the settings. -/
theorem query_refines (hsize : SizesRight s.sysParam) (hkey : KeyEnds s.sysParam.key)
    (hm : SettingsAt m s) (q : Query) (env : QueryEnv) (command : List UInt8)
    (cenv : CommandEnv) :
    SettingsAt (q.exec env m).mem
      (respond inetAton s q.responseFunction [command, query] cenv) := by
  by_cases hq : q = .wscap
  case neg =>
    rw [respond_query inetAton hq]
    have hmem := (exec_noStore env (noStore_program hq) ⟨m, [], []⟩).1
    rw [Query.exec, hmem]
    exact hm
  subst hq
  have hrespond : respond inetAton s Query.wscap.responseFunction [command, query] cenv =
      { s with sysParam := { s.sysParam with wiFiCfg := s.sysParam.wiFiCfg.endKey } } := by
    simp [Query.responseFunction, respond, responseWSCAP]
  rw [hrespond, endKey_eq hkey]
  obtain ⟨hmem, -⟩ := exec_wscap env m
  rw [hm.keyLength hkey] at hmem
  by_cases hlength : s.sysParam.wiFiCfg.keyLength = 64
  · rw [hmem, if_pos hlength, hlength, wscEn_address]
    constructor
    case sysParam =>
      intro f
      by_cases hf : f = .wscEn
      · subst hf
        exact ⟨store8_self _ _ _, trivial⟩
      · rw [CfgField.value_wscEn hf]
        apply (hm.sysParam f).store8
        rw [hsize f]
        exact CfgField.apart_wscEn hf
    case userParam =>
      intro f
      apply (hm.userParam f).store8
      apply Or.inl
      have huser : CfgField.wscEn.address < userParamAddress := by decide
      exact Nat.lt_add_right _ huser
  · -- the NUL is there already
    have hle : s.sysParam.wiFiCfg.keyLength ≤ 64 := hkey.keyLength_le
    have hshort : s.sysParam.wiFiCfg.keyLength < 64 := by omega
    have hnul : m (CfgField.psk.address + s.sysParam.wiFiCfg.keyLength) = 0 :=
      (hm.sysParam .psk).getElem? (hkey.ends hshort)
    rw [if_neg hlength, hmem, store8_eq_self hnul]
    exact hm

end Query

/-- **When a query only reads.**  In every state that is reached from a first boot, for every
    query: no byte of `SysParam` or `UserParam` changes and nothing is stored outside of the fields
    that are printed, if and only if it is not `AT+WSCAP=?` with a key of 64 bytes. -/
theorem query_frame_iff {permanentAddress : List UInt8} {pin : Bool × Bool}
    {es : List SettingsEvent} {s : Settings} (hes : Along (settingsStep inetAton) KeyStep
      (firstBoot inetAton .erased .erased permanentAddress pin) es)
    (hrun : run (settingsStep inetAton)
      (firstBoot inetAton .erased .erased permanentAddress pin) es = some s)
    {m : Memory} (hm : SettingsAt m s) (q : Query) (env : QueryEnv) :
    ReadsOnly q env m ↔ q ≠ .wscap ∨ s.sysParam.wiFiCfg.keyLength < 64 := by
  have hkey := (keyInv_run inetAton hes hrun).sysParam
  by_cases hq : q = .wscap
  · subst hq
    rw [readsOnly_wscap_iff hm hkey]
    exact ⟨Or.inr, fun h => h.resolve_left fun hne => hne rfl⟩
  · exact iff_of_true (readsOnly_of_ne hq env m) (Or.inl hq)

/-- After boot, without a link. -/
def QueryEnv.boot : QueryEnv where
  linkStatus := .linkDown
  netifAddr := 0
  curCh := 1
  rateOpt := ⟨0, 0⟩
  beaconOpt := ⟨100, 0⟩

/-- `AT+WSCAP` with a network name, a key and a number of tries. -/
def wscapEvent (key : List UInt8) : SettingsEvent :=
  .command .wscap [ascii "+WSCAP", ascii "ap", key, ascii "1"] ⟨(true, true), true⟩

/-- `AT+WSCAP` is one of the steps that the theorem is about. -/
theorem along_wscapEvent (key : List UInt8) (s : Settings) :
    Along (settingsStep dottedDecimal) KeyStep s [wscapEvent key] :=
  ⟨trivial, fun _ _ => trivial⟩

theorem query_frame_iff_short : ∃ s m,
    run (settingsStep dottedDecimal) (firstBoot dottedDecimal .erased .erased [] (true, true))
      [wscapEvent (ascii "12345678")] = some s ∧ SettingsAt m s ∧ ReadsOnly .wscap .boot m := by
  have hrun : (run (settingsStep dottedDecimal) (firstBoot dottedDecimal .erased .erased []
      (true, true)) [wscapEvent (ascii "12345678")]).map (fun s =>
        (s.sysParam.wiFiCfg.keyLength, decide (SizesRight s.sysParam))) = some (8, true) := by
    decide +kernel
  obtain ⟨s, hs, hvalues⟩ := Option.map_eq_some_iff.mp hrun
  obtain ⟨hlength, hsizes⟩ := Prod.mk.inj hvalues
  obtain ⟨m, hm⟩ := exists_settingsAt (of_decide_eq_true hsizes)
  refine ⟨s, m, hs, hm, ?_⟩
  apply (query_frame_iff dottedDecimal (along_wscapEvent _ _) hs hm .wscap .boot).mpr
  exact Or.inr (by rw [hlength]; decide)

/-- With a key of 64 bytes, which `AT+WSCAP` accepts, `AT+WSCAP=?` stores to `WscEn`. -/
theorem query_stores_wscEn : ∃ s m,
    run (settingsStep dottedDecimal) (firstBoot dottedDecimal .erased .erased [] (true, true))
      [wscapEvent (List.replicate 64 97)] = some s ∧ SettingsAt m s ∧
    (Query.wscap.exec .boot m).stores = [CfgField.wscEn.address] ∧ ¬ ReadsOnly .wscap .boot m := by
  have hrun : (run (settingsStep dottedDecimal) (firstBoot dottedDecimal .erased .erased []
      (true, true)) [wscapEvent (List.replicate 64 97)]).map (fun s =>
        (s.sysParam.wiFiCfg.keyLength, decide (SizesRight s.sysParam))) = some (64, true) := by
    decide +kernel
  obtain ⟨s, hs, hvalues⟩ := Option.map_eq_some_iff.mp hrun
  obtain ⟨hlength, hsizes⟩ := Prod.mk.inj hvalues
  obtain ⟨m, hm⟩ := exists_settingsAt (of_decide_eq_true hsizes)
  have hinv := keyInv_run dottedDecimal (along_wscapEvent _ _) hs
  refine ⟨s, m, hs, hm, ?_, ?_⟩
  · rw [(exec_wscap .boot m).2, hm.keyLength hinv.sysParam, hlength, wscEn_address]
  · rw [readsOnly_wscap_iff hm hinv.sysParam, hlength]
    decide

end SerialNet
