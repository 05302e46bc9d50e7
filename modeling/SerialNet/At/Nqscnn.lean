import SerialNet.At.InetAton
import SerialNet.At.Responses

namespace SerialNet

/-!
# `AT+NQSCNN` and its four parts

The command sets the protocol, the type, the port and the remote address.  Every part stores what it
accepts, also when another one is rejected and the command ends with `+ERROR`; `nqscnn_atomic_iff`
says when it is nevertheless all or nothing.
-/

/-- What a command prints: `+OK…`, `+ERROR=` with a code, `+ERROR=WiFi Started`, or nothing. -/
inductive Answer where
  | ok
  | error (code : ℤ)
  | wifiStarted
  | silent
deriving DecidableEq, Repr

/-- `INVALID_PARAMETER`, the error behind `+ERROR=`. -/
def invalidParameter : ℤ := -2

section

variable (inetAton : List UInt8 → ℕ)

/-- `responseNQSCNN` on four arguments, with its answer. -/
def answerNQSCNN (s : Settings) (arg1 arg2 arg3 arg4 : List UInt8) : Settings × Answer :=
  let mode := responseNMODE s arg1
  let type := responseNTYPE mode.1 arg2
  let port := responseNPORT type.1 arg3
  let ip := responseNRMTIP inetAton port.1 arg4
  let count := [mode.2, type.2, port.2, ip.2].count true
  (ip.1, if count = 4 then .ok else .error invalidParameter)

/-- The settings are those of `responseNQSCNN`; only the answer is added. -/
theorem answerNQSCNN_settings (s : Settings) (command arg1 arg2 arg3 arg4 : List UInt8) :
    (answerNQSCNN inetAton s arg1 arg2 arg3 arg4).1 =
      responseNQSCNN inetAton s [command, arg1, arg2, arg3, arg4] := rfl

end

/-! ### The four parts -/

/-- `responseNMODE` and `responseNTYPE` accept the argument. -/
def IsBinary (arg : List UInt8) : Prop := (strIsDigit arg ∧ arg.length = 1) ∧ atoi arg ≤ 1

/-- `responseNPORT` accepts the argument. -/
def IsPort (arg : List UInt8) : Prop := strIsDigit arg ∧ atoi arg ≠ 0 ∧ atoi arg ≤ 65535

instance (arg : List UInt8) : Decidable (IsBinary arg) := inferInstanceAs (Decidable (_ ∧ _))
instance (arg : List UInt8) : Decidable (IsPort arg) := inferInstanceAs (Decidable (_ ∧ _))

/-- The type that `responseNRMTIP` finds. -/
def typeAfter (s : Settings) (arg2 : List UInt8) : ℕ :=
  if IsBinary arg2 then atoi arg2 else s.userParam.socketType

/-- `responseNRMTIP` stores an address. -/
def StoresIp (s : Settings) (arg2 arg4 : List UInt8) : Prop :=
  typeAfter s arg2 ≠ 1 ∧ isValidIp arg4

instance (s : Settings) (arg2 arg4 : List UInt8) : Decidable (StoresIp s arg2 arg4) :=
  inferInstanceAs (Decidable (_ ∧ _))

/-- All four parts accept their arguments. -/
def AllAccepted (s : Settings) (arg1 arg2 arg3 arg4 : List UInt8) : Prop :=
  IsBinary arg1 ∧ IsBinary arg2 ∧ IsPort arg3 ∧ (typeAfter s arg2 = 1 ∨ isValidIp arg4)

instance (s : Settings) (arg1 arg2 arg3 arg4 : List UInt8) :
    Decidable (AllAccepted s arg1 arg2 arg3 arg4) := inferInstanceAs (Decidable (_ ∧ _))

variable {s : Settings} {arg1 arg2 arg3 arg4 : List UInt8} {inetAton : List UInt8 → ℕ}

/-- A part checks the form of its argument and then the range. -/
theorem ite_form {α : Type*} {form range ok : Prop} [Decidable form] [Decidable range]
    [Decidable ok] (h : ok ↔ form ∧ ¬ range) (x y : α) :
    (if form then if range then y else x else y) = if ok then x else y := by
  by_cases hform : form
  · by_cases hrange : range
    · rw [if_pos hform, if_pos hrange, if_neg fun hok => (h.mp hok).2 hrange]
    · rw [if_pos hform, if_neg hrange, if_pos (h.mpr ⟨hform, hrange⟩)]
  · rw [if_neg hform, if_neg fun hok => hform (h.mp hok).1]

/-- The test of the protocol and of the type. -/
theorem isBinary_iff (arg : List UInt8) :
    IsBinary arg ↔ (strIsDigit arg ∧ arg.length = 1) ∧ ¬ (atoi arg ≠ 0 ∧ atoi arg ≠ 1) :=
  and_congr_right fun _ => by omega

/-- The test of the port. -/
theorem isPort_iff (arg : List UInt8) :
    IsPort arg ↔ strIsDigit arg ∧ ¬ (atoi arg > 65535 ∨ atoi arg = 0) :=
  and_congr_right fun _ => by omega

/-- An accepted protocol is stored, with a copy of `SysParam`. -/
theorem responseNMODE_eq : responseNMODE s arg1 =
    if IsBinary arg1 then
      (keepSysParam { s with userParam := { s.userParam with socketProtocol := atoi arg1 } }, true)
    else (s, false) := ite_form (isBinary_iff arg1) _ _

/-- An accepted type is stored, with a copy of `SysParam`. -/
theorem responseNTYPE_eq : responseNTYPE s arg2 =
    if IsBinary arg2 then
      (keepSysParam { s with userParam := { s.userParam with socketType := atoi arg2 } }, true)
    else (s, false) := ite_form (isBinary_iff arg2) _ _

/-- An accepted port is stored, with a copy of `SysParam`. -/
theorem responseNPORT_eq : responseNPORT s arg3 =
    if IsPort arg3 then
      (keepSysParam { s with userParam := { s.userParam with socketPort := atoi arg3 } }, true)
    else (s, false) := ite_form (isPort_iff arg3) _ _

/-- What the first three parts leave, and how many of them accept. -/
theorem threeParts_eq (s : Settings) (arg1 arg2 arg3 : List UInt8) :
    (responseNPORT (responseNTYPE (responseNMODE s arg1).1 arg2).1 arg3).1 = { s with
      userParam := { s.userParam with
        socketProtocol := if IsBinary arg1 then atoi arg1 else s.userParam.socketProtocol
        socketType := typeAfter s arg2
        socketPort := if IsPort arg3 then atoi arg3 else s.userParam.socketPort
        cfg := if IsBinary arg1 ∨ IsBinary arg2 ∨ IsPort arg3 then s.sysParam
          else s.userParam.cfg } } := by
  rw [responseNMODE_eq, responseNTYPE_eq, responseNPORT_eq, typeAfter]
  by_cases h1 : IsBinary arg1 <;> by_cases h2 : IsBinary arg2 <;> by_cases h3 : IsPort arg3 <;>
    simp [h1, h2, h3, keepSysParam]

/-- `responseNRMTIP` behind them. -/
theorem responseNRMTIP_eq (s : Settings) (arg4 : List UInt8) :
    responseNRMTIP inetAton s arg4 =
      if s.userParam.socketType ≠ 1 ∧ isValidIp arg4 then
        (keepSysParam { s with userParam := { s.userParam with remoteCommIp := inetAton arg4 } },
          true)
      else (s, decide (s.userParam.socketType = 1)) := by
  unfold responseNRMTIP
  by_cases htype : s.userParam.socketType = 1
  · rw [if_pos htype, if_neg fun h => h.1 htype, decide_eq_true htype]
  · by_cases hip : isValidIp arg4
    · rw [if_neg htype, if_pos hip, if_pos ⟨htype, hip⟩]
    · rw [if_neg htype, if_neg hip, if_neg fun h => hip h.2, decide_eq_false htype]

/-- What the four parts leave in `UserParam`. -/
theorem answerNQSCNN_userParam :
    (answerNQSCNN inetAton s arg1 arg2 arg3 arg4).1.userParam = { s.userParam with
      socketProtocol := if IsBinary arg1 then atoi arg1 else s.userParam.socketProtocol
      socketType := typeAfter s arg2
      socketPort := if IsPort arg3 then atoi arg3 else s.userParam.socketPort
      remoteCommIp := if StoresIp s arg2 arg4 then inetAton arg4 else s.userParam.remoteCommIp
      cfg := if IsBinary arg1 ∨ IsBinary arg2 ∨ IsPort arg3 ∨ StoresIp s arg2 arg4 then s.sysParam
        else s.userParam.cfg } := by
  show (responseNRMTIP inetAton (responseNPORT (responseNTYPE (responseNMODE s arg1).1 arg2).1
    arg3).1 arg4).1.userParam = _
  rw [threeParts_eq, responseNRMTIP_eq]
  show (if StoresIp s arg2 arg4 then _ else _ : Settings × Bool).1.userParam = _
  by_cases hip : StoresIp s arg2 arg4
  · simp [hip, keepSysParam]
  · simp [hip]

/-- The four results are counted, and only four good ones make an `+OK`. -/
theorem answerNQSCNN_answer : (answerNQSCNN inetAton s arg1 arg2 arg3 arg4).2 =
    if AllAccepted s arg1 arg2 arg3 arg4 then .ok else .error invalidParameter := by
  unfold answerNQSCNN
  extract_lets mode type port ip count
  have hport : port.1 = _ := threeParts_eq s arg1 arg2 arg3
  have h1 : mode.2 = decide (IsBinary arg1) := by
    unfold mode
    rw [responseNMODE_eq]
    split <;> simp [*]
  have h2 : type.2 = decide (IsBinary arg2) := by
    unfold type
    rw [responseNTYPE_eq]
    split <;> simp [*]
  have h3 : port.2 = decide (IsPort arg3) := by
    unfold port
    rw [responseNPORT_eq]
    split <;> simp [*]
  have h4 : ip.2 = decide (typeAfter s arg2 = 1 ∨ isValidIp arg4) := by
    unfold ip
    rw [responseNRMTIP_eq, hport]
    show (if StoresIp s arg2 arg4 then _ else _ : Settings × Bool).2 = _
    by_cases hip : StoresIp s arg2 arg4
    · rw [if_pos hip, decide_eq_true (Or.inr hip.2)]
    · rw [if_neg hip]
      show decide (typeAfter s arg2 = 1) = _
      congr 1
      exact propext ⟨.inl, fun h => h.elim id fun h => by_contra fun htype => hip ⟨htype, h⟩⟩
  have hcount : count = 4 ↔ AllAccepted s arg1 arg2 arg3 arg4 := by
    unfold count AllAccepted
    rw [h1, h2, h3, h4]
    by_cases IsBinary arg1 <;> by_cases IsBinary arg2 <;> by_cases IsPort arg3 <;>
      by_cases typeAfter s arg2 = 1 ∨ isValidIp arg4 <;> simp [*]
  exact if_congr hcount rfl rfl

/-- `+OK` says that all four are accepted. -/
theorem answerNQSCNN_ok_iff : (answerNQSCNN inetAton s arg1 arg2 arg3 arg4).2 = .ok ↔
    AllAccepted s arg1 arg2 arg3 arg4 := by
  rw [answerNQSCNN_answer]
  split
  case isTrue hall => exact iff_of_true rfl hall
  case isFalse hall => exact iff_of_false (by rintro ⟨⟩) hall

/-! ### All or nothing -/

/-- `+ERROR` leaves `UserParam` as it was, and after `+OK` it holds the four values; a server has
    no remote address. -/
def AllOrNothing (stale : ℕ) (s : Settings) (arg1 arg2 arg3 arg4 : List UInt8) : Prop :=
  let r := answerNQSCNN (inetAtonInto stale) s arg1 arg2 arg3 arg4
  (r.2 ≠ .ok → r.1.userParam = s.userParam) ∧
    (r.2 = .ok → r.1.userParam.socketProtocol = decimal arg1 ∧
      r.1.userParam.socketType = decimal arg2 ∧ r.1.userParam.socketPort = decimal arg3 ∧
      (decimal arg2 = 0 → ip4Addrs r.1.userParam.remoteCommIp = (ipFields arg4).map decimal))

/-- What the accepted arguments store is there already. -/
def NothingNew (s : Settings) (arg1 arg2 arg3 arg4 : List UInt8) : Prop :=
  (IsBinary arg1 → s.userParam.socketProtocol = decimal arg1) ∧
    (IsBinary arg2 → s.userParam.socketType = decimal arg2) ∧
    (IsPort arg3 → s.userParam.socketPort = decimal arg3 % 4294967296) ∧
    (StoresIp s arg2 arg4 → (ipaddrAton arg4).map UInt32.toNat = some s.userParam.remoteCommIp) ∧
    (IsBinary arg1 ∨ IsBinary arg2 ∨ IsPort arg3 ∨ StoresIp s arg2 arg4 →
      s.userParam.cfg = s.sysParam)

/-- One digit is not reduced by `atoi`. -/
theorem IsBinary.atoi_eq {arg : List UInt8} (h : IsBinary arg) : atoi arg = decimal arg := by
  obtain ⟨⟨hdigits, hlength⟩, -⟩ := h
  obtain ⟨c, rfl⟩ := List.length_eq_one_iff.mp hlength
  have hdigit : decimal [c] = digitOf c := by rw [decimal, numeral]; simp
  have hlt : digitOf c < 256 := (Nat.sub_le _ _).trans_lt c.toNat_lt
  rw [SerialNet.atoi_eq hdigits, hdigit, Nat.mod_eq_of_lt (hlt.trans (by decide))]

/-- A port may be a number that `atoi` reduces. -/
theorem IsPort.atoi_eq {arg : List UInt8} (h : IsPort arg) : atoi arg = decimal arg % 4294967296 :=
  SerialNet.atoi_eq h.1

/-- The port that is stored is the one given, if that is one. -/
theorem IsPort.eq_decimal_iff {arg : List UInt8} (h : IsPort arg) :
    decimal arg % 4294967296 = decimal arg ↔ decimal arg ≤ 65535 := by
  have hport := h.2.2
  rw [h.atoi_eq] at hport
  omega

/-- The address of a client that `+OK` answers. -/
theorem client_address_iff (h : AllAccepted s arg1 arg2 arg3 arg4) (old : ℕ) :
    (∀ stale, decimal arg2 = 0 →
        ip4Addrs (if StoresIp s arg2 arg4 then inetAtonInto stale arg4 else old) =
          (ipFields arg4).map decimal) ↔
      (decimal arg2 = 0 → ReadsDecimal arg4) := by
  rw [forall_comm]
  apply forall_congr'
  intro hclient
  obtain ⟨-, h2, -, h4⟩ := h
  have htype : typeAfter s arg2 ≠ 1 := by
    rw [typeAfter, if_pos h2, h2.atoi_eq, hclient]
    decide
  have hvalid := h4.resolve_left htype
  simp only [if_pos (show StoresIp s arg2 arg4 from ⟨htype, hvalid⟩)]
  exact inetAtonInto_iff hvalid

/-- Whatever the variable held before, it is a value only if `ipaddr_aton` gives this value. -/
theorem inetAtonInto_eq_iff {cp : List UInt8} {old : ℕ} :
    (∀ stale, inetAtonInto stale cp = old) ↔ (ipaddrAton cp).map UInt32.toNat = some old := by
  unfold inetAtonInto
  cases (ipaddrAton cp).map UInt32.toNat with
  | some addr => exact ⟨fun h => congrArg some (h 0), fun h _ => Option.some.inj h⟩
  | none => exact iff_of_false (fun h => absurd ((h 0).trans (h 1).symm) (by decide)) (by rintro ⟨⟩)

/-- Nothing changes exactly when every field is stored as it is. -/
theorem userParam_update_iff {u : UserCfgParam} {protocol type port ip : ℕ} {cfg : CfgParam} :
    { u with socketProtocol := protocol, socketType := type, socketPort := port,
             remoteCommIp := ip, cfg := cfg } = u ↔
      protocol = u.socketProtocol ∧ type = u.socketType ∧ port = u.socketPort ∧
        ip = u.remoteCommIp ∧ cfg = u.cfg := by
  cases u
  simp only [UserCfgParam.mk.injEq, true_and]

/-- A part that stores nothing new. -/
theorem ite_eq_old_iff {α : Type*} {ok : Prop} [Decidable ok] {new new' old : α}
    (h : ok → new = new') : (if ok then new else old) = old ↔ (ok → old = new') := by
  rw [ite_eq_right_iff]
  exact forall_congr' fun hok => by rw [h hok, eq_comm]

/-- `UserParam` stays as it was. -/
theorem nothing_new_iff :
    (∀ stale, (answerNQSCNN (inetAtonInto stale) s arg1 arg2 arg3 arg4).1.userParam =
        s.userParam) ↔ NothingNew s arg1 arg2 arg3 arg4 := by
  have hmode : (if IsBinary arg1 then atoi arg1 else s.userParam.socketProtocol) =
      s.userParam.socketProtocol ↔ _ :=
    ite_eq_old_iff IsBinary.atoi_eq
  have htype : typeAfter s arg2 = s.userParam.socketType ↔ _ :=
    ite_eq_old_iff IsBinary.atoi_eq
  have hport : (if IsPort arg3 then atoi arg3 else s.userParam.socketPort) =
      s.userParam.socketPort ↔ _ := ite_eq_old_iff IsPort.atoi_eq
  have hcfg : (if IsBinary arg1 ∨ IsBinary arg2 ∨ IsPort arg3 ∨ StoresIp s arg2 arg4 then
      s.sysParam else s.userParam.cfg) = s.userParam.cfg ↔ _ := ite_eq_old_iff fun _ => rfl
  simp only [answerNQSCNN_userParam, userParam_update_iff, hmode, htype, hport, hcfg,
    ite_eq_right_iff, forall_and, forall_const, NothingNew]
  refine and_congr_right fun _ => and_congr_right fun _ => and_congr_right fun _ =>
    and_congr_left fun _ => ?_
  rw [forall_comm]
  exact forall_congr' fun _ => inetAtonInto_eq_iff

/-- **When `AT+NQSCNN` is all or nothing.**  For all settings and arguments, and whatever the stack
    held in place of the address: if all arguments are accepted, exactly when the port is given by
    its own number and a client's address reads the same in decimal; otherwise exactly when the
    accepted ones change nothing. -/
theorem nqscnn_atomic_iff (s : Settings) (arg1 arg2 arg3 arg4 : List UInt8) :
    (∀ stale, AllOrNothing stale s arg1 arg2 arg3 arg4) ↔
      if AllAccepted s arg1 arg2 arg3 arg4 then
        decimal arg3 ≤ 65535 ∧ (decimal arg2 = 0 → ReadsDecimal arg4)
      else NothingNew s arg1 arg2 arg3 arg4 := by
  unfold AllOrNothing
  by_cases hall : AllAccepted s arg1 arg2 arg3 arg4
  case pos =>
    have hanswer : ∀ stale, (answerNQSCNN (inetAtonInto stale) s arg1 arg2 arg3 arg4).2 = .ok :=
      fun stale => answerNQSCNN_ok_iff.mpr hall
    have ⟨h1, h2, h3, _⟩ := hall
    rw [if_pos hall, ← client_address_iff hall s.userParam.remoteCommIp, ← h3.eq_decimal_iff,
      ← forall_and_left]
    apply forall_congr'
    intro stale
    simp only [answerNQSCNN_userParam, typeAfter, if_pos h1, if_pos h2, if_pos h3, h1.atoi_eq,
      h2.atoi_eq, h3.atoi_eq, true_and]
    exact ⟨fun h => h.2 (hanswer stale),
      fun h => ⟨fun hok => absurd (hanswer stale) hok, fun _ => h⟩⟩
  case neg =>
    have hanswer : ∀ stale, (answerNQSCNN (inetAtonInto stale) s arg1 arg2 arg3 arg4).2 ≠ .ok :=
      fun stale => answerNQSCNN_ok_iff.not.mpr hall
    rw [if_neg hall, ← nothing_new_iff]
    apply forall_congr'
    intro stale
    exact ⟨fun h => h.1 (hanswer stale),
      fun h => ⟨fun _ => h, fun hok => absurd hok (hanswer stale)⟩⟩

/-- All variables 0. -/
def Settings.zero : Settings :=
  { userParam := .zero, factoryParam := .zero, sysParam := .zero, linkStatus := .linkDown
    smtconfigBegin := 0, userSector := .zero, factorySector := .zero, permanentAddress := [] }

/-- A rejected port leaves the new protocol. -/
theorem protocol_behind_error :
    ¬ ∀ s arg1 arg2 arg3 arg4, ∀ stale, AllOrNothing stale s arg1 arg2 arg3 arg4 := by
  intro hall
  have h := (hall .zero (ascii "1") (ascii "1") (ascii "0") (ascii "10.0.0.1") 0).1 (by decide)
  exact absurd (congrArg UserCfgParam.socketProtocol h) (by decide)

end SerialNet
