import SerialNet.At.Nqscnn

namespace SerialNet

/-!
# Numbers that are cut to 8 or 16 bits

The commands read a number with `atoi` and keep it in a `UINT8`, an `INT8` or a `UINT16`, some of
them before they test its range.  `numeric_arguments_iff` says for every command which numbers it
treats right.
-/

/-! ### Answers -/

/-- The answer of `AT+WSCANAP` when the scan cannot start. -/
def invalidScanApFail : ℤ := -9

/-- What `responseNLOCIP` prints. -/
def answerNLOCIP (s : Settings) (argv : List (List UInt8)) : Answer :=
  match argv with
  | [_, arg] => if arg = query then .ok else .error invalidParameter
  | [_, arg1, arg2, arg3] =>
    if ¬ isValidIp arg1 then .error invalidParameter
    else
      let mode := u8 (atoi arg2)
      if ¬ strIsDigit arg2 ∨ arg2.length = 0 ∨ ¬ strIsDigit arg3 ∨ arg3.length = 0 ∨
          (mode ≠ 0 ∧ mode ≠ 1) then .error invalidParameter
      else if s.wifiStarted then .wifiStarted
      else .ok
  | _ => .error invalidParameter

/-- What `responseWSCAP` prints; nothing in an ad hoc network. -/
def answerWSCAP (s : Settings) (argv : List (List UInt8)) : Answer :=
  match argv with
  | [_, arg] => if arg = query then .ok else .error invalidParameter
  | [_, arg1, arg2, arg3] =>
    if arg1.length ≤ 32 ∧ arg1.length > 0 ∧ arg2.length ≤ 64 then
      if s.sysParam.wiFiCfg.protocol = 0 then
        if ¬ strIsDigit arg3 ∨ arg3.length = 0 then .error invalidParameter
        else if atoi arg3 > 255 then .error invalidParameter
        else .ok
      else if s.sysParam.wiFiCfg.protocol = 2 then .ok
      else .silent
    else .error invalidParameter
  | _ => .error invalidParameter

/-- What `responseWSCANAP` prints in front of the scan. -/
def answerWSCANAP (argv : List (List UInt8)) (malloc : Bool) : Answer :=
  if ¬ malloc then .error invalidScanApFail
  else
    match argv with
    | [_, arg] =>
      if strIsDigit arg ∧ arg.length ≠ 0 then
        -- A `UINT8` that is stored in an `INT8`.
        let minRssiFilter := i8 (u8 (atoi arg))
        if minRssiFilter > 127 then .error invalidParameter else .ok
      else .error invalidParameter
    | _ => .error invalidParameter

section

variable {inetAton : List UInt8 → ℕ} {s : Settings} {argv : List (List UInt8)} {malloc : Bool}

/-- A refused command changes nothing. -/
theorem responseNLOCIP_refused (h : answerNLOCIP s argv ≠ .ok) :
    responseNLOCIP inetAton s argv = s := by
  unfold responseNLOCIP
  split
  case h_1 command arg1 arg2 arg3 =>
    simp only [answerNLOCIP] at h
    dsimp only
    split_ifs at h ⊢
    · rfl
    · rfl
    · exact absurd rfl h
    · exact absurd rfl h
    · rfl
  case h_2 => rfl

/-- A refused `AT+WSCAP` stores nothing. -/
theorem responseWSCAP_refused (h : answerWSCAP s argv ≠ .ok) : responseWSCAP s argv = s := by
  unfold responseWSCAP
  split
  case h_1 command arg =>
    simp only [answerWSCAP] at h
    split_ifs at h ⊢
    · exact absurd rfl h
    · rfl
  case h_2 command arg1 arg2 arg3 =>
    simp only [answerWSCAP] at h
    split_ifs at h ⊢
    · rfl
    · rfl
    · exact absurd rfl h
    · exact absurd rfl h
    · rfl
    · rfl
  case h_3 => rfl

/-- A refused `AT+WSCANAP` stores nothing. -/
theorem responseWSCANAP_refused (h : answerWSCANAP argv malloc ≠ .ok) :
    responseWSCANAP s argv malloc = s := by
  unfold responseWSCANAP
  split
  case h_1 command arg =>
    refine if_neg fun haccepted => h ?_
    obtain ⟨hmalloc, hdigits, hlength, -⟩ := haccepted
    show (if ¬ malloc then _ else if _ then _ else _) = Answer.ok
    rw [if_neg (not_not_intro hmalloc), if_pos ⟨hdigits, hlength⟩]
    exact if_neg (i8_le _)
  case h_2 => rfl

end

/-! ### Numbers -/

/-- A number in decimal that an `int` holds. -/
structure DecimalArg where
  text : List UInt8
  digits : strIsDigit text = true
  ne_nil : text ≠ []
  le_int : decimal text ≤ 2147483647

namespace DecimalArg

/-- The number the digits denote, before any conversion. -/
def value (arg : DecimalArg) : ℕ := decimal arg.text

/-- `atoi` gives the number, which is far below the point where it wraps. -/
@[simp] theorem atoi_text (arg : DecimalArg) : atoi arg.text = arg.value := by
  have hlt : decimal arg.text < 4294967296 := arg.le_int.trans_lt (by decide)
  rw [atoi_eq arg.digits, Nat.mod_eq_of_lt hlt, value]

/-- Digits are not the question mark that asks for the value. -/
theorem text_ne_query (arg : DecimalArg) : arg.text ≠ query := by
  intro h
  have := arg.digits
  rw [h] at this
  exact absurd this (by decide)

/-- There is a digit. -/
theorem length_ne_zero (arg : DecimalArg) : arg.text.length ≠ 0 :=
  fun h => arg.ne_nil (List.length_eq_zero_iff.mp h)

end DecimalArg

section

variable (inetAton : List UInt8 → ℕ) (s : Settings) (arg : DecimalArg)

/-- `AT+UARTFL` stores the number, limited to what a frame may have. -/
def FrameLengthRight : Prop :=
  ∀ command, (responseUARTFL s [command, arg.text]).userParam.frameLength =
    min maxRecvBufferSize (max minRecvBufferSize arg.value)

/-- `AT+UARTFT` stores the number, limited to the gaps that are allowed. -/
def FrameGapRight : Prop :=
  ∀ command, (responseUARTFT s [command, arg.text]).userParam.frameGap =
    min uartFrameMaxLen (max uartFrameMinLen arg.value)

/-- `AT+NQSCNN` takes the ports 1 to 65535, whatever its other arguments are. -/
def PortRight : Prop :=
  ∀ arg1 arg2 arg4, let r := answerNQSCNN inetAton s arg1 arg2 arg.text arg4
    (r.2 = .ok ↔ (IsBinary arg1 ∧ IsBinary arg2 ∧ (typeAfter s arg2 = 1 ∨ isValidIp arg4)) ∧
      1 ≤ arg.value ∧ arg.value ≤ 65535) ∧
    r.1.userParam.socketPort =
      if 1 ≤ arg.value ∧ arg.value ≤ 65535 then arg.value else s.userParam.socketPort

/-- `AT+NLOCIP` takes 0 and 1 for the mode and keeps it in a station. -/
def DhcpModeRight : Prop :=
  ∀ command ip, ∀ tries : DecimalArg, isValidIp ip →
    let argv := [command, ip, arg.text, tries.text]
    let r := responseNLOCIP inetAton s argv
    (answerNLOCIP s argv ≠ .error invalidParameter ↔ arg.value = 0 ∨ arg.value = 1) ∧
      (answerNLOCIP s argv = .ok → s.sysParam.wiFiCfg.protocol = 0 →
        r.sysParam.ipCfg.bDhcp = arg.value ∧ r.userParam.cfg = r.sysParam)

/-- `AT+NLOCIP` takes up to 255 tries and keeps them in a station. -/
def DhcpTriesRight : Prop :=
  ∀ command ip, ∀ mode : DecimalArg, isValidIp ip → mode.value ≤ 1 →
    let argv := [command, ip, mode.text, arg.text]
    let r := responseNLOCIP inetAton s argv
    (answerNLOCIP s argv ≠ .error invalidParameter ↔ arg.value ≤ 255) ∧
      (answerNLOCIP s argv = .ok → s.sysParam.wiFiCfg.protocol = 0 →
        r.sysParam.ipCfg.dhcpTryTimes = arg.value ∧ r.userParam.cfg = r.sysParam)

/-- `AT+WSCAP` takes up to 255 tries in a station; otherwise it does not read them. -/
def ConTriesRight : Prop :=
  ∀ command ssid key, ssid.length ≤ 32 → ssid ≠ [] → key.length ≤ 64 →
    let argv := [command, ssid, key, arg.text]
    let r := responseWSCAP s argv
    (s.sysParam.wiFiCfg.protocol = 0 →
      (answerWSCAP s argv = .ok ↔ arg.value ≤ 255) ∧
        (answerWSCAP s argv = .ok →
          r.sysParam.wiFiCfg.conTryTimes = arg.value ∧ r.userParam.cfg = r.sysParam)) ∧
    (s.sysParam.wiFiCfg.protocol ≠ 0 → ∀ tries, r = responseWSCAP s [command, ssid, key, tries])

/-- `AT+WSCANAP` takes filters up to 127. -/
def RssiFilterRight : Prop :=
  ∀ command, answerWSCANAP [command, arg.text] true = .ok ↔ arg.value ≤ 127

/-- Every command treats the number as what it is. -/
def NumericArgRight : Prop :=
  FrameLengthRight s arg ∧ FrameGapRight s arg ∧ PortRight inetAton s arg ∧
    DhcpModeRight inetAton s arg ∧ DhcpTriesRight inetAton s arg ∧ ConTriesRight s arg ∧
    RssiFilterRight arg

end

variable {inetAton : List UInt8 → ℕ} {s : Settings} {arg : DecimalArg}

/-- The two tests of the frame length make it a number of the range. -/
theorem limitFrameLength_eq (n : ℕ) :
    limitFrameLength n = min maxRecvBufferSize (max minRecvBufferSize n) := by
  unfold limitFrameLength maxRecvBufferSize minRecvBufferSize
  split_ifs <;> omega

/-- `AT+UARTFL` cuts the number to 16 bits before it limits it, which is harmless when the rest is
    limited to the same length. -/
theorem frameLengthRight_iff :
    FrameLengthRight s arg ↔ arg.value ≤ 65535 ∨ 1400 ≤ arg.value % 65536 := by
  have hstored : ∀ command, (responseUARTFL s [command, arg.text]).userParam.frameLength =
      min 1400 (max 32 (arg.value % 65536)) := by
    intro command
    show (if arg.text = query then s else _ : Settings).userParam.frameLength = _
    rw [if_neg arg.text_ne_query, if_pos arg.digits]
    show limitFrameLength (u16 (atoi arg.text)) % 65536 = _
    rw [limitFrameLength_eq, u16_natCast, arg.atoi_text]
    show min 1400 (max 32 (arg.value % 65536)) % 65536 = _
    omega
  unfold FrameLengthRight
  simp only [hstored, maxRecvBufferSize, minRecvBufferSize, forall_const]
  omega

/-- `AT+UARTFT` limits the number itself. -/
theorem frameGapRight : FrameGapRight s arg := by
  intro command
  show (if arg.text = query then s else _ : Settings).userParam.frameGap = _
  rw [if_neg arg.text_ne_query, if_pos arg.digits]
  show (if atoi arg.text < uartFrameMinLen then _ else _) = _
  rw [arg.atoi_text, u16_natCast]
  unfold uartFrameMinLen uartFrameMaxLen
  split_ifs <;> omega

/-- `AT+NQSCNN` tests the number itself. -/
theorem portRight : PortRight inetAton s arg := by
  intro arg1 arg2 arg4
  have hport : IsPort arg.text ↔ 1 ≤ arg.value ∧ arg.value ≤ 65535 := by
    unfold IsPort
    rw [arg.atoi_text, Nat.one_le_iff_ne_zero]
    exact and_iff_right arg.digits
  constructor
  · rw [answerNQSCNN_ok_iff, ← hport]
    exact ⟨fun ⟨h1, h2, h3, h4⟩ => ⟨⟨h1, h2, h4⟩, h3⟩, fun ⟨⟨h1, h2, h4⟩, h3⟩ => ⟨h1, h2, h3, h4⟩⟩
  · rw [answerNQSCNN_userParam]
    exact if_congr hport arg.atoi_text rfl

/-- The arguments that `responseNLOCIP` does not reject. -/
def NlocipForm (arg1 arg2 arg3 : List UInt8) : Prop :=
  isValidIp arg1 ∧ (strIsDigit arg2 ∧ arg2 ≠ []) ∧ (strIsDigit arg3 ∧ arg3 ≠ []) ∧
    u8 (atoi arg2) ≤ 1

/-- `AT+NLOCIP` answers `INVALID_PARAMETER` exactly when its arguments have not the form it wants.
    -/
theorem answerNLOCIP_iff {command arg1 arg2 arg3 : List UInt8} :
    answerNLOCIP s [command, arg1, arg2, arg3] ≠ .error invalidParameter ↔
      NlocipForm arg1 arg2 arg3 := by
  have hmode : ¬ (u8 (atoi arg2) ≠ 0 ∧ u8 (atoi arg2) ≠ 1) ↔ u8 (atoi arg2) ≤ 1 := by omega
  have hform : NlocipForm arg1 arg2 arg3 ↔ isValidIp arg1 ∧ ¬ (¬ strIsDigit arg2 ∨
      arg2.length = 0 ∨ ¬ strIsDigit arg3 ∨ arg3.length = 0 ∨
      (u8 (atoi arg2) ≠ 0 ∧ u8 (atoi arg2) ≠ 1)) := by
    simp only [NlocipForm, ← hmode, not_or, not_not, List.length_eq_zero_iff, ne_eq, and_assoc]
  rw [hform]
  simp only [answerNLOCIP]
  split_ifs with hip hrejected hstarted
  · exact iff_of_false (not_not_intro rfl) fun h => h.2 hrejected
  · exact iff_of_true (by rintro ⟨⟩) ⟨hip, hrejected⟩
  · exact iff_of_true (by rintro ⟨⟩) ⟨hip, hrejected⟩
  · exact iff_of_false (not_not_intro rfl) fun h => hip h.1

/-- What an accepted `AT+NLOCIP` keeps in a station. -/
theorem responseNLOCIP_stored (inetAton : List UInt8 → ℕ) {command arg1 arg2 arg3 : List UInt8}
    (h : answerNLOCIP s [command, arg1, arg2, arg3] = .ok)
    (hstation : s.sysParam.wiFiCfg.protocol = 0) :
    let r := responseNLOCIP inetAton s [command, arg1, arg2, arg3]
    r.sysParam.ipCfg.bDhcp = u8 (atoi arg2) ∧ r.sysParam.ipCfg.dhcpTryTimes = u8 (atoi arg3) ∧
      r.userParam.cfg = r.sysParam := by
  simp only [answerNLOCIP] at h
  unfold responseNLOCIP
  dsimp only
  split_ifs at h ⊢
  exact ⟨rfl, rfl, rfl⟩

/-- With three well-formed arguments only the cut mode decides. -/
theorem nlocipForm_iff {ip : List UInt8} {mode tries : DecimalArg} (hip : isValidIp ip) :
    NlocipForm ip mode.text tries.text ↔ mode.value % 256 ≤ 1 := by
  unfold NlocipForm
  rw [mode.atoi_text, u8_natCast]
  exact ⟨fun h => h.2.2.2,
    fun h => ⟨hip, ⟨mode.digits, mode.ne_nil⟩, ⟨tries.digits, tries.ne_nil⟩, h⟩⟩

/-- The number 0. -/
def DecimalArg.zero : DecimalArg := ⟨[48], by decide, by decide, by decide⟩

/-- `AT+NLOCIP` cuts the mode to 8 bits before it tests it. -/
theorem dhcpModeRight_iff :
    DhcpModeRight inetAton s arg ↔ arg.value ≤ 255 ∨ 1 < arg.value % 256 := by
  constructor
  · intro h
    have h := (h (ascii "NLOCIP") (ascii "10.0.0.1") .zero (by decide)).1
    rw [answerNLOCIP_iff, nlocipForm_iff (by decide)] at h
    omega
  · intro h command ip tries hip argv r
    have hform : answerNLOCIP s argv ≠ .error invalidParameter ↔ arg.value = 0 ∨ arg.value = 1 := by
      unfold argv
      rw [answerNLOCIP_iff, nlocipForm_iff hip]
      omega
    refine ⟨hform, fun hok hstation => ?_⟩
    obtain ⟨hmode, -, hcfg⟩ := responseNLOCIP_stored inetAton hok hstation
    have hsmall := hform.mp (by rw [hok]; rintro ⟨⟩)
    rw [arg.atoi_text, u8_natCast] at hmode
    exact ⟨hmode.trans (by omega), hcfg⟩

/-- `AT+NLOCIP` cuts the try count to 8 bits and tests nothing. -/
theorem dhcpTriesRight_iff : DhcpTriesRight inetAton s arg ↔ arg.value ≤ 255 := by
  constructor
  · intro h
    apply (h (ascii "NLOCIP") (ascii "10.0.0.1") .zero (by decide) (by decide)).1.mp
    rw [answerNLOCIP_iff, nlocipForm_iff (by decide)]
    decide
  · intro h command ip mode hip hmode argv r
    refine ⟨iff_of_true ?_ h, fun hok hstation => ?_⟩
    · unfold argv
      rw [answerNLOCIP_iff, nlocipForm_iff hip]
      omega
    · obtain ⟨-, htries, hcfg⟩ := responseNLOCIP_stored inetAton hok hstation
      rw [arg.atoi_text, u8_natCast] at htries
      exact ⟨htries.trans (by omega), hcfg⟩

/-- `AT+WSCAP` tests the try count before it cuts it. -/
theorem conTriesRight : ConTriesRight s arg := by
  intro command ssid key hssid hne hkey argv r
  have hlength : ssid.length ≤ 32 ∧ ssid.length > 0 ∧ key.length ≤ 64 :=
    ⟨hssid, List.length_pos_iff.mpr hne, hkey⟩
  have hdigits : ¬ (¬ strIsDigit arg.text ∨ arg.text.length = 0) :=
    not_or.mpr ⟨not_not_intro arg.digits, arg.length_ne_zero⟩
  constructor
  · intro hstation
    have hanswer : answerWSCAP s argv = .ok ↔ arg.value ≤ 255 := by
      unfold argv answerWSCAP
      dsimp only
      rw [if_pos hlength, if_pos hstation, if_neg hdigits, arg.atoi_text]
      split
      case isTrue hlarge => exact iff_of_false (by rintro ⟨⟩) (by omega)
      case isFalse hsmall => exact iff_of_true rfl (by omega)
    refine ⟨hanswer, fun hok => ?_⟩
    have hsmall : ¬ arg.value > 255 := not_lt.mpr (hanswer.mp hok)
    unfold r argv responseWSCAP
    dsimp only
    rw [if_pos hlength, if_pos hstation, if_neg hdigits, arg.atoi_text, if_neg hsmall]
    refine ⟨?_, rfl⟩
    show u8 arg.value = arg.value
    rw [u8_natCast]
    omega
  · intro hother tries
    unfold r argv responseWSCAP
    dsimp only
    rw [if_pos hlength, if_pos hlength, if_neg hother, if_neg hother]

/-- `AT+WSCANAP` tests a filter that is cut to 8 bits with a sign, and so never above 127. -/
theorem rssiFilterRight_iff : RssiFilterRight arg ↔ arg.value ≤ 127 := by
  have haccepted : ∀ command, answerWSCANAP [command, arg.text] true = .ok := by
    intro command
    show (if strIsDigit arg.text ∧ arg.text.length ≠ 0 then _ else _) = Answer.ok
    rw [if_pos ⟨arg.digits, arg.length_ne_zero⟩]
    exact if_neg (i8_le _)
  exact ⟨fun h => (h []).mp (haccepted []), fun h command => iff_of_true (haccepted command) h⟩

/-- **Where a number is cut.**  In all settings: `AT+UARTFL` is right up to 65535 and where the
    lower 16 bits are large anyway, the mode of `AT+NLOCIP` up to 255 and where its lower byte is
    rejected, the tries of `AT+NLOCIP` up to 255, and the filter of `AT+WSCANAP` up to 127;
    `AT+UARTFT`, the port of `AT+NQSCNN` and the tries of `AT+WSCAP` always. -/
theorem numeric_arguments_iff (inetAton : List UInt8 → ℕ) (s : Settings) (arg : DecimalArg) :
    (FrameLengthRight s arg ↔ arg.value ≤ 65535 ∨ 1400 ≤ arg.value % 65536) ∧
      FrameGapRight s arg ∧ PortRight inetAton s arg ∧
      (DhcpModeRight inetAton s arg ↔ arg.value ≤ 255 ∨ 1 < arg.value % 256) ∧
      (DhcpTriesRight inetAton s arg ↔ arg.value ≤ 255) ∧ ConTriesRight s arg ∧
      (RssiFilterRight arg ↔ arg.value ≤ 127) ∧
      (NumericArgRight inetAton s arg ↔ arg.value ≤ 127) := by
  refine ⟨frameLengthRight_iff, frameGapRight, portRight, dhcpModeRight_iff, dhcpTriesRight_iff,
    conTriesRight, rssiFilterRight_iff, ?_⟩
  constructor
  · exact fun ⟨_, _, _, _, _, _, hfilter⟩ => rssiFilterRight_iff.mp hfilter
  · intro h
    exact ⟨frameLengthRight_iff.mpr (by omega), frameGapRight, portRight,
      dhcpModeRight_iff.mpr (by omega), dhcpTriesRight_iff.mpr (by omega), conTriesRight,
      rssiFilterRight_iff.mpr h⟩

/-- `AT+UARTFL=65568` stores 32. -/
theorem frame_length_cut : ¬ ∀ inetAton s arg, NumericArgRight inetAton s arg := by
  intro hall
  have h := (hall (fun _ => 0) .zero ⟨ascii "65568", by decide, by decide, by decide⟩).1 []
  exact absurd h (by decide)

end SerialNet
