import SerialNet.At.Settings
import SerialNet.Lib.CharArray

namespace SerialNet

/-!
# The string settings

`InfSsidSet`, `InfKeySet` and `InfDnsSrvSet` copy a text into an array of `SysParam`.  The readers
take the name of the network and the name of the DNS server up to a NUL, and the key with its
length.  `StringSettings` is what they find, and `StringSettings.call` what a call should make of
it; `InfDnsSrvSet` writes no NUL, and `string_settings_iff` says when the sequence of calls reads
back as written all the same.
-/

/-- `InfDnsSrvSet`; NULL is `none`. -/
def infDnsSrvSet (cfg : CfgParam) (enable : ℕ) (dnsName : Option (List UInt8)) : CfgParam :=
  if enable ≠ 0 then
    match dnsName with
    | none => cfg
    | some name =>
      if name.length > 32 then cfg
      -- There is no NUL behind the name.
      else { cfg with bDnsServer := 1, dnsName := writeAt cfg.dnsName 0 name }
  else { cfg with bDnsServer := 0 }

/-! ### Calls -/

/-- A call that succeeds. -/
inductive StringCall where
  | ssid (name : List UInt8) (length_le : name.length ≤ 32) (ne_nil : name ≠ [])
      (no_nul : 0 ∉ name)
  | key (index : ℕ) (key : List UInt8) (index_le : index ≤ 3) (length_le : key.length ≤ 64)
  | dnsName (name : List UInt8) (length_le : name.length ≤ 32) (no_nul : 0 ∉ name)

/-- The setter. -/
def stringCall (cfg : CfgParam) : StringCall → CfgParam
  | .ssid name _ _ _ => infSsidSet cfg (some name)
  | .key index key _ _ => infKeySet cfg index key
  | .dnsName name _ _ => infDnsSrvSet cfg 1 (some name)

/-- `SysParam` with the sizes of its arrays. -/
structure SizedParam where
  cfg : CfgParam
  ssid_size : cfg.wiFiCfg.ssid.length = 33
  psk_size : cfg.wiFiCfg.psk.length = 64
  dnsName_size : cfg.dnsName.length = 33

section

variable (cfg : CfgParam)

/-- A name that fits is written over the start of the old one, with a NUL behind it. -/
theorem infSsidSet_some {name : List UInt8} (hlength : name.length ≤ 32) (hne : name ≠ []) :
    infSsidSet cfg (some name) = { cfg with wiFiCfg := { cfg.wiFiCfg with
      ssid := (writeAt cfg.wiFiCfg.ssid 0 name).set name.length 0 } } :=
  if_neg (not_or.mpr ⟨not_lt.mpr hlength, fun h => hne (List.length_eq_zero_iff.mp h)⟩)

/-- A key that fits is written over the start of the old one, with a NUL where there is room. -/
theorem infKeySet_accepted {index : ℕ} {key : List UInt8} (hindex : index ≤ 3)
    (hlength : key.length ≤ 64) :
    infKeySet cfg index key = { cfg with wiFiCfg := { cfg.wiFiCfg with
      keyIndex := index
      keyLength := key.length
      psk := if key.length < 64 then (writeAt cfg.wiFiCfg.psk 0 key).set key.length 0
        else writeAt cfg.wiFiCfg.psk 0 key } } :=
  if_neg (not_or.mpr ⟨not_lt.mpr hindex, not_lt.mpr hlength⟩)

/-- A name that fits is written over the start of the old one, and nothing behind it. -/
theorem infDnsSrvSet_some {name : List UInt8} (hlength : name.length ≤ 32) :
    infDnsSrvSet cfg 1 (some name) =
      { cfg with bDnsServer := 1, dnsName := writeAt cfg.dnsName 0 name } :=
  (if_pos one_ne_zero).trans (if_neg (not_lt.mpr hlength))

end

/-- The sizes stay. -/
theorem SizedParam.sizes_call (p : SizedParam) (c : StringCall) :
    (stringCall p.cfg c).wiFiCfg.ssid.length = 33 ∧ (stringCall p.cfg c).wiFiCfg.psk.length = 64 ∧
      (stringCall p.cfg c).dnsName.length = 33 := by
  cases c with
  | ssid name hlength hne hnul =>
    have hwritten : (writeAt p.cfg.wiFiCfg.ssid 0 name).length = 33 :=
      (length_writeAt (by rw [p.ssid_size]; omega)).trans p.ssid_size
    rw [stringCall, infSsidSet_some p.cfg hlength hne]
    exact ⟨(List.length_set ..).trans hwritten, p.psk_size, p.dnsName_size⟩
  | key index key hindex hlength =>
    have hwritten : (writeAt p.cfg.wiFiCfg.psk 0 key).length = 64 :=
      (length_writeAt (by rw [p.psk_size]; omega)).trans p.psk_size
    rw [stringCall, infKeySet_accepted p.cfg hindex hlength]
    refine ⟨p.ssid_size, ?_, p.dnsName_size⟩
    show (if key.length < 64 then _ else _ : List UInt8).length = 64
    split
    · rw [List.length_set, hwritten]
    · exact hwritten
  | dnsName name hlength hnul =>
    have hwritten : (writeAt p.cfg.dnsName 0 name).length = 33 :=
      (length_writeAt (by rw [p.dnsName_size]; omega)).trans p.dnsName_size
    rw [stringCall, infDnsSrvSet_some p.cfg hlength]
    exact ⟨p.ssid_size, p.psk_size, hwritten⟩

/-- `SysParam` after a call. -/
def SizedParam.call (p : SizedParam) (c : StringCall) : SizedParam where
  cfg := stringCall p.cfg c
  ssid_size := (p.sizes_call c).1
  psk_size := (p.sizes_call c).2.1
  dnsName_size := (p.sizes_call c).2.2

/-! ### What the readers find -/

/-- The strings of `SysParam`, and everything else. -/
structure StringSettings where
  ssid : List UInt8
  key : List UInt8
  dnsName : List UInt8
  other : CfgParam

/-- The readers of `SysParam`. -/
def CfgParam.strings (cfg : CfgParam) : StringSettings where
  ssid := stringIn cfg.wiFiCfg.ssid
  key := cfg.wiFiCfg.psk.take cfg.wiFiCfg.keyLength
  dnsName := stringIn cfg.dnsName
  other := { cfg with
    wiFiCfg := { cfg.wiFiCfg with ssid := [], psk := [], keyLength := 0 }
    dnsName := [] }

/-- What a call is for: one string is replaced, with it the index of the key or the flag of the
    server, and nothing else. -/
def StringSettings.call (r : StringSettings) : StringCall → StringSettings
  | .ssid name _ _ _ => { r with ssid := name }
  | .key index key _ _ => { r with
      key := key, other := { r.other with wiFiCfg := { r.other.wiFiCfg with keyIndex := index } } }
  | .dnsName name _ _ => { r with dnsName := name, other := { r.other with bDnsServer := 1 } }

/-- The names that the calls give to the DNS server. -/
def dnsInputs (calls : List StringCall) : List (List UInt8) :=
  calls.filterMap fun
    | .dnsName name _ _ => some name
    | _ => none

/-! ### One call -/

/-- The same settings, apart from the name of the DNS server. -/
structure SameButDns (r r' : StringSettings) : Prop where
  ssid : r.ssid = r'.ssid
  key : r.key = r'.key
  other : r.other = r'.other

variable {p : SizedParam} {r r' : StringSettings}

/-- Only the name of the DNS server can make the difference. -/
theorem SameButDns.eq_iff (h : SameButDns r r') : r = r' ↔ r.dnsName = r'.dnsName := by
  cases r
  cases r'
  obtain ⟨hssid, hkey, hother⟩ := h
  simp only at hssid hkey hother
  subst hssid hkey hother
  simp only [StringSettings.mk.injEq, true_and, and_true]

/-- Apart from the name of the DNS server a call does what it is for. -/
theorem SameButDns.call (c : StringCall) (h : SameButDns p.cfg.strings r) :
    SameButDns (p.call c).cfg.strings (r.call c) := by
  cases c with
  | ssid name hlength hne hnul =>
    have hcall := infSsidSet_some p.cfg hlength hne
    constructor
    · show stringIn (infSsidSet p.cfg (some name)).wiFiCfg.ssid = name
      rw [hcall]
      exact stringIn_set_writeAt hnul (by rw [p.ssid_size]; omega)
    · show ((infSsidSet p.cfg (some name)).strings).key = r.key
      rw [hcall]
      exact h.key
    · show ((infSsidSet p.cfg (some name)).strings).other = r.other
      rw [hcall]
      exact h.other
  | key index key hindex hlength =>
    have hcall := infKeySet_accepted p.cfg hindex hlength
    constructor
    · show ((infKeySet p.cfg index key).strings).ssid = r.ssid
      rw [hcall]
      exact h.ssid
    · show ((infKeySet p.cfg index key).strings).key = key
      rw [hcall]
      show (if key.length < 64 then _ else _ : List UInt8).take key.length = key
      rw [writeAt_zero]
      split
      · rw [List.take_set_of_le le_rfl, List.take_left]
      · exact List.take_left
    · show ((infKeySet p.cfg index key).strings).other = _
      rw [hcall, StringSettings.call, ← h.other]
      rfl
  | dnsName name hlength hnul =>
    have hcall := infDnsSrvSet_some p.cfg hlength
    constructor
    · show ((infDnsSrvSet p.cfg 1 (some name)).strings).ssid = r.ssid
      rw [hcall]
      exact h.ssid
    · show ((infDnsSrvSet p.cfg 1 (some name)).strings).key = r.key
      rw [hcall]
      exact h.key
    · show ((infDnsSrvSet p.cfg 1 (some name)).strings).other = _
      rw [hcall, StringSettings.call, ← h.other]
      rfl

/-- The array of the name. -/
theorem dnsName_call (c : StringCall) :
    (p.call c).cfg.dnsName = (dnsInputs [c]).foldl (writeAt · 0 ·) p.cfg.dnsName := by
  cases c with
  | ssid name hlength hne hnul =>
    show (infSsidSet p.cfg (some name)).dnsName = _
    rw [infSsidSet_some p.cfg hlength hne]
    rfl
  | key index key hindex hlength =>
    show (infKeySet p.cfg index key).dnsName = _
    rw [infKeySet_accepted p.cfg hindex hlength]
    rfl
  | dnsName name hlength hnul =>
    show (infDnsSrvSet p.cfg 1 (some name)).dnsName = _
    rw [infDnsSrvSet_some p.cfg hlength]
    rfl

/-! ### Runs -/

/-- `SysParam` after the calls. -/
def SizedParam.run (p : SizedParam) (calls : List StringCall) : SizedParam :=
  calls.foldl SizedParam.call p

/-- What they are for. -/
def StringSettings.run (r : StringSettings) (calls : List StringCall) : StringSettings :=
  calls.foldl StringSettings.call r

/-- The calls that set the name, in their order. -/
theorem dnsInputs_cons (c : StringCall) (calls : List StringCall) :
    dnsInputs (c :: calls) = dnsInputs [c] ++ dnsInputs calls :=
  List.filterMap_append (l := [c])

/-- The other strings are kept as given over any number of calls. -/
theorem SameButDns.run (calls : List StringCall) (h : SameButDns p.cfg.strings r) :
    SameButDns (p.run calls).cfg.strings (r.run calls) := by
  induction calls generalizing p r with
  | nil => exact h
  | cons c calls ih => exact ih (h.call c)

/-- The stored name is what the calls have written over each other. -/
theorem dnsName_run (calls : List StringCall) :
    (p.run calls).cfg.dnsName = (dnsInputs calls).foldl (writeAt · 0 ·) p.cfg.dnsName := by
  induction calls generalizing p with
  | nil => rfl
  | cons c calls ih =>
    rw [dnsInputs_cons, List.foldl_append, ← dnsName_call]
    exact ih

/-- The name is the last one. -/
theorem run_dnsName (calls : List StringCall) :
    (r.run calls).dnsName = (dnsInputs calls).foldl (fun _ name => name) r.dnsName := by
  induction calls generalizing r with
  | nil => rfl
  | cons c calls ih =>
    rw [dnsInputs_cons, List.foldl_append]
    apply (ih (r := r.call c)).trans
    cases c <;> rfl

/-- An accepted name has at most 32 bytes and no NUL. -/
theorem mem_dnsInputs {calls : List StringCall} {name : List UInt8}
    (h : name ∈ dnsInputs calls) : name.length ≤ 32 ∧ 0 ∉ name := by
  obtain ⟨c, -, hc⟩ := List.mem_filterMap.mp h
  cases c with
  | ssid => cases hc
  | key => cases hc
  | dnsName name hlength hnul =>
    cases hc
    exact ⟨hlength, hnul⟩

/-- **When string settings read back as written.**  For every earlier configuration and every
    sequence of calls: all strings are the last inputs and all other settings are untouched, if and
    only if no earlier name of the DNS server is longer than the last one and the byte behind it
    was 0 at first. -/
theorem string_settings_iff (p : SizedParam) (calls : List StringCall) :
    (p.run calls).cfg.strings = p.cfg.strings.run calls ↔
      ∀ name ∈ (dnsInputs calls).getLast?, p.cfg.dnsName[name.length]? = some 0 ∧
        ∀ earlier ∈ dnsInputs calls, earlier.length ≤ name.length := by
  have hsame : SameButDns (p.run calls).cfg.strings (p.cfg.strings.run calls) :=
    SameButDns.run calls ⟨rfl, rfl, rfl⟩
  rw [hsame.eq_iff, run_dnsName]
  show stringIn (p.run calls).cfg.dnsName = _ ↔ _
  rw [dnsName_run]
  rcases List.eq_nil_or_concat' (dnsInputs calls) with hnil | ⟨names, name, hnames⟩
  · rw [hnil]
    exact iff_of_true rfl (by rintro name ⟨⟩)
  · have hmem : ∀ n ∈ names ++ [name], n.length ≤ 32 ∧ 0 ∉ n :=
      fun n hn => mem_dnsInputs (hnames ▸ hn)
    simp only [List.forall_mem_append, List.forall_mem_singleton] at hmem
    have hsize : (names.foldl (writeAt · 0 ·) p.cfg.dnsName).length = 33 := by
      rw [length_foldl_writeAt, p.dnsName_size]
      intro n hn
      have := (hmem.1 n hn).1
      rw [p.dnsName_size]
      omega
    rw [hnames, List.foldl_concat, List.foldl_concat, List.getLast?_concat]
    rw [stringIn_writeAt_iff hmem.2.2 (by rw [hsize]; omega),
      foldl_writeAt_zero_iff fun n hn => (hmem.1 n hn).2, and_comm]
    simp only [Option.mem_some_iff, forall_eq', List.forall_mem_append, List.forall_mem_singleton,
      le_refl, and_true]

/-- `local.nufront` is not shortened to `a`. -/
theorem dns_name_keeps_tail :
    ¬ ∀ (p : SizedParam) (calls : List StringCall),
      (p.run calls).cfg.strings = p.cfg.strings.run calls := by
  intro hall
  let p : SizedParam := ⟨infLoadDefaultParam [0, 0, 0, 1, 2, 3], by decide, by decide, by decide⟩
  have h := hall p [.dnsName (ascii "a") (by decide) (by decide)]
  exact absurd (congrArg StringSettings.dnsName h) (by decide)

end SerialNet
