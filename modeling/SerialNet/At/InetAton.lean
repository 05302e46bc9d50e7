import SerialNet.At.IpText
import SerialNet.Lib.ByteOrder

namespace SerialNet

/-!
# `inet_aton` of lwIP behind `is_valid_ip`

`AT+PING`, `AT+NQSCNN` and `AT+NLOCIP` check an address with `is_valid_ip` and then read it with
`ipaddr_aton`, whose result they ignore.  The two agree on an accepted text exactly if it has no
empty field, and a field with a leading zero, which `ipaddr_aton` takes for octal, is a single digit
after its zeros (`aton_agrees_iff`).
-/

/-! ### `ip_addr.c` -/

/-- `isxdigit`. -/
def isxdigit (c : UInt8) : Bool := isdigit c ∨ (97 ≤ c ∧ c ≤ 102) ∨ (65 ≤ c ∧ c ≤ 70)

/-- `islower`. -/
def islower (c : UInt8) : Bool := 97 ≤ c ∧ c ≤ 122

/-- `isspace`. -/
def isspace (c : UInt8) : Bool := c ∈ [32, 12, 10, 13, 9, 11]

/-- The inner loop of `ipaddr_aton`: the number and the text behind it. -/
def atonDigits (base : UInt32) : List UInt8 → UInt32 → UInt32 × List UInt8
  | [], val => (val, [])
  | c :: cp, val =>
    -- Any digit counts, also 8 and 9 in an octal number.
    if isdigit c then atonDigits base cp (val * base + (c - 48).toUInt32)
    else if base = 16 ∧ isxdigit c then
      atonDigits base cp ((val <<< 4) ||| (c + 10 - (if islower c then 97 else 65)).toUInt32)
    else (val, c :: cp)

/-- One number, which must start with a digit: `0x` is hexadecimal, `0` octal. -/
def atonNumber : List UInt8 → Option (UInt32 × List UInt8)
  | [] => none
  | c :: cp =>
    if ¬ isdigit c then none
    else if c = 48 then
      if cp.head? = some 120 ∨ cp.head? = some 88 then some (atonDigits 16 cp.tail 0)
      else some (atonDigits 8 cp 0)
    else some (atonDigits 10 (c :: cp) 0)

/-- The outer loop, with room for so many more numbers behind this one: the numbers and the text
    behind them. -/
def atonParts : ℕ → List UInt8 → Option (List UInt32 × List UInt8)
  | 0, cp => (atonNumber cp).bind fun r => if r.2.head? = some 46 then none else some ([r.1], r.2)
  | room + 1, cp => (atonNumber cp).bind fun r =>
      if r.2.head? = some 46 then (atonParts room r.2.tail).map fun q => (r.1 :: q.1, q.2)
      else some ([r.1], r.2)

/-- The address for one to four numbers. -/
def atonAddress : List UInt32 → Option UInt32
  | [val] => some val
  | [p0, val] => if val > 0xffffff then none else some (val ||| (p0 <<< 24))
  | [p0, p1, val] =>
      if val > 0xffff then none else some (val ||| ((p0 <<< 24) ||| (p1 <<< 16)))
  | [p0, p1, p2, val] =>
      if val > 0xff then none else some (val ||| ((p0 <<< 24) ||| (p1 <<< 16) ||| (p2 <<< 8)))
  | _ => none

/-- `ipaddr_aton`; `none` is the result 0, which stores nothing. -/
def ipaddrAton (cp : List UInt8) : Option UInt32 :=
  (atonParts 3 cp).bind fun r =>
    if r.2.head?.any fun c => ! isspace c then none else (atonAddress r.1).map ntohl

/-- The variable of a caller that ignores the result: `stale` is what it held before. -/
def inetAtonInto (stale : ℕ) (cp : List UInt8) : ℕ := ((ipaddrAton cp).map UInt32.toNat).getD stale

/-! ### Numbers -/

/-- The number that `ipaddr_aton` reads in a field of digits. -/
def atonValue (field : List UInt8) : ℕ :=
  numeral (if field.head? = some 48 then 8 else 10) 0 (field.map digitOf)

variable {field rest : List UInt8}

/-- A digit's value in 32 bits. -/
theorem toUInt32_digit {c : UInt8} (hc : isdigit c) : (c - 48).toUInt32 = .ofNat (digitOf c) := by
  have hle : (48 : UInt8) ≤ c := by
    rw [isdigit, decide_eq_true_eq] at hc
    exact hc.1
  apply UInt32.toNat_inj.mp
  rw [UInt8.toNat_toUInt32, UInt8.toNat_sub_of_le c 48 hle, digitOf]
  have := c.toNat_lt
  rw [UInt32.toNat_ofNat_of_lt' (by show c.toNat - 48 < 4294967296; omega)]
  rfl

/-- The inner loop reads a run of digits, modulo 2^32, up to a dot or the end. -/
theorem atonDigits_run (b v : ℕ) (hfield : ∀ c ∈ field, isdigit c)
    (hrest : ∀ c ∈ rest.head?, c = 46) :
    atonDigits (.ofNat b) (field ++ rest) (.ofNat v) =
      (.ofNat (numeral b v (field.map digitOf)), rest) := by
  induction field generalizing v with
  | nil =>
    cases rest with
    | nil => rfl
    | cons c rest =>
      have hdigit : ¬ isdigit 46 = true := by decide
      have hxdigit : ¬ isxdigit 46 = true := by decide
      rw [hrest c rfl, List.nil_append, atonDigits, if_neg hdigit, if_neg fun h => hxdigit h.2]
      rfl
  | cons c field ih =>
    have hc := hfield c List.mem_cons_self
    rw [List.cons_append, atonDigits, if_pos hc, toUInt32_digit hc, List.map_cons, numeral_cons,
      ← ih _ fun x hx => hfield x (List.mem_cons_of_mem _ hx)]
    congr 1
    rw [← UInt32.ofNat_mul, ← UInt32.ofNat_add, Nat.mul_comm]

/-- A field of digits is one number. -/
theorem atonNumber_field (hne : field ≠ []) (hfield : ∀ c ∈ field, isdigit c)
    (hrest : ∀ c ∈ rest.head?, c = 46) :
    atonNumber (field ++ rest) = some (.ofNat (atonValue field), rest) := by
  cases field with
  | nil => exact absurd rfl hne
  | cons c field =>
    have hc := hfield c List.mem_cons_self
    have hmore : ∀ x ∈ field, isdigit x := fun x hx => hfield x (List.mem_cons_of_mem _ hx)
    rw [List.cons_append, atonNumber, if_neg (not_not_intro hc), atonValue, List.head?_cons]
    by_cases hzero : c = 48
    · -- behind the zero there is a digit, a dot or the end
      have hhex : ¬ ((field ++ rest).head? = some 120 ∨ (field ++ rest).head? = some 88) := by
        cases field with
        | nil => rintro (h | h) <;> exact absurd (hrest _ h) (by decide)
        | cons x field =>
          have hx := hmore x List.mem_cons_self
          rintro (h | h) <;>
          · rw [Option.some.inj h] at hx
            exact absurd hx (by decide)
      rw [if_pos hzero, if_neg hhex, if_pos (congrArg some hzero), List.map_cons, numeral_cons,
        hzero]
      exact congrArg some (atonDigits_run 8 0 hmore hrest)
    · rw [if_neg hzero, if_neg fun h => hzero (Option.some.inj h)]
      exact congrArg some (atonDigits_run 10 0 hfield hrest)

/-- Without a digit there is no number. -/
theorem atonNumber_empty (hrest : ∀ c ∈ rest.head?, c = 46) : atonNumber rest = none := by
  cases rest with
  | nil => rfl
  | cons c rest =>
    rw [hrest c rfl]
    rfl

/-- The numbers of all fields, if none is empty. -/
theorem atonParts_fields : ∀ (room : ℕ) (fields : List (List UInt8)), fields.length = room + 1 →
    (∀ field ∈ fields, ∀ c ∈ field, isdigit c) →
    atonParts room ([46].intercalate fields) =
      if ∀ field ∈ fields, field ≠ [] then
        some (fields.map fun field => .ofNat (atonValue field), [])
      else none
  | 0, [field], _, hdigits => by
    have hfield : ([46] : List UInt8).intercalate [field] = field ++ [] := by
      simp [List.intercalate]
    rw [hfield, atonParts]
    by_cases hne : field = []
    · rw [hne, List.nil_append, atonNumber_empty (by rintro c ⟨⟩), if_neg (by simp)]
      rfl
    · rw [atonNumber_field hne (hdigits field List.mem_cons_self) (by rintro c ⟨⟩),
        if_pos (show ∀ f ∈ [field], f ≠ [] by simpa using hne)]
      rfl
  | room + 1, field :: next :: fields, hlength, hdigits => by
    have hjoin : ([46] : List UInt8).intercalate (field :: next :: fields) =
        field ++ 46 :: [46].intercalate (next :: fields) := by
      simp [List.intercalate]
    rw [List.forall_mem_cons] at hdigits
    have ih := atonParts_fields room (next :: fields) (by simpa using hlength) hdigits.2
    have hrest : ∀ c ∈ (46 :: [46].intercalate (next :: fields) : List UInt8).head?, c = 46 :=
      fun c hc => (Option.some.inj hc).symm
    rw [hjoin, atonParts]
    by_cases hne : field = []
    · rw [hne, List.nil_append, atonNumber_empty hrest, if_neg (by simp)]
      rfl
    · rw [atonNumber_field hne hdigits.1 hrest]
      simp only [Option.bind_some, List.head?_cons, if_true, List.tail_cons, ih]
      by_cases hfull : ∀ f ∈ next :: fields, f ≠ []
      · rw [if_pos hfull, if_pos (List.forall_mem_cons (p := (· ≠ [])) |>.mpr ⟨hne, hfull⟩)]
        rfl
      · rw [if_neg hfull, if_neg fun h => hfull fun f hf => h f (List.mem_cons_of_mem _ hf)]
        rfl

/-! ### Addresses -/

/-- A byte that is shifted within the word. -/
theorem toNat_shiftLeft_byte {p : UInt32} {k : ℕ} (hp : p.toNat < 256) (hk : k ≤ 24) :
    (p <<< UInt32.ofNat k).toNat = 2 ^ k * p.toNat := by
  have hpow : 2 ^ k ≤ 2 ^ 24 := Nat.pow_le_pow_right (by decide) hk
  have hsmall : 2 ^ k * p.toNat < 2 ^ 32 :=
    calc 2 ^ k * p.toNat ≤ 2 ^ 24 * 255 := Nat.mul_le_mul hpow (by omega)
      _ < 2 ^ 32 := by decide
  rw [UInt32.toNat_shiftLeft, UInt32.toNat_ofNat_of_lt' (by show k < 4294967296; omega),
    Nat.mod_eq_of_lt (by omega : k < 32), Nat.shiftLeft_eq, Nat.mul_comm, Nat.mod_eq_of_lt hsmall]

/-- Four numbers below 256 take a byte each. -/
theorem toNat_four_bytes {p0 p1 p2 val : UInt32} (h0 : p0.toNat < 256) (h1 : p1.toNat < 256)
    (h2 : p2.toNat < 256) (hval : val.toNat < 256) :
    (val ||| ((p0 <<< 24) ||| (p1 <<< 16) ||| (p2 <<< 8))).toNat =
      16777216 * p0.toNat + 65536 * p1.toNat + 256 * p2.toNat + val.toNat := by
  have hs0 : (p0 <<< 24).toNat = 2 ^ 24 * p0.toNat := toNat_shiftLeft_byte h0 le_rfl
  have hs1 : (p1 <<< 16).toNat = 2 ^ 16 * p1.toNat := toNat_shiftLeft_byte h1 (by decide)
  have hs2 : (p2 <<< 8).toNat = 2 ^ 8 * p2.toNat := toNat_shiftLeft_byte h2 (by decide)
  rw [UInt32.toNat_or, UInt32.toNat_or, UInt32.toNat_or, hs0, hs1, hs2]
  have hor1 : 2 ^ 24 * p0.toNat ||| 2 ^ 16 * p1.toNat = 2 ^ 16 * (256 * p0.toNat + p1.toNat) := by
    rw [← Nat.two_pow_add_eq_or_of_lt (by omega)]
    omega
  have hor2 : 2 ^ 16 * (256 * p0.toNat + p1.toNat) ||| 2 ^ 8 * p2.toNat =
      2 ^ 8 * (65536 * p0.toNat + 256 * p1.toNat + p2.toNat) := by
    rw [← Nat.two_pow_add_eq_or_of_lt (by omega)]
    omega
  rw [hor1, hor2, Nat.or_comm, ← Nat.two_pow_add_eq_or_of_lt (by omega)]
  omega

/-- In network order the first number is the first byte. -/
theorem ip4Addrs_ntohl (n : UInt32) :
    ip4Addrs (ntohl n).toNat = [n.toNat / 16777216 % 256, n.toNat / 65536 % 256,
      n.toNat / 256 % 256, n.toNat % 256] := by
  have h0 := toNat_ntohl_byte n (k := 0) (by decide)
  have h1 := toNat_ntohl_byte n (k := 1) (by decide)
  have h2 := toNat_ntohl_byte n (k := 2) (by decide)
  have h3 := toNat_ntohl_byte n (k := 3) (by decide)
  simp only [ip4Addrs, List.cons.injEq, and_true]
  omega

/-- In a field of digits the two readings agree unless there is more than a digit behind a zero. -/
theorem atonValue_eq_iff (hfield : ∀ c ∈ field, isdigit c) :
    atonValue field = decimal field ↔ (field.head? = some 48 → decimal field ≤ 9) := by
  have hdigits : ∀ x ∈ field.map digitOf, x < 10 := by
    intro x hx
    obtain ⟨c, hc, rfl⟩ := List.mem_map.mp hx
    have hdigit := hfield c hc
    rw [isdigit, decide_eq_true_eq] at hdigit
    have := UInt8.le_iff_toNat_le.mp hdigit.2
    show c.toNat - 48 < 10
    change c.toNat ≤ 57 at this
    omega
  unfold atonValue
  split
  case isTrue hzero =>
    have h := numeral_eq_iff (b := 8) (c := 10) (by decide) hdigits
    exact h.trans ⟨fun h _ => Nat.le_of_lt_succ h, fun h => Nat.lt_succ_of_le (h hzero)⟩
  case isFalse hzero => exact iff_of_true rfl fun h => absurd h hzero

/-- A field that is read as octal is not above its decimal value. -/
theorem atonValue_le (field : List UInt8) : atonValue field ≤ decimal field := by
  unfold atonValue
  split
  · exact numeral_mono (by decide) le_rfl _
  · exact le_rfl

/-! ### Accepted texts -/

/-- Every field is a number of at most 255, in decimal also if it starts with a zero. -/
def ReadsDecimal (str : List UInt8) : Prop :=
  ∀ field ∈ ipFields str, field ≠ [] ∧ decimal field ≤ 255 ∧
    (field.head? = some 48 → decimal field ≤ 9)

/-- Whatever `section` was, an accepted text has digits between its dots. -/
theorem isValidIpLoop_fields : ∀ {str : List UInt8} {sect sect' : ℤ} {dot dot' : ℕ},
    isValidIpLoop str sect dot = some (sect', dot') →
    (ipFields str).length + dot = dot' + 1 ∧ ∀ field ∈ ipFields str, ∀ c ∈ field, isdigit c
  | [], _, _, _, _, h => by
    cases h
    exact ⟨Nat.add_comm _ _, List.forall_mem_singleton.mpr (by rintro c ⟨⟩)⟩
  | c :: str, sect, sect', dot, dot', h => by
    rw [isValidIpLoop] at h
    split_ifs at h with hc hdots hsect hdigit
    · obtain ⟨hlength, hdigits⟩ := isValidIpLoop_fields h
      have hfields : ipFields (c :: str) = [] :: ipFields str := by
        rw [hc]
        show ipFields ([] ++ 46 :: str) = _
        exact ipFields_dot (by rintro x ⟨⟩)
      rw [hfields, List.length_cons]
      exact ⟨by omega, List.forall_mem_cons.mpr ⟨by rintro x ⟨⟩, hdigits⟩⟩
    · obtain ⟨hlength, hdigits⟩ := isValidIpLoop_fields h
      have hfields : ipFields (c :: str) = (ipFields str).modifyHead (c :: ·) := by
        unfold ipFields
        rw [List.splitOn_cons_eq_if_modifyHead, if_neg (by simpa using hc)]
      rw [hfields, List.length_modifyHead]
      refine ⟨hlength, ?_⟩
      cases hstr : ipFields str with
      | nil => exact absurd hstr (List.splitOn_ne_nil 46 str)
      | cons field fields =>
        rw [hstr, List.forall_mem_cons] at hdigits
        exact List.forall_mem_cons.mpr
          ⟨List.forall_mem_cons.mpr ⟨hdigit, hdigits.1⟩, hdigits.2⟩

/-- An accepted text has four fields of digits. -/
theorem isValidIp_fields {str : List UInt8} (h : isValidIp str = true) :
    (ipFields str).length = 4 ∧ ∀ field ∈ ipFields str, ∀ c ∈ field, isdigit c := by
  obtain ⟨sect, hloop, -⟩ := (isValidIp_iff str).mp h
  exact isValidIpLoop_fields hloop

/-- The number as `ipaddr_aton` holds it. -/
def atonWord (field : List UInt8) : UInt32 := .ofNat (atonValue field)

/-- `ipaddr_aton` on four fields of digits. -/
theorem ipaddrAton_fields {str f0 f1 f2 f3 : List UInt8} (hstr : ipFields str = [f0, f1, f2, f3])
    (hdigits : ∀ field ∈ ipFields str, ∀ c ∈ field, isdigit c) :
    ipaddrAton str =
      if ∀ field ∈ [f0, f1, f2, f3], field ≠ [] then
        (atonAddress [atonWord f0, atonWord f1, atonWord f2, atonWord f3]).map ntohl
      else none := by
  have hjoin : str = [46].intercalate [f0, f1, f2, f3] := by
    rw [← hstr]
    exact (List.intercalate_splitOn 46).symm
  rw [hstr] at hdigits
  rw [ipaddrAton, hjoin, atonParts_fields 3 [f0, f1, f2, f3] rfl hdigits]
  by_cases hfull : ∀ field ∈ [f0, f1, f2, f3], field ≠ []
  · rw [if_pos hfull, if_pos hfull]
    rfl
  · rw [if_neg hfull, if_neg hfull]
    rfl

/-- Up to 255 nothing wraps. -/
theorem toNat_atonWord (h : decimal field ≤ 255) :
    (atonWord field).toNat = atonValue field ∧ (atonWord field).toNat < 256 := by
  have := atonValue_le field
  have hword : (atonWord field).toNat = atonValue field := by
    rw [atonWord, UInt32.toNat_ofNat_of_lt' (by show atonValue field < 4294967296; omega)]
  exact ⟨hword, by omega⟩

/-- The address in four fields of at most 255. -/
theorem ip4Addrs_ipaddrAton {str f0 f1 f2 f3 : List UInt8}
    (hstr : ipFields str = [f0, f1, f2, f3])
    (hdigits : ∀ field ∈ ipFields str, ∀ c ∈ field, isdigit c)
    (hsmall : ∀ field ∈ ipFields str, decimal field ≤ 255) :
    (ipaddrAton str).map (ip4Addrs ∘ UInt32.toNat) =
      if ∀ field ∈ [f0, f1, f2, f3], field ≠ [] then some ([f0, f1, f2, f3].map atonValue)
      else none := by
  rw [ipaddrAton_fields hstr hdigits]
  rw [hstr] at hsmall
  simp only [List.forall_mem_cons] at hsmall
  obtain ⟨h0, h1, h2, h3, -⟩ := hsmall
  obtain ⟨w0, b0⟩ := toNat_atonWord h0
  obtain ⟨w1, b1⟩ := toNat_atonWord h1
  obtain ⟨w2, b2⟩ := toNat_atonWord h2
  obtain ⟨w3, b3⟩ := toNat_atonWord h3
  split
  · have hlast : ¬ atonWord f3 > 0xff := by
      show ¬ 255 < (atonWord f3).toNat
      omega
    rw [atonAddress, if_neg hlast, Option.map_some, Option.map_some, Function.comp, ip4Addrs_ntohl,
      toNat_four_bytes b0 b1 b2 b3]
    simp only [List.map_cons, List.map_nil, Option.some.injEq, List.cons.injEq, and_true]
    omega
  · rfl

/-- The four parts of an address are bytes. -/
theorem ip4Addrs_lt (addr : ℕ) : ∀ x ∈ ip4Addrs addr, x < 256 := by
  intro x hx
  simp only [ip4Addrs, List.mem_cons, List.not_mem_nil, or_false] at hx
  omega

/-- `ipaddr_aton` on an accepted text. -/
theorem ipaddrAton_iff {str : List UInt8} (h : isValidIp str = true) :
    (ipaddrAton str).map (ip4Addrs ∘ UInt32.toNat) = some ((ipFields str).map decimal) ↔
      ReadsDecimal str := by
  obtain ⟨hlength, hdigits⟩ := isValidIp_fields h
  obtain ⟨f0, f1, f2, f3, hstr⟩ : ∃ f0 f1 f2 f3, ipFields str = [f0, f1, f2, f3] :=
    List.length_eq_four.mp hlength
  constructor
  · intro heq
    have hsmall : ∀ field ∈ ipFields str, decimal field ≤ 255 := by
      obtain ⟨addr, -, haddr⟩ := Option.map_eq_some_iff.mp heq
      intro field hfield
      have hmem : decimal field ∈ (ipFields str).map decimal := List.mem_map_of_mem hfield
      rw [← haddr] at hmem
      exact Nat.le_of_lt_succ (ip4Addrs_lt _ _ hmem)
    rw [ip4Addrs_ipaddrAton hstr hdigits hsmall, ← hstr] at heq
    split at heq
    case isTrue hfull =>
      have hsame := List.map_inj_left.mp (Option.some.inj heq)
      exact fun field hfield => ⟨hfull field hfield, hsmall field hfield,
        (atonValue_eq_iff (hdigits field hfield)).mp (hsame field hfield)⟩
    case isFalse => cases heq
  · intro hreads
    have hsmall : ∀ field ∈ ipFields str, decimal field ≤ 255 :=
      fun field hfield => (hreads field hfield).2.1
    rw [ip4Addrs_ipaddrAton hstr hdigits hsmall, ← hstr,
      if_pos fun field hfield => (hreads field hfield).1]
    exact congrArg some (List.map_congr_left fun field hfield =>
      (atonValue_eq_iff (hdigits field hfield)).mpr (hreads field hfield).2.2)

/-- The variable of the caller after it. -/
theorem inetAtonInto_iff {str : List UInt8} (h : isValidIp str = true) :
    (∀ stale, ip4Addrs (inetAtonInto stale str) = (ipFields str).map decimal) ↔
      ReadsDecimal str := by
  refine Iff.trans ?_ (ipaddrAton_iff h)
  unfold inetAtonInto
  cases ipaddrAton str with
  | some addr => exact ⟨fun h => congrArg some (h 0), fun h _ => Option.some.inj h⟩
  | none =>
    refine iff_of_false (fun h => ?_) (by rintro ⟨⟩)
    exact absurd ((h 0).trans (h 1).symm) (by decide)

/-- **Where the two parsers agree.**  For every text that `is_valid_ip` accepts, `ipaddr_aton`
    succeeds with the four numbers written in it if and only if each field is a number of at most
    255 that reads the same in decimal.  The same holds of the address that `responsePING`,
    `responseNRMTIP` and `responseNLOCIP` go on with, whatever their variable held before. -/
theorem aton_agrees_iff {str : List UInt8} (h : isValidIp str = true) :
    ((ipaddrAton str).map (ip4Addrs ∘ UInt32.toNat) = some ((ipFields str).map decimal) ↔
        ReadsDecimal str) ∧
      ((∀ stale, ip4Addrs (inetAtonInto stale str) = (ipFields str).map decimal) ↔
        ReadsDecimal str) :=
  ⟨ipaddrAton_iff h, inetAtonInto_iff h⟩

theorem aton_agrees_iff_local :
    ((ipaddrAton (ascii "192.168.0.1")).map (ip4Addrs ∘ UInt32.toNat) =
          some ((ipFields (ascii "192.168.0.1")).map decimal) ↔
        ReadsDecimal (ascii "192.168.0.1")) ∧
      ((∀ stale, ip4Addrs (inetAtonInto stale (ascii "192.168.0.1")) =
          (ipFields (ascii "192.168.0.1")).map decimal) ↔ ReadsDecimal (ascii "192.168.0.1")) :=
  aton_agrees_iff (by decide)

/-- `...1` is accepted, but no address. -/
theorem empty_fields_no_address :
    ¬ ∀ str, isValidIp str = true →
      (ipaddrAton str).map (ip4Addrs ∘ UInt32.toNat) = some ((ipFields str).map decimal) := by
  intro hall
  exact absurd (hall (ascii "...1") (by decide)) (by decide)

end SerialNet
