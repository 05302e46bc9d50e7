import SerialNet.At.Settings
import SerialNet.Lib.Numeral

namespace SerialNet

/-!
# What `is_valid_ip` accepts

One accumulator and a counter of dots stand for the grammar of an address: four numbers of at most
255 with dots between them, the last one not 0.  The accumulator does not know whether it has seen a
digit, so empty fields pass as 0, and it overflows on long runs of digits; otherwise the loop reads
exactly this grammar (`valid_ip_iff`).
-/

/-- The value of a digit. -/
def digitOf (c : UInt8) : ℕ := c.toNat - 48

/-- The number that a run of digits denotes. -/
def decimal (run : List UInt8) : ℕ := numeral 10 0 (run.map digitOf)

/-- The loop of `atoi` goes on from `value` with digits. -/
theorem atoiLoop_eq {s : List UInt8} (hdigits : strIsDigit s) {value : ℕ}
    (hvalue : value < 4294967296) :
    atoiLoop s value = numeral 10 value (s.map digitOf) % 4294967296 := by
  induction s generalizing value with
  | nil => exact (Nat.mod_eq_of_lt hvalue).symm
  | cons c s ih =>
    simp only [strIsDigit, List.all_cons, Bool.and_eq_true] at hdigits ih
    obtain ⟨hc, hs⟩ := hdigits
    have hnext : u32 (value * 10 + (c.toNat - 48)) = (10 * value + digitOf c) % 4294967296 := by
      have hle : 48 ≤ c.toNat := (of_decide_eq_true hc).1
      unfold u32 digitOf
      omega
    rw [atoiLoop, if_pos hc, hnext, ih hs (Nat.mod_lt _ (by decide)), numeral_mod, List.map_cons,
      numeral_cons]

/-- **`atoi` on digits** is the number that they denote, modulo `2^32`. -/
theorem atoi_eq {s : List UInt8} (hdigits : strIsDigit s) : atoi s = decimal s % 4294967296 :=
  atoiLoop_eq hdigits (by decide)

example : atoi (ascii "4294967301") = 5 := by decide

/-- A digit behind the others moves them up by one place. -/
theorem decimal_append_one (run : List UInt8) (c : UInt8) :
    decimal (run ++ [c]) = 10 * decimal run + digitOf c := by
  rw [decimal, List.map_append, numeral_append]
  rfl

/-- A longer run denotes no less. -/
theorem decimal_le_append (run run' : List UInt8) : decimal run ≤ decimal (run ++ run') := by
  rw [decimal, decimal, List.map_append, numeral_append]
  exact le_numeral (by decide) _ _

/-- The values of `section * 10 + *ip` that the loop of `is_valid_ip` computes. -/
def ipSums : List UInt8 → ℤ → ℕ → List ℤ
  | [], _, _ => []
  | c :: ip, sect, dot =>
    if c = 46 then
      if dot + 1 > 3 then []
      else if sect ≥ 0 ∧ sect ≤ 255 then ipSums ip 0 (dot + 1) else []
    else if isdigit c then
      (sect * 10 + c.toNat) :: ipSums ip (i32 (sect * 10 + c.toNat - 48)) dot
    else []

/-! ### The grammar -/

/-- The texts between the dots. -/
def ipFields (str : List UInt8) : List (List UInt8) := str.splitOn 46

/-- Digits, possibly none, that denote at most 255. -/
def IsOctet (field : List UInt8) : Prop := (∀ c ∈ field, isdigit c) ∧ decimal field ≤ 255

/-- Fields that the loop accepts behind `dot` dots. -/
def IsQuad (fields : List (List UInt8)) (dot : ℕ) : Prop :=
  fields.length + dot = 4 ∧ (∀ field ∈ fields, IsOctet field) ∧
    ∀ field ∈ fields.getLast?, decimal field ≠ 0

/-- Four runs of digits of at most 255 between single dots, the last one not 0. -/
def IsDottedQuad (str : List UInt8) : Prop :=
  IsQuad (ipFields str) 0 ∧ ∀ field ∈ ipFields str, field ≠ []

/-- Like an address, but with an empty field. -/
def HasEmptyField (str : List UInt8) : Prop := IsQuad (ipFields str) 0 ∧ [] ∈ ipFields str

/-- Behind octets and `dot` dots stands a run of digits that `section` does not hold. -/
def LongRun (fields : List (List UInt8)) (dot : ℕ) : Prop :=
  ∃ before field after, fields = before ++ field :: after ∧ before.length + dot ≤ 3 ∧
    (∀ f ∈ before, IsOctet f) ∧ 2147483599 < decimal (field.takeWhile isdigit)

/-- No sum leaves the range of `int`, and the result is 0 for addresses only. -/
def ValidIpRight (str : List UInt8) : Prop :=
  (∀ x ∈ ipSums str 0 0, -2147483648 ≤ x ∧ x ≤ 2147483647) ∧
    (isValidIp str = true ↔ IsDottedQuad str)

/-! ### The fields of a text -/

variable {run str : List UInt8} {c : UInt8} {dot : ℕ}

/-- Text in front of the first dot belongs to the first field. -/
theorem splitOn_append {run str : List UInt8} (hrun : 46 ∉ run) :
    (run ++ str).splitOn 46 = (str.splitOn 46).modifyHead (run ++ ·) := by
  induction run with
  | nil =>
    rw [List.nil_append]
    cases str.splitOn 46 <;> rfl
  | cons x run ih =>
    have hx : (x == 46) = false := beq_eq_false_iff_ne.mpr fun h => hrun (h ▸ List.mem_cons_self)
    rw [List.cons_append, List.splitOn_cons_eq_if_modifyHead, hx,
      ih fun h => hrun (List.mem_cons_of_mem _ h)]
    cases str.splitOn 46 <;> rfl

/-- Digits have no dot. -/
theorem not_mem_of_digits (hrun : ∀ x ∈ run, isdigit x) : 46 ∉ run :=
  fun h => absurd (hrun 46 h) (by decide)

/-- The fields behind a run of digits and a dot. -/
theorem ipFields_dot (hrun : ∀ x ∈ run, isdigit x) :
    ipFields (run ++ 46 :: str) = run :: ipFields str :=
  List.splitOn_append_cons_self_of_not_mem (not_mem_of_digits hrun) str

/-- A text is its first field and more. -/
theorem ipFields_cons (str : List UInt8) (hrun : ∀ x ∈ run, isdigit x) (hc : c ≠ 46) :
    ∃ field fields, ipFields (run ++ c :: str) = (run ++ c :: field) :: fields := by
  unfold ipFields
  rw [splitOn_append (not_mem_of_digits hrun), List.splitOn_cons_eq_if_modifyHead,
    if_neg (by simpa using hc)]
  cases hfields : str.splitOn 46 with
  | nil => exact absurd hfields (List.splitOn_ne_nil 46 str)
  | cons field fields => exact ⟨field, fields, rfl⟩

/-- A field with others behind it is an octet, and the dot behind it is not one too many. -/
theorem isQuad_cons {field : List UInt8} {fields : List (List UInt8)} (hne : fields ≠ []) :
    IsQuad (field :: fields) dot ↔ dot < 3 ∧ IsOctet field ∧ IsQuad fields (dot + 1) := by
  have hlength := List.length_pos_iff.mpr hne
  unfold IsQuad
  rw [List.length_cons, List.forall_mem_cons, List.getLast?_cons_of_ne_nil hne]
  constructor
  · rintro ⟨h1, ⟨h2, h3⟩, h4⟩
    exact ⟨by omega, h2, by omega, h3, h4⟩
  · rintro ⟨h1, h2, h3, h4, h5⟩
    exact ⟨by omega, ⟨h2, h4⟩, h5⟩

/-- A run of digits up to a dot is the first field. -/
theorem isQuad_dot (hrun : ∀ x ∈ run, isdigit x) :
    IsQuad (ipFields (run ++ 46 :: str)) dot ↔
      dot < 3 ∧ IsOctet run ∧ IsQuad (ipFields str) (dot + 1) := by
  rw [ipFields_dot hrun]
  exact isQuad_cons (List.splitOn_ne_nil 46 str)

/-- An overflow is in the first field that the code gets to, or behind it. -/
theorem longRun_cons {field : List UInt8} {fields : List (List UInt8)} :
    LongRun (field :: fields) dot ↔
      (dot ≤ 3 ∧ 2147483599 < decimal (field.takeWhile isdigit)) ∨
        (dot < 3 ∧ IsOctet field ∧ LongRun fields (dot + 1)) := by
  constructor
  · rintro ⟨before, f, after, hfields, hlength, hbefore, hlong⟩
    cases before with
    | nil =>
      cases hfields
      exact .inl ⟨by simpa using hlength, hlong⟩
    | cons g before =>
      cases hfields
      rw [List.length_cons] at hlength
      rw [List.forall_mem_cons] at hbefore
      exact .inr ⟨by omega, hbefore.1, before, f, after, rfl, by omega, hbefore.2, hlong⟩
  · rintro (⟨hdot, hlong⟩ | ⟨hdot, hfield, before, f, after, rfl, hlength, hbefore, hlong⟩)
    · exact ⟨[], field, fields, rfl, by simpa using hdot, by simp, hlong⟩
    · refine ⟨field :: before, f, after, rfl, ?_, List.forall_mem_cons.mpr ⟨hfield, hbefore⟩, hlong⟩
      rw [List.length_cons]
      omega

/-- There is no overflow behind the last field. -/
theorem not_longRun_nil : ¬ LongRun [] dot := by
  rintro ⟨before, f, after, hfields, -⟩
  cases before <;> cases hfields

/-! ### The loop -/

/-- The digit `c` goes into `section`, if the sum fits. -/
theorem section_digit (hrun : decimal run ≤ 2147483599) (hc : isdigit c) :
    ((decimal run : ℤ) * 10 + c.toNat ≤ 2147483647 ↔ decimal (run ++ [c]) ≤ 2147483599) ∧
      (decimal (run ++ [c]) ≤ 2147483599 →
        i32 ((decimal run : ℤ) * 10 + c.toNat - 48) = decimal (run ++ [c])) := by
  have hdigit : 48 ≤ c.toNat ∧ c.toNat ≤ 57 := by
    rw [isdigit, decide_eq_true_eq] at hc
    exact ⟨UInt8.le_iff_toNat_le.mp hc.1, UInt8.le_iff_toNat_le.mp hc.2⟩
  rw [decimal_append_one, digitOf]
  unfold i32
  omega

/-- A run that ends in front of something else than a digit. -/
theorem takeWhile_run {rest : List UInt8} (hrun : ∀ x ∈ run, isdigit x)
    (hrest : ∀ x ∈ rest.head?, isdigit x = false) : (run ++ rest).takeWhile isdigit = run := by
  rw [List.takeWhile_append_of_pos hrun]
  cases rest with
  | nil => simp
  | cons x rest => rw [List.takeWhile_cons, hrest x rfl]; simp

/-- A run with one more digit. -/
theorem digits_append_one (hrun : ∀ x ∈ run, isdigit x) (hc : isdigit c) :
    ∀ x ∈ run ++ [c], isdigit x := by
  rintro x hx
  rcases List.mem_append.mp hx with h | h
  · exact hrun x h
  · rwa [List.mem_singleton.mp h]

/-- A run that is still good is not long. -/
theorem longRun_field {rest : List UInt8} {fields : List (List UInt8)}
    (hrun : ∀ x ∈ run, isdigit x) (hsmall : decimal run ≤ 2147483599)
    (hrest : ∀ x ∈ rest.head?, isdigit x = false) :
    LongRun ((run ++ rest) :: fields) dot ↔
      dot < 3 ∧ IsOctet (run ++ rest) ∧ LongRun fields (dot + 1) := by
  rw [longRun_cons, takeWhile_run hrun hrest]
  exact or_iff_right fun h => absurd h.2 (by omega)

/-- A field with another character is no octet. -/
theorem not_isOctet (hc : isdigit c = false) (field : List UInt8) :
    ¬ IsOctet (run ++ c :: field) :=
  fun h => absurd (h.1 c (by simp)) (by simp [hc])

/-- A good run and a dot. -/
theorem longRun_dot (hrun : ∀ x ∈ run, isdigit x) (hsmall : decimal run ≤ 2147483599) :
    LongRun (ipFields (run ++ 46 :: str)) dot ↔
      dot < 3 ∧ IsOctet run ∧ LongRun (ipFields str) (dot + 1) := by
  have hfield : LongRun ((run ++ []) :: ipFields str) dot ↔ _ :=
    longRun_field hrun hsmall (by rintro x ⟨⟩)
  rw [List.append_nil] at hfield
  rw [ipFields_dot hrun, hfield]

/-- A good run at the end. -/
theorem not_longRun_end (hrun : ∀ x ∈ run, isdigit x) (hsmall : decimal run ≤ 2147483599) :
    ¬ LongRun (ipFields run) dot := by
  have hfields : ipFields run = [run ++ []] := by
    rw [List.append_nil]
    exact List.splitOn_eq_singleton (not_mem_of_digits hrun)
  rw [hfields, longRun_field hrun hsmall (by rintro x ⟨⟩)]
  exact fun h => not_longRun_nil h.2.2

/-- A good run and another character. -/
theorem not_longRun_other (hrun : ∀ x ∈ run, isdigit x) (hsmall : decimal run ≤ 2147483599)
    (hc : c ≠ 46) (hother : isdigit c = false) : ¬ LongRun (ipFields (run ++ c :: str)) dot := by
  obtain ⟨field, fields, hfields⟩ := ipFields_cons str hrun hc
  rw [hfields, longRun_field hrun hsmall (by rintro x ⟨⟩; exact hother)]
  exact fun h => not_isOctet hother field h.2.1

/-- A field that starts with a large run. -/
theorem longRun_large (hmore : ∀ x ∈ run ++ [c], isdigit x) (hc : c ≠ 46) (hdot : dot ≤ 3)
    (hlarge : 2147483599 < decimal (run ++ [c])) : LongRun (ipFields (run ++ c :: str)) dot := by
  obtain ⟨field, fields, hfields⟩ := ipFields_cons str
    (fun x hx => hmore x (List.mem_append_left _ hx)) hc
  have hfield : run ++ c :: field = run ++ [c] ++ field := by simp
  rw [hfields, longRun_cons, hfield, List.takeWhile_append_of_pos hmore]
  exact .inl ⟨hdot, lt_of_lt_of_le hlarge (decimal_le_append _ _)⟩

/-- **The sums** stay in range unless there is a long run.  Induction on the rest of the text; `run`
    is the part of the field that has been read. -/
theorem ipSums_iff : ∀ (str run : List UInt8) (dot : ℕ), (∀ x ∈ run, isdigit x) →
    decimal run ≤ 2147483599 → dot ≤ 3 →
    ((∀ x ∈ ipSums str (decimal run) dot, -2147483648 ≤ x ∧ x ≤ 2147483647) ↔
      ¬ LongRun (ipFields (run ++ str)) dot)
  | [], run, dot, hrun, hsmall, _ => by
    rw [List.append_nil]
    exact iff_of_true (by rintro x ⟨⟩) (not_longRun_end hrun hsmall)
  | c :: str, run, dot, hrun, hsmall, hdot => by
    rw [ipSums]
    split_ifs with hc hdots hsect hdigit
    · rw [hc, longRun_dot hrun hsmall]
      exact iff_of_true (by rintro x ⟨⟩) fun h => absurd h.1 (by omega)
    · rw [hc, longRun_dot hrun hsmall, and_iff_right (by omega : dot < 3),
        and_iff_right ⟨hrun, by omega⟩]
      exact ipSums_iff str [] (dot + 1) (by rintro x ⟨⟩) (by decide) (by omega)
    · rw [hc, longRun_dot hrun hsmall]
      refine iff_of_true (by rintro x ⟨⟩) fun h => hsect ?_
      have := h.2.1.2
      omega
    · obtain ⟨hfits, hsect⟩ := section_digit hsmall hdigit
      have hmore := digits_append_one hrun hdigit
      rw [List.forall_mem_cons]
      by_cases hnext : decimal (run ++ [c]) ≤ 2147483599
      · have ih := ipSums_iff str (run ++ [c]) dot hmore hnext hdot
        rw [hsect hnext, ih, List.append_assoc]
        exact and_iff_right ⟨by omega, hfits.mpr hnext⟩
      · -- the sum overflows, and the field starts with this run
        exact iff_of_false (fun h => hnext (hfits.mp h.1.2))
          (not_not_intro (longRun_large hmore hc hdot (not_le.mp hnext)))
    · exact iff_of_true (by rintro x ⟨⟩) (not_longRun_other hrun hsmall hc (by simpa using hdigit))

/-- **The result** of the loop, if there is no long run. -/
theorem isValidIpLoop_iff : ∀ (str run : List UInt8) (dot : ℕ), (∀ x ∈ run, isdigit x) →
    decimal run ≤ 2147483599 → dot ≤ 3 → ¬ LongRun (ipFields (run ++ str)) dot →
    ((∃ sect, isValidIpLoop str (decimal run) dot = some (sect, 3) ∧ 0 < sect ∧ sect ≤ 255) ↔
      IsQuad (ipFields (run ++ str)) dot)
  | [], run, dot, hrun, hsmall, hdot, _ => by
    have hfields : ipFields run = [run] := List.splitOn_eq_singleton (not_mem_of_digits hrun)
    rw [List.append_nil, hfields, isValidIpLoop]
    constructor
    · rintro ⟨sect, hsect, hpos, hle⟩
      cases hsect
      refine ⟨rfl, List.forall_mem_singleton.mpr ⟨hrun, by omega⟩, ?_⟩
      intro field hfield hzero
      rw [← show run = field from Option.some.inj hfield] at hzero
      omega
    · rintro ⟨hlength, hoctet, hlast⟩
      have hpos : decimal run ≠ 0 := hlast run rfl
      have hle : decimal run ≤ 255 := (hoctet run (List.mem_singleton_self _)).2
      have hlength : 1 + dot = 4 := hlength
      obtain rfl : dot = 3 := by omega
      exact ⟨decimal run, rfl, by omega, by omega⟩
  | c :: str, run, dot, hrun, hsmall, hdot, hlong => by
    have hnone : ¬ ∃ sect : ℤ, False ∧ 0 < sect ∧ sect ≤ 255 := fun ⟨_, h, _⟩ => h
    rw [isValidIpLoop]
    split_ifs with hc hdots hsect hdigit
    · rw [hc, isQuad_dot hrun]
      exact iff_of_false hnone fun h => absurd h.1 (by omega)
    · rw [hc, longRun_dot hrun hsmall] at hlong
      have hoctet : IsOctet run := ⟨hrun, by omega⟩
      rw [hc, isQuad_dot hrun, and_iff_right (by omega : dot < 3), and_iff_right hoctet]
      exact isValidIpLoop_iff str [] (dot + 1) (by rintro x ⟨⟩) (by decide) (by omega)
        fun h => hlong ⟨by omega, hoctet, h⟩
    · rw [hc, isQuad_dot hrun]
      refine iff_of_false hnone fun h => hsect ?_
      have := h.2.1.2
      omega
    · obtain ⟨-, hsect⟩ := section_digit hsmall hdigit
      have hmore := digits_append_one hrun hdigit
      have hfield : run ++ c :: str = run ++ [c] ++ str := by simp
      have hnext : decimal (run ++ [c]) ≤ 2147483599 :=
        not_lt.mp fun hlarge => hlong (longRun_large hmore hc hdot hlarge)
      rw [hfield] at hlong
      rw [hsect hnext, hfield]
      exact isValidIpLoop_iff str (run ++ [c]) dot hmore hnext hdot hlong
    · have hother : isdigit c = false := by simpa using hdigit
      obtain ⟨field, fields, hfields⟩ := ipFields_cons str hrun hc
      rw [hfields]
      exact iff_of_false hnone fun h => not_isOctet hother field (h.2.1 _ List.mem_cons_self)

/-- Three dots and a last section from 1 to 255 make an address valid. -/
theorem isValidIp_iff (str : List UInt8) : isValidIp str = true ↔
    ∃ sect, isValidIpLoop str 0 0 = some (sect, 3) ∧ 0 < sect ∧ sect ≤ 255 := by
  unfold isValidIp
  split
  case h_1 sect dot hloop =>
    rw [hloop, decide_eq_true_eq]
    constructor
    · rintro ⟨hpos, hle, rfl⟩
      exact ⟨sect, rfl, hpos, hle⟩
    · rintro ⟨sect', heq, hpos, hle⟩
      cases heq
      exact ⟨hpos, hle, rfl⟩
  case h_2 hloop =>
    rw [hloop]
    exact iff_of_false (by simp) fun ⟨_, h, _⟩ => by cases h

/-- **What `is_valid_ip` accepts.**  For every text: no sum overflows and the result is 0 for
    exactly the four-number addresses, if and only if none of the first four fields that follows
    on octets starts with a run of more than 2147483599, and no field of an address is empty. -/
theorem valid_ip_iff (str : List UInt8) :
    ValidIpRight str ↔ ¬ LongRun (ipFields str) 0 ∧ ¬ HasEmptyField str := by
  have hsums := ipSums_iff str [] 0 (by rintro x ⟨⟩) (by decide) (by decide)
  have hloop := isValidIpLoop_iff str [] 0 (by rintro x ⟨⟩) (by decide) (by decide)
  rw [List.nil_append] at hsums hloop
  unfold ValidIpRight
  rw [isValidIp_iff]
  refine (and_congr_left' hsums).trans (and_congr_right fun hlong => ?_)
  apply (iff_congr (hloop hlong) Iff.rfl).trans
  unfold IsDottedQuad HasEmptyField
  by_cases hempty : [] ∈ ipFields str
  · have hfull : ¬ ∀ field ∈ ipFields str, field ≠ [] := fun h => h [] hempty rfl
    tauto
  · have hfull : ∀ field ∈ ipFields str, field ≠ [] := by
      rintro field hfield rfl
      exact hempty hfield
    tauto

/-- `...1` is accepted. -/
theorem empty_fields_accepted : ¬ ∀ str, ValidIpRight str := by
  intro hall
  have hright := (hall (ascii "...1")).2.mp (by decide)
  exact hright.2 [] (by decide) rfl

end SerialNet
