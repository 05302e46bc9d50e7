import SerialNet.Lib.CString

namespace SerialNet

/-!
# Domain names

A name is a list of labels.  On the wire each label follows its length and a zero ends the name
(`encodeName`); in text the labels are separated by dots (`dottedName`).  Two texts are the same
name when they agree up to ASCII case.
-/

/-- The name on the wire, without compression. -/
def encodeName : List (List UInt8) → List UInt8
  | [] => [0]
  | l :: ls => UInt8.ofNat l.length :: (l ++ encodeName ls)

/-- The name as text. -/
def dottedName : List (List UInt8) → List UInt8
  | [] => []
  | [l] => l
  | l :: l' :: ls => l ++ 46 :: dottedName (l' :: ls)

/-- The labels have 1 to 63 bytes and the whole name at most 255. -/
structure ValidName (labels : List (List UInt8)) : Prop where
  pos : ∀ l ∈ labels, 0 < l.length
  le : ∀ l ∈ labels, l.length ≤ 63
  length_le : (encodeName labels).length ≤ 255

/-- Equal up to ASCII case. -/
def SameName (x y : List UInt8) : Prop := x.map toupper = y.map toupper

instance (x y : List UInt8) : Decidable (SameName x y) :=
  inferInstanceAs (Decidable (_ = _))

/-- On the wire a name has the leading length and the final zero more than in text. -/
theorem length_encodeName {labels : List (List UInt8)} (h : labels ≠ []) :
    (encodeName labels).length = (dottedName labels).length + 2 := by
  induction labels with
  | nil => exact absurd rfl h
  | cons l ls ih =>
    cases ls with
    | nil => simp [encodeName, dottedName]
    | cons l' ls =>
      have hlen := ih (by simp)
      simp only [encodeName, dottedName, List.length_cons, List.length_append] at hlen ⊢
      omega

/-- Each label takes a byte at least. -/
theorem length_le_encodeName (labels : List (List UInt8)) :
    labels.length ≤ (encodeName labels).length := by
  induction labels with
  | nil => simp
  | cons l ls ih =>
    simp only [encodeName, List.length_cons, List.length_append]
    omega

/-- The name on the wire ends with its zero. -/
theorem zero_mem_encodeName (labels : List (List UInt8)) : 0 ∈ encodeName labels := by
  induction labels with
  | nil => simp [encodeName]
  | cons l ls ih => simp [encodeName, ih]

/-! ### What a C program sees of a name -/

/-- The name on the wire as a C string: up to the first zero. -/
def visibleName (labels : List (List UInt8)) : List UInt8 :=
  (encodeName labels).takeWhile (· ≠ 0)

/-- A C string has no zero. -/
theorem zero_not_mem_visibleName (labels : List (List UInt8)) : 0 ∉ visibleName labels :=
  nul_not_mem_takeWhile _

/-- The string with its zero is a prefix of the name: the zero behind the last label stops it. -/
theorem visibleName_of_labels (labels : List (List UInt8)) :
    visibleName labels ++ [0] <+: encodeName labels :=
  takeWhile_nul_prefix (zero_mem_encodeName labels)

/-- The zero that ends the encoding is not part of the string. -/
theorem length_visibleName_lt (labels : List (List UInt8)) :
    (visibleName labels).length < (encodeName labels).length := by
  have hle := (visibleName_of_labels labels).length_le
  rw [List.length_append, List.length_singleton] at hle
  omega

/-- The length of a label is not mistaken for the end of the name. -/
theorem ofNat_length_ne_zero {l : List UInt8} (hpos : 0 < l.length) (hle : l.length ≤ 63) :
    UInt8.ofNat l.length ≠ 0 := by
  intro hc
  have hz := congrArg UInt8.toNat hc
  rw [UInt8.toNat_ofNat_of_lt' (by show l.length < 256; omega), UInt8.toNat_zero] at hz
  omega

/-- Without a zero byte in a label the string is the whole name. -/
theorem encodeName_of_zero_free {labels : List (List UInt8)} (hpos : ∀ l ∈ labels, 0 < l.length)
    (hle : ∀ l ∈ labels, l.length ≤ 63) (hzero : ∀ l ∈ labels, 0 ∉ l) :
    encodeName labels = visibleName labels ++ [0] := by
  unfold visibleName
  induction labels with
  | nil => rfl
  | cons l ls ih =>
    have hlen := ofNat_length_ne_zero (hpos l (by simp)) (hle l (by simp))
    have hl : ∀ b ∈ l, decide (b ≠ 0) = true := fun b hb =>
      decide_eq_true fun hc => hzero l (by simp) (hc ▸ hb)
    rw [encodeName, List.takeWhile_cons_of_pos (by simpa using hlen),
      List.takeWhile_append_of_pos hl, List.cons_append, List.append_assoc,
      ← ih (fun x hx => hpos x (by simp [hx])) (fun x hx => hle x (by simp [hx]))
        fun x hx => hzero x (by simp [hx])]

/-- A name with a label is not empty. -/
theorem length_visibleName_pos {labels : List (List UInt8)} (hne : labels ≠ [])
    (h : ValidName labels) : 0 < (visibleName labels).length := by
  cases labels with
  | nil => exact absurd rfl hne
  | cons l ls =>
    have hlen := ofNat_length_ne_zero (h.pos l (by simp)) (h.le l (by simp))
    simp [visibleName, encodeName, hlen]

end SerialNet
