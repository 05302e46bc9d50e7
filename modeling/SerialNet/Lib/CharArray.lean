import Mathlib.Data.List.TakeWhile
import SerialNet.Lib.Window

namespace SerialNet

/-!
# Strings in arrays

A `char` array is a list of bytes, and `stringIn` is the string that its readers find: everything
in front of the first NUL.  A text that is copied to the start of an array is read back exactly if
the byte behind it is 0 (`stringIn_writeAt_iff`); after several copies this byte is 0 exactly if it
was at first and no copy has reached it (`foldl_writeAt_zero_iff`).
-/

/-- The string at the start of an array. -/
def stringIn (array : List UInt8) : List UInt8 := array.takeWhile (· ≠ 0)

variable {array text rest : List UInt8}

/-- A text without NUL is the start of the string. -/
theorem stringIn_append (htext : 0 ∉ text) : stringIn (text ++ rest) = text ++ stringIn rest :=
  List.takeWhile_append_of_pos fun _ hc => decide_eq_true fun h => htext (h ▸ hc)

/-- The string is empty when the array starts with a NUL, or is empty itself. -/
theorem stringIn_eq_nil_iff : stringIn rest = [] ↔ ∀ c ∈ rest.head?, c = 0 := by
  cases rest with
  | nil => exact iff_of_true rfl (by rintro c ⟨⟩)
  | cons x rest =>
    rw [stringIn, List.takeWhile_eq_nil_iff]
    simp

/-- The text in front is what is read if no other byte follows than a NUL. -/
theorem stringIn_append_iff (htext : 0 ∉ text) :
    stringIn (text ++ rest) = text ↔ ∀ c ∈ rest.head?, c = 0 := by
  rw [stringIn_append htext, List.append_right_eq_self, stringIn_eq_nil_iff]

/-- At the start the text is put in front of what it leaves. -/
theorem writeAt_zero (array text : List UInt8) :
    writeAt array 0 text = text ++ array.drop text.length := by
  rw [writeAt, List.take_zero, List.nil_append, Nat.zero_add]

/-- A copied text is read back if the byte behind it is 0. -/
theorem stringIn_writeAt_iff (htext : 0 ∉ text) (hlength : text.length < array.length) :
    stringIn (writeAt array 0 text) = text ↔ array[text.length]? = some 0 := by
  rw [writeAt_zero, stringIn_append_iff htext, List.head?_drop, List.getElem?_eq_getElem hlength]
  exact ⟨fun h => congrArg some (h _ rfl), fun h c hc => Option.some.inj (hc.symm.trans h)⟩

/-- With its NUL it always is. -/
theorem stringIn_set_writeAt (htext : 0 ∉ text) (hlength : text.length < array.length) :
    stringIn ((writeAt array 0 text).set text.length 0) = text := by
  rw [writeAt_zero, List.set_append_right _ _ le_rfl, Nat.sub_self, stringIn_append_iff htext,
    List.drop_eq_getElem_cons hlength]
  exact fun c hc => (Option.some.inj hc).symm

/-- A copied text makes no byte 0. -/
theorem getElem?_writeAt_zero_iff (htext : 0 ∉ text) {k : ℕ} :
    (writeAt array 0 text)[k]? = some 0 ↔ text.length ≤ k ∧ array[k]? = some 0 := by
  rcases Nat.lt_or_ge k text.length with hk | hk
  · rw [getElem?_writeAt_inside (Nat.zero_le _) (Nat.zero_le _) (by omega), Nat.sub_zero]
    exact iff_of_false (fun h => htext (List.mem_of_getElem? h)) fun h => absurd h.1 (by omega)
  · rw [getElem?_writeAt_outside (Nat.zero_le _) (.inr (by omega))]
    exact (and_iff_right hk).symm

/-- Nor do several. -/
theorem foldl_writeAt_zero_iff {texts : List (List UInt8)} {k : ℕ}
    (htexts : ∀ text ∈ texts, 0 ∉ text) :
    (texts.foldl (writeAt · 0 ·) array)[k]? = some 0 ↔
      (∀ text ∈ texts, text.length ≤ k) ∧ array[k]? = some 0 := by
  induction texts generalizing array with
  | nil => exact (and_iff_right (by rintro text ⟨⟩)).symm
  | cons text texts ih =>
    rw [List.forall_mem_cons] at htexts
    rw [List.foldl_cons, ih htexts.2, getElem?_writeAt_zero_iff htexts.1, List.forall_mem_cons]
    constructor
    · exact fun ⟨h1, h2, h3⟩ => ⟨⟨h2, h1⟩, h3⟩
    · exact fun ⟨⟨h2, h1⟩, h3⟩ => ⟨h1, h2, h3⟩

/-- Texts that fit leave the length of the array. -/
theorem length_foldl_writeAt {texts : List (List UInt8)}
    (htexts : ∀ text ∈ texts, text.length ≤ array.length) :
    (texts.foldl (writeAt · 0 ·) array).length = array.length := by
  induction texts generalizing array with
  | nil => rfl
  | cons text texts ih =>
    rw [List.forall_mem_cons] at htexts
    have hlength : (writeAt array 0 text).length = array.length := length_writeAt (by omega)
    rw [List.foldl_cons, ih fun text htext => (htexts.2 text htext).trans hlength.ge, hlength]

end SerialNet
