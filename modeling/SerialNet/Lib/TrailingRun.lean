import Mathlib.Data.List.DropRight

namespace SerialNet

/-!
# What a stream ends with

A receiver sees a stream item by item, and what it has to decide depends on how the stream that it
has seen so far ends.  `trailing p w` is the length of the longest run of items with `p` at the end
of `w`; what comes in front of it is `w.rdropWhile p`.  `forall_prefix_iff` compares two properties
on all prefixes of a stream: it is enough that each further item keeps or breaks both.
-/

variable {α : Type*}

/-- The length of the run of items with `p` at the end of `w`. -/
def trailing (p : α → Bool) (w : List α) : ℕ := (w.rtakeWhile p).length

section Trailing

variable {p : α → Bool} {a : α}

/-- An empty list has no trailing run. -/
@[simp] theorem trailing_nil (p : α → Bool) : trailing p [] = 0 := rfl

/-- An element with the property makes the run longer. -/
theorem trailing_concat_pos (w : List α) (h : p a) : trailing p (w ++ [a]) = trailing p w + 1 := by
  rw [trailing, List.rtakeWhile_concat_pos p w a h, List.length_append, List.length_singleton]
  rfl

/-- An element without it ends the run. -/
theorem trailing_concat_neg (w : List α) (h : ¬ p a) : trailing p (w ++ [a]) = 0 := by
  rw [trailing, List.rtakeWhile_concat_neg p w a h, List.length_nil]

end Trailing

/-! ### Properties of all prefixes -/

/-- The prefixes of a stream with one more item. -/
theorem forall_prefix_concat {P : List α → Prop} {w : List α} {a : α} :
    (∀ v, v <+: w ++ [a] → P v) ↔ (∀ v, v <+: w → P v) ∧ P (w ++ [a]) := by
  simp only [List.prefix_concat_iff, or_imp, forall_and, forall_eq]
  exact and_comm

/-- Two properties hold on the same prefixes if each further item keeps or breaks both. -/
theorem forall_prefix_iff {P Q : List α → Prop} (hnil : P [] ↔ Q [])
    (hstep : ∀ w a, (∀ v, v <+: w → P v) → (∀ v, v <+: w → Q v) → (P (w ++ [a]) ↔ Q (w ++ [a])))
    (w : List α) : (∀ v, v <+: w → P v) ↔ ∀ v, v <+: w → Q v := by
  induction w using List.reverseRecOn with
  | nil => simpa using hnil
  | append_singleton w a ih =>
    rw [forall_prefix_concat, forall_prefix_concat, ih]
    exact and_congr_right fun hQ => hstep w a (ih.mpr hQ) hQ

end SerialNet
