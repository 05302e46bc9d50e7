import Mathlib.Data.BitVec
import Mathlib.Data.Fin.Basic
import Mathlib.Data.Fintype.Card
import Mathlib.Logic.Function.Basic

namespace SerialNet

/-!
# Priority tables

A set of the priorities 0 to 63 as a table of eight bytes, a bit for each priority, and a group byte
with a bit for each row that is not empty.  The smallest member is found with two searches in a
byte.  `Represents` relates the table to the set that it stands for; everything else is said about
that set.
-/

/-- A table of 64 bits and the byte that says which rows are not empty. -/
structure PrioTable where
  grp : BitVec 8
  tbl : Fin 8 → BitVec 8

namespace PrioTable

/-! ### Rows and columns -/

/-- The row of a priority. -/
def rowOf (p : Fin 64) : Fin 8 := ⟨p.val >>> 3, by have := p.isLt; omega⟩

/-- The column of a priority. -/
def colOf (p : Fin 64) : Fin 8 := ⟨p.val % 8, by omega⟩

/-- The priority in a row and column. -/
def prioOf (y x : Fin 8) : Fin 64 := ⟨(y.val <<< 3) + x.val, by omega⟩

/-- The byte with bit `i`. -/
def bitOf (i : Fin 8) : BitVec 8 := 1#8 <<< i.val

/-- The row is found again in the priority. -/
@[simp] theorem rowOf_prioOf (y x : Fin 8) : rowOf (prioOf y x) = y := by
  apply Fin.ext
  simp only [rowOf, prioOf]
  omega

/-- The column is found again in the priority. -/
@[simp] theorem colOf_prioOf (y x : Fin 8) : colOf (prioOf y x) = x := by
  apply Fin.ext
  simp only [colOf, prioOf]
  omega

/-- A priority is made of its row and its column. -/
@[simp] theorem prioOf_rowOf (p : Fin 64) : prioOf (rowOf p) (colOf p) = p := by
  apply Fin.ext
  simp only [rowOf, colOf, prioOf]
  omega

/-- A priority is known by its row and its column. -/
theorem eq_of_row_col {p q : Fin 64} (hrow : rowOf p = rowOf q) (hcol : colOf p = colOf q) :
    p = q := by
  rw [← prioOf_rowOf p, hrow, hcol, prioOf_rowOf]

/-- `bitOf i` has bit `i` and no other. -/
@[simp] theorem getLsbD_bitOf (i j : Fin 8) : (bitOf i).getLsbD j = decide (i = j) := by
  revert i j
  decide

theorem neZero_eight : NeZero 8 := ⟨by decide⟩

attribute [local instance] neZero_eight

/-- The lowest bit of a byte that is set, 0 if none is. -/
def lowestBit (b : BitVec 8) : Fin 8 :=
  ((List.finRange 8).find? fun i : Fin 8 => b.getLsbD i).getD 0

/-- A byte is zero when it has no bit. -/
theorem eq_zero_iff_getLsbD {b : BitVec 8} : b = 0 ↔ ∀ i : Fin 8, b.getLsbD i = false := by
  revert b
  decide +kernel

/-- A byte that is not 0 has its lowest bit, and no bit below it. -/
theorem lowestBit_spec (b : BitVec 8) (hb : b ≠ 0) :
    b.getLsbD (lowestBit b) = true ∧ ∀ i : Fin 8, b.getLsbD i = true → lowestBit b ≤ i := by
  revert b
  decide +kernel

/-! ### Operations -/

/-- The table of the empty set. -/
def empty : PrioTable := ⟨0, fun _ => 0⟩

/-- Put a priority in. -/
def set (t : PrioTable) (p : Fin 64) : PrioTable where
  grp := t.grp ||| bitOf (rowOf p)
  tbl := Function.update t.tbl (rowOf p) (t.tbl (rowOf p) ||| bitOf (colOf p))

/-- Take a priority out; the group bit goes with the last one of its row. -/
def clear (t : PrioTable) (p : Fin 64) : PrioTable :=
  let row := t.tbl (rowOf p) &&& ~~~ bitOf (colOf p)
  { grp := if row = 0 then t.grp &&& ~~~ bitOf (rowOf p) else t.grp
    tbl := Function.update t.tbl (rowOf p) row }

/-- The smallest priority of a table that is not empty. -/
def first (t : PrioTable) : Fin 64 :=
  let y := lowestBit t.grp
  prioOf y (lowestBit (t.tbl y))

/-! ### The set of a table -/

/-- The priority is in the table. -/
def Mem (t : PrioTable) (p : Fin 64) : Prop := (t.tbl (rowOf p)).getLsbD (colOf p) = true

instance (t : PrioTable) (p : Fin 64) : Decidable (t.Mem p) :=
  inferInstanceAs (Decidable (_ = true))

/-- The group byte has the bits of the rows that are not empty. -/
def Consistent (t : PrioTable) : Prop := ∀ y : Fin 8, t.grp.getLsbD y = true ↔ t.tbl y ≠ 0

/-- The table stands for the set. -/
structure Represents (t : PrioTable) (S : Fin 64 → Prop) : Prop where
  consistent : t.Consistent
  mem_iff : ∀ p, t.Mem p ↔ S p

variable {t : PrioTable} {S S' : Fin 64 → Prop} {p q : Fin 64}

/-- The set matters, not how it is described. -/
theorem Represents.congr (h : t.Represents S) (hS : ∀ p, S p ↔ S' p) : t.Represents S' :=
  ⟨h.consistent, fun p => (h.mem_iff p).trans (hS p)⟩

/-- The table of no priority. -/
theorem represents_empty : empty.Represents fun _ => False :=
  ⟨fun _ => by simp [empty], fun _ => by simp [empty, Mem]⟩

/-- Setting a bit adds its priority. -/
theorem mem_set : (t.set p).Mem q ↔ q = p ∨ t.Mem q := by
  by_cases hrow : rowOf q = rowOf p
  · unfold Mem set
    dsimp only
    rw [hrow, Function.update_self, BitVec.getLsbD_or, getLsbD_bitOf, Bool.or_eq_true,
      decide_eq_true_eq, or_comm]
    apply or_congr_left
    exact ⟨fun hcol => eq_of_row_col hrow hcol.symm, fun h => by rw [h]⟩
  · unfold Mem set
    dsimp only
    rw [Function.update_of_ne hrow]
    exact ⟨Or.inr, fun h => h.resolve_left fun heq => hrow (congrArg rowOf heq)⟩

/-- Clearing a bit takes its priority out. -/
theorem mem_clear : (t.clear p).Mem q ↔ q ≠ p ∧ t.Mem q := by
  by_cases hrow : rowOf q = rowOf p
  · unfold Mem clear
    dsimp only
    rw [hrow, Function.update_self, BitVec.getLsbD_and, BitVec.getLsbD_not, getLsbD_bitOf,
      Bool.and_eq_true, and_comm]
    apply and_congr_left
    intro _
    have hlt : (colOf q).val < 8 := (colOf q).isLt
    simp only [hlt, decide_true, Bool.true_and, Bool.not_eq_true', decide_eq_false_iff_not]
    exact not_congr ⟨fun hcol => eq_of_row_col hrow hcol.symm, fun h => by rw [h]⟩
  · unfold Mem clear
    dsimp only
    rw [Function.update_of_ne hrow]
    exact ⟨fun h => ⟨fun heq => hrow (congrArg rowOf heq), h⟩, And.right⟩

/-- The group byte follows when a bit is set. -/
theorem Consistent.set (h : t.Consistent) : (t.set p).Consistent := by
  intro y
  unfold PrioTable.set
  dsimp only
  rw [BitVec.getLsbD_or, getLsbD_bitOf, Bool.or_eq_true, decide_eq_true_eq]
  by_cases hy : y = rowOf p
  · rw [hy, Function.update_self]
    refine iff_of_true (Or.inr rfl) fun h0 => ?_
    have hbit := eq_zero_iff_getLsbD.mp h0 (colOf p)
    rw [BitVec.getLsbD_or, getLsbD_bitOf] at hbit
    simp at hbit
  · rw [Function.update_of_ne hy, h y]
    exact or_iff_left fun heq => hy heq.symm

/-- The group byte follows when a bit is cleared: a row that becomes empty loses its group bit. -/
theorem Consistent.clear (h : t.Consistent) : (t.clear p).Consistent := by
  intro y
  unfold PrioTable.clear
  dsimp only
  by_cases hy : y = rowOf p
  · rw [hy, Function.update_self]
    split
    · rename_i h0
      rw [BitVec.getLsbD_and, BitVec.getLsbD_not, getLsbD_bitOf]
      simp [h0]
    · rename_i h0
      refine iff_of_true ((h _).mpr fun hrow => h0 ?_) h0
      rw [hrow]
      exact BitVec.zero_and
  · rw [Function.update_of_ne hy, ← h y]
    split
    · rw [BitVec.getLsbD_and, BitVec.getLsbD_not, getLsbD_bitOf]
      have hlt : y.val < 8 := y.isLt
      simp [hlt, Ne.symm hy]
    · rfl

/-- A table with one more priority. -/
theorem Represents.set (h : t.Represents S) (p : Fin 64) :
    (t.set p).Represents fun q => q = p ∨ S q :=
  ⟨h.consistent.set, fun q => mem_set.trans (or_congr_right (h.mem_iff q))⟩

/-- A table with one priority fewer. -/
theorem Represents.clear (h : t.Represents S) (p : Fin 64) :
    (t.clear p).Represents fun q => q ≠ p ∧ S q :=
  ⟨h.consistent.clear, fun q => mem_clear.trans (and_congr_right fun _ => h.mem_iff q)⟩

/-- The group byte is 0 exactly for the empty set. -/
theorem Represents.grp_eq_zero_iff (h : t.Represents S) : t.grp = 0 ↔ ∀ p, ¬ S p := by
  constructor
  · intro h0 p hp
    have hmem := (h.mem_iff p).mpr hp
    have hrow : t.tbl (rowOf p) = 0 := by
      by_contra hne
      have hbit := (h.consistent (rowOf p)).mpr hne
      rw [h0] at hbit
      simp at hbit
    rw [Mem, hrow] at hmem
    simp at hmem
  · intro hnone
    rw [eq_zero_iff_getLsbD]
    intro y
    rw [← Bool.not_eq_true, h.consistent y, not_not, eq_zero_iff_getLsbD]
    intro x
    rw [← Bool.not_eq_true]
    intro hbit
    apply hnone (prioOf y x)
    rw [← h.mem_iff, Mem, rowOf_prioOf, colOf_prioOf]
    exact hbit

/-- The number of members. -/
def card (t : PrioTable) : ℕ := (Finset.univ.filter t.Mem).card

/-- There are 64 priorities. -/
theorem card_le (t : PrioTable) : t.card ≤ 64 := Finset.card_le_univ _

/-- A member that is taken out makes the table smaller. -/
theorem card_clear_lt (hp : t.Mem p) : (t.clear p).card < t.card := by
  apply Finset.card_lt_card
  rw [Finset.ssubset_iff_of_subset]
  · refine ⟨p, by simpa using hp, ?_⟩
    simp [mem_clear]
  · intro q hq
    rw [Finset.mem_filter, mem_clear] at hq
    exact Finset.mem_filter.mpr ⟨Finset.mem_univ q, hq.2.2⟩

/-- Without priorities the group byte is 0, which is how the kernel asks. -/
theorem Represents.grp_eq_zero_of_card (h : t.Represents S) (h0 : t.card = 0) : t.grp = 0 := by
  rw [h.grp_eq_zero_iff]
  intro p hp
  have hmem : p ∈ Finset.univ.filter t.Mem := by simpa using (h.mem_iff p).mpr hp
  rw [card, Finset.card_eq_zero] at h0
  rw [h0] at hmem
  exact Finset.notMem_empty p hmem

/-- **The search** finds the smallest member. -/
theorem Represents.first_spec (h : t.Represents S) (hne : t.grp ≠ 0) :
    S t.first ∧ ∀ p, S p → t.first ≤ p := by
  obtain ⟨hgrp, hrows⟩ := lowestBit_spec t.grp hne
  obtain ⟨hbit, hcols⟩ := lowestBit_spec _ ((h.consistent _).mp hgrp)
  refine ⟨?_, fun p hp => ?_⟩
  · rw [← h.mem_iff, Mem, first, rowOf_prioOf, colOf_prioOf]
    exact hbit
  · have hmem : (t.tbl (rowOf p)).getLsbD (colOf p) = true := (h.mem_iff p).mpr hp
    have hrow : lowestBit t.grp ≤ rowOf p := by
      apply hrows
      rw [h.consistent]
      intro h0
      rw [h0] at hmem
      simp at hmem
    have hp : p.val = (rowOf p).val * 8 + (colOf p).val := by
      simp only [rowOf, colOf]
      omega
    have hfirst : t.first.val
        = (lowestBit t.grp).val * 8 + (lowestBit (t.tbl (lowestBit t.grp))).val := by
      simp only [first, prioOf]
      omega
    rw [Fin.le_def, hp, hfirst]
    rcases Nat.lt_or_eq_of_le hrow with hlt | heq
    · have := (lowestBit (t.tbl (lowestBit t.grp))).isLt
      omega
    · rw [← Fin.ext heq] at hmem
      have hcol : (lowestBit (t.tbl (lowestBit t.grp))).val ≤ (colOf p).val := hcols _ hmem
      omega

end PrioTable

end SerialNet
