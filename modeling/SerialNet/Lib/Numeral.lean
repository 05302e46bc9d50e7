import Mathlib.Data.List.Basic
import Mathlib.Algebra.Order.Ring.Nat

namespace SerialNet

/-!
# Numerals

`numeral b v xs` goes on from the value `v` with the digits `xs`, most significant first, in base
`b`: the value that a scanner holds after these digits.  The digits need not be below `b`, which is
how some scanners read numerals of another base.
-/

/-- The value of the digits `xs` behind the value `v`. -/
def numeral (b v : ℕ) (xs : List ℕ) : ℕ := xs.foldl (fun n x => b * n + x) v

variable {b c v w x : ℕ} {xs ys : List ℕ}

/-- No digit changes nothing. -/
@[simp] theorem numeral_nil (b v : ℕ) : numeral b v [] = v := rfl

/-- A digit moves the others up by one place. -/
theorem numeral_cons (b v x : ℕ) (xs : List ℕ) :
    numeral b v (x :: xs) = numeral b (b * v + x) xs := rfl

/-- The digits behind go on from the value of those in front. -/
theorem numeral_append (b v : ℕ) (xs ys : List ℕ) :
    numeral b v (xs ++ ys) = numeral b (numeral b v xs) ys := List.foldl_append

/-- Where only the value modulo `m` matters, the start may be reduced. -/
theorem numeral_mod (b m v : ℕ) (xs : List ℕ) : numeral b (v % m) xs % m = numeral b v xs % m := by
  induction xs generalizing v with
  | nil => exact Nat.mod_mod v m
  | cons x xs ih =>
    have hstart : (b * (v % m) + x) % m = (b * v + x) % m := by
      rw [Nat.add_mod, Nat.mul_mod, Nat.mod_mod, ← Nat.mul_mod, ← Nat.add_mod]
    rw [numeral_cons, numeral_cons, ← ih (b * (v % m) + x), hstart, ih]

/-- More digits never make the value smaller. -/
theorem le_numeral (hb : 1 ≤ b) (v : ℕ) (xs : List ℕ) : v ≤ numeral b v xs := by
  induction xs generalizing v with
  | nil => exact le_rfl
  | cons x xs ih =>
    calc v ≤ b * v + x := Nat.le_add_right_of_le (Nat.le_mul_of_pos_left v hb)
      _ ≤ numeral b (b * v + x) xs := ih _

/-- A larger base and a larger start make the value larger. -/
theorem numeral_mono (hb : b ≤ c) (hv : v ≤ w) (xs : List ℕ) :
    numeral b v xs ≤ numeral c w xs := by
  induction xs generalizing v w with
  | nil => exact hv
  | cons x xs ih => exact ih (Nat.add_le_add_right (Nat.mul_le_mul hb hv) x)

/-- **The same digits in two bases** denote the same number exactly if that is a single digit. -/
theorem numeral_eq_iff (hb : b < c) (hxs : ∀ x ∈ xs, x < c) :
    numeral b 0 xs = numeral c 0 xs ↔ numeral c 0 xs < c := by
  rcases List.eq_nil_or_concat xs with rfl | ⟨xs, x, rfl⟩
  · exact iff_of_true rfl (Nat.zero_lt_of_lt hb)
  · rw [List.concat_eq_append] at hxs ⊢
    have hx : x < c := hxs x (by simp)
    have hle : numeral b 0 xs ≤ numeral c 0 xs := numeral_mono hb.le le_rfl xs
    have hlast : ∀ b, numeral b 0 (xs ++ [x]) = b * numeral b 0 xs + x :=
      fun b => numeral_append b 0 xs [x]
    rw [hlast, hlast, Nat.add_right_cancel_iff]
    rcases Nat.eq_zero_or_pos (numeral c 0 xs) with hzero | hpos
    · have hzero' : numeral b 0 xs = 0 := by omega
      rw [hzero, hzero']
      exact iff_of_true (by simp) (by omega)
    · have hless : b * numeral b 0 xs < c * numeral c 0 xs :=
        calc b * numeral b 0 xs ≤ b * numeral c 0 xs := Nat.mul_le_mul_left b hle
          _ < c * numeral c 0 xs := Nat.mul_lt_mul_of_pos_right hb hpos
      have hlarge : c ≤ c * numeral c 0 xs := Nat.le_mul_of_pos_right c hpos
      exact iff_of_false (by omega) (by omega)

end SerialNet
