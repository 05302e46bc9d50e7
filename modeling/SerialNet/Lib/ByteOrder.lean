import Mathlib.Algebra.Group.Nat.Defs
import Mathlib.Data.List.Basic
import Mathlib.Tactic.SplitIfs

namespace SerialNet

/-!
# Network byte order

`ntohl` reverses the four bytes of a word, and so turns a word in host order on a little-endian
processor into one in network order and back.
-/

/-- `htonl` and `ntohl` on the little-endian processor. -/
def ntohl (n : UInt32) : UInt32 :=
  ((n &&& 0xff) <<< 24) ||| ((n &&& 0xff00) <<< 8) ||| ((n &&& 0xff0000) >>> 8)
    ||| ((n &&& 0xff000000) >>> 24)

/-- The bits of the mask of byte `k`. -/
theorem getLsbD_byteMask {k : ℕ} (hk : k < 4) (j : ℕ) :
    (0xff#32 <<< (8 * k)).getLsbD j = decide (8 * k ≤ j ∧ j < 8 * k + 8) := by
  by_cases hj : j < 32
  · have hall : ∀ k < 4, ∀ j < 32, (0xff#32 <<< (8 * k)).getLsbD j
        = decide (8 * k ≤ j ∧ j < 8 * k + 8) := by decide
    exact hall k hk j hj
  · rw [BitVec.getLsbD_of_ge _ _ (by omega)]
    simp
    omega

/-- The bits of `ntohl`. -/
theorem getLsbD_ntohl (n : UInt32) {i : ℕ} (hi : i < 32) :
    (ntohl n).toBitVec.getLsbD i = n.toBitVec.getLsbD
      (if i < 8 then i + 24 else if i < 16 then i + 8 else if i < 24 then i - 8 else i - 24) := by
  have h0 : ∀ j, (0xff#32).getLsbD j = _ := getLsbD_byteMask (k := 0) (by decide)
  have h1 : ∀ j, (0xff00#32).getLsbD j = _ := getLsbD_byteMask (k := 1) (by decide)
  have h2 : ∀ j, (0xff0000#32).getLsbD j = _ := getLsbD_byteMask (k := 2) (by decide)
  have h3 : ∀ j, (0xff000000#32).getLsbD j = _ := getLsbD_byteMask (k := 3) (by decide)
  have s24 : (24 : UInt32).toBitVec % 32 = 24 := by decide
  have s8 : (8 : UInt32).toBitVec % 32 = 8 := by decide
  simp only [ntohl, UInt32.toBitVec_or, UInt32.toBitVec_and, UInt32.toBitVec_shiftLeft,
    UInt32.toBitVec_shiftRight, BitVec.getLsbD_or, BitVec.shiftLeft_eq', BitVec.ushiftRight_eq',
    s24, s8]
  simp [h0, h1, h2, h3]
  grind

/-- Turning the bytes twice changes nothing. -/
@[simp] theorem ntohl_ntohl (n : UInt32) : ntohl (ntohl n) = n := by
  refine UInt32.toBitVec_inj.mp (BitVec.eq_of_getLsbD_eq fun i hi => ?_)
  rw [getLsbD_ntohl _ hi, getLsbD_ntohl _ (by split_ifs <;> omega)]
  congr 1
  split_ifs <;> omega

/-- Different words stay different. -/
theorem ntohl_inj {a b : UInt32} (h : ntohl a = ntohl b) : a = b := by
  rw [← ntohl_ntohl a, h, ntohl_ntohl]

/-- The bytes of `ntohl`, numbered from the low one. -/
theorem toNat_ntohl_byte (n : UInt32) {k : ℕ} (hk : k < 4) :
    (ntohl n).toNat / 2 ^ (8 * k) % 2 ^ 8 = n.toNat / 2 ^ (8 * (3 - k)) % 2 ^ 8 := by
  apply Nat.eq_of_testBit_eq
  intro i
  rw [Nat.testBit_mod_two_pow, Nat.testBit_mod_two_pow, Nat.testBit_div_two_pow,
    Nat.testBit_div_two_pow]
  by_cases hi : i < 8
  · have hbit := getLsbD_ntohl n (i := i + 8 * k) (by omega)
    have hindex : (if i + 8 * k < 8 then i + 8 * k + 24 else if i + 8 * k < 16 then i + 8 * k + 8
        else if i + 8 * k < 24 then i + 8 * k - 8 else i + 8 * k - 24) = i + 8 * (3 - k) := by
      split_ifs <;> omega
    rw [hindex] at hbit
    exact congrArg (decide (i < 8) && ·) hbit
  · simp [hi]

end SerialNet
