import Mathlib.Algebra.Group.Nat.Defs

namespace SerialNet

/-!
# IPv4 subnets

Addresses and masks in host order.  `prefixMask p` has its first `p` bits set; the bits outside
a mask are the host number of an address.  A host number is put into a subnet by `|||`, and the
lemmas say that mask and host number of the result are the ones put together.
-/

/-- The contiguous mask of prefix length `p`. -/
def prefixMask (p : ℕ) : UInt32 := ~~~(.ofNat (2 ^ (32 - p) - 1))

/-- The host number of address `a`. -/
def hostNumber (mask a : UInt32) : ℕ := (a &&& ~~~mask).toNat

variable {p : ℕ} {mask a x : UInt32}

/-- The largest host number. -/
theorem toNat_not_prefixMask (hp : 1 ≤ p) : (~~~(prefixMask p)).toNat = 2 ^ (32 - p) - 1 := by
  have hlt : 2 ^ (32 - p) ≤ 2 ^ 31 := Nat.pow_le_pow_right (by omega) (by omega)
  rw [prefixMask, UInt32.not_not]
  exact UInt32.toNat_ofNat_of_lt' (by simp only [UInt32.size]; omega)

/-- The bits of the largest host number are the bits outside the mask. -/
theorem and_prefixMask_eq_zero (hp : 1 ≤ p) (hx : x.toNat < 2 ^ (32 - p)) :
    x &&& prefixMask p = 0 := by
  have hin : x &&& ~~~(prefixMask p) = x := by
    rw [← UInt32.toNat_inj, UInt32.toNat_and, toNat_not_prefixMask hp]
    exact Nat.and_two_pow_sub_one_of_lt_two_pow hx
  rw [← hin, UInt32.and_assoc, UInt32.not_and_self, UInt32.and_zero]

/-- Bit by bit, one of two words without common bits is off. -/
theorem getElem_and_eq_false {i : ℕ} (h : x &&& mask = 0) (hi : i < 32) :
    (x.toBitVec[i] && mask.toBitVec[i]) = false := by
  have hbits := congrArg (fun w : UInt32 => w.toBitVec[i]) h
  simpa using hbits

/-- Host number `x` in the subnet of `a` is in the subnet of `a`. -/
theorem subnet_and (h : x &&& mask = 0) : ((a &&& mask) ||| x) &&& mask = a &&& mask := by
  rw [← UInt32.toBitVec_inj]
  ext i hi
  have hbit := getElem_and_eq_false h hi
  simp only [UInt32.toBitVec_and, UInt32.toBitVec_or, BitVec.getElem_and, BitVec.getElem_or]
  grind

/-- Host number `x` in the subnet of `a` has host number `x`. -/
theorem subnet_and_not (h : x &&& mask = 0) : ((a &&& mask) ||| x) &&& ~~~mask = x := by
  rw [← UInt32.toBitVec_inj]
  ext i hi
  have hbit := getElem_and_eq_false h hi
  simp only [UInt32.toBitVec_and, UInt32.toBitVec_or, UInt32.toBitVec_not, BitVec.getElem_and,
    BitVec.getElem_or, BitVec.getElem_not]
  grind

/-- The network address has host number 0. -/
theorem hostNumber_network : hostNumber mask (a &&& mask) = 0 := by
  rw [hostNumber, UInt32.and_assoc, UInt32.and_not_self, UInt32.and_zero]
  rfl

/-- The broadcast address has the largest host number. -/
theorem hostNumber_broadcast : hostNumber mask (a ||| ~~~mask) = (~~~mask).toNat := by
  rw [hostNumber]
  congr 1
  rw [← UInt32.toBitVec_inj]
  ext i hi
  simp only [UInt32.toBitVec_and, UInt32.toBitVec_or, UInt32.toBitVec_not, BitVec.getElem_and,
    BitVec.getElem_or, BitVec.getElem_not]
  grind

/-- An address is determined by its subnet and its host number. -/
theorem eq_of_subnet_of_hostNumber {b : UInt32} (hnet : a &&& mask = b &&& mask)
    (hhost : hostNumber mask a = hostNumber mask b) : a = b := by
  have hand : a &&& ~~~mask = b &&& ~~~mask := UInt32.toNat_inj.mp hhost
  rw [← UInt32.toBitVec_inj] at hnet hand ⊢
  ext i hi
  have h₁ := congrArg (fun w : BitVec 32 => w[i]) hnet
  have h₂ := congrArg (fun w : BitVec 32 => w[i]) hand
  simp only [UInt32.toBitVec_and, UInt32.toBitVec_not, BitVec.getElem_and,
    BitVec.getElem_not] at h₁ h₂
  grind

end SerialNet
