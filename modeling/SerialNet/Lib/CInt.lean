import Mathlib.Tactic.Ring
import Mathlib.Data.Int.Basic

namespace SerialNet

/-!
# 32-bit C integers

`unsigned int` values are kept as `ℕ`, `int` values as `ℤ`; a C expression is
evaluated exactly and then brought into range by `u32` (reduction modulo `2^32`)
or `i32` (two's complement).  The lemmas say when the reduction does nothing, which
is how the arithmetic of a well-formed state is read off.
-/

/-- The value of an `unsigned int` expression whose exact value is `x`. -/
def u32 (x : ℤ) : ℕ := (x % 4294967296).toNat

/-- The value stored in an `unsigned char`. -/
def u8 (x : ℤ) : ℕ := (x % 256).toNat

/-- The value stored in a `signed char`. -/
def i8 (x : ℤ) : ℤ := (x + 128) % 256 - 128

/-- The value stored in an `unsigned short`. -/
def u16 (x : ℤ) : ℕ := (x % 65536).toNat

/-- The value of an `int` expression whose exact (or unsigned) value is `x`. -/
def i32 (x : ℤ) : ℤ := (x + 2147483648) % 4294967296 - 2147483648

/-- A number of 32 bits. -/
theorem u32_lt (x : ℤ) : u32 x < 4294967296 := by unfold u32; omega

/-- No `signed char` is greater than 127. -/
theorem i8_le (x : ℤ) : ¬ i8 x > 127 := by unfold i8; omega

/-- An in-range value is stored unchanged. -/
theorem u32_natCast {n : ℕ} (h : n < 4294967296) : u32 n = n := by unfold u32; omega

/-- A number keeps its low byte. -/
theorem u8_natCast (n : ℕ) : u8 n = n % 256 := by unfold u8; omega

/-- A natural number is cut to 16 bits. -/
theorem u16_natCast (n : ℕ) : u16 n = n % 65536 := by unfold u16; omega

/-- A product that fits is exact. -/
theorem u32_mul {m n : ℕ} (h : m * n < 4294967296) : u32 ((m : ℤ) * n) = m * n := by
  rw [← Nat.cast_mul]
  exact u32_natCast h

/-- Through `int` and back an `unsigned int` is unchanged. -/
theorem u32_i32_u32 (x : ℤ) : u32 (i32 (u32 x)) = u32 x := by unfold i32 u32; omega

end SerialNet
