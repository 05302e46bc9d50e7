import Mathlib.Data.List.Basic
import Mathlib.Data.Nat.Notation

namespace SerialNet

/-!
# Cyclic redundancy checks, bit by bit

The reflected form: the register is shifted to the right, the message comes least significant bit
first, and the polynomial is written in reflected order too.  A step is linear in the exclusive
or of registers and messages together, so that two such steps are equal as soon as they agree on
the single bits (`XorLinear.ext`).
-/

variable {u v w : ℕ}

/-! ### Maps linear in exclusive or -/

/-- The exclusive or of two arguments goes to the exclusive or of their values. -/
def XorLinear (f : BitVec w → BitVec v) : Prop := ∀ x y, f (x ^^^ y) = f x ^^^ f y

/-- The same for both arguments together. -/
def XorLinear₂ (f : BitVec w → BitVec v → BitVec u) : Prop :=
  ∀ x y a b, f (x ^^^ y) (a ^^^ b) = f x a ^^^ f y b

/-- A linear map sends 0 to 0. -/
theorem XorLinear.zero {f : BitVec w → BitVec v} (h : XorLinear f) : f 0 = 0 := by
  have hself := h 0 0
  rw [BitVec.xor_self, BitVec.xor_self] at hself
  exact hself

/-- One more bit of a number, as an exclusive or. -/
theorem setWidth_succ_eq_xor (x : BitVec w) {n : ℕ} (hbit : x.getLsbD n = true) :
    (x.setWidth (n + 1)).setWidth w = (x.setWidth n).setWidth w ^^^ BitVec.twoPow w n := by
  apply BitVec.eq_of_getLsbD_eq
  intro i hi
  simp only [BitVec.getLsbD_setWidth, BitVec.getLsbD_xor, BitVec.getLsbD_twoPow]
  grind

/-- **Linear maps that agree on the single bits are equal.** -/
theorem XorLinear.ext {f g : BitVec w → BitVec v} (hf : XorLinear f) (hg : XorLinear g)
    (h : ∀ i < w, f (BitVec.twoPow w i) = g (BitVec.twoPow w i)) (x : BitVec w) : f x = g x := by
  -- induction on the number of low bits of `x` that are there
  have hlow : ∀ n, n ≤ w → f ((x.setWidth n).setWidth w) = g ((x.setWidth n).setWidth w) := by
    intro n
    induction n with
    | zero =>
      intro _
      rw [show (x.setWidth 0).setWidth w = 0 by ext; simp, hf.zero, hg.zero]
    | succ n ih =>
      intro hn
      cases hbit : x.getLsbD n with
      | true => rw [setWidth_succ_eq_xor x hbit, hf, hg, ih (by omega), h n (by omega)]
      | false =>
        rw [BitVec.setWidth_setWidth_succ_eq_setWidth_setWidth_of_getLsbD_false hbit]
        exact ih (by omega)
  simpa using hlow w (Nat.le_refl w)

/-- A map that is linear in both arguments together is linear in the first. -/
theorem XorLinear₂.left {f : BitVec w → BitVec v → BitVec u} (h : XorLinear₂ f) :
    XorLinear fun x => f x 0 := fun x y => by
  have hxy := h x y 0 0
  rwa [BitVec.xor_self] at hxy

/-- A map that is linear in both arguments together is linear in the second. -/
theorem XorLinear₂.right {f : BitVec w → BitVec v → BitVec u} (h : XorLinear₂ f) :
    XorLinear (f 0) := fun a b => by
  have hab := h 0 0 a b
  rwa [BitVec.xor_self] at hab

/-- The two arguments act on their own. -/
theorem XorLinear₂.split {f : BitVec w → BitVec v → BitVec u} (h : XorLinear₂ f) (x : BitVec w)
    (a : BitVec v) : f x a = f x 0 ^^^ f 0 a := by
  have hsum := h x 0 0 a
  rwa [show x ^^^ 0 = x from BitVec.xor_zero, show 0 ^^^ a = a from BitVec.zero_xor] at hsum

/-- Maps linear in both arguments that agree on the single bits of each are equal. -/
theorem XorLinear₂.ext {f g : BitVec w → BitVec v → BitVec u} (hf : XorLinear₂ f)
    (hg : XorLinear₂ g) (hleft : ∀ i < w, f (BitVec.twoPow w i) 0 = g (BitVec.twoPow w i) 0)
    (hright : ∀ i < v, f 0 (BitVec.twoPow v i) = g 0 (BitVec.twoPow v i))
    (x : BitVec w) (a : BitVec v) : f x a = g x a := by
  rw [hf.split, hg.split, hf.left.ext hg.left hleft x, hf.right.ext hg.right hright a]

/-! ### The checksum -/

/-- The register after one bit of the message. -/
def crcShift (poly r : BitVec w) (b : Bool) : BitVec w :=
  (r >>> 1) ^^^ if r.getLsbD 0 ^^ b then poly else 0

/-- The register after the bits `idxs` of a byte. -/
def crcFold (poly : BitVec w) (idxs : List ℕ) (r : BitVec w) (d : BitVec 8) : BitVec w :=
  idxs.foldl (fun r i => crcShift poly r (d.getLsbD i)) r

/-- The register after a byte, its least significant bit first. -/
def crcByte (poly r : BitVec w) (d : BitVec 8) : BitVec w := crcFold poly (List.range 8) r d

/-- The register after a message. -/
def crcBytes (poly : BitVec w) (data : List UInt8) (init : BitVec w) : BitVec w :=
  data.foldl (fun r d => crcByte poly r d.toBitVec) init

/-- The CRC-32 of IEEE 802.3. -/
def crc32 (data : List UInt8) : BitVec 32 :=
  crcBytes 0xEDB88320#32 data 0xFFFFFFFF#32 ^^^ 0xFFFFFFFF#32

/-- The CRC-8 of polynomial 0x07, without initial value and final exclusive or. -/
def crc8 (data : List UInt8) : BitVec 8 := crcBytes 0xE0#8 data 0

/-- The register shifts linearly: the polynomial is added once, or twice and so not at all. -/
theorem crcShift_xor (poly r r' : BitVec w) (b b' : Bool) :
    crcShift poly (r ^^^ r') (b ^^ b') = crcShift poly r b ^^^ crcShift poly r' b' := by
  apply BitVec.eq_of_getLsbD_eq
  intro i _
  have hif : ∀ c : Bool, (if c then poly else 0).getLsbD i = (c && poly.getLsbD i) := by
    intro c
    cases c <;> simp
  simp only [crcShift, BitVec.getLsbD_xor, BitVec.getLsbD_ushiftRight, hif]
  -- the polynomial is added for each of the two or not, whether it has this bit or not
  cases poly.getLsbD i with
  | true => simp only [Bool.and_true, Bool.xor_assoc, Bool.xor_left_comm]
  | false => simp only [Bool.and_false, Bool.xor_false]

/-- Any number of shifts is linear. -/
theorem crcFold_linear (poly : BitVec w) (idxs : List ℕ) : XorLinear₂ (crcFold poly idxs) := by
  intro x y a b
  induction idxs generalizing x y with
  | nil => rfl
  | cons i idxs ih =>
    show crcFold poly idxs (crcShift poly (x ^^^ y) ((a ^^^ b).getLsbD i)) (a ^^^ b) = _
    rw [BitVec.getLsbD_xor, crcShift_xor, ih]
    rfl

/-- A byte of the checksum is linear in register and byte together. -/
theorem crcByte_linear (poly : BitVec w) : XorLinear₂ (crcByte poly) :=
  crcFold_linear poly (List.range 8)

/-- The first byte goes in first. -/
theorem crcBytes_cons (poly : BitVec w) (d : UInt8) (data : List UInt8) (r : BitVec w) :
    crcBytes poly (d :: data) r = crcBytes poly data (crcByte poly r d.toBitVec) := rfl

end SerialNet
