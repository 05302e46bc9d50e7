import SerialNet.Lib.Bytes
import SerialNet.Lib.CInt

namespace SerialNet

/-!
# `util.c` — `NST_MoveMemOvlap`

The copy goes from the last byte to the first when the destination is behind the source, and from
the first to the last otherwise.  Pointers are 32-bit addresses; after the last byte of a range
that ends with the address space they wrap round, but are not used any more.
-/

/-- The loop that starts from the last byte. -/
def moveMemDown : ℕ → Memory → ℕ → ℕ → Memory
  | 0, m, _, _ => m
  | size + 1, m, pDstStart, pSrcStart =>
      moveMemDown size (store8 m pDstStart (m pSrcStart)) (u32 ((pDstStart : ℤ) - 1))
        (u32 ((pSrcStart : ℤ) - 1))

/-- The loop that starts from the first byte. -/
def moveMemUp : ℕ → Memory → ℕ → ℕ → Memory
  | 0, m, _, _ => m
  | size + 1, m, pDst, pSrc =>
      moveMemUp size (store8 m pDst (m pSrc)) (u32 ((pDst : ℤ) + 1)) (u32 ((pSrc : ℤ) + 1))

/-- `NST_MoveMemOvlap`. -/
def nstMoveMemOvlap (m : Memory) (pDst pSrc size : ℕ) : Memory :=
  if pDst > pSrc then
    moveMemDown size m (u32 ((pDst : ℤ) + size - 1)) (u32 ((pSrc : ℤ) + size - 1))
  else moveMemUp size m pDst pSrc

/-! ### One byte and the rest -/

/-- A byte right behind a block, stored before it. -/
theorem storeBytes_store8_behind (m : Memory) (p : ℕ) (xs : List UInt8) (b : UInt8) :
    storeBytes (store8 m (p + xs.length) b) p xs = storeBytes m p (xs ++ [b]) := by
  rw [← storeBytes_append, ← store8_eq_storeBytes]
  funext q
  by_cases hq : q = p + xs.length
  · rw [hq, storeBytes_outside _ (by omega), store8_self, store8_self]
  · rw [store8_of_ne hq]
    by_cases hin : p ≤ q ∧ q < p + xs.length
    · exact storeBytes_congr _ _ hin.1 hin.2
    · rw [storeBytes_outside _ (by omega), storeBytes_outside _ (by omega), store8_of_ne hq]

/-- From the first byte on: what is overwritten before the source is read has been copied. -/
theorem moveMemUp_eq (size : ℕ) : ∀ (m : Memory) (pDst pSrc : ℕ), pDst ≤ pSrc →
    pSrc + size ≤ 4294967296 →
    moveMemUp size m (u32 pDst) (u32 pSrc) = storeBytes m pDst (loadBytes m pSrc size) := by
  induction size with
  | zero =>
    intro m pDst pSrc _ _
    exact eq_storeBytes (fun i hi => absurd hi (Nat.not_lt_zero i)) fun _ _ => rfl
  | succ size ih =>
    intro m pDst pSrc hle hend
    rw [u32_natCast (show pDst < 4294967296 by omega),
      u32_natCast (show pSrc < 4294967296 by omega), moveMemUp]
    rw [← Nat.cast_succ, ← Nat.cast_succ, ih _ (pDst + 1) (pSrc + 1) (by omega) (by omega)]
    -- the bytes of the source that are still to be read lie behind the one just written
    have hsource : loadBytes (store8 m pDst (m pSrc)) (pSrc + 1) size
        = loadBytes m (pSrc + 1) size :=
      loadBytes_congr fun x hx _ => store8_of_ne (by omega)
    rw [hsource, store8_eq_storeBytes]
    have happend := storeBytes_append m pDst [m pSrc] (loadBytes m (pSrc + 1) size)
    rw [List.length_singleton] at happend
    rw [happend, Nat.add_comm size 1, loadBytes_add]
    rfl

/-- From the last byte on: the bytes still to be read lie in front of what is overwritten. -/
theorem moveMemDown_eq (size : ℕ) : ∀ (m : Memory) (pDst pSrc : ℕ), pSrc < pDst →
    pDst + size ≤ 4294967296 →
    moveMemDown size m (u32 ((pDst : ℤ) + size - 1)) (u32 ((pSrc : ℤ) + size - 1))
      = storeBytes m pDst (loadBytes m pSrc size) := by
  induction size with
  | zero =>
    intro m pDst pSrc _ _
    exact eq_storeBytes (fun i hi => absurd hi (Nat.not_lt_zero i)) fun _ _ => rfl
  | succ size ih =>
    intro m pDst pSrc hlt hend
    have hlast : ∀ p : ℕ, p + (size + 1) ≤ 4294967296 →
        u32 ((p : ℤ) + (size + 1 : ℕ) - 1) = p + size := by
      intro p hp
      unfold u32
      omega
    rw [hlast pDst hend, hlast pSrc (by omega), moveMemDown, Nat.cast_add, Nat.cast_add,
      ih _ pDst pSrc hlt (by omega)]
    have hsource : loadBytes (store8 m (pDst + size) (m (pSrc + size))) pSrc size
        = loadBytes m pSrc size :=
      loadBytes_congr fun x _ hx => store8_of_ne (by omega)
    have hbehind := storeBytes_store8_behind m pDst (loadBytes m pSrc size) (m (pSrc + size))
    rw [length_loadBytes] at hbehind
    rw [hsource, hbehind, loadBytes_add]
    rfl

/-- The whole effect of `NST_MoveMemOvlap`. -/
theorem nstMoveMemOvlap_eq (m : Memory) {pDst pSrc size : ℕ} (hdst : pDst + size ≤ 4294967296)
    (hsrc : pSrc + size ≤ 4294967296) :
    nstMoveMemOvlap m pDst pSrc size = storeBytes m pDst (loadBytes m pSrc size) := by
  unfold nstMoveMemOvlap
  by_cases hlt : pDst > pSrc
  · rw [if_pos hlt]
    exact moveMemDown_eq size m pDst pSrc hlt hdst
  · rw [if_neg hlt]
    have hup := moveMemUp_eq size m pDst pSrc (by omega) hsrc
    cases size with
    | zero => exact hup
    | succ size => rwa [u32_natCast (by omega), u32_natCast (by omega)] at hup

/-- **`NST_MoveMemOvlap`** moves the source, however the ranges overlap, and nothing else. -/
theorem nstMoveMemOvlap_spec (m : Memory) {pDst pSrc size : ℕ}
    (hdst : pDst + size ≤ 4294967296) (hsrc : pSrc + size ≤ 4294967296) :
    loadBytes (nstMoveMemOvlap m pDst pSrc size) pDst size = loadBytes m pSrc size ∧
      ∀ q, q < pDst ∨ pDst + size ≤ q → nstMoveMemOvlap m pDst pSrc size q = m q := by
  rw [nstMoveMemOvlap_eq m hdst hsrc]
  constructor
  · have hload := loadBytes_storeBytes m pDst (loadBytes m pSrc size)
    rwa [length_loadBytes] at hload
  · intro q hq
    exact storeBytes_outside m (by rwa [length_loadBytes])

/-- Eight bytes moved on by three. -/
theorem nstMoveMemOvlap_spec_three :
    let m : Memory := fun q => UInt8.ofNat q
    loadBytes (nstMoveMemOvlap m 19 16 8) 19 8 = [16, 17, 18, 19, 20, 21, 22, 23] ∧
      nstMoveMemOvlap m 19 16 8 18 = 18 ∧ nstMoveMemOvlap m 19 16 8 27 = 27 := by
  intro m
  obtain ⟨hmoved, hframe⟩ := nstMoveMemOvlap_spec m (show 19 + 8 ≤ 4294967296 by decide)
    (show 16 + 8 ≤ 4294967296 by decide)
  exact ⟨hmoved, hframe 18 (by decide), hframe 27 (by decide)⟩

end SerialNet
