import Mathlib.Data.List.Infix
import SerialNet.Flash.Nor

namespace SerialNet

/-!
# What a sector write can touch

Whether its verifications succeed or not, `QSpiWriteOneSector` erases and programs nothing outside
of its sector, and it sends at least one program to the start of the sector.
-/

/-- A page program within the addresses from `lo` to `hi`. -/
def Within (lo hi : ℕ) (c : ℕ × ℕ) : Prop := lo ≤ c.1 ∧ c.1 < hi ∧ c.1 + c.2 ≤ hi

instance (lo hi : ℕ) (c : ℕ × ℕ) : Decidable (Within lo hi c) :=
  inferInstanceAs (Decidable (lo ≤ c.1 ∧ c.1 < hi ∧ c.1 + c.2 ≤ hi))

/-- From `f` to `f'` only addresses from `lo` to `hi` were programmed or changed. -/
structure Touched (lo hi : ℕ) (f f' : Flash) : Prop where
  programs : ∃ calls, f'.programs = calls ++ f.programs ∧ ∀ c ∈ calls, Within lo hi c
  mem : ∀ q, q < lo ∨ hi ≤ q → f'.mem q = f.mem q

namespace Touched

variable {lo hi lo' hi' : ℕ} {f f' f'' : Flash}

/-- An untouched flash. -/
theorem refl (f : Flash) : Touched lo hi f f := ⟨⟨[], rfl, by simp⟩, fun _ _ => rfl⟩

/-- Writes one after the other to the same range. -/
theorem trans (h : Touched lo hi f f') (h' : Touched lo hi f' f'') : Touched lo hi f f'' := by
  obtain ⟨calls, heq, hin⟩ := h.programs
  obtain ⟨calls', heq', hin'⟩ := h'.programs
  refine ⟨⟨calls' ++ calls, by rw [heq', heq, List.append_assoc], fun c hc => ?_⟩, fun q hq => ?_⟩
  · rcases List.mem_append.mp hc with hc | hc
    · exact hin' c hc
    · exact hin c hc
  · rw [h'.mem q hq, h.mem q hq]

/-- A write to a range is one to every larger range. -/
theorem mono (h : Touched lo hi f f') (hlo : lo' ≤ lo) (hhi : hi ≤ hi') : Touched lo' hi' f f' := by
  obtain ⟨calls, heq, hin⟩ := h.programs
  refine ⟨⟨calls, heq, fun c hc => ?_⟩, fun q hq => h.mem q (by omega)⟩
  obtain ⟨h1, h2, h3⟩ := hin c hc
  exact ⟨by omega, by omega, by omega⟩

end Touched

/-! ### Pages -/

/-- A page program at the start of a page. -/
theorem writeOnePage_touched (f : Flash) {adr : ℕ} {data : List UInt8}
    (halign : adr % flashPageSize = 0) (hend : adr + flashPageSize ≤ 16777216)
    (hdata : data.length ≤ flashPageSize) :
    Touched adr (adr + flashPageSize) f (qSpiFlashWriteOnePage f adr data) := by
  refine ⟨⟨[(adr, data.length)], rfl, fun c hc => ?_⟩, fun q hq => ?_⟩
  · rw [List.mem_singleton.mp hc]
    refine ⟨Nat.le_refl _, Nat.lt_add_of_pos_right (by decide), ?_⟩
    exact Nat.add_le_add_left hdata adr
  · have hpage : adr / flashPageSize * flashPageSize = adr := by
      unfold flashPageSize at *
      omega
    unfold qSpiFlashWriteOnePage
    rw [flashAdr_of_lt (show adr < 16777216 by unfold flashPageSize at hend; omega)]
    dsimp only
    rw [halign, hpage]
    exact (pageProgram_apply adr data f.mem 0 (by omega)).2 q (by omega)

/-- All attempts to write a page. -/
theorem writePage_touched (wrapped j : ℕ) {adr : ℕ} {data : List UInt8}
    (halign : adr % flashPageSize = 0) (hend : adr + flashPageSize ≤ 16777216)
    (hdata : data.length ≤ flashPageSize) : ∀ f,
    Touched adr (adr + flashPageSize) f (writePage wrapped f adr data j).1 := by
  induction j with
  | zero => exact fun f => Touched.refl f
  | succ j ih =>
    intro f
    have hfirst := writeOnePage_touched f halign hend hdata
    rw [writePage]
    split
    · exact hfirst
    · exact hfirst.trans (ih _)

/-- The pages are programmed in their range, whatever the programs answer. -/
theorem writeOneSectorLoop_touched (i : ℕ) : ∀ (f : Flash) (adr : ℕ) (pBuf : List UInt8),
    adr % flashPageSize = 0 → adr + i * flashPageSize ≤ 16777216 →
    Touched adr (adr + i * flashPageSize) f (qSpiWriteOneSectorLoop i f adr pBuf).1 := by
  induction i with
  | zero => exact fun f _ _ _ _ => Touched.refl f
  | succ i ih =>
    intro f adr pBuf halign hend
    have hsucc : (i + 1) * flashPageSize = flashPageSize + i * flashPageSize := by ring
    rw [hsucc] at hend ⊢
    have hpage := (writePage_touched 4294967295 10 halign (by omega)
      (List.length_take_le flashPageSize pBuf) f).mono (Nat.le_refl adr)
      (show adr + flashPageSize ≤ adr + (flashPageSize + i * flashPageSize) by omega)
    rw [qSpiWriteOneSectorLoop]
    split
    · exact hpage
    · rw [show u32 ((adr : ℤ) + flashPageSize) = adr + flashPageSize by
        unfold u32; unfold flashPageSize at *; omega]
      refine hpage.trans ((ih _ _ _ ?_ (by omega)).mono (by omega) (by omega))
      rw [Nat.add_mod_right]
      exact halign

/-- **`QSpiWriteOneSector`** stays within its sector. -/
theorem writeOneSector_touched (f : Flash) {adr : ℕ} (pBuf : List UInt8)
    (halign : adr % flashSectorSize = 0) (hend : adr + flashSectorSize ≤ 16777216) :
    Touched adr (adr + flashSectorSize) f (qSpiWriteOneSector f adr pBuf).1 := by
  have herase : Touched adr (adr + flashSectorSize) f (qSpiFlashEraseSector f adr) := by
    refine ⟨⟨[], rfl, by simp⟩, fun q hq => ?_⟩
    rw [qSpiFlashEraseSector_mem f halign hend, if_neg (by omega)]
  apply herase.trans
  have hpages : flashSectorSize / flashPageSize * flashPageSize = flashSectorSize := by decide
  have hloop := writeOneSectorLoop_touched (flashSectorSize / flashPageSize)
    (qSpiFlashEraseSector f adr) adr pBuf (by unfold flashSectorSize flashPageSize at *; omega)
    (by rw [hpages]; exact hend)
  rwa [hpages] at hloop

/-! ### The first page -/

/-- Programs are only added. -/
theorem writePage_suffix (wrapped : ℕ) (adr : ℕ) (data : List UInt8) (j : ℕ) : ∀ f : Flash,
    f.programs <:+ (writePage wrapped f adr data j).1.programs := by
  induction j with
  | zero => exact fun f => List.suffix_refl _
  | succ j ih =>
    intro f
    have hfirst : f.programs <:+ (qSpiFlashWriteOnePage f adr data).programs :=
      List.suffix_cons _ _
    rw [writePage]
    split
    · exact hfirst
    · exact hfirst.trans (ih _)

/-- The programs of before stay in the record. -/
theorem writeOneSectorLoop_suffix (i : ℕ) : ∀ (f : Flash) (adr : ℕ) (pBuf : List UInt8),
    f.programs <:+ (qSpiWriteOneSectorLoop i f adr pBuf).1.programs := by
  induction i with
  | zero => exact fun f _ _ => List.suffix_refl _
  | succ i ih =>
    intro f adr pBuf
    have hpage := writePage_suffix 4294967295 adr (pBuf.take flashPageSize) 10 f
    rw [qSpiWriteOneSectorLoop]
    split
    · exact hpage
    · exact hpage.trans (ih _ _ _)

/-- The first program of a sector goes to its start. -/
theorem writeOneSector_first (f : Flash) (adr : ℕ) (pBuf : List UInt8) :
    ∃ len, (adr, len) :: f.programs <:+ (qSpiWriteOneSector f adr pBuf).1.programs := by
  refine ⟨(pBuf.take flashPageSize).length, ?_⟩
  have hpage : (adr, (pBuf.take flashPageSize).length) :: f.programs <:+
      (writePage 4294967295 (qSpiFlashEraseSector f adr) adr (pBuf.take flashPageSize)
        (9 + 1)).1.programs := by
    rw [writePage]
    split
    · exact List.suffix_refl _
    · exact writePage_suffix 4294967295 adr _ 9
        (qSpiFlashWriteOnePage (qSpiFlashEraseSector f adr) adr (pBuf.take flashPageSize))
  show _ <:+ (qSpiWriteOneSectorLoop (15 + 1) _ adr pBuf).1.programs
  rw [qSpiWriteOneSectorLoop]
  split
  · exact hpage
  · exact hpage.trans (writeOneSectorLoop_suffix _ _ _ _)

end SerialNet
