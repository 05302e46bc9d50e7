import SerialNet.Flash.Nor
import SerialNet.Lib.Window

namespace SerialNet

/-!
# `WriteFlash` — update of a byte range

`WriteFlash` goes through the sectors of the range.  A part of a sector that is still erased is
programmed directly; otherwise the sector is read into a buffer, erased, and written back with
the new bytes.  Either way a turn of the loop replaces its part and nothing else
(`writeSector_spec`), so the whole call is a copy of the data (`writeFlash_exact`).
-/

/-- One turn of the loop: write the first `secreMain` bytes of `pData` to offset `sectorOff` of
    the sector, which is address `writeAddr`. -/
def writeSector (f : Flash) (sectorNum sectorOff secreMain : ℕ) (pData : List UInt8)
    (writeAddr : ℕ) : Option (Flash × ℤ) :=
  let sector := u32 (sectorNum * flashSectorSize)
  let flashBuf := qSpiFlashRead f sector flashSectorSize
  -- the first byte that is not erased
  let i := ((flashBuf.drop sectorOff).take secreMain).findIdx (· != 255)
  if i < secreMain then
    qSpiWriteAny (qSpiFlashEraseSector f sector) sector
      (writeAt flashBuf sectorOff (pData.take secreMain)) flashSectorSize
  else qSpiWriteAny f writeAddr pData secreMain

/-- The loop of `WriteFlash`, for at most `fuel` sectors. -/
def writeFlashLoop : ℕ → Flash → ℕ → ℕ → ℕ → List UInt8 → ℕ → ℕ → Option Flash
  | 0, _, _, _, _, _, _, _ => none
  | fuel + 1, f, sectorNum, sectorOff, secreMain, pData, writeAddr, dataLen =>
    (writeSector f sectorNum sectorOff secreMain pData writeAddr).bind fun r =>
      if r.2 ≠ 0 then some r.1
      else if dataLen = secreMain then some r.1
      else
        let dataLen := u32 (dataLen - secreMain)
        writeFlashLoop fuel r.1 (u8 (sectorNum + 1)) 0
          (u16 (if dataLen > flashSectorSize then flashSectorSize else dataLen : ℕ))
          (pData.drop secreMain) (u32 (writeAddr + secreMain)) dataLen

/-- `WriteFlash`; `OSMMalloc` of the sector buffer is taken to succeed. -/
def writeFlash (f : Flash) (pData : List UInt8) (dataLen burnStartPos : ℕ) : Option Flash :=
  let sectorNum := u8 (burnStartPos / flashSectorSize : ℕ)
  let sectorOff := u16 (burnStartPos % flashSectorSize : ℕ)
  let secreMain := u16 (flashSectorSize - sectorOff)
  writeFlashLoop (dataLen + 1) f sectorNum sectorOff
    (if dataLen ≤ secreMain then u16 dataLen else secreMain) pData burnStartPos dataLen

/-- Replacing a part of a sector in its copy and storing the copy is storing the part. -/
theorem storeBytes_writeAt_loadBytes (m : Memory) (p n off : ℕ) {xs : List UInt8}
    (h : off + xs.length ≤ n) :
    storeBytes m p (writeAt (loadBytes m p n) off xs) = storeBytes m (p + off) xs := by
  have hlength : (writeAt (loadBytes m p n) off xs).length = n := by
    rw [length_writeAt (by rw [length_loadBytes]; omega), length_loadBytes]
  refine eq_storeBytes (fun i hi => ?_) fun q hq => ?_
  · have hget : (writeAt (loadBytes m p n) off xs)[off + i]? = xs[off + i - off]? :=
      getElem?_writeAt_inside (by rw [length_loadBytes]; omega) (by omega) (by omega)
    rw [Nat.add_assoc, storeBytes_inside m p (by rw [hlength]; omega)]
    rw [List.getElem?_eq_getElem (by rw [hlength]; omega), Nat.add_sub_cancel_left,
      List.getElem?_eq_getElem hi] at hget
    exact Option.some.inj hget
  · by_cases hin : p ≤ q ∧ q < p + n
    · obtain ⟨i, rfl⟩ := Nat.exists_eq_add_of_le hin.1
      have hget : (writeAt (loadBytes m p n) off xs)[i]? = (loadBytes m p n)[i]? :=
        getElem?_writeAt_outside (by rw [length_loadBytes]; omega) (by omega)
      rw [storeBytes_inside m p (by rw [hlength]; omega)]
      rw [List.getElem?_eq_getElem (by rw [hlength]; omega),
        List.getElem?_eq_getElem (by rw [length_loadBytes]; omega), getElem_loadBytes] at hget
      exact Option.some.inj hget
    · exact storeBytes_outside m (by rw [hlength]; omega)

/-- No byte before the end of the part differs from `0xFF`: the part can be programmed. -/
theorem erased_of_findIdx (f : Flash) {p n off k : ℕ} {data : List UInt8} (h : off + k ≤ n)
    (hdata : data.length = k)
    (hidx : ¬ (((loadBytes f.mem p n).drop off).take k).findIdx (· != 255) < k) :
    Erased f (p + off) data := erased_of_ones fun q h1 h2 => by
  obtain ⟨i, rfl⟩ := Nat.exists_eq_add_of_le h1
  have hi : i < (((loadBytes f.mem p n).drop off).take k).length := by simp; omega
  have hbyte := List.not_of_lt_findIdx (show i < _ from lt_of_lt_of_le (by omega) (not_lt.mp hidx))
  simpa [Nat.add_assoc] using hbyte

/-- **One sector**: exactly its part of the range is replaced. -/
theorem writeSector_spec (f : Flash) {sectorNum sectorOff secreMain : ℕ} {pData : List UInt8}
    (hnum : sectorNum < 256) (hpos : 0 < secreMain) (hdata : secreMain ≤ pData.length)
    (hoff : sectorOff + secreMain ≤ flashSectorSize) :
    ∃ f', writeSector f sectorNum sectorOff secreMain pData
        (sectorNum * flashSectorSize + sectorOff) = some (f', 0) ∧
      f'.mem = storeBytes f.mem (sectorNum * flashSectorSize + sectorOff) (pData.take secreMain) ∧
      WithinPages f f' := by
  have hsector : u32 ((sectorNum : ℤ) * flashSectorSize) = sectorNum * flashSectorSize := by
    unfold u32 flashSectorSize
    omega
  have halign : sectorNum * flashSectorSize % flashSectorSize = 0 := Nat.mul_mod_left ..
  have hend : sectorNum * flashSectorSize + flashSectorSize ≤ 16777216 := by
    unfold flashSectorSize
    omega
  have hlength : (pData.take secreMain).length = secreMain := by simp; omega
  rw [writeSector, hsector, qSpiFlashRead_eq f hend]
  generalize sectorNum * flashSectorSize = sector at *
  -- a byte that is not erased makes the whole sector be rewritten
  by_cases hwritten : (((loadBytes f.mem sector flashSectorSize).drop sectorOff).take
      secreMain).findIdx (· != 255) < secreMain
  · rw [if_pos hwritten]
    set buf := writeAt (loadBytes f.mem sector flashSectorSize) sectorOff (pData.take secreMain)
      with hbuf
    have hbuflen : buf.length = flashSectorSize := by
      rw [hbuf, length_writeAt (by rw [length_loadBytes]; omega), length_loadBytes]
    have hall : buf.take flashSectorSize = buf := List.take_of_length_le hbuflen.le
    obtain ⟨f', hwrite, hmem, hpages⟩ := qSpiWriteAny_spec (by decide) hbuflen.ge (by decide) hend
      (by rw [hall]; exact erased_sector f halign hend hbuflen)
    refine ⟨f', hwrite, ?_, hpages⟩
    rw [hmem, hall, storeBytes_erased f halign hend hbuflen, hbuf,
      storeBytes_writeAt_loadBytes _ _ _ _ (by omega)]
  · rw [if_neg hwritten]
    unfold flashSectorSize at hoff hend
    exact qSpiWriteAny_spec hpos hdata (by omega) (by omega)
      (erased_of_findIdx f (by unfold flashSectorSize; omega) hlength hwritten)

/-- The loop: what is left of the range starts in sector `sectorNum` and this turn's part ends
    at the end of the sector or of the range. -/
theorem writeFlashLoop_spec (fuel : ℕ) : ∀ (f : Flash) (sectorNum sectorOff secreMain : ℕ)
    (pData : List UInt8), pData.length ≤ fuel → 0 < secreMain → secreMain ≤ pData.length →
    sectorOff + secreMain ≤ flashSectorSize →
    (secreMain = pData.length ∨ sectorOff + secreMain = flashSectorSize) →
    sectorNum * flashSectorSize + sectorOff + pData.length ≤ 1048576 →
    ∃ f', writeFlashLoop fuel f sectorNum sectorOff secreMain pData
        (sectorNum * flashSectorSize + sectorOff) pData.length = some f' ∧
      f'.mem = storeBytes f.mem (sectorNum * flashSectorSize + sectorOff) pData ∧
      WithinPages f f' := by
  induction fuel with
  | zero =>
    intro f sectorNum sectorOff secreMain pData hfuel hpos hle _ _ _
    omega
  | succ fuel ih =>
    intro f sectorNum sectorOff secreMain pData hfuel hpos hle hoff hnext hend
    have hnum : sectorNum < 256 := by
      unfold flashSectorSize at hend
      omega
    obtain ⟨f₁, hwrite, hmem, hpages⟩ := writeSector_spec f hnum hpos hle hoff
    rw [writeFlashLoop, hwrite, Option.bind_some, if_neg fun h => h rfl]
    -- the range ends in this sector
    by_cases hlast : pData.length = secreMain
    · rw [if_pos hlast]
      rw [List.take_of_length_le hlast.le] at hmem
      exact ⟨f₁, rfl, hmem, hpages⟩
    · rw [if_neg hlast]
      have hboundary := hnext.resolve_left (Ne.symm hlast)
      have hlength : (pData.drop secreMain).length = pData.length - secreMain := by simp
      -- otherwise this part ends at the sector boundary, where the next turn starts
      have haddr : sectorNum * flashSectorSize + sectorOff + secreMain
          = (sectorNum + 1) * flashSectorSize + 0 := by
        rw [Nat.add_mul]
        omega
      have hrest : (sectorNum + 1) * flashSectorSize + 0 + (pData.drop secreMain).length
          ≤ 1048576 := by
        rw [← haddr, hlength]
        omega
      unfold flashSectorSize at hboundary hoff hend haddr ⊢
      rw [show u32 ((pData.length : ℤ) - secreMain) = pData.length - secreMain by
          unfold u32; omega,
        show u32 (((sectorNum * 4096 + sectorOff : ℕ) : ℤ) + secreMain)
          = (sectorNum + 1) * 4096 + 0 by unfold u32; omega,
        show u8 ((sectorNum : ℤ) + 1) = sectorNum + 1 by unfold u8; omega]
      -- the `u8`, `u16` and `u32` of the new locals change nothing below 1 MB
      obtain ⟨f', hloop, hmem', hpages'⟩ := ih f₁ (sectorNum + 1) 0
        (u16 (if pData.length - secreMain > 4096 then 4096 else pData.length - secreMain : ℕ))
        (pData.drop secreMain) (by omega) (by unfold u16; split <;> omega)
        (by unfold u16; split <;> omega) (by unfold u16 flashSectorSize; split <;> omega)
        (by unfold u16 flashSectorSize; split <;> omega) hrest
      unfold flashSectorSize at hloop hmem' hmem
      rw [hlength] at hloop
      refine ⟨f', hloop, ?_, hpages.trans hpages'⟩
      have happend := storeBytes_append f.mem (sectorNum * 4096 + sectorOff)
        (pData.take secreMain) (pData.drop secreMain)
      rw [List.length_take, Nat.min_eq_left hle, haddr, List.take_append_drop] at happend
      rw [hmem', hmem, happend]

/-- **`WriteFlash` is an exact update of a byte range.**  For every content of a flash of at
    most 1 MB and every range in it the call ends, the range has the data, every other byte is
    as before, and no page program runs past the end of its page. -/
theorem writeFlash_exact (f : Flash) {data : List UInt8} {addr : ℕ} (hpos : 1 ≤ data.length)
    (hend : addr + data.length ≤ 1048576) :
    ∃ f', writeFlash f data data.length addr = some f' ∧
      (∀ i, ∀ h : i < data.length, f'.mem (addr + i) = data[i]) ∧
      (∀ q, q < addr ∨ addr + data.length ≤ q → f'.mem q = f.mem q) ∧ WithinPages f f' := by
  have hnum : u8 ((addr / flashSectorSize : ℕ) : ℤ) = addr / flashSectorSize := by
    unfold u8 flashSectorSize
    omega
  have hoff : u16 ((addr % flashSectorSize : ℕ) : ℤ) = addr % flashSectorSize := by
    unfold u16 flashSectorSize
    omega
  have hmain : u16 ((flashSectorSize : ℤ) - (addr % flashSectorSize : ℕ))
      = flashSectorSize - addr % flashSectorSize := by
    unfold u16 flashSectorSize
    omega
  have haddr : addr / flashSectorSize * flashSectorSize + addr % flashSectorSize = addr := by
    unfold flashSectorSize
    omega
  -- the first part: up to the end of the sector, or all of the range
  have hloop := writeFlashLoop_spec (data.length + 1) f (addr / flashSectorSize)
    (addr % flashSectorSize)
    (if data.length ≤ flashSectorSize - addr % flashSectorSize then u16 data.length
      else flashSectorSize - addr % flashSectorSize) data (by omega)
    (by unfold u16 flashSectorSize; split <;> omega)
    (by unfold u16 flashSectorSize; split <;> omega)
    (by unfold u16 flashSectorSize; split <;> omega)
    (by unfold u16 flashSectorSize; split <;> omega) (by rw [haddr]; exact hend)
  rw [haddr] at hloop
  obtain ⟨f', hwrite, hmem, hpages⟩ := hloop
  refine ⟨f', ?_, fun i hi => ?_, fun q hq => ?_, hpages⟩
  · rw [writeFlash, hnum, hoff, hmain]
    exact hwrite
  · rw [hmem, storeBytes_inside _ _ hi]
  · rw [hmem, storeBytes_outside _ hq]

/-- Three bytes across the end of the first sector. -/
theorem writeFlash_exact_three_bytes :
    ∃ f', writeFlash ⟨fun _ => 7, []⟩ [1, 2, 3] 3 4094 = some f' ∧ f'.mem 4096 = 3 ∧
      f'.mem 4097 = 7 := by
  obtain ⟨f', hwrite, hin, hout, -⟩ := writeFlash_exact ⟨fun _ => 7, []⟩
    (show 1 ≤ [1, 2, 3].length by decide) (show 4094 + _ ≤ _ by decide)
  exact ⟨f', hwrite, hin 2 (by decide), hout 4097 (by decide)⟩

end SerialNet
