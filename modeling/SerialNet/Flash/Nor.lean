import SerialNet.Lib.Bytes
import SerialNet.Lib.CInt

namespace SerialNet

/-!
# `flash.c` — the serial NOR flash

The device: a sector erase sets the 4096 bytes of one sector to `0xFF`; a page program ANDs
its data into one page of 256 bytes, continuing at the start of the page when it runs past its
end.  A command carries 24 bits of address.  `Flash` is the content together with the page
programs that were sent, the latest first.

* `qSpiFlashRead_eq` — the chunked read is one read;
* `qSpiFlashWriteOnePage_mem` — a program that stays within its page;
* `qSpiWriteAny_spec`, `qSpiWriteOneSector_spec` — the verified writes of `flash.c`.
-/

/-- The flash, and the address and length of every `QSpiFlashWriteOnePage`. -/
structure Flash where
  mem : Memory
  programs : List (ℕ × ℕ)

/-- `FLASH_PAGE_SIZE`, the most that one program command writes. -/
def flashPageSize : ℕ := 256
/-- `FLASH_SECTOR_SIZE`, what one erase command clears. -/
def flashSectorSize : ℕ := 4096
/-- `MAX_FLASH_RD_SIZE`, the most that one read command returns. -/
def maxFlashRdSize : ℕ := 65536

/-- The address a command with the three bytes of `x` reaches. -/
def flashAdr (x : ℕ) : ℕ := x % 16777216

/-! ### The device commands -/

/-- Program `data` from offset `k` of the page at `page` on. -/
def pageProgram (m : Memory) (page : ℕ) : ℕ → List UInt8 → Memory
  | _, [] => m
  | k, b :: data =>
      pageProgram (store8 m (page + k % flashPageSize) (m (page + k % flashPageSize) &&& b))
        page (k + 1) data

/-- `QSpiFlashRead`: chunks of at most `MAX_FLASH_RD_SIZE` bytes, for `fuel` turns. -/
def qSpiFlashReadLoop (m : Memory) (len : ℕ) : ℕ → ℕ → ℕ → List UInt8
  | 0, _, _ => []
  | fuel + 1, readAddr, dnldByteCnt =>
    if len > dnldByteCnt then
      let rdCnt := if len - dnldByteCnt > maxFlashRdSize then maxFlashRdSize else len - dnldByteCnt
      loadBytes m (flashAdr readAddr) rdCnt
        ++ qSpiFlashReadLoop m len fuel (u32 (readAddr + rdCnt)) (dnldByteCnt + rdCnt)
    else []

/-- `QSpiFlashRead`. -/
def qSpiFlashRead (f : Flash) (readStartPos len : ℕ) : List UInt8 :=
  qSpiFlashReadLoop f.mem len len readStartPos 0

/-- `QSpiFlashEraseSector`. -/
def qSpiFlashEraseSector (f : Flash) (sectorAddr : ℕ) : Flash :=
  let base := flashAdr sectorAddr / flashSectorSize * flashSectorSize
  { f with mem := fun q => if base ≤ q ∧ q < base + flashSectorSize then 255 else f.mem q }

/-- `QSpiFlashWriteOnePage`. -/
def qSpiFlashWriteOnePage (f : Flash) (adr : ℕ) (data : List UInt8) : Flash :=
  let flashAdr := flashAdr adr
  { mem := pageProgram f.mem (flashAdr / flashPageSize * flashPageSize) (flashAdr % flashPageSize)
      data
    programs := (adr, data.length) :: f.programs }

/-! ### The verified writes -/

/-- The loop `while (j--)` around a page write and its verification: the flash and `j` after
    it.  When the attempts run out, `j` wraps around to `wrapped`. -/
def writePage (wrapped : ℕ) (f : Flash) (writeAddr : ℕ) (data : List UInt8) : ℕ → Flash × ℕ
  | 0 => (f, wrapped)
  | j + 1 =>
    let f := qSpiFlashWriteOnePage f writeAddr data
    if qSpiFlashRead f writeAddr data.length = data then (f, j)
    else writePage wrapped f writeAddr data j

/-- The loop of `QSpiWriteAny`, for at most `fuel` pages. -/
def qSpiWriteAnyLoop : ℕ → Flash → ℕ → List UInt8 → ℕ → ℕ → Option (Flash × ℤ)
  | 0, _, _, _, _, _ => none
  | fuel + 1, f, writeAddr, pData, dataLen, pageremain =>
    let r := writePage 65535 f writeAddr (pData.take pageremain) 10
    if r.2 = 0 then some (r.1, -1)
    else if dataLen = pageremain then some (r.1, 0)
    else
      let dataLen := u16 (dataLen - pageremain)
      qSpiWriteAnyLoop fuel r.1 (u32 (writeAddr + pageremain)) (pData.drop pageremain) dataLen
        (if dataLen > flashPageSize then flashPageSize else dataLen)

/-- `QSpiWriteAny`: write `dataLen` bytes page by page; `none` if the loop does not end. -/
def qSpiWriteAny (f : Flash) (writeAddr : ℕ) (pData : List UInt8) (dataLen : ℕ) :
    Option (Flash × ℤ) :=
  let pageremain := u16 (flashPageSize - (writeAddr % flashPageSize : ℕ))
  qSpiWriteAnyLoop (dataLen + 1) f writeAddr pData dataLen
    (if dataLen ≤ pageremain then dataLen else pageremain)

/-- The loop of `QSpiWriteOneSector`, for `i` more pages. -/
def qSpiWriteOneSectorLoop : ℕ → Flash → ℕ → List UInt8 → Flash × ℤ
  | 0, f, _, _ => (f, 0)
  | i + 1, f, writeAddr, pBuf =>
    let r := writePage 4294967295 f writeAddr (pBuf.take flashPageSize) 10
    if r.2 = 0 then (r.1, -1)
    else qSpiWriteOneSectorLoop i r.1 (u32 (writeAddr + flashPageSize)) (pBuf.drop flashPageSize)

/-- `QSpiWriteOneSector`: erase a sector and write its pages. -/
def qSpiWriteOneSector (f : Flash) (sectorAddr : ℕ) (pBuf : List UInt8) : Flash × ℤ :=
  qSpiWriteOneSectorLoop (flashSectorSize / flashPageSize) (qSpiFlashEraseSector f sectorAddr)
    sectorAddr pBuf

/-! ### Reading -/

/-- Addresses below 16 MB are sent as they are. -/
theorem flashAdr_of_lt {x : ℕ} (h : x < 16777216) : flashAdr x = x := Nat.mod_eq_of_lt h

/-- The remaining turns of the read loop deliver the remaining bytes. -/
theorem qSpiFlashReadLoop_eq (m : Memory) (len : ℕ) : ∀ (fuel readAddr cnt : ℕ),
    cnt ≤ len → len - cnt ≤ fuel → readAddr + (len - cnt) ≤ 16777216 →
    qSpiFlashReadLoop m len fuel readAddr cnt = loadBytes m readAddr (len - cnt)
  | 0, readAddr, cnt, _, hfuel, _ => by
    rw [Nat.le_zero.mp hfuel]
    rfl
  | fuel + 1, readAddr, cnt, hcnt, hfuel, hend => by
    rw [qSpiFlashReadLoop]
    by_cases hmore : len > cnt
    · rw [if_pos hmore]
      dsimp only
      rw [flashAdr_of_lt (by omega)]
      set rdCnt := if len - cnt > maxFlashRdSize then maxFlashRdSize else len - cnt with hrd
      have hle : 0 < rdCnt ∧ rdCnt ≤ len - cnt := by
        rw [hrd]
        unfold maxFlashRdSize
        split <;> omega
      rw [show u32 ((readAddr : ℤ) + rdCnt) = readAddr + rdCnt by unfold u32; omega,
        qSpiFlashReadLoop_eq m len fuel _ _ (by omega) (by omega) (by omega), ← loadBytes_add]
      congr 1
      omega
    · rw [if_neg hmore, show len - cnt = 0 by omega]
      rfl

/-- A read within the address space delivers the content. -/
theorem qSpiFlashRead_eq (f : Flash) {adr len : ℕ} (h : adr + len ≤ 16777216) :
    qSpiFlashRead f adr len = loadBytes f.mem adr len :=
  qSpiFlashReadLoop_eq f.mem len len adr 0 (Nat.zero_le _) (by omega) (by omega)

/-! ### Programming a page -/

/-- Within the page a program writes where it is told, and only clears bits. -/
theorem pageProgram_apply (page : ℕ) : ∀ (data : List UInt8) (m : Memory) (k : ℕ),
    k + data.length ≤ flashPageSize →
    (∀ i, ∀ h : i < data.length,
      pageProgram m page k data (page + k + i) = m (page + k + i) &&& data[i]) ∧
    ∀ q, q < page + k ∨ page + k + data.length ≤ q → pageProgram m page k data q = m q
  | [], m, k, _ => ⟨fun i h => absurd h (Nat.not_lt_zero i), fun _ _ => rfl⟩
  | b :: data, m, k, hk => by
    rw [List.length_cons] at hk
    have hmod : k % flashPageSize = k := Nat.mod_eq_of_lt (by omega)
    rw [pageProgram, hmod]
    obtain ⟨hin, hout⟩ := pageProgram_apply page data
      (store8 m (page + k) (m (page + k) &&& b)) (k + 1) (by omega)
    constructor
    · intro i hi
      cases i with
      | zero =>
        have hfirst := hout (page + k) (by omega)
        rw [store8_self] at hfirst
        exact hfirst
      | succ i =>
        have hi' : i < data.length := by simpa using hi
        rw [show page + k + (i + 1) = page + (k + 1) + i by omega, hin i hi',
          store8_of_ne (by omega)]
        rfl
    · intro q hq
      rw [List.length_cons] at hq
      rw [hout q (by omega), store8_of_ne (by omega)]

/-- No bit that has to be 1 in `data` is 0 in the flash: `data` can be programmed at `adr`. -/
def Erased (f : Flash) (adr : ℕ) (data : List UInt8) : Prop :=
  ∀ i, ∀ h : i < data.length, f.mem (adr + i) &&& data[i] = data[i]

/-- A program that does not run past the end of its page. -/
theorem qSpiFlashWriteOnePage_mem {f : Flash} {adr : ℕ} {data : List UInt8}
    (hpage : adr % flashPageSize + data.length ≤ flashPageSize)
    (hend : adr + data.length ≤ 16777216) (hpos : 0 < data.length) (herased : Erased f adr data) :
    (qSpiFlashWriteOnePage f adr data).mem = storeBytes f.mem adr data := by
  obtain ⟨hin, hout⟩ := pageProgram_apply (adr / flashPageSize * flashPageSize) data f.mem
    (adr % flashPageSize) hpage
  have hadr : adr / flashPageSize * flashPageSize + adr % flashPageSize = adr := by
    unfold flashPageSize
    omega
  rw [hadr] at hin hout
  unfold qSpiFlashWriteOnePage
  rw [flashAdr_of_lt (show adr < 16777216 by omega)]
  exact eq_storeBytes (fun i hi => (hin i hi).trans (herased i hi)) hout

/-! ### Verified writes -/

/-- The page programs from `f` to `f'` stay within their pages. -/
def WithinPages (f f' : Flash) : Prop :=
  ∃ calls, f'.programs = calls ++ f.programs ∧
    ∀ c ∈ calls, c.1 % flashPageSize + c.2 ≤ flashPageSize

/-- Without a program no page boundary is crossed. -/
theorem WithinPages.refl (f : Flash) : WithinPages f f := ⟨[], rfl, by simp⟩

/-- Programs one after the other. -/
theorem WithinPages.trans {f f' f'' : Flash} (h : WithinPages f f') (h' : WithinPages f' f'') :
    WithinPages f f'' := by
  obtain ⟨calls, heq, hin⟩ := h
  obtain ⟨calls', heq', hin'⟩ := h'
  refine ⟨calls' ++ calls, by rw [heq', heq, List.append_assoc], fun c hc => ?_⟩
  rcases List.mem_append.mp hc with hc | hc
  · exact hin' c hc
  · exact hin c hc

/-- The first attempt succeeds. -/
theorem writePage_spec (wrapped j : ℕ) {f : Flash} {adr : ℕ} {data : List UInt8}
    (hpage : adr % flashPageSize + data.length ≤ flashPageSize)
    (hend : adr + data.length ≤ 16777216) (hpos : 0 < data.length) (herased : Erased f adr data) :
    ∃ f', writePage wrapped f adr data (j + 1) = (f', j) ∧
      f'.mem = storeBytes f.mem adr data ∧ WithinPages f f' := by
  have hmem := qSpiFlashWriteOnePage_mem hpage hend hpos herased
  refine ⟨qSpiFlashWriteOnePage f adr data, ?_, hmem, [(adr, data.length)], rfl, ?_⟩
  · rw [writePage, qSpiFlashRead_eq _ hend, hmem, loadBytes_storeBytes, if_pos rfl]
  · intro c hc
    rw [List.mem_singleton.mp hc]
    exact hpage

/-- Only the bytes of the range matter. -/
theorem Erased.congr {f f' : Flash} {adr : ℕ} {data : List UInt8} (h : Erased f adr data)
    (hmem : ∀ q, adr ≤ q → q < adr + data.length → f'.mem q = f.mem q) : Erased f' adr data := by
  intro i hi
  rw [hmem (adr + i) (by omega) (by omega)]
  exact h i hi

/-- Both parts of an erased range are erased. -/
theorem Erased.split {f : Flash} {adr : ℕ} {xs ys : List UInt8} (h : Erased f adr (xs ++ ys)) :
    Erased f adr xs ∧ Erased f (adr + xs.length) ys := by
  constructor
  · intro i hi
    have := h i (by rw [List.length_append]; omega)
    rwa [List.getElem_append_left hi] at this
  · intro i hi
    have := h (xs.length + i) (by rw [List.length_append]; omega)
    rw [List.getElem_append_right (Nat.le_add_right ..)] at this
    simpa [Nat.add_assoc] using this

/-- Bytes that are all ones can take any data. -/
theorem erased_of_ones {f : Flash} {adr : ℕ} {data : List UInt8}
    (h : ∀ q, adr ≤ q → q < adr + data.length → f.mem q = 255) : Erased f adr data := by
  intro i hi
  rw [h (adr + i) (by omega) (by omega)]
  exact UInt8.neg_one_and

/-- One verified page write and what is left to write after it. -/
theorem writePage_step (wrapped j : ℕ) {f : Flash} {adr : ℕ} {xs ys : List UInt8}
    (hpage : adr % flashPageSize + xs.length ≤ flashPageSize)
    (hend : adr + xs.length ≤ 16777216) (hpos : 0 < xs.length) (herased : Erased f adr (xs ++ ys)) :
    ∃ f', writePage wrapped f adr xs (j + 1) = (f', j) ∧
      f'.mem = storeBytes f.mem adr xs ∧ WithinPages f f' ∧ Erased f' (adr + xs.length) ys := by
  obtain ⟨hxs, hys⟩ := herased.split
  obtain ⟨f', hwrite, hmem, hpages⟩ := writePage_spec wrapped j hpage hend hpos hxs
  refine ⟨f', hwrite, hmem, hpages, hys.congr fun q h1 h2 => ?_⟩
  rw [hmem, storeBytes_outside _ (by omega)]

/-- The loop of `QSpiWriteAny`: from the first page on, every page but the last ends at a page
    boundary. -/
theorem qSpiWriteAnyLoop_spec : ∀ (fuel : ℕ) (f : Flash) (adr : ℕ) (pData : List UInt8)
    (dataLen pageremain : ℕ), dataLen ≤ pData.length → 0 < pageremain → pageremain ≤ dataLen →
    adr % flashPageSize + pageremain ≤ flashPageSize →
    (pageremain = dataLen ∨ (adr + pageremain) % flashPageSize = 0) → dataLen < 65536 →
    dataLen ≤ fuel → adr + dataLen ≤ 16777216 → Erased f adr (pData.take dataLen) →
    ∃ f', qSpiWriteAnyLoop fuel f adr pData dataLen pageremain = some (f', 0) ∧
      f'.mem = storeBytes f.mem adr (pData.take dataLen) ∧ WithinPages f f'
  | 0, _, _, _, _, _, _, hpos, hle, _, _, _, hfuel, _, _ => by omega
  | fuel + 1, f, adr, pData, dataLen, pageremain, hdata, hpos, hle, hpage, hnext, hu16, hfuel,
      hend, herased => by
    have hlength : (pData.take pageremain).length = pageremain := by simp; omega
    have hsplit : pData.take dataLen
        = pData.take pageremain ++ (pData.drop pageremain).take (dataLen - pageremain) := by
      rw [← List.take_add]
      congr 1
      omega
    rw [hsplit] at herased
    obtain ⟨f₁, hwrite, hmem, hpages, hrest⟩ := writePage_step 65535 9
      (by rw [hlength]; exact hpage) (by omega) (by omega) herased
    rw [hlength] at hrest
    rw [qSpiWriteAnyLoop]
    simp only [hwrite]
    rw [if_neg (by omega)]
    -- the last page of the range, or one that ends at a page boundary
    by_cases hlast : dataLen = pageremain
    · rw [if_pos hlast, hlast]
      exact ⟨f₁, rfl, hmem, hpages⟩
    · rw [if_neg hlast, show u32 ((adr : ℤ) + pageremain) = adr + pageremain by unfold u32; omega,
        show u16 ((dataLen : ℤ) - pageremain) = dataLen - pageremain by unfold u16; omega]
      have hboundary := hnext.resolve_left (Ne.symm hlast)
      unfold flashPageSize at *
      obtain ⟨f', hloop, hmem', hpages'⟩ := qSpiWriteAnyLoop_spec fuel f₁ (adr + pageremain)
        (pData.drop pageremain) (dataLen - pageremain)
        (if dataLen - pageremain > 256 then 256 else dataLen - pageremain)
        (by rw [List.length_drop]; omega) (by split <;> omega) (by split <;> omega)
        (by unfold flashPageSize; split <;> omega) (by unfold flashPageSize; split <;> omega)
        (by omega) (by omega) (by omega) hrest
      refine ⟨f', hloop, ?_, hpages.trans hpages'⟩
      -- the two programs together store the whole range
      have happend := storeBytes_append f.mem adr (pData.take pageremain)
        ((pData.drop pageremain).take (dataLen - pageremain))
      rw [hlength] at happend
      rw [hmem', hmem, happend, hsplit]

/-- **`QSpiWriteAny`** writes exactly its range, if the range can be programmed. -/
theorem qSpiWriteAny_spec {f : Flash} {adr dataLen : ℕ} {pData : List UInt8}
    (hpos : 0 < dataLen) (hdata : dataLen ≤ pData.length) (hu16 : dataLen < 65536)
    (hend : adr + dataLen ≤ 16777216) (herased : Erased f adr (pData.take dataLen)) :
    ∃ f', qSpiWriteAny f adr pData dataLen = some (f', 0) ∧
      f'.mem = storeBytes f.mem adr (pData.take dataLen) ∧ WithinPages f f' := by
  have hremain : u16 ((flashPageSize : ℤ) - (adr % flashPageSize : ℕ))
      = flashPageSize - adr % flashPageSize := by
    unfold u16 flashPageSize
    omega
  rw [qSpiWriteAny, hremain]
  unfold flashPageSize
  refine qSpiWriteAnyLoop_spec _ f adr pData dataLen _ hdata ?_ ?_ ?_ ?_ hu16 (by omega) hend
    herased
  · split <;> omega
  · split <;> omega
  · unfold flashPageSize
    split <;> omega
  · unfold flashPageSize
    split <;> omega

/-- The loop of `QSpiWriteOneSector`. -/
theorem qSpiWriteOneSectorLoop_spec (i : ℕ) : ∀ (f : Flash) (adr : ℕ) (pBuf : List UInt8),
    i * flashPageSize ≤ pBuf.length → adr % flashPageSize = 0 →
    adr + i * flashPageSize ≤ 16777216 → Erased f adr (pBuf.take (i * flashPageSize)) →
    ∃ f', qSpiWriteOneSectorLoop i f adr pBuf = (f', 0) ∧
      f'.mem = storeBytes f.mem adr (pBuf.take (i * flashPageSize)) ∧ WithinPages f f' := by
  induction i with
  | zero =>
    intro f adr pBuf _ _ _ _
    refine ⟨f, rfl, ?_, WithinPages.refl f⟩
    rw [Nat.zero_mul, List.take_zero]
    exact eq_storeBytes (fun i hi => absurd hi (Nat.not_lt_zero i)) fun _ _ => rfl
  | succ i ih =>
    intro f adr pBuf hbuf halign hend herased
    have hsucc : (i + 1) * flashPageSize = flashPageSize + i * flashPageSize := by ring
    rw [hsucc] at hbuf hend herased ⊢
    have hlength : (pBuf.take flashPageSize).length = flashPageSize := by simp; omega
    rw [List.take_add] at herased ⊢
    obtain ⟨f₁, hwrite, hmem, hpages, hrest⟩ := writePage_step 4294967295 9
      (by rw [hlength, halign, Nat.zero_add]) (by omega) (by rw [hlength]; decide) herased
    rw [hlength] at hrest
    rw [qSpiWriteOneSectorLoop]
    simp only [hwrite]
    rw [if_neg (by omega), show u32 ((adr : ℤ) + flashPageSize) = adr + flashPageSize by
      unfold u32; unfold flashPageSize at *; omega]
    obtain ⟨f', hloop, hmem', hpages'⟩ := ih f₁ (adr + flashPageSize)
      (pBuf.drop flashPageSize) (by rw [List.length_drop]; omega)
      (by rw [Nat.add_mod_right]; exact halign) (by omega) hrest
    refine ⟨f', hloop, ?_, hpages.trans hpages'⟩
    have happend := storeBytes_append f.mem adr (pBuf.take flashPageSize)
      ((pBuf.drop flashPageSize).take (i * flashPageSize))
    rw [hlength] at happend
    rw [hmem', hmem, happend]

/-- The content after a sector is erased. -/
theorem qSpiFlashEraseSector_mem (f : Flash) {adr : ℕ} (halign : adr % flashSectorSize = 0)
    (hend : adr + flashSectorSize ≤ 16777216) (q : ℕ) :
    (qSpiFlashEraseSector f adr).mem q
      = if adr ≤ q ∧ q < adr + flashSectorSize then 255 else f.mem q := by
  have hbase : flashAdr adr / flashSectorSize * flashSectorSize = adr := by
    rw [flashAdr_of_lt (by unfold flashSectorSize at *; omega)]
    unfold flashSectorSize at *
    omega
  simp only [qSpiFlashEraseSector, hbase]

/-- An erased sector can take any data. -/
theorem erased_sector (f : Flash) {adr : ℕ} {data : List UInt8} (halign : adr % flashSectorSize = 0)
    (hend : adr + flashSectorSize ≤ 16777216) (hdata : data.length = flashSectorSize) :
    Erased (qSpiFlashEraseSector f adr) adr data := erased_of_ones fun q h1 h2 => by
  rw [hdata] at h2
  rw [qSpiFlashEraseSector_mem f halign hend, if_pos ⟨h1, h2⟩]

/-- Writing a whole erased sector leaves the bytes outside the sector. -/
theorem storeBytes_erased (f : Flash) {adr : ℕ} {data : List UInt8}
    (halign : adr % flashSectorSize = 0) (hend : adr + flashSectorSize ≤ 16777216)
    (hdata : data.length = flashSectorSize) :
    storeBytes (qSpiFlashEraseSector f adr).mem adr data = storeBytes f.mem adr data := by
  refine eq_storeBytes (fun i hi => storeBytes_inside _ _ hi) fun q hq => ?_
  rw [storeBytes_outside _ hq, qSpiFlashEraseSector_mem f halign hend,
    if_neg (by rw [hdata] at hq; omega)]

/-- **`QSpiWriteOneSector`** replaces the content of one sector. -/
theorem qSpiWriteOneSector_spec (f : Flash) {adr : ℕ} {pBuf : List UInt8}
    (halign : adr % flashSectorSize = 0) (hend : adr + flashSectorSize ≤ 16777216)
    (hbuf : pBuf.length = flashSectorSize) :
    ∃ f', qSpiWriteOneSector f adr pBuf = (f', 0) ∧ f'.mem = storeBytes f.mem adr pBuf ∧
      WithinPages f f' := by
  have hall : pBuf.take (flashSectorSize / flashPageSize * flashPageSize) = pBuf :=
    List.take_of_length_le (by rw [hbuf]; decide)
  obtain ⟨f', hloop, hmem, hpages⟩ := qSpiWriteOneSectorLoop_spec (flashSectorSize / flashPageSize)
    (qSpiFlashEraseSector f adr) adr pBuf (by rw [hbuf]; decide)
    (by unfold flashPageSize flashSectorSize at *; omega)
    (by unfold flashPageSize flashSectorSize at *; omega)
    (by rw [hall]; exact erased_sector f halign hend hbuf)
  rw [hall, storeBytes_erased f halign hend hbuf] at hmem
  exact ⟨f', hloop, hmem, hpages⟩

end SerialNet
