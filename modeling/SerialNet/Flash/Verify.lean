import SerialNet.Flash.Nor

namespace SerialNet

/-!
# The verified writes on any flash

`QSpiWriteAny` and `QSpiWriteOneSector` program a page, read it back and compare, up to ten times.
`FlashDevice` is a flash whose answers are arbitrary, and the two functions are stated over it;
on the flash of `Flash/Nor` they are the ones from there (`qSpiWriteAnyOn_nor`).

The retry counter of both is decremented in the test of the loop and is 0 behind it exactly when
the tenth attempt succeeded: a page that is matched by its tenth attempt ends the call with -1, and
a page that is never matched is passed over (`writePageOn_eq`).  Hence the verdict is right if
every page is matched within nine attempts, and else only by accident (`verified_writes_iff`).
-/

/-- A flash behind the commands of `flash.c`: what they do to its state, and what a read delivers,
    is arbitrary. -/
structure FlashDevice (σ : Type*) where
  erase : σ → ℕ → σ
  program : σ → ℕ → List UInt8 → σ
  read : σ → ℕ → ℕ → List UInt8 × σ
  length_read : ∀ s adr len, (read s adr len).1.length = len

/-- A device in its state, with the page programs that were sent to it, the latest first. -/
structure Chip (σ : Type*) where
  state : σ
  programs : List (ℕ × List UInt8)

section Functions

variable {σ : Type*} (dev : FlashDevice σ)

/-- `QSpiFlashWriteOnePage`, `QSpiFlashRead` into `PageBuf` and `memcmp`. -/
def attempt (c : Chip σ) (page : ℕ × List UInt8) : Bool × Chip σ :=
  let r := dev.read (dev.program c.state page.1 page.2) page.1 page.2.length
  (r.1 = page.2, ⟨r.2, page :: c.programs⟩)

/-- The loop `while (j--)`: the device and `j` after it.  When the attempts run out, `j` wraps
    around to `wrapped`. -/
def writePageOn (wrapped : ℕ) (c : Chip σ) (page : ℕ × List UInt8) : ℕ → Chip σ × ℕ
  | 0 => (c, wrapped)
  | j + 1 =>
    let r := attempt dev c page
    if r.1 then (r.2, j) else writePageOn wrapped r.2 page j

/-- The loop of `QSpiWriteAny`, for at most `fuel` pages. -/
def qSpiWriteAnyLoopOn : ℕ → Chip σ → ℕ → List UInt8 → ℕ → ℕ → Option (Chip σ × ℤ)
  | 0, _, _, _, _, _ => none
  | fuel + 1, c, writeAddr, pData, dataLen, pageremain =>
    let r := writePageOn dev 65535 c (writeAddr, pData.take pageremain) 10
    if r.2 = 0 then some (r.1, -1)
    else if dataLen = pageremain then some (r.1, 0)
    else
      let dataLen := u16 (dataLen - pageremain)
      qSpiWriteAnyLoopOn fuel r.1 (u32 (writeAddr + pageremain)) (pData.drop pageremain) dataLen
        (if dataLen > flashPageSize then flashPageSize else dataLen)

/-- `QSpiWriteAny`; `none` if the loop does not end. -/
def qSpiWriteAnyOn (c : Chip σ) (writeAddr : ℕ) (pData : List UInt8) (dataLen : ℕ) :
    Option (Chip σ × ℤ) :=
  let pageremain := u16 (flashPageSize - (writeAddr % flashPageSize : ℕ))
  qSpiWriteAnyLoopOn dev (dataLen + 1) c writeAddr pData dataLen
    (if dataLen ≤ pageremain then dataLen else pageremain)

/-- The loop of `QSpiWriteOneSector`, for `i` more pages. -/
def qSpiWriteOneSectorLoopOn : ℕ → Chip σ → ℕ → List UInt8 → Chip σ × ℤ
  | 0, c, _, _ => (c, 0)
  | i + 1, c, writeAddr, pBuf =>
    let r := writePageOn dev 4294967295 c (writeAddr, pBuf.take flashPageSize) 10
    if r.2 = 0 then (r.1, -1)
    else
      qSpiWriteOneSectorLoopOn i r.1 (u32 (writeAddr + flashPageSize)) (pBuf.drop flashPageSize)

/-- The device after `QSpiFlashEraseSector`. -/
def Chip.erased (c : Chip σ) (sectorAddr : ℕ) : Chip σ :=
  { c with state := dev.erase c.state sectorAddr }

/-- `QSpiWriteOneSector`. -/
def qSpiWriteOneSectorOn (c : Chip σ) (sectorAddr : ℕ) (pBuf : List UInt8) : Chip σ × ℤ :=
  qSpiWriteOneSectorLoopOn dev (flashSectorSize / flashPageSize) (c.erased dev sectorAddr)
    sectorAddr pBuf

/-! ### The verdict that is due -/

/-- The pages of a range, of which the first one takes `k` bytes and every other one 256. -/
def pagesFrom : ℕ → ℕ → ℕ → List UInt8 → List (ℕ × List UInt8)
  | 0, _, _, _ => []
  | n + 1, k, adr, data =>
    (adr, data.take k) :: if data.length ≤ k then []
      else pagesFrom n flashPageSize (u32 (adr + k)) (data.drop k)

/-- The pages of `QSpiWriteAny`: the first one ends at a page boundary. -/
def anyPages (adr : ℕ) (data : List UInt8) : List (ℕ × List UInt8) :=
  pagesFrom (data.length + 1) (flashPageSize - adr % flashPageSize) adr data

/-- The pages of `QSpiWriteOneSector`. -/
def sectorPages (adr : ℕ) (data : List UInt8) : List (ℕ × List UInt8) :=
  pagesFrom (data.length + 1) flashPageSize adr data

/-- The device after the first of at most `n` attempts that reads back equal, if there is one. -/
def firstMatch (c : Chip σ) (page : ℕ × List UInt8) : ℕ → Option (Chip σ)
  | 0 => none
  | n + 1 =>
    let r := attempt dev c page
    if r.1 then some r.2 else firstMatch r.2 page n

/-- The device after all pages, if each is matched within `n` attempts. -/
def matchAll (n : ℕ) : Chip σ → List (ℕ × List UInt8) → Option (Chip σ)
  | c, [] => some c
  | c, page :: pages => (firstMatch dev c page n).bind fun c' => matchAll n c' pages

/-- Page `i` is the first one that is not matched within ten attempts. -/
def FailsAt (c : Chip σ) (pages : List (ℕ × List UInt8)) (i : ℕ) : Prop :=
  (matchAll dev 10 c (pages.take i)).isSome ∧ matchAll dev 10 c (pages.take (i + 1)) = none ∧
    i < pages.length

/-- The result of a call that starts at `c` is 0 if every page is matched within ten attempts, and
    otherwise -1, where no page behind the first one that is not was programmed. -/
def RightVerdict (c : Chip σ) (pages : List (ℕ × List UInt8)) (r : Chip σ × ℤ) : Prop :=
  (r.2 = 0 ↔ (matchAll dev 10 c pages).isSome) ∧
    ∀ i, FailsAt dev c pages i → r.2 = -1 ∧ ∃ sent, r.1.programs = sent ++ c.programs ∧
      ∀ p ∈ sent, ∀ later ∈ pages.drop (i + 1), p.1 ≠ later.1

/-- Every page is matched within nine attempts; or the first one that is not is matched by its
    tenth, and a later one is not matched within ten. -/
def NineSuffice : Chip σ → List (ℕ × List UInt8) → Prop
  | _, [] => True
  | c, page :: pages =>
    match firstMatch dev c page 9 with
    | some c' => NineSuffice c' pages
    | none => ∃ c', firstMatch dev c page 10 = some c' ∧ matchAll dev 10 c' pages = none

end Functions

/-! ### One page -/

section Page

variable {σ : Type*} {dev : FlashDevice σ} {c c' : Chip σ} {page : ℕ × List UInt8}

/-- From `c` to `c'` only `page` was programmed. -/
def OnlyProgrammed (page : ℕ × List UInt8) (c c' : Chip σ) : Prop :=
  ∃ sent, c'.programs = sent ++ c.programs ∧ ∀ p ∈ sent, p = page

/-- A chip that has not been touched. -/
theorem onlyProgrammed_refl (page : ℕ × List UInt8) (c : Chip σ) : OnlyProgrammed page c c :=
  ⟨[], rfl, by simp⟩

/-- Attempts after the first one. -/
theorem OnlyProgrammed.of_attempt (h : OnlyProgrammed page (attempt dev c page).2 c') :
    OnlyProgrammed page c c' := by
  obtain ⟨sent, hprograms, hall⟩ := h
  refine ⟨sent ++ [page], ?_, fun p hp => ?_⟩
  · rw [hprograms, List.append_assoc]
    rfl
  · rcases List.mem_append.mp hp with hp | hp
    · exact hall p hp
    · exact List.mem_singleton.mp hp

/-- An attempt that verifies is the last one. -/
theorem firstMatch_hit (h : (attempt dev c page).1 = true) (n : ℕ) :
    firstMatch dev c page (n + 1) = some (attempt dev c page).2 := if_pos h

/-- An attempt that does not is repeated. -/
theorem firstMatch_miss (h : ¬ (attempt dev c page).1 = true) (n : ℕ) :
    firstMatch dev c page (n + 1) = firstMatch dev (attempt dev c page).2 page n := if_neg h

/-- A page that verifies is written. -/
theorem writePageOn_hit (h : (attempt dev c page).1 = true) (wrapped j : ℕ) :
    writePageOn dev wrapped c page (j + 1) = ((attempt dev c page).2, j) := if_pos h

/-- A page that does not is written again, while there are tries left. -/
theorem writePageOn_miss (h : ¬ (attempt dev c page).1 = true) (wrapped j : ℕ) :
    writePageOn dev wrapped c page (j + 1)
      = writePageOn dev wrapped (attempt dev c page).2 page j := if_neg h

/-- The attempts program their page only. -/
theorem onlyProgrammed_writePageOn (wrapped j : ℕ) (c : Chip σ) :
    OnlyProgrammed page c (writePageOn dev wrapped c page j).1 := by
  induction j generalizing c with
  | zero => exact onlyProgrammed_refl page c
  | succ j ih =>
    by_cases hm : (attempt dev c page).1 = true
    · rw [writePageOn_hit hm]
      exact (onlyProgrammed_refl page _).of_attempt
    · rw [writePageOn_miss hm]
      exact (ih _).of_attempt

/-- A match among the first attempts is one among more. -/
theorem firstMatch_succ {n : ℕ} (h : firstMatch dev c page n = some c') :
    firstMatch dev c page (n + 1) = some c' := by
  induction n generalizing c with
  | zero => cases h
  | succ n ih =>
    by_cases hm : (attempt dev c page).1 = true
    · rwa [firstMatch_hit hm] at h ⊢
    · rw [firstMatch_miss hm] at h ⊢
      exact ih h

/-- **The counter behind the retry loop.**  It is 0 exactly when the last of the attempts was the
    one that read back equal. -/
theorem writePageOn_eq (dev : FlashDevice σ) (wrapped j : ℕ) (c : Chip σ)
    (page : ℕ × List UInt8) :
    (∀ c', firstMatch dev c page (j + 1) = some c' →
      ∃ j', writePageOn dev wrapped c page (j + 1) = (c', j') ∧
        (j' = 0 ↔ firstMatch dev c page j = none)) ∧
    (firstMatch dev c page (j + 1) = none →
      (writePageOn dev wrapped c page (j + 1)).2 = wrapped) := by
  induction j generalizing c with
  | zero =>
    by_cases hm : (attempt dev c page).1 = true
    · rw [firstMatch_hit hm, writePageOn_hit hm]
      refine ⟨fun c' h => ⟨0, by rw [Option.some.inj h], by simp [firstMatch]⟩, fun h => ?_⟩
      cases h
    · rw [firstMatch_miss hm, writePageOn_miss hm]
      exact ⟨fun c' h => (by cases h), fun _ => rfl⟩
  | succ j ih =>
    by_cases hm : (attempt dev c page).1 = true
    · rw [firstMatch_hit hm, firstMatch_hit hm, writePageOn_hit hm]
      refine ⟨fun c' h => ⟨j + 1, by rw [Option.some.inj h], by simp⟩, fun h => ?_⟩
      cases h
    · rw [firstMatch_miss hm, firstMatch_miss hm, writePageOn_miss hm]
      exact ih _

end Page

/-! ### All pages -/

section Pages

variable {σ : Type*} {dev : FlashDevice σ} {wrapped : ℕ}

/-- The pages behind a page that verifies are tried in turn. -/
theorem matchAll_of_match {n : ℕ} {c c' : Chip σ} {page : ℕ × List UInt8}
    (h : firstMatch dev c page n = some c') (pages : List (ℕ × List UInt8)) :
    matchAll dev n c (page :: pages) = matchAll dev n c' pages := by
  rw [matchAll, h, Option.bind_some]

/-- A page that never verifies ends the write. -/
theorem matchAll_of_none {n : ℕ} {c : Chip σ} {page : ℕ × List UInt8}
    (h : firstMatch dev c page n = none) (pages : List (ℕ × List UInt8)) :
    matchAll dev n c (page :: pages) = none := by
  rw [matchAll, h, Option.bind_none]

/-- The page loops of the two functions, over the pages of their range. -/
def writePages (dev : FlashDevice σ) (wrapped : ℕ) :
    Chip σ → List (ℕ × List UInt8) → Chip σ × ℤ
  | c, [] => (c, 0)
  | c, page :: pages =>
    let r := writePageOn dev wrapped c page 10
    if r.2 = 0 then (r.1, -1) else writePages dev wrapped r.1 pages

/-- The log grows. -/
theorem writePages_programs (c : Chip σ) (pages : List (ℕ × List UInt8)) :
    ∃ sent, (writePages dev wrapped c pages).1.programs = sent ++ c.programs ∧
      ∀ page ∈ pages.head?, page ∈ sent := by
  induction pages generalizing c with
  | nil => exact ⟨[], rfl, by simp⟩
  | cons page pages ih =>
    -- the first attempt is made in any case
    have hfirst : ∃ sent, (writePageOn dev wrapped c page 10).1.programs = sent ++ c.programs ∧
        page ∈ sent := by
      by_cases hm : (attempt dev c page).1 = true
      · rw [writePageOn_hit hm]
        exact ⟨[page], rfl, by simp⟩
      · rw [writePageOn_miss hm]
        obtain ⟨sent, hsent, -⟩ := @onlyProgrammed_writePageOn _ dev page wrapped 9
          (attempt dev c page).2
        exact ⟨sent ++ [page], by rw [hsent, List.append_assoc]; rfl, by simp⟩
    obtain ⟨sent, hsent, hmem⟩ := hfirst
    have hhead : ∀ p ∈ (page :: pages).head?, p = page := by
      intro p hp
      exact (Option.some.inj hp).symm
    rw [writePages]
    split
    · exact ⟨sent, hsent, fun p hp => hhead p hp ▸ hmem⟩
    · obtain ⟨rest, hrest, -⟩ := ih (writePageOn dev wrapped c page 10).1
      refine ⟨rest ++ sent, by rw [hrest, hsent, List.append_assoc], fun p hp => ?_⟩
      rw [hhead p hp]
      exact List.mem_append_right rest hmem

/-- Behind a matched page the verdict is that of the rest. -/
theorem rightVerdict_cons {c c' : Chip σ} {page : ℕ × List UInt8} {pages : List (ℕ × List UInt8)}
    {r : Chip σ × ℤ} (hmatch : firstMatch dev c page 10 = some c')
    (honly : OnlyProgrammed page c c') (hne : ∀ later ∈ pages, page.1 ≠ later.1)
    (hlog : ∃ sent, r.1.programs = sent ++ c'.programs) :
    RightVerdict dev c (page :: pages) r ↔ RightVerdict dev c' pages r := by
  have hall := matchAll_of_match hmatch
  have hfails : ∀ i, FailsAt dev c (page :: pages) (i + 1) ↔ FailsAt dev c' pages i := by
    intro i
    simp only [FailsAt, List.take_succ_cons, hall, List.length_cons, Nat.add_lt_add_iff_right]
  have hzero : ¬ FailsAt dev c (page :: pages) 0 := by
    rintro ⟨-, hnone, -⟩
    rw [List.take_succ_cons, hall, List.take_zero] at hnone
    cases hnone
  obtain ⟨first, hfirst, hpage⟩ := honly
  obtain ⟨rest, hrest⟩ := hlog
  have hsent : ∀ sent, r.1.programs = sent ++ c.programs ↔ sent = rest ++ first := by
    intro sent
    rw [hrest, hfirst, ← List.append_assoc, List.append_left_inj]
    exact eq_comm
  have hsent' : ∀ sent, r.1.programs = sent ++ c'.programs ↔ sent = rest := by
    intro sent
    rw [hrest, List.append_left_inj]
    exact eq_comm
  unfold RightVerdict
  rw [hall]
  refine and_congr_right fun _ => ⟨fun h i hi => ?_, fun h i hi => ?_⟩
  · obtain ⟨hr, sent, heq, hother⟩ := h (i + 1) ((hfails i).mpr hi)
    rw [(hsent sent).mp heq] at hother
    exact ⟨hr, rest, hrest, fun p hp => hother p (List.mem_append_left first hp)⟩
  · cases i with
    | zero => exact absurd hi hzero
    | succ i =>
      obtain ⟨hr, sent, heq, hother⟩ := h i ((hfails i).mp hi)
      rw [(hsent' sent).mp heq] at hother
      refine ⟨hr, rest ++ first, (hsent _).mpr rfl, fun p hp later hlater => ?_⟩
      rcases List.mem_append.mp hp with hp | hp
      · exact hother p hp later hlater
      · rw [hpage p hp]
        exact hne later (List.mem_of_mem_drop hlater)

/-- **When the verdict over a list of pages is right.**  Induction on the pages; the pages have
    different addresses. -/
theorem writePages_right_iff (dev : FlashDevice σ) (hwrapped : wrapped ≠ 0)
    (pages : List (ℕ × List UInt8)) (hnodup : (pages.map Prod.fst).Nodup) (c : Chip σ) :
    RightVerdict dev c pages (writePages dev wrapped c pages) ↔ NineSuffice dev c pages := by
  induction pages generalizing c with
  | nil =>
    refine iff_of_true ⟨by simp [writePages, matchAll], fun i hi => ?_⟩ trivial
    exact absurd hi.2.2 (Nat.not_lt_zero i)
  | cons page pages ih =>
    rw [List.map_cons, List.nodup_cons] at hnodup
    have hne : ∀ later ∈ pages, page.1 ≠ later.1 := by
      intro later hlater heq
      exact hnodup.1 (heq ▸ List.mem_map_of_mem hlater)
    have honly := @onlyProgrammed_writePageOn _ dev page wrapped 10 c
    obtain ⟨hsome, hnone⟩ := writePageOn_eq dev wrapped 9 c page
    rw [NineSuffice, writePages]
    cases hnine : firstMatch dev c page 9 with
    | some c' =>
      obtain ⟨j, hwrite, hj⟩ := hsome c' (firstMatch_succ hnine)
      rw [hwrite] at honly ⊢
      rw [if_neg (by rw [hj, hnine]; simp), rightVerdict_cons (firstMatch_succ hnine) honly hne
        ((@writePages_programs _ dev wrapped c' pages).imp fun _ h => h.1)]
      exact ih hnodup.2 c'
    | none =>
      cases hten : firstMatch dev c page 10 with
      | some c' =>
        -- the tenth attempt: the call ends here with -1
        obtain ⟨j, hwrite, hj⟩ := hsome c' hten
        rw [hwrite] at honly ⊢
        rw [if_pos (hj.mpr hnine)]
        have hall := matchAll_of_match hten pages
        constructor
        · intro h
          refine ⟨c', rfl, ?_⟩
          rw [← hall, ← Option.not_isSome_iff_eq_none]
          exact fun hc => absurd (h.1.mpr hc) (by simp)
        · rintro ⟨d, hd, hrest⟩
          rw [← Option.some.inj hd] at hrest
          refine ⟨by simp [hall, hrest], fun i hi => ⟨rfl, ?_⟩⟩
          obtain ⟨sent, hsent, hpage⟩ := honly
          refine ⟨sent, hsent, fun p hp later hlater => ?_⟩
          rw [hpage p hp]
          exact hne later (List.mem_of_mem_drop hlater)
      | none =>
        -- no attempt: the loop goes on to the next page, or the call ends with 0
        rw [if_neg (by rw [hnone hten]; exact hwrapped)]
        have hall := matchAll_of_none hten
        refine iff_of_false (fun h => ?_) fun ⟨c', hc', _⟩ => by cases hc'
        obtain ⟨hverdict, sent, hsent, hother⟩ :=
          h.2 0 ⟨rfl, hall _, by rw [List.length_cons]; omega⟩
        cases pages with
        | nil =>
          rw [writePages] at hverdict
          cases hverdict
        | cons next pages =>
          obtain ⟨rest, hrest, hmem⟩ := @writePages_programs _ dev wrapped
            (writePageOn dev wrapped c page 10).1 (next :: pages)
          obtain ⟨first, hfirst, -⟩ := honly
          rw [hrest, hfirst, ← List.append_assoc, List.append_left_inj] at hsent
          exact hother next (hsent ▸ List.mem_append_left first (hmem next rfl)) next
            (by simp) rfl

end Pages

/-! ### The pages of a range -/

/-- The pages start inside the range. -/
theorem pagesFrom_fst {n k adr : ℕ} {data : List UInt8} (hadr : adr < 4294967296) :
    ∀ page ∈ pagesFrom n k adr data, ∃ d ≤ data.length, page.1 = u32 (adr + d) := by
  induction n generalizing k adr data with
  | zero => simp [pagesFrom]
  | succ n ih =>
    intro page hpage
    rw [pagesFrom, List.mem_cons] at hpage
    rcases hpage with rfl | hpage
    · exact ⟨0, Nat.zero_le _, by unfold u32; omega⟩
    · by_cases hlast : data.length ≤ k
      · simp [hlast] at hpage
      · rw [if_neg hlast] at hpage
        obtain ⟨d, hd, heq⟩ := ih (u32_lt _) page hpage
        rw [List.length_drop] at hd
        refine ⟨k + d, by omega, ?_⟩
        rw [heq]
        unfold u32
        omega

/-- They start at different addresses. -/
theorem pagesFrom_nodup {n k adr : ℕ} {data : List UInt8} (hadr : adr < 4294967296) (hk : 0 < k)
    (hdata : data.length < 4294967296) : ((pagesFrom n k adr data).map Prod.fst).Nodup := by
  induction n generalizing k adr data with
  | zero => simp [pagesFrom]
  | succ n ih =>
    rw [pagesFrom, List.map_cons]
    by_cases hlast : data.length ≤ k
    · simp [hlast]
    · rw [if_neg hlast]
      refine List.nodup_cons.mpr ⟨fun hmem => ?_,
        ih (u32_lt _) (by decide) (by rw [List.length_drop]; omega)⟩
      obtain ⟨page, hpage, heq⟩ := List.mem_map.mp hmem
      obtain ⟨d, hd, hd'⟩ := pagesFrom_fst (u32_lt _) page hpage
      rw [List.length_drop] at hd
      rw [heq] at hd'
      unfold u32 at hd'
      omega

section Ranges

variable {σ : Type*} (dev : FlashDevice σ)

/-- The loop of `QSpiWriteAny` goes through the pages of the range. -/
theorem qSpiWriteAnyLoopOn_eq : ∀ (fuel : ℕ) (c : Chip σ) (adr : ℕ) (pData : List UInt8)
    (dataLen k : ℕ), 0 < k → dataLen ≤ pData.length → dataLen < 65536 → dataLen < fuel →
    qSpiWriteAnyLoopOn dev fuel c adr pData dataLen (if dataLen ≤ k then dataLen else k)
      = some (writePages dev 65535 c (pagesFrom fuel k adr (pData.take dataLen)))
  | 0, _, _, _, _, _, _, _, _, hfuel => absurd hfuel (Nat.not_lt_zero _)
  | fuel + 1, c, adr, pData, dataLen, k, hk, hdata, hu16, hfuel => by
    have hlength : (pData.take dataLen).length = dataLen := by
      rw [List.length_take]
      omega
    rw [qSpiWriteAnyLoopOn, pagesFrom, hlength, writePages]
    by_cases hlast : dataLen ≤ k
    · -- the last page
      rw [if_pos hlast, if_pos hlast, List.take_take, Nat.min_eq_right hlast]
      simp only [writePages, if_true, apply_ite some]
    · rw [if_neg hlast, if_neg hlast, List.take_take, Nat.min_eq_left (by omega)]
      have hrest : u16 ((dataLen : ℤ) - k) = dataLen - k := by
        unfold u16
        omega
      have hmain : (if dataLen - k > flashPageSize then flashPageSize else dataLen - k)
          = if dataLen - k ≤ flashPageSize then dataLen - k else flashPageSize := by
        split_ifs <;> omega
      simp only [hrest, hmain, if_neg (show dataLen ≠ k by omega), apply_ite some]
      rw [qSpiWriteAnyLoopOn_eq fuel _ _ (pData.drop k) (dataLen - k) flashPageSize (by decide)
        (by rw [List.length_drop]; omega) (by omega) (by omega), List.drop_take]

/-- `QSpiWriteAny` writes the pages of the range one by one. -/
theorem qSpiWriteAnyOn_eq (c : Chip σ) (adr : ℕ) {pData : List UInt8} {dataLen : ℕ}
    (hdata : dataLen ≤ pData.length) (hu16 : dataLen < 65536) :
    qSpiWriteAnyOn dev c adr pData dataLen
      = some (writePages dev 65535 c (anyPages adr (pData.take dataLen))) := by
  have hremain : u16 ((flashPageSize : ℤ) - (adr % flashPageSize : ℕ))
      = flashPageSize - adr % flashPageSize := by
    unfold u16 flashPageSize
    omega
  have hlength : (pData.take dataLen).length = dataLen := by
    rw [List.length_take]
    omega
  rw [qSpiWriteAnyOn, hremain, anyPages, hlength]
  exact qSpiWriteAnyLoopOn_eq dev (dataLen + 1) c adr pData dataLen _
    (by unfold flashPageSize; omega) hdata hu16 (by omega)

/-- The loop of `QSpiWriteOneSector` likewise. -/
theorem qSpiWriteOneSectorLoopOn_eq (i : ℕ) : ∀ (n : ℕ) (c : Chip σ) (adr : ℕ) (pBuf : List UInt8),
    pBuf.length = (i + 1) * flashPageSize → pBuf.length < n →
    qSpiWriteOneSectorLoopOn dev (i + 1) c adr pBuf
      = writePages dev 4294967295 c (pagesFrom n flashPageSize adr pBuf) := by
  induction i with
  | zero =>
    intro n c adr pBuf hbuf hn
    obtain ⟨n, rfl⟩ : ∃ k, n = k + 1 := ⟨n - 1, by omega⟩
    rw [pagesFrom, if_pos (by omega)]
    rfl
  | succ i ih =>
    intro n c adr pBuf hbuf hn
    obtain ⟨n, rfl⟩ : ∃ k, n = k + 1 := ⟨n - 1, by omega⟩
    have hmore : ¬ pBuf.length ≤ flashPageSize := by
      rw [hbuf]
      unfold flashPageSize
      omega
    have hrest : (pBuf.drop flashPageSize).length = (i + 1) * flashPageSize := by
      rw [List.length_drop, hbuf, Nat.add_mul, Nat.one_mul, Nat.add_sub_cancel]
    rw [pagesFrom, if_neg hmore, qSpiWriteOneSectorLoopOn, writePages]
    rw [ih n _ _ _ hrest (by rw [List.length_drop]; unfold flashPageSize at *; omega)]

/-- `QSpiWriteOneSector` erases, then writes the sixteen pages. -/
theorem qSpiWriteOneSectorOn_eq (c : Chip σ) (adr : ℕ) {pBuf : List UInt8}
    (hbuf : pBuf.length = flashSectorSize) :
    qSpiWriteOneSectorOn dev c adr pBuf
      = writePages dev 4294967295 (c.erased dev adr) (sectorPages adr pBuf) :=
  qSpiWriteOneSectorLoopOn_eq dev 15 _ _ adr pBuf hbuf (Nat.lt_succ_self _)

end Ranges

/-- **When the verified writes tell the truth.**  For every flash, every address and all data:
    `QSpiWriteAny` and `QSpiWriteOneSector` end, and their verdict is right exactly when every page
    is matched within nine attempts, or the first one that is not is matched by its tenth and a
    later one would not be matched within ten. -/
theorem verified_writes_iff {σ : Type*} (dev : FlashDevice σ) (c : Chip σ) {adr : ℕ}
    (hadr : adr < 4294967296) :
    (∀ (pData : List UInt8) (dataLen : ℕ), dataLen ≤ pData.length → dataLen < 65536 →
      ∃ r, qSpiWriteAnyOn dev c adr pData dataLen = some r ∧
        (RightVerdict dev c (anyPages adr (pData.take dataLen)) r ↔
          NineSuffice dev c (anyPages adr (pData.take dataLen)))) ∧
    ∀ pBuf : List UInt8, pBuf.length = flashSectorSize →
      (RightVerdict dev (c.erased dev adr) (sectorPages adr pBuf)
          (qSpiWriteOneSectorOn dev c adr pBuf) ↔
        NineSuffice dev (c.erased dev adr) (sectorPages adr pBuf)) := by
  constructor
  · intro pData dataLen hdata hu16
    refine ⟨_, qSpiWriteAnyOn_eq dev c adr hdata hu16, ?_⟩
    refine writePages_right_iff dev (by decide) _ (pagesFrom_nodup hadr ?_ ?_) c
    · unfold flashPageSize
      omega
    · rw [List.length_take]
      omega
  · intro pBuf hbuf
    rw [qSpiWriteOneSectorOn_eq dev c adr hbuf]
    refine writePages_right_iff dev (by decide) _ (pagesFrom_nodup hadr (by decide) ?_) _
    rw [hbuf]
    decide

/-- A flash that counts its programs and reads back zeros until it was programmed `n` times. -/
def lateFlash (n : ℕ) : FlashDevice (ℕ × List UInt8) where
  erase s _ := s
  program s _ data := (s.1 + 1, data)
  read s _ len := (if s.1 ≥ n ∧ s.2.length = len then s.2 else List.replicate len 0, s)
  length_read s _ len := by
    dsimp only
    split
    · rename_i h
      exact h.2
    · exact List.length_replicate

/-- Two bytes across a page boundary, each matched by its first attempt. -/
theorem verified_writes_iff_two_bytes :
    ∃ r, qSpiWriteAnyOn (lateFlash 0) ⟨(0, []), []⟩ 255 [1, 2] 2 = some r ∧
      (RightVerdict (lateFlash 0) ⟨(0, []), []⟩ (anyPages 255 [1, 2]) r ↔
        NineSuffice (lateFlash 0) ⟨(0, []), []⟩ (anyPages 255 [1, 2])) :=
  (verified_writes_iff (lateFlash 0) ⟨(0, []), []⟩ (show 255 < _ by decide)).1 [1, 2] 2
    (by decide) (by decide)

/-- A byte that is never read back is reported as written. -/
theorem unwritten_page_passes :
    ¬ ∀ (σ : Type) (dev : FlashDevice σ) (c : Chip σ) (adr : ℕ) (pData : List UInt8)
      (dataLen : ℕ), adr < 4294967296 → dataLen ≤ pData.length → dataLen < 65536 →
      ∃ r, qSpiWriteAnyOn dev c adr pData dataLen = some r ∧
        RightVerdict dev c (anyPages adr (pData.take dataLen)) r := by
  intro hall
  obtain ⟨r, hr, hzero, -⟩ := hall _ (lateFlash 11) ⟨(0, []), []⟩ 0 [1] 1 (by decide) (by decide)
    (by decide)
  have hpassed : (qSpiWriteAnyOn (lateFlash 11) ⟨(0, []), []⟩ 0 [1] 1).map Prod.snd = some 0 := by
    decide
  rw [hr] at hpassed
  have hmatched := hzero.mp (Option.some.inj hpassed)
  exact absurd hmatched (by decide)

/-! ### The flash of `Flash/Nor` -/

/-- All of the bytes are read, at most 65536 in one command. -/
theorem length_qSpiFlashReadLoop (m : Memory) (len : ℕ) : ∀ (fuel readAddr cnt : ℕ), cnt ≤ len →
    len - cnt ≤ fuel → (qSpiFlashReadLoop m len fuel readAddr cnt).length = len - cnt
  | 0, _, cnt, _, hfuel => by
    rw [Nat.le_zero.mp hfuel]
    rfl
  | fuel + 1, readAddr, cnt, hcnt, hfuel => by
    rw [qSpiFlashReadLoop]
    by_cases hmore : len > cnt
    · rw [if_pos hmore]
      dsimp only
      set rdCnt := if len - cnt > maxFlashRdSize then maxFlashRdSize else len - cnt with hrd
      have hle : 0 < rdCnt ∧ rdCnt ≤ len - cnt := by
        rw [hrd]
        unfold maxFlashRdSize
        split <;> omega
      rw [List.length_append, length_loadBytes,
        length_qSpiFlashReadLoop m len fuel _ _ (by omega) (by omega)]
      omega
    · rw [if_neg hmore, List.length_nil]
      omega

/-- The NOR flash as a device. -/
def norDevice : FlashDevice Flash where
  erase := qSpiFlashEraseSector
  program := qSpiFlashWriteOnePage
  read f adr len := (qSpiFlashRead f adr len, f)
  length_read f adr len := length_qSpiFlashReadLoop f.mem len len adr 0 (Nat.zero_le _) (by omega)

/-- On a chip that stores what it should this is the write of `Flash/Nor`. -/
theorem writePageOn_nor (wrapped j : ℕ) (c : Chip Flash) (adr : ℕ) (data : List UInt8) :
    (writePageOn norDevice wrapped c (adr, data) j).1.state
        = (writePage wrapped c.state adr data j).1 ∧
      (writePageOn norDevice wrapped c (adr, data) j).2
        = (writePage wrapped c.state adr data j).2 := by
  induction j generalizing c with
  | zero => exact ⟨rfl, rfl⟩
  | succ j ih =>
    rw [writePage]
    by_cases hm : qSpiFlashRead (qSpiFlashWriteOnePage c.state adr data) adr data.length = data
    · rw [if_pos hm, writePageOn_hit (decide_eq_true hm)]
      exact ⟨rfl, rfl⟩
    · have hmiss : ¬ (attempt norDevice c (adr, data)).1 = true := fun h => hm (of_decide_eq_true h)
      rw [if_neg hm, writePageOn_miss hmiss]
      exact ih _

/-- On a chip that stores what it should this is the loop of `Flash/Nor`. -/
theorem qSpiWriteAnyLoopOn_nor : ∀ (fuel : ℕ) (c : Chip Flash) (adr : ℕ) (pData : List UInt8)
    (dataLen pageremain : ℕ),
    (qSpiWriteAnyLoopOn norDevice fuel c adr pData dataLen pageremain).map
        (fun r => (r.1.state, r.2))
      = qSpiWriteAnyLoop fuel c.state adr pData dataLen pageremain
  | 0, _, _, _, _, _ => rfl
  | fuel + 1, c, adr, pData, dataLen, pageremain => by
    obtain ⟨hstate, hj⟩ := writePageOn_nor 65535 10 c adr (pData.take pageremain)
    rw [qSpiWriteAnyLoopOn, qSpiWriteAnyLoop]
    dsimp only
    rw [hj, ← hstate]
    split
    · rfl
    split
    · rfl
    · exact qSpiWriteAnyLoopOn_nor fuel _ _ _ _ _

/-- On the NOR flash the general `QSpiWriteAny` is the one of `Flash/Nor`. -/
theorem qSpiWriteAnyOn_nor (c : Chip Flash) (adr : ℕ) (pData : List UInt8) (dataLen : ℕ) :
    (qSpiWriteAnyOn norDevice c adr pData dataLen).map (fun r => (r.1.state, r.2))
      = qSpiWriteAny c.state adr pData dataLen :=
  qSpiWriteAnyLoopOn_nor _ c adr pData dataLen _

/-- On a chip that stores what it should this is the sector loop of `Flash/Nor`. -/
theorem qSpiWriteOneSectorLoopOn_nor (i : ℕ) (c : Chip Flash) (adr : ℕ) (pBuf : List UInt8) :
    (qSpiWriteOneSectorLoopOn norDevice i c adr pBuf).1.state
        = (qSpiWriteOneSectorLoop i c.state adr pBuf).1 ∧
      (qSpiWriteOneSectorLoopOn norDevice i c adr pBuf).2
        = (qSpiWriteOneSectorLoop i c.state adr pBuf).2 := by
  induction i generalizing c adr pBuf with
  | zero => exact ⟨rfl, rfl⟩
  | succ i ih =>
    obtain ⟨hstate, hj⟩ := writePageOn_nor 4294967295 10 c adr (pBuf.take flashPageSize)
    rw [qSpiWriteOneSectorLoopOn, qSpiWriteOneSectorLoop]
    rw [hj, ← hstate]
    split_ifs
    · exact ⟨rfl, rfl⟩
    · exact ih _ _ _

/-- So is the general `QSpiWriteOneSector`. -/
theorem qSpiWriteOneSectorOn_nor (c : Chip Flash) (adr : ℕ) (pBuf : List UInt8) :
    (qSpiWriteOneSectorOn norDevice c adr pBuf).1.state = (qSpiWriteOneSector c.state adr pBuf).1 ∧
      (qSpiWriteOneSectorOn norDevice c adr pBuf).2 = (qSpiWriteOneSector c.state adr pBuf).2 :=
  qSpiWriteOneSectorLoopOn_nor _ _ adr pBuf

end SerialNet
