import SerialNet.Flash.Area
import SerialNet.Lib.Run
import SerialNet.Ota.Upgrade

namespace SerialNet

/-!
# The sectors that a firmware update programs

`OtaCtrlThread` may announce any size at any time, and `OtaDataThread` takes whatever arrives, so a
run is any sequence of announcements and of turns of the receive loop.  Nothing compares
`upgradeSector` with the 48 sectors of the backup area: it grows with every sector that is
received, an aborted transfer leaves it where it is, and the size that was announced is compared
with the received bytes for equality only.
-/

/-! ### Runs -/

/-- The bytes that `recv` returns of a segment. -/
def otaRecv (s : OtaState) (segment : List UInt8) : List UInt8 :=
  segment.take (flashSectorSize - s.writePtr)

/-- One turn of the receive loop; `segment` has arrived, and is empty when the connection is
    lost. -/
def otaTurn (s : OtaState) (segment : List UInt8) : OtaState :=
  if s.upgradeFlag &&& upgradeStart = 0 then s
  else (otaReceived (otaBegin s) (otaRecv (otaBegin s) segment)).1

/-- What happens to the module. -/
inductive OtaEvent where
  /-- `OtaCtrlThread` gets an announcement and can acknowledge it or not. -/
  | announce (fileSize : UInt32) (acked : Bool)
  /-- A turn of `OtaDataThread`, in this connection or in the next one. -/
  | turn (segment : List UInt8)

/-- The bytes complete the download. -/
def OtaCompletes (s : OtaState) (bytes : List UInt8) : Prop :=
  bytes ≠ [] ∧ u32 (s.recvFileSize + bytes.length) = s.fileSize

instance (s : OtaState) (bytes : List UInt8) : Decidable (OtaCompletes s bytes) :=
  inferInstanceAs (Decidable (bytes ≠ [] ∧ u32 (s.recvFileSize + bytes.length) = s.fileSize))

/-- The bytes fill the buffer. -/
def OtaFills (s : OtaState) (bytes : List UInt8) : Prop :=
  bytes ≠ [] ∧ u32 (s.writePtr + bytes.length) = flashSectorSize

/-- A program of a turn that is where it should be. -/
def OtaInArea (completes : Prop) (c : ℕ × ℕ) : Prop :=
  Within nvmFwBakOffset (nvmFwBakOffset + fwImgSizeMax) c ∨
    completes ∧ Within nvmFwMainOffset (nvmFwMainOffset + fwImgSizeMax) c

instance (completes : Prop) [Decidable completes] (c : ℕ × ℕ) : Decidable (OtaInArea completes c) :=
  inferInstanceAs (Decidable (_ ∨ _))

/-- The programs between two contents of the flash. -/
def newPrograms (f f' : Flash) : List (ℕ × ℕ) :=
  f'.programs.take (f'.programs.length - f.programs.length)

/-- The module in a run. -/
structure OtaRun where
  ota : OtaState
  /-- A sector outside of its area was programmed. -/
  strayed : Bool

/-- A step of a run. -/
def otaStep (r : OtaRun) : OtaEvent → Option OtaRun
  | .announce fileSize acked => some { r with ota := fwUpgradeProcess r.ota fileSize.toNat acked }
  | .turn segment =>
      let t := otaTurn r.ota segment
      let completes := OtaCompletes (otaBegin r.ota) (otaRecv (otaBegin r.ota) segment)
      some {
        ota := t
        strayed := r.strayed || ! (newPrograms r.ota.flash t.flash).all (OtaInArea completes ·) }

/-- After boot, with any content of the flash and of the buffer. -/
def otaRunBoot (buf : List UInt8) (flash : Flash) : OtaRun := ⟨otaBoot buf flash, false⟩

/-- Only sectors of the two areas were programmed, the ones of the main image after a complete
    download, and all other bytes are as in `m`. -/
structure StaysInAreas (m : Memory) (r : OtaRun) : Prop where
  not_strayed : r.strayed = false
  outside : ∀ q, nvmFwMainOffset + fwImgSizeMax ≤ q → q < nvmFwBakOffset ∨
    nvmFwBakOffset + fwImgSizeMax ≤ q → r.ota.flash.mem q = m q

/-- The sectors of the backup area. -/
def fwSectors : ℕ := fwImgSizeMax / flashSectorSize

/-- If the turn writes a sector, there is one left in the backup area. -/
def SectorLeft (r : OtaRun) : OtaEvent → Prop
  | .announce _ _ => True
  | .turn segment =>
      let bytes := otaRecv (otaBegin r.ota) segment
      r.ota.upgradeFlag &&& upgradeStart ≠ 0 →
        OtaCompletes (otaBegin r.ota) bytes ∨ OtaFills (otaBegin r.ota) bytes →
        r.ota.upgradeSector < fwSectors

/-! ### Sectors -/

variable {s : OtaState} {bytes : List UInt8}

/-- The address of a sector in an area. -/
theorem sectorAddr_eq {base k : ℕ} (hbase : base ≤ nvmFwBakOffset) (hk : k ≤ fwSectors) :
    u32 ((base : ℤ) + k * flashSectorSize) = base + k * flashSectorSize := by
  unfold fwSectors fwImgSizeMax nvmFwBakOffset flashSectorSize at *
  unfold u32
  omega

/-- A sector of an area that holds `fwSectors` of them. -/
theorem writeSector_touched (f : Flash) {base k : ℕ} (pBuf : List UInt8)
    (hbase : base ≤ nvmFwBakOffset) (halign : base % flashSectorSize = 0) (hk : k < fwSectors) :
    Touched base (base + fwImgSizeMax) f
      (qSpiWriteOneSector f (u32 (base + k * flashSectorSize)) pBuf).1 := by
  rw [sectorAddr_eq hbase hk.le]
  have hsector : Touched (base + k * flashSectorSize) (base + k * flashSectorSize + flashSectorSize)
      f (qSpiWriteOneSector f (base + k * flashSectorSize) pBuf).1 := by
    apply writeOneSector_touched
    · rw [Nat.add_mul_mod_self_right]
      exact halign
    · unfold fwSectors fwImgSizeMax nvmFwBakOffset flashSectorSize at *
      omega
  apply hsector.mono
  · exact Nat.le_add_right _ _
  · unfold fwSectors fwImgSizeMax flashSectorSize at *
    omega

/-- The copy of the sectors from `i` on stays in the main image. -/
theorem otaReplace_touched (n : ℕ) : ∀ (i : ℕ) (s : OtaState), i + n ≤ fwSectors →
    Touched nvmFwMainOffset (nvmFwMainOffset + fwImgSizeMax) s.flash (otaReplace n i s).flash ∧
      (otaReplace n i s).upgradeSector = s.upgradeSector := by
  induction n with
  | zero => exact fun _ s _ => ⟨Touched.refl s.flash, rfl⟩
  | succ n ih =>
    intro i s hn
    have hsector := writeSector_touched s.flash
      (qSpiFlashRead s.flash (u32 (nvmFwBakOffset + i * flashSectorSize)) flashSectorSize)
      (show nvmFwMainOffset ≤ nvmFwBakOffset by decide) (by decide) (show i < fwSectors by omega)
    rw [otaReplace]
    dsimp only
    split
    · dsimp only
      exact ⟨hsector, rfl⟩
    · generalize hnext : OtaState.mk _ _ _ _ _ _ _ _ = t
      have hflash := congrArg OtaState.flash hnext
      have hsame := congrArg OtaState.upgradeSector hnext
      dsimp only at hflash hsame
      obtain ⟨hrest, hcount⟩ := ih (i + 1) t (show i + 1 + n ≤ fwSectors by omega)
      rw [← hflash] at hrest
      exact ⟨hsector.trans hrest, hcount.trans hsame.symm⟩

/-- The end of a download with a sector left: first the backup area, then the main image. -/
theorem otaFinish_touched (hleft : s.upgradeSector < fwSectors) :
    (otaFinish s).1.upgradeSector ≤ fwSectors ∧ ∃ f,
      Touched nvmFwBakOffset (nvmFwBakOffset + fwImgSizeMax) s.flash f ∧
      Touched nvmFwMainOffset (nvmFwMainOffset + fwImgSizeMax) f (otaFinish s).1.flash := by
  have hsector := writeSector_touched s.flash s.otaDataBuf (Nat.le_refl nvmFwBakOffset)
    (by decide) hleft
  have hcount : u32 ((s.upgradeSector : ℤ) + 1) = s.upgradeSector + 1 := by
    unfold fwSectors fwImgSizeMax flashSectorSize at hleft
    unfold u32
    omega
  rw [otaFinish]
  dsimp only
  rw [hcount]
  split
  · dsimp only
    exact ⟨hleft.le, _, hsector, Touched.refl _⟩
  · have hreplace := otaReplace_touched (s.upgradeSector + 1) 0 { s with
      upgradeFlag := s.upgradeFlag ||| upgradeOkfile
      flash := (qSpiWriteOneSector s.flash
        (u32 (nvmFwBakOffset + s.upgradeSector * flashSectorSize))
        s.otaDataBuf).1
      upgradeSector := s.upgradeSector + 1, writePtr := 0 } (by omega)
    dsimp only at hreplace
    generalize otaReplace (s.upgradeSector + 1) 0 _ = t at hreplace ⊢
    obtain ⟨hcopied, hcount⟩ := hreplace
    split
    · exact ⟨by rw [hcount]; exact hleft, _, hsector, hcopied⟩
    · exact ⟨Nat.zero_le _, _, hsector, hcopied⟩

/-- A full buffer with a sector left. -/
theorem otaWriteSector_touched (hleft : s.upgradeSector < fwSectors) :
    (otaWriteSector s).1.upgradeSector ≤ fwSectors ∧
      Touched nvmFwBakOffset (nvmFwBakOffset + fwImgSizeMax) s.flash
        (otaWriteSector s).1.flash := by
  have hsector := writeSector_touched s.flash s.otaDataBuf (Nat.le_refl nvmFwBakOffset)
    (by decide) hleft
  have hcount : u32 ((s.upgradeSector : ℤ) + 1) = s.upgradeSector + 1 := by
    unfold fwSectors fwImgSizeMax flashSectorSize at hleft
    unfold u32
    omega
  rw [otaWriteSector]
  dsimp only
  rw [hcount]
  split
  · split
    · exact ⟨hleft.le, hsector⟩
    · exact ⟨hleft, hsector⟩
  · exact ⟨hleft.le, Touched.refl s.flash⟩

/-- The start of the sector behind the backup area, which is the factory parameters' one, gets a
    program when no sector is left. -/
theorem writeSector_behind (f : Flash) (pBuf : List UInt8) (hfull : s.upgradeSector = fwSectors) :
    ∃ len, (nvmFwBakOffset + fwImgSizeMax, len) :: f.programs <:+
      (qSpiWriteOneSector f (u32 (nvmFwBakOffset + s.upgradeSector * flashSectorSize))
        pBuf).1.programs := by
  rw [hfull, sectorAddr_eq (Nat.le_refl _) (Nat.le_refl _)]
  exact writeOneSector_first f _ pBuf

/-- The programs of before stay in the record while the backup is copied. -/
theorem otaReplace_suffix (n : ℕ) : ∀ (i : ℕ) (s : OtaState),
    s.flash.programs <:+ (otaReplace n i s).flash.programs := by
  induction n with
  | zero => exact fun _ s => List.suffix_refl _
  | succ n ih =>
    intro i s
    obtain ⟨len, hfirst⟩ := writeOneSector_first s.flash
      (u32 (nvmFwMainOffset + i * flashSectorSize))
      (qSpiFlashRead s.flash (u32 (nvmFwBakOffset + i * flashSectorSize)) flashSectorSize)
    have hsector := (List.suffix_cons _ _).trans hfirst
    rw [otaReplace]
    dsimp only
    split
    · dsimp only
      exact hsector
    · generalize hnext : OtaState.mk _ _ _ _ _ _ _ _ = t
      have hflash := congrArg OtaState.flash hnext
      dsimp only at hflash
      rw [hflash] at hsector
      exact hsector.trans (ih (i + 1) t)

/-- The same for the two ways to write a sector. -/
theorem otaFinish_behind (hfull : s.upgradeSector = fwSectors) :
    ∃ len, (nvmFwBakOffset + fwImgSizeMax, len) :: s.flash.programs <:+
      (otaFinish s).1.flash.programs := by
  obtain ⟨len, hsector⟩ := writeSector_behind s.flash s.otaDataBuf hfull
  refine ⟨len, ?_⟩
  rw [otaFinish]
  dsimp only
  split
  · dsimp only
    exact hsector
  · have hcopied := otaReplace_suffix (u32 (s.upgradeSector + 1)) 0 { s with
      upgradeFlag := s.upgradeFlag ||| upgradeOkfile
      flash := (qSpiWriteOneSector s.flash
        (u32 (nvmFwBakOffset + s.upgradeSector * flashSectorSize))
        s.otaDataBuf).1
      upgradeSector := u32 (s.upgradeSector + 1), writePtr := 0 }
    dsimp only at hcopied
    generalize otaReplace (u32 (s.upgradeSector + 1)) 0 _ = t at hcopied ⊢
    split <;> exact hsector.trans hcopied

/-- A sector behind the last one of the area is written all the same. -/
theorem otaWriteSector_behind (hfull : s.upgradeSector = fwSectors)
    (hptr : s.writePtr = flashSectorSize) :
    ∃ len, (nvmFwBakOffset + fwImgSizeMax, len) :: s.flash.programs <:+
      (otaWriteSector s).1.flash.programs := by
  obtain ⟨len, hsector⟩ := writeSector_behind s.flash s.otaDataBuf hfull
  refine ⟨len, ?_⟩
  rw [otaWriteSector, if_pos hptr]
  dsimp only
  split <;> exact hsector

/-! ### One turn -/

/-- The new programs are those in front of the old ones. -/
theorem newPrograms_eq {f f' : Flash} {calls : List (ℕ × ℕ)}
    (h : f'.programs = calls ++ f.programs) : newPrograms f f' = calls := by
  rw [newPrograms, h, List.length_append, Nat.add_sub_cancel, List.take_left]

/-- What a turn did is in order. -/
structure TurnInAreas (completes : Prop) (f f' : Flash) : Prop where
  programs : ∀ c ∈ newPrograms f f', OtaInArea completes c
  outside : ∀ q, nvmFwMainOffset + fwImgSizeMax ≤ q → q < nvmFwBakOffset ∨
    nvmFwBakOffset + fwImgSizeMax ≤ q → f'.mem q = f.mem q

/-- A turn that writes nothing stays in the areas. -/
theorem turnInAreas_refl (completes : Prop) (f : Flash) : TurnInAreas completes f f :=
  ⟨fun c hc => by simp [newPrograms] at hc, fun _ _ _ => rfl⟩

/-- Writes to the backup area, and after a complete download to the main image behind them. -/
theorem turnInAreas_of_touched {completes : Prop} {f f₁ f₂ : Flash}
    (hbak : Touched nvmFwBakOffset (nvmFwBakOffset + fwImgSizeMax) f f₁)
    (hmain : Touched nvmFwMainOffset (nvmFwMainOffset + fwImgSizeMax) f₁ f₂)
    (hcompletes : f₂ = f₁ ∨ completes) : TurnInAreas completes f f₂ := by
  obtain ⟨calls, heq, hin⟩ := hbak.programs
  obtain ⟨calls', heq', hin'⟩ := hmain.programs
  constructor
  · rw [newPrograms_eq (show f₂.programs = (calls' ++ calls) ++ f.programs by
      rw [heq', heq, List.append_assoc])]
    intro c hc
    rcases List.mem_append.mp hc with hc | hc
    · refine Or.inr ⟨hcompletes.resolve_left fun hsame => ?_, hin' c hc⟩
      rw [hsame] at heq'
      have hnil : calls' = [] := List.self_eq_append_left.mp heq'
      rw [hnil] at hc
      exact List.not_mem_nil hc
    · exact Or.inl (hin c hc)
  · intro q hq hq'
    rw [hmain.mem q (Or.inr hq), hbak.mem q hq']

/-- The turn wrote behind the backup area. -/
theorem not_inAreas_of_behind {completes : Prop} {f f' : Flash} {len : ℕ}
    (h : (nvmFwBakOffset + fwImgSizeMax, len) :: f.programs <:+ f'.programs) :
    ∃ c ∈ newPrograms f f', ¬ OtaInArea completes c := by
  obtain ⟨calls, hcalls⟩ := h
  rw [List.append_cons] at hcalls
  refine ⟨(nvmFwBakOffset + fwImgSizeMax, len), ?_, ?_⟩
  · rw [newPrograms_eq hcalls.symm]
    simp
  · rintro (⟨-, hlt, -⟩ | ⟨-, -, hlt, -⟩)
    · exact absurd hlt (Nat.lt_irrefl _)
    · exact absurd hlt (show ¬ nvmFwBakOffset + fwImgSizeMax < nvmFwMainOffset + fwImgSizeMax by
        decide)

/-- The bytes that arrived are in the buffer. -/
def otaStored (s : OtaState) (bytes : List UInt8) : OtaState :=
  { s with
    otaDataBuf := writeAt s.otaDataBuf s.writePtr bytes
    recvFileSize := u32 (s.recvFileSize + bytes.length)
    writePtr := u32 (s.writePtr + bytes.length) }

/-- The last byte of the file finishes the upgrade, others fill the sector. -/
theorem otaReceived_eq (hne : bytes ≠ []) :
    otaReceived s bytes = if u32 (s.recvFileSize + bytes.length) = s.fileSize
      then otaFinish (otaStored s bytes) else otaWriteSector (otaStored s bytes) := by
  rw [otaReceived, if_neg hne]
  rfl

/-- A turn with a sector left, or without a sector to write, is in order. -/
theorem otaReceived_inAreas (hcount : s.upgradeSector ≤ fwSectors)
    (hleft : OtaCompletes s bytes ∨ OtaFills s bytes → s.upgradeSector < fwSectors) :
    TurnInAreas (OtaCompletes s bytes) s.flash (otaReceived s bytes).1.flash ∧
      (otaReceived s bytes).1.upgradeSector ≤ fwSectors := by
  by_cases hne : bytes = []
  · rw [otaReceived, if_pos hne]
    exact ⟨turnInAreas_refl _ _, hcount⟩
  · rw [otaReceived_eq hne]
    by_cases hlast : u32 (s.recvFileSize + bytes.length) = s.fileSize
    · rw [if_pos hlast]
      obtain ⟨hsectors, f, hbak, hmain⟩ :=
        @otaFinish_touched (otaStored s bytes) (hleft (Or.inl ⟨hne, hlast⟩))
      exact ⟨turnInAreas_of_touched hbak hmain (Or.inr ⟨hne, hlast⟩), hsectors⟩
    · rw [if_neg hlast]
      by_cases hfull : u32 (s.writePtr + bytes.length) = flashSectorSize
      · obtain ⟨hsectors, hbak⟩ :=
          @otaWriteSector_touched (otaStored s bytes) (hleft (Or.inr ⟨hne, hfull⟩))
        exact ⟨turnInAreas_of_touched hbak (Touched.refl _) (Or.inl rfl), hsectors⟩
      · rw [otaWriteSector, if_neg (show ¬ (otaStored s bytes).writePtr = _ from hfull)]
        exact ⟨turnInAreas_refl _ _, hcount⟩

/-- A turn that writes a sector when none is left is not. -/
theorem otaReceived_behind (hfull : s.upgradeSector = fwSectors)
    (hwrites : OtaCompletes s bytes ∨ OtaFills s bytes) :
    ∃ c ∈ newPrograms s.flash (otaReceived s bytes).1.flash,
      ¬ OtaInArea (OtaCompletes s bytes) c := by
  have hne : bytes ≠ [] := hwrites.elim And.left And.left
  rw [otaReceived_eq hne]
  by_cases hlast : u32 (s.recvFileSize + bytes.length) = s.fileSize
  · rw [if_pos hlast]
    obtain ⟨len, hbehind⟩ := @otaFinish_behind (otaStored s bytes) hfull
    exact not_inAreas_of_behind hbehind
  · have hfills : u32 (s.writePtr + bytes.length) = flashSectorSize :=
      (hwrites.resolve_left fun hc => hlast hc.2).2
    rw [if_neg hlast]
    obtain ⟨len, hbehind⟩ := @otaWriteSector_behind (otaStored s bytes) hfull hfills
    exact not_inAreas_of_behind hbehind

/-! ### Connections are runs -/

/-- A segment that fits is received whole. -/
theorem otaRecv_recvSegment (s : OtaState) (segments : List (List UInt8)) :
    otaRecv s (recvSegment segments (flashSectorSize - s.writePtr)).1
      = (recvSegment segments (flashSectorSize - s.writePtr)).1 := by
  unfold otaRecv recvSegment
  cases segments with
  | nil => exact List.take_nil
  | cons segment rest => exact List.take_take.trans (by rw [Nat.min_self])

/-- The receive loop of one connection is a sequence of turns. -/
theorem otaDataLoop_turns (n : ℕ) : ∀ (s : OtaState) (segments : List (List UInt8)),
    segments.flatten.length = n →
    ∃ chunks : List (List UInt8), (otaDataLoop s segments).1 = chunks.foldl otaTurn s := by
  induction n using Nat.strong_induction_on with
  | _ n ih =>
    intro s segments hn
    rw [otaDataLoop]
    by_cases hstart : s.upgradeFlag &&& upgradeStart = 0
    · rw [if_pos hstart]
      exact ⟨[], rfl⟩
    · rw [if_neg hstart]
      dsimp only
      have hflatten := recvSegment_flatten segments (flashSectorSize - (otaBegin s).writePtr)
      have hrecv := otaRecv_recvSegment (otaBegin s) segments
      generalize recvSegment segments (flashSectorSize - (otaBegin s).writePtr) = r at *
      have hturn : otaTurn s r.1 = (otaReceived (otaBegin s) r.1).1 := by
        rw [otaTurn, if_neg hstart, hrecv]
      by_cases hnil : r.1 = []
      · rw [if_pos hnil]
        exact ⟨[r.1], hturn.symm⟩
      · rw [if_neg hnil]
        cases hnext : (otaReceived (otaBegin s) r.1).2 with
        | more =>
          have hlength := congrArg List.length hflatten
          have hpos := List.length_pos_of_ne_nil hnil
          rw [List.length_append] at hlength
          obtain ⟨chunks, hchunks⟩ := ih r.2.flatten.length (by omega)
            (otaReceived (otaBegin s) r.1).1 r.2 rfl
          refine ⟨r.1 :: chunks, ?_⟩
          rw [List.foldl_cons, hturn]
          exact hchunks
        | closed => exact ⟨[r.1], hturn.symm⟩
        | updated => exact ⟨[r.1], hturn.symm⟩

/-- Chunks that arrive one after the other. -/
theorem run_turns (chunks : List (List UInt8)) : ∀ r : OtaRun,
    ∃ t, run otaStep r (chunks.map .turn) = some t ∧ t.ota = chunks.foldl otaTurn r.ota := by
  induction chunks with
  | nil => exact fun r => ⟨r, rfl, rfl⟩
  | cons chunk chunks ih =>
    intro r
    rw [List.map_cons, run_cons, otaStep, Option.bind_some, List.foldl_cons]
    exact ih _

/-- **The receive loop** of one connection is a run. -/
theorem otaDataLoop_run (r : OtaRun) (segments : List (List UInt8)) :
    ∃ es t, run otaStep r es = some t ∧ t.ota = (otaDataLoop r.ota segments).1 := by
  obtain ⟨chunks, hchunks⟩ := otaDataLoop_turns _ r.ota segments rfl
  obtain ⟨t, hrun, ht⟩ := run_turns chunks r
  exact ⟨chunks.map .turn, t, hrun, ht.trans hchunks.symm⟩

/-! ### Areas in runs -/

/-- The first packet does not write to the flash. -/
theorem otaBegin_flash (s : OtaState) : (otaBegin s).flash = s.flash := by
  unfold otaBegin
  split <;> rfl

/-- The first packet keeps the number of the sector. -/
theorem otaBegin_upgradeSector (s : OtaState) : (otaBegin s).upgradeSector = s.upgradeSector := by
  unfold otaBegin
  split <;> rfl

/-- A control packet writes nothing. -/
theorem fwUpgradeProcess_flash (s : OtaState) (fileSize : ℕ) (acked : Bool) :
    (fwUpgradeProcess s fileSize acked).flash = s.flash ∧
      (fwUpgradeProcess s fileSize acked).upgradeSector = s.upgradeSector := by
  unfold fwUpgradeProcess
  cases acked <;> exact ⟨rfl, rfl⟩

/-- What every state of a run that has not gone wrong fulfils. -/
structure OtaGood (m : Memory) (r : OtaRun) : Prop extends StaysInAreas m r where
  sectors : r.ota.upgradeSector ≤ fwSectors

/-- After a turn that is in order the run is good. -/
theorem OtaGood.of_turn {m : Memory} {r : OtaRun} {t : OtaState} {completes : Prop}
    [Decidable completes] (h : OtaGood m r)
    (harea : TurnInAreas completes r.ota.flash t.flash) (hsectors : t.upgradeSector ≤ fwSectors) :
    OtaGood m ⟨t, r.strayed ||
      ! (newPrograms r.ota.flash t.flash).all (OtaInArea completes ·)⟩ := by
  refine ⟨⟨?_, fun q hq hq' => ?_⟩, hsectors⟩
  · have hall : (newPrograms r.ota.flash t.flash).all (OtaInArea completes ·) = true :=
      List.all_eq_true.mpr fun c hc => decide_eq_true (harea.programs c hc)
    show (r.strayed || ! _) = false
    rw [h.not_strayed, hall]
    rfl
  · exact (harea.outside q hq hq').trans (h.outside q hq hq')

/-- After a program outside of its area it is not. -/
theorem not_staysInAreas_of_program {m : Memory} {r : OtaRun} {t : OtaState} {completes : Prop}
    [Decidable completes] {c : ℕ × ℕ} (hc : c ∈ newPrograms r.ota.flash t.flash)
    (hout : ¬ OtaInArea completes c) :
    ¬ StaysInAreas m ⟨t, r.strayed ||
      ! (newPrograms r.ota.flash t.flash).all (OtaInArea completes ·)⟩ := by
  intro hstays
  have hstrayed : (r.strayed ||
      ! (newPrograms r.ota.flash t.flash).all (OtaInArea completes ·)) = false :=
    hstays.not_strayed
  rw [Bool.or_eq_false_iff, Bool.not_eq_false', List.all_eq_true] at hstrayed
  exact hout (of_decide_eq_true (hstrayed.2 c hc))

/-- One step keeps the areas if it meets the condition, and leaves them if it does not. -/
theorem otaStep_good {m : Memory} {r r' : OtaRun} {e : OtaEvent} (h : OtaGood m r)
    (hstep : otaStep r e = some r') :
    (SectorLeft r e ∧ OtaGood m r') ∨ (¬ SectorLeft r e ∧ ¬ StaysInAreas m r') := by
  cases e with
  | announce fileSize acked =>
    obtain rfl := Option.some.inj hstep
    obtain ⟨hflash, hsectors⟩ := fwUpgradeProcess_flash r.ota fileSize.toNat acked
    refine Or.inl ⟨trivial, ⟨h.not_strayed, ?_⟩, ?_⟩
    · intro q hq hq'
      rw [hflash]
      exact h.outside q hq hq'
    · rw [hsectors]
      exact h.sectors
  | turn segment =>
    obtain rfl := Option.some.inj hstep
    have hcount := h.sectors
    rw [← otaBegin_upgradeSector] at hcount
    generalize hbytes : otaRecv (otaBegin r.ota) segment = bytes
    by_cases hstart : r.ota.upgradeFlag &&& upgradeStart = 0
    · have hturn : otaTurn r.ota segment = r.ota := by rw [otaTurn, if_pos hstart]
      refine Or.inl ⟨fun hne => absurd hstart hne, h.of_turn ?_ ?_⟩
      · rw [hturn]
        exact turnInAreas_refl _ _
      · rw [hturn]
        exact h.sectors
    · have hturn : otaTurn r.ota segment = (otaReceived (otaBegin r.ota) bytes).1 := by
        rw [otaTurn, if_neg hstart, hbytes]
      have hleft : SectorLeft r (.turn segment) ↔
          (OtaCompletes (otaBegin r.ota) bytes ∨ OtaFills (otaBegin r.ota) bytes →
            (otaBegin r.ota).upgradeSector < fwSectors) := by
        rw [SectorLeft, hbytes, otaBegin_upgradeSector]
        exact ⟨fun h => h hstart, fun h _ => h⟩
      by_cases hok : OtaCompletes (otaBegin r.ota) bytes ∨ OtaFills (otaBegin r.ota) bytes →
          (otaBegin r.ota).upgradeSector < fwSectors
      · obtain ⟨harea, hsectors⟩ := otaReceived_inAreas hcount hok
        rw [otaBegin_flash, ← hturn] at harea
        rw [← hturn] at hsectors
        exact Or.inl ⟨hleft.mpr hok, h.of_turn harea hsectors⟩
      · obtain ⟨hwrites, hfull⟩ := Classical.not_imp.mp hok
        obtain ⟨c, hc, hout⟩ := otaReceived_behind
          (Nat.le_antisymm hcount (Nat.not_lt.mp hfull)) hwrites
        rw [otaBegin_flash, ← hturn] at hc
        exact Or.inr ⟨fun hc => hok (hleft.mp hc), not_staysInAreas_of_program hc hout⟩

/-- After a boot the flash is as it was. -/
theorem otaGood_boot (buf : List UInt8) (flash : Flash) :
    OtaGood flash.mem (otaRunBoot buf flash) := ⟨⟨rfl, fun _ _ _ => rfl⟩, Nat.zero_le _⟩

/-- Every step is possible. -/
theorem otaRun_isSome (es : List OtaEvent) : ∀ r : OtaRun, (run otaStep r es).isSome := by
  induction es with
  | nil => exact fun _ => rfl
  | cons e es ih =>
    intro r
    rw [run_cons]
    cases e <;> exact ih _

/-- From any good state on. -/
theorem staysInAreas_iff {m : Memory} {r : OtaRun} (h : OtaGood m r) (es : List OtaEvent) :
    Always otaStep (StaysInAreas m) r es ↔ Along otaStep SectorLeft r es :=
  always_iff_along (fun _ h => h.toStaysInAreas) (fun _ _ _ h hstep => otaStep_good h hstep)
    es r h (otaRun_isSome es r)

/-- **A firmware update stays in its areas** in exactly the runs in which every sector that is
    written finds room in the backup area. -/
theorem ota_stays_in_areas_iff (buf : List UInt8) (flash : Flash) (es : List OtaEvent) :
    Always otaStep (StaysInAreas flash.mem) (otaRunBoot buf flash) es ↔
      Along otaStep SectorLeft (otaRunBoot buf flash) es :=
  staysInAreas_iff (otaGood_boot buf flash) es

/-! ### A file that is too long -/

/-- After `k` full sectors of a file of 4294967295 bytes. -/
structure LongFile (k : ℕ) (s : OtaState) : Prop where
  start : s.upgradeFlag &&& upgradeStart ≠ 0
  begun : otaBegin s = { s with
    upgradeFlag := upgradeStart ||| upgradeDoing, writePtr := 0
    recvFileSize := k * flashSectorSize }
  fileSize : s.fileSize = 4294967295
  sectors : s.upgradeSector = k
  buf : s.otaDataBuf.length = flashSectorSize

/-- A sector of zeros. -/
def zeroSector : List UInt8 := List.replicate flashSectorSize 0

/-- The sector is full. -/
theorem length_zeroSector : zeroSector.length = flashSectorSize := List.length_replicate

/-- A whole sector is received at once. -/
theorem LongFile.recv {k : ℕ} (h : LongFile k s) :
    otaRecv (otaBegin s) zeroSector = zeroSector := by
  rw [otaRecv, h.begun]
  exact List.take_of_length_le (by rw [length_zeroSector]; exact Nat.le_refl _)

/-- The sector fills the buffer. -/
theorem LongFile.fills {k : ℕ} (h : LongFile k s) :
    OtaFills (otaBegin s) (otaRecv (otaBegin s) zeroSector) := by
  rw [h.recv]
  refine ⟨List.ne_nil_of_length_pos (by rw [length_zeroSector]; decide), ?_⟩
  rw [length_zeroSector, h.begun]
  show u32 ((0 : ℕ) + flashSectorSize) = flashSectorSize
  decide

/-- Each turn writes one more sector. -/
theorem LongFile.turn {k : ℕ} (h : LongFile k s) (hk : k < fwSectors) :
    LongFile (k + 1) (otaTurn s zeroSector) := by
  have hlength : (writeAt s.otaDataBuf 0 zeroSector).length = flashSectorSize := by
    rw [length_writeAt (by rw [h.buf, length_zeroSector]; decide), h.buf]
  have hrecv : u32 (((k * flashSectorSize : ℕ) : ℤ) + zeroSector.length)
      = (k + 1) * flashSectorSize := by
    rw [length_zeroSector]
    unfold fwSectors fwImgSizeMax flashSectorSize at *
    unfold u32
    omega
  have hmore : (k + 1) * flashSectorSize ≠ 4294967295 := by
    unfold flashSectorSize
    omega
  have hcount : u32 ((k : ℤ) + 1) = k + 1 := by
    unfold fwSectors fwImgSizeMax flashSectorSize at hk
    unfold u32
    omega
  obtain ⟨f, hwrite, -⟩ := qSpiWriteOneSector_spec s.flash
    (show (nvmFwBakOffset + k * flashSectorSize) % flashSectorSize = 0 by
      rw [Nat.add_mul_mod_self_right]; decide)
    (by unfold fwSectors fwImgSizeMax nvmFwBakOffset flashSectorSize at *; omega) hlength
  have hstored : otaStored { s with
      upgradeFlag := upgradeStart ||| upgradeDoing, writePtr := 0
      recvFileSize := k * flashSectorSize } zeroSector = { s with
      otaDataBuf := writeAt s.otaDataBuf 0 zeroSector
      writePtr := flashSectorSize, upgradeFlag := upgradeStart ||| upgradeDoing
      recvFileSize := (k + 1) * flashSectorSize } := by
    rw [otaStored]
    dsimp only
    rw [hrecv, length_zeroSector, show u32 ((0 : ℕ) + flashSectorSize) = flashSectorSize by decide]
  have hturn : otaTurn s zeroSector = { s with
      otaDataBuf := writeAt s.otaDataBuf 0 zeroSector
      writePtr := 0, upgradeFlag := upgradeStart ||| upgradeDoing
      recvFileSize := (k + 1) * flashSectorSize, upgradeSector := k + 1, flash := f } := by
    rw [otaTurn, if_neg h.start, h.recv, h.begun,
      otaReceived_eq (List.ne_nil_of_length_pos (by rw [length_zeroSector]; decide)), hstored]
    dsimp only
    rw [hrecv, h.fileSize, if_neg hmore, otaWriteSector]
    dsimp only
    rw [if_pos rfl, h.sectors, sectorAddr_eq (Nat.le_refl _) hk.le, hwrite, hcount]
    rfl
  rw [hturn]
  refine ⟨?_, ?_, h.fileSize, rfl, hlength⟩
  · show (upgradeStart ||| upgradeDoing) &&& upgradeStart ≠ 0
    decide
  · rw [otaBegin]
    exact if_neg (show ¬ (upgradeStart ||| upgradeDoing) &&& upgradeDoing = 0 by decide)

/-- A run of such turns fails the condition when the backup area is full. -/
theorem longFile_not_along (n : ℕ) : ∀ {k : ℕ} {r : OtaRun}, LongFile k r.ota →
    k + n = fwSectors →
    ¬ Along otaStep SectorLeft r (List.replicate (n + 1) (.turn zeroSector)) := by
  induction n with
  | zero =>
    intro k r h hk hok
    have hleft := hok.1 h.start (Or.inr h.fills)
    rw [h.sectors] at hleft
    omega
  | succ n ih =>
    intro k r h hk hok
    exact ih (h.turn (by omega)) (by omega) (hok.2 _ rfl)

/-- 49 sectors of a file that is announced with 4294967295 bytes: the last one is programmed over
    the factory parameters. -/
theorem ota_leaves_areas :
    ¬ Always otaStep (StaysInAreas fun _ => 0) (otaRunBoot zeroSector ⟨fun _ => 0, []⟩)
      (.announce 4294967295 true :: List.replicate 49 (.turn zeroSector)) := by
  intro h
  have hok := (staysInAreas_iff (otaGood_boot zeroSector ⟨fun _ => 0, []⟩) _).mp h
  have hfile :
      LongFile 0 (fwUpgradeProcess (otaBoot zeroSector ⟨fun _ => 0, []⟩) 4294967295 true) :=
    ⟨by decide, rfl, rfl, rfl, length_zeroSector⟩
  exact longFile_not_along 48 hfile (by decide) (hok.2 _ rfl)

end SerialNet
