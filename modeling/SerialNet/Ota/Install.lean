import SerialNet.Lib.Run
import SerialNet.Ota.Upgrade

namespace SerialNet

/-!
# What a reported firmware update leaves in the flash

While a file arrives, what has been received is what lies in the backup area up to sector
`upgradeSector`, followed by the used part of the buffer (`OtaHolds`).  The last bytes complete
the last sector, and the copy makes the main image start with the same bytes.

`upgradeSector` is set back only when an update ends with success.  If a connection is lost after
the first sector was written, the next file is stored behind the sectors of the lost one.  So the
installed file is the right one as long as every completed transfer starts with `upgradeSector` 0
(`update_installs_file`).
-/

/-- No transfer is going on. -/
structure OtaIdle (s : OtaState) : Prop where
  flag : s.upgradeFlag = 0 ∨ s.upgradeFlag = upgradeStart
  ret : s.ret = 0
  buf : s.otaDataBuf.length = flashSectorSize

/-- A transfer of `left` more bytes is going on. -/
structure OtaDoing (s : OtaState) (left : ℕ) : Prop where
  flag : s.upgradeFlag = upgradeStart ||| upgradeDoing
  ret : s.ret = 0
  buf : s.otaDataBuf.length = flashSectorSize
  ptr : s.writePtr < flashSectorSize
  left : s.recvFileSize + left = s.fileSize
  size : s.fileSize ≤ fwImgSizeMax

/-- The sectors in the backup area and the used part of the buffer hold `content`. -/
def OtaHolds (s : OtaState) (content : List UInt8) : Prop :=
  loadBytes s.flash.mem nvmFwBakOffset (s.upgradeSector * flashSectorSize)
    ++ s.otaDataBuf.take s.writePtr = content

theorem OtaHolds.length {s : OtaState} {content : List UInt8} (h : OtaHolds s content)
    {left : ℕ} (hd : OtaDoing s left) :
    s.upgradeSector * flashSectorSize + s.writePtr = content.length := by
  have hptr := hd.ptr
  rw [← h, List.length_append, length_loadBytes, List.length_take, hd.buf]
  omega

/-! ### Sectors -/

/-- A sector of an area of the flash can be written. -/
theorem writeSectorOf (f : Flash) {base k : ℕ} {buf : List UInt8}
    (hbase : base % flashSectorSize = 0) (hend : base + (k + 1) * flashSectorSize ≤ 16777216)
    (hbuf : buf.length = flashSectorSize) :
    ∃ f', qSpiWriteOneSector f (u32 (base + k * flashSectorSize)) buf = (f', 0) ∧
      f'.mem = storeBytes f.mem (base + k * flashSectorSize) buf := by
  unfold flashSectorSize at hbase hend
  have hadr : u32 ((base : ℤ) + k * flashSectorSize) = base + k * flashSectorSize := by
    unfold u32 flashSectorSize
    omega
  rw [hadr]
  obtain ⟨f', hwrite, hmem, -⟩ := qSpiWriteOneSector_spec f
    (show (base + k * flashSectorSize) % flashSectorSize = 0 by unfold flashSectorSize; omega)
    (by unfold flashSectorSize; omega) hbuf
  exact ⟨f', hwrite, hmem⟩

/-- The copy of `n` sectors from the backup area to the main image. -/
theorem otaReplace_spec (n : ℕ) : ∀ (i : ℕ) (s : OtaState),
    (i + n) * flashSectorSize ≤ nvmFwBakOffset → s.otaDataBuf.length = flashSectorSize →
    ∃ buf f, otaReplace n i s = { s with otaDataBuf := buf, flash := f } ∧
      buf.length = flashSectorSize ∧
      loadBytes f.mem nvmFwMainOffset ((i + n) * flashSectorSize)
        = loadBytes s.flash.mem nvmFwMainOffset (i * flashSectorSize)
          ++ loadBytes s.flash.mem (nvmFwBakOffset + i * flashSectorSize) (n * flashSectorSize) := by
  induction n with
  | zero =>
    intro i s _ hbuf
    refine ⟨s.otaDataBuf, s.flash, rfl, hbuf, ?_⟩
    simp [loadBytes]
  | succ n ih =>
    intro i s hend hbuf
    have hend' : (i + 1 + n) * flashSectorSize ≤ nvmFwBakOffset := by
      rwa [Nat.add_assoc, Nat.add_comm 1 n]
    unfold flashSectorSize nvmFwBakOffset at hend
    have hadr : u32 ((nvmFwBakOffset : ℤ) + i * flashSectorSize)
        = nvmFwBakOffset + i * flashSectorSize := by
      unfold u32 nvmFwBakOffset flashSectorSize
      omega
    rw [otaReplace, hadr, qSpiFlashRead_eq _ (by unfold nvmFwBakOffset flashSectorSize; omega)]
    have hlen : (loadBytes s.flash.mem (nvmFwBakOffset + i * flashSectorSize)
        flashSectorSize).length = flashSectorSize := length_loadBytes _ _ _
    generalize hsector : loadBytes s.flash.mem (nvmFwBakOffset + i * flashSectorSize)
      flashSectorSize = sector at hlen ⊢
    obtain ⟨f₁, hwrite, hmem⟩ : ∃ f', qSpiWriteOneSector s.flash
        (u32 ((nvmFwMainOffset : ℤ) + i * flashSectorSize)) sector = (f', 0) ∧
        f'.mem = storeBytes s.flash.mem (nvmFwMainOffset + i * flashSectorSize) sector :=
      writeSectorOf s.flash (by decide) (by unfold nvmFwMainOffset flashSectorSize; omega) hlen
    simp only [hwrite]
    rw [if_neg (fun h => h rfl)]
    obtain ⟨buf, f, hloop, hbuf', hload⟩ := ih (i + 1)
      { s with otaDataBuf := sector, flash := f₁ } hend' hlen
    refine ⟨buf, f, hloop, hbuf', ?_⟩
    -- the copied sector extends the image, the rest of the backup area is as before
    have himage : loadBytes f₁.mem nvmFwMainOffset ((i + 1) * flashSectorSize)
        = loadBytes s.flash.mem nvmFwMainOffset (i * flashSectorSize) ++ sector := by
      rw [hmem, Nat.add_mul, Nat.one_mul, ← hlen, loadBytes_storeBytes_append]
    have hrest : loadBytes f₁.mem (nvmFwBakOffset + (i + 1) * flashSectorSize)
          (n * flashSectorSize)
        = loadBytes s.flash.mem (nvmFwBakOffset + (i + 1) * flashSectorSize)
          (n * flashSectorSize) := by
      rw [hmem]
      refine loadBytes_storeBytes_disjoint _ (Or.inr ?_)
      rw [hlen]
      unfold nvmFwMainOffset nvmFwBakOffset flashSectorSize
      omega
    rw [show i + (n + 1) = i + 1 + n by omega, hload]
    show loadBytes f₁.mem _ _ ++ loadBytes f₁.mem _ _ = _
    rw [himage, hrest, List.append_assoc, ← hsector, Nat.add_mul i 1, Nat.one_mul,
      ← Nat.add_assoc, ← loadBytes_add, Nat.add_mul n 1, Nat.one_mul,
      Nat.add_comm flashSectorSize]

/-! ### One turn of the loop -/

/-- The bytes are in the buffer and counted. -/
def OtaState.stored (s : OtaState) (bytes : List UInt8) : OtaState :=
  { s with
    otaDataBuf := writeAt s.otaDataBuf s.writePtr bytes
    recvFileSize := s.recvFileSize + bytes.length, writePtr := s.writePtr + bytes.length }

variable {s : OtaState} {left : ℕ} {bytes content : List UInt8}

/-- The bytes of one `recv` fit into the buffer, and no counter overflows. -/
theorem OtaDoing.received_eq (h : OtaDoing s (bytes.length + left)) (hne : bytes ≠ [])
    (hfit : bytes.length ≤ flashSectorSize - s.writePtr) :
    otaReceived s bytes =
      (if (s.stored bytes).recvFileSize = (s.stored bytes).fileSize then otaFinish (s.stored bytes)
        else otaWriteSector (s.stored bytes)) ∧
    (s.stored bytes).otaDataBuf.length = flashSectorSize ∧
    (s.stored bytes).writePtr ≤ flashSectorSize ∧
    (s.stored bytes).recvFileSize + left = (s.stored bytes).fileSize := by
  have hleft := h.left
  have hsize := h.size
  have hptr := h.ptr
  unfold fwImgSizeMax at hsize
  have hrecv : u32 ((s.recvFileSize : ℤ) + bytes.length) = s.recvFileSize + bytes.length := by
    unfold u32
    omega
  have hwrite : u32 ((s.writePtr : ℤ) + bytes.length) = s.writePtr + bytes.length := by
    unfold u32 flashSectorSize at *
    omega
  refine ⟨?_, ?_, ?_, ?_⟩
  · rw [otaReceived, if_neg hne, hrecv, hwrite]
    rfl
  · show (writeAt s.otaDataBuf s.writePtr bytes).length = _
    rw [length_writeAt (by rw [h.buf]; omega), h.buf]
  · show s.writePtr + bytes.length ≤ _
    omega
  · show s.recvFileSize + bytes.length + left = s.fileSize
    omega

theorem OtaHolds.stored (h : OtaHolds s content) (hptr : s.writePtr ≤ s.otaDataBuf.length) :
    OtaHolds (s.stored bytes) (content ++ bytes) := by
  show loadBytes s.flash.mem nvmFwBakOffset (s.upgradeSector * flashSectorSize)
    ++ (writeAt s.otaDataBuf s.writePtr bytes).take (s.writePtr + bytes.length) = _
  rw [take_writeAt hptr, ← h, List.append_assoc]

/-- A full buffer becomes the next sector of the backup area. -/
theorem OtaHolds.write (h : OtaHolds s content) (hbuf : s.otaDataBuf.length = flashSectorSize)
    (hend : (s.upgradeSector + 1) * flashSectorSize ≤ nvmFwBakOffset) :
    ∃ f, qSpiWriteOneSector s.flash (u32 (nvmFwBakOffset + s.upgradeSector * flashSectorSize))
        s.otaDataBuf = (f, 0) ∧
      u32 (s.upgradeSector + 1) = s.upgradeSector + 1 ∧
      content <+: loadBytes f.mem nvmFwBakOffset ((s.upgradeSector + 1) * flashSectorSize) ∧
      (s.writePtr = flashSectorSize →
        loadBytes f.mem nvmFwBakOffset ((s.upgradeSector + 1) * flashSectorSize) = content) := by
  have hend' : nvmFwBakOffset + (s.upgradeSector + 1) * flashSectorSize ≤ 16777216 := by
    unfold nvmFwBakOffset at *
    omega
  obtain ⟨f, hwrite, hmem⟩ := writeSectorOf s.flash (show nvmFwBakOffset % flashSectorSize = 0 by
    decide) hend' hbuf
  have hload : loadBytes f.mem nvmFwBakOffset ((s.upgradeSector + 1) * flashSectorSize)
      = loadBytes s.flash.mem nvmFwBakOffset (s.upgradeSector * flashSectorSize)
        ++ s.otaDataBuf := by
    rw [hmem, Nat.add_mul, Nat.one_mul, ← hbuf, loadBytes_storeBytes_append]
  refine ⟨f, hwrite, ?_, ?_, fun hptr => ?_⟩
  · unfold u32 nvmFwBakOffset flashSectorSize at *
    omega
  · rw [hload, ← h]
    exact (List.prefix_append_right_inj _).mpr (List.take_prefix _ _)
  · rw [hload, ← h, hptr, ← hbuf, List.take_length]

/-- The end of an update: success is reported, and the main image starts with what was
    received. -/
theorem otaFinish_spec (h : OtaHolds s content) (hbuf : s.otaDataBuf.length = flashSectorSize)
    (hret : s.ret = 0) (hend : (s.upgradeSector + 1) * flashSectorSize ≤ nvmFwBakOffset) :
    (otaFinish s).2 = .updated ∧ OtaIdle (otaFinish s).1 ∧ (otaFinish s).1.upgradeSector = 0 ∧
      loadBytes (otaFinish s).1.flash.mem nvmFwMainOffset content.length = content := by
  obtain ⟨f, hwrite, hsector, hprefix, -⟩ := h.write hbuf hend
  obtain ⟨buf, f', hloop, hbuf', hload⟩ := otaReplace_spec (s.upgradeSector + 1) 0
    { s with
      upgradeFlag := s.upgradeFlag ||| upgradeOkfile, flash := f
      upgradeSector := s.upgradeSector + 1, writePtr := 0 } (by rw [Nat.zero_add]; exact hend) hbuf
  rw [Nat.zero_mul, Nat.add_zero, Nat.zero_add] at hload
  have hfinish : otaFinish s = ({ s with
      otaDataBuf := buf, flash := f', upgradeFlag := 0, upgradeSector := 0, recvFileSize := 0
      writePtr := 0 }, .updated) := by
    rw [otaFinish]
    simp only [hwrite, hsector, hloop]
    rw [if_neg (fun h => h rfl), if_neg (by rw [hret]; decide)]
  rw [hfinish]
  refine ⟨rfl, ⟨.inl rfl, hret, hbuf'⟩, rfl, ?_⟩
  rw [List.prefix_iff_eq_take] at hprefix
  have hle : content.length ≤ (s.upgradeSector + 1) * flashSectorSize := by
    have hlen := congrArg List.length hprefix
    rw [List.length_take, length_loadBytes] at hlen
    omega
  rw [← take_loadBytes f'.mem nvmFwMainOffset hle, hload]
  exact hprefix.symm

/-- While bytes are missing the loop goes on, or a sector cannot be written. -/
theorem otaReceived_more (h : OtaDoing s (bytes.length + left)) (hne : bytes ≠ [])
    (hfit : bytes.length ≤ flashSectorSize - s.writePtr) (hleft : 0 < left) :
    ((otaReceived s bytes).2 = .more ∧ OtaDoing (otaReceived s bytes).1 left) ∨
      ((otaReceived s bytes).2 = .closed ∧ OtaIdle (otaReceived s bytes).1) := by
  obtain ⟨heq, hbuf, hptr, hdoing⟩ := h.received_eq hne hfit
  rw [heq, if_neg (by omega), otaWriteSector]
  by_cases hfull : (s.stored bytes).writePtr = flashSectorSize
  · rw [if_pos hfull]
    by_cases hwrite : (qSpiWriteOneSector (s.stored bytes).flash (u32 (nvmFwBakOffset
        + (s.stored bytes).upgradeSector * flashSectorSize)) (s.stored bytes).otaDataBuf).2 = 0
    · simp only [hwrite]
      rw [if_neg (fun h => h rfl)]
      exact .inl ⟨rfl, h.flag, h.ret, hbuf, Nat.zero_lt_succ _, hdoing, h.size⟩
    · simp only [ne_eq, hwrite, not_false_eq_true, if_true]
      exact .inr ⟨trivial, .inl rfl, h.ret, hbuf⟩
  · rw [if_neg hfull]
    exact .inl ⟨rfl, h.flag, h.ret, hbuf, Nat.lt_of_le_of_ne hptr hfull, hdoing, h.size⟩

/-- As long as the backup area is large enough, what has been received is kept. -/
theorem otaReceived_holds (h : OtaDoing s (bytes.length + left)) (hne : bytes ≠ [])
    (hfit : bytes.length ≤ flashSectorSize - s.writePtr) (hleft : 0 < left)
    (hholds : OtaHolds s content) (hroom : content.length + bytes.length ≤ nvmFwBakOffset) :
    (otaReceived s bytes).2 = .more ∧ OtaHolds (otaReceived s bytes).1 (content ++ bytes) := by
  obtain ⟨heq, hbuf, hptr, hdoing⟩ := h.received_eq hne hfit
  have hcontent := hholds.length h
  have hnext : OtaHolds (s.stored bytes) (content ++ bytes) :=
    hholds.stored (by rw [h.buf]; exact h.ptr.le)
  rw [heq, if_neg (by omega), otaWriteSector]
  by_cases hfull : (s.stored bytes).writePtr = flashSectorSize
  · have hend : ((s.stored bytes).upgradeSector + 1) * flashSectorSize ≤ nvmFwBakOffset := by
      have : s.writePtr + bytes.length = flashSectorSize := hfull
      show (s.upgradeSector + 1) * flashSectorSize ≤ nvmFwBakOffset
      rw [Nat.add_mul]
      omega
    obtain ⟨f, hwrite, hsector, -, hload⟩ := hnext.write hbuf hend
    rw [if_pos hfull, hwrite, hsector]
    refine ⟨rfl, ?_⟩
    show loadBytes f.mem nvmFwBakOffset (((s.stored bytes).upgradeSector + 1) * flashSectorSize)
      ++ List.take 0 (s.stored bytes).otaDataBuf = _
    rw [hload hfull, List.take_zero, List.append_nil]
  · rw [if_neg hfull]
    exact ⟨rfl, hnext⟩

/-- The last bytes: success is reported, and the main image starts with all that was received. -/
theorem otaReceived_last (h : OtaDoing s bytes.length) (hne : bytes ≠ [])
    (hfit : bytes.length ≤ flashSectorSize - s.writePtr) (hholds : OtaHolds s content)
    (hroom : content.length + bytes.length ≤ nvmFwBakOffset) :
    (otaReceived s bytes).2 = .updated ∧ OtaIdle (otaReceived s bytes).1 ∧
      (otaReceived s bytes).1.upgradeSector = 0 ∧
      loadBytes (otaReceived s bytes).1.flash.mem nvmFwMainOffset (content ++ bytes).length
        = content ++ bytes := by
  obtain ⟨heq, hbuf, hptr, hdoing⟩ := (show OtaDoing s (bytes.length + 0) from h).received_eq hne
    hfit
  have hcontent := hholds.length h
  have hnext : OtaHolds (s.stored bytes) (content ++ bytes) :=
    hholds.stored (by rw [h.buf]; exact h.ptr.le)
  have hend : ((s.stored bytes).upgradeSector + 1) * flashSectorSize ≤ nvmFwBakOffset := by
    have hpos := List.length_pos_of_ne_nil hne
    show (s.upgradeSector + 1) * flashSectorSize ≤ nvmFwBakOffset
    unfold nvmFwBakOffset flashSectorSize at *
    omega
  rw [heq, if_pos (by omega)]
  exact otaFinish_spec hnext hbuf h.ret hend

/-! ### The loop -/

variable {segments : List (List UInt8)}

/-- `recv` returns what fits, and something as long as there is something. -/
theorem recvSegment_spec {len : ℕ} (hlen : 0 < len) (hne : ∀ segment ∈ segments, segment ≠ []) :
    (recvSegment segments len).1.length ≤ len ∧
      (segments ≠ [] → (recvSegment segments len).1 ≠ []) ∧
      ∀ segment ∈ (recvSegment segments len).2, segment ≠ [] := by
  cases segments with
  | nil => simp [recvSegment]
  | cons segment rest =>
    have hpos := List.length_pos_of_ne_nil (hne segment (by simp))
    refine ⟨by simp [recvSegment], fun _ => ?_, ?_⟩
    · apply List.ne_nil_of_length_pos
      simp only [recvSegment, List.length_take]
      omega
    · intro segment' hmem
      simp only [recvSegment] at hmem
      split at hmem
      · rcases List.mem_cons.mp hmem with rfl | hmem
        · apply List.ne_nil_of_length_pos
          rw [List.length_drop]
          omega
        · exact hne segment' (by simp [hmem])
      · exact hne segment' (by simp [hmem])

/-- A turn of the loop in the middle of a transfer. -/
theorem OtaDoing.loop_eq (h : OtaDoing s left) (segments : List (List UInt8)) :
    otaDataLoop s segments =
      let r := recvSegment segments (flashSectorSize - s.writePtr)
      if r.1 = [] then ((otaReceived s r.1).1, false)
      else match (otaReceived s r.1).2 with
        | .more => otaDataLoop (otaReceived s r.1).1 r.2
        | .closed => ((otaReceived s r.1).1, false)
        | .updated => ((otaReceived s r.1).1, true) := by
  have hbegin : otaBegin s = s := by
    rw [otaBegin, h.flag, if_neg (by decide)]
  rewrite [otaDataLoop, h.flag, if_neg (by decide), hbegin]
  rfl

/-- If the connection is lost before the last byte, no success is reported, and what has been
    received stays, as long as there is room for it. -/
theorem otaDataLoop_lost (n : ℕ) : ∀ {s : OtaState} {segments : List (List UInt8)},
    segments.flatten.length = n → (∀ segment ∈ segments, segment ≠ []) → 0 < left →
    OtaDoing s (n + left) →
    (otaDataLoop s segments).2 = false ∧ OtaIdle (otaDataLoop s segments).1 ∧
      ∀ content, OtaHolds s content → content.length + n ≤ nvmFwBakOffset →
        OtaHolds (otaDataLoop s segments).1 (content ++ segments.flatten) ∧
        (otaDataLoop s segments).1.writePtr < flashSectorSize := by
  induction n using Nat.strong_induction_on with
  | _ n ih =>
    intro s segments hn hne hleft h
    have hptr := h.ptr
    obtain ⟨hfit, hsome, hne'⟩ := recvSegment_spec
      (show 0 < flashSectorSize - s.writePtr by omega) hne
    have hflatten := recvSegment_flatten segments (flashSectorSize - s.writePtr)
    rw [h.loop_eq]
    generalize recvSegment segments (flashSectorSize - s.writePtr) = r at *
    dsimp only
    -- no more bytes: `recv` reports that the connection is gone
    by_cases hr : r.1 = []
    · have hnil : segments = [] := by
        by_contra hsegments
        exact hsome hsegments hr
      rw [if_pos hr, hr, otaReceived, if_pos rfl, hnil]
      refine ⟨rfl, ⟨.inl rfl, h.ret, h.buf⟩, fun content hholds _ => ⟨?_, hptr⟩⟩
      rw [List.flatten_nil, List.append_nil]
      exact hholds
    · rw [if_neg hr]
      have hlen := congrArg List.length hflatten
      have hpos := List.length_pos_of_ne_nil hr
      rw [List.length_append, hn] at hlen
      have hd : OtaDoing s (r.1.length + (r.2.flatten.length + left)) := by
        rw [← Nat.add_assoc, hlen]
        exact h
      -- the turn ends in the middle of the transfer, or a verify after writing failed
      rcases otaReceived_more hd hr hfit (by omega) with ⟨hnext, hmore⟩ | ⟨hnext, hidle⟩
      · obtain ⟨hreport, hidle, hkeeps⟩ := ih _ (by omega) rfl hne' hleft hmore
        rw [hnext]
        refine ⟨hreport, hidle, fun content hholds hroom => ?_⟩
        obtain ⟨-, hholds'⟩ := otaReceived_holds hd hr hfit (by omega) hholds (by omega)
        rw [← hflatten, ← List.append_assoc]
        exact hkeeps _ hholds' (by rw [List.length_append]; omega)
      · rw [hnext]
        refine ⟨rfl, hidle, fun content hholds hroom => ?_⟩
        obtain ⟨hmore, -⟩ := otaReceived_holds hd hr hfit (by omega) hholds (by omega)
        rw [hnext] at hmore
        cases hmore

/-- If all bytes arrive, success is reported, and the main image starts with all that has been
    received since `upgradeSector` was 0. -/
theorem otaDataLoop_completed (n : ℕ) : ∀ {s : OtaState} {segments : List (List UInt8)}
    {content : List UInt8}, segments.flatten.length = n → (∀ segment ∈ segments, segment ≠ []) →
    0 < n → OtaDoing s n → OtaHolds s content → content.length + n ≤ nvmFwBakOffset →
    (otaDataLoop s segments).2 = true ∧ OtaIdle (otaDataLoop s segments).1 ∧
      (otaDataLoop s segments).1.upgradeSector = 0 ∧
      loadBytes (otaDataLoop s segments).1.flash.mem nvmFwMainOffset
          (content ++ segments.flatten).length = content ++ segments.flatten := by
  induction n using Nat.strong_induction_on with
  | _ n ih =>
    intro s segments content hn hne hn0 h hholds hroom
    have hptr := h.ptr
    obtain ⟨hfit, hsome, hne'⟩ := recvSegment_spec
      (show 0 < flashSectorSize - s.writePtr by omega) hne
    have hflatten := recvSegment_flatten segments (flashSectorSize - s.writePtr)
    have hsegments : segments ≠ [] := by
      intro hnil
      rw [hnil] at hn
      simp at hn
      omega
    rw [h.loop_eq]
    generalize recvSegment segments (flashSectorSize - s.writePtr) = r at *
    dsimp only
    have hr := hsome hsegments
    rw [if_neg hr]
    have hlen := congrArg List.length hflatten
    have hpos := List.length_pos_of_ne_nil hr
    rw [List.length_append, hn] at hlen
    -- the last bytes of the file complete the update
    by_cases hlast : r.2.flatten = []
    · rw [hlast, List.append_nil] at hflatten
      rw [hlast, List.length_nil, Nat.add_zero] at hlen
      rw [← hlen] at h hroom
      obtain ⟨hnext, hrest⟩ := otaReceived_last h hr hfit hholds hroom
      rw [hnext, ← hflatten]
      exact ⟨rfl, hrest⟩
    · have hrest := List.length_pos_of_ne_nil hlast
      have hd : OtaDoing s (r.1.length + r.2.flatten.length) := hlen ▸ h
      obtain ⟨hnext, hholds'⟩ := otaReceived_holds hd hr hfit hrest hholds (by omega)
      -- a turn that keeps the data does not close the connection
      have hmore : OtaDoing (otaReceived s r.1).1 r.2.flatten.length := by
        rcases otaReceived_more hd hr hfit hrest with ⟨-, hmore⟩ | ⟨hclosed, -⟩
        · exact hmore
        · rw [hclosed] at hnext
          cases hnext
      rw [hnext, ← hflatten, ← List.append_assoc]
      exact ih _ (by omega) rfl hne' hrest hmore hholds' (by rw [List.length_append]; omega)

/-! ### Transfers -/

/-- The state in which the first bytes of an acknowledged transfer arrive. -/
def OtaState.begun (s : OtaState) (fileSize : ℕ) : OtaState :=
  { s with
    upgradeFlag := upgradeStart ||| upgradeDoing, fileSize := fileSize, writePtr := 0
    recvFileSize := 0 }

theorem OtaIdle.begun (h : OtaIdle s) {size : ℕ} (hsize : size ≤ fwImgSizeMax) :
    OtaDoing (s.begun size) size :=
  ⟨rfl, h.ret, h.buf, Nat.zero_lt_succ _, Nat.zero_add _, hsize⟩

/-- An acknowledged transfer over a connection runs the loop from there. -/
theorem OtaIdle.transfer_eq (h : OtaIdle s) (t : Transfer) (hacked : t.acked)
    (hconnects : t.connects) :
    otaTransfer s t = otaDataLoop (s.begun t.file.length) t.segments := by
  have hflag : s.upgradeFlag ||| upgradeStart = upgradeStart := by
    rcases h.flag with h | h <;> rw [h] <;> rfl
  have hbegin : otaBegin { s with upgradeFlag := upgradeStart, fileSize := t.file.length }
      = s.begun t.file.length := by
    rw [otaBegin, if_pos (show upgradeStart &&& upgradeDoing = 0 by decide)]
    rfl
  rw [(h.begun t.size.2).loop_eq, otaTransfer, if_pos hconnects, fwUpgradeProcess]
  simp only [hacked, if_true, hflag]
  rewrite [otaDataLoop, if_neg (show upgradeStart &&& upgradeStart ≠ 0 by decide), hbegin]
  rfl

/-- A transfer that is not completed does not report success.  Every full sector of it that
    arrived stays in the backup area and is counted. -/
theorem otaTransfer_lost (h : OtaIdle s) (t : Transfer) (hlost : ¬ t.Completed) :
    (otaTransfer s t).2 = false ∧ OtaIdle (otaTransfer s t).1 ∧
      (t.acked → t.connects → s.upgradeSector = 0 →
        (otaTransfer s t).1.upgradeSector = t.segments.flatten.length / flashSectorSize ∧
        loadBytes (otaTransfer s t).1.flash.mem nvmFwBakOffset
          ((otaTransfer s t).1.upgradeSector * flashSectorSize) <+: t.segments.flatten) := by
  by_cases hacked : t.acked = true
  · by_cases hconnects : t.connects = true
    · rw [h.transfer_eq t hacked hconnects]
      obtain ⟨rest, hrest⟩ := t.sent
      have hleft : rest ≠ [] := fun hnil =>
        hlost ⟨hacked, hconnects, by rw [← hrest, hnil, List.append_nil]⟩
      have hlen := congrArg List.length hrest
      rw [List.length_append] at hlen
      have hsize := t.size.2
      obtain ⟨hreport, hidle, hkeeps⟩ := otaDataLoop_lost _ rfl t.nonempty
        (List.length_pos_of_ne_nil hleft) (by rw [hlen]; exact h.begun hsize)
      refine ⟨hreport, hidle, fun _ _ hzero => ?_⟩
      have hstart : OtaHolds (s.begun t.file.length) [] := by
        show loadBytes _ _ (s.upgradeSector * flashSectorSize) ++ List.take 0 _ = _
        rw [hzero, Nat.zero_mul]
        rfl
      -- from an empty backup area the counter is the number of full sectors
      obtain ⟨hholds, hptr⟩ := hkeeps [] hstart (by
        unfold nvmFwBakOffset fwImgSizeMax at *
        simp only [List.length_nil]
        omega)
      rw [List.nil_append] at hholds
      have hsum := congrArg List.length hholds
      rw [List.length_append, length_loadBytes, List.length_take, hidle.buf] at hsum
      constructor
      · unfold flashSectorSize at *
        omega
      · exact ⟨_, hholds⟩
    -- acknowledged, but no connection: the flag stays for the next one
    · rw [otaTransfer, if_neg hconnects, fwUpgradeProcess, if_pos hacked]
      refine ⟨rfl, ⟨.inr ?_, h.ret, h.buf⟩, fun _ hc => absurd hc hconnects⟩
      show s.upgradeFlag ||| upgradeStart = upgradeStart
      rcases h.flag with h | h <;> rw [h] <;> rfl
  -- not acknowledged: the announcement is withdrawn
  · have hclosed : otaTransfer s t
        = ({ s with upgradeFlag := 0, fileSize := t.file.length }, false) := by
      rw [otaTransfer, fwUpgradeProcess, if_neg hacked, otaDataLoop]
      simp
    rw [hclosed]
    exact ⟨rfl, ⟨.inl rfl, h.ret, h.buf⟩, fun ha => absurd ha hacked⟩

/-- A completed transfer installs its file behind the sectors left by a lost one. -/
theorem otaTransfer_completed (h : OtaIdle s) (t : Transfer) (hc : t.Completed)
    (hroom : s.upgradeSector * flashSectorSize + t.file.length ≤ nvmFwBakOffset) :
    (otaTransfer s t).2 = true ∧ OtaIdle (otaTransfer s t).1 ∧
      (otaTransfer s t).1.upgradeSector = 0 ∧
      loadBytes (otaTransfer s t).1.flash.mem nvmFwMainOffset
          (s.upgradeSector * flashSectorSize + t.file.length)
        = loadBytes s.flash.mem nvmFwBakOffset (s.upgradeSector * flashSectorSize) ++ t.file := by
  obtain ⟨hacked, hconnects, hall⟩ := hc
  have hlen := congrArg List.length hall
  have hholds : OtaHolds (s.begun t.file.length)
      (loadBytes s.flash.mem nvmFwBakOffset (s.upgradeSector * flashSectorSize)) :=
    List.append_nil _
  have hloop := otaDataLoop_completed t.file.length hlen t.nonempty t.size.1 (h.begun t.size.2)
    hholds (by rw [length_loadBytes]; exact hroom)
  rw [hall, List.length_append, length_loadBytes] at hloop
  rw [h.transfer_eq t hacked hconnects]
  exact hloop

/-- If success is reported, the main image is the file that was announced. -/
def InstallsFile (s : OtaState) (t : Transfer) : Prop :=
  (otaTransfer s t).2 = true →
    loadBytes (otaTransfer s t).1.flash.mem nvmFwMainOffset t.file.length = t.file

/-- A completed transfer that starts behind sectors of a lost one reports success, but the main
    image starts with the lost file. -/
theorem not_installsFile_behind {s : OtaState} (h : OtaIdle s) (t : Transfer) (hc : t.Completed)
    (hroom : s.upgradeSector * flashSectorSize + t.file.length ≤ nvmFwBakOffset)
    (hbehind : 0 < s.upgradeSector) (hfirst : t.file[0]? ≠ some (s.flash.mem nvmFwBakOffset)) :
    ¬ InstallsFile s t := by
  intro hinstalls
  obtain ⟨hreport, -, -, hload⟩ := otaTransfer_completed h t hc hroom
  have hpos : 0 < s.upgradeSector * flashSectorSize := Nat.mul_pos hbehind (by decide)
  have hlost := congrArg (fun bytes : List UInt8 => bytes[0]?) hload
  have hfile := congrArg (fun bytes : List UInt8 => bytes[0]?) (hinstalls hreport)
  rw [getElem?_loadBytes _ _ (Nat.add_pos_left hpos _),
    List.getElem?_append_left (by rw [length_loadBytes]; exact hpos),
    getElem?_loadBytes _ _ hpos] at hlost
  rw [getElem?_loadBytes _ _ t.size.1] at hfile
  exact hfirst (hfile.symm.trans hlost)

/-! ### Two kinds of transfers -/

/-- A transfer of a file all of whose bytes arrive at once. -/
def Transfer.whole (file : List UInt8) (h : 1 ≤ file.length ∧ file.length ≤ fwImgSizeMax) :
    Transfer where
  file := file
  acked := true
  connects := true
  segments := [file]
  size := h
  sent := by simp
  nonempty := by
    intro segment hs hnil
    rw [List.mem_singleton.mp hs] at hnil
    rw [hnil] at h
    exact absurd h.1 (by decide)

/-- A transfer whose connection is lost when `n` bytes have arrived. -/
def Transfer.cut (file : List UInt8) (h : 1 ≤ file.length ∧ file.length ≤ fwImgSizeMax) (n : ℕ)
    (hn : 0 < n) : Transfer where
  file := file
  acked := true
  connects := true
  segments := [file.take n]
  size := h
  sent := by simpa using List.take_prefix n file
  nonempty := by
    intro segment hs
    rw [List.mem_singleton.mp hs]
    apply List.ne_nil_of_length_pos
    rw [List.length_take]
    omega

theorem Transfer.cut_lost {file : List UInt8}
    {h : 1 ≤ file.length ∧ file.length ≤ fwImgSizeMax} {n : ℕ} {hn : 0 < n}
    (hcut : n < file.length) : ¬ (Transfer.cut file h n hn).Completed := by
  intro hc
  have hlen := congrArg List.length hc.2.2
  simp [Transfer.cut] at hlen
  omega

/-- After the start a transfer that is cut counts the full sectors that have arrived. -/
theorem Transfer.cut_sectors {buf file : List UInt8} {flash : Flash}
    {h : 1 ≤ file.length ∧ file.length ≤ fwImgSizeMax} {n : ℕ} {hn : 0 < n}
    (hbuf : buf.length = flashSectorSize) (hcut : n < file.length) :
    OtaIdle (otaTransfer (otaBoot buf flash) (.cut file h n hn)).1 ∧
      (otaTransfer (otaBoot buf flash) (.cut file h n hn)).1.upgradeSector = n / flashSectorSize ∧
      loadBytes (otaTransfer (otaBoot buf flash) (.cut file h n hn)).1.flash.mem nvmFwBakOffset
        (n / flashSectorSize * flashSectorSize) <+: file := by
  obtain ⟨-, hidle, hkeeps⟩ := otaTransfer_lost
    (show OtaIdle (otaBoot buf flash) from ⟨.inl rfl, rfl, hbuf⟩) (.cut file h n hn)
    (Transfer.cut_lost hcut)
  obtain ⟨hsector, hload⟩ := hkeeps rfl rfl rfl
  have hflatten : (Transfer.cut file h n hn).segments.flatten = file.take n := by
    simp [Transfer.cut]
  rw [hflatten, List.length_take, Nat.min_eq_left hcut.le] at hsector
  rw [hsector, hflatten] at hload
  exact ⟨hidle, hsector, hload.trans (List.take_prefix _ _)⟩

/-- A file of one sector and one byte. -/
def sectorAndByte : List UInt8 := List.replicate 4097 1

theorem sectorAndByte_size :
    1 ≤ sectorAndByte.length ∧ sectorAndByte.length ≤ fwImgSizeMax := by
  rw [sectorAndByte, List.length_replicate]
  decide

/-! ### Sequences of transfers -/

/-- **Firmware update.**  Whatever transfers are lost, at any point, and in whatever segments the
    bytes arrive: as long as every completed transfer starts with `upgradeSector` 0, a report of
    success means that the main image is the file of that transfer. -/
theorem update_installs_file {buf : List UInt8} (flash : Flash)
    (hbuf : buf.length = flashSectorSize) (ts : List Transfer)
    (h : Throughout otaTransfer (fun s t => t.Completed → s.upgradeSector = 0)
      (otaBoot buf flash) ts) :
    Throughout otaTransfer InstallsFile (otaBoot buf flash) ts := by
  refine throughout_of_invariant (fun s t hidle hok => ?_) ts (otaBoot buf flash)
    (show OtaIdle _ from ⟨.inl rfl, rfl, hbuf⟩) h
  by_cases hc : t.Completed
  · have hzero := hok hc
    have hsize := t.size.2
    obtain ⟨-, hnext, -, hload⟩ := otaTransfer_completed hidle t hc (by
      rw [hzero]
      unfold nvmFwBakOffset fwImgSizeMax at *
      omega)
    refine ⟨hnext, fun _ => ?_⟩
    rw [hzero, Nat.zero_mul, Nat.zero_add] at hload
    exact hload
  · obtain ⟨hreport, hnext, -⟩ := otaTransfer_lost hidle t hc
    refine ⟨hnext, fun hsuccess => ?_⟩
    rw [hreport] at hsuccess
    cases hsuccess

/-- Two bytes of a file of three arrive, then a file of one byte is installed. -/
theorem update_installs_file_second :
    Throughout otaTransfer InstallsFile (otaBoot (List.replicate 4096 0) ⟨fun _ => 255, []⟩)
      [.cut [1, 2, 3] (by decide) 2 (by decide), .whole [4] (by decide)] := by
  have hbuf : (List.replicate 4096 (0 : UInt8)).length = flashSectorSize := List.length_replicate
  exact update_installs_file _ hbuf _
    ⟨fun _ => rfl, fun _ => (Transfer.cut_sectors hbuf (by decide)).2.1, trivial⟩

/-- The connection is lost when the first sector of a file has arrived.  Then a file of one byte
    `2` is sent and reported as installed, but the main image starts with a byte of the lost
    file. -/
theorem update_installs_lost_file :
    ¬ Throughout otaTransfer InstallsFile (otaBoot (List.replicate 4096 0) ⟨fun _ => 255, []⟩)
      [.cut sectorAndByte sectorAndByte_size 4096 (by decide), .whole [2] (by decide)] := by
  rintro ⟨-, hinstalls, -⟩
  have hbuf : (List.replicate 4096 (0 : UInt8)).length = flashSectorSize := List.length_replicate
  have hlength : sectorAndByte.length = 4097 := List.length_replicate
  obtain ⟨hidle, hsector, hlost⟩ := (Transfer.cut_sectors hbuf (by omega) :
    OtaIdle (otaTransfer (otaBoot _ ⟨fun _ => 255, []⟩)
      (.cut sectorAndByte sectorAndByte_size 4096 (by decide))).1 ∧ _)
  have hone : (4096 : ℕ) / flashSectorSize = 1 := by decide
  rw [hone] at hsector hlost
  refine not_installsFile_behind hidle (.whole [2] (by decide)) ⟨rfl, rfl, rfl⟩ ?_ ?_ ?_ hinstalls
  · rw [hsector, show (Transfer.whole [2] (by decide)).file.length = 1 from rfl]
    decide
  · rw [hsector]
    decide
  · intro hfirst
    have hget := getElem?_loadBytes (otaTransfer (otaBoot (List.replicate 4096 0)
      ⟨fun _ => 255, []⟩) (.cut sectorAndByte sectorAndByte_size 4096 (by decide))).1.flash.mem
      nvmFwBakOffset (show 0 < 1 * flashSectorSize by decide)
    rw [Nat.add_zero, ← hfirst] at hget
    have htwo := List.eq_of_mem_replicate (hlost.subset (List.mem_of_getElem? hget))
    exact absurd htwo (by decide)

end SerialNet
