import SerialNet.Ring.Buffer

namespace SerialNet

/-!
# What the ring buffer functions do to the stored bytes

`RingBuffer.contents` reads the stored bytes off the cells, oldest first.  Each function
of `ring_buffer.c` gets one specification lemma in terms of it, so that nothing above this
file unfolds the index arithmetic:

* `RingBuffer.Wf` — the shape every operation keeps: both indices inside the ring, the
  cells inside the allocated block, sizes that an `int` can count;
* `ringBufCnt_eq`, `ringBufSpace_eq`, `ringBufFull_iff` — the unsigned case formulas are
  the number of stored bytes, the free places, and fullness;
* `writeChunk_spec`, `advanceHead_spec` — one turn of a copy loop;
* `ringBufWriteChar_spec`, `ringBufWrite_spec`, `ringBufRead_spec` — the whole calls.
-/

namespace RingBuffer

/-- The indices are inside the ring, the ring is inside its block, and its size fits the
    `int` results of the counting functions. -/
structure Wf (r : RingBuffer) : Prop where
  size_pos : 1 ≤ r.size
  size_le : r.size ≤ 2147483648
  head_lt : r.head < r.size
  tail_lt : r.tail < r.size
  block : r.size ≤ r.buffer.length

/-- Number of cells from `head` up to `tail` on the circle. -/
def count (r : RingBuffer) : ℕ :=
  if r.head ≤ r.tail then r.tail - r.head else r.size + r.tail - r.head

/-- The stored bytes, oldest first. -/
def contents (r : RingBuffer) : List UInt8 := window r.buffer r.size r.head r.count

/-- The contents are as long as the count says. -/
@[simp] theorem length_contents (r : RingBuffer) : r.contents.length = r.count :=
  length_window _ _ _ _

/-- One cell always stays free. -/
theorem count_lt {r : RingBuffer} (h : r.Wf) : r.count < r.size := by
  have := h.head_lt
  have := h.tail_lt
  unfold count; split <;> omega

/-- `tail` is the position behind the stored bytes. -/
theorem wrapIndex_count {r : RingBuffer} (h : r.Wf) :
    wrapIndex r.size r.head r.count = r.tail := by
  have := h.head_lt
  have := h.tail_lt
  unfold wrapIndex count; split <;> split <;> omega

end RingBuffer

open RingBuffer

variable {r : RingBuffer}

/-! ### The counting functions -/

/-- `ring_buf_cnt` is the number of bytes in the ring. -/
theorem ringBufCnt_eq (h : r.Wf) : ringBufCnt r = r.count := by
  have := h.head_lt
  have := h.tail_lt
  have := h.size_le
  unfold ringBufCnt count u32 i32; split <;> omega

/-- `ring_buf_space` leaves one cell empty. -/
theorem ringBufSpace_eq (h : r.Wf) : ringBufSpace r = r.size - 1 - r.count := by
  have := h.head_lt
  have := h.tail_lt
  have := h.size_le
  unfold ringBufSpace count u32 i32; split <;> split <;> omega

/-- The ring is full when one cell is left. -/
theorem ringBufFull_iff (h : r.Wf) : ringBufFull r = true ↔ r.count + 1 = r.size := by
  have hh := h.head_lt
  have ht := h.tail_lt
  have hs := h.size_le
  have hu : u32 ((r.tail : ℤ) + 1) = r.tail + 1 := by unfold u32; omega
  unfold ringBufFull count
  rw [hu, beq_iff_eq]
  -- `tail + 1` is at the end of the ring, where `%` makes it 0, or inside.
  by_cases hwrap : r.tail + 1 = r.size
  · rw [hwrap, Nat.mod_self]; split <;> omega
  · rw [Nat.mod_eq_of_lt (by omega)]; split <;> omega

/-- The ring is empty when no byte is in it. -/
theorem ringBufEmpty_iff (h : r.Wf) : ringBufEmpty r = true ↔ r.count = 0 := by
  have := h.head_lt
  unfold ringBufEmpty count
  rw [beq_iff_eq]; split <;> omega

/-- Stored bytes up to the end of the block: never more than are stored, none only when
    nothing is stored. -/
theorem ringBufCntToEnd_spec (h : r.Wf) :
    0 ≤ ringBufCntToEnd r ∧ ringBufCntToEnd r ≤ r.count ∧
      r.head + ringBufCntToEnd r ≤ r.size ∧ (ringBufCntToEnd r = 0 → r.count = 0) := by
  have := h.head_lt
  have := h.tail_lt
  have := h.size_le
  unfold ringBufCntToEnd count u32 i32
  split <;> refine ⟨?_, ?_, ?_, ?_⟩ <;> omega

/-- Free places up to the end of the block: never more than are free, none only when the
    ring is full. -/
theorem ringBufSpaceToEnd_spec (h : r.Wf) :
    0 ≤ ringBufSpaceToEnd r ∧ r.count + ringBufSpaceToEnd r < r.size ∧
      r.tail + ringBufSpaceToEnd r ≤ r.size ∧
      (ringBufSpaceToEnd r = 0 → r.count + 1 = r.size) := by
  have := h.head_lt
  have := h.tail_lt
  have := h.size_le
  unfold ringBufSpaceToEnd count u32 i32
  split
  · split <;> refine ⟨?_, ?_, ?_, ?_⟩ <;> omega
  · split <;> split <;> refine ⟨?_, ?_, ?_, ?_⟩ <;> omega

/-! ### One turn of a copy loop -/

/-- The indices after `writeChunk`. -/
theorem writeChunk_indices (h : r.Wf) {xs : List UInt8} (hend : r.tail + xs.length ≤ r.size) :
    (writeChunk r xs xs.length).size = r.size ∧ (writeChunk r xs xs.length).head = r.head ∧
      (writeChunk r xs xs.length).tail
        = (if r.tail + xs.length = r.size then 0 else r.tail + xs.length) ∧
      (writeChunk r xs xs.length).buffer = writeAt r.buffer r.tail xs := by
  have hs := h.size_le
  have hu : u32 ((r.tail : ℤ) + (xs.length : ℤ)) = r.tail + xs.length := by unfold u32; omega
  unfold writeChunk
  simp only [hu]
  split
  -- The chunk ends at the end of the block: `tail` wraps to 0.
  · have heq : r.tail + xs.length = r.size := by omega
    refine ⟨rfl, rfl, ?_, rfl⟩
    rw [if_pos heq]
    show u32 _ = 0
    unfold u32; omega
  · rw [if_neg (by omega)]
    exact ⟨rfl, rfl, rfl, rfl⟩

/-- **Write turn.**  A chunk that fits before the end of the block and into the free places
    is appended to the stored bytes. -/
theorem writeChunk_spec (h : r.Wf) {xs : List UInt8} (hend : r.tail + xs.length ≤ r.size)
    (hfree : r.count + xs.length < r.size) :
    (writeChunk r xs xs.length).Wf ∧ (writeChunk r xs xs.length).size = r.size ∧
      (writeChunk r xs xs.length).contents = r.contents ++ xs := by
  obtain ⟨hsize, hhead, htail, hbuf⟩ := writeChunk_indices h hend
  have hh := h.head_lt
  have ht := h.tail_lt
  have hcount : (writeChunk r xs xs.length).count = r.count + xs.length := by
    unfold count at hfree ⊢
    rw [hsize, hhead, htail]
    split_ifs at hfree ⊢ <;> omega
  refine ⟨⟨?_, ?_, ?_, ?_, ?_⟩, hsize, ?_⟩
  · rw [hsize]; exact h.size_pos
  · rw [hsize]; exact h.size_le
  · rw [hsize, hhead]; exact hh
  · rw [hsize, htail]; split <;> omega
  · rw [hsize, hbuf, length_writeAt (by have := h.block; omega)]; exact h.block
  · unfold contents
    rw [hcount, hbuf, hsize, hhead]
    -- The chunk is written right behind the stored bytes.
    have hw := wrapIndex_count h
    rw [← hw]
    exact window_snoc_writeAt hh h.block hfree.le (by rw [hw]; exact hend)

/-- The bytes a read turn copies are the oldest stored ones. -/
theorem take_drop_head (h : r.Wf) {c : ℕ} (hc : c ≤ r.count) (hend : r.head + c ≤ r.size) :
    (r.buffer.drop r.head).take c = r.contents.take c := by
  have hlt := count_lt h
  obtain ⟨m, hm⟩ := Nat.exists_eq_add_of_le hc
  rw [← window_contiguous hend h.block, contents, hm, window_add h.head_lt (by omega),
    List.take_left' (length_window _ _ _ _)]

/-- **Read turn.**  Advancing `head` over stored bytes drops them from the front. -/
theorem advanceHead_spec (h : r.Wf) {c : ℕ} (hc : c ≤ r.count) (hend : r.head + c ≤ r.size) :
    (advanceHead r c).Wf ∧ (advanceHead r c).size = r.size ∧
      (advanceHead r c).contents = r.contents.drop c := by
  have hh := h.head_lt
  have ht := h.tail_lt
  have hs := h.size_le
  have hu : u32 ((r.head : ℤ) + (c : ℤ)) = r.head + c := by unfold u32; omega
  have hhead : (advanceHead r c).head = wrapIndex r.size r.head c ∧
      (advanceHead r c).tail = r.tail ∧ (advanceHead r c).size = r.size ∧
      (advanceHead r c).buffer = r.buffer := by
    unfold advanceHead wrapIndex
    simp only [hu]
    split
    · refine ⟨?_, rfl, rfl, rfl⟩
      rw [if_neg (by omega)]
      show u32 _ = _
      unfold u32; omega
    · rw [if_pos (by omega)]
      exact ⟨rfl, rfl, rfl, rfl⟩
  obtain ⟨hhead, htail, hsize, hbuf⟩ := hhead
  have hcount : r.count = c + (advanceHead r c).count := by
    unfold count at hc ⊢
    rw [hhead, htail, hsize]
    unfold wrapIndex
    split_ifs at hc ⊢ <;> omega
  refine ⟨⟨?_, ?_, ?_, ?_, ?_⟩, hsize, ?_⟩
  · rw [hsize]; exact h.size_pos
  · rw [hsize]; exact hs
  · rw [hsize, hhead]; exact wrapIndex_lt hh (by omega)
  · rw [hsize, htail]; exact ht
  · rw [hsize, hbuf]; exact h.block
  · have hlt := count_lt h
    unfold contents
    rw [hbuf, hsize, hhead, hcount, window_add hh (by omega),
      List.drop_append_of_le_length (by simp), List.drop_of_length_le (by simp), List.nil_append]

/-! ### The whole calls -/

/-- `ring_buf_write_char` accepts its byte exactly when the ring is not full. -/
theorem ringBufWriteChar_spec (h : r.Wf) (data : UInt8) :
    (ringBufWriteChar r data).1.Wf ∧ (ringBufWriteChar r data).1.size = r.size ∧
      (ringBufWriteChar r data).1.contents
        = r.contents ++ (if r.count + 1 < r.size then [data] else []) ∧
      (ringBufWriteChar r data).2 = (if r.count + 1 < r.size then 1 else 0) := by
  have hlt := count_lt h
  by_cases hfull : r.count + 1 = r.size
  · have hf : ringBufFull r = true := (ringBufFull_iff h).mpr hfull
    rw [if_neg (by omega), if_neg (by omega)]
    simp [ringBufWriteChar, hf, h]
  · have hf : ringBufFull r = false := by
      rw [← Bool.not_eq_true, ringBufFull_iff h]; exact hfull
    have hfree : r.count + [data].length < r.size := by simp only [List.length_singleton]; omega
    have hend : r.tail + [data].length ≤ r.size := h.tail_lt
    have hcell : r.tail < r.buffer.length := lt_of_lt_of_le h.tail_lt h.block
    -- One character is a write turn of length 1.
    have hw : ringBufWriteChar r data = (writeChunk r [data] ([data].length : ℕ), 1) := by
      simp [ringBufWriteChar, hf, writeChunk, set_eq_writeAt hcell]
    obtain ⟨h1, h2, h3⟩ := writeChunk_spec h hend hfree
    rw [if_pos (by omega), if_pos (by omega), hw]
    exact ⟨h1, h2, h3, rfl⟩

/-- The write loop appends the longest prefix of `buf` that fits.  Induction follows the
    loop; each turn is `writeChunk_spec`. -/
theorem ringBufWriteLoop_spec (r : RingBuffer) (buf : List UInt8) (count ret : ℤ) (h : r.Wf)
    (h0 : 0 ≤ count) (hlen : count ≤ buf.length) :
    let n := min count.toNat (r.size - 1 - r.count)
    (ringBufWriteLoop r buf count ret).1.Wf ∧
      (ringBufWriteLoop r buf count ret).1.size = r.size ∧
      (ringBufWriteLoop r buf count ret).1.contents = r.contents ++ buf.take n ∧
      (ringBufWriteLoop r buf count ret).2 = ret + n := by
  intro n
  have hlt := count_lt h
  obtain ⟨hs0, hsfree, hsend, hsfull⟩ := ringBufSpaceToEnd_spec h
  have hclamp := clampCount_eq_min count (ringBufSpaceToEnd r)
  rw [ringBufWriteLoop]
  by_cases hc : clampCount count (ringBufSpaceToEnd r) ≤ 0
  · -- nothing asked for, or the ring is full
    have hn : n = 0 := by omega
    simp [hc, hn, h]
  · simp only [hc, if_false]
    set c := clampCount count (ringBufSpaceToEnd r) with hcdef
    have hcn : ((c.toNat : ℕ) : ℤ) = c := Int.toNat_of_nonneg (by omega)
    have hchunk : (buf.take c.toNat).length = c.toNat := by
      rw [List.length_take]; omega
    have hturn := @writeChunk_spec r h (buf.take c.toNat) (by omega) (by omega)
    rw [hchunk, hcn] at hturn
    obtain ⟨hwf, hsize, hcont⟩ := hturn
    have hcount : (writeChunk r (buf.take c.toNat) c).count = r.count + c.toNat := by
      rw [← length_contents, hcont, List.length_append, length_contents, hchunk]
    obtain ⟨i1, i2, i3, i4⟩ := ringBufWriteLoop_spec (writeChunk r (buf.take c.toNat) c)
      (buf.drop c.toNat) (count - c) (ret + c) hwf (by omega)
      (by rw [List.length_drop]; omega)
    -- What this turn takes and what the rest takes are the whole.
    have hrest : n = c.toNat + min (count - c).toNat
        ((writeChunk r (buf.take c.toNat) c).size - 1
          - (writeChunk r (buf.take c.toNat) c).count) := by
      rw [hsize, hcount]; omega
    refine ⟨i1, i2.trans hsize, ?_, ?_⟩
    · rw [i3, hcont, List.append_assoc, hrest, List.take_add]
    · rw [i4, hrest]; omega
termination_by count.toNat
decreasing_by omega

/-- `ring_buf_write` accepts exactly the first `min(count, free space)` bytes and returns
    that number. -/
theorem ringBufWrite_spec (h : r.Wf) {buf : List UInt8} {count : ℤ} (h0 : 0 ≤ count)
    (hlen : count ≤ buf.length) :
    (ringBufWrite r buf count).1.Wf ∧ (ringBufWrite r buf count).1.size = r.size ∧
      (ringBufWrite r buf count).1.contents
        = r.contents ++ buf.take (min count.toNat (r.size - 1 - r.count)) ∧
      (ringBufWrite r buf count).2 = (min count.toNat (r.size - 1 - r.count) : ℕ) := by
  have hspec := ringBufWriteLoop_spec r buf count 0 h h0 hlen
  simpa [ringBufWrite] using hspec

/-- The read loop moves the oldest bytes to the caller, in order.  Induction follows the
    loop; each turn is `advanceHead_spec`. -/
theorem ringBufReadLoop_spec (r : RingBuffer) (buf : List UInt8) (count ret : ℤ) (h : r.Wf)
    (h0 : 0 ≤ count) :
    let n := min count.toNat r.count
    (ringBufReadLoop r buf count ret).1.Wf ∧
      (ringBufReadLoop r buf count ret).1.size = r.size ∧
      (ringBufReadLoop r buf count ret).1.contents = r.contents.drop n ∧
      (ringBufReadLoop r buf count ret).2.1 = buf ++ r.contents.take n ∧
      (ringBufReadLoop r buf count ret).2.2 = ret + n := by
  intro n
  obtain ⟨hs0, hscount, hsend, hsempty⟩ := ringBufCntToEnd_spec h
  have hclamp := clampCount_eq_min count (ringBufCntToEnd r)
  rw [ringBufReadLoop]
  by_cases hc : clampCount count (ringBufCntToEnd r) ≤ 0
  · have hn : n = 0 := by omega
    simp [hc, hn, h]
  · simp only [hc, if_false]
    set c := clampCount count (ringBufCntToEnd r) with hcdef
    have hcn : ((c.toNat : ℕ) : ℤ) = c := Int.toNat_of_nonneg (by omega)
    have hturn := advanceHead_spec (c := c.toNat) h (by omega) (by omega)
    rw [hcn] at hturn
    obtain ⟨hwf, hsize, hcont⟩ := hturn
    have hcount : (advanceHead r c).count = r.count - c.toNat := by
      rw [← length_contents, hcont, List.length_drop, length_contents]
    obtain ⟨i1, i2, i3, i4, i5⟩ := ringBufReadLoop_spec (advanceHead r c)
      (buf ++ (r.buffer.drop r.head).take c.toNat) (count - c) (ret + c) hwf (by omega)
    have hrest : n = c.toNat + min (count - c).toNat (advanceHead r c).count := by
      rw [hcount]; omega
    refine ⟨i1, i2.trans hsize, ?_, ?_, ?_⟩
    · rw [i3, hcont, List.drop_drop, hrest]
    · rw [i4, hcont, take_drop_head h (by omega) (by omega), List.append_assoc, hrest,
        List.take_add]
    · rw [i5, hrest]; omega
termination_by count.toNat
decreasing_by omega

/-- `ring_buf_read` returns and removes exactly the oldest `min(count, stored)` bytes. -/
theorem ringBufRead_spec (h : r.Wf) {count : ℤ} (h0 : 0 ≤ count) :
    (ringBufRead r count).1.Wf ∧ (ringBufRead r count).1.size = r.size ∧
      (ringBufRead r count).1.contents = r.contents.drop (min count.toNat r.count) ∧
      (ringBufRead r count).2.1 = r.contents.take (min count.toNat r.count) ∧
      (ringBufRead r count).2.2 = (min count.toNat r.count : ℕ) := by
  have hspec := ringBufReadLoop_spec r [] count 0 h h0
  simpa [ringBufRead] using hspec

/-- `ring_buf_clear` empties the ring. -/
theorem ringBufClear_spec (h : r.Wf) :
    (ringBufClear r).Wf ∧ (ringBufClear r).size = r.size ∧ (ringBufClear r).contents = [] :=
  ⟨⟨h.size_pos, h.size_le, h.size_pos, h.size_pos, h.block⟩, rfl, rfl⟩

/-- `ring_buf_alloc` on a block of sufficient length gives an empty ring. -/
theorem ringBufAlloc_spec {block : List UInt8} {dataLen : ℕ} (h1 : 1 ≤ dataLen)
    (h2 : dataLen ≤ 2147483648) (hb : dataLen ≤ block.length) :
    (ringBufAlloc block dataLen).Wf ∧ (ringBufAlloc block dataLen).size = dataLen ∧
      (ringBufAlloc block dataLen).contents = [] :=
  ⟨⟨h1, h2, h1, h1, hb⟩, rfl, rfl⟩

end SerialNet
