import SerialNet.Ring.Spec
import Mathlib.Logic.Relation

namespace SerialNet

/-!
# `ring_buf_cnt` and `ring_buf_read`, statement by statement

Both send tasks wake up, take `data_len = ring_buf_cnt(&uartrxbuf)` and read at most
`g_SendBufSize` bytes.  An interrupt may occur between any two of these statements, so the
sequence is modelled here as a small machine: `ReadPc` names the statement that is
executed next, `readerStep` executes it.  `reader_reaches_ringBufRead` connects the
machine to the function: left alone it ends with exactly the result of `ringBufRead`.
-/

/-- `g_SendBufSize`. -/
def gSendBufSize : ℕ := 2048

/-- The next statement of the task; the values in it are the locals it uses. -/
inductive ReadPc where
  /-- `ring_buf_cnt`: `if (ring->tail >= ring->head)`. -/
  | cntTest
  /-- `return ring->tail - ring->head;` -/
  | cntGe
  /-- `return ring->size + ring->tail - ring->head;` -/
  | cntLt
  /-- `if (data_len == 0) … else if (data_len <= g_SendBufSize) … else …`. -/
  | select (dataLen : ℕ)
  /-- `ring_buf_cnt_to_end`: `if (ring->tail >= ring->head)`. -/
  | endTest
  /-- `return (ring->tail - ring->head);` -/
  | endGe
  /-- `return (ring->size - ring->head);` -/
  | endLt
  /-- `if (count < c) c = count;` -/
  | clamp (c : ℤ)
  /-- `if (c <= 0) break;` -/
  | check (c : ℤ)
  /-- `memcpy(buf, cb->buffer + cb->head, c);` -/
  | copy (c : ℤ)
  /-- `cb->head += c;` -/
  | advance (c : ℤ)
  /-- `if (cb->head >= cb->size)`. -/
  | wrapTest (c : ℤ)
  /-- `cb->head -= cb->size;` -/
  | wrap (c : ℤ)
  /-- `buf += c; count -= c; ret += c;` -/
  | account (c : ℤ)
  /-- `ring_buf_read` has returned. -/
  | done
  /-- `data_len` was zero: `continue`. -/
  | empty
deriving DecidableEq, Repr

/-- The task inside `ring_buf_cnt`/`ring_buf_read`: next statement, the parameters and
    locals of `ring_buf_read`, and the bytes copied to `send_buf`. -/
structure Reader where
  pc : ReadPc
  count : ℤ
  ret : ℤ
  buf : List UInt8
deriving DecidableEq, Repr

/-- The reader right after the task woke up. -/
def Reader.start : Reader := ⟨.cntTest, 0, 0, []⟩

/-- Execute the next statement. -/
def readerStep (r : RingBuffer) (t : Reader) : RingBuffer × Reader :=
  match t.pc with
  | .cntTest => (r, { t with pc := if r.tail ≥ r.head then .cntGe else .cntLt })
  -- `head` and `tail` are read again here: an interrupt may have come after the test.
  | .cntGe => (r, { t with pc := .select (u32 (i32 (u32 (r.tail - r.head)))) })
  | .cntLt => (r, { t with pc := .select (u32 (i32 (u32 (r.size + r.tail - r.head)))) })
  | .select dataLen =>
      if dataLen = 0 then (r, { t with pc := .empty })
      else if dataLen ≤ gSendBufSize then
        (r, { t with pc := .endTest, count := i32 dataLen, ret := 0 })
      else (r, { t with pc := .endTest, count := gSendBufSize, ret := 0 })
  | .endTest => (r, { t with pc := if r.tail ≥ r.head then .endGe else .endLt })
  | .endGe => (r, { t with pc := .clamp (i32 (u32 (r.tail - r.head))) })
  | .endLt => (r, { t with pc := .clamp (i32 (u32 (r.size - r.head))) })
  | .clamp c => (r, { t with pc := .check (clampCount t.count c) })
  | .check c => (r, { t with pc := if c ≤ 0 then .done else .copy c })
  | .copy c => (r, { t with pc := .advance c, buf := t.buf ++ (r.buffer.drop r.head).take c.toNat })
  | .advance c => ({ r with head := u32 (r.head + c) }, { t with pc := .wrapTest c })
  -- From `.advance` up to `.wrap` the stored `head` may be `size`.
  | .wrapTest c => (r, { t with pc := if r.head ≥ r.size then .wrap c else .account c })
  | .wrap c => ({ r with head := u32 (r.head - r.size) }, { t with pc := .account c })
  | .account c => (r, { t with pc := .endTest, count := t.count - c, ret := t.ret + c })
  | .done => (r, t)
  | .empty => (r, t)

/-! ### Without interrupts the machine computes `ringBufRead` -/

/-- Any number of statements of the reader, nothing in between. -/
abbrev ReaderReaches : RingBuffer × Reader → RingBuffer × Reader → Prop :=
  Relation.ReflTransGen fun s s' => readerStep s.1 s.2 = s'

theorem readerReaches_step (r : RingBuffer) (t : Reader) :
    ReaderReaches (r, t) (readerStep r t) :=
  Relation.ReflTransGen.single rfl

/-- The statements of one turn up to `if (c <= 0)`: the reader knows the clamped number of
    bytes up to the end of the block. -/
theorem readerReaches_check (r : RingBuffer) (count ret : ℤ) (buf : List UInt8) :
    ReaderReaches (r, ⟨.endTest, count, ret, buf⟩)
      (r, ⟨.check (clampCount count (ringBufCntToEnd r)), count, ret, buf⟩) := by
  have h1 := readerReaches_step r ⟨.endTest, count, ret, buf⟩
  unfold ringBufCntToEnd
  -- The two returns of `ring_buf_cnt_to_end`.
  by_cases h : r.tail ≥ r.head
  · have h2 := readerReaches_step r ⟨.endGe, count, ret, buf⟩
    have h3 := readerReaches_step r ⟨.clamp (i32 (u32 (r.tail - r.head))), count, ret, buf⟩
    simp only [readerStep, h, if_true] at h1 h2 h3 ⊢
    exact (h1.trans h2).trans h3
  · have h2 := readerReaches_step r ⟨.endLt, count, ret, buf⟩
    have h3 := readerReaches_step r ⟨.clamp (i32 (u32 (r.size - r.head))), count, ret, buf⟩
    simp only [readerStep, h, if_false] at h1 h2 h3 ⊢
    exact (h1.trans h2).trans h3

/-- The statements of one turn that move `c` bytes. -/
theorem readerReaches_turn (r : RingBuffer) (c count ret : ℤ) (buf : List UInt8) (hc : ¬ c ≤ 0) :
    ReaderReaches (r, ⟨.check c, count, ret, buf⟩)
      (advanceHead r c,
        ⟨.endTest, count - c, ret + c, buf ++ (r.buffer.drop r.head).take c.toNat⟩) := by
  set buf' := buf ++ (r.buffer.drop r.head).take c.toNat with hbuf
  set r1 : RingBuffer := { r with head := u32 (r.head + c) } with hr1
  have h1 := readerReaches_step r ⟨.check c, count, ret, buf⟩
  have h2 := readerReaches_step r ⟨.copy c, count, ret, buf⟩
  have h3 := readerReaches_step r ⟨.advance c, count, ret, buf'⟩
  have h4 := readerReaches_step r1 ⟨.wrapTest c, count, ret, buf'⟩
  simp only [readerStep, hc, if_false, ← hbuf, ← hr1] at h1 h2 h3 h4
  -- Check, copy and advance are the same on both paths; they differ in the wrap.
  refine ((h1.trans h2).trans h3).trans (h4.trans ?_)
  by_cases h : r1.head ≥ r1.size
  · have h5 := readerReaches_step r1 ⟨.wrap c, count, ret, buf'⟩
    have h6 := readerReaches_step (advanceHead r c) ⟨.account c, count, ret, buf'⟩
    have hadv : advanceHead r c = { r1 with head := u32 (r1.head - r1.size) } := by
      unfold advanceHead; exact if_pos h
    simp only [readerStep, h, if_true, ← hadv] at h5 h6 ⊢
    exact h5.trans h6
  · have h6 := readerReaches_step (advanceHead r c) ⟨.account c, count, ret, buf'⟩
    have hadv : advanceHead r c = r1 := by unfold advanceHead; exact if_neg h
    simp only [readerStep, h, if_false, hadv] at h6 ⊢
    exact h6

/-- The copy loop of the machine is `ringBufReadLoop`. -/
theorem readerReaches_loop (r : RingBuffer) (count ret : ℤ) (buf : List UInt8) :
    ∃ t : Reader, ReaderReaches (r, ⟨.endTest, count, ret, buf⟩)
        ((ringBufReadLoop r buf count ret).1, t) ∧
      t.pc = .done ∧ t.buf = (ringBufReadLoop r buf count ret).2.1 ∧
      t.ret = (ringBufReadLoop r buf count ret).2.2 := by
  have hhead := readerReaches_check r count ret buf
  have hclamp := clampCount_eq_min count (ringBufCntToEnd r)
  rw [ringBufReadLoop]
  set c := clampCount count (ringBufCntToEnd r) with hc
  by_cases h : c ≤ 0
  · have h1 := readerReaches_step r ⟨.check c, count, ret, buf⟩
    simp only [readerStep, h, if_true] at h1 ⊢
    exact ⟨_, hhead.trans h1, rfl, rfl, rfl⟩
  · obtain ⟨t, ht, hpc, hbuf, hret⟩ := readerReaches_loop (advanceHead r c) (count - c) (ret + c)
      (buf ++ (r.buffer.drop r.head).take c.toNat)
    simp only [h, if_false]
    exact ⟨t, (hhead.trans (readerReaches_turn r c count ret buf h)).trans ht, hpc, hbuf, hret⟩
termination_by count.toNat
decreasing_by omega

/-- **The machine refines the function.**  Woken on a non-empty ring and left alone, the
    task ends with the result of `ring_buf_read` for
    `min (ring_buf_cnt …) g_SendBufSize` bytes. -/
theorem reader_reaches_ringBufRead {r : RingBuffer} (h : r.Wf) (hne : r.count ≠ 0) :
    let res := ringBufRead r (min r.count gSendBufSize : ℕ)
    ∃ t : Reader, ReaderReaches (r, Reader.start) (res.1, t) ∧
      t.pc = .done ∧ t.buf = res.2.1 ∧ t.ret = res.2.2 := by
  intro res
  have hcnt := ringBufCnt_eq h
  have hlt := RingBuffer.count_lt h
  have hle := h.size_le
  -- `ring_buf_cnt` returns the length of the contents …
  have hsel : ReaderReaches (r, Reader.start) (r, ⟨.select r.count, 0, 0, []⟩) := by
    have h1 := readerReaches_step r Reader.start
    unfold ringBufCnt at hcnt
    have hu : u32 (r.count : ℤ) = r.count := u32_natCast (by omega)
    by_cases hge : r.tail ≥ r.head
    · have h2 := readerReaches_step r ⟨.cntGe, 0, 0, []⟩
      simp only [hge, if_true] at hcnt
      simp only [readerStep, Reader.start, hge, if_true, hcnt, hu] at h1 h2 ⊢
      exact h1.trans h2
    · have h2 := readerReaches_step r ⟨.cntLt, 0, 0, []⟩
      simp only [hge, if_false] at hcnt
      simp only [readerStep, Reader.start, hge, if_false, hcnt, hu] at h1 h2 ⊢
      exact h1.trans h2
  -- … which is cut down to the size of the send buffer.
  have hentry : ReaderReaches (r, ⟨.select r.count, 0, 0, []⟩)
      (r, ⟨.endTest, (min r.count gSendBufSize : ℕ), 0, []⟩) := by
    have h1 := readerReaches_step r ⟨.select r.count, 0, 0, []⟩
    by_cases hsize : r.count ≤ gSendBufSize
    · have hi : i32 (r.count : ℤ) = r.count := by unfold i32; omega
      simp only [readerStep, hne, hsize, if_true, if_false, hi] at h1
      rwa [Nat.min_eq_left hsize]
    · simp only [readerStep, hne, hsize, if_false] at h1
      rwa [Nat.min_eq_right (by omega)]
  obtain ⟨t, ht, hpc, hbuf, hret⟩ := readerReaches_loop r (min r.count gSendBufSize : ℕ) 0 []
  exact ⟨t, (hsel.trans hentry).trans ht, hpc, hbuf, hret⟩

end SerialNet
