import SerialNet.Lib.Fifo
import SerialNet.Lib.Run
import SerialNet.Ring.Spec

namespace SerialNet

/-!
# The ring buffer refines a bounded FIFO

Without interrupts in between, the calls of `ring_buffer.c` are those of a FIFO of capacity
`size - 1`: `ringCall` dispatches a call to the C function, `fifoCall` says what a FIFO
does for it, `RingRefines` relates the two states, and `ringCall_refines` is the
simulation step.  `ring_buffer_refines_fifo` runs it over every sequence of calls.
-/

/-- A call of the ring buffer interface, with the data the caller passes. -/
inductive RingCall where
  | writeChar (data : UInt8)
  | write (buf : List UInt8) (count : ℤ)
  | read (count : ℤ)
  | clear
deriving DecidableEq, Repr

/-- What a call gives back: its return value and the bytes copied to the caller. -/
structure RingReply where
  ret : ℤ
  data : List UInt8
deriving DecidableEq, Repr

/-- The caller's side of the contract: counts are not negative, and a written buffer holds
    at least `count` bytes. -/
def RingCall.Valid : RingCall → Prop
  | .writeChar _ => True
  | .write buf count => 0 ≤ count ∧ count ≤ buf.length
  | .read count => 0 ≤ count
  | .clear => True

/-- Perform a call on the ring of the C code. -/
def ringCall (r : RingBuffer) : RingCall → RingBuffer × RingReply
  | .writeChar data => let p := ringBufWriteChar r data; (p.1, ⟨p.2, []⟩)
  | .write buf count => let p := ringBufWrite r buf count; (p.1, ⟨p.2, []⟩)
  | .read count => let p := ringBufRead r count; (p.1, ⟨p.2.2, p.2.1⟩)
  | .clear => (ringBufClear r, ⟨0, []⟩)

/-- What a FIFO does for the same call. -/
def fifoCall {cap : ℕ} (q : Fifo UInt8 cap) : RingCall → Fifo UInt8 cap × RingReply
  | .writeChar data => (q.pushMany [data], ⟨if q.length < cap then 1 else 0, []⟩)
  | .write buf count => (q.pushMany (buf.take count.toNat), ⟨(min count.toNat q.space : ℕ), []⟩)
  | .read count =>
      (q.popMany count.toNat, ⟨(min count.toNat q.length : ℕ), q.items.take count.toNat⟩)
  | .clear => (Fifo.empty, ⟨0, []⟩)

/-- The ring holds exactly the bytes of the queue. -/
structure RingRefines (size : ℕ) (r : RingBuffer) (q : Fifo UInt8 (size - 1)) : Prop where
  wf : r.Wf
  size_eq : r.size = size
  contents_eq : r.contents = q.items

namespace RingRefines

variable {size : ℕ} {r : RingBuffer} {q : Fifo UInt8 (size - 1)}

theorem count_eq (h : RingRefines size r q) : r.count = q.length := by
  rw [← RingBuffer.length_contents, h.contents_eq]; rfl

/-- The counting functions report the queue's length and free places. -/
theorem counts (h : RingRefines size r q) :
    ringBufCnt r = q.length ∧ ringBufCnt r + ringBufSpace r = (size : ℤ) - 1 := by
  rw [ringBufCnt_eq h.wf, ringBufSpace_eq h.wf, h.size_eq]
  exact ⟨congrArg _ h.count_eq, by omega⟩

end RingRefines

/-- **Simulation step.**  A valid call is answered as the FIFO answers it. -/
theorem ringCall_refines {size : ℕ} (r : RingBuffer) (q : Fifo UInt8 (size - 1)) (c : RingCall)
    (hc : c.Valid) (h : RingRefines size r q) :
    (ringCall r c).2 = (fifoCall q c).2 ∧ RingRefines size (ringCall r c).1 (fifoCall q c).1 := by
  have hcount := h.count_eq
  have hsize := h.size_eq
  have hpos := h.wf.size_pos
  have hspace : r.size - 1 - r.count = q.space := by rw [hsize, hcount]; rfl
  have hsum := q.length_add_space
  cases c with
  | writeChar data =>
    obtain ⟨h1, h2, h3, h4⟩ := ringBufWriteChar_spec h.wf data
    refine ⟨?_, h1, h2.trans hsize, ?_⟩
    · show RingReply.mk _ [] = RingReply.mk _ []
      rw [h4]
      split <;> split <;> first | rfl | omega
    -- one byte: all of it fits or nothing
    · show (ringBufWriteChar r data).1.contents = (q.pushMany [data]).items
      rw [h3, h.contents_eq, Fifo.items_pushMany]
      congr 1
      split
      · rw [List.take_of_length_le (by simp only [List.length_singleton]; omega)]
      · rw [show q.space = 0 by omega, List.take_zero]
  | write buf count =>
    obtain ⟨h1, h2, h3, h4⟩ := ringBufWrite_spec h.wf hc.1 hc.2
    refine ⟨?_, h1, h2.trans hsize, ?_⟩
    · show RingReply.mk _ [] = RingReply.mk _ []
      rw [h4, hspace]
    · show (ringBufWrite r buf count).1.contents = (q.pushMany (buf.take count.toNat)).items
      rw [h3, h.contents_eq, Fifo.items_pushMany, List.take_take, hspace, Nat.min_comm]
  | read count =>
    obtain ⟨h1, h2, h3, h4, h5⟩ := ringBufRead_spec h.wf hc
    have hlen : q.items.length = q.length := rfl
    refine ⟨?_, h1, h2.trans hsize, ?_⟩
    · show RingReply.mk _ _ = RingReply.mk _ _
      rw [h4, h5, hcount, h.contents_eq, ← hlen, ← List.take_eq_take_min]
    · show (ringBufRead r count).1.contents = (q.popMany count.toNat).items
      rw [h3, h.contents_eq, hcount, Fifo.items_popMany]
      by_cases hle : count.toNat ≤ q.length
      · rw [Nat.min_eq_left hle]
      · rw [Nat.min_eq_right (by omega), List.drop_of_length_le hlen.le,
          List.drop_of_length_le (by omega)]
  | clear =>
    obtain ⟨h1, h2, h3⟩ := ringBufClear_spec h.wf
    exact ⟨rfl, h1, h2.trans hsize, h3⟩

/-- **The ring buffer is a bounded FIFO.**  On a ring set up by `ring_buf_alloc` every
    sequence of valid calls is answered exactly as by a FIFO of capacity `size - 1`, and
    afterwards both indices are inside the ring, the stored bytes are the queue's, and the
    counting functions report its length and free places. -/
theorem ring_buffer_refines_fifo (block : List UInt8) (size : ℕ) (h1 : 1 ≤ size)
    (h2 : size < 2147483648) (hblock : size ≤ block.length) (calls : List RingCall)
    (hcalls : ∀ c ∈ calls, c.Valid) :
    let ring := trace ringCall (ringBufAlloc block size) calls
    let fifo := trace fifoCall (Fifo.empty : Fifo UInt8 (size - 1)) calls
    ring.2 = fifo.2 ∧
      ring.1.head < size ∧ ring.1.tail < size ∧
      ring.1.contents = fifo.1.items ∧
      ringBufCnt ring.1 = fifo.1.length ∧
      ringBufCnt ring.1 + ringBufSpace ring.1 = (size : ℤ) - 1 := by
  intro ring fifo
  obtain ⟨hwf, hsize, hcont⟩ := ringBufAlloc_spec h1 h2.le hblock
  have h0 : RingRefines size (ringBufAlloc block size) Fifo.empty := ⟨hwf, hsize, hcont⟩
  obtain ⟨hout, hR⟩ := trace_refines ringCall_refines calls _ _ hcalls h0
  have hhead := hR.wf.head_lt
  have htail := hR.wf.tail_lt
  rw [hR.size_eq] at hhead htail
  exact ⟨hout, hhead, htail, hR.contents_eq, hR.counts⟩

/-- Two chunks around the wrap point of a four-byte ring. -/
theorem ring_buffer_refines_fifo_four :
    let calls := [RingCall.write [1, 2, 3, 4] 4, .read 2, .write [5, 6] 2, .read 3]
    let ring := trace ringCall (ringBufAlloc [0, 0, 0, 0] 4) calls
    let fifo := trace fifoCall (Fifo.empty : Fifo UInt8 3) calls
    ring.2 = fifo.2 ∧ ring.1.head < 4 ∧ ring.1.tail < 4 ∧ ring.1.contents = fifo.1.items ∧
      ringBufCnt ring.1 = fifo.1.length ∧ ringBufCnt ring.1 + ringBufSpace ring.1 = 3 :=
  ring_buffer_refines_fifo [0, 0, 0, 0] 4 (by decide) (by decide) (by decide) _
    (by simp [RingCall.Valid])

end SerialNet
