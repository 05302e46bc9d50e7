import SerialNet.Ring.Spec
import SerialNet.Net.Device
import SerialNet.At.Settings
import SerialNet.Lib.Run

namespace SerialNet

/-!
# The frame length and the semaphore of the send task

`AT+UARTFL` sets `UserParam.frameLength`, and `uart_data_recv` should post `sendSwitchSem` when a
frame of that length has arrived.  Its test also asks that the ring is full, so from `frameLength`
bytes on up to two below the size of the ring no interrupt posts (`frame_trigger_iff`).
-/

/-- How often the interrupt posts `sendSwitchSem`: how far it drives a counter that stands at 0. -/
def framePosts (d : Device) (dummy : UInt8) : ℕ :=
  (uartDataRecv { d with sendSwitchSem := 0 } dummy).sendSwitchSem

/-- An interrupt in a stream of bytes, with its posts. -/
def byteInterrupt (d : Device) (dummy : UInt8) : Device × ℕ :=
  (uartDataRecv d dummy, framePosts d dummy)

/-- The interrupt posts once if the ring then holds a frame, and otherwise not at all. -/
def FrameRight (d : Device) (dummy : UInt8) : Prop :=
  (ringBufCnt (uartDataRecv d dummy).uartrxbuf ≥ d.frameLength → framePosts d dummy = 1) ∧
    (ringBufCnt (uartDataRecv d dummy).uartrxbuf < d.frameLength → framePosts d dummy = 0)

variable {d : Device} {dummy : UInt8}

/-! ### One interrupt -/

/-- What an interrupt in `DATA_MODE` does to the ring and to the semaphore. -/
theorem uartDataRecv_frame (dummy : UInt8) (hdata : d.atMode = .data) :
    (uartDataRecv d dummy).uartrxbuf = (ringBufWriteChar d.uartrxbuf dummy).1 ∧
      (uartDataRecv d dummy).atMode = .data ∧
      (uartDataRecv d dummy).frameLength = d.frameLength ∧
      (uartDataRecv d dummy).sendSwitchSem =
        if ringBufCnt (ringBufWriteChar d.uartrxbuf dummy).1 ≥ d.frameLength ∧
            ringBufFull (ringBufWriteChar d.uartrxbuf dummy).1 then osSemPost d.sendSwitchSem
        else d.sendSwitchSem := by
  rw [uartDataRecv, if_pos hdata]
  unfold dataRecv resetTimer0
  extract_lets d1 d2 d3 d4 d5
  have hring : d2.uartrxbuf = (ringBufWriteChar d.uartrxbuf dummy).1 ∧ d2.atMode = .data ∧
      d2.frameLength = d.frameLength ∧ d2.sendSwitchSem = d.sendSwitchSem := by
    unfold d2
    split <;> exact ⟨rfl, hdata, rfl, rfl⟩
  obtain ⟨hring, hmode, hlength, hsem⟩ := hring
  have htest : d3 = if ringBufCnt (ringBufWriteChar d.uartrxbuf dummy).1 ≥ d.frameLength ∧
      ringBufFull (ringBufWriteChar d.uartrxbuf dummy).1 then
      { d2 with sendSwitchSem := osSemPost d2.sendSwitchSem } else d2 :=
    if_congr (by rw [hring, hlength]) rfl rfl
  have hpost : d3.uartrxbuf = (ringBufWriteChar d.uartrxbuf dummy).1 ∧ d3.atMode = .data ∧
      d3.frameLength = d.frameLength ∧ d3.sendSwitchSem =
        if ringBufCnt (ringBufWriteChar d.uartrxbuf dummy).1 ≥ d.frameLength ∧
            ringBufFull (ringBufWriteChar d.uartrxbuf dummy).1 then osSemPost d.sendSwitchSem
        else d.sendSwitchSem := by
    rw [htest]
    split
    · exact ⟨hring, hmode, hlength, congrArg osSemPost hsem⟩
    · exact ⟨hring, hmode, hlength, hsem⟩
  generalize (if ringBufCnt (ringBufWriteChar d.uartrxbuf dummy).1 ≥ d.frameLength ∧
    ringBufFull (ringBufWriteChar d.uartrxbuf dummy).1 then osSemPost d.sendSwitchSem
    else d.sendSwitchSem) = sem at hpost ⊢
  -- the flow control and the escape leave the four alone
  have hflow : d4.uartrxbuf = (ringBufWriteChar d.uartrxbuf dummy).1 ∧ d4.atMode = .data ∧
      d4.frameLength = d.frameLength ∧ d4.sendSwitchSem = sem := by
    unfold d4
    split <;> exact hpost
  split_ifs <;> exact hflow

/-- The interrupt posts if and only if it finds a frame in a full ring. -/
theorem framePosts_eq (hdata : d.atMode = .data) : framePosts d dummy =
    if ringBufCnt (ringBufWriteChar d.uartrxbuf dummy).1 ≥ d.frameLength ∧
      ringBufFull (ringBufWriteChar d.uartrxbuf dummy).1 then 1 else 0 := by
  obtain ⟨-, -, -, hsem⟩ := uartDataRecv_frame (d := { d with sendSwitchSem := 0 }) dummy hdata
  exact hsem

/-- The counter moves by these posts. -/
theorem sendSwitchSem_eq (hdata : d.atMode = .data) :
    (uartDataRecv d dummy).sendSwitchSem = osSemPost^[framePosts d dummy] d.sendSwitchSem := by
  obtain ⟨-, -, -, hsem⟩ := uartDataRecv_frame dummy hdata
  rw [hsem, framePosts_eq hdata]
  split <;> rfl

/-- A byte is stored unless the ring is full. -/
theorem ringBufWriteChar_count {r : RingBuffer} (dummy : UInt8) (h : r.Wf) :
    (ringBufWriteChar r dummy).1.count = if r.count + 1 < r.size then r.count + 1 else r.count := by
  obtain ⟨-, -, hcontents, -⟩ := ringBufWriteChar_spec h dummy
  rw [← RingBuffer.length_contents, hcontents, List.length_append, RingBuffer.length_contents]
  split <;> rfl

/-- **One interrupt** is right exactly when there is no frame yet, or the byte fills the ring or
    finds it full. -/
theorem frameRight_iff (hdata : d.atMode = .data) (hring : d.uartrxbuf.Wf)
    (hmax : d.frameLength + 2 ≤ d.uartrxbuf.size) :
    FrameRight d dummy ↔ d.uartrxbuf.count + 1 < d.frameLength ∨
      d.uartrxbuf.size ≤ d.uartrxbuf.count + 2 := by
  obtain ⟨hbuf, -⟩ := uartDataRecv_frame dummy hdata
  obtain ⟨hwf, hsize, -⟩ := ringBufWriteChar_spec hring dummy
  have hcount := ringBufWriteChar_count dummy hring
  have hlt := RingBuffer.count_lt hring
  have hfull : ringBufFull (ringBufWriteChar d.uartrxbuf dummy).1 = true ↔
      d.uartrxbuf.size ≤ d.uartrxbuf.count + 2 := by
    rw [ringBufFull_iff hwf, hsize, hcount]
    split <;> omega
  unfold FrameRight
  rw [hbuf, framePosts_eq hdata, ringBufCnt_eq hwf]
  by_cases hlast : d.uartrxbuf.size ≤ d.uartrxbuf.count + 2
  · -- the ring is full afterwards
    have hframe : ((ringBufWriteChar d.uartrxbuf dummy).1.count : ℤ) ≥ d.frameLength := by
      rw [hcount]
      split <;> omega
    rw [if_pos ⟨hframe, hfull.mpr hlast⟩]
    exact iff_of_true ⟨fun _ => rfl, fun h => absurd hframe (not_le.mpr h)⟩ (.inr hlast)
  · rw [if_neg fun h => hlast (hfull.mp h.2), hcount, if_pos (by omega)]
    omega

/-! ### A stream of bytes -/

/-- **When the frame length triggers.**  In `DATA_MODE`, for every ring and every stream: all
    interrupts post as `frameLength` says if and only if the stream is empty, or no frame is
    complete at its end, or the ring lacked at most two bytes at its start. -/
theorem frame_trigger_iff (hdata : d.atMode = .data) (hring : d.uartrxbuf.Wf)
    (hsize : d.uartrxbuf.size = uartRecvBufSize) (hmax : d.frameLength ≤ maxRecvBufferSize)
    (bytes : List UInt8) :
    Throughout byteInterrupt FrameRight d bytes ↔ bytes = [] ∨
      d.uartrxbuf.count + bytes.length < d.frameLength ∨
      uartRecvBufSize - 2 ≤ d.uartrxbuf.count := by
  unfold uartRecvBufSize at hsize ⊢
  unfold maxRecvBufferSize at hmax
  induction bytes generalizing d with
  | nil => exact iff_of_true trivial (.inl rfl)
  | cons b bytes ih =>
    obtain ⟨hbuf, hmode, hlength, -⟩ := uartDataRecv_frame b hdata
    obtain ⟨hwf, hsize', -⟩ := ringBufWriteChar_spec hring b
    have hcount := ringBufWriteChar_count b hring
    rw [← hbuf] at hwf hsize' hcount
    rw [Throughout, frameRight_iff hdata hring (by omega), byteInterrupt,
      ih hmode hwf (hsize'.trans hsize) (by omega), hlength, hcount, hsize, List.length_cons]
    have hempty : bytes = [] ↔ bytes.length = 0 := List.length_eq_zero_iff.symm
    rw [hempty, or_iff_right (List.cons_ne_nil b bytes)]
    split_ifs <;> omega

/-- A ring of `UART_RECV_BUF_SIZE` bytes, and a frame length of 32. -/
def frameDevice : Device :=
  { initDevice (List.replicate uartRecvBufSize 0) with atMode := .data, frameLength := 32 }

theorem frameDevice_wf : frameDevice.uartrxbuf.Wf := by
  refine ⟨?_, ?_, ?_, ?_, le_of_eq List.length_replicate.symm⟩ <;> decide

/-- 31 bytes are no frame. -/
theorem frame_trigger_iff_short :
    Throughout byteInterrupt FrameRight frameDevice (List.replicate 31 65) ↔
      List.replicate 31 (65 : UInt8) = [] ∨
        frameDevice.uartrxbuf.count + (List.replicate 31 (65 : UInt8)).length
          < frameDevice.frameLength ∨
        uartRecvBufSize - 2 ≤ frameDevice.uartrxbuf.count :=
  frame_trigger_iff rfl frameDevice_wf rfl (by decide) _

/-- A frame of 32 bytes does not post. -/
theorem frame_without_post :
    ¬ ∀ (d : Device) (bytes : List UInt8), d.atMode = .data → d.uartrxbuf.Wf →
      d.uartrxbuf.size = uartRecvBufSize → minRecvBufferSize ≤ d.frameLength →
      d.frameLength ≤ maxRecvBufferSize → Throughout byteInterrupt FrameRight d bytes := by
  intro hall
  have hright := hall { frameDevice with uartrxbuf := { frameDevice.uartrxbuf with tail := 31 } }
    [65] rfl ⟨by decide, by decide, by decide, by decide, le_of_eq List.length_replicate.symm⟩ rfl
    (by decide) (by decide)
  exact absurd (hright.1.1 (by decide +kernel)) (by decide +kernel)

end SerialNet
