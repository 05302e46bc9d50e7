import SerialNet.Net.SendTask

namespace SerialNet

/-!
# Wake-ups from the UART to the network

A byte that arrives while `net_sendStart` is `SEND_DONE` starts the timer, and the timer posts
`sendSwitchSem`; the send task sets `SEND_DONE` again after a read.  `WakeInv` is the invariant
behind this: `SEND_START` means that there is something to read or that a read is under way,
and a task on its way to the semaphore leaves no byte behind without a timer or a post.

Two statements of the task can break it (`WakeOk`): the reset to `SEND_DONE` while bytes beyond
the ones read are in the ring and their wake-up is spent, and the clearing of the ring before
giving up while `net_sendStart` is `SEND_START`.
-/

/-! ### Indices of the shared ring -/

/-- The part of the ring's shape that survives every interleaving. -/
structure RingShape (r : RingBuffer) : Prop where
  two_le : 2 ≤ r.size
  size_le : r.size ≤ 2147483648
  tail_lt : r.tail < r.size

/-- Where `head` stands, by statement of the reader; an interrupt never moves it. -/
def ReadPc.InBounds (r : RingBuffer) : ReadPc → Prop
  | .clamp c | .check c => r.head < r.size ∧ (0 < c → r.head + c ≤ r.size)
  | .copy c | .advance c => r.head < r.size ∧ 0 < c ∧ r.head + c ≤ r.size
  | .wrapTest _ => r.head ≤ r.size
  | .wrap _ => r.head = r.size
  | _ => r.head < r.size

/-- A statement of the reader keeps `head` in bounds. -/
theorem readerStep_inBounds {r : RingBuffer} {t : Reader} (hr : RingShape r)
    (h : t.pc.InBounds r) : (readerStep r t).2.pc.InBounds (readerStep r t).1 := by
  have htail := hr.tail_lt
  have hsize := hr.size_le
  obtain ⟨pc, count, ret, buf⟩ := t
  cases pc <;> simp only [readerStep, ReadPc.InBounds] at h ⊢
  case cntTest => by_cases hge : r.tail ≥ r.head <;> simpa [hge] using h
  case cntGe => exact h
  case cntLt => exact h
  case select n => split_ifs <;> exact h
  case endTest => by_cases hge : r.tail ≥ r.head <;> simpa [hge] using h
  case endGe =>
    refine ⟨h, fun hc => ?_⟩
    unfold i32 u32 at hc ⊢
    omega
  case endLt =>
    refine ⟨h, fun hc => ?_⟩
    unfold i32 u32 at hc ⊢
    omega
  case clamp c =>
    refine ⟨h.1, fun hc => ?_⟩
    rw [clampCount_eq_min] at hc ⊢
    have := h.2 (by omega)
    omega
  case check c =>
    by_cases hc : c ≤ 0
    · simpa [hc] using h.1
    · simpa [hc] using ⟨h.1, by omega, h.2 (by omega)⟩
  case copy c => exact h
  case advance c =>
    obtain ⟨h1, h2, h3⟩ := h
    unfold u32
    omega
  case wrapTest c =>
    by_cases hge : r.head ≥ r.size
    · simp only [hge, if_true]
      omega
    · simp only [hge, if_false]
      omega
  case wrap c =>
    unfold u32
    omega
  case account c => exact h
  case done => exact h
  case empty => exact h

/-- It does not touch `tail` and `size`. -/
theorem readerStep_tail_size (r : RingBuffer) (t : Reader) :
    (readerStep r t).1.tail = r.tail ∧ (readerStep r t).1.size = r.size := by
  obtain ⟨pc, count, ret, buf⟩ := t
  cases pc <;> simp only [readerStep, and_self]
  case select n => split_ifs <;> exact ⟨rfl, rfl⟩

/-- The cell after `tail`. -/
def nextTail (r : RingBuffer) : ℕ := if r.tail + 1 = r.size then 0 else r.tail + 1

/-- `ring_buf_write_char` refuses the byte when the next cell is `head`, and otherwise moves
    `tail` there. -/
theorem ringBufWriteChar_cases {r : RingBuffer} (hr : RingShape r) (dummy : UInt8) :
    (nextTail r = r.head ∧ (ringBufWriteChar r dummy).1 = r) ∨
      (nextTail r ≠ r.head ∧ (ringBufWriteChar r dummy).1
        = { r with buffer := r.buffer.set r.tail dummy, tail := nextTail r }) := by
  have htail := hr.tail_lt
  have hsize := hr.size_le
  have hu : u32 ((r.tail : ℤ) + 1) = r.tail + 1 := by unfold u32; omega
  have hfull : ringBufFull r = decide (nextTail r = r.head) := by
    have hmod : (r.tail + 1) % r.size = nextTail r := by
      unfold nextTail
      split
      · rename_i hlast; rw [hlast, Nat.mod_self]
      · exact Nat.mod_eq_of_lt (by omega)
    rw [ringBufFull, hu, hmod]
    rfl
  by_cases h : nextTail r = r.head
  · refine .inl ⟨h, ?_⟩
    simp [ringBufWriteChar, hfull, h]
  · refine .inr ⟨h, ?_⟩
    have hw : u32 (((r.tail + 1 : ℕ) : ℤ) - r.size) = 0 ∨ r.tail + 1 < r.size := by
      unfold u32; omega
    simp only [ringBufWriteChar, hfull, h, decide_false, Bool.not_false, if_true, hu]
    unfold nextTail
    by_cases hlast : r.tail + 1 = r.size
    · rw [if_pos (by omega), if_pos hlast, hw.resolve_right (by omega)]
    · rw [if_neg (by omega), if_neg hlast]

/-- An interrupt byte moves only `tail`, and leaves a ring that is not empty. -/
theorem ringBufWriteChar_shape {r : RingBuffer} (hr : RingShape r) (dummy : UInt8) :
    RingShape (ringBufWriteChar r dummy).1 ∧ (ringBufWriteChar r dummy).1.head = r.head ∧
      (ringBufWriteChar r dummy).1.size = r.size ∧
      ringBufEmpty (ringBufWriteChar r dummy).1 = false := by
  have htail := hr.tail_lt
  have h2 := hr.two_le
  rcases ringBufWriteChar_cases hr dummy with ⟨hnext, hw⟩ | ⟨hnext, hw⟩
  · rw [hw]
    refine ⟨hr, rfl, rfl, ?_⟩
    have hne : r.tail ≠ r.head := by
      unfold nextTail at hnext
      split at hnext <;> omega
    simpa [ringBufEmpty] using hne
  · rw [hw]
    have hlt : nextTail r < r.size := by
      unfold nextTail
      split <;> omega
    exact ⟨⟨h2, hr.size_le, hlt⟩, rfl, rfl, by simpa [ringBufEmpty] using hnext⟩

/-! ### The three phases of the send task -/

/-- Where the task stands between two waits. -/
inductive Phase where
  /-- On its way to the semaphore; it will not look at the ring before it is posted. -/
  | waits
  /-- Woken up, and about to look at the ring. -/
  | looks
  /-- It has seen bytes and has not set `SEND_DONE` yet. -/
  | reads
deriving DecidableEq, Repr

/-- The phase of a statement; a task that has counted zero bytes waits already. -/
def SendPc.phase : SendPc → Phase
  | .acquire => .looks
  | .reading t =>
      match t.pc with
      | .cntTest | .cntGe | .cntLt => .looks
      | .select 0 | .empty => .waits
      | _ => .reads
  | .release | .setDone => .reads
  | _ => .waits

/-- `head` is in bounds for the statement of the send task. -/
def SendPc.HeadOk (r : RingBuffer) : SendPc → Prop
  | .reading t => t.pc.InBounds r
  | _ => r.head < r.size

/-- Behind a chunk the head is inside the ring. -/
theorem afterTarget_headOk {r : RingBuffer} (target : Target) (h : r.head < r.size) :
    (afterTarget target).HeadOk r := by
  rcases afterTarget_cases target with heq | ⟨i, heq⟩ <;> rw [heq] <;> exact h

/-- A task that waits has `head` inside the ring. -/
theorem SendPc.HeadOk.lt_of_waits {r : RingBuffer} {pc : SendPc} (h : pc.HeadOk r)
    (hw : pc.phase = .waits) : r.head < r.size := by
  cases pc with
  | reading t =>
    obtain ⟨pc, count, ret, buf⟩ := t
    cases pc <;> first | exact h | simp [SendPc.phase] at hw
  | _ => exact h

/-- Where `head` may stand depends on the size of the ring only. -/
theorem SendPc.HeadOk.congr {r r' : RingBuffer} {pc : SendPc} (h : pc.HeadOk r)
    (hhead : r'.head = r.head) (hsize : r'.size = r.size) : pc.HeadOk r' := by
  cases pc with
  | reading t =>
    obtain ⟨pc, count, ret, buf⟩ := t
    cases pc <;> simpa only [SendPc.HeadOk, ReadPc.InBounds, hhead, hsize] using h
  | _ => simpa only [SendPc.HeadOk, hhead, hsize] using h

/-! ### The invariant -/

/-- Something will wake the task up: the timer runs, or a post is pending. -/
def Device.Awake (d : Device) : Prop := d.tmr0 = true ∨ 0 < d.sendSwitchSem

instance (d : Device) : Decidable d.Awake := inferInstanceAs (Decidable (_ ∨ _))

/-- What holds between any two steps of a session. -/
structure WakeInv (s : System) : Prop where
  data : s.dev.atMode = .data
  shape : RingShape s.dev.uartrxbuf
  head : s.sendPc.HeadOk s.dev.uartrxbuf
  /-- `SEND_START`: there is something to read, or a read is under way. -/
  started : s.dev.netSendStart = .start →
    ringBufEmpty s.dev.uartrxbuf = false ∨ s.sendPc.phase = .reads
  /-- No byte is left behind by a task that waits. -/
  woken : s.sendPc.phase = .waits → ringBufEmpty s.dev.uartrxbuf = false → s.dev.Awake

/-- The step does not break the wake-up: `SEND_DONE` is set only when the ring is empty or a
    wake-up is under way, and the ring is cleared only under `SEND_DONE`. -/
def WakeOk (s : System) : Label → Prop
  | .task _ =>
      (s.sendPc = .setDone → ringBufEmpty s.dev.uartrxbuf = true ∨ s.dev.Awake) ∧
        (s.sendPc = .giveUpClear → s.dev.netSendStart = .done)
  | _ => True

instance (s : System) : DecidablePred (WakeOk s)
  | .task _ => inferInstanceAs (Decidable ((_ → _ ∨ _) ∧ (_ → _)))
  | .byte _ | .timer | .call | .close _ | .sockets .. | .mode | .quit | .configure .. =>
    .isTrue trivial

/-- Behind a post the task will wake up. -/
theorem osSemPost_pos (count : ℕ) : 0 < osSemPost count := by
  unfold osSemPost; split <;> omega

/-! ### What each step does to the wake-up -/

/-- How a byte in `DATA_MODE` turns `d` into `d'`: it goes to the ring and leaves `SEND_START`, it
    starts the timer if `net_sendStart` was `SEND_DONE`, and takes no wake-up away. -/
structure ByteWake (d d' : Device) (dummy : UInt8) : Prop where
  ring : d'.uartrxbuf = (ringBufWriteChar d.uartrxbuf dummy).1
  mode : d'.atMode = d.atMode
  start : d'.netSendStart = .start
  timer : d.netSendStart = .done → d'.tmr0 = true
  awake : d.Awake → d'.Awake

/-- A received byte wakes the task when it has to. -/
theorem dataRecv_wake (d : Device) (dummy : UInt8) : ByteWake d (dataRecv d dummy) dummy := by
  unfold dataRecv
  extract_lets d1 d2 d3 d4
  have h2 : ByteWake d d2 dummy := by
    unfold d2
    by_cases hdone : d.netSendStart = .done
    · rw [if_pos hdone]
      exact ⟨rfl, rfl, rfl, fun _ => rfl, fun _ => .inl rfl⟩
    · have hstart : d.netSendStart = .start := by
        cases h : d.netSendStart with
        | done => exact absurd h hdone
        | start => rfl
      rw [if_neg hdone]
      exact ⟨rfl, rfl, hstart, fun h => absurd h hdone, id⟩
  have h3 : ByteWake d d3 dummy := by
    unfold d3
    split
    · exact ⟨h2.ring, h2.mode, h2.start, h2.timer, fun _ => .inr (osSemPost_pos _)⟩
    · exact h2
  have h4 : ByteWake d d4 dummy := by
    unfold d4
    split
    · exact ⟨h3.ring, h3.mode, rfl, fun _ => rfl, fun _ => .inl rfl⟩
    · exact h3
  -- what is left concerns the mode switch
  split_ifs
  all_goals exact ⟨h4.ring, h4.mode, h4.start, h4.timer, h4.awake⟩

/-- The byte interrupt keeps the invariant. -/
theorem wakeInv_byte {s : System} (h : WakeInv s) (dummy : UInt8) :
    WakeInv { s with dev := uartDataRecv s.dev dummy } := by
  obtain ⟨hring, hmode, hstart, htimer, hawake⟩ := dataRecv_wake s.dev dummy
  obtain ⟨hshape, hhead, hsize, hne⟩ := ringBufWriteChar_shape h.shape dummy
  have hdev : uartDataRecv s.dev dummy = dataRecv s.dev dummy := by
    rw [uartDataRecv, if_pos h.data]
  rw [← hring] at hshape hhead hsize hne
  rw [hdev]
  refine ⟨hmode.trans h.data, hshape, h.head.congr hhead hsize, fun _ => .inl hne, fun hw _ => ?_⟩
  · show (dataRecv s.dev dummy).Awake
    cases hst : s.dev.netSendStart with
    | done => exact .inl (htimer hst)
    | start =>
      -- `SEND_START` outside a read: the ring was not empty, so a wake-up was under way
      have hold := (h.started hst).resolve_right (by rw [hw]; decide)
      exact hawake (h.woken hw hold)

/-- The timer interrupt posts, and leaves everything but the timer alone. -/
theorem timerFuncProcess_wake (d : Device) :
    (timerFuncProcess d).atMode = d.atMode ∧ (timerFuncProcess d).uartrxbuf = d.uartrxbuf ∧
      (timerFuncProcess d).netSendStart = d.netSendStart ∧
      0 < (timerFuncProcess d).sendSwitchSem := by
  simp only [timerFuncProcess]
  split <;> exact ⟨rfl, rfl, rfl, osSemPost_pos _⟩

/-- The timer interrupt keeps the invariant. -/
theorem wakeInv_timer {s : System} {d : Device} (h : WakeInv s) (hd : timerIsr s.dev = some d) :
    WakeInv { s with dev := d } := by
  have hd' : d = timerFuncProcess s.dev := by
    unfold timerIsr at hd
    split at hd
    · exact (Option.some.inj hd).symm
    · cases hd
  obtain ⟨hmode, hring, hstart, hsem⟩ := timerFuncProcess_wake s.dev
  rw [← hd'] at hmode hring hstart hsem
  refine ⟨hmode.trans h.data, ?_, ?_, ?_, fun _ _ => .inr hsem⟩
  · simpa [hring] using h.shape
  · simpa [hring] using h.head
  · simpa [hring, hstart] using h.started

/-- A step that only moves the program counter of a waiting task, or changes what the
    invariant does not speak about. -/
theorem WakeInv.move {s s' : System} (h : WakeInv s) (hw : s.sendPc.phase = .waits)
    (hhead : s.dev.uartrxbuf.head < s.dev.uartrxbuf.size → s'.sendPc.HeadOk s.dev.uartrxbuf)
    (hmode : s'.dev.atMode = s.dev.atMode) (hring : s'.dev.uartrxbuf = s.dev.uartrxbuf)
    (hstart : s'.dev.netSendStart = s.dev.netSendStart) (htmr : s'.dev.tmr0 = s.dev.tmr0)
    (hsem : s'.dev.sendSwitchSem = s.dev.sendSwitchSem) : WakeInv s' := by
  refine ⟨hmode.trans h.data, hring ▸ h.shape, hring ▸ hhead (h.head.lt_of_waits hw), ?_, ?_⟩
  · rw [hstart, hring]
    intro hs
    exact .inl ((h.started hs).resolve_right (by rw [hw]; decide))
  · rw [hring]
    intro _ hne
    have := h.woken hw hne
    unfold Device.Awake at this ⊢
    rwa [htmr, hsem]

/-- `ring_buf_cnt` through `UINT32 data_len` is zero only on an empty ring. -/
theorem u32_cnt_eq_zero {r : RingBuffer} (hr : RingShape r) (h : r.head < r.size) :
    (u32 (i32 (u32 (r.tail - r.head))) = 0 ↔ r.tail = r.head) ∧
      u32 (i32 (u32 (r.size + r.tail - r.head))) ≠ 0 := by
  have htail := hr.tail_lt
  have hsize := hr.size_le
  rw [u32_i32_u32, u32_i32_u32]
  unfold u32
  omega

/-- After `data_len = ring_buf_cnt(…)` the phase depends on whether that was zero. -/
theorem phase_select (n : ℕ) (count ret : ℤ) (buf : List UInt8) :
    (SendPc.reading ⟨.select n, count, ret, buf⟩).phase = if n = 0 then .waits else .reads := by
  cases n <;> rfl

/-- A statement of the reader keeps the phase order: it counts zero bytes only on an empty
    ring, and goes from `looks` to `reads` otherwise. -/
theorem readerStep_phase {r : RingBuffer} {t : Reader} (hr : RingShape r)
    (h : t.pc.InBounds r) (hempty : t.pc ≠ .empty) (hdone : t.pc ≠ .done) :
    (SendPc.reading (readerStep r t).2).phase = .reads ∨
      ((SendPc.reading t).phase ≠ .reads ∧ (readerStep r t).1 = r ∧
        ((SendPc.reading (readerStep r t).2).phase = .waits →
          (SendPc.reading t).phase = .waits ∨ ringBufEmpty r = true)) := by
  obtain ⟨pc, count, ret, buf⟩ := t
  cases pc <;> simp only [ReadPc.InBounds] at h
  case cntTest =>
    right
    by_cases hge : r.tail ≥ r.head <;> simp [readerStep, SendPc.phase, hge]
  case cntGe =>
    have hcnt := (u32_cnt_eq_zero hr h).1
    simp only [readerStep, phase_select, hcnt]
    by_cases heq : r.tail = r.head
    · right
      simp [SendPc.phase, ringBufEmpty, heq]
    · left
      rw [if_neg heq]
  case cntLt =>
    have hcnt := (u32_cnt_eq_zero hr h).2
    left
    simp only [readerStep, phase_select, hcnt, if_false]
  case select n =>
    rw [phase_select]
    by_cases hn : n = 0
    · right
      simp [readerStep, hn]
    · left
      by_cases hle : n ≤ gSendBufSize <;> simp only [readerStep, hn, hle, if_true, if_false] <;>
        rfl
  case check c =>
    left
    by_cases hc : c ≤ 0 <;> simp only [readerStep, hc, if_true, if_false] <;> rfl
  case endTest =>
    left
    by_cases hge : r.tail ≥ r.head <;> simp only [readerStep, hge, if_true, if_false] <;> rfl
  case wrapTest c =>
    left
    by_cases hge : r.head ≥ r.size <;> simp only [readerStep, hge, if_true, if_false] <;> rfl
  case done => exact absurd rfl hdone
  case empty => exact absurd rfl hempty
  all_goals exact .inl rfl

/-- A statement of `ring_buf_cnt` or `ring_buf_read` keeps the invariant. -/
theorem wakeInv_reading {s : System} {t : Reader} (h : WakeInv s) (hpc : s.sendPc = .reading t)
    (hempty : t.pc ≠ .empty) (hdone : t.pc ≠ .done) :
    WakeInv { s with dev := { s.dev with uartrxbuf := (readerStep s.dev.uartrxbuf t).1 }
                     sendPc := .reading (readerStep s.dev.uartrxbuf t).2 } := by
  have hhead : t.pc.InBounds s.dev.uartrxbuf := by have := h.head; rwa [hpc] at this
  have hbounds := readerStep_inBounds h.shape hhead
  obtain ⟨htail, hsize⟩ := readerStep_tail_size s.dev.uartrxbuf t
  have hshape : RingShape (readerStep s.dev.uartrxbuf t).1 :=
    ⟨hsize ▸ h.shape.two_le, hsize ▸ h.shape.size_le, by rw [htail, hsize]; exact h.shape.tail_lt⟩
  have hstarted := h.started
  have hwoken := h.woken
  rw [hpc] at hstarted hwoken
  rcases readerStep_phase h.shape hhead hempty hdone with hreads | ⟨hphase, hring, hwaits⟩
  · exact ⟨h.data, hshape, hbounds, fun _ => .inr hreads, fun hw => by rw [hreads] at hw; cases hw⟩
  · have hsame : ringBufEmpty (readerStep s.dev.uartrxbuf t).1 = ringBufEmpty s.dev.uartrxbuf := by
      rw [hring]
    refine ⟨h.data, hshape, hbounds, fun hst => ?_, fun hw hne => ?_⟩
    · exact .inl (hsame.trans ((hstarted hst).resolve_right hphase))
    · have hne' := hsame.symm.trans hne
      rcases hwaits hw with hw' | hemp
      · exact hwoken hw' hne'
      · rw [hemp] at hne'
        cases hne'

/-- A statement of the send task keeps the invariant if it does not break the wake-up. -/
theorem wakeInv_task {s s' : System} {snd : ℤ} (h : WakeInv s) (hok : WakeOk s (.task snd))
    (hs : sendStep s snd = some s') : WakeInv s' := by
  have hhead := h.head
  have hstarted := h.started
  cases hpc : s.sendPc <;> rw [hpc] at hhead hstarted <;>
    simp only [sendStep, hpc, Option.some.injEq, reduceCtorEq] at hs
  case loopTop =>
    subst hs
    refine h.move (by rw [hpc]; rfl) ?_ rfl rfl rfl rfl rfl
    simp [h.data, SendPc.HeadOk]
  -- woken up: what had been started before the wait is still in the ring
  case pend =>
    split at hs
    · have hne : s.dev.netSendStart = .start → ringBufEmpty s.dev.uartrxbuf = false :=
        fun hst => (hstarted hst).resolve_right (by decide)
      have hlooks : ∀ pc' : SendPc, pc'.phase = .looks → pc'.HeadOk s.dev.uartrxbuf →
          WakeInv { s with dev := { s.dev with sendSwitchSem := s.dev.sendSwitchSem - 1 }
                           sendPc := pc' } := fun pc' hph hok' =>
        ⟨h.data, h.shape, hok', fun hst => .inl (hne hst), fun hw => by rw [hph] at hw; cases hw⟩
      rw [Option.some.injEq] at hs
      subst hs
      split
      · exact hlooks _ rfl hhead
      · exact hlooks _ rfl hhead
    · cases hs
  case acquire =>
    split at hs
    · cases hs
    · rw [Option.some.injEq] at hs
      subst hs
      exact ⟨h.data, h.shape, hhead, fun hst => .inl ((hstarted hst).resolve_right (by decide)),
        fun hw => by cases hw⟩
  case reading t =>
    split at hs
    · rename_i hemp
      rw [Option.some.injEq] at hs
      subst hs
      exact h.move (by rw [hpc, SendPc.phase, hemp]) (fun hlt => hlt) rfl rfl rfl rfl rfl
    · split at hs
      · rename_i hdone
        have hlt : s.dev.uartrxbuf.head < s.dev.uartrxbuf.size := by
          rwa [SendPc.HeadOk, hdone] at hhead
        rw [Option.some.injEq] at hs
        subst hs
        split
        · exact ⟨h.data, h.shape, hlt, fun _ => .inr rfl, fun hw => by cases hw⟩
        · exact ⟨h.data, h.shape, hlt, fun _ => .inr rfl, fun hw => by cases hw⟩
      · rename_i hemp hdone
        rw [Option.some.injEq] at hs
        subst hs
        exact wakeInv_reading h hpc hemp hdone
  case release =>
    subst hs
    exact ⟨h.data, h.shape, hhead, fun _ => .inr rfl, fun hw => by cases hw⟩
  -- the one statement that takes `SEND_START` back
  case setDone =>
    subst hs
    have hwake := hok.1 hpc
    refine ⟨h.data, h.shape, ?_, ?_, fun _ hne => ?_⟩
    · split <;> exact hhead
    · intro hst
      cases hst
    · exact hwake.resolve_left (by rw [show ringBufEmpty s.dev.uartrxbuf = false from hne]; decide)
  -- the ring is emptied, so `SEND_START` must not be set
  case giveUpClear =>
    subst hs
    have hdone := hok.2 hpc
    have hpos : 0 < s.dev.uartrxbuf.size := Nat.lt_of_lt_of_le (by decide) h.shape.two_le
    refine ⟨h.data, ⟨h.shape.two_le, h.shape.size_le, hpos⟩, hpos, fun hst => ?_, fun _ hne => ?_⟩
    · rw [show s.dev.netSendStart = .start from hst] at hdone
      cases hdone
    · cases hne
  case giveUpFlow =>
    subst hs
    refine h.move (by rw [hpc]; rfl) (fun hlt => hlt) ?_ ?_ ?_ ?_ ?_ <;>
      (unfold restartUart; split <;> rfl)
  case flow target =>
    subst hs
    refine h.move (by rw [hpc]; rfl) (afterTarget_headOk target) ?_ ?_ ?_ ?_ ?_ <;>
      (unfold restartUart; split <;> rfl)
  case slotTest i =>
    subst hs
    refine h.move (by rw [hpc]; rfl) (fun hlt => ?_) rfl rfl rfl rfl rfl
    show (if _ then _ else _ : SendPc).HeadOk _
    split
    · exact hlt
    · exact afterTarget_headOk _ hlt
  all_goals
    subst hs
    refine h.move (by rw [hpc]; rfl) (fun hlt => ?_) rfl rfl rfl rfl rfl
    first
    | exact hlt
    | (show (if _ then _ else _ : SendPc).HeadOk _
       split <;> exact hlt)

/-- Every step of a session keeps the invariant: an interrupt, a statement of the send task, a
    call of it, or a change of the sockets. -/
theorem wakeInv_step (s : System) (l : Label) (s' : System) (h : WakeInv s)
    (hok : WakeOk s l ∧ l ≠ .mode) (hs : systemStep s l = some s') : WakeInv s' := by
  cases l with
  | byte dummy =>
    rw [← Option.some.inj hs]
    exact wakeInv_byte h dummy
  | timer =>
    obtain ⟨d, hd, rfl⟩ := Option.map_eq_some_iff.mp hs
    exact wakeInv_timer h hd
  | task snd => exact wakeInv_task h hok.1 hs
  | call =>
    simp only [systemStep] at hs
    split at hs
    · rename_i hcall
      rw [← Option.some.inj hs]
      exact h.move (by rw [hcall.1]; rfl) (fun hlt => hlt) rfl rfl rfl rfl rfl
    · cases hs
  | close i =>
    rw [← Option.some.inj hs]
    exact ⟨h.data, h.shape, h.head, h.started, h.woken⟩
  | sockets connStatus sockfd tcpServerFd tcpClient =>
    rw [← Option.some.inj hs]
    exact ⟨h.data, h.shape, h.head, h.started, h.woken⟩
  | mode => exact absurd rfl hok.2
  | quit => simp [systemStep, h.data] at hs
  | configure proto role frameLength => simp [systemStep, h.data] at hs

/-! ### No lost wake-up -/

/-- The start of a session in `DATA_MODE`: the ring empty, `SEND_DONE`, the semaphore 0, and
    the send task outside a read. -/
structure SessionStart (s : System) : Prop where
  data : s.dev.atMode = .data
  shape : RingShape s.dev.uartrxbuf
  empty : s.dev.uartrxbuf.tail = s.dev.uartrxbuf.head
  done : s.dev.netSendStart = .done
  sem : s.dev.sendSwitchSem = 0
  outside : s.sendPc = .returned ∨ s.sendPc = .loopTop ∨ s.sendPc = .pend

/-- The invariant holds at the start of a session. -/
theorem wakeInv_start {s : System} (h : SessionStart s) : WakeInv s := by
  have hlt : s.dev.uartrxbuf.head < s.dev.uartrxbuf.size := h.empty ▸ h.shape.tail_lt
  refine ⟨h.data, h.shape, ?_, fun hst => ?_, fun _ hne => ?_⟩
  · rcases h.outside with hpc | hpc | hpc <;> rw [hpc] <;> exact hlt
  · rw [h.done] at hst
    cases hst
  · simp [ringBufEmpty, h.empty] at hne

/-- A task at the semaphore that something will wake up comes to look at the ring without
    another byte from the UART. -/
theorem Device.Awake.reaches_ring {s : System} (h : s.dev.Awake) (hpc : s.sendPc = .pend) :
    ∃ ls : List Label, (∀ l ∈ ls, l = .timer ∨ l = .task 0) ∧
      ∃ t, run systemStep s ls = some t ∧ t.sendPc.phase = .looks := by
  have hwake : ∀ s : System, s.sendPc = .pend → 0 < s.dev.sendSwitchSem →
      ∃ t, systemStep s (.task 0) = some t ∧ t.sendPc.phase = .looks := by
    intro s hpc hsem
    simp only [systemStep, sendStep, hpc, hsem, if_true, Option.some.injEq, exists_eq_left']
    split <;> rfl
  rcases h with htmr | hsem
  · have htimer : systemStep s .timer = some { s with dev := timerFuncProcess s.dev } := by
      simp [systemStep, timerIsr, htmr]
    obtain ⟨t, ht, hphase⟩ := hwake { s with dev := timerFuncProcess s.dev } hpc
      (timerFuncProcess_wake s.dev).2.2.2
    refine ⟨[.timer, .task 0], by simp, t, ?_, hphase⟩
    simp [run_cons, htimer, ht]
  · obtain ⟨t, ht, hphase⟩ := hwake s hpc hsem
    exact ⟨[.task 0], by simp, t, by simp [run_cons, ht], hphase⟩

/-- **No wake-up is lost** in a session whose steps all meet `WakeOk`: whenever the task waits
    on `sendSwitchSem` with bytes in the ring, the timer runs or a post is pending, and so the
    task comes to look at the ring without another byte. -/
theorem no_lost_wakeup {s t : System} {ls : List Label} (hs : SessionStart s)
    (hdata : .mode ∉ ls) (hok : Along systemStep WakeOk s ls) (hr : run systemStep s ls = some t)
    (hpc : t.sendPc = .pend) (hne : ringBufEmpty t.dev.uartrxbuf = false) :
    (t.dev.tmr0 = true ∨ 0 < t.dev.sendSwitchSem) ∧
      ∃ ks : List Label, (∀ k ∈ ks, k = .timer ∨ k = .task 0) ∧
        ∃ u, run systemStep t ks = some u ∧ u.sendPc.phase = .looks := by
  have hmode : Along systemStep (fun _ l => l ≠ .mode) s ls :=
    along_of_forall (fun _ l hl => by rintro rfl; exact hdata hl) s
  have hinv := run_invariant wakeInv_step ls s t (wakeInv_start hs) (hok.and hmode) hr
  have hawake := hinv.woken (by rw [hpc]; rfl) hne
  exact ⟨hawake, hawake.reaches_ring hpc⟩

/-- A UDP client whose socket is open, waiting for the first byte. -/
def udpSession : System :=
  { dev := { initDevice (List.replicate uartRecvBufSize 0) with
             atMode := .data, connStatus := true, sockfd := 0 }
    sendPc := .pend
    proto := .udp
    role := .client
    sendBuf := []
    sent := []
    modePc := .pend }

/-- The session has just started. -/
theorem udpSession_start : SessionStart udpSession :=
  ⟨rfl, ⟨by decide, by decide, by decide⟩, rfl, rfl, rfl, .inr (.inr rfl)⟩

/-- One byte and the timer wake the task; a second byte arrives after `k` of the 21 statements
    that bring it back to the semaphore. -/
def twoBytes (k : ℕ) : List Label :=
  [.byte 65, .timer] ++ List.replicate k (.task 0) ++ [.byte 66] ++
    List.replicate (21 - k) (.task 0)

/-- The run has no mode switch. -/
theorem mode_not_mem_twoBytes (k : ℕ) : .mode ∉ twoBytes k := by simp [twoBytes]

/-- The state after these steps. -/
abbrev afterTwoBytes (k : ℕ) : System := runEnd systemStep udpSession (twoBytes k)

/-- A second byte right after `SEND_DONE` starts the timer. -/
theorem no_lost_wakeup_second_byte :
    ((afterTwoBytes 18).dev.tmr0 = true ∨ 0 < (afterTwoBytes 18).dev.sendSwitchSem) ∧
      ∃ ks : List Label, (∀ k ∈ ks, k = .timer ∨ k = .task 0) ∧
        ∃ u, run systemStep (afterTwoBytes 18) ks = some u ∧ u.sendPc.phase = .looks :=
  no_lost_wakeup udpSession_start (mode_not_mem_twoBytes 18) (by decide +kernel)
    (run_eq_runEnd (by decide +kernel)) (by decide +kernel) (by decide +kernel)

/-- **A second byte right after `ring_buf_cnt` is stranded.**  It finds `SEND_START` and starts
    no timer, the read leaves it in the ring, and `SEND_DONE` follows; the task waits with no
    timer and no post. -/
theorem second_byte_stranded :
    ¬ ∀ (s t : System) (ls : List Label), SessionStart s → .mode ∉ ls →
      run systemStep s ls = some t → t.sendPc = .pend → ringBufEmpty t.dev.uartrxbuf = false →
      t.dev.tmr0 = true ∨ 0 < t.dev.sendSwitchSem := by
  intro hall
  have hawake := hall udpSession (afterTwoBytes 3) (twoBytes 3) udpSession_start
    (mode_not_mem_twoBytes 3) (run_eq_runEnd (by decide +kernel)) (by decide +kernel)
    (by decide +kernel)
  exact absurd hawake (by decide +kernel)

end SerialNet
