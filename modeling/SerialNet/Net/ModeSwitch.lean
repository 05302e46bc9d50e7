import SerialNet.Net.WakeUp

namespace SerialNet

/-!
# The switch to `AT_MODE`

`TestSerialToWifi` sets `AT_MODE`, clears the ring and posts `sendSwitchSem`, so that the send
task wakes up, finds nothing and returns.  `ring_buf_clear` does not take `recv_lock`, and
`ring_buf_read` moves `head` in steps: cleared between the count and `cb->head += c;` the ring
does not stay empty.

* `ReadPc.Committed` — the statements of the reader that will move `head` in an empty ring;
* `SendEffect` — what a statement of the send task does to the ring and to `send_buf`;
* `SwitchInv` — after a clear that met no committed read the ring stays empty, whatever the
  send task does, until `AT+QUIT` (`switchInv_step`).
-/

/-! ### Where the ring must not be cleared -/

/-- The reader goes on to move `head` even if the ring is empty now: it has a positive number of
    bytes to copy, or will take the number up to the end of the block, or wraps `head`. -/
def ReadPc.Committed (count : ℤ) : ReadPc → Prop
  | .endLt => 0 < count
  | .clamp c => 0 < clampCount count c
  | .check c => 0 < c
  | .copy _ | .advance _ | .wrap _ => True
  | _ => False

instance (count : ℤ) : DecidablePred (ReadPc.Committed count)
  | .endLt => inferInstanceAs (Decidable (_ < _))
  | .clamp _ => inferInstanceAs (Decidable (_ < _))
  | .check _ => inferInstanceAs (Decidable (_ < _))
  | .copy _ | .advance _ | .wrap _ => .isTrue trivial
  | .cntTest | .cntGe | .cntLt | .select _ | .endTest | .endGe | .wrapTest _ | .account _
  | .done | .empty => .isFalse id

/-- So does the send task. -/
def SendPc.Committed : SendPc → Prop
  | .reading t => t.pc.Committed t.count
  | _ => False

instance : DecidablePred SendPc.Committed
  | .reading t => inferInstanceAs (Decidable (t.pc.Committed t.count))
  | .loopTop | .connTest | .pend | .acquire | .release | .setDone | .sendto | .role
  | .slotTest _ | .send _ | .sendTest .. | .retryTest _ | .giveUpClear | .giveUpFlow | .delay _
  | .resend _ | .resendTest .. | .flow _ | .returned => .isFalse id

/-- `TestSerialToWifi` does not clear the ring under a committed read. -/
def ClearOk (s : System) : Label → Prop
  | .mode => s.modePc = .clearRing → ¬ s.sendPc.Committed
  | _ => True

instance (s : System) : DecidablePred (ClearOk s)
  | .mode => inferInstanceAs (Decidable (_ → ¬ _))
  | .byte _ | .timer | .task _ | .call | .close _ | .sockets .. | .quit | .configure .. =>
    .isTrue trivial

/-! ### What a statement of the send task does -/

/-- The task is not inside `ring_buf_cnt` or `ring_buf_read`, or is about to enter. -/
def SendPc.Outside : SendPc → Prop
  | .reading t => t = Reader.start
  | _ => True

/-- `send_buf` holds the chunk of the last read. -/
def SendPc.HoldsChunk : SendPc → Prop
  | .release | .setDone | .sendto | .role | .slotTest _ | .send _ | .sendTest .. | .retryTest _
  | .delay _ | .resend _ | .resendTest .. | .flow _ => True
  | _ => False

/-- How a statement of the send task acts on the ring, on `send_buf` and on what was sent. -/
inductive SendEffect (s s' : System) : Prop where
  /-- A statement of `ring_buf_cnt` or `ring_buf_read`. -/
  | read (t : Reader) (hpc : s.sendPc = .reading t)
      (hpc' : s'.sendPc = .reading (readerStep s.dev.uartrxbuf t).2)
      (hring : s'.dev.uartrxbuf = (readerStep s.dev.uartrxbuf t).1) (hsent : s'.sent = s.sent)
  /-- `ring_buf_read` has returned. -/
  | fetch (t : Reader) (hpc : s.sendPc = .reading t) (hdone : t.pc = .done)
      (hout : s'.sendPc.Outside) (hring : s'.dev.uartrxbuf = s.dev.uartrxbuf)
      (hbuf : s'.sendBuf = t.buf) (hsent : s'.sent = s.sent)
  /-- The ring is cleared before giving up. -/
  | clear (hpc' : s'.sendPc = .giveUpFlow)
      (hring : s'.dev.uartrxbuf = ringBufClear s.dev.uartrxbuf) (hsent : s'.sent = s.sent)
  /-- A call of `send` or `sendto`. -/
  | send (fd : ℤ) (hchunk : s.sendPc.HoldsChunk) (hout : s'.sendPc.Outside)
      (hring : s'.dev.uartrxbuf = s.dev.uartrxbuf) (hbuf : s'.sendBuf = s.sendBuf)
      (hsent : s'.sent = s.sent ++ [(fd, s.sendBuf)])
  /-- Any other statement. -/
  | move (hin : ∀ t, s.sendPc = .reading t → t.pc = .empty) (hout : s'.sendPc.Outside)
      (hchunk : s'.sendPc.HoldsChunk → s.sendPc.HoldsChunk)
      (hring : s'.dev.uartrxbuf = s.dev.uartrxbuf) (hbuf : s'.sendBuf = s.sendBuf)
      (hsent : s'.sent = s.sent)

/-- Behind a chunk the task is outside of the ring's functions. -/
theorem afterTarget_outside (target : Target) : (afterTarget target).Outside := by
  rcases afterTarget_cases target with h | ⟨i, h⟩ <;> rw [h] <;> trivial

/-- Every statement has one of these effects, and leaves the mode alone. -/
theorem sendStep_effect {s s' : System} {snd : ℤ} (hs : sendStep s snd = some s') :
    SendEffect s s' ∧ s'.dev.atMode = s.dev.atMode ∧ s'.modePc = s.modePc := by
  have hrestart : (restartUart s.dev).uartrxbuf = s.dev.uartrxbuf ∧
      (restartUart s.dev).atMode = s.dev.atMode := by
    unfold restartUart
    split <;> exact ⟨rfl, rfl⟩
  cases hpc : s.sendPc <;> simp only [sendStep, hpc, reduceCtorEq] at hs
  case reading t =>
    split at hs
    · rw [← Option.some.inj hs]
      refine ⟨.move (fun u hu => ?_) trivial False.elim rfl rfl rfl, rfl, rfl⟩
      rw [hpc] at hu
      rw [← SendPc.reading.inj hu]
      assumption
    · split at hs
      · rename_i hdone
        rw [← Option.some.inj hs]
        refine ⟨.fetch t hpc hdone ?_ rfl rfl rfl, rfl, rfl⟩
        dsimp only
        split <;> trivial
      · rw [← Option.some.inj hs]
        exact ⟨.read t hpc rfl rfl rfl, rfl, rfl⟩
  case giveUpClear =>
    rw [← Option.some.inj hs]
    exact ⟨.clear rfl rfl rfl, rfl, rfl⟩
  -- the three statements that pass `send_buf` on
  case sendto =>
    rw [← Option.some.inj hs]
    exact ⟨.send _ (by rw [hpc]; trivial) trivial rfl rfl rfl, rfl, rfl⟩
  case send target =>
    rw [← Option.some.inj hs]
    exact ⟨.send _ (by rw [hpc]; trivial) trivial rfl rfl rfl, rfl, rfl⟩
  case resend target =>
    rw [← Option.some.inj hs]
    exact ⟨.send _ (by rw [hpc]; trivial) trivial rfl rfl rfl, rfl, rfl⟩
  -- statements that touch neither the ring nor `send_buf`
  all_goals
    have hin : ∀ t, s.sendPc = .reading t → t.pc = .empty := by
      intro t ht
      rw [hpc] at ht
      cases ht
  case pend =>
    split at hs
    · rw [← Option.some.inj hs]
      refine ⟨.move hin ?_ ?_ rfl rfl rfl, rfl, rfl⟩
      · dsimp only
        split <;> trivial
      · dsimp only
        split <;> exact False.elim
    · cases hs
  case acquire =>
    split at hs
    · cases hs
    · rw [← Option.some.inj hs]
      exact ⟨.move hin rfl False.elim rfl rfl rfl, rfl, rfl⟩
  case giveUpFlow =>
    rw [← Option.some.inj hs]
    exact ⟨.move hin trivial False.elim hrestart.1 rfl rfl, hrestart.2, rfl⟩
  case flow target =>
    rw [← Option.some.inj hs]
    refine ⟨.move hin (afterTarget_outside target) (fun _ => ?_) hrestart.1 rfl rfl, hrestart.2,
      rfl⟩
    rw [hpc]
    trivial
  case loopTop =>
    rw [← Option.some.inj hs]
    refine ⟨.move hin ?_ ?_ rfl rfl rfl, rfl, rfl⟩
    · dsimp only
      split <;> trivial
    · dsimp only
      split <;> exact False.elim
  case connTest =>
    rw [← Option.some.inj hs]
    refine ⟨.move hin ?_ ?_ rfl rfl rfl, rfl, rfl⟩
    · dsimp only
      split <;> trivial
    · dsimp only
      split <;> exact False.elim
  case slotTest i =>
    rw [← Option.some.inj hs]
    refine ⟨.move hin ?_ (fun _ => by rw [hpc]; trivial) rfl rfl rfl, rfl, rfl⟩
    dsimp only
    split
    · trivial
    · exact afterTarget_outside _
  all_goals
    rw [← Option.some.inj hs]
    refine ⟨.move hin ?_ (fun _ => by rw [hpc]; trivial) rfl rfl rfl, rfl, rfl⟩
    dsimp only
    first
    | trivial
    | (split <;> trivial)

/-! ### The ring stays empty after the switch -/

/-- The ring is empty at its start and will stay so, whatever the send task does. -/
structure Quiet (s : System) : Prop where
  head : s.dev.uartrxbuf.head = 0
  tail : s.dev.uartrxbuf.tail = 0
  idle : ¬ s.sendPc.Committed

/-- Outside of the ring's functions the task has not decided to move the head. -/
theorem SendPc.Outside.not_committed {pc : SendPc} (h : pc.Outside) : ¬ pc.Committed := by
  cases pc with
  | reading t =>
    rw [show t = Reader.start from h]
    exact id
  | _ => exact id

/-- A reader that is not committed leaves an empty ring alone, copies nothing and does not become
    committed. -/
theorem readerStep_quiet {r : RingBuffer} {t : Reader} (hsize : 0 < r.size) (hhead : r.head = 0)
    (htail : r.tail = 0) (h : ¬ t.pc.Committed t.count) :
    (readerStep r t).1 = r ∧ (readerStep r t).2.buf = t.buf ∧
      ¬ (readerStep r t).2.pc.Committed (readerStep r t).2.count := by
  obtain ⟨pc, count, ret, buf⟩ := t
  cases pc <;> simp only [ReadPc.Committed] at h
  case cntTest =>
    have hge : r.tail ≥ r.head := by omega
    refine ⟨rfl, rfl, ?_⟩
    simp only [readerStep, hge, if_true]
    exact id
  case select n =>
    unfold readerStep
    dsimp only
    split_ifs <;> exact ⟨rfl, rfl, id⟩
  case endTest =>
    have hge : r.tail ≥ r.head := by omega
    refine ⟨rfl, rfl, ?_⟩
    simp only [readerStep, hge, if_true]
    exact id
  case endGe =>
    -- nothing up to the end of the block
    have hzero : i32 (u32 ((r.tail : ℤ) - r.head)) = 0 := by
      rw [hhead, htail]
      decide
    refine ⟨rfl, rfl, ?_⟩
    simp only [readerStep, ReadPc.Committed, hzero, clampCount_eq_min]
    omega
  case endLt =>
    refine ⟨rfl, rfl, ?_⟩
    simp only [readerStep, ReadPc.Committed, clampCount_eq_min]
    omega
  case clamp c => exact ⟨rfl, rfl, h⟩
  case check c =>
    have hc : c ≤ 0 := by omega
    refine ⟨rfl, rfl, ?_⟩
    simp only [readerStep, hc, if_true]
    exact id
  case copy c => exact absurd trivial h
  case advance c => exact absurd trivial h
  case wrapTest c =>
    have hlt : ¬ r.head ≥ r.size := by omega
    refine ⟨rfl, rfl, ?_⟩
    simp only [readerStep, hlt, if_false]
    exact id
  case wrap c => exact absurd trivial h
  all_goals exact ⟨rfl, rfl, id⟩

/-- A statement of the send task keeps the ring empty. -/
theorem quiet_task {s s' : System} (hsize : 0 < s.dev.uartrxbuf.size) (h : Quiet s)
    (he : SendEffect s s') : Quiet s' := by
  cases he with
  | read t hpc hpc' hring hsent =>
    have hidle : ¬ t.pc.Committed t.count := by have := h.idle; rwa [hpc] at this
    obtain ⟨hsame, -, hidle'⟩ := readerStep_quiet hsize h.head h.tail hidle
    rw [hsame] at hring
    exact ⟨by rw [hring, h.head], by rw [hring, h.tail], by rw [hpc']; exact hidle'⟩
  | fetch t hpc hdone hout hring hbuf hsent =>
    exact ⟨by rw [hring, h.head], by rw [hring, h.tail], hout.not_committed⟩
  | clear hpc' hring hsent =>
    exact ⟨by rw [hring]; rfl, by rw [hring]; rfl, by rw [hpc']; exact id⟩
  | send fd hchunk hout hring hbuf hsent =>
    exact ⟨by rw [hring, h.head], by rw [hring, h.tail], hout.not_committed⟩
  | move hin hout hchunk hring hbuf hsent =>
    exact ⟨by rw [hring, h.head], by rw [hring, h.tail], hout.not_committed⟩

/-- The mode task is past `ring_buf_clear` of the switch to `AT_MODE`. -/
def Switched (s : System) : Prop := s.dev.atMode = .at ∧ s.modePc ≠ .clearRing

instance : DecidablePred Switched := fun _ => inferInstanceAs (Decidable (_ ∧ _))

/-- What holds between any two steps. -/
structure SwitchInv (s : System) : Prop where
  /-- The ring has its block, wherever the indices stand. -/
  block : (ringBufClear s.dev.uartrxbuf).Wf
  quiet : Switched s → Quiet s

/-- A stored byte leaves the size of the ring and of its block. -/
theorem ringBufWriteChar_block (r : RingBuffer) (data : UInt8) :
    (ringBufWriteChar r data).1.size = r.size ∧
      (ringBufWriteChar r data).1.buffer.length = r.buffer.length := by
  unfold ringBufWriteChar
  dsimp only
  split
  · split <;> exact ⟨rfl, List.length_set⟩
  · exact ⟨rfl, rfl⟩

/-- A clear makes the same of the ring before and after a step of the reader. -/
theorem readerStep_block (r : RingBuffer) (t : Reader) :
    ringBufClear (readerStep r t).1 = ringBufClear r := by
  unfold readerStep
  split
  case h_4 => split_ifs <;> rfl
  all_goals rfl

/-- The indices do not matter for the block. -/
theorem ringBufClear_wf_congr {r r' : RingBuffer} (hsize : r'.size = r.size)
    (hlen : r'.buffer.length = r.buffer.length) (h : (ringBufClear r).Wf) :
    (ringBufClear r').Wf := by
  obtain ⟨h1, h2, h3, h4, h5⟩ := h
  refine ⟨hsize ▸ h1, hsize ▸ h2, hsize ▸ h3, hsize ▸ h4, ?_⟩
  show r'.size ≤ r'.buffer.length
  rw [hsize, hlen]
  exact h5

/-- A statement of the send task keeps the block. -/
theorem sendEffect_block {s s' : System} (he : SendEffect s s')
    (h : (ringBufClear s.dev.uartrxbuf).Wf) : (ringBufClear s'.dev.uartrxbuf).Wf := by
  cases he with
  | read t hpc hpc' hring hsent => rw [hring, readerStep_block]; exact h
  | fetch t hpc hdone hout hring hbuf hsent => rw [hring]; exact h
  | clear hpc' hring hsent => rw [hring]; exact h
  | send fd hchunk hout hring hbuf hsent => rw [hring]; exact h
  | move hin hout hchunk hring hbuf hsent => rw [hring]; exact h

/-- A byte goes to the ring in `DATA_MODE` only, and never changes the mode. -/
theorem uartDataRecv_ring (d : Device) (dummy : UInt8) :
    (uartDataRecv d dummy).atMode = d.atMode ∧ (uartDataRecv d dummy).uartrxbuf
      = if d.atMode = .data then (ringBufWriteChar d.uartrxbuf dummy).1 else d.uartrxbuf := by
  obtain ⟨hring, hmode, -⟩ := dataRecv_wake d dummy
  unfold uartDataRecv
  split
  · exact ⟨hmode, hring⟩
  · exact ⟨rfl, rfl⟩

/-- A statement of `TestSerialToWifi` clears the ring or leaves it alone, and touches nothing of
    the send task; only `setMode` enters `AT_MODE`, and the clear comes next. -/
theorem modeStep_ring {s s' : System} (h : modeStep s = some s') :
    s'.sendPc = s.sendPc ∧ s'.sendBuf = s.sendBuf ∧ s'.sent = s.sent ∧
      s'.dev.uartrxbuf
        = (if s.modePc = .clearRing then ringBufClear s.dev.uartrxbuf else s.dev.uartrxbuf) ∧
      (s'.dev.atMode = s.dev.atMode ∧ s'.modePc ≠ .clearRing ∨
        s.modePc = .setMode ∧ s'.dev.atMode = .at ∧ s'.modePc = .clearRing) := by
  cases hpc : s.modePc <;> simp only [modeStep, hpc] at h
  case loopTop =>
    rw [← Option.some.inj h]
    refine ⟨rfl, rfl, rfl, rfl, .inl ⟨rfl, ?_⟩⟩
    dsimp only
    split <;> decide
  case pend =>
    split at h
    · rw [← Option.some.inj h]
      exact ⟨rfl, rfl, rfl, rfl, .inl ⟨rfl, (fun heq => by cases heq)⟩⟩
    · cases h
  case check =>
    rw [← Option.some.inj h]
    refine ⟨rfl, rfl, rfl, rfl, .inl ⟨rfl, ?_⟩⟩
    dsimp only
    split <;> decide
  case setMode =>
    rw [← Option.some.inj h]
    exact ⟨rfl, rfl, rfl, rfl, .inr ⟨rfl, rfl, rfl⟩⟩
  all_goals
    rw [← Option.some.inj h]
    exact ⟨rfl, rfl, rfl, rfl, .inl ⟨rfl, (fun heq => by cases heq)⟩⟩

/-- A step that leaves the ring, the mode task and the send task alone, or at least the mode. -/
theorem SwitchInv.frame {s s' : System} (h : SwitchInv s)
    (hring : s'.dev.uartrxbuf = s.dev.uartrxbuf) (hmode : s'.dev.atMode = s.dev.atMode)
    (hpc : s'.modePc = s.modePc) (hsend : s'.sendPc = s.sendPc) : SwitchInv s' := by
  refine ⟨by rw [hring]; exact h.block, fun hsw => ?_⟩
  unfold Switched at hsw
  rw [hmode, hpc] at hsw
  obtain ⟨h1, h2, h3⟩ := h.quiet hsw
  exact ⟨by rw [hring, h1], by rw [hring, h2], by rw [hsend]; exact h3⟩

/-- In `DATA_MODE` there is nothing to keep but the block. -/
theorem switchInv_of_data {s : System} (h : (ringBufClear s.dev.uartrxbuf).Wf)
    (hdata : s.dev.atMode = .data) : SwitchInv s := by
  refine ⟨h, fun hsw => ?_⟩
  have := hsw.1
  rw [hdata] at this
  cases this

/-- Every step keeps the invariant if it does not clear the ring under a committed read. -/
theorem switchInv_step (s : System) (l : Label) (s' : System) (h : SwitchInv s) (hok : ClearOk s l)
    (hs : systemStep s l = some s') : SwitchInv s' := by
  cases l with
  | byte dummy =>
    obtain ⟨hmode, hring⟩ := uartDataRecv_ring s.dev dummy
    rw [← Option.some.inj hs]
    by_cases hdata : s.dev.atMode = .data
    · rw [if_pos hdata] at hring
      obtain ⟨hsize, hlen⟩ := ringBufWriteChar_block s.dev.uartrxbuf dummy
      refine switchInv_of_data ?_ (hmode.trans hdata)
      show (ringBufClear (uartDataRecv s.dev dummy).uartrxbuf).Wf
      rw [hring]
      exact ringBufClear_wf_congr hsize hlen h.block
    · rw [if_neg hdata] at hring
      exact h.frame hring hmode rfl rfl
  | timer =>
    obtain ⟨d, hd, rfl⟩ := Option.map_eq_some_iff.mp hs
    unfold timerIsr at hd
    split at hd
    · rw [← Option.some.inj hd]
      obtain ⟨hmode, hring, -⟩ := timerFuncProcess_wake s.dev
      exact h.frame hring hmode rfl rfl
    · cases hd
  | task snd =>
    obtain ⟨he, hmode, hpc⟩ := sendStep_effect hs
    refine ⟨sendEffect_block he h.block, fun hsw => ?_⟩
    unfold Switched at hsw
    rw [hmode, hpc] at hsw
    exact quiet_task h.block.size_pos (h.quiet hsw) he
  | call =>
    simp only [systemStep] at hs
    split at hs
    · rename_i hcall
      rw [← Option.some.inj hs]
      exact switchInv_of_data h.block hcall.2
    · cases hs
  | close i =>
    rw [← Option.some.inj hs]
    exact h.frame rfl rfl rfl rfl
  | sockets connStatus sockfd tcpServerFd tcpClient =>
    rw [← Option.some.inj hs]
    exact h.frame rfl rfl rfl rfl
  | mode =>
    obtain ⟨hpc, -, -, hring, hmode⟩ := modeStep_ring hs
    by_cases hclear : s.modePc = .clearRing
    · -- the clear: the ring is empty, and no read is committed to moving `head`
      rw [if_pos hclear] at hring
      refine ⟨by rw [hring]; exact h.block, fun _ => ?_⟩
      exact ⟨by rw [hring]; rfl, by rw [hring]; rfl, by rw [hpc]; exact hok hclear⟩
    · rw [if_neg hclear] at hring
      refine ⟨by rw [hring]; exact h.block, fun hsw => ?_⟩
      rcases hmode with ⟨hmode, -⟩ | ⟨-, -, hnext⟩
      · obtain ⟨h1, h2, h3⟩ := h.quiet ⟨hmode ▸ hsw.1, hclear⟩
        exact ⟨by rw [hring, h1], by rw [hring, h2], by rw [hpc]; exact h3⟩
      · exact absurd hnext hsw.2
  | quit =>
    simp only [systemStep] at hs
    split at hs
    · rw [← Option.some.inj hs]
      exact switchInv_of_data h.block rfl
    · cases hs
  | configure proto role frameLength =>
    simp only [systemStep] at hs
    split at hs
    · rw [← Option.some.inj hs]
      exact h.frame rfl rfl rfl rfl
    · cases hs

end SerialNet
