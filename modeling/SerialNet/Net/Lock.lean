import SerialNet.Net.SendTask

namespace SerialNet

/-!
# `recv_lock` in `TCPSendTask`

The task takes the lock after a wake-up and releases it after the read.  `if(data_len == 0)
continue;` stands between the two and leaves the loop body with the lock held, so the task
waits for it forever at the next wake-up, or returns with it.  The `+++` switch takes this
exit: `TestSerialToWifi` clears the ring and then posts the semaphore.

`LockInv` says where the lock can be held, and `LockOk` excludes the one exit.

The lock is assumed to work: a mutex that one task at a time holds and that its holder cannot take
again.  The one that `NST_ALLOC_LOCK` really returns is NULL (`nstAllocLock_fails`).
-/

/-- `ring_buf_cnt`, at the statement that computes it, returns zero. -/
def CntZero (r : RingBuffer) : ReadPc → Prop
  | .cntGe => u32 (r.tail - r.head) = 0
  | .cntLt => u32 (r.size + r.tail - r.head) = 0
  | _ => False

instance (r : RingBuffer) : DecidablePred (CntZero r)
  | .cntGe => inferInstanceAs (Decidable (_ = _))
  | .cntLt => inferInstanceAs (Decidable (_ = _))
  | .cntTest | .select _ | .endTest | .endGe | .endLt | .clamp _ | .check _ | .copy _
  | .advance _ | .wrapTest _ | .wrap _ | .account _ | .done | .empty => .isFalse id

/-- The next statement of the send task is in `ring_buf_cnt` and returns zero. -/
def CountsZero (r : RingBuffer) : SendPc → Prop
  | .reading t => CntZero r t.pc
  | _ => False

instance (r : RingBuffer) (pc : SendPc) : Decidable (CountsZero r pc) := by
  unfold CountsZero; split <;> infer_instance

/-- `TCPSendTask` does not count zero bytes. -/
def LockOk (s : System) : Label → Prop
  | .task _ => s.proto = .tcp → ¬ CountsZero s.dev.uartrxbuf s.sendPc
  | _ => True

instance (s : System) (l : Label) : Decidable (LockOk s l) := by
  unfold LockOk; split <;> infer_instance

/-- The statements between `NST_AQUIRE_LOCK` and `NST_RELEASE_LOCK`, without those of a read that
    found nothing. -/
def SendPc.Locked : SendPc → Prop
  | .release => True
  | .reading t => t.pc ≠ .empty ∧ t.pc ≠ .select 0
  | _ => False

/-- What holds between any two steps. -/
structure LockInv (s : System) : Prop where
  /-- Only `TCPSendTask` takes the lock. -/
  tcp : s.sendPc = .acquire → s.proto = .tcp
  /-- The lock is held only between its two calls. -/
  held : s.dev.recvLock = true → s.proto = .tcp ∧ s.sendPc.Locked

/-- A statement of the reader that does not count zero bytes goes on to read. -/
theorem readerStep_locked {r : RingBuffer} {t : Reader} (h : (SendPc.reading t).Locked)
    (hcnt : ¬ CntZero r t.pc) : (SendPc.reading (readerStep r t).2).Locked := by
  obtain ⟨pc, count, ret, buf⟩ := t
  obtain ⟨hempty, hselect⟩ := h
  cases pc <;> simp only [readerStep, SendPc.Locked]
  case cntTest => split <;> exact ⟨by simp, by simp⟩
  case cntGe =>
    rw [u32_i32_u32]
    exact ⟨by simp, fun heq => hcnt (ReadPc.select.inj heq)⟩
  case cntLt =>
    rw [u32_i32_u32]
    exact ⟨by simp, fun heq => hcnt (ReadPc.select.inj heq)⟩
  case select n =>
    rw [if_neg (fun hn => hselect (congrArg ReadPc.select hn))]
    split <;> exact ⟨by simp, by simp⟩
  case check c => split <;> exact ⟨by simp, by simp⟩
  case endTest => split <;> exact ⟨by simp, by simp⟩
  case wrapTest c => split <;> exact ⟨by simp, by simp⟩
  case empty => exact absurd rfl hempty
  all_goals exact ⟨by simp, by simp⟩

/-- Outside of the locked part nobody holds the lock. -/
theorem LockInv.free {s : System} (h : LockInv s) (hn : ¬ s.sendPc.Locked) :
    s.dev.recvLock = false := by
  by_contra hheld
  exact hn (h.held (by simpa using hheld)).2

/-- The invariant with a lock that nobody holds. -/
theorem lockInv_of_free {s : System} (h : s.dev.recvLock = false)
    (htcp : s.sendPc = .acquire → s.proto = .tcp) : LockInv s := by
  refine ⟨htcp, fun hheld => ?_⟩
  rw [h] at hheld
  cases hheld

/-- Behind a chunk the lock is not taken again at once. -/
theorem afterTarget_ne_acquire (target : Target) : afterTarget target ≠ .acquire := by
  rcases afterTarget_cases target with h | ⟨i, h⟩ <;> rw [h] <;> rintro ⟨⟩

/-- A statement inside `ring_buf_cnt` or `ring_buf_read`, or the one after them. -/
theorem lockInv_reading {s s' : System} {t : Reader} {snd : ℤ} (h : LockInv s)
    (hpc : s.sendPc = .reading t) (hcnt : s.proto = .tcp → ¬ CntZero s.dev.uartrxbuf t.pc)
    (hs : sendStep s snd = some s') : LockInv s' := by
  simp only [sendStep, hpc] at hs
  split at hs
  · rename_i hempty
    have hfree := h.free (by rw [hpc]; exact fun hl => hl.1 hempty)
    rw [← Option.some.inj hs]
    exact lockInv_of_free hfree (by rintro ⟨⟩)
  · split at hs
    · rw [← Option.some.inj hs]
      refine ⟨?_, fun hheld => ?_⟩
      · dsimp only
        split <;> rintro ⟨⟩
      · have htcp := (h.held hheld).1
        exact ⟨htcp, by simp [htcp, SendPc.Locked]⟩
    · rw [← Option.some.inj hs]
      refine ⟨by rintro ⟨⟩, fun hheld => ?_⟩
      obtain ⟨htcp, hlocked⟩ := h.held hheld
      rw [hpc] at hlocked
      exact ⟨htcp, readerStep_locked hlocked (hcnt htcp)⟩

/-- A statement of the send task keeps the invariant if `TCPSendTask` does not count zero
    bytes. -/
theorem lockInv_task {s s' : System} {snd : ℤ} (h : LockInv s) (hok : LockOk s (.task snd))
    (hs : sendStep s snd = some s') : LockInv s' := by
  cases hpc : s.sendPc
  case reading t =>
    refine lockInv_reading h hpc (fun htcp hzero => hok htcp ?_) hs
    rw [hpc]
    exact hzero
  case acquire =>
    have htcp := h.tcp hpc
    simp only [sendStep, hpc] at hs
    split at hs
    · cases hs
    · rw [← Option.some.inj hs]
      exact ⟨by rintro ⟨⟩, fun _ => ⟨htcp, by rintro ⟨⟩, by rintro ⟨⟩⟩⟩
  case release =>
    simp only [sendStep, hpc] at hs
    rw [← Option.some.inj hs]
    exact lockInv_of_free rfl (by rintro ⟨⟩)
  -- every other statement runs without the lock and leaves it alone
  all_goals
    have hfree := h.free (by rw [hpc]; exact id)
    simp only [sendStep, hpc, reduceCtorEq] at hs
  case pend =>
    split at hs
    · rw [← Option.some.inj hs]
      refine lockInv_of_free hfree ?_
      dsimp only
      split
      · exact fun _ => by assumption
      · rintro ⟨⟩
    · cases hs
  case giveUpFlow =>
    rw [← Option.some.inj hs]
    refine lockInv_of_free ?_ (by rintro ⟨⟩)
    unfold restartUart
    split <;> exact hfree
  case flow target =>
    rw [← Option.some.inj hs]
    refine lockInv_of_free ?_ (fun heq => absurd heq (afterTarget_ne_acquire target))
    unfold restartUart
    split <;> exact hfree
  case slotTest i =>
    rw [← Option.some.inj hs]
    refine lockInv_of_free hfree ?_
    dsimp only
    split
    · rintro ⟨⟩
    · exact fun heq => absurd heq (afterTarget_ne_acquire _)
  all_goals
    rw [← Option.some.inj hs]
    refine lockInv_of_free hfree ?_
    dsimp only
    first
    | (split <;> rintro ⟨⟩)
    | rintro ⟨⟩

/-- A byte interrupt does not touch the lock. -/
theorem uartDataRecv_recvLock (d : Device) (dummy : UInt8) :
    (uartDataRecv d dummy).recvLock = d.recvLock := by
  simp only [uartDataRecv, dataRecv, resetTimer0, apply_ite Device.recvLock, ite_self]

/-- So does the timer interrupt. -/
theorem timerIsr_recvLock {d d' : Device} (h : timerIsr d = some d') :
    d'.recvLock = d.recvLock := by
  unfold timerIsr at h
  split at h
  · rw [← Option.some.inj h]
    simp only [timerFuncProcess, apply_ite Device.recvLock, ite_self]
  · cases h

/-- A step that leaves the lock, the send task and its protocol alone. -/
theorem LockInv.frame {s s' : System} (h : LockInv s) (hlock : s'.dev.recvLock = s.dev.recvLock)
    (hpc : s'.sendPc = s.sendPc) (hproto : s'.proto = s.proto) : LockInv s' := by
  refine ⟨?_, ?_⟩
  · rw [hpc, hproto]
    exact h.tcp
  · rw [hlock, hpc, hproto]
    exact h.held

/-- Every step of the system keeps the invariant. -/
theorem lockInv_step (s : System) (l : Label) (s' : System) (h : LockInv s) (hok : LockOk s l)
    (hs : systemStep s l = some s') : LockInv s' := by
  cases l with
  | byte dummy =>
    rw [← Option.some.inj hs]
    exact h.frame (uartDataRecv_recvLock _ _) rfl rfl
  | timer =>
    obtain ⟨d, hd, rfl⟩ := Option.map_eq_some_iff.mp hs
    exact h.frame (timerIsr_recvLock hd) rfl rfl
  | task snd => exact lockInv_task h hok hs
  | call =>
    simp only [systemStep] at hs
    split at hs
    · rename_i hcall
      rw [← Option.some.inj hs]
      exact lockInv_of_free (h.free (by rw [hcall.1]; exact id)) (by rintro ⟨⟩)
    · cases hs
  | close i =>
    rw [← Option.some.inj hs]
    exact h.frame rfl rfl rfl
  | sockets connStatus sockfd tcpServerFd tcpClient =>
    rw [← Option.some.inj hs]
    exact h.frame rfl rfl rfl
  | mode =>
    -- `TestSerialToWifi` does not use the lock
    have hrest := modeStep_frame hs
    refine h.frame ?_ ?_ ?_ <;> rw [hrest]
  | quit =>
    simp only [systemStep] at hs
    split at hs
    · rw [← Option.some.inj hs]
      exact h.frame rfl rfl rfl
    · cases hs
  | configure proto role frameLength =>
    simp only [systemStep] at hs
    split at hs
    · rw [← Option.some.inj hs]
      exact h.frame rfl rfl rfl
    · cases hs

/-! ### The lock is balanced -/

/-- **`recv_lock` is balanced** in a run in which `TCPSendTask` never counts zero bytes: it holds
    the lock neither at the semaphore nor after it has returned, and every acquisition
    succeeds. -/
theorem recv_lock_balanced {s t : System} {ls : List Label} (hpc : s.sendPc = .returned)
    (hfree : s.dev.recvLock = false) (hok : Along systemStep LockOk s ls)
    (hr : run systemStep s ls = some t) :
    (t.sendPc = .pend ∨ t.sendPc = .returned → t.dev.recvLock = false) ∧
      (t.sendPc = .acquire → ∃ u, systemStep t (.task 0) = some u ∧ u.dev.recvLock = true) := by
  have hstart : LockInv s := lockInv_of_free hfree (fun heq => by rw [hpc] at heq; cases heq)
  have hinv := run_invariant lockInv_step ls s t hstart hok hr
  refine ⟨fun hout => hinv.free ?_, fun hacq => ?_⟩
  · rcases hout with hpend | hret
    · rw [hpend]
      exact id
    · rw [hret]
      exact id
  · have hlock := hinv.free (by rw [hacq]; exact id)
    simp [systemStep, sendStep, hacq, hlock]

/-- A TCP client in `DATA_MODE` with its socket open, before `SendThread` calls the send task. -/
def tcpSession : System :=
  { dev := { initDevice (List.replicate uartRecvBufSize 0) with
             atMode := .data, socketProtocol := .tcp, sockfd := 0 }
    sendPc := .returned
    proto := .tcp
    role := .client
    sendBuf := []
    sent := []
    modePc := .loopTop }

/-- `+++` arrives, is sent as one frame, and the task waits again; then come `m` statements of
    the mode task and `n` of the send task. -/
def escape (m n : ℕ) : List Label :=
  [.call, .task 0, .task 0, .byte 43, .byte 43, .byte 43, .timer] ++
    List.replicate 26 (.task 3) ++ List.replicate m .mode ++ List.replicate n (.task 3)

/-- The state after these steps. -/
abbrev afterEscape (m n : ℕ) : System := runEnd systemStep tcpSession (escape m n)

/-- Before the mode switch the lock is free. -/
theorem recv_lock_balanced_one_frame :
    ((afterEscape 0 0).sendPc = .pend ∨ (afterEscape 0 0).sendPc = .returned →
        (afterEscape 0 0).dev.recvLock = false) ∧
      ((afterEscape 0 0).sendPc = .acquire →
        ∃ u, systemStep (afterEscape 0 0) (.task 0) = some u ∧ u.dev.recvLock = true) :=
  recv_lock_balanced (s := tcpSession) rfl rfl (by decide +kernel)
    (run_eq_runEnd (l := escape 0 0) (by decide +kernel))

/-- **The mode switch makes the task return with the lock.**  The nine statements of
    `TestSerialToWifi` up to the post leave an empty ring, and the seven statements of the send
    task from the wake-up to `return` take the lock and do not release it. -/
theorem escape_keeps_lock :
    ¬ ∀ (s t : System) (ls : List Label), s.sendPc = .returned → s.dev.recvLock = false →
      run systemStep s ls = some t → t.sendPc = .pend ∨ t.sendPc = .returned →
      t.dev.recvLock = false := by
  intro hall
  have hfree := hall tcpSession (afterEscape 9 7) (escape 9 7) rfl rfl
    (run_eq_runEnd (by decide +kernel)) (by decide +kernel)
  exact absurd hfree (by decide +kernel)

end SerialNet
