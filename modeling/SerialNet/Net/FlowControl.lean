import SerialNet.Net.ModeSwitch

namespace SerialNet

/-!
# Flow control of the UART

With more than 15 KiB in the ring, `uart_data_recv` sets `uart_send_flag` to `UART_STOP` and pulls
`UART_RTS` low.  `TCPSendTask` sets both back after a successful `send` and before it gives up;
`UDPSendTask` never does.  So flow control recovers in every run of the TCP task, and in the runs of
the UDP task in which it is not raised (`flow_control_recovers`).

`FlowSystem` refines the system at one place: `uart_send_flag = UART_START` and the call that sets
the pin are two statements, between which an interrupt may raise the flow control again.  It also
keeps track of whether the last chunk was accepted by a socket.
-/

/-- The system with the two statements apart. -/
structure FlowSystem where
  sys : System
  /-- `uart_send_flag` is set back, and the pin is to be set next. -/
  rtsDue : Bool
  /-- No socket has accepted the last chunk that was read from the ring, or none was read yet. -/
  unsent : Bool

/-- The statement sets `uart_send_flag` back. -/
def SendPc.restarts : SendPc → Bool
  | .giveUpFlow | .flow _ => true
  | _ => false

/-- Whether the last chunk is unsent after the next statement of the send task. -/
def unsentAfter (s : System) (result : ℤ) (unsent : Bool) : Bool :=
  match s.sendPc with
  | .reading t => if t.pc = .done then true else unsent
  | .sendto => decide (result < 0)
  | .sendTest _ snd => if snd < 0 then unsent else false
  | .resendTest _ snd => if snd > 0 then false else unsent
  | _ => unsent

/-- Execute the next statement of the send task. -/
def flowTask (s : FlowSystem) (result : ℤ) : Option FlowSystem :=
  -- `BSP_GPIOSetValue(UART_RTS, GPIO_HIGH_LEVEL);`
  if s.rtsDue then
    some { s with sys := { s.sys with dev := { s.sys.dev with uartRts := true } }, rtsDue := false }
  else
    (sendStep s.sys result).map fun t =>
      if s.sys.sendPc.restarts then
        { s with sys := { t with dev := { t.dev with uartRts := s.sys.dev.uartRts } }
                 rtsDue := s.sys.dev.uartSendFlag = .stop }
      else { s with sys := t, unsent := unsentAfter s.sys result s.unsent }

/-- The step of the refined system. -/
def flowStep (s : FlowSystem) : Label → Option FlowSystem
  | .task result => flowTask s result
  | .call => if s.rtsDue then none else (systemStep s.sys .call).map fun t => { s with sys := t }
  | l => (systemStep s.sys l).map fun t => { s with sys := t }

/-- Without an interrupt in between the two statements are the one of `sendStep`. -/
theorem flowTask_restart {s : FlowSystem} {result : ℤ} {t : System} (hdue : s.rtsDue = false)
    (hpc : s.sys.sendPc.restarts = true) (hstop : s.sys.dev.uartSendFlag = .stop)
    (ht : sendStep s.sys result = some t) :
    (flowTask s result).bind (fun u => flowTask u result) = some { s with sys := t } := by
  have hrts : t.dev.uartRts = true := by
    cases h : s.sys.sendPc <;> rw [h] at hpc <;> simp only [SendPc.restarts, reduceCtorEq] at hpc
      <;> simp only [sendStep, h] at ht <;> rw [← Option.some.inj ht, restartUart, if_pos hstop]
  simp only [flowTask, hdue, Bool.false_eq_true, if_false, ht, Option.map_some, hpc, if_true, hstop,
    decide_true, Option.bind_some]
  rw [← hrts, ← hdue]

/-! ### Raising and taking back -/

/-- The byte finds more than 15 KiB in the ring, with a connection, and raises the flow control. -/
def RaisesStop (d : Device) (dummy : UInt8) : Prop :=
  ringBufCnt (ringBufWriteChar d.uartrxbuf dummy).1 > uartRecvSizeStop ∧ d.uartSendFlag = .start ∧
    (d.sockfd ≥ 0 ∨ getMaxFd d > 0)

instance (d : Device) (dummy : UInt8) : Decidable (RaisesStop d dummy) :=
  inferInstanceAs (Decidable (_ ∧ _ ∧ _))

/-- The flag and the pin after a byte. -/
theorem dataRecv_flow (d : Device) (dummy : UInt8) :
    (dataRecv d dummy).socketProtocol = d.socketProtocol ∧
      ((RaisesStop d dummy ∧ (dataRecv d dummy).uartSendFlag = .stop) ∨
        ¬ RaisesStop d dummy ∧ (dataRecv d dummy).uartSendFlag = d.uartSendFlag ∧
          (dataRecv d dummy).uartRts = d.uartRts) := by
  unfold dataRecv
  extract_lets d1 d2 d3 d4 d5
  -- up to the test nothing that it reads is changed but the ring
  have hbefore : d3.uartrxbuf = (ringBufWriteChar d.uartrxbuf dummy).1 ∧
      d3.socketProtocol = d.socketProtocol ∧ d3.uartSendFlag = d.uartSendFlag ∧
      d3.uartRts = d.uartRts ∧ d3.sockfd = d.sockfd ∧ getMaxFd d3 = getMaxFd d := by
    unfold d3 d2
    split_ifs <;> exact ⟨rfl, rfl, rfl, rfl, rfl, rfl⟩
  obtain ⟨hring, hproto, hflag, hrts, hsockfd, hmax⟩ := hbefore
  have hraise : d4 = if RaisesStop d dummy then
      resetTimer0 { d3 with uartSendFlag := .stop, uartRts := false } else d3 := by
    refine if_congr ?_ rfl rfl
    rw [hring, hflag, hsockfd, hmax]
    rfl
  have hstep : d4.socketProtocol = d.socketProtocol ∧ ((RaisesStop d dummy ∧
      d4.uartSendFlag = .stop) ∨ ¬ RaisesStop d dummy ∧ d4.uartSendFlag = d.uartSendFlag ∧
        d4.uartRts = d.uartRts) := by
    rw [hraise]
    split
    · exact ⟨hproto, .inl ⟨‹_›, rfl⟩⟩
    · exact ⟨hproto, .inr ⟨‹_›, hflag, hrts⟩⟩
  split_ifs <;> exact hstep

/-- Something is going to take the flow control back: there are bytes to be read, or a chunk is on
    its way to a socket. -/
def Recovering (s : System) (unsent : Bool) : Prop :=
  ringBufEmpty s.dev.uartrxbuf = false ∨ (∃ t, s.sendPc = .reading t ∧ s.sendPc.phase = .reads) ∨
    s.sendPc.restarts = true ∨ unsent = true

/-- A statement that moves neither the ring nor the chunk. -/
theorem Recovering.move {s t : System} {unsent unsent' : Bool} (hrec : Recovering s unsent)
    (hout : ∀ r, s.sendPc = .reading r → r.pc = .empty) (hpc : s.sendPc.restarts = false)
    (hring : t.dev.uartrxbuf = s.dev.uartrxbuf) (hunsent : unsent' = unsent) :
    Recovering t unsent' := by
  rcases hrec with hne | ⟨r, hr, hreads⟩ | hrestarts | hun
  · exact .inl (by rw [hring]; exact hne)
  · rw [hr, SendPc.phase, hout r hr] at hreads
    cases hreads
  · rw [hpc] at hrestarts
    cases hrestarts
  · exact .inr (.inr (.inr (hunsent.trans hun)))

/-- A statement inside `ring_buf_cnt` or `ring_buf_read`, or the one after them. -/
theorem reading_recovering {s t : System} {r : Reader} {result : ℤ} {unsent : Bool}
    (hshape : RingShape s.dev.uartrxbuf) (hhead : s.sendPc.HeadOk s.dev.uartrxbuf)
    (hpc : s.sendPc = .reading r) (h : sendStep s result = some t) :
    t.dev.uartSendFlag = s.dev.uartSendFlag ∧ t.dev.uartRts = s.dev.uartRts ∧
      (Recovering s unsent → Recovering t (unsentAfter s result unsent)) := by
  have hrestarts : s.sendPc.restarts = false := by rw [hpc]; rfl
  rw [hpc] at hhead
  simp only [sendStep, hpc] at h
  by_cases hempty : r.pc = .empty
  · rw [if_pos hempty] at h
    rw [← Option.some.inj h]
    refine ⟨rfl, rfl, fun hrec => hrec.move (fun r' hr' => ?_) hrestarts rfl ?_⟩
    · rw [hpc] at hr'
      rw [← SendPc.reading.inj hr', hempty]
    · simp [unsentAfter, hpc, hempty]
  · by_cases hdone : r.pc = .done
    · rw [if_neg hempty, if_pos hdone] at h
      rw [← Option.some.inj h]
      exact ⟨rfl, rfl, fun _ => .inr (.inr (.inr (by simp [unsentAfter, hpc, hdone])))⟩
    · rw [if_neg hempty, if_neg hdone] at h
      rw [← Option.some.inj h]
      refine ⟨rfl, rfl, fun hrec => ?_⟩
      rcases readerStep_phase hshape hhead hempty hdone with hreads | ⟨hnot, hring, -⟩
      · exact .inr (.inl ⟨_, rfl, hreads⟩)
      · -- before it moves `head` the reader leaves the ring alone
        rcases hrec with hne | ⟨r', -, hreads⟩ | hflow | hunsent
        · exact .inl (by dsimp only; rw [hring]; exact hne)
        · rw [hpc] at hreads
          exact absurd hreads hnot
        · rw [hrestarts] at hflow
          cases hflow
        · exact .inr (.inr (.inr (by simp [unsentAfter, hpc, hdone, hunsent])))

/-- A statement of the task that does not set the flag back leaves it, and what is pending stays
    so.  Only `UDPSendTask` comes to `sendto`. -/
theorem sendStep_recovering {s t : System} {result : ℤ} {unsent : Bool}
    (hshape : RingShape s.dev.uartrxbuf) (hhead : s.sendPc.HeadOk s.dev.uartrxbuf)
    (hpc : s.sendPc.restarts = false) (h : sendStep s result = some t) :
    t.dev.uartSendFlag = s.dev.uartSendFlag ∧ t.dev.uartRts = s.dev.uartRts ∧
      (s.sendPc ≠ .sendto → Recovering s unsent →
        Recovering t (unsentAfter s result unsent)) := by
  cases hcase : s.sendPc
  case reading r =>
    obtain ⟨hflag, hrts, hrec⟩ := reading_recovering hshape hhead hcase h
    exact ⟨hflag, hrts, fun _ => hrec⟩
  all_goals simp only [sendStep, hcase, reduceCtorEq] at h
  case giveUpClear =>
    rw [← Option.some.inj h]
    exact ⟨rfl, rfl, fun _ _ => .inr (.inr (.inl rfl))⟩
  case sendto =>
    rw [← Option.some.inj h]
    exact ⟨rfl, rfl, fun hne => absurd rfl hne⟩
  case giveUpFlow => rw [hcase] at hpc; cases hpc
  case flow target => rw [hcase] at hpc; cases hpc
  -- elsewhere only a chunk that was accepted is no longer unsent, and then the flag comes next
  all_goals
    have hout : ∀ r, s.sendPc = .reading r → r.pc = .empty := by
      intro r hr
      rw [hcase] at hr
      cases hr
  case pend =>
    split at h
    · rw [← Option.some.inj h]
      exact ⟨rfl, rfl, fun _ hrec => hrec.move hout hpc rfl (by rw [unsentAfter, hcase])⟩
    · cases h
  case acquire =>
    split at h
    · cases h
    · rw [← Option.some.inj h]
      exact ⟨rfl, rfl, fun _ hrec => hrec.move hout hpc rfl (by rw [unsentAfter, hcase])⟩
  case sendTest target snd =>
    rw [← Option.some.inj h]
    refine ⟨rfl, rfl, fun _ hrec => ?_⟩
    by_cases hsnd : snd < 0
    · exact hrec.move hout hpc rfl (by simp [unsentAfter, hcase, hsnd])
    · exact .inr (.inr (.inl (by simp [hsnd, SendPc.restarts])))
  case resendTest target snd =>
    rw [← Option.some.inj h]
    refine ⟨rfl, rfl, fun _ hrec => ?_⟩
    by_cases hsnd : snd > 0
    · exact .inr (.inr (.inl (by simp [hsnd, SendPc.restarts])))
    · exact hrec.move hout hpc rfl (by simp [unsentAfter, hcase, hsnd])
  all_goals
    rw [← Option.some.inj h]
    exact ⟨rfl, rfl, fun _ hrec => hrec.move hout hpc rfl (by rw [unsentAfter, hcase])⟩

/-- After a flag was set back the task does not wait at once. -/
theorem sendStep_restarts_pc {s t : System} {result : ℤ} (hpc : s.sendPc.restarts = true)
    (h : sendStep s result = some t) : t.sendPc ≠ .pend := by
  cases hcase : s.sendPc <;> rw [hcase] at hpc <;> simp only [SendPc.restarts, reduceCtorEq] at hpc
    <;> simp only [sendStep, hcase] at h <;> rw [← Option.some.inj h]
  case giveUpFlow => rintro ⟨⟩
  case flow target =>
    dsimp only
    rcases afterTarget_cases target with heq | ⟨i, heq⟩ <;> rw [heq] <;> rintro ⟨⟩

/-- The statements that set the flag back. -/
theorem sendStep_restarts {s t : System} {result : ℤ} (hpc : s.sendPc.restarts = true)
    (h : sendStep s result = some t) : t.dev.uartSendFlag = .start := by
  have hrestart : (restartUart s.dev).uartSendFlag = .start := by
    unfold restartUart
    cases hflag : s.dev.uartSendFlag with
    | stop => rfl
    | start => exact hflag
  cases hcase : s.sendPc <;> rw [hcase] at hpc <;> simp only [SendPc.restarts, reduceCtorEq] at hpc
    <;> simp only [sendStep, hcase] at h <;> rw [← Option.some.inj h] <;> exact hrestart

/-- The protocol is kept, and only `UDPSendTask` comes to `sendto`. -/
theorem sendStep_proto {s t : System} {result : ℤ} (h : sendStep s result = some t) :
    t.proto = s.proto ∧ (t.sendPc = .sendto → s.proto = .udp) := by
  have hafter : ∀ target, afterTarget target ≠ .sendto := fun target => by
    rcases afterTarget_cases target with heq | ⟨i, heq⟩ <;> rw [heq] <;> rintro ⟨⟩
  cases hcase : s.sendPc <;> simp only [sendStep, hcase, reduceCtorEq] at h
  case setDone =>
    rw [← Option.some.inj h]
    refine ⟨rfl, fun hpc => ?_⟩
    cases hproto : s.proto with
    | udp => rfl
    | tcp => simp [hproto] at hpc
  case pend =>
    split at h
    · rw [← Option.some.inj h]
      refine ⟨rfl, ?_⟩
      dsimp only
      split <;> rintro ⟨⟩
    · cases h
  case acquire =>
    split at h
    · cases h
    · rw [← Option.some.inj h]
      exact ⟨rfl, by rintro ⟨⟩⟩
  case reading r =>
    split at h
    · rw [← Option.some.inj h]
      exact ⟨rfl, by rintro ⟨⟩⟩
    · split at h
      · rw [← Option.some.inj h]
        refine ⟨rfl, ?_⟩
        dsimp only
        split <;> rintro ⟨⟩
      · rw [← Option.some.inj h]
        exact ⟨rfl, by rintro ⟨⟩⟩
  case slotTest i =>
    rw [← Option.some.inj h]
    refine ⟨rfl, ?_⟩
    dsimp only
    split
    · rintro ⟨⟩
    · exact fun heq => absurd heq (hafter _)
  case flow target =>
    rw [← Option.some.inj h]
    exact ⟨rfl, fun heq => absurd heq (hafter _)⟩
  all_goals
    rw [← Option.some.inj h]
    refine ⟨rfl, ?_⟩
    dsimp only
    first
    | (split <;> rintro ⟨⟩)
    | rintro ⟨⟩

/-- A statement that is not inside a read has no more to ask of `head`. -/
theorem SendPc.Outside.headOk {pc : SendPc} {r : RingBuffer} (h : pc.Outside)
    (hlt : r.head < r.size) : pc.HeadOk r := by
  cases pc with
  | reading t =>
    rw [show t = Reader.start from h]
    exact hlt
  | _ => exact hlt

/-- `head` stays in bounds. -/
theorem SendEffect.headOk {s t : System} (he : SendEffect s t) (hshape : RingShape s.dev.uartrxbuf)
    (hhead : s.sendPc.HeadOk s.dev.uartrxbuf) :
    RingShape t.dev.uartrxbuf ∧ t.sendPc.HeadOk t.dev.uartrxbuf := by
  cases he with
  | read r hpc hpc' hring hsent =>
    rw [hpc] at hhead
    obtain ⟨htail, hsize⟩ := readerStep_tail_size s.dev.uartrxbuf r
    rw [hpc', hring]
    refine ⟨⟨by rw [hsize]; exact hshape.two_le, by rw [hsize]; exact hshape.size_le, ?_⟩,
      readerStep_inBounds hshape hhead⟩
    rw [htail, hsize]
    exact hshape.tail_lt
  | fetch r hpc hdone hout hring hbuf hsent =>
    rw [hpc, SendPc.HeadOk, hdone] at hhead
    rw [hring]
    exact ⟨hshape, hout.headOk hhead⟩
  | clear hpc' hring hsent =>
    have hpos : 0 < s.dev.uartrxbuf.size := Nat.lt_of_lt_of_le (by decide) hshape.two_le
    rw [hpc', hring]
    exact ⟨⟨hshape.two_le, hshape.size_le, hpos⟩, hpos⟩
  | send fd hchunk hout hring hbuf hsent =>
    rw [hring]
    refine ⟨hshape, hout.headOk ?_⟩
    cases hpc : s.sendPc <;> rw [hpc] at hhead hchunk <;> first | exact hhead | exact hchunk.elim
  | move hin hout hchunk hring hbuf hsent =>
    rw [hring]
    refine ⟨hshape, hout.headOk ?_⟩
    cases hpc : s.sendPc with
    | reading r =>
      rw [hpc, SendPc.HeadOk, hin r hpc] at hhead
      exact hhead
    | _ =>
      rw [hpc] at hhead
      exact hhead

/-! ### The invariant -/

/-- What holds between any two steps in `DATA_MODE`. -/
structure FlowInv (s : FlowSystem) : Prop where
  data : s.sys.dev.atMode = .data
  proto : s.sys.proto = s.sys.dev.socketProtocol
  shape : RingShape s.sys.dev.uartrxbuf
  head : s.sys.sendPc.HeadOk s.sys.dev.uartrxbuf
  sendto : s.sys.sendPc = .sendto → s.sys.proto = .udp
  /-- `UART_STOP` is raised under TCP only, and will be taken back. -/
  stopped : s.sys.dev.uartSendFlag = .stop → s.sys.proto = .tcp ∧ Recovering s.sys s.unsent
  /-- The pin is low under `UART_STOP`, or about to be set. -/
  pin : s.sys.dev.uartRts = false → s.sys.dev.uartSendFlag = .stop ∨ s.rtsDue = true
  due : s.rtsDue = true → s.sys.sendPc ≠ .pend

/-- The step does not leave `DATA_MODE` by the mode switch. -/
def InDataMode (s : FlowSystem) : Label → Prop
  | .mode => s.sys.modePc ≠ .setMode ∧ s.sys.modePc ≠ .clearRing
  | _ => True

instance (s : FlowSystem) : DecidablePred (InDataMode s)
  | .mode => inferInstanceAs (Decidable (_ ∧ _))
  | .byte _ | .timer | .task _ | .call | .close _ | .sockets .. | .quit | .configure .. =>
    .isTrue trivial

/-- Under UDP no byte raises `UART_STOP`. -/
def FlowOk (s : FlowSystem) : Label → Prop
  | .byte dummy => s.sys.proto = .udp → ¬ RaisesStop s.sys.dev dummy
  | _ => True

instance (s : FlowSystem) : DecidablePred (FlowOk s)
  | .byte _ => inferInstanceAs (Decidable (_ → ¬ _))
  | .timer | .task _ | .call | .close _ | .sockets .. | .mode | .quit | .configure .. =>
    .isTrue trivial

variable {s s' : FlowSystem}

/-- A step that leaves the ring, the send task and the flow control alone. -/
theorem FlowInv.frame (h : FlowInv s) {t : System} (hdata : t.dev.atMode = s.sys.dev.atMode)
    (hring : t.dev.uartrxbuf = s.sys.dev.uartrxbuf) (hpc : t.sendPc = s.sys.sendPc)
    (hproto : t.proto = s.sys.proto) (hsocket : t.dev.socketProtocol = s.sys.dev.socketProtocol)
    (hflag : t.dev.uartSendFlag = s.sys.dev.uartSendFlag)
    (hrts : t.dev.uartRts = s.sys.dev.uartRts) : FlowInv { s with sys := t } where
  data := hdata.trans h.data
  proto := hproto.trans (h.proto.trans hsocket.symm)
  shape := by rw [hring]; exact h.shape
  head := by rw [hring, hpc]; exact h.head
  sendto := by rw [hpc, hproto]; exact h.sendto
  stopped := by
    dsimp only
    rw [hflag, hproto, Recovering, hring, hpc]
    exact h.stopped
  pin := by rw [hrts, hflag]; exact h.pin
  due := by rw [hpc]; exact h.due

/-- A byte leaves a ring that is not empty. -/
theorem flowInv_byte (h : FlowInv s) {dummy : UInt8}
    (hok : s.sys.proto = .udp → ¬ RaisesStop s.sys.dev dummy) :
    FlowInv { s with sys := { s.sys with dev := dataRecv s.sys.dev dummy } } := by
  obtain ⟨hring, hmode, -⟩ := dataRecv_wake s.sys.dev dummy
  obtain ⟨hshape, hhead, hsize, hne⟩ := ringBufWriteChar_shape h.shape dummy
  obtain ⟨hsocket, hflow⟩ := dataRecv_flow s.sys.dev dummy
  rw [← hring] at hshape hhead hsize hne
  refine ⟨hmode.trans h.data, h.proto.trans hsocket.symm, hshape, h.head.congr hhead hsize,
    h.sendto, fun hstop => ?_, fun hlow => ?_, h.due⟩
  · refine ⟨?_, .inl hne⟩
    rcases hflow with ⟨hraise, -⟩ | ⟨-, hflag, -⟩
    · cases hproto : s.sys.proto with
      | udp => exact absurd hraise (hok hproto)
      | tcp => rfl
    · exact (h.stopped (hflag.symm.trans hstop)).1
  · rcases hflow with ⟨-, hstop⟩ | ⟨-, hflag, hrts⟩
    · exact .inl hstop
    · rw [show (dataRecv s.sys.dev dummy).uartSendFlag = _ from hflag]
      exact h.pin (hrts.symm.trans hlow)

/-- A statement of the send task, or the one that sets the pin. -/
theorem flowInv_task (h : FlowInv s) {result : ℤ} (hs : flowTask s result = some s') :
    FlowInv s' := by
  unfold flowTask at hs
  by_cases hdue : s.rtsDue = true
  · rw [if_pos hdue] at hs
    rw [← Option.some.inj hs]
    exact ⟨h.data, h.proto, h.shape, h.head, h.sendto, h.stopped, by rintro ⟨⟩, by rintro ⟨⟩⟩
  · rw [if_neg hdue] at hs
    obtain ⟨t, ht, hs'⟩ := Option.map_eq_some_iff.mp hs
    obtain ⟨heffect, hmode, -⟩ := sendStep_effect ht
    obtain ⟨hshape, hhead⟩ := heffect.headOk h.shape h.head
    obtain ⟨hproto, hsendto⟩ := sendStep_proto ht
    have hdev := sendStep_dev ht
    have hsocket : t.proto = t.dev.socketProtocol := by
      rw [hproto, h.proto, hdev]
    have hto : t.sendPc = .sendto → t.proto = .udp := fun hpc => hproto.trans (hsendto hpc)
    by_cases hpc : s.sys.sendPc.restarts = true
    · -- the flag is set back, and if it was at `UART_STOP` the pin comes next
      have hstart := sendStep_restarts hpc ht
      have hpend := sendStep_restarts_pc hpc ht
      rw [if_pos hpc] at hs'
      rw [← hs']
      refine ⟨hmode.trans h.data, hsocket, hshape, hhead, hto, fun hstop => ?_, fun hlow => ?_,
        fun _ => hpend⟩
      · rw [show t.dev.uartSendFlag = .stop from hstop] at hstart
        cases hstart
      · exact .inr (decide_eq_true ((h.pin hlow).resolve_right hdue))
    · rw [if_neg hpc] at hs'
      rw [← hs']
      obtain ⟨hflag, hrts, hrec⟩ := sendStep_recovering h.shape h.head
        (Bool.eq_false_iff.mpr hpc) ht
      refine ⟨hmode.trans h.data, hsocket, hshape, hhead, hto, fun hstop => ?_, fun hlow => ?_,
        fun hdue' => absurd hdue' hdue⟩
      · obtain ⟨htcp, hold⟩ := h.stopped (hflag.symm.trans hstop)
        refine ⟨hproto.trans htcp, hrec (fun hpc' => ?_) hold⟩
        rw [h.sendto hpc'] at htcp
        cases htcp
      · exact .inl (hflag.trans ((h.pin (hrts.symm.trans hlow)).resolve_right hdue))

/-- **Every step** in `DATA_MODE` keeps the invariant, if under UDP no byte raises `UART_STOP`. -/
theorem flowInv_step (s : FlowSystem) (l : Label) (s' : FlowSystem) (h : FlowInv s)
    (hok : FlowOk s l ∧ InDataMode s l) (hs : flowStep s l = some s') : FlowInv s' := by
  cases l with
  | task result => exact flowInv_task h hs
  | byte dummy =>
    rw [← Option.some.inj hs, uartDataRecv, if_pos h.data]
    exact flowInv_byte h hok.1
  | timer =>
    obtain ⟨t, ht, rfl⟩ := Option.map_eq_some_iff.mp hs
    obtain ⟨d, hd, rfl⟩ := Option.map_eq_some_iff.mp ht
    unfold timerIsr at hd
    split at hd
    · rw [← Option.some.inj hd]
      unfold timerFuncProcess
      dsimp only
      split <;> exact h.frame rfl rfl rfl rfl rfl rfl rfl
    · cases hd
  | call =>
    simp only [flowStep, systemStep] at hs
    split at hs
    · cases hs
    · obtain ⟨t, ht, rfl⟩ := Option.map_eq_some_iff.mp hs
      split at ht
      · rename_i hcall
        rw [← Option.some.inj ht]
        have hlt := h.head
        have hstopped := h.stopped
        rw [hcall.1] at hlt
        refine ⟨h.data, rfl, h.shape, hlt, by rintro ⟨⟩, fun hstop => ?_, h.pin,
          fun _ => by rintro ⟨⟩⟩
        obtain ⟨htcp, hne | ⟨t, ht, -⟩ | hpc | hunsent⟩ := hstopped hstop
        · exact ⟨h.proto.symm.trans htcp, .inl hne⟩
        · rw [hcall.1] at ht
          cases ht
        · rw [hcall.1] at hpc
          cases hpc
        · exact ⟨h.proto.symm.trans htcp, .inr (.inr (.inr hunsent))⟩
      · cases ht
  | close i =>
    rw [← Option.some.inj hs]
    exact h.frame rfl rfl rfl rfl rfl rfl rfl
  | sockets connStatus sockfd tcpServerFd tcpClient =>
    rw [← Option.some.inj hs]
    exact h.frame rfl rfl rfl rfl rfl rfl rfl
  | mode =>
    obtain ⟨t, ht, rfl⟩ := Option.map_eq_some_iff.mp hs
    obtain ⟨hset, hclear⟩ := hok.2
    obtain ⟨hpc, -, -, hring, hmode⟩ := modeStep_ring ht
    rw [if_neg hclear] at hring
    have hdata : t.dev.atMode = s.sys.dev.atMode := by
      rcases hmode with ⟨hsame, -⟩ | ⟨hpc', -⟩
      · exact hsame
      · exact absurd hpc' hset
    have hrest := modeStep_frame ht
    refine h.frame hdata hring hpc ?_ ?_ ?_ ?_ <;> rw [hrest]
  | quit =>
    simp [flowStep, systemStep, h.data] at hs
  | configure proto role frameLength =>
    simp [flowStep, systemStep, h.data] at hs

/-! ### Runs -/

/-- A run starts with the UART on.  `TCPSendTask` may also find `UART_STOP` from an earlier
    session, and takes it back with the first chunk. -/
structure FlowStart (s : FlowSystem) : Prop where
  data : s.sys.dev.atMode = .data
  proto : s.sys.proto = s.sys.dev.socketProtocol
  shape : RingShape s.sys.dev.uartrxbuf
  head : s.sys.dev.uartrxbuf.head < s.sys.dev.uartrxbuf.size
  outside : s.sys.sendPc = .returned ∨ s.sys.sendPc = .loopTop ∨ s.sys.sendPc = .pend
  flow : s.sys.dev.uartSendFlag = .start ∧ s.sys.dev.uartRts = true ∨
    s.sys.dev.uartSendFlag = .stop ∧ s.sys.proto = .tcp ∧ s.unsent = true
  due : s.rtsDue = false

theorem flowInv_start (h : FlowStart s) : FlowInv s := by
  refine ⟨h.data, h.proto, h.shape, ?_, fun hpc => ?_, fun hstop => ?_, fun hlow => ?_,
    fun hdue => ?_⟩
  · rcases h.outside with hpc | hpc | hpc <;> rw [hpc] <;> exact h.head
  · rcases h.outside with hpc' | hpc' | hpc' <;> rw [hpc] at hpc' <;> cases hpc'
  · rcases h.flow with ⟨hstart, -⟩ | ⟨-, htcp, hunsent⟩
    · rw [hstop] at hstart
      cases hstart
    · exact ⟨htcp, .inr (.inr (.inr hunsent))⟩
  · rcases h.flow with ⟨-, hrts⟩ | ⟨hstop, -⟩
    · rw [hlow] at hrts
      cases hrts
    · exact .inl hstop
  · rw [h.due] at hdue
    cases hdue

/-- **Flow control recovers** in every run in `DATA_MODE` in which no byte raises `UART_STOP` under
    UDP: when the last chunk was accepted and the task waits with an empty ring, the flag is
    `UART_START` and the pin is high. -/
theorem flow_control_recovers {s t : FlowSystem} {ls : List Label} (hstart : FlowStart s)
    (hdata : Along flowStep InDataMode s ls) (hok : Along flowStep FlowOk s ls)
    (hrun : run flowStep s ls = some t) (hpc : t.sys.sendPc = .pend) (hsent : t.unsent = false)
    (hempty : ringBufEmpty t.sys.dev.uartrxbuf = true) :
    t.sys.dev.uartSendFlag = .start ∧ t.sys.dev.uartRts = true := by
  have hinv := run_invariant flowInv_step ls s t (flowInv_start hstart) (hok.and hdata) hrun
  have hnotStop : t.sys.dev.uartSendFlag ≠ .stop := by
    intro hstop
    rcases (hinv.stopped hstop).2 with hne | ⟨r, hr, -⟩ | hrestarts | hunsent
    · rw [hempty] at hne
      cases hne
    · rw [hpc] at hr
      cases hr
    · rw [hpc] at hrestarts
      cases hrestarts
    · rw [hsent] at hunsent
      cases hunsent
  constructor
  · cases hflag : t.sys.dev.uartSendFlag with
    | start => rfl
    | stop => exact absurd hflag hnotStop
  · by_contra hlow
    rcases hinv.pin (Bool.eq_false_iff.mpr hlow) with hstop | hdue
    · exact hnotStop hstop
    · exact hinv.due hdue hpc

/-- 15 KiB arrived before there was a connection; the timer has posted for the first of them. -/
def backlog (proto : SocketProtocol) : FlowSystem :=
  { sys :=
      { dev := { initDevice (List.replicate uartRecvBufSize 0) with
                 atMode := .data, socketProtocol := proto, connStatus := true, sockfd := 0
                 netSendStart := .start, sendSwitchSem := 1
                 uartrxbuf := { ringBufAlloc (List.replicate uartRecvBufSize 0) uartRecvBufSize with
                                tail := 15360 } }
        sendPc := .loopTop
        proto := proto
        role := .client
        sendBuf := []
        sent := []
        modePc := .pend }
    rtsDue := false
    unsent := true }

theorem backlog_start (proto : SocketProtocol) : FlowStart (backlog proto) := by
  have hring : RingShape (backlog proto).sys.dev.uartrxbuf :=
    ⟨(by decide : 2 ≤ uartRecvBufSize), (by decide : uartRecvBufSize ≤ 2 ^ 31),
      (by decide : 15360 < uartRecvBufSize)⟩
  exact ⟨rfl, rfl, hring, (by decide : 0 < uartRecvBufSize), .inr (.inl rfl), .inl ⟨rfl, rfl⟩, rfl⟩

/-- One more byte raises `UART_STOP`.  The task sends what is in the ring in eight chunks: the first
    in `m` statements, the others in `n`, each of them after one more byte and the timer. -/
def drain (m n : ℕ) : List Label :=
  [.byte 65, .task 0, .task 0] ++ List.replicate m (.task 1) ++
    (List.replicate 7 ([.byte 66, .timer] ++ List.replicate n (.task 1))).flatten

/-- The state after these steps. -/
abbrev afterDrain (proto : SocketProtocol) (m n : ℕ) : FlowSystem :=
  runEnd flowStep (backlog proto) (drain m n)

/-- `TCPSendTask` takes `UART_STOP` back; the pin is one statement more for the first chunk. -/
theorem flow_control_recovers_tcp :
    (afterDrain .tcp 27 26).sys.dev.uartSendFlag = .start ∧
      (afterDrain .tcp 27 26).sys.dev.uartRts = true :=
  flow_control_recovers (backlog_start .tcp)
    (by decide +kernel : Along flowStep InDataMode _ (drain 27 26)) (by decide +kernel)
    (run_eq_runEnd (by decide +kernel)) (by decide +kernel) (by decide +kernel) (by decide +kernel)

/-- **`UDPSendTask` leaves the UART stopped**, with all its chunks sent, an empty ring and nothing
    posted. -/
theorem udp_leaves_stop :
    ¬ ∀ (s t : FlowSystem) (ls : List Label), FlowStart s → Along flowStep InDataMode s ls →
      run flowStep s ls = some t → t.sys.sendPc = .pend → t.sys.dev.sendSwitchSem = 0 →
      t.unsent = false → ringBufEmpty t.sys.dev.uartrxbuf = true →
      t.sys.dev.uartSendFlag = .start ∧ t.sys.dev.uartRts = true := by
  intro hall
  have hflow := hall (backlog .udp) (afterDrain .udp 21 21) (drain 21 21) (backlog_start .udp)
    (by decide +kernel) (run_eq_runEnd (by decide +kernel)) (by decide +kernel) (by decide +kernel)
    (by decide +kernel) (by decide +kernel)
  exact absurd hflow.1 (by decide +kernel)

end SerialNet
