import SerialNet.Lib.Run
import SerialNet.Ring.Reader
import SerialNet.Net.Device

namespace SerialNet

/-!
# The send tasks of `socketCom.c` and what runs beside them

`SendPc` names the next statement of `UDPSendTask` or `TCPSendTask`, and `sendStep` executes
it; inside `ring_buf_cnt` and `ring_buf_read` it steps the reader of `Ring/Reader`.
`TestSerialToWifi`, which switches to `AT_MODE` after `+++`, is a second such machine.  A
`Label` is one step of the system: a statement of a task, an interrupt, or a change that the
receive task or an AT command makes to the sockets or the mode.

The two roles of `TCPSendTask` contain the same retry loop twice; here it is one loop with a
`Target`.  Socket addresses are not modelled: a chunk counts as offered when it is passed to
`send` or `sendto`, and `sent` records these calls.

That `recv_lock` is a working mutex is an assumption of this model, as it is of the source:
`NST_ALLOC_LOCK` returns NULL on this kernel (`nstAllocLock_fails`), and then neither call locks
anything.
-/

/-- Where a chunk goes: `none` is `WifiConnStatus.sockfd`, `some i` is `ls.tcpClient[i].fd`. -/
abbrev Target := Option (Fin 5)

/-- The descriptor a target stands for now. -/
def targetFd (d : Device) : Target → ℤ
  | none => d.sockfd
  | some i => d.tcpClient i

/-- The next statement of the send task. -/
inductive SendPc where
  /-- `if (UserParam.atMode == DATA_MODE)`. -/
  | loopTop
  /-- The test for a connection, with `OSTimeDly(20); continue;`. -/
  | connTest
  /-- `OSSemPend(sendSwitchSem, 0, &Err);` -/
  | pend
  /-- `NST_AQUIRE_LOCK(recv_lock);` -/
  | acquire
  /-- Inside `ring_buf_cnt` or `ring_buf_read`. -/
  | reading (t : Reader)
  /-- `NST_RELEASE_LOCK(recv_lock);` -/
  | release
  /-- `net_sendStart = SEND_DONE;` -/
  | setDone
  /-- `sendto(…)` of `UDPSendTask`. -/
  | sendto
  /-- `if (type == SOCK_SERVER)`. -/
  | role
  /-- `if (ls.tcpClient[i].fd >= 0)` in the `for` loop. -/
  | slotTest (i : Fin 5)
  /-- `snd = send(…);` -/
  | send (target : Target)
  /-- `if (snd < 0)`. -/
  | sendTest (target : Target) (snd : ℤ)
  /-- The test at the top of the retry loop. -/
  | retryTest (target : Target)
  /-- `ring_buf_clear(&uartrxbuf);` before giving up. -/
  | giveUpClear
  /-- `if (uart_send_flag == UART_STOP) …; return;` -/
  | giveUpFlow
  /-- `OSTimeDly(5);` -/
  | delay (target : Target)
  /-- `snd = send(…);` in the retry loop. -/
  | resend (target : Target)
  /-- `if (snd > 0)`. -/
  | resendTest (target : Target) (snd : ℤ)
  /-- `if (uart_send_flag == UART_STOP) …` after a success. -/
  | flow (target : Target)
  /-- The task function has returned to `SendThread`. -/
  | returned
deriving DecidableEq, Repr

/-- The next statement of `TestSerialToWifi`. -/
inductive ModePc where
  /-- `while (1)` with the test of `atMode` and the LED. -/
  | loopTop
  /-- `OSSemPend(modeSwitchSem, 0, &Err);` -/
  | pend
  /-- `OSTimeDly(100);` -/
  | delay
  /-- `if (end_sendFlags == END_SEND_TRUE)`. -/
  | check
  /-- `end_sendFlags = END_SEND_FALSE;` -/
  | clearFlags
  /-- `net_sendStart = 0;` -/
  | clearStart
  /-- `UserParam.atMode = AT_MODE;` -/
  | setMode
  /-- `ring_buf_clear(&uartrxbuf);` -/
  | clearRing
  /-- `OSSemPost(sendSwitchSem);` -/
  | post
  /-- `at_state = at_statIdle;` -/
  | setIdle
deriving DecidableEq, Repr

/-- The shared variables, the send task with its parameters and buffer, and the mode task. -/
structure System where
  dev : Device
  sendPc : SendPc
  proto : SocketProtocol
  role : SocketType
  sendBuf : List UInt8
  /-- The calls of `send` and `sendto` so far: descriptor and data. -/
  sent : List (ℤ × List UInt8)
  modePc : ModePc

/-! ### The send task -/

/-- `uart_send_flag` back to `UART_START`, with the pin. -/
def restartUart (d : Device) : Device :=
  if d.uartSendFlag = .stop then { d with uartSendFlag := .start, uartRts := true } else d

/-- The statement after the chunk went to `target`: the next slot, or the top of the loop. -/
def afterTarget : Target → SendPc
  | none => .loopTop
  | some i => if h : i.val + 1 < 5 then .slotTest ⟨i.val + 1, h⟩ else .loopTop

/-- Behind a chunk the loop starts again, or the next slot is looked at. -/
theorem afterTarget_cases (target : Target) :
    afterTarget target = .loopTop ∨ ∃ i, afterTarget target = .slotTest i := by
  unfold afterTarget
  split
  · exact .inl rfl
  · split
    · exact .inr ⟨_, rfl⟩
    · exact .inl rfl

/-- The condition on which the retry loop gives up. -/
def givesUp (d : Device) : Target → Prop
  | none => d.atMode = .at ∨ d.sockfd < 0
  | some _ => d.atMode = .at ∨ getMaxFd d ≤ 0

instance (d : Device) (target : Target) : Decidable (givesUp d target) := by
  unfold givesUp; split <;> infer_instance

/-- There is no connection to send on. -/
def notConnected (s : System) : Prop :=
  match s.proto with
  | .udp => s.dev.connStatus = false
  | .tcp => s.dev.sockfd < 0 ∧ getMaxFd s.dev ≤ 0

instance (s : System) : Decidable (notConnected s) := by
  unfold notConnected; split <;> infer_instance

/-- Execute the next statement of the send task; `snd` is the result if it is a call of
    `send`.  A blocked task has no step. -/
def sendStep (s : System) (snd : ℤ) : Option System :=
  match s.sendPc with
  | .loopTop => some { s with sendPc := if s.dev.atMode = .data then .connTest else .returned }
  | .connTest => some { s with sendPc := if notConnected s then .loopTop else .pend }
  | .pend =>
      if 0 < s.dev.sendSwitchSem then
        some { s with dev := { s.dev with sendSwitchSem := s.dev.sendSwitchSem - 1 }
                      sendPc := if s.proto = .tcp then .acquire else .reading Reader.start }
      else none
  | .acquire =>
      if s.dev.recvLock then none
      else some { s with dev := { s.dev with recvLock := true }, sendPc := .reading Reader.start }
  | .reading t =>
      -- `data_len == 0`: `continue`, which for TCP skips the release of the lock.
      if t.pc = .empty then some { s with sendPc := .loopTop }
      else if t.pc = .done then
        some { s with sendBuf := t.buf, sendPc := if s.proto = .tcp then .release else .setDone }
      else
        let r := readerStep s.dev.uartrxbuf t
        some { s with dev := { s.dev with uartrxbuf := r.1 }, sendPc := .reading r.2 }
  | .release => some { s with dev := { s.dev with recvLock := false }, sendPc := .setDone }
  | .setDone =>
      some { s with dev := { s.dev with netSendStart := .done }
                    sendPc := if s.proto = .tcp then .role else .sendto }
  | .sendto => some { s with sent := s.sent ++ [(s.dev.sockfd, s.sendBuf)], sendPc := .loopTop }
  | .role => some { s with sendPc := if s.role = .server then .slotTest 0 else .send none }
  | .slotTest i =>
      some { s with sendPc := if s.dev.tcpClient i ≥ 0 then .send (some i) else afterTarget (some i) }
  | .send target =>
      some { s with sent := s.sent ++ [(targetFd s.dev target, s.sendBuf)]
                    sendPc := .sendTest target snd }
  | .sendTest target snd =>
      -- A result between 0 and the length of the chunk counts as a success.
      some { s with sendPc := if snd < 0 then .retryTest target else .flow target }
  | .retryTest target =>
      some { s with sendPc := if givesUp s.dev target then .giveUpClear else .delay target }
  | .giveUpClear =>
      some { s with dev := { s.dev with uartrxbuf := ringBufClear s.dev.uartrxbuf }
                    sendPc := .giveUpFlow }
  | .giveUpFlow => some { s with dev := restartUart s.dev, sendPc := .returned }
  | .delay target => some { s with sendPc := .resend target }
  | .resend target =>
      some { s with sent := s.sent ++ [(targetFd s.dev target, s.sendBuf)]
                    sendPc := .resendTest target snd }
  | .resendTest target snd =>
      -- Here 0 is a failure, other than in the first test.
      some { s with sendPc := if snd > 0 then .flow target else .retryTest target }
  | .flow target => some { s with dev := restartUart s.dev, sendPc := afterTarget target }
  | .returned => none

/-- A statement of the send task leaves the rest of the shared variables alone. -/
theorem sendStep_dev {s s' : System} {snd : ℤ} (h : sendStep s snd = some s') :
    s'.dev = { s.dev with
      uartrxbuf := s'.dev.uartrxbuf, sendSwitchSem := s'.dev.sendSwitchSem
      recvLock := s'.dev.recvLock, netSendStart := s'.dev.netSendStart
      uartSendFlag := s'.dev.uartSendFlag, uartRts := s'.dev.uartRts } := by
  cases hpc : s.sendPc <;> simp only [sendStep, hpc, reduceCtorEq] at h
  case giveUpFlow =>
    rw [← Option.some.inj h]
    unfold restartUart
    split <;> rfl
  case flow target =>
    rw [← Option.some.inj h]
    unfold restartUart
    split <;> rfl
  case pend =>
    split at h
    · rw [← Option.some.inj h]
    · cases h
  case acquire =>
    split at h
    · cases h
    · rw [← Option.some.inj h]
  case reading t =>
    split at h
    · rw [← Option.some.inj h]
    · split at h <;> rw [← Option.some.inj h]
  all_goals rw [← Option.some.inj h]

/-! ### The mode task -/

/-- Execute the next statement of `TestSerialToWifi`. -/
def modeStep (s : System) : Option System :=
  match s.modePc with
  | .loopTop => some { s with modePc := if s.dev.atMode = .data then .pend else .loopTop }
  | .pend =>
      if 0 < s.dev.modeSwitchSem then
        some { s with dev := { s.dev with modeSwitchSem := s.dev.modeSwitchSem - 1 }
                      modePc := .delay }
      else none
  | .delay => some { s with modePc := .check }
  | .check =>
      some { s with modePc := if s.dev.endSendFlags = endSendTrue then .clearFlags else .loopTop }
  | .clearFlags =>
      some { s with dev := { s.dev with endSendFlags := endSendFalse }, modePc := .clearStart }
  | .clearStart =>
      some { s with dev := { s.dev with netSendStart := .done }, modePc := .setMode }
  | .setMode => some { s with dev := { s.dev with atMode := .at }, modePc := .clearRing }
  | .clearRing =>
      some { s with dev := { s.dev with uartrxbuf := ringBufClear s.dev.uartrxbuf }
                    modePc := .post }
  | .post =>
      some { s with dev := { s.dev with sendSwitchSem := osSemPost s.dev.sendSwitchSem }
                    modePc := .setIdle }
  | .setIdle =>
      some { s with dev := { s.dev with cmd := { s.dev.cmd with atState := .idle } }
                    modePc := .loopTop }

/-- A statement of `TestSerialToWifi` leaves the send task, its sockets and the flow control as they
    are. -/
theorem modeStep_frame {s s' : System} (h : modeStep s = some s') :
    s' = { s with
      modePc := s'.modePc
      dev := { s.dev with
        uartrxbuf := s'.dev.uartrxbuf, atMode := s'.dev.atMode
        netSendStart := s'.dev.netSendStart, sendSwitchSem := s'.dev.sendSwitchSem
        modeSwitchSem := s'.dev.modeSwitchSem, endSendFlags := s'.dev.endSendFlags
        cmd := s'.dev.cmd } } := by
  cases hpc : s.modePc <;> simp only [modeStep, hpc] at h
  case pend =>
    split at h
    · rw [← Option.some.inj h]
    · cases h
  all_goals rw [← Option.some.inj h]

/-! ### The system -/

/-- One step of the system. -/
inductive Label where
  /-- The receive interrupt brings a byte. -/
  | byte (dummy : UInt8)
  /-- The timer interrupt. -/
  | timer
  /-- The next statement of the send task; `snd` is the result of a `send` in it. -/
  | task (snd : ℤ)
  /-- `SendThread` calls the send task for the configured protocol and type. -/
  | call
  /-- `TCPRecvTask` closes a client and sets its slot to -1. -/
  | close (i : Fin 5)
  /-- A receive task opens, accepts or closes sockets. -/
  | sockets (connStatus : Bool) (sockfd tcpServerFd : ℤ) (tcpClient : Fin 5 → ℤ)
  /-- The next statement of `TestSerialToWifi`. -/
  | mode
  /-- `AT+QUIT` switches to `DATA_MODE`. -/
  | quit
  /-- AT commands change the protocol, the type or the frame length. -/
  | configure (proto : SocketProtocol) (role : SocketType) (frameLength : ℕ)

/-- The system step; `none` when the label is not possible. -/
def systemStep (s : System) : Label → Option System
  | .byte dummy => some { s with dev := uartDataRecv s.dev dummy }
  | .timer => (timerIsr s.dev).map fun d => { s with dev := d }
  | .task snd => sendStep s snd
  | .call =>
      -- The parameters are copied at the call and kept until the task returns.
      if s.sendPc = .returned ∧ s.dev.atMode = .data then
        some { s with sendPc := .loopTop, proto := s.dev.socketProtocol, role := s.dev.socketType }
      else none
  | .close i =>
      some { s with dev := { s.dev with tcpClient := Function.update s.dev.tcpClient i (-1) } }
  | .sockets connStatus sockfd tcpServerFd tcpClient =>
      some { s with dev := { s.dev with connStatus := connStatus, sockfd := sockfd
                                        tcpServerFd := tcpServerFd, tcpClient := tcpClient } }
  | .mode => modeStep s
  | .quit =>
      if s.dev.atMode = .at then
        some { s with dev := { s.dev with atMode := .data, connStatus := false, sockfd := -1 } }
      else none
  | .configure proto role frameLength =>
      if s.dev.atMode = .at then
        some { s with dev := { s.dev with socketProtocol := proto, socketType := role
                                          frameLength := frameLength } }
      else none

end SerialNet
