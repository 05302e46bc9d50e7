import SerialNet.Ring.Buffer
import SerialNet.At.Uart

namespace SerialNet

/-!
# The module's shared variables and the interrupt handlers

`Device` collects the globals through which the interrupts and the tasks of `SerialNet` talk
to each other.  `uartDataRecv` is the receive interrupt with both of its halves, and
`timerFuncProcess` the timer interrupt that wakes the send task.

`recv_lock` is a mutex of the operating system, which neither locks nor unlocks inside an
interrupt (`OSIntNesting > 0` makes both calls return at once), so the calls around
`ring_buf_write_char` in `uart_data_recv` leave `recvLock` as it is.
-/

/-- `UserParam.atMode`. -/
inductive AtMode where
  | at | data
deriving DecidableEq, Repr

/-- `UserParam.socketProtocol`. -/
inductive SocketProtocol where
  | udp | tcp
deriving DecidableEq, Repr

/-- `UserParam.socketType`. -/
inductive SocketType where
  | client | server
deriving DecidableEq, Repr

/-- `net_sendStart`: `SEND_DONE` or `SEND_START`. -/
inductive SendStart where
  | done | start
deriving DecidableEq, Repr

/-- `uart_send_flag`: `UART_STOP` or `UART_START`. -/
inductive UartSendFlag where
  | stop | start
deriving DecidableEq, Repr

/-- The shared variables. -/
structure Device where
  uartrxbuf : RingBuffer
  atMode : AtMode
  socketProtocol : SocketProtocol
  socketType : SocketType
  frameLength : ℕ
  netSendStart : SendStart
  uartSendFlag : UartSendFlag
  /-- The level of the pin `UART_RTS`. -/
  uartRts : Bool
  /-- Timer 0 is running with its interrupt enabled. -/
  tmr0 : Bool
  sendSwitchSem : ℕ
  modeSwitchSem : ℕ
  endSendFlags : ℕ
  /-- A task holds `recv_lock`. -/
  recvLock : Bool
  /-- `WifiConnStatus.connStatus` is `CONNECT_STATUS_OK`. -/
  connStatus : Bool
  sockfd : ℤ
  tcpServerFd : ℤ
  tcpClient : Fin 5 → ℤ
  /-- The command path. -/
  cmd : AtUart

/-- `UART_RECV_BUF_SIZE`, the size of the ring. -/
def uartRecvBufSize : ℕ := 1024 * 20
/-- `UART_RECV_SIZE_STOP`, the fill above which the sender is stopped. -/
def uartRecvSizeStop : ℤ := 1024 * 15
/-- `END_SEND_TRUE`, three `+` in a row. -/
def endSendTrue : ℕ := 3
/-- `END_SEND_FALSE`. -/
def endSendFalse : ℕ := 0

/-- The device after `uart_init`, in `AT_MODE` with a frame length of 256 and with `ls` as C
    initialises it; the ring lies in `block`. -/
def initDevice (block : List UInt8) : Device :=
  { uartrxbuf := ringBufAlloc block uartRecvBufSize
    atMode := .at
    socketProtocol := .udp
    socketType := .client
    frameLength := 256
    netSendStart := .done
    uartSendFlag := .start
    uartRts := true
    tmr0 := false
    sendSwitchSem := 0
    modeSwitchSem := 0
    endSendFlags := 0
    recvLock := false
    connStatus := false
    sockfd := -1
    tcpServerFd := 0
    tcpClient := fun _ => 0
    cmd := { atState := .idle, atHead := (0, 0), pCmdLine := uartRecAtcmd, mem := fun _ => 0
             events := [], console := [] } }

/-- `OSSemPost` on a 16-bit counter; at the maximum it fails and changes nothing. -/
def osSemPost (count : ℕ) : ℕ := if count < 65535 then count + 1 else count

/-- `Get_MaxFd`: despite its name the descriptor of the last live client, else that of the
    listening socket, else 0. -/
def getMaxFd (d : Device) : ℤ :=
  (List.finRange 5).foldl (fun maxfd i => if d.tcpClient i ≥ 0 then d.tcpClient i else maxfd)
    (if 0 ≤ d.tcpServerFd then d.tcpServerFd else 0)

/-- `/*reset timer0*/` and `net_sendStart = SEND_START`. -/
def resetTimer0 (d : Device) : Device := { d with tmr0 := true, netSendStart := .start }

/-- The `DATA_MODE` half of `uart_data_recv`. -/
def dataRecv (d : Device) (dummy : UInt8) : Device :=
  let d := { d with uartrxbuf := (ringBufWriteChar d.uartrxbuf dummy).1 }
  let d := if d.netSendStart = .done then resetTimer0 d else d
  let d :=
    -- Only a full ring posts here; a shorter frame waits for the timer.
    if ringBufCnt d.uartrxbuf ≥ d.frameLength ∧ ringBufFull d.uartrxbuf then
      { d with sendSwitchSem := osSemPost d.sendSwitchSem }
    else d
  let d :=
    if ringBufCnt d.uartrxbuf > uartRecvSizeStop ∧ d.uartSendFlag = .start ∧
        (d.sockfd ≥ 0 ∨ getMaxFd d > 0) then
      resetTimer0 { d with uartSendFlag := .stop, uartRts := false }
    else d
  -- `+++` arms the mode switch; a line end after it keeps it armed, any other byte disarms it.
  if dummy = 43 then
    let d := { d with endSendFlags := (d.endSendFlags + 1) % 256 }
    if d.endSendFlags = endSendTrue then { d with modeSwitchSem := osSemPost d.modeSwitchSem }
    else d
  else if d.endSendFlags = endSendTrue ∧ (dummy = 13 ∨ dummy = 10) then d
  else { d with endSendFlags := endSendFalse }

/-- `uart_data_recv`. -/
def uartDataRecv (d : Device) (dummy : UInt8) : Device :=
  if d.atMode = .data then dataRecv d dummy
  else { d with cmd := atRecv d.cmd dummy }

/-- `timerFuncProcess`. -/
def timerFuncProcess (d : Device) : Device :=
  let d := { d with sendSwitchSem := osSemPost d.sendSwitchSem }
  -- While the UART is stopped the timer stays on and posts again.
  if d.uartSendFlag ≠ .stop then { d with tmr0 := false } else d

/-- `TmrISR` calls `timerFuncProcess`; it occurs only while the timer runs. -/
def timerIsr (d : Device) : Option Device := if d.tmr0 then some (timerFuncProcess d) else none

end SerialNet
