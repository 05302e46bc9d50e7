import SerialNet.At.Responses
import SerialNet.Lib.Prog

namespace SerialNet

/-!
# The response functions as programs

Here every response function is a program over the operations `AtOp`: it reads an argument, a
global variable or the memory of the heap, or calls a function that can fail.  The conditions are
evaluated in the order of the source, so that a program reads exactly the arguments that the
function reads.  What is printed, and the calls that return nothing and touch none of the
variables here (the start and the stop of the WiFi, delays, a new thread), are left out.

`atStep` runs the operations.  It has in `CallState` what these functions own between commands, and
records the arguments that are read and whether a descriptor was used that is not theirs; what
the calls answer is in `AtEnv`.  The strings behind `argc` are there, too: they stand for what
the stack held.
-/

/-! ### Operations -/

/-- What a socket of the broadcast commands is for. -/
inductive BctUse where
  | tx | rx
deriving DecidableEq

/-- `UDP_BROADCAST_STS`. -/
structure UdpBroadcastSts where
  txStatus : ℕ
  txPort : ℕ
  txLen : ℕ
  txSockfd : ℤ
  rxStatus : ℕ
  rxPort : ℕ
  rxSockfd : ℤ
deriving DecidableEq

/-- At boot all bytes are 0. -/
def UdpBroadcastSts.zero : UdpBroadcastSts := ⟨0, 0, 0, 0, 0, 0, 0⟩

/-- What a response function does; the result is what it gets. -/
inductive AtOp : Type → Type where
  /-- `argv[i]`, a string. -/
  | arg (i : ℕ) : AtOp (List UInt8)
  | settings : AtOp Settings
  | setSettings (f : Settings → Settings) : AtOp Unit
  | broadcast : AtOp UdpBroadcastSts
  | setBroadcast (f : UdpBroadcastSts → UdpBroadcastSts) : AtOp Unit
  | malloc (size : ℕ) : AtOp (Option ℕ)
  | free (p : ℕ) : AtOp Unit
  | scanStart (rssi : ℤ) : AtOp ℤ
  | socket (use : BctUse) : AtOp ℤ
  | setsockopt (fd : ℤ) : AtOp ℤ
  | bind (fd : ℤ) : AtOp ℤ
  | sendto (fd : ℤ) (data : List UInt8) (len : ℕ) : AtOp ℤ
  | close (fd : ℤ) : AtOp Unit
  | pingInit (count : ℕ) : AtOp ℤ
  | txRateSet (mode rate : ℕ) : AtOp ℤ
  | beaconPeriodSet (period mode : ℕ) : AtOp ℤ
  | inetAton (str : List UInt8) : AtOp ℕ
  | chipReset : AtOp Unit

/-- A program of `at_cmd.c`. -/
abbrev AtProg := Prog AtOp

namespace AtCmd

open Prog

/-- `argv[i]`. -/
@[simp] def arg (i : ℕ) : AtProg (List UInt8) := perform (.arg i)

/-- A test of `argv[i]`. -/
@[simp] def argIs (i : ℕ) (test : List UInt8 → Bool) : AtProg Bool := do return test (← arg i)

/-- `argc == 2 && strcmp(argv[1], "?") == 0`. -/
@[simp] def isQuery (argc : ℕ) : AtProg Bool := allOf [pure (argc = 2), argIs 1 (· = query)]

/-! ### System commands -/

/-- `responseSAVE`. -/
def responseSAVE (argc : ℕ) : AtProg Unit :=
  if argc ≠ 1 then pure ()
  else perform (.setSettings fun s =>
    saveUserParam { s with userParam := { s.userParam with isValid := userParamFlagValid } })

/-- `responseFACTORY`. -/
def responseFACTORY (argc : ℕ) : AtProg Unit :=
  if argc ≠ 1 then pure ()
  else do
    perform (.setSettings fun s => saveUserParam { s with userParam := .zero })
    perform .chipReset

/-- `responseRST`. -/
def responseRST (argc : ℕ) : AtProg Unit :=
  if argc ≠ 1 then pure () else perform .chipReset

/-- `responseBAUDRATE`. -/
def responseBAUDRATE (argc : ℕ) : AtProg Unit := do
  -- Here the argument is read before `argc` is tested.
  if ← allOf [argIs 1 (· = query), pure (argc = 2)] then pure ()
  else if ← allOf [pure (argc = 2), argIs 1 strIsDigit] then
    let baudrate := atoi (← arg 1)
    if baudrate ∈ uartBaudrates then
      perform (.setSettings fun s =>
        { s with userParam := { s.userParam with baudrate := baudrate } })
    else pure ()
  else pure ()

/-- `responseUARTFL`. -/
def responseUARTFL (argc : ℕ) : AtProg Unit := do
  if ← isQuery argc then pure ()
  else if ← allOf [pure (argc = 2), argIs 1 strIsDigit] then
    let recvBufSize := limitFrameLength (u16 (atoi (← arg 1)))
    perform (.setSettings fun s =>
      { s with userParam := { s.userParam with frameLength := recvBufSize % 65536 } })
  else pure ()

/-- `responseUARTFT`. -/
def responseUARTFT (argc : ℕ) : AtProg Unit := do
  if ← isQuery argc then pure ()
  else if ← allOf [pure (argc = 2), argIs 1 strIsDigit] then
    let time := atoi (← arg 1)
    let frameGap :=
      if time < uartFrameMinLen then uartFrameMinLen
      else if time > uartFrameMaxLen then uartFrameMaxLen
      else u16 time
    perform (.setSettings fun s => { s with userParam := { s.userParam with frameGap := frameGap } })
  else pure ()

/-- `responseLSLPT`. -/
def responseLSLPT (argc : ℕ) : AtProg Unit := do
  if ← anyOf [pure (argc ≠ 4), argIs 1 (! strIsDigit ·), argIs 2 (! strIsDigit ·),
      argIs 3 (! strIsDigit ·), argIs 2 (·.length > 3)] then pure ()
  else
    let mode := atoi (← arg 1)
    let time := atoi (← arg 2)
    let dtim := atoi (← arg 3)
    if mode > 3 ∨ time > 255 ∨ time = 0 ∨ dtim > 1 then pure ()
    else if ¬ (← perform .settings).wifiStarted then pure ()
    else perform (.setSettings fun s => { s with userParam := { s.userParam with
      sleepMode := if mode = 0 then normalMode else lightSleepMode } })

/-! ### WiFi commands -/

/-- `responsePING`. -/
def responsePING (argc : ℕ) : AtProg Unit := do
  if ← anyOf [pure (argc ≠ 3), argIs 1 (! isValidIp ·), argIs 2 (! strIsDigit ·),
      argIs 2 (·.length = 0)] then pure ()
  else
    let _ ← perform (.inetAton (← arg 1))
    let _ ← perform (.pingInit (atoi (← arg 2)))

/-- `responseWQSOPT`. -/
def responseWQSOPT (argc : ℕ) : AtProg Unit := do
  if ← isQuery argc then pure ()
  else if argc = 6 then
    let mode := u8 (atoi (← arg 1))
    -- A station starts on channel 1.
    let channel ← (if mode = 0 then pure 1 else do return u8 (atoi (← arg 2)) : AtProg ℕ)
    let encry := u8 (atoi (← arg 3))
    let authMode := u8 (atoi (← arg 4))
    let wmmEn := u8 (atoi (← arg 5))
    if ← allOf [argIs 1 strIsDigit, argIs 1 (·.length = 1), argIs 2 strIsDigit,
        argIs 2 (·.length ≤ 2), argIs 3 strIsDigit, argIs 3 (·.length = 1), argIs 4 strIsDigit,
        argIs 4 (·.length = 1), argIs 5 strIsDigit, argIs 5 (·.length = 1)] then
      if mode > 2 ∨ channel < 1 ∨ channel > 13 ∨ encry > 4 ∨ authMode > 3 ∨ wmmEn > 1 then pure ()
      else if encry = 0 ∧ authMode ≠ 0 then pure ()
      else if mode = 2 ∧ encry = 4 ∧ authMode ≠ 0 then pure ()
      else perform (.setSettings fun s =>
        let sysParam := infNetModeSet s.sysParam mode
        keepSysParam { s with sysParam := { sysParam with wiFiCfg := { sysParam.wiFiCfg with
          channel := channel, encry := encry, authMode := authMode, wmmEn := wmmEn } } })
    else pure ()
  else pure ()

/-- The rates of `responseWTXRATE` with their mode and index. -/
def txRates : List (String × ℕ × ℕ) :=
  [("0", 0, 0), ("1", 0, 1), ("2", 0, 2), ("5.5", 0, 3), ("11", 0, 4), ("6", 1, 1), ("9", 1, 2),
    ("12", 1, 3), ("18", 1, 4), ("24", 1, 5), ("36", 1, 6), ("48", 1, 7), ("54", 1, 8)]

/-- The entry of a rate. -/
def findTxRate (str : List UInt8) : Option (String × ℕ × ℕ) :=
  txRates.find? fun r => ascii r.1 = str

/-- `InfTxRateSet` with the entry. -/
def setTxRate : Option (String × ℕ × ℕ) → AtProg Unit
  | some r => do let _ ← perform (.txRateSet r.2.1 r.2.2)
  | none => pure ()

/-- `responseWTXRATE`. -/
def responseWTXRATE (argc : ℕ) : AtProg Unit := do
  if ← isQuery argc then pure ()
  else if ← allOf [pure (argc = 2), argIs 1 fun str => (findTxRate str).isSome] then
    if ¬ (← perform .settings).wifiStarted then pure ()
    else setTxRate (findTxRate (← arg 1))
  else pure ()

/-- The size of the scan table: one byte and 32 entries of 44 bytes. -/
def scanTableSize : ℕ := 45 + 44 * 31

/-- `responseWSCANAP`. -/
def responseWSCANAP (argc : ℕ) : AtProg Unit := do
  match ← perform (.malloc scanTableSize) with
  | none => pure ()
  | some pScanTable =>
    if ← allOf [pure (argc = 2), argIs 1 strIsDigit, argIs 1 (·.length ≠ 0)] then
      -- A `UINT8` that is stored in an `INT8`.
      let minRssiFilter := i8 (u8 (atoi (← arg 1)))
      if minRssiFilter > 127 then pure ()
      else
        if ¬ (← perform .settings).wifiStarted then
          perform (.setSettings fun s => { s with sysParam := infSsidSet s.sysParam none })
        if (← perform (.scanStart (-minRssiFilter))) ≠ 0 then pure ()
        else perform (.free pScanTable)
    else pure ()

/-- `responseWSBCN`. -/
def responseWSBCN (argc : ℕ) : AtProg Unit := do
  if ← isQuery argc then pure ()
  else if ← allOf [pure (argc = 3), argIs 1 strIsDigit, argIs 2 strIsDigit,
      argIs 2 (·.length = 1)] then
    if (← perform .settings).sysParam.wiFiCfg.protocol = 0 then pure ()
    else
      let period := atoi (← arg 1)
      let mode := u8 (atoi (← arg 2))
      if period > 65535 ∨ mode > 1 then pure ()
      else
        let _ ← perform (.beaconPeriodSet period mode)
  else pure ()

/-- `responseWSCAP`. -/
def responseWSCAP (argc : ℕ) : AtProg Unit := do
  if ← isQuery argc then
    perform (.setSettings fun s => { s with sysParam := { s.sysParam with
      wiFiCfg := s.sysParam.wiFiCfg.endKey } })
  else if ← allOf [pure (argc = 4), argIs 1 (·.length ≤ 32), argIs 1 (·.length > 0),
      argIs 2 (·.length ≤ 64)] then
    let protocol := (← perform .settings).sysParam.wiFiCfg.protocol
    if protocol = 0 then
      if ← anyOf [argIs 3 (! strIsDigit ·), argIs 3 (·.length = 0)] then pure ()
      else
        let trytime := atoi (← arg 3)
        if trytime > 255 then pure ()
        else
          let ssid ← arg 1
          let key ← arg 2
          perform (.setSettings fun s =>
            let cfg := infNetModeSet s.sysParam 0
            let cfg := infSsidSet cfg (some ssid)
            let cfg := infKeySet cfg 0 key
            keepSysParam { s with sysParam := infConTryTimesSet cfg (u8 trytime) })
    else if protocol = 2 then
      let ssid ← arg 1
      let key ← arg 2
      perform (.setSettings fun s =>
        let cfg := { s.userParam.cfg with bDhcpServer := 1, bDnsServer := 1 }
        let cfg := infNetModeSet cfg 2
        let cfg := infSsidSet cfg (some ssid)
        keepSysParam { s with sysParam := infKeySet cfg 0 key })
    else pure ()
  else pure ()

/-- `responseWSMTCONF`. -/
def responseWSMTCONF (argc : ℕ) : AtProg Unit := do
  if argc ≠ 1 then pure ()
  else if (← perform .settings).smtconfigBegin = 0 then
    perform (.setSettings fun s =>
      { s with sysParam := infNetModeSet s.sysParam 0, smtconfigBegin := 1 })
  else pure ()

/-- `responseWPHYMODE`. -/
def responseWPHYMODE (argc : ℕ) : AtProg Unit := do
  if ← isQuery argc then pure ()
  else if ← allOf [pure (argc = 2), argIs 1 strIsDigit, argIs 1 (·.length = 1)] then
    let mode := atoi (← arg 1)
    if mode ≠ 1 ∧ mode ≠ 2 then pure ()
    else if (← perform .settings).wifiStarted then pure ()
    else perform (.setSettings fun s =>
      keepSysParam { s with sysParam := infPhyModeSet s.sysParam mode })
  else pure ()

/-! ### Network commands -/

/-- `responseNMODE` and `responseNTYPE`: store 0 or 1; whether the function returns 0. -/
def responseBinary (set : UserCfgParam → ℕ → UserCfgParam) (argc shift : ℕ) : AtProg Bool := do
  if ← allOf [pure (argc = 2), argIs (shift + 1) strIsDigit,
      argIs (shift + 1) (·.length = 1)] then
    let n := atoi (← arg (shift + 1))
    if n ≠ 0 ∧ n ≠ 1 then pure false
    else
      perform (.setSettings fun s => keepSysParam { s with userParam := set s.userParam n })
      pure true
  else pure false

/-- `responseNMODE`; `argv` is shifted. -/
def responseNMODE : ℕ → ℕ → AtProg Bool :=
  responseBinary fun userParam n => { userParam with socketProtocol := n }

/-- `responseNTYPE`. -/
def responseNTYPE : ℕ → ℕ → AtProg Bool :=
  responseBinary fun userParam n => { userParam with socketType := n }

/-- `responseNPORT`. -/
def responseNPORT (argc shift : ℕ) : AtProg Bool := do
  if ← allOf [pure (argc = 2), argIs (shift + 1) strIsDigit] then
    let port := atoi (← arg (shift + 1))
    if port > 65535 ∨ port = 0 then pure false
    else
      perform (.setSettings fun s =>
        keepSysParam { s with userParam := { s.userParam with socketPort := port } })
      pure true
  else pure false

/-- `responseNRMTIP`. -/
def responseNRMTIP (argc shift : ℕ) : AtProg Bool := do
  let socketType := (← perform .settings).userParam.socketType
  if argc = 2 ∧ socketType = 1 then pure true
  else if ← allOf [pure (argc = 2), argIs (shift + 1) isValidIp] then
    let remoteIp ← perform (.inetAton (← arg (shift + 1)))
    perform (.setSettings fun s =>
      keepSysParam { s with userParam := { s.userParam with remoteCommIp := remoteIp } })
    pure true
  else pure false

/-- `responseNQSCNN`; `argv++` shifts what the next call sees. -/
def responseNQSCNN (argc : ℕ) : AtProg Unit := do
  if ← isQuery argc then pure ()
  else if argc = 5 then
    let _ ← responseNMODE 2 0
    let _ ← responseNTYPE 2 1
    let _ ← responseNPORT 2 2
    let _ ← responseNRMTIP 2 3
  else pure ()

/-- `responseNLOCIP`. -/
def responseNLOCIP (argc : ℕ) : AtProg Unit := do
  if ← isQuery argc then pure ()
  else if argc = 4 then
    if ← argIs 1 (! isValidIp ·) then pure ()
    else
      let mode := u8 (atoi (← arg 2))
      let trytimes := u8 (atoi (← arg 3))
      if ← anyOf [argIs 2 (! strIsDigit ·), argIs 2 (·.length = 0), argIs 3 (! strIsDigit ·),
          argIs 3 (·.length = 0), pure (mode ≠ 0 ∧ mode ≠ 1)] then pure ()
      else if (← perform .settings).wifiStarted then pure ()
      else
        let addrs := ip4Addrs (← perform (.inetAton (← arg 1)))
        perform (.setSettings fun s =>
          let ipCfg : IpCfg := { s.sysParam.ipCfg with ip := addrs, gateWay := addrs }
          let ipCfg : IpCfg :=
            if s.sysParam.wiFiCfg.protocol = 0 then
              { ipCfg with bDhcp := mode, dhcpTryTimes := trytimes }
            else ipCfg
          keepSysParam { s with sysParam := { s.sysParam with ipCfg := ipCfg } })
  else pure ()

/-- `responseQUIT`. -/
def responseQUIT (argc : ℕ) : AtProg Unit := do
  if argc ≠ 1 then pure ()
  else if ¬ (← perform .settings).wifiStarted then pure ()
  else
    perform (.setSettings fun s => { s with userParam := { s.userParam with atMode := atModeData } })

/-! ### Broadcast commands -/

/-- `responseBCTTXSTART`. -/
def responseBCTTXSTART (argc : ℕ) : AtProg Unit := do
  if ← allOf [pure (argc = 2), argIs 1 strIsDigit] then
    let port := atoi (← arg 1)
    if port > 65535 ∨ port = 0 then pure ()
    else if ¬ (← perform .settings).wifiStarted then pure ()
    else
      let sts ← perform .broadcast
      if sts.rxStatus ≠ 0 then pure ()
      else if sts.txStatus ≠ 0 then pure ()
      else
        perform (.setBroadcast fun sts => { sts with txPort := port })
        let fd ← perform (.socket .tx)
        perform (.setBroadcast fun sts => { sts with txSockfd := fd })
        if fd = -1 then pure ()
        else if (← perform (.setsockopt fd)) = -1 then perform (.close fd)
        else perform (.setBroadcast fun sts => { sts with txStatus := 1 })
  else pure ()

/-- `responseBCTTXSTOP`. -/
def responseBCTTXSTOP (argc : ℕ) : AtProg Unit := do
  if argc ≠ 1 then pure ()
  else
    perform (.setBroadcast fun sts => { sts with txStatus := 0 })
    let sts ← perform .broadcast
    if sts.txSockfd ≥ 0 then perform (.close sts.txSockfd) else pure ()

/-- `responseBCTTXDATA`. -/
def responseBCTTXDATA (argc : ℕ) : AtProg Unit := do
  if ← allOf [pure (argc = 3), argIs 1 strIsDigit] then
    let txLen := atoi (← arg 1)
    perform (.setBroadcast fun sts => { sts with txLen := txLen })
    if txLen > 256 ∨ txLen = 0 then
      perform (.setBroadcast fun sts => { sts with txLen := 0 })
    else if ¬ (← perform .settings).wifiStarted then pure ()
    else
      let sts ← perform .broadcast
      if sts.txSockfd < 0 then pure ()
      else
        let _ ← perform (.sendto sts.txSockfd (← arg 2) sts.txLen)
  else pure ()

/-- `responseBCTRXSTART`. -/
def responseBCTRXSTART (argc : ℕ) : AtProg Unit := do
  if ← allOf [pure (argc = 2), argIs 1 strIsDigit] then
    let port := atoi (← arg 1)
    if port > 65535 ∨ port = 0 then pure ()
    else if ¬ (← perform .settings).wifiStarted then pure ()
    else
      let sts ← perform .broadcast
      if sts.txStatus ≠ 0 then pure ()
      else if sts.rxStatus ≠ 0 then pure ()
      else
        perform (.setBroadcast fun sts => { sts with rxPort := port })
        let fd ← perform (.socket .rx)
        perform (.setBroadcast fun sts => { sts with rxSockfd := fd })
        if fd = -1 then pure ()
        -- The socket stays open when it cannot be bound.
        else if (← perform (.bind fd)) = -1 then pure ()
        else perform (.setBroadcast fun sts => { sts with rxStatus := 1 })
  else pure ()

/-- `responseBCTRXSTOP`. -/
def responseBCTRXSTOP (argc : ℕ) : AtProg Unit := do
  if argc ≠ 1 then pure ()
  else
    perform (.setBroadcast fun sts => { sts with rxStatus := 0 })
    let sts ← perform .broadcast
    if sts.rxSockfd ≥ 0 then perform (.close sts.rxSockfd) else pure ()

/-- The program of a response function that is called with `argc`. -/
def program (responseFunction : AtHandler) (argc : ℕ) : AtProg Unit :=
  match responseFunction with
  | .save => responseSAVE argc
  | .factory => responseFACTORY argc
  | .rst => responseRST argc
  | .baudrate => responseBAUDRATE argc
  | .uartft => responseUARTFT argc
  | .uartfl => responseUARTFL argc
  | .lslpt => responseLSLPT argc
  | .ping => responsePING argc
  | .wqsopt => responseWQSOPT argc
  | .wphymode => responseWPHYMODE argc
  | .wtxrate => responseWTXRATE argc
  | .wscanap => responseWSCANAP argc
  | .wsbcn => responseWSBCN argc
  | .wscap => responseWSCAP argc
  | .wsmtconf => responseWSMTCONF argc
  | .nqscnn => responseNQSCNN argc
  | .nlocip => responseNLOCIP argc
  | .bcttxstart => responseBCTTXSTART argc
  | .bcttxstop => responseBCTTXSTOP argc
  | .bcttxdata => responseBCTTXDATA argc
  | .bctrxstart => responseBCTRXSTART argc
  | .bctrxstop => responseBCTRXSTOP argc
  | .quit => responseQUIT argc
  -- These test `argc` and print, or stop the WiFi or start a thread.
  | .help | .ver | .sver | .systime | .mslp | .ipconfig | .mac | .wstop | .wsaconf
  | .airkiss => pure ()

end AtCmd

/-! ### Execution -/

/-- What the response functions work with. -/
structure CallState where
  settings : Settings
  broadcast : UdpBroadcastSts
  /-- The arguments that the current command has read. -/
  reads : List ℕ
  /-- The blocks of the heap that response functions hold. -/
  blocks : List ℕ
  /-- The open sockets of `responseBCTTXSTART` and of `responseBCTRXSTART`. -/
  txOpen : List ℕ
  rxOpen : List ℕ
  /-- The open descriptors of other modules. -/
  others : List ℕ
  /-- A descriptor was closed or sent to that is not an open one of the above. -/
  misused : Bool
  /-- The device is about to be reset. -/
  resetting : Bool
deriving DecidableEq

/-- The arguments of a call and what its surroundings answer; no function is called twice in a
    way that a second answer could differ. -/
structure AtEnv where
  /-- The string at `argv[i]`; behind `argc` whatever the stack held. -/
  argv : ℕ → List UInt8
  malloc : Option ℕ
  scanStart : ℤ
  /-- The new descriptor, if there is one. -/
  socket : Option ℕ
  setsockopt : ℤ
  bind : ℤ
  sendto : ℤ
  pingInit : ℤ
  txRateSet : ℤ
  beaconPeriodSet : ℤ
  inetAton : List UInt8 → ℕ

/-- A descriptor that the broadcast commands have opened and not closed since. -/
def CallState.Owns (s : CallState) (fd : ℤ) : Prop := ∃ n ∈ s.txOpen ++ s.rxOpen, (n : ℤ) = fd

instance (s : CallState) (fd : ℤ) : Decidable (s.Owns fd) :=
  inferInstanceAs (Decidable (∃ n ∈ s.txOpen ++ s.rxOpen, (n : ℤ) = fd))

/-- `lwip_close`. -/
def CallState.close (s : CallState) (fd : ℤ) : CallState :=
  { s with
    txOpen := s.txOpen.filter fun n => (n : ℤ) ≠ fd
    rxOpen := s.rxOpen.filter fun n => (n : ℤ) ≠ fd
    others := s.others.filter fun n => (n : ℤ) ≠ fd
    misused := s.misused || ! decide (s.Owns fd) }

/-- `socket`: the answer, and the new state. -/
def CallState.openSocket (s : CallState) (use : BctUse) : Option ℕ → ℤ × CallState
  | none => (-1, s)
  | some fd =>
    match use with
    | .tx => (fd, { s with txOpen := fd :: s.txOpen })
    | .rx => (fd, { s with rxOpen := fd :: s.rxOpen })

/-- `socket` changes the open sockets only. -/
theorem CallState.openSocket_eq (s : CallState) (use : BctUse) (fd : Option ℕ) :
    (s.openSocket use fd).2 = { s with
      txOpen := (s.openSocket use fd).2.txOpen, rxOpen := (s.openSocket use fd).2.rxOpen } := by
  cases fd with
  | none => rfl
  | some fd => cases use <;> rfl

/-- What an operation answers, and how it changes the state. -/
def atStep (env : AtEnv) (β : Type) (e : AtOp β) (s : CallState) : β × CallState :=
  match e with
  | .arg i => (env.argv i, { s with reads := s.reads ++ [i] })
  | .settings => (s.settings, s)
  | .setSettings f => ((), { s with settings := f s.settings })
  | .broadcast => (s.broadcast, s)
  | .setBroadcast f => ((), { s with broadcast := f s.broadcast })
  | .malloc _ => (env.malloc, { s with blocks := env.malloc.toList ++ s.blocks })
  | .free p => ((), { s with blocks := s.blocks.erase p })
  | .scanStart _ => (env.scanStart, s)
  | .socket use => s.openSocket use env.socket
  | .setsockopt _ => (env.setsockopt, s)
  | .bind _ => (env.bind, s)
  | .sendto fd _ _ => (env.sendto, { s with misused := s.misused || ! decide (s.Owns fd) })
  | .close fd => ((), s.close fd)
  | .pingInit _ => (env.pingInit, s)
  | .txRateSet _ _ => (env.txRateSet, s)
  | .beaconPeriodSet _ _ => (env.beaconPeriodSet, s)
  | .inetAton str => (env.inetAton str, s)
  | .chipReset => ((), { s with resetting := true })

/-- The call of a response function. -/
def callHandler (env : AtEnv) (responseFunction : AtHandler) (argc : ℕ) (s : CallState) : CallState :=
  ((AtCmd.program responseFunction argc).exec (atStep env) { s with reads := [] }).2

/-! ### How a program goes on behind an operation -/

section Exec

open Prog

variable {α : Type} (env : AtEnv) (s : CallState)

/-- Reading `argv[i]` is recorded; the rest goes on with the string. -/
@[simp] theorem exec_arg (i : ℕ) (f : List UInt8 → AtProg α) :
    (perform (.arg i) >>= f).exec (atStep env) s =
      (f (env.argv i)).exec (atStep env) { s with reads := s.reads ++ [i] } := rfl

/-- The rest goes on with the settings as they are. -/
@[simp] theorem exec_settings (f : Settings → AtProg α) :
    (perform .settings >>= f).exec (atStep env) s = (f s.settings).exec (atStep env) s := rfl

/-- The rest goes on from the state with the stored settings. -/
@[simp] theorem exec_setSettings (g : Settings → Settings) (f : Unit → AtProg α) :
    (perform (.setSettings g) >>= f).exec (atStep env) s =
      (f ()).exec (atStep env) { s with settings := g s.settings } := rfl

/-- The rest goes on with the broadcast sockets as they are. -/
@[simp] theorem exec_broadcast (f : UdpBroadcastSts → AtProg α) :
    (perform .broadcast >>= f).exec (atStep env) s = (f s.broadcast).exec (atStep env) s := rfl

/-- The rest goes on from the state with the stored broadcast sockets. -/
@[simp] theorem exec_setBroadcast (g : UdpBroadcastSts → UdpBroadcastSts) (f : Unit → AtProg α) :
    (perform (.setBroadcast g) >>= f).exec (atStep env) s =
      (f ()).exec (atStep env) { s with broadcast := g s.broadcast } := rfl

/-- A block that is given is recorded until it is freed. -/
@[simp] theorem exec_malloc (size : ℕ) (f : Option ℕ → AtProg α) :
    (perform (.malloc size) >>= f).exec (atStep env) s =
      (f env.malloc).exec (atStep env) { s with blocks := env.malloc.toList ++ s.blocks } := rfl

/-- `InfScanStart` only answers, as the environment says. -/
@[simp] theorem exec_scanStart (rssi : ℤ) (f : ℤ → AtProg α) :
    (perform (.scanStart rssi) >>= f).exec (atStep env) s =
      (f env.scanStart).exec (atStep env) s := rfl

/-- A new descriptor is open in the state that the rest runs from. -/
@[simp] theorem exec_socket (use : BctUse) (f : ℤ → AtProg α) :
    (perform (.socket use) >>= f).exec (atStep env) s =
      (f (s.openSocket use env.socket).1).exec (atStep env) (s.openSocket use env.socket).2 := rfl

/-- `setsockopt` only answers, as the environment says. -/
@[simp] theorem exec_setsockopt (fd : ℤ) (f : ℤ → AtProg α) :
    (perform (.setsockopt fd) >>= f).exec (atStep env) s =
      (f env.setsockopt).exec (atStep env) s := rfl

/-- `bind` only answers, as the environment says. -/
@[simp] theorem exec_bindSocket (fd : ℤ) (f : ℤ → AtProg α) :
    (perform (.bind fd) >>= f).exec (atStep env) s = (f env.bind).exec (atStep env) s := rfl

/-- `sendto` on a descriptor that is not the module's own is recorded. -/
@[simp] theorem exec_sendto (fd : ℤ) (data : List UInt8) (len : ℕ) (f : ℤ → AtProg α) :
    (perform (.sendto fd data len) >>= f).exec (atStep env) s =
      (f env.sendto).exec (atStep env)
        { s with misused := s.misused || ! decide (s.Owns fd) } := rfl

end Exec

end SerialNet
