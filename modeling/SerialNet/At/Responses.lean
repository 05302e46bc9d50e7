import SerialNet.At.Settings

namespace SerialNet

/-!
# The response functions that touch the settings

`argv` is the argument vector with the command itself in front, so that `argc` is its length.
A response function that only prints leaves the settings as they are (`respond`).

`AtThread` runs a command in `AT_MODE` only.  Between commands the link status changes, the WiFi
stack and the configuration threads change `SysParam`, the direct configuration ends, `+++` brings
the device back to `AT_MODE`, and the power may fail.
-/

/-- `memcpy(&UserParam.cfg, &SysParam, sizeof(CFG_PARAM))`. -/
def keepSysParam (s : Settings) : Settings :=
  { s with userParam := { s.userParam with cfg := s.sysParam } }

/-- `link_status` says that the WiFi is started. -/
def Settings.wifiStarted (s : Settings) : Bool :=
  s.linkStatus = .linkUp ∨ s.linkStatus = .scanDone

/-- The argument `?`. -/
def query : List UInt8 := [63]

/-- `responseSAVE`. -/
def responseSAVE (s : Settings) (argv : List (List UInt8)) : Settings :=
  if argv.length ≠ 1 then s
  else saveUserParam { s with userParam := { s.userParam with isValid := userParamFlagValid } }

/-- `responseBAUDRATE`. -/
def responseBAUDRATE (s : Settings) (argv : List (List UInt8)) : Settings :=
  match argv with
  | [_, arg] =>
    if arg = query then s
    else if strIsDigit arg then
      if atoi arg ∈ uartBaudrates then
        { s with userParam := { s.userParam with baudrate := atoi arg } }
      else s
    else s
  | _ => s

/-- `responseUARTFL`. -/
def responseUARTFL (s : Settings) (argv : List (List UInt8)) : Settings :=
  match argv with
  | [_, arg] =>
    if arg = query then s
    else if strIsDigit arg then
      -- The argument is cut to 16 bits before it is limited.
      let recvBufSize := limitFrameLength (u16 (atoi arg))
      { s with userParam := { s.userParam with frameLength := recvBufSize % 65536 } }
    else s
  | _ => s

/-- `responseUARTFT`. -/
def responseUARTFT (s : Settings) (argv : List (List UInt8)) : Settings :=
  match argv with
  | [_, arg] =>
    if arg = query then s
    else if strIsDigit arg then
      let frameGap :=
        if atoi arg < uartFrameMinLen then uartFrameMinLen
        else if atoi arg > uartFrameMaxLen then uartFrameMaxLen
        else u16 (atoi arg)
      { s with userParam := { s.userParam with frameGap := frameGap } }
    else s
  | _ => s

/-- `responseLSLPT`. -/
def responseLSLPT (s : Settings) (argv : List (List UInt8)) : Settings :=
  match argv with
  | [_, arg1, arg2, arg3] =>
    if ¬ strIsDigit arg1 ∨ ¬ strIsDigit arg2 ∨ ¬ strIsDigit arg3 ∨ arg2.length > 3 then s
    else
      let mode := atoi arg1
      let time := atoi arg2
      let dtim := atoi arg3
      if mode > 3 ∨ time > 255 ∨ time = 0 ∨ dtim > 1 then s
      else if ¬ s.wifiStarted then s
      else { s with userParam := { s.userParam with
        sleepMode := if mode = 0 then normalMode else lightSleepMode } }
  | _ => s

/-- `responseWQSOPT`. -/
def responseWQSOPT (s : Settings) (argv : List (List UInt8)) : Settings :=
  match argv with
  | [_, arg1, arg2, arg3, arg4, arg5] =>
    let mode := u8 (atoi arg1)
    -- A station starts on channel 1, whatever the second argument is.
    let channel := if mode = 0 then 1 else u8 (atoi arg2)
    let encry := u8 (atoi arg3)
    let authMode := u8 (atoi arg4)
    let wmmEn := u8 (atoi arg5)
    if strIsDigit arg1 ∧ arg1.length = 1 ∧ strIsDigit arg2 ∧ arg2.length ≤ 2 ∧ strIsDigit arg3 ∧
        arg3.length = 1 ∧ strIsDigit arg4 ∧ arg4.length = 1 ∧ strIsDigit arg5 ∧
        arg5.length = 1 then
      if mode > 2 ∨ channel < 1 ∨ channel > 13 ∨ encry > 4 ∨ authMode > 3 ∨ wmmEn > 1 then s
      else if encry = 0 ∧ authMode ≠ 0 then s
      else if mode = 2 ∧ encry = 4 ∧ authMode ≠ 0 then s
      else
        let sysParam := infNetModeSet s.sysParam mode
        keepSysParam { s with sysParam := { sysParam with wiFiCfg := { sysParam.wiFiCfg with
          channel := channel, encry := encry, authMode := authMode, wmmEn := wmmEn } } }
    else s
  | _ => s

/-- `responseWSCANAP`; `malloc` says that there was memory for the scan table. -/
def responseWSCANAP (s : Settings) (argv : List (List UInt8)) (malloc : Bool) : Settings :=
  match argv with
  | [_, arg] =>
    if malloc ∧ strIsDigit arg ∧ arg.length ≠ 0 ∧ ¬ s.wifiStarted then
      { s with sysParam := infSsidSet s.sysParam none }
    else s
  | _ => s

/-- `PSK[KeyLength] = 0`.  `InfKeySet` refuses keys of more than 64 bytes, the default key is
    shorter, and a configuration from the flash is used only under the valid flag, which is saved
    with a configuration of these; so no greater length is reached (`keyInv_run`).  A flash that
    something else has written is left out here: with a greater length in it the C stores further
    behind, into whatever is there. -/
def WifiCfg.endKey (cfg : WifiCfg) : WifiCfg :=
  -- Behind a key of 64 bytes there is `WscEn`.
  if cfg.keyLength = 64 then { cfg with wscEn := 0 }
  else { cfg with psk := cfg.psk.set cfg.keyLength 0 }

/-- `responseWSCAP`.  The query ends the key with a NUL. -/
def responseWSCAP (s : Settings) (argv : List (List UInt8)) : Settings :=
  match argv with
  | [_, arg] =>
    if arg = query then
      { s with sysParam := { s.sysParam with wiFiCfg := s.sysParam.wiFiCfg.endKey } }
    else s
  | [_, arg1, arg2, arg3] =>
    if arg1.length ≤ 32 ∧ arg1.length > 0 ∧ arg2.length ≤ 64 then
      if s.sysParam.wiFiCfg.protocol = 0 then
        if ¬ strIsDigit arg3 ∨ arg3.length = 0 then s
        else if atoi arg3 > 255 then s
        else
          let cfg := infNetModeSet s.sysParam 0
          let cfg := infSsidSet cfg (some arg1)
          let cfg := infKeySet cfg 0 arg2
          keepSysParam { s with sysParam := infConTryTimesSet cfg (u8 (atoi arg3)) }
      else if s.sysParam.wiFiCfg.protocol = 2 then
        -- The flags are set in a copy of the saved configuration, which replaces `SysParam`.
        let cfg := { s.userParam.cfg with bDhcpServer := 1, bDnsServer := 1 }
        let cfg := infNetModeSet cfg 2
        let cfg := infSsidSet cfg (some arg1)
        keepSysParam { s with sysParam := infKeySet cfg 0 arg2 }
      else s
    else s
  | _ => s

/-- `responseWSMTCONF`. -/
def responseWSMTCONF (s : Settings) (argv : List (List UInt8)) : Settings :=
  if argv.length ≠ 1 then s
  else if s.smtconfigBegin = 0 then
    { s with sysParam := infNetModeSet s.sysParam 0, smtconfigBegin := 1 }
  else s

/-- `responseWPHYMODE`. -/
def responseWPHYMODE (s : Settings) (argv : List (List UInt8)) : Settings :=
  match argv with
  | [_, arg] =>
    if arg = query then s
    else if strIsDigit arg ∧ arg.length = 1 then
      let mode := atoi arg
      if mode ≠ 1 ∧ mode ≠ 2 then s
      else if s.wifiStarted then s
      else keepSysParam { s with sysParam := infPhyModeSet s.sysParam mode }
    else s
  | _ => s

section InetAton

variable (inetAton : List UInt8 → ℕ)

/-- `responseNMODE` and whether it returns 0. -/
def responseNMODE (s : Settings) (arg : List UInt8) : Settings × Bool :=
  if strIsDigit arg ∧ arg.length = 1 then
    if atoi arg ≠ 0 ∧ atoi arg ≠ 1 then (s, false)
    else (keepSysParam { s with userParam := { s.userParam with socketProtocol := atoi arg } },
      true)
  else (s, false)

/-- `responseNTYPE` and whether it returns 0. -/
def responseNTYPE (s : Settings) (arg : List UInt8) : Settings × Bool :=
  if strIsDigit arg ∧ arg.length = 1 then
    if atoi arg ≠ 0 ∧ atoi arg ≠ 1 then (s, false)
    else (keepSysParam { s with userParam := { s.userParam with socketType := atoi arg } }, true)
  else (s, false)

/-- `responseNPORT` and whether it returns 0. -/
def responseNPORT (s : Settings) (arg : List UInt8) : Settings × Bool :=
  if strIsDigit arg then
    if atoi arg > 65535 ∨ atoi arg = 0 then (s, false)
    else (keepSysParam { s with userParam := { s.userParam with socketPort := atoi arg } }, true)
  else (s, false)

/-- `responseNRMTIP` and whether it returns 0. -/
def responseNRMTIP (s : Settings) (arg : List UInt8) : Settings × Bool :=
  -- A server has no remote address: the argument is ignored.
  if s.userParam.socketType = 1 then (s, true)
  else if isValidIp arg then
    (keepSysParam { s with userParam := { s.userParam with remoteCommIp := inetAton arg } }, true)
  else (s, false)

/-- `responseNQSCNN`: the four parts are set one by one, also when one of them fails. -/
def responseNQSCNN (s : Settings) (argv : List (List UInt8)) : Settings :=
  match argv with
  | [_, arg1, arg2, arg3, arg4] =>
    let s := (responseNMODE s arg1).1
    let s := (responseNTYPE s arg2).1
    let s := (responseNPORT s arg3).1
    (responseNRMTIP inetAton s arg4).1
  | _ => s

/-- `responseNLOCIP`. -/
def responseNLOCIP (s : Settings) (argv : List (List UInt8)) : Settings :=
  match argv with
  | [_, arg1, arg2, arg3] =>
    if ¬ isValidIp arg1 then s
    else
      let mode := u8 (atoi arg2)
      if ¬ strIsDigit arg2 ∨ arg2.length = 0 ∨ ¬ strIsDigit arg3 ∨ arg3.length = 0 ∨
          (mode ≠ 0 ∧ mode ≠ 1) then s
      else if s.wifiStarted then s
      else
        let addrs := ip4Addrs (inetAton arg1)
        -- The module is its own gateway.
        let ipCfg : IpCfg := { s.sysParam.ipCfg with ip := addrs, gateWay := addrs }
        let ipCfg : IpCfg :=
          if s.sysParam.wiFiCfg.protocol = 0 then
            { ipCfg with bDhcp := mode, dhcpTryTimes := u8 (atoi arg3) }
          else ipCfg
        keepSysParam { s with sysParam := { s.sysParam with ipCfg := ipCfg } }
  | _ => s

/-- `responseQUIT`. -/
def responseQUIT (s : Settings) (argv : List (List UInt8)) : Settings :=
  if argv.length ≠ 1 then s
  else if ¬ s.wifiStarted then s
  else { s with userParam := { s.userParam with atMode := atModeData } }

/-- `responseRST`. -/
def responseRST (s : Settings) (argv : List (List UInt8)) (pin : Bool × Bool) : Settings :=
  if argv.length ≠ 1 then s else reboot inetAton s pin

/-- `responseFACTORY`. -/
def responseFACTORY (s : Settings) (argv : List (List UInt8)) (pin : Bool × Bool) : Settings :=
  if argv.length ≠ 1 then s
  else reboot inetAton (saveUserParam { s with userParam := .zero }) pin

/-- What the surroundings decide about a command: the factory pin, if it resets the device, and
    whether there is memory. -/
structure CommandEnv where
  pin : Bool × Bool
  malloc : Bool

/-- The call of a response function. -/
def respond (s : Settings) (responseFunction : AtHandler) (argv : List (List UInt8))
    (env : CommandEnv) : Settings :=
  match responseFunction with
  | .save => responseSAVE s argv
  | .factory => responseFACTORY inetAton s argv env.pin
  | .rst => responseRST inetAton s argv env.pin
  | .baudrate => responseBAUDRATE s argv
  | .uartft => responseUARTFT s argv
  | .uartfl => responseUARTFL s argv
  | .lslpt => responseLSLPT s argv
  | .wqsopt => responseWQSOPT s argv
  | .wphymode => responseWPHYMODE s argv
  | .wscanap => responseWSCANAP s argv env.malloc
  | .wscap => responseWSCAP s argv
  | .wsmtconf => responseWSMTCONF s argv
  | .nqscnn => responseNQSCNN inetAton s argv
  | .nlocip => responseNLOCIP inetAton s argv
  | .quit => responseQUIT s argv
  -- these print, or start something that changes `SysParam` later
  | .help | .ver | .sver | .systime | .mslp | .ipconfig | .ping | .mac | .wtxrate | .wsbcn
  | .wstop | .wsaconf | .airkiss | .bcttxstart | .bcttxstop | .bcttxdata | .bctrxstart
  | .bctrxstop => s

/-- `ResponseSmartconfig`. -/
def responseSmartconfig (s : Settings) : Settings :=
  if s.smtconfigBegin = 1 then keepSysParam { s with smtconfigBegin := 0 } else s

/-- What can happen to the settings. -/
inductive SettingsEvent where
  /-- `AtThread` runs a command. -/
  | command (responseFunction : AtHandler) (argv : List (List UInt8)) (env : CommandEnv)
  /-- The WiFi stack or a configuration thread changes `SysParam`. -/
  | sysParam (cfg : CfgParam)
  /-- The event callback stores a new `link_status`. -/
  | linkStatus (event : SysEvtId)
  /-- The direct configuration is done. -/
  | smartconfig
  /-- `TestSerialToWifi` leaves `DATA_MODE`. -/
  | cmdMode
  /-- The device is reset from outside. -/
  | reset (pin : Bool × Bool)

/-- One event; a command is possible in `AT_MODE` only. -/
def settingsStep (s : Settings) : SettingsEvent → Option Settings
  | .command responseFunction argv env =>
      if s.userParam.atMode = atModeAt then some (respond inetAton s responseFunction argv env)
      else none
  | .sysParam cfg => some { s with sysParam := cfg }
  | .linkStatus event => some { s with linkStatus := event }
  | .smartconfig => some (responseSmartconfig s)
  | .cmdMode => some { s with userParam := { s.userParam with atMode := atModeAt } }
  | .reset pin => some (reboot inetAton s pin)

/-- The first boot, with any content of the two sectors. -/
def firstBoot (userSector factorySector : UserCfgParam) (permanentAddress : List UInt8)
    (pin : Bool × Bool) : Settings :=
  reboot inetAton
    { userParam := .zero, factoryParam := .zero, sysParam := .zero, linkStatus := .linkDown
      smtconfigBegin := 0, userSector := userSector, factorySector := factorySector
      permanentAddress := permanentAddress } pin

end InetAton

end SerialNet
