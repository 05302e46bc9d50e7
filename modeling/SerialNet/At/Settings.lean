import SerialNet.At.Command
import SerialNet.Lib.CInt
import SerialNet.Lib.Window

namespace SerialNet

/-!
# The stored settings, and the commands that change them

`UserParam` is what the device works with and what `AT+SAVE` writes to its sector of the flash;
`SysParam` is the copy of its last part that the WiFi stack reads and changes.  The model has
every response function that touches one of the two, with the arguments as typed; what they print
is left out.  A sector of the flash holds the parameters that were last written to it.

What `inet_aton` stores is a parameter: for an address that it rejects the callers use a variable
that was never set.
-/

/-! ### The parameters -/

/-- `WIFI_CFG`. -/
structure WifiCfg where
  ssid : List UInt8
  ssidBrdEnable : ℕ
  phyMode : ℕ
  channel : ℕ
  encry : ℕ
  authMode : ℕ
  protocol : ℕ
  keyLength : ℕ
  keyIndex : ℕ
  psk : List UInt8
  wscEn : ℕ
  conTryTimes : ℕ
  wmmEn : ℕ
deriving DecidableEq

/-- `IP_CFG`. -/
structure IpCfg where
  ip : List ℕ
  netmask : List ℕ
  gateWay : List ℕ
  dns : List ℕ
  bDhcp : ℕ
  dhcpTryTimes : ℕ
  res2 : List ℕ
deriving DecidableEq

/-- `CFG_PARAM`. -/
structure CfgParam where
  wiFiCfg : WifiCfg
  ipCfg : IpCfg
  bDhcpServer : ℕ
  bDnsServer : ℕ
  dnsName : List UInt8
  res3 : ℕ
deriving DecidableEq

/-- `USER_CFG_PARAM`. -/
structure UserCfgParam where
  isValid : ℕ
  atMode : ℕ
  sleepMode : ℕ
  baudrate : ℕ
  socketProtocol : ℕ
  socketType : ℕ
  socketPort : ℕ
  remoteCommIp : ℕ
  frameLength : ℕ
  frameGap : ℕ
  cfg : CfgParam
deriving DecidableEq

/-- All bytes 0. -/
def CfgParam.zero : CfgParam where
  wiFiCfg := ⟨List.replicate 33 0, 0, 0, 0, 0, 0, 0, 0, 0, List.replicate 64 0, 0, 0, 0⟩
  ipCfg := ⟨[0, 0, 0, 0], [0, 0, 0, 0], [0, 0, 0, 0], [0, 0, 0, 0], 0, 0, [0, 0]⟩
  bDhcpServer := 0
  bDnsServer := 0
  dnsName := List.replicate 33 0
  res3 := 0

/-- All bytes 0. -/
def UserCfgParam.zero : UserCfgParam := ⟨0, 0, 0, 0, 0, 0, 0, 0, 0, 0, .zero⟩

/-- `SYS_EVT_ID`. -/
inductive SysEvtId where
  | linkDown | linkUp | joinFail | dhcpFail | scanDone | directCfgDone
deriving DecidableEq

/-- The variables behind the commands, and the two sectors of the flash. -/
structure Settings where
  userParam : UserCfgParam
  factoryParam : UserCfgParam
  sysParam : CfgParam
  linkStatus : SysEvtId
  smtconfigBegin : ℕ
  userSector : UserCfgParam
  factorySector : UserCfgParam
  permanentAddress : List UInt8
deriving DecidableEq

/-- `USER_PARAM_FLAG_INVALID`, the flag of parameters that are not to be loaded. -/
def userParamFlagInvalid : ℕ := 0
/-- `USER_PARAM_FLAG_VALID`, the flag of saved parameters. -/
def userParamFlagValid : ℕ := 16909060
/-- `AT_MODE`: lines from the UART are commands. -/
def atModeAt : ℕ := 0
/-- `DATA_MODE`: bytes from the UART go to the socket. -/
def atModeData : ℕ := 1
/-- `NORMAL_MODE`, without power saving. -/
def normalMode : ℕ := 0
/-- `LIGHT_SLEEP_MODE`. -/
def lightSleepMode : ℕ := 1
/-- `MAX_RECV_BUFFER_SIZE`, the longest frame a user can set. -/
def maxRecvBufferSize : ℕ := 1400
/-- `MIN_RECV_BUFFER_SIZE`, the shortest one. -/
def minRecvBufferSize : ℕ := 32
/-- `DEF_RECV_BUFFER_SIZE`, the factory frame length; it is above `MAX_RECV_BUFFER_SIZE`. -/
def defRecvBufferSize : ℕ := 1024 * 10
/-- `DEFAULT_SEND_DATA_GAP`, the factory frame time in milliseconds. -/
def defaultSendDataGap : ℕ := 100
/-- `DEFAULT_REMOTE_COMM_PORT`. -/
def defaultRemoteCommPort : ℕ := 8101
/-- The baudrate that the factory parameters start with. -/
def defaultUartBaudrate : ℕ := 115200
/-- `UART_FRAME_MIN_LEN`, which `AT+UARTFT` uses as the shortest frame time. -/
def uartFrameMinLen : ℕ := 30
/-- `UART_FRAME_MAX_LEN`, the longest one. -/
def uartFrameMaxLen : ℕ := 10000

/-- The baudrates that `AT+BAUDRATE` accepts. -/
def uartBaudrates : List ℕ :=
  [300, 1200, 2400, 4800, 9600, 19200, 38400, 57600, 115200, 156250, 250000, 312500, 500000,
    625000, 1250000]

/-! ### Strings -/

/-- `isdigit`. -/
def isdigit (c : UInt8) : Bool := 48 ≤ c ∧ c ≤ 57

/-- `str_is_digit`. -/
def strIsDigit (str : List UInt8) : Bool := str.all isdigit

/-- The loop of `atoi`, up to the first character that is no digit.  `value` is an `unsigned int`
    and wraps around. -/
def atoiLoop : List UInt8 → ℕ → ℕ
  | [], value => value
  | c :: s, value =>
    if isdigit c then atoiLoop s (u32 (value * 10 + (c.toNat - 48))) else value

/-- `atoi` of `os_core.c`. -/
def atoi (s : List UInt8) : ℕ := atoiLoop s 0

/-- The loop of `is_valid_ip`; `none` is an early return of -1.  `section` is an `int` and wraps
    around here; in C its overflow is undefined. -/
def isValidIpLoop : List UInt8 → ℤ → ℕ → Option (ℤ × ℕ)
  | [], sect, dot => some (sect, dot)
  | c :: ip, sect, dot =>
    if c = 46 then
      if dot + 1 > 3 then none
      else if sect ≥ 0 ∧ sect ≤ 255 then isValidIpLoop ip 0 (dot + 1) else none
    else if isdigit c then isValidIpLoop ip (i32 (sect * 10 + c.toNat - 48)) dot
    else none

/-- `is_valid_ip(ip) == 0`. -/
def isValidIp (ip : List UInt8) : Bool :=
  match isValidIpLoop ip 0 0 with
  | some (sect, dot) => 0 < sect ∧ sect ≤ 255 ∧ dot = 3
  | none => false

/-- `%02x`. -/
def hex2 (b : UInt8) : List UInt8 :=
  [b / 16, b % 16].map fun d => if d < 10 then 48 + d else 87 + d

/-- The four bytes of an address, as `ip4_addr1` to `ip4_addr4` deliver them. -/
def ip4Addrs (addr : ℕ) : List ℕ :=
  [addr % 256, addr / 256 % 256, addr / 65536 % 256, addr / 16777216 % 256]

/-! ### `param.c` -/

/-- `InfLoadDefaultParam`: the new `SysParam`. -/
def infLoadDefaultParam (permanentAddress : List UInt8) : CfgParam :=
  let cfg := CfgParam.zero
  let address := (permanentAddress.drop 3).take 3
  { cfg with
    wiFiCfg := { cfg.wiFiCfg with
      ssid := writeAt cfg.wiFiCfg.ssid 0 (ascii "nuap" ++ (address.map hex2).flatten ++ [0])
      ssidBrdEnable := 1
      channel := 11
      encry := 0
      authMode := 0
      protocol := 2
      keyIndex := 0
      psk := writeAt cfg.wiFiCfg.psk 0 (ascii "1234567890" ++ [0])
      keyLength := 10
      wmmEn := 0 }
    ipCfg := { cfg.ipCfg with
      bDhcp := 1
      ip := [192, 168, 0, 1]
      netmask := [255, 255, 255, 0]
      gateWay := [192, 168, 0, 1]
      dns := [192, 168, 0, 1] }
    bDhcpServer := 1
    bDnsServer := 1
    dnsName := writeAt cfg.dnsName 0 (ascii "local.nufront" ++ [0]) }

/-- `InfNetModeSet`. -/
def infNetModeSet (cfg : CfgParam) (mode : ℕ) : CfgParam :=
  if mode ≥ 3 then cfg else { cfg with wiFiCfg := { cfg.wiFiCfg with protocol := mode } }

/-- `InfPhyModeSet`. -/
def infPhyModeSet (cfg : CfgParam) (mode : ℕ) : CfgParam :=
  if mode ≥ 3 then cfg else { cfg with wiFiCfg := { cfg.wiFiCfg with phyMode := mode } }

/-- `InfSsidSet`; `none` is NULL. -/
def infSsidSet (cfg : CfgParam) (pSsid : Option (List UInt8)) : CfgParam :=
  match pSsid with
  | none => { cfg with wiFiCfg := { cfg.wiFiCfg with ssid := cfg.wiFiCfg.ssid.set 0 0 } }
  | some ssid =>
    if ssid.length > 32 ∨ ssid.length = 0 then
      { cfg with wiFiCfg := { cfg.wiFiCfg with ssid := cfg.wiFiCfg.ssid.set 0 0 } }
    else
      { cfg with wiFiCfg := { cfg.wiFiCfg with
          ssid := (writeAt cfg.wiFiCfg.ssid 0 ssid).set ssid.length 0 } }

/-- `InfKeySet`. -/
def infKeySet (cfg : CfgParam) (index : ℕ) (keyBuf : List UInt8) : CfgParam :=
  if index > 3 ∨ keyBuf.length > 64 then cfg
  else
    let psk := writeAt cfg.wiFiCfg.psk 0 keyBuf
    { cfg with wiFiCfg := { cfg.wiFiCfg with
        keyIndex := index
        keyLength := keyBuf.length
        psk := if keyBuf.length < 64 then psk.set keyBuf.length 0 else psk } }

/-- `InfChannelSet`. -/
def infChannelSet (cfg : CfgParam) (ch : ℕ) : CfgParam :=
  if ch < 1 ∨ ch > 13 then cfg else { cfg with wiFiCfg := { cfg.wiFiCfg with channel := ch } }

/-- `InfEncModeSet`. -/
def infEncModeSet (cfg : CfgParam) (encMode : ℕ) : CfgParam :=
  if encMode ≥ 5 then cfg else { cfg with wiFiCfg := { cfg.wiFiCfg with encry := encMode } }

/-- `InfAuthModeSet`. -/
def infAuthModeSet (cfg : CfgParam) (authMode : ℕ) : CfgParam :=
  if authMode ≥ 4 then cfg else { cfg with wiFiCfg := { cfg.wiFiCfg with authMode := authMode } }

/-- `InfConTryTimesSet`. -/
def infConTryTimesSet (cfg : CfgParam) (tryTimes : ℕ) : CfgParam :=
  { cfg with wiFiCfg := { cfg.wiFiCfg with conTryTimes := tryTimes } }

/-! ### `serialNet.c` -/

/-- `GetFactoryParam`. -/
def getFactoryParam (s : Settings) : Settings := { s with factoryParam := s.factorySector }

/-- `SaveFactoryParam`. -/
def saveFactoryParam (s : Settings) : Settings := { s with factorySector := s.factoryParam }

/-- `GetUserParam`. -/
def getUserParam (s : Settings) : Settings :=
  { s with userParam := s.userSector, sysParam := s.userSector.cfg }

/-- `SaveUserParam`. -/
def saveUserParam (s : Settings) : Settings := { s with userSector := s.userParam }

section InetAton

variable (inetAton : List UInt8 → ℕ)

/-- `InitFactoryParam`. -/
def initFactoryParam (s : Settings) : Settings :=
  let sysParam := infLoadDefaultParam s.permanentAddress
  { s with
    sysParam := sysParam
    factoryParam := { UserCfgParam.zero with
      isValid := userParamFlagInvalid
      sleepMode := normalMode
      atMode := atModeAt
      baudrate := defaultUartBaudrate
      socketType := 1
      socketProtocol := 1
      socketPort := defaultRemoteCommPort
      remoteCommIp := inetAton (ascii "192.168.0.100")
      frameLength := defRecvBufferSize
      frameGap := defaultSendDataGap
      cfg := sysParam } }

/-- The limits of `frameLength`, as `LoadUserParam` and `responseUARTFL` apply them. -/
def limitFrameLength (n : ℕ) : ℕ :=
  if n < minRecvBufferSize then minRecvBufferSize
  else if n > maxRecvBufferSize then maxRecvBufferSize
  else n

/-- `LoadUserParam`. -/
def loadUserParam (s : Settings) : Settings :=
  let userParam : UserCfgParam := { s.userParam with sleepMode := normalMode, atMode := atModeAt }
  let userParam : UserCfgParam :=
    { userParam with frameLength := limitFrameLength userParam.frameLength }
  { s with
    userParam := userParam
    sysParam := userParam.cfg
    factoryParam := { s.factoryParam with frameLength := userParam.frameLength % 65536 } }

/-- The factory path of `init_default_data`, which is there twice. -/
def loadFactoryParam (s : Settings) : Settings :=
  let s := initFactoryParam inetAton s
  let s := saveFactoryParam s
  let s := getFactoryParam s
  saveUserParam { s with userParam := s.factoryParam }

/-- `init_default_data`; `pin` holds the two readings of the factory pin. -/
def initDefaultData (s : Settings) (pin : Bool × Bool) : Settings :=
  let s : Settings := { s with linkStatus := .linkDown }
  if pin.1 = false ∧ pin.2 = false then loadFactoryParam inetAton s
  else
    let s := getUserParam s
    if s.userParam.isValid = userParamFlagValid then loadUserParam s
    else loadFactoryParam inetAton s

/-- A reset: what is not in the flash is 0 before `init_default_data`. -/
def reboot (s : Settings) (pin : Bool × Bool) : Settings :=
  initDefaultData inetAton { s with
    userParam := .zero, factoryParam := .zero, sysParam := .zero, linkStatus := .linkDown
    smtconfigBegin := 0 } pin

end InetAton

end SerialNet
