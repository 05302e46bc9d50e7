import Mathlib.Data.List.Basic
import SerialNet.At.Nqscnn
import SerialNet.Lib.Prog

namespace SerialNet

open Prog

/-!
# The queries

Ten commands answer to the argument `?` with what is set.  Here `SysParam` and `UserParam` lie in
memory byte by byte, and every query is a program that reads their fields, prints, and may store.
Only that of `AT+WSCAP` stores: a NUL behind the key, at `PSK[KeyLength]`.  A key of 64 bytes fills
its array, and the NUL then goes over `WscEn`; `query_frame_iff` says that this is the only case.

Local variables and the buffer of `inet_ntoa` are left out.
-/

/-! ### `CFG_PARAM` in memory -/

/-- The fields of `CFG_PARAM`. -/
inductive CfgField where
  | ssid | ssidBrdEnable | phyMode | channel | encry | authMode | protocol | keyLength | keyIndex
  | psk | wscEn | conTryTimes | wmmEn | ip | netmask | gateWay | dns | bDhcp | dhcpTryTimes | res2
  | bDhcpServer | bDnsServer | dnsName | res3
deriving DecidableEq, Repr

namespace CfgField

/-- In the order of the structure, which has no padding. -/
def all : List CfgField :=
  [.ssid, .ssidBrdEnable, .phyMode, .channel, .encry, .authMode, .protocol, .keyLength, .keyIndex,
    .psk, .wscEn, .conTryTimes, .wmmEn, .ip, .netmask, .gateWay, .dns, .bDhcp, .dhcpTryTimes, .res2,
    .bDhcpServer, .bDnsServer, .dnsName, .res3]

/-- The bytes of the field in `CFG_PARAM`. -/
def size : CfgField → ℕ
  | ssid | dnsName => 33
  | psk => 64
  | ip | netmask | gateWay | dns => 4
  | res2 => 2
  | _ => 1

/-- The sizes of the fields in front. -/
def offset (f : CfgField) : ℕ := ((all.takeWhile (· ≠ f)).map size).sum

/-- The bytes of the field. -/
def value (cfg : CfgParam) : CfgField → List UInt8
  | ssid => cfg.wiFiCfg.ssid
  | ssidBrdEnable => [.ofNat cfg.wiFiCfg.ssidBrdEnable]
  | phyMode => [.ofNat cfg.wiFiCfg.phyMode]
  | channel => [.ofNat cfg.wiFiCfg.channel]
  | encry => [.ofNat cfg.wiFiCfg.encry]
  | authMode => [.ofNat cfg.wiFiCfg.authMode]
  | protocol => [.ofNat cfg.wiFiCfg.protocol]
  | keyLength => [.ofNat cfg.wiFiCfg.keyLength]
  | keyIndex => [.ofNat cfg.wiFiCfg.keyIndex]
  | psk => cfg.wiFiCfg.psk
  | wscEn => [.ofNat cfg.wiFiCfg.wscEn]
  | conTryTimes => [.ofNat cfg.wiFiCfg.conTryTimes]
  | wmmEn => [.ofNat cfg.wiFiCfg.wmmEn]
  | ip => cfg.ipCfg.ip.map .ofNat
  | netmask => cfg.ipCfg.netmask.map .ofNat
  | gateWay => cfg.ipCfg.gateWay.map .ofNat
  | dns => cfg.ipCfg.dns.map .ofNat
  | bDhcp => [.ofNat cfg.ipCfg.bDhcp]
  | dhcpTryTimes => [.ofNat cfg.ipCfg.dhcpTryTimes]
  | res2 => cfg.ipCfg.res2.map .ofNat
  | bDhcpServer => [.ofNat cfg.bDhcpServer]
  | bDnsServer => [.ofNat cfg.bDnsServer]
  | dnsName => cfg.dnsName
  | res3 => [.ofNat cfg.res3]

end CfgField

/-- The bytes of the structure. -/
def CfgParam.image (cfg : CfgParam) : List UInt8 :=
  (CfgField.all.map (CfgField.value cfg)).flatten

/-- `sizeof(CFG_PARAM)`. -/
def sizeofCfgParam : ℕ := (CfgField.all.map CfgField.size).sum

/-- The address of `SysParam`; only its size matters, not where the linker puts it. -/
def sysParamAddress : ℕ := 0x20001000

/-- The address of a field of `SysParam`. -/
def CfgField.address (f : CfgField) : ℕ := sysParamAddress + f.offset

/-- The address lies inside a field of `SysParam`. -/
def CfgField.Covers (f : CfgField) (a : ℕ) : Prop := f.address ≤ a ∧ a < f.address + f.size

/-! ### `USER_CFG_PARAM` in memory -/

/-- The fields of `USER_CFG_PARAM`. -/
inductive UserField where
  | isValid | atMode | sleepMode | baudrate | socketProtocol | socketType | socketPort
  | remoteCommIp | frameLength | frameGap | cfg
deriving DecidableEq, Repr

namespace UserField

/-- Every member is aligned to its size; two bytes of padding are behind `SleepMode`. -/
def offset : UserField → ℕ
  | isValid => 0
  | atMode => 4
  | sleepMode => 5
  | baudrate => 8
  | socketProtocol => 12
  | socketType => 13
  | socketPort => 14
  | remoteCommIp => 16
  | frameLength => 20
  | frameGap => 22
  | cfg => 24

/-- The bytes of the field. -/
def value (u : UserCfgParam) : UserField → List UInt8
  | isValid => wordBytes u.isValid
  | atMode => [.ofNat u.atMode]
  | sleepMode => [.ofNat u.sleepMode]
  | baudrate => wordBytes u.baudrate
  | socketProtocol => [.ofNat u.socketProtocol]
  | socketType => [.ofNat u.socketType]
  | socketPort => halfBytes u.socketPort
  | remoteCommIp => wordBytes u.remoteCommIp
  | frameLength => halfBytes u.frameLength
  | frameGap => halfBytes u.frameGap
  | cfg => u.cfg.image

end UserField

/-- `sizeof(USER_CFG_PARAM)`. -/
def sizeofUserCfgParam : ℕ := 24 + sizeofCfgParam

/-- The address of `UserParam`. -/
def userParamAddress : ℕ := 0x20002000

/-- Where the field of `UserParam` lies. -/
def UserField.address (f : UserField) : ℕ := userParamAddress + f.offset

/-- An address of `SysParam` or of `UserParam`. -/
def IsParamByte (a : ℕ) : Prop :=
  (sysParamAddress ≤ a ∧ a < sysParamAddress + sizeofCfgParam) ∨
    (userParamAddress ≤ a ∧ a < userParamAddress + sizeofUserCfgParam)

/-- The settings lie in memory. -/
structure SettingsAt (m : Memory) (s : Settings) : Prop where
  sysParam : ∀ f : CfgField, BytesAt m f.address (f.value s.sysParam)
  userParam : ∀ f : UserField, BytesAt m f.address (f.value s.userParam)

/-- Every field of the structure has its size. -/
def SizesRight (cfg : CfgParam) : Prop := ∀ f : CfgField, (f.value cfg).length = f.size

/-- There is no other field. -/
theorem CfgField.mem_all (f : CfgField) : f ∈ CfgField.all := by
  cases f <;> decide

instance (cfg : CfgParam) : Decidable (SizesRight cfg) :=
  decidable_of_iff (∀ f ∈ CfgField.all, (f.value cfg).length = f.size)
    ⟨fun h f => h f f.mem_all, fun h f _ => h f⟩

/-- The fields one after the other. -/
theorem CfgField.all_split (f : CfgField) :
    CfgField.all =
      CfgField.all.takeWhile (· ≠ f) ++ f :: (CfgField.all.dropWhile (· ≠ f)).tail := by
  cases f <;> decide

/-- The fields have the sizes of the structure. -/
theorem length_flatten_value {cfg : CfgParam} (h : SizesRight cfg) (L : List CfgField) :
    ((L.map (CfgField.value cfg)).flatten).length = (L.map CfgField.size).sum := by
  induction L with
  | nil => rfl
  | cons f L ih =>
    rw [List.map_cons, List.flatten_cons, List.length_append, h f, ih, List.map_cons,
      List.sum_cons]

/-- Where the structure lies, its fields lie at their offsets. -/
theorem bytesAt_image {m : Memory} {p : ℕ} {cfg : CfgParam} (h : SizesRight cfg)
    (hm : BytesAt m p cfg.image) (f : CfgField) : BytesAt m (p + f.offset) (f.value cfg) := by
  rw [CfgParam.image, CfgField.all_split f, List.map_append, List.flatten_append,
    bytesAt_append, length_flatten_value h] at hm
  exact (bytesAt_append.mp hm.2).1

/-- The bytes of the structure, with two of padding. -/
def UserCfgParam.image (u : UserCfgParam) : List UInt8 :=
  wordBytes u.isValid ++ ([.ofNat u.atMode] ++ ([.ofNat u.sleepMode] ++ ([0, 0] ++
    (wordBytes u.baudrate ++ ([.ofNat u.socketProtocol] ++ ([.ofNat u.socketType] ++
      (halfBytes u.socketPort ++ (wordBytes u.remoteCommIp ++ (halfBytes u.frameLength ++
        (halfBytes u.frameGap ++ u.cfg.image))))))))))

/-- Each field of `UserParam` lies at its offset. -/
theorem bytesAt_userImage {m : Memory} {p : ℕ} {u : UserCfgParam} (hm : BytesAt m p u.image)
    (f : UserField) : BytesAt m (p + f.offset) (f.value u) := by
  simp only [UserCfgParam.image, bytesAt_append] at hm
  obtain ⟨h0, h1, h2, -, h3, h4, h5, h6, h7, h8, h9, h10⟩ := hm
  cases f with
  | isValid => exact h0
  | atMode => exact h1
  | sleepMode => exact h2
  | baudrate => exact h3
  | socketProtocol => exact h4
  | socketType => exact h5
  | socketPort => exact h6
  | remoteCommIp => exact h7
  | frameLength => exact h8
  | frameGap => exact h9
  | cfg => exact h10

/-- Settings whose arrays have their sizes can lie in memory. -/
theorem exists_settingsAt {s : Settings} (h : SizesRight s.sysParam) : ∃ m, SettingsAt m s := by
  have hlength : s.sysParam.image.length = sizeofCfgParam := length_flatten_value h CfgField.all
  refine ⟨storeBytes (storeBytes (fun _ => 0) sysParamAddress s.sysParam.image) userParamAddress
    s.userParam.image, ?_, bytesAt_userImage (bytesAt_storeBytes _ _ _)⟩
  apply bytesAt_image h
  apply (bytesAt_storeBytes (fun _ => 0) sysParamAddress s.sysParam.image).congr
  intro q _ hq
  rw [hlength] at hq
  have hapart : sysParamAddress + sizeofCfgParam ≤ userParamAddress := by decide
  exact storeBytes_outside _ (Or.inl (hq.trans_le hapart))

/-! ### Operations -/

/-- An argument of `printf`: a number, a string of the program (NULL is `none`), an array of
    `SysParam`, or what `inet_ntoa` makes of an address. -/
inductive PrintArg where
  | int (n : ℤ)
  | str (s : Option String)
  | array (f : CfgField)
  | inetNtoa (addr : ℕ)
deriving DecidableEq, Repr

/-- `rate_opt`. -/
structure RateOpt where
  rateMode : ℕ
  rateIdx : ℕ

/-- `beacon_opt`. -/
structure BeaconOpt where
  bcnPrd : ℕ
  notifyPeerEn : ℕ

/-- What a query does; the result is what it gets. -/
inductive QueryOp : Type → Type where
  /-- Element `i` of a field of `SysParam`. -/
  | sysParam (f : CfgField) (i : ℕ) : QueryOp ℕ
  /-- A field of `UserParam` of 8, 16 or 32 bits. -/
  | user8 (f : UserField) : QueryOp ℕ
  | user16 (f : UserField) : QueryOp ℕ
  | user32 (f : UserField) : QueryOp ℕ
  /-- A store to element `i` of a field of `SysParam`. -/
  | store (f : CfgField) (i : ℕ) (b : UInt8) : QueryOp Unit
  | linkStatus : QueryOp SysEvtId
  /-- `netif.ip_addr.addr`. -/
  | netifAddr : QueryOp ℕ
  /-- `InfCurChGet`. -/
  | curCh : QueryOp ℕ
  | rateOpt : QueryOp RateOpt
  | beaconOpt : QueryOp BeaconOpt
  | printf (format : String) (args : List PrintArg) : QueryOp Unit

/-- The query of a response function. -/
abbrev QueryProg := Prog QueryOp

/-! ### The queries -/

namespace AtQuery

/-- `printf`. -/
@[simp] def printf (format : String) (args : List PrintArg) : QueryProg Unit :=
  perform (.printf format args)

/-- A field of one byte. -/
@[simp] def cfgByte (f : CfgField) : QueryProg ℕ := perform (.sysParam f 0)

/-- `INVALID_COMMAND`. -/
def invalidCommandNumber : ℤ := -1

/-- `printf("+ERROR=%d\n\r", code)`. -/
@[simp] def printError (code : ℤ) : QueryProg Unit := printf "+ERROR=%d\n\r" [.int code]

/-- The query of `responseBAUDRATE`. -/
def queryBAUDRATE : QueryProg Unit := do
  printf "+OK=%d\n\r" [.int (← perform (.user32 .baudrate))]

/-- The query of `responseUARTFL`. -/
def queryUARTFL : QueryProg Unit := do
  let recvBufSize ← perform (.user16 .frameLength)
  printf "+OK=UARTFL:%d\n\r" [.int recvBufSize]

/-- The query of `responseUARTFT`. -/
def queryUARTFT : QueryProg Unit := do
  printf "+OK=UARTFT:%d\n\r" [.int (← perform (.user16 .frameGap))]

/-- The first field of `AT+WQSOPT=?`: the protocol. -/
def wqsoptMode : QueryProg Unit := do
  let protocol ← cfgByte .protocol
  if protocol = 0 then printf "+OK=STA," []
  else if protocol = 1 then printf "+OK=ADHOC," []
  else if protocol = 2 then printf "+OK=SOFTAP," []
  else printf "+<mode>ERROR=%d," [.int invalidParameter]

/-- Its channel: in station mode the one that is in use now. -/
def wqsoptChannel : QueryProg Unit := do
  if (← cfgByte .protocol) = 0 then printf "%d," [.int (← perform .curCh)]
  else printf "%d," [.int (← cfgByte .channel)]

/-- Its encryption. -/
def wqsoptEncry : QueryProg Unit := do
  let encry ← cfgByte .encry
  if encry = 0 then printf "none," []
  else if encry = 1 then printf "wep," []
  else if encry = 2 then printf "tkip," []
  else if encry = 3 then printf "ccmp," []
  else if encry = 4 then
    if (← cfgByte .protocol) = 2 then printf "none," [] else printf "auto," []
  else printError invalidCommandNumber

/-- Its authentication. -/
def wqsoptAuthMode : QueryProg Unit := do
  let authMode ← cfgByte .authMode
  if authMode = 0 then printf "open," []
  else if authMode = 1 then printf "share," []
  else if authMode = 2 then printf "wpa," []
  else if authMode = 3 then printf "wpa2," []
  else printError invalidCommandNumber

/-- Its last field: WMM. -/
def wqsoptWmmEn : QueryProg Unit := do
  let wmmEn ← cfgByte .wmmEn
  if wmmEn = 0 then printf "Disable\n\r" []
  else if wmmEn = 1 then printf "Enable\n\r" []
  else pure ()

/-- The query of `responseWQSOPT`. -/
def queryWQSOPT : QueryProg Unit := do
  wqsoptMode
  wqsoptChannel
  wqsoptEncry
  wqsoptAuthMode
  wqsoptWmmEn

/-- `mode_cck_rate`, the texts of the rates of 802.11b. -/
def modeCckRate : List String := ["auto", "1Mbps", "2Mbps", "5.5Mbps", "11Mbps"]

/-- `mode_ofdm_rate`, the texts of the rates of 802.11g. -/
def modeOfdmRate : List String :=
  ["auto", "6Mbps", "9Mbps", "12Mbps", "18Mbps", "24Mbps", "36Mbps", "48Mbps", "54Mbps"]

/-- The query of `responseWTXRATE`.  Behind its strings a table has NULL. -/
def queryWTXRATE : QueryProg Unit := do
  let opt ← perform .rateOpt
  if opt.rateMode = 0 then printf "+OK=%s\n\r" [.str modeCckRate[opt.rateIdx]?]
  else if opt.rateMode = 1 then printf "+OK=%s\n\r" [.str modeOfdmRate[opt.rateIdx]?]
  else printError invalidParameter

/-- The query of `responseWSBCN`. -/
def queryWSBCN : QueryProg Unit := do
  let opt ← perform .beaconOpt
  if opt.notifyPeerEn = 0 then
    printf "+OK=Period:%d  " [.int opt.bcnPrd]
    printf "NotifyPeerEn:DISANBLE\n\r" []
  else if opt.notifyPeerEn = 1 then
    printf "+OK=Period:%d  " [.int opt.bcnPrd]
    printf "NotifyPeerEn:ENABLE\n\r" []
  else printError invalidParameter

/-- The query of `responseWSCAP`. -/
def queryWSCAP : QueryProg Unit := do
  -- The array has 64 elements, and `KeyLength` may be 64.
  perform (.store .psk (← cfgByte .keyLength) 0)
  printf "+OK=%s,%s\n\r" [.array .ssid, .array .psk]

/-- The query of `responseWPHYMODE`. -/
def queryWPHYMODE : QueryProg Unit := do
  let phyMode ← cfgByte .phyMode
  if phyMode = 1 then printf "+OK=PhyMode:b/g\n\r" []
  else if phyMode = 2 then printf "+OK=PhyMode:b\n\r" []
  else printError invalidParameter

/-- The first field of `AT+NQSCNN=?`. -/
def nqscnnProtocol : QueryProg Unit := do
  let socketProtocol ← perform (.user8 .socketProtocol)
  if socketProtocol = 0 then printf "+OK=UDP," []
  else if socketProtocol = 1 then printf "+OK=TCP," []
  else pure ()

/-- Its second field. -/
def nqscnnType : QueryProg Unit := do
  let socketType ← perform (.user8 .socketType)
  if socketType = 1 then printf "server," []
  else if socketType = 0 then printf "client," []
  else pure ()

/-- The query of `responseNQSCNN`. -/
def queryNQSCNN : QueryProg Unit := do
  nqscnnProtocol
  nqscnnType
  printf "%d," [.int (← perform (.user16 .socketPort))]
  printf "%s\n\r" [.inetNtoa (← perform (.user32 .remoteCommIp))]

/-- The first field of `AT+NLOCIP=?`: the interface's address when the link is up, else the one that
    is set. -/
def nlocipAddr : QueryProg Unit := do
  let linkStatus ← perform .linkStatus
  if linkStatus = .linkUp ∨ linkStatus = .scanDone then
    printf "\r\nInet addr:%s    " [.inetNtoa (← perform .netifAddr)]
  else
    printf "+OK=IP:%d.%d.%d.%d\n\r" [.int (← perform (.sysParam .ip 0)),
      .int (← perform (.sysParam .ip 1)), .int (← perform (.sysParam .ip 2)),
      .int (← perform (.sysParam .ip 3))]

/-- Its last field. -/
def nlocipDhcp : QueryProg Unit := do
  let bDhcp ← cfgByte .bDhcp
  if bDhcp = 0 then printf "dhcp:disable" []
  else if bDhcp = 1 then printf "dhcp:enable" []
  else pure ()

/-- The query of `responseNLOCIP`. -/
def queryNLOCIP : QueryProg Unit := do
  nlocipAddr
  nlocipDhcp
  printf " trytimes:%d\n\r" [.int (← cfgByte .dhcpTryTimes)]

end AtQuery

/-- The commands that have a query. -/
inductive Query where
  | baudrate | uartfl | uartft | wqsopt | wtxrate | wsbcn | wscap | wphymode | nqscnn | nlocip
deriving DecidableEq, Repr

namespace Query

/-- The response function of the command. -/
def responseFunction : Query → AtHandler
  | baudrate => .baudrate
  | uartfl => .uartfl
  | uartft => .uartft
  | wqsopt => .wqsopt
  | wtxrate => .wtxrate
  | wsbcn => .wsbcn
  | wscap => .wscap
  | wphymode => .wphymode
  | nqscnn => .nqscnn
  | nlocip => .nlocip

/-- What it does with the argument `?`. -/
def program : Query → QueryProg Unit
  | baudrate => AtQuery.queryBAUDRATE
  | uartfl => AtQuery.queryUARTFL
  | uartft => AtQuery.queryUARTFT
  | wqsopt => AtQuery.queryWQSOPT
  | wtxrate => AtQuery.queryWTXRATE
  | wsbcn => AtQuery.queryWSBCN
  | wscap => AtQuery.queryWSCAP
  | wphymode => AtQuery.queryWPHYMODE
  | nqscnn => AtQuery.queryNQSCNN
  | nlocip => AtQuery.queryNLOCIP

/-- The fields of `SysParam` that it prints. -/
def names : Query → List CfgField
  | wqsopt => [.protocol, .channel, .encry, .authMode, .wmmEn]
  | wscap => [.ssid, .psk]
  | wphymode => [.phyMode]
  | nlocip => [.ip, .bDhcp, .dhcpTryTimes]
  | baudrate | uartfl | uartft | wtxrate | wsbcn | nqscnn => []

end Query

/-! ### Execution -/

/-- What the queries work with. -/
structure QueryState where
  mem : Memory
  /-- The addresses that were stored to. -/
  stores : List ℕ
  printed : List (String × List PrintArg)

/-- The variables that are neither in `SysParam` nor in `UserParam`. -/
structure QueryEnv where
  linkStatus : SysEvtId
  netifAddr : ℕ
  curCh : ℕ
  rateOpt : RateOpt
  beaconOpt : BeaconOpt

/-- What an operation answers, and how it changes the state. -/
def queryStep (env : QueryEnv) (β : Type) (e : QueryOp β) (s : QueryState) : β × QueryState :=
  match e with
  | .sysParam f i => ((s.mem (f.address + i)).toNat, s)
  | .user8 f => ((s.mem f.address).toNat, s)
  | .user16 f => (load16 s.mem f.address, s)
  | .user32 f => (load32 s.mem f.address, s)
  | .store f i b =>
    ((), { s with mem := store8 s.mem (f.address + i) b, stores := s.stores ++ [f.address + i] })
  | .linkStatus => (env.linkStatus, s)
  | .netifAddr => (env.netifAddr, s)
  | .curCh => (env.curCh, s)
  | .rateOpt => (env.rateOpt, s)
  | .beaconOpt => (env.beaconOpt, s)
  | .printf format args => ((), { s with printed := s.printed ++ [(format, args)] })

/-- A query on the memory `m`. -/
def Query.exec (q : Query) (env : QueryEnv) (m : Memory) : QueryState :=
  (q.program.exec (queryStep env) ⟨m, [], []⟩).2

/-- **What a query must not do.** -/
structure ReadsOnly (q : Query) (env : QueryEnv) (m : Memory) : Prop where
  /-- Every byte of `SysParam` and `UserParam` is as before. -/
  unchanged : ∀ a, IsParamByte a → (q.exec env m).mem a = m a
  /-- Every store is inside a field that the query prints. -/
  inside : ∀ a ∈ (q.exec env m).stores, ∃ f ∈ q.names, f.Covers a

/-! ### The queries that store nothing -/

/-- Not a store. -/
@[simp] def NoStore : ∀ β, QueryOp β → Prop
  | _, .store _ _ _ => False
  | _, _ => True

namespace AtQuery

/-- `AT+WQSOPT=?` stores nothing. -/
theorem noStore_wqsopt : All NoStore queryWQSOPT := by
  have hmode : All NoStore wqsoptMode := by simp [wqsoptMode]
  have hchannel : All NoStore wqsoptChannel := by simp [wqsoptChannel]
  have hencry : All NoStore wqsoptEncry := by simp [wqsoptEncry]
  have hauth : All NoStore wqsoptAuthMode := by simp [wqsoptAuthMode]
  have hwmm : All NoStore wqsoptWmmEn := by simp [wqsoptWmmEn]
  exact hmode.bind fun _ => hchannel.bind fun _ => hencry.bind fun _ => hauth.bind fun _ => hwmm

/-- `AT+NQSCNN=?` stores nothing. -/
theorem noStore_nqscnn : All NoStore queryNQSCNN := by
  have hprotocol : All NoStore nqscnnProtocol := by simp [nqscnnProtocol]
  have htype : All NoStore nqscnnType := by simp [nqscnnType]
  exact hprotocol.bind fun _ => htype.bind fun _ => by simp

/-- `AT+NLOCIP=?` stores nothing. -/
theorem noStore_nlocip : All NoStore queryNLOCIP := by
  have haddr : All NoStore nlocipAddr := by simp [nlocipAddr]
  have hdhcp : All NoStore nlocipDhcp := by simp [nlocipDhcp]
  exact haddr.bind fun _ => hdhcp.bind fun _ => by simp

end AtQuery

/-- All queries but one store nothing. -/
theorem noStore_program {q : Query} (h : q ≠ .wscap) : All NoStore q.program := by
  cases q with
  | wscap => exact absurd rfl h
  | baudrate => simp [Query.program, AtQuery.queryBAUDRATE]
  | uartfl => simp [Query.program, AtQuery.queryUARTFL]
  | uartft => simp [Query.program, AtQuery.queryUARTFT]
  | wqsopt => exact AtQuery.noStore_wqsopt
  | wtxrate => simp [Query.program, AtQuery.queryWTXRATE]
  | wsbcn => simp [Query.program, AtQuery.queryWSBCN]
  | wphymode => simp [Query.program, AtQuery.queryWPHYMODE]
  | nqscnn => exact AtQuery.noStore_nqscnn
  | nlocip => exact AtQuery.noStore_nlocip

/-- A program without stores leaves the memory as it is. -/
theorem exec_noStore {α : Type} (env : QueryEnv) {p : QueryProg α} (hp : All NoStore p)
    (s : QueryState) :
    (p.exec (queryStep env) s).2.mem = s.mem ∧ (p.exec (queryStep env) s).2.stores = s.stores := by
  have hstep : ∀ β (e : QueryOp β) (t : QueryState), NoStore β e →
      (t.mem = s.mem ∧ t.stores = s.stores) →
      (queryStep env β e t).2.mem = s.mem ∧ (queryStep env β e t).2.stores = s.stores := by
    intro β e t he ht
    cases e with
    | store f i b => exact he.elim
    | _ => exact ht
  exact exec_invariant hstep hp ⟨rfl, rfl⟩

/-- Such a query only reads. -/
theorem readsOnly_of_ne {q : Query} (h : q ≠ .wscap) (env : QueryEnv) (m : Memory) :
    ReadsOnly q env m := by
  obtain ⟨hmem, hstores⟩ := exec_noStore env (noStore_program h) ⟨m, [], []⟩
  constructor
  case unchanged => exact fun a _ => congrFun hmem a
  case inside =>
    intro a ha
    rw [Query.exec, hstores] at ha
    exact absurd ha List.not_mem_nil

end SerialNet
