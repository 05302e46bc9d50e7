import Mathlib.Logic.Function.Basic
import Mathlib.Data.List.FinRange
import SerialNet.Dhcp.Message

namespace SerialNet

/-!
# The DHCP server of `dhcp_server.c`

A state `Dhcp` is the static `DhcpServer` with its table of eight entries, and the static
message buffer `DhcpMsg`.  An event is a received UDP payload, a one-second tick, or a call
of `DHCPS_ClientDelete`; `dhcpStep` performs it and gives the reply that was sent, if any.
What the server cannot know is part of the event: the memory behind `DhcpMsg`, whether
`pbuf_alloc` succeeds, and the answers of `APGetStationStatus`.
-/

/-- `DHCP_CLIENT_STATE`. -/
inductive DhcpClientState where
  | idle | select | request | bind
deriving DecidableEq, Repr

/-- `DHCP_CLIENT`: one address of the pool and who holds it. -/
structure DhcpClient where
  state : DhcpClientState
  timeout : ℕ
  ipAddr : UInt32
  macAddr : Mac
  lease : ℕ
deriving DecidableEq, Repr

/-- `DhcpServer.Clients`, of `DHCPS_HISTORY_CLIENT_NUM` entries. -/
abbrev ClientTable := Fin 8 → DhcpClient

/-- `DHCP_SERVER`; the socket is not used by the message logic. -/
structure DhcpServer where
  enable : Bool
  serverIpAddr : UInt32
  startIpAddr : UInt32
  subnetMask : UInt32
  gateWay : UInt32
  dns1 : UInt32
  leaseTime : ℕ
  clients : ClientTable

/-- `DHCP_DEFAULT_LEASE_TIME`, ten years in seconds ("almost infinite"). -/
def dhcpDefaultLeaseTime : ℕ := 3600 * 24 * 365 * 10
/-- `DHCP_DEFFAULT_TIMEOUT`, the ticks of one second that an offer is kept. -/
def dhcpDefaultTimeout : ℕ := 10

/-- `DHCPS_ERR_SUCCESS`. -/
def dhcpsErrSuccess : ℤ := 0
/-- `DHCPS_ERR_LINKDOWN`, the interface is down. -/
def dhcpsErrLinkdown : ℤ := -1
/-- `DHCPS_ERR_PARAM`, an argument is wrong. -/
def dhcpsErrParam : ℤ := -2
/-- `DHCPS_ERR_MEM`, there is no block left. -/
def dhcpsErrMem : ℤ := -3
/-- `DHCPS_ERR_NOT_BIND`, the entry has no address that is bound. -/
def dhcpsErrNotBind : ℤ := -4
/-- `DHCPS_ERR_NOT_FOUND`, no entry has the hardware address. -/
def dhcpsErrNotFound : ℤ := -5
/-- `DHCPS_ERR_INACTIVE`, the server has not been started. -/
def dhcpsErrInactive : ℤ := -6

/-! ### `DHCPS_Start` -/

/-- The fields of the network interface that the server reads. -/
structure Netif where
  up : Bool
  ipAddr : UInt32
  netmask : UInt32

/-- The address `offset` host numbers after `val` in its subnet, where the host number is
    taken modulo `~Mask` and 0 is replaced by 1.  All three are in host order. -/
def hostAfter (val mask offset : UInt32) : UInt32 :=
  let tmp := val &&& ~~~mask
  let tmp := if (tmp + offset) % ~~~mask ≠ 0 then (tmp + offset) % ~~~mask else 1
  (val &&& mask) ||| tmp

/-- `DHCPS_Start`; `udpNew` says that `udp_new` succeeded.  A netmask of all ones divides by
    zero: no result. -/
def dhcpsStart (netif : Netif) (udpNew : Bool) (s : DhcpServer) : Option (DhcpServer × ℤ) :=
  if ¬ netif.up then some (s, dhcpsErrLinkdown)
  else
    let mask := ntohl netif.netmask
    -- `% (~Mask)` divides by zero.
    if ~~~mask = 0 then none
    else
      let start := ntohl (hostAfter (ntohl netif.ipAddr) mask 1)
      let s : DhcpServer :=
        { enable := false
          serverIpAddr := netif.ipAddr
          startIpAddr := start
          subnetMask := netif.netmask
          gateWay := netif.ipAddr
          dns1 := netif.ipAddr
          leaseTime := dhcpDefaultLeaseTime
          clients := fun i =>
            { state := .idle
              timeout := 0
              ipAddr := ntohl (hostAfter (ntohl start) mask (.ofNat i))
              macAddr := zeroMac
              lease := dhcpDefaultLeaseTime } }
      if ¬ udpNew then some (s, dhcpsErrMem)
      else some ({ s with enable := true }, dhcpsErrSuccess)

/-! ### `_DhcpTickHandle` -/

/-- The tick at one entry; `present` is the answer of `APGetStationStatus` for its client. -/
def tickClient (c : DhcpClient) (present : Bool) : DhcpClient :=
  if c.state = .request then
    -- A timeout that is already 0 stays 0 and the entry keeps its client.
    if c.timeout ≠ 0 ∧ c.timeout - 1 = 0 then
      { c with timeout := 0, macAddr := zeroMac, state := .idle }
    else { c with timeout := c.timeout - 1 }
  else if c.state = .bind then
    if c.lease ≠ 0 ∧ c.lease - 1 = 0 then { c with lease := 0, state := .idle }
    -- A client that has left the access point loses its lease but stays as history.
    else if ¬ present then { c with lease := c.lease - 1, state := .idle }
    else { c with lease := c.lease - 1 }
  else c

/-- `_DhcpTickHandle`. -/
def dhcpTickHandle (s : DhcpServer) (present : Fin 8 → Bool) : DhcpServer :=
  if ¬ s.enable then s
  else { s with clients := fun i => tickClient (s.clients i) (present i) }

/-! ### `_ClientTableLookup` -/

/-- The pointers and the flag that the scan over the table sets. -/
structure Scan where
  freeClient : Option (Fin 8)
  reqClient : Option (Fin 8)
  historyClient : Option (Fin 8)
  myHistoryClient : Option (Fin 8)
  myClient : Option (Fin 8)
  ipUnavailable : Bool
deriving DecidableEq, Repr

/-- The body of the scan at entry `i`. -/
def scanClient (t : ClientTable) (mac : Mac) (reqIpAddr : UInt32) (r : Scan) (i : Fin 8) : Scan :=
  if (t i).state = .idle then
    { r with
      myHistoryClient :=
        if r.myHistoryClient = none ∧ (t i).macAddr = mac then some i else r.myHistoryClient
      reqClient := if r.reqClient = none ∧ (t i).ipAddr = reqIpAddr then some i else r.reqClient
      freeClient :=
        if r.freeClient = none ∧ (t i).macAddr = zeroMac then some i else r.freeClient
      historyClient :=
        if r.historyClient = none ∧ (t i).macAddr ≠ zeroMac then some i else r.historyClient }
  -- A later entry of the same client overrides an earlier one.
  else if (t i).macAddr = mac then { r with myClient := some i }
  else if (t i).ipAddr = reqIpAddr then { r with ipUnavailable := true }
  else r

/-- The scan over the whole table. -/
def scanClients (t : ClientTable) (mac : Mac) (reqIpAddr : UInt32) : Scan :=
  (List.finRange 8).foldl (scanClient t mac reqIpAddr) ⟨none, none, none, none, none, false⟩

/-- End a negotiation or a lease: only an entry that was bound keeps its client as history. -/
def dropClient (c : DhcpClient) : DhcpClient :=
  { c with macAddr := if c.state ≠ .bind then zeroMac else c.macAddr, state := .idle }

/-- The `DHCP_MSG_DISCOVER` branch: the table and `pReturnClient`.  `State` is `IDLE` by the
    time it is compared with `BIND`, so a client that asks for another address always loses
    its entry. -/
def lookupDiscover (t : ClientTable) (r : Scan) : ClientTable × Option (Fin 8) :=
  match r.myClient with
  | some my =>
      -- The address is given back before another one is looked for.
      let t := Function.update t my { t my with state := .idle }
      match r.reqClient with
      | some req => (Function.update t my (dropClient (t my)), some req)
      | none => (t, some my)
  -- The order of preference: asked for, had before, never given, given to somebody else.
  | none => (t, r.reqClient <|> r.myHistoryClient <|> r.freeClient <|> r.historyClient)

/-- The `DHCP_MSG_REQUEST` branch; `accepted` says that the server id is 0 or our own. -/
def lookupRequest (t : ClientTable) (r : Scan) (accepted : Bool) :
    ClientTable × Option (Fin 8) :=
  match r.myClient with
  | some my =>
      if r.ipUnavailable then (Function.update t my (dropClient (t my)), none)
      else match r.reqClient with
        | some req =>
            -- The client changes to a free address; its old entry is dropped even when another
            -- server is selected.
            (Function.update t my (dropClient (t my)), if accepted then some req else none)
        | none => (t, if accepted then some my else none)
  | none =>
      if r.ipUnavailable then (t, none)
      else (t, if accepted then r.reqClient else none)

/-- The `DHCP_MSG_RELEASE` and `DHCP_MSG_DECLINE` branches. -/
def lookupRelease (t : ClientTable) (r : Scan) : ClientTable × Option (Fin 8) :=
  match r.myClient with
  | some my => (Function.update t my (dropClient (t my)), none)
  | none => (t, none)

/-- The server id of a `REQUEST` names this server or none. -/
def serverAccepted (s : DhcpServer) (q : DhcpRequest) : Bool :=
  q.serverId = 0 ∨ s.serverIpAddr = q.serverId

/-- The `switch` of `_ClientTableLookup`. -/
def lookupBranch (s : DhcpServer) (q : DhcpRequest) : ClientTable × Option (Fin 8) :=
  let r := scanClients s.clients q.macAddr q.reqIpAddr
  if q.msgType = dhcpMsgDiscover then lookupDiscover s.clients r
  else if q.msgType = dhcpMsgRequest then lookupRequest s.clients r (serverAccepted s q)
  else if q.msgType = dhcpMsgRelease then lookupRelease s.clients r
  else if q.msgType = dhcpMsgDecline then lookupRelease s.clients r
  -- `default`: INFORM and the types a server sends.
  else (s.clients, none)

/-- `_ClientTableLookup`: the entry found takes the client's address. -/
def clientTableLookup (s : DhcpServer) (q : DhcpRequest) : ClientTable × Option (Fin 8) :=
  match lookupBranch s q with
  | (t, some i) => (Function.update t i { t i with macAddr := q.macAddr }, some i)
  | (t, none) => (t, none)

/-! ### Replies and the state machine of an entry -/

/-- `_DHCPNakGenAndSend`; nothing is sent when `pbuf_alloc` fails. -/
def dhcpNakGenAndSend (s : DhcpServer) (alloc : Bool) (mac : Mac) (xid : UInt32) :
    Option DhcpReply :=
  if ¬ alloc then none
  else some { msgType := dhcpMsgNak, xid := xid, yiaddr := 0, siaddr := s.serverIpAddr
              chaddr := mac, options := setOptionMsgType dhcpMsgNak ++ setOptionEnd }

/-- The common body of the two replies that give an address. -/
def addressReply (s : DhcpServer) (type : UInt8) (alloc : Bool) (c : DhcpClient) (mac : Mac)
    (xid : UInt32) : Option DhcpReply :=
  if ¬ alloc then none
  else some { msgType := type, xid := xid, yiaddr := c.ipAddr, siaddr := 0, chaddr := mac
              options := setOptionMsgType type
                ++ setOptionLeaseTime (.ofNat dhcpDefaultLeaseTime)
                ++ setOptionServerId s.serverIpAddr ++ setOptionSubnetMask s.subnetMask
                ++ setOptionGw s.gateWay ++ setOptionDns s.dns1 ++ setOptionEnd }

/-- `_DHCPAckGenAndSend`. -/
def dhcpAckGenAndSend (s : DhcpServer) := addressReply s dhcpMsgAck

/-- `_DHCPOfferGenAndSend`. -/
def dhcpOfferGenAndSend (s : DhcpServer) := addressReply s dhcpMsgOffer

/-- `_CleanClientHistory`. -/
def cleanClientHistory (t : ClientTable) (mac : Mac) : ClientTable := fun i =>
  if (t i).state = .idle ∧ (t i).macAddr = mac then { t i with macAddr := zeroMac } else t i

/-- Send an ACK for entry `i`, bind it and clean its client's history. -/
def bindClient (s : DhcpServer) (alloc : Bool) (i : Fin 8) (xid : UInt32) :
    DhcpServer × Option DhcpReply :=
  let c := s.clients i
  let t := Function.update s.clients i { c with lease := dhcpDefaultLeaseTime, state := .bind }
  ({ s with clients := cleanClientHistory t c.macAddr },
    dhcpAckGenAndSend s alloc c c.macAddr xid)

/-- Send an OFFER for entry `i` and start its timeout. -/
def offerClient (s : DhcpServer) (alloc : Bool) (i : Fin 8) (xid : UInt32) :
    DhcpServer × Option DhcpReply :=
  let c := s.clients i
  ({ s with clients := Function.update s.clients i
              { c with timeout := dhcpDefaultTimeout, state := .request } },
    dhcpOfferGenAndSend s alloc c c.macAddr xid)

/-- `_DhcpClientSMEHandle`.  An idle entry and a message that is neither DISCOVER nor REQUEST
    fall through to the `SELECT` case. -/
def dhcpClientSmeHandle (s : DhcpServer) (alloc : Bool) (i : Fin 8) (msgType : UInt8)
    (xid : UInt32) : DhcpServer × Option DhcpReply :=
  match (s.clients i).state with
  | .idle =>
      if msgType = dhcpMsgDiscover then
        offerClient { s with clients := Function.update s.clients i
                               { s.clients i with state := .select } } alloc i xid
      else if msgType = dhcpMsgRequest then bindClient s alloc i xid
      else offerClient s alloc i xid
  | .select => offerClient s alloc i xid
  | .request => bindClient s alloc i xid
  | .bind => bindClient s alloc i xid

/-! ### `DHCPS_RecvCb`, `DHCPS_ClientDelete` and the step function -/

/-- The second half of `DHCPS_RecvCb`, for a decoded request. -/
def handleRequest (s : DhcpServer) (alloc : Bool) (q : DhcpRequest) :
    DhcpServer × Option DhcpReply :=
  match clientTableLookup s q with
  | (t, none) =>
      ({ s with clients := t },
        -- `DHCP_MSG_RELEASE` and `DHCP_MSG_DECLINE` expect no answer; every other failure is a NAK.
        if q.msgType ≠ dhcpMsgRelease ∧ q.msgType ≠ dhcpMsgDecline then
          dhcpNakGenAndSend s alloc q.macAddr q.xid
        else none)
  | (t, some i) => dhcpClientSmeHandle { s with clients := t } alloc i q.msgType q.xid

/-- The server with its message buffer. -/
structure Dhcp where
  server : DhcpServer
  msg : Memory

/-- `DhcpMsg` with a received payload copied over it, and the bytes that lie behind it. -/
def receivedMsg (s : Dhcp) (payload : List UInt8) (beyond : Memory) : ℕ × Memory :=
  pbufCopyPartial payload (fun p => if p < sizeofDhcpMsg then s.msg p else beyond p)
    sizeofDhcpMsg

/-- The request that `DHCPS_RecvCb` reads from a payload in the present state. -/
def receivedRequest (s : Dhcp) (payload : List UInt8) (beyond : Memory) : Option DhcpRequest :=
  decodeRequest (receivedMsg s payload beyond).1 (receivedMsg s payload beyond).2

/-- `DHCPS_RecvCb`. -/
def dhcpsRecvCb (s : Dhcp) (payload : List UInt8) (beyond : Memory) (alloc : Bool) :
    Dhcp × Option DhcpReply :=
  let msg := (receivedMsg s payload beyond).2
  match receivedRequest s payload beyond with
  | none => ({ s with msg := msg }, none)
  | some q =>
      let r := handleRequest s.server alloc q
      -- A reply is built in the buffer the request was read from.
      ({ server := r.1, msg := (r.2.map fun reply => reply.store msg).getD msg }, r.2)

/-- `DHCPS_ClientDelete`; a null pointer is `none`. -/
def dhcpsClientDelete (s : DhcpServer) (mac : Option Mac) : DhcpServer × ℤ :=
  if ¬ s.enable then (s, dhcpsErrInactive)
  else match mac with
    | none => (s, dhcpsErrParam)
    | some mac =>
        match (List.finRange 8).find? fun i =>
            (s.clients i).state ≠ .idle ∧ (s.clients i).macAddr = mac with
        | none => (s, dhcpsErrNotFound)
        | some i =>
            if (s.clients i).state ≠ .bind then (s, dhcpsErrNotBind)
            else ({ s with clients := Function.update s.clients i
                             { s.clients i with state := .idle } }, dhcpsErrSuccess)

/-- What can happen to the running server. -/
inductive DhcpEvent where
  | recv (payload : List UInt8) (beyond : Memory) (alloc : Bool)
  | tick (present : Fin 8 → Bool)
  | clientDelete (mac : Option Mac)

/-- Perform one event; the result is the reply that was sent. -/
def dhcpStep (s : Dhcp) : DhcpEvent → Dhcp × Option DhcpReply
  | .recv payload beyond alloc => dhcpsRecvCb s payload beyond alloc
  | .tick present => ({ s with server := dhcpTickHandle s.server present }, none)
  | .clientDelete mac => ({ s with server := (dhcpsClientDelete s.server mac).1 }, none)

/-- `DhcpServer` before the first start. -/
def clearedServer : DhcpServer :=
  { enable := false, serverIpAddr := 0, startIpAddr := 0, subnetMask := 0, gateWay := 0, dns1 := 0
    leaseTime := 0
    clients := fun _ => { state := .idle, timeout := 0, ipAddr := 0, macAddr := zeroMac, lease := 0 } }

/-- The states right after a successful `DHCPS_Start`, with anything in `DhcpMsg`. -/
def DhcpStarted (s : Dhcp) : Prop :=
  ∃ netif udpNew old, dhcpsStart netif udpNew old = some (s.server, dhcpsErrSuccess)

end SerialNet
