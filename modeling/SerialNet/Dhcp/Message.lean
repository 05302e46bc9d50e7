import SerialNet.Lib.Bytes
import SerialNet.Lib.ByteOrder

namespace SerialNet

/-!
# DHCP messages of `dhcp_server.c`

Requests are decoded from, and replies encoded into, the one static buffer `DhcpMsg`.  A
request shorter than `sizeof(DHCP_MSG)` therefore leaves the rest of the previous message
in place, and `_ParseDhcpOptions` may follow an option length past the end of the buffer:
`Memory` here is `DhcpMsg` at address 0 with whatever lies behind it at 548 and above.

Addresses and transaction ids are `UInt32`; IP addresses stay in network order, as the
source keeps them.
-/

/-- A hardware address. -/
abbrev Mac := Vector UInt8 6

/-- The all-zero address that marks a free entry. -/
def zeroMac : Mac := Vector.replicate 6 0

/-! ### Constants of `dhcp_server.h` -/

/-- `sizeof(DHCP_MSG)`, with the 312 bytes of options. -/
def sizeofDhcpMsg : ℕ := 548
/-- `DHCP_MAGIC`, the cookie in front of the options. -/
def dhcpMagic : UInt32 := 0x63825363
/-- `DHCP_HWTYPE_ETHERNET`, the only hardware type the server answers. -/
def dhcpHwtypeEthernet : UInt8 := 1
/-- `DHCP_OP_REQUEST`, the operation of a client's message. -/
def dhcpOpRequest : UInt8 := 1
/-- `DHCP_OP_REPLY`, the operation of the server's. -/
def dhcpOpReply : UInt8 := 2

/-- `DHCP_OPTION_ID_PAD`, a single byte without a length. -/
def dhcpOptionIdPad : UInt8 := 0
/-- `DHCP_OPTION_ID_SUBNET_MASK`. -/
def dhcpOptionIdSubnetMask : UInt8 := 1
/-- `DHCP_OPTION_ID_DEF_GW`, the gateway of the subnet. -/
def dhcpOptionIdDefGw : UInt8 := 3
/-- `DHCP_OPTION_ID_DNS_SERVER`. -/
def dhcpOptionIdDnsServer : UInt8 := 6
/-- `DHCP_OPTION_ID_REQ_IP_ADDR`, the address a client asks for. -/
def dhcpOptionIdReqIpAddr : UInt8 := 50
/-- `DHCP_OPTION_ID_LEASE_TIME`, in seconds. -/
def dhcpOptionIdLeaseTime : UInt8 := 51
/-- `DHCP_OPTION_ID_MSG_TYPE`, one of the types below. -/
def dhcpOptionIdMsgType : UInt8 := 53
/-- `DHCP_OPTION_ID_SERVER_ID`, the server a REQUEST is for. -/
def dhcpOptionIdServerId : UInt8 := 54
/-- `DHCP_OPTION_ID_END`, the last option. -/
def dhcpOptionIdEnd : UInt8 := 255

/-- `DHCP_MSG_DISCOVER`, a client looks for servers. -/
def dhcpMsgDiscover : UInt8 := 1
/-- `DHCP_MSG_OFFER`, the answer to a DISCOVER. -/
def dhcpMsgOffer : UInt8 := 2
/-- `DHCP_MSG_REQUEST`, a client takes an address or renews it. -/
def dhcpMsgRequest : UInt8 := 3
/-- `DHCP_MSG_DECLINE`, the address is in use already. -/
def dhcpMsgDecline : UInt8 := 4
/-- `DHCP_MSG_ACK`, a REQUEST is granted. -/
def dhcpMsgAck : UInt8 := 5
/-- `DHCP_MSG_NAK`, a REQUEST is refused. -/
def dhcpMsgNak : UInt8 := 6
/-- `DHCP_MSG_RELEASE`, a client gives its address back. -/
def dhcpMsgRelease : UInt8 := 7

/-! ### Field offsets of `DHCP_MSG` -/

/-- `HType`, the type of the hardware address. -/
def offHType : ℕ := 1
/-- `HLen`, its length. -/
def offHLen : ℕ := 2
/-- `Xid`, the transaction id, which a reply repeats. -/
def offXid : ℕ := 4
/-- `Yiaddr`, the address that is given to the client. -/
def offYiaddr : ℕ := 16
/-- `Siaddr`, the address of the server. -/
def offSiaddr : ℕ := 20
/-- `Chaddr`, the hardware address of the client. -/
def offChaddr : ℕ := 28
/-- `Magic`, in front of the options. -/
def offMagic : ℕ := 236
/-- `Options`, up to the end of the message. -/
def offOptions : ℕ := 240

/-! ### Requests -/

/-- `pbuf_copy_partial(P, &DhcpMsg, sizeof(DHCP_MSG), 0)`: the number of bytes copied and the
    buffer afterwards. -/
def pbufCopyPartial (payload : List UInt8) (dst : Memory) (len : ℕ) : ℕ × Memory :=
  (min payload.length len, storeBytes dst 0 (payload.take len))

/-- The variables `_ParseDhcpOptions` fills: its three out parameters and `Ret`. -/
structure DhcpOptions where
  msgType : UInt8
  reqIpAddr : UInt32
  serverId : UInt32
  ret : UInt8
deriving DecidableEq, Repr

/-- One turn of the option loop at `p`: the next position and the variables. -/
def parseDhcpOption (m : Memory) (p : ℕ) (o : DhcpOptions) : ℕ × DhcpOptions :=
  if m p = dhcpOptionIdPad then (p + 1, o)
  else
    -- The length byte is not compared with what is left of the buffer.
    let len := (m (p + 1)).toNat
    if m p = dhcpOptionIdMsgType then
      -- The value is read whatever the length says, also when it is 0.
      (p + 2 + len, { o with msgType := m (p + 2), ret := o.ret ||| 0x01 })
    else if m p = dhcpOptionIdReqIpAddr then
      (p + 2 + len, { o with reqIpAddr := .ofNat (load32 m (p + 2)), ret := o.ret ||| 0x02 })
    else if m p = dhcpOptionIdServerId then
      (p + 2 + len, { o with serverId := .ofNat (load32 m (p + 2)), ret := o.ret ||| 0x04 })
    else (p + 2 + len, o)

/-- The option loop; `fuel` bounds its turns. -/
def parseDhcpLoop (m : Memory) : ℕ → ℕ → DhcpOptions → DhcpOptions
  | 0, _, o => o
  | fuel + 1, p, o =>
      if m p ≠ dhcpOptionIdEnd ∧ p < sizeofDhcpMsg then
        parseDhcpLoop m fuel (parseDhcpOption m p o).1 (parseDhcpOption m p o).2
      else o

/-- `_ParseDhcpOptions`, with the initial values its caller gives the out parameters.  Each
    turn advances, so as many turns as `Options` has bytes are enough. -/
def parseDhcpOptions (m : Memory) : DhcpOptions :=
  parseDhcpLoop m (sizeofDhcpMsg - offOptions) offOptions ⟨0xff, 0, 0, 0⟩

/-- Every turn advances. -/
theorem lt_parseDhcpOption (m : Memory) (p : ℕ) (o : DhcpOptions) :
    p < (parseDhcpOption m p o).1 := by
  unfold parseDhcpOption
  split_ifs <;> simp only <;> omega

/-- The loop ends before the fuel does: more fuel changes nothing. -/
theorem parseDhcpLoop_fuel (m : Memory) {fuel : ℕ} (extra : ℕ) {p : ℕ} {o : DhcpOptions}
    (h : sizeofDhcpMsg - p ≤ fuel) :
    parseDhcpLoop m (fuel + extra) p o = parseDhcpLoop m fuel p o := by
  induction fuel generalizing p o with
  | zero =>
    have hend : ¬ (m p ≠ dhcpOptionIdEnd ∧ p < sizeofDhcpMsg) := by omega
    cases extra with
    | zero => rfl
    | succ n => rw [Nat.zero_add]; exact if_neg hend
  | succ fuel ih =>
    rw [Nat.add_right_comm, parseDhcpLoop, parseDhcpLoop]
    split
    · exact ih (by have := lt_parseDhcpOption m p o; omega)
    · rfl

/-- The parts of a request that the server acts on. -/
structure DhcpRequest where
  msgType : UInt8
  reqIpAddr : UInt32
  serverId : UInt32
  xid : UInt32
  macAddr : Mac
deriving DecidableEq, Repr

/-- The filter and the decoding of `DHCPS_RecvCb`, after `MsgLen` bytes were copied. -/
def decodeRequest (msgLen : ℕ) (m : Memory) : Option DhcpRequest :=
  if msgLen = 0 ∨ m 0 ≠ dhcpOpRequest ∨ ntohl (.ofNat (load32 m offMagic)) ≠ dhcpMagic ∨
      m offHType ≠ dhcpHwtypeEthernet then none
  else
    let o := parseDhcpOptions m
    if o.ret &&& 0x01 = 0 then none
    else some { msgType := o.msgType
                reqIpAddr := o.reqIpAddr
                serverId := o.serverId
                xid := ntohl (.ofNat (load32 m offXid))
                macAddr := .ofFn fun i => m (offChaddr + i) }

/-! ### Replies -/

/-- The fields that tell the three generated replies apart. -/
structure DhcpReply where
  msgType : UInt8
  xid : UInt32
  yiaddr : UInt32
  siaddr : UInt32
  chaddr : Mac
  /-- The bytes of `Options`, up to and including the end mark. -/
  options : List UInt8
deriving DecidableEq, Repr

/-- `DHCP_SET_OPTION_MSG_TYPE`. -/
def setOptionMsgType (type : UInt8) : List UInt8 := [dhcpOptionIdMsgType, 1, type]

/-- The common shape of the options with a four-byte value. -/
def setOptionWord (id : UInt8) (x : UInt32) : List UInt8 := id :: 4 :: wordBytes x.toNat

/-- `DHCP_SET_OPTION_SUBNET_MASK`. -/
def setOptionSubnetMask (mask : UInt32) : List UInt8 := setOptionWord dhcpOptionIdSubnetMask mask

/-- `DHCP_SET_OPTION_GW`. -/
def setOptionGw (gw : UInt32) : List UInt8 := setOptionWord dhcpOptionIdDefGw gw

/-- `DHCP_SET_OPTION_DNS`. -/
def setOptionDns (dns : UInt32) : List UInt8 := setOptionWord dhcpOptionIdDnsServer dns

/-- `DHCP_SET_OPTION_SERVER_ID`. -/
def setOptionServerId (ip : UInt32) : List UInt8 := setOptionWord dhcpOptionIdServerId ip

/-- `DHCP_SET_OPTION_LEASE_TIME`. -/
def setOptionLeaseTime (time : UInt32) : List UInt8 :=
  setOptionWord dhcpOptionIdLeaseTime (ntohl time)

/-- `DHCP_SET_OPTION_END`. -/
def setOptionEnd : List UInt8 := [dhcpOptionIdEnd]

/-- `DhcpMsg` after a reply was generated in it: cleared, then header and options written. -/
def DhcpReply.store (r : DhcpReply) (m : Memory) : Memory :=
  -- `memset(&DhcpMsg, 0, sizeof(DHCP_MSG))`
  let m : Memory := fun p => if p < sizeofDhcpMsg then 0 else m p
  let m := store8 m 0 dhcpOpReply
  let m := store8 m offHType dhcpHwtypeEthernet
  let m := store8 m offHLen 6
  let m := store32 m offXid (ntohl r.xid).toNat
  let m := store32 m offYiaddr r.yiaddr.toNat
  let m := store32 m offSiaddr r.siaddr.toNat
  let m := storeBytes m offChaddr r.chaddr.toList
  let m := store32 m offMagic (ntohl dhcpMagic).toNat
  storeBytes m offOptions r.options

end SerialNet
