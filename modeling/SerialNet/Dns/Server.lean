import SerialNet.Lib.CInt
import SerialNet.Lib.CString
import SerialNet.Dhcp.Server

namespace SerialNet

/-!
# The DNS server of `dns_server.c`

The state is the static `DnsServer`, kept as memory because `_DnsCompareName` walks through
`DnsName` with a pointer: `Socket` at address 0, `DnsName` at 4, `HostIp` at 36, and whatever lies
behind the structure from 40 on.  A received message is copied to a block of the heap, at
address 0 of a memory of its own.  `strlen` is the one of `os_core.c`, which stops after 4095
characters.  `_DnsCompareName` has no such bound: `behind` is the number of bytes that can be read
behind the block, and a comparison that goes on for longer than that has no result.

Values of 16 bits stay in network order, as the source keeps them.
-/

/-- `htons` and `ntohs` on the little-endian processor. -/
def htons (n : ℕ) : ℕ := n % 256 * 256 + n / 256 % 256

/-! ### Constants of `dns_server.h` -/

/-- `DNS_DEFAULT_TTL`, one hour in seconds. -/
def dnsDefaultTtl : UInt32 := 3600
/-- `DNS_RRTYPE_A`, a host address. -/
def dnsRrtypeA : ℕ := 1
/-- `DNS_RRCLASS_IN`, the Internet. -/
def dnsRrclassIn : ℕ := 1
/-- `DNS_FLAG1_RESPONSE`, set in a reply. -/
def dnsFlag1Response : UInt8 := 0x80
/-- `DNS_FLAG1_OPCODE_STANDARD`, the only kind of query that is answered. -/
def dnsFlag1OpcodeStandard : UInt8 := 0x00
/-- `DNS_FLAG2_ERR_MASK`, the response code. -/
def dnsFlag2ErrMask : UInt8 := 0x0f
/-- `DNS_FLAG2_ERR_NONE`. -/
def dnsFlag2ErrNone : UInt8 := 0x00
/-- `DNS_FLAG2_ERR_NAME`: there is no such name. -/
def dnsFlag2ErrName : UInt8 := 0x03
/-- `DNS_NAME_OFFSET`, the mark of a pointer to a name. -/
def dnsNameOffset : ℕ := 0xC000

/-- `DNSS_ERR_SUCCESS`. -/
def dnssErrSuccess : ℤ := 0
/-- `DNSS_ERR_LINKDOWN`, the interface is down. -/
def dnssErrLinkdown : ℤ := -1
/-- `DNSS_ERR_PARAM`, an argument is wrong. -/
def dnssErrParam : ℤ := -2
/-- `DNSS_ERR_MEM`. -/
def dnssErrMem : ℤ := -3

/-! ### Field offsets of `DNS_SERVER` and `DNS_HEADER` -/

/-- `DnsName`, the configured name. -/
def offDnsName : ℕ := 4
/-- `HostIp`, the address it stands for. -/
def offHostIp : ℕ := 36
/-- `sizeof(DNS_SERVER)`. -/
def sizeofDnsServer : ℕ := 40
/-- `Flag1`, the byte that tells a query from a response. -/
def offDnsFlag1 : ℕ := 2
/-- `sizeof(DNS_HEADER)`, in front of the question. -/
def sizeofDnsHeader : ℕ := 12

/-! ### `strlen` -/

/-- `DEF_STRLEN_MAX_VAL`. -/
def defStrlenMaxVal : ℕ := 4095

/-- `Str_Len_N`. -/
def strLenN (m : Memory) : ℕ → ℕ → ℕ
  | 0, _ => 0
  | lenMax + 1, pstr => if m pstr = 0 then 0 else strLenN m lenMax (pstr + 1) + 1

/-- `strlen`. -/
def strlen (m : Memory) (pstr : ℕ) : ℕ := strLenN m defStrlenMaxVal pstr

/-- The count stops at the bound. -/
theorem strLenN_le (m : Memory) (lenMax p : ℕ) : strLenN m lenMax p ≤ lenMax := by
  induction lenMax generalizing p with
  | zero => exact le_rfl
  | succ lenMax ih =>
    rw [strLenN]
    split
    · exact Nat.zero_le _
    · exact Nat.succ_le_succ (ih (p + 1))

/-- Of a string whose first bytes are `xs`, `Str_Len_N` counts the characters up to the NUL and to
    its bound, as far as these bytes tell. -/
theorem min_strLenN_length {m : Memory} (lenMax : ℕ) {p : ℕ} {xs : List UInt8}
    (h : BytesAt m p xs) :
    min (strLenN m lenMax p) xs.length = min (xs.takeWhile (· ≠ 0)).length lenMax := by
  induction lenMax generalizing p xs with
  | zero => simp [strLenN]
  | succ lenMax ih =>
    cases xs with
    | nil => simp
    | cons x xs =>
      have hx : m p = x := h.1
      rw [strLenN, hx, List.takeWhile_cons]
      by_cases hzero : x = 0
      · simp [hzero]
      · have hrest := ih h.2
        rw [if_neg hzero, if_pos (decide_eq_true hzero), List.length_cons, List.length_cons,
          Nat.add_min_add_right, Nat.add_min_add_right, hrest]

/-- `strlen` of a string with its NUL. -/
theorem strlen_of_bytesAt {m : Memory} {p : ℕ} {xs : List UInt8} (h : BytesAt m p (xs ++ [0]))
    (hnul : 0 ∉ xs) : strlen m p = min xs.length defStrlenMaxVal := by
  have hmin := min_strLenN_length defStrlenMaxVal h
  have htake : (xs ++ [0]).takeWhile (· ≠ 0) = xs := by
    have hall : ∀ x ∈ xs, decide (x ≠ 0) = true := fun x hx =>
      decide_eq_true fun h0 => hnul (h0 ▸ hx)
    rw [List.takeWhile_append_of_pos hall]
    simp
  rw [htake, List.length_append, List.length_singleton] at hmin
  unfold strlen
  omega

/-! ### `DNSS_Config` and `DNSS_Start` -/

/-- `DNSS_Config`; a null pointer is `none`. -/
def dnssConfig (s : Memory) : Option (List UInt8) → Memory × ℤ
  | none => (s, dnssErrParam)
  | some dnsName =>
      if dnsName.length > 32 then (s, dnssErrParam)
      else
        let s : Memory := storeBytes s offDnsName (List.replicate 32 0)
        (storeBytes s offDnsName dnsName, dnssErrSuccess)

/-- `DNSS_Start`; `socket` is the address that `udp_new` returned, 0 when it failed. -/
def dnssStart (netif : Netif) (socket : ℕ) (dnsName : List UInt8) (s : Memory) : Memory × ℤ :=
  if dnsName.length > 32 then (s, dnssErrParam)
  else if ¬ netif.up then (s, dnssErrLinkdown)
  else
    let s := storeBytes s 0 (List.replicate sizeofDnsServer 0)
    let s := storeBytes s offDnsName dnsName
    let s := store32 s offHostIp netif.ipAddr.toNat
    let s := store32 s 0 socket
    (s, if socket = 0 then dnssErrMem else dnssErrSuccess)

/-! ### `_DnsCompareName` -/

/-- The inner loop over the `n` characters of a label: the two pointers behind it, or nothing when
    a character differs. -/
def dnsCompareLabel (s m : Memory) : ℕ → ℕ → ℕ → Option (ℕ × ℕ)
  | 0, myDns, query => some (myDns, query)
  | n + 1, myDns, query =>
      if toupper (s myDns) ≠ toupper (m query) then none
      else dnsCompareLabel s m n (myDns + 1) (query + 1)

/-- The loop over the labels; `fuel` bounds its turns, and each turn reads a length at `query`. -/
def dnsCompareLoop (s m : Memory) : ℕ → ℕ → ℕ → Option ℤ
  | 0, _, _ => none
  | fuel + 1, myDns, query =>
      -- `return ((*(--MyDns) == 0) ? 0 : 1);`
      let ends (myDns : ℕ) : ℤ := if s (myDns - 1) = 0 then 0 else 1
      if m query &&& 0xc0 = 0xc0 then some (ends myDns)
      else match dnsCompareLabel s m (m query).toNat myDns (query + 1) with
        | none => some 1
        | some (myDns, query) =>
            if m query ≠ 0 then dnsCompareLoop s m fuel (myDns + 1) query
            else some (ends (myDns + 1))

/-- `_DnsCompareName(DnsServer.DnsName, Query)`; `fuel` bounds the turns of the loop. -/
def dnsCompareName (s m : Memory) (fuel query : ℕ) : Option ℤ :=
  if u32 (strlen m query - 1) > 32 then some 1
  else dnsCompareLoop s m fuel offDnsName query

/-! ### Replies -/

/-- `DNS_QUERY`. -/
structure DnsQuery where
  rrType : ℕ
  rrClass : ℕ
deriving DecidableEq, Repr

/-- The answer record, from the offset of its name to the address. -/
structure DnsAnswer where
  name : ℕ
  rrType : ℕ
  rrClass : ℕ
  ttl : UInt32
  length : ℕ
  ipAddr : ℕ
deriving DecidableEq, Repr

/-- A message that was sent: the header, the question and at most one answer. -/
structure DnsReply where
  tansactionId : ℕ
  dnsFlag1 : UInt8
  dnsFlag2 : UInt8
  quentions : ℕ
  answerRR : ℕ
  authorityRR : ℕ
  additionalRR : ℕ
  queryName : List UInt8
  query : DnsQuery
  answer : Option DnsAnswer
deriving DecidableEq, Repr

/-- Which allocations succeed: the block for the received message, the one for the reply, and the
    packet buffer. -/
structure DnsAlloc where
  msg : Bool
  reply : Bool
  pbuf : Bool

/-- `_DNSNameErrGenAndSend`; `queryName` are the `strlen(QueryName) + 1` bytes that are copied from
    the name. -/
def dnsNameErrGenAndSend (alloc : DnsAlloc) (query : DnsQuery) (queryName : List UInt8)
    (tansactionId : ℕ) : Option DnsReply :=
  if ¬ alloc.reply then none
  else if ¬ alloc.pbuf then none
  else some { tansactionId := tansactionId
              dnsFlag1 := dnsFlag1Response
              dnsFlag2 := dnsFlag2ErrName
              quentions := htons 1
              answerRR := 0
              authorityRR := 0
              additionalRR := 0
              queryName := queryName
              query := query
              answer := none }

/-- `_DNSAnswerGenAndSend`, likewise. -/
def dnsAnswerGenAndSend (s : Memory) (alloc : DnsAlloc) (query : DnsQuery)
    (queryName : List UInt8) (tansactionId : ℕ) : Option DnsReply :=
  if ¬ alloc.reply then none
  else if ¬ alloc.pbuf then none
  else some { tansactionId := tansactionId
              dnsFlag1 := dnsFlag1Response
              dnsFlag2 := dnsFlag2ErrNone
              quentions := htons 1
              answerRR := htons 1
              authorityRR := 0
              additionalRR := 0
              queryName := queryName
              query := query
              answer := some { name := htons (dnsNameOffset ||| sizeofDnsHeader)
                               rrType := htons dnsRrtypeA
                               rrClass := htons dnsRrclassIn
                               ttl := ntohl dnsDefaultTtl
                               length := htons 4
                               ipAddr := load32 s offHostIp } }

/-! ### `DNSS_RecvCb` -/

/-- The query class and type behind the name, read at `p`. -/
def queryAt (m : Memory) (p : ℕ) : DnsQuery := { rrType := load16 m p, rrClass := load16 m (p + 2) }

/-- `DNSS_RecvCb` on a payload; `block` is what the heap block and the memory behind it hold before
    the payload is copied. -/
def dnssRecvCb (s : Memory) (payload : List UInt8) (block : Memory) (behind : ℕ)
    (alloc : DnsAlloc) : Option (Option DnsReply) :=
  if ¬ alloc.msg then some none
  else
    let m := storeBytes block 0 payload
    -- Filter out the response frame and the unstandard query frame.
    if m offDnsFlag1 &&& dnsFlag1Response ≠ 0 ∨
        m offDnsFlag1 &&& ((0xf : UInt8) <<< 3) ≠ dnsFlag1OpcodeStandard then some none
    else
      let n := strlen m sizeofDnsHeader
      let query := queryAt m (sizeofDnsHeader + n + 1)
      if query.rrClass ≠ htons dnsRrclassIn ∧ query.rrType ≠ htons dnsRrtypeA then some none
      else
        let queryName := loadBytes m sizeofDnsHeader (n + 1)
        (dnsCompareName s m (payload.length + behind) sizeofDnsHeader).map fun r =>
          if r ≠ 0 then dnsNameErrGenAndSend alloc query queryName (load16 m 0)
          else dnsAnswerGenAndSend s alloc query queryName (load16 m 0)

end SerialNet
