import SerialNet.Lib.CString
import SerialNet.Lib.Writer
import SerialNet.Dhcp.Options
import SerialNet.Dhcp.OwnBytes

namespace SerialNet

/-!
# Option lists: what is written and what is read

A `DhcpOption` is an option as the protocol has it, with the lengths it prescribes;
`encodeOptions` gives the bytes of a list of them.  `_ParseDhcpOptions` reads from these bytes the
last value of each of the three options it knows (`parseDhcpLoop_encode`).  The three generators of
replies are modelled once more with the cursor and the length that the `DHCP_SET_OPTION` macros
advance by hand: what they leave in the buffer is `DhcpReply.store`, and their options are such a
list (`options_round_trip`).
-/

/-! ### Well-formed options -/

/-- An option of a message. -/
inductive DhcpOption where
  | pad
  | msgType (type : UInt8)
  | reqIpAddr (ip : UInt32)
  | serverId (ip : UInt32)
  | other (id : UInt8) (data : List UInt8)
      (hid : id ∉ [dhcpOptionIdPad, dhcpOptionIdEnd, dhcpOptionIdMsgType, dhcpOptionIdReqIpAddr,
        dhcpOptionIdServerId]) (hlen : data.length < 256)

namespace DhcpOption

/-- The bytes of an option. -/
def encode : DhcpOption → List UInt8
  | pad => [dhcpOptionIdPad]
  | msgType type => setOptionMsgType type
  | reqIpAddr ip => setOptionWord dhcpOptionIdReqIpAddr ip
  | serverId ip => setOptionServerId ip
  | other id data _ _ => id :: .ofNat data.length :: data

/-- What an option says about the message type, the requested address and the server id. -/
def msgType? : DhcpOption → Option UInt8
  | msgType type => some type
  | _ => none

/-- The address of a request option. -/
def reqIpAddr? : DhcpOption → Option UInt32
  | reqIpAddr ip => some ip
  | _ => none

/-- The address of a server id option. -/
def serverId? : DhcpOption → Option UInt32
  | serverId ip => some ip
  | _ => none

end DhcpOption

/-- The bytes of a list of options, with the end mark. -/
def encodeOptions (opts : List DhcpOption) : List UInt8 :=
  opts.flatMap DhcpOption.encode ++ setOptionEnd

/-- The last value that `f` finds. -/
def lastValue {α : Type} (f : DhcpOption → Option α) (opts : List DhcpOption) : Option α :=
  (opts.filterMap f).getLast?

/-- The presence mask and the last values of a list of options; the variable of an option that is
    not there keeps its value in `o`. -/
def lastValues (opts : List DhcpOption) (o : DhcpOptions) : DhcpOptions where
  msgType := (lastValue DhcpOption.msgType? opts).getD o.msgType
  reqIpAddr := (lastValue DhcpOption.reqIpAddr? opts).getD o.reqIpAddr
  serverId := (lastValue DhcpOption.serverId? opts).getD o.serverId
  ret := optionFlags (lastValue DhcpOption.msgType? opts).isSome
    (lastValue DhcpOption.reqIpAddr? opts).isSome (lastValue DhcpOption.serverId? opts).isSome

/-- A later option replaces an earlier one. -/
@[simp] theorem lastValue_concat {α : Type} (f : DhcpOption → Option α) (opts : List DhcpOption)
    (x : DhcpOption) : lastValue f (opts ++ [x]) = (f x).or (lastValue f opts) := by
  unfold lastValue
  rw [List.filterMap_append, List.filterMap_cons, List.filterMap_nil]
  cases f x with
  | none => simp
  | some v => simp

/-- No option is empty. -/
theorem length_encode_pos (x : DhcpOption) : 0 < x.encode.length := by
  cases x <;> exact Nat.succ_pos _

/-! ### The option loop on such bytes -/

section Parse

variable {m : Memory} {p : ℕ}

/-- A word is read as it was written. -/
theorem ofNat_load32_of_bytesAt {x : UInt32} (h : BytesAt m p (wordBytes x.toNat)) :
    UInt32.ofNat (load32 m p) = x := by
  rw [h.load32 x.toNat_lt]
  exact UInt32.ofNat_toNat

/-- No option begins with the end mark. -/
theorem ne_end_of_bytesAt {x : DhcpOption} (h : BytesAt m p x.encode) : m p ≠ dhcpOptionIdEnd := by
  cases x with
  | other id data hid hlen =>
    rw [h.1]
    exact fun hend => hid (by rw [hend]; decide)
  | _ =>
    rw [h.1]
    decide

/-- One turn reads one option: its length leads to the next one, and its value is noted. -/
theorem parseDhcpOption_encode {x : DhcpOption} (h : BytesAt m p x.encode) (done : List DhcpOption)
    (o : DhcpOptions) :
    parseDhcpOption m p (lastValues done o)
      = (p + x.encode.length, lastValues (done ++ [x]) o) := by
  have hret := optionFlags_or (lastValue DhcpOption.msgType? done).isSome
    (lastValue DhcpOption.reqIpAddr? done).isSome (lastValue DhcpOption.serverId? done).isSome
  cases x with
  | pad =>
    rw [parseDhcpOption_pad h.1]
    simp [lastValues, DhcpOption.encode, DhcpOption.msgType?, DhcpOption.reqIpAddr?,
      DhcpOption.serverId?]
  | msgType type =>
    obtain ⟨hid, hlen, htype, -⟩ := h
    rw [parseDhcpOption, hid, hlen, if_neg (by decide), if_pos rfl, show p + 2 = p + 1 + 1 from rfl,
      htype]
    simp [lastValues, DhcpOption.encode, setOptionMsgType, DhcpOption.msgType?,
      DhcpOption.reqIpAddr?, DhcpOption.serverId?, hret.1]
  | reqIpAddr ip =>
    obtain ⟨hid, hlen, hip⟩ := h
    rw [parseDhcpOption, hid, hlen, if_neg (by decide), if_neg (by decide), if_pos rfl,
      ofNat_load32_of_bytesAt hip]
    simp [lastValues, DhcpOption.encode, setOptionWord, DhcpOption.msgType?,
      DhcpOption.reqIpAddr?, DhcpOption.serverId?, wordBytes, hret.2.1]
  | serverId ip =>
    obtain ⟨hid, hlen, hip⟩ := h
    rw [parseDhcpOption, hid, hlen, if_neg (by decide), if_neg (by decide), if_neg (by decide),
      if_pos rfl, ofNat_load32_of_bytesAt hip]
    simp [lastValues, DhcpOption.encode, setOptionServerId, setOptionWord, DhcpOption.msgType?,
      DhcpOption.reqIpAddr?, DhcpOption.serverId?, wordBytes, hret.2.2]
  | other id data hid hlen =>
    obtain ⟨hmid, hmlen, -⟩ := h
    simp only [List.mem_cons, List.not_mem_nil, or_false, not_or] at hid
    rw [parseDhcpOption, hmid, hmlen, if_neg hid.1, if_neg hid.2.2.1, if_neg hid.2.2.2.1,
      if_neg hid.2.2.2.2, UInt8.toNat_ofNat', Nat.mod_eq_of_lt hlen]
    simp [lastValues, DhcpOption.encode, DhcpOption.msgType?, DhcpOption.reqIpAddr?,
      DhcpOption.serverId?]
    omega

/-- **The option loop on a list of options.** -/
theorem parseDhcpLoop_encode (o : DhcpOptions) (fuel : ℕ) :
    ∀ (p : ℕ) (opts done : List DhcpOption), BytesAt m p (encodeOptions opts) →
      p + (encodeOptions opts).length ≤ sizeofDhcpMsg → sizeofDhcpMsg ≤ p + fuel →
      parseDhcpLoop m fuel p (lastValues done o) = lastValues (done ++ opts) o := by
  induction fuel with
  | zero =>
    intro p opts done _ hfits hfuel
    have hlen : 0 < (encodeOptions opts).length := by simp [encodeOptions, setOptionEnd]
    omega
  | succ fuel ih =>
    intro p opts done h hfits hfuel
    rw [parseDhcpLoop]
    cases opts with
    | nil =>
      have hend : m p = dhcpOptionIdEnd := h.1
      rw [if_neg fun hc => hc.1 hend, List.append_nil]
    | cons x opts =>
      have hsplit : encodeOptions (x :: opts) = x.encode ++ encodeOptions opts := by
        simp [encodeOptions]
      rw [hsplit, bytesAt_append] at h
      rw [hsplit, List.length_append] at hfits
      have hpos := length_encode_pos x
      rw [if_pos ⟨ne_end_of_bytesAt h.1, by omega⟩, parseDhcpOption_encode h.1]
      rw [ih _ opts _ h.2 (by omega) (by omega), List.append_assoc]
      rfl

/-- `_ParseDhcpOptions` on a message whose options are the list `opts`. -/
theorem parseDhcpOptions_encode {opts : List DhcpOption}
    (h : BytesAt m offOptions (encodeOptions opts))
    (hfits : offOptions + (encodeOptions opts).length ≤ sizeofDhcpMsg) (o : DhcpOptions) :
    valueOn m (Loads.parseDhcpOptions o) = some (lastValues opts o) := by
  rw [Loads.parseDhcpOptions, valueOn_parseDhcpLoop m _ _ _ le_rfl]
  exact congrArg some (parseDhcpLoop_encode o _ _ opts [] h hfits (by decide))

end Parse

/-! ### The generators, with their cursor and length -/

namespace Writer

/-- `tmp = x; NST_MOVE_MEM(buffer, &tmp, 4); buffer += 4`. -/
def putWord (w : Writer) (x : UInt32) : Writer := (w.move (wordBytes x.toNat)).advance 4

/-- `DHCP_SET_OPTION_MSG_TYPE`. -/
def msgType (w : Writer) (type : UInt8) : Writer :=
  (((w.putByte dhcpOptionIdMsgType).putByte 1).putByte type).addLen 3

/-- The common body of the macros for a four-byte value. -/
def word (w : Writer) (id : UInt8) (x : UInt32) : Writer :=
  (((w.putByte id).putByte 4).putWord x).addLen 6

/-- `DHCP_SET_OPTION_SUBNET_MASK`. -/
def subnetMask (w : Writer) (mask : UInt32) : Writer :=
  w.word dhcpOptionIdSubnetMask mask

/-- `DHCP_SET_OPTION_GW`. -/
def gw (w : Writer) (gw : UInt32) : Writer := w.word dhcpOptionIdDefGw gw

/-- `DHCP_SET_OPTION_DNS`. -/
def dns (w : Writer) (dns : UInt32) : Writer := w.word dhcpOptionIdDnsServer dns

/-- `DHCP_SET_OPTION_SERVER_ID`. -/
def serverId (w : Writer) (ip : UInt32) : Writer := w.word dhcpOptionIdServerId ip

/-- `DHCP_SET_OPTION_LEASE_TIME`. -/
def leaseTime (w : Writer) (time : UInt32) : Writer :=
  w.word dhcpOptionIdLeaseTime (ntohl time)

/-- `DHCP_SET_OPTION_END`. -/
def endMark (w : Writer) : Writer := (w.putByte dhcpOptionIdEnd).addLen 1

/-- `pbuf_take` and `pbuf_realloc`: the bytes that are sent. -/
def sent (w : Writer) : List UInt8 := loadBytes w.mem 0 w.len

end Writer

/-- `memset(pDhcpMsg, 0, sizeof(*pDhcpMsg))`. -/
def clearMsg (m : Memory) : Memory := fun p => if p < sizeofDhcpMsg then 0 else m p

/-- The header that `_DHCPNakGenAndSend` writes. -/
def nakHeader (s : DhcpServer) (m : Memory) (mac : Mac) (xid : UInt32) : Memory :=
  let m := clearMsg m
  let m := store8 m 0 dhcpOpReply
  let m := store8 m offHType dhcpHwtypeEthernet
  let m := store8 m offHLen 6
  let m := store32 m offXid (ntohl xid).toNat
  let m := store32 m offSiaddr s.serverIpAddr.toNat
  let m := storeBytes m offChaddr mac.toList
  store32 m offMagic (ntohl dhcpMagic).toNat

/-- `_DHCPNakGenAndSend` once the buffer is there. -/
def dhcpNakGen (s : DhcpServer) (m : Memory) (mac : Mac) (xid : UInt32) : Writer :=
  let w : Writer := ⟨nakHeader s m mac xid, offOptions, 240⟩
  let w := w.msgType dhcpMsgNak
  w.endMark

/-- The header of the two replies that give an address. -/
def addressHeader (m : Memory) (c : DhcpClient) (mac : Mac) (xid : UInt32) : Memory :=
  let m := clearMsg m
  let m := store8 m 0 dhcpOpReply
  let m := store8 m offHType dhcpHwtypeEthernet
  let m := store8 m offHLen 6
  let m := store32 m offXid (ntohl xid).toNat
  let m := store32 m offYiaddr c.ipAddr.toNat
  let m := store32 m offSiaddr 0
  let m := storeBytes m offChaddr mac.toList
  store32 m offMagic (ntohl dhcpMagic).toNat

/-- The common body of the two generators that give an address. -/
def addressGen (s : DhcpServer) (type : UInt8) (m : Memory) (c : DhcpClient) (mac : Mac)
    (xid : UInt32) : Writer :=
  let w : Writer := ⟨addressHeader m c mac xid, offOptions, 240⟩
  let w := w.msgType type
  let w := w.leaseTime (.ofNat dhcpDefaultLeaseTime)
  let w := w.serverId s.serverIpAddr
  let w := w.subnetMask s.subnetMask
  let w := w.gw s.gateWay
  let w := w.dns s.dns1
  w.endMark

/-- `_DHCPAckGenAndSend` once the buffer is there. -/
def dhcpAckGen (s : DhcpServer) := addressGen s dhcpMsgAck

/-- `_DHCPOfferGenAndSend` once the buffer is there. -/
def dhcpOfferGen (s : DhcpServer) := addressGen s dhcpMsgOffer

/-! ### What they write -/

section Macros

variable {m : Memory} {p : ℕ} {bytes : List UInt8} {w : Writer}

/-- A word is written byte by byte. -/
theorem Wrote.putWord (h : Wrote m p bytes w) (x : UInt32) :
    Wrote m p (bytes ++ wordBytes x.toNat) (w.putWord x) :=
  ⟨(h.put _).mem, (h.put _).body⟩

/-- An option with a word: its id, the length 4 and the word. -/
theorem Wrote.word (h : Wrote m p bytes w) (id : UInt8) (x : UInt32) :
    Wrote m p (bytes ++ setOptionWord id x) (w.word id x) := by
  have hword := (((h.putByte id).putByte 4).putWord x).addLen 6
  rw [List.append_assoc, List.append_assoc] at hword
  exact hword

/-- The option with the message type. -/
theorem Wrote.msgType (h : Wrote m p bytes w) (type : UInt8) :
    Wrote m p (bytes ++ setOptionMsgType type) (w.msgType type) := by
  have htype := (((h.putByte dhcpOptionIdMsgType).putByte 1).putByte type).addLen 3
  rw [List.append_assoc, List.append_assoc] at htype
  exact htype

/-- The end option. -/
theorem Wrote.endMark (h : Wrote m p bytes w) : Wrote m p (bytes ++ setOptionEnd) w.endMark :=
  (h.putByte dhcpOptionIdEnd).addLen 1

/-- `Len` and the cursor are in step: both count from the start of the message. -/
def Writer.InStep (w : Writer) : Prop := w.len = w.body

/-- Pointer and length move on together over an option with a word. -/
theorem Writer.InStep.word (h : w.InStep) (id : UInt8) (x : UInt32) :
    (w.word id x).InStep :=
  show w.len + 6 = w.body + 1 + 1 + 4 by rw [h]

/-- Pointer and length move on together over the message type. -/
theorem Writer.InStep.msgType (h : w.InStep) (type : UInt8) : (w.msgType type).InStep :=
  show w.len + 3 = w.body + 1 + 1 + 1 by rw [h]

/-- Pointer and length move on together over the end. -/
theorem Writer.InStep.endMark (h : w.InStep) : w.endMark.InStep :=
  show w.len + 1 = w.body + 1 by rw [h]

end Macros

/-- The writer has generated the reply `r` over `m`. -/
structure Generates (r : DhcpReply) (m : Memory) (w : Writer) : Prop where
  mem : w.mem = r.store m
  body : w.body = offOptions + r.options.length
  inStep : w.InStep

/-- Storing a word where it already lies changes nothing. -/
theorem store32_of_bytesAt {m : Memory} {p x : ℕ} (h : BytesAt m p (wordBytes x)) :
    store32 m p x = m := by
  obtain ⟨h0, h1, h2, h3, -⟩ := h
  rw [store32_eq_storeBytes]
  refine (eq_storeBytes (fun i hi => ?_) fun _ _ => rfl).symm
  have hcases : i = 0 ∨ i = 1 ∨ i = 2 ∨ i = 3 := by
    have : i < 4 := hi
    omega
  obtain rfl | rfl | rfl | rfl := hcases
  exacts [h0, h1, h2, h3]

/-- **The NAK generator refines its abstract reply.** -/
theorem dhcpNakGen_generates (s : DhcpServer) (m : Memory) (mac : Mac) (xid : UInt32) :
    ∃ r, dhcpNakGenAndSend s true mac xid = some r ∧ Generates r m (dhcpNakGen s m mac xid) := by
  refine ⟨_, rfl, ?_⟩
  have hwrote := ((wrote_nil (nakHeader s m mac xid) offOptions 240).msgType dhcpMsgNak).endMark
  refine ⟨hwrote.mem.trans ?_, hwrote.body, ?_⟩
  · unfold nakHeader DhcpReply.store
    dsimp only
    -- `Yiaddr` is left at the zero it was cleared to
    rw [store32_of_bytesAt (p := offYiaddr)]
    · rfl
    · exact ⟨rfl, rfl, rfl, rfl, trivial⟩
  · have hstart : Writer.InStep ⟨nakHeader s m mac xid, offOptions, 240⟩ := rfl
    exact (hstart.msgType dhcpMsgNak).endMark

/-- **And so do the two that give an address.** -/
theorem addressGen_generates (s : DhcpServer) (type : UInt8) (m : Memory) (c : DhcpClient)
    (mac : Mac) (xid : UInt32) :
    ∃ r, addressReply s type true c mac xid = some r ∧
      Generates r m (addressGen s type m c mac xid) := by
  refine ⟨_, rfl, ?_⟩
  have hwrote := (((((((wrote_nil (addressHeader m c mac xid) offOptions 240).msgType type).word
    dhcpOptionIdLeaseTime (ntohl (.ofNat dhcpDefaultLeaseTime))).word
    dhcpOptionIdServerId s.serverIpAddr).word dhcpOptionIdSubnetMask s.subnetMask).word
    dhcpOptionIdDefGw s.gateWay).word dhcpOptionIdDnsServer s.dns1).endMark
  refine ⟨hwrote.mem, hwrote.body, ?_⟩
  have hstart : Writer.InStep ⟨addressHeader m c mac xid, offOptions, 240⟩ := rfl
  exact ((((((hstart.msgType _).word _ _).word _ _).word _ _).word _ _).word _ _).endMark

/-! ### The round trip -/

/-- An option with a four-byte value that the parser skips. -/
def DhcpOption.word (id : UInt8) (x : UInt32)
    (hid : id ∉ [dhcpOptionIdPad, dhcpOptionIdEnd, dhcpOptionIdMsgType, dhcpOptionIdReqIpAddr,
      dhcpOptionIdServerId]) : DhcpOption :=
  .other id (wordBytes x.toNat) hid (show 4 < 256 by decide)

/-- The options of an ACK or an OFFER. -/
def addressOptions (s : DhcpServer) (type : UInt8) : List DhcpOption :=
  [.msgType type, .word dhcpOptionIdLeaseTime (ntohl (.ofNat dhcpDefaultLeaseTime)) (by decide),
    .serverId s.serverIpAddr, .word dhcpOptionIdSubnetMask s.subnetMask (by decide),
    .word dhcpOptionIdDefGw s.gateWay (by decide), .word dhcpOptionIdDnsServer s.dns1 (by decide)]

/-- The writer has put the options `opts` into the message: they fit, and the cursor and `Len`
    stand behind them. -/
structure Emits (w : Writer) (opts : List DhcpOption) : Prop where
  fits : offOptions + (encodeOptions opts).length ≤ sizeofDhcpMsg
  written : BytesAt w.mem offOptions (encodeOptions opts)
  body : w.body = offOptions + (encodeOptions opts).length
  len : w.len = offOptions + (encodeOptions opts).length

/-- A reply whose options are a list in its encoding. -/
theorem Generates.emits {r : DhcpReply} {m : Memory} {w : Writer} {opts : List DhcpOption}
    (h : Generates r m w) (hopts : r.options = encodeOptions opts)
    (hfits : offOptions + (encodeOptions opts).length ≤ sizeofDhcpMsg) : Emits w opts where
  fits := hfits
  written := by
    rw [h.mem, DhcpReply.store, hopts]
    exact bytesAt_storeBytes _ _ _
  body := hopts ▸ h.body
  len := hopts ▸ h.inStep.trans h.body

/-- What was emitted is parsed back from the bytes that are sent, over any old message. -/
theorem Emits.parse {w : Writer} {opts : List DhcpOption} (h : Emits w opts) (old : Memory)
    (o : DhcpOptions) :
    valueOn (overlay w.sent old) (Loads.parseDhcpOptions o) = some (lastValues opts o) := by
  refine parseDhcpOptions_encode (h.written.congr fun q _ hq => ?_) h.fits o
  have hlen : q < w.len := by rw [h.len]; exact hq
  have hreceived : Received w.sent q :=
    ⟨by rwa [Writer.sent, length_loadBytes], by have := h.fits; omega⟩
  have hsent := getElem?_loadBytes w.mem 0 hlen
  rw [Nat.zero_add] at hsent
  exact Option.some.inj ((overlay_of_received hreceived).symm.trans hsent)

/-- A NAK has its type only. -/
theorem dhcpNakGen_emits (s : DhcpServer) (m : Memory) (mac : Mac) (xid : UInt32) :
    Emits (dhcpNakGen s m mac xid) [.msgType dhcpMsgNak] := by
  obtain ⟨r, hr, hgen⟩ := dhcpNakGen_generates s m mac xid
  obtain rfl := Option.some.inj hr
  exact hgen.emits rfl (by decide)

/-- OFFER and ACK have the same options but for the type. -/
theorem addressGen_emits (s : DhcpServer) (type : UInt8) (m : Memory) (c : DhcpClient) (mac : Mac)
    (xid : UInt32) : Emits (addressGen s type m c mac xid) (addressOptions s type) := by
  obtain ⟨r, hr, hgen⟩ := addressGen_generates s type m c mac xid
  obtain rfl := Option.some.inj hr
  exact hgen.emits rfl (show 274 ≤ sizeofDhcpMsg by decide)

/-- The reply is parsed to its type and the server's address; it asks for none. -/
theorem lastValues_addressOptions (s : DhcpServer) (type : UInt8) (o : DhcpOptions) :
    lastValues (addressOptions s type) o
      = { o with msgType := type, serverId := s.serverIpAddr, ret := 0x05 } := by
  have hmsgType : lastValue DhcpOption.msgType? (addressOptions s type) = some type := rfl
  have hreqIpAddr : lastValue DhcpOption.reqIpAddr? (addressOptions s type) = none := rfl
  have hserverId : lastValue DhcpOption.serverId? (addressOptions s type) = some s.serverIpAddr :=
    rfl
  have hret : optionFlags true false true = 0x05 := by decide
  rw [lastValues, hmsgType, hreqIpAddr, hserverId]
  exact congrArg (DhcpOptions.mk type o.reqIpAddr s.serverIpAddr) hret

/-- **The round trip of DHCP options.**  Of every list of options that fits `Options` the parser
    returns the presence mask and the last values; the three generators emit such lists, with a
    cursor and a length that count their bytes; and parsing what an ACK or an OFFER sends gives
    back its type and the server's address. -/
theorem options_round_trip (o : DhcpOptions) :
    (∀ (m : Memory) (opts : List DhcpOption),
      offOptions + (encodeOptions opts).length ≤ sizeofDhcpMsg →
      BytesAt m offOptions (encodeOptions opts) →
      valueOn m (Loads.parseDhcpOptions o) = some (lastValues opts o)) ∧
    ∀ (s : DhcpServer) (c : DhcpClient) (mac : Mac) (xid : UInt32) (m old : Memory),
      Emits (dhcpNakGen s m mac xid) [.msgType dhcpMsgNak] ∧
      Emits (dhcpAckGen s m c mac xid) (addressOptions s dhcpMsgAck) ∧
      Emits (dhcpOfferGen s m c mac xid) (addressOptions s dhcpMsgOffer) ∧
      valueOn (overlay (dhcpAckGen s m c mac xid).sent old) (Loads.parseDhcpOptions o)
        = some { o with msgType := dhcpMsgAck, serverId := s.serverIpAddr, ret := 0x05 } ∧
      valueOn (overlay (dhcpOfferGen s m c mac xid).sent old) (Loads.parseDhcpOptions o)
        = some { o with msgType := dhcpMsgOffer, serverId := s.serverIpAddr, ret := 0x05 } := by
  refine ⟨fun m opts hfits h => parseDhcpOptions_encode h hfits o, fun s c mac xid m old => ?_⟩
  have hack := addressGen_emits s dhcpMsgAck m c mac xid
  have hoffer := addressGen_emits s dhcpMsgOffer m c mac xid
  refine ⟨dhcpNakGen_emits s m mac xid, hack, hoffer, ?_, ?_⟩
  · rw [← lastValues_addressOptions]
    exact hack.parse old o
  · rw [← lastValues_addressOptions]
    exact hoffer.parse old o

/-- Pads, two message types and a host name. -/
theorem options_round_trip_example :
    valueOn (storeBytes (fun _ => 7) offOptions (encodeOptions [.pad, .msgType 1,
        .other 12 [104, 105] (by decide) (by decide), .pad, .msgType 3]))
      (Loads.parseDhcpOptions ⟨0xff, 0, 0, 0⟩) = some ⟨3, 0, 0, 0x01⟩ :=
  (options_round_trip ⟨0xff, 0, 0, 0⟩).1 _ [.pad, .msgType 1,
    .other 12 [104, 105] (by decide) (by decide), .pad, .msgType 3] (by decide)
    (bytesAt_storeBytes _ _ _)

end SerialNet
