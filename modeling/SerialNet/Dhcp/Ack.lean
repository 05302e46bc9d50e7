import SerialNet.Dhcp.Invariant

namespace SerialNet

/-!
# What a DHCP acknowledgement confirms

A REQUEST for an address of the pool is acknowledged with that address or refused.  The one
gap is a client that already holds an entry and asks for an address that no entry has: the
branch for "this address that has been allocated to it" does not compare the two, and the
client is acknowledged the address of its own entry (`ack_confirms_iff`).  A client without an
entry that asks for such an address is refused.
-/

/-- If the payload is answered by an ACK, its address is the requested one, and the entry with
    this address is bound to the sender. -/
def AckConfirms (s : Dhcp) (payload : List UInt8) (beyond : Memory) (alloc : Bool)
    (q : DhcpRequest) : Prop :=
  ∀ r, (dhcpStep s (.recv payload beyond alloc)).2 = some r → r.msgType = dhcpMsgAck →
    r.yiaddr = q.reqIpAddr ∧
      ∃ i, ((dhcpStep s (.recv payload beyond alloc)).1.server.clients i).ipAddr = q.reqIpAddr ∧
        ((dhcpStep s (.recv payload beyond alloc)).1.server.clients i).state = .bind ∧
        ((dhcpStep s (.recv payload beyond alloc)).1.server.clients i).macAddr = q.macAddr

/-- The sender holds an entry, asks this server for an address that no entry has, and a reply
    can be allocated. -/
def AsksForeignAddress (s : DhcpServer) (alloc : Bool) (q : DhcpRequest) : Prop :=
  alloc = true ∧ serverAccepted s q ∧ (∃ i, Owns s.clients q.macAddr i) ∧
    ∀ i, (s.clients i).ipAddr ≠ q.reqIpAddr

section Handle

variable {s : DhcpServer} {alloc : Bool} {q : DhcpRequest}

/-- A client that asks for a foreign address is acknowledged its own. -/
theorem handleRequest_foreign (hinv : TableInv s.clients) (htype : q.msgType = dhcpMsgRequest)
    (h : AsksForeignAddress s alloc q) :
    ∃ r, (handleRequest s alloc q).2 = some r ∧ r.msgType = dhcpMsgAck ∧
      r.yiaddr ≠ q.reqIpAddr := by
  obtain ⟨halloc, hacc, ⟨my, hmy⟩, hforeign⟩ := h
  have hone : ∀ j, Owns s.clients q.macAddr j → j = my := fun j hj =>
    hinv.active_unique j my hj.1 hmy.1 (hj.2.trans hmy.2.symm)
  rw [handleRequest_own alloc hmy hone (hinv.not_select my) htype hacc (fun j _ => hforeign j)
    (fun j _ _ => hforeign j), halloc]
  exact ⟨_, rfl, rfl, hforeign my⟩

/-- Any other REQUEST that is acknowledged gets the address it asks for. -/
theorem handleRequest_confirms (hinv : TableInv s.clients)
    (h : ¬ AsksForeignAddress s alloc q) {r : DhcpReply}
    (hr : (handleRequest s alloc q).2 = some r) (hack : r.msgType = dhcpMsgAck) :
    r.yiaddr = q.reqIpAddr ∧
      ∃ i, ((handleRequest s alloc q).1.clients i).ipAddr = q.reqIpAddr ∧
        ((handleRequest s alloc q).1.clients i).state = .bind ∧
        ((handleRequest s alloc q).1.clients i).macAddr = q.macAddr := by
  have hout := handleRequest_outcome alloc (q := q) hinv.not_select
  have hnak : dhcpMsgNak ≠ dhcpMsgAck := by decide
  have hoffer : dhcpMsgOffer ≠ dhcpMsgAck := by decide
  generalize (handleRequest s alloc q).1.clients = t' at hout ⊢
  generalize (handleRequest s alloc q).2 = reply at hout hr
  cases hout with
  | refused _ hn => exact absurd ((hn r hr).symm.trans hack) hnak
  | dropped _ _ _ hn => exact absurd ((hn r hr).symm.trans hack) hnak
  | offeredNew => exact absurd ((addressReply_fields hr).1.symm.trans hack) hoffer
  | offeredOwn => exact absurd ((addressReply_fields hr).1.symm.trans hack) hoffer
  | offeredOther => exact absurd ((addressReply_fields hr).1.symm.trans hack) hoffer
  | boundNew i _ _ hip =>
    refine ⟨(addressReply_fields hr).2.2.trans hip, i, ?_⟩
    rw [bound_self]
    exact ⟨hip, rfl, rfl⟩
  | boundOther my i hmy hidle hip =>
    have hne : i ≠ my := fun h => hmy.1 (h ▸ hidle)
    have ht : dropped s.clients my i = s.clients i := Function.update_of_ne hne _ _
    refine ⟨(addressReply_fields hr).2.2.trans hip, i, ?_⟩
    rw [bound_self, ht]
    exact ⟨hip, rfl, rfl⟩
  | boundOwn my hmy hacc hreq havail =>
    -- the client's own entry: any other one with the address would have been found
    have hip : (s.clients my).ipAddr = q.reqIpAddr := by
      by_contra hne
      refine h ⟨addressReply_alloc hr, hacc, ⟨my, hmy⟩, fun j hj => ?_⟩
      by_cases hidle : (s.clients j).state = .idle
      · exact hreq j hidle hj
      by_cases hmac : (s.clients j).macAddr = q.macAddr
      · have : j = my := hinv.active_unique j my hidle hmy.1 (hmac.trans hmy.2.symm)
        exact hne (this ▸ hj)
      · exact havail j hidle hmac hj
    refine ⟨(addressReply_fields hr).2.2.trans hip, my, ?_⟩
    rw [bound_self]
    exact ⟨hip, rfl, rfl⟩

end Handle

/-- **When an ACK confirms what was asked.**  In every reachable state and for every REQUEST,
    exactly unless the sender holds an entry and asks for an address that no entry has. -/
theorem ack_confirms_iff (s : Dhcp) (hs : DhcpStarted s) (es : List DhcpEvent)
    (payload : List UInt8) (beyond : Memory) (alloc : Bool) (q : DhcpRequest)
    (hq : receivedRequest (trace dhcpStep s es).1 payload beyond = some q)
    (htype : q.msgType = dhcpMsgRequest) :
    AckConfirms (trace dhcpStep s es).1 payload beyond alloc q ↔
      ¬ AsksForeignAddress (trace dhcpStep s es).1.server alloc q := by
  have hinv := (dhcp_run_invariant s hs es).1.1
  generalize (trace dhcpStep s es).1 = s₁ at hinv hq ⊢
  obtain ⟨h1, h2⟩ := dhcpsRecvCb_some alloc hq
  unfold AckConfirms
  simp only [dhcpStep]
  rw [h1, h2]
  constructor
  · intro hconf hforeign
    obtain ⟨r, hr, hack, hne⟩ := handleRequest_foreign hinv htype hforeign
    exact hne (hconf r hr hack).1
  · intro hforeign r hr hack
    exact handleRequest_confirms hinv hforeign hr hack

theorem ack_confirms_iff_sample :
    AckConfirms sampleDhcp (sampleMessage dhcpMsgRequest sampleMac 0x0201a8c0) (fun _ => 0) true
        ⟨dhcpMsgRequest, 0x0201a8c0, 0, 0, sampleMac⟩ ↔
      ¬ AsksForeignAddress sampleDhcp.server true
        ⟨dhcpMsgRequest, 0x0201a8c0, 0, 0, sampleMac⟩ :=
  ack_confirms_iff sampleDhcp sampleDhcp_started [] _ _ true _ (by decide +kernel) rfl

/-- A client bound to 192.168.1.2 asks for 10.0.0.7 and is acknowledged 192.168.1.2. -/
theorem ack_of_unasked_address :
    ¬ ∀ (s : Dhcp) (_ : DhcpStarted s) (es : List DhcpEvent) (payload : List UInt8)
      (beyond : Memory) (alloc : Bool) (q : DhcpRequest),
      receivedRequest (trace dhcpStep s es).1 payload beyond = some q →
      q.msgType = dhcpMsgRequest → q.reqIpAddr ≠ 0 →
      AckConfirms (trace dhcpStep s es).1 payload beyond alloc q := by
  intro h
  have hconf := h sampleDhcp sampleDhcp_started [sampleRecv dhcpMsgRequest sampleMac 0x0201a8c0]
    (sampleMessage dhcpMsgRequest sampleMac 0x0700000a) (fun _ => 0) true
    ⟨dhcpMsgRequest, 0x0700000a, 0, 0, sampleMac⟩ (by decide +kernel) rfl (by decide)
  have hack : ((dhcpStep (trace dhcpStep sampleDhcp
      [sampleRecv dhcpMsgRequest sampleMac 0x0201a8c0]).1
      (sampleRecv dhcpMsgRequest sampleMac 0x0700000a)).2.map
        fun r => (r.msgType, r.yiaddr)) = some (dhcpMsgAck, 0x0201a8c0) := by
    decide +kernel
  obtain ⟨r, hr, hfields⟩ := Option.map_eq_some_iff.1 hack
  have hyi : r.yiaddr = 0x0201a8c0 := congrArg Prod.snd hfields
  have hbad := (hconf r hr (congrArg Prod.fst hfields)).1
  rw [hyi] at hbad
  exact absurd hbad (by decide)

end SerialNet
