import SerialNet.Dhcp.Invariant

namespace SerialNet

/-!
# What a DHCP NAK refuses

`_ClientTableLookup` returns a null pointer for many reasons, and `DHCPS_RecvCb` turns each into
a NAK unless the message is a RELEASE or a DECLINE.  Besides a REQUEST to this server that cannot
be met, these are a DISCOVER when every entry is held by another client, a REQUEST that selects
another server, and every other type of message (`nak_refuses_iff`).
-/

/-- A NAK for `q` refuses a REQUEST that names this server or none. -/
def NakRefuses (s : Dhcp) (payload : List UInt8) (beyond : Memory) (q : DhcpRequest) : Prop :=
  ∀ alloc r, (dhcpStep s (.recv payload beyond alloc)).2 = some r → r.msgType = dhcpMsgNak →
    q.msgType = dhcpMsgRequest ∧ serverAccepted s.server q

/-- The message is a RELEASE, a DECLINE, a REQUEST to this server, or a DISCOVER while an entry is
    idle or held by the sender. -/
def HasAnswer (s : DhcpServer) (q : DhcpRequest) : Prop :=
  q.msgType = dhcpMsgRelease ∨ q.msgType = dhcpMsgDecline ∨
    (q.msgType = dhcpMsgRequest ∧ serverAccepted s q) ∨
    (q.msgType = dhcpMsgDiscover ∧
      ∃ i, (s.clients i).state = .idle ∨ Owns s.clients q.macAddr i)

/-! ### The scan and an idle entry -/

/-- An idle entry is free or has a history. -/
theorem scanClients_idle (t : ClientTable) (mac : Mac) (ip : UInt32) {i : Fin 8}
    (hidle : (t i).state = .idle) :
    (scanClients t mac ip).freeClient ≠ none ∨ (scanClients t mac ip).historyClient ≠ none := by
  suffices h : ∀ (rest : List (Fin 8)) (r : Scan),
      (r.freeClient ≠ none ∨ r.historyClient ≠ none ∨ i ∈ rest) →
      (rest.foldl (scanClient t mac ip) r).freeClient ≠ none ∨
        (rest.foldl (scanClient t mac ip) r).historyClient ≠ none from
    h (List.finRange 8) _ (.inr (.inr (List.mem_finRange i)))
  intro rest
  induction rest with
  | nil =>
    intro r hr
    simpa using hr
  | cons j rest ih =>
    intro r hr
    apply ih
    unfold scanClient
    grind

section Lookup

variable {s : DhcpServer} {q : DhcpRequest}

/-- A DISCOVER finds no entry exactly when all are held by other clients. -/
theorem lookupBranch_discover (htype : q.msgType = dhcpMsgDiscover) :
    (lookupBranch s q).2 = none ↔
      ∀ i, (s.clients i).state ≠ .idle ∧ ¬ Owns s.clients q.macAddr i := by
  have hscan := scanClients_spec s.clients q.macAddr q.reqIpAddr
  have hidle := @scanClients_idle s.clients q.macAddr q.reqIpAddr
  rw [lookupBranch, if_pos htype]
  generalize scanClients s.clients q.macAddr q.reqIpAddr = r at hscan hidle ⊢
  unfold lookupDiscover
  cases hmy : r.myClient with
  | some my =>
    refine iff_of_false ?_ fun h => (h my).2 (hscan.my_some my hmy)
    cases r.reqClient <;> simp
  | none =>
    dsimp only
    -- a client without an entry: the four fallbacks cover all idle entries
    constructor
    · intro hnone i
      simp only [Option.orElse_eq_none] at hnone
      refine ⟨fun hi => ?_, hscan.my_none hmy i (List.mem_finRange i)⟩
      rcases hidle hi with h | h
      · exact h hnone.2.2.1
      · exact h hnone.2.2.2
    · intro hall
      cases hret : (r.reqClient <|> r.myHistoryClient <|> r.freeClient <|> r.historyClient) with
      | none => rfl
      | some i => exact absurd (hscan.fallback_idle hret) (hall i).1

/-- A REQUEST that selects another server finds no entry. -/
theorem lookupBranch_foreign (htype : q.msgType = dhcpMsgRequest)
    (hacc : ¬ serverAccepted s q = true) : (lookupBranch s q).2 = none := by
  have hacc' : serverAccepted s q = false := Bool.eq_false_iff.mpr hacc
  rw [lookupBranch, htype, if_neg (by decide), if_pos rfl, hacc']
  obtain ⟨-, req, -, -, my, unavailable⟩ := scanClients s.clients q.macAddr q.reqIpAddr
  cases my <;> cases req <;> cases unavailable <;> rfl

/-- The other types of message find no entry. -/
theorem lookupBranch_other (hdiscover : q.msgType ≠ dhcpMsgDiscover)
    (hrequest : q.msgType ≠ dhcpMsgRequest) : (lookupBranch s q).2 = none := by
  rw [lookupBranch, if_neg hdiscover, if_neg hrequest]
  unfold lookupRelease
  split_ifs <;> first | rfl | (split <;> rfl)

/-- An entry that was found is offered or acknowledged. -/
theorem dhcpClientSmeHandle_reply (s : DhcpServer) (alloc : Bool) (i : Fin 8) (type : UInt8)
    (xid : UInt32) {r : DhcpReply} (hr : (dhcpClientSmeHandle s alloc i type xid).2 = some r) :
    r.msgType ≠ dhcpMsgNak := by
  unfold dhcpClientSmeHandle at hr
  have hoffer : ∀ {s' : DhcpServer}, (offerClient s' alloc i xid).2 = some r →
      r.msgType ≠ dhcpMsgNak := fun h => by
    rw [(addressReply_fields h).1]
    decide
  have hbind : ∀ {s' : DhcpServer}, (bindClient s' alloc i xid).2 = some r →
      r.msgType ≠ dhcpMsgNak := fun h => by
    rw [(addressReply_fields h).1]
    decide
  -- the state of the entry and the message decide between offer and binding
  split at hr
  · split_ifs at hr
    · exact hoffer hr
    · exact hbind hr
    · exact hoffer hr
  · exact hoffer hr
  · exact hbind hr
  · exact hbind hr

/-- When a NAK is sent. -/
theorem handleRequest_nak_iff (s : DhcpServer) (q : DhcpRequest) :
    (∃ alloc r, (handleRequest s alloc q).2 = some r ∧ r.msgType = dhcpMsgNak) ↔
      (lookupBranch s q).2 = none ∧ q.msgType ≠ dhcpMsgRelease ∧ q.msgType ≠ dhcpMsgDecline := by
  rcases hlookup : lookupBranch s q with ⟨t, _ | i⟩
  · have hnone : clientTableLookup s q = (t, none) := by rw [clientTableLookup, hlookup]
    simp only [handleRequest, hnone, true_and]
    constructor
    · rintro ⟨alloc, r, hr, -⟩
      by_contra hnot
      rw [if_neg hnot] at hr
      cases hr
    · intro h
      exact ⟨true, _, if_pos h, rfl⟩
  · refine iff_of_false ?_ (by simp)
    rintro ⟨alloc, r, hr, hnak⟩
    simp only [handleRequest, clientTableLookup, hlookup] at hr
    exact dhcpClientSmeHandle_reply _ alloc i _ _ hr hnak

end Lookup

/-- **When a NAK is the refusal of a REQUEST to this server.**  In every state and for every
    message that `DHCPS_RecvCb` accepts: exactly when the message is a RELEASE, a DECLINE, a
    REQUEST to this server, or a DISCOVER while an entry is idle or held by the sender. -/
theorem nak_refuses_iff (s : Dhcp) (payload : List UInt8) (beyond : Memory) (q : DhcpRequest)
    (hq : receivedRequest s payload beyond = some q) :
    NakRefuses s payload beyond q ↔ HasAnswer s.server q := by
  have hreply : ∀ alloc, (dhcpStep s (.recv payload beyond alloc)).2
      = (handleRequest s.server alloc q).2 := fun alloc => (dhcpsRecvCb_some alloc hq).2
  have hnak := handleRequest_nak_iff s.server q
  unfold NakRefuses
  simp only [hreply]
  constructor
  · intro h
    by_contra hnot
    simp only [HasAnswer, not_or] at hnot
    obtain ⟨hrelease, hdecline, hrequest, hdiscover⟩ := hnot
    -- a message without an answer finds no entry, whatever its type
    have hnone : (lookupBranch s.server q).2 = none := by
      by_cases hd : q.msgType = dhcpMsgDiscover
      · rw [lookupBranch_discover hd]
        intro i
        exact ⟨fun hi => hdiscover ⟨hd, i, .inl hi⟩, fun hi => hdiscover ⟨hd, i, .inr hi⟩⟩
      · by_cases hr : q.msgType = dhcpMsgRequest
        · exact lookupBranch_foreign hr fun hacc => hrequest ⟨hr, hacc⟩
        · exact lookupBranch_other hd hr
    obtain ⟨alloc, r, hr, htype⟩ := hnak.mpr ⟨hnone, hrelease, hdecline⟩
    exact hrequest (h alloc r hr htype)
  · intro hans alloc r hr htype
    obtain ⟨hnone, hrelease, hdecline⟩ := hnak.mp ⟨alloc, r, hr, htype⟩
    rcases hans with h | h | h | ⟨hd, i, hi⟩
    · exact absurd h hrelease
    · exact absurd h hdecline
    · exact h
    · rw [lookupBranch_discover hd] at hnone
      exact absurd hi (not_or.mpr (hnone i))

/-- The first DISCOVER after the start. -/
theorem nak_refuses_iff_sample :
    NakRefuses sampleDhcp (sampleMessage dhcpMsgDiscover sampleMac 0) (fun _ => 0)
        ⟨dhcpMsgDiscover, 0, 0, 0, sampleMac⟩ ↔
      HasAnswer sampleDhcp.server ⟨dhcpMsgDiscover, 0, 0, 0, sampleMac⟩ :=
  nak_refuses_iff sampleDhcp _ _ _ (by decide +kernel)

/-- `DHCPINFORM`, a type of message the server does not know. -/
def dhcpInform : UInt8 := 8

/-- An INFORM to a server that has just been started is answered by a NAK. -/
theorem nak_of_inform :
    ¬ ∀ (s : Dhcp) (_ : DhcpStarted s) (es : List DhcpEvent) (payload : List UInt8)
      (beyond : Memory) (q : DhcpRequest),
      receivedRequest (trace dhcpStep s es).1 payload beyond = some q →
      NakRefuses (trace dhcpStep s es).1 payload beyond q := by
  intro h
  have hrefuses := h sampleDhcp sampleDhcp_started [] (sampleMessage dhcpInform sampleMac 0)
    (fun _ => 0) ⟨dhcpInform, 0, 0, 0, sampleMac⟩ (by decide +kernel)
  have hnak : ((dhcpStep sampleDhcp (sampleRecv dhcpInform sampleMac 0)).2.map
      DhcpReply.msgType) = some dhcpMsgNak := by
    decide +kernel
  obtain ⟨r, hr, htype⟩ := Option.map_eq_some_iff.mp hnak
  exact absurd (hrefuses true r hr htype).1 (by decide)

end SerialNet
