import SerialNet.Dhcp.Server

namespace SerialNet

/-!
# The client table of the DHCP server

An entry of the table is at once a lease, a pending offer or a piece of history, and every
event edits one or two entries.  This file says once what an event can do to the table:

* `scanClients_spec` — what the pointers of the scan in `_ClientTableLookup` mean;
* `RequestOutcome` — the possible effects of a request, with the reply that goes with each
  (`handleRequest_outcome`), what each leaves alone (`frame`, `sameAddresses`) and what its
  reply means (`reply_means`);
* `tickClient_cases`, `dhcpsClientDelete_cases` — the same for the other events.
-/

/-! ### The scan -/

/-- The entry is an active one of client `mac`: a negotiation or a lease. -/
def Owns (t : ClientTable) (mac : Mac) (i : Fin 8) : Prop :=
  (t i).state ≠ .idle ∧ (t i).macAddr = mac

/-- What the scan knows once it has passed the entries `seen`. -/
structure ScanSpec (t : ClientTable) (mac : Mac) (ip : UInt32) (seen : List (Fin 8))
    (r : Scan) : Prop where
  my_some : ∀ i, r.myClient = some i → Owns t mac i
  my_none : r.myClient = none → ∀ i ∈ seen, ¬ Owns t mac i
  req_some : ∀ i, r.reqClient = some i → (t i).state = .idle ∧ (t i).ipAddr = ip
  req_none : r.reqClient = none → ∀ i ∈ seen, (t i).state = .idle → (t i).ipAddr ≠ ip
  unavailable : r.ipUnavailable = true ↔
    ∃ i ∈ seen, (t i).state ≠ .idle ∧ (t i).macAddr ≠ mac ∧ (t i).ipAddr = ip
  myHistory_some : ∀ i, r.myHistoryClient = some i → (t i).state = .idle
  free_some : ∀ i, r.freeClient = some i → (t i).state = .idle
  history_some : ∀ i, r.historyClient = some i → (t i).state = .idle

/-- One turn of the scan. -/
theorem scanClient_spec {t : ClientTable} {mac : Mac} {ip : UInt32} {seen : List (Fin 8)}
    {r : Scan} (h : ScanSpec t mac ip seen r) (i : Fin 8) :
    ScanSpec t mac ip (seen ++ [i]) (scanClient t mac ip r i) := by
  obtain ⟨h1, h2, h3, h4, h5, h6, h7, h8⟩ := h
  unfold scanClient
  by_cases hidle : (t i).state = .idle
  · -- an idle entry can set four pointers, each by its own test
    rw [if_pos hidle]
    constructor <;> grind -ext [Owns]
  · rw [if_neg hidle]
    split_ifs <;> constructor <;> grind -ext [Owns]

/-- The pointers after the scan over the whole table. -/
theorem scanClients_spec (t : ClientTable) (mac : Mac) (ip : UInt32) :
    ScanSpec t mac ip (List.finRange 8) (scanClients t mac ip) := by
  suffices h : ∀ (rest seen : List (Fin 8)) (r : Scan), ScanSpec t mac ip seen r →
      ScanSpec t mac ip (seen ++ rest) (rest.foldl (scanClient t mac ip) r) from
    h (List.finRange 8) [] _ (by constructor <;> simp)
  intro rest
  induction rest with
  | nil => intro seen r h; simpa using h
  | cons i rest ih =>
    intro seen r h
    have := ih (seen ++ [i]) _ (scanClient_spec h i)
    rwa [List.append_assoc] at this

/-- The only active entry of a client is found. -/
theorem ScanSpec.myClient_eq {t : ClientTable} {mac : Mac} {ip : UInt32} {r : Scan}
    (h : ScanSpec t mac ip (List.finRange 8) r) {my : Fin 8} (hmy : Owns t mac my)
    (hone : ∀ j, Owns t mac j → j = my) : r.myClient = some my := by
  cases hfound : r.myClient with
  | none => exact absurd hmy (h.my_none hfound my (List.mem_finRange my))
  | some j => rw [hone j (h.my_some j hfound)]

/-- A client without an entry gets an idle one. -/
theorem ScanSpec.fallback_idle {t : ClientTable} {mac : Mac} {ip : UInt32} {seen : List (Fin 8)}
    {r : Scan} (h : ScanSpec t mac ip seen r) {i : Fin 8}
    (hi : (r.reqClient <|> r.myHistoryClient <|> r.freeClient <|> r.historyClient) = some i) :
    (t i).state = .idle := by
  rw [Option.orElse_eq_some, Option.orElse_eq_some, Option.orElse_eq_some] at hi
  rcases hi with hi | ⟨-, hi | ⟨-, hi | ⟨-, hi⟩⟩⟩
  · exact (h.req_some i hi).1
  · exact h.myHistory_some i hi
  · exact h.free_some i hi
  · exact h.history_some i hi

/-! ### What a request can do -/

/-- Entry `i` offered to client `mac`. -/
def offered (t : ClientTable) (i : Fin 8) (mac : Mac) : ClientTable :=
  Function.update t i
    { t i with macAddr := mac, timeout := dhcpDefaultTimeout, state := .request }

/-- Entry `i` bound to client `mac`, whose history is cleaned. -/
def bound (t : ClientTable) (i : Fin 8) (mac : Mac) : ClientTable :=
  cleanClientHistory (Function.update t i
    { t i with macAddr := mac, lease := dhcpDefaultLeaseTime, state := .bind }) mac

/-- Entry `i` taken from its client, which is forgotten. -/
def forgotten (t : ClientTable) (i : Fin 8) : ClientTable :=
  Function.update t i { t i with macAddr := zeroMac, state := .idle }

/-- Entry `i` taken from its client, whose history it becomes if it was bound. -/
def dropped (t : ClientTable) (i : Fin 8) : ClientTable :=
  Function.update t i (dropClient (t i))

/-- No entry is held by another client under address `ip`. -/
def IpAvailable (t : ClientTable) (mac : Mac) (ip : UInt32) : Prop :=
  ∀ i, (t i).state ≠ .idle → (t i).macAddr ≠ mac → (t i).ipAddr ≠ ip

/-- No idle entry has address `ip`. -/
def NoIdleIp (t : ClientTable) (ip : UInt32) : Prop :=
  ∀ i, (t i).state = .idle → (t i).ipAddr ≠ ip

/-- The possible effects of request `q` on the table, with the reply: the client gets no
    address and keeps or loses its entry, or it is offered an entry, or it is bound to one. -/
inductive RequestOutcome (s : DhcpServer) (alloc : Bool) (q : DhcpRequest) :
    ClientTable → Option DhcpReply → Prop where
  | refused (reply : Option DhcpReply) (hnak : ∀ r ∈ reply, r.msgType = dhcpMsgNak) :
      RequestOutcome s alloc q s.clients reply
  | dropped (my : Fin 8) (reply : Option DhcpReply) (hmy : Owns s.clients q.macAddr my)
      (hnak : ∀ r ∈ reply, r.msgType = dhcpMsgNak) :
      RequestOutcome s alloc q (dropped s.clients my) reply
  | offeredNew (i : Fin 8) (hnone : ∀ j, ¬ Owns s.clients q.macAddr j)
      (hidle : (s.clients i).state = .idle) :
      RequestOutcome s alloc q (offered s.clients i q.macAddr)
        (dhcpOfferGenAndSend s alloc (s.clients i) q.macAddr q.xid)
  | offeredOwn (my : Fin 8) (hmy : Owns s.clients q.macAddr my) :
      RequestOutcome s alloc q (offered s.clients my q.macAddr)
        (dhcpOfferGenAndSend s alloc (s.clients my) q.macAddr q.xid)
  | offeredOther (my i : Fin 8) (hmy : Owns s.clients q.macAddr my)
      (hidle : (s.clients i).state = .idle) :
      RequestOutcome s alloc q (offered (forgotten s.clients my) i q.macAddr)
        (dhcpOfferGenAndSend s alloc (s.clients i) q.macAddr q.xid)
  | boundNew (i : Fin 8) (hnone : ∀ j, ¬ Owns s.clients q.macAddr j)
      (hidle : (s.clients i).state = .idle) (hip : (s.clients i).ipAddr = q.reqIpAddr) :
      RequestOutcome s alloc q (bound s.clients i q.macAddr)
        (dhcpAckGenAndSend s alloc (s.clients i) q.macAddr q.xid)
  | boundOwn (my : Fin 8) (hmy : Owns s.clients q.macAddr my)
      (hacc : serverAccepted s q) (hreq : NoIdleIp s.clients q.reqIpAddr)
      (havail : IpAvailable s.clients q.macAddr q.reqIpAddr) :
      RequestOutcome s alloc q (bound s.clients my q.macAddr)
        (dhcpAckGenAndSend s alloc (s.clients my) q.macAddr q.xid)
  | boundOther (my i : Fin 8) (hmy : Owns s.clients q.macAddr my)
      (hidle : (s.clients i).state = .idle) (hip : (s.clients i).ipAddr = q.reqIpAddr) :
      RequestOutcome s alloc q (bound (SerialNet.dropped s.clients my) i q.macAddr)
        (dhcpAckGenAndSend s alloc (s.clients i) q.macAddr q.xid)

/-- An idle entry found for a DISCOVER is offered. -/
theorem handleRequest_offer {s : DhcpServer} {q : DhcpRequest} {t : ClientTable} {i : Fin 8}
    (alloc : Bool) (hb : lookupBranch s q = (t, some i)) (hidle : (t i).state = .idle)
    (htype : q.msgType = dhcpMsgDiscover) :
    handleRequest s alloc q = ({ s with clients := offered t i q.macAddr },
      dhcpOfferGenAndSend s alloc (t i) q.macAddr q.xid) := by
  simp [handleRequest, clientTableLookup, hb, dhcpClientSmeHandle, hidle, htype, offerClient,
    offered, dhcpOfferGenAndSend, addressReply]

/-- An entry found for a REQUEST is bound. -/
theorem handleRequest_bind {s : DhcpServer} {q : DhcpRequest} {t : ClientTable} {i : Fin 8}
    (alloc : Bool) (hb : lookupBranch s q = (t, some i)) (hsel : (t i).state ≠ .select)
    (htype : q.msgType = dhcpMsgRequest) :
    handleRequest s alloc q = ({ s with clients := bound t i q.macAddr },
      dhcpAckGenAndSend s alloc (t i) q.macAddr q.xid) := by
  have hne : ¬ dhcpMsgRequest = dhcpMsgDiscover := by decide
  cases hst : (t i).state <;>
    simp_all [handleRequest, clientTableLookup, dhcpClientSmeHandle, bindClient, bound,
      dhcpAckGenAndSend, addressReply]

/-- Without an entry the answer is a NAK or nothing. -/
theorem handleRequest_none {s : DhcpServer} {q : DhcpRequest} {t : ClientTable}
    (alloc : Bool) (hb : lookupBranch s q = (t, none)) :
    (handleRequest s alloc q).1 = { s with clients := t } ∧
      ∀ r ∈ (handleRequest s alloc q).2, r.msgType = dhcpMsgNak := by
  simp only [handleRequest, clientTableLookup, hb, true_and]
  intro r hr
  split_ifs at hr
  · unfold dhcpNakGenAndSend at hr
    split_ifs at hr
    · rw [Option.mem_some_iff] at hr
      rw [← hr]
    · exact absurd hr (Option.not_mem_none r)
  · exact absurd hr (Option.not_mem_none r)

section Outcome

variable {s : DhcpServer} (alloc : Bool) {q : DhcpRequest}

/-- A DISCOVER is answered by an offer or refused. -/
theorem handleRequest_discover (htype : q.msgType = dhcpMsgDiscover) :
    RequestOutcome s alloc q (handleRequest s alloc q).1.clients (handleRequest s alloc q).2 := by
  have hscan := scanClients_spec s.clients q.macAddr q.reqIpAddr
  have hb : lookupBranch s q
      = lookupDiscover s.clients (scanClients s.clients q.macAddr q.reqIpAddr) := if_pos htype
  -- from here on only the meaning of the pointers is used, not the scan
  generalize scanClients s.clients q.macAddr q.reqIpAddr = r at hscan hb
  unfold lookupDiscover at hb
  cases hmy : r.myClient with
  | some my =>
    simp only [hmy] at hb
    have hown := hscan.my_some my hmy
    cases hreq : r.reqClient with
    | some i =>
      simp only [hreq] at hb
      obtain ⟨hidle, -⟩ := hscan.req_some i hreq
      have hne : i ≠ my := fun h => hown.1 (h ▸ hidle)
      have ht : (forgotten s.clients my i) = s.clients i := Function.update_of_ne hne _ _
      -- the client moves to the idle entry with the address it asks for
      have hforget : Function.update (Function.update s.clients my
            { s.clients my with state := .idle }) my
          (dropClient (Function.update s.clients my { s.clients my with state := .idle } my))
          = forgotten s.clients my := by
        simp [dropClient, forgotten]
      rw [hforget] at hb
      rw [handleRequest_offer alloc hb (by rw [ht]; exact hidle) htype, ht]
      exact .offeredOther my i hown hidle
    | none =>
      simp only [hreq] at hb
      rw [handleRequest_offer alloc hb (by simp) htype]
      have h : RequestOutcome s alloc q _ _ := .offeredOwn my hown
      simpa [offered, dhcpOfferGenAndSend, addressReply] using h
  | none =>
    simp only [hmy] at hb
    cases hret : (r.reqClient <|> r.myHistoryClient <|> r.freeClient <|> r.historyClient) with
    | none =>
      rw [hret] at hb
      obtain ⟨h1, h2⟩ := handleRequest_none alloc hb
      rw [h1]
      exact .refused _ h2
    | some i =>
      rw [hret] at hb
      rw [handleRequest_offer alloc hb (hscan.fallback_idle hret) htype]
      exact .offeredNew i (fun j => hscan.my_none hmy j (List.mem_finRange j))
        (hscan.fallback_idle hret)

/-- A REQUEST is answered by an acknowledgement or refused. -/
theorem handleRequest_request (hsel : ∀ i, (s.clients i).state ≠ .select)
    (htype : q.msgType = dhcpMsgRequest) :
    RequestOutcome s alloc q (handleRequest s alloc q).1.clients (handleRequest s alloc q).2 := by
  have hscan := scanClients_spec s.clients q.macAddr q.reqIpAddr
  have hb : lookupBranch s q = lookupRequest s.clients
      (scanClients s.clients q.macAddr q.reqIpAddr) (serverAccepted s q) := by
    rw [lookupBranch, htype]; rfl
  generalize scanClients s.clients q.macAddr q.reqIpAddr = r at hscan hb
  have refuse : ∀ {t}, lookupBranch s q = (t, none) →
      (handleRequest s alloc q).1.clients = t ∧
        ∀ reply ∈ (handleRequest s alloc q).2, reply.msgType = dhcpMsgNak := fun h => by
    obtain ⟨h1, h2⟩ := handleRequest_none alloc h
    exact ⟨by rw [h1], h2⟩
  unfold lookupRequest at hb
  cases hmy : r.myClient with
  | some my =>
    simp only [hmy] at hb
    have hown := hscan.my_some my hmy
    -- another client has the address: the entry is given up
    by_cases hun : r.ipUnavailable = true
    · rw [if_pos hun] at hb
      obtain ⟨h1, h2⟩ := refuse hb
      rw [h1]
      exact .dropped my _ hown h2
    · rw [if_neg hun] at hb
      cases hreq : r.reqClient with
      | some i =>
        simp only [hreq] at hb
        obtain ⟨hidle, hip⟩ := hscan.req_some i hreq
        have hne : i ≠ my := fun h => hown.1 (h ▸ hidle)
        have ht : dropped s.clients my i = s.clients i := Function.update_of_ne hne _ _
        by_cases hacc : serverAccepted s q = true
        · rw [if_pos hacc] at hb
          change lookupBranch s q = (dropped s.clients my, some i) at hb
          rw [handleRequest_bind alloc hb (by rw [ht]; exact hsel i) htype, ht]
          exact .boundOther my i hown hidle hip
        · rw [if_neg hacc] at hb
          obtain ⟨h1, h2⟩ := refuse hb
          rw [h1]
          exact .dropped my _ hown h2
      | none =>
        simp only [hreq] at hb
        by_cases hacc : serverAccepted s q = true
        · rw [if_pos hacc] at hb
          rw [handleRequest_bind alloc hb (hsel my) htype]
          refine .boundOwn my hown hacc
            (fun j => hscan.req_none hreq j (List.mem_finRange j)) ?_
          intro j hj hmac hip
          exact hun (hscan.unavailable.2 ⟨j, List.mem_finRange j, hj, hmac, hip⟩)
        · rw [if_neg hacc] at hb
          obtain ⟨h1, h2⟩ := refuse hb
          rw [h1]
          exact .refused _ h2
  | none =>
    simp only [hmy] at hb
    have hfound : ∀ j, ¬ Owns s.clients q.macAddr j :=
      fun j => hscan.my_none hmy j (List.mem_finRange j)
    cases hret : (lookupBranch s q).2 with
    | none =>
      have hnone : lookupBranch s q = (s.clients, none) := by
        rw [← hret, hb]; split_ifs <;> rfl
      obtain ⟨h1, h2⟩ := refuse hnone
      rw [h1]
      exact .refused _ h2
    | some i =>
      have hreq : r.reqClient = some i := by
        rw [hb] at hret; split_ifs at hret; exact hret
      have hsome : lookupBranch s q = (s.clients, some i) := by
        rw [← hret, hb]; split_ifs <;> rfl
      obtain ⟨hidle, hip⟩ := hscan.req_some i hreq
      rw [handleRequest_bind alloc hsome (hsel i) htype]
      exact .boundNew i hfound hidle hip

/-- A client that asks for an address nobody else has, and that no idle entry has, is
    acknowledged the address of its own entry. -/
theorem handleRequest_own {my : Fin 8} (hmy : Owns s.clients q.macAddr my)
    (hone : ∀ j, Owns s.clients q.macAddr j → j = my) (hsel : (s.clients my).state ≠ .select)
    (htype : q.msgType = dhcpMsgRequest) (hacc : serverAccepted s q)
    (hreq : NoIdleIp s.clients q.reqIpAddr)
    (havail : IpAvailable s.clients q.macAddr q.reqIpAddr) :
    handleRequest s alloc q = ({ s with clients := bound s.clients my q.macAddr },
      dhcpAckGenAndSend s alloc (s.clients my) q.macAddr q.xid) := by
  have hscan := scanClients_spec s.clients q.macAddr q.reqIpAddr
  have hb : lookupBranch s q = lookupRequest s.clients
      (scanClients s.clients q.macAddr q.reqIpAddr) (serverAccepted s q) := by
    rw [lookupBranch, htype]; rfl
  generalize scanClients s.clients q.macAddr q.reqIpAddr = r at hscan hb
  have hmine := hscan.myClient_eq hmy hone
  have hfree : r.reqClient = none := by
    cases h : r.reqClient with
    | none => rfl
    | some j => exact absurd (hscan.req_some j h).2 (hreq j (hscan.req_some j h).1)
  have hun : r.ipUnavailable ≠ true := fun h => by
    obtain ⟨j, -, h1, h2, h3⟩ := hscan.unavailable.1 h
    exact havail j h1 h2 h3
  refine handleRequest_bind alloc ?_ hsel htype
  rw [hb, lookupRequest, hmine, hfree, hacc]
  simp [hun]

/-- Any other message gives no address. -/
theorem handleRequest_other (hd : q.msgType ≠ dhcpMsgDiscover) (hr : q.msgType ≠ dhcpMsgRequest) :
    RequestOutcome s alloc q (handleRequest s alloc q).1.clients (handleRequest s alloc q).2 := by
  have hscan := scanClients_spec s.clients q.macAddr q.reqIpAddr
  have hb : lookupBranch s q
        = lookupRelease s.clients (scanClients s.clients q.macAddr q.reqIpAddr) ∨
      lookupBranch s q = (s.clients, none) := by
    unfold lookupBranch
    rw [if_neg hd, if_neg hr]
    split_ifs <;> simp
  generalize scanClients s.clients q.macAddr q.reqIpAddr = r at hscan hb
  unfold lookupRelease at hb
  rcases hb with hb | hb
  · cases hmy : r.myClient with
    | some my =>
      simp only [hmy] at hb
      obtain ⟨h1, h2⟩ := handleRequest_none alloc hb
      rw [h1]
      exact .dropped my _ (hscan.my_some my hmy) h2
    | none =>
      simp only [hmy] at hb
      obtain ⟨h1, h2⟩ := handleRequest_none alloc hb
      rw [h1]
      exact .refused _ h2
  · obtain ⟨h1, h2⟩ := handleRequest_none alloc hb
    rw [h1]
    exact .refused _ h2

/-- **Every request has one of the listed outcomes**, as long as no entry rests in `SELECT`. -/
theorem handleRequest_outcome (hsel : ∀ i, (s.clients i).state ≠ .select) :
    RequestOutcome s alloc q (handleRequest s alloc q).1.clients (handleRequest s alloc q).2 := by
  by_cases hd : q.msgType = dhcpMsgDiscover
  · exact handleRequest_discover alloc hd
  by_cases hr : q.msgType = dhcpMsgRequest
  · exact handleRequest_request alloc hsel hr
  · exact handleRequest_other alloc hd hr

end Outcome

section Effects

variable {s : DhcpServer} {alloc : Bool} {q : DhcpRequest} {t' : ClientTable}
  {reply : Option DhcpReply}

/-- The entry bound is not touched by the cleaning of histories. -/
theorem bound_self (t : ClientTable) (i : Fin 8) (mac : Mac) :
    bound t i mac i
      = { t i with macAddr := mac, lease := dhcpDefaultLeaseTime, state := .bind } := by
  simp [bound, cleanClientHistory]

/-- Active entries other than the one bound are not touched either. -/
theorem bound_of_active {t : ClientTable} {i j : Fin 8} {mac : Mac} (hne : j ≠ i)
    (hj : (t j).state ≠ .idle) : bound t i mac j = t j := by
  simp [bound, cleanClientHistory, Function.update_of_ne hne, hj]

/-- A request does not touch what another client holds. -/
theorem RequestOutcome.frame (h : RequestOutcome s alloc q t' reply) {x : Fin 8}
    (hx : (s.clients x).state ≠ .idle) (hmac : (s.clients x).macAddr ≠ q.macAddr) :
    t' x = s.clients x := by
  have hidle : ∀ i, (s.clients i).state = .idle → x ≠ i := fun i hi h => hx (h ▸ hi)
  have howns : ∀ i, Owns s.clients q.macAddr i → x ≠ i := fun i hi h => hmac (h ▸ hi.2)
  cases h with
  | refused => rfl
  | dropped my reply hmy => exact Function.update_of_ne (howns my hmy) _ _
  | offeredNew i _ hi => exact Function.update_of_ne (hidle i hi) _ _
  | offeredOwn my hmy => exact Function.update_of_ne (howns my hmy) _ _
  | offeredOther my i hmy hi =>
    exact (Function.update_of_ne (hidle i hi) _ _).trans
      (Function.update_of_ne (howns my hmy) _ _)
  | boundNew i _ hi => exact bound_of_active (hidle i hi) hx
  | boundOwn my hmy => exact bound_of_active (howns my hmy) hx
  | boundOther my i hmy hi =>
    have hd : SerialNet.dropped s.clients my x = s.clients x :=
      Function.update_of_ne (howns my hmy) _ _
    rw [bound_of_active (hidle i hi) (by rw [hd]; exact hx), hd]

/-- What a reply says is what the table holds afterwards. -/
inductive ReplyMeans (t t' : ClientTable) (mac : Mac) (r : DhcpReply) : Prop where
  | nak (htype : r.msgType = dhcpMsgNak)
  | offer (i : Fin 8) (htype : r.msgType = dhcpMsgOffer) (hmac : r.chaddr = mac)
      (hip : r.yiaddr = (t i).ipAddr)
      (hentry : t' i = { t i with macAddr := mac, timeout := dhcpDefaultTimeout, state := .request })
  | ack (i : Fin 8) (htype : r.msgType = dhcpMsgAck) (hmac : r.chaddr = mac)
      (hip : r.yiaddr = (t i).ipAddr)
      (hentry : t' i
        = { t i with macAddr := mac, lease := dhcpDefaultLeaseTime, state := .bind })

/-- The fields of a reply that gives an address. -/
theorem addressReply_fields {type : UInt8} {c : DhcpClient} {mac : Mac} {xid : UInt32}
    {r : DhcpReply} (h : r ∈ addressReply s type alloc c mac xid) :
    r.msgType = type ∧ r.chaddr = mac ∧ r.yiaddr = c.ipAddr := by
  unfold addressReply at h
  split_ifs at h
  · rw [Option.mem_some_iff] at h
    rw [← h]
    exact ⟨rfl, rfl, rfl⟩
  · exact absurd h (Option.not_mem_none r)

/-- A reply was allocated. -/
theorem addressReply_alloc {type : UInt8} {c : DhcpClient} {mac : Mac} {xid : UInt32}
    {r : DhcpReply} (h : r ∈ addressReply s type alloc c mac xid) : alloc = true := by
  by_contra halloc
  rw [addressReply, if_pos halloc] at h
  exact absurd h (Option.not_mem_none r)

/-- Every reply is true of the table after it. -/
theorem RequestOutcome.reply_means (h : RequestOutcome s alloc q t' reply) :
    ∀ r ∈ reply, ReplyMeans s.clients t' q.macAddr r := by
  intro r hr
  cases h with
  | refused _ hnak => exact .nak (hnak r hr)
  | dropped _ _ _ hnak => exact .nak (hnak r hr)
  | offeredNew i =>
    obtain ⟨h1, h2, h3⟩ := addressReply_fields hr
    exact .offer i h1 h2 h3 (Function.update_self _ _ _)
  | offeredOwn my =>
    obtain ⟨h1, h2, h3⟩ := addressReply_fields hr
    exact .offer my h1 h2 h3 (Function.update_self _ _ _)
  | offeredOther my i hmy hidle =>
    obtain ⟨h1, h2, h3⟩ := addressReply_fields hr
    have hne : i ≠ my := fun h => hmy.1 (h ▸ hidle)
    have ht : forgotten s.clients my i = s.clients i := Function.update_of_ne hne _ _
    refine .offer i h1 h2 h3 ?_
    rw [offered, ht]
    exact Function.update_self _ _ _
  | boundNew i =>
    obtain ⟨h1, h2, h3⟩ := addressReply_fields hr
    exact .ack i h1 h2 h3 (bound_self _ _ _)
  | boundOwn my =>
    obtain ⟨h1, h2, h3⟩ := addressReply_fields hr
    exact .ack my h1 h2 h3 (bound_self _ _ _)
  | boundOther my i hmy hidle =>
    obtain ⟨h1, h2, h3⟩ := addressReply_fields hr
    have hne : i ≠ my := fun h => hmy.1 (h ▸ hidle)
    have ht : SerialNet.dropped s.clients my i = s.clients i := Function.update_of_ne hne _ _
    exact .ack i h1 h2 h3 (by rw [bound_self, ht])

end Effects

/-! ### What a request, a tick and a deletion leave alone -/

/-- The two tables give their entries the same addresses. -/
def SameAddresses (t t' : ClientTable) : Prop := ∀ i, (t' i).ipAddr = (t i).ipAddr

theorem sameAddresses_update (t : ClientTable) (i : Fin 8) {c : DhcpClient}
    (h : c.ipAddr = (t i).ipAddr) : SameAddresses t (Function.update t i c) := by
  intro j
  by_cases hj : j = i
  · subst hj; rw [Function.update_self, h]
  · rw [Function.update_of_ne hj]

theorem SameAddresses.trans {t t' t'' : ClientTable} (h : SameAddresses t t')
    (h' : SameAddresses t' t'') : SameAddresses t t'' := fun i => (h' i).trans (h i)

theorem sameAddresses_bound (t : ClientTable) (i : Fin 8) (mac : Mac) :
    SameAddresses t (bound t i mac) := by
  intro j
  have hupd := sameAddresses_update t i
    (c := { t i with macAddr := mac, lease := dhcpDefaultLeaseTime, state := .bind }) rfl j
  rw [← hupd, bound, cleanClientHistory]
  split <;> rfl

theorem RequestOutcome.sameAddresses {s : DhcpServer} {alloc : Bool} {q : DhcpRequest}
    {t' : ClientTable} {reply : Option DhcpReply} (h : RequestOutcome s alloc q t' reply) :
    SameAddresses s.clients t' := by
  have hdropped : ∀ i, SameAddresses s.clients (SerialNet.dropped s.clients i) :=
    fun i => sameAddresses_update _ i rfl
  have hforgotten : ∀ i, SameAddresses s.clients (forgotten s.clients i) :=
    fun i => sameAddresses_update _ i rfl
  cases h with
  | refused => exact fun _ => rfl
  | dropped my => exact hdropped my
  | offeredNew i => exact sameAddresses_update _ i rfl
  | offeredOwn my => exact sameAddresses_update _ my rfl
  | offeredOther my i => exact (hforgotten my).trans (sameAddresses_update _ i rfl)
  | boundNew i => exact sameAddresses_bound _ i _
  | boundOwn my => exact sameAddresses_bound _ my _
  | boundOther my i => exact (hdropped my).trans (sameAddresses_bound _ i _)

/-- `DHCPS_ClientDelete` does nothing, or ends one lease. -/
theorem dhcpsClientDelete_cases (s : DhcpServer) (mac : Option Mac) :
    (dhcpsClientDelete s mac).1 = s ∨
      ∃ i, (s.clients i).state = .bind ∧
        (dhcpsClientDelete s mac).1 = { s with clients := dropped s.clients i } := by
  unfold dhcpsClientDelete
  split
  · exact .inl rfl
  split
  · exact .inl rfl
  split
  · exact .inl rfl
  split
  · exact .inl rfl
  · rename_i i _ hbind
    rw [ne_eq, not_not] at hbind
    exact .inr ⟨i, hbind, by simp [dropped, dropClient, hbind]⟩

/-- A tick makes an entry idle, or leaves its client and ages it. -/
theorem tickClient_cases (c : DhcpClient) (present : Bool) :
    (tickClient c present).ipAddr = c.ipAddr ∧
      (tickClient c present = c ∨ (tickClient c present).state = .idle ∨
        ((tickClient c present).state = c.state ∧ (tickClient c present).macAddr = c.macAddr)) := by
  unfold tickClient
  split_ifs <;> simp

/-- A request changes only the table. -/
theorem handleRequest_server (s : DhcpServer) (alloc : Bool) (q : DhcpRequest) :
    (handleRequest s alloc q).1 = { s with clients := (handleRequest s alloc q).1.clients } := by
  unfold handleRequest
  split
  · rfl
  · unfold dhcpClientSmeHandle offerClient bindClient
    split <;> (try split_ifs) <;> rfl

end SerialNet
