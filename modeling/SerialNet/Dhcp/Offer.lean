import SerialNet.Dhcp.Invariant

namespace SerialNet

/-!
# A DHCP offer is honoured

Once entry `x` is offered to client `mac` it rests in `REQUEST` with a timeout (`Pending`).
Messages of other clients and deletions do not touch it, a tick takes one from its timeout
(`pending_step`), so it stays the client's until the ten ticks are over (`pending_run`).  A
matching REQUEST then finds exactly this entry.
-/

/-- The event is not a request of client `mac`. -/
def NotFrom (mac : Mac) (s : Dhcp) : DhcpEvent → Prop
  | .recv payload beyond _ => ∀ q ∈ receivedRequest s payload beyond, q.macAddr ≠ mac
  | .tick _ => True
  | .clientDelete _ => True

/-- 1 for a tick, 0 for any other event. -/
def DhcpEvent.ticks : DhcpEvent → ℕ
  | .tick _ => 1
  | .recv .. => 0
  | .clientDelete _ => 0

/-- The number of ticks among the events. -/
def ticks : List DhcpEvent → ℕ
  | [] => 0
  | e :: es => e.ticks + ticks es

/-- Entry `x` is offered to `mac` for another `n` ticks. -/
structure Pending (x : Fin 8) (mac : Mac) (n : ℕ) (s : Dhcp) : Prop where
  inv : TableInv s.server.clients
  enable : s.server.enable = true
  state : (s.server.clients x).state = .request
  macAddr : (s.server.clients x).macAddr = mac
  timeout : (s.server.clients x).timeout = n

/-- The reply gives no address, or that of an entry other than `x`. -/
def AvoidsEntry (t : ClientTable) (x : Fin 8) (r : DhcpReply) : Prop :=
  r.msgType = dhcpMsgNak ∨ ∃ i, i ≠ x ∧ r.yiaddr = (t i).ipAddr

section Step

variable {s : Dhcp} {x : Fin 8} {mac : Mac} {n : ℕ}

/-- Another client's request neither touches a pending entry nor hands out its address. -/
theorem pending_recv (h : Pending x mac n s) {payload : List UInt8} {beyond : Memory}
    (alloc : Bool) (hq : NotFrom mac s (.recv payload beyond alloc)) :
    (dhcpStep s (.recv payload beyond alloc)).1.server.clients x = s.server.clients x ∧
      ∀ r ∈ (dhcpStep s (.recv payload beyond alloc)).2, AvoidsEntry s.server.clients x r := by
  simp only [dhcpStep]
  cases hreq : receivedRequest s payload beyond with
  | none =>
    obtain ⟨h1, h2⟩ := dhcpsRecvCb_none alloc hreq
    rw [h1, h2]
    exact ⟨rfl, by simp⟩
  | some q =>
    obtain ⟨h1, h2⟩ := dhcpsRecvCb_some alloc hreq
    rw [h1, h2]
    have hmac : (s.server.clients x).macAddr ≠ q.macAddr := by
      rw [h.macAddr]
      exact (hq q (by rw [hreq]; rfl)).symm
    have hactive : (s.server.clients x).state ≠ .idle := by rw [h.state]; decide
    have hout := handleRequest_outcome alloc (q := q) h.inv.not_select
    have hframe := hout.frame hactive hmac
    refine ⟨hframe, fun r hr => ?_⟩
    -- the entry a reply speaks of is the sender's afterwards, and `x` is not
    have hne : ∀ i, ((handleRequest s.server alloc q).1.clients i).macAddr = q.macAddr → i ≠ x := by
      rintro i hi rfl
      rw [hframe] at hi
      exact hmac hi
    cases hout.reply_means r hr with
    | nak htype => exact .inl htype
    | offer i _ _ hip hentry => exact .inr ⟨i, hne i (by rw [hentry]), hip⟩
    | ack i _ _ hip hentry => exact .inr ⟨i, hne i (by rw [hentry]), hip⟩

/-- A tick takes one from the timeout of a pending entry. -/
theorem pending_tick (h : Pending x mac n s) (hn : 2 ≤ n) (present : Fin 8 → Bool) :
    (dhcpStep s (.tick present)).1.server.clients x
      = { s.server.clients x with timeout := n - 1 } := by
  have hlast : ¬ (n ≠ 0 ∧ n - 1 = 0) := by omega
  simp [dhcpStep, dhcpTickHandle, h.enable, tickClient, h.state, h.timeout, hlast]

/-- The last tick takes the entry from the client. -/
theorem pending_last_tick (h : Pending x mac 1 s) (present : Fin 8 → Bool) :
    ((dhcpStep s (.tick present)).1.server.clients x).state = .idle ∧
      ((dhcpStep s (.tick present)).1.server.clients x).macAddr = zeroMac := by
  simp [dhcpStep, dhcpTickHandle, h.enable, tickClient, h.state, h.timeout]

/-- A deletion ends leases only. -/
theorem pending_clientDelete (h : Pending x mac n s) (m : Option Mac) :
    (dhcpStep s (.clientDelete m)).1.server.clients x = s.server.clients x := by
  rcases dhcpsClientDelete_cases s.server m with hs | ⟨i, hi, hs⟩
  · simp only [dhcpStep, hs]
  · have hne : x ≠ i := fun hx => by
      rw [← hx, h.state] at hi
      exact absurd hi (by decide)
    simp only [dhcpStep, hs]
    exact Function.update_of_ne hne _ _

/-- One event while the offer is pending. -/
theorem pending_step (h : Pending x mac n s) {e : DhcpEvent} (hq : NotFrom mac s e)
    (hn : e.ticks < n) :
    Pending x mac (n - e.ticks) (dhcpStep s e).1 ∧
      ∀ r ∈ (dhcpStep s e).2, AvoidsEntry s.server.clients x r := by
  obtain ⟨hinv, -, hen⟩ := dhcpStep_tableInv e h.inv
  have hen' := hen.trans h.enable
  cases e with
  | recv payload beyond alloc =>
    obtain ⟨hx, hr⟩ := pending_recv h alloc hq
    exact ⟨⟨hinv, hen', by rw [hx, h.state], by rw [hx, h.macAddr], by rw [hx, h.timeout]; rfl⟩, hr⟩
  | tick present =>
    have hn' : 1 < n := hn
    have hx := pending_tick h hn' present
    exact ⟨⟨hinv, hen', by rw [hx, h.state], by rw [hx, h.macAddr], by rw [hx]; rfl⟩,
      by simp [dhcpStep]⟩
  | clientDelete m =>
    have hx := pending_clientDelete h m
    exact ⟨⟨hinv, hen', by rw [hx, h.state], by rw [hx, h.macAddr], by rw [hx, h.timeout]; rfl⟩,
      by simp [dhcpStep]⟩

/-- An offer that was sent is pending for ten ticks. -/
theorem pending_of_offer (hinv : TableInv s.server.clients) (hen : s.server.enable = true)
    {e : DhcpEvent} {offer : DhcpReply} (hr : (dhcpStep s e).2 = some offer)
    (htype : offer.msgType = dhcpMsgOffer) :
    ∃ x, Pending x offer.chaddr 10 (dhcpStep s e).1 ∧
      offer.yiaddr = (s.server.clients x).ipAddr := by
  obtain ⟨hinv', -, hen'⟩ := dhcpStep_tableInv e hinv
  cases e with
  | tick => simp [dhcpStep] at hr
  | clientDelete => simp [dhcpStep] at hr
  | recv payload beyond alloc =>
    simp only [dhcpStep] at hr hinv' hen' ⊢
    cases hreq : receivedRequest s payload beyond with
    | none => simp [(dhcpsRecvCb_none _ hreq).2] at hr
    | some q =>
      obtain ⟨h1, h2⟩ := dhcpsRecvCb_some alloc hreq
      have hout := handleRequest_outcome alloc (q := q) hinv.not_select
      rw [h2] at hr
      cases hout.reply_means offer hr with
      | nak hnak => rw [htype] at hnak; exact absurd hnak (by decide)
      | ack _ hack => rw [htype] at hack; exact absurd hack (by decide)
      | offer x _ hmac hip hentry =>
        rw [← h1] at hentry
        exact ⟨x, ⟨hinv', hen'.trans hen, by rw [hentry], by rw [hentry, hmac],
          by rw [hentry]; rfl⟩, hip⟩

/-- The payload is a REQUEST of `mac` for address `ip` that names this server or none. -/
def AsksFor (s : Dhcp) (mac : Mac) (ip : UInt32) (payload : List UInt8) (beyond : Memory) : Prop :=
  ∃ q, receivedRequest s payload beyond = some q ∧ q.msgType = dhcpMsgRequest ∧
    q.macAddr = mac ∧ q.reqIpAddr = ip ∧ (q.serverId = 0 ∨ q.serverId = s.server.serverIpAddr)

/-- The event is answered by an ACK of address `ip` to `mac`, and binds entry `x` to it. -/
def Acknowledges (s : Dhcp) (e : DhcpEvent) (mac : Mac) (ip : UInt32) (x : Fin 8) : Prop :=
  (∃ r, (dhcpStep s e).2 = some r ∧ r.msgType = dhcpMsgAck ∧ r.chaddr = mac ∧ r.yiaddr = ip) ∧
    ((dhcpStep s e).1.server.clients x).state = .bind ∧
    ((dhcpStep s e).1.server.clients x).macAddr = mac ∧
    ((dhcpStep s e).1.server.clients x).ipAddr = ip

/-- The client that takes up a pending offer is acknowledged. -/
theorem pending_request (h : Pending x mac n s)
    (hpool : Function.Injective fun i => (s.server.clients i).ipAddr)
    {payload : List UInt8} {beyond : Memory}
    (hask : AsksFor s mac (s.server.clients x).ipAddr payload beyond) :
    Acknowledges s (.recv payload beyond true) mac (s.server.clients x).ipAddr x := by
  obtain ⟨q, hreq, htype, rfl, hip, hsid⟩ := hask
  have hactive : (s.server.clients x).state ≠ .idle := by rw [h.state]; decide
  have hmine : Owns s.server.clients q.macAddr x := ⟨hactive, h.macAddr⟩
  have hone : ∀ j, Owns s.server.clients q.macAddr j → j = x := fun j hj =>
    h.inv.active_unique j x hj.1 hactive (hj.2.trans h.macAddr.symm)
  have hacc : serverAccepted s.server q := by
    rcases hsid with h0 | h0 <;> simp [serverAccepted, h0]
  -- the only entry with the requested address is `x`, and it is not idle
  have hidle : NoIdleIp s.server.clients q.reqIpAddr := fun j hj hje => by
    have := hpool (hje.trans hip)
    exact hactive (this ▸ hj)
  have havail : IpAvailable s.server.clients q.macAddr q.reqIpAddr := fun j _ hj hje => by
    have := hpool (hje.trans hip)
    exact hj (this ▸ h.macAddr)
  obtain ⟨h1, h2⟩ := dhcpsRecvCb_some true hreq
  rw [handleRequest_own true hmine hone (h.inv.not_select x) htype hacc hidle havail] at h1 h2
  refine ⟨⟨_, h2, rfl, rfl, rfl⟩, ?_⟩
  simp only [dhcpStep]
  rw [h1]
  simp [bound_self]

end Step

/-- The events until the offer runs out: by induction on the events. -/
theorem pending_run {x : Fin 8} {mac : Mac} :
    ∀ (es : List DhcpEvent) (s : Dhcp) (n : ℕ), Pending x mac n s →
      Throughout dhcpStep (NotFrom mac) s es → ticks es < n →
      Pending x mac (n - ticks es) (trace dhcpStep s es).1 ∧
        SameAddresses s.server.clients (trace dhcpStep s es).1.server.clients ∧
        ∀ r, some r ∈ (trace dhcpStep s es).2 → AvoidsEntry s.server.clients x r
  | [], s, n, h, _, _ => ⟨h, fun _ => rfl, by simp [trace]⟩
  | e :: es, s, n, h, ⟨hq, hqs⟩, hn => by
    have hsum : ticks (e :: es) = e.ticks + ticks es := rfl
    obtain ⟨h1, hr⟩ := pending_step h hq (by omega)
    obtain ⟨-, haddr, -⟩ := dhcpStep_tableInv e h.inv
    obtain ⟨h2, haddrs, hrs⟩ := pending_run es _ _ h1 hqs (by omega)
    refine ⟨?_, haddr.trans haddrs, ?_⟩
    · rw [hsum, ← Nat.sub_sub]
      exact h2
    · intro r hr'
      rcases List.mem_cons.1 hr' with hhead | htail
      · exact hr r (by rw [← hhead]; rfl)
      · rcases hrs r htail with hnak | ⟨i, hi, hip⟩
        · exact .inl hnak
        · exact .inr ⟨i, hi, hip.trans (haddr i)⟩

/-- **An offer is honoured.**  After an OFFER of address `ip` to client `mac`, and any further
    events with fewer than ten ticks and nothing from `mac`, no other client was offered or
    acknowledged `ip`; a REQUEST of `mac` for it is acknowledged and binds its entry; and after
    nine ticks the next one empties the entry. -/
theorem offer_is_honoured {s : Dhcp} (hs : DhcpStarted s)
    (hpool : Function.Injective fun i => (s.server.clients i).ipAddr)
    (before : List DhcpEvent) (e : DhcpEvent) {offer : DhcpReply}
    (hoffer : (dhcpStep (trace dhcpStep s before).1 e).2 = some offer)
    (htype : offer.msgType = dhcpMsgOffer) (es : List DhcpEvent)
    (hquiet : Throughout dhcpStep (NotFrom offer.chaddr)
      (dhcpStep (trace dhcpStep s before).1 e).1 es)
    (hticks : ticks es < 10) :
    let after := trace dhcpStep (dhcpStep (trace dhcpStep s before).1 e).1 es
    ∃ x, (s.server.clients x).ipAddr = offer.yiaddr ∧
      (∀ r, some r ∈ after.2 → r.msgType = dhcpMsgOffer ∨ r.msgType = dhcpMsgAck →
        r.yiaddr ≠ offer.yiaddr) ∧
      (∀ payload beyond, AsksFor after.1 offer.chaddr offer.yiaddr payload beyond →
        Acknowledges after.1 (.recv payload beyond true) offer.chaddr offer.yiaddr x) ∧
      (ticks es = 9 → ∀ present,
        ((dhcpStep after.1 (.tick present)).1.server.clients x).state = .idle ∧
        ((dhcpStep after.1 (.tick present)).1.server.clients x).macAddr = zeroMac) := by
  intro after
  obtain ⟨hinv, haddr⟩ := dhcp_run_invariant s hs before
  set s₁ := (trace dhcpStep s before).1
  obtain ⟨x, hx, hip⟩ := pending_of_offer hinv.1 hinv.2 hoffer htype
  obtain ⟨-, haddr₁, -⟩ := dhcpStep_tableInv e hinv.1
  -- while the offer is pending every reply is about another entry
  obtain ⟨hpend, haddr₂, hreplies⟩ := pending_run es _ _ hx hquiet hticks
  have hsame := (haddr.trans haddr₁).trans haddr₂
  have hipx : offer.yiaddr = (after.1.server.clients x).ipAddr := by
    rw [haddr₂ x, haddr₁ x, hip]
  refine ⟨x, by rw [hipx, hsame x], ?_, ?_, ?_⟩
  -- so a reply with the offered address would need a second entry with it
  · intro r hr hgives
    rcases hreplies r hr with hnak | ⟨i, hi, hri⟩
    · rw [hnak] at hgives
      exact absurd hgives (by decide)
    · rw [hri, hip, haddr₁ i, haddr i, haddr x]
      exact fun heq => hi (hpool heq)
  · intro payload beyond hask
    have hpool' : Function.Injective fun i => (after.1.server.clients i).ipAddr :=
      fun i j hij => hpool ((hsame i).symm.trans (hij.trans (hsame j)))
    rw [hipx] at hask ⊢
    exact pending_request hpend hpool' hask
  · intro h9 present
    rw [h9] at hpend
    exact pending_last_tick hpend present

/-- The offer of 192.168.1.2 that the sample client gets first. -/
def sampleOffer : DhcpReply :=
  { msgType := dhcpMsgOffer, xid := 0, yiaddr := 0x0201a8c0, siaddr := 0, chaddr := sampleMac
    options := setOptionMsgType dhcpMsgOffer ++ setOptionLeaseTime (.ofNat dhcpDefaultLeaseTime)
      ++ setOptionServerId 0x0101a8c0 ++ setOptionSubnetMask 0x00ffffff ++ setOptionGw 0x0101a8c0
      ++ setOptionDns 0x0101a8c0 ++ setOptionEnd }

/-- The sample server answers a DISCOVER with this offer. -/
theorem sampleOffer_sent :
    (dhcpStep sampleDhcp (sampleRecv dhcpMsgDiscover sampleMac 0)).2 = some sampleOffer := by
  decide +kernel

/-- The addresses of the sample server differ. -/
theorem sampleDhcp_pool : Function.Injective fun i => (sampleDhcp.server.clients i).ipAddr := by
  show ∀ i j, (sampleDhcp.server.clients i).ipAddr = (sampleDhcp.server.clients j).ipAddr → i = j
  decide +kernel

/-- Another client's message and a tick between the offer and the request. -/
def sampleBetween : List DhcpEvent :=
  [sampleRecv dhcpMsgDiscover #v[2, 0, 0, 0, 0, 2] 0, .tick fun _ => true]

/-- The server after the offer, another client's offer and a tick. -/
def sampleLater : Dhcp :=
  (trace dhcpStep (dhcpStep sampleDhcp (sampleRecv dhcpMsgDiscover sampleMac 0)).1
    sampleBetween).1

/-- The sample message asks for the address that was offered. -/
theorem sample_asksFor : AsksFor sampleLater sampleMac 0x0201a8c0
    (sampleMessage dhcpMsgRequest sampleMac 0x0201a8c0) (fun _ => 0) :=
  ⟨⟨dhcpMsgRequest, 0x0201a8c0, 0, 0, sampleMac⟩, by decide +kernel, rfl, rfl, rfl, .inl rfl⟩

theorem offer_is_honoured_sample :
    ∃ x, Acknowledges sampleLater (sampleRecv dhcpMsgRequest sampleMac 0x0201a8c0) sampleMac
      0x0201a8c0 x := by
  have hother : ∀ q ∈ receivedRequest (dhcpStep sampleDhcp (sampleRecv dhcpMsgDiscover sampleMac 0)).1
      (sampleMessage dhcpMsgDiscover #v[2, 0, 0, 0, 0, 2] 0) (fun _ => 0), q.macAddr ≠ sampleMac := by
    decide +kernel
  obtain ⟨x, -, -, hreq, -⟩ := offer_is_honoured sampleDhcp_started sampleDhcp_pool []
    (sampleRecv dhcpMsgDiscover sampleMac 0) sampleOffer_sent rfl sampleBetween
    ⟨hother, trivial, trivial⟩ (by decide)
  exact ⟨x, hreq _ _ sample_asksFor⟩

end SerialNet
