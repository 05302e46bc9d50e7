import SerialNet.Lib.Run
import SerialNet.Dhcp.Table

namespace SerialNet

/-!
# The invariant of the DHCP client table

`TableInv` says how the entries of one client fit together: it holds at most one of them, it
is remembered by at most one idle entry, and while it is bound it occurs nowhere else.  Each
kind of edit preserves it, so each outcome of a request does, and by induction every run
(`dhcp_table_invariant`).
-/

/-- The invariant of the client table. -/
structure TableInv (t : ClientTable) : Prop where
  /-- A client holds at most one entry. -/
  active_unique : ∀ i j, (t i).state ≠ .idle → (t j).state ≠ .idle →
    (t i).macAddr = (t j).macAddr → i = j
  /-- A client has at most one history entry. -/
  history_unique : ∀ i j, (t i).state = .idle → (t j).state = .idle →
    (t i).macAddr ≠ zeroMac → (t i).macAddr = (t j).macAddr → i = j
  /-- A bound client occurs in no other entry. -/
  bind_alone : ∀ i j, (t i).state = .bind → (t i).macAddr ≠ zeroMac →
    (t j).macAddr = (t i).macAddr → j = i
  /-- No entry rests in `SELECT`: it is idle, negotiating or bound. -/
  not_select : ∀ i, (t i).state ≠ .select
  request_timeout : ∀ i, (t i).state = .request → 1 ≤ (t i).timeout ∧ (t i).timeout ≤ 10
  bind_lease : ∀ i, (t i).state = .bind → 0 < (t i).lease

/-- To forget an entry keeps the table in order. -/
theorem TableInv.forgotten {t : ClientTable} (h : TableInv t) (i : Fin 8) :
    TableInv (forgotten t i) := by
  obtain ⟨h1, h2, h3, h4, h5, h6⟩ := h
  unfold SerialNet.forgotten
  constructor <;> simp only [Function.update_apply] <;> grind -ext

/-- A bound entry that becomes history was its client's only entry. -/
theorem TableInv.dropped {t : ClientTable} (h : TableInv t) (i : Fin 8) :
    TableInv (dropped t i) := by
  -- An entry that was not bound loses its client too and is `forgotten`.
  by_cases hbind : (t i).state = .bind
  · have halone := h.bind_alone i
    obtain ⟨h1, h2, h3, h4, h5, h6⟩ := h
    unfold SerialNet.dropped dropClient
    constructor <;> simp only [Function.update_apply] <;> grind -ext
  · have hf : SerialNet.dropped t i = SerialNet.forgotten t i := by
      simp [SerialNet.dropped, SerialNet.forgotten, dropClient, hbind]
    rw [hf]
    exact h.forgotten i

/-- An offer is made to a client that holds nothing else. -/
theorem TableInv.offered {t : ClientTable} (h : TableInv t) {i : Fin 8} {mac : Mac}
    (hi : ∀ j, j ≠ i → ¬ Owns t mac j) : TableInv (offered t i mac) := by
  obtain ⟨h1, h2, h3, h4, h5, h6⟩ := h
  unfold SerialNet.offered dhcpDefaultTimeout
  unfold Owns at hi
  constructor <;> simp only [Function.update_apply] <;> grind -ext

/-- Binding cleans the client's history, so that it occurs nowhere else. -/
theorem TableInv.bound {t : ClientTable} (h : TableInv t) {i : Fin 8} {mac : Mac}
    (hi : ∀ j, j ≠ i → ¬ Owns t mac j) : TableInv (bound t i mac) := by
  obtain ⟨h1, h2, h3, h4, h5, h6⟩ := h
  unfold SerialNet.bound cleanClientHistory dhcpDefaultLeaseTime
  unfold Owns at hi
  constructor <;> simp only [Function.update_apply] <;> grind -ext

/-- A tick only ages entries or makes them idle. -/
theorem TableInv.tick {t : ClientTable} (h : TableInv t) (present : Fin 8 → Bool) :
    TableInv fun i => tickClient (t i) (present i) := by
  obtain ⟨h1, h2, h3, h4, h5, h6⟩ := h
  unfold tickClient
  constructor <;> grind -ext

/-- A client that lost its entry holds nothing. -/
theorem TableInv.not_owns_update {t : ClientTable} (h : TableInv t) {my : Fin 8} {mac : Mac}
    (hmy : Owns t mac my) {c : DhcpClient} (hc : c.state = .idle) (j : Fin 8) :
    ¬ Owns (Function.update t my c) mac j := by
  intro hj
  by_cases hjm : j = my
  · subst hjm
    exact hj.1 (by rw [Function.update_self, hc])
  · unfold Owns at hj
    rw [Function.update_of_ne hjm] at hj
    exact hjm (h.active_unique j my hj.1 hmy.1 (hj.2.trans hmy.2.symm))

/-- Every answer to a message keeps the table in order. -/
theorem RequestOutcome.tableInv {s : DhcpServer} {alloc : Bool} {q : DhcpRequest}
    {t' : ClientTable} {reply : Option DhcpReply} (h : RequestOutcome s alloc q t' reply)
    (hinv : TableInv s.clients) : TableInv t' := by
  -- The client's own entry is the only one it holds.
  have hown : ∀ my, Owns s.clients q.macAddr my → ∀ j, j ≠ my → ¬ Owns s.clients q.macAddr j :=
    fun my hmy j hj hjo => hj (hinv.active_unique j my hjo.1 hmy.1 (hjo.2.trans hmy.2.symm))
  cases h with
  | refused => exact hinv
  | dropped my => exact hinv.dropped my
  | offeredNew i hnone => exact hinv.offered fun j _ => hnone j
  | offeredOwn my hmy => exact hinv.offered (hown my hmy)
  | offeredOther my i hmy =>
    exact (hinv.forgotten my).offered fun j _ => hinv.not_owns_update hmy rfl j
  | boundNew i hnone => exact hinv.bound fun j _ => hnone j
  | boundOwn my hmy => exact hinv.bound (hown my hmy)
  | boundOther my i hmy =>
    exact (hinv.dropped my).bound fun j _ => hinv.not_owns_update hmy rfl j

/-! ### Runs -/

section Step

variable {s : Dhcp}

/-- A payload that is no request changes nothing but the message buffer. -/
theorem dhcpsRecvCb_none {payload : List UInt8} {beyond : Memory} (alloc : Bool)
    (h : receivedRequest s payload beyond = none) :
    (dhcpsRecvCb s payload beyond alloc).1.server = s.server ∧
      (dhcpsRecvCb s payload beyond alloc).2 = none := by
  simp [dhcpsRecvCb, h]

/-- A request is handled on the table and answered. -/
theorem dhcpsRecvCb_some {payload : List UInt8} {beyond : Memory} (alloc : Bool)
    {q : DhcpRequest} (h : receivedRequest s payload beyond = some q) :
    (dhcpsRecvCb s payload beyond alloc).1.server = (handleRequest s.server alloc q).1 ∧
      (dhcpsRecvCb s payload beyond alloc).2 = (handleRequest s.server alloc q).2 := by
  simp [dhcpsRecvCb, h]

/-- Every event preserves the invariant, the addresses and `Enable`. -/
theorem dhcpStep_tableInv (e : DhcpEvent) (h : TableInv s.server.clients) :
    TableInv (dhcpStep s e).1.server.clients ∧
      SameAddresses s.server.clients (dhcpStep s e).1.server.clients ∧
      (dhcpStep s e).1.server.enable = s.server.enable := by
  cases e with
  | recv payload beyond alloc =>
    show TableInv (dhcpsRecvCb s payload beyond alloc).1.server.clients ∧ _
    cases hq : receivedRequest s payload beyond with
    | none =>
      rw [dhcpStep, (dhcpsRecvCb_none _ hq).1]
      exact ⟨h, fun _ => rfl, rfl⟩
    | some q =>
      -- `SELECT` never survives a step, so the outcomes are all there is.
      have hout := handleRequest_outcome alloc (q := q) h.not_select
      rw [dhcpStep, (dhcpsRecvCb_some _ hq).1]
      refine ⟨hout.tableInv h, hout.sameAddresses, ?_⟩
      rw [handleRequest_server]
  | tick present =>
    by_cases hen : s.server.enable = true
    · have htick : (dhcpStep s (.tick present)).1.server
          = { s.server with clients := fun i => tickClient (s.server.clients i) (present i) } := by
        simp [dhcpStep, dhcpTickHandle, hen]
      rw [htick]
      exact ⟨h.tick present, fun i => (tickClient_cases _ _).1, rfl⟩
    · have htick : (dhcpStep s (.tick present)).1.server = s.server := by
        simp [dhcpStep, dhcpTickHandle, hen]
      rw [htick]
      exact ⟨h, fun _ => rfl, rfl⟩
  | clientDelete mac =>
    rcases dhcpsClientDelete_cases s.server mac with hs | ⟨i, -, hs⟩
    · rw [dhcpStep, hs]
      exact ⟨h, fun _ => rfl, rfl⟩
    · rw [dhcpStep, hs]
      exact ⟨h.dropped i, sameAddresses_update _ i rfl, rfl⟩

end Step

/-- `DHCPS_Start` leaves an empty table and enables the server. -/
theorem DhcpStarted.initial {s : Dhcp} (h : DhcpStarted s) :
    s.server.enable = true ∧
      ∀ i, (s.server.clients i).state = .idle ∧ (s.server.clients i).macAddr = zeroMac := by
  obtain ⟨netif, udpNew, old, h⟩ := h
  dsimp only [dhcpsStart] at h
  split at h
  · -- the interface is down
    simp [dhcpsErrLinkdown, dhcpsErrSuccess] at h
  split at h
  · -- division by zero
    simp at h
  split at h
  · -- no socket
    simp [dhcpsErrMem, dhcpsErrSuccess] at h
  · simp only [Option.some.injEq, Prod.mk.injEq, and_true] at h
    rw [← h]
    exact ⟨rfl, fun _ => ⟨rfl, rfl⟩⟩

/-- A started server has a table in order. -/
theorem DhcpStarted.tableInv {s : Dhcp} (h : DhcpStarted s) : TableInv s.server.clients := by
  have hidle := fun i => (h.initial.2 i).1
  have hmac := fun i => (h.initial.2 i).2
  constructor <;> simp [hidle, hmac]

/-- What holds along every run. -/
theorem dhcp_run_invariant (s : Dhcp) (hs : DhcpStarted s) (es : List DhcpEvent) :
    (TableInv (trace dhcpStep s es).1.server.clients ∧
        (trace dhcpStep s es).1.server.enable = true) ∧
      SameAddresses s.server.clients (trace dhcpStep s es).1.server.clients := by
  have hstep : ∀ (s' : Dhcp) (e : DhcpEvent),
      (TableInv s'.server.clients ∧ s'.server.enable = true) ∧
        SameAddresses s.server.clients s'.server.clients →
      (TableInv (dhcpStep s' e).1.server.clients ∧ (dhcpStep s' e).1.server.enable = true) ∧
        SameAddresses s.server.clients (dhcpStep s' e).1.server.clients := by
    rintro s' e ⟨⟨hinv, hen⟩, haddr⟩
    obtain ⟨h1, h2, h3⟩ := dhcpStep_tableInv e hinv
    exact ⟨⟨h1, h3.trans hen⟩, haddr.trans h2⟩
  exact trace_invariant hstep es s ⟨⟨hs.tableInv, hs.initial.1⟩, fun _ => rfl⟩

/-- **The client table along every run.**  From a started server, after any events, the table
    invariant holds and every entry still has the address `DHCPS_Start` gave it. -/
theorem dhcp_table_invariant (s : Dhcp) (hs : DhcpStarted s) (es : List DhcpEvent) :
    TableInv (trace dhcpStep s es).1.server.clients ∧
      SameAddresses s.server.clients (trace dhcpStep s es).1.server.clients :=
  have h := dhcp_run_invariant s hs es
  ⟨h.1.1, h.2⟩

/-- The access point at 192.168.1.1/24. -/
def sampleNetif : Netif := { up := true, ipAddr := 0x0101a8c0, netmask := 0x00ffffff }

/-- The server of the sample access point, started. -/
def sampleDhcp : Dhcp :=
  { server := ((dhcpsStart sampleNetif true clearedServer).map Prod.fst).getD clearedServer
    msg := fun _ => 0 }

/-- The sample server is a started one. -/
theorem sampleDhcp_started : DhcpStarted sampleDhcp := ⟨sampleNetif, true, clearedServer, rfl⟩

/-- A client's message that asks for an address and names no server. -/
def sampleMessage (type : UInt8) (mac : Mac) (reqIpAddr : UInt32) : List UInt8 :=
  [dhcpOpRequest, dhcpHwtypeEthernet, 6, 0] ++ List.replicate 24 0 ++ mac.toList
    ++ List.replicate 202 0 ++ [0x63, 0x82, 0x53, 0x63] ++ setOptionMsgType type
    ++ setOptionWord dhcpOptionIdReqIpAddr reqIpAddr ++ setOptionEnd

/-- The event in which such a message arrives and a reply can be allocated. -/
def sampleRecv (type : UInt8) (mac : Mac) (reqIpAddr : UInt32) : DhcpEvent :=
  .recv (sampleMessage type mac reqIpAddr) (fun _ => 0) true

/-- A client of the samples. -/
def sampleMac : Mac := #v[2, 0, 0, 0, 0, 1]

theorem dhcp_table_invariant_sample :
    TableInv (trace dhcpStep sampleDhcp
        [sampleRecv dhcpMsgDiscover sampleMac 0, .tick fun _ => true]).1.server.clients ∧
      SameAddresses sampleDhcp.server.clients (trace dhcpStep sampleDhcp
        [sampleRecv dhcpMsgDiscover sampleMac 0, .tick fun _ => true]).1.server.clients :=
  dhcp_table_invariant sampleDhcp sampleDhcp_started _

end SerialNet
