import SerialNet.Dhcp.Invariant

namespace SerialNet

/-!
# Whose history is kept

When `_ClientTableLookup` takes an active entry from its client, the client should stay in it as
history if it was bound, and be forgotten if it only negotiated (`dropClient`).  The branches for
REQUEST, RELEASE and DECLINE compare the state with `BIND` before they set it to `IDLE`; the branch
for DISCOVER sets it first.  So in every reachable state the rule is kept except by a DISCOVER of a
bound client that asks for an address of an idle entry (`history_kept_iff`).
-/

/-- An active entry of the sender that request `q` makes idle, and does not return, keeps the
    sender's address exactly if it was bound and loses it exactly if it was negotiated. -/
def HistoryExact (s : DhcpServer) (q : DhcpRequest) : Prop :=
  ∀ i, Owns s.clients q.macAddr i → ((clientTableLookup s q).1 i).state = .idle →
    (clientTableLookup s q).2 ≠ some i →
    (((clientTableLookup s q).1 i).macAddr = q.macAddr ↔ (s.clients i).state = .bind) ∧
    (((clientTableLookup s q).1 i).macAddr = zeroMac ↔ (s.clients i).state = .request)

/-- A bound client asks in a DISCOVER for an address that an idle entry has. -/
def LosesHistory (s : DhcpServer) (q : DhcpRequest) : Prop :=
  q.msgType = dhcpMsgDiscover ∧ (∃ i, Owns s.clients q.macAddr i ∧ (s.clients i).state = .bind) ∧
    ¬ NoIdleIp s.clients q.reqIpAddr

/-! ### What becomes of the sender's entry -/

section OwnEntry

variable {s : DhcpServer} {q : DhcpRequest} {my : Fin 8}

/-- An entry that is not returned is as the branch left it. -/
theorem clientTableLookup_entry {t : ClientTable} {ret : Option (Fin 8)}
    (hb : lookupBranch s q = (t, ret)) (hne : ret ≠ some my) :
    (clientTableLookup s q).1 my = t my := by
  rw [clientTableLookup, hb]
  cases ret with
  | none => rfl
  | some i => exact Function.update_of_ne (fun h => hne (congrArg some h.symm)) _ _

theorem dropped_self {t : ClientTable} : dropped t my my = dropClient (t my) :=
  Function.update_self _ _ _

/-- A DISCOVER gives the sender its own entry back, unless an idle entry has the address asked
    for: then the sender moves there, and its old entry is forgotten whatever its state was. -/
theorem lookup_discover_own (hmy : Owns s.clients q.macAddr my)
    (hone : ∀ j, Owns s.clients q.macAddr j → j = my) (htype : q.msgType = dhcpMsgDiscover) :
    (NoIdleIp s.clients q.reqIpAddr → (clientTableLookup s q).2 = some my) ∧
    (¬ NoIdleIp s.clients q.reqIpAddr → (clientTableLookup s q).2 ≠ some my ∧
      (clientTableLookup s q).1 my = { s.clients my with macAddr := zeroMac, state := .idle }) := by
  have hscan := scanClients_spec s.clients q.macAddr q.reqIpAddr
  have hmine := hscan.myClient_eq hmy hone
  have hb : lookupBranch s q
      = lookupDiscover s.clients (scanClients s.clients q.macAddr q.reqIpAddr) := if_pos htype
  generalize scanClients s.clients q.macAddr q.reqIpAddr = r at hscan hmine hb
  simp only [lookupDiscover, hmine] at hb
  cases hreq : r.reqClient with
  | none =>
    have hno : NoIdleIp s.clients q.reqIpAddr :=
      fun j => hscan.req_none hreq j (List.mem_finRange j)
    rw [hreq] at hb
    refine ⟨fun _ => ?_, fun h => absurd hno h⟩
    rw [clientTableLookup, hb]
  | some req =>
    obtain ⟨hidle, hip⟩ := hscan.req_some req hreq
    have hne : my ≠ req := fun h => hmy.1 (h ▸ hidle)
    rw [hreq] at hb
    refine ⟨fun h => absurd hip (h req hidle), fun _ => ?_⟩
    rw [clientTableLookup, hb]
    refine ⟨fun h => hne (Option.some.inj h).symm, ?_⟩
    -- the state is `IDLE` when it is compared
    simp [hne, dropClient]

/-- Any other message returns the sender's entry, leaves it alone or drops it. -/
theorem lookup_other_own (hmy : Owns s.clients q.macAddr my)
    (hone : ∀ j, Owns s.clients q.macAddr j → j = my) (htype : q.msgType ≠ dhcpMsgDiscover) :
    (clientTableLookup s q).2 = some my ∨ (clientTableLookup s q).1 my = s.clients my ∨
      (clientTableLookup s q).1 my = dropClient (s.clients my) := by
  have hscan := scanClients_spec s.clients q.macAddr q.reqIpAddr
  have hmine := hscan.myClient_eq hmy hone
  by_cases hrequest : q.msgType = dhcpMsgRequest
  · have hb : lookupBranch s q = lookupRequest s.clients
        (scanClients s.clients q.macAddr q.reqIpAddr) (serverAccepted s q) := by
      rw [lookupBranch, if_neg htype, if_pos hrequest]
    generalize scanClients s.clients q.macAddr q.reqIpAddr = r at hscan hmine hb
    simp only [lookupRequest, hmine] at hb
    by_cases hun : r.ipUnavailable = true
    · rw [if_pos hun] at hb
      exact .inr (.inr ((clientTableLookup_entry hb (by simp)).trans dropped_self))
    rw [if_neg hun] at hb
    cases hreq : r.reqClient with
    | some req =>
      obtain ⟨hidle, -⟩ := hscan.req_some req hreq
      have hne : req ≠ my := fun h => hmy.1 (h ▸ hidle)
      simp only [hreq] at hb
      refine .inr (.inr ((clientTableLookup_entry hb ?_).trans dropped_self))
      split_ifs
      · exact fun h => hne (Option.some.inj h)
      · simp
    | none =>
      simp only [hreq] at hb
      by_cases hacc : serverAccepted s q = true
      · rw [if_pos hacc] at hb
        rw [clientTableLookup, hb]
        exact .inl rfl
      · rw [if_neg hacc] at hb
        exact .inr (.inl (clientTableLookup_entry hb (by simp)))
  · have hb : lookupBranch s q = (dropped s.clients my, none) ∨
        lookupBranch s q = (s.clients, none) := by
      rw [lookupBranch, if_neg htype, if_neg hrequest]
      simp only [lookupRelease, hmine]
      split_ifs
      · exact .inl rfl
      · exact .inl rfl
      · exact .inr rfl
    rcases hb with hb | hb
    · exact .inr (.inr ((clientTableLookup_entry hb (by simp)).trans dropped_self))
    · exact .inr (.inl (clientTableLookup_entry hb (by simp)))

end OwnEntry

/-! ### The rule -/

/-- What `dropClient` keeps of an entry that is negotiated or bound. -/
theorem dropClient_mac {c : DhcpClient} {mac : Mac} (hmac : c.macAddr = mac) (hne : mac ≠ zeroMac)
    (hstate : c.state = .request ∨ c.state = .bind) :
    ((dropClient c).macAddr = mac ↔ c.state = .bind) ∧
      ((dropClient c).macAddr = zeroMac ↔ c.state = .request) := by
  unfold dropClient
  rcases hstate with h | h <;> simp [h, hmac, hne, Ne.symm hne]

/-- In a table that meets the invariant. -/
theorem historyExact_iff {s : DhcpServer} {q : DhcpRequest} (hinv : TableInv s.clients)
    (hmac : q.macAddr ≠ zeroMac) : HistoryExact s q ↔ ¬ LosesHistory s q := by
  have hone : ∀ my, Owns s.clients q.macAddr my → ∀ j, Owns s.clients q.macAddr j → j = my :=
    fun my hmy j hj => hinv.active_unique j my hj.1 hmy.1 (hj.2.trans hmy.2.symm)
  have hstate : ∀ my, Owns s.clients q.macAddr my →
      (s.clients my).state = .request ∨ (s.clients my).state = .bind := by
    intro my hmy
    have hselect := hinv.not_select my
    have hactive := hmy.1
    cases hst : (s.clients my).state <;> simp_all
  constructor
  · rintro hexact ⟨htype, ⟨my, hmy, hbind⟩, hidle⟩
    obtain ⟨hreturned, hmyEntry⟩ := (lookup_discover_own hmy (hone my hmy) htype).2 hidle
    obtain ⟨hkept, -⟩ := hexact my hmy (by rw [hmyEntry]) hreturned
    have hzero : q.macAddr = zeroMac := by
      rw [← hkept.mpr hbind, hmyEntry]
    exact hmac hzero
  · intro hloses my hmy hidle hreturned
    by_cases htype : q.msgType = dhcpMsgDiscover
    · obtain ⟨hsame, hother⟩ := lookup_discover_own hmy (hone my hmy) htype
      by_cases hip : NoIdleIp s.clients q.reqIpAddr
      · exact absurd (hsame hip) hreturned
      · have hnotbind : (s.clients my).state ≠ .bind := fun hbind =>
          hloses ⟨htype, ⟨my, hmy, hbind⟩, hip⟩
        have hrequest := (hstate my hmy).resolve_right hnotbind
        rw [(hother hip).2]
        simp [hrequest, Ne.symm hmac]
    · rcases lookup_other_own hmy (hone my hmy) htype with h | h | h
      · exact absurd h hreturned
      · exact absurd (h ▸ hidle) hmy.1
      · rw [h]
        exact dropClient_mac hmy.2 hmac (hstate my hmy)

/-- **Whose history is kept.**  In every state that a started server reaches, request `q` keeps the
    history of bound clients exactly, unless it is a DISCOVER of a bound client that asks for an
    address of an idle entry. -/
theorem history_kept_iff {s : Dhcp} (hs : DhcpStarted s) (es : List DhcpEvent) {q : DhcpRequest}
    (hmac : q.macAddr ≠ zeroMac) :
    HistoryExact (trace dhcpStep s es).1.server q ↔
      ¬ LosesHistory (trace dhcpStep s es).1.server q :=
  historyExact_iff (dhcp_table_invariant s hs es).1 hmac

/-- A client that was offered its address gives it back. -/
theorem history_kept_iff_sample :
    HistoryExact (trace dhcpStep sampleDhcp [sampleRecv dhcpMsgDiscover sampleMac 0]).1.server
        ⟨dhcpMsgRelease, 0, 0, 0, sampleMac⟩ ↔
      ¬ LosesHistory (trace dhcpStep sampleDhcp [sampleRecv dhcpMsgDiscover sampleMac 0]).1.server
        ⟨dhcpMsgRelease, 0, 0, 0, sampleMac⟩ :=
  @history_kept_iff _ sampleDhcp_started _ ⟨dhcpMsgRelease, 0, 0, 0, sampleMac⟩ (by decide)

/-- A client that is bound to the first address asks for the second one, and its old entry forgets
    it. -/
theorem bound_client_forgotten :
    ¬ ∀ (s : Dhcp) (_ : DhcpStarted s) (es : List DhcpEvent) (q : DhcpRequest),
      q.macAddr ≠ zeroMac → HistoryExact (trace dhcpStep s es).1.server q := by
  intro hall
  have hexact := hall sampleDhcp sampleDhcp_started
    [sampleRecv dhcpMsgRequest sampleMac 0x0201a8c0] ⟨dhcpMsgDiscover, 0x0301a8c0, 0, 0, sampleMac⟩
    (by decide) 0 ⟨by decide +kernel, by decide +kernel⟩ (by decide +kernel) (by decide +kernel)
  exact absurd (hexact.1.mpr (by decide +kernel)) (by decide +kernel)

end SerialNet
