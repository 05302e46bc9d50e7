import Mathlib.Data.List.Find
import SerialNet.Dhcp.Table

namespace SerialNet

/-!
# Which entry a new negotiation gets

`_ClientTableLookup` documents an order of preference for the address of a DISCOVER: the one asked
for, the one the client had before, one that was never given, one that somebody else had.
`preferred` says so by four searches over the table; the one scan with its pointers finds the same
entry for every client that has no active entry (`discover_priority`).
-/

/-- The first idle entry that meets `p`. -/
def firstIdle (t : ClientTable) (p : DhcpClient → Prop) [DecidablePred p] : Option (Fin 8) :=
  (List.finRange 8).find? fun i => (t i).state = .idle ∧ p (t i)

/-- The order of preference. -/
def preferred (t : ClientTable) (mac : Mac) (ip : UInt32) : Option (Fin 8) :=
  firstIdle t (·.ipAddr = ip) <|> firstIdle t (·.macAddr = mac) <|>
    firstIdle t (·.macAddr = zeroMac) <|> firstIdle t fun _ => True

/-! ### The pointers of the scan -/

/-- A pointer that is set once, at the first element that meets `p`. -/
theorem foldl_set_once {σ ι : Type*} (pointer : σ → Option ι) (step : σ → ι → σ) (p : ι → Bool)
    (hstep : ∀ r i, pointer (step r i) = (pointer r).or (if p i then some i else none))
    (l : List ι) (r : σ) : pointer (l.foldl step r) = (pointer r).or (l.find? p) := by
  induction l generalizing r with
  | nil => rw [List.foldl_nil, List.find?_nil, Option.or_none]
  | cons i l ih =>
    rw [List.foldl_cons, ih, hstep, Option.or_assoc, List.find?_cons]
    cases p i <;> rfl

/-- `if (p == NULL && c) p = i;` -/
theorem ite_none_and {ι : Type*} [DecidableEq ι] (p : Option ι) (c : Prop) [Decidable c] (i : ι) :
    (if p = none ∧ c then some i else p) = p.or (if c then some i else none) := by
  cases p <;> simp

/-- What one turn does to the four pointers that an idle entry can set. -/
theorem scanClient_pointers (t : ClientTable) (mac : Mac) (ip : UInt32) (r : Scan) (i : Fin 8) :
    (scanClient t mac ip r i).reqClient = r.reqClient.or
      (if decide ((t i).state = .idle ∧ (t i).ipAddr = ip) then some i else none) ∧
    (scanClient t mac ip r i).myHistoryClient = r.myHistoryClient.or
      (if decide ((t i).state = .idle ∧ (t i).macAddr = mac) then some i else none) ∧
    (scanClient t mac ip r i).freeClient = r.freeClient.or
      (if decide ((t i).state = .idle ∧ (t i).macAddr = zeroMac) then some i else none) ∧
    (scanClient t mac ip r i).historyClient = r.historyClient.or
      (if decide ((t i).state = .idle ∧ (t i).macAddr ≠ zeroMac) then some i else none) := by
  unfold scanClient
  by_cases hidle : (t i).state = .idle
  · simp [hidle, ite_none_and]
  · rw [if_neg hidle]
    split_ifs <;> simp_all

/-- After the scan each of them is the first entry that meets its test. -/
theorem scanClients_pointers (t : ClientTable) (mac : Mac) (ip : UInt32) :
    (scanClients t mac ip).reqClient = firstIdle t (·.ipAddr = ip) ∧
    (scanClients t mac ip).myHistoryClient = firstIdle t (·.macAddr = mac) ∧
    (scanClients t mac ip).freeClient = firstIdle t (·.macAddr = zeroMac) ∧
    (scanClients t mac ip).historyClient = firstIdle t (·.macAddr ≠ zeroMac) := by
  have hstep := scanClient_pointers t mac ip
  exact ⟨foldl_set_once Scan.reqClient _ _ (fun r i => (hstep r i).1) _ _,
    foldl_set_once Scan.myHistoryClient _ _ (fun r i => (hstep r i).2.1) _ _,
    foldl_set_once Scan.freeClient _ _ (fun r i => (hstep r i).2.2.1) _ _,
    foldl_set_once Scan.historyClient _ _ (fun r i => (hstep r i).2.2.2) _ _⟩

section FirstIdle

variable {t : ClientTable} {p : DhcpClient → Prop} [DecidablePred p]

theorem firstIdle_eq_none : firstIdle t p = none ↔ ∀ i, (t i).state = .idle → ¬ p (t i) := by
  simp [firstIdle]

theorem firstIdle_some {i : Fin 8} (h : firstIdle t p = some i) :
    (t i).state = .idle ∧ p (t i) := by
  have hfound := List.find?_some h
  simpa using hfound

/-- Without a free entry the first entry of some other client is the first idle one. -/
theorem firstIdle_history (h : firstIdle t (·.macAddr = zeroMac) = none) :
    firstIdle t (·.macAddr ≠ zeroMac) = firstIdle t fun _ => True := by
  rw [firstIdle_eq_none] at h
  exact List.find?_congr fun i _ => by have := h i; grind

end FirstIdle

/-! ### The order of preference -/

/-- For a client without an active entry the scan finds none. -/
theorem scanClients_myClient_none {t : ClientTable} {mac : Mac}
    (hidle : ∀ i, (t i).macAddr = mac → (t i).state = .idle) (ip : UInt32) :
    (scanClients t mac ip).myClient = none := by
  cases hmy : (scanClients t mac ip).myClient with
  | none => rfl
  | some i =>
    obtain ⟨hactive, hmac⟩ := (scanClients_spec t mac ip).my_some i hmy
    exact absurd (hidle i hmac) hactive

/-- Such a client is given the preferred entry, and the table is not changed before that. -/
theorem lookupBranch_preferred {s : DhcpServer} {q : DhcpRequest}
    (hdiscover : q.msgType = dhcpMsgDiscover)
    (hidle : ∀ i, (s.clients i).macAddr = q.macAddr → (s.clients i).state = .idle) :
    lookupBranch s q = (s.clients, preferred s.clients q.macAddr q.reqIpAddr) := by
  obtain ⟨hreq, hmyHistory, hfree, hhistory⟩ :=
    scanClients_pointers s.clients q.macAddr q.reqIpAddr
  have hfallback : (firstIdle s.clients (·.macAddr = zeroMac) <|>
      firstIdle s.clients (·.macAddr ≠ zeroMac))
      = (firstIdle s.clients (·.macAddr = zeroMac) <|> firstIdle s.clients fun _ => True) := by
    cases hzero : firstIdle s.clients (·.macAddr = zeroMac) with
    | some i => rfl
    | none => rw [firstIdle_history hzero]
  rw [lookupBranch, if_pos hdiscover, lookupDiscover]
  simp only [scanClients_myClient_none hidle]
  rw [hreq, hmyHistory, hfree, hhistory, hfallback, preferred]

/-- An entry is found if and only if one is idle. -/
theorem preferred_eq_none {t : ClientTable} {mac : Mac} {ip : UInt32} :
    preferred t mac ip = none ↔ ∀ i, (t i).state ≠ .idle := by
  unfold preferred
  rw [Option.orElse_eq_none, Option.orElse_eq_none, Option.orElse_eq_none]
  simp only [firstIdle_eq_none]
  grind

/-- **The priority of DHCP allocation.**  In every table with distinct addresses a DISCOVER of a
    client without an active entry is given the idle entry with the address it asks for, or else
    the first idle entry it had before, or else the first that is free, or else the first idle one.
    Only if no entry is idle there is no result, and the client's address in the entry is all that
    changes. -/
theorem discover_priority {s : DhcpServer} {q : DhcpRequest}
    (hdistinct : Function.Injective fun i => (s.clients i).ipAddr)
    (hdiscover : q.msgType = dhcpMsgDiscover)
    (hidle : ∀ i, (s.clients i).macAddr = q.macAddr → (s.clients i).state = .idle) :
    (clientTableLookup s q).2 = preferred s.clients q.macAddr q.reqIpAddr ∧
    (∀ i, (s.clients i).state = .idle → (s.clients i).ipAddr = q.reqIpAddr →
      (clientTableLookup s q).2 = some i) ∧
    ((clientTableLookup s q).2 = none ↔ ∀ i, (s.clients i).state ≠ .idle) ∧
    (clientTableLookup s q).1 = match (clientTableLookup s q).2 with
      | some i => Function.update s.clients i { s.clients i with macAddr := q.macAddr }
      | none => s.clients := by
  have hresult : (clientTableLookup s q).2 = preferred s.clients q.macAddr q.reqIpAddr := by
    rw [clientTableLookup, lookupBranch_preferred hdiscover hidle]
    cases preferred s.clients q.macAddr q.reqIpAddr <;> rfl
  refine ⟨hresult, fun i hi hip => ?_, ?_, ?_⟩
  · cases hfirst : firstIdle s.clients (·.ipAddr = q.reqIpAddr) with
    | none => exact absurd hip (firstIdle_eq_none.mp hfirst i hi)
    | some j =>
      have hj : j = i := hdistinct ((firstIdle_some hfirst).2.trans hip.symm)
      rw [hresult, preferred, hfirst, hj]
      rfl
  · rw [hresult, preferred_eq_none]
  · rw [hresult, clientTableLookup, lookupBranch_preferred hdiscover hidle]
    cases preferred s.clients q.macAddr q.reqIpAddr <;> rfl

/-- Eight idle entries with the addresses 1 to 8, of which `own` has been given to a client. -/
def poolOf (own : DhcpClient) : DhcpServer :=
  { clearedServer with
    clients := Function.update
      (fun i => { state := .idle, timeout := 0, ipAddr := .ofNat (i + 1), macAddr := zeroMac
                  lease := 0 }) 3 own }

theorem poolOf_distinct {own : DhcpClient} (h : own.ipAddr = 4) :
    Function.Injective fun i => ((poolOf own).clients i).ipAddr := by
  have haddr : ∀ i, ((poolOf own).clients i).ipAddr = .ofNat (i + 1) := by
    intro i
    by_cases hi : i = 3
    · subst hi
      exact h
    · simp [poolOf, hi]
  intro i j hij
  dsimp only at hij
  rw [haddr, haddr] at hij
  clear haddr
  revert i j
  decide

/-- A client that had the fourth address gets it again. -/
theorem discover_priority_example :
    (clientTableLookup (poolOf ⟨.idle, 0, 4, Vector.replicate 6 1, 0⟩)
      ⟨dhcpMsgDiscover, 77, 0, 0, Vector.replicate 6 1⟩).2
      = preferred (poolOf ⟨.idle, 0, 4, Vector.replicate 6 1, 0⟩).clients
        (Vector.replicate 6 1) 77 :=
  (@discover_priority (poolOf ⟨.idle, 0, 4, Vector.replicate 6 1, 0⟩)
    ⟨dhcpMsgDiscover, 77, 0, 0, Vector.replicate 6 1⟩ (poolOf_distinct rfl) rfl (by decide)).1

/-- An entry in `SELECT` counts as an active one: the client gets it back, although the first
    entry is free. -/
theorem select_entry_returned :
    ¬ ∀ (s : DhcpServer) (q : DhcpRequest), Function.Injective (fun i => (s.clients i).ipAddr) →
      q.msgType = dhcpMsgDiscover → q.macAddr ≠ zeroMac →
      (∀ i, (s.clients i).macAddr = q.macAddr →
        (s.clients i).state ≠ .request ∧ (s.clients i).state ≠ .bind) →
      (clientTableLookup s q).2 = preferred s.clients q.macAddr q.reqIpAddr := by
  intro hall
  have hfound := hall (poolOf ⟨.select, 0, 4, Vector.replicate 6 1, 0⟩)
    ⟨dhcpMsgDiscover, 77, 0, 0, Vector.replicate 6 1⟩ (poolOf_distinct rfl) rfl (by decide)
    (by decide)
  exact absurd hfound (by decide)

end SerialNet
