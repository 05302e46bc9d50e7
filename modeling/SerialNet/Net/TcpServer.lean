import SerialNet.Lib.Run
import SerialNet.Net.Device

namespace SerialNet

/-!
# The descriptors of a TCP server session

`TCPRecvTask(SOCK_SERVER)` from its call to its return.  `TcpPc` names the places where it calls
out, and `tcpStep` goes from one to the next with what the call has answered.  The state counts the
open descriptors of the session: its listening socket and the clients that it has accepted.

A failed `CreateTcpServer` answers 1, which the task takes for a descriptor, and a session that ends
before `LAN_tcpClientInit` closes whatever is in `ls`, which is 0 after boot.  These are the only
ways to a wrong descriptor (`tcp_server_descriptors_iff`).
-/

/-- Where the task is: at its first look at `UserParam.atMode`, at `CreateTcpServer`, at the top of
    the loop, at `accept`, at `recv` for one of the slots, or back in its caller. -/
inductive TcpPc where
  | start | create | poll | accept
  | recv (i : Fin 5)
  | done
deriving DecidableEq

/-- `ls`, and what the session has open. -/
structure TcpSession where
  pc : TcpPc
  tcpServerFd : ℤ
  tcpClient : Fin 5 → ℤ
  /-- The descriptors that `select` has left in `ls.readfd`. -/
  readfd : List ℤ
  /-- `WifiConnStatus.sockfd`, which is -1 before and after each call of a receive task. -/
  sockfd : ℤ
  /-- The open sockets of `socket`. -/
  listening : List ℕ
  /-- The open descriptors of `accept`. -/
  clients : List ℕ
  /-- `CreateTcpServer` has failed. -/
  failed : Bool
  /-- A call was made with a descriptor that is not an open one of the session. -/
  misused : Bool

namespace TcpSession

/-- The session has the descriptor open. -/
def Owns (s : TcpSession) (fd : ℤ) : Prop := ∃ n ∈ s.listening ++ s.clients, (n : ℤ) = fd

instance (s : TcpSession) (fd : ℤ) : Decidable (s.Owns fd) :=
  inferInstanceAs (Decidable (∃ n ∈ s.listening ++ s.clients, (n : ℤ) = fd))

/-- A call with the descriptor. -/
def use (s : TcpSession) (fd : ℤ) : TcpSession :=
  { s with misused := s.misused || ! decide (s.Owns fd) }

/-- `close`. -/
def close (s : TcpSession) (fd : ℤ) : TcpSession :=
  { s.use fd with
    listening := s.listening.filter fun n => (n : ℤ) ≠ fd
    clients := s.clients.filter fun n => (n : ℤ) ≠ fd }

end TcpSession

/-- `LAN_tcpClientInit`. -/
def lanTcpClientInit (s : TcpSession) : TcpSession := { s with tcpClient := fun _ => -1 }

/-- `AddSelectFD`: the descriptors that go into `ls.readfd`. -/
def addSelectFD (s : TcpSession) : List ℤ :=
  (s.tcpServerFd :: (List.finRange 5).map s.tcpClient).filter (0 ≤ ·)

/-- `tcpClient_SelectFd`.  Of the descriptors that are asked for, `select` leaves those that are
    `ready`; those behind `Get_MaxFd` never are, and after an error all are. -/
def tcpClientSelectFd (s : TcpSession) (ready : List ℤ) : TcpSession :=
  { (addSelectFD s).foldl TcpSession.use s with
    readfd := (addSelectFD s).filter fun fd => fd ∈ ready }

/-- `CreateTcpServer`, with the answers of `socket`, `bind` and `listen`. -/
def createTcpServer (s : TcpSession) (socket : Option ℕ) (bind listen : ℤ) : TcpSession × ℤ :=
  match socket with
  | none => ({ s with failed := true }, 1)
  | some serversocketid =>
    let s := { s with listening := serversocketid :: s.listening }
    if bind ≠ 0 then ({ s.close serversocketid with failed := true }, 1)
    else if listen ≠ 0 then ({ s.close serversocketid with failed := true }, 1)
    else (s, serversocketid)

/-- `AddTcpNewClient`. -/
def addTcpNewClient (s : TcpSession) (fd : ℤ) : TcpSession :=
  match (List.finRange 5).find? fun i => s.tcpClient i = -1 with
  | some i => { s with tcpClient := Function.update s.tcpClient i fd }
  | none => s.close fd

/-- `close(ls.tcpClient[i].fd)` and `ls.tcpClient[i].fd = -1`. -/
def closeClient (s : TcpSession) (i : Fin 5) : TcpSession :=
  { s.close (s.tcpClient i) with tcpClient := Function.update s.tcpClient i (-1) }

/-- Only the slot of the client is emptied. -/
@[simp] theorem closeClient_slot (s : TcpSession) (i j : Fin 5) :
    (closeClient s i).tcpClient j = if j = i then -1 else s.tcpClient j :=
  Function.update_apply _ _ _ _

/-- `END`. -/
def tcpEnd (s : TcpSession) : TcpSession :=
  let s := (List.finRange 5).foldl (fun s i => if s.tcpClient i ≥ 0 then closeClient s i else s) s
  let s := if s.tcpServerFd ≥ 0 then { s.close s.tcpServerFd with tcpServerFd := -1 } else s
  let s := if s.sockfd ≥ 0 then { s.close s.sockfd with sockfd := -1 } else s
  { s with pc := .done }

/-- The first slot. -/
def firstSlot : Fin 5 := ⟨0, by decide⟩

/-- The next slot, or the top of the loop. -/
def nextSlot (i : Fin 5) : TcpPc := if h : i.val + 1 < 5 then .recv ⟨i.val + 1, h⟩ else .poll

/-- What the task reads or is answered. -/
inductive TcpEvent where
  /-- `UserParam.atMode` at the start. -/
  | mode (atMode : AtMode)
  /-- The new descriptor, if there is one, and the answers of `bind` and `listen`. -/
  | create (socket : Option ℕ) (bind listen : ℤ)
  /-- `UserParam.atMode` in the loop, and the descriptors that `select` finds ready. -/
  | poll (atMode : AtMode) (ready : List ℤ)
  /-- The new descriptor, if there is one. -/
  | accept (newfd : Option ℕ)
  /-- The answer of `recv`, if it is called for this slot. -/
  | recv (ret : ℤ)

/-- The top of the loop. -/
def tcpPoll (s : TcpSession) (atMode : AtMode) (ready : List ℤ) : TcpSession :=
  if atMode = .at then tcpEnd s
  else
    let s := tcpClientSelectFd s ready
    if s.tcpServerFd < 0 then tcpEnd s
    else if s.tcpServerFd ∈ s.readfd then { s with pc := .accept }
    else { s with pc := .recv firstSlot }

/-- A new client; `accept` answers a descriptor that is not open. -/
def tcpAccept (s : TcpSession) (newfd : Option ℕ) : Option TcpSession :=
  let s := s.use s.tcpServerFd
  match newfd with
  | none => some (tcpEnd s)
  | some newfd =>
    if s.Owns newfd then none
    else
      let s := addTcpNewClient { s with clients := newfd :: s.clients } newfd
      some { s with pc := .recv firstSlot }

/-- One slot. -/
def tcpRecv (s : TcpSession) (i : Fin 5) (ret : ℤ) : TcpSession :=
  let fd := s.tcpClient i
  if fd ≥ 0 ∧ fd ∈ s.readfd then
    let s := s.use fd
    let s := if ret > 0 then s else closeClient s i
    { s with pc := nextSlot i }
  else { s with pc := nextSlot i }

/-- The task up to its next call. -/
def tcpStep (s : TcpSession) (e : TcpEvent) : Option TcpSession :=
  match s.pc, e with
  | .start, .mode .data => some { lanTcpClientInit s with pc := .create }
  | .start, .mode .at => some (tcpEnd s)
  | .create, .create socket bind listen =>
    -- `socket` answers a descriptor that is not open.
    if ∀ fd ∈ socket, ¬ s.Owns fd then
      let r := createTcpServer s socket bind listen
      some { r.1 with tcpServerFd := r.2, pc := .poll }
    else none
  | .poll, .poll atMode ready => some (tcpPoll s atMode ready)
  | .accept, .accept newfd => tcpAccept s newfd
  | .recv i, .recv ret => some (tcpRecv s i ret)
  | _, _ => none

/-- The call of the task with `ls` as it was left; 0 everywhere after boot, -1 after a session. -/
def tcpStart (tcpServerFd : ℤ) (tcpClient : Fin 5 → ℤ) : TcpSession :=
  ⟨.start, tcpServerFd, tcpClient, [], -1, [], [], false, false⟩

/-- The slots `L` are closed one after the other. -/
def closeSlots (s : TcpSession) (L : List (Fin 5)) : TcpSession :=
  L.foldl (fun s i => if s.tcpClient i ≥ 0 then closeClient s i else s) s

/-- The slots are closed one after the other. -/
theorem closeSlots_cons (s : TcpSession) (i : Fin 5) (L : List (Fin 5)) :
    closeSlots s (i :: L) =
      closeSlots (if s.tcpClient i ≥ 0 then closeClient s i else s) L := rfl

/-- After the slots come the two other descriptors. -/
theorem tcpEnd_eq (s : TcpSession) : tcpEnd s =
    let s := closeSlots s (List.finRange 5)
    let s := if s.tcpServerFd ≥ 0 then { s.close s.tcpServerFd with tcpServerFd := -1 } else s
    let s := if s.sockfd ≥ 0 then { s.close s.sockfd with sockfd := -1 } else s
    { s with pc := .done } := rfl

/-! ### Descriptors in order -/

/-- What is asked of every state of a session. -/
structure TcpOwned (s : TcpSession) : Prop where
  not_misused : s.misused = false
  /-- A failed `CreateTcpServer` ends the session. -/
  ended : s.failed = true → s.pc = .done
  in_slot : ∀ fd ∈ s.clients, ∃! i, s.tcpClient i = fd
  /-- A descriptor that was closed is in no slot. -/
  out_of_slots : s.pc ≠ .start → ∀ i, 0 ≤ s.tcpClient i → ∃ fd ∈ s.clients, s.tcpClient i = fd
  returned : s.pc = .done → s.listening = [] ∧ s.clients = []

/-- The events that keep the descriptors in order. -/
def TcpEventOk (s : TcpSession) : TcpEvent → Prop
  | .mode .at => s.tcpServerFd < 0 ∧ ∀ i, s.tcpClient i < 0
  | .create socket bind listen => socket ≠ none ∧ bind = 0 ∧ listen = 0
  | _ => True

/-- Nothing has gone wrong so far. -/
structure TcpClean (s : TcpSession) : Prop where
  not_misused : s.misused = false
  not_failed : s.failed = false
  sockfd : s.sockfd = -1

/-- In the loop the slots and the open clients are the same descriptors. -/
structure TcpLoop (s : TcpSession) : Prop extends TcpClean s where
  server : ∃ n, s.listening = [n] ∧ s.tcpServerFd = n ∧ n ∉ s.clients
  slots : ∀ i, s.tcpClient i = -1 ∨ ∃ fd ∈ s.clients, s.tcpClient i = fd
  in_slot : ∀ fd ∈ s.clients, ∃ i, s.tcpClient i = fd
  injective : ∀ i j, 0 ≤ s.tcpClient i → s.tcpClient i = s.tcpClient j → i = j

/-- Nothing is open. -/
structure TcpClosed (s : TcpSession) : Prop extends TcpClean s where
  listening : s.listening = []
  clients : s.clients = []

/-- The states that a session with such events only is in. -/
def TcpGood (s : TcpSession) : Prop :=
  match s.pc with
  | .start => TcpClosed s
  | .create => TcpClosed s ∧ ∀ i, s.tcpClient i = -1
  | .done => TcpClosed s ∧ ∀ i, s.tcpClient i < 0
  | _ => TcpLoop s

variable {s : TcpSession} {fd : ℤ} {i : Fin 5}

/-- A call with an own descriptor. -/
theorem TcpSession.use_of_owns (h : s.Owns fd) : s.use fd = s := by
  unfold TcpSession.use
  rw [decide_eq_true h, Bool.not_true, Bool.or_false]

namespace TcpLoop

/-- A slot that is not empty has an open client. -/
theorem slot_owned (h : TcpLoop s) (hi : 0 ≤ s.tcpClient i) :
    ∃ n ∈ s.clients, s.tcpClient i = n := by
  rcases h.slots i with hneg | hmem
  · omega
  · exact hmem

/-- The session owns the descriptor in a slot. -/
theorem owns_slot (h : TcpLoop s) (hi : 0 ≤ s.tcpClient i) : s.Owns (s.tcpClient i) := by
  obtain ⟨n, hn, heq⟩ := h.slot_owned hi
  exact ⟨n, List.mem_append_right _ hn, heq.symm⟩

/-- The session owns the descriptor it listens on. -/
theorem owns_server (h : TcpLoop s) : s.Owns s.tcpServerFd := by
  obtain ⟨n, hlist, hfd, -⟩ := h.server
  exact ⟨n, by simp [hlist], hfd.symm⟩

/-- A client is closed and its slot is free. -/
theorem closeClient (h : TcpLoop s) (hi : 0 ≤ s.tcpClient i) : TcpLoop (closeClient s i) := by
  obtain ⟨n, hn, hslot⟩ := h.slot_owned hi
  obtain ⟨srv, hlist, hfd, hout⟩ := h.server
  have huse := TcpSession.use_of_owns (h.owns_slot hi)
  have hother : ∀ j, j ≠ i → 0 ≤ s.tcpClient j → s.tcpClient j ≠ s.tcpClient i :=
    fun j hj h0 heq => hj (h.injective j i h0 heq)
  have hmem : ∀ fd, fd ∈ (SerialNet.closeClient s i).clients ↔
      fd ∈ s.clients ∧ (fd : ℤ) ≠ s.tcpClient i := fun fd => by
    simp [SerialNet.closeClient, TcpSession.close]
  refine ⟨⟨?_, h.not_failed, h.sockfd⟩, ⟨srv, ?_, hfd, ?_⟩, ?_, ?_, ?_⟩
  · change (s.use (s.tcpClient i)).misused = false
    rw [huse]
    exact h.not_misused
  · have hne : (srv : ℤ) ≠ s.tcpClient i := by
      rw [hslot]
      intro heq
      exact hout (Nat.cast_injective heq ▸ hn)
    simp [SerialNet.closeClient, TcpSession.close, hlist, hne]
  · exact fun hin => hout ((hmem srv).mp hin).1
  · intro j
    by_cases hj : j = i
    · exact .inl (by rw [closeClient_slot, if_pos hj])
    · rw [closeClient_slot, if_neg hj]
      apply (h.slots j).imp_right
      rintro ⟨fd, hfd, heq⟩
      refine ⟨fd, (hmem fd).mpr ⟨hfd, ?_⟩, heq⟩
      rw [← heq]
      exact hother j hj (by omega)
  · intro fd hfd
    obtain ⟨hin, hne⟩ := (hmem fd).mp hfd
    obtain ⟨j, hj⟩ := h.in_slot fd hin
    refine ⟨j, ?_⟩
    have hji : j ≠ i := by
      rintro rfl
      exact hne hj.symm
    rw [closeClient_slot, if_neg hji]
    exact hj
  · intro j k hj hjk
    -- Neither is the slot that was freed.
    have hji : j ≠ i := by
      rintro rfl
      rw [closeClient_slot, if_pos rfl] at hj
      omega
    have hki : k ≠ i := by
      rintro rfl
      rw [hjk, closeClient_slot, if_pos rfl] at hj
      omega
    rw [closeClient_slot, if_neg hji] at hj hjk
    rw [closeClient_slot, if_neg hki] at hjk
    exact h.injective j k hj hjk

/-- Closing the slots `L` frees them. -/
theorem closeSlots (L : List (Fin 5)) : ∀ {s}, TcpLoop s →
    TcpLoop (SerialNet.closeSlots s L) ∧
      ∀ i, i ∈ L ∨ s.tcpClient i = -1 → (SerialNet.closeSlots s L).tcpClient i = -1 := by
  induction L with
  | nil => exact fun h => ⟨h, fun i hi => hi.resolve_left List.not_mem_nil⟩
  | cons a L ih =>
    intro s h
    rw [closeSlots_cons]
    split
    · rename_i ha
      obtain ⟨hloop, hfree⟩ := ih (h.closeClient ha)
      refine ⟨hloop, fun i hi => hfree i ?_⟩
      rw [List.mem_cons] at hi
      by_cases hia : i = a
      · exact .inr (by rw [closeClient_slot, if_pos hia])
      · refine (hi.imp_left fun hi => hi.resolve_left hia).imp_right fun hneg => ?_
        rw [closeClient_slot, if_neg hia]
        exact hneg
    · rename_i ha
      obtain ⟨hloop, hfree⟩ := ih h
      refine ⟨hloop, fun i hi => hfree i ?_⟩
      rw [List.mem_cons] at hi
      by_cases hia : i = a
      · subst hia
        refine .inr ((h.slots i).resolve_right ?_)
        rintro ⟨fd, -, heq⟩
        omega
      · exact hi.imp_left fun hi => hi.resolve_left hia

/-- **The exit closes everything.** -/
theorem tcpEnd (h : TcpLoop s) : TcpGood (tcpEnd s) := by
  obtain ⟨hloop, hfree⟩ := h.closeSlots (List.finRange 5)
  rw [tcpEnd_eq]
  dsimp only
  generalize SerialNet.closeSlots s (List.finRange 5) = t at hloop hfree
  have hslots : ∀ i, t.tcpClient i = -1 := fun i => hfree i (.inl (List.mem_finRange i))
  have hclients : t.clients = [] := by
    apply List.eq_nil_iff_forall_not_mem.mpr
    intro fd hfd
    obtain ⟨i, hi⟩ := hloop.in_slot fd hfd
    rw [hslots i] at hi
    omega
  obtain ⟨n, hlist, hserver, -⟩ := hloop.server
  have huse := TcpSession.use_of_owns hloop.owns_server
  have hsock : ¬ t.sockfd ≥ 0 := by
    rw [hloop.sockfd]
    decide
  rw [if_pos (by omega : t.tcpServerFd ≥ 0)]
  rw [if_neg (by exact hsock)]
  refine ⟨⟨⟨?_, hloop.not_failed, hloop.sockfd⟩, ?_, ?_⟩, fun i => ?_⟩
  · change (t.use t.tcpServerFd).misused = false
    rw [huse]
    exact hloop.not_misused
  · simp [TcpSession.close, hlist, hserver]
  · simp [TcpSession.close, hclients]
  · change t.tcpClient i < 0
    rw [hslots i]
    decide

/-- `select` is asked about own descriptors only. -/
theorem select (h : TcpLoop s) (ready : List ℤ) :
    tcpClientSelectFd s ready =
      { s with readfd := (addSelectFD s).filter fun fd => fd ∈ ready } := by
  have hfold : ∀ L : List ℤ, (∀ fd ∈ L, s.Owns fd) → L.foldl TcpSession.use s = s := by
    intro L
    induction L with
    | nil => exact fun _ => rfl
    | cons a L ih =>
      intro hL
      rw [List.foldl_cons, TcpSession.use_of_owns (hL a List.mem_cons_self)]
      exact ih fun fd hfd => hL fd (List.mem_cons_of_mem a hfd)
  unfold tcpClientSelectFd
  rw [hfold]
  intro fd hfd
  unfold addSelectFD at hfd
  obtain ⟨hmem, hpos⟩ := List.mem_filter.mp hfd
  rcases List.mem_cons.mp hmem with rfl | hmem
  · exact h.owns_server
  · obtain ⟨i, -, rfl⟩ := List.mem_map.mp hmem
    exact h.owns_slot (of_decide_eq_true hpos)

/-- A new client in a free slot. -/
theorem fill (h : TcpLoop s) {t : TcpSession} {newfd : ℕ} (hnew : ¬ s.Owns newfd)
    (hfree : s.tcpClient i = -1) (hclean : TcpClean t) (hlisten : t.listening = s.listening)
    (hserver : t.tcpServerFd = s.tcpServerFd) (hclients : t.clients = newfd :: s.clients)
    (hslot : ∀ j, t.tcpClient j = if j = i then (newfd : ℤ) else s.tcpClient j) : TcpLoop t := by
  obtain ⟨srv, hlist, hfd, hout⟩ := h.server
  have hnone : ∀ j, s.tcpClient j ≠ newfd := by
    intro j hj
    refine hnew ⟨newfd, List.mem_append_right _ ?_, rfl⟩
    rcases h.slots j with hneg | ⟨fd, hfd, heq⟩
    · omega
    · exact Nat.cast_injective (hj.symm.trans heq) ▸ hfd
  refine ⟨hclean, ⟨srv, hlisten.trans hlist, hserver.trans hfd, ?_⟩, ?_, ?_, ?_⟩
  · rw [hclients, List.mem_cons, not_or]
    refine ⟨?_, hout⟩
    rintro rfl
    exact hnew ⟨srv, by simp [hlist], rfl⟩
  · intro j
    rw [hslot, hclients]
    split
    · exact .inr ⟨newfd, List.mem_cons_self, rfl⟩
    · apply (h.slots j).imp_right
      rintro ⟨fd, hfd, heq⟩
      exact ⟨fd, List.mem_cons_of_mem newfd hfd, heq⟩
  · intro fd hfd
    rw [hclients] at hfd
    rcases List.mem_cons.mp hfd with rfl | hfd
    · exact ⟨i, by rw [hslot, if_pos rfl]⟩
    · obtain ⟨j, hj⟩ := h.in_slot fd hfd
      have hji : j ≠ i := by
        rintro rfl
        omega
      exact ⟨j, by rw [hslot, if_neg hji, hj]⟩
  · intro j k hj hjk
    rw [hslot j] at hj hjk
    rw [hslot k] at hjk
    by_cases hji : j = i
    · by_cases hki : k = i
      · exact hji.trans hki.symm
      · rw [if_pos hji, if_neg hki] at hjk
        exact absurd hjk.symm (hnone k)
    · rw [if_neg hji] at hj hjk
      by_cases hki : k = i
      · rw [if_pos hki] at hjk
        exact absurd hjk (hnone j)
      · rw [if_neg hki] at hjk
        exact h.injective j k hj hjk

/-- A new client comes into the first free slot, or is closed. -/
theorem addClient (h : TcpLoop s) {newfd : ℕ} (hnew : ¬ s.Owns newfd) :
    TcpLoop (addTcpNewClient { s with clients := newfd :: s.clients } newfd) := by
  unfold addTcpNewClient
  split
  · rename_i i hfind
    have hfree := List.find?_some hfind
    rw [decide_eq_true_eq] at hfree
    exact h.fill hnew hfree ⟨h.not_misused, h.not_failed, h.sockfd⟩ rfl rfl rfl
      fun j => Function.update_apply _ _ _ _
  · -- The five slots are taken, and `close` undoes `accept`.
    have howns : TcpSession.Owns { s with clients := newfd :: s.clients } newfd :=
      ⟨newfd, List.mem_append_right _ List.mem_cons_self, rfl⟩
    have hkeep : ∀ L : List ℕ, (∀ n ∈ L, n ∈ s.listening ++ s.clients) →
        L.filter (fun n : ℕ => (n : ℤ) ≠ newfd) = L := by
      intro L hL
      refine List.filter_eq_self.mpr fun n hn => decide_eq_true fun heq => ?_
      exact hnew ⟨n, hL n hn, heq⟩
    have hclose : TcpSession.close { s with clients := newfd :: s.clients } newfd = s := by
      unfold TcpSession.close
      rw [TcpSession.use_of_owns howns]
      dsimp only
      rw [hkeep s.listening fun n hn => List.mem_append_left _ hn,
        List.filter_cons_of_neg (by simp), hkeep s.clients fun n hn => List.mem_append_right _ hn]
    rw [hclose]
    exact h

end TcpLoop

/-! ### Descriptors out of order -/

/-- With nothing open every `close` is a wrong one. -/
theorem close_misused (hlist : s.listening = []) (hclients : s.clients = []) (fd : ℤ) :
    (s.close fd).misused = true := by
  have howns : ¬ s.Owns fd := by
    rintro ⟨n, hn, -⟩
    rw [hlist, hclients] at hn
    exact List.not_mem_nil hn
  change (s.use fd).misused = true
  unfold TcpSession.use
  rw [decide_eq_false howns, Bool.not_false, Bool.or_true]

/-- A misuse is not forgotten. -/
theorem close_misused_of (h : s.misused = true) (fd : ℤ) : (s.close fd).misused = true := by
  change (s.use fd).misused = true
  unfold TcpSession.use
  rw [h, Bool.true_or]

/-- Closing slots never makes up for a wrong call. -/
theorem closeSlots_misused (L : List (Fin 5)) : ∀ {s : TcpSession}, s.misused = true →
    (closeSlots s L).misused = true := by
  induction L with
  | nil => exact fun h => h
  | cons a L ih =>
    intro s h
    rw [closeSlots_cons]
    apply ih
    split
    · exact close_misused_of h _
    · exact h

/-- With nothing open the slots that hold a descriptor are closed wrongly. -/
theorem closeSlots_closed (hlist : s.listening = []) (hclients : s.clients = [])
    (L : List (Fin 5)) :
    ((∀ i ∈ L, s.tcpClient i < 0) ∧ closeSlots s L = s) ∨
    ((∃ i, ¬ s.tcpClient i < 0) ∧ (closeSlots s L).misused = true) := by
  induction L with
  | nil => exact .inl ⟨fun i hi => absurd hi List.not_mem_nil, rfl⟩
  | cons a L ih =>
    rw [closeSlots_cons]
    split
    · rename_i ha
      exact .inr ⟨⟨a, by omega⟩, closeSlots_misused L (close_misused hlist hclients _)⟩
    · rename_i ha
      apply ih.imp_left
      rintro ⟨hall, hfold⟩
      exact ⟨List.forall_mem_cons.mpr ⟨by omega, hall⟩, hfold⟩

/-- **The exit with nothing open** is in order exactly if `ls` holds no descriptor. -/
theorem tcpEnd_closed (h : TcpClosed s) :
    ((s.tcpServerFd < 0 ∧ ∀ i, s.tcpClient i < 0) ∧ tcpEnd s = { s with pc := .done }) ∨
    (¬ (s.tcpServerFd < 0 ∧ ∀ i, s.tcpClient i < 0) ∧ (tcpEnd s).misused = true) := by
  have hsock : ¬ s.sockfd ≥ 0 := by
    rw [h.sockfd]
    decide
  rw [tcpEnd_eq]
  dsimp only
  rcases closeSlots_closed h.listening h.clients (List.finRange 5) with
    ⟨hall, hfold⟩ | ⟨⟨i, hi⟩, hmis⟩
  · rw [hfold]
    by_cases hserver : s.tcpServerFd ≥ 0
    · refine .inr ⟨fun hok => by omega, ?_⟩
      rw [if_pos hserver, if_neg (by exact hsock)]
      exact close_misused h.listening h.clients _
    · refine .inl ⟨⟨by omega, fun i => hall i (List.mem_finRange i)⟩, ?_⟩
      rw [if_neg hserver, if_neg hsock]
  · refine .inr ⟨fun hok => hi (hok.2 i), ?_⟩
    generalize closeSlots s (List.finRange 5) = t at hmis
    -- A close after it leaves the flag as it is.
    have hclose : ∀ t' : TcpSession, t'.misused = true → (if t'.sockfd ≥ 0 then
        { t'.close t'.sockfd with sockfd := -1 } else t').misused = true := by
      intro t' ht'
      split
      · exact close_misused_of ht' _
      · exact ht'
    apply hclose
    split
    · exact close_misused_of hmis _
    · exact hmis

/-! ### Runs -/

/-- In these states the session closes only what it has opened. -/
theorem TcpGood.owned (h : TcpGood s) : TcpOwned s := by
  have hclosed : TcpClosed s → (s.pc ≠ .start → ∀ i, s.tcpClient i < 0) → TcpOwned s := by
    intro hc hslots
    refine ⟨hc.not_misused, fun hf => ?_, fun fd hfd => ?_, fun hpc i hi => ?_,
      fun _ => ⟨hc.listening, hc.clients⟩⟩
    · rw [hc.not_failed] at hf
      cases hf
    · rw [hc.clients] at hfd
      cases hfd
    · exact absurd (hslots hpc i) (by omega)
  have hloop : TcpLoop s → s.pc ≠ .done → TcpOwned s := by
    intro hl hdone
    refine ⟨hl.not_misused, fun hf => ?_, fun fd hfd => ?_, fun _ i hi => hl.slot_owned hi,
      fun hpc => absurd hpc hdone⟩
    · rw [hl.not_failed] at hf
      cases hf
    · obtain ⟨i, hi⟩ := hl.in_slot fd hfd
      exact ⟨i, hi, fun j hj => hl.injective j i (by omega) (hj.trans hi.symm)⟩
  unfold TcpGood at h
  cases hpc : s.pc <;> simp only [hpc] at h
  case start => exact hclosed h fun hne => absurd hpc hne
  case create => exact hclosed h.1 fun _ i => by have := h.2 i; omega
  case done => exact hclosed h.1 fun _ => h.2
  all_goals exact hloop h (by simp [hpc])

/-- `CreateTcpServer` ends in the loop, or has failed. -/
theorem createTcpServer_spec (h : TcpClosed s) (hslots : ∀ i, s.tcpClient i = -1)
    (socket : Option ℕ) (bind listen : ℤ) :
    let r := createTcpServer s socket bind listen
    ((socket ≠ none ∧ bind = 0 ∧ listen = 0) ∧
      TcpLoop { r.1 with tcpServerFd := r.2, pc := .poll }) ∨
    (¬ (socket ≠ none ∧ bind = 0 ∧ listen = 0) ∧ r.1.failed = true) := by
  unfold createTcpServer
  cases socket with
  | none => exact .inr ⟨fun hok => hok.1 rfl, rfl⟩
  | some fd =>
    dsimp only
    split
    · rename_i hbind
      exact .inr ⟨fun hok => hbind hok.2.1, rfl⟩
    · split
      · rename_i hlisten
        exact .inr ⟨fun hok => hlisten hok.2.2, rfl⟩
      · rename_i hbind hlisten
        have hout : fd ∉ s.clients := by
          rw [h.clients]
          exact List.not_mem_nil
        refine .inl ⟨⟨Option.some_ne_none fd, not_not.mp hbind, not_not.mp hlisten⟩,
          ⟨h.not_misused, h.not_failed, h.sockfd⟩, ⟨fd, ?_, rfl, hout⟩, ?_, ?_, ?_⟩
        · dsimp only
          rw [h.listening]
        · exact fun i => .inl (hslots i)
        · intro fd hfd
          dsimp only at hfd
          rw [h.clients] at hfd
          cases hfd
        · intro i j hi _
          dsimp only at hi
          rw [hslots i] at hi
          omega

/-- `TcpLoop` does not look at `pc` and `readfd`. -/
theorem TcpLoop.move (h : TcpLoop s) (pc : TcpPc) (readfd : List ℤ) :
    TcpLoop { s with pc := pc, readfd := readfd } :=
  ⟨⟨h.not_misused, h.not_failed, h.sockfd⟩, h.server, h.slots, h.in_slot, h.injective⟩

/-- In the loop `TcpGood` is `TcpLoop`. -/
theorem tcpGood_of_loop (h : TcpLoop s)
    (hpc : s.pc = .poll ∨ s.pc = .accept ∨ ∃ i, s.pc = .recv i) : TcpGood s := by
  unfold TcpGood
  rcases hpc with hpc | hpc | ⟨i, hpc⟩ <;> simp only [hpc] <;> exact h

/-- After a slot comes the next one, or the top of the loop. -/
theorem tcpGood_nextSlot (h : TcpLoop s) (i : Fin 5) : TcpGood { s with pc := nextSlot i } := by
  apply tcpGood_of_loop (h.move (nextSlot i) s.readfd)
  unfold nextSlot
  split
  · exact .inr (.inr ⟨_, rfl⟩)
  · exact .inl rfl

/-- A turn of the loop up to its `select` keeps slots and clients together. -/
theorem TcpLoop.tcpPoll (h : TcpLoop s) (atMode : AtMode) (ready : List ℤ) :
    TcpGood (tcpPoll s atMode ready) := by
  unfold SerialNet.tcpPoll
  split
  · exact h.tcpEnd
  · rw [h.select ready]
    dsimp only
    have hmoved := fun pc => h.move pc ((addSelectFD s).filter fun fd => fd ∈ ready)
    split
    · rename_i hneg
      obtain ⟨n, -, hfd, -⟩ := h.server
      omega
    · split
      · exact tcpGood_of_loop (hmoved .accept) (.inr (.inl rfl))
      · exact tcpGood_of_loop (hmoved (.recv firstSlot)) (.inr (.inr ⟨firstSlot, rfl⟩))

/-- A new client gets a slot, or is closed at once. -/
theorem TcpLoop.tcpAccept (h : TcpLoop s) {s' : TcpSession} {newfd : Option ℕ}
    (hstep : tcpAccept s newfd = some s') : TcpGood s' := by
  unfold SerialNet.tcpAccept at hstep
  rw [TcpSession.use_of_owns h.owns_server] at hstep
  cases newfd with
  | none =>
    rw [← Option.some.inj hstep]
    exact h.tcpEnd
  | some newfd =>
    dsimp only at hstep
    split at hstep
    · cases hstep
    · rename_i hnew
      rw [← Option.some.inj hstep]
      exact tcpGood_of_loop ((h.addClient hnew).move (.recv firstSlot) _)
        (.inr (.inr ⟨firstSlot, rfl⟩))

/-- A client that has gone is closed and its slot emptied. -/
theorem TcpLoop.tcpRecv (h : TcpLoop s) (i : Fin 5) (ret : ℤ) : TcpGood (tcpRecv s i ret) := by
  unfold SerialNet.tcpRecv
  dsimp only
  split
  · rename_i hfd
    rw [TcpSession.use_of_owns (h.owns_slot hfd.1)]
    split
    · exact tcpGood_nextSlot h i
    · exact tcpGood_nextSlot (h.closeClient hfd.1) i
  · exact tcpGood_nextSlot h i

/-- **One call**: an admitted event keeps the state good, any other breaks it. -/
theorem tcpStep_good_or_bad {s s' : TcpSession} {e : TcpEvent} (h : TcpGood s)
    (hstep : tcpStep s e = some s') :
    (TcpEventOk s e ∧ TcpGood s') ∨ (¬ TcpEventOk s e ∧ ¬ TcpOwned s') := by
  have hgood := h
  unfold TcpGood at hgood
  cases hpc : s.pc with
  | start =>
    simp only [hpc] at hgood
    cases e with
    | mode atMode =>
      unfold tcpStep at hstep
      simp only [hpc] at hstep
      cases atMode with
      | «at» =>
        rw [← Option.some.inj hstep]
        rcases tcpEnd_closed hgood with ⟨hok, heq⟩ | ⟨hbad, hmis⟩
        · rw [heq]
          exact .inl ⟨hok, ⟨⟨hgood.not_misused, hgood.not_failed, hgood.sockfd⟩,
            hgood.listening, hgood.clients⟩, hok.2⟩
        · refine .inr ⟨hbad, fun howned => ?_⟩
          rw [howned.not_misused] at hmis
          cases hmis
      | data =>
        rw [← Option.some.inj hstep]
        exact .inl ⟨trivial, ⟨⟨hgood.not_misused, hgood.not_failed, hgood.sockfd⟩,
          hgood.listening, hgood.clients⟩, fun i => rfl⟩
    | create | poll | accept | recv => simp [tcpStep, hpc] at hstep
  | create =>
    simp only [hpc] at hgood
    cases e with
    | create socket bind listen =>
      unfold tcpStep at hstep
      simp only [hpc] at hstep
      split at hstep
      · rw [← Option.some.inj hstep]
        rcases createTcpServer_spec hgood.1 hgood.2 socket bind listen with
          ⟨hok, hloop⟩ | ⟨hbad, hfailed⟩
        · exact .inl ⟨hok, tcpGood_of_loop hloop (.inl rfl)⟩
        · refine .inr ⟨hbad, fun howned => ?_⟩
          have hdone := howned.ended hfailed
          cases hdone
      · cases hstep
    | mode | poll | accept | recv => simp [tcpStep, hpc] at hstep
  | poll =>
    simp only [hpc] at hgood
    cases e with
    | poll atMode ready =>
      simp only [tcpStep, hpc, Option.some.injEq] at hstep
      exact .inl ⟨trivial, hstep ▸ hgood.tcpPoll atMode ready⟩
    | mode | create | accept | recv => simp [tcpStep, hpc] at hstep
  | accept =>
    simp only [hpc] at hgood
    cases e with
    | accept newfd =>
      simp only [tcpStep, hpc] at hstep
      exact .inl ⟨trivial, hgood.tcpAccept hstep⟩
    | mode | create | poll | recv => simp [tcpStep, hpc] at hstep
  | recv i =>
    simp only [hpc] at hgood
    cases e with
    | recv ret =>
      simp only [tcpStep, hpc, Option.some.injEq] at hstep
      exact .inl ⟨trivial, hstep ▸ hgood.tcpRecv i ret⟩
    | mode | create | poll | accept => simp [tcpStep, hpc] at hstep
  | done => simp [tcpStep, hpc] at hstep

/-- **A session uses its own open descriptors only**, keeps each client in one slot until it is
    closed, and leaves nothing open, exactly if `CreateTcpServer` succeeds, or the session ends
    before it with nothing in `ls`. -/
theorem tcp_server_descriptors_iff {tcpServerFd : ℤ} {tcpClient : Fin 5 → ℤ} {es : List TcpEvent}
    (h : (run tcpStep (tcpStart tcpServerFd tcpClient) es).isSome) :
    Always tcpStep TcpOwned (tcpStart tcpServerFd tcpClient) es ↔
      Along tcpStep TcpEventOk (tcpStart tcpServerFd tcpClient) es := by
  have hgood : TcpGood (tcpStart tcpServerFd tcpClient) := ⟨⟨rfl, rfl, rfl⟩, rfl, rfl⟩
  exact always_iff_along (fun _ hs => hs.owned)
    (fun _ _ _ hs hstep => tcpStep_good_or_bad hs hstep) es _ hgood h

/-- The first session after boot: a client comes, and the device leaves `DATA_MODE`. -/
theorem tcp_server_descriptors_iff_session :
    Always tcpStep TcpOwned (tcpStart 0 fun _ => 0)
      [.mode .data, .create (some 3) 0 0, .poll .data [3], .accept (some 4), .recv 0, .recv 0,
        .recv 0, .recv 0, .recv 0, .poll .at []] := by
  apply (tcp_server_descriptors_iff (by decide +kernel)).mpr
  refine ⟨trivial, fun _ _ => ⟨⟨Option.some_ne_none 3, rfl, rfl⟩, fun s _ => ?_⟩⟩
  apply along_of_forall
  intro s e he
  simp only [List.mem_cons, List.not_mem_nil, or_false] at he
  rcases he with rfl | rfl | rfl | rfl | rfl | rfl | rfl | rfl <;> trivial

/-- Without a socket `CreateTcpServer` answers 1, and the session ends with a `close` of the
    descriptor 1. -/
theorem failed_server_closes_foreign_descriptor :
    ¬ ∀ (tcpServerFd : ℤ) (tcpClient : Fin 5 → ℤ) (es : List TcpEvent),
      (run tcpStep (tcpStart tcpServerFd tcpClient) es).isSome →
        Always tcpStep TcpOwned (tcpStart tcpServerFd tcpClient) es := by
  intro hall
  have hrun := hall 0 (fun _ => 0) [.mode .data, .create none 0 0, .poll .at []] (by decide +kernel)
  have hmisused := (((hrun.2 _ rfl).2 _ rfl).2 _ rfl).not_misused
  exact absurd hmisused (by decide +kernel)

end SerialNet
