import SerialNet.Kernel.Fifo

namespace SerialNet

open PrioTable

/-!
# What semaphores and queues are for

To its callers a semaphore is a number of units and a queue is a list of messages.  `EventSpec` says
so, with what each note of the log does to it; `replay` gives the state that a whole log leads to,
or nothing if a note is not possible: a unit that is not there, a message that is not the oldest.
`replay_eq_spec` says that the kernel is in that state after every run.
-/

/-! ### The abstract events -/

/-- An event as its users see it: a number of units, or a list of messages. -/
inductive EventSpec where
  | unused
  | sem (units : ℕ)
  | queue (items : List ℕ)
deriving DecidableEq, Repr

/-- The event that a note is about. -/
def Note.pevent : Note → EventId
  | .semCreated e _ | .qCreated e | .posted e _ | .handed _ e _ | .released _ e | .returned _ e _
  | .flushed e | .deleted e => e

/-- What a note does to its event. -/
def EventSpec.apply : EventSpec → Note → Option EventSpec
  | .unused, .semCreated _ cnt => some (.sem cnt)
  | .unused, .qCreated _ => some (.queue [])
  | .sem units, .posted _ _ => some (.sem (units + 1))
  | .sem (units + 1), .handed _ _ _ => some (.sem units)
  | .queue items, .posted _ msg => some (.queue (items ++ [msg]))
  | .queue (item :: items), .handed _ _ msg => if msg = item then some (.queue items) else none
  | .queue _, .flushed _ => some (.queue [])
  | .sem _, .deleted _ => some .unused
  | .queue _, .deleted _ => some .unused
  | a, .released _ _ => some a
  | a, .returned _ _ _ => some a
  | _, _ => none

/-- The notes about one event, from a state on. -/
def replayFrom (e : EventId) (a : EventSpec) (log : List Note) : Option EventSpec :=
  log.foldlM (fun a n => if n.pevent = e then a.apply n else some a) a

/-- The state of an event after a log. -/
def replay (e : EventId) (log : List Note) : Option EventSpec := replayFrom e .unused log

/-- A log is replayed part by part. -/
theorem replayFrom_append (e : EventId) (a : EventSpec) (l l' : List Note) :
    replayFrom e a (l ++ l') = (replayFrom e a l).bind fun a' => replayFrom e a' l' :=
  List.foldlM_append

/-- Notes about other events change nothing. -/
theorem replayFrom_other {e : EventId} (a : EventSpec) {n : List Note}
    (hn : ∀ x ∈ n, x.pevent ≠ e) : replayFrom e a n = some a := by
  induction n with
  | nil => rfl
  | cons x n ih =>
    have hstep : replayFrom e a (x :: n) = replayFrom e a n := by
      rw [replayFrom, List.foldlM_cons, if_neg (hn x List.mem_cons_self)]
      rfl
    rw [hstep]
    exact ih fun y hy => hn y (List.mem_cons_of_mem x hy)

namespace Kernel

/-- The messages that wait in the queue of an event. -/
def messages (k : Kernel) (e : EventId) : List ℕ := (k.queue e).messages k.slots

/-- What an event stands for. -/
def spec (k : Kernel) (e : EventId) : EventSpec :=
  match (k.event e).type with
  | .unused | .mutex => .unused
  | .sem => .sem (k.event e).cnt
  | .q => .queue (k.messages e)

/-- Every queue has a control block and memory of its own, and no task waits for one that has
    messages. -/
structure QueuesOk (k : Kernel) : Prop where
  used : ∀ e, (k.event e).type = .q → k.qOf e ∉ k.qFreeList
  inj : ∀ e e', (k.event e).type = .q → (k.event e').type = .q → k.qOf e = k.qOf e' → e = e'
  nodup : k.qFreeList.Nodup
  ok : ∀ e, (k.event e).type = .q → (k.queue e).Ok
  disjoint : ∀ e e', (k.event e).type = .q → (k.event e').type = .q → e ≠ e' →
    ∀ i, (k.queue e).Covers i → ¬ (k.queue e').Covers i
  noWait : ∀ e, (k.event e).type = .q → 0 < (k.queue e).entries → (k.event e).tbl.grp = 0
  noMutex : ∀ e, (k.event e).type ≠ .mutex

/-- Only wait lists differ, and a queue with messages still has an empty one. -/
structure SameEvents (k k' : Kernel) : Prop where
  event : ∀ e, ∃ tbl, k'.event e = { k.event e with tbl } ∧
    ((k.event e).type = .q → 0 < (k.queue e).entries → (k.event e).tbl.grp = 0 → tbl.grp = 0)
  q : k'.q = k.q
  qFreeList : k'.qFreeList = k.qFreeList
  slots : k'.slots = k.slots

variable {k k' : Kernel} {e : EventId} {n : List Note}

/-- The kind of an event is the same. -/
theorem SameEvents.type (h : k.SameEvents k') (e : EventId) :
    (k'.event e).type = (k.event e).type := by
  obtain ⟨tbl, heq, -⟩ := h.event e
  rw [heq]

/-- The queue of an event is the same. -/
theorem SameEvents.queue (h : k.SameEvents k') (e : EventId) : k'.queue e = k.queue e := by
  obtain ⟨tbl, heq, -⟩ := h.event e
  rw [Kernel.queue, Kernel.queue, qOf, qOf, heq, h.q]

/-- Its abstract state is the same. -/
theorem SameEvents.spec (h : k.SameEvents k') (e : EventId) : k'.spec e = k.spec e := by
  obtain ⟨tbl, heq, -⟩ := h.event e
  rw [Kernel.spec, Kernel.spec, messages, messages, h.queue e, h.slots, heq]

/-- The queues stay in order where nothing of them changes. -/
theorem QueuesOk.of_same (hq : k.QueuesOk) (h : k.SameEvents k') : k'.QueuesOk := by
  have hqOf : ∀ e, k'.qOf e = k.qOf e := by
    intro e
    obtain ⟨tbl, heq, -⟩ := h.event e
    rw [qOf, qOf, heq]
  refine ⟨?_, ?_, ?_, ?_, ?_, ?_, ?_⟩
  · intro e
    rw [h.type, hqOf, h.qFreeList]
    exact hq.used e
  · intro e e'
    rw [h.type, h.type, hqOf, hqOf]
    exact hq.inj e e'
  · rw [h.qFreeList]
    exact hq.nodup
  · intro e
    rw [h.type, h.queue]
    exact hq.ok e
  · intro e e'
    rw [h.type, h.type, h.queue, h.queue]
    exact hq.disjoint e e'
  · intro e hty hpos
    obtain ⟨tbl, heq, hgrp⟩ := h.event e
    rw [h.type] at hty
    rw [h.queue] at hpos
    rw [heq]
    exact hgrp hty hpos (hq.noWait e hty hpos)
  · intro e
    rw [h.type]
    exact hq.noMutex e

/-- A table without waiters stays without. -/
theorem grp_clear {t : PrioTable} (h : t.grp = 0) (p : Prio) : (t.clear p).grp = 0 := by
  unfold PrioTable.clear
  dsimp only
  split
  · rw [h]
    exact BitVec.zero_and
  · exact h

/-- One wait list changes. -/
theorem sameEvents_setTbl (tbl : PrioTable)
    (hev : k'.event = Function.update k.event e { k.event e with tbl })
    (hgrp : (k.event e).type = .q → 0 < (k.queue e).entries → (k.event e).tbl.grp = 0 →
      tbl.grp = 0)
    (hq : k'.q = k.q) (hfree : k'.qFreeList = k.qFreeList) (hslots : k'.slots = k.slots) :
    k.SameEvents k' := by
  refine ⟨?_, hq, hfree, hslots⟩
  intro e'
  rw [hev]
  by_cases he : e' = e
  · rw [he, Function.update_self]
    exact ⟨tbl, rfl, hgrp⟩
  · rw [Function.update_of_ne he]
    exact ⟨(k.event e').tbl, rfl, fun _ _ => id⟩

/-- Where nothing of the events is stored, they are the same. -/
theorem sameEvents_of_eq (hev : k'.event = k.event) (hq : k'.q = k.q)
    (hfree : k'.qFreeList = k.qFreeList) (hslots : k'.slots = k.slots) : k.SameEvents k' :=
  ⟨fun e => ⟨(k.event e).tbl, by rw [hev], fun _ _ => id⟩, hq, hfree, hslots⟩

/-- To wake a waiter changes no count and no message. -/
theorem readyFirst_same (k : Kernel) (e : EventId) (msg : ℕ) :
    k.SameEvents (k.readyFirst e msg) :=
  sameEvents_setTbl _ rfl (fun _ _ hgrp => grp_clear hgrp _) rfl rfl rfl

/-- To wait changes no count and no message. -/
theorem waitCur_same {kind : PendKind} (hmay : k.MayWait kind e) (b : BitVec 8) (timeout : ℕ) :
    k.SameEvents (k.waitCur e b timeout) := by
  refine sameEvents_setTbl _ rfl (fun hty hpos _ => ?_) rfl rfl rfl
  have hkind : kind = .q := by
    rw [hmay.type] at hty
    cases kind with
    | sem => cases hty
    | q => rfl
  rw [hmay.noMessages hkind] at hpos
  exact absurd hpos (lt_irrefl 0)

/-- To return from a pend changes no count and no message. -/
theorem resumeCur_same (k : Kernel) (e : EventId) (msg : ℕ) :
    k.SameEvents (k.resumeCur e msg) := by
  by_cases hto : k.cur.statPend = .timeout
  · exact sameEvents_setTbl _ (if_pos hto) (fun _ _ hgrp => grp_clear hgrp _) rfl rfl rfl
  · exact sameEvents_of_eq (if_neg hto) rfl rfl rfl

/-- To delete a task changes no count and no message. -/
theorem dropTask_same (k : Kernel) (t : TcbId) : k.SameEvents (k.dropTask t) := by
  refine ⟨?_, rfl, rfl, rfl⟩
  intro e
  rw [dropTask_event]
  split
  · exact ⟨_, rfl, fun _ _ hgrp => grp_clear hgrp _⟩
  · exact ⟨(k.event e).tbl, rfl, fun _ _ => id⟩

/-- A tick changes no count and no message. -/
theorem Wf.tickLoop_same (h : k.Wf) : k.SameEvents (Kernel.tickLoop k k.tcbList) := by
  obtain ⟨-, tcb, rdy, heq⟩ := h.tickLoop k.tcbList fun _ => id
  rw [heq]
  exact sameEvents_of_eq rfl rfl rfl rfl

/-! ### Moves follow the specification -/

/-- The event of a move follows its notes, and the others stay as they are. -/
theorem replay_move {a : EventSpec} (hn : ∀ x ∈ n, x.pevent = e)
    (hself : replayFrom e (k.spec e) n = some a) (hspec : k'.spec e = a)
    (hother : ∀ e', e' ≠ e → k'.spec e' = k.spec e') (e' : EventId) :
    replayFrom e' (k.spec e') n = some (k'.spec e') := by
  by_cases he : e' = e
  · rw [he, hself, hspec]
  · rw [hother e' he]
    apply replayFrom_other
    intro x hx heq
    exact he (heq.symm.trans (hn x hx))

/-- A semaphore stands for its count. -/
theorem spec_sem (hty : (k.event e).type = .sem) : k.spec e = .sem (k.event e).cnt := by
  rw [spec, hty]

/-- A queue stands for its messages, oldest first. -/
theorem spec_q (hty : (k.event e).type = .q) : k.spec e = .queue (k.messages e) := by
  rw [spec, hty]

/-- A free control block stands for nothing. -/
theorem spec_unused (hty : (k.event e).type = .unused) : k.spec e = .unused := by
  rw [spec, hty]

/-- Another event and other queues do not count. -/
theorem spec_congr {e' : EventId} (hev : k'.event e' = k.event e')
    (hq : (k.event e').type = .q → k'.q (k.qOf e') = k.q (k.qOf e') ∧
      (k.queue e').messages k'.slots = (k.queue e').messages k.slots) :
    k'.spec e' = k.spec e' := by
  rw [spec, spec, hev]
  cases hty : (k.event e').type with
  | unused | mutex | sem => rfl
  | q =>
    obtain ⟨hqueue, hslots⟩ := hq hty
    dsimp only
    rw [messages, messages, Kernel.queue, qOf, hev, ← qOf, hqueue, hslots]

/-- Queues under a change of the events that keeps their control blocks. -/
theorem QueuesOk.of_event (hq : k.QueuesOk)
    (hkeep : ∀ e', (k'.event e').type = .q → (k.event e').type = .q ∧ k'.qOf e' = k.qOf e' ∧
      (0 < (k.queue e').entries → (k'.event e').tbl.grp = 0))
    (hno : ∀ e', (k'.event e').type ≠ .mutex) (hqs : k'.q = k.q)
    (hfree : k'.qFreeList = k.qFreeList) : k'.QueuesOk := by
  have hqueue : ∀ e', (k'.event e').type = .q → k'.queue e' = k.queue e' := by
    intro e' hty
    rw [Kernel.queue, (hkeep e' hty).2.1, hqs]
  refine ⟨?_, ?_, ?_, ?_, ?_, ?_, hno⟩
  · intro e' hty
    obtain ⟨hold, hqOf, -⟩ := hkeep e' hty
    rw [hqOf, hfree]
    exact hq.used e' hold
  · intro e1 e2 hty1 hty2 heq
    rw [(hkeep e1 hty1).2.1, (hkeep e2 hty2).2.1] at heq
    exact hq.inj e1 e2 (hkeep e1 hty1).1 (hkeep e2 hty2).1 heq
  · rw [hfree]
    exact hq.nodup
  · intro e' hty
    rw [hqueue e' hty]
    exact hq.ok e' (hkeep e' hty).1
  · intro e1 e2 hty1 hty2
    rw [hqueue e1 hty1, hqueue e2 hty2]
    exact hq.disjoint e1 e2 (hkeep e1 hty1).1 (hkeep e2 hty2).1
  · intro e' hty
    rw [hqueue e' hty]
    exact (hkeep e' hty).2.2

/-- One queue changes and keeps its memory. -/
theorem QueuesOk.of_queue (hq : k.QueuesOk) (hty : (k.event e).type = .q) (pq : OsQ) (hpq : pq.Ok)
    (hcovers : ∀ i, pq.Covers i ↔ (k.queue e).Covers i)
    (hno : 0 < pq.entries → (k.event e).tbl.grp = 0) (hev : k'.event = k.event)
    (hqs : k'.q = Function.update k.q (k.qOf e) pq) (hfree : k'.qFreeList = k.qFreeList) :
    k'.QueuesOk := by
  have hself : k'.queue e = pq := by
    rw [Kernel.queue, qOf, hev, ← qOf, hqs, Function.update_self]
  have hother : ∀ e', (k.event e').type = .q → e' ≠ e → k'.queue e' = k.queue e' := by
    intro e' hty' hne
    rw [Kernel.queue, qOf, hev, ← qOf, hqs, Function.update_of_ne]
    exact fun heq => hne (hq.inj e' e hty' hty heq)
  have hcov : ∀ e', (k.event e').type = .q → ∀ i, (k'.queue e').Covers i ↔
      (k.queue e').Covers i := by
    intro e' hty' i
    by_cases hne : e' = e
    · rw [hne, hself]
      exact hcovers i
    · rw [hother e' hty' hne]
  refine ⟨?_, ?_, ?_, ?_, ?_, ?_, ?_⟩
  · rw [hfree]
    intro e'
    rw [qOf, hev, ← qOf]
    exact hq.used e'
  · intro e1 e2
    rw [qOf, qOf, hev, ← qOf, ← qOf]
    exact hq.inj e1 e2
  · rw [hfree]
    exact hq.nodup
  · intro e' hty'
    rw [hev] at hty'
    by_cases hne : e' = e
    · rw [hne, hself]
      exact hpq
    · rw [hother e' hty' hne]
      exact hq.ok e' hty'
  · intro e1 e2 hty1 hty2 hne i h1 h2
    rw [hev] at hty1 hty2
    exact hq.disjoint e1 e2 hty1 hty2 hne i ((hcov e1 hty1 i).mp h1) ((hcov e2 hty2 i).mp h2)
  · intro e' hty' hpos
    rw [hev] at hty' ⊢
    by_cases hne : e' = e
    · rw [hne] at hpos ⊢
      rw [hself] at hpos
      exact hno hpos
    · rw [hother e' hty' hne] at hpos
      exact hq.noWait e' hty' hpos
  · rw [hev]
    exact hq.noMutex

/-- What a move does to queues and to the states of all events. -/
def Follows (k k' : Kernel) (n : List Note) : Prop :=
  k'.QueuesOk ∧ ∀ e, replayFrom e (k.spec e) n = some (k'.spec e)

/-- A post that wakes a waiter passes by the event, which stays empty. -/
theorem QueuesOk.hand (hq : k.QueuesOk) {msg : ℕ} (hne : (k.event e).tbl.grp ≠ 0)
    (hty : (k.event e).type = .q ∨ (k.event e).type = .sem ∧ msg = 0) :
    k.Follows (k.readyFirst e msg) [.posted e msg, .handed (k.firstWaiter e) e msg] := by
  have hsame := k.readyFirst_same e msg
  refine ⟨hq.of_same hsame, ?_⟩
  apply replay_move (e := e) (by simp [Note.pevent]) _ rfl fun e' _ => hsame.spec e'
  rw [hsame.spec e]
  rcases hty with hty | ⟨hty, -⟩
  · -- Nothing waits in a queue that a task waits for.
    have hzero : (k.queue e).entries = 0 := by
      by_contra hpos
      exact hne (hq.noWait e hty (Nat.pos_of_ne_zero hpos))
    have hempty : k.messages e = [] := by
      rw [← List.length_eq_zero_iff, messages, OsQ.length_messages, hzero]
    rw [spec_q hty, hempty]
    simp [replayFrom, Note.pevent, EventSpec.apply]
  · rw [spec_sem hty]
    simp [replayFrom, Note.pevent, EventSpec.apply]

/-- A deletion hands nothing over. -/
theorem QueuesOk.release (hq : k.QueuesOk) (e : EventId) :
    k.Follows (k.readyFirst e 0) [.released (k.firstWaiter e) e] := by
  have hsame := k.readyFirst_same e 0
  refine ⟨hq.of_same hsame, ?_⟩
  apply replay_move (e := e) (by simp [Note.pevent]) _ rfl fun e' _ => hsame.spec e'
  rw [hsame.spec e]
  cases hspec : k.spec e with
  | unused => simp [replayFrom, Note.pevent, EventSpec.apply]
  | sem units => simp [replayFrom, Note.pevent, EventSpec.apply]
  | queue items => simp [replayFrom, Note.pevent, EventSpec.apply]

/-- A semaphore with another count. -/
theorem QueuesOk.setCnt (hq : k.QueuesOk) (hty : (k.event e).type = .sem) (cnt : ℕ) {n : List Note}
    (hn : ∀ x ∈ n, x.pevent = e)
    (happly : replayFrom e (.sem (k.event e).cnt) n = some (.sem cnt)) :
    k.Follows (k.setEvent e { k.event e with cnt }) n := by
  have hself : (k.setEvent e { k.event e with cnt }).event e = { k.event e with cnt } :=
    Function.update_self _ _ _
  have hother : ∀ e', e' ≠ e → (k.setEvent e { k.event e with cnt }).event e' = k.event e' :=
    fun e' he => Function.update_of_ne he _ _
  refine ⟨hq.of_event ?_ ?_ rfl rfl, ?_⟩
  · intro e' hty'
    have he : e' ≠ e := by
      rintro rfl
      rw [hself, hty] at hty'
      cases hty'
    rw [hother e' he] at hty' ⊢
    refine ⟨hty', ?_, hq.noWait e' hty'⟩
    rw [qOf, qOf, hother e' he]
  · intro e'
    by_cases he : e' = e
    · rw [he, hself]
      exact hq.noMutex e
    · rw [hother e' he]
      exact hq.noMutex e'
  · refine replay_move hn ((spec_sem hty).symm ▸ happly) ?_ ?_
    · rw [spec, hself]
      dsimp only
      rw [hty]
    · intro e' he
      exact spec_congr (hother e' he) fun _ => ⟨rfl, rfl⟩

/-- A queue that changes in its memory. -/
theorem QueuesOk.setQueue (hq : k.QueuesOk) (hty : (k.event e).type = .q) {pq : OsQ} (hpq : pq.Ok)
    (hstart : pq.start = (k.queue e).start) (hend : pq.qend = (k.queue e).qend)
    (hno : 0 < pq.entries → (k.event e).tbl.grp = 0) {slots : ℕ → ℕ}
    (hslots : ∀ i, ¬ (k.queue e).Covers i → slots i = k.slots i) (hn : ∀ x ∈ n, x.pevent = e)
    (happly : replayFrom e (.queue (k.messages e)) n = some (.queue (pq.messages slots))) :
    k.Follows { k.setQ (k.qOf e) pq with slots } n := by
  set k1 : Kernel := { k.setQ (k.qOf e) pq with slots }
  refine ⟨hq.of_queue hty pq hpq ?_ hno rfl rfl rfl, ?_⟩
  · intro i
    rw [OsQ.Covers, OsQ.Covers, hstart, hend]
  · have hty1 : (k1.event e).type = .q := hty
    have hself : k1.queue e = pq := Function.update_self _ _ _
    refine replay_move hn ((spec_q hty).symm ▸ happly) ?_ ?_
    · rw [spec_q hty1, messages, hself]
    · intro e' he
      have hev : k1.event e' = k.event e' := rfl
      refine spec_congr hev fun hty' => ?_
      have hne : k.qOf e' ≠ k.qOf e := fun heq => he (hq.inj e' e hty' hty heq)
      refine ⟨Function.update_of_ne hne _ _, (hq.ok e' hty').messages_congr ?_⟩
      intro i hi
      exact hslots i (hq.disjoint e' e hty' hty he i hi)

/-- A stored message becomes the last one. -/
theorem QueuesOk.put (hq : k.QueuesOk) (hty : (k.event e).type = .q)
    (hgrp : (k.event e).tbl.grp = 0) (hlt : (k.queue e).entries < (k.queue e).size) (msg : ℕ) :
    k.Follows (k.osQPut (k.qOf e) msg) [.posted e msg] := by
  obtain ⟨hok, hcov, hmsgs⟩ := (hq.ok e hty).added hlt k.slots msg
  refine hq.setQueue hty hok rfl rfl (fun _ => hgrp) ?_ (by simp [Note.pevent]) ?_
  · intro i hi
    apply Function.update_of_ne
    rintro rfl
    exact hi hcov
  · rw [hmsgs]
    simp [replayFrom, Note.pevent, EventSpec.apply, messages]

/-- The message that is taken is the oldest. -/
theorem QueuesOk.get (hq : k.QueuesOk) (hty : (k.event e).type = .q)
    (hpos : 0 < (k.queue e).entries) :
    k.Follows (k.osQTake (k.qOf e)).1 (k.takeNotes e (k.osQTake (k.qOf e)).2) := by
  obtain ⟨hok, hmsgs⟩ := (hq.ok e hty).taken hpos k.slots
  refine hq.setQueue hty hok rfl rfl (fun _ => hq.noWait e hty hpos) (fun _ _ => rfl)
    (by simp [takeNotes, Note.pevent]) ?_
  rw [messages, hmsgs]
  simp [takeNotes, replayFrom, Note.pevent, EventSpec.apply, osQTake]

/-- A flushed queue has no message. -/
theorem QueuesOk.flush (hq : k.QueuesOk) (hty : (k.event e).type = .q) :
    k.Follows (k.osQFlush e) [.flushed e] := by
  refine hq.setQueue hty (hq.ok e hty).flushed rfl rfl (fun h0 => absurd h0 (lt_irrefl 0))
    (fun _ _ => rfl) (by simp [Note.pevent]) ?_
  simp [replayFrom, Note.pevent, EventSpec.apply, OsQ.messages]

/-- A new semaphore has the count it is created with. -/
theorem QueuesOk.semNew (hq : k.QueuesOk) (h : k.Wf) (cnt : ℕ) {free : List EventId}
    (hfree : k.eventFreeList = e :: free) :
    k.Follows ({ k with eventFreeList := free }.setEvent e ⟨.sem, none, cnt, .empty⟩)
      [.semCreated e cnt] := by
  have hunused := h.eventFree e (hfree ▸ List.mem_cons_self)
  set k1 := { k with eventFreeList := free }.setEvent e ⟨.sem, none, cnt, .empty⟩
  have hself : k1.event e = ⟨.sem, none, cnt, .empty⟩ := Function.update_self _ _ _
  have hother : ∀ e', e' ≠ e → k1.event e' = k.event e' :=
    fun e' he => Function.update_of_ne he _ _
  refine ⟨hq.of_event ?_ ?_ rfl rfl, ?_⟩
  · intro e' hty'
    have he : e' ≠ e := by
      rintro rfl
      rw [hself] at hty'
      cases hty'
    rw [hother e' he] at hty' ⊢
    refine ⟨hty', ?_, hq.noWait e' hty'⟩
    rw [qOf, qOf, hother e' he]
  · intro e'
    by_cases he : e' = e
    · rw [he, hself]
      exact EventType.noConfusion
    · rw [hother e' he]
      exact hq.noMutex e'
  · refine replay_move (e := e) (a := .sem cnt) (by simp [Note.pevent]) ?_ ?_ ?_
    · rw [spec_unused hunused]
      simp [replayFrom, Note.pevent, EventSpec.apply]
    · rw [spec, hself]
    · intro e' he
      exact spec_congr (hother e' he) fun _ => ⟨rfl, rfl⟩

/-- A new queue has no message, and memory that no other queue has. -/
theorem QueuesOk.qNew (hq : k.QueuesOk) (h : k.Wf) {i : QId} {start size : ℕ}
    {free : List EventId} {qfree : List QId} (hfree : k.eventFreeList = e :: free)
    (hqfree : k.qFreeList = i :: qfree) (hmem : k.QMemFree start size) :
    k.Follows (({ k with eventFreeList := free, qFreeList := qfree }.setQ i
      ⟨start, start + size, start, start, size, 0⟩).setEvent e ⟨.q, some i, 0, .empty⟩)
      [.qCreated e] := by
  have hunused := h.eventFree e (hfree ▸ List.mem_cons_self)
  have hnodup := hq.nodup
  rw [hqfree] at hnodup
  set pq : OsQ := ⟨start, start + size, start, start, size, 0⟩
  set k1 := ({ k with eventFreeList := free, qFreeList := qfree }.setQ i pq).setEvent e
    ⟨.q, some i, 0, .empty⟩
  have hself : k1.event e = ⟨.q, some i, 0, .empty⟩ := Function.update_self _ _ _
  have hother : ∀ e', e' ≠ e → k1.event e' = k.event e' :=
    fun e' he => Function.update_of_ne he _ _
  have hqSelf : k1.qOf e = i := by
    rw [qOf, hself]
    rfl
  have hqOther : ∀ e', e' ≠ e → k1.qOf e' = k.qOf e' := by
    intro e' he
    rw [qOf, qOf, hother e' he]
  have hfresh : ∀ e', (k.event e').type = .q → k.qOf e' ≠ i := by
    intro e' hty' heq
    exact hq.used e' hty' (by rw [heq, hqfree]; exact List.mem_cons_self)
  have hold : ∀ e', e' ≠ e → (k1.event e').type = .q → (k.event e').type = .q := by
    intro e' he hty'
    rwa [hother e' he] at hty'
  have hqueueSelf : k1.queue e = pq := by
    rw [Kernel.queue, hqSelf]
    exact Function.update_self _ _ _
  have hqueue : ∀ e', e' ≠ e → (k.event e').type = .q → k1.queue e' = k.queue e' := by
    intro e' he hty'
    rw [Kernel.queue, hqOther e' he]
    exact Function.update_of_ne (hfresh e' hty') _ _
  refine ⟨⟨?_, ?_, hnodup.of_cons, ?_, ?_, ?_, ?_⟩, ?_⟩
  · intro e' hty'
    by_cases he : e' = e
    · rw [he, hqSelf]
      exact (List.nodup_cons.mp hnodup).1
    · rw [hqOther e' he]
      intro hin
      apply hq.used e' (hold e' he hty')
      rw [hqfree]
      exact List.mem_cons_of_mem i hin
  · intro e1 e2 hty1 hty2 heq
    by_cases h1 : e1 = e
    · by_cases h2 : e2 = e
      · rw [h1, h2]
      · rw [h1, hqSelf, hqOther e2 h2] at heq
        exact absurd heq.symm (hfresh e2 (hold e2 h2 hty2))
    · by_cases h2 : e2 = e
      · rw [h2, hqSelf, hqOther e1 h1] at heq
        exact absurd heq (hfresh e1 (hold e1 h1 hty1))
      · rw [hqOther e1 h1, hqOther e2 h2] at heq
        exact hq.inj e1 e2 (hold e1 h1 hty1) (hold e2 h2 hty2) heq
  · intro e' hty'
    by_cases he : e' = e
    · rw [he, hqueueSelf]
      exact OsQ.Ok.created start size
    · rw [hqueue e' he (hold e' he hty')]
      exact hq.ok e' (hold e' he hty')
  · intro e1 e2 hty1 hty2 hne j
    by_cases h1 : e1 = e
    · have h2 : e2 ≠ e := fun heq => hne (h1.trans heq.symm)
      rw [h1, hqueueSelf, hqueue e2 h2 (hold e2 h2 hty2)]
      exact fun hnew hcov => hmem e2 (hold e2 h2 hty2) j hcov hnew
    · rw [hqueue e1 h1 (hold e1 h1 hty1)]
      by_cases h2 : e2 = e
      · rw [h2, hqueueSelf]
        exact fun hcov hnew => hmem e1 (hold e1 h1 hty1) j hcov hnew
      · rw [hqueue e2 h2 (hold e2 h2 hty2)]
        exact hq.disjoint e1 e2 (hold e1 h1 hty1) (hold e2 h2 hty2) hne j
  · intro e' hty' hpos
    by_cases he : e' = e
    · rw [he, hself]
      rfl
    · rw [hqueue e' he (hold e' he hty')] at hpos
      rw [hother e' he]
      exact hq.noWait e' (hold e' he hty') hpos
  · intro e'
    by_cases he : e' = e
    · rw [he, hself]
      exact EventType.noConfusion
    · rw [hother e' he]
      exact hq.noMutex e'
  · refine replay_move (e := e) (a := .queue []) (by simp [Note.pevent]) ?_ ?_ ?_
    · rw [spec_unused hunused]
      simp [replayFrom, Note.pevent, EventSpec.apply]
    · rw [spec, hself]
      dsimp only
      rw [messages, hqueueSelf]
      rfl
    · intro e' he
      exact spec_congr (hother e' he) fun hty' => ⟨Function.update_of_ne (hfresh e' hty') _ _, rfl⟩

/-- An event that goes back to the free list; a queue takes its control block with it. -/
theorem QueuesOk.eventFree (hq : k.QueuesOk) (hused : (k.event e).type = .sem ∨
      (k.event e).type = .q) (hk : k'.event = (k.osEventFree e).event) (hqs : k'.q = k.q)
    (hslots : k'.slots = k.slots)
    (hfree : k'.qFreeList = k.qFreeList ∨
      (k.event e).type = .q ∧ k'.qFreeList = k.qOf e :: k.qFreeList) :
    k.Follows k' [.deleted e] := by
  have hself : k'.event e = ⟨.unused, none, 0, (k.event e).tbl⟩ := by
    rw [hk]
    exact Function.update_self _ _ _
  have hother : ∀ e', e' ≠ e → k'.event e' = k.event e' := by
    intro e' he
    rw [hk]
    exact Function.update_of_ne he _ _
  have hne : ∀ e', (k'.event e').type = .q → e' ≠ e := by
    rintro e' hty' rfl
    rw [hself] at hty'
    cases hty'
  have hold : ∀ e', (k'.event e').type = .q → (k.event e').type = .q := by
    intro e' hty'
    rwa [hother e' (hne e' hty')] at hty'
  have hqOf : ∀ e', e' ≠ e → k'.qOf e' = k.qOf e' := by
    intro e' he
    rw [qOf, qOf, hother e' he]
  have hqueue : ∀ e', e' ≠ e → k'.queue e' = k.queue e' := by
    intro e' he
    rw [Kernel.queue, hqOf e' he, hqs]
  refine ⟨⟨?_, ?_, ?_, ?_, ?_, ?_, ?_⟩, ?_⟩
  · intro e' hty'
    rw [hqOf e' (hne e' hty')]
    rcases hfree with hsame | ⟨htyq, hcons⟩
    · rw [hsame]
      exact hq.used e' (hold e' hty')
    · rw [hcons, List.mem_cons, not_or]
      exact ⟨fun heq => hne e' hty' (hq.inj e' e (hold e' hty') htyq heq),
        hq.used e' (hold e' hty')⟩
  · intro e1 e2 hty1 hty2 heq
    rw [hqOf e1 (hne e1 hty1), hqOf e2 (hne e2 hty2)] at heq
    exact hq.inj e1 e2 (hold e1 hty1) (hold e2 hty2) heq
  · rcases hfree with hsame | ⟨htyq, hcons⟩
    · rw [hsame]
      exact hq.nodup
    · rw [hcons, List.nodup_cons]
      exact ⟨hq.used e htyq, hq.nodup⟩
  · intro e' hty'
    rw [hqueue e' (hne e' hty')]
    exact hq.ok e' (hold e' hty')
  · intro e1 e2 hty1 hty2
    rw [hqueue e1 (hne e1 hty1), hqueue e2 (hne e2 hty2)]
    exact hq.disjoint e1 e2 (hold e1 hty1) (hold e2 hty2)
  · intro e' hty' hpos
    rw [hqueue e' (hne e' hty')] at hpos
    rw [hother e' (hne e' hty')]
    exact hq.noWait e' (hold e' hty') hpos
  · intro e'
    by_cases he : e' = e
    · rw [he, hself]
      exact EventType.noConfusion
    · rw [hother e' he]
      exact hq.noMutex e'
  · refine replay_move (e := e) (a := .unused) (by simp [Note.pevent]) ?_ ?_ ?_
    · rcases hused with hty | hty
      · rw [spec_sem hty]
        simp [replayFrom, Note.pevent, EventSpec.apply]
      · rw [spec_q hty]
        simp [replayFrom, Note.pevent, EventSpec.apply]
    · rw [spec, hself]
    · intro e' he
      exact spec_congr (hother e' he) fun _ => ⟨by rw [hqs], by rw [hslots]⟩

/-- **Every move follows the specification of its event.** -/
theorem Move.follows (hm : k.Move k' n) (h : k.Wf) (hq : k.QueuesOk) : k.Follows k' n := by
  cases hm with
  | hand e msg _ hne hty hnotes =>
    rw [hnotes]
    exact hq.hand hne hty
  | release e => exact hq.release e
  | give e hty hgrp =>
    refine hq.setCnt hty _ (by simp [Note.pevent]) ?_
    simp [replayFrom, Note.pevent, EventSpec.apply]
  | take e hcur hty hpos =>
    refine hq.setCnt hty _ (by simp [takeNotes, Note.pevent]) ?_
    obtain ⟨units, hunits⟩ := Nat.exists_eq_add_one.mpr hpos
    rw [hunits]
    simp [takeNotes, replayFrom, Note.pevent, EventSpec.apply]
  | put e msg hty hgrp hlt => exact hq.put hty hgrp hlt msg
  | get e hcur hty hpos => exact hq.get hty hpos
  | flush e hty => exact hq.flush hty
  | semNew e cnt free hfree => exact hq.semNew h cnt hfree
  | qNew e i start size free qfree hfree hqfree hmem => exact hq.qNew h hfree hqfree hmem
  | semFree e hty => exact hq.eventFree (.inl hty) rfl rfl rfl (.inl rfl)
  | qFree e hty => exact hq.eventFree (.inr hty) rfl rfl rfl (.inr ⟨hty, rfl⟩)

/-- A service call does to the abstract state what its notes say. -/
theorem Moves.follows (hm : Moves k k' n) (h : k.Wf) (hq : k.QueuesOk) : k.Follows k' n := by
  induction hm with
  | nil => exact ⟨hq, fun _ => rfl⟩
  | cons hmove _ ih =>
    obtain ⟨hq', hspec⟩ := hmove.follows h hq
    obtain ⟨hq'', hspec'⟩ := ih (hmove.wf h) hq'
    refine ⟨hq'', ?_⟩
    intro e
    rw [replayFrom_append, hspec e]
    exact hspec' e

end Kernel

/-! ### Runs -/

/-- The kernel is where the log leads. -/
structure ExchangeOk (s : OsSystem) : Prop where
  queues : s.kernel.QueuesOk
  spec : ∀ e, replay e s.log = some (s.kernel.spec e)

section Runs

variable {s s' : OsSystem}

/-- A step that leaves the events alone adds no note. -/
theorem ExchangeOk.of_same (h : ExchangeOk s) (k' : Kernel) (hsame : s.kernel.SameEvents k')
    (pc' : TcbId → TaskPc) : ExchangeOk ⟨k', pc', s.log⟩ where
  queues := h.queues.of_same hsame
  spec e := (h.spec e).trans (by rw [hsame.spec e])

/-- A step that follows its notes keeps the log in step with the events. -/
theorem ExchangeOk.of_follows (h : ExchangeOk s) {k' : Kernel} {n : List Note}
    (hk : s.kernel.Follows k' n) (pc' : TcbId → TaskPc) : ExchangeOk ⟨k', pc', s.log ++ n⟩ where
  queues := hk.1
  spec e := by
    rw [replay, replayFrom_append, ← replay, h.spec e]
    exact hk.2 e

/-- Every step keeps the log in step with the events. -/
theorem OsTransition.exchangeOk {l : OsLabel} (ht : OsTransition s l s') (htab : TablesOk s)
    (h : ExchangeOk s) : ExchangeOk s' := by
  cases ht with
  | moves _ _ k' pc' n hm => exact h.of_follows (hm.follows htab.wf h.queues) pc'
  | tick k' n hm time =>
    have hk := h.of_follows (hm.follows htab.wf h.queues) s.pc
    have hwf : { k' with time : Kernel }.Wf :=
      (hm.wf htab.wf).of_rest _ rfl rfl rfl rfl rfl rfl rfl
    have hclock : k'.SameEvents { k' with time } := Kernel.sameEvents_of_eq rfl rfl rfl rfl
    exact (hk.of_same _ hclock s.pc).of_same _ hwf.tickLoop_same s.pc
  | sched _ _ running intNesting lockNesting prioCur prioHighRdy tcbCur pc' =>
    refine h.of_same _ ?_ pc'
    exact Kernel.sameEvents_of_eq rfl rfl rfl rfl
  | wait _ kind e b timeout hcur hpc hmay => exact h.of_same _ (Kernel.waitCur_same hmay b timeout) _
  | resume kind e msg =>
    have hk := h.of_same _ (s.kernel.resumeCur_same e msg)
      (Function.update s.pc s.kernel.tcbCur .user)
    split
    · refine ⟨hk.queues, fun e' => ?_⟩
      rw [replay, replayFrom_append, ← replay, show replay e' s.log = _ from hk.spec e',
        Option.bind_some]
      -- That a call returns is not a change of its event.
      simp only [replayFrom, List.foldlM_cons, List.foldlM_nil]
      split
      · cases (s.kernel.resumeCur e msg).spec e' <;> rfl
      · rfl
    · exact hk
  | delay ticks _ _ pc' =>
    refine h.of_same _ ?_ pc'
    exact Kernel.sameEvents_of_eq rfl rfl rfl rfl
  | addTask _ prio t free _ _ pc' =>
    refine h.of_same _ ?_ pc'
    exact Kernel.sameEvents_of_eq rfl rfl rfl rfl
  | dropTask _ t _ _ _ _ pc' => exact h.of_same _ (s.kernel.dropTask_same t) pc'

/-- After the boot there is no event and no note. -/
theorem osBoot_exchangeOk : ExchangeOk osBoot where
  queues := by
    have hnone : ∀ e, (osInit.event e).type ≠ .q ∧ (osInit.event e).type ≠ .mutex := by
      decide +kernel
    exact {
      used := fun e hty => absurd hty (hnone e).1
      inj := fun e _ hty => absurd hty (hnone e).1
      nodup := by decide +kernel
      ok := fun e hty => absurd hty (hnone e).1
      disjoint := fun e _ hty => absurd hty (hnone e).1
      noWait := fun e hty => absurd hty (hnone e).1
      noMutex := fun e => (hnone e).2 }
  spec := by decide +kernel

end Runs

/-- A step keeps both invariants. -/
theorem exchange_step {s s' : OsSystem} {l : OsLabel} (h : s.Inv ∧ ExchangeOk s)
    (hok : CallOk s l) (hs : osStep s l = some s') : s'.Inv ∧ ExchangeOk s' :=
  ⟨h.1.step hok hs, (osStep_transition h.1 hok hs).exchangeOk h.1.tablesOk h.2⟩

/-- The log is in step with the events in every state of a run. -/
theorem OsReachable.exchangeOk {s : OsSystem} (h : OsReachable s) : ExchangeOk s := by
  obtain ⟨ls, hok, hrun⟩ := h
  exact (run_invariant (fun _ _ _ hinv hok hs => exchange_step hinv hok hs) ls _ _
    ⟨osBoot_inv, osBoot_exchangeOk⟩ hok hrun).2

/-- **The kernel keeps to the abstract events.**  In every reachable state the log of an event is one
    that a counter or a FIFO queue allows, and leads to what the kernel holds; a queue holds no more
    than its size, and nothing is kept while a task waits for it. -/
theorem replay_eq_spec {s : OsSystem} (h : OsReachable s) (e : EventId) :
    replay e s.log = some (s.kernel.spec e) ∧
      ((s.kernel.event e).type = .q → (s.kernel.messages e).length ≤ (s.kernel.queue e).size) ∧
      ((∃ t ∈ s.kernel.tcbList, (s.kernel.tcb t).WaitsOn e) →
        s.kernel.spec e = .sem 0 ∨ s.kernel.spec e = .queue []) := by
  obtain ⟨hq, hspec⟩ := h.exchangeOk
  have hwf := h.inv.wf
  refine ⟨hspec e, ?_, ?_⟩
  · intro hty
    rw [Kernel.messages, OsQ.length_messages]
    exact (hq.ok e hty).entries
  · rintro ⟨t, ht, hwt⟩
    have hno : ¬ (s.kernel.event e).NoWait := fun hno => hwf.noWait e hno t ht hwt
    cases hty : (s.kernel.event e).type with
    | unused => exact absurd (.inl hty) hno
    | mutex => exact absurd hty (hq.noMutex e)
    | sem =>
      left
      rw [Kernel.spec_sem hty]
      congr 1
      by_contra hcnt
      exact hno (.inr ⟨hty, Nat.pos_of_ne_zero hcnt⟩)
    | q =>
      right
      have hzero : (s.kernel.queue e).entries = 0 := by
        by_contra hne
        exact hwf.grp_eq_zero_iff.mp (hq.noWait e hty (Nat.pos_of_ne_zero hne)) t ht hwt
      rw [Kernel.spec_q hty, Kernel.messages]
      congr 1
      rw [← List.length_eq_zero_iff, OsQ.length_messages, hzero]

theorem replay_eq_spec_waitRun :
    replay 2 (runEnd osStep osBoot waitRun).log = some (.sem 0) :=
  ((replay_eq_spec waitRun_reachable 2).1).trans (by decide +kernel)

/-- **There is no lock.**  `NST_ALLOC_LOCK` asks for the priority of the idle task and gets NULL in
    every reachable state, and no event is ever a mutex. -/
theorem nstAllocLock_fails {s : OsSystem} (h : OsReachable s) :
    s.kernel.nstAllocLock = (s.kernel, none) ∧ ∀ e, (s.kernel.event e).type ≠ .mutex :=
  ⟨h.inv.wf.nstAllocLock_eq h.inv.idleLast, h.exchangeOk.queues.noMutex⟩

theorem nstAllocLock_fails_waitRun :
    (runEnd osStep osBoot waitRun).kernel.nstAllocLock.2 = none :=
  congrArg Prod.snd (nstAllocLock_fails waitRun_reachable).1

end SerialNet
