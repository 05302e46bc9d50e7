import SerialNet.Kernel.System

namespace SerialNet

open PrioTable

/-!
# The tables of the kernel

The ready list holds the priorities of the tasks that can run, and the wait list of an event those
of the tasks that wait for it.  `Kernel.Wf` says so, with what the link fields and the states of the
tasks have to do with each other.  Every service changes one task and the two lists that it is or
was in; `Wf.of_task` is the preservation lemma for such a change.
-/

/-! ### States of a task -/

/-- The task can run. -/
def OsTcb.Ready (c : OsTcb) : Prop := c.stat = osStatRdy ∧ c.dly = 0

/-- The task is in the wait list of the event: it waits, or its time is over and it has not gone on
    yet. -/
def OsTcb.WaitsOn (c : OsTcb) (e : EventId) : Prop :=
  c.eventPtr = some e ∧ (c.stat ≠ osStatRdy ∨ c.statPend = .timeout)

/-- `OSTCBStat` of a task that waits for an event of this type. -/
def EventType.stat : EventType → Option (BitVec 8)
  | .sem => some osStatSem
  | .q => some osStatQ
  | .unused | .mutex => none

/-- The table `OSUnMapTbl` finds the lowest bit that is set. -/
theorem osUnMap_eq_lowestBit (b : BitVec 8) : Kernel.osUnMap b = lowestBit b := by
  revert b
  decide +kernel

/-- The two look-ups find the highest priority of the table. -/
theorem osFirst_eq_first (t : PrioTable) : Kernel.osFirst t = t.first := by
  simp only [Kernel.osFirst, PrioTable.first, osUnMap_eq_lowestBit]

/-- The bits of the two kinds of pend, and what a post and a tick take away. -/
theorem EventType.stat_bits {ty : EventType} {b : BitVec 8} (h : ty.stat = some b) :
    b ≠ osStatRdy ∧ b &&& ~~~b = osStatRdy ∧ b &&& osStatPendAny ≠ osStatRdy ∧
      b &&& ~~~osStatPendAny = osStatRdy := by
  cases ty with
  | unused | mutex => cases h
  | sem | q =>
    obtain rfl := Option.some.inj h
    decide

/-- No task has to wait for the event. -/
def OsEvent.NoWait (ev : OsEvent) : Prop := ev.type = .unused ∨ ev.type = .sem ∧ 0 < ev.cnt

namespace Kernel

/-- The task of this priority has the property. -/
def Holds (k : Kernel) (P : OsTcb → Prop) (p : Prio) : Prop :=
  ∃ t, k.prioTbl p = .tcb t ∧ P (k.tcb t)

/-- The task waits for nothing, or for an event with the bit of its type. -/
def StatOk (k : Kernel) (c : OsTcb) : Prop :=
  c.stat = osStatRdy ∨ ∃ e, c.eventPtr = some e ∧ (k.event e).type.stat = some c.stat

/-- The tables of the kernel agree with its tasks. -/
structure Wf (k : Kernel) : Prop where
  nodup : (k.tcbList ++ k.tcbFreeList).Nodup
  slot_iff : ∀ p t, k.prioTbl p = .tcb t ↔ t ∈ k.tcbList ∧ (k.tcb t).prio = p
  not_reserved : ∀ p, k.prioTbl p ≠ .reserved
  rdy : k.rdy.Represents (k.Holds OsTcb.Ready)
  wait : ∀ e, (k.event e).tbl.Represents (k.Holds (OsTcb.WaitsOn · e))
  stat : ∀ t ∈ k.tcbList, k.StatOk (k.tcb t)
  /-- A task that is delayed and waits for no event is in no wait list. -/
  delayed : ∀ t ∈ k.tcbList, (k.tcb t).dly ≠ 0 → (k.tcb t).stat = osStatRdy →
    (k.tcb t).eventPtr = none
  /-- No task waits for a semaphore that has units, or for an event that is not in use. -/
  noWait : ∀ e, (k.event e).NoWait → ∀ t ∈ k.tcbList, ¬ (k.tcb t).WaitsOn e
  eventFree : ∀ e ∈ k.eventFreeList, (k.event e).type = .unused
  eventFree_nodup : k.eventFreeList.Nodup

/-- The idle task is the last one of the list, can always run and waits for nothing. -/
def IdleLast (k : Kernel) : Prop :=
  ∃ ts i, k.tcbList = ts ++ [i] ∧ (k.tcb i).prio = osTaskIdlePrio ∧ (k.tcb i).Ready ∧
    (k.tcb i).eventPtr = none

variable {k : Kernel} {t : TcbId} {c : OsTcb} {e : EventId} {p : Prio} {P : OsTcb → Prop}

/-! ### The task of a priority -/

/-- A task is found under its priority. -/
theorem Wf.slot (h : k.Wf) (ht : t ∈ k.tcbList) : k.prioTbl (k.tcb t).prio = .tcb t :=
  (h.slot_iff _ _).mpr ⟨ht, rfl⟩

/-- The task under a task's priority is this task. -/
theorem Wf.tcbAt_prio (h : k.Wf) (ht : t ∈ k.tcbList) : k.tcbAt (k.tcb t).prio = t := by
  rw [tcbAt, h.slot ht]

/-- What holds at a task's priority holds of this task. -/
theorem Wf.holds_prio (h : k.Wf) (ht : t ∈ k.tcbList) :
    k.Holds P (k.tcb t).prio ↔ P (k.tcb t) := by
  rw [Holds, h.slot ht]
  constructor
  · rintro ⟨t', ht', hP⟩
    rwa [PrioSlot.tcb.inj ht']
  · intro hP
    exact ⟨t, rfl, hP⟩

/-- What holds at a priority holds of the task that `tcbAt` gives. -/
theorem Wf.of_holds (h : k.Wf) (hp : k.Holds P p) :
    k.tcbAt p ∈ k.tcbList ∧ (k.tcb (k.tcbAt p)).prio = p ∧ P (k.tcb (k.tcbAt p)) := by
  obtain ⟨t, ht, hP⟩ := hp
  have hat : k.tcbAt p = t := by rw [tcbAt, ht]
  rw [hat]
  obtain ⟨hmem, hprio⟩ := (h.slot_iff p t).mp ht
  exact ⟨hmem, hprio, hP⟩

/-- Two tasks with one priority are the same. -/
theorem Wf.eq_of_prio (h : k.Wf) {t' : TcbId} (ht : t ∈ k.tcbList) (ht' : t' ∈ k.tcbList)
    (heq : (k.tcb t).prio = (k.tcb t').prio) : t = t' := by
  have hslot := h.slot ht
  rw [heq, h.slot ht'] at hslot
  exact (PrioSlot.tcb.inj hslot).symm

/-- The first task of a wait list that is not empty. -/
theorem Wf.firstWaiter_spec (h : k.Wf) (hne : (k.event e).tbl.grp ≠ 0) :
    k.firstWaiter e ∈ k.tcbList ∧ (k.tcb (k.firstWaiter e)).prio = osFirst (k.event e).tbl ∧
      (k.tcb (k.firstWaiter e)).WaitsOn e ∧
      ∀ t ∈ k.tcbList, (k.tcb t).WaitsOn e → (k.tcb (k.firstWaiter e)).prio ≤ (k.tcb t).prio := by
  obtain ⟨hholds, hleast⟩ := (h.wait e).first_spec hne
  rw [← osFirst_eq_first] at hholds hleast
  obtain ⟨hmem, hprio, hwaits⟩ := h.of_holds hholds
  refine ⟨hmem, hprio, hwaits, ?_⟩
  intro t ht hwt
  rw [firstWaiter, hprio]
  exact hleast _ ((h.holds_prio ht).mpr hwt)

/-- The wait list is empty exactly if no task waits. -/
theorem Wf.grp_eq_zero_iff (h : k.Wf) :
    (k.event e).tbl.grp = 0 ↔ ∀ t ∈ k.tcbList, ¬ (k.tcb t).WaitsOn e := by
  rw [(h.wait e).grp_eq_zero_iff]
  constructor
  · intro hnone t ht hwt
    exact hnone _ ((h.holds_prio ht).mpr hwt)
  · intro hnone p hp
    obtain ⟨hmem, -, hwt⟩ := h.of_holds hp
    exact hnone _ hmem hwt

/-! ### The change of one task -/

/-- At the priority of the changed task the new state counts, at the others the old ones. -/
theorem Wf.holds_update {k' : Kernel} (h : k.Wf) (ht : t ∈ k.tcbList)
    (hslots : k'.prioTbl = k.prioTbl)
    (htcb : k'.tcb = Function.update k.tcb t c) :
    k'.Holds P p ↔ (p = (k.tcb t).prio ∧ P c) ∨ (p ≠ (k.tcb t).prio ∧ k.Holds P p) := by
  by_cases hp : p = (k.tcb t).prio
  · rw [hp, Holds, hslots, h.slot ht, htcb]
    simp
  · rw [Holds, Holds, hslots, htcb]
    simp only [hp, false_and, false_or, ne_eq, not_false_eq_true, true_and]
    apply exists_congr
    intro t'
    apply and_congr_right
    intro ht'
    have hne : t' ≠ t := by
      rintro rfl
      exact hp ((h.slot_iff _ _).mp ht').2.symm
    rw [Function.update_of_ne hne]

section Lists

variable {tbl : PrioTable} (h : k.Wf) (k' : Kernel) (ht : t ∈ k.tcbList)
  (hslots : k'.prioTbl = k.prioTbl) (htcb : k'.tcb = Function.update k.tcb t c)
include h ht hslots htcb

/-- The changed task comes into a list. -/
theorem Wf.represents_set (htbl : tbl.Represents (k.Holds P)) (hc : P c) :
    (tbl.set (k.tcb t).prio).Represents (k'.Holds P) := by
  apply (htbl.set _).congr
  intro p
  rw [h.holds_update ht hslots htcb]
  by_cases hp : p = (k.tcb t).prio
  · simp [hp, hc]
  · simp [hp]

/-- The changed task goes out of a list. -/
theorem Wf.represents_clear (htbl : tbl.Represents (k.Holds P)) (hc : ¬ P c) :
    (tbl.clear (k.tcb t).prio).Represents (k'.Holds P) := by
  apply (htbl.clear _).congr
  intro p
  rw [h.holds_update ht hslots htcb]
  simp [hc]

/-- The changed task stays where it is. -/
theorem Wf.represents_keep (htbl : tbl.Represents (k.Holds P)) (hc : P c ↔ P (k.tcb t)) :
    tbl.Represents (k'.Holds P) := by
  apply htbl.congr
  intro p
  rw [h.holds_update ht hslots htcb]
  by_cases hp : p = (k.tcb t).prio
  · rw [hp, h.holds_prio ht]
    simp [hc]
  · simp [hp]

/-- **The change of one task** keeps the tables if the lists follow it. -/
theorem Wf.of_task (hlist : k'.tcbList = k.tcbList) (hfree : k'.tcbFreeList = k.tcbFreeList)
    (hprio : c.prio = (k.tcb t).prio)
    (hrdy : k'.rdy.Represents (k'.Holds OsTcb.Ready))
    (hwait : ∀ e, (k'.event e).tbl.Represents (k'.Holds (OsTcb.WaitsOn · e)))
    (hevent : ∀ e, (k'.event e).type = (k.event e).type ∧ (k'.event e).cnt = (k.event e).cnt)
    (hefree : k'.eventFreeList = k.eventFreeList)
    (hstat : k.StatOk c) (hdelayed : c.dly ≠ 0 → c.stat = osStatRdy → c.eventPtr = none)
    (hnew : ∀ e, c.WaitsOn e → (k.tcb t).WaitsOn e ∨ ¬ (k.event e).NoWait) : k'.Wf where
  nodup := by
    rw [hlist, hfree]
    exact h.nodup
  slot_iff p t' := by
    rw [hslots, hlist, h.slot_iff, htcb]
    by_cases heq : t' = t
    · rw [heq, Function.update_self, hprio]
    · rw [Function.update_of_ne heq]
  not_reserved := by
    rw [hslots]
    exact h.not_reserved
  rdy := hrdy
  wait := hwait
  stat t' ht' := by
    rw [hlist] at ht'
    have hok : k.StatOk (k'.tcb t') := by
      rw [htcb]
      by_cases heq : t' = t
      · rw [heq, Function.update_self]
        exact hstat
      · rw [Function.update_of_ne heq]
        exact h.stat t' ht'
    refine hok.imp_right ?_
    rintro ⟨e, he, hty⟩
    exact ⟨e, he, by rwa [(hevent e).1]⟩
  delayed t' ht' := by
    rw [hlist] at ht'
    rw [htcb]
    by_cases heq : t' = t
    · rw [heq, Function.update_self]
      exact hdelayed
    · rw [Function.update_of_ne heq]
      exact h.delayed t' ht'
  noWait e he t' ht' := by
    rw [hlist] at ht'
    rw [OsEvent.NoWait, (hevent e).1, (hevent e).2] at he
    rw [htcb]
    by_cases heq : t' = t
    · rw [heq, Function.update_self]
      intro hc
      rcases hnew e hc with hwas | hnot
      · exact h.noWait e he t ht hwas
      · exact hnot he
    · rw [Function.update_of_ne heq]
      exact h.noWait e he t' ht'
  eventFree e he := by
    rw [hefree] at he
    rw [(hevent e).1]
    exact h.eventFree e he
  eventFree_nodup := by
    rw [hefree]
    exact h.eventFree_nodup

end Lists

end Kernel

end SerialNet
