import SerialNet.Kernel.Preserve

namespace SerialNet

open PrioTable

/-!
# The services are moves

For each service the moves that it consists of, and where a pend waits or a task is created, that
change.
-/

namespace Kernel

variable {k k' k'' : Kernel} {e : EventId} {n n' : List Note}

/-! ### Sequences -/

/-- A service that makes one move. -/
theorem Move.single (h : k.Move k' n) : Moves k k' n := by
  have hs := Moves.cons h (.nil k')
  rwa [List.append_nil] at hs

/-- Moves can be put one after the other, and so are their notes. -/
theorem Moves.trans (h : Moves k k' n) (hs : Moves k' k'' n') : Moves k k'' (n ++ n') := by
  induction h with
  | nil => exact hs
  | cons hmove _ ih =>
    rw [List.append_assoc]
    exact .cons hmove (ih hs)

/-! ### Wait lists -/

/-- What `OS_EventTaskRdy` does for a post or a delete: nobody is suspended. -/
theorem Wf.osEventTaskRdy_eq (h : k.Wf) (hne : (k.event e).tbl.grp ≠ 0) {msk : BitVec 8}
    (hty : (k.event e).type.stat = some msk) (msg : ℕ) :
    (k.osEventTaskRdy e msg msk .ok).1 = k.readyFirst e msg := by
  obtain ⟨ht, hprio, hwt, -⟩ := h.firstWaiter_spec hne
  have hstat : (k.tcb (k.firstWaiter e)).stat &&& ~~~msk = osStatRdy := by
    rcases h.stat _ ht with h0 | ⟨e', he', hstat⟩
    · rw [h0]
      exact BitVec.zero_and
    · obtain rfl := Option.some.inj (hwt.1.symm.trans he')
      rw [hty, Option.some.injEq] at hstat
      rw [← hstat]
      exact (EventType.stat_bits hty).2.1
  have hsusp : osStatRdy &&& osStatSuspend = osStatRdy := rfl
  rw [firstWaiter] at hstat
  simp only [osEventTaskRdy, hstat, hsusp, if_true, osEventTaskRemove, setTcb, setEvent,
    Function.update_self]
  rfl

/-- Waking a waiter does not change the kind of any event. -/
theorem readyFirst_type (k : Kernel) (e : EventId) (msg : ℕ) (e' : EventId) :
    ((k.readyFirst e msg).event e').type = (k.event e').type := by
  by_cases he : e' = e
  · rw [he]
    simp [readyFirst]
  · simp [readyFirst, Function.update_of_ne he]

/-- `while (pevent->OSEventGrp != 0u) OS_EventTaskRdy(..)` readies one task after the other. -/
theorem Wf.osEventAllRdy_moves (h : k.Wf) {msk : BitVec 8}
    (hty : (k.event e).type.stat = some msk) (n : ℕ) :
    Moves k (osEventAllRdy n k e msk) (allRdyNotes n k e msk) ∧
      ((osEventAllRdy n k e msk).event e).type = (k.event e).type ∧
      ((k.event e).tbl.card ≤ n → ((osEventAllRdy n k e msk).event e).tbl.grp = 0) := by
  have hkind : (k.event e).type = .q ∨ (k.event e).type = .sem := by
    cases hev : (k.event e).type with
    | q => exact .inl rfl
    | sem => exact .inr rfl
    | unused | mutex =>
      rw [hev] at hty
      cases hty
  induction n generalizing k with
  | zero => exact ⟨.nil k, rfl, fun h0 => (h.wait e).grp_eq_zero_of_card (Nat.le_zero.mp h0)⟩
  | succ n ih =>
    rw [osEventAllRdy, allRdyNotes]
    by_cases hne : (k.event e).tbl.grp ≠ 0
    · rw [if_pos hne, if_pos hne, h.osEventTaskRdy_eq hne hty]
      have hsame := readyFirst_type k e 0 e
      obtain ⟨hmoves, htype, hgrp⟩ := ih (h.readyFirst hne 0) (hsame ▸ hty) (hsame ▸ hkind)
      refine ⟨.cons (.release e hne hkind) hmoves, htype.trans hsame, fun hcard => hgrp ?_⟩
      obtain ⟨ht, -, hwt, -⟩ := h.firstWaiter_spec hne
      have hmem := ((h.wait e).mem_iff _).mpr ((h.holds_prio ht).mpr hwt)
      have hlt := card_clear_lt hmem
      simp only [Kernel.readyFirst, Function.update_self]
      omega
    · rw [if_neg hne, if_neg hne]
      exact ⟨.nil k, rfl, fun _ => not_not.mp hne⟩

/-! ### Semaphores -/

/-- `OSSemCreate` takes a free control block, if there is one. -/
theorem osSemCreate_moves (k : Kernel) (cnt : ℕ) : Moves k (k.osSemCreate cnt).1
    ((k.osSemCreate cnt).2.toList.map fun e => .semCreated e cnt) := by
  unfold osSemCreate
  split
  · exact .nil k
  · split
    · rename_i e free hfree
      exact (Move.semNew e cnt free hfree).single
    · exact .nil k

/-- `OSSemDel` wakes the waiters one by one and gives the control block back. -/
theorem Wf.osSemDel_moves (h : k.Wf) (e : EventId) (opt : DelOpt) :
    Moves k (k.osSemDel e opt).1 (k.delNotes e opt (k.osSemDel e opt).2.1 osStatSem) := by
  unfold osSemDel
  split
  · exact .nil k
  · rename_i hty
    rw [not_not] at hty
    split
    · exact .nil k
    · dsimp only
      cases opt with
      | other => exact .nil k
      | noPend =>
        dsimp only
        split
        · exact .nil k
        · rename_i hgrp
          refine (Move.semFree e hty ?_).single
          simpa using hgrp
      | always =>
        have hstat : (k.event e).type.stat = some osStatSem := by rw [hty]; rfl
        obtain ⟨hmoves, htype, hgrp⟩ := h.osEventAllRdy_moves hstat 64
        exact hmoves.trans
          (Move.semFree e (htype.trans hty) (hgrp (PrioTable.card_le _))).single

/-- `OSSemPost` counts up, or wakes the first waiter. -/
theorem Wf.osSemPost_moves (h : k.Wf) (e : EventId) :
    Moves k (k.osSemPost e).1 (k.postNotes e 0 (k.osSemPost e).2.1) := by
  unfold osSemPost
  dsimp only
  split
  · exact .nil k
  · rename_i hty
    rw [not_not] at hty
    split
    · rename_i hne
      have hstat : (k.event e).type.stat = some osStatSem := by rw [hty]; rfl
      dsimp only
      rw [h.osEventTaskRdy_eq hne hstat]
      refine (Move.hand e 0 _ hne (.inr ⟨hty, rfl⟩) ?_).single
      rw [postNotes, if_pos rfl, if_pos hne]
    · rename_i hgrp
      split
      · rename_i hlt
        dsimp only
        rw [postNotes, if_pos rfl, if_neg hgrp]
        exact (Move.give e hty (not_not.mp hgrp) hlt).single
      · exact .nil k

/-- `OSSemAccept` counts down, if it can. -/
theorem osSemAccept_moves (hcur : k.CurFree) (e : EventId) :
    Moves k (k.osSemAccept e).1 (if (k.osSemAccept e).2 > 0 then k.takeNotes e 0 else []) := by
  unfold osSemAccept
  dsimp only
  split
  · exact .nil k
  · rename_i hty
    dsimp only
    split
    · rename_i hpos
      exact (Move.take e hcur (not_not.mp hty) hpos).single
    · exact .nil k

/-- The notes of the first part of a pend. -/
def pendNotes (k : Kernel) (e : EventId) : PendResult → List Note
  | .returns err msg => if err = .none then k.takeNotes e msg else []
  | .waits => []

/-- What is true when a task begins to wait for an event. -/
structure MayWait (k : Kernel) (kind : PendKind) (e : EventId) : Prop where
  type : (k.event e).type = kind.type
  noUnits : kind = .sem → (k.event e).cnt = 0
  noMessages : kind = .q → (k.queue e).entries = 0
  unlocked : k.lockNesting = 0

/-- The first part of a pend: it returns, or the task waits. -/
def PendCases (k : Kernel) (kind : PendKind) (e : EventId) (timeout : ℕ)
    (r : Kernel × PendResult) : Prop :=
  (r.2 ≠ .waits ∧ r.1.tcb = k.tcb ∧ Moves k r.1 (k.pendNotes e r.2)) ∨
    (r.2 = .waits ∧ k.MayWait kind e ∧
      ∃ b, kind.type.stat = some b ∧ r.1 = k.waitCur e b timeout)

/-- `OSSemPend` takes a unit, refuses, or leaves the task waiting. -/
theorem osSemPend_cases (hcur : k.CurFree) (e : EventId) (timeout : ℕ) :
    k.PendCases .sem e timeout (k.osSemPend e timeout) := by
  unfold osSemPend
  dsimp only
  split
  · exact .inl ⟨PendResult.noConfusion, rfl, .nil k⟩
  · rename_i hty
    rw [not_not] at hty
    split
    · exact .inl ⟨PendResult.noConfusion, rfl, .nil k⟩
    · split
      · exact .inl ⟨PendResult.noConfusion, rfl, .nil k⟩
      · rename_i hlock
        split
        · rename_i hpos
          exact .inl ⟨PendResult.noConfusion, rfl, (Move.take e hcur hty hpos).single⟩
        · rename_i hzero
          have hb : k.cur.stat ||| osStatSem = osStatSem := by
            rw [hcur.ready.1]
            rfl
          refine .inr ⟨rfl, ⟨hty, fun _ => Nat.eq_zero_of_not_pos hzero, PendKind.noConfusion,
            Nat.eq_zero_of_not_pos hlock⟩, osStatSem, rfl, ?_⟩
          simp only [osEventTaskWait, setTcb, setEvent, cur, Function.update_self,
            Function.update_idem] at hb ⊢
          rw [hb]
          rfl

/-! ### Queues -/

/-- The memory of a new queue is not that of another one. -/
def QMemFree (k : Kernel) (start size : ℕ) : Prop :=
  ∀ e, (k.event e).type = .q → ∀ i, (k.queue e).Covers i → ¬ (start ≤ i ∧ i < start + size)

/-- `OSQCreate` takes a control block of each kind, if there are two. -/
theorem osQCreate_moves {start size : ℕ} (hmem : k.QMemFree start size) :
    Moves k (k.osQCreate start size).1 ((k.osQCreate start size).2.toList.map .qCreated) := by
  unfold osQCreate
  split
  · exact .nil k
  · split
    · rename_i e free hfree
      split
      · rename_i i qfree hqfree
        exact (Move.qNew e i start size free qfree hfree hqfree hmem).single
      · exact .nil k
    · exact .nil k

/-- `OSQDel` wakes the waiters one by one and gives both control blocks back. -/
theorem Wf.osQDel_moves (h : k.Wf) (e : EventId) (opt : DelOpt) :
    Moves k (k.osQDel e opt).1 (k.delNotes e opt (k.osQDel e opt).2.1 osStatQ) := by
  unfold osQDel
  split
  · exact .nil k
  · rename_i hty
    rw [not_not] at hty
    split
    · exact .nil k
    · dsimp only
      cases opt with
      | other => exact .nil k
      | noPend =>
        dsimp only
        split
        · exact .nil k
        · rename_i hgrp
          refine (Move.qFree e hty ?_).single
          simpa using hgrp
      | always =>
        have hstat : (k.event e).type.stat = some osStatQ := by rw [hty]; rfl
        obtain ⟨hmoves, htype, hgrp⟩ := h.osEventAllRdy_moves hstat 64
        exact hmoves.trans
          (Move.qFree e (htype.trans hty) (hgrp (PrioTable.card_le _))).single

/-- `OSQPost` stores the message, or hands it to the first waiter. -/
theorem Wf.osQPost_moves (h : k.Wf) (e : EventId) (msg : ℕ) :
    Moves k (k.osQPost e msg).1 (k.postNotes e msg (k.osQPost e msg).2.1) := by
  unfold osQPost
  split
  · exact .nil k
  · rename_i hty
    rw [not_not] at hty
    split
    · rename_i hne
      have hstat : (k.event e).type.stat = some osStatQ := by rw [hty]; rfl
      dsimp only
      rw [h.osEventTaskRdy_eq hne hstat]
      refine (Move.hand e msg _ hne (.inl hty) ?_).single
      rw [postNotes, if_pos rfl, if_pos hne]
    · rename_i hgrp
      split
      · exact .nil k
      · rename_i hlt
        dsimp only
        rw [postNotes, if_pos rfl, if_neg hgrp]
        exact (Move.put e msg hty (not_not.mp hgrp) (Nat.lt_of_not_le hlt)).single

/-- `OSQAccept` takes the oldest message, if there is one. -/
theorem osQAccept_moves (hcur : k.CurFree) (e : EventId) :
    Moves k (k.osQAccept e).1
      (if (k.osQAccept e).2.1 = .none then k.takeNotes e (k.osQAccept e).2.2 else []) := by
  unfold osQAccept
  split
  · exact .nil k
  · rename_i hty
    split
    · rename_i hpos
      exact (Move.get e hcur (not_not.mp hty) hpos).single
    · exact .nil k

/-- `OSQPend` takes a message, refuses, or leaves the task waiting. -/
theorem osQPend_cases (hcur : k.CurFree) (e : EventId) (timeout : ℕ) :
    k.PendCases .q e timeout (k.osQPend e timeout) := by
  unfold osQPend
  split
  · exact .inl ⟨PendResult.noConfusion, rfl, .nil k⟩
  · rename_i hty
    rw [not_not] at hty
    split
    · exact .inl ⟨PendResult.noConfusion, rfl, .nil k⟩
    · split
      · exact .inl ⟨PendResult.noConfusion, rfl, .nil k⟩
      · rename_i hlock
        split
        · rename_i hpos
          exact .inl ⟨PendResult.noConfusion, rfl, (Move.get e hcur hty hpos).single⟩
        · rename_i hzero
          have hb : k.cur.stat ||| osStatQ = osStatQ := by
            rw [hcur.ready.1]
            rfl
          refine .inr ⟨rfl, ⟨hty, PendKind.noConfusion, fun _ => Nat.eq_zero_of_not_pos hzero,
            Nat.eq_zero_of_not_pos hlock⟩, osStatQ, rfl, ?_⟩
          simp only [osEventTaskWait, setTcb, setEvent, cur, Function.update_self,
            Function.update_idem] at hb ⊢
          rw [hb]
          rfl

/-! ### Time and tasks -/

/-- The task is delayed or nothing happens. -/
theorem osTimeDly_cases (k : Kernel) (ticks : ℕ) :
    k.osTimeDly ticks = (k, false) ∨
      0 < ticks ∧ k.lockNesting = 0 ∧ k.osTimeDly ticks = (k.delayCur ticks, true) := by
  unfold osTimeDly
  split
  · exact .inl rfl
  · split
    · exact .inl rfl
    · rename_i hlock
      split
      · rename_i hpos
        exact .inr ⟨hpos, Nat.eq_zero_of_not_pos hlock, rfl⟩
      · exact .inl rfl

/-- A task is created or nothing happens. -/
theorem osTaskCreate_cases (k : Kernel) (prio : Prio) :
    ((k.osTaskCreate prio).1 = k ∧ (k.osTaskCreate prio).2.1 ≠ .none ∧
        (k.osTaskCreate prio).2.2 = false) ∨
      ∃ t free, k.tcbFreeList = t :: free ∧ k.prioTbl prio = .null ∧
        k.osTaskCreate prio = (k.addTask prio t free, .none, k.running) := by
  unfold osTaskCreate
  split
  · exact .inl ⟨rfl, OsError.noConfusion, rfl⟩
  · split
    · rename_i hslot
      dsimp only
      cases hfree : k.tcbFreeList with
      | cons t free =>
        refine .inr ⟨t, free, rfl, hslot, ?_⟩
        simp only [osTcbInit, setPrioTbl, hfree, setTcb, Function.update_idem, if_true]
        rfl
      | nil =>
        simp only [osTcbInit, setPrioTbl, hfree, Function.update_idem, Bool.false_eq_true, if_false]
        rw [← hslot, Function.update_eq_self, ← hfree]
        exact .inl ⟨rfl, OsError.noConfusion, trivial⟩
    · exact .inl ⟨rfl, OsError.noConfusion, rfl⟩

/-- A task is deleted or nothing happens. -/
theorem Wf.osTaskDel_cases (h : k.Wf) (hcur : k.cur.prio ≠ osTaskIdlePrio) (prio : Option Prio) :
    ((k.osTaskDel prio).1 = k ∧ (k.osTaskDel prio).2.2 = false) ∨
      ∃ t ∈ k.tcbList, (k.tcb t).prio = prio.getD k.cur.prio ∧ (k.tcb t).prio ≠ osTaskIdlePrio ∧
        k.osTaskDel prio = (k.dropTask t, .none, k.running) := by
  unfold osTaskDel
  split
  · exact .inl ⟨rfl, rfl⟩
  · split
    · exact .inl ⟨rfl, rfl⟩
    · rename_i hidle
      dsimp only
      split
      · exact .inl ⟨rfl, rfl⟩
      · exact .inl ⟨rfl, rfl⟩
      · rename_i t hslot
        obtain ⟨hmem, hprio⟩ := (h.slot_iff _ _).mp hslot
        have hnot : (k.tcb t).prio ≠ osTaskIdlePrio := by
          rw [hprio]
          cases prio with
          | none => exact hcur
          | some p => exact fun heq => hidle (congrArg some heq)
        refine .inr ⟨t, hmem, hprio, hnot, ?_⟩
        rw [Kernel.dropTask]
        dsimp only
        rw [hprio]
        cases hptr : (k.tcb t).eventPtr with
        | none => rfl
        | some e =>
          simp only [osEventTaskRemove, setEvent, setTcb, setPrioTbl, hprio]

/-- The tick readies the timer task, counts and then treats the delays. -/
theorem osTimeTick_eq (hrun : (k.osSemPost k.tmrSemSignal).1.running = true) :
    k.osTimeTick =
      let k := (k.osSemPost k.tmrSemSignal).1
      tickLoop { k with time := u32 (k.time + 1) } k.tcbList := by
  unfold osTimeTick
  dsimp only
  rw [if_pos hrun]

/-- A pend goes on as `resumeCur`, and returns what the task has got. -/
theorem pendEnd_eq (k : Kernel) (kind : PendKind) (e : EventId) :
    (pendEnd k kind e).1 = k.resumeCur e (if kind = .sem then k.cur.msg else 0) ∧
      ((pendEnd k kind e).2.1 = .none ↔ k.cur.statPend = .ok) ∧
      (k.cur.statPend = .ok → (pendEnd k kind e).2.2 = if kind = .sem then 0 else k.cur.msg) := by
  cases kind with
  | sem =>
    simp only [pendEnd, osSemPendEnd, if_true]
    cases hpend : k.cur.statPend with
    | ok | abort => simp [setTcb, Kernel.resumeCur, hpend, OsTcb.resumed]
    | timeout =>
      rw [cur] at hpend
      simp [setTcb, Kernel.resumeCur, hpend, OsTcb.resumed, osEventTaskRemove, setEvent, cur]
  | q =>
    simp only [pendEnd, osQPendEnd, reduceCtorEq, if_false]
    cases hpend : k.cur.statPend with
    | ok | abort => simp [setTcb, Kernel.resumeCur, hpend, OsTcb.resumed]
    | timeout =>
      rw [cur] at hpend
      simp [setTcb, Kernel.resumeCur, hpend, OsTcb.resumed, osEventTaskRemove, setEvent, cur]

/-- The priority of a mutex is that of the idle task, and so it is never free. -/
theorem Wf.nstAllocLock_eq (h : k.Wf) (hidle : k.IdleLast) : k.nstAllocLock = (k, none) := by
  obtain ⟨ts, i, hlist, hprio, -, -⟩ := hidle
  have hslot := h.slot (t := i) (by simp [hlist])
  rw [hprio] at hslot
  unfold nstAllocLock osMutexCreate
  split
  · rfl
  · rw [if_pos]
    rw [show (63 : Prio) = osTaskIdlePrio from rfl, hslot]
    exact PrioSlot.noConfusion

/-! ### Calls that change no task

A call that does not go on with `OS_Sched` has left all tasks as they are. -/

/-- Creating a semaphore leaves the tasks alone. -/
theorem osSemCreate_tcb (k : Kernel) (cnt : ℕ) : (k.osSemCreate cnt).1.tcb = k.tcb := by
  unfold osSemCreate
  repeat' split
  all_goals rfl

/-- Creating a queue leaves the tasks alone. -/
theorem osQCreate_tcb (k : Kernel) (start size : ℕ) :
    (k.osQCreate start size).1.tcb = k.tcb := by
  unfold osQCreate
  repeat' split
  all_goals rfl

/-- Taking a unit without waiting leaves the tasks alone. -/
theorem osSemAccept_tcb (k : Kernel) (e : EventId) : (k.osSemAccept e).1.tcb = k.tcb := by
  unfold osSemAccept
  dsimp only
  repeat' split
  all_goals rfl

/-- Taking a message without waiting leaves the tasks alone. -/
theorem osQAccept_tcb (k : Kernel) (e : EventId) : (k.osQAccept e).1.tcb = k.tcb := by
  unfold osQAccept
  repeat' split
  all_goals rfl

/-- Nobody is woken where nobody waits. -/
theorem osEventAllRdy_tcb (n : ℕ) (e : EventId) (msk : BitVec 8)
    (hgrp : (k.event e).tbl.grp = 0) : (osEventAllRdy n k e msk).tcb = k.tcb := by
  cases n with
  | zero => rfl
  | succ n => rw [osEventAllRdy, if_neg (not_not.mpr hgrp)]

/-- A deletion that asks for no scheduling has woken nobody. -/
theorem osSemDel_tcb (k : Kernel) (e : EventId) (opt : DelOpt)
    (hno : (k.osSemDel e opt).2.2 = false) : (k.osSemDel e opt).1.tcb = k.tcb := by
  unfold osSemDel at hno ⊢
  split
  · rfl
  · rename_i hty
    rw [if_neg hty] at hno
    split
    · rfl
    · rename_i hint
      rw [if_neg hint] at hno
      cases opt with
      | other => rfl
      | noPend =>
        dsimp only
        split
        · rfl
        · rfl
      | always =>
        apply osEventAllRdy_tcb
        simpa using hno

/-- A deletion of a queue that asks for no scheduling has woken nobody. -/
theorem osQDel_tcb (k : Kernel) (e : EventId) (opt : DelOpt)
    (hno : (k.osQDel e opt).2.2 = false) : (k.osQDel e opt).1.tcb = k.tcb := by
  unfold osQDel at hno ⊢
  split
  · rfl
  · rename_i hty
    rw [if_neg hty] at hno
    split
    · rfl
    · rename_i hint
      rw [if_neg hint] at hno
      cases opt with
      | other => rfl
      | noPend =>
        dsimp only
        split
        · rfl
        · rfl
      | always =>
        apply osEventAllRdy_tcb
        simpa using hno

/-- A post that asks for no scheduling has woken nobody. -/
theorem osSemPost_tcb (k : Kernel) (e : EventId) (hno : (k.osSemPost e).2.2 = false) :
    (k.osSemPost e).1.tcb = k.tcb := by
  unfold osSemPost at hno ⊢
  dsimp only at hno ⊢
  split
  · rfl
  · rename_i hty
    rw [if_neg hty] at hno
    split
    · rename_i hne
      rw [if_pos hne] at hno
      cases hno
    · split
      · rfl
      · rfl

/-- A post to a queue that asks for no scheduling has woken nobody. -/
theorem osQPost_tcb (k : Kernel) (e : EventId) (msg : ℕ) (hno : (k.osQPost e msg).2.2 = false) :
    (k.osQPost e msg).1.tcb = k.tcb := by
  unfold osQPost at hno ⊢
  split
  · rfl
  · rename_i hty
    rw [if_neg hty] at hno
    split
    · rename_i hne
      rw [if_pos hne] at hno
      cases hno
    · split
      · rfl
      · rfl

end Kernel

end SerialNet
