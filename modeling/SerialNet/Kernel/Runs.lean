import SerialNet.Kernel.Services

namespace SerialNet

open PrioTable

/-!
# The tasks and the kernel

`OsSystem.Inv` holds in every state: the tables of the kernel are right, every control block fits
what its task is doing, and the current task is the one that has to run.  `osStep_transition` is
the inversion of a step; the tables are treated for the kinds of `OsTransition`, and the current
task for the labels.
-/

/-! ### The invariant -/

/-- The pend that a task is in. -/
def TaskPc.waits : TaskPc → Option (PendKind × EventId)
  | .user | .sched => none
  | .schedPend kind e | .pend kind e => some (kind, e)

/-- The task is about to call `OS_Sched`. -/
def TaskPc.BeforeSched : TaskPc → Prop
  | .sched | .schedPend _ _ => True
  | .user | .pend _ _ => False

/-- The control block of a task in a pend. -/
structure PendOk (k : Kernel) (kind : PendKind) (e : EventId) (c : OsTcb) : Prop where
  eventPtr : c.eventPtr = some e
  noAbort : c.statPend ≠ .abort
  type : c.WaitsOn e → (k.event e).type = kind.type
  dly : c.stat = osStatRdy → c.dly = 0
  timeout : c.statPend = .timeout → c.stat = osStatRdy
  /-- A unit of a semaphore is no message. -/
  msg : kind = .sem → ¬ c.WaitsOn e → c.msg = 0

/-- The control block of a task that is in no pend. -/
structure FreeOk (c : OsTcb) : Prop where
  eventPtr : c.eventPtr = none
  stat : c.stat = osStatRdy
  statPend : c.statPend = .ok

/-- The control block fits what the task is doing. -/
def TaskOk (k : Kernel) : Option (PendKind × EventId) → OsTcb → Prop
  | none, c => FreeOk c
  | some (kind, e), c => PendOk k kind e c

namespace OsSystem

/-- Where the current task is. -/
def curPc (s : OsSystem) : TaskPc := s.pc s.kernel.tcbCur

/-- The current task can run, or is about to give way. -/
structure CurAlive (s : OsSystem) : Prop where
  mem : s.kernel.tcbCur ∈ s.kernel.tcbList
  prio : s.kernel.cur.prio = s.kernel.prioCur
  ready : s.kernel.cur.Ready ∨ s.kernel.lockNesting = 0 ∧ s.curPc.BeforeSched

/-- The current task has deleted itself and is about to give way. -/
structure CurDeleted (s : OsSystem) : Prop where
  slot : s.kernel.prioTbl s.kernel.prioCur = .null
  pc : s.curPc = .sched
  lock : s.kernel.lockNesting = 0

/-- What holds in every state of a run: well-formed tables, and of each task that its control block
    fits the place where it is in a call. -/
structure Inv (s : OsSystem) : Prop where
  wf : s.kernel.Wf
  idleLast : s.kernel.IdleLast
  task : ∀ t ∈ s.kernel.tcbList, TaskOk s.kernel (s.pc t).waits (s.kernel.tcb t)
  boot : ¬ s.kernel.running → s.kernel.intNesting = 0 ∧ ∀ t, s.pc t = .user
  cur : s.kernel.running → s.CurAlive ∨ s.CurDeleted
  /-- No task that can run has a higher priority than the current one. -/
  top : s.kernel.running → s.kernel.intNesting = 0 → s.kernel.lockNesting = 0 →
    ¬ s.curPc.BeforeSched → ∀ p, s.kernel.Holds OsTcb.Ready p → s.kernel.prioCur ≤ p

end OsSystem

/-! ### Kinds of steps -/

/-- What a step can do to the tables, the tasks and the log. -/
inductive OsTransition (s : OsSystem) : OsLabel → OsSystem → Prop
  | moves (l : OsLabel) (hl : l ≠ .isr .timeTick) (k' : Kernel) (pc' : TcbId → TaskPc)
      (n : List Note) (hm : Kernel.Moves s.kernel k' n)
      (hpc : ∀ t, (pc' t).waits = (s.pc t).waits) : OsTransition s l ⟨k', pc', s.log ++ n⟩
  /-- A tick posts to the semaphore of the timer task first. -/
  | tick (k' : Kernel) (n : List Note) (hm : Kernel.Moves s.kernel k' n) (time : ℕ) :
      OsTransition s (.isr .timeTick)
        ⟨Kernel.tickLoop { k' with time } k'.tcbList, s.pc, s.log ++ n⟩
  | sched (l : OsLabel) (hl : l ≠ .isr .timeTick) (running : Bool) (intNesting lockNesting : ℕ)
      (prioCur prioHighRdy : Prio) (tcbCur : TcbId) (pc' : TcbId → TaskPc)
      (hpc : ∀ t, (pc' t).waits = (s.pc t).waits) :
      OsTransition s l
        ⟨{ s.kernel with running, intNesting, lockNesting, prioCur, prioHighRdy, tcbCur },
          pc', s.log⟩
  | wait (c : OsCall) (kind : PendKind) (e : EventId) (b : BitVec 8) (timeout : ℕ)
      (hcur : s.kernel.CurFree) (hpc : s.curPc = .user) (hmay : s.kernel.MayWait kind e)
      (hb : kind.type.stat = some b) :
      OsTransition s (.call c) ⟨s.kernel.waitCur e b timeout,
        Function.update s.pc s.kernel.tcbCur (.schedPend kind e), s.log⟩
  | resume (kind : PendKind) (e : EventId) (msg : ℕ) (hmem : s.kernel.tcbCur ∈ s.kernel.tcbList)
      (hready : s.kernel.cur.Ready) (hpc : s.curPc = .pend kind e) :
      OsTransition s .resume ⟨s.kernel.resumeCur e msg, Function.update s.pc s.kernel.tcbCur .user,
        if s.kernel.cur.statPend = .ok then
          s.log ++ [.returned s.kernel.tcbCur e s.kernel.cur.msg]
        else s.log⟩
  | delay (ticks : ℕ) (hcur : s.kernel.CurFree) (hpos : 0 < ticks) (pc' : TcbId → TaskPc)
      (hpc : ∀ t, (pc' t).waits = (s.pc t).waits) :
      OsTransition s (.call (.timeDly ticks)) ⟨s.kernel.delayCur ticks, pc', s.log⟩
  | addTask (c : OsCall) (prio : Prio) (t : TcbId) (free : List TcbId)
      (hfree : s.kernel.tcbFreeList = t :: free) (hslot : s.kernel.prioTbl prio = .null)
      (pc' : TcbId → TaskPc) (hnew : pc' t = .user)
      (hpc : ∀ t' ≠ t, (pc' t').waits = (s.pc t').waits) :
      OsTransition s (.call c) ⟨s.kernel.addTask prio t free, pc', s.log⟩
  | dropTask (prio : Option Prio) (t : TcbId) (hmem : t ∈ s.kernel.tcbList)
      (hcur : s.kernel.CurFree) (hprio : (s.kernel.tcb t).prio = prio.getD s.kernel.cur.prio)
      (hidle : (s.kernel.tcb t).prio ≠ osTaskIdlePrio) (pc' : TcbId → TaskPc)
      (hpc : ∀ t, (pc' t).waits = (s.pc t).waits) :
      OsTransition s (.call (.taskDel prio)) ⟨s.kernel.dropTask t, pc', s.log⟩

/-! ### Control blocks under the moves -/

section TaskOk

variable {k k' : Kernel} {w : Option (PendKind × EventId)} {c : OsTcb} {t : TcbId} {e : EventId}
  {n : List Note}

/-- A task depends on the other objects only by the kind of the event it waits on. -/
theorem TaskOk.of_type (hok : TaskOk k w c)
    (hty : ∀ e, c.WaitsOn e → (k'.event e).type = (k.event e).type) : TaskOk k' w c := by
  rcases w with _ | ⟨kind, e⟩
  · exact hok
  · obtain ⟨hptr, habort, htype, hdly, hto, hmsg⟩ := hok
    exact ⟨hptr, habort, fun hwt => (hty e hwt).trans (htype hwt), hdly, hto, hmsg⟩

/-- A task that gets its event. -/
theorem TaskOk.readied (hok : TaskOk k w c) (hwt : c.WaitsOn e) {msg : ℕ}
    (hmsg : (k.event e).type = .sem → msg = 0) : TaskOk k' w (c.readied msg) := by
  rcases w with _ | ⟨kind, e'⟩
  · exact absurd hwt (OsTcb.not_waitsOn_of_none (FreeOk.eventPtr hok) e)
  · obtain rfl := Option.some.inj (hwt.1.symm.trans (PendOk.eventPtr hok))
    exact {
      eventPtr := hwt.1
      noAbort := PendStat.noConfusion
      type := fun hnot => absurd hnot (OsTcb.not_waitsOn_of_ok rfl rfl e)
      dly := fun _ => rfl
      timeout := fun _ => rfl
      msg := fun hkind _ => hmsg ((PendOk.type hok hwt).trans (by rw [hkind]; rfl)) }

/-- A task at the tick. -/
theorem TaskOk.ticked (hok : TaskOk k w (k.tcb t)) (h : k.Wf) (ht : t ∈ k.tcbList) :
    TaskOk k w (k.tcb t).ticked := by
  by_cases hdly : (k.tcb t).dly = 0
  · have hsame : (k.tcb t).ticked = k.tcb t := if_neg (not_not.mpr hdly)
    rwa [hsame]
  · have hc : (k.tcb t).ticked = Kernel.tickTcb (k.tcb t) := if_pos hdly
    obtain ⟨-, hptr, hwaits, hstat, hkeep⟩ := h.tickTcb_spec ht hdly
    have hmsg : (Kernel.tickTcb (k.tcb t)).msg = (k.tcb t).msg := by
      unfold Kernel.tickTcb
      repeat' split
      all_goals rfl
    rw [hc]
    rcases w with _ | ⟨kind, e⟩
    · obtain ⟨hnone, h0, hok⟩ := hok
      have hany : osStatRdy &&& osStatPendAny = osStatRdy := rfl
      refine ⟨hptr.trans hnone, ?_, ?_⟩
      · by_cases hzero : (Kernel.tickTcb (k.tcb t)).dly = 0
        · exact hstat hzero
        · exact (hkeep hzero).trans h0
      · unfold Kernel.tickTcb
        rw [h0, hany]
        split
        · rfl
        · exact hok
    · obtain ⟨hptr', habort, htype, hdly', hto, hmsg'⟩ := hok
      have hne : (k.tcb t).stat ≠ osStatRdy := fun h0 => hdly (hdly' h0)
      refine ⟨hptr.trans hptr', ?_, fun hwt => htype ((hwaits e).mp hwt), ?_, ?_, ?_⟩
      · unfold Kernel.tickTcb
        split
        · split
          · exact PendStat.noConfusion
          · exact PendStat.noConfusion
        · exact habort
      · intro h0
        by_contra hd
        exact hne ((hkeep hd).symm.trans h0)
      · intro hpend
        by_cases hd : (Kernel.tickTcb (k.tcb t)).dly = 0
        · exact hstat hd
        · exfalso
          have hpend' : (k.tcb t).statPend = .timeout := by
            unfold Kernel.tickTcb at hpend hd
            split at hpend
            · rename_i h1
              rw [if_pos h1] at hd
              split at hd
              · exact absurd rfl hd
              · exact absurd rfl hd
            · exact hpend
          exact hne (hto hpend')
      · intro hkind hnot
        rw [hmsg]
        exact hmsg' hkind fun hwt => hnot ((hwaits e).mpr hwt)

/-- The moves keep the list of the tasks, and the variables of the scheduler. -/
structure Kernel.SameTasks (k k' : Kernel) : Prop where
  tcbList : k'.tcbList = k.tcbList
  tcbFreeList : k'.tcbFreeList = k.tcbFreeList
  prioTbl : k'.prioTbl = k.prioTbl
  running : k'.running = k.running
  intNesting : k'.intNesting = k.intNesting
  lockNesting : k'.lockNesting = k.lockNesting
  prioCur : k'.prioCur = k.prioCur
  tcbCur : k'.tcbCur = k.tcbCur

/-- No task comes or goes in two moves either. -/
theorem Kernel.SameTasks.trans {k'' : Kernel} (h : k.SameTasks k') (h' : k'.SameTasks k'') :
    k.SameTasks k'' where
  tcbList := h'.tcbList.trans h.tcbList
  tcbFreeList := h'.tcbFreeList.trans h.tcbFreeList
  prioTbl := h'.prioTbl.trans h.prioTbl
  running := h'.running.trans h.running
  intNesting := h'.intNesting.trans h.intNesting
  lockNesting := h'.lockNesting.trans h.lockNesting
  prioCur := h'.prioCur.trans h.prioCur
  tcbCur := h'.tcbCur.trans h.tcbCur

namespace Kernel

/-- In a move no task comes or goes. -/
theorem Move.sameTasks (hm : k.Move k' n) : k.SameTasks k' := by
  cases hm with
  | hand | release | give | take | put | get | flush | semNew | qNew | semFree | qFree =>
    exact ⟨rfl, rfl, rfl, rfl, rfl, rfl, rfl, rfl⟩

/-- What a move does to a task: nothing, or it gets the event that it waits for. -/
theorem Move.task_cases (hm : k.Move k' n) (h : k.Wf) (t : TcbId) :
    k'.tcb t = k.tcb t ∨
      ∃ e msg, (k.tcb t).WaitsOn e ∧ k'.tcb t = (k.tcb t).readied msg ∧
        ((k.event e).type = .sem → msg = 0) := by
  have hfirst : ∀ e msg, (k.event e).tbl.grp ≠ 0 → ((k.event e).type = .sem → msg = 0) →
      (k.readyFirst e msg).tcb t = k.tcb t ∨
        ∃ e' msg', (k.tcb t).WaitsOn e' ∧ (k.readyFirst e msg).tcb t = (k.tcb t).readied msg' ∧
          ((k.event e').type = .sem → msg' = 0) := by
    intro e msg hne hmsg
    by_cases heq : t = k.firstWaiter e
    · obtain ⟨-, -, hwt, -⟩ := h.firstWaiter_spec hne
      refine .inr ⟨e, msg, heq ▸ hwt, ?_, hmsg⟩
      rw [heq, readyFirst]
      exact Function.update_self _ _ _
    · exact .inl (Function.update_of_ne heq _ _)
  cases hm with
  | give | take | put | get | flush | semNew | qNew | semFree | qFree => exact .inl rfl
  | hand e msg _ hne hty =>
    refine hfirst e msg hne fun hsem => ?_
    rcases hty with hq | ⟨-, h0⟩
    · rw [hsem] at hq
      cases hq
    · exact h0
  | release e hne => exact hfirst e 0 hne fun _ => rfl

/-- The type of an event changes only if no task waits for it. -/
theorem Move.type_eq (hm : k.Move k' n) (h : k.Wf) (ht : t ∈ k.tcbList)
    (hwt : (k.tcb t).WaitsOn e) : (k'.event e).type = (k.event e).type := by
  have hset : ∀ e' (ev : OsEvent), ((k.event e').tbl.grp = 0 ∨ ev.type = (k.event e').type) →
      (Function.update k.event e' ev e).type = (k.event e).type := by
    intro e' ev hev
    by_cases heq : e = e'
    · rw [heq, Function.update_self]
      rcases hev with hgrp | hty
      · exact absurd (heq ▸ hwt) (h.grp_eq_zero_iff.mp hgrp t ht)
      · exact hty
    · rw [Function.update_of_ne heq]
  have hnew : ∀ e', e' ∈ k.eventFreeList → (k.event e').tbl.grp = 0 := by
    intro e' he'
    exact h.grp_eq_zero_iff.mpr (h.noWait e' (.inl (h.eventFree e' he')))
  cases hm with
  | put | get | flush => rfl
  | hand e' | release e' => exact readyFirst_type k e' _ e
  | give e' | take e' => exact hset e' _ (.inr rfl)
  | semNew e' cnt free hfree => exact hset e' _ (.inl (hnew e' (hfree ▸ List.mem_cons_self)))
  | qNew e' i start size free qfree hfree hqfree hmem =>
    exact hset e' _ (.inl (hnew e' (hfree ▸ List.mem_cons_self)))
  | semFree e' hty hgrp => exact hset e' _ (.inl hgrp)
  | qFree e' hty hgrp => exact hset e' _ (.inl hgrp)

/-- A move leaves every task in order, also the one that it wakes. -/
theorem Move.taskOk (hm : k.Move k' n) (h : k.Wf) (ht : t ∈ k.tcbList)
    (hok : TaskOk k w (k.tcb t)) : TaskOk k' w (k'.tcb t) := by
  rcases hm.task_cases h t with hsame | ⟨e, msg, hwt, htcb, hmsg⟩
  · rw [hsame]
    exact hok.of_type fun e hwt => hm.type_eq h ht hwt
  · rw [htcb]
    exact hok.readied hwt hmsg

/-- A task that can run still can after a move. -/
theorem Move.ready (hm : k.Move k' n) (h : k.Wf) (hready : (k.tcb t).Ready) :
    (k'.tcb t).Ready := by
  rcases hm.task_cases h t with hsame | ⟨e, msg, -, htcb, -⟩
  · rw [hsame]
    exact hready
  · rw [htcb]
    exact OsTcb.readied_ready _ _

/-- A move changes no priority. -/
theorem Move.prio (hm : k.Move k' n) (h : k.Wf) (t : TcbId) :
    (k'.tcb t).prio = (k.tcb t).prio := by
  rcases hm.task_cases h t with hsame | ⟨e, msg, -, htcb, -⟩
  · rw [hsame]
  · rw [htcb]
    rfl

/-- In a service call no task comes or goes. -/
theorem Moves.sameTasks (hm : Moves k k' n) : k.SameTasks k' := by
  induction hm with
  | nil => exact ⟨rfl, rfl, rfl, rfl, rfl, rfl, rfl, rfl⟩
  | cons hmove _ ih => exact hmove.sameTasks.trans ih

/-- A service call leaves every task in order. -/
theorem Moves.taskOk (hm : Moves k k' n) (h : k.Wf) (ht : t ∈ k.tcbList)
    (hok : TaskOk k w (k.tcb t)) : TaskOk k' w (k'.tcb t) := by
  induction hm with
  | nil => exact hok
  | cons hmove _ ih =>
    apply ih (hmove.wf h) _ (hmove.taskOk h ht hok)
    rw [hmove.sameTasks.tcbList]
    exact ht

/-- A service call takes no task from the ready list. -/
theorem Moves.ready (hm : Moves k k' n) (h : k.Wf) (hready : (k.tcb t).Ready) :
    (k'.tcb t).Ready := by
  induction hm with
  | nil => exact hready
  | cons hmove _ ih => exact ih (hmove.wf h) (hmove.ready h hready)

/-- A service call changes no priority. -/
theorem Moves.prio (hm : Moves k k' n) (h : k.Wf) (t : TcbId) :
    (k'.tcb t).prio = (k.tcb t).prio := by
  induction hm with
  | nil => rfl
  | cons hmove _ ih => exact (ih (hmove.wf h)).trans (hmove.prio h t)

/-- The loop of the tick keeps the list of the tasks and the events. -/
theorem Wf.tick_frame (h : k.Wf) :
    k.SameTasks (Kernel.tickLoop k k.tcbList) ∧
      (Kernel.tickLoop k k.tcbList).event = k.event := by
  obtain ⟨-, tcb, rdy, heq⟩ := h.tickLoop k.tcbList fun _ => id
  rw [heq]
  exact ⟨⟨rfl, rfl, rfl, rfl, rfl, rfl, rfl, rfl⟩, rfl⟩

end Kernel

end TaskOk

/-! ### Transitions keep the tables -/

/-- The part of the invariant that is about the tables and the control blocks. -/
structure TablesOk (s : OsSystem) : Prop where
  wf : s.kernel.Wf
  idleLast : s.kernel.IdleLast
  task : ∀ t ∈ s.kernel.tcbList, TaskOk s.kernel (s.pc t).waits (s.kernel.tcb t)

section Tables

variable {s s' : OsSystem}

/-- A store to a wait table leaves the kinds of the events alone. -/
theorem Kernel.event_setTbl_type (k : Kernel) (e e' : EventId) (tbl : PrioTable) :
    (Function.update k.event e { k.event e with tbl } e').type = (k.event e').type := by
  by_cases he : e' = e
  · rw [he, Function.update_self]
  · rw [Function.update_of_ne he]

/-- A task that starts to wait leaves the tables in order. -/
theorem TablesOk.wait (h : TablesOk s) {kind : PendKind} {e : EventId} {b : BitVec 8}
    (timeout : ℕ) (hcur : s.kernel.CurFree) (hmay : s.kernel.MayWait kind e)
    (hb : kind.type.stat = some b) :
    TablesOk ⟨s.kernel.waitCur e b timeout,
      Function.update s.pc s.kernel.tcbCur (.schedPend kind e), s.log⟩ where
  wf := h.wf.waitCur hcur timeout (hmay.type ▸ hb) (PendKind.not_noWait hmay.type hmay.noUnits)
  idleLast := h.idleLast.waitCur hcur b timeout
  task t ht := by
    have hty : ∀ e', ((s.kernel.waitCur e b timeout).event e').type = (s.kernel.event e').type :=
      fun e' => s.kernel.event_setTbl_type e e' _
    dsimp only
    by_cases heq : t = s.kernel.tcbCur
    · have htcb : (s.kernel.waitCur e b timeout).tcb t = s.kernel.cur.waiting e b timeout := by
        rw [heq]
        exact Function.update_self _ _ _
      have hb0 := (EventType.stat_bits hb).1
      rw [htcb, heq, Function.update_self]
      exact {
        eventPtr := rfl
        noAbort := PendStat.noConfusion
        type := fun _ => (hty e).trans hmay.type
        dly := fun h0 => absurd h0 hb0
        timeout := PendStat.noConfusion
        msg := fun _ hnot => absurd ⟨rfl, .inl hb0⟩ hnot }
    · have htcb : (s.kernel.waitCur e b timeout).tcb t = s.kernel.tcb t :=
        Function.update_of_ne heq _ _
      rw [htcb, Function.update_of_ne heq]
      exact (h.task t ht).of_type fun e' _ => hty e'

/-- A task that returns from its pend leaves the tables in order. -/
theorem TablesOk.resume (h : TablesOk s) {kind : PendKind} {e : EventId} (msg : ℕ)
    (hmem : s.kernel.tcbCur ∈ s.kernel.tcbList) (hready : s.kernel.cur.Ready)
    (hpc : s.curPc = .pend kind e) (log : List Note) :
    TablesOk ⟨s.kernel.resumeCur e msg, Function.update s.pc s.kernel.tcbCur .user, log⟩ := by
  have hok := h.task _ hmem
  rw [show s.pc s.kernel.tcbCur = .pend kind e from hpc] at hok
  refine ⟨h.wf.resumeCur hmem hready hok.eventPtr msg, h.idleLast.resumeCur hok.eventPtr msg, ?_⟩
  intro t ht
  dsimp only
  by_cases heq : t = s.kernel.tcbCur
  · have htcb : (s.kernel.resumeCur e msg).tcb t = s.kernel.cur.resumed msg := by
      rw [heq]
      exact Function.update_self _ _ _
    rw [htcb, heq, Function.update_self]
    exact ⟨rfl, rfl, rfl⟩
  · have htcb : (s.kernel.resumeCur e msg).tcb t = s.kernel.tcb t := Function.update_of_ne heq _ _
    rw [htcb, Function.update_of_ne heq]
    apply (h.task t ht).of_type
    intro e' _
    rw [Kernel.resumeCur]
    dsimp only
    split
    · exact s.kernel.event_setTbl_type e e' _
    · rfl

/-- **Every transition keeps the tables and the control blocks right.** -/
theorem OsTransition.tablesOk {l : OsLabel} (ht : OsTransition s l s') (h : TablesOk s) : TablesOk s' := by
  cases ht with
  | moves _ _ k' pc' n hm hpc =>
    refine ⟨hm.wf h.wf, hm.idleLast h.wf h.idleLast, ?_⟩
    intro t ht
    rw [hm.sameTasks.tcbList] at ht
    rw [hpc]
    exact hm.taskOk h.wf ht (h.task t ht)
  | tick k' n hm time =>
    have hwf : { k' with time : Kernel }.Wf :=
      (hm.wf h.wf).of_rest _ rfl rfl rfl rfl rfl rfl rfl
    have hidle : { k' with time : Kernel }.IdleLast := hm.idleLast h.wf h.idleLast
    obtain ⟨hsame, hevent⟩ := hwf.tick_frame
    refine ⟨(hwf.tickLoop _ fun _ => id).1, hidle.tickLoop hwf, ?_⟩
    intro t ht
    have hmem : t ∈ k'.tcbList := hsame.tcbList ▸ ht
    have hold : t ∈ s.kernel.tcbList := hm.sameTasks.tcbList ▸ hmem
    have hok : TaskOk { k' with time : Kernel } (s.pc t).waits (k'.tcb t) :=
      (hm.taskOk h.wf hold (h.task t hold)).of_type fun _ _ => rfl
    dsimp only
    rw [hwf.tick_tcb hidle hmem]
    exact (hok.ticked hwf hmem).of_type fun e _ => by rw [hevent]
  | sched _ _ running intNesting lockNesting prioCur prioHighRdy tcbCur pc' hpc =>
    refine ⟨h.wf.setSched _ _ _ _ _ _, h.idleLast, ?_⟩
    intro t ht
    rw [hpc]
    exact (h.task t ht).of_type fun _ _ => rfl
  | wait _ kind e b timeout hcur hpc hmay hb => exact h.wait timeout hcur hmay hb
  | resume kind e msg hmem hready hpc => exact h.resume msg hmem hready hpc _
  | delay ticks hcur hpos pc' hpc =>
    refine ⟨h.wf.delayCur hcur hpos, h.idleLast.delayCur hcur ticks, ?_⟩
    intro t ht
    have hok := h.task t ht
    rw [hpc]
    by_cases heq : t = s.kernel.tcbCur
    · have htcb : (s.kernel.delayCur ticks).tcb t = { s.kernel.cur with dly := ticks } := by
        rw [heq]
        exact Function.update_self _ _ _
      rw [htcb]
      rw [heq] at hok ⊢
      rcases hw : (s.pc s.kernel.tcbCur).waits with _ | ⟨kind, e⟩
      · exact ⟨hcur.eventPtr, hcur.ready.1, hcur.statPend⟩
      · rw [hw] at hok
        have hptr := hcur.eventPtr.symm.trans (PendOk.eventPtr hok)
        cases hptr
    · have htcb : (s.kernel.delayCur ticks).tcb t = s.kernel.tcb t := Function.update_of_ne heq _ _
      rw [htcb]
      exact hok.of_type fun _ _ => rfl
  | addTask _ prio t free hfree hslot pc' hnew hpc =>
    refine ⟨h.wf.addTask hfree hslot, h.idleLast.addTask h.wf hfree, ?_⟩
    intro t' ht'
    by_cases heq : t' = t
    · have htcb : (s.kernel.addTask prio t free).tcb t' = ⟨prio, osStatRdy, .ok, 0, none, 0⟩ := by
        rw [heq]
        exact Function.update_self _ _ _
      dsimp only
      rw [htcb, heq, hnew]
      exact ⟨rfl, rfl, rfl⟩
    · have htcb : (s.kernel.addTask prio t free).tcb t' = s.kernel.tcb t' :=
        Function.update_of_ne heq _ _
      dsimp only
      rw [htcb, hpc t' heq]
      have hmem : t' ∈ s.kernel.tcbList := (List.mem_cons.mp ht').resolve_left heq
      exact (h.task t' hmem).of_type fun _ _ => rfl
  | dropTask _ t hmem _ _ hidle pc' hpc =>
    refine ⟨h.wf.dropTask hmem, h.idleLast.dropTask hmem hidle, ?_⟩
    intro t' ht'
    have hnodup := (List.nodup_append'.mp h.wf.nodup).1
    obtain ⟨hne, hin⟩ := hnodup.mem_erase_iff.mp ht'
    have htcb : (s.kernel.dropTask t).tcb t' = s.kernel.tcb t' := Function.update_of_ne hne _ _
    dsimp only
    rw [htcb, hpc]
    apply (h.task t' hin).of_type
    intro e _
    rw [Kernel.dropTask_event]
    split
    · rfl
    · rfl

end Tables

/-! ### Steps are transitions -/

/-- Only the variables of the scheduler differ. -/
def Kernel.SchedOnly (k k' : Kernel) : Prop :=
  ∃ running intNesting lockNesting prioCur prioHighRdy tcbCur,
    k' = { k with running, intNesting, lockNesting, prioCur, prioHighRdy, tcbCur }

section Steps

variable {s s' : OsSystem} {k : Kernel}

/-- A switch changes only who runs. -/
theorem Kernel.osSwitch_schedOnly (k : Kernel) : k.SchedOnly k.osSwitch := by
  unfold osSwitch
  dsimp only
  split
  · exact ⟨_, _, _, _, _, _, rfl⟩
  · exact ⟨_, _, _, _, _, _, rfl⟩

/-- `OS_Sched` changes only who runs. -/
theorem Kernel.osSched_schedOnly (k : Kernel) : k.SchedOnly k.osSched := by
  unfold osSched
  repeat' split
  · exact osSwitch_schedOnly k
  · exact ⟨_, _, _, _, _, _, rfl⟩
  · exact ⟨_, _, _, _, _, _, rfl⟩

/-- `OSIntEnter` changes only the nesting. -/
theorem Kernel.osIntEnter_schedOnly (k : Kernel) : k.SchedOnly k.osIntEnter := by
  unfold osIntEnter
  split
  · exact ⟨_, _, _, _, _, _, rfl⟩
  · exact ⟨_, _, _, _, _, _, rfl⟩

/-- `OSIntExit` changes only the nesting and who runs. -/
theorem Kernel.osIntExit_schedOnly (k : Kernel) : k.SchedOnly k.osIntExit := by
  unfold osIntExit
  dsimp only
  repeat' split
  · obtain ⟨running, int, lock, prioCur, prioHigh, tcbCur, heq⟩ :=
      osSwitch_schedOnly { k with intNesting := k.intNesting - 1 }
    exact ⟨running, int, lock, prioCur, prioHigh, tcbCur, heq⟩
  · exact ⟨_, _, _, _, _, _, rfl⟩
  · exact ⟨_, _, _, _, _, _, rfl⟩
  · exact ⟨_, _, _, _, _, _, rfl⟩

/-- `OSStart` changes only who runs, and that somebody does. -/
theorem Kernel.osStart_schedOnly (k : Kernel) : k.SchedOnly k.osStart := by
  unfold osStart
  split
  · exact ⟨_, _, _, _, _, _, rfl⟩
  · exact ⟨_, _, _, _, _, _, rfl⟩

/-- `OSSchedLock` changes only the nesting. -/
theorem Kernel.osSchedLock_schedOnly (k : Kernel) : k.SchedOnly k.osSchedLock := by
  unfold osSchedLock
  split
  · exact ⟨_, _, _, _, _, _, rfl⟩
  · exact ⟨_, _, _, _, _, _, rfl⟩

/-- `OSSchedUnlock` changes only the nesting. -/
theorem Kernel.osSchedUnlock_schedOnly (k : Kernel) : k.SchedOnly k.osSchedUnlock.1 := by
  unfold osSchedUnlock
  split
  · exact ⟨_, _, _, _, _, _, rfl⟩
  · exact ⟨_, _, _, _, _, _, rfl⟩

/-- A step of the scheduler alone. -/
theorem OsTransition.of_schedOnly {l : OsLabel} (hl : l ≠ .isr .timeTick) {k' : Kernel}
    (hk : s.kernel.SchedOnly k') {pc' : TcbId → TaskPc}
    (hpc : ∀ t, (pc' t).waits = (s.pc t).waits) : OsTransition s l ⟨k', pc', s.log⟩ := by
  obtain ⟨running, int, lock, prioCur, prioHigh, tcbCur, rfl⟩ := hk
  exact .sched l hl running int lock prioCur prioHigh tcbCur pc' hpc

/-- A new place of the current task that is in no pend. -/
theorem waits_update {pc : TcbId → TaskPc} {t : TcbId} {p : TaskPc}
    (hw : p.waits = (pc t).waits) (t' : TcbId) :
    (Function.update pc t p t').waits = (pc t').waits := by
  by_cases heq : t' = t
  · rw [heq, Function.update_self, hw]
  · rw [Function.update_of_ne heq]

/-- Behind a call that does not pend the task waits for nothing. -/
@[simp] theorem waits_pcOf (b : Bool) : (pcOf b).waits = none := by
  cases b
  · rfl
  · rfl

/-- In a task, which is in its own code, the control block is free. -/
theorem OsSystem.Inv.curFree (h : s.Inv) (hin : s.kernel.InTask) (hpc : s.curPc = .user) :
    s.kernel.CurFree := by
  rcases h.cur hin.1 with ⟨hmem, -, hready⟩ | ⟨-, hdel, -⟩
  · have hok := h.task _ hmem
    rw [show s.pc s.kernel.tcbCur = .user from hpc] at hok
    refine ⟨hmem, hin.2.2, hready.resolve_right ?_, hok.eventPtr, hok.statPend⟩
    rintro ⟨-, hbefore⟩
    rw [hpc] at hbefore
    exact hbefore
  · rw [hpc] at hdel
    cases hdel

/-- The tables are in order in every state of a run. -/
theorem OsSystem.Inv.tablesOk (h : s.Inv) : TablesOk s := ⟨h.wf, h.idleLast, h.task⟩

/-- The calls that a task makes, or `main` before the start. -/
def CallHere (s : OsSystem) (c : OsCall) : Prop :=
  (s.kernel.InTask ∧ s.curPc = .user) ∨ (¬ s.kernel.running ∧ c.atBoot)

/-- A task that calls is not inside another call. -/
theorem OsSystem.Inv.curPc_user (h : s.Inv) {c : OsCall} (hc : CallHere s c) : s.curPc = .user := by
  rcases hc with ⟨-, hpc⟩ | ⟨hrun, -⟩
  · exact hpc
  · exact (h.boot hrun).2 _

/-- The state after a call. -/
def OsSystem.called (s : OsSystem) (c : OsCall) : OsSystem where
  kernel := (c.perform s.kernel).kernel
  pc := c.newPc s.kernel (Function.update s.pc s.kernel.tcbCur (c.perform s.kernel).pc)
  log := s.log ++ (c.perform s.kernel).notes

/-- The step of a pend, in each of the ways it can go. -/
theorem OsTransition.of_pend (h : s.Inv) {c : OsCall} (hc : CallHere s c) (hfree : s.kernel.CurFree)
    {kind : PendKind} {e : EventId} {timeout : ℕ} {r : Kernel × PendResult}
    (hcases : s.kernel.PendCases kind e timeout r)
    (hr : c.perform s.kernel = match r.2 with
      | .returns err msg => ⟨r.1, .user, if err = .none then s.kernel.takeNotes e msg else []⟩
      | .waits => ⟨r.1, .schedPend kind e, []⟩)
    (hnew : ∀ pc, c.newPc s.kernel pc = pc) : OsTransition s (.call c) (s.called c) := by
  have hpc := h.curPc_user hc
  rw [OsSystem.called, hnew, hr]
  obtain ⟨k', res⟩ := r
  rcases hcases with ⟨hne, -, hm⟩ | ⟨hwaits, hmay, b, hb, heq⟩
  · cases res with
    | waits => exact absurd rfl hne
    | returns err msg =>
      refine .moves _ OsLabel.noConfusion _ _ _ hm (waits_update ?_)
      rw [show s.pc s.kernel.tcbCur = .user from hpc]
  · dsimp only at hwaits heq
    rw [hwaits, heq]
    dsimp only
    rw [List.append_nil]
    exact .wait c kind e b timeout hfree hpc hmay hb

/-- The step of any call, by the moves it makes. -/
theorem OsTransition.of_call (h : s.Inv) {c : OsCall} (hc : CallHere s c)
    (hok : CallOk s (.call c)) : OsTransition s (.call c) (s.called c) := by
  have hpc : s.pc s.kernel.tcbCur = .user := h.curPc_user hc
  have hfree : c.atBoot = false → s.kernel.CurFree := by
    intro hboot
    rcases hc with ⟨hin, huser⟩ | ⟨-, hat⟩
    · exact h.curFree hin huser
    · rw [hboot] at hat
      cases hat
  have hmoves : ∀ {k' : Kernel} {p : TaskPc} {n : List Note}, Kernel.Moves s.kernel k' n →
      p.waits = none →
      OsTransition s (.call c) ⟨k', Function.update s.pc s.kernel.tcbCur p, s.log ++ n⟩ := by
    intro k' p n hm hp
    refine .moves _ OsLabel.noConfusion k' _ n hm (waits_update ?_)
    rw [hp, hpc]
    rfl
  have hsched : ∀ {k' : Kernel} {p : TaskPc}, s.kernel.SchedOnly k' → p.waits = none →
      OsTransition s (.call c) ⟨k', Function.update s.pc s.kernel.tcbCur p, s.log ++ []⟩ := by
    intro k' p hk hp
    rw [List.append_nil]
    refine .of_schedOnly OsLabel.noConfusion hk (waits_update ?_)
    rw [hp, hpc]
    rfl
  cases c with
  | timeDly ticks =>
    rw [OsSystem.called, OsCall.perform]
    rcases s.kernel.osTimeDly_cases ticks with heq | ⟨hpos, -, heq⟩
    · rw [heq]
      exact hmoves (.nil _) rfl
    · rw [heq]
      dsimp only
      rw [List.append_nil]
      refine .delay ticks (hfree rfl) hpos _ (waits_update ?_)
      rw [hpc]
      rfl
  | semCreate cnt => exact hmoves (s.kernel.osSemCreate_moves cnt) rfl
  | semDel e opt => exact hmoves (h.wf.osSemDel_moves e opt) (waits_pcOf _)
  | semPend e timeout =>
    exact .of_pend h hc (hfree rfl) (Kernel.osSemPend_cases (hfree rfl) e timeout) rfl fun _ => rfl
  | semPost e => exact hmoves (h.wf.osSemPost_moves e) (waits_pcOf _)
  | semAccept e => exact hmoves (Kernel.osSemAccept_moves (hfree rfl) e) rfl
  | qCreate start size => exact hmoves (Kernel.osQCreate_moves hok) rfl
  | qDel e opt => exact hmoves (h.wf.osQDel_moves e opt) (waits_pcOf _)
  | qPend e timeout =>
    exact .of_pend h hc (hfree rfl) (Kernel.osQPend_cases (hfree rfl) e timeout) rfl fun _ => rfl
  | qPost e msg => exact hmoves (h.wf.osQPost_moves e msg) (waits_pcOf _)
  | qAccept e => exact hmoves (Kernel.osQAccept_moves (hfree rfl) e) rfl
  | qFlush e => exact hmoves (Kernel.Move.flush e hok).single rfl
  | taskCreate prio =>
    rw [OsSystem.called, OsCall.perform]
    rcases s.kernel.osTaskCreate_cases prio with ⟨hk, herr, hno⟩ | ⟨t, free, hfree, hslot, heq⟩
    · have hnew : ∀ pc, (OsCall.taskCreate prio).newPc s.kernel pc = pc := by
        intro pc
        rw [OsCall.newPc]
        split
        · exact if_neg herr
        · rfl
      rw [hnew, hk]
      exact hmoves (.nil _) (waits_pcOf _)
    · rw [heq, OsCall.newPc, hfree]
      dsimp only
      rw [heq, if_pos rfl, List.append_nil]
      refine .addTask _ prio t free hfree hslot _ (Function.update_self _ _ _) ?_
      intro t' hne
      rw [Function.update_of_ne hne]
      apply waits_update
      rw [hpc, waits_pcOf]
      rfl
  | taskDel prio =>
    rw [OsSystem.called, OsCall.perform]
    rcases h.wf.osTaskDel_cases (hfree rfl).notIdle prio with ⟨hk, -⟩ | ⟨t, hmem, hprio, hidle, heq⟩
    · rw [hk]
      exact hmoves (.nil _) (waits_pcOf _)
    · rw [heq]
      dsimp only
      rw [List.append_nil]
      refine .dropTask prio t hmem (hfree rfl) hprio hidle _ (waits_update ?_)
      rw [hpc, waits_pcOf]
      rfl
  | schedLock => exact hsched s.kernel.osSchedLock_schedOnly rfl
  | schedUnlock => exact hsched s.kernel.osSchedUnlock_schedOnly (waits_pcOf _)
  | nstAllocLock =>
    rw [OsSystem.called, OsCall.perform, h.wf.nstAllocLock_eq h.idleLast]
    exact hmoves (.nil _) rfl

/-- **The inversion of a step.** -/
theorem osStep_transition (h : s.Inv) {l : OsLabel} (hok : CallOk s l)
    (hs : osStep s l = some s') : OsTransition s l s' := by
  cases l with
  | start =>
    rw [osStep] at hs
    split at hs
    · cases hs
    · obtain rfl := Option.some.inj hs
      exact .of_schedOnly OsLabel.noConfusion s.kernel.osStart_schedOnly fun _ => rfl
  | call c =>
    rw [osStep] at hs
    split at hs
    · rename_i hc
      obtain rfl := Option.some.inj hs
      exact .of_call h hc hok
    · cases hs
  | sched =>
    rw [osStep] at hs
    split at hs
    · split at hs
      · rename_i hpc
        obtain rfl := Option.some.inj hs
        exact .of_schedOnly OsLabel.noConfusion s.kernel.osSched_schedOnly (waits_update (by rw [hpc]; rfl))
      · rename_i hpc
        obtain rfl := Option.some.inj hs
        exact .of_schedOnly OsLabel.noConfusion s.kernel.osSched_schedOnly (waits_update (by rw [hpc]; rfl))
      · cases hs
    · cases hs
  | resume =>
    rw [osStep] at hs
    split at hs
    · rename_i hin
      split at hs
      · rename_i kind e hpc
        obtain rfl := Option.some.inj hs
        obtain ⟨hmem, hready⟩ : s.kernel.tcbCur ∈ s.kernel.tcbList ∧ s.kernel.cur.Ready := by
          rcases h.cur hin.1 with ⟨hmem, -, hready⟩ | ⟨-, hdel, -⟩
          · refine ⟨hmem, hready.resolve_right ?_⟩
            rintro ⟨-, hbefore⟩
            rw [OsSystem.curPc, hpc] at hbefore
            exact hbefore
          · rw [OsSystem.curPc, hpc] at hdel
            cases hdel
        have hpend := h.task _ hmem
        rw [hpc] at hpend
        obtain ⟨hk, herr, hmsg⟩ := s.kernel.pendEnd_eq kind e
        have hstep := OsTransition.resume kind e
          (if kind = .sem then s.kernel.cur.msg else 0) hmem hready hpc
        rw [← hk] at hstep
        convert hstep using 2
        by_cases hpend0 : s.kernel.cur.statPend = .ok
        · rw [if_pos (herr.mpr hpend0), if_pos hpend0, hmsg hpend0]
          split
          · rename_i hkind
            have hzero : s.kernel.cur.msg = 0 :=
              hpend.msg hkind (OsTcb.not_waitsOn_of_ok hready.1 hpend0 e)
            rw [hzero]
          · rfl
        · rw [if_neg (mt herr.mp hpend0), if_neg hpend0]
      · cases hs
    · cases hs
  | intEnter =>
    rw [osStep] at hs
    split at hs
    · obtain rfl := Option.some.inj hs
      exact .of_schedOnly OsLabel.noConfusion s.kernel.osIntEnter_schedOnly fun _ => rfl
    · cases hs
  | isr c =>
    rw [osStep] at hs
    split at hs
    · rename_i hint
      obtain rfl := Option.some.inj hs
      cases c with
      | semPost e =>
        exact .moves _ (by simp) _ _ _ (h.wf.osSemPost_moves e) fun _ => rfl
      | qPost e msg =>
        exact .moves _ (by simp) _ _ _ (h.wf.osQPost_moves e msg) fun _ => rfl
      | timeTick =>
        have hm := h.wf.osSemPost_moves s.kernel.tmrSemSignal
        have hrun : s.kernel.running = true := by
          by_contra hno
          exact Nat.pos_iff_ne_zero.mp hint (h.boot hno).1
        have hstep := OsTransition.tick _ _ hm
          (u32 ((s.kernel.osSemPost s.kernel.tmrSemSignal).1.time + 1))
        rw [IsrCall.perform]
        dsimp only
        rw [Kernel.osTimeTick_eq (hm.sameTasks.running.trans hrun)]
        exact hstep
    · cases hs
  | intExit =>
    rw [osStep] at hs
    split at hs
    · obtain rfl := Option.some.inj hs
      exact .of_schedOnly OsLabel.noConfusion s.kernel.osIntExit_schedOnly fun _ => rfl
    · cases hs

end Steps

end SerialNet
