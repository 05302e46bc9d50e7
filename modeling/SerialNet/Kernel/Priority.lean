import SerialNet.Kernel.Runs

namespace SerialNet

open PrioTable

attribute [local instance] neZero_prios neZero_tcbs neZero_events

/-!
# The task with the highest priority runs

`osSwitch_spec` is the argument for one search in the ready list; the rest says for every label
which task is current afterwards and that nobody became ready without an `OS_Sched` to follow.
`OsSystem.inv_run` is the invariant over whole runs.
-/

section Switch

variable {k : Kernel}

/-- The search in the ready list finds a task, and none before it can run. -/
theorem Kernel.Wf.osFirst_rdy (h : k.Wf) (hidle : k.IdleLast) :
    k.Holds OsTcb.Ready (Kernel.osFirst k.rdy) ∧
      ∀ p, k.Holds OsTcb.Ready p → Kernel.osFirst k.rdy ≤ p := by
  rw [osFirst_eq_first]
  apply h.rdy.first_spec
  intro hgrp
  obtain ⟨ts, i, hlist, -, hready, -⟩ := hidle
  have hmem : i ∈ k.tcbList := by simp [hlist]
  exact h.rdy.grp_eq_zero_iff.mp hgrp _ ((h.holds_prio hmem).mpr hready)

/-- The current task is the first one that can run. -/
structure Kernel.CurTop (k : Kernel) : Prop where
  mem : k.tcbCur ∈ k.tcbList
  prio : k.cur.prio = k.prioCur
  ready : k.cur.Ready
  le : ∀ p, k.Holds OsTcb.Ready p → k.prioCur ≤ p

/-- A switch goes to the highest task that can run. -/
theorem Kernel.Wf.osCtxSw_top (h : k.Wf) (hidle : k.IdleLast) : k.osSchedNew.osCtxSw.CurTop := by
  obtain ⟨hholds, hle⟩ := h.osFirst_rdy hidle
  obtain ⟨hmem, hprio, hready⟩ := h.of_holds hholds
  exact ⟨hmem, hprio, hready, hle⟩

/-- **The switch** makes the first task that can run the current one, if the current task has its
    priority or is deleted. -/
theorem Kernel.Wf.osSwitch_spec (h : k.Wf) (hidle : k.IdleLast)
    (hcur : (k.tcbCur ∈ k.tcbList ∧ k.cur.prio = k.prioCur) ∨ k.prioTbl k.prioCur = .null) :
    k.osSwitch.CurTop ∧ k.osSwitch.running = k.running ∧
      k.osSwitch.intNesting = k.intNesting ∧ k.osSwitch.lockNesting = k.lockNesting := by
  unfold Kernel.osSwitch
  dsimp only
  split
  · exact ⟨h.osCtxSw_top hidle, rfl, rfl, rfl⟩
  · rename_i hsame
    rw [not_not] at hsame
    have hsame : Kernel.osFirst k.rdy = k.prioCur := hsame
    obtain ⟨hholds, hle⟩ := h.osFirst_rdy hidle
    rw [hsame] at hholds hle
    refine ⟨?_, rfl, rfl, rfl⟩
    rcases hcur with ⟨hmem, hprio⟩ | hnull
    · obtain ⟨-, -, hready⟩ := h.of_holds hholds
      have hat : k.tcbAt k.prioCur = k.tcbCur := by
        rw [← hprio]
        exact h.tcbAt_prio hmem
      rw [hat] at hready
      exact ⟨hmem, hprio, hready, hle⟩
    · obtain ⟨t, ht, -⟩ := hholds
      rw [hnull] at ht
      cases ht

end Switch

namespace OsSystem

variable {s s' : OsSystem}

/-- The current task is in place, or deleted, also where nothing is said about who can run. -/
theorem Inv.curSlot (h : s.Inv) (hrun : s.kernel.running) :
    (s.kernel.tcbCur ∈ s.kernel.tcbList ∧ s.kernel.cur.prio = s.kernel.prioCur) ∨
      s.kernel.prioTbl s.kernel.prioCur = .null := by
  rcases h.cur hrun with halive | hdel
  · exact .inl ⟨halive.mem, halive.prio⟩
  · exact .inr hdel.slot

/-- The part of the invariant that is about the current task. -/
structure CurOk (s : OsSystem) : Prop where
  cur : s.CurAlive ∨ s.CurDeleted
  top : s.kernel.intNesting = 0 → s.kernel.lockNesting = 0 → ¬ s.curPc.BeforeSched →
    ∀ p, s.kernel.Holds OsTcb.Ready p → s.kernel.prioCur ≤ p

/-- A current task that no other task which can run is above is in order. -/
theorem CurOk.of_top (h : s.kernel.CurTop) : s.CurOk :=
  ⟨.inl ⟨h.mem, h.prio, .inl h.ready⟩, fun _ _ _ => h.le⟩

/-- The running task is in order in every state of a run. -/
theorem Inv.curOk (h : s.Inv) (hrun : s.kernel.running) : s.CurOk := ⟨h.cur hrun, h.top hrun⟩

/-! ### Calls -/

section Calls

variable {k' : Kernel} {p : TaskPc} {n : List Note} {log : List Note} (h : s.Inv)
  (hrun : s.kernel.running) (hint : s.kernel.intNesting = 0) (hpc : s.curPc = .user)
include h hrun hint hpc

/-- The current task is alive and can run; before a call there is more. -/
theorem Inv.call_cur : s.kernel.tcbCur ∈ s.kernel.tcbList ∧ s.kernel.cur.prio = s.kernel.prioCur ∧
    s.kernel.cur.Ready ∧ (s.kernel.lockNesting = 0 →
      ∀ q, s.kernel.Holds OsTcb.Ready q → s.kernel.prioCur ≤ q) := by
  have hbefore : ¬ s.curPc.BeforeSched := by
    rw [hpc]
    exact not_false
  rcases h.cur hrun with ⟨hmem, hprio, hready⟩ | ⟨-, hdel, -⟩
  · exact ⟨hmem, hprio, hready.resolve_right fun h0 => hbefore h0.2,
      fun hlock => h.top hrun hint hlock hbefore⟩
  · rw [hpc] at hdel
    cases hdel

/-- A call of moves: if it does not go on with `OS_Sched` it has changed no task. -/
theorem Inv.curOk_moves (hm : Kernel.Moves s.kernel k' n)
    (hquiet : p.BeforeSched ∨ k'.tcb = s.kernel.tcb) :
    CurOk ⟨k', Function.update s.pc s.kernel.tcbCur p, log⟩ ∧ k'.running = s.kernel.running := by
  obtain ⟨hmem, hprio, hready, hle⟩ := h.call_cur hrun hint hpc
  have hsame := hm.sameTasks
  have hready' := hm.ready h.wf hready
  have hprio' := hm.prio h.wf s.kernel.tcbCur
  refine ⟨⟨.inl ⟨?_, ?_, .inl ?_⟩, ?_⟩, hsame.running⟩
  · rw [hsame.tcbCur, hsame.tcbList]
    exact hmem
  · rw [Kernel.cur, hsame.tcbCur, hsame.prioCur, hprio']
    exact hprio
  · rw [Kernel.cur, hsame.tcbCur]
    exact hready'
  · intro _ hlock hbefore q hq
    rw [curPc, hsame.tcbCur] at hbefore
    dsimp only at hbefore
    rw [Function.update_self] at hbefore
    rw [hsame.lockNesting] at hlock
    rw [hsame.prioCur]
    apply hle hlock
    rw [Kernel.Holds, hsame.prioTbl, hquiet.resolve_left hbefore] at hq
    exact hq

/-- A call after which the current task cannot run. -/
theorem Inv.curOk_blocked (hlist : k'.tcbList = s.kernel.tcbList)
    (hcur : k'.tcbCur = s.kernel.tcbCur) (hprioCur : k'.prioCur = s.kernel.prioCur)
    (hprio : (k'.tcb s.kernel.tcbCur).prio = s.kernel.cur.prio)
    (hlock : k'.lockNesting = 0) (hp : p.BeforeSched) :
    CurOk ⟨k', Function.update s.pc s.kernel.tcbCur p, log⟩ := by
  obtain ⟨hmem, hprio', -, -⟩ := h.call_cur hrun hint hpc
  have hbefore : (Function.update s.pc s.kernel.tcbCur p k'.tcbCur).BeforeSched := by
    rw [hcur, Function.update_self]
    exact hp
  refine ⟨.inl ⟨?_, ?_, .inr ⟨hlock, hbefore⟩⟩, fun _ _ hnot => absurd hbefore hnot⟩
  · rw [hcur, hlist]
    exact hmem
  · rw [Kernel.cur, hcur, hprio, hprioCur]
    exact hprio'

/-- A pend. -/
theorem Inv.curOk_pend {kind : PendKind} {e : EventId} {timeout : ℕ} {r : Kernel × PendResult}
    (hcases : s.kernel.PendCases kind e timeout r) {q : Performed}
    (hq : q = match r.2 with
      | .returns err msg => ⟨r.1, .user, if err = .none then s.kernel.takeNotes e msg else []⟩
      | .waits => ⟨r.1, .schedPend kind e, []⟩) :
    CurOk ⟨q.kernel, Function.update s.pc s.kernel.tcbCur q.pc, log⟩ ∧
      q.kernel.running = s.kernel.running := by
  rw [hq]
  obtain ⟨k', res⟩ := r
  rcases hcases with ⟨hne, htcb, hm⟩ | ⟨hwaits, hmay, b, -, heq⟩
  · cases res with
    | waits => exact absurd rfl hne
    | returns err msg => exact h.curOk_moves hrun hint hpc hm (.inr htcb)
  · dsimp only at hwaits heq
    rw [hwaits, heq]
    refine ⟨h.curOk_blocked hrun hint hpc rfl rfl rfl ?_ hmay.unlocked trivial, rfl⟩
    rw [Kernel.waitCur]
    dsimp only
    rw [Function.update_self]
    rfl

/-- A new task. -/
theorem Inv.curOk_addTask {prio : Prio} {t : TcbId} {free : List TcbId}
    (hfree : s.kernel.tcbFreeList = t :: free) (pc : TcbId → TaskPc)
    (hbefore : (pc s.kernel.tcbCur).BeforeSched) :
    CurOk ⟨s.kernel.addTask prio t free, pc, log⟩ := by
  obtain ⟨hmem, hprio, hready, -⟩ := h.call_cur hrun hint hpc
  have hne : s.kernel.tcbCur ≠ t := by
    intro heq
    have hnodup := h.wf.nodup
    rw [hfree] at hnodup
    exact (List.nodup_append'.mp hnodup).2.2 (heq ▸ hmem) List.mem_cons_self
  have hcur : (s.kernel.addTask prio t free).cur = s.kernel.cur := Function.update_of_ne hne _ _
  refine ⟨.inl ⟨List.mem_cons_of_mem t hmem, ?_, .inl ?_⟩, fun _ _ hnot => absurd hbefore hnot⟩
  · rw [hcur]
    exact hprio
  · rw [hcur]
    exact hready

/-- A task deletes itself or another one. -/
theorem Inv.curOk_dropTask {t : TcbId} (hself : t = s.kernel.tcbCur → s.kernel.lockNesting = 0) :
    CurOk ⟨s.kernel.dropTask t, Function.update s.pc s.kernel.tcbCur .sched, log⟩ := by
  obtain ⟨hmem, hprio, hready, -⟩ := h.call_cur hrun hint hpc
  have hpc' : Function.update s.pc s.kernel.tcbCur .sched s.kernel.tcbCur = TaskPc.sched :=
    Function.update_self _ _ _
  have hbefore : (Function.update s.pc s.kernel.tcbCur .sched s.kernel.tcbCur).BeforeSched := by
    rw [hpc']
    trivial
  refine ⟨?_, fun _ _ hnot => absurd hbefore hnot⟩
  · by_cases heq : t = s.kernel.tcbCur
    · refine .inr ⟨?_, hpc', hself heq⟩
      rw [Kernel.dropTask]
      dsimp only
      rw [heq, show (s.kernel.tcb s.kernel.tcbCur).prio = s.kernel.prioCur from hprio,
        Function.update_self]
    · have hcur : (s.kernel.dropTask t).cur = s.kernel.cur :=
        Function.update_of_ne (Ne.symm heq) _ _
      have hnodup := (List.nodup_append'.mp h.wf.nodup).1
      refine .inl ⟨hnodup.mem_erase_iff.mpr ⟨Ne.symm heq, hmem⟩, ?_, .inl ?_⟩
      · rw [hcur]
        exact hprio
      · rw [hcur]
        exact hready

end Calls

/-- `OS_Sched` is to follow, or no task has changed. -/
theorem quiet_or_sched {b : Bool} {P : Prop} (hno : b = false → P) : (pcOf b).BeforeSched ∨ P := by
  cases b with
  | true => exact .inl trivial
  | false => exact .inr (hno rfl)

/-- `OSSchedLock` leaves the running task in order. -/
theorem Inv.curOk_schedLock (h : s.Inv) (hrun : s.kernel.running) (hint : s.kernel.intNesting = 0)
    (hpc : s.curPc = .user) (log : List Note) :
    CurOk ⟨s.kernel.osSchedLock, Function.update s.pc s.kernel.tcbCur .user, log⟩ ∧
      s.kernel.osSchedLock.running = s.kernel.running := by
  unfold Kernel.osSchedLock
  split
  · obtain ⟨hmem, hprio, hready, -⟩ := h.call_cur hrun hint hpc
    refine ⟨⟨.inl ⟨hmem, hprio, .inl hready⟩, ?_⟩, rfl⟩
    intro _ hlock
    exact absurd hlock (Nat.succ_ne_zero _)
  · exact h.curOk_moves hrun hint hpc (.nil _) (.inr rfl)

/-- `OSSchedUnlock` leaves it in order: its `OS_Sched` is still to come. -/
theorem Inv.curOk_schedUnlock (h : s.Inv) (hrun : s.kernel.running)
    (hint : s.kernel.intNesting = 0) (hpc : s.curPc = .user) (log : List Note) :
    CurOk ⟨s.kernel.osSchedUnlock.1,
        Function.update s.pc s.kernel.tcbCur (pcOf s.kernel.osSchedUnlock.2), log⟩ ∧
      s.kernel.osSchedUnlock.1.running = s.kernel.running := by
  unfold Kernel.osSchedUnlock
  split
  · obtain ⟨hmem, hprio, hready, -⟩ := h.call_cur hrun hint hpc
    refine ⟨⟨.inl ⟨hmem, hprio, .inl hready⟩, ?_⟩, rfl⟩
    intro hint' hlock hbefore
    -- The last unlock goes on with `OS_Sched`.
    have hlast : (s.kernel.lockNesting - 1 = 0 ∧ s.kernel.intNesting = 0) := ⟨hlock, hint'⟩
    rw [curPc] at hbefore
    dsimp only at hbefore
    rw [Function.update_self, decide_eq_true hlast] at hbefore
    exact absurd trivial hbefore
  · exact h.curOk_moves hrun hint hpc (.nil _) (.inr rfl)

/-- **A call** of the current task. -/
theorem Inv.curOk_call (h : s.Inv) {c : OsCall} (hin : s.kernel.InTask) (hpc : s.curPc = .user)
    (hok : CallOk s (.call c)) :
    (s.called c).CurOk ∧ (s.called c).kernel.running = s.kernel.running := by
  have hfree := h.curFree hin hpc
  obtain ⟨hrun, hint, -⟩ := hin
  cases c with
  | timeDly ticks =>
    rw [called, OsCall.perform]
    rcases s.kernel.osTimeDly_cases ticks with heq | ⟨-, hlock, heq⟩
    · rw [heq]
      exact h.curOk_moves hrun hint hpc (.nil _) (.inr rfl)
    · rw [heq]
      refine ⟨h.curOk_blocked hrun hint hpc rfl rfl rfl ?_ hlock trivial, rfl⟩
      rw [Kernel.delayCur]
      dsimp only
      rw [Function.update_self]
  | semCreate cnt =>
    exact h.curOk_moves hrun hint hpc (s.kernel.osSemCreate_moves cnt)
      (.inr (s.kernel.osSemCreate_tcb cnt))
  | semDel e opt =>
    exact h.curOk_moves hrun hint hpc (h.wf.osSemDel_moves e opt)
      (quiet_or_sched (s.kernel.osSemDel_tcb e opt))
  | semPend e timeout =>
    exact h.curOk_pend hrun hint hpc (Kernel.osSemPend_cases hfree e timeout) rfl
  | semPost e =>
    exact h.curOk_moves hrun hint hpc (h.wf.osSemPost_moves e)
      (quiet_or_sched (s.kernel.osSemPost_tcb e))
  | semAccept e =>
    exact h.curOk_moves hrun hint hpc (Kernel.osSemAccept_moves hfree e)
      (.inr (s.kernel.osSemAccept_tcb e))
  | qCreate start size =>
    exact h.curOk_moves hrun hint hpc (Kernel.osQCreate_moves hok)
      (.inr (s.kernel.osQCreate_tcb start size))
  | qDel e opt =>
    exact h.curOk_moves hrun hint hpc (h.wf.osQDel_moves e opt)
      (quiet_or_sched (s.kernel.osQDel_tcb e opt))
  | qPend e timeout => exact h.curOk_pend hrun hint hpc (Kernel.osQPend_cases hfree e timeout) rfl
  | qPost e msg =>
    exact h.curOk_moves hrun hint hpc (h.wf.osQPost_moves e msg)
      (quiet_or_sched (s.kernel.osQPost_tcb e msg))
  | qAccept e =>
    exact h.curOk_moves hrun hint hpc (Kernel.osQAccept_moves hfree e)
      (.inr (s.kernel.osQAccept_tcb e))
  | qFlush e =>
    exact h.curOk_moves hrun hint hpc (Kernel.Move.flush e hok).single (.inr rfl)
  | taskCreate prio =>
    rw [called, OsCall.perform]
    rcases s.kernel.osTaskCreate_cases prio with ⟨hk, herr, -⟩ | ⟨t, free, hfree, -, heq⟩
    · have hnew : ∀ pc, (OsCall.taskCreate prio).newPc s.kernel pc = pc := by
        intro pc
        rw [OsCall.newPc]
        split
        · exact if_neg herr
        · rfl
      rw [hnew, hk]
      exact h.curOk_moves hrun hint hpc (.nil _) (.inr rfl)
    · obtain ⟨hmem, -, -, -⟩ := h.call_cur hrun hint hpc
      have hne : s.kernel.tcbCur ≠ t := by
        intro hsame
        have hnodup := h.wf.nodup
        rw [hfree] at hnodup
        exact (List.nodup_append'.mp hnodup).2.2 (hsame ▸ hmem) List.mem_cons_self
      rw [heq, OsCall.newPc, hfree]
      dsimp only
      rw [heq, if_pos rfl]
      refine ⟨h.curOk_addTask hrun hint hpc hfree _ ?_, rfl⟩
      rw [Function.update_of_ne hne, Function.update_self, hrun]
      trivial
  | taskDel prio =>
    rw [called, OsCall.perform]
    rcases h.wf.osTaskDel_cases hfree.notIdle prio with ⟨hk, -⟩ | ⟨t, -, hprio, -, heq⟩
    · rw [hk]
      exact h.curOk_moves hrun hint hpc (.nil _) (.inr rfl)
    · rw [heq, hrun]
      refine ⟨h.curOk_dropTask hrun hint hpc ?_, hrun⟩
      rintro rfl
      exact hok hprio.symm
  | schedLock => exact h.curOk_schedLock hrun hint hpc _
  | schedUnlock => exact h.curOk_schedUnlock hrun hint hpc _
  | nstAllocLock =>
    rw [called, OsCall.perform, h.wf.nstAllocLock_eq h.idleLast]
    exact h.curOk_moves hrun hint hpc (.nil _) (.inr rfl)

/-! ### The other steps -/

/-- `OS_Sched` puts the highest task that can run in its place, unless the scheduler is locked. -/
theorem Inv.curOk_sched (h : s.Inv) (hin : s.kernel.InTask) (pc : TcbId → TaskPc)
    (log : List Note) :
    CurOk ⟨s.kernel.osSched, pc, log⟩ ∧ s.kernel.osSched.running = s.kernel.running := by
  obtain ⟨hrun, hint, -⟩ := hin
  rw [Kernel.osSched, if_pos hint]
  split
  · obtain ⟨htop, hrun', -, -⟩ := h.wf.osSwitch_spec h.idleLast (h.curSlot hrun)
    exact ⟨.of_top htop, hrun'⟩
  · rename_i hlock
    refine ⟨⟨?_, fun _ h0 => absurd h0 hlock⟩, rfl⟩
    rcases h.cur hrun with ⟨hmem, hprio, hready⟩ | ⟨-, -, h0⟩
    · exact .inl ⟨hmem, hprio, .inl (hready.resolve_right fun h0 => hlock h0.1)⟩
    · exact absurd h0 hlock

/-- A task that returns from its pend runs on. -/
theorem Inv.curOk_resume (h : s.Inv) (hin : s.kernel.InTask) {kind : PendKind} {e : EventId}
    (hpc : s.curPc = .pend kind e) (msg : ℕ) (log : List Note) :
    CurOk ⟨s.kernel.resumeCur e msg, Function.update s.pc s.kernel.tcbCur .user, log⟩ := by
  obtain ⟨hrun, hint, -⟩ := hin
  have hbefore : ¬ s.curPc.BeforeSched := by
    rw [hpc]
    exact not_false
  rcases h.cur hrun with ⟨hmem, hprio, hready⟩ | ⟨-, hdel, -⟩
  · have hready := hready.resolve_right fun h0 => hbefore h0.2
    have hok := h.task _ hmem
    rw [show s.pc s.kernel.tcbCur = .pend kind e from hpc] at hok
    have hwf := h.wf.resumeCur hmem hready hok.eventPtr msg
    have hcur : (s.kernel.resumeCur e msg).cur = s.kernel.cur.resumed msg :=
      Function.update_self _ _ _
    refine ⟨.inl ⟨hmem, ?_, .inl ?_⟩, ?_⟩
    · rw [hcur]
      exact hprio
    · rw [hcur]
      exact ⟨rfl, hready.2⟩
    · intro _ hlock _ p hp
      apply h.top hrun hint hlock hbefore
      rw [← h.wf.rdy.mem_iff]
      exact (hwf.rdy.mem_iff p).mpr hp
  · rw [hpc] at hdel
    cases hdel

/-- `OSIntEnter` switches nothing. -/
theorem Inv.curOk_intEnter (h : s.Inv) (hrun : s.kernel.running) :
    CurOk { s with kernel := s.kernel.osIntEnter } ∧
      s.kernel.osIntEnter.running = s.kernel.running := by
  unfold Kernel.osIntEnter
  split
  · refine ⟨⟨?_, fun h0 => absurd h0 (Nat.succ_ne_zero _)⟩, rfl⟩
    rcases h.cur hrun with ⟨hmem, hprio, hready⟩ | ⟨hslot, hdel, hlock⟩
    · exact .inl ⟨hmem, hprio, hready⟩
    · exact .inr ⟨hslot, hdel, hlock⟩
  · exact ⟨h.curOk hrun, rfl⟩

/-- The last `OSIntExit` puts the highest task that can run in its place, unless the scheduler is
    locked. -/
theorem Inv.curOk_intExit (h : s.Inv) (hrun : s.kernel.running) :
    CurOk { s with kernel := s.kernel.osIntExit } ∧
      s.kernel.osIntExit.running = s.kernel.running := by
  have hstay : ∀ int : ℕ, (int = 0 → s.kernel.lockNesting ≠ 0) →
      CurOk { s with kernel := { s.kernel with intNesting := int } } := by
    intro int hno
    refine ⟨?_, fun h0 hlock => absurd hlock (hno h0)⟩
    rcases h.cur hrun with ⟨hmem, hprio, hready⟩ | ⟨hslot, hdel, hlock⟩
    · exact .inl ⟨hmem, hprio, hready⟩
    · exact .inr ⟨hslot, hdel, hlock⟩
  rw [Kernel.osIntExit, if_pos hrun]
  dsimp only
  split
  · split
    · have hwf : { s.kernel with intNesting := s.kernel.intNesting - 1 : Kernel }.Wf :=
        h.wf.setSched _ _ _ _ _ _
      obtain ⟨htop, hrun', -, -⟩ := hwf.osSwitch_spec h.idleLast (h.curSlot hrun)
      exact ⟨.of_top htop, hrun'⟩
    · rename_i hlock
      exact ⟨hstay _ fun _ => hlock, rfl⟩
  · rename_i hint
    exact ⟨hstay _ fun h0 => absurd h0 hint, rfl⟩

/-- An interrupt routine leaves the current task in place. -/
theorem Inv.curOk_isr (h : s.Inv) (hrun : s.kernel.running) (hint : s.kernel.intNesting > 0)
    {k' : Kernel} (hsame : s.kernel.SameTasks k')
    (hprio' : s.kernel.tcbCur ∈ s.kernel.tcbList →
      (k'.tcb s.kernel.tcbCur).prio = s.kernel.cur.prio ∧
        (s.kernel.cur.Ready → (k'.tcb s.kernel.tcbCur).Ready)) (log : List Note) :
    CurOk ⟨k', s.pc, log⟩ := by
  refine ⟨?_, fun h0 => absurd (hsame.intNesting.symm.trans h0) (Nat.pos_iff_ne_zero.mp hint)⟩
  rcases h.cur hrun with ⟨hmem, hprio, hready⟩ | ⟨hslot, hdel, hlock⟩
  · obtain ⟨hp, hr⟩ := hprio' hmem
    refine .inl ⟨?_, ?_, ?_⟩
    · rw [hsame.tcbCur, hsame.tcbList]
      exact hmem
    · rw [Kernel.cur, hsame.tcbCur, hsame.prioCur, hp]
      exact hprio
    · rw [Kernel.cur, curPc, hsame.tcbCur, hsame.lockNesting]
      exact hready.imp_left hr
  · refine .inr ⟨?_, ?_, hsame.lockNesting.trans hlock⟩
    · rw [hsame.prioTbl, hsame.prioCur]
      exact hslot
    · rw [curPc, hsame.tcbCur]
      exact hdel

/-- What an interrupt routine readies waits for the `OSIntExit`. -/
theorem Inv.curOk_isr_moves (h : s.Inv) (hrun : s.kernel.running)
    (hint : s.kernel.intNesting > 0) {k' : Kernel} {n : List Note}
    (hm : Kernel.Moves s.kernel k' n) (log : List Note) :
    CurOk ⟨k', s.pc, log⟩ ∧ k'.running = s.kernel.running :=
  ⟨h.curOk_isr hrun hint hm.sameTasks
    (fun _ => ⟨hm.prio h.wf _, fun hready => hm.ready h.wf hready⟩) log, hm.sameTasks.running⟩

/-- What a tick readies waits for the `OSIntExit`. -/
theorem Inv.curOk_tick (h : s.Inv) (hrun : s.kernel.running) (hint : s.kernel.intNesting > 0)
    (log : List Note) :
    CurOk ⟨s.kernel.osTimeTick, s.pc, log⟩ ∧ s.kernel.osTimeTick.running = s.kernel.running := by
  have hm := h.wf.osSemPost_moves s.kernel.tmrSemSignal
  rw [Kernel.osTimeTick_eq (hm.sameTasks.running.trans hrun)]
  set k1 := (s.kernel.osSemPost s.kernel.tmrSemSignal).1
  set k2 : Kernel := { k1 with time := u32 (k1.time + 1) }
  have hwf : k2.Wf := (hm.wf h.wf).of_rest _ rfl rfl rfl rfl rfl rfl rfl
  have hidle : k2.IdleLast := hm.idleLast h.wf h.idleLast
  have hclock : k1.SameTasks k2 := ⟨rfl, rfl, rfl, rfl, rfl, rfl, rfl, rfl⟩
  have hsame := (hm.sameTasks.trans hclock).trans hwf.tick_frame.1
  refine ⟨h.curOk_isr hrun hint hsame (fun hmem => ?_) log, hsame.running⟩
  have hin : s.kernel.tcbCur ∈ k2.tcbList := by
    rw [(hm.sameTasks.trans hclock).tcbList]
    exact hmem
  have htick : (Kernel.tickLoop k2 k1.tcbList).tcb s.kernel.tcbCur
      = (k1.tcb s.kernel.tcbCur).ticked := hwf.tick_tcb hidle hin
  rw [htick]
  refine ⟨(Kernel.ticked_prio _).trans (hm.prio h.wf _), fun hready => ?_⟩
  have hready1 := hm.ready h.wf hready
  rw [OsTcb.ticked, if_neg (not_not.mpr hready1.2)]
  exact hready1

/-- A step while the kernel runs leaves the right task as the current one. -/
theorem Inv.curOk_step (h : s.Inv) (hrun : s.kernel.running) {l : OsLabel} (hok : CallOk s l)
    (hs : osStep s l = some s') : s'.CurOk ∧ s'.kernel.running = s.kernel.running := by
  cases l with
  | start =>
    rw [osStep, if_pos hrun] at hs
    cases hs
  | call c =>
    rw [osStep] at hs
    split at hs
    · rename_i hc
      obtain rfl := Option.some.inj hs
      rcases hc with ⟨hin, hpc⟩ | ⟨hno, -⟩
      · exact h.curOk_call hin hpc hok
      · exact absurd hrun hno
    · cases hs
  | sched =>
    rw [osStep] at hs
    split at hs
    · rename_i hin
      split at hs
      · obtain rfl := Option.some.inj hs
        exact h.curOk_sched hin _ _
      · obtain rfl := Option.some.inj hs
        exact h.curOk_sched hin _ _
      · cases hs
    · cases hs
  | resume =>
    rw [osStep] at hs
    split at hs
    · rename_i hin
      split at hs
      · rename_i kind e hpc
        obtain rfl := Option.some.inj hs
        dsimp only
        rw [(s.kernel.pendEnd_eq kind e).1]
        exact ⟨h.curOk_resume hin hpc _ _, rfl⟩
      · cases hs
    · cases hs
  | intEnter =>
    rw [osStep, if_pos hrun] at hs
    obtain rfl := Option.some.inj hs
    exact h.curOk_intEnter hrun
  | isr c =>
    rw [osStep] at hs
    split at hs
    · rename_i hint
      obtain rfl := Option.some.inj hs
      cases c with
      | semPost e => exact h.curOk_isr_moves hrun hint (h.wf.osSemPost_moves e) _
      | qPost e msg => exact h.curOk_isr_moves hrun hint (h.wf.osQPost_moves e msg) _
      | timeTick => exact h.curOk_tick hrun hint _
    · cases hs
  | intExit =>
    rw [osStep] at hs
    split at hs
    · obtain rfl := Option.some.inj hs
      exact h.curOk_intExit hrun
    · cases hs

/-- A call changes the place of another task only if it creates it. -/
theorem newPc_cases (k : Kernel) (pc : TcbId → TaskPc) (c : OsCall) (t : TcbId) :
    c.newPc k pc t = .user ∨ c.newPc k pc t = pc t := by
  cases c with
  | taskCreate prio =>
    rw [OsCall.newPc]
    cases k.tcbFreeList with
    | nil => exact .inr rfl
    | cons new free =>
      dsimp only
      by_cases herr : (k.osTaskCreate prio).2.1 = .none
      · rw [if_pos herr]
        by_cases heq : t = new
        · rw [heq, Function.update_self]
          exact .inl rfl
        · rw [Function.update_of_ne heq]
          exact .inr rfl
      · rw [if_neg herr]
        exact .inr rfl
  | _ => exact .inr rfl

/-- Before the start all tasks are in their own code; the start runs the first one. -/
theorem Inv.boot_step (h : s.Inv) (hrun : ¬ s.kernel.running) {l : OsLabel}
    (hok : CallOk s l) (hs : osStep s l = some s') :
    (s'.kernel.running ∧ s'.CurOk) ∨
      (¬ s'.kernel.running ∧ s'.kernel.intNesting = 0 ∧ ∀ t, s'.pc t = .user) := by
  obtain ⟨hint, hpcs⟩ := h.boot hrun
  have hnot : ¬ s.kernel.InTask := fun hin => hrun hin.1
  cases l with
  | start =>
    rw [osStep, if_neg hrun] at hs
    obtain rfl := Option.some.inj hs
    have hstart : s.kernel.osStart = { s.kernel.osSchedNew.osCtxSw with running := true } :=
      if_neg hrun
    obtain ⟨hmem, hprio, hready, hle⟩ := h.wf.osCtxSw_top h.idleLast
    rw [hstart]
    exact .inl ⟨rfl, .of_top ⟨hmem, hprio, hready, hle⟩⟩
  | call c =>
    rw [osStep] at hs
    split at hs
    · rename_i hc
      obtain rfl := Option.some.inj hs
      have hat := (hc.resolve_left fun h0 => hnot h0.1).2
      have hupdate : ∀ t, Function.update s.pc s.kernel.tcbCur .user t = .user := by
        intro t
        by_cases heq : t = s.kernel.tcbCur
        · rw [heq, Function.update_self]
        · rw [Function.update_of_ne heq, hpcs]
      refine .inr ?_
      cases c with
      | semCreate cnt =>
        have hsame := (s.kernel.osSemCreate_moves cnt).sameTasks
        exact ⟨by rwa [← hsame.running] at hrun, hsame.intNesting.trans hint, hupdate⟩
      | qCreate start size =>
        have hsame := (Kernel.osQCreate_moves hok).sameTasks
        exact ⟨by rwa [← hsame.running] at hrun, hsame.intNesting.trans hint, hupdate⟩
      | taskCreate prio =>
        have hpc : (s.kernel.osTaskCreate prio).2.2 = false ∧
            (s.kernel.osTaskCreate prio).1.running = s.kernel.running ∧
            (s.kernel.osTaskCreate prio).1.intNesting = s.kernel.intNesting := by
          rcases s.kernel.osTaskCreate_cases prio with ⟨hk, -, hno⟩ | ⟨t, free, -, -, heq⟩
          · exact ⟨hno, by rw [hk], by rw [hk]⟩
          · rw [heq]
            exact ⟨Bool.eq_false_of_not_eq_true hrun, rfl, rfl⟩
        refine ⟨by rw [OsCall.perform, hpc.2.1]; exact hrun,
          by rw [OsCall.perform, hpc.2.2]; exact hint, ?_⟩
        intro t
        dsimp only
        rw [OsCall.perform, hpc.1]
        rcases newPc_cases s.kernel (Function.update s.pc s.kernel.tcbCur .user)
          (.taskCreate prio) t with hnew | hold
        · exact hnew
        · exact hold.trans (hupdate t)
      | nstAllocLock =>
        rw [OsCall.perform, h.wf.nstAllocLock_eq h.idleLast]
        exact ⟨hrun, hint, hupdate⟩
      | _ => cases hat
    · cases hs
  | sched =>
    rw [osStep, if_neg hnot] at hs
    cases hs
  | resume =>
    rw [osStep, if_neg hnot] at hs
    cases hs
  | intEnter =>
    rw [osStep, if_neg hrun] at hs
    cases hs
  | isr c =>
    rw [osStep, hint, if_neg (lt_irrefl 0)] at hs
    cases hs
  | intExit =>
    rw [osStep, hint, if_neg (lt_irrefl 0)] at hs
    cases hs

/-- **Every step keeps the invariant.** -/
theorem Inv.step (h : s.Inv) {l : OsLabel} (hok : CallOk s l) (hs : osStep s l = some s') :
    s'.Inv := by
  obtain ⟨hwf, hidle, htask⟩ := (osStep_transition h hok hs).tablesOk h.tablesOk
  by_cases hrun : s.kernel.running
  · obtain ⟨⟨hcur, htop⟩, hrun'⟩ := h.curOk_step hrun hok hs
    exact ⟨hwf, hidle, htask, fun h0 => absurd (hrun'.trans hrun) h0, fun _ => hcur, fun _ => htop⟩
  · rcases h.boot_step hrun hok hs with ⟨hrun', hcur, htop⟩ | ⟨hrun', hpcs⟩
    · exact ⟨hwf, hidle, htask, fun h0 => absurd hrun' h0, fun _ => hcur, fun _ => htop⟩
    · exact ⟨hwf, hidle, htask, fun _ => hpcs, fun h0 => absurd h0 hrun', fun h0 => absurd h0 hrun'⟩

end OsSystem

/-! ### The start -/

section Boot

open Kernel

/-- The empty tables of `OSInit` are in order. -/
theorem osInitLists_wf : osInitLists.Wf where
  nodup := List.nodup_finRange 22
  slot_iff p t := iff_of_false PrioSlot.noConfusion fun h => List.not_mem_nil h.1
  not_reserved _ := PrioSlot.noConfusion
  rdy := represents_empty.congr fun _ => iff_of_false not_false fun ⟨_, h, _⟩ => by cases h
  wait _ := represents_empty.congr fun _ => iff_of_false not_false fun ⟨_, h, _⟩ => by cases h
  stat _ ht := absurd ht List.not_mem_nil
  delayed _ ht := absurd ht List.not_mem_nil
  noWait _ _ _ ht := absurd ht List.not_mem_nil
  eventFree _ _ := rfl
  eventFree_nodup := (List.nodup_finRange 20).map (Fin.castLE_injective _)

/-- `OSTaskCreate` keeps the tables in order, and the idle task with them. -/
theorem Kernel.Wf.osTaskCreate {k : Kernel} (h : k.Wf) (prio : Prio) :
    (k.osTaskCreate prio).1.Wf ∧ (k.IdleLast → (k.osTaskCreate prio).1.IdleLast) := by
  rcases k.osTaskCreate_cases prio with ⟨hk, -, -⟩ | ⟨t, free, hfree, hslot, heq⟩
  · rw [hk]
    exact ⟨h, id⟩
  · rw [heq]
    exact ⟨h.addTask hfree hslot, fun hidle => hidle.addTask h hfree⟩

/-- `OSTmr_Init` adds its semaphores and its task to tables in order. -/
theorem Kernel.Wf.osTmrInit {k : Kernel} (h : k.Wf) (hidle : k.IdleLast) :
    (osTmrInit k).Wf ∧ (osTmrInit k).IdleLast := by
  have hfirst := k.osSemCreate_moves 1
  have hsecond := (k.osSemCreate 1).1.osSemCreate_moves 0
  have hwf := hsecond.wf (hfirst.wf h)
  have hidle' := hsecond.idleLast (hfirst.wf h) (hfirst.idleLast h hidle)
  have hset : { ((k.osSemCreate 1).1.osSemCreate 0).1 with
      tmrSemSignal := ((k.osSemCreate 1).1.osSemCreate 0).2.getD 0 : Kernel }.Wf :=
    hwf.of_rest _ rfl rfl rfl rfl rfl rfl rfl
  obtain ⟨hcreate, hlast⟩ := hset.osTaskCreate osTaskTmrPrio
  exact ⟨hcreate, hlast hidle'⟩

/-- `OSInit` leaves the tables right and the idle task in place. -/
theorem osInit_wf : osInit.Wf ∧ osInit.IdleLast := by
  obtain ⟨hidleWf, -⟩ := osInitLists_wf.osTaskCreate osTaskIdlePrio
  have hidle : (osInitLists.osTaskCreate osTaskIdlePrio).1.IdleLast :=
    ⟨[], 0, rfl, rfl, ⟨rfl, rfl⟩, rfl⟩
  obtain ⟨hstatWf, hstat⟩ := hidleWf.osTaskCreate osTaskStatPrio
  obtain ⟨hwf, hlast⟩ := hstatWf.osTmrInit (hstat hidle)
  refine ⟨hwf.of_event _ rfl rfl rfl rfl rfl (fun _ => .inl rfl) (fun _ => .inl rfl)
    (fun _ hno => .inl hno) ?_ ?_, hlast⟩
  · decide +kernel
  · decide +kernel

/-- The invariant holds when `OSInit` has returned. -/
theorem osBoot_inv : osBoot.Inv where
  wf := osInit_wf.1
  idleLast := osInit_wf.2
  task := by
    have hall : ∀ t ∈ osInit.tcbList, (osInit.tcb t).eventPtr = none ∧
        (osInit.tcb t).stat = osStatRdy ∧ (osInit.tcb t).statPend = .ok := by decide +kernel
    intro t ht
    obtain ⟨hptr, hstat, hpend⟩ := hall t ht
    exact ⟨hptr, hstat, hpend⟩
  boot _ := ⟨rfl, fun _ => rfl⟩
  cur h := by cases h
  top h := by cases h

end Boot

/-- A state that a run of valid calls from the boot can reach. -/
def OsReachable (s : OsSystem) : Prop :=
  ∃ ls, Along osStep CallOk osBoot ls ∧ run osStep osBoot ls = some s

/-- The invariant holds in every state of a run. -/
theorem OsReachable.inv {s : OsSystem} (h : OsReachable s) : s.Inv := by
  obtain ⟨ls, hok, hrun⟩ := h
  exact run_invariant (fun _ _ _ hinv hok hs => hinv.step hok hs) ls _ _ osBoot_inv hok hrun

/-- **The tables agree with the tasks** in every reachable state: the ready list has the tasks that
    can run, the wait list of an event those that wait for it, no two tasks have one priority, and
    the task that the next post readies is the first of those that wait. -/
theorem tables_agree {s : OsSystem} (h : OsReachable s) :
    (∀ p, s.kernel.rdy.Mem p ↔
        ∃ t ∈ s.kernel.tcbList, (s.kernel.tcb t).prio = p ∧ (s.kernel.tcb t).Ready) ∧
      (∀ e p, (s.kernel.event e).tbl.Mem p ↔
        ∃ t ∈ s.kernel.tcbList, (s.kernel.tcb t).prio = p ∧ (s.kernel.tcb t).WaitsOn e) ∧
      (∀ t ∈ s.kernel.tcbList, ∀ t' ∈ s.kernel.tcbList,
        (s.kernel.tcb t).prio = (s.kernel.tcb t').prio → t = t') ∧
      ∀ e, (s.kernel.event e).tbl.grp ≠ 0 →
        (s.kernel.tcb (s.kernel.firstWaiter e)).WaitsOn e ∧
          ∀ t ∈ s.kernel.tcbList, (s.kernel.tcb t).WaitsOn e →
            (s.kernel.tcb (s.kernel.firstWaiter e)).prio ≤ (s.kernel.tcb t).prio := by
  have hwf := h.inv.wf
  have hholds : ∀ (P : OsTcb → Prop) p, s.kernel.Holds P p ↔
      ∃ t ∈ s.kernel.tcbList, (s.kernel.tcb t).prio = p ∧ P (s.kernel.tcb t) := by
    intro P p
    constructor
    · rintro ⟨t, ht, hP⟩
      obtain ⟨hmem, hprio⟩ := (hwf.slot_iff p t).mp ht
      exact ⟨t, hmem, hprio, hP⟩
    · rintro ⟨t, hmem, hprio, hP⟩
      exact ⟨t, (hwf.slot_iff p t).mpr ⟨hmem, hprio⟩, hP⟩
  refine ⟨?_, ?_, fun t ht t' ht' => hwf.eq_of_prio ht ht', ?_⟩
  · exact fun p => (hwf.rdy.mem_iff p).trans (hholds _ p)
  · exact fun e p => ((hwf.wait e).mem_iff p).trans (hholds _ p)
  · intro e hne
    obtain ⟨-, -, hwt, hle⟩ := hwf.firstWaiter_spec hne
    exact ⟨hwt, hle⟩

/-- A task of priority 10 has been created and has started to wait for the first semaphore. -/
def waitRun : List OsLabel :=
  [.call (.taskCreate 10), .call (.semCreate 0), .start, .call (.semPend 2 5)]

/-- The run meets the promises of the callers. -/
theorem waitRun_reachable : OsReachable (runEnd osStep osBoot waitRun) := by
  refine ⟨waitRun, ?_, run_eq_runEnd (by decide +kernel)⟩
  exact ⟨trivial, fun _ _ => ⟨trivial, fun _ _ => ⟨trivial, fun _ _ => ⟨trivial,
    fun _ _ => trivial⟩⟩⟩⟩

theorem tables_agree_waitRun :
    (runEnd osStep osBoot waitRun).kernel.firstWaiter 2
        ∈ (runEnd osStep osBoot waitRun).kernel.tcbList ∧
      ((runEnd osStep osBoot waitRun).kernel.tcb
        ((runEnd osStep osBoot waitRun).kernel.firstWaiter 2)).WaitsOn 2 :=
  ⟨by decide +kernel, ((tables_agree waitRun_reachable).2.2.2 2 (by decide +kernel)).1⟩

/-- **The task with the highest priority runs.**  Outside of interrupts, if the scheduler is not
    locked and the current task is not about to call `OS_Sched`, the current task can run and no
    task that can run has a higher priority. -/
theorem highest_ready_runs {s : OsSystem} (h : OsReachable s) (hrun : s.kernel.running)
    (hint : s.kernel.intNesting = 0) (hlock : s.kernel.lockNesting = 0)
    (hpc : ¬ s.curPc.BeforeSched) :
    s.kernel.tcbCur ∈ s.kernel.tcbList ∧ s.kernel.cur.Ready ∧
      ∀ t ∈ s.kernel.tcbList, (s.kernel.tcb t).Ready →
        s.kernel.cur.prio ≤ (s.kernel.tcb t).prio := by
  have hinv := h.inv
  rcases hinv.cur hrun with ⟨hmem, hprio, hready⟩ | ⟨-, hdel, -⟩
  · refine ⟨hmem, hready.resolve_right fun h0 => hpc h0.2, ?_⟩
    intro t ht htready
    rw [hprio]
    exact hinv.top hrun hint hlock hpc _ ((hinv.wf.holds_prio ht).mpr htready)
  · rw [hdel] at hpc
    exact absurd trivial hpc

/-- After the wait the statistics task, of priority 62, goes on before the idle task. -/
theorem highest_ready_runs_waitRun :
    (runEnd osStep osBoot (waitRun ++ [.sched])).kernel.cur.prio ≤
      ((runEnd osStep osBoot (waitRun ++ [.sched])).kernel.tcb 0).prio := by
  have hreach : OsReachable (runEnd osStep osBoot (waitRun ++ [.sched])) := by
    refine ⟨waitRun ++ [.sched], ?_, run_eq_runEnd (by decide +kernel)⟩
    exact ⟨trivial, fun _ _ => ⟨trivial, fun _ _ => ⟨trivial, fun _ _ => ⟨trivial,
      fun _ _ => ⟨trivial, fun _ _ => trivial⟩⟩⟩⟩⟩
  have hbefore : ¬ (runEnd osStep osBoot (waitRun ++ [.sched])).curPc.BeforeSched := by
    rw [show (runEnd osStep osBoot (waitRun ++ [.sched])).curPc = .user by decide +kernel]
    exact not_false
  exact (highest_ready_runs hreach (by decide +kernel) (by decide +kernel) (by decide +kernel)
    hbefore).2.2 0 (by decide +kernel) ⟨by decide +kernel, by decide +kernel⟩

end SerialNet
