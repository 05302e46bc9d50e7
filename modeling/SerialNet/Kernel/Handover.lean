import SerialNet.Kernel.Exchange

namespace SerialNet

attribute [local instance] neZero_prios neZero_tcbs neZero_events

/-!
# What is handed to a task is returned by its call

A post, a delete or the task itself hands a unit or message to a task, and its call returns it.
Between the two it is in the control block (`inFlight`).  `HandoverOk` says that the log and the
control blocks agree, for runs in which tasks delete only themselves, as those of the firmware do.
-/

/-- What the notes hand to a task. -/
def handedTo (t : TcbId) (log : List Note) : List (EventId × ℕ) :=
  log.filterMap fun
    | .handed t' e msg => if t' = t then some (e, msg) else none
    | .released t' e => if t' = t then some (e, 0) else none
    | _ => none

/-- What the calls of a task have returned. -/
def returnedBy (t : TcbId) (log : List Note) : List (EventId × ℕ) :=
  log.filterMap fun
    | .returned t' e msg => if t' = t then some (e, msg) else none
    | _ => none

/-- A task in a pend that is over has its message in the control block. -/
def inFlight : Option (PendKind × EventId) → OsTcb → List (EventId × ℕ)
  | some (_, e), c => if c.stat = osStatRdy ∧ c.statPend = .ok then [(e, c.msg)] else []
  | none, _ => []

/-- Tasks delete only themselves. -/
def SelfDel (s : OsSystem) : OsLabel → Prop
  | .call (.taskDel prio) => prio.getD s.kernel.cur.prio = s.kernel.cur.prio
  | _ => True

/-- What a longer log hands to a task comes behind what it was handed before. -/
@[simp] theorem handedTo_append (t : TcbId) (l l' : List Note) :
    handedTo t (l ++ l') = handedTo t l ++ handedTo t l' := List.filterMap_append

/-- What the calls return later comes behind what they returned before. -/
@[simp] theorem returnedBy_append (t : TcbId) (l l' : List Note) :
    returnedBy t (l ++ l') = returnedBy t l ++ returnedBy t l' := List.filterMap_append

/-- A task that still waits has nothing to return. -/
theorem inFlight_of_waitsOn {w : Option (PendKind × EventId)} {c : OsTcb} {e : EventId}
    (hwt : c.WaitsOn e) : inFlight w c = [] := by
  rcases w with _ | ⟨kind, e'⟩
  · rfl
  · apply if_neg
    rintro ⟨hstat, hok⟩
    exact OsTcb.not_waitsOn_of_ok hstat hok e hwt

/-- A tick gives a task nothing and takes nothing from it. -/
theorem inFlight_ticked {k : Kernel} {w : Option (PendKind × EventId)} {t : TcbId} (h : k.Wf)
    (ht : t ∈ k.tcbList) (hok : TaskOk k w (k.tcb t)) :
    inFlight w (k.tcb t).ticked = inFlight w (k.tcb t) := by
  rcases w with _ | ⟨kind, e⟩
  · rfl
  · by_cases hdly : (k.tcb t).dly = 0
    · rw [OsTcb.ticked, if_neg (not_not.mpr hdly)]
    · -- A task with a delay in a pend still waits.
      have hne : (k.tcb t).stat ≠ osStatRdy := fun h0 => hdly (PendOk.dly hok h0)
      have hwt : (k.tcb t).WaitsOn e := ⟨PendOk.eventPtr hok, .inl hne⟩
      rw [OsTcb.ticked, if_pos hdly, inFlight_of_waitsOn hwt]
      exact inFlight_of_waitsOn (((h.tickTcb_spec ht hdly).2.2.1 e).mpr hwt)

namespace Kernel

variable {k k' : Kernel} {n : List Note}

/-- What a move hands over and returns, against the control blocks. -/
def HandsOver (k k' : Kernel) (w : TcbId → Option (PendKind × EventId)) (n : List Note) : Prop :=
  ∀ t, inFlight (w t) (k.tcb t) ++ handedTo t n = returnedBy t n ++ inFlight (w t) (k'.tcb t)

/-- A step that leaves the tasks alone hands nothing over. -/
theorem handsOver_of_tcb (w : TcbId → Option (PendKind × EventId)) (htcb : k'.tcb = k.tcb)
    (hhanded : ∀ t, handedTo t n = []) (hreturned : ∀ t, returnedBy t n = []) :
    k.HandsOver k' w n := by
  intro t
  rw [hhanded, hreturned, htcb, List.append_nil, List.nil_append]

section

variable {w : TcbId → Option (PendKind × EventId)} (h : k.Wf)
  (hok : ∀ t ∈ k.tcbList, TaskOk k (w t) (k.tcb t))
include h hok

/-- A task that gets an event. -/
theorem handsOver_readyFirst {e : EventId} {msg : ℕ} (hne : (k.event e).tbl.grp ≠ 0)
    (hhanded : ∀ t, handedTo t n = if t = k.firstWaiter e then [(e, msg)] else [])
    (hreturned : ∀ t, returnedBy t n = []) : k.HandsOver (k.readyFirst e msg) w n := by
  obtain ⟨hmem, -, hwt, -⟩ := h.firstWaiter_spec hne
  intro t
  rw [hhanded, hreturned, List.nil_append]
  by_cases ht : t = k.firstWaiter e
  · have htcb : (k.readyFirst e msg).tcb t = (k.tcb t).readied msg := by
      rw [ht]
      exact Function.update_self _ _ _
    rw [if_pos ht, htcb]
    rw [← ht] at hwt hmem
    rw [inFlight_of_waitsOn hwt]
    have hpend := hok t hmem
    rcases hw : w t with _ | ⟨kind, e'⟩
    · rw [hw] at hpend
      exact absurd hwt (OsTcb.not_waitsOn_of_none hpend.eventPtr e)
    · rw [hw] at hpend
      obtain rfl := Option.some.inj (hwt.1.symm.trans hpend.eventPtr)
      have hover : ((k.tcb t).readied msg).stat = osStatRdy ∧
          ((k.tcb t).readied msg).statPend = .ok := ⟨rfl, rfl⟩
      rw [inFlight, if_pos hover]
      rfl
  · have htcb : (k.readyFirst e msg).tcb t = k.tcb t := Function.update_of_ne ht _ _
    rw [if_neg ht, htcb, List.append_nil]

omit h in
/-- The current task takes a unit or message. -/
theorem handsOver_take (hcur : k.CurFree) (e : EventId) (msg : ℕ) (htcb : k'.tcb = k.tcb) :
    k.HandsOver k' w (k.takeNotes e msg) := by
  intro t
  rw [htcb]
  by_cases ht : k.tcbCur = t
  · have hnone : w t = none := by
      have hpend := hok _ hcur.mem
      rw [ht] at hpend
      rcases hw : w t with _ | ⟨kind, e'⟩
      · rfl
      · rw [hw] at hpend
        have hptr := hcur.eventPtr
        rw [cur, ht, hpend.eventPtr] at hptr
        cases hptr
    rw [hnone]
    simp [takeNotes, handedTo, returnedBy, inFlight, ht]
  · simp [takeNotes, handedTo, returnedBy, ht]

/-- What a move hands to a waiter is in its control block afterwards. -/
theorem Move.handsOver (hm : k.Move k' n) : k.HandsOver k' w n := by
  cases hm with
  | hand e msg _ hne hty hnotes =>
    apply handsOver_readyFirst h hok hne
    · intro t
      rw [hnotes]
      by_cases ht : t = k.firstWaiter e
      · simp [handedTo, ht]
      · simp [handedTo, ht, Ne.symm ht]
    · intro t
      rw [hnotes]
      rfl
  | release e hne =>
    apply handsOver_readyFirst h hok hne
    · intro t
      by_cases ht : t = k.firstWaiter e
      · simp [handedTo, ht]
      · simp [handedTo, ht, Ne.symm ht]
    · exact fun _ => rfl
  | take e hcur => exact handsOver_take hok hcur e _ rfl
  | get e hcur => exact handsOver_take hok hcur e _ rfl
  | give | put | flush | semNew | qNew | semFree | qFree =>
    exact handsOver_of_tcb w rfl (fun _ => rfl) fun _ => rfl

end

/-- What a service call hands over is in the control blocks afterwards. -/
theorem Moves.handsOver {w : TcbId → Option (PendKind × EventId)} (hm : Moves k k' n) (h : k.Wf)
    (hok : ∀ t ∈ k.tcbList, TaskOk k (w t) (k.tcb t)) : k.HandsOver k' w n := by
  induction hm with
  | nil => exact handsOver_of_tcb w rfl (fun _ => rfl) fun _ => rfl
  | cons hmove _ ih =>
    have hfirst := Move.handsOver h hok hmove
    have hrest := ih (hmove.wf h) fun t ht => by
      rw [hmove.sameTasks.tcbList] at ht
      exact hmove.taskOk h ht (hok t ht)
    intro t
    rw [handedTo_append, returnedBy_append, ← List.append_assoc, hfirst t, List.append_assoc,
      hrest t, List.append_assoc]

end Kernel

/-! ### Runs -/

/-- The log and the control blocks agree. -/
structure HandoverOk (s : OsSystem) : Prop where
  /-- A control block that is free belongs to no pend. -/
  free : ∀ t, t ∉ s.kernel.tcbList → (s.pc t).waits = none
  law : ∀ t, handedTo t s.log = returnedBy t s.log ++ inFlight (s.pc t).waits (s.kernel.tcb t)

section Runs

variable {s s' : OsSystem}

/-- A step that changes one control block and hands nothing over. -/
theorem HandoverOk.of_quiet (h : HandoverOk s) (k' : Kernel) (pc' : TcbId → TaskPc)
    (hfree : ∀ t, t ∉ k'.tcbList → (pc' t).waits = none)
    (hsame : ∀ t, inFlight (pc' t).waits (k'.tcb t) = inFlight (s.pc t).waits (s.kernel.tcb t)) :
    HandoverOk ⟨k', pc', s.log⟩ where
  free := hfree
  law t := by rw [hsame t]; exact h.law t

/-- A step that hands over what its notes say keeps the two records together. -/
theorem HandoverOk.of_handsOver (h : HandoverOk s) {k' : Kernel} {n : List Note}
    {pc' : TcbId → TaskPc} (hlist : k'.tcbList = s.kernel.tcbList)
    (hpc : ∀ t, (pc' t).waits = (s.pc t).waits)
    (hk : s.kernel.HandsOver k' (fun t => (s.pc t).waits) n) :
    HandoverOk ⟨k', pc', s.log ++ n⟩ where
  free t ht := by
    rw [hpc]
    exact h.free t (hlist ▸ ht)
  law t := by
    dsimp only
    rw [handedTo_append, returnedBy_append, h.law t, List.append_assoc, hk t, hpc,
      List.append_assoc]

/-- The current task has changed without a pend before or behind it that is over. -/
theorem HandoverOk.of_cur (h : HandoverOk s) (c : OsTcb) (k' : Kernel)
    (htcb : k'.tcb = Function.update s.kernel.tcb s.kernel.tcbCur c)
    (hlist : k'.tcbList = s.kernel.tcbList) (hmem : s.kernel.tcbCur ∈ s.kernel.tcbList)
    (pc' : TcbId → TaskPc)
    (hother : ∀ t ≠ s.kernel.tcbCur, (pc' t).waits = (s.pc t).waits)
    (hold : inFlight (s.pc s.kernel.tcbCur).waits s.kernel.cur = [])
    (hnew : inFlight (pc' s.kernel.tcbCur).waits c = []) : HandoverOk ⟨k', pc', s.log⟩ := by
  refine h.of_quiet k' pc' ?_ ?_
  · intro t ht
    rw [hlist] at ht
    have hne : t ≠ s.kernel.tcbCur := fun heq => ht (heq ▸ hmem)
    rw [hother t hne]
    exact h.free t ht
  · intro t
    rw [htcb]
    by_cases heq : t = s.kernel.tcbCur
    · rw [heq, Function.update_self, hnew]
      exact hold.symm
    · rw [Function.update_of_ne heq, hother t heq]

/-- The running task has nothing in flight when it calls. -/
theorem waits_curFree (htab : TablesOk s) (hcur : s.kernel.CurFree) :
    (s.pc s.kernel.tcbCur).waits = none := by
  have hpend := htab.task _ hcur.mem
  rcases hw : (s.pc s.kernel.tcbCur).waits with _ | ⟨kind, e⟩
  · rfl
  · rw [hw] at hpend
    have hptr := hcur.eventPtr.symm.trans (PendOk.eventPtr hpend)
    cases hptr

/-- Every step keeps the two records together. -/
theorem OsTransition.handoverOk {l : OsLabel} (ht : OsTransition s l s') (htab : TablesOk s)
    (hself : SelfDel s l) (h : HandoverOk s) : HandoverOk s' := by
  cases ht with
  | moves _ _ k' pc' n hm hpc =>
    exact h.of_handsOver hm.sameTasks.tcbList hpc (hm.handsOver htab.wf htab.task)
  | tick k' n hm time =>
    have hk := h.of_handsOver hm.sameTasks.tcbList (fun t => (rfl : (s.pc t).waits = (s.pc t).waits))
      (hm.handsOver htab.wf htab.task)
    have hwf : { k' with time : Kernel }.Wf :=
      (hm.wf htab.wf).of_rest _ rfl rfl rfl rfl rfl rfl rfl
    have hidle : { k' with time : Kernel }.IdleLast := hm.idleLast htab.wf htab.idleLast
    refine hk.of_quiet _ s.pc ?_ ?_
    · intro t hnot
      rw [hwf.tick_frame.1.tcbList] at hnot
      exact hk.free t hnot
    · intro t
      by_cases hmem : t ∈ k'.tcbList
      · rw [hwf.tick_tcb hidle hmem]
        have hold : t ∈ s.kernel.tcbList := hm.sameTasks.tcbList ▸ hmem
        apply inFlight_ticked hwf hmem
        exact (hm.taskOk htab.wf hold (htab.task t hold)).of_type fun _ _ => rfl
      · rw [hk.free t hmem]
        rfl
  | sched _ _ running intNesting lockNesting prioCur prioHighRdy tcbCur pc' hpc =>
    refine h.of_quiet _ pc' ?_ ?_
    · intro t hnot
      rw [hpc]
      exact h.free t hnot
    · intro t
      rw [hpc]
  | wait _ kind e b timeout hcur hpc hmay hb =>
    refine h.of_cur _ (s.kernel.waitCur e b timeout) rfl rfl hcur.mem _ ?_ ?_ ?_
    · intro t hne
      rw [Function.update_of_ne hne]
    · rw [waits_curFree htab hcur]
      rfl
    · rw [Function.update_self]
      apply if_neg
      rintro ⟨h0, -⟩
      exact (EventType.stat_bits hb).1 h0
  | resume kind e msg hmem hready hpc =>
    have hw : (s.pc s.kernel.tcbCur).waits = some (kind, e) := by
      rw [show s.pc s.kernel.tcbCur = .pend kind e from hpc]
      rfl
    by_cases hok : s.kernel.cur.statPend = .ok
    · rw [if_pos hok]
      refine ⟨?_, ?_⟩
      · intro t hnot
        have hne : t ≠ s.kernel.tcbCur := fun heq => hnot (heq ▸ hmem)
        dsimp only
        rw [Function.update_of_ne hne]
        exact h.free t hnot
      · intro t
        dsimp only
        rw [handedTo_append, returnedBy_append, h.law t]
        by_cases heq : t = s.kernel.tcbCur
        · have hold : inFlight (s.pc t).waits (s.kernel.tcb t) = [(e, s.kernel.cur.msg)] := by
            rw [heq, hw]
            exact if_pos ⟨hready.1, hok⟩
          rw [hold, heq, Function.update_self]
          simp [handedTo, returnedBy, inFlight, TaskPc.waits]
        · have htcb : (s.kernel.resumeCur e msg).tcb t = s.kernel.tcb t :=
            Function.update_of_ne heq _ _
          rw [Function.update_of_ne heq, htcb]
          simp [handedTo, returnedBy, Ne.symm heq]
    · rw [if_neg hok]
      refine h.of_cur _ (s.kernel.resumeCur e msg) rfl rfl hmem _ ?_ ?_ ?_
      · intro t hne
        rw [Function.update_of_ne hne]
      · rw [hw]
        exact if_neg fun h0 => hok h0.2
      · rw [Function.update_self]
        rfl
  | delay ticks hcur hpos pc' hpc =>
    refine h.of_cur _ (s.kernel.delayCur ticks) rfl rfl hcur.mem pc' (fun t _ => hpc t) ?_ ?_
    · rw [waits_curFree htab hcur]
      rfl
    · rw [hpc, waits_curFree htab hcur]
      rfl
  | addTask _ prio t free hfree hslot pc' hnew hpc =>
    have hfresh : t ∉ s.kernel.tcbList := by
      intro hmem
      have hnodup := htab.wf.nodup
      rw [hfree] at hnodup
      exact (List.nodup_append'.mp hnodup).2.2 hmem List.mem_cons_self
    refine h.of_quiet _ pc' ?_ ?_
    · intro t' hnot
      have hnot' := List.mem_cons.not.mp hnot
      rw [not_or] at hnot'
      rw [hpc t' hnot'.1]
      exact h.free t' hnot'.2
    · intro t'
      by_cases heq : t' = t
      · rw [heq, hnew, h.free t hfresh]
        rfl
      · have htcb : (s.kernel.addTask prio t free).tcb t' = s.kernel.tcb t' :=
          Function.update_of_ne heq _ _
        rw [htcb, hpc t' heq]
  | dropTask prio t hmem hfree hprio hidle pc' hpc =>
    -- The task has deleted itself, in its own code.
    have hcur : (s.pc t).waits = none := by
      have hsame := htab.wf.eq_of_prio hmem hfree.mem (hprio.trans hself)
      rw [hsame]
      exact waits_curFree htab hfree
    have hnodup := (List.nodup_append'.mp htab.wf.nodup).1
    refine h.of_quiet _ pc' ?_ ?_
    · intro t' hnot
      rw [hpc]
      by_cases heq : t' = t
      · rw [heq, hcur]
      · exact h.free t' fun hin => hnot (hnodup.mem_erase_iff.mpr ⟨heq, hin⟩)
    · intro t'
      rw [hpc]
      by_cases heq : t' = t
      · rw [heq, hcur]
        rfl
      · have htcb : (s.kernel.dropTask t).tcb t' = s.kernel.tcb t' := Function.update_of_ne heq _ _
        rw [htcb]

end Runs

/-- The calls of a run are valid, and tasks delete only themselves. -/
def RunOk (s : OsSystem) (l : OsLabel) : Prop := CallOk s l ∧ SelfDel s l

/-- **What is handed over is returned, once and in order.**  After every run from the boot in which
    tasks delete only themselves, the calls of a task have returned what was handed to it, in the
    order in which it was, but for what a pend that is over has still to return. -/
theorem handed_eq_returned {s : OsSystem} {ls : List OsLabel} (hok : Along osStep RunOk osBoot ls)
    (hrun : run osStep osBoot ls = some s) (t : TcbId) :
    handedTo t s.log = returnedBy t s.log ++ inFlight (s.pc t).waits (s.kernel.tcb t) := by
  have hboot : HandoverOk osBoot := ⟨fun _ _ => rfl, fun _ => rfl⟩
  have hstep : ∀ (s : OsSystem) (l : OsLabel) (s' : OsSystem), s.Inv ∧ HandoverOk s → RunOk s l →
      osStep s l = some s' → s'.Inv ∧ HandoverOk s' := fun _ _ _ hinv hok hs =>
    ⟨hinv.1.step hok.1 hs,
      (osStep_transition hinv.1 hok.1 hs).handoverOk hinv.1.tablesOk hok.2 hinv.2⟩
  exact (run_invariant hstep ls _ _ ⟨osBoot_inv, hboot⟩ hok hrun).2.law t

/-- The task of `waitRun` gets a unit from an interrupt and goes on. -/
def wakeRun : List OsLabel :=
  waitRun ++ [.sched, .intEnter, .isr (.semPost 2), .intExit, .resume]

theorem handed_eq_returned_wakeRun :
    handedTo 3 (runEnd osStep osBoot wakeRun).log = [(2, 0)] ∧
      returnedBy 3 (runEnd osStep osBoot wakeRun).log = [(2, 0)] := by
  have hok : Along osStep RunOk osBoot wakeRun :=
    along_of_forall (fun s l hl => by
      simp only [wakeRun, waitRun, List.cons_append, List.nil_append, List.mem_cons,
        List.not_mem_nil, or_false] at hl
      rcases hl with rfl | rfl | rfl | rfl | rfl | rfl | rfl | rfl | rfl <;>
        exact ⟨trivial, trivial⟩) _
  have hlaw := handed_eq_returned hok (run_eq_runEnd (by decide +kernel)) 3
  have hdone : inFlight ((runEnd osStep osBoot wakeRun).pc 3).waits
      ((runEnd osStep osBoot wakeRun).kernel.tcb 3) = [] := by decide +kernel
  rw [hdone, List.append_nil] at hlaw
  have hhanded : handedTo 3 (runEnd osStep osBoot wakeRun).log = [(2, 0)] := by decide +kernel
  exact ⟨hhanded, hlaw.symm.trans hhanded⟩

end SerialNet
