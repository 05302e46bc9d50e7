import SerialNet.Kernel.Handover

namespace SerialNet

/-!
# Delays and timeouts

A task that is delayed or waits changes only by ticks until something is handed to it or it is
deleted.  So `OSTimeDly` and the timeout of a pend are over at exactly the tick that they were set
to, whatever else the other tasks and the interrupts do meanwhile.
-/

/-- The task cannot run. -/
def OsTcb.Blocked (c : OsTcb) : Prop := c.stat ≠ osStatRdy ∨ c.dly ≠ 0

/-- A blocked task is not ready. -/
theorem OsTcb.Blocked.not_ready {c : OsTcb} (h : c.Blocked) : ¬ c.Ready :=
  fun hr => h.elim (fun h0 => h0 hr.1) fun h0 => h0 hr.2

/-- A step that counts all delays down. -/
def OsLabel.isTick : OsLabel → Bool
  | .isr .timeTick => true
  | _ => false

/-- No other step counts the delays down. -/
theorem OsLabel.isTick_of_ne {l : OsLabel} (hl : l ≠ .isr .timeTick) : l.isTick = false := by
  unfold isTick
  split
  · exact absurd rfl hl
  · rfl

/-- The step is no `OSTaskDel` for the task `t`. -/
def Spares (t : TcbId) (s : OsSystem) : OsLabel → Prop
  | .call (.taskDel prio) => prio.getD s.kernel.cur.prio ≠ (s.kernel.tcb t).prio
  | _ => True

/-- The calls of a run are valid, and none deletes the task `t`. -/
def SparesOk (t : TcbId) (s : OsSystem) (l : OsLabel) : Prop := CallOk s l ∧ Spares t s l

/-- The number of ticks in a run. -/
def tickCount (ls : List OsLabel) : ℕ := ls.countP OsLabel.isTick

/-- A tick before the last one of a delay. -/
theorem ticked_of_lt {c : OsTcb} (h : 1 < c.dly) : c.ticked = { c with dly := c.dly - 1 } := by
  have hdly : c.dly ≠ 0 := by omega
  have hmore : c.dly - 1 ≠ 0 := by omega
  rw [OsTcb.ticked, if_pos hdly, Kernel.tickTcb, if_neg hmore]

namespace Kernel

variable {k k' : Kernel} {n : List Note} {t : TcbId}

/-- A move changes a task only if it hands something to it. -/
theorem Move.tcb_eq (hm : k.Move k' n) (hno : handedTo t n = []) : k'.tcb t = k.tcb t := by
  cases hm with
  | hand e msg _ _ _ hnotes =>
    apply Function.update_of_ne
    rintro rfl
    rw [hnotes] at hno
    simp [handedTo] at hno
  | release e =>
    apply Function.update_of_ne
    rintro rfl
    simp [handedTo] at hno
  | give | take | put | get | flush | semNew | qNew | semFree | qFree => rfl

/-- A service call that hands a task nothing leaves its control block alone. -/
theorem Moves.tcb_eq (hm : Moves k k' n) (hno : handedTo t n = []) : k'.tcb t = k.tcb t := by
  induction hm with
  | nil => rfl
  | cons hmove _ ih =>
    rw [handedTo_append, List.append_eq_nil_iff] at hno
    exact (ih hno.2).trans (hmove.tcb_eq hno.1)

/-- The last tick of a delay makes the task ready, and tells a pend that its time was over. -/
theorem Wf.ticked_last (h : k.Wf) (ht : t ∈ k.tcbList) (hdly : (k.tcb t).dly = 1) :
    (k.tcb t).ticked.Ready ∧
      ((k.tcb t).ticked.statPend = .timeout ↔ (k.tcb t).stat ≠ osStatRdy) := by
  have hnz : (k.tcb t).dly ≠ 0 := by
    rw [hdly]
    exact one_ne_zero
  have hzero : (tickTcb (k.tcb t)).dly = 0 := by
    rw [tickTcb, hdly, if_pos rfl]
    split
    · rfl
    · rfl
  obtain ⟨-, -, -, hready, -⟩ := h.tickTcb_spec ht hnz
  rw [OsTcb.ticked, if_pos hnz]
  refine ⟨⟨hready hzero, hzero⟩, ?_⟩
  rw [tickTcb, hdly, if_pos rfl]
  rcases h.stat t ht with h0 | ⟨e, -, hty⟩
  · rw [h0]
    simp [osStatRdy]
  · obtain ⟨hne, -, hany, -⟩ := EventType.stat_bits hty
    rw [if_pos hany]
    exact iff_of_true rfl hne

end Kernel

section Steps

variable {s s' : OsSystem} {t : TcbId} {l : OsLabel}

/-- The log only grows. -/
theorem OsTransition.log_append (ht : OsTransition s l s') : ∃ n, s'.log = s.log ++ n := by
  cases ht with
  | moves _ _ _ _ n => exact ⟨n, rfl⟩
  | tick _ n => exact ⟨n, rfl⟩
  | sched | wait | delay | addTask | dropTask => exact ⟨[], (List.append_nil _).symm⟩
  | resume =>
    dsimp only
    split
    · exact ⟨_, rfl⟩
    · exact ⟨[], (List.append_nil _).symm⟩

/-- **A task that cannot run** changes only by ticks, as long as nothing is handed to it and it is
    not deleted. -/
theorem OsTransition.blocked (htr : OsTransition s l s') (htab : TablesOk s)
    (hspare : Spares t s l) (ht : t ∈ s.kernel.tcbList) (hb : (s.kernel.tcb t).Blocked)
    (hno : handedTo t s'.log = handedTo t s.log) :
    t ∈ s'.kernel.tcbList ∧ s'.kernel.tcb t =
      if l.isTick then (s.kernel.tcb t).ticked else s.kernel.tcb t := by
  have hnone : ∀ n, handedTo t (s.log ++ n) = handedTo t s.log → handedTo t n = [] := by
    intro n hn
    rw [handedTo_append] at hn
    exact List.append_right_eq_self.mp hn
  have hcurNe : s.kernel.cur.Ready → t ≠ s.kernel.tcbCur := by
    rintro hready rfl
    exact hb.not_ready hready
  cases htr with
  | moves _ hl k' pc' n hm =>
    rw [OsLabel.isTick_of_ne hl]
    refine ⟨?_, hm.tcb_eq (hnone n hno)⟩
    dsimp only
    rw [hm.sameTasks.tcbList]
    exact ht
  | tick k' n hm time =>
    have hwf : { k' with time : Kernel }.Wf :=
      (hm.wf htab.wf).of_rest _ rfl rfl rfl rfl rfl rfl rfl
    have hidle : { k' with time : Kernel }.IdleLast := hm.idleLast htab.wf htab.idleLast
    have hmem : t ∈ k'.tcbList := by
      rw [hm.sameTasks.tcbList]
      exact ht
    refine ⟨?_, ?_⟩
    · dsimp only
      rw [hwf.tick_frame.1.tcbList]
      exact hmem
    · dsimp only
      rw [hwf.tick_tcb hidle hmem]
      exact congrArg OsTcb.ticked (hm.tcb_eq (hnone n hno))
  | sched _ hl =>
    rw [OsLabel.isTick_of_ne hl]
    exact ⟨ht, rfl⟩
  | wait _ kind e b timeout hcur =>
    exact ⟨ht, Function.update_of_ne (hcurNe hcur.ready) _ _⟩
  | resume kind e msg hmem hready =>
    exact ⟨ht, Function.update_of_ne (hcurNe hready) _ _⟩
  | delay n hcur =>
    exact ⟨ht, Function.update_of_ne (hcurNe hcur.ready) _ _⟩
  | addTask _ prio t' free hfree =>
    have hne : t ≠ t' := by
      rintro rfl
      have hnodup := htab.wf.nodup
      rw [hfree] at hnodup
      exact (List.nodup_append'.mp hnodup).2.2 ht List.mem_cons_self
    exact ⟨List.mem_cons_of_mem t' ht, Function.update_of_ne hne _ _⟩
  | dropTask prio t' hmem hcur hprio =>
    have hne : t ≠ t' := by
      rintro rfl
      exact hspare hprio.symm
    have hnodup := (List.nodup_append'.mp htab.wf.nodup).1
    exact ⟨hnodup.mem_erase_iff.mpr ⟨hne, ht⟩, Function.update_of_ne hne _ _⟩

/-- The log only grows. -/
theorem osRun_log_append : ∀ {ls : List OsLabel} {s s' : OsSystem}, s.Inv →
    Along osStep CallOk s ls → run osStep s ls = some s' → ∃ n, s'.log = s.log ++ n
  | [], s, s', _, _, hrun => by
    obtain rfl := Option.some.inj hrun
    exact ⟨[], (List.append_nil _).symm⟩
  | l :: ls, s, s', h, hok, hrun => by
    rw [run_cons, Option.bind_eq_some_iff] at hrun
    obtain ⟨s1, hs1, hrun⟩ := hrun
    obtain ⟨n, hn⟩ := (osStep_transition h hok.1 hs1).log_append
    obtain ⟨n', hn'⟩ := osRun_log_append (h.step hok.1 hs1) (hok.2 s1 hs1) hrun
    exact ⟨n ++ n', by rw [hn', hn, List.append_assoc]⟩

/-- A run that spares a task is a run of valid calls. -/
theorem SparesOk.calls {ls : List OsLabel} (hok : Along osStep (SparesOk t) s ls) :
    Along osStep CallOk s ls := hok.mono fun _ _ h => h.1

/-- If nothing is handed over in a run, nothing is in its first step nor behind it. -/
theorem handedTo_split {s1 : OsSystem} {n n' : List Note} (hn : s1.log = s.log ++ n)
    (hn' : s'.log = s1.log ++ n') (hno : handedTo t s'.log = handedTo t s.log) :
    handedTo t s1.log = handedTo t s.log ∧ handedTo t s'.log = handedTo t s1.log := by
  rw [hn', hn, handedTo_append, handedTo_append, List.append_assoc] at hno
  have hnil := List.append_eq_nil_iff.mp (List.append_right_eq_self.mp hno)
  refine ⟨?_, ?_⟩
  · rw [hn, handedTo_append, hnil.1, List.append_nil]
  · rw [hn', handedTo_append, hnil.2, List.append_nil]

/-- Before the last tick of its delay a task cannot run; without a delay it waits for ever. -/
theorem blocked_run : ∀ {ls : List OsLabel} {s s' : OsSystem}, s.Inv →
    Along osStep (SparesOk t) s ls → run osStep s ls = some s' → t ∈ s.kernel.tcbList →
    (s.kernel.tcb t).Blocked → handedTo t s'.log = handedTo t s.log →
    ((s.kernel.tcb t).dly = 0 ∨ tickCount ls < (s.kernel.tcb t).dly) →
    s'.Inv ∧ t ∈ s'.kernel.tcbList ∧
      s'.kernel.tcb t = { s.kernel.tcb t with dly := (s.kernel.tcb t).dly - tickCount ls }
  | [], s, s', h, _, hrun, ht, _, _, _ => by
    obtain rfl := Option.some.inj hrun
    exact ⟨h, ht, rfl⟩
  | l :: ls, s, s', h, hok, hrun, ht, hb, hno, hlt => by
    rw [run_cons, Option.bind_eq_some_iff] at hrun
    obtain ⟨s1, hs1, hrun⟩ := hrun
    have htr := osStep_transition h hok.1.1 hs1
    have h1 := h.step hok.1.1 hs1
    obtain ⟨n, hn⟩ := htr.log_append
    obtain ⟨n', hn'⟩ := osRun_log_append h1 (SparesOk.calls (hok.2 s1 hs1)) hrun
    obtain ⟨hno1, hno'⟩ := handedTo_split hn hn' hno
    obtain ⟨ht1, htcb⟩ := htr.blocked h.tablesOk hok.1.2 ht hb hno1
    rw [tickCount] at hlt ⊢
    by_cases hl : l.isTick = true
    · rw [if_pos hl] at htcb
      rw [List.countP_cons_of_pos hl, ← tickCount] at hlt ⊢
      rcases hlt with hzero | hlt
      · have hsame : (s.kernel.tcb t).ticked = s.kernel.tcb t := if_neg (not_not.mpr hzero)
        rw [hsame] at htcb
        obtain ⟨h', ht', heq⟩ := blocked_run h1 (hok.2 s1 hs1) hrun ht1 (htcb ▸ hb) hno'
          (.inl (htcb ▸ hzero))
        refine ⟨h', ht', ?_⟩
        rw [heq, htcb, hzero]
        simp
      · rw [ticked_of_lt (by omega)] at htcb
        have hb1 : (s1.kernel.tcb t).Blocked := by
          rw [htcb]
          right
          dsimp only
          omega
        obtain ⟨h', ht', heq⟩ := blocked_run h1 (hok.2 s1 hs1) hrun ht1 hb1 hno'
          (.inr (by rw [htcb]; dsimp only; omega))
        refine ⟨h', ht', ?_⟩
        rw [heq, htcb]
        dsimp only
        rw [Nat.sub_sub, Nat.add_comm 1]
    · rw [if_neg hl] at htcb
      rw [List.countP_cons_of_neg hl, ← tickCount] at hlt ⊢
      rw [← htcb] at hb hlt ⊢
      exact blocked_run h1 (hok.2 s1 hs1) hrun ht1 hb hno' hlt

end Steps

/-- **A delay or timeout is over at its tick.**  Take any run from a reachable state in which
    nothing is handed to a task that cannot run, and in which nobody deletes it.  Before the last
    tick of its delay the task is as at the start but for the ticks; at the tick it can run, and a
    pend knows that its time was over.  Without a delay the task waits all the time. -/
theorem wakes_at_its_tick {s s' : OsSystem} {t : TcbId} {ls : List OsLabel} (h : OsReachable s)
    (ht : t ∈ s.kernel.tcbList) (hb : (s.kernel.tcb t).Blocked)
    (hok : Along osStep (SparesOk t) s ls) (hrun : run osStep s ls = some s')
    (hno : handedTo t s'.log = handedTo t s.log) :
    ((s.kernel.tcb t).dly = 0 ∨ tickCount ls < (s.kernel.tcb t).dly →
        s'.kernel.tcb t = { s.kernel.tcb t with dly := (s.kernel.tcb t).dly - tickCount ls }) ∧
      (∀ ks, ls = ks ++ [.isr .timeTick] → tickCount ls = (s.kernel.tcb t).dly →
        (s'.kernel.tcb t).Ready ∧ ((s'.kernel.tcb t).statPend = .timeout ↔
          (s.kernel.tcb t).stat ≠ osStatRdy)) := by
  refine ⟨fun hlt => (blocked_run h.inv hok hrun ht hb hno hlt).2.2, ?_⟩
  rintro ks rfl hticks
  rw [run_append, Option.bind_eq_some_iff] at hrun
  obtain ⟨s1, hs1, hlast⟩ := hrun
  rw [run_singleton] at hlast
  rw [along_append] at hok
  have hokLast := (hok.2 s1 hs1).1
  have hcount : tickCount ks + 1 = (s.kernel.tcb t).dly := by
    rw [← hticks, tickCount, tickCount, List.countP_append]
    rfl
  obtain ⟨n, hn⟩ := osRun_log_append h.inv (SparesOk.calls hok.1) hs1
  have hinv1 : s1.Inv := run_invariant (fun _ _ _ hinv hok hs => hinv.step hok.1 hs) ks _ _ h.inv
    hok.1 hs1
  have htr := osStep_transition hinv1 hokLast.1 hlast
  obtain ⟨n', hn'⟩ := htr.log_append
  obtain ⟨hno1, hno'⟩ := handedTo_split hn hn' hno
  obtain ⟨-, ht1, htcb⟩ := blocked_run h.inv hok.1 hs1 ht hb hno1 (.inr (by omega))
  have hdly1 : (s1.kernel.tcb t).dly = 1 := by
    rw [htcb]
    dsimp only
    omega
  have hb1 : (s1.kernel.tcb t).Blocked := .inr (by rw [hdly1]; exact one_ne_zero)
  obtain ⟨-, hend⟩ := htr.blocked hinv1.tablesOk hokLast.2 ht1 hb1 hno'
  have hstat : (s1.kernel.tcb t).stat = (s.kernel.tcb t).stat := by rw [htcb]
  rw [hend, ← hstat]
  exact hinv1.wf.ticked_last ht1 hdly1

/-- The pend of `waitRun` has a timeout of five ticks. -/
def fiveTicks : List OsLabel :=
  [.sched, .intEnter, .isr .timeTick, .isr .timeTick, .isr .timeTick, .isr .timeTick,
    .isr .timeTick]

theorem wakes_at_its_tick_waitRun :
    ((runEnd osStep (runEnd osStep osBoot waitRun) fiveTicks).kernel.tcb 3).Ready := by
  have hok : Along osStep (SparesOk 3) (runEnd osStep osBoot waitRun) fiveTicks :=
    along_of_forall (fun s l hl => by
      simp only [fiveTicks, List.mem_cons, List.not_mem_nil, or_false] at hl
      rcases hl with rfl | rfl | rfl | rfl | rfl | rfl | rfl <;> exact ⟨trivial, trivial⟩) _
  exact ((wakes_at_its_tick waitRun_reachable (by decide +kernel) (.inl (by decide +kernel)) hok
    (run_eq_runEnd (by decide +kernel)) (by decide +kernel)).2
      [.sched, .intEnter, .isr .timeTick, .isr .timeTick, .isr .timeTick, .isr .timeTick] rfl
      (by decide +kernel)).1

end SerialNet
