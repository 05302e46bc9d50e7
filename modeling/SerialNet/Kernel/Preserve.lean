import SerialNet.Kernel.Moves

namespace SerialNet

open PrioTable

/-!
# The tables are kept

Changes of one task are instances of `Wf.of_task`, those of events or queues only of `Wf.of_event`,
and a task that comes or goes is treated for itself.  The tick is an induction over the list of the
tasks.  `Move.wf` puts together what concerns the moves.
-/

/-! ### States after a change -/

/-- A task that is woken can run. -/
theorem OsTcb.readied_ready (c : OsTcb) (msg : ℕ) : (c.readied msg).Ready := ⟨rfl, rfl⟩

/-- A task whose pend is over does not wait. -/
theorem OsTcb.not_waitsOn_of_ok {c : OsTcb} (hstat : c.stat = osStatRdy) (hok : c.statPend = .ok)
    (e : EventId) : ¬ c.WaitsOn e := by
  rintro ⟨-, hne | ht⟩
  · exact hne hstat
  · rw [hok] at ht
    cases ht

/-- A task waits on one event only. -/
theorem OsTcb.not_waitsOn_of_ne {c : OsTcb} {e e' : EventId} (he : c.eventPtr = some e)
    (hne : e' ≠ e) : ¬ c.WaitsOn e' := by
  rintro ⟨he', -⟩
  exact hne (Option.some.inj (he'.symm.trans he))

/-- A task without an event does not wait. -/
theorem OsTcb.not_waitsOn_of_none {c : OsTcb} (he : c.eventPtr = none) (e : EventId) :
    ¬ c.WaitsOn e := by
  rintro ⟨he', -⟩
  rw [he] at he'
  cases he'

/-- An event with nothing to take may be waited on. -/
theorem PendKind.not_noWait {kind : PendKind} {ev : OsEvent} (hty : ev.type = kind.type)
    (hsem : kind = .sem → ev.cnt = 0) : ¬ ev.NoWait := by
  rw [OsEvent.NoWait, hty]
  cases kind with
  | sem => simp [PendKind.type, hsem rfl]
  | q => simp [PendKind.type]

namespace Kernel

variable {k k' : Kernel} {t : TcbId} {e : EventId} {p : Prio} {P : OsTcb → Prop}

/-! ### Moves of one task -/

/-- To wake the first waiter keeps the tables in order. -/
theorem Wf.readyFirst (h : k.Wf) (hne : (k.event e).tbl.grp ≠ 0) (msg : ℕ) :
    (k.readyFirst e msg).Wf := by
  obtain ⟨ht, -, hwt, -⟩ := h.firstWaiter_spec hne
  have hnot : ∀ e', ¬ ((k.tcb (k.firstWaiter e)).readied msg).WaitsOn e' :=
    OsTcb.not_waitsOn_of_ok rfl rfl
  refine h.of_task (k.readyFirst e msg) ht rfl rfl rfl rfl rfl ?_ ?_ ?_ rfl (.inl rfl) ?_ ?_
  · exact h.represents_set _ ht rfl rfl h.rdy (OsTcb.readied_ready _ _)
  · intro e'
    by_cases heq : e' = e
    · rw [heq]
      simp only [Kernel.readyFirst, Function.update_self]
      exact h.represents_clear (k.readyFirst e msg) ht rfl rfl (h.wait e) (hnot e)
    · simp only [Kernel.readyFirst, Function.update_of_ne heq]
      apply h.represents_keep (k.readyFirst e msg) ht rfl rfl (h.wait e')
      exact iff_of_false (hnot e') (OsTcb.not_waitsOn_of_ne hwt.1 heq)
  · intro e'
    by_cases heq : e' = e
    · rw [heq]
      simp [Kernel.readyFirst]
    · simp [Kernel.readyFirst, Function.update_of_ne heq]
  · intro hdly
    exact absurd rfl hdly
  · intro e' he'
    exact absurd he' (hnot e')

/-- To make the running task wait keeps the tables in order. -/
theorem Wf.waitCur (h : k.Wf) (hcur : k.CurFree) {b : BitVec 8} (timeout : ℕ)
    (hty : (k.event e).type.stat = some b) (hwait : ¬ (k.event e).NoWait) :
    (k.waitCur e b timeout).Wf := by
  have hb := (EventType.stat_bits hty).1
  refine h.of_task (k.waitCur e b timeout) hcur.mem rfl rfl rfl rfl rfl ?_ ?_ ?_ rfl
    (.inr ⟨e, rfl, hty⟩) ?_ ?_
  · apply h.represents_clear (k.waitCur e b timeout) hcur.mem rfl rfl h.rdy
    intro hready
    exact hb hready.1
  · intro e'
    by_cases heq : e' = e
    · rw [heq]
      simp only [Kernel.waitCur, Function.update_self]
      exact h.represents_set (k.waitCur e b timeout) hcur.mem rfl rfl (h.wait e)
        ⟨rfl, .inl hb⟩
    · simp only [Kernel.waitCur, Function.update_of_ne heq]
      apply h.represents_keep (k.waitCur e b timeout) hcur.mem rfl rfl (h.wait e')
      exact iff_of_false (OsTcb.not_waitsOn_of_ne rfl heq)
        (OsTcb.not_waitsOn_of_none hcur.eventPtr e')
  · intro e'
    by_cases heq : e' = e
    · rw [heq]
      simp [Kernel.waitCur]
    · simp [Kernel.waitCur, Function.update_of_ne heq]
  · intro _ hstat
    exact absurd hstat hb
  · intro e' he'
    obtain rfl := Option.some.inj he'.1
    exact .inr hwait

/-- To return from a pend keeps the tables in order. -/
theorem Wf.resumeCur (h : k.Wf) (hmem : k.tcbCur ∈ k.tcbList) (hready : k.cur.Ready)
    (heq : k.cur.eventPtr = some e) (msg : ℕ) : (k.resumeCur e msg).Wf := by
  have hnot : ∀ e', ¬ (k.cur.resumed msg).WaitsOn e' := OsTcb.not_waitsOn_of_none rfl
  have hold : ∀ e', k.cur.statPend ≠ .timeout ∨ e' ≠ e → ¬ k.cur.WaitsOn e' := by
    rintro e' (hto | hne) ⟨he', hs | hs⟩
    · exact hs hready.1
    · exact hto hs
    · exact hs hready.1
    · exact hne (Option.some.inj (he'.symm.trans heq))
  refine h.of_task (k.resumeCur e msg) hmem rfl rfl rfl rfl rfl ?_ ?_ ?_ rfl (.inl rfl) ?_ ?_
  · apply h.represents_keep (k.resumeCur e msg) hmem rfl rfl h.rdy
    exact iff_of_true ⟨rfl, hready.2⟩ hready
  · intro e'
    by_cases hto : k.cur.statPend = .timeout
    · by_cases he' : e' = e
      · rw [he']
        simp only [Kernel.resumeCur, hto, if_true, Function.update_self]
        exact h.represents_clear (k.resumeCur e msg) hmem rfl rfl (h.wait e) (hnot e)
      · simp only [Kernel.resumeCur, hto, if_true, Function.update_of_ne he']
        apply h.represents_keep (k.resumeCur e msg) hmem rfl rfl (h.wait e')
        exact iff_of_false (hnot e') (hold e' (.inr he'))
    · simp only [Kernel.resumeCur, hto, if_false]
      apply h.represents_keep (k.resumeCur e msg) hmem rfl rfl (h.wait e')
      exact iff_of_false (hnot e') (hold e' (.inl hto))
  · intro e'
    simp only [Kernel.resumeCur]
    split
    · by_cases he' : e' = e
      · rw [he']
        simp
      · simp [Function.update_of_ne he']
    · exact ⟨rfl, rfl⟩
  · intro hdly
    exact absurd hready.2 hdly
  · intro e' he'
    exact absurd he' (hnot e')

/-- To make the running task sleep keeps the tables in order. -/
theorem Wf.delayCur (h : k.Wf) (hcur : k.CurFree) {ticks : ℕ} (hpos : 0 < ticks) :
    (k.delayCur ticks).Wf := by
  refine h.of_task (k.delayCur ticks) hcur.mem rfl rfl rfl rfl rfl ?_ ?_ ?_ rfl
    (.inl hcur.ready.1) ?_ ?_
  · apply h.represents_clear (k.delayCur ticks) hcur.mem rfl rfl h.rdy
    intro hready
    exact Nat.pos_iff_ne_zero.mp hpos hready.2
  · intro e'
    exact h.represents_keep (k.delayCur ticks) hcur.mem rfl rfl (h.wait e') Iff.rfl
  · exact fun _ => ⟨rfl, rfl⟩
  · exact fun _ _ => hcur.eventPtr
  · exact fun _ he' => .inl he'

/-! ### The tick -/

/-- What a tick makes of a task that has a delay. -/
theorem Wf.tickTcb_spec (h : k.Wf) (ht : t ∈ k.tcbList) (hdly : (k.tcb t).dly ≠ 0) :
    let c := tickTcb (k.tcb t)
    c.prio = (k.tcb t).prio ∧ c.eventPtr = (k.tcb t).eventPtr ∧
      (∀ e, c.WaitsOn e ↔ (k.tcb t).WaitsOn e) ∧
      (c.dly = 0 → c.stat = osStatRdy) ∧ (c.dly ≠ 0 → c.stat = (k.tcb t).stat) := by
  have hstat := h.stat t ht
  have hdelayed := h.delayed t ht hdly
  unfold tickTcb
  split
  · split
    · rename_i hany
      obtain ⟨e, he, hty⟩ := hstat.resolve_left fun h0 => hany (by rw [h0]; rfl)
      obtain ⟨hne, -, -, hclear⟩ := EventType.stat_bits hty
      refine ⟨rfl, rfl, ?_, fun _ => hclear, fun h0 => absurd rfl h0⟩
      intro e'
      simp [OsTcb.WaitsOn, hne]
    · rename_i hany
      have hrdy : (k.tcb t).stat = osStatRdy := by
        rcases hstat with h0 | ⟨e, -, hty⟩
        · exact h0
        · exact absurd (EventType.stat_bits hty).2.2.1 hany
      refine ⟨rfl, rfl, ?_, fun _ => hrdy, fun h0 => absurd rfl h0⟩
      intro e'
      have hnone := hdelayed hrdy
      apply iff_of_false
      · apply OsTcb.not_waitsOn_of_none
        exact hnone
      · exact OsTcb.not_waitsOn_of_none hnone e'
  · rename_i hmore
    exact ⟨rfl, rfl, fun _ => Iff.rfl, fun h0 => absurd h0 hmore, fun _ => rfl⟩

/-- The body of the loop of the tick as the change of one task. -/
theorem Wf.tickTask_eq (h : k.Wf) (ht : t ∈ k.tcbList) :
    tickTask k t = { k with
      tcb := Function.update k.tcb t (k.tcb t).ticked
      rdy := if (k.tcb t).dly ≠ 0 ∧ (k.tcb t).ticked.dly = 0 then k.rdy.set (k.tcb t).prio
        else k.rdy } := by
  unfold tickTask OsTcb.ticked
  by_cases hdly : (k.tcb t).dly = 0
  · rw [if_neg (not_not.mpr hdly), if_neg (not_not.mpr hdly), if_neg fun h0 => h0.1 hdly,
      Function.update_eq_self]
  · obtain ⟨hprio, -, -, hstat, -⟩ := h.tickTcb_spec ht hdly
    by_cases h0 : (tickTcb (k.tcb t)).dly = 0
    · have hstat0 : (tickTcb (k.tcb t)).stat &&& osStatSuspend = osStatRdy := by
        rw [hstat h0]
        rfl
      simp only [ne_eq, hdly, not_false_eq_true, if_true, setTcb, h0, hstat0, hprio,
        and_self]
    · simp only [ne_eq, hdly, not_false_eq_true, if_true, true_and, setTcb, h0, false_and, if_false]

/-- To count one task down keeps the tables in order. -/
theorem Wf.tickTask (h : k.Wf) (ht : t ∈ k.tcbList) : (tickTask k t).Wf := by
  rw [h.tickTask_eq ht]
  by_cases hdly : (k.tcb t).dly = 0
  · have hsame : (k.tcb t).ticked = k.tcb t := if_neg (not_not.mpr hdly)
    rw [hsame, Function.update_eq_self, if_neg fun h0 => h0.1 hdly]
    exact h
  · have hc : (k.tcb t).ticked = tickTcb (k.tcb t) := if_pos hdly
    rw [hc]
    obtain ⟨hprio, hptr, hwaits, hstat, hkeep⟩ := h.tickTcb_spec ht hdly
    refine h.of_task _ ht rfl rfl rfl rfl hprio ?_ ?_ (fun _ => ⟨rfl, rfl⟩) rfl ?_ ?_ ?_
    · have hold : ¬ (k.tcb t).Ready := fun hr => hdly hr.2
      by_cases h0 : (tickTcb (k.tcb t)).dly = 0
      · simp only [if_pos (And.intro hdly h0)]
        exact h.represents_set _ ht rfl rfl h.rdy ⟨hstat h0, h0⟩
      · simp only [if_neg fun h1 : (k.tcb t).dly ≠ 0 ∧ (tickTcb (k.tcb t)).dly = 0 => h0 h1.2]
        refine h.represents_keep _ ht rfl rfl h.rdy ?_
        exact iff_of_false (fun hr => h0 hr.2) hold
    · intro e
      exact h.represents_keep _ ht rfl rfl (h.wait e) (hwaits e)
    · by_cases h0 : (tickTcb (k.tcb t)).dly = 0
      · exact .inl (hstat h0)
      · rw [StatOk, hkeep h0, hptr]
        exact h.stat t ht
    · intro h0 hs
      rw [hkeep h0] at hs
      rw [hptr]
      exact h.delayed t ht hdly hs
    · exact fun e he => .inl ((hwaits e).mp he)

/-- A tick changes no priority. -/
theorem ticked_prio (c : OsTcb) : c.ticked.prio = c.prio := by
  unfold OsTcb.ticked tickTcb
  repeat' split
  all_goals rfl

/-- The loop of the tick changes the tasks and the ready list only. -/
theorem Wf.tickLoop (h : k.Wf) (l : List TcbId) (hl : ∀ t ∈ l, t ∈ k.tcbList) :
    (tickLoop k l).Wf ∧ ∃ tcb rdy, Kernel.tickLoop k l = { k with tcb, rdy } := by
  induction l generalizing k with
  | nil => exact ⟨h, k.tcb, k.rdy, rfl⟩
  | cons t ts ih =>
    rw [Kernel.tickLoop]
    split
    · have ht := hl t List.mem_cons_self
      have heq := h.tickTask_eq ht
      have hlist : (Kernel.tickTask k t).tcbList = k.tcbList := by rw [heq]
      obtain ⟨hwf, tcb, rdy, hloop⟩ := ih (h.tickTask ht) fun t' ht' => by
        rw [hlist]
        exact hl t' (List.mem_cons_of_mem t ht')
      refine ⟨hwf, tcb, rdy, ?_⟩
      rw [hloop, heq]
    · exact ⟨h, k.tcb, k.rdy, rfl⟩

/-- The loop of the tick treats the tasks before the idle task, each of them once. -/
theorem Wf.tickLoop_tcb (h : k.Wf) (ts : List TcbId) {i : TcbId}
    (hidle : (k.tcb i).prio = osTaskIdlePrio)
    (hts : ∀ t ∈ ts, t ∈ k.tcbList ∧ (k.tcb t).prio ≠ osTaskIdlePrio) (hnodup : ts.Nodup) :
    (Kernel.tickLoop k (ts ++ [i])).tcb = fun t => if t ∈ ts then (k.tcb t).ticked else k.tcb t := by
  induction ts generalizing k with
  | nil =>
    rw [List.nil_append, Kernel.tickLoop, if_neg (not_not.mpr hidle)]
    simp
  | cons t ts ih =>
    obtain ⟨ht, hprio⟩ := hts t List.mem_cons_self
    obtain ⟨hnot, hnodup⟩ := List.nodup_cons.mp hnodup
    have heq := h.tickTask_eq ht
    have htcb : (Kernel.tickTask k t).tcb = Function.update k.tcb t (k.tcb t).ticked := by rw [heq]
    have hother : ∀ t' ≠ t, (Kernel.tickTask k t).tcb t' = k.tcb t' := by
      intro t' hne
      rw [htcb, Function.update_of_ne hne]
    rw [List.cons_append, Kernel.tickLoop, if_pos hprio, ih (h.tickTask ht) _ _ hnodup]
    · funext t'
      by_cases h' : t' = t
      · rw [h', if_neg hnot, if_pos List.mem_cons_self, htcb, Function.update_self]
      · rw [hother t' h']
        simp [h']
    · by_cases hi : i = t
      · rw [hi, htcb, Function.update_self, ticked_prio]
        rwa [hi] at hidle
      · rw [hother i hi]
        exact hidle
    · intro t' ht'
      have hne : t' ≠ t := by
        rintro rfl
        exact hnot ht'
      have hlist : (Kernel.tickTask k t).tcbList = k.tcbList := by rw [heq]
      rw [hother t' hne, hlist]
      exact hts t' (List.mem_cons_of_mem t ht')

/-- **At a tick** every task takes one step of its delay. -/
theorem Wf.tick_tcb (h : k.Wf) (hidle : k.IdleLast) (ht : t ∈ k.tcbList) :
    (Kernel.tickLoop k k.tcbList).tcb t = (k.tcb t).ticked := by
  obtain ⟨ts, i, hlist, hprio, hready, -⟩ := hidle
  have hnodup := (List.nodup_append'.mp h.nodup).1
  rw [hlist] at hnodup
  obtain ⟨hts, -, hdisj⟩ := List.nodup_append'.mp hnodup
  have hmem : ∀ t' ∈ ts ++ [i], t' ∈ k.tcbList := by
    rw [hlist]
    exact fun _ => id
  rw [hlist, h.tickLoop_tcb ts hprio _ hts]
  · rw [hlist] at ht
    rcases List.mem_append.mp ht with hin | hlast
    · exact if_pos hin
    · obtain rfl := List.mem_singleton.mp hlast
      have hsame : (k.tcb t).ticked = k.tcb t := if_neg (not_not.mpr hready.2)
      dsimp only
      rw [hsame, ite_self]
  · intro t' ht'
    have hmem' := hmem t' (List.mem_append_left _ ht')
    refine ⟨hmem', ?_⟩
    intro heq
    have hsame := h.eq_of_prio hmem' (hmem i (by simp)) (heq.trans hprio.symm)
    exact hdisj ht' (by simp [hsame])

/-! ### Moves of an event -/

/-- A change of events that readies no task. -/
theorem Wf.of_event (h : k.Wf) (k' : Kernel) (htcb : k'.tcb = k.tcb)
    (hslots : k'.prioTbl = k.prioTbl) (hlist : k'.tcbList = k.tcbList)
    (hfree : k'.tcbFreeList = k.tcbFreeList) (hrdy : k'.rdy = k.rdy)
    (htbl : ∀ e, (k'.event e).tbl = (k.event e).tbl ∨
      (k'.event e).tbl = .empty ∧ (k.event e).type = .unused)
    (hty : ∀ e, (k'.event e).type = (k.event e).type ∨ (k.event e).tbl.grp = 0)
    (hno : ∀ e, (k'.event e).NoWait → (k.event e).NoWait ∨ (k.event e).tbl.grp = 0)
    (hefree : ∀ e ∈ k'.eventFreeList, (k'.event e).type = .unused)
    (henodup : k'.eventFreeList.Nodup) : k'.Wf := by
  have hholds : ∀ P, k'.Holds P = k.Holds P := by
    intro P
    funext p
    rw [Holds, Holds, hslots, htcb]
  refine ⟨?_, ?_, ?_, ?_, ?_, ?_, ?_, ?_, hefree, henodup⟩
  · rw [hlist, hfree]
    exact h.nodup
  · rw [hslots, hlist, htcb]
    exact h.slot_iff
  · rw [hslots]
    exact h.not_reserved
  · rw [hrdy, hholds]
    exact h.rdy
  · intro e
    rw [hholds]
    rcases htbl e with hsame | ⟨hempty, hunused⟩
    · rw [hsame]
      exact h.wait e
    · rw [hempty]
      apply represents_empty.congr
      intro p
      refine iff_of_false not_false fun hp => ?_
      obtain ⟨hmem, -, hwt⟩ := h.of_holds hp
      exact h.noWait e (.inl hunused) _ hmem hwt
  · intro t ht
    rw [hlist] at ht
    rw [htcb]
    rcases h.stat t ht with h0 | ⟨e, he, hstat⟩
    · exact .inl h0
    · refine .inr ⟨e, he, ?_⟩
      rcases hty e with hsame | hgrp
      · rwa [hsame]
      · exact absurd ⟨he, .inl (EventType.stat_bits hstat).1⟩ (h.grp_eq_zero_iff.mp hgrp t ht)
  · rw [hlist, htcb]
    exact h.delayed
  · intro e he t ht
    rw [hlist] at ht
    rw [htcb]
    rcases hno e he with hold | hgrp
    · exact h.noWait e hold t ht
    · exact h.grp_eq_zero_iff.mp hgrp t ht

/-! ### Tasks that come and go -/

/-- A new task at a free priority keeps the tables in order. -/
theorem Wf.addTask (h : k.Wf) {free : List TcbId} (hfree : k.tcbFreeList = t :: free)
    (hslot : k.prioTbl p = .null) : (k.addTask p t free).Wf := by
  have hnodup := h.nodup
  rw [hfree] at hnodup
  have hnew : t ∉ k.tcbList := by
    intro hmem
    exact (List.nodup_append'.mp hnodup).2.2 hmem List.mem_cons_self
  have hprio : ∀ t' ∈ k.tcbList, (k.tcb t').prio ≠ p := by
    intro t' ht' heq
    have hp := h.slot ht'
    rw [heq, hslot] at hp
    cases hp
  have htcb : ∀ t' ∈ k.tcbList, (k.addTask p t free).tcb t' = k.tcb t' := by
    intro t' ht'
    apply Function.update_of_ne
    rintro rfl
    exact hnew ht'
  have hself : (k.addTask p t free).tcb t = ⟨p, osStatRdy, .ok, 0, none, 0⟩ :=
    Function.update_self _ _ _
  -- The task table has the new task at its priority, and is as before elsewhere.
  have hholds : ∀ (P : OsTcb → Prop) q, (k.addTask p t free).Holds P q ↔
      (q = p ∧ P ⟨p, osStatRdy, .ok, 0, none, 0⟩) ∨ k.Holds P q := by
    intro P q
    by_cases hq : q = p
    · rw [hq, Holds, Holds, Kernel.addTask]
      simp [hslot]
    · rw [Holds, Holds]
      simp only [hq, false_and, false_or]
      apply exists_congr
      intro t'
      rw [Kernel.addTask]
      dsimp only
      rw [Function.update_of_ne hq]
      apply and_congr_right
      intro ht'
      have hmem := ((h.slot_iff _ _).mp ht').1
      rw [Function.update_of_ne]
      rintro rfl
      exact hnew hmem
  refine ⟨?_, ?_, ?_, ?_, ?_, ?_, ?_, ?_, h.eventFree, h.eventFree_nodup⟩
  · have hperm : (t :: k.tcbList ++ free).Perm (k.tcbList ++ t :: free) :=
      List.perm_middle.symm
    exact hperm.nodup_iff.mpr hnodup
  · intro q t'
    by_cases ht' : t' = t
    · rw [ht', hself]
      by_cases hq : q = p
      · rw [hq]
        simp [Kernel.addTask]
      · refine iff_of_false ?_ fun hp => hq hp.2.symm
        rw [Kernel.addTask]
        dsimp only
        rw [Function.update_of_ne hq, h.slot_iff]
        exact fun hp => hnew hp.1
    · have hmem : t' ∈ (k.addTask p t free).tcbList ↔ t' ∈ k.tcbList := by
        simp [Kernel.addTask, ht']
      have hsame : (k.addTask p t free).tcb t' = k.tcb t' := Function.update_of_ne ht' _ _
      rw [hmem, hsame, ← h.slot_iff, Kernel.addTask]
      dsimp only
      by_cases hq : q = p
      · rw [hq, Function.update_self, hslot]
        refine iff_of_false (fun h0 => ht' (PrioSlot.tcb.inj h0).symm) ?_
        intro h0
        cases h0
      · rw [Function.update_of_ne hq]
  · intro q
    rw [Kernel.addTask]
    dsimp only
    by_cases hq : q = p
    · rw [hq, Function.update_self]
      exact PrioSlot.noConfusion
    · rw [Function.update_of_ne hq]
      exact h.not_reserved q
  · apply (h.rdy.set p).congr
    intro q
    rw [hholds]
    exact or_congr_left (iff_self_and.mpr fun _ => ⟨rfl, rfl⟩)
  · intro e
    apply (h.wait e).congr
    intro q
    rw [hholds, or_iff_right]
    rintro ⟨-, hwt⟩
    exact OsTcb.not_waitsOn_of_none rfl e hwt
  · intro t' ht'
    rcases List.mem_cons.mp ht' with heq | hmem
    · rw [heq, hself]
      exact .inl rfl
    · rw [htcb t' hmem]
      exact h.stat t' hmem
  · intro t' ht'
    rcases List.mem_cons.mp ht' with heq | hmem
    · rw [heq, hself]
      exact fun _ _ => rfl
    · rw [htcb t' hmem]
      exact h.delayed t' hmem
  · intro e he t' ht'
    rcases List.mem_cons.mp ht' with heq | hmem
    · rw [heq, hself]
      exact OsTcb.not_waitsOn_of_none rfl e
    · rw [htcb t' hmem]
      exact h.noWait e he t' hmem

/-- A deleted task leaves the wait list that it may be in. -/
theorem dropTask_event (k : Kernel) (t : TcbId) (e : EventId) :
    (k.dropTask t).event e = if (k.tcb t).eventPtr = some e then
      { k.event e with tbl := (k.event e).tbl.clear (k.tcb t).prio } else k.event e := by
  unfold Kernel.dropTask
  dsimp only
  cases heq : (k.tcb t).eventPtr with
  | none => simp
  | some e' =>
    by_cases he : e = e'
    · rw [he]
      simp
    · rw [if_neg fun h0 => he (Option.some.inj h0).symm]
      dsimp only
      rw [Function.update_of_ne he]

/-- To delete a task keeps the tables in order. -/
theorem Wf.dropTask (h : k.Wf) (ht : t ∈ k.tcbList) : (k.dropTask t).Wf := by
  have hnodup := (List.nodup_append'.mp h.nodup).1
  have hmem : ∀ t', t' ∈ (k.dropTask t).tcbList ↔ t' ≠ t ∧ t' ∈ k.tcbList :=
    fun t' => hnodup.mem_erase_iff
  have htcb : ∀ t' ∈ (k.dropTask t).tcbList, (k.dropTask t).tcb t' = k.tcb t' := by
    intro t' ht'
    exact Function.update_of_ne ((hmem t').mp ht').1 _ _
  have hslot : ∀ q, (k.dropTask t).prioTbl q = if q = (k.tcb t).prio then .null else k.prioTbl q := by
    intro q
    rw [Kernel.dropTask]
    dsimp only
    rw [Function.update_apply]
  -- Its priority is free now, the others have their tasks.
  have hholds : ∀ (P : OsTcb → Prop) q, (k.dropTask t).Holds P q ↔
      q ≠ (k.tcb t).prio ∧ k.Holds P q := by
    intro P q
    rw [Holds, Holds, hslot]
    by_cases hq : q = (k.tcb t).prio
    · simp [hq]
    · simp only [hq, if_false, ne_eq, not_false_eq_true, true_and]
      apply exists_congr
      intro t'
      apply and_congr_right
      intro ht'
      have hne : t' ≠ t := by
        rintro rfl
        exact hq ((h.slot_iff _ _).mp ht').2.symm
      rw [Kernel.dropTask]
      dsimp only
      rw [Function.update_of_ne hne]
  have htype : ∀ e, ((k.dropTask t).event e).type = (k.event e).type ∧
      ((k.dropTask t).event e).cnt = (k.event e).cnt := by
    intro e
    rw [dropTask_event]
    split
    · exact ⟨rfl, rfl⟩
    · exact ⟨rfl, rfl⟩
  refine ⟨?_, ?_, ?_, ?_, ?_, ?_, ?_, ?_, ?_, h.eventFree_nodup⟩
  · have hperm : (k.tcbList.erase t ++ t :: k.tcbFreeList).Perm (k.tcbList ++ k.tcbFreeList) :=
      List.perm_middle.trans ((List.perm_cons_erase ht).symm.append_right _)
    exact hperm.nodup_iff.mpr h.nodup
  · intro q t'
    rw [hslot, hmem]
    by_cases ht' : t' = t
    · refine iff_of_false ?_ fun h0 => h0.1.1 ht'
      rw [ht']
      split
      · exact PrioSlot.noConfusion
      · rename_i hq
        rw [h.slot_iff]
        exact fun h0 => hq h0.2.symm
    · have hsame : (k.dropTask t).tcb t' = k.tcb t' := Function.update_of_ne ht' _ _
      rw [hsame]
      split
      · rename_i hq
        refine iff_of_false PrioSlot.noConfusion ?_
        rintro ⟨⟨-, hin⟩, heq⟩
        exact ht' (h.eq_of_prio hin ht (heq.trans hq))
      · rw [h.slot_iff]
        simp [ht']
  · intro q
    rw [hslot]
    split
    · exact PrioSlot.noConfusion
    · exact h.not_reserved q
  · apply (h.rdy.clear _).congr
    exact fun q => (hholds _ q).symm
  · intro e
    rw [dropTask_event]
    split
    · apply ((h.wait e).clear _).congr
      exact fun q => (hholds _ q).symm
    · rename_i hne
      apply (h.wait e).congr
      intro q
      rw [hholds, iff_and_self]
      rintro hq rfl
      exact hne ((h.holds_prio ht).mp hq).1
  · intro t' ht'
    rw [htcb t' ht']
    refine (h.stat t' ((hmem t').mp ht').2).imp_right ?_
    rintro ⟨e, he, hty⟩
    exact ⟨e, he, by rwa [(htype e).1]⟩
  · intro t' ht'
    rw [htcb t' ht']
    exact h.delayed t' ((hmem t').mp ht').2
  · intro e he t' ht'
    rw [OsEvent.NoWait, (htype e).1, (htype e).2] at he
    rw [htcb t' ht']
    exact h.noWait e he t' ((hmem t').mp ht').2
  · intro e he
    rw [(htype e).1]
    exact h.eventFree e he

/-! ### All moves -/

/-- An event of another count only. -/
theorem Wf.setCnt (h : k.Wf) (cnt : ℕ) (hno : (k.event e).NoWait ∨ (k.event e).tbl.grp = 0) :
    (k.setEvent e { k.event e with cnt }).Wf := by
  have hsame : ∀ e', ((k.setEvent e { k.event e with cnt }).event e').tbl = (k.event e').tbl ∧
      ((k.setEvent e { k.event e with cnt }).event e').type = (k.event e').type := by
    intro e'
    by_cases he : e' = e
    · rw [he]
      simp [setEvent]
    · simp [setEvent, Function.update_of_ne he]
  refine h.of_event _ rfl rfl rfl rfl rfl (fun e' => .inl (hsame e').1)
    (fun e' => .inl (hsame e').2) ?_ ?_ h.eventFree_nodup
  · intro e' hno'
    by_cases he : e' = e
    · rw [he]
      exact hno
    · rw [setEvent] at hno'
      dsimp only at hno'
      rw [Function.update_of_ne he] at hno'
      exact .inl hno'
  · intro e' he'
    rw [(hsame e').2]
    exact h.eventFree e' he'

/-- A free event is taken for use. -/
theorem Wf.newEvent (h : k.Wf) {free : List EventId} (hfree : k.eventFreeList = e :: free)
    (ev : OsEvent) (htbl : ev.tbl = .empty) :
    ({ k with eventFreeList := free }.setEvent e ev).Wf := by
  have hunused := h.eventFree e (hfree ▸ List.mem_cons_self)
  have hgrp : (k.event e).tbl.grp = 0 := h.grp_eq_zero_iff.mpr (h.noWait e (.inl hunused))
  have hnodup := h.eventFree_nodup
  rw [hfree] at hnodup
  have hother : ∀ e', e' ≠ e →
      ({ k with eventFreeList := free }.setEvent e ev).event e' = k.event e' :=
    fun e' he => Function.update_of_ne he _ _
  refine h.of_event _ rfl rfl rfl rfl rfl ?_ ?_ ?_ ?_ hnodup.of_cons
  · intro e'
    by_cases he : e' = e
    · rw [he]
      simp [setEvent, htbl, hunused]
    · rw [hother e' he]
      exact .inl rfl
  · intro e'
    by_cases he : e' = e
    · rw [he]
      exact .inr hgrp
    · rw [hother e' he]
      exact .inl rfl
  · intro e' hno
    by_cases he : e' = e
    · rw [he]
      exact .inr hgrp
    · rw [hother e' he] at hno
      exact .inl hno
  · intro e' hmem
    have he : e' ≠ e := by
      rintro rfl
      exact (List.nodup_cons.mp hnodup).1 hmem
    rw [hother e' he]
    exact h.eventFree e' (hfree ▸ List.mem_cons_of_mem e hmem)

/-- An event goes back to the free list. -/
theorem Wf.osEventFree (h : k.Wf) (hused : (k.event e).type ≠ .unused)
    (hgrp : (k.event e).tbl.grp = 0) : (k.osEventFree e).Wf := by
  have hself : (k.osEventFree e).event e = ⟨.unused, none, 0, (k.event e).tbl⟩ :=
    Function.update_self _ _ _
  have hother : ∀ e', e' ≠ e → (k.osEventFree e).event e' = k.event e' :=
    fun e' he => Function.update_of_ne he _ _
  refine h.of_event _ rfl rfl rfl rfl rfl ?_ ?_ ?_ ?_ ?_
  · intro e'
    by_cases he : e' = e
    · rw [he, hself]
      exact .inl rfl
    · rw [hother e' he]
      exact .inl rfl
  · intro e'
    by_cases he : e' = e
    · rw [he]
      exact .inr hgrp
    · rw [hother e' he]
      exact .inl rfl
  · intro e' hno
    by_cases he : e' = e
    · rw [he]
      exact .inr hgrp
    · rw [hother e' he] at hno
      exact .inl hno
  · intro e' hmem
    rcases List.mem_cons.mp hmem with heq | hin
    · rw [heq, hself]
    · rw [hother e' fun heq => hused (heq ▸ h.eventFree e' hin)]
      exact h.eventFree e' hin
  · exact List.nodup_cons.mpr ⟨fun hin => hused (h.eventFree e hin), h.eventFree_nodup⟩

/-- A change of queues, of the memory and of the scheduler. -/
theorem Wf.of_rest (h : k.Wf) (k' : Kernel) (htcb : k'.tcb = k.tcb) (hslots : k'.prioTbl = k.prioTbl)
    (hlist : k'.tcbList = k.tcbList) (hfree : k'.tcbFreeList = k.tcbFreeList)
    (hrdy : k'.rdy = k.rdy) (hevent : k'.event = k.event)
    (hefree : k'.eventFreeList = k.eventFreeList) : k'.Wf := by
  refine h.of_event k' htcb hslots hlist hfree hrdy ?_ ?_ ?_ ?_ ?_
  · exact fun _ => .inl (by rw [hevent])
  · exact fun _ => .inl (by rw [hevent])
  · exact fun _ hno => .inl (by rwa [hevent] at hno)
  · rw [hefree, hevent]
    exact h.eventFree
  · rw [hefree]
    exact h.eventFree_nodup

/-- **Every move keeps the tables.** -/
theorem Move.wf {n : List Note} (hm : k.Move k' n) (h : k.Wf) : k'.Wf := by
  cases hm with
  | hand e msg _ hne => exact h.readyFirst hne msg
  | release e hne => exact h.readyFirst hne 0
  | give e hty hgrp => exact h.setCnt _ (.inr hgrp)
  | take e _ hty hpos => exact h.setCnt _ (.inl (.inr ⟨hty, hpos⟩))
  | put e msg => exact h.of_rest _ rfl rfl rfl rfl rfl rfl rfl
  | get e => exact h.of_rest _ rfl rfl rfl rfl rfl rfl rfl
  | flush e => exact h.of_rest _ rfl rfl rfl rfl rfl rfl rfl
  | semNew e cnt free hfree => exact h.newEvent hfree _ rfl
  | qNew e i start size free qfree hfree hqfree hmem =>
    exact (h.newEvent hfree ⟨.q, some i, 0, .empty⟩ rfl).of_rest _ rfl rfl rfl rfl rfl rfl rfl
  | semFree e hty hgrp =>
    apply h.osEventFree _ hgrp
    rw [hty]
    exact EventType.noConfusion
  | qFree e hty hgrp =>
    refine (h.osEventFree ?_ hgrp).of_rest _ rfl rfl rfl rfl rfl rfl rfl
    rw [hty]
    exact EventType.noConfusion

/-- The idle task stays as it is when another task changes. -/
theorem IdleLast.of_tcb (hidle : k.IdleLast) (k' : Kernel) (hlist : k'.tcbList = k.tcbList)
    (htcb : ∀ t ∈ k.tcbList, (k.tcb t).prio = osTaskIdlePrio → (k.tcb t).Ready →
      (k.tcb t).eventPtr = none → k'.tcb t = k.tcb t) : k'.IdleLast := by
  obtain ⟨ts, i, heq, hprio, hready, hptr⟩ := hidle
  have hsame := htcb i (by simp [heq]) hprio hready hptr
  refine ⟨ts, i, hlist.trans heq, ?_⟩
  rw [hsame]
  exact ⟨hprio, hready, hptr⟩

/-- A store to the running task leaves the idle task alone. -/
theorem update_cur_of_idle (c : OsTcb) (hcur : k.cur.prio ≠ osTaskIdlePrio)
    (hprio : (k.tcb t).prio = osTaskIdlePrio) : Function.update k.tcb k.tcbCur c t = k.tcb t := by
  apply Function.update_of_ne
  rintro rfl
  exact hcur hprio

/-- The idle task stays when another task waits. -/
theorem IdleLast.waitCur (hidle : k.IdleLast) (hcur : k.CurFree) (b : BitVec 8) (timeout : ℕ) :
    (k.waitCur e b timeout).IdleLast :=
  hidle.of_tcb _ rfl fun _ _ hprio _ _ => update_cur_of_idle _ hcur.notIdle hprio

/-- The idle task stays when a task returns from its pend. -/
theorem IdleLast.resumeCur (hidle : k.IdleLast) (heq : k.cur.eventPtr = some e) (msg : ℕ) :
    (k.resumeCur e msg).IdleLast := by
  apply hidle.of_tcb (k.resumeCur e msg) rfl
  intro t _ _ _ hptr
  apply Function.update_of_ne
  rintro rfl
  rw [← cur, heq] at hptr
  cases hptr

/-- The idle task stays when a task is created. -/
theorem IdleLast.addTask (hidle : k.IdleLast) (h : k.Wf) {free : List TcbId}
    (hfree : k.tcbFreeList = t :: free) : (k.addTask p t free).IdleLast := by
  obtain ⟨ts, i, hlist, hprio, hready, hptr⟩ := hidle
  have hne : i ≠ t := by
    rintro rfl
    have hnodup := h.nodup
    rw [hfree] at hnodup
    exact (List.nodup_append'.mp hnodup).2.2 (by simp [hlist]) List.mem_cons_self
  refine ⟨t :: ts, i, ?_, ?_⟩
  · rw [Kernel.addTask]
    simp [hlist]
  · rw [Kernel.addTask]
    dsimp only
    rw [Function.update_of_ne hne]
    exact ⟨hprio, hready, hptr⟩

/-- The idle task stays when another task sleeps. -/
theorem IdleLast.delayCur (hidle : k.IdleLast) (hcur : k.CurFree) (ticks : ℕ) :
    (k.delayCur ticks).IdleLast :=
  hidle.of_tcb _ rfl fun _ _ hprio _ _ => update_cur_of_idle _ hcur.notIdle hprio

/-- The idle task stays when another one is deleted. -/
theorem IdleLast.dropTask (hidle : k.IdleLast) (hmem : t ∈ k.tcbList)
    (hnot : (k.tcb t).prio ≠ osTaskIdlePrio) : (k.dropTask t).IdleLast := by
  obtain ⟨ts, i, hlist, hprio, hready, hptr⟩ := hidle
  have hne : i ≠ t := by
    rintro rfl
    exact hnot hprio
  have hin : t ∈ ts := by
    rw [hlist] at hmem
    exact (List.mem_append.mp hmem).resolve_right fun h0 => hne (List.mem_singleton.mp h0).symm
  refine ⟨ts.erase t, i, ?_, ?_⟩
  · rw [Kernel.dropTask]
    dsimp only
    rw [hlist, List.erase_append_left _ hin]
  · rw [Kernel.dropTask]
    dsimp only
    rw [Function.update_of_ne hne]
    exact ⟨hprio, hready, hptr⟩

/-- A kernel with other variables of the scheduler. -/
theorem Wf.setSched (h : k.Wf) (running : Bool) (intNesting lockNesting : ℕ)
    (prioCur prioHighRdy : Prio) (tcbCur : TcbId) :
    { k with running, intNesting, lockNesting, prioCur, prioHighRdy, tcbCur : Kernel }.Wf :=
  h.of_rest _ rfl rfl rfl rfl rfl rfl rfl

/-- A tick leaves the idle task alone. -/
theorem IdleLast.tickLoop (hidle : k.IdleLast) (h : k.Wf) :
    (Kernel.tickLoop k k.tcbList).IdleLast := by
  have hlist : (Kernel.tickLoop k k.tcbList).tcbList = k.tcbList := by
    obtain ⟨-, tcb, rdy, heq⟩ := h.tickLoop k.tcbList fun _ => id
    rw [heq]
  apply hidle.of_tcb _ hlist
  intro t ht _ hready _
  rw [h.tick_tcb hidle ht]
  exact if_neg (not_not.mpr hready.2)

/-- **Every move leaves the idle task alone.** -/
theorem Move.idleLast {n : List Note} (hm : k.Move k' n) (h : k.Wf) (hidle : k.IdleLast) :
    k'.IdleLast := by
  have hfirst : ∀ e msg, (k.event e).tbl.grp ≠ 0 → (k.readyFirst e msg).IdleLast := by
    intro e msg hne
    obtain ⟨-, -, hwt, -⟩ := h.firstWaiter_spec hne
    apply hidle.of_tcb (k.readyFirst e msg) rfl
    intro t _ _ _ hptr
    apply Function.update_of_ne
    rintro rfl
    exact OsTcb.not_waitsOn_of_none hptr e hwt
  cases hm with
  | give | take | put | get | flush | semNew | qNew | semFree | qFree => exact hidle
  | hand e msg _ hne => exact hfirst e msg hne
  | release e hne => exact hfirst e 0 hne

/-- A service call keeps the tables in order. -/
theorem Moves.wf {n : List Note} (hm : Moves k k' n) (h : k.Wf) : k'.Wf := by
  induction hm with
  | nil => exact h
  | cons hmove _ ih => exact ih (hmove.wf h)

/-- A service call keeps the idle task. -/
theorem Moves.idleLast {n : List Note} (hm : Moves k k' n) (h : k.Wf) (hidle : k.IdleLast) :
    k'.IdleLast := by
  induction hm with
  | nil => exact hidle
  | cons hmove _ ih => exact ih (hmove.wf h) (hmove.idleLast h hidle)

end Kernel

end SerialNet
