import SerialNet.Timer.Lists
import SerialNet.Lib.Run
import Mathlib.Logic.Relation

namespace SerialNet

/-!
# What the steps of the timer module do

Every call, and every turn of the timer task, is a sequence of moves of one timer: it is taken out
of its spoke, put in front of one, freed, created, or changed in place.  `TmrMove.edit` says what a
move leaves alone: the data of the other timers, and the order of every spoke.  The calls never
write through NULL; the timer task does when it comes to a timer that is due and that a callback
has stopped or deleted.
-/

open Timers

attribute [local instance] neZero_tmrs

/-! ### Moves -/

/-- One change of the timer `t`. -/
inductive TmrMove (t : TmrId) : Timers → Timers → Prop
  | unlink {T : Timers} : (T.tbl t).state = .running → TmrMove t T (T.unlinked t)
  | link {T : Timers} (type : LinkType) :
      (T.tbl t).state = .stopped ∨ (T.tbl t).state = .completed → TmrMove t T (T.linked t type)
  | free {T : Timers} :
      (T.tbl t).state = .stopped ∨ (T.tbl t).state = .completed → TmrMove t T (T.osTmrFree t)
  | create {T : Timers} (dly period opt : ℕ) (callback : Option ℕ) (arg : ℕ) :
      T.freeList = some t → TmrMove t T (T.created t dly period opt callback arg)
  | set {T : Timers} (c : OsTmr) (htype : c.type = (T.tbl t).type)
      (hnext : c.next = (T.tbl t).next) (hprev : c.prev = (T.tbl t).prev)
      (hmatch : c.matchTime = (T.tbl t).matchTime)
      (hrun : c.state = .running ↔ (T.tbl t).state = .running)
      (hunused : c.state = .unused ↔ (T.tbl t).state = .unused) : TmrMove t T (T.setTmr t c)

/-- What of a timer does not depend on its neighbours. -/
def OsTmr.data (c : OsTmr) : OsTmr := { c with next := none, prev := none }

/-- Between two states only the timer `t` changes, and where it is. -/
structure Edited (t : TmrId) (T T' : Timers) (spokes spokes' : ℕ → List TmrId) : Prop where
  data : ∀ u, u ≠ t → (T'.tbl u).data = (T.tbl u).data
  time : T'.time = T.time
  spoke : ∀ i, spokes' i = spokes i ∨ spokes' i = (spokes i).erase t ∨ spokes' i = t :: spokes i

variable {T T' : Timers} {spokes spokes' : ℕ → List TmrId} {unused : List TmrId} {t u : TmrId}

/-- **A move** keeps the lists, and edits at most where its timer is. -/
theorem TmrMove.edit (hm : TmrMove t T T') (h : T.Wf spokes unused) :
    ∃ spokes' unused', T'.Wf spokes' unused' ∧ Edited t T T' spokes spokes' := by
  cases hm with
  | unlink ht =>
    refine ⟨_, _, h.unlinked ht, fun u hu => ?_, rfl, fun i => .inr (.inl rfl)⟩
    simp [unlinked, hu, OsTmr.data]
  | link type ht =>
    refine ⟨_, _, h.linked ht type, fun u hu => ?_, rfl, fun i => ?_⟩
    · simp only [linked, if_neg hu]
      split <;> rfl
    · by_cases hi : i = T.linkSpoke t type
      · subst hi
        exact .inr (.inr (Function.update_self _ _ _))
      · exact .inl (Function.update_of_ne hi _ _)
  | free ht =>
    refine ⟨_, _, h.osTmrFree ht, fun u hu => ?_, rfl, fun i => .inl rfl⟩
    simp [osTmrFree, Timers.setTmr, hu]
  | create dly period opt callback arg ht =>
    obtain ⟨rest, -, hwf⟩ := h.created ht dly period opt callback arg
    refine ⟨_, _, hwf, fun u hu => ?_, rfl, fun i => .inl rfl⟩
    simp [created, Timers.setTmr, hu]
  | set c htype hnext hprev hmatch hrun hunused =>
    refine ⟨_, _, h.setTmr htype hnext hprev hmatch hrun hunused, fun u hu => ?_, rfl,
      fun i => .inl rfl⟩
    simp [Timers.setTmr, hu]

/-- Any number of moves of one timer. -/
abbrev TmrMoves (t : TmrId) : Timers → Timers → Prop := Relation.ReflTransGen (TmrMove t)

/-! ### Calls -/

/-- The timer that a call is about. -/
def TmrCall.target (T : Timers) : TmrCall → Option TmrId
  | .create .. => T.freeList
  | .del ptmr | .start ptmr | .stop ptmr _ _ | .setPeriod ptmr _ | .setDly ptmr _ => some ptmr

/-- A timer that is taken off the wheel is stopped. -/
theorem Timers.unlinked_state (T : Timers) (t : TmrId) : ((T.unlinked t).tbl t).state = .stopped := by
  simp [unlinked]

/-- A timer that is not running can be linked. -/
theorem Timers.Wf.osTmrLink_eq (h : T.Wf spokes unused) (ht : (T.tbl t).state ≠ .running)
    (type : LinkType) : T.osTmrLink t type = T.linked t type :=
  Timers.osTmrLink_eq fun hfirst => ht ((h.mem _ t).mp (h.first_mem hfirst)).1

/-- **A call** moves the timer that it is about, or changes nothing; it never writes through NULL. -/
theorem TmrCall.perform_cases (h : T.Wf spokes unused) (isr : Bool) (c : TmrCall) :
    ∃ r, c.perform T isr = some r ∧
      (r.1 = T ∨ ∃ t, c.target T = some t ∧ TmrMoves t T r.1) := by
  cases c with
  | create dly period opt callback arg =>
    refine ⟨_, rfl, ?_⟩
    rcases T.osTmrCreate_cases isr (u32 dly) (u32 period) (u8 opt) callback arg with heq | ⟨t, ht, heq⟩
    · exact .inl heq
    · refine .inr ⟨t, ht, ?_⟩
      rw [heq]
      exact .single (.create _ _ _ _ _ ht)
  | del t =>
    simp only [TmrCall.perform, osTmrDel, h.type t, ne_eq, not_true_eq_false, ↓reduceIte]
    by_cases hisr : isr
    · simp [hisr]
    · simp only [hisr, Bool.false_eq_true, ↓reduceIte]
      cases hst : (T.tbl t).state with
      | running =>
        simp only [h.osTmrUnlink_eq hst, Option.map_some, Option.some.injEq]
        refine ⟨_, rfl, .inr ⟨t, rfl, ?_⟩⟩
        exact (Relation.ReflTransGen.single (.unlink hst)).tail (.free (.inl (T.unlinked_state t)))
      | stopped => exact ⟨_, rfl, .inr ⟨t, rfl, .single (.free (.inl hst))⟩⟩
      | completed => exact ⟨_, rfl, .inr ⟨t, rfl, .single (.free (.inr hst))⟩⟩
      | unused => exact ⟨_, rfl, .inl rfl⟩
  | start t =>
    simp only [TmrCall.perform, osTmrStart, h.type t, ne_eq, not_true_eq_false, ↓reduceIte]
    by_cases hisr : isr
    · simp [hisr]
    · simp only [hisr, Bool.false_eq_true, ↓reduceIte]
      cases hst : (T.tbl t).state with
      | running =>
        have hstopped := T.unlinked_state t
        simp only [h.osTmrUnlink_eq hst, Option.map_some, Option.some.injEq,
          (h.unlinked hst).osTmrLink_eq (t := t) (by simp [hstopped]) .dly]
        refine ⟨_, rfl, .inr ⟨t, rfl, ?_⟩⟩
        exact (Relation.ReflTransGen.single (.unlink hst)).tail (.link .dly (.inl hstopped))
      | stopped =>
        refine ⟨_, rfl, .inr ⟨t, rfl, ?_⟩⟩
        rw [h.osTmrLink_eq (by simp [hst]) .dly]
        exact .single (.link .dly (.inl hst))
      | completed =>
        refine ⟨_, rfl, .inr ⟨t, rfl, ?_⟩⟩
        rw [h.osTmrLink_eq (by simp [hst]) .dly]
        exact .single (.link .dly (.inr hst))
      | unused => exact ⟨_, rfl, .inl rfl⟩
  | stop t opt arg =>
    simp only [TmrCall.perform, osTmrStop, h.type t, ne_eq, not_true_eq_false, ↓reduceIte]
    by_cases hisr : isr
    · simp [hisr]
    · simp only [hisr, Bool.false_eq_true, ↓reduceIte]
      cases hst : (T.tbl t).state with
      | running =>
        simp only [h.osTmrUnlink_eq hst, Option.map_some, Option.some.injEq]
        exact ⟨_, rfl, .inr ⟨t, rfl, .single (.unlink hst)⟩⟩
      | stopped => exact ⟨_, rfl, .inl rfl⟩
      | completed => exact ⟨_, rfl, .inl rfl⟩
      | unused => exact ⟨_, rfl, .inl rfl⟩
  | setPeriod t period =>
    exact ⟨_, rfl, .inr ⟨t, rfl, .single (.set _ rfl rfl rfl rfl Iff.rfl Iff.rfl)⟩⟩
  | setDly t dly =>
    exact ⟨_, rfl, .inr ⟨t, rfl, .single (.set _ rfl rfl rfl rfl Iff.rfl Iff.rfl)⟩⟩

/-! ### The timer task -/

/-- The timers behind the expiry of a running timer. -/
def Timers.expired (T : Timers) (t : TmrId) : Timers :=
  if (T.tbl t).opt = osTmrOptPeriodic then (T.unlinked t).linked t .periodic
  else (T.unlinked t).setTmr t { (T.unlinked t).tbl t with state := .completed }

/-- A running timer expires without a fault. -/
theorem Timers.Wf.expire_eq (h : T.Wf spokes unused) (ht : (T.tbl t).state = .running) :
    T.expire t = some (T.expired t) := by
  have hstopped := T.unlinked_state t
  have hopt : ((T.unlinked t).tbl t).opt = (T.tbl t).opt := by simp [Timers.unlinked]
  have hlink : (T.unlinked t).osTmrLink t .periodic = (T.unlinked t).linked t .periodic :=
    (h.unlinked ht).osTmrLink_eq (by rw [hstopped]; decide) .periodic
  simp only [expire, h.osTmrUnlink_eq ht, Option.map_some, hopt, expired, hlink]

/-- An expiry is one of the moves. -/
theorem Timers.expired_moves (ht : (T.tbl t).state = .running) : TmrMoves t T (T.expired t) := by
  have hstopped := T.unlinked_state t
  refine (Relation.ReflTransGen.single (.unlink ht)).tail ?_
  unfold expired
  split
  · exact .link .periodic (.inl hstopped)
  · exact .set _ rfl rfl rfl rfl (by rw [hstopped]; simp) (by rw [hstopped]; simp)

namespace TmrSystem

variable {s s' : TmrSystem} {l : TmrLabel}

/-- The state behind the expiry of a timer. -/
def afterExpiry (s : TmrSystem) (t : TmrId) : TmrSystem :=
  let c := (s.timers.expired t).tbl t
  let next := (s.timers.tbl t).next
  { timers := s.timers.expired t
    pc := if c.callback.isSome then .callback next else .walk next
    log := s.log ++ [.expired t (c.callback.map (·, c.callbackArg))] }

/-- **A turn of the loop** passes a timer over, lets it expire, or writes through NULL. -/
theorem visit_cases (h : s.timers.Wf spokes unused) (t : TmrId) :
    s.timers.time ≠ (s.timers.tbl t).matchTime ∧
        s.visit t = { s with pc := .walk (s.timers.tbl t).next } ∨
      s.timers.time = (s.timers.tbl t).matchTime ∧ (s.timers.tbl t).state = .running ∧
        s.visit t = s.afterExpiry t ∨
      s.timers.time = (s.timers.tbl t).matchTime ∧ (s.timers.tbl t).state ≠ .running ∧
        s.visit t = { s with pc := .fault } := by
  by_cases hdue : s.timers.time = (s.timers.tbl t).matchTime
  · by_cases hrun : (s.timers.tbl t).state = .running
    · refine .inr (.inl ⟨hdue, hrun, ?_⟩)
      simp only [visit, if_pos hdue, h.expire_eq hrun, Option.isSome_map, afterExpiry]
    · refine .inr (.inr ⟨hdue, hrun, ?_⟩)
      simp only [visit, if_pos hdue, expire, h.osTmrUnlink_eq_none hrun, Option.map_none]
  · exact .inl ⟨hdue, by simp only [visit, if_neg hdue]⟩

/-- The lists of the wheel and the free list are in order. -/
def ListsOk (s : TmrSystem) : Prop := ∃ spokes unused, s.timers.Wf spokes unused

end TmrSystem

/-- A move keeps the lists in order. -/
theorem TmrMoves.wf (hm : TmrMoves t T T') (h : ∃ spokes unused, T.Wf spokes unused) :
    ∃ spokes unused, T'.Wf spokes unused := by
  induction hm with
  | refl => exact h
  | tail _ hm ih =>
    obtain ⟨spokes, unused, hwf⟩ := ih
    obtain ⟨spokes', unused', hwf', -⟩ := hm.edit hwf
    exact ⟨spokes', unused', hwf'⟩

namespace TmrSystem

variable {s s' : TmrSystem} {l : TmrLabel}

/-- **Steps keep the lists in order.** -/
theorem ListsOk.step (h : s.ListsOk) (hs : tmrStep s l = some s') : s'.ListsOk := by
  obtain ⟨spokes, unused, hwf⟩ := h
  cases l with
  | call isr c =>
    obtain ⟨r, hr, hcases⟩ := c.perform_cases hwf isr
    simp only [tmrStep, hr] at hs
    split at hs
    · obtain rfl := Option.some.inj hs
      rcases hcases with heq | ⟨t, -, hm⟩
      · exact ⟨spokes, unused, heq ▸ hwf⟩
      · exact hm.wf ⟨spokes, unused, hwf⟩
    · cases hs
  | tick =>
    simp only [tmrStep] at hs
    split at hs
    · obtain rfl := Option.some.inj hs
      exact ⟨spokes, unused, hwf.advance⟩
    · cases hs
  | visit =>
    simp only [tmrStep] at hs
    split at hs
    · obtain rfl := Option.some.inj hs
      exact ⟨spokes, unused, hwf⟩
    · rename_i t _
      obtain rfl := Option.some.inj hs
      rcases visit_cases hwf t with ⟨-, heq⟩ | ⟨-, hrun, heq⟩ | ⟨-, -, heq⟩ <;> rw [heq]
      · exact ⟨spokes, unused, hwf⟩
      · exact (expired_moves hrun).wf ⟨spokes, unused, hwf⟩
      · exact ⟨spokes, unused, hwf⟩
    · cases hs
  | ret =>
    simp only [tmrStep] at hs
    split at hs
    · obtain rfl := Option.some.inj hs
      exact ⟨spokes, unused, hwf⟩
    · cases hs

/-- Only a turn of the loop for a due timer that is not running writes through NULL. -/
theorem ListsOk.fault_iff (h : s.ListsOk) (hs : tmrStep s l = some s') :
    s'.pc = .fault ↔ ∃ t, l = .visit ∧ s.pc = .walk (some t) ∧
      s.timers.time = (s.timers.tbl t).matchTime ∧ (s.timers.tbl t).state ≠ .running := by
  obtain ⟨spokes, unused, hwf⟩ := h
  cases l with
  | call isr c =>
    obtain ⟨r, hr, -⟩ := c.perform_cases hwf isr
    simp only [tmrStep, hr] at hs
    split at hs
    · rename_i hcalls
      obtain rfl := Option.some.inj hs
      refine iff_of_false (fun hf => ?_) (by simp)
      simp only at hf
      rw [hf] at hcalls
      exact hcalls
    · cases hs
  | tick =>
    simp only [tmrStep] at hs
    split at hs
    · obtain rfl := Option.some.inj hs
      simp
    · cases hs
  | visit =>
    simp only [tmrStep] at hs
    split at hs
    · rename_i hpc
      obtain rfl := Option.some.inj hs
      simp [hpc]
    · rename_i t hpc
      obtain rfl := Option.some.inj hs
      rcases visit_cases hwf t with ⟨hdue, heq⟩ | ⟨hdue, hrun, heq⟩ | ⟨hdue, hrun, heq⟩ <;>
        rw [heq]
      · simp [hpc, hdue]
      · simp only [afterExpiry]
        split <;> simp [hpc, hrun]
      · simp [hpc, hdue, hrun]
    · cases hs
  | ret =>
    simp only [tmrStep] at hs
    split at hs
    · obtain rfl := Option.some.inj hs
      simp
    · cases hs

end TmrSystem

/-- The state can be reached, with calls of tasks, callbacks and interrupts in any order. -/
def TmrReachable (s : TmrSystem) : Prop := ∃ ls, run tmrStep tmrBoot ls = some s

/-- The lists are in order in every state of a run. -/
theorem TmrReachable.listsOk {s : TmrSystem} (h : TmrReachable s) : s.ListsOk := by
  obtain ⟨ls, hrun⟩ := h
  exact @run_invariant _ _ _ (fun _ _ => True) _ (fun _ _ _ hs _ hstep => hs.step hstep) ls _ _
    ⟨_, _, osTmrInit_wf⟩ (along_of_forall (fun _ _ _ => trivial) _) hrun

/-- **The wheel is never corrupt.**  In every reachable state, whatever callbacks do, each spoke is
    a doubly linked list of exactly the running timers whose time falls on it, the free list holds
    exactly the unused ones, and the counters are right.  The step to `.fault`, a write through
    NULL, is taken exactly when the timer task comes to a timer that is due and no longer runs. -/
theorem timer_lists {s : TmrSystem} (h : TmrReachable s) :
    (∃ spokes unused, s.timers.Wf spokes unused) ∧
      ∀ l s', tmrStep s l = some s' → (s'.pc = .fault ↔ ∃ t, l = .visit ∧ s.pc = .walk (some t) ∧
        s.timers.time = (s.timers.tbl t).matchTime ∧ (s.timers.tbl t).state ≠ .running) :=
  ⟨h.listsOk, fun _ _ hs => h.listsOk.fault_iff hs⟩

/-- Two timers are due in the next tick, and the callback of the first stops the second. -/
def stopNextRun : List TmrLabel :=
  [.call false (.create 1 0 osTmrOptOneShot (some 1) 0),
    .call false (.create 1 0 osTmrOptOneShot (some 1) 0),
    .call false (.start 0), .call false (.start 1), .tick, .visit,
    .call false (.stop 0 osTmrOptNone 0), .ret]

theorem timer_lists_stopNextRun :
    (tmrStep (runEnd tmrStep tmrBoot stopNextRun) .visit).map TmrSystem.pc = some .fault := by
  have hsome : (tmrStep (runEnd tmrStep tmrBoot stopNextRun) .visit).isSome := by decide +kernel
  obtain ⟨s', hs'⟩ := Option.isSome_iff_exists.mp hsome
  rw [hs', Option.map_some, Option.some.injEq]
  exact ((timer_lists ⟨stopNextRun, run_eq_runEnd (by decide +kernel)⟩).2 .visit s' hs').mpr
    ⟨0, rfl, by decide +kernel, by decide +kernel, by decide +kernel⟩

end SerialNet
