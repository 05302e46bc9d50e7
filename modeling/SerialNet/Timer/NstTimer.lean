import SerialNet.Timer.Expiry

namespace SerialNet

/-!
# The timers of `util.c`

`NST_InitTimer` and its family are calls of the timer module; NULL is answered without one.
`NST_SetTimer` takes milliseconds, writes `OSTmrPeriod` and `OSTmrDly` itself, and starts the timer.
-/

open Timers

attribute [local instance] neZero_tmrs

/-! ### The calls -/

/-- The ticks of `NST_SetTimer`; the product has 32 bits. -/
def nstTimeValue (value : ℕ) : ℕ :=
  let timeValue := u32 (value * 100) / 1000
  if timeValue = 0 then 1 else timeValue

/-- `NST_InitTimer`. -/
def nstInitTimer (pTimer : Option TmrId) (timerFunc : Option ℕ) (pData : ℕ) (repeats : Bool) :
    List TmrCall :=
  match pTimer with
  | some _ => []
  | none => [.create 0 0 (if repeats then osTmrOptPeriodic else osTmrOptOneShot) timerFunc pData]

/-- `NST_DelTimer`. -/
def nstDelTimer (pTimer : Option TmrId) : List TmrCall :=
  match pTimer with
  | none => []
  | some ptmr => [.del ptmr]

/-- `NST_SetTimer`. -/
def nstSetTimer (T : Timers) (pTimer : Option TmrId) (value : ℕ) : List TmrCall :=
  match pTimer with
  | none => []
  | some ptmr =>
      if (T.tbl ptmr).opt = osTmrOptPeriodic then
        [.setPeriod ptmr (nstTimeValue value), .setDly ptmr 0, .start ptmr]
      else [.setPeriod ptmr 0, .setDly ptmr (nstTimeValue value), .start ptmr]

/-- `NST_CancelTimer`. -/
def nstCancelTimer (pTimer : Option TmrId) : List TmrCall :=
  match pTimer with
  | none => []
  | some ptmr => [.stop ptmr osTmrOptNone 0]

/-- `NST_ModTimer`. -/
def nstModTimer (T : Timers) (pTimer : Option TmrId) (value : ℕ) : List TmrCall :=
  nstCancelTimer pTimer ++ nstSetTimer T pTimer value

/-- Calls of a task. -/
def taskCalls (calls : List TmrCall) : List TmrLabel := calls.map (.call false)

/-! ### What they do -/

variable {T : Timers} {spokes : ℕ → List TmrId} {unused : List TmrId} {t : TmrId}
  {s s' s₁ : TmrSystem}

/-- A timer is set to one tick at least. -/
theorem nstTimeValue_pos (value : ℕ) : 0 < nstTimeValue value := by
  simp only [nstTimeValue]
  split <;> omega

/-- The product in milliseconds wraps, so a long time becomes a short one. -/
theorem nstTimeValue_lt (value : ℕ) : nstTimeValue value < 4294968 := by
  have hlt := u32_lt (value * 100)
  simp only [nstTimeValue]
  split <;> omega

/-- `OSTmrStart` of a timer that is in use. -/
theorem TmrCall.start_spec (h : T.Wf spokes unused) (ht : (T.tbl t).state ≠ .unused) :
    ∃ T', (TmrCall.start t).perform T false = some (T', []) ∧ (T'.tbl t).state = .running ∧
      (T'.tbl t).matchTime = T.linkMatch (T.tbl t) .dly ∧ SameTimer (T.tbl t) (T'.tbl t) ∧
      T'.time = T.time := by
  have hlinked : ∀ T' : Timers, (T'.tbl t).dly = (T.tbl t).dly → T'.time = T.time →
      SameTimer (T.tbl t) (T'.tbl t) → ((T'.linked t .dly).tbl t).state = .running ∧
      ((T'.linked t .dly).tbl t).matchTime = T.linkMatch (T.tbl t) .dly ∧
      SameTimer (T.tbl t) ((T'.linked t .dly).tbl t) ∧ (T'.linked t .dly).time = T.time := by
    intro T' hdly htime hsame
    refine ⟨by simp [linked], ?_, ?_, htime⟩
    · simp [linked, linkMatch, hdly, htime, hsame.period]
    · constructor <;> simp [linked, hsame.opt, hsame.period, hsame.callback, hsame.callbackArg]
  simp only [TmrCall.perform, osTmrStart, h.type t, ne_eq, not_true_eq_false, ↓reduceIte,
    Bool.false_eq_true]
  cases hst : (T.tbl t).state with
  | running =>
    have hlink : (T.unlinked t).osTmrLink t .dly = (T.unlinked t).linked t .dly :=
      (h.unlinked hst).osTmrLink_eq (by rw [T.unlinked_state]; decide) .dly
    simp only [h.osTmrUnlink_eq hst, Option.map_some, hlink]
    refine ⟨_, rfl, hlinked (T.unlinked t) (by simp [unlinked]) rfl ?_⟩
    constructor <;> simp [unlinked]
  | stopped | completed =>
    simp only [Option.map_some, h.osTmrLink_eq (show (T.tbl t).state ≠ .running by simp [hst]) .dly]
    exact ⟨_, rfl, hlinked T rfl rfl ⟨rfl, rfl, rfl, rfl⟩⟩
  | unused => exact absurd hst ht

/-- A call of a task in an idle system. -/
theorem tmrStep_call {c : TmrCall} {r : Timers × List TmrNote} (hidle : s.pc = .idle)
    (hr : c.perform s.timers false = some r) :
    tmrStep s (.call false c) = some { s with timers := r.1, log := s.log ++ r.2 } := by
  have hcalls : s.pc.Calls false := by
    rw [hidle]
    trivial
  simp only [tmrStep, if_pos hcalls, hr]

/-- A run goes on from a reachable state. -/
theorem TmrReachable.run {ls : List TmrLabel} (h : TmrReachable s)
    (hrun : run tmrStep s ls = some s') : TmrReachable s' := by
  obtain ⟨ks, hks⟩ := h
  refine ⟨ks ++ ls, ?_⟩
  rw [run_append, hks]
  exact hrun

/-- The timer is set: it expires first behind the given ticks, and a periodic one again. -/
structure SetTo (s s₁ : TmrSystem) (t : TmrId) (ticks : ℕ) : Prop where
  idle : s₁.pc = .idle
  log : expiriesOf t s₁.log = expiriesOf t s.log
  state : (s₁.timers.tbl t).state = .running
  opt : (s₁.timers.tbl t).opt = (s.timers.tbl t).opt
  callback : (s₁.timers.tbl t).callback = (s.timers.tbl t).callback
  callbackArg : (s₁.timers.tbl t).callbackArg = (s.timers.tbl t).callbackArg
  remaining : s₁.timers.remaining t = ticks
  interval : (s.timers.tbl t).opt = osTmrOptPeriodic → (s₁.timers.tbl t).interval = ticks

/-- The two assignments of `NST_SetTimer` and `OSTmrStart`. -/
theorem run_setTimer (h : TmrReachable s) (hidle : s.pc = .idle)
    (ht : (s.timers.tbl t).state ≠ .unused) {period dly ticks : ℕ} (hpos : 0 < ticks)
    (hlt : ticks < 4294967296)
    (hticks : dly = 0 ∧ period = ticks ∨
      (s.timers.tbl t).opt ≠ osTmrOptPeriodic ∧ period = 0 ∧ dly = ticks)
    (hrun : run tmrStep s (taskCalls [.setPeriod t period, .setDly t dly, .start t]) = some s₁) :
    SetTo s s₁ t ticks := by
  obtain ⟨spokes, unused, hwf⟩ := h.listsOk
  -- The two assignments make one change of the timer.
  let c := { s.timers.tbl t with period := u32 period, dly := u32 dly }
  have hwrite : run tmrStep s (taskCalls [.setPeriod t period, .setDly t dly]) =
      some { s with timers := s.timers.setTmr t c } := by
    let s₂ := { s with timers := s.timers.setTmr t { s.timers.tbl t with period := u32 period } }
    have h₁ : tmrStep s (.call false (.setPeriod t period)) = some s₂ := by
      rw [tmrStep_call hidle rfl]
      simp [s₂]
    have h₂ : tmrStep s₂ (.call false (.setDly t dly)) =
        some { s with timers := s.timers.setTmr t c } := by
      rw [tmrStep_call (s := s₂) hidle rfl]
      simp [s₂, Timers.setTmr, c]
    simp only [taskCalls, List.map_cons, List.map_nil, run_cons, run_nil, h₁, h₂, Option.bind_some]
  have hwf' : (s.timers.setTmr t c).Wf spokes unused :=
    hwf.setTmr rfl rfl rfl rfl Iff.rfl Iff.rfl
  have hself : (s.timers.setTmr t c).tbl t = c := by simp [Timers.setTmr]
  obtain ⟨T', hperform, hstate, hmatch, hsame, htime⟩ :=
    TmrCall.start_spec hwf' (t := t) (by rw [hself]; exact ht)
  rw [hself] at hmatch hsame
  have hstart : run tmrStep s (taskCalls [.setPeriod t period, .setDly t dly, .start t]) =
      some { s with timers := T', log := s.log ++ [] } := by
    rw [show taskCalls [.setPeriod t period, .setDly t dly, .start t] =
        taskCalls [.setPeriod t period, .setDly t dly] ++ [.call false (.start t)] from rfl,
      run_append, hwrite, Option.bind_some, run_singleton]
    exact tmrStep_call (s := { s with timers := s.timers.setTmr t c }) hidle hperform
  obtain rfl := Option.some.inj (hrun.symm.trans hstart)
  have hlt' := hwf.timeLt
  refine ⟨hidle, by simp, hstate, hsame.opt, hsame.callback, hsame.callbackArg, ?_, fun hopt => ?_⟩
  · have hm : (T'.tbl t).matchTime = u32 (ticks + s.timers.time) := by
      rw [hmatch]
      rcases hticks with ⟨rfl, rfl⟩ | ⟨-, rfl, rfl⟩
      · simp [linkMatch, c, u32_natCast hlt, Timers.setTmr, show u32 0 = 0 from rfl]
      · simp [linkMatch, c, u32_natCast hlt, Timers.setTmr, hpos.ne']
    obtain ⟨spokes', unused', hwf''⟩ := (h.run hrun).listsOk
    rw [hwf''.remaining_eq hstate, hm, htime]
    change fullCircle (u32 (u32 (ticks + s.timers.time) - s.timers.time)) = ticks
    unfold fullCircle u32
    split <;> omega
  · obtain ⟨rfl, rfl⟩ := hticks.resolve_right fun h => h.1 hopt
    simp only [OsTmr.interval, hsame.period, c, u32_natCast hlt]
    rw [fullCircle, if_neg hpos.ne']

/-- `NST_SetTimer` between two turns leaves the timer running with its full time. -/
theorem run_nstSetTimer {value : ℕ} (h : TmrReachable s) (hidle : s.pc = .idle)
    (ht : (s.timers.tbl t).state ≠ .unused)
    (hrun : run tmrStep s (taskCalls (nstSetTimer s.timers (some t) value)) = some s₁) :
    SetTo s s₁ t (nstTimeValue value) := by
  have hlt := nstTimeValue_lt value
  simp only [nstSetTimer] at hrun
  split at hrun
  · exact run_setTimer h hidle ht (nstTimeValue_pos value) (by omega) (.inl ⟨rfl, rfl⟩) hrun
  · rename_i hopt
    exact run_setTimer h hidle ht (nstTimeValue_pos value) (by omega) (.inr ⟨hopt, rfl, rfl⟩) hrun

/-- `OSTmrStop` without a callback of a timer that is in use. -/
theorem TmrCall.stop_spec (h : T.Wf spokes unused) (ht : (T.tbl t).state ≠ .unused) :
    ∃ T', (TmrCall.stop t osTmrOptNone 0).perform T false = some (T', []) ∧
      (T'.tbl t).state ≠ .unused ∧ SameTimer (T.tbl t) (T'.tbl t) := by
  simp only [TmrCall.perform, osTmrStop, h.type t, ne_eq, not_true_eq_false, ↓reduceIte,
    Bool.false_eq_true]
  cases hst : (T.tbl t).state with
  | running =>
    simp only [h.osTmrUnlink_eq hst, Option.map_some]
    refine ⟨_, rfl, by rw [T.unlinked_state]; decide, ?_⟩
    constructor <;> simp [unlinked]
  | stopped | completed =>
    exact ⟨T, rfl, by rw [hst]; decide, ⟨rfl, rfl, rfl, rfl⟩⟩
  | unused => exact absurd hst ht

/-- `NST_ModTimer` between two turns leaves the timer running with its full time. -/
theorem run_nstModTimer {value : ℕ} (h : TmrReachable s) (hidle : s.pc = .idle)
    (ht : (s.timers.tbl t).state ≠ .unused)
    (hrun : run tmrStep s (taskCalls (nstModTimer s.timers (some t) value)) = some s₁) :
    SetTo s s₁ t (nstTimeValue value) := by
  obtain ⟨spokes, unused, hwf⟩ := h.listsOk
  obtain ⟨T', hperform, hstate, hsame⟩ := TmrCall.stop_spec hwf ht
  have hstop := tmrStep_call hidle hperform
  have hset : nstSetTimer s.timers (some t) value = nstSetTimer T' (some t) value := by
    simp only [nstSetTimer, hsame.opt]
  rw [show taskCalls (nstModTimer s.timers (some t) value) =
      .call false (.stop t osTmrOptNone 0) :: taskCalls (nstSetTimer s.timers (some t) value)
      from rfl, run_cons, hstop, Option.bind_some, hset] at hrun
  have hreach := h.run ((run_singleton s _).trans hstop)
  have hto := run_nstSetTimer hreach hidle hstate hrun
  exact ⟨hto.idle, hto.log.trans (by simp), hto.state, hto.opt.trans hsame.opt,
    hto.callback.trans hsame.callback, hto.callbackArg.trans hsame.callbackArg, hto.remaining,
    fun hopt => hto.interval (hsame.opt.trans hopt)⟩

/-! ### When they call -/

/-- A timer that is set to its period expires at the multiples of it. -/
theorem expiries_self (periodic : Prop) [Decidable periodic] {v n : ℕ} (hv : 0 < v) :
    expiries periodic v v n = if periodic then n / v else min 1 (n / v) := by
  unfold expiries
  by_cases hn : n < v
  · simp [hn, Nat.div_eq_of_lt hn]
  · have hdiv : n / v = 1 + (n - v) / v := by
      rw [Nat.add_comm, ← Nat.add_div_right _ hv, Nat.sub_add_cancel (Nat.le_of_not_lt hn)]
    rw [if_neg hn, hdiv]
    split
    · rfl
    · exact (Nat.min_eq_left (Nat.le_add_right 1 _)).symm

/-- **`NST_SetTimer` and `NST_ModTimer` keep their time.**  Set a timer in use to `value`
    milliseconds between two turns of the timer task.  As long as nobody calls the module for it,
    and no callback for the timer that the walk goes on with, behind `n` ticks its callback has been
    called exactly `n / v` times if it repeats, and once from the tick `v` on if not.  Here `v` is
    the value in ticks of 10 ms, at least one; `value * 100` is computed in 32 bits. -/
theorem nstTimer_keeps_time {value : ℕ} {calls : List TmrCall} {ls : List TmrLabel}
    (h : TmrReachable s) (hidle : s.pc = .idle) (ht : (s.timers.tbl t).state ≠ .unused)
    (hcalls : calls = nstSetTimer s.timers (some t) value ∨
      calls = nstModTimer s.timers (some t) value)
    (hset : run tmrStep s (taskCalls calls) = some s₁) (hok : Along tmrStep (TmrOk t) s₁ ls)
    (hrun : run tmrStep s₁ ls = some s') (hidle' : s'.pc = .idle) :
    expiriesOf t s'.log = expiriesOf t s.log ++
      List.replicate
        (if (s.timers.tbl t).opt = osTmrOptPeriodic then tmrTicks ls / nstTimeValue value
          else min 1 (tmrTicks ls / nstTimeValue value))
        (.expired t ((s.timers.tbl t).callback.map (·, (s.timers.tbl t).callbackArg))) := by
  have hto : SetTo s s₁ t (nstTimeValue value) := by
    rcases hcalls with rfl | rfl
    · exact run_nstSetTimer h hidle ht hset
    · exact run_nstModTimer h hidle ht hset
  obtain ⟨k, htracks⟩ := (tracks_start (h.run hset) hto.idle hto.state).run hok hrun
  rw [Nat.zero_add] at htracks
  rw [htracks.log, hto.log, hto.callback, hto.callbackArg, htracks.eq_expiries hidle', hto.remaining,
    ← expiries_self _ (nstTimeValue_pos value)]
  simp only [hto.opt]
  by_cases hopt : (s.timers.tbl t).opt = osTmrOptPeriodic
  · rw [hto.interval hopt]
  · simp only [expiries, hopt, if_false]

/-- A repeating timer is created with `NST_InitTimer`. -/
def nstInitRun : List TmrLabel := taskCalls (nstInitTimer none (some 7) 1 true)

/-- `NST_SetTimer` with 30 ms. -/
def nstSetRun : List TmrLabel :=
  taskCalls (nstSetTimer (runEnd tmrStep tmrBoot nstInitRun).timers (some 0) 30)

theorem nstTimer_keeps_time_sevenTicks :
    expiriesOf 0 (runEnd tmrStep (runEnd tmrStep (runEnd tmrStep tmrBoot nstInitRun) nstSetRun)
      sevenTicks).log = [.expired 0 (some (7, 1)), .expired 0 (some (7, 1))] :=
  (nstTimer_keeps_time ⟨nstInitRun, run_eq_runEnd (by decide +kernel)⟩ (by decide +kernel)
    (by decide +kernel) (.inl rfl) (run_eq_runEnd (by decide +kernel)) (sevenTicks_ok 0 _)
    (run_eq_runEnd (by decide +kernel)) (by decide +kernel)).trans (by decide +kernel)

end SerialNet
