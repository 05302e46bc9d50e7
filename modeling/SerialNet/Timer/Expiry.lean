import SerialNet.Timer.Steps

namespace SerialNet

/-!
# When a timer expires

A run is looked at in which nobody calls the module for the timer `t`, and no callback for the timer
that the walk goes on with.  `Tracks` follows `t` through such a run: behind `n` ticks it has
expired `k` times, and its next deadline is `r + k * P`.  While the walk goes on, a timer that is
due is among those that the walk has still to visit.
-/

open Timers

attribute [local instance] neZero_tmrs

/-! ### Runs -/

/-- The timer that the walk goes on with. -/
def TmrPc.saved : TmrPc → Option TmrId
  | .walk ptmr => ptmr
  | .callback next => next
  | _ => none

/-- The call is not about `t`, nor about the timer that the walk goes on with. -/
def TmrOk (t : TmrId) (s : TmrSystem) : TmrLabel → Prop
  | .call _ c => ∀ u, c.target s.timers = some u → u ≠ t ∧ s.pc.saved ≠ some u
  | _ => True

/-- A tick of the timer task. -/
def TmrLabel.isTick : TmrLabel → Bool
  | .tick => true
  | _ => false

/-- How many ticks a run has. -/
def tmrTicks (ls : List TmrLabel) : ℕ := ls.countP TmrLabel.isTick

/-- The expiries of `t` among the notes. -/
def expiriesOf (t : TmrId) (log : List TmrNote) : List TmrNote :=
  log.filter fun
    | .expired u _ => u = t
    | .stopped _ _ => false

/-- How often a timer expires in `n` ticks, with `r` ticks to go and then every `p` ticks. -/
def expiries (periodic : Prop) [Decidable periodic] (r p n : ℕ) : ℕ :=
  if n < r then 0 else if periodic then 1 + (n - r) / p else 1

/-- A difference of two times, where none stands for all `2 ^ 32` ticks. -/
def fullCircle (d : ℕ) : ℕ := if d = 0 then 4294967296 else d

/-- The ticks from an expiry of a periodic timer to the next one. -/
def OsTmr.interval (c : OsTmr) : ℕ := fullCircle (u32 c.period)

/-- The ticks until a running timer expires, of which `OSTmrRemainGet` gives 32 bits. -/
def Timers.remaining (T : Timers) (t : TmrId) : ℕ := fullCircle (T.osTmrRemainGet false t).1

/-- The walk has still to visit the timers `l`. -/
structure Unvisited (T : Timers) (spokes : ℕ → List TmrId) (l : List TmrId) (pc : TmrPc) :
    Prop where
  ne_fault : pc ≠ .fault
  suffix : l <:+ spokes (T.time % osTmrCfgWheelSize)
  head : l.head? = pc.saved

/-- What remains is the distance of the match from the time, a full circle where it is 0. -/
theorem Timers.Wf.remaining_eq {T : Timers} {spokes : ℕ → List TmrId} {unused : List TmrId}
    {t : TmrId} (h : T.Wf spokes unused) (ht : (T.tbl t).state = .running) :
    T.remaining t = fullCircle (u32 ((T.tbl t).matchTime - T.time)) := by
  simp [remaining, osTmrRemainGet, h.type, ht]

/-! ### The walk -/

variable {T T' : Timers} {spokes spokes' : ℕ → List TmrId} {unused l : List TmrId} {t u : TmrId}
  {pc : TmrPc}

/-- An edit of another timer than the next one leaves the walk where it is. -/
theorem Unvisited.edit (h : Unvisited T spokes l pc) (he : Edited u T T' spokes spokes')
    (hu : pc.saved ≠ some u) :
    ∃ l', Unvisited T' spokes' l' pc ∧ (∀ v ∈ l', v ∈ l) ∧ ∀ v ∈ l, v ≠ u → v ∈ l' := by
  have hsuffix := h.suffix
  rcases he.spoke (T.time % osTmrCfgWheelSize) with heq | heq | heq
  · refine ⟨l, ⟨h.ne_fault, ?_, h.head⟩, fun _ hv => hv, fun _ hv _ => hv⟩
    rw [he.time, heq]
    exact hsuffix
  · obtain ⟨l₁, hl₁⟩ := hsuffix
    by_cases hmem : u ∈ l₁
    · refine ⟨l, ⟨h.ne_fault, ?_, h.head⟩, fun _ hv => hv, fun _ hv _ => hv⟩
      rw [he.time, heq, ← hl₁, List.erase_append_left _ hmem]
      exact List.suffix_append _ _
    · -- The timer is taken out of what is still to be visited, behind the next one.
      refine ⟨l.erase u, ⟨h.ne_fault, ?_, ?_⟩, fun v hv => List.mem_of_mem_erase hv,
        fun v hv hvu => (List.mem_erase_of_ne hvu).mpr hv⟩
      · rw [he.time, heq, ← hl₁, List.erase_append_right _ hmem]
        exact List.suffix_append _ _
      · rw [← h.head] at hu ⊢
        cases l with
        | nil => rfl
        | cons a l =>
          rw [List.erase_cons_tail (by simpa using hu)]
          rfl
  · refine ⟨l, ⟨h.ne_fault, ?_, h.head⟩, fun _ hv => hv, fun _ hv _ => hv⟩
    rw [he.time, heq]
    exact hsuffix.trans (List.suffix_cons _ _)

/-- The walk goes on behind the first of its timers. -/
theorem Unvisited.next {a : TmrId} (h : Unvisited T spokes (a :: l) pc)
    (hwf : T.Wf spokes unused) : l.head? = (T.tbl a).next ∧ a ∉ l ∧ (T.tbl a).state = .running := by
  obtain ⟨l₁, hl₁⟩ := h.suffix
  have hchain := hwf.chain (T.time % osTmrCfgWheelSize)
  have hnodup := hwf.nodup (T.time % osTmrCfgWheelSize)
  have hmem := hwf.mem (T.time % osTmrCfgWheelSize) a
  rw [← hl₁] at hchain hnodup hmem
  refine ⟨hchain.suffix.2.head?_eq, ?_, (hmem.mp (by simp)).1⟩
  exact (List.nodup_cons.mp (List.nodup_append.mp hnodup).2.1).1

/-! ### One timer -/

/-- Where the timer `t` stands behind `n` ticks and `k` expiries, with `r` ticks to the first one
    and then `p` each: it runs and is due later, or it is due now and the walk has still to visit
    it, or it has expired for good. -/
inductive Standing (T : Timers) (l : List TmrId) (t : TmrId) (r p n k : ℕ) : Prop
  | later : (T.tbl t).state = .running → (k = 0 ∨ (T.tbl t).opt = osTmrOptPeriodic) →
      n < r + k * p → r + k * p ≤ n + 4294967296 →
      (T.tbl t).matchTime = (T.time + (r + k * p - n)) % 4294967296 →
      (t ∈ l → r + k * p < n + 4294967296) → Standing T l t r p n k
  | now : (T.tbl t).state = .running → (k = 0 ∨ (T.tbl t).opt = osTmrOptPeriodic) →
      n = r + k * p → (T.tbl t).matchTime = T.time → t ∈ l → Standing T l t r p n k
  | done : (T.tbl t).state = .completed → (T.tbl t).opt ≠ osTmrOptPeriodic → k = 1 → r ≤ n →
      Standing T l t r p n k

/-- What of a timer stays as it is while it runs. -/
structure SameTimer (c c' : OsTmr) : Prop where
  opt : c'.opt = c.opt
  period : c'.period = c.period
  callback : c'.callback = c.callback
  callbackArg : c'.callbackArg = c.callbackArg

/-- The period, the options and the callback are what matters. -/
theorem SameTimer.of_data {c₀ c c' : OsTmr} (h : SameTimer c₀ c) (hdata : c'.data = c.data) :
    SameTimer c₀ c' := by
  simp only [OsTmr.data, OsTmr.mk.injEq] at hdata
  obtain ⟨-, hcallback, harg, -, -, -, -, hperiod, hopt, -⟩ := hdata
  exact ⟨hopt.trans h.opt, hperiod.trans h.period, hcallback.trans h.callback,
    harg.trans h.callbackArg⟩

/-- The timer `t` behind `n` ticks and `k` expiries of a run from `s₀`. -/
structure Tracks (s₀ : TmrSystem) (t : TmrId) (n k : ℕ) (s : TmrSystem) : Prop where
  walk : ∃ spokes unused l, s.timers.Wf spokes unused ∧ Unvisited s.timers spokes l s.pc ∧
    Standing s.timers l t (s₀.timers.remaining t) (s₀.timers.tbl t).interval n k
  same : SameTimer (s₀.timers.tbl t) (s.timers.tbl t)
  /-- The last expiry is not later than now. -/
  last : ∀ j, k = j + 1 → s₀.timers.remaining t + j * (s₀.timers.tbl t).interval ≤ n
  log : expiriesOf t s.log = expiriesOf t s₀.log ++ List.replicate k
    (.expired t ((s₀.timers.tbl t).callback.map (·, (s₀.timers.tbl t).callbackArg)))

variable {s₀ s s' : TmrSystem} {r p n k : ℕ} {l' : List TmrId}

/-- A timer stands as before if it is the same and the walk still visits it. -/
theorem Standing.congr (h : Standing T l t r p n k) (hdata : (T'.tbl t).data = (T.tbl t).data)
    (htime : T'.time = T.time) (hl : t ∈ l' ↔ t ∈ l) : Standing T' l' t r p n k := by
  simp only [OsTmr.data, OsTmr.mk.injEq] at hdata
  obtain ⟨-, -, -, -, -, hmatch, -, -, hopt, hstate⟩ := hdata
  cases h with
  | later hrun hk hlt hle hm hmem =>
    exact .later (hstate.trans hrun) (hopt ▸ hk) hlt hle (by rw [hmatch, htime, hm])
      fun ht => hmem (hl.mp ht)
  | now hrun hk hn hm hmem =>
    exact .now (hstate.trans hrun) (hopt ▸ hk) hn (by rw [hmatch, htime, hm]) (hl.mpr hmem)
  | done hst ho hk hr => exact .done (hstate.trans hst) (hopt ▸ ho) hk hr

/-- Moves of another timer than `t` and the next one. -/
theorem TmrMoves.standing (hm : TmrMoves u T T') (hut : t ≠ u) (hu : pc.saved ≠ some u)
    (h : ∃ spokes unused l, T.Wf spokes unused ∧ Unvisited T spokes l pc ∧
      Standing T l t r p n k) :
    (∃ spokes unused l, T'.Wf spokes unused ∧ Unvisited T' spokes l pc ∧
      Standing T' l t r p n k) ∧ (T'.tbl t).data = (T.tbl t).data := by
  induction hm with
  | refl => exact ⟨h, rfl⟩
  | tail _ hm ih =>
    obtain ⟨⟨spokes, unused, l, hwf, hunv, hst⟩, hdata⟩ := ih
    obtain ⟨spokes', unused', hwf', he⟩ := hm.edit hwf
    obtain ⟨l', hunv', hsub, hsup⟩ := hunv.edit he hu
    have hdata' := he.data t hut
    exact ⟨⟨spokes', unused', l', hwf', hunv', hst.congr hdata' he.time
      ⟨hsub t, fun ht => hsup t ht hut⟩⟩, hdata'.trans hdata⟩

/-- What a longer log expires comes behind what it did before. -/
theorem expiriesOf_append (t : TmrId) (log log' : List TmrNote) :
    expiriesOf t (log ++ log') = expiriesOf t log ++ expiriesOf t log' :=
  List.filter_append _ _

/-- A call adds no expiry. -/
theorem TmrCall.expiriesOf_perform {isr : Bool} {c : TmrCall} {r : Timers × List TmrNote}
    (hr : c.perform T isr = some r) : expiriesOf t r.2 = [] := by
  cases c with
  | stop ptmr opt arg =>
    obtain ⟨r', -, rfl⟩ := Option.map_eq_some_iff.mp hr
    cases r'.2.2.2 <;> rfl
  | del ptmr | start ptmr =>
    obtain ⟨r', -, rfl⟩ := Option.map_eq_some_iff.mp hr
    rfl
  | create | setPeriod | setDly =>
    obtain rfl := Option.some.inj hr
    rfl

/-- A call for another timer. -/
theorem Tracks.call (h : Tracks s₀ t n k s) {isr : Bool} {c : TmrCall}
    (hok : TmrOk t s (.call isr c)) (hs : tmrStep s (.call isr c) = some s') :
    Tracks s₀ t n k s' := by
  obtain ⟨spokes, unused, l, hwf, hunv, hst⟩ := h.walk
  obtain ⟨r, hr, hcases⟩ := c.perform_cases hwf isr
  simp only [tmrStep, hr] at hs
  split at hs
  · obtain rfl := Option.some.inj hs
    have hlog : expiriesOf t (s.log ++ r.2) = expiriesOf t s.log := by
      rw [expiriesOf_append, TmrCall.expiriesOf_perform hr, List.append_nil]
    rcases hcases with heq | ⟨u, hu, hm⟩
    · refine ⟨⟨spokes, unused, l, ?_⟩, ?_, h.last, hlog.trans h.log⟩
      · dsimp only
        rw [heq]
        exact ⟨hwf, hunv, hst⟩
      · dsimp only
        rw [heq]
        exact h.same
    · obtain ⟨hut, hsaved⟩ := hok u hu
      obtain ⟨hwalk, hdata⟩ := hm.standing hut.symm hsaved h.walk
      exact ⟨hwalk, h.same.of_data hdata, h.last, hlog.trans h.log⟩
  · cases hs

/-- A tick makes the timers due that have one tick left. -/
theorem Tracks.tick (h : Tracks s₀ t n k s) (hs : tmrStep s .tick = some s') :
    Tracks s₀ t (n + 1) k s' := by
  obtain ⟨spokes, unused, l, hwf, hunv, hst⟩ := h.walk
  simp only [tmrStep] at hs
  split at hs
  · rename_i hpc
    obtain rfl := Option.some.inj hs
    have hnil : l = [] := by
      have hhead := hunv.head
      rw [hpc] at hhead
      exact List.head?_eq_none_iff.mp hhead
    subst hnil
    have hwf' := hwf.advance
    have htime : s.timers.advance.time = (s.timers.time + 1) % 4294967296 := by
      simp only [advance]
      unfold u32
      omega
    have hlt := hwf.timeLt
    refine ⟨⟨spokes, unused, spokes (s.timers.advance.time % osTmrCfgWheelSize), hwf', ⟨by simp,
      List.suffix_refl _, (hwf'.chain _).head?_eq⟩, ?_⟩, h.same, fun j hj => ?_, h.log⟩
    · cases hst with
      | later hrun hk hn hle hmatch hmem =>
        by_cases hdue : n + 1 = s₀.timers.remaining t +
            k * (s₀.timers.tbl t).interval
        · have hm : (s.timers.tbl t).matchTime = s.timers.advance.time := by
            rw [hmatch, htime, ← hdue]
            congr 2
            omega
          exact .now hrun hk hdue hm (hm ▸ hwf.mem_spoke hrun)
        · refine .later hrun hk (by omega) (by omega) ?_ fun _ => by omega
          rw [htime]
          change (s.timers.tbl t).matchTime = _
          rw [hmatch]
          omega
      | now hrun hk hn hm hmem => cases hmem
      | done hst ho hk hr => exact .done hst ho hk (by omega)
    · have := h.last j hj
      omega
  · cases hs

/-! ### A turn of the loop -/

/-- An expiry takes no time. -/
theorem Timers.expired_time (T : Timers) (t : TmrId) : (T.expired t).time = T.time := by
  unfold expired
  split <;> rfl

/-- An expired timer keeps its period, its options and its callback. -/
theorem Timers.expired_same (T : Timers) (t : TmrId) :
    SameTimer (T.tbl t) ((T.expired t).tbl t) := by
  unfold expired
  split <;> constructor <;> simp [linked, unlinked, setTmr]

/-- A periodic timer runs on, with its next match a period later. -/
theorem Timers.expired_periodic (hopt : (T.tbl t).opt = osTmrOptPeriodic) :
    ((T.expired t).tbl t).state = .running ∧
      ((T.expired t).tbl t).matchTime = u32 ((T.tbl t).period + T.time) := by
  simp [expired, hopt, linked, unlinked, linkMatch]

/-- A one-shot timer is completed. -/
theorem Timers.expired_oneShot (hopt : (T.tbl t).opt ≠ osTmrOptPeriodic) :
    ((T.expired t).tbl t).state = .completed := by
  simp [expired, hopt, setTmr]

/-- The walk does not visit other timers because of moves. -/
theorem TmrMoves.unvisited (hm : TmrMoves u T T') (hu : pc.saved ≠ some u)
    (hwf : T.Wf spokes unused) (hunv : Unvisited T spokes l pc) :
    ∃ spokes' unused' l', T'.Wf spokes' unused' ∧ Unvisited T' spokes' l' pc ∧
      ∀ v ∈ l', v ∈ l := by
  induction hm with
  | refl => exact ⟨spokes, unused, l, hwf, hunv, fun _ hv => hv⟩
  | tail _ hm ih =>
    obtain ⟨spokes', unused', l', hwf', hunv', hsub⟩ := ih
    obtain ⟨spokes'', unused'', hwf'', he⟩ := hm.edit hwf'
    obtain ⟨l'', hunv'', hsub', -⟩ := hunv'.edit he hu
    exact ⟨spokes'', unused'', l'', hwf'', hunv'', fun v hv => hsub v (hsub' v hv)⟩

/-- A timer that the walk has passed without expiry stands as before. -/
theorem Standing.passed {a : TmrId} (h : Standing T (a :: l) t r p n k)
    (hne : t = a → T.time ≠ (T.tbl t).matchTime) : Standing T l t r p n k := by
  cases h with
  | later hrun hk hlt hle hm hmem =>
    exact .later hrun hk hlt hle hm fun ht => hmem (List.mem_cons_of_mem _ ht)
  | now hrun hk hn hm hmem =>
    exact .now hrun hk hn hm ((List.mem_cons.mp hmem).resolve_left fun ht => hne ht hm.symm)
  | done hst ho hk hr => exact .done hst ho hk hr

/-- The walk expires `t`: it has just come due. -/
theorem Standing.due (h : Standing T (t :: l) t r p n k)
    (hdue : T.time = (T.tbl t).matchTime) (hrun : (T.tbl t).state = .running) :
    n = r + k * p ∧ (k = 0 ∨ (T.tbl t).opt = osTmrOptPeriodic) := by
  cases h with
  | later _ hk hn hle hm hmem =>
    have := hmem List.mem_cons_self
    omega
  | now _ hk hn _ _ => exact ⟨hn, hk⟩
  | done hst _ _ _ =>
    rw [hst] at hrun
    cases hrun

/-- A distance modulo 2^32, with 2^32 for 0. -/
theorem fullCircle_spec (x : ℤ) : 0 < fullCircle (u32 x) ∧ fullCircle (u32 x) ≤ 4294967296 ∧
    (fullCircle (u32 x) : ℤ) % 4294967296 = x % 4294967296 := by
  have hlt := u32_lt x
  unfold fullCircle
  split
  · unfold u32 at *
    omega
  · unfold u32 at *
    omega

/-- The walk goes on at the timer that was next. -/
theorem TmrSystem.afterExpiry_pc (s : TmrSystem) (u : TmrId) :
    (s.afterExpiry u).pc.saved = (s.timers.tbl u).next ∧ (s.afterExpiry u).pc ≠ .fault := by
  simp only [afterExpiry]
  split <;> exact ⟨rfl, by simp⟩

/-- Another timer expires. -/
theorem Tracks.expiry_other (h : Tracks s₀ t n k s) (hwf : s.timers.Wf spokes unused)
    (hunv : Unvisited s.timers spokes (u :: l) s.pc) (hut : t ≠ u)
    (hst : Standing s.timers (u :: l) t (s₀.timers.remaining t)
      (s₀.timers.tbl t).interval n k) : Tracks s₀ t n k (s.afterExpiry u) := by
  obtain ⟨hnext, hnot, hrun⟩ := hunv.next hwf
  obtain ⟨hsaved, hne⟩ := s.afterExpiry_pc u
  have hunv' : Unvisited s.timers spokes l (s.afterExpiry u).pc :=
    ⟨hne, (List.suffix_cons u l).trans hunv.suffix, hnext.trans hsaved.symm⟩
  have hself : (s.afterExpiry u).pc.saved ≠ some u := by
    rw [hsaved, ← hnext]
    exact fun hhead => hnot (List.mem_of_mem_head? hhead)
  obtain ⟨hwalk, hdata⟩ := (expired_moves hrun).standing hut hself
    ⟨spokes, unused, l, hwf, hunv', hst.passed fun htu => absurd htu hut⟩
  refine ⟨hwalk, h.same.of_data hdata, h.last, ?_⟩
  rw [← h.log]
  simp [TmrSystem.afterExpiry, expiriesOf, Ne.symm hut]

/-- The timer expires. -/
theorem Tracks.expiry_self (h : Tracks s₀ t n k s) (hwf : s.timers.Wf spokes unused)
    (hunv : Unvisited s.timers spokes (t :: l) s.pc)
    (hst : Standing s.timers (t :: l) t (s₀.timers.remaining t)
      (s₀.timers.tbl t).interval n k)
    (hdue : s.timers.time = (s.timers.tbl t).matchTime) :
    Tracks s₀ t n (k + 1) (s.afterExpiry t) := by
  obtain ⟨hnext, hnot, hrun⟩ := hunv.next hwf
  obtain ⟨hsaved, hne⟩ := s.afterExpiry_pc t
  have hunv' : Unvisited s.timers spokes l (s.afterExpiry t).pc :=
    ⟨hne, (List.suffix_cons t l).trans hunv.suffix, hnext.trans hsaved.symm⟩
  have hself : (s.afterExpiry t).pc.saved ≠ some t := by
    rw [hsaved, ← hnext]
    exact fun hhead => hnot (List.mem_of_mem_head? hhead)
  obtain ⟨spokes', unused', l', hwf', hunv'', hsub⟩ :=
    (expired_moves hrun).unvisited hself hwf hunv'
  obtain ⟨hn, hk⟩ := hst.due hdue hrun
  have hsame := expired_same s.timers t
  obtain ⟨hpos, hle, hmod⟩ : 0 < (s₀.timers.tbl t).interval ∧
      (s₀.timers.tbl t).interval ≤ 4294967296 ∧
      ((s₀.timers.tbl t).interval : ℤ) % 4294967296 =
        ((s₀.timers.tbl t).period : ℤ) % 4294967296 := fullCircle_spec _
  have hmul : (k + 1) * (s₀.timers.tbl t).interval =
      k * (s₀.timers.tbl t).interval + (s₀.timers.tbl t).interval := Nat.succ_mul _ _
  refine ⟨⟨spokes', unused', l', hwf', hunv'', ?_⟩, ⟨hsame.opt.trans h.same.opt,
    hsame.period.trans h.same.period, hsame.callback.trans h.same.callback,
    hsame.callbackArg.trans h.same.callbackArg⟩, ?_, ?_⟩
  · by_cases hopt : (s.timers.tbl t).opt = osTmrOptPeriodic
    · obtain ⟨hrun', hmatch'⟩ := expired_periodic hopt
      refine .later hrun' (.inr (hsame.opt.trans hopt)) (by omega) (by omega) ?_
        fun ht => absurd (hsub t ht) hnot
      refine hmatch'.trans ?_
      rw [h.same.period, show (s.afterExpiry t).timers.time = s.timers.time from expired_time _ _]
      unfold u32
      omega
    · obtain rfl : k = 0 := hk.resolve_right hopt
      exact .done (expired_oneShot hopt) (fun h => hopt (hsame.opt.symm.trans h)) rfl (by omega)
  · intro j hj
    obtain rfl : k = j := by omega
    omega
  · have hlog : expiriesOf t (s.afterExpiry t).log = expiriesOf t s.log ++
        [.expired t ((s₀.timers.tbl t).callback.map (·, (s₀.timers.tbl t).callbackArg))] := by
      simp only [TmrSystem.afterExpiry, expiriesOf_append]
      rw [hsame.callback, hsame.callbackArg, h.same.callback, h.same.callbackArg]
      simp [expiriesOf]
    rw [hlog, h.log, List.append_assoc, ← List.replicate_succ']

/-- **A turn of the loop.** -/
theorem Tracks.visit (h : Tracks s₀ t n k s) (hs : tmrStep s .visit = some s') :
    ∃ k', Tracks s₀ t n k' s' := by
  obtain ⟨spokes, unused, l, hwf, hunv, hst⟩ := h.walk
  have hhead := hunv.head
  simp only [tmrStep] at hs
  split at hs
  · rename_i hpc
    obtain rfl := Option.some.inj hs
    rw [hpc] at hhead
    exact ⟨k, ⟨spokes, unused, l, hwf, ⟨by simp, hunv.suffix, hhead⟩, hst⟩, h.same, h.last, h.log⟩
  · rename_i a hpc
    obtain rfl := Option.some.inj hs
    rw [hpc] at hhead
    obtain ⟨l, rfl⟩ := List.head?_eq_some_iff.mp hhead
    obtain ⟨hnext, -, hrun⟩ := hunv.next hwf
    rcases TmrSystem.visit_cases hwf a with ⟨hdue, heq⟩ | ⟨hdue, -, heq⟩ | ⟨-, hne, -⟩
    · rw [heq]
      exact ⟨k, ⟨spokes, unused, l, hwf, ⟨by simp, (List.suffix_cons a l).trans hunv.suffix, hnext⟩,
        hst.passed fun hta => hta ▸ hdue⟩, h.same, h.last, h.log⟩
    · rw [heq]
      by_cases hta : t = a
      · subst hta
        exact ⟨k + 1, h.expiry_self hwf hunv hst hdue⟩
      · exact ⟨k, h.expiry_other hwf hunv hta hst⟩
    · exact absurd hrun hne
  · cases hs

/-! ### Runs -/

/-- A step that spares the timer keeps it on its way. -/
theorem Tracks.step {l : TmrLabel} (h : Tracks s₀ t n k s) (hok : TmrOk t s l)
    (hs : tmrStep s l = some s') : ∃ k', Tracks s₀ t (n + tmrTicks [l]) k' s' := by
  cases l with
  | call isr c => exact ⟨k, h.call hok hs⟩
  | tick => exact ⟨k, h.tick hs⟩
  | visit => exact h.visit hs
  | ret =>
    obtain ⟨spokes, unused, l, hwf, hunv, hst⟩ := h.walk
    have hhead := hunv.head
    simp only [tmrStep] at hs
    split at hs
    · rename_i next hpc
      obtain rfl := Option.some.inj hs
      rw [hpc] at hhead
      exact ⟨k, ⟨spokes, unused, l, hwf, ⟨by simp, hunv.suffix, hhead⟩, hst⟩, h.same, h.last,
        h.log⟩
    · cases hs

/-- A run that spares the timer keeps it on its way. -/
theorem Tracks.run {ls : List TmrLabel} (h : Tracks s₀ t n k s)
    (hok : Along tmrStep (TmrOk t) s ls) (hrun : run tmrStep s ls = some s') :
    ∃ k', Tracks s₀ t (n + tmrTicks ls) k' s' := by
  induction ls generalizing s n k with
  | nil =>
    rw [run_nil, Option.some.injEq] at hrun
    exact ⟨k, hrun ▸ h⟩
  | cons l ls ih =>
    rw [run_cons, Option.bind_eq_some_iff] at hrun
    obtain ⟨s₁, hs₁, hrun⟩ := hrun
    obtain ⟨k₁, h₁⟩ := h.step hok.1 hs₁
    obtain ⟨k', h'⟩ := ih h₁ (hok.2 s₁ hs₁) hrun
    refine ⟨k', ?_⟩
    have hticks : tmrTicks (l :: ls) = tmrTicks [l] + tmrTicks ls := by
      simp [tmrTicks, List.countP_cons, Nat.add_comm]
    rw [hticks, ← Nat.add_assoc]
    exact h'

/-- At the start of the run. -/
theorem tracks_start (h : TmrReachable s) (hidle : s.pc = .idle)
    (ht : (s.timers.tbl t).state = .running) : Tracks s t 0 0 s := by
  obtain ⟨spokes, unused, hwf⟩ := h.listsOk
  obtain ⟨hpos, hle, hmod⟩ := fullCircle_spec ((s.timers.tbl t).matchTime - s.timers.time)
  have hmatch := hwf.matchLt t
  have htime := hwf.timeLt
  refine ⟨⟨spokes, unused, [], hwf, ⟨by simp [hidle], List.nil_suffix, by simp [hidle, TmrPc.saved]⟩,
    .later ht (.inl rfl) ?_ ?_ ?_ (by simp)⟩, ⟨rfl, rfl, rfl, rfl⟩, by simp, by simp⟩
  · simpa [hwf.remaining_eq ht] using hpos
  · simpa [hwf.remaining_eq ht] using hle
  · rw [hwf.remaining_eq ht]
    omega

/-- Between two turns of the timer task the number of expiries is that of the deadlines passed. -/
theorem Tracks.eq_expiries (h : Tracks s₀ t n k s) (hidle : s.pc = .idle) :
    k = expiries ((s₀.timers.tbl t).opt = osTmrOptPeriodic) (s₀.timers.remaining t)
      (s₀.timers.tbl t).interval n := by
  obtain ⟨spokes, unused, l, hwf, hunv, hst⟩ := h.walk
  have hlast := h.last
  have hpos : 0 < (s₀.timers.tbl t).interval := (fullCircle_spec _).1
  have hnil : l = [] := by
    have hhead := hunv.head
    rw [hidle] at hhead
    exact List.head?_eq_none_iff.mp hhead
  subst hnil
  unfold expiries
  cases hst with
  | now _ _ _ _ hmem => cases hmem
  | done _ ho hk hr =>
    rw [h.same.opt] at ho
    rw [if_neg (by omega), if_neg ho, hk]
  | later _ hk hlt _ _ _ =>
    rw [h.same.opt] at hk
    cases k with
    | zero => rw [if_pos (by omega)]
    | succ j =>
      have hj := hlast j rfl
      have hmul : (j + 1) * (s₀.timers.tbl t).interval =
          j * (s₀.timers.tbl t).interval + (s₀.timers.tbl t).interval := Nat.succ_mul _ _
      rw [if_neg (by omega), if_pos (hk.resolve_left (by omega)), Nat.add_comm]
      congr 1
      symm
      apply Nat.div_eq_of_lt_le <;> omega

/-- **Timers expire on time.**  Look at a running timer `t` between two turns of the timer task, and
    at a run in which nobody calls the module for `t`, and no callback for the timer that the walk
    goes on with.  The run does not fault, and whenever the timer task waits again, `t` has expired,
    with its callback, exactly as often as its time came: first when the ticks that were left are
    over, and if it is periodic from then on once every period. -/
theorem timer_expires_on_time {ls : List TmrLabel} (h : TmrReachable s) (hidle : s.pc = .idle)
    (ht : (s.timers.tbl t).state = .running) (hok : Along tmrStep (TmrOk t) s ls)
    (hrun : run tmrStep s ls = some s') :
    s'.pc ≠ .fault ∧ (s'.pc = .idle → expiriesOf t s'.log = expiriesOf t s.log ++
      List.replicate
        (expiries ((s.timers.tbl t).opt = osTmrOptPeriodic) (s.timers.remaining t)
          (s.timers.tbl t).interval (tmrTicks ls))
        (.expired t ((s.timers.tbl t).callback.map (·, (s.timers.tbl t).callbackArg)))) := by
  obtain ⟨k, htracks⟩ := (tracks_start h hidle ht).run hok hrun
  rw [Nat.zero_add] at htracks
  refine ⟨?_, fun hidle' => ?_⟩
  · obtain ⟨_, _, _, -, hunv, -⟩ := htracks.walk
    exact hunv.ne_fault
  · rw [← htracks.eq_expiries hidle']
    exact htracks.log

/-- A repeating timer is created and started with a period of three ticks. -/
def periodicRun : List TmrLabel :=
  [.call false (.create 0 3 osTmrOptPeriodic (some 7) 1), .call false (.start 0)]

/-- Seven ticks; the timer is in the way of the third and the sixth. -/
def sevenTicks : List TmrLabel :=
  [.tick, .visit, .tick, .visit, .tick, .visit, .ret, .visit,
    .tick, .visit, .tick, .visit, .tick, .visit, .ret, .visit, .tick, .visit]

/-- Nobody touches the timer in these seven ticks. -/
theorem sevenTicks_ok (t : TmrId) (s : TmrSystem) : Along tmrStep (TmrOk t) s sevenTicks := by
  apply along_of_forall
  intro s l hl
  simp only [sevenTicks, List.mem_cons, List.not_mem_nil, or_false] at hl
  rcases hl with rfl | rfl | rfl | rfl | rfl | rfl | rfl | rfl | rfl | rfl | rfl | rfl | rfl |
    rfl | rfl | rfl | rfl | rfl <;> trivial

theorem timer_expires_on_time_sevenTicks :
    expiriesOf 0 (runEnd tmrStep (runEnd tmrStep tmrBoot periodicRun) sevenTicks).log =
      [.expired 0 (some (7, 1)), .expired 0 (some (7, 1))] :=
  ((timer_expires_on_time ⟨periodicRun, run_eq_runEnd (by decide +kernel)⟩ (by decide +kernel)
    (by decide +kernel) (sevenTicks_ok 0 _) (run_eq_runEnd (by decide +kernel))).2
    (by decide +kernel)).trans (by decide +kernel)

end SerialNet
