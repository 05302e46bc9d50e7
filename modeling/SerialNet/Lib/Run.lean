import Mathlib.Data.List.Basic

namespace SerialNet

/-!
# Runs of transition systems

Two forms of step function cover this development:

* `step : σ → ℓ → Option σ` — labels are the scheduler's and the environment's choices,
  `none` means the step is not possible (a blocked task).  `run` takes a list of labels,
  `Along ok` says that every step of the run meets a condition on the state before it, and
  `run_invariant` is the induction over runs.
* `step : σ → ι → σ × ω` — total calls with a result.  `trace` collects the results,
  `Throughout` is the condition on every call, `trace_invariant` is the induction and
  `trace_refines` is forward simulation.
-/

section Partial

variable {σ ℓ : Type*} (step : σ → ℓ → Option σ)

/-- The state after the labels `ls`, if every step of the run is possible. -/
def run : σ → List ℓ → Option σ
  | s, [] => some s
  | s, l :: ls => (step s l).bind fun s' => run s' ls

/-- Every step of the run from `s` along `ls` meets `ok` in the state before it. -/
def Along (ok : σ → ℓ → Prop) : σ → List ℓ → Prop
  | _, [] => True
  | s, l :: ls => ok s l ∧ ∀ s', step s l = some s' → Along ok s' ls

/-- `inv` holds in every state of the run from `s` along `ls`. -/
def Always (inv : σ → Prop) : σ → List ℓ → Prop
  | s, [] => inv s
  | s, l :: ls => inv s ∧ ∀ s', step s l = some s' → Always inv s' ls

variable {step}

/-- A run of no step ends where it starts. -/
@[simp] theorem run_nil (s : σ) : run step s [] = some s := rfl

/-- The first step, then the others from the state it leads to. -/
theorem run_cons (s : σ) (l : ℓ) (ls : List ℓ) :
    run step s (l :: ls) = (step s l).bind fun s' => run step s' ls := rfl

/-- A run of one step. -/
theorem run_singleton (s : σ) (l : ℓ) : run step s [l] = step s l := by
  rw [run_cons]
  cases step s l <;> rfl

/-- A run of a concatenation passes through the end of its first part. -/
theorem run_append (s : σ) (ks ls : List ℓ) :
    run step s (ks ++ ls) = (run step s ks).bind fun s' => run step s' ls := by
  induction ks generalizing s with
  | nil => rfl
  | cons k ks ih =>
    rw [List.cons_append, run_cons, run_cons, Option.bind_assoc]
    congr 1
    funext s'
    exact ih s'

/-- A condition along a concatenation. -/
theorem along_append {ok : σ → ℓ → Prop} {s : σ} {ks ls : List ℓ} :
    Along step ok s (ks ++ ls) ↔
      Along step ok s ks ∧ ∀ t, run step s ks = some t → Along step ok t ls := by
  induction ks generalizing s with
  | nil => simp [Along]
  | cons k ks ih =>
    rw [List.cons_append, Along, Along, and_assoc]
    apply and_congr_right
    intro _
    cases hk : step s k with
    | none => simp [run_cons, hk]
    | some s' => simp [run_cons, hk, ih]

/-- **Induction over runs.**  What every step meeting `ok` preserves holds at the end of
    every run whose steps all meet `ok`. -/
theorem run_invariant {ok : σ → ℓ → Prop} {inv : σ → Prop}
    (hstep : ∀ s l s', inv s → ok s l → step s l = some s' → inv s') :
    ∀ (ls : List ℓ) (s t : σ), inv s → Along step ok s ls → run step s ls = some t → inv t
  | [], s, t, hs, _, hr => by
    rw [run_nil, Option.some.injEq] at hr
    exact hr ▸ hs
  | l :: ls, s, t, hs, hok, hr => by
    rw [run_cons, Option.bind_eq_some_iff] at hr
    obtain ⟨s', hs', hr'⟩ := hr
    exact run_invariant hstep ls s' t (hstep s l s' hs hok.1 hs') (hok.2 s' hs') hr'

/-- A condition that holds in every state holds along every run. -/
theorem along_of_forall {ok : σ → ℓ → Prop} {ls : List ℓ} (h : ∀ s, ∀ l ∈ ls, ok s l) (s : σ) :
    Along step ok s ls := by
  induction ls generalizing s with
  | nil => trivial
  | cons l ls ih =>
    exact ⟨h s l (by simp), fun s' _ => ih (fun t k hk => h t k (by simp [hk])) s'⟩

/-- A weaker condition holds along the same run. -/
theorem Along.mono {ok ok' : σ → ℓ → Prop} {ls : List ℓ} {s : σ} (h : Along step ok s ls)
    (himp : ∀ s l, ok s l → ok' s l) : Along step ok' s ls := by
  induction ls generalizing s with
  | nil => trivial
  | cons l ls ih => exact ⟨himp s l h.1, fun s' hs' => ih (h.2 s' hs')⟩

/-- Two conditions that hold along a run hold together. -/
theorem Along.and {ok ok' : σ → ℓ → Prop} {ls : List ℓ} {s : σ} (h : Along step ok s ls)
    (h' : Along step ok' s ls) : Along step (fun s l => ok s l ∧ ok' s l) s ls := by
  induction ls generalizing s with
  | nil => trivial
  | cons l ls ih =>
    exact ⟨⟨h.1, h'.1⟩, fun s' hs' => ih (h.2 s' hs') (h'.2 s' hs')⟩

/-- Conditions that agree in the states of an invariant agree along runs from such a state. -/
theorem along_congr {ok ok' : σ → ℓ → Prop} {inv : σ → Prop}
    (hstep : ∀ s l s', inv s → step s l = some s' → inv s')
    (hok : ∀ s l, inv s → (ok s l ↔ ok' s l)) :
    ∀ {ls : List ℓ} {s : σ}, inv s → (Along step ok s ls ↔ Along step ok' s ls)
  | [], _, _ => Iff.rfl
  | l :: _, s, hs => and_congr (hok s l hs) <|
      forall_congr' fun s' => forall_congr' fun h => along_congr hstep hok (hstep s l s' hs h)

/-- **An exact condition for runs.**  If a step from a `good` state keeps it good when it meets
    `ok`, and breaks `inv` when it does not, then `inv` holds throughout a run from a good state
    exactly when all its steps meet `ok`. -/
theorem always_iff_along {ok : σ → ℓ → Prop} {inv good : σ → Prop}
    (hinv : ∀ s, good s → inv s)
    (hstep : ∀ s l s', good s → step s l = some s' →
      (ok s l ∧ good s') ∨ (¬ ok s l ∧ ¬ inv s')) :
    ∀ (ls : List ℓ) (s : σ), good s → (run step s ls).isSome →
      (Always step inv s ls ↔ Along step ok s ls)
  | [], s, hs, _ => iff_of_true (hinv s hs) trivial
  | l :: ls, s, hs, hr => by
    rw [run_cons] at hr
    cases hl : step s l with
    | none =>
      rw [hl] at hr
      cases hr
    | some s' =>
      rw [hl] at hr
      have hnext : ∀ P : σ → Prop, (∀ s'', step s l = some s'' → P s'') ↔ P s' := by
        intro P
        rw [hl]
        exact ⟨fun h => h s' rfl, fun h s'' h' => Option.some.inj h' ▸ h⟩
      rw [Always, Along, hnext, hnext, and_iff_right (hinv s hs)]
      rcases hstep s l s' hs hl with ⟨hok, hgood⟩ | ⟨hok, hbad⟩
      · rw [and_iff_right hok]
        exact always_iff_along hinv hstep ls s' hgood hr
      · refine iff_of_false (fun h => hbad ?_) fun h => hok h.1
        cases ls with
        | nil => exact h
        | cons k ks => exact h.1

/-- The end of a run; the start if some step is not possible. -/
def runEnd (step : σ → ℓ → Option σ) (s : σ) (ls : List ℓ) : σ := (run step s ls).getD s

/-- A run that is possible ends in `runEnd`. -/
theorem run_eq_runEnd {s : σ} {l : List ℓ} (h : (run step s l).isSome) :
    run step s l = some (runEnd step s l) := by
  obtain ⟨t, ht⟩ := Option.isSome_iff_exists.mp h
  rw [runEnd, ht]
  rfl

/-- Along a fixed run the condition can be evaluated. -/
instance decidableAlong (step : σ → ℓ → Option σ) (ok : σ → ℓ → Prop)
    [∀ s l, Decidable (ok s l)] : ∀ (s : σ) (ls : List ℓ), Decidable (Along step ok s ls)
  | _, [] => .isTrue trivial
  | s, l :: ls =>
    match h : step s l with
    | none => decidable_of_iff (ok s l) (by simp [Along, h])
    | some s' =>
      have := decidableAlong step ok s' ls
      decidable_of_iff (ok s l ∧ Along step ok s' ls) (by simp [Along, h])

end Partial

section Total

variable {σ τ ι ω : Type*}

/-- Perform the calls `cs` from `s`; the final state and the results in order. -/
def trace (step : σ → ι → σ × ω) : σ → List ι → σ × List ω
  | s, [] => (s, [])
  | s, c :: cs =>
    let r := step s c
    let rest := trace step r.1 cs
    (rest.1, r.2 :: rest.2)

/-- Every call of the trace from `s` meets `ok` in the state before it. -/
def Throughout (step : σ → ι → σ × ω) (ok : σ → ι → Prop) : σ → List ι → Prop
  | _, [] => True
  | s, c :: cs => ok s c ∧ Throughout step ok (step s c).1 cs

/-- For fixed calls the condition can be evaluated. -/
instance decidableThroughout (step : σ → ι → σ × ω) (ok : σ → ι → Prop)
    [∀ s c, Decidable (ok s c)] : ∀ (s : σ) (cs : List ι), Decidable (Throughout step ok s cs)
  | _, [] => .isTrue trivial
  | s, c :: cs =>
    have := decidableThroughout step ok (step s c).1 cs
    inferInstanceAs (Decidable (ok s c ∧ Throughout step ok (step s c).1 cs))

/-- More calls go on from where the first ones ended. -/
theorem trace_append (step : σ → ι → σ × ω) (s : σ) (cs ds : List ι) :
    (trace step s (cs ++ ds)).1 = (trace step (trace step s cs).1 ds).1 := by
  induction cs generalizing s with
  | nil => rfl
  | cons c cs ih => exact ih (step s c).1

/-- What every call preserves holds after any number of calls. -/
theorem trace_invariant {step : σ → ι → σ × ω} {inv : σ → Prop}
    (hstep : ∀ s c, inv s → inv (step s c).1) : ∀ (cs : List ι) (s : σ), inv s →
      inv (trace step s cs).1
  | [], _, hs => hs
  | c :: cs, s, hs => trace_invariant hstep cs _ (hstep s c hs)

/-- **Induction over traces with a condition.**  If an invariant is kept by the calls that meet
    `ok` and makes these meet `ok'`, then all calls meet `ok'` if all meet `ok`. -/
theorem throughout_of_invariant {step : σ → ι → σ × ω} {inv : σ → Prop} {ok ok' : σ → ι → Prop}
    (hstep : ∀ s c, inv s → ok s c → inv (step s c).1 ∧ ok' s c) : ∀ (cs : List ι) (s : σ), inv s →
      Throughout step ok s cs → Throughout step ok' s cs
  | [], _, _, _ => trivial
  | c :: cs, s, hs, h => by
    obtain ⟨hnext, hok⟩ := hstep s c hs h.1
    exact ⟨hok, throughout_of_invariant hstep cs _ hnext h.2⟩

/-- **Forward simulation.**  If related states stay related under a call that the second one
    admits, and answer it alike, then so do all sequences of admitted calls. -/
theorem trace_refines_throughout {step : σ → ι → σ × ω} {step' : τ → ι → τ × ω}
    {ok : τ → ι → Prop} {R : σ → τ → Prop}
    (hstep : ∀ s t c, ok t c → R s t →
      (step s c).2 = (step' t c).2 ∧ R (step s c).1 (step' t c).1) :
    ∀ (cs : List ι) (s : σ) (t : τ), Throughout step' ok t cs → R s t →
      (trace step s cs).2 = (trace step' t cs).2 ∧ R (trace step s cs).1 (trace step' t cs).1
  | [], _, _, _, hR => ⟨rfl, hR⟩
  | c :: cs, s, t, hok, hR => by
    obtain ⟨hout, hR'⟩ := hstep s t c hok.1 hR
    obtain ⟨houts, hRs⟩ := trace_refines_throughout hstep cs _ _ hok.2 hR'
    exact ⟨by simp only [trace, hout, houts], hRs⟩

/-- Calls that are valid in every state are valid throughout. -/
theorem throughout_of_forall {step : σ → ι → σ × ω} {valid : ι → Prop} :
    ∀ {cs : List ι}, (∀ c ∈ cs, valid c) → ∀ s, Throughout step (fun _ c => valid c) s cs
  | [], _, _ => trivial
  | c :: _, h, _ => ⟨h c List.mem_cons_self,
      throughout_of_forall (fun d hd => h d (List.mem_cons_of_mem c hd)) _⟩

/-- Forward simulation for calls that are admitted in every state. -/
theorem trace_refines {step : σ → ι → σ × ω} {step' : τ → ι → τ × ω} {valid : ι → Prop}
    {R : σ → τ → Prop}
    (hstep : ∀ s t c, valid c → R s t →
      (step s c).2 = (step' t c).2 ∧ R (step s c).1 (step' t c).1)
    (cs : List ι) (s : σ) (t : τ) (hv : ∀ c ∈ cs, valid c) (hR : R s t) :
    (trace step s cs).2 = (trace step' t cs).2 ∧ R (trace step s cs).1 (trace step' t cs).1 :=
  trace_refines_throughout hstep cs s t (throughout_of_forall hv t) hR

end Total

end SerialNet
