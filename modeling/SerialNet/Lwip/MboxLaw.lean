import SerialNet.Lwip.Mbox

namespace SerialNet

/-!
# Which mailbox runs lose no message

The law of a mailbox: the messages given to it are those that were fetched, followed by those
still queued, in this order (`MboxLaw`).  So each message is queued or was returned by exactly one
fetch, NULL is fetched as NULL, and nothing that was not accepted is ever fetched.

A step breaks the law when a post returns after its tenth failure, or when the address of
`pvNullPointer` itself is queued as a message (`Fine` excludes both); once broken it stays so.
Hence a run ends in a state that obeys the law exactly when all its steps are fine
(`mbox_law_iff`).
-/

variable {τ : Type} {cap : ℕ}

/-- The messages that were delivered or are still to be. -/
def delivered (np : ℕ) (s : Mbox τ cap) : List ℕ :=
  s.fetched ++ s.queue.items.map (fromQueue np)

/-- No message is lost, doubled, changed or overtaken. -/
def MboxLaw (np : ℕ) (s : Mbox τ cap) : Prop := s.given = delivered np s

/-- The queue takes `msg` for another message. -/
def Misread (np : ℕ) (s : Mbox τ cap) (msg : ℕ) : Prop :=
  s.queue.items.length < cap ∧ fromQueue np (toQueue np msg) ≠ msg

/-- The step is not the return of a post that has failed ten times, and queues no message that is
    misread. -/
def Fine (np : ℕ) (s : Mbox τ cap) : MboxAct τ → Prop
  | .post _ _ => True
  | .turn t => ∀ msg i, s.pc t = .posting msg i → i < 10 ∧ ¬ Misread np s msg
  | .trypost _ msg => ¬ Misread np s msg
  | .fetch .. => True

/-- The law is broken, and not by deliveries that nobody asked for. -/
def Broken (np : ℕ) (s : Mbox τ cap) : Prop :=
  s.given ≠ delivered np s ∧ (delivered np s).length ≤ s.given.length

/-! ### What a step does to the two lists -/

/-- A fine step gives and delivers the same, another one gives a message that is not delivered. -/
inductive MboxEffect (np : ℕ) (s s' : Mbox τ cap) (a : MboxAct τ) : Prop where
  | fine (hfine : Fine np s a) (ms : List ℕ) (hgiven : s'.given = s.given ++ ms)
      (hdel : delivered np s' = delivered np s ++ ms)
  | lost (hfine : ¬ Fine np s a) (msg : ℕ) (xs : List ℕ) (hgiven : s'.given = s.given ++ [msg])
      (hdel : delivered np s' = delivered np s ++ xs) (hne : xs ≠ [msg]) (hlen : xs.length ≤ 1)

/-- A queued message is to be delivered. -/
theorem delivered_push {np msg : ℕ} {s s' : Mbox τ cap} {q : Fifo ℕ cap}
    (hpush : s.queue.push (toQueue np msg) = some q) (hq : s'.queue = q)
    (hfetched : s'.fetched = s.fetched) :
    delivered np s' = delivered np s ++ [fromQueue np (toQueue np msg)] := by
  rw [delivered, delivered, hfetched, hq, Fifo.push_eq_some hpush, List.map_append,
    List.append_assoc]
  rfl

/-- A queue that takes a message has room for it. -/
theorem misread_iff {np msg : ℕ} {s : Mbox τ cap} {q : Fifo ℕ cap}
    (hpush : s.queue.push (toQueue np msg) = some q) :
    Misread np s msg ↔ fromQueue np (toQueue np msg) ≠ msg := by
  have hroom : s.queue.items.length < cap := by
    have hbound := q.bound
    rw [Fifo.push_eq_some hpush, List.length_append] at hbound
    exact hbound
  exact ⟨fun h => h.2, fun h => ⟨hroom, h⟩⟩

/-- A full queue misreads nothing. -/
theorem not_misread {np msg : ℕ} {s : Mbox τ cap} (hpush : s.queue.push (toQueue np msg) = none) :
    ¬ Misread np s msg := by
  rintro ⟨hroom, -⟩
  rw [Fifo.push, dif_pos hroom] at hpush
  cases hpush

/-- A message that the queue took. -/
theorem effect_push {np msg : ℕ} {s s' : Mbox τ cap} {a : MboxAct τ} {q : Fifo ℕ cap}
    (hpush : s.queue.push (toQueue np msg) = some q) (hq : s'.queue = q)
    (hfetched : s'.fetched = s.fetched) (hgiven : s'.given = s.given ++ [msg])
    (hfine : Fine np s a ↔ ¬ Misread np s msg) : MboxEffect np s s' a := by
  have hdel := delivered_push hpush hq hfetched
  by_cases hread : fromQueue np (toQueue np msg) = msg
  · rw [hread] at hdel
    exact .fine (hfine.mpr fun h => h.2 hread) [msg] hgiven hdel
  · refine .lost (fun h => hfine.mp h ((misread_iff hpush).mpr hread)) msg _ hgiven hdel ?_ le_rfl
    exact fun h => hread (List.singleton_inj.mp h)

/-- A step that touches neither the queue nor the lists. -/
theorem effect_quiet {np : ℕ} {s s' : Mbox τ cap} {a : MboxAct τ} (hfine : Fine np s a)
    (hgiven : s'.given = s.given) (hdel : delivered np s' = delivered np s) :
    MboxEffect np s s' a :=
  .fine hfine [] (by rw [hgiven, List.append_nil]) (by rw [hdel, List.append_nil])

variable [DecidableEq τ]

/-- **One step.** -/
theorem mboxStep_effect {np : ℕ} {s s' : Mbox τ cap} {a : MboxAct τ}
    (h : mboxStep np s a = some s') : MboxEffect np s s' a := by
  cases a with
  | post t msg =>
    simp only [mboxStep] at h
    split at h
    · rw [← Option.some.inj h]
      exact effect_quiet trivial rfl rfl
    · cases h
  | turn t =>
    simp only [mboxStep] at h
    cases hpc : s.pc t with
    | idle =>
      rw [hpc] at h
      cases h
    | posting msg i =>
      simp only [hpc, Option.some.injEq] at h
      have hfine : Fine np s (.turn t) ↔ i < 10 ∧ ¬ Misread np s msg := by
        refine ⟨fun hf => hf msg i hpc, fun hf msg' i' hpc' => ?_⟩
        rw [hpc] at hpc'
        cases hpc'
        exact hf
      unfold postTurn at h
      -- a turn of a blocked post
      by_cases hi : i < 10
      · rw [if_pos hi] at h
        cases hpush : s.queue.push (toQueue np msg) with
        | some q =>
          simp only [hpush] at h
          rw [← h]
          exact effect_push hpush rfl rfl rfl (hfine.trans (and_iff_right hi))
        | none =>
          simp only [hpush] at h
          rw [← h]
          exact effect_quiet (hfine.mpr ⟨hi, not_misread hpush⟩) rfl rfl
      · -- the post returns without having queued its message
        rw [if_neg hi] at h
        rw [← h]
        exact .lost (fun hf => hi (hfine.mp hf).1) msg [] rfl (List.append_nil _).symm (by simp)
          (by simp)
  | trypost t msg =>
    simp only [mboxStep] at h
    split at h
    · unfold sysMboxTrypost at h
      cases hpush : s.queue.push (toQueue np msg) with
      | some q =>
        simp only [hpush, if_true, Option.some.injEq] at h
        rw [← h]
        exact effect_push hpush rfl rfl rfl Iff.rfl
      | none =>
        simp only [hpush, Option.some.injEq] at h
        rw [if_neg (by decide)] at h
        rw [← h]
        exact effect_quiet (not_misread hpush) rfl rfl
    · cases h
  | fetch t timeout before after =>
    simp only [mboxStep] at h
    split at h
    · unfold sysArchMboxFetch at h
      -- a fetch moves the oldest message from the queue to the fetched ones
      cases hpop : s.queue.pop with
      | some r =>
        obtain ⟨temp, q⟩ := r
        simp only [hpop, Option.map_some, Option.some.injEq] at h
        rw [if_pos (fetchTime_ne_timeout before after)] at h
        rw [← h]
        refine effect_quiet trivial rfl ?_
        rw [delivered, delivered, Fifo.pop_eq_some hpop, List.map_cons, List.append_assoc]
        rfl
      | none =>
        simp only [hpop] at h
        split at h
        · cases h
        · simp only [Option.map_some, Option.some.injEq, ne_eq, not_true, if_false] at h
          rw [← h]
          exact effect_quiet trivial rfl rfl
    · cases h

/-- What is broken stays broken. -/
theorem Broken.step {np : ℕ} {s s' : Mbox τ cap} {a : MboxAct τ} (hs : Broken np s)
    (h : mboxStep np s a = some s') : Broken np s' := by
  obtain ⟨hne, hle⟩ := hs
  cases mboxStep_effect h with
  | fine _ ms hgiven hdel =>
    refine ⟨fun heq => ?_, ?_⟩
    · rw [hgiven, hdel] at heq
      exact hne (List.append_cancel_right heq)
    · rw [hgiven, hdel, List.length_append, List.length_append]
      omega
  | lost _ msg xs hgiven hdel _ hlen =>
    refine ⟨fun heq => ?_, ?_⟩
    · rw [hgiven, hdel] at heq
      have hlens := congrArg List.length heq
      rw [List.length_append, List.length_append, List.length_singleton] at hlens
      exact hne (List.append_inj_left heq (by omega))
    · rw [hgiven, hdel, List.length_append, List.length_append, List.length_singleton]
      omega

/-- A step from a state that obeys the law. -/
theorem MboxLaw.step {np : ℕ} {s s' : Mbox τ cap} {a : MboxAct τ} (hs : MboxLaw np s)
    (h : mboxStep np s a = some s') :
    (Fine np s a ∧ MboxLaw np s') ∨ (¬ Fine np s a ∧ Broken np s') := by
  cases mboxStep_effect h with
  | fine hfine ms hgiven hdel =>
    refine .inl ⟨hfine, ?_⟩
    rw [MboxLaw, hgiven, hdel, hs]
  | lost hfine msg xs hgiven hdel hne hlen =>
    refine .inr ⟨hfine, ?_, ?_⟩
    · rw [hgiven, hdel, hs]
      exact fun heq => hne (List.append_cancel_left heq).symm
    · rw [hgiven, hdel, hs, List.length_append, List.length_append, List.length_singleton]
      omega

/-! ### Runs -/

/-- A run from a broken state ends in one. -/
theorem Broken.run {np : ℕ} :
    ∀ (ls : List (MboxAct τ)) (s s' : Mbox τ cap), Broken np s →
      SerialNet.run (mboxStep np) s ls = some s' → Broken np s'
  | [], s, s', hs, h => by
    rw [run_nil, Option.some.injEq] at h
    exact h ▸ hs
  | a :: ls, s, s', hs, h => by
    rw [run_cons, Option.bind_eq_some_iff] at h
    obtain ⟨s₁, hs₁, h₁⟩ := h
    exact Broken.run ls s₁ s' (hs.step hs₁) h₁

/-- A run from a state that obeys the law: by induction on the actions. -/
theorem MboxLaw.run {np : ℕ} :
    ∀ (ls : List (MboxAct τ)) (s s' : Mbox τ cap), MboxLaw np s →
      SerialNet.run (mboxStep np) s ls = some s' →
      (MboxLaw np s' ↔ Along (mboxStep np) (Fine np) s ls)
  | [], s, s', hs, h => by
    rw [run_nil, Option.some.injEq] at h
    exact iff_of_true (h ▸ hs) trivial
  | a :: ls, s, s', hs, h => by
    rw [run_cons, Option.bind_eq_some_iff] at h
    obtain ⟨s₁, hs₁, h₁⟩ := h
    have halong : Along (mboxStep np) (Fine np) s (a :: ls) ↔
        Fine np s a ∧ Along (mboxStep np) (Fine np) s₁ ls := by
      refine and_congr_right fun _ => ⟨fun hall => hall s₁ hs₁, fun hall s₂ hs₂ => ?_⟩
      rw [hs₁, Option.some.injEq] at hs₂
      exact hs₂ ▸ hall
    rw [halong]
    rcases hs.step hs₁ with ⟨hfine, hlaw⟩ | ⟨hfine, hbroken⟩
    · rw [MboxLaw.run ls s₁ s' hlaw h₁]
      exact (and_iff_right hfine).symm
    · exact iff_of_false (hbroken.run ls s₁ s' h₁).1 fun hc => hfine hc.1

/-- **The law of a mailbox.**  For every queue length, every number of tasks and every order of
    their calls: a run obeys the law exactly when no post returned after ten failures and no
    message was misread. -/
theorem mbox_law_iff (np : ℕ) (ls : List (MboxAct τ)) (s : Mbox τ cap)
    (h : run (mboxStep np) (Mbox.start τ cap) ls = some s) :
    MboxLaw np s ↔ Along (mboxStep np) (Fine np) (Mbox.start τ cap) ls :=
  MboxLaw.run ls _ s rfl h

/-- A message and a NULL that are posted and fetched. -/
def fetchedRun : List (MboxAct Bool) :=
  [.trypost false 5, .post true 0, .turn true, .fetch false 0 0 1, .fetch false 0 1 2]

theorem mbox_law_iff_fetched :
    MboxLaw 99 (runEnd (mboxStep 99) (Mbox.start Bool 2) fetchedRun) ↔
      Along (mboxStep 99) (Fine 99) (Mbox.start Bool 2) fetchedRun := by
  have hrun : (run (mboxStep 99) (Mbox.start Bool 2) fetchedRun).isSome := by decide
  exact mbox_law_iff 99 fetchedRun _ (run_eq_runEnd hrun)

/-- A post that finds the queue full ten times. -/
def givenUpRun : List (MboxAct Bool) :=
  [.trypost false 5, .post true 6] ++ List.replicate 11 (.turn true)

/-- The message 6 of the post that gave up is neither queued nor fetched. -/
theorem post_gives_up :
    ¬ ∀ (cap np : ℕ) (ls : List (MboxAct Bool)) (s : Mbox Bool cap),
      run (mboxStep np) (Mbox.start Bool cap) ls = some s → MboxLaw np s := by
  intro hall
  have hrun : (run (mboxStep 99) (Mbox.start Bool 1) givenUpRun).isSome := by decide
  have hlaw := hall 1 99 givenUpRun _ (run_eq_runEnd hrun)
  have hgiven : (runEnd (mboxStep 99) (Mbox.start Bool 1) givenUpRun).given = [5, 6] := by decide
  have hdel : delivered 99 (runEnd (mboxStep 99) (Mbox.start Bool 1) givenUpRun) = [5] := by decide
  rw [MboxLaw, hgiven, hdel] at hlaw
  exact absurd hlaw (by decide)

end SerialNet
