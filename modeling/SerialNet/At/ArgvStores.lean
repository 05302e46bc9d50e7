import SerialNet.At.Parse

namespace SerialNet

/-!
# The bound of `argv`

`parseParameter` stores a pointer per argument, and a final NULL, into `argv[50]` without looking at
the index.  Here its loops run without the bound that `parseArguments` puts in, so that every store
can be seen: they always end, and stay in the array as long as there are at most 47 commas behind
the first `=` (`argv_bounds_iff`).
-/

/-- The variables of `parseParameter`, with its stores into `argv` in order: index and value. -/
structure ArgvLoop where
  mem : Memory
  p : Option ℕ
  argc : ℕ
  stores : List (ℕ × Option ℕ)

/-- `while ((argv[argc] = strsep(&p, ",")) != NULL) argc++;`, in at most `fuel` turns. -/
def innerLoop : ℕ → ArgvLoop → Option ArgvLoop
  | 0, _ => none
  | fuel + 1, s =>
      (strsep s.mem s.p [44]).bind fun r =>
        let s' : ArgvLoop :=
          { mem := r.1, p := r.2.1, argc := s.argc, stores := s.stores ++ [(s.argc, r.2.2)] }
        match r.2.2 with
        | some _ => innerLoop fuel { s' with argc := s'.argc + 1 }
        | none => some s'

/-- `while (p)` around it. -/
def outerLoop : ℕ → ArgvLoop → Option ArgvLoop
  | 0, _ => none
  | fuel + 1, s =>
      match s.p with
      | none => some s
      | some _ => (innerLoop (fuel + 1) s).bind (outerLoop fuel)

/-- `parseParameter` up to `processCommand`, with at most `fuel` turns in each loop. -/
def parseLoops (fuel : ℕ) (m : Memory) (args : ℕ) : Option ArgvLoop :=
  (strsep m (some args) [61]).bind fun r =>
    outerLoop fuel { mem := r.1, p := r.2.1, argc := 1, stores := [(0, r.2.2)] }

/-- The pointers among the stored values. -/
def ArgvLoop.argv (s : ArgvLoop) : List ℕ := s.stores.filterMap Prod.snd

/-- The text behind the first `=`. -/
def argumentText (line : List UInt8) : List UInt8 := (line.dropWhile (· ≠ 61)).tail

/-! ### The bounded loops -/

/-- The inner loop counts up, and leaves `p` null. -/
theorem innerLoop_argc {fuel : ℕ} {s s' : ArgvLoop} (h : innerLoop fuel s = some s') :
    s.argc ≤ s'.argc ∧ s'.p = none := by
  induction fuel generalizing s with
  | zero => cases h
  | succ fuel ih =>
    obtain ⟨r, hr, hnext⟩ := Option.bind_eq_some_iff.mp h
    cases htok : r.2.2 with
    | some tok =>
      simp only [htok] at hnext
      obtain ⟨hle, hp⟩ := ih hnext
      exact ⟨Nat.le_of_succ_le hle, hp⟩
    | none =>
      simp only [htok, Option.some.injEq] at hnext
      subst hnext
      refine ⟨le_rfl, ?_⟩
      show r.2.1 = none
      unfold strsep at hr
      split at hr
      · rw [← Option.some.inj hr]
      · obtain ⟨e, -, rfl⟩ := Option.map_eq_some_iff.mp hr
        split at htok <;> cases htok

/-- `parseArguments` is the inner loop as far as it stays in `argv`. -/
theorem parseArguments_eq (fuel : ℕ) {s : ArgvLoop} (hargc : s.argc = s.argv.length) :
    parseArguments fuel s.mem s.p s.argv =
      (innerLoop fuel s).bind fun s' =>
        if s'.argc < maxSingleParameter then some (s'.mem, s'.argv) else none := by
  induction fuel generalizing s with
  | zero => rfl
  | succ fuel ih =>
    rw [parseArguments, innerLoop]
    split
    case isTrue hfull =>
      -- the loop goes on from an index that is out of bounds
      symm
      rw [Option.bind_eq_none_iff]
      intro s' hs'
      have hle := (innerLoop_argc (show innerLoop (fuel + 1) s = some s' from hs')).1
      rw [if_neg (by omega)]
    case isFalse hroom =>
      rw [Option.bind_assoc]
      congr 1
      funext r
      cases htok : r.2.2 with
      | some tok =>
        simp only
        rw [← ih]
        · simp [ArgvLoop.argv]
        · simp [ArgvLoop.argv, hargc]
      | none =>
        simp only [Option.bind_some]
        rw [if_pos (by omega)]
        simp [ArgvLoop.argv]

/-- The token of `strsep` is the string it was given. -/
theorem strsep_tok {m : Memory} {stringp : Option ℕ} {delim : List UInt8}
    {r : Memory × Option ℕ × Option ℕ} (h : strsep m stringp delim = some r) :
    r.2.2 = stringp ∧ (stringp = none → r.2.1 = none) := by
  unfold strsep at h
  split at h
  · rw [← Option.some.inj h]
    exact ⟨rfl, fun _ => rfl⟩
  · obtain ⟨e, -, rfl⟩ := Option.map_eq_some_iff.mp h
    split <;> exact ⟨rfl, nofun⟩

/-- `parseParameter` is these loops as far as they stay in `argv`. -/
theorem parseParameter_eq (m : Memory) (args : ℕ) : parseParameter m args =
    (parseLoops maxSingleParameter m args).bind fun s =>
      if s.argc < maxSingleParameter then processCommand s.mem s.argv else none := by
  rw [parseParameter, parseLoops, Option.bind_assoc]
  cases hr : strsep m (some args) [61] with
  | none => rfl
  | some r =>
    obtain ⟨m', p, tok⟩ := r
    obtain rfl : tok = some args := (strsep_tok hr).1
    cases p with
    | none => rfl
    | some p =>
      have hinner := parseArguments_eq maxSingleParameter
        (s := { mem := m', p := some p, argc := 1, stores := [(0, some args)] }) rfl
      show (parseArguments maxSingleParameter m' (some p) [args]).bind _ =
        ((innerLoop maxSingleParameter _).bind (outerLoop 49)).bind _
      change parseArguments maxSingleParameter m' (some p) [args] = _ at hinner
      rw [hinner, Option.bind_assoc, Option.bind_assoc]
      apply Option.bind_congr
      intro s' hs'
      rw [outerLoop, (innerLoop_argc hs').2]
      show (if _ then _ else _ : Option _).bind _ = if _ then _ else _
      split <;> rfl

/-! ### The stores of a line -/

/-- A text without the delimiter and without NUL is one token. -/
theorem token_clean {d : UInt8} {xs : List UInt8} (hd : d ∉ xs) (hnul : 0 ∉ xs) :
    ∀ x ∈ xs, x ∉ [d] ∧ x ≠ 0 := by
  intro x hx
  refine ⟨fun h => hd (List.mem_singleton.mp h ▸ hx), ?_⟩
  rintro rfl
  exact hnul hx

/-- The inner loop on the rest of a line: one store for each argument, and the NULL.  Induction on
    the turns; all arguments but the last end at a comma. -/
theorem innerLoop_spec (fuel : ℕ) {s : ArgvLoop} {p : ℕ} {xs : List UInt8} (hp : s.p = some p)
    (hm : BytesAt s.mem p (xs ++ [0])) (hxs : 0 ∉ xs) (hend : p + xs.length < uartRecAtcmdEnd)
    (hfuel : xs.count 44 + 2 ≤ fuel) :
    ∃ s', innerLoop fuel s = some s' ∧ s'.argc = s.argc + (xs.count 44 + 1) ∧
      s'.stores.map Prod.fst =
        s.stores.map Prod.fst ++ List.range' s.argc (xs.count 44 + 2) := by
  induction fuel generalizing s p xs with
  | zero => exact absurd hfuel (by omega)
  | succ fuel ih =>
    by_cases hcomma : 44 ∈ xs
    · obtain ⟨a, rest, rfl, ha⟩ := List.eq_append_cons_of_mem hcomma
      have hclean := token_clean ha fun h => hxs (List.mem_append_left _ h)
      rw [List.append_assoc, List.cons_append] at hm
      rw [List.length_append, List.length_cons] at hend
      rw [List.count_append, List.count_eq_zero_of_not_mem ha, Nat.zero_add,
        List.count_cons_self] at hfuel ⊢
      have htok := strsep_token hm hclean (List.mem_singleton_self _) (by decide) (by omega)
      have hrest := (bytesAt_append.mp (hm.set 0)).2.2
      obtain ⟨s', hs', hargc, hstores⟩ := ih
        (s := { mem := store8 s.mem (p + a.length) 0, p := some (p + a.length + 1)
                argc := s.argc + 1, stores := s.stores ++ [(s.argc, some p)] })
        rfl hrest (fun h => hxs (List.mem_append_right _ (List.mem_cons_of_mem _ h)))
        (by omega) (by omega)
      refine ⟨s', ?_, hargc.trans (by show s.argc + 1 + _ = _; omega), ?_⟩
      · rw [innerLoop, hp, htok]
        exact hs'
      · rw [hstores, List.map_append, List.append_assoc]
        rfl
    · -- the last argument, and the turn that finds `p` null
      have hclean := token_clean hcomma hxs
      rw [List.count_eq_zero_of_not_mem hcomma] at hfuel ⊢
      obtain ⟨fuel, rfl⟩ : ∃ k, fuel = k + 1 := ⟨fuel - 1, by omega⟩
      refine ⟨{ mem := s.mem, p := none, argc := s.argc + 1
                stores := s.stores ++ [(s.argc, some p)] ++ [(s.argc + 1, none)] }, ?_, rfl, ?_⟩
      · rw [innerLoop, hp, strsep_last hm hclean hend]
        rfl
      · simp [List.range'_succ]

/-- The whole line: `argv[0]`, and behind an `=` the arguments and the NULL. -/
theorem parseLoops_spec {fuel : ℕ} {m : Memory} {line : List UInt8}
    (hm : BytesAt m uartRecAtcmd (line ++ [0])) (hline : 0 ∉ line) (hlen : line.length < 200)
    (hfuel : 200 ≤ fuel) :
    ∃ s, parseLoops fuel m uartRecAtcmd = some s ∧
      s.stores.map Prod.fst =
        List.range (if 61 ∈ line then (argumentText line).count 44 + 3 else 1) := by
  have hend : uartRecAtcmdEnd = uartRecAtcmd + 200 := rfl
  obtain ⟨fuel, rfl⟩ : ∃ k, fuel = k + 1 := ⟨fuel - 1, by omega⟩
  by_cases heq : 61 ∈ line
  · obtain ⟨a, rest, rfl, ha⟩ := List.eq_append_cons_of_mem heq
    have hclean := token_clean ha fun h => hline (List.mem_append_left _ h)
    have htext : argumentText (a ++ 61 :: rest) = rest := by
      unfold argumentText
      rw [List.dropWhile_append_of_pos fun x hx => by
        simpa using fun h => (hclean x hx).1 (List.mem_singleton.mpr h)]
      rfl
    have hcount := List.count_le_length (l := rest) (a := 44)
    rw [List.append_assoc, List.cons_append] at hm
    rw [List.length_append, List.length_cons] at hlen
    have htok := strsep_token hm hclean (List.mem_singleton_self _) (by decide) (by omega)
    have hrest := (bytesAt_append.mp (hm.set 0)).2.2
    obtain ⟨s', hs', -, hstores⟩ := innerLoop_spec (fuel + 1)
      (s := { mem := store8 m (uartRecAtcmd + a.length) 0
              p := some (uartRecAtcmd + a.length + 1), argc := 1
              stores := [(0, some uartRecAtcmd)] })
      rfl hrest (fun h => hline (List.mem_append_right _ (List.mem_cons_of_mem _ h)))
      (by omega) (by omega)
    refine ⟨s', ?_, ?_⟩
    · rw [parseLoops, htok]
      show (innerLoop (fuel + 1) _).bind (outerLoop fuel) = some s'
      obtain ⟨fuel, rfl⟩ : ∃ k, fuel = k + 1 := ⟨fuel - 1, by omega⟩
      rw [hs', Option.bind_some, outerLoop, (innerLoop_argc hs').2]
    · rw [hstores, if_pos heq, htext, List.range_eq_range', List.range'_succ]
      rfl
  · have hclean := token_clean heq hline
    rw [if_neg heq]
    refine ⟨{ mem := m, p := none, argc := 1, stores := [(0, some uartRecAtcmd)] }, ?_, rfl⟩
    rw [parseLoops, strsep_last hm hclean (by omega)]
    rfl

/-- **When `argv` is large enough.**  The loops end on every line, and all stores into `argv`, with
    the NULL behind the last argument, are in bounds if and only if at most 47 commas follow the
    first `=`. -/
theorem argv_bounds_iff {m : Memory} {line : List UInt8}
    (hm : BytesAt m uartRecAtcmd (line ++ [0])) (hline : 0 ∉ line) (hlen : line.length ≤ 198)
    {fuel : ℕ} (hfuel : 200 ≤ fuel) :
    ∃ s, parseLoops fuel m uartRecAtcmd = some s ∧
      ((∀ store ∈ s.stores, store.1 < maxSingleParameter) ↔
        (argumentText line).count 44 ≤ 47) := by
  obtain ⟨s, hs, hstores⟩ := parseLoops_spec hm hline (by omega) hfuel
  refine ⟨s, hs, ?_⟩
  have hindex : (∀ store ∈ s.stores, store.1 < maxSingleParameter) ↔
      ∀ i ∈ s.stores.map Prod.fst, i < maxSingleParameter :=
    (List.forall_mem_map (P := fun i => i < maxSingleParameter)).symm
  rw [hindex, hstores, maxSingleParameter]
  simp only [List.mem_range]
  split
  case isTrue => exact ⟨fun h => by have := h 50; omega, fun h i hi => by omega⟩
  case isFalse heq =>
    have htext : argumentText line = [] := by
      unfold argumentText
      have hnone : ∀ x ∈ line, decide (x ≠ 61) = true := by
        intro x hx
        rw [decide_eq_true_iff]
        rintro rfl
        exact heq hx
      rw [List.dropWhile_eq_nil_iff.mpr hnone]
      rfl
    rw [htext]
    exact iff_of_true (fun i hi => by omega) (by decide)

/-- `+NQSCNN=0,0,8101,10.0.0.1` has four arguments. -/
theorem argv_bounds_iff_nqscnn :
    ∃ s, parseLoops 200
        (storeBytes (fun _ => 0) uartRecAtcmd (ascii "+NQSCNN=0,0,8101,10.0.0.1" ++ [0]))
        uartRecAtcmd = some s ∧
      ((∀ store ∈ s.stores, store.1 < maxSingleParameter) ↔
        (argumentText (ascii "+NQSCNN=0,0,8101,10.0.0.1")).count 44 ≤ 47) :=
  argv_bounds_iff (bytesAt_storeBytes _ _ _) (by decide) (by decide) le_rfl

/-- A line of an `=` and 48 commas. -/
def commaLine : List UInt8 := 61 :: List.replicate 48 44

/-- Its NULL goes into `argv[50]`. -/
theorem argv_overflow :
    ¬ ∀ (m : Memory) (line : List UInt8) (s : ArgvLoop), BytesAt m uartRecAtcmd (line ++ [0]) →
      0 ∉ line → line.length ≤ 198 → parseLoops 200 m uartRecAtcmd = some s →
      ∀ store ∈ s.stores, store.1 < maxSingleParameter := by
  intro hall
  have hnul : 0 ∉ commaLine := by decide
  have hm := bytesAt_storeBytes (fun _ => 0) uartRecAtcmd (commaLine ++ [0])
  obtain ⟨s, hs, hstores⟩ := parseLoops_spec hm hnul (by decide) le_rfl
  have hmem : 50 ∈ s.stores.map Prod.fst := by
    rw [hstores]
    decide
  obtain ⟨store, hstore, hindex⟩ := List.mem_map.mp hmem
  have hbound := hall _ commaLine s hm hnul (by decide) hs store hstore
  rw [hindex] at hbound
  exact absurd hbound (by decide)

end SerialNet
