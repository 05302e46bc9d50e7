import Mathlib.Data.List.Basic
import SerialNet.At.Parse

namespace SerialNet

/-!
# `strlib.c` — repeated calls of `strsep`

`strsep` on any string, with its inner loop over the delimiters: that loop compares the terminating
NUL of the delimiters too, which is how the end of the string is found.  Called until it returns
NULL it splits a string at every delimiter, and nothing of the string is lost.
-/

/-- The loop over the delimiters: whether `c` is one of them or the NUL behind them. -/
def strsepSpan (c : UInt8) : List UInt8 → Bool
  | [] => c = 0
  | sc :: spanp => if sc = c then true else if sc ≠ 0 then strsepSpan c spanp else false

/-- The loop over the string, for at most `n` characters: where the match is. -/
def strsepLoop (m : Memory) (delim : List UInt8) : ℕ → ℕ → Option ℕ
  | 0, _ => none
  | n + 1, s => if strsepSpan (m s) delim then some s else strsepLoop m delim n (s + 1)

/-- `strsep`, given up after `n` characters: the memory, the new `*stringp` and the token. -/
def strsepWithin (n : ℕ) (m : Memory) (stringp : Option ℕ) (delim : List UInt8) :
    Option (Memory × Option ℕ × Option ℕ) :=
  match stringp with
  | none => some (m, none, none)
  | some tok =>
      (strsepLoop m delim n tok).map fun e =>
        if m e = 0 then (m, none, some tok) else (store8 m e 0, some (e + 1), some tok)

/-- Calls of `strsep` until it returns NULL: the memory and the tokens returned. -/
def strsepCalls (n : ℕ) (delim : List UInt8) : ℕ → Memory → Option ℕ → Option (Memory × List ℕ)
  | 0, _, _ => none
  | calls + 1, m, stringp =>
      (strsepWithin n m stringp delim).bind fun r =>
        match r.2.2 with
        | none => some (r.1, [])
        | some tok => (strsepCalls n delim calls r.1 r.2.1).map fun q => (q.1, tok :: q.2)

/-! ### One call -/

variable {delim : List UInt8}

/-- The loop over the delimiters finds them and the NUL. -/
theorem strsepSpan_iff (c : UInt8) (hdelim : 0 ∉ delim) :
    strsepSpan c delim = true ↔ c ∈ delim ∨ c = 0 := by
  induction delim with
  | nil => simp [strsepSpan]
  | cons sc spanp ih =>
    rw [List.mem_cons, not_or] at hdelim
    rw [strsepSpan]
    by_cases hmatch : sc = c
    · simp [hmatch]
    · rw [if_neg hmatch, if_pos (fun h => hdelim.1 h.symm), ih hdelim.2, List.mem_cons]
      simp [Ne.symm hmatch]

theorem strsepLoop_eq_scan (m : Memory) (hdelim : 0 ∉ delim) (n : ℕ) : ∀ s,
    strsepLoop m delim n s = strsepScan m delim n s := by
  induction n with
  | zero => exact fun _ => rfl
  | succ n ih =>
    intro s
    rw [strsepLoop, strsepScan, ih]
    simp only [strsepSpan_iff _ hdelim]

/-- The calls on the command line are calls that end with its buffer. -/
theorem strsep_eq_strsepWithin (m : Memory) (tok : ℕ) (hdelim : 0 ∉ delim) :
    strsep m (some tok) delim = strsepWithin (uartRecAtcmdEnd - tok) m (some tok) delim := by
  rw [strsep, strsepWithin, strsepLoop_eq_scan m hdelim]

variable {m : Memory} {p n : ℕ} {xs rest : List UInt8}

/-- A token that ends at a delimiter. -/
theorem strsepWithin_token {d : UInt8} (h : BytesAt m p (xs ++ d :: rest)) (hdelim : 0 ∉ delim)
    (hxs : ∀ x ∈ xs, x ∉ delim ∧ x ≠ 0) (hd : d ∈ delim) (hn : xs.length < n) :
    strsepWithin n m (some p) delim
      = some (store8 m (p + xs.length) 0, some (p + xs.length + 1), some p) := by
  obtain ⟨hbefore, hbehind⟩ := bytesAt_append.1 h
  have hd' : m (p + xs.length) = d := hbehind.1
  have hscan := strsepScan_spec (bytesAt_append.2 ⟨hbefore, hd', trivial⟩) hxs (.inl hd) hn
  have hd0 : d ≠ 0 := fun h0 => hdelim (h0 ▸ hd)
  rw [strsepWithin, strsepLoop_eq_scan m hdelim, hscan, Option.map_some,
    if_neg (by rw [hd']; exact hd0)]

/-- The token at the end of the string. -/
theorem strsepWithin_last (h : BytesAt m p (xs ++ [0])) (hdelim : 0 ∉ delim)
    (hxs : ∀ x ∈ xs, x ∉ delim ∧ x ≠ 0) (hn : xs.length < n) :
    strsepWithin n m (some p) delim = some (m, none, some p) := by
  have hscan := strsepScan_spec h hxs (.inr rfl) hn
  have h0 : m (p + xs.length) = 0 := (bytesAt_append.1 h).2.1
  rw [strsepWithin, strsepLoop_eq_scan m hdelim, hscan, Option.map_some, if_pos h0]

/-! ### All calls -/

/-- No piece of a list split at the elements with `q` has such an element. -/
theorem not_mem_of_mem_splitOnP {α : Type*} (q : α → Bool) (xs : List α) :
    ∀ tok ∈ xs.splitOnP q, ∀ x ∈ tok, ¬ q x = true := by
  induction xs with
  | nil => simp
  | cons y ys ih =>
    rw [List.splitOnP_cons_eq_if_modifyHead]
    split
    · simpa using ih
    · rename_i hy
      cases hsplit : ys.splitOnP q with
      | nil => simp
      | cons tok toks =>
        rw [hsplit] at ih
        simp only [List.modifyHead_cons, List.mem_cons, forall_eq_or_imp] at ih ⊢
        exact ⟨⟨hy, ih.1⟩, ih.2⟩

/-- There is one piece more than elements to split at. -/
theorem length_splitOnP {α : Type*} (q : α → Bool) (xs : List α) :
    (xs.splitOnP q).length = xs.countP q + 1 := by
  induction xs with
  | nil => rfl
  | cons y ys ih =>
    rw [List.splitOnP_cons_eq_if_modifyHead, List.countP_cons]
    split
    · rw [List.length_cons, ih]
    · rw [List.length_modifyHead, ih]

/-- The string `xs` and its NUL lie at `p`. -/
def StringAt (m : Memory) (p : ℕ) (xs : List UInt8) : Prop := BytesAt m p (xs ++ [0]) ∧ 0 ∉ xs

/-- Between the memories only delimiters among the bytes from `p` to `e` have become NULs. -/
def OnlyDelimiters (delim : List UInt8) (m m' : Memory) (p e : ℕ) : Prop :=
  ∀ q, m' q = m q ∨ m' q = 0 ∧ m q ∈ delim ∧ p ≤ q ∧ q < e

/-- A string is one token, or a token and a delimiter come first. -/
theorem exists_first_token (delim xs : List UInt8) : ∃ tok rest, xs = tok ++ rest ∧
    (∀ x ∈ tok, x ∉ delim) ∧ (rest = [] ∨ ∃ d ys, rest = d :: ys ∧ d ∈ delim) := by
  refine ⟨xs.takeWhile (· ∉ delim), xs.dropWhile (· ∉ delim), ?_, ?_, ?_⟩
  · exact List.takeWhile_append_dropWhile.symm
  · exact fun x hx => by simpa using List.mem_takeWhile_imp hx
  · cases hdrop : xs.dropWhile (· ∉ delim) with
    | nil => exact Or.inl rfl
    | cons d ys =>
      have hhead := List.head?_dropWhile_not (fun x => decide (x ∉ delim)) xs
      rw [hdrop] at hhead
      exact Or.inr ⟨d, ys, rfl, by simpa using hhead⟩

/-- The NUL over a delimiter ends a token and leaves the string behind it. -/
theorem StringAt.cut {d : UInt8} {ys : List UInt8} (h : StringAt m p (xs ++ d :: ys)) :
    StringAt (store8 m (p + xs.length) 0) p xs ∧
      StringAt (store8 m (p + xs.length) 0) (p + xs.length + 1) ys := by
  obtain ⟨hat, hnul⟩ := h
  rw [List.append_assoc, List.cons_append] at hat
  have hcut := hat.set 0
  rw [← List.singleton_append, ← List.append_assoc] at hcut
  obtain ⟨hfirst, hlater⟩ := bytesAt_append.1 hcut
  rw [List.length_append, List.length_singleton, ← Nat.add_assoc] at hlater
  exact ⟨⟨hfirst, fun h0 => hnul (by simp [h0])⟩, hlater, fun h0 => hnul (by simp [h0])⟩

/-- A string before the delimiters that changed is still there. -/
theorem StringAt.of_onlyDelimiters {m' : Memory} {p' e : ℕ} (h : StringAt m p xs)
    (honly : OnlyDelimiters delim m m' p' e) (hp' : p + xs.length < p') : StringAt m' p xs := by
  refine ⟨h.1.congr fun q _ hq => ?_, h.2⟩
  rw [List.length_append, List.length_singleton] at hq
  exact (honly q).resolve_right fun hc => absurd hc.2.2.1 (by omega)

/-- A delimiter is cut, and then only later ones. -/
theorem OnlyDelimiters.of_cut {m' : Memory} {c e : ℕ}
    (honly : OnlyDelimiters delim (store8 m c 0) m' (c + 1) e) (hc : m c ∈ delim) (hp : p ≤ c)
    (he : c < e) : OnlyDelimiters delim m m' p e := by
  intro q
  by_cases hq : q = c
  · rw [hq]
    refine Or.inr ⟨?_, hc, hp, he⟩
    rcases honly c with heq | ⟨h0, -⟩
    · rw [heq, store8_self]
    · exact h0
  · rcases honly q with heq | ⟨h0, hmem, hlo, hhi⟩
    · exact Or.inl (heq.trans (store8_of_ne hq))
    · rw [store8_of_ne hq] at hmem
      exact Or.inr ⟨h0, hmem, by omega, hhi⟩

/-- All calls: the tokens are the pieces of the string. -/
theorem strsepCalls_spec (hdelim : 0 ∉ delim) (calls : ℕ) : ∀ (xs : List UInt8) (m : Memory)
    (p : ℕ), StringAt m p xs → xs.length + 2 ≤ calls → xs.length < n →
    ∃ m' ptrs, strsepCalls n delim calls m (some p) = some (m', ptrs) ∧
      List.Forall₂ (StringAt m') ptrs (xs.splitOnP (· ∈ delim)) ∧
      OnlyDelimiters delim m m' p (p + xs.length) := by
  induction calls with
  | zero => exact fun _ _ _ _ hcalls => absurd hcalls (by omega)
  | succ calls ih =>
    intro xs m p hstr hcalls hn
    obtain ⟨tok, rest, hxs, htok, hrest⟩ := exists_first_token delim xs
    subst hxs
    have htok0 : ∀ x ∈ tok, x ∉ delim ∧ x ≠ 0 := fun x hx =>
      ⟨htok x hx, fun h0 => hstr.2 (List.mem_append_left _ (h0 ▸ hx))⟩
    rw [strsepCalls]
    rcases hrest with rfl | ⟨d, ys, rfl, hd⟩
    · -- no delimiter is left: this token is the last one, and the next call returns NULL
      rw [List.append_nil] at *
      rw [strsepWithin_last hstr.1 hdelim htok0 hn]
      obtain ⟨k, rfl⟩ : ∃ k, calls = k + 1 := ⟨calls - 1, by omega⟩
      refine ⟨m, [p], rfl, ?_, fun q => Or.inl rfl⟩
      rw [List.splitOnP_eq_singleton (by simpa using htok)]
      exact .cons hstr .nil
    · have hat := hstr.1
      rw [List.append_assoc, List.cons_append] at hat
      have hdat : m (p + tok.length) = d := (bytesAt_append.1 hat).2.1
      simp only [List.length_append, List.length_cons] at hcalls hn ⊢
      rw [strsepWithin_token hat hdelim htok0 hd (by omega)]
      obtain ⟨hfirst, hlater⟩ := hstr.cut
      obtain ⟨m', ptrs, hcall, htoks, honly⟩ :=
        ih ys _ (p + tok.length + 1) hlater (by omega) (by omega)
      refine ⟨m', p :: ptrs, ?_, ?_, ?_⟩
      · dsimp only [Option.bind_some]
        rw [hcall]
        rfl
      · rw [List.splitOnP_append_cons_of_forall_mem (by simpa using htok) d (by simpa using hd)]
        exact .cons (hfirst.of_onlyDelimiters honly (Nat.lt_succ_self _)) htoks
      · rw [show p + (tok.length + (ys.length + 1)) = p + tok.length + 1 + ys.length by omega]
        exact honly.of_cut (by rw [hdat]; exact hd) (by omega) (by omega)

/-- **Repeated calls of `strsep`** end, and split the string without loss. -/
theorem strsepCalls_split (delim : List UInt8) (m : Memory) (p : ℕ) (xs : List UInt8)
    (hdelim : 0 ∉ delim) (h : StringAt m p xs) (n : ℕ) (hn : xs.length + 2 ≤ n) :
    ∃ m' ptrs toks, strsepCalls n delim n m (some p) = some (m', ptrs) ∧
      List.Forall₂ (StringAt m') ptrs toks ∧ (∀ tok ∈ toks, ∀ c ∈ tok, c ∉ delim) ∧
      toks.length = xs.countP (· ∈ delim) + 1 ∧
      (List.zipWith (· ++ ·) toks
        ((xs.filter (· ∈ delim)).map (fun d => [d]) ++ [[]])).flatten = xs ∧
      OnlyDelimiters delim m m' p (p + xs.length) := by
  obtain ⟨m', ptrs, hcalls, htoks, honly⟩ :=
    strsepCalls_spec hdelim n xs m p h hn (show xs.length < n by omega)
  refine ⟨m', ptrs, xs.splitOnP (· ∈ delim), hcalls, htoks, ?_, length_splitOnP _ xs,
    List.splitOnP_spec xs, honly⟩
  intro tok htok c hc
  simpa using not_mem_of_mem_splitOnP _ xs tok htok c hc

/-- `,a=,` at address 100, split at commas and equals signs. -/
theorem strsepCalls_split_example :
    let m := storeBytes (fun _ => 0) 100 (ascii ",a=,")
    ∃ m' ptrs toks, strsepCalls 6 (ascii "=,") 6 m (some 100) = some (m', ptrs) ∧
      List.Forall₂ (StringAt m') ptrs toks ∧ toks.length = 4 := by
  intro m
  have hat : StringAt m 100 (ascii ",a=,") :=
    ⟨⟨by decide, by decide, by decide, by decide, by decide, trivial⟩, by decide⟩
  obtain ⟨m', ptrs, toks, hcalls, htoks, -, hlength, -⟩ :=
    strsepCalls_split (ascii "=,") m 100 (ascii ",a=,") (by decide) hat 6 (by decide)
  exact ⟨m', ptrs, toks, hcalls, htoks, hlength⟩

end SerialNet
