import Mathlib.Data.List.Basic
import Mathlib.Tactic.Set
import SerialNet.At.Command

namespace SerialNet

/-!
# Parsing a command line

For a line `NAME` or `NAME=a₁,…,aₙ` in `uart_rec_atcmd`, `parseParameter` splits exactly at
the first `=` and at every `,`, and passes the upper-cased name and the arguments on, byte
for byte (`parseParameter_spec`).  The splitting is in place, so each lemma says what lies in
memory afterwards and that nothing outside the string changed.
-/

/-- The line for a name and its arguments. -/
def commandLine (name : List UInt8) (args : List (List UInt8)) : List UInt8 :=
  if args = [] then name else name ++ 61 :: [44].intercalate args

/-- The arguments as `strsep` leaves them: each with a NUL behind it. -/
def splitArgs (args : List (List UInt8)) : List UInt8 := (args.map (· ++ [0])).flatten

/-- The addresses of the arguments, the first being `p`. -/
def argAddresses : ℕ → List (List UInt8) → List ℕ
  | _, [] => []
  | p, a :: args => p :: argAddresses (p + a.length + 1) args

/-- No store outside of `[p, p + n)`. -/
def FrameAt (m m' : Memory) (p n : ℕ) : Prop := ∀ q, q < p ∨ p + n ≤ q → m' q = m q

/-- A line feed occurs in the line only if it occurs in the name or in an argument. -/
theorem commandLine_no_lineFeed {name : List UInt8} {args : List (List UInt8)}
    {P Q : UInt8 → Prop} (hname : ∀ x ∈ name, x ≠ 10 ∧ P x)
    (hargs : ∀ a ∈ args, ∀ x ∈ a, x ≠ 10 ∧ Q x) : ∀ x ∈ commandLine name args, x ≠ 10 := by
  have hjoin : ∀ (args : List (List UInt8)), (∀ a ∈ args, ∀ x ∈ a, x ≠ 10 ∧ Q x) →
      ∀ x ∈ [44].intercalate args, x ≠ 10 := by
    intro args
    induction args with
    | nil => intro _ x hx; simp [List.intercalate] at hx
    | cons a args ih =>
      intro h x hx
      cases args with
      | nil =>
        have hxa : x ∈ a := by simpa [List.intercalate] using hx
        exact (h a (by simp) x hxa).1
      | cons b args =>
        have hx' : x ∈ a ++ 44 :: [44].intercalate (b :: args) := by
          simpa [List.intercalate] using hx
        rcases List.mem_append.1 hx' with hxa | hxr
        · exact (h a (by simp) x hxa).1
        · rcases List.mem_cons.1 hxr with rfl | hxr
          · decide
          · exact ih (fun c hc => h c (List.mem_cons_of_mem _ hc)) x hxr
  unfold commandLine
  split
  · exact fun x hx => (hname x hx).1
  · intro x hx
    rcases List.mem_append.1 hx with h | h
    · exact (hname x h).1
    · rcases List.mem_cons.1 h with rfl | h
      · decide
      · exact hjoin args hargs x h

/-! ### `strsep` -/

section Strsep

variable {m : Memory} {p : ℕ} {xs ys delim : List UInt8} {d : UInt8}

/-- The scan stops at the first delimiter or NUL. -/
theorem strsepScan_spec {n : ℕ} (h : BytesAt m p (xs ++ [d])) (hxs : ∀ x ∈ xs, x ∉ delim ∧ x ≠ 0)
    (hd : d ∈ delim ∨ d = 0) (hn : xs.length < n) :
    strsepScan m delim n p = some (p + xs.length) := by
  induction xs generalizing n p with
  | nil =>
    obtain ⟨k, rfl⟩ : ∃ k, n = k + 1 := ⟨n - 1, by simp at hn; omega⟩
    rw [strsepScan, if_pos (by rw [h.1]; exact hd)]
    rfl
  | cons x xs ih =>
    obtain ⟨k, rfl⟩ : ∃ k, n = k + 1 := ⟨n - 1, by simp at hn; omega⟩
    rw [List.length_cons] at hn
    have hx := hxs x (List.mem_cons_self ..)
    rw [strsepScan, if_neg (by rw [h.1]; exact not_or.2 hx),
      ih h.2 (fun y hy => hxs y (List.mem_cons_of_mem _ hy)) (by omega), List.length_cons]
    congr 1
    omega

/-- A token that ends at a delimiter: the delimiter becomes a NUL. -/
theorem strsep_token (h : BytesAt m p (xs ++ d :: ys)) (hxs : ∀ x ∈ xs, x ∉ delim ∧ x ≠ 0)
    (hd : d ∈ delim) (hd0 : d ≠ 0) (hend : p + xs.length < uartRecAtcmdEnd) :
    strsep m (some p) delim
      = some (store8 m (p + xs.length) 0, some (p + xs.length + 1), some p) := by
  obtain ⟨h1, h2⟩ := bytesAt_append.1 h
  have hd' : m (p + xs.length) = d := h2.1
  have hscan := strsepScan_spec (n := uartRecAtcmdEnd - p) (bytesAt_append.2 ⟨h1, hd', trivial⟩)
    hxs (.inl hd) (by omega)
  rw [strsep, hscan, Option.map_some, if_neg (by rw [hd']; exact hd0)]

/-- The last token ends at the NUL. -/
theorem strsep_last (h : BytesAt m p (xs ++ [0])) (hxs : ∀ x ∈ xs, x ∉ delim ∧ x ≠ 0)
    (hend : p + xs.length < uartRecAtcmdEnd) :
    strsep m (some p) delim = some (m, none, some p) := by
  have hscan := strsepScan_spec (n := uartRecAtcmdEnd - p) h hxs (.inr rfl) (by omega)
  have h0 : m (p + xs.length) = 0 := (bytesAt_append.1 h).2.1
  rw [strsep, hscan, Option.map_some, if_pos h0]

end Strsep

/-! ### The arguments -/

/-- The inner loop of `parseParameter` collects one pointer per argument.  Induction on the
    arguments; all but the last end at a comma. -/
theorem parseArguments_spec : ∀ (args : List (List UInt8)) (fuel : ℕ) (m : Memory) (p : ℕ)
    (argv : List ℕ), args ≠ [] → BytesAt m p ([44].intercalate args ++ [0]) →
    (∀ a ∈ args, ∀ x ∈ a, x ∉ [(44 : UInt8)] ∧ x ≠ 0) →
    p + ([44].intercalate args).length < uartRecAtcmdEnd → argv.length + args.length < 50 →
    args.length < fuel →
    ∃ m', parseArguments fuel m (some p) argv = some (m', argv ++ argAddresses p args) ∧
      BytesAt m' p (splitArgs args) ∧ FrameAt m m' p ([44].intercalate args).length
  | [], _, _, _, _, h, _, _, _, _, _ => absurd rfl h
  | [a], fuel, m, p, argv, _, hm, hclean, hend, hargv, hfuel => by
    have ha : [44].intercalate [a] = a := by simp [List.intercalate]
    rw [ha] at hm hend ⊢
    simp only [List.length_cons, List.length_nil] at hargv hfuel
    obtain ⟨k, rfl⟩ : ∃ k, fuel = k + 2 := ⟨fuel - 2, by omega⟩
    have hlt : ¬ maxSingleParameter ≤ argv.length := by unfold maxSingleParameter; omega
    have hlt' : ¬ maxSingleParameter ≤ (argv ++ [p]).length := by
      unfold maxSingleParameter; rw [List.length_append, List.length_singleton]; omega
    refine ⟨m, ?_, by simpa [splitArgs] using hm, fun _ _ => rfl⟩
    rw [parseArguments, if_neg hlt, strsep_last hm (hclean a (by simp)) hend]
    simp only [Option.bind_some]
    rw [parseArguments, if_neg hlt']
    rfl
  | a :: b :: args, fuel, m, p, argv, _, hm, hclean, hend, hargv, hfuel => by
    have hjoin : [44].intercalate (a :: b :: args) = a ++ 44 :: [44].intercalate (b :: args) := by
      simp [List.intercalate]
    rw [hjoin] at hm hend ⊢
    rw [List.append_assoc, List.cons_append] at hm
    simp only [List.length_append, List.length_cons] at hend hargv hfuel
    obtain ⟨k, rfl⟩ : ∃ k, fuel = k + 1 := ⟨fuel - 1, by omega⟩
    have hlt : ¬ maxSingleParameter ≤ argv.length := by unfold maxSingleParameter; omega
    -- the first argument ends at a comma, which becomes a NUL
    have htok := strsep_token hm (hclean a (by simp)) (by simp) (by decide) (by omega)
    have hset := bytesAt_append.1 (hm.set 0)
    obtain ⟨m', h1, h2, h3⟩ := parseArguments_spec (b :: args) k
      (store8 m (p + a.length) 0) (p + a.length + 1) (argv ++ [p]) (by simp) hset.2.2
      (fun c hc => hclean c (List.mem_cons_of_mem _ hc)) (by omega)
      (by simp only [List.length_append, List.length_cons, List.length_nil]; omega)
      (by simp only [List.length_cons]; omega)
    refine ⟨m', ?_, ?_, ?_⟩
    · rw [parseArguments, if_neg hlt, htok]
      simp only [Option.bind_some]
      rw [h1, List.append_assoc]
      rfl
    · have hnul : BytesAt (store8 m (p + a.length) 0) p (a ++ [0]) :=
        bytesAt_append.2 ⟨hset.1, hset.2.1, trivial⟩
      have hhead : BytesAt m' p (a ++ [0]) := hnul.congr fun q _ hq => h3 q (by
        rw [List.length_append, List.length_singleton] at hq; omega)
      have hsplit : splitArgs (a :: b :: args) = (a ++ [0]) ++ splitArgs (b :: args) := rfl
      rw [hsplit, bytesAt_append]
      refine ⟨hhead, ?_⟩
      rw [List.length_append, List.length_singleton, ← Nat.add_assoc]
      exact h2
    · intro q hq
      simp only [List.length_append, List.length_cons] at hq
      rw [h3 q (by omega)]
      exact store8_of_ne (by omega)

/-- The strings at the argument addresses are the arguments. -/
theorem mapM_cString_argAddresses {m : Memory} : ∀ (args : List (List UInt8)) (p : ℕ),
    BytesAt m p (splitArgs args) → (∀ a ∈ args, 0 ∉ a) →
    p + (splitArgs args).length ≤ uartRecAtcmdEnd →
    (argAddresses p args).mapM (fun q => cString m (uartRecAtcmdEnd - q) q) = some args
  | [], _, _, _, _ => rfl
  | a :: args, p, hm, hnul, hend => by
    have hsplit : splitArgs (a :: args) = (a ++ [0]) ++ splitArgs args := rfl
    rw [hsplit] at hm hend
    rw [bytesAt_append, List.length_append, List.length_singleton, ← Nat.add_assoc] at hm
    simp only [List.length_append, List.length_singleton] at hend
    have hhead := cString_of_bytesAt (n := uartRecAtcmdEnd - p) hm.1 (hnul a (by simp)) (by omega)
    have htail := mapM_cString_argAddresses args (p + a.length + 1) hm.2
      (fun b hb => hnul b (List.mem_cons_of_mem _ hb)) (by omega)
    rw [argAddresses, List.mapM_cons, hhead, htail]
    rfl

/-- Splitting adds the NUL behind the last argument. -/
theorem length_splitArgs : ∀ (args : List (List UInt8)), args ≠ [] →
    (splitArgs args).length = ([44].intercalate args).length + 1
  | [], h => absurd rfl h
  | [a], _ => by simp [splitArgs, List.intercalate]
  | a :: b :: args, _ => by
    have hjoin : [(44 : UInt8)].intercalate (a :: b :: args)
        = a ++ 44 :: [44].intercalate (b :: args) := by
      simp [List.intercalate]
    have hsplit : splitArgs (a :: b :: args) = (a ++ [0]) ++ splitArgs (b :: args) := rfl
    have ih := length_splitArgs (b :: args) (by simp)
    rw [hjoin, hsplit, List.length_append, ih]
    simp only [List.length_append, List.length_cons, List.length_nil]
    omega

/-- There is one address for each argument. -/
theorem length_argAddresses (args : List (List UInt8)) (p : ℕ) :
    (argAddresses p args).length = args.length := by
  induction args generalizing p with
  | nil => rfl
  | cons a args ih => rw [argAddresses, List.length_cons, List.length_cons, ih]

/-! ### The name -/

/-- The loop upper-cases the rest of the string.  Induction on that rest. -/
theorem toupperLoop_spec {str : ℕ} : ∀ (rest done : List UInt8) (fuel : ℕ) (m : Memory),
    BytesAt m str (done ++ rest ++ [0]) → 0 ∉ done → 0 ∉ rest →
    str + (done ++ rest).length < uartRecAtcmdEnd → (done ++ rest).length < 256 →
    rest.length < fuel →
    ∃ m', toupperLoop str fuel m done.length = some m' ∧
      BytesAt m' str (done ++ rest.map toupper ++ [0]) ∧
      FrameAt m m' str (done ++ rest).length
  | [], done, fuel, m, hm, hdone, _, hend, _, hfuel => by
    obtain ⟨k, rfl⟩ : ∃ k, fuel = k + 1 := ⟨fuel - 1, by simp at hfuel; omega⟩
    rw [List.append_nil] at hm hend
    refine ⟨m, ?_, by simpa using hm, fun _ _ => rfl⟩
    rw [toupperLoop, cString_of_bytesAt hm hdone (by omega)]
    simp
  | x :: rest, done, fuel, m, hm, hdone, hrest, hend, hlen, hfuel => by
    obtain ⟨k, rfl⟩ : ∃ k, fuel = k + 1 := ⟨fuel - 1, by simp at hfuel; omega⟩
    rw [List.mem_cons, not_or] at hrest
    simp only [List.length_append, List.length_cons] at hend hlen hfuel
    have hnul : 0 ∉ done ++ x :: rest := by
      rw [List.mem_append, List.mem_cons]
      exact fun h => h.elim hdone fun h => h.elim hrest.1 hrest.2
    -- the bound of the loop is read off the string in every turn; it has not changed
    have hread := cString_of_bytesAt (n := uartRecAtcmdEnd - str) hm hnul
      (by simp only [List.length_append, List.length_cons]; omega)
    rw [List.append_assoc, List.cons_append] at hm
    have hx : m (str + done.length) = x := (bytesAt_append.1 hm).2.1
    have hset := hm.set (toupper x)
    obtain ⟨m', h1, h2, h3⟩ := toupperLoop_spec rest (done ++ [toupper x]) k
      (store8 m (str + done.length) (toupper x)) (by simpa using hset)
      (by
        rw [List.mem_append, List.mem_singleton, not_or]
        exact ⟨hdone, fun h => hrest.1 (toupper_eq_zero.1 h.symm).symm⟩)
      hrest.2 (by simp only [List.length_append, List.length_singleton]; omega)
      (by simp only [List.length_append, List.length_singleton]; omega) (by omega)
    refine ⟨m', ?_, by simpa using h2, ?_⟩
    · have hi : (done.length + 1) % 256 = done.length + 1 := Nat.mod_eq_of_lt (by omega)
      rw [toupperLoop, hread, Option.bind_some, if_pos (by simp), hx, hi]
      simpa using h1
    · intro q hq
      simp only [List.length_append, List.length_cons] at hq
      rw [h3 q (by simp only [List.length_append, List.length_singleton]; omega)]
      exact store8_of_ne (by omega)

/-- `stringTorequest` upper-cases the name in place and looks it up. -/
theorem stringTorequest_spec {m : Memory} {str : ℕ} {name : List UInt8}
    (hm : BytesAt m str (name ++ [0])) (hnul : 0 ∉ name)
    (hend : str + name.length < uartRecAtcmdEnd) (hlen : name.length < 256) :
    ∃ m', stringTorequest m str = some (m', compareRequest (name.map toupper)) ∧
      BytesAt m' str (name.map toupper ++ [0]) ∧ FrameAt m m' str name.length := by
  obtain ⟨m', h1, h2, h3⟩ := toupperLoop_spec name [] 256 m hm (by simp) hnul hend hlen hlen
  have hnul' : 0 ∉ name.map toupper := by
    simp only [List.mem_map, not_exists, not_and]
    exact fun x hx h => hnul (toupper_eq_zero.1 h ▸ hx)
  rw [List.nil_append] at h2 h3
  have hread := cString_of_bytesAt (n := uartRecAtcmdEnd - str) h2 hnul' (by
    rw [List.length_map]; omega)
  refine ⟨m', ?_, h2, h3⟩
  rw [stringTorequest]
  change ((toupperLoop str 256 m ([] : List UInt8).length).bind _) = _
  rw [h1, Option.bind_some, hread, Option.map_some]

/-! ### The whole line -/

/-- What the command layer does for an upper-cased name with arguments. -/
def dispatch (name : List UInt8) (args : List (List UInt8)) : AtEvent :=
  match sAtCommands.find? fun c => compareRequest name = some c.requestNumber with
  | some c => .call c.responseFunction (1 + args.length) (name :: args)
  | none => invalidCommand

/-- `processCommand` on pointers to a name and its arguments. -/
theorem processCommand_spec {m : Memory} {str p : ℕ} {name : List UInt8}
    (args : List (List UInt8)) (hname : BytesAt m str (name ++ [0]))
    (hargs : BytesAt m p (splitArgs args)) (hnul : 0 ∉ name) (hnuls : ∀ a ∈ args, 0 ∉ a)
    (hp : str + name.length < p) (hstr : p ≤ uartRecAtcmdEnd)
    (hend : p + (splitArgs args).length ≤ uartRecAtcmdEnd) (hlen : name.length < 256) :
    ∃ m', processCommand m (str :: argAddresses p args)
      = some (m', dispatch (name.map toupper) args) := by
  obtain ⟨m', h1, h2, h3⟩ := stringTorequest_spec hname hnul (by omega) hlen
  have hargs' : BytesAt m' p (splitArgs args) := hargs.congr fun q h _ => h3 q (by omega)
  have hnul' : 0 ∉ name.map toupper := by
    simp only [List.mem_map, not_exists, not_and]
    exact fun x hx h => hnul (toupper_eq_zero.1 h ▸ hx)
  have hread := cString_of_bytesAt (n := uartRecAtcmdEnd - str) h2 hnul' (by
    rw [List.length_map]; omega)
  refine ⟨m', ?_⟩
  rw [processCommand, h1, Option.bind_some, dispatch]
  cases sAtCommands.find? fun c => compareRequest (name.map toupper) = some c.requestNumber with
  | none => rfl
  | some c =>
    simp only
    rw [List.mapM_cons, hread, mapM_cString_argAddresses args p hargs' hnuls hend,
      List.length_cons, length_argAddresses, Nat.add_comm]
    rfl

/-- **`parseParameter` on a well-formed line** dispatches the upper-cased name with the
    arguments as they were typed. -/
theorem parseParameter_spec {m : Memory} {name : List UInt8} {args : List (List UInt8)}
    (hm : BytesAt m uartRecAtcmd (commandLine name args ++ [0]))
    (hname : ∀ x ∈ name, x ≠ 61 ∧ x ≠ 0) (hargs : ∀ a ∈ args, ∀ x ∈ a, x ≠ 44 ∧ x ≠ 0)
    (hlen : (commandLine name args).length < 200) (hnum : args.length ≤ 48) :
    ∃ m', parseParameter m uartRecAtcmd = some (m', dispatch (name.map toupper) args) := by
  have hname' : ∀ x ∈ name, x ∉ [(61 : UInt8)] ∧ x ≠ 0 := fun x hx =>
    ⟨by simpa using (hname x hx).1, (hname x hx).2⟩
  have hargs' : ∀ a ∈ args, ∀ x ∈ a, x ∉ [(44 : UInt8)] ∧ x ≠ 0 := fun a ha x hx =>
    ⟨by simpa using (hargs a ha x hx).1, (hargs a ha x hx).2⟩
  have hnul : 0 ∉ name := fun h => (hname 0 h).2 rfl
  have hnuls : ∀ a ∈ args, 0 ∉ a := fun a ha h => (hargs a ha 0 h).2 rfl
  have hendval : uartRecAtcmdEnd = uartRecAtcmd + 200 := rfl
  by_cases hnil : args = []
  -- no `=`: the whole line is the name
  · subst hnil
    rw [commandLine, if_pos rfl] at hm hlen
    have hsep := strsep_last hm hname' (by omega)
    obtain ⟨m', h⟩ := processCommand_spec (p := uartRecAtcmd + 200) [] hm trivial hnul
      (by simp) (by omega) (by omega) (by simp [splitArgs]; omega) (by omega)
    refine ⟨m', ?_⟩
    rw [parseParameter, hsep]
    exact h
  -- the `=` becomes the NUL of the name, and the arguments start behind it
  · rw [commandLine, if_neg hnil] at hm hlen
    simp only [List.length_append, List.length_cons] at hlen
    rw [List.append_assoc, List.cons_append] at hm
    have hsep := strsep_token hm hname' (by simp) (by decide) (by omega)
    have hset := bytesAt_append.1 (hm.set 0)
    obtain ⟨m₁, h1, h2, h3⟩ := parseArguments_spec args maxSingleParameter
      (store8 m (uartRecAtcmd + name.length) 0) (uartRecAtcmd + name.length + 1) [uartRecAtcmd]
      hnil hset.2.2 hargs' (by omega) (by simp only [List.length_singleton]; omega)
      (by unfold maxSingleParameter; omega)
    have hhead : BytesAt m₁ uartRecAtcmd (name ++ [0]) := by
      have hnul : BytesAt (store8 m (uartRecAtcmd + name.length) 0) uartRecAtcmd (name ++ [0]) :=
        bytesAt_append.2 ⟨hset.1, hset.2.1, trivial⟩
      exact hnul.congr fun q _ hq => h3 q (by
        rw [List.length_append, List.length_singleton] at hq; omega)
    have hsplit := length_splitArgs args hnil
    obtain ⟨m', h⟩ := processCommand_spec args hhead h2 hnul hnuls (by omega) (by omega) (by omega)
      (by omega)
    refine ⟨m', ?_⟩
    rw [parseParameter, hsep, Option.bind_some]
    simp only [Option.toList]
    rw [h1, Option.bind_some]
    exact h

end SerialNet
