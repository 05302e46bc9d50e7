import Mathlib.Init

namespace SerialNet

/-!
# Programs over operations

`Prog E α` is a program that performs operations of the interface `E` and returns an `α`; an
operation `e : E β` answers with a `β`, and what the program does next may depend on it.  A
program has two readings here:

* `exec` runs it with a state, given what each operation does to the state and answers;
* `All P` says that it performs only operations that meet `P`, whatever the answers are.

`exec_invariant` connects them: what all operations of a program preserve, the program preserves.
`exec_simulates` does so for two ways to run the operations.
The remaining lemmas push both readings through the constructs of `do` notation and through the
conditions of a language that evaluates `&&` and `||` from the left (`allOf`, `anyOf`).
-/

/-- A program over the operations `E` that returns an `α`. -/
inductive Prog (E : Type → Type) (α : Type) : Type 1 where
  | ret (a : α)
  | op {β : Type} (e : E β) (k : β → Prog E α)

namespace Prog

variable {E : Type → Type} {α β γ σ : Type}

/-- Go on with `f`. -/
def bind : Prog E α → (α → Prog E β) → Prog E β
  | ret a, f => f a
  | op e k, f => op e fun b => (k b).bind f

instance : Monad (Prog E) where
  pure := ret
  bind := bind

/-- The program that performs one operation. -/
def perform (e : E β) : Prog E β := op e ret

/-- `c₁ && c₂ && …`, evaluated from the left until a condition fails. -/
def allOf : List (Prog E Bool) → Prog E Bool
  | [] => pure true
  | c :: cs => do if ← c then allOf cs else pure false

/-- `c₁ || c₂ || …`, evaluated from the left until a condition holds. -/
def anyOf : List (Prog E Bool) → Prog E Bool
  | [] => pure false
  | c :: cs => do if ← c then pure true else anyOf cs

/-! ### Normal forms of programs -/

/-- Left identity: a value in front of a program. -/
@[simp] theorem pure_bind (a : α) (f : α → Prog E β) : (pure a >>= f) = f a := rfl

/-- Associativity: three programs in a row. -/
@[simp] theorem bind_assoc (p : Prog E α) (f : α → Prog E β) (g : β → Prog E γ) :
    ((p >>= f) >>= g) = (p >>= fun a => f a >>= g) := by
  induction p with
  | ret a => rfl
  | op e k ih => exact congrArg (op e) (funext ih)

/-- What follows a test follows both branches. -/
@[simp] theorem ite_bind (c : Prop) [Decidable c] (p q : Prog E α) (f : α → Prog E β) :
    ((if c then p else q) >>= f) = if c then p >>= f else q >>= f := by
  split <;> rfl

/-- No condition: true. -/
@[simp] theorem allOf_nil : allOf ([] : List (Prog E Bool)) = pure true := rfl

/-- The conditions behind a false one are not evaluated. -/
@[simp] theorem allOf_cons (c : Prog E Bool) (cs : List (Prog E Bool)) :
    allOf (c :: cs) = (c >>= fun b => if b then allOf cs else pure false) := rfl

/-- No condition: false. -/
@[simp] theorem anyOf_nil : anyOf ([] : List (Prog E Bool)) = pure false := rfl

/-- The conditions behind a true one are not evaluated. -/
@[simp] theorem anyOf_cons (c : Prog E Bool) (cs : List (Prog E Bool)) :
    anyOf (c :: cs) = (c >>= fun b => if b then pure true else anyOf cs) := rfl

/-! ### The operations of a program -/

/-- Only operations that meet `P` are performed, whatever the answers are. -/
def All (P : ∀ β, E β → Prop) : Prog E α → Prop
  | ret _ => True
  | op e k => P _ e ∧ ∀ b, All P (k b)

variable {P Q : ∀ β, E β → Prop}

/-- A program without operations meets every condition on operations. -/
@[simp] theorem all_pure (a : α) : All P (pure a : Prog E α) := trivial

/-- A single operation has to meet the condition. -/
@[simp] theorem all_perform (e : E β) : All P (perform e) ↔ P _ e :=
  ⟨fun h => h.1, fun h => ⟨h, fun _ => trivial⟩⟩

/-- The first operation has to meet the condition, and the rest whatever it answers. -/
@[simp] theorem all_perform_bind (e : E β) (f : β → Prog E α) :
    All P (perform e >>= f) ↔ P _ e ∧ ∀ b, All P (f b) := Iff.rfl

/-- Each branch has to meet the condition where it is taken. -/
@[simp] theorem all_ite (c : Prop) [Decidable c] (p q : Prog E α) :
    All P (if c then p else q) ↔ (c → All P p) ∧ (¬ c → All P q) := by
  by_cases h : c
  · rw [if_pos h]
    exact ⟨fun hp => ⟨fun _ => hp, fun hn => absurd h hn⟩, fun hpq => hpq.1 h⟩
  · rw [if_neg h]
    exact ⟨fun hq => ⟨fun hc => absurd hc h, fun _ => hq⟩, fun hpq => hpq.2 h⟩

/-- A sequence performs what its parts perform. -/
theorem All.bind {p : Prog E α} {f : α → Prog E β} (hp : All P p) (hf : ∀ a, All P (f a)) :
    All P (p >>= f) := by
  induction p with
  | ret a => exact hf a
  | op e k ih => exact ⟨hp.1, fun b => ih b (hp.2 b)⟩

/-- A program that meets a condition meets a weaker one. -/
theorem All.mono {p : Prog E α} (h : ∀ β (e : E β), P β e → Q β e) (hp : All P p) : All Q p := by
  induction p with
  | ret a => trivial
  | op e k ih => exact ⟨h _ e hp.1, fun b => ih b (hp.2 b)⟩

/-! ### Execution -/

/-- Run a program; `step` says what an operation answers and how it changes the state. -/
def exec (step : ∀ β, E β → σ → β × σ) : Prog E α → σ → α × σ
  | ret a, s => (a, s)
  | op e k, s => (k (step _ e s).1).exec step (step _ e s).2

variable {step : ∀ β, E β → σ → β × σ}

/-- A program without operations leaves the state alone. -/
@[simp] theorem exec_pure (a : α) (s : σ) : (pure a : Prog E α).exec step s = (a, s) := rfl

/-- A single operation makes one step. -/
@[simp] theorem exec_perform (e : E β) (s : σ) : (perform e).exec step s = step _ e s := rfl

/-- The rest runs from the state that the first part leaves. -/
theorem exec_bind (p : Prog E α) (f : α → Prog E β) (s : σ) :
    (p >>= f).exec step s = (f (p.exec step s).1).exec step (p.exec step s).2 := by
  induction p generalizing s with
  | ret a => rfl
  | op e k ih => exact ih _ _

/-- A test picks the program that runs. -/
@[simp] theorem exec_ite (c : Prop) [Decidable c] (p q : Prog E α) (s : σ) :
    (if c then p else q).exec step s = if c then p.exec step s else q.exec step s := by
  split <;> rfl

/-- **What all operations of a program preserve, the program preserves.** -/
theorem exec_invariant {inv : σ → Prop}
    (hstep : ∀ β (e : E β) s, P β e → inv s → inv (step β e s).2)
    {p : Prog E α} (hp : All P p) {s : σ} (hs : inv s) : inv (p.exec step s).2 := by
  induction p generalizing s with
  | ret a => exact hs
  | op e k ih => exact ih _ (hp.2 _) (hstep _ e s hp.1 hs)

/-- **Simulation.**  If related states stay related under every operation of a program, and answer
    it alike, then so they do under the program. -/
theorem exec_simulates {τ : Type} {step' : ∀ β, E β → τ → β × τ} {R : σ → τ → Prop}
    (hstep : ∀ β (e : E β) s t, P β e → R s t →
      (step β e s).1 = (step' β e t).1 ∧ R (step β e s).2 (step' β e t).2)
    {p : Prog E α} (hp : All P p) {s : σ} {t : τ} (h : R s t) :
    (p.exec step s).1 = (p.exec step' t).1 ∧ R (p.exec step s).2 (p.exec step' t).2 := by
  induction p generalizing s t with
  | ret a => exact ⟨rfl, h⟩
  | op e k ih =>
    obtain ⟨hanswer, hnext⟩ := hstep _ e s t hp.1 h
    simp only [exec]
    rw [← hanswer]
    exact ih _ (hp.2 _) hnext

/-- Two ways to run the operations that agree on those of a program run it alike. -/
theorem exec_congr {step' : ∀ β, E β → σ → β × σ}
    (hstep : ∀ β (e : E β) s, P β e → step β e s = step' β e s) {p : Prog E α} (hp : All P p)
    (s : σ) : p.exec step s = p.exec step' s := by
  have hboth : ∀ β (e : E β) s t, P β e → s = t →
      (step β e s).1 = (step' β e t).1 ∧ (step β e s).2 = (step' β e t).2 := by
    rintro β e s t he rfl
    rw [hstep β e s he]
    exact ⟨rfl, rfl⟩
  obtain ⟨hanswer, hstate⟩ := exec_simulates (R := Eq) hboth hp rfl
  exact Prod.ext hanswer hstate

end Prog

end SerialNet
