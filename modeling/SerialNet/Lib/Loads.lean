import SerialNet.Lib.Prog

namespace SerialNet

/-!
# Programs that read cells

A program over `Load` reads cells of a memory and does nothing else.  `valueOn m` is its result on
the memory `m`, `readsOn m` the cells it reads, in order, and `ReadsWithin m S` says that these
all lie in `S`.  The lemmas push the three through `do` notation.
-/

/-- Read the cell at `p`. -/
inductive Load (ι β : Type) : Type → Type where
  | cell (p : ι) : Load ι β β

variable {ι β α γ : Type}

/-- The program that reads one cell. -/
def load (p : ι) : Prog (Load ι β) β := Prog.perform (.cell p)

/-- Answer from the memory `m`, and note the cell. -/
def loadStep (m : ι → β) : ∀ δ, Load ι β δ → List ι → δ × List ι
  | _, .cell p, log => (m p, log ++ [p])

/-- What a program returns on the memory `m`. -/
def valueOn (m : ι → β) (prog : Prog (Load ι β) α) : α := (prog.exec (loadStep m) []).1

/-- The cells that a program reads on the memory `m`. -/
def readsOn (m : ι → β) (prog : Prog (Load ι β) α) : List ι := (prog.exec (loadStep m) []).2

/-- All cells that a program reads on the memory `m` lie in `S`. -/
def ReadsWithin (m : ι → β) (S : ι → Prop) (prog : Prog (Load ι β) α) : Prop :=
  ∀ p ∈ readsOn m prog, S p

instance (m : ι → β) (S : ι → Prop) [DecidablePred S] (prog : Prog (Load ι β) α) :
    Decidable (ReadsWithin m S prog) :=
  inferInstanceAs (Decidable (∀ p ∈ readsOn m prog, S p))

/-- What was read before does not matter. -/
theorem exec_loadStep (m : ι → β) (prog : Prog (Load ι β) α) (log : List ι) :
    prog.exec (loadStep m) log = (valueOn m prog, log ++ readsOn m prog) := by
  induction prog generalizing log with
  | ret a => exact Prod.ext rfl (List.append_nil log).symm
  | op e k ih =>
    obtain ⟨p⟩ := e
    have hstart := ih (m p) [p]
    have hlog := ih (m p) (log ++ [p])
    simp only [valueOn, readsOn, Prog.exec, loadStep, List.nil_append] at hstart hlog ⊢
    rw [hstart, hlog, List.append_assoc]

section Rules

variable {m : ι → β} {S : ι → Prop}

/-- A program without loads gives its value. -/
@[simp] theorem valueOn_pure (a : α) : valueOn m (pure a : Prog (Load ι β) α) = a := rfl

/-- A program without loads reads nothing. -/
@[simp] theorem readsOn_pure (a : α) : readsOn m (pure a : Prog (Load ι β) α) = [] := rfl

/-- A load gives what the memory has at the place. -/
@[simp] theorem valueOn_load (p : ι) : valueOn m (load p) = m p := rfl

/-- A load reads its place. -/
@[simp] theorem readsOn_load (p : ι) : readsOn m (load p : Prog (Load ι β) β) = [p] := rfl

/-- The rest of a program is run on the value of its first part. -/
@[simp] theorem valueOn_bind (prog : Prog (Load ι β) α) (f : α → Prog (Load ι β) γ) :
    valueOn m (prog >>= f) = valueOn m (f (valueOn m prog)) := by
  rw [valueOn, Prog.exec_bind, exec_loadStep, exec_loadStep]

/-- The reads of the rest come behind those of the first part. -/
@[simp] theorem readsOn_bind (prog : Prog (Load ι β) α) (f : α → Prog (Load ι β) γ) :
    readsOn m (prog >>= f) = readsOn m prog ++ readsOn m (f (valueOn m prog)) := by
  rw [readsOn, Prog.exec_bind, exec_loadStep, exec_loadStep, List.nil_append]

/-- The rest of a program goes on with what its first load gives. -/
@[simp high] theorem valueOn_load_bind (p : ι) (f : β → Prog (Load ι β) α) :
    valueOn m (load p >>= f) = valueOn m (f (m p)) := by
  rw [valueOn_bind, valueOn_load]

/-- A test picks the branch that gives the value. -/
@[simp] theorem valueOn_ite (c : Prop) [Decidable c] (p q : Prog (Load ι β) α) :
    valueOn m (if c then p else q) = if c then valueOn m p else valueOn m q := by
  split <;> rfl

/-- Nothing is read, so nothing outside. -/
@[simp] theorem readsWithin_pure (a : α) : ReadsWithin m S (pure a) := by
  simp [ReadsWithin]

/-- A load stays inside when its place does. -/
@[simp] theorem readsWithin_load (p : ι) : ReadsWithin m S (load p) ↔ S p := by
  simp [ReadsWithin]

/-- The rest of a program counts on the value that its first part gives. -/
@[simp] theorem readsWithin_bind (prog : Prog (Load ι β) α) (f : α → Prog (Load ι β) γ) :
    ReadsWithin m S (prog >>= f) ↔
      ReadsWithin m S prog ∧ ReadsWithin m S (f (valueOn m prog)) := by
  simp only [ReadsWithin, readsOn_bind, List.mem_append, or_imp, forall_and]

/-- The place of the first load is inside, and the rest stays inside with what it gives. -/
@[simp high] theorem readsWithin_load_bind (p : ι) (f : β → Prog (Load ι β) α) :
    ReadsWithin m S (load p >>= f) ↔ S p ∧ ReadsWithin m S (f (m p)) := by
  rw [readsWithin_bind, readsWithin_load, valueOn_load]

/-- Only the branch that is taken has to stay inside. -/
theorem readsWithin_ite (c : Prop) [Decidable c] (p q : Prog (Load ι β) α) :
    ReadsWithin m S (if c then p else q) ↔ if c then ReadsWithin m S p else ReadsWithin m S q := by
  split <;> rfl

end Rules

end SerialNet
