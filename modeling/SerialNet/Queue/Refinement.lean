import SerialNet.Lib.Run
import SerialNet.Queue.Cell
import Mathlib.Data.Finset.Card

namespace SerialNet

/-!
# Cell queues refine lists

`queueStep` performs a call on the links in memory and `CellQueues.step` on the lists of cells that
the queues stand for.  `Allowed` is the callers' side: a cell is inserted when it is in no queue,
and removed from the queue it is in, or when it has been taken out of one already.

`QueuesRefine` relates the two states, `queueStep_refines` is the simulation step, one case for
each call, and `cell_queues_refine_lists` runs it over every sequence of calls.
-/

/-- A call on the queues. -/
inductive QueueOp where
  | insertCell (pQueHead pCell addTail : ℕ)
  | freeCell (pFreeQueHead pCell : ℕ)
  | getCell (pQueHead : ℕ)
  | peekCell (pQueHead : ℕ)
  | removeCell (pQueHead pCell : ℕ)
  | insertCellQue (pQueHead pInsertedQueHead addTail : ℕ)
deriving DecidableEq, Repr

/-- Perform a call on the memory; the result is the returned pointer, 0 where there is none. -/
def queueStep (m : CellMem) : QueueOp → CellMem × ℕ
  | .insertCell pQueHead pCell addTail => (nstInsertCell m pQueHead pCell addTail, 0)
  | .freeCell pFreeQueHead pCell => (nstFreeCell m pFreeQueHead pCell, 0)
  | .getCell pQueHead => nstGetCell m pQueHead
  | .peekCell pQueHead => (m, nstPeekCell m pQueHead)
  | .removeCell pQueHead pCell => (nstRemoveCell m pQueHead pCell, 0)
  | .insertCellQue pQueHead pInsertedQueHead addTail =>
      (nstInsertCellQue m pQueHead pInsertedQueHead addTail, 0)

/-- The queues as lists. -/
structure CellQueues where
  cells : ℕ → List ℕ
  /-- The cells that were put in and not taken out since. -/
  inserted : Finset ℕ
  /-- The cells that were taken out and not put in since. -/
  dequeued : Finset ℕ

namespace CellQueues

/-- No queue is set up and no cell is in use. -/
def empty : CellQueues := ⟨fun _ => [], ∅, ∅⟩

/-- The cell `c` comes in, and `q` has the cells `l` then. -/
def put (t : CellQueues) (q c : ℕ) (l : List ℕ) : CellQueues :=
  ⟨Function.update t.cells q l, insert c t.inserted, t.dequeued.erase c⟩

/-- The cell `c` goes out, and `q` has the cells `l` then. -/
def take (t : CellQueues) (q c : ℕ) (l : List ℕ) : CellQueues :=
  ⟨Function.update t.cells q l, t.inserted.erase c, insert c t.dequeued⟩

/-- All cells of `src` go to `q`, which has the cells `l` then. -/
def move (t : CellQueues) (q src : ℕ) (l : List ℕ) : CellQueues :=
  { t with cells := Function.update (Function.update t.cells q l) src [] }

section Fields

variable (t : CellQueues) (q c src x : ℕ) (l : List ℕ)

@[simp] theorem put_cells : (t.put q c l).cells x = if x = q then l else t.cells x :=
  Function.update_apply _ _ _ _

@[simp] theorem put_inserted : (t.put q c l).inserted = insert c t.inserted := rfl

@[simp] theorem put_dequeued : (t.put q c l).dequeued = t.dequeued.erase c := rfl

@[simp] theorem take_cells : (t.take q c l).cells x = if x = q then l else t.cells x :=
  Function.update_apply _ _ _ _

@[simp] theorem take_inserted : (t.take q c l).inserted = t.inserted.erase c := rfl

@[simp] theorem take_dequeued : (t.take q c l).dequeued = insert c t.dequeued := rfl

@[simp] theorem move_cells :
    (t.move q src l).cells x = if x = src then [] else if x = q then l else t.cells x := by
  simp [move, Function.update_apply]

@[simp] theorem move_inserted : (t.move q src l).inserted = t.inserted := rfl

@[simp] theorem move_dequeued : (t.move q src l).dequeued = t.dequeued := rfl

end Fields

/-- What a call does to the lists. -/
def step (t : CellQueues) : QueueOp → CellQueues × ℕ
  | .insertCell q c addTail =>
      (t.put q c (if addTail = nstTrue then t.cells q ++ [c] else c :: t.cells q), 0)
  | .freeCell q c => (t.put q c (t.cells q ++ [c]), 0)
  | .getCell q =>
      match t.cells q with
      | [] => (t, 0)
      | c :: l => (t.take q c l, c)
  | .peekCell q => (t, (t.cells q).headD 0)
  | .removeCell q c => (if c ∈ t.cells q then t.take q c ((t.cells q).erase c) else t, 0)
  | .insertCellQue q src addTail =>
      (t.move q src (if addTail = nstTrue then t.cells q ++ t.cells src
        else t.cells src ++ t.cells q), 0)

/-- An empty queue gives no cell. -/
theorem step_getCell_nil {t : CellQueues} {q : ℕ} (h : t.cells q = []) :
    t.step (.getCell q) = (t, 0) := by
  simp only [step, h]

/-- The first cell is taken. -/
theorem step_getCell_cons {t : CellQueues} {q c : ℕ} {l : List ℕ} (h : t.cells q = c :: l) :
    t.step (.getCell q) = (t.take q c l, c) := by
  simp only [step, h]

/-- No cell is lost, there twice or in two queues. -/
structure Inv (heads : List ℕ) (cells : Finset ℕ) (t : CellQueues) : Prop where
  nodup : ∀ q ∈ heads, (t.cells q).Nodup
  disjoint : ∀ q ∈ heads, ∀ q' ∈ heads, q ≠ q' → (t.cells q).Disjoint (t.cells q')
  mem_inserted : ∀ c, c ∈ t.inserted ↔ ∃ q ∈ heads, c ∈ t.cells q
  inserted_subset : t.inserted ⊆ cells
  dequeued_subset : t.dequeued ⊆ cells
  not_both : Disjoint t.inserted t.dequeued

end CellQueues

/-- The calls that callers make. -/
def Allowed (heads : List ℕ) (cells : Finset ℕ) (t : CellQueues) : QueueOp → Prop
  | .insertCell q c _ | .freeCell q c => q ∈ heads ∧ c ∈ cells ∧ c ∉ t.inserted
  | .getCell q | .peekCell q => q ∈ heads
  | .removeCell q c => q ∈ heads ∧ (c ∈ t.cells q ∨ c ∈ t.dequeued)
  | .insertCellQue q src _ => q ∈ heads ∧ src ∈ heads ∧ q ≠ src

instance (heads : List ℕ) (cells : Finset ℕ) (t : CellQueues) :
    ∀ op, Decidable (Allowed heads cells t op)
  | .insertCell q c _ | .freeCell q c =>
      inferInstanceAs (Decidable (q ∈ heads ∧ c ∈ cells ∧ c ∉ t.inserted))
  | .getCell q | .peekCell q => inferInstanceAs (Decidable (q ∈ heads))
  | .removeCell q c => inferInstanceAs (Decidable (q ∈ heads ∧ (c ∈ t.cells q ∨ c ∈ t.dequeued)))
  | .insertCellQue q src _ => inferInstanceAs (Decidable (q ∈ heads ∧ src ∈ heads ∧ q ≠ src))

/-- The heads and cells are at different addresses that are not null, and a `UINT16` can count the
    cells. -/
structure QueueLayout (heads : List ℕ) (cells : Finset ℕ) : Prop where
  heads_ne : 0 ∉ heads
  cells_ne : 0 ∉ cells
  disjoint : ∀ q ∈ heads, q ∉ cells
  card_lt : cells.card < 65536

variable {heads : List ℕ} {cells : Finset ℕ} {t : CellQueues} {m m' : CellMem} {q c src : ℕ}
  {l : List ℕ}

namespace CellQueues.Inv

theorem empty (heads : List ℕ) (cells : Finset ℕ) : Inv heads cells CellQueues.empty where
  nodup _ _ := List.nodup_nil
  disjoint _ _ _ _ _ := List.disjoint_nil_left _
  mem_inserted c := by simp [CellQueues.empty]
  inserted_subset := Finset.empty_subset cells
  dequeued_subset := Finset.empty_subset cells
  not_both := Finset.disjoint_empty_left _

/-- A cell is in one queue at most. -/
theorem unique (h : t.Inv heads cells) {q q' : ℕ} (hq : q ∈ heads) (hq' : q' ∈ heads)
    (hc : c ∈ t.cells q) (hc' : c ∈ t.cells q') : q = q' := by
  by_contra hne
  exact h.disjoint q hq q' hq' hne hc hc'

/-- A cell of a queue is an inserted one. -/
theorem inserted (h : t.Inv heads cells) (hq : q ∈ heads) (hc : c ∈ t.cells q) : c ∈ t.inserted :=
  (h.mem_inserted c).mpr ⟨q, hq, hc⟩

/-- A cell that is in no queue comes in. -/
theorem put (h : t.Inv heads cells) (hq : q ∈ heads) (hc : c ∈ cells) (hout : c ∉ t.inserted)
    (hl : l.Perm (c :: t.cells q)) : (t.put q c l).Inv heads cells := by
  have hmem : ∀ q' x, x ∈ (t.put q c l).cells q' ↔ x ∈ t.cells q' ∨ (q' = q ∧ x = c) := by
    intro q' x
    by_cases hqq : q' = q
    · subst hqq
      simp [hl.mem_iff, or_comm]
    · simp [hqq]
  have hnot : ∀ q' ∈ heads, c ∉ t.cells q' := fun q' hq' hin => hout (h.inserted hq' hin)
  refine ⟨?_, ?_, ?_, ?_, ?_, ?_⟩
  · intro q' hq'
    rw [put_cells]
    split
    · rw [hl.nodup_iff]
      exact List.nodup_cons.mpr ⟨hnot q hq, h.nodup q hq⟩
    · exact h.nodup q' hq'
  · intro q₁ hq₁ q₂ hq₂ hne x hx₁ hx₂
    rcases (hmem q₁ x).mp hx₁ with hold₁ | ⟨rfl, rfl⟩
    · rcases (hmem q₂ x).mp hx₂ with hold₂ | ⟨-, rfl⟩
      · exact h.disjoint q₁ hq₁ q₂ hq₂ hne hold₁ hold₂
      · exact hnot q₁ hq₁ hold₁
    · rcases (hmem q₂ x).mp hx₂ with hold₂ | ⟨heq, -⟩
      · exact hnot q₂ hq₂ hold₂
      · exact hne heq.symm
  · intro x
    simp only [hmem, put_inserted, Finset.mem_insert, h.mem_inserted]
    constructor
    · rintro (rfl | ⟨q', hq', hx⟩)
      · exact ⟨q, hq, .inr ⟨rfl, rfl⟩⟩
      · exact ⟨q', hq', .inl hx⟩
    · rintro ⟨q', hq', hx | ⟨-, rfl⟩⟩
      · exact .inr ⟨q', hq', hx⟩
      · exact .inl rfl
  · exact Finset.insert_subset hc h.inserted_subset
  · exact (Finset.erase_subset c t.dequeued).trans h.dequeued_subset
  · rw [put_inserted, put_dequeued, Finset.disjoint_insert_left]
    exact ⟨Finset.notMem_erase c t.dequeued, h.not_both.mono_right (Finset.erase_subset _ _)⟩

/-- A cell of a queue goes out. -/
theorem take (h : t.Inv heads cells) (hq : q ∈ heads) (hl : (c :: l).Perm (t.cells q)) :
    (t.take q c l).Inv heads cells := by
  have hc : c ∈ t.cells q := hl.mem_iff.mp List.mem_cons_self
  obtain ⟨hcl, hnodup⟩ := List.nodup_cons.mp (hl.nodup_iff.mpr (h.nodup q hq))
  have hmem : ∀ q' ∈ heads, ∀ x, x ∈ (t.take q c l).cells q' ↔ x ∈ t.cells q' ∧ x ≠ c := by
    intro q' hq' x
    rw [take_cells]
    split
    · subst q'
      rw [← hl.mem_iff, List.mem_cons]
      constructor
      · intro hx
        refine ⟨.inr hx, ?_⟩
        rintro rfl
        exact hcl hx
      · exact fun hx => hx.1.resolve_left hx.2
    · rename_i hqq
      refine (and_iff_left_of_imp fun hx => ?_).symm
      rintro rfl
      exact hqq (h.unique hq' hq hx hc)
  refine ⟨?_, ?_, ?_, ?_, ?_, ?_⟩
  · intro q' hq'
    rw [take_cells]
    split
    · exact hnodup
    · exact h.nodup q' hq'
  · intro q₁ hq₁ q₂ hq₂ hne x hx₁ hx₂
    exact h.disjoint q₁ hq₁ q₂ hq₂ hne ((hmem q₁ hq₁ x).mp hx₁).1 ((hmem q₂ hq₂ x).mp hx₂).1
  · intro x
    rw [take_inserted, Finset.mem_erase, h.mem_inserted]
    constructor
    · rintro ⟨hxc, q', hq', hx⟩
      exact ⟨q', hq', (hmem q' hq' x).mpr ⟨hx, hxc⟩⟩
    · rintro ⟨q', hq', hx⟩
      obtain ⟨hx, hxc⟩ := (hmem q' hq' x).mp hx
      exact ⟨hxc, q', hq', hx⟩
  · exact (Finset.erase_subset c t.inserted).trans h.inserted_subset
  · exact Finset.insert_subset (h.inserted_subset (h.inserted hq hc)) h.dequeued_subset
  · rw [take_inserted, take_dequeued, Finset.disjoint_insert_right]
    exact ⟨Finset.notMem_erase c t.inserted, h.not_both.mono_left (Finset.erase_subset _ _)⟩

/-- The cells of one queue go to another. -/
theorem move (h : t.Inv heads cells) (hq : q ∈ heads) (hsrc : src ∈ heads) (hne : q ≠ src)
    (hl : l.Perm (t.cells q ++ t.cells src)) : (t.move q src l).Inv heads cells := by
  have hself : (t.move q src l).cells q = l := by rw [move_cells, if_neg hne, if_pos rfl]
  have hother : ∀ q', q' ≠ q → q' ≠ src → (t.move q src l).cells q' = t.cells q' :=
    fun q' hqq hqs => by rw [move_cells, if_neg hqs, if_neg hqq]
  have hmem : ∀ x, x ∈ l ↔ x ∈ t.cells q ∨ x ∈ t.cells src := by
    intro x
    rw [hl.mem_iff, List.mem_append]
  -- A cell of the new queue that is in another one too would have been in two queues before.
  have hdisj : ∀ q' ∈ heads, q' ≠ q → l.Disjoint ((t.move q src l).cells q') := by
    intro q' hq' hqq x hx hx'
    by_cases hqs : q' = src
    · rw [hqs, move_cells, if_pos rfl] at hx'
      exact List.not_mem_nil hx'
    · rw [hother q' hqq hqs] at hx'
      rcases (hmem x).mp hx with hx | hx
      · exact hqq (h.unique hq' hq hx' hx)
      · exact hqs (h.unique hq' hsrc hx' hx)
  refine ⟨?_, ?_, ?_, h.inserted_subset, h.dequeued_subset, h.not_both⟩
  · intro q' hq'
    rw [move_cells]
    split
    · exact List.nodup_nil
    · split
      · rw [hl.nodup_iff]
        exact List.nodup_append'.mpr ⟨h.nodup q hq, h.nodup src hsrc, h.disjoint q hq src hsrc hne⟩
      · exact h.nodup q' hq'
  · intro q₁ hq₁ q₂ hq₂ hne'
    by_cases hq₁q : q₁ = q
    · subst hq₁q
      rw [hself]
      exact hdisj q₂ hq₂ hne'.symm
    · by_cases hq₂q : q₂ = q
      · subst hq₂q
        rw [hself]
        exact (hdisj q₁ hq₁ hne').symm
      · rw [move_cells, move_cells, if_neg hq₁q, if_neg hq₂q]
        split
        · exact List.disjoint_nil_left _
        · split
          · exact List.disjoint_nil_right _
          · exact h.disjoint q₁ hq₁ q₂ hq₂ hne'
  · intro x
    rw [move_inserted, h.mem_inserted]
    constructor
    · rintro ⟨q', hq', hx⟩
      by_cases hqq : q' = q
      · exact ⟨q, hq, hself.symm ▸ (hmem x).mpr (.inl (hqq ▸ hx))⟩
      · by_cases hqs : q' = src
        · exact ⟨q, hq, hself.symm ▸ (hmem x).mpr (.inr (hqs ▸ hx))⟩
        · exact ⟨q', hq', (hother q' hqq hqs).symm ▸ hx⟩
    · rintro ⟨q', hq', hx⟩
      rw [move_cells] at hx
      split at hx
      · cases hx
      · split at hx
        · rcases (hmem x).mp hx with hx | hx
          · exact ⟨q, hq, hx⟩
          · exact ⟨src, hsrc, hx⟩
        · exact ⟨q', hq', hx⟩

end CellQueues.Inv

/-! ### Simulation -/

/-- The memory holds the queues `t`, and the cells that were taken out have null links. -/
structure QueuesRefine (heads : List ℕ) (cells : Finset ℕ) (m : CellMem) (t : CellQueues) :
    Prop where
  inv : t.Inv heads cells
  lists : ∀ q ∈ heads, Lists m q (t.cells q)
  unlinked : ∀ c ∈ t.dequeued, m.pnext c = 0 ∧ m.pprev c = 0

/-- Different cells are no more than there are. -/
theorem QueueLayout.length_lt (hL : QueueLayout heads cells) (hnodup : l.Nodup)
    (hsub : ∀ x ∈ l, x ∈ cells) : l.length < 65536 := by
  have hcard : l.toFinset.card ≤ cells.card :=
    Finset.card_le_card fun x hx => hsub x (List.mem_toFinset.mp hx)
  rw [List.toFinset_card_of_nodup hnodup] at hcard
  exact hcard.trans_lt hL.card_lt

namespace QueuesRefine

variable (hL : QueueLayout heads cells) (h : QueuesRefine heads cells m t)

include h in
/-- The cells of a queue are cells. -/
theorem mem_cells (hq : q ∈ heads) {x : ℕ} (hx : x ∈ t.cells q) : x ∈ cells :=
  h.inv.inserted_subset (h.inv.inserted hq hx)

include hL h

/-- No cell is a head. -/
theorem ne_head (hq : q ∈ heads) {q' x : ℕ} (hq' : q' ∈ heads) (hx : x ∈ t.cells q') : x ≠ q := by
  rintro rfl
  exact hL.disjoint x hq (h.mem_cells hq' hx)

/-- No cell is in a queue twice, and a queue is not its own cell. -/
theorem nodup (hq : q ∈ heads) : (q :: t.cells q).Nodup :=
  List.nodup_cons.mpr ⟨fun hin => h.ne_head hL hq hq hin rfl, h.inv.nodup q hq⟩

/-- NULL is no cell. -/
theorem zero (hq : q ∈ heads) : 0 ∉ q :: t.cells q := by
  intro h0
  rcases List.mem_cons.mp h0 with rfl | h0
  · exact hL.heads_ne hq
  · exact hL.cells_ne (h.mem_cells hq h0)

/-- The count of a queue fits its 16 bits. -/
theorem length_lt (hq : q ∈ heads) : (t.cells q).length < 65536 :=
  hL.length_lt (h.inv.nodup q hq) fun _ hx => h.mem_cells hq hx

/-- A cell that is in no queue is no node of one. -/
theorem fresh (hq : q ∈ heads) (hc : c ∈ cells) (hout : c ∉ t.inserted) : c ∉ q :: t.cells q := by
  intro hin
  rcases List.mem_cons.mp hin with rfl | hin
  · exact hL.disjoint c hq hc
  · exact hout (h.inv.inserted hq hin)

/-- Different queues have no node in common. -/
theorem apart {q' : ℕ} (hq : q ∈ heads) (hq' : q' ∈ heads) (hne : q' ≠ q) {x : ℕ}
    (hx : x ∈ q' :: t.cells q') : x ∉ q :: t.cells q := by
  intro hx'
  rcases List.mem_cons.mp hx with rfl | hx
  · rcases List.mem_cons.mp hx' with heq | hx'
    · exact hne heq
    · exact h.ne_head hL hq' hq hx' rfl
  · rcases List.mem_cons.mp hx' with rfl | hx'
    · exact h.ne_head hL hq hq' hx rfl
    · exact hne (h.inv.unique hq' hq hx hx')

/-- A cell that was taken out is no node of a queue. -/
theorem dequeued_fresh (hq : q ∈ heads) (hc : c ∈ t.dequeued) : c ∉ q :: t.cells q :=
  h.fresh hL hq (h.inv.dequeued_subset hc) fun hin => Finset.disjoint_left.mp h.inv.not_both hin hc

/-- A cell comes in. -/
theorem put {l' : List ℕ} (hq : q ∈ heads) (hc : c ∈ cells) (hout : c ∉ t.inserted)
    (hlists : Lists m' q l') (hsame : ∀ x ∉ c :: q :: t.cells q, SameNode m m' x)
    (hl : l'.Perm (c :: t.cells q)) : QueuesRefine heads cells m' (t.put q c l') where
  inv := h.inv.put hq hc hout hl
  lists q' hq' := by
    rw [CellQueues.put_cells]
    split
    · subst q'
      exact hlists
    · rename_i hne
      refine (h.lists q' hq').congr fun x hx => hsame x ?_
      rw [List.mem_cons, not_or]
      exact ⟨fun heq => h.fresh hL hq' hc hout (heq ▸ hx), h.apart hL hq hq' hne hx⟩
  unlinked d hd := by
    rw [CellQueues.put_dequeued] at hd
    obtain ⟨hdc, hd⟩ := Finset.mem_erase.mp hd
    have hnode := hsame d fun hin =>
      (List.mem_cons.mp hin).elim hdc (h.dequeued_fresh hL hq hd)
    rw [hnode.pnext, hnode.pprev]
    exact h.unlinked d hd

/-- A cell goes out. -/
theorem take {l' : List ℕ} (hq : q ∈ heads) (hlists : Lists m' q l')
    (hlinks : m'.pnext c = 0 ∧ m'.pprev c = 0) (hsame : ∀ x ∉ q :: t.cells q, SameNode m m' x)
    (hl : (c :: l').Perm (t.cells q)) : QueuesRefine heads cells m' (t.take q c l') where
  inv := h.inv.take hq hl
  lists q' hq' := by
    rw [CellQueues.take_cells]
    split
    · subst q'
      exact hlists
    · rename_i hne
      exact (h.lists q' hq').congr fun x hx => hsame x (h.apart hL hq hq' hne hx)
  unlinked d hd := by
    rw [CellQueues.take_dequeued] at hd
    rcases Finset.mem_insert.mp hd with rfl | hd
    · exact hlinks
    · have hnode := hsame d (h.dequeued_fresh hL hq hd)
      rw [hnode.pnext, hnode.pprev]
      exact h.unlinked d hd

/-- The cells of one queue go to another. -/
theorem move {l' : List ℕ} (hq : q ∈ heads) (hsrc : src ∈ heads) (hne : q ≠ src)
    (hlists : Lists m' q l') (hempty : Lists m' src [])
    (hsame : ∀ x ∉ q :: t.cells q ++ src :: t.cells src, SameNode m m' x)
    (hl : l'.Perm (t.cells q ++ t.cells src)) : QueuesRefine heads cells m' (t.move q src l') where
  inv := h.inv.move hq hsrc hne hl
  lists q' hq' := by
    rw [CellQueues.move_cells]
    split
    · subst q'
      exact hempty
    · split
      · subst q'
        exact hlists
      · rename_i hqs hqq
        refine (h.lists q' hq').congr fun x hx => hsame x ?_
        rw [List.mem_append, not_or]
        exact ⟨h.apart hL hq hq' hqq hx, h.apart hL hsrc hq' hqs hx⟩
  unlinked d hd := by
    rw [CellQueues.move_dequeued] at hd
    have hnode := hsame d fun hin => (List.mem_append.mp hin).elim (h.dequeued_fresh hL hq hd)
      (h.dequeued_fresh hL hsrc hd)
    rw [hnode.pnext, hnode.pprev]
    exact h.unlinked d hd

end QueuesRefine

/-- The two states after a call, and what it returned. -/
def Simulates (heads : List ℕ) (cells : Finset ℕ) (r : CellMem × ℕ) (r' : CellQueues × ℕ) : Prop :=
  r.2 = r'.2 ∧ QueuesRefine heads cells r.1 r'.1

/-- `InsertCell` at either end does what the list does. -/
theorem insertCell_refines (hL : QueueLayout heads cells) (h : QueuesRefine heads cells m t)
    (hq : q ∈ heads) (hc : c ∈ cells) (hout : c ∉ t.inserted) (addTail : ℕ) :
    Simulates heads cells (queueStep m (.insertCell q c addTail))
      (t.step (.insertCell q c addTail)) := by
  have hfresh := h.fresh hL hq hc hout
  have hnodup : (c :: t.cells q).Nodup :=
    List.nodup_cons.mpr ⟨fun hin => hfresh (List.mem_cons_of_mem q hin), h.inv.nodup q hq⟩
  have hlen : (t.cells q).length + 1 < 65536 :=
    hL.length_lt hnodup (List.forall_mem_cons.mpr ⟨hc, fun _ hx => h.mem_cells hq hx⟩)
  obtain ⟨hlists, hsame⟩ := nstInsertCell_spec (h.lists q hq) (h.nodup hL hq) hfresh hlen addTail
  refine ⟨rfl, h.put hL hq hc hout hlists hsame ?_⟩
  split
  · exact List.perm_append_singleton c (t.cells q)
  · exact .rfl

/-- `GetCell` takes the first of the list. -/
theorem getCell_refines (hL : QueueLayout heads cells) (h : QueuesRefine heads cells m t)
    (hq : q ∈ heads) :
    Simulates heads cells (queueStep m (.getCell q)) (t.step (.getCell q)) := by
  have hzero : 0 ∉ t.cells q := fun h0 => h.zero hL hq (List.mem_cons_of_mem q h0)
  obtain ⟨hlists, hret, hlinks, hsame⟩ :=
    nstGetCell_spec (h.lists q hq) (h.nodup hL hq) hzero (h.length_lt hL hq)
  change Simulates heads cells (nstGetCell m q) _
  cases hcells : t.cells q with
  | nil =>
    rw [CellQueues.step_getCell_nil hcells]
    rw [hcells] at hlists hret
    refine ⟨hret, h.inv, fun q' hq' => ?_, fun d hd => ?_⟩
    · by_cases hne : q' = q
      · subst hne
        rw [hcells]
        exact hlists
      · exact (h.lists q' hq').congr fun x hx => hsame x (h.apart hL hq hq' hne hx)
    · have hnode := hsame d (h.dequeued_fresh hL hq hd)
      rw [hnode.pnext, hnode.pprev]
      exact h.unlinked d hd
  | cons c l =>
    rw [CellQueues.step_getCell_cons hcells]
    have hl : (c :: l).Perm (t.cells q) := by rw [hcells]
    rw [hcells] at hlists hret hlinks
    exact ⟨hret, h.take hL hq hlists (hlinks c rfl) hsame hl⟩

/-- `RemoveCell` takes the cell out, or finds that it has been taken. -/
theorem removeCell_refines (hL : QueueLayout heads cells) (h : QueuesRefine heads cells m t)
    (hq : q ∈ heads) (hc : c ∈ t.cells q ∨ c ∈ t.dequeued) :
    Simulates heads cells (queueStep m (.removeCell q c)) (t.step (.removeCell q c)) := by
  refine ⟨rfl, ?_⟩
  change QueuesRefine heads cells (nstRemoveCell m q c) (if c ∈ t.cells q then _ else _)
  split
  · rename_i hin
    obtain ⟨A, B, hA, hcells, herase⟩ := List.exists_erase_eq hin
    have hlists := h.lists q hq
    have hnodup := h.nodup hL hq
    have hzero := h.zero hL hq
    have hlen := h.length_lt hL hq
    rw [hcells] at hlists hnodup hzero hlen
    obtain ⟨hnew, hlinks, hsame⟩ := nstRemoveCell_spec hlists hnodup hzero hlen
    rw [← herase] at hnew
    rw [← hcells] at hsame
    exact h.take hL hq hnew hlinks hsame (List.perm_cons_erase hin).symm
  · rename_i hin
    -- The links of a cell that was taken out are null.
    rw [nstRemoveCell_unlinked (h.unlinked c (hc.resolve_left hin)).1]
    exact h

/-- `InsertCellQue` moves a whole queue to either end of another. -/
theorem insertCellQue_refines (hL : QueueLayout heads cells) (h : QueuesRefine heads cells m t)
    (hq : q ∈ heads) (hsrc : src ∈ heads) (hne : q ≠ src) (addTail : ℕ) :
    Simulates heads cells (queueStep m (.insertCellQue q src addTail))
      (t.step (.insertCellQue q src addTail)) := by
  have hdisj : (q :: t.cells q).Disjoint (src :: t.cells src) := fun x hx hx' =>
    h.apart hL hsrc hq hne hx hx'
  have hnodup : (q :: t.cells q ++ src :: t.cells src).Nodup :=
    List.nodup_append'.mpr ⟨h.nodup hL hq, h.nodup hL hsrc, hdisj⟩
  have hcells : (t.cells q ++ t.cells src).Nodup := List.nodup_append'.mpr
    ⟨h.inv.nodup q hq, h.inv.nodup src hsrc, h.inv.disjoint q hq src hsrc hne⟩
  have hfits : (t.cells q).length + (t.cells src).length < 65536 := by
    rw [← List.length_append]
    apply hL.length_lt hcells
    intro x hx
    exact (List.mem_append.mp hx).elim (h.mem_cells hq) (h.mem_cells hsrc)
  obtain ⟨hlists, hempty, hsame⟩ :=
    nstInsertCellQue_spec (h.lists q hq) (h.lists src hsrc) hnodup hfits addTail
  refine ⟨rfl, h.move hL hq hsrc hne hlists hempty hsame ?_⟩
  split
  · exact .rfl
  · exact List.perm_append_comm

/-- **One call**: the same result, and the memory holds the new lists. -/
theorem queueStep_refines (hL : QueueLayout heads cells) {op : QueueOp}
    (hop : Allowed heads cells t op) (h : QueuesRefine heads cells m t) :
    Simulates heads cells (queueStep m op) (t.step op) := by
  cases op with
  | insertCell q c addTail => exact insertCell_refines hL h hop.1 hop.2.1 hop.2.2 addTail
  | freeCell q c =>
    -- `NST_FreeCell` is `NST_InsertCell` at the tail.
    have hinsert := insertCell_refines hL h hop.1 hop.2.1 hop.2.2 nstTrue
    have hcode : nstInsertCell m q c nstTrue = nstFreeCell m q c := if_pos rfl
    rw [queueStep, hcode, CellQueues.step, if_pos rfl] at hinsert
    exact hinsert
  | getCell q => exact getCell_refines hL h hop
  | peekCell q => exact ⟨(h.lists q hop).peek (h.nodup hL hop), h⟩
  | removeCell q c => exact removeCell_refines hL h hop.1 hop.2
  | insertCellQue q src addTail => exact insertCellQue_refines hL h hop.1 hop.2.1 hop.2.2 addTail

/-! ### Runs -/

/-- The queues at `heads`, initialised one after the other. -/
def initQues (heads : List ℕ) (m : CellMem) : CellMem := heads.foldl nstInitQue m

/-- Initialisation changes the heads only, and makes each an empty queue. -/
theorem initQues_spec (heads : List ℕ) : ∀ m, (∀ q ∈ heads, Lists (initQues heads m) q []) ∧
    ∀ x ∉ heads, SameNode m (initQues heads m) x := by
  induction heads with
  | nil => exact fun m => ⟨fun q hq => absurd hq List.not_mem_nil, fun _ _ => ⟨rfl, rfl, rfl⟩⟩
  | cons a heads ih =>
    intro m
    obtain ⟨hhead, hsame⟩ := nstInitQue_spec m a
    obtain ⟨hlists, hrest⟩ := ih (nstInitQue m a)
    constructor
    · intro q hq
      by_cases hmem : q ∈ heads
      · exact hlists q hmem
      · obtain rfl := (List.mem_cons.mp hq).resolve_right hmem
        refine hhead.congr fun x hx => hrest x ?_
        rw [List.mem_singleton.mp hx]
        exact hmem
    · intro x hx
      rw [List.mem_cons, not_or] at hx
      have hfirst := hsame x hx.1
      have hothers := hrest x hx.2
      exact ⟨hothers.pnext.trans hfirst.pnext, hothers.pprev.trans hfirst.pprev,
        hothers.count.trans hfirst.count⟩

/-- The queue at `q` in memory, as a caller sees it. -/
structure IsQueue (m : CellMem) (q : ℕ) (l : List ℕ) : Prop where
  /-- The forward links list the cells in order and lead back to the head. -/
  forward : List.iterate m.pnext (m.pnext q) (l.length + 1) = l ++ [q]
  /-- The backward links are their inverse. -/
  backward : ∀ x ∈ q :: l, m.pprev (m.pnext x) = x ∧ m.pnext (m.pprev x) = x
  count : m.count q = l.length

/-- The links of a queue list its cells in both directions. -/
theorem Lists.isQueue (h : Lists m q l) : IsQueue m q l where
  forward := h.links.iterate
  backward _ hx := ⟨(h.links.inverse hx).1.2, (h.links.inverse hx).2.2⟩
  count := h.count

/-- **The cell queues refine lists**: after any sequence of allowed calls on any number of queues
    the calls have returned what the lists say, each queue is in memory the list of its cells, and
    no cell is lost, there twice or in two queues. -/
theorem cell_queues_refine_lists (hL : QueueLayout heads cells) (m : CellMem) {ops : List QueueOp}
    (hops : Throughout CellQueues.step (Allowed heads cells) .empty ops) :
    (trace queueStep (initQues heads m) ops).2 = (trace CellQueues.step .empty ops).2 ∧
    (∀ q ∈ heads, IsQueue (trace queueStep (initQues heads m) ops).1 q
      ((trace CellQueues.step .empty ops).1.cells q)) ∧
    (trace CellQueues.step .empty ops).1.Inv heads cells := by
  have hinit : QueuesRefine heads cells (initQues heads m) .empty :=
    ⟨.empty heads cells, (initQues_spec heads m).1, fun c hc => absurd hc (Finset.notMem_empty c)⟩
  have hstep : ∀ m t op, Allowed heads cells t op → QueuesRefine heads cells m t →
      Simulates heads cells (queueStep m op) (t.step op) :=
    fun m t op hop h => queueStep_refines hL hop h
  obtain ⟨hret, hrefines⟩ := trace_refines_throughout hstep ops _ _ hops hinit
  exact ⟨hret, fun q hq => (hrefines.lists q hq).isQueue, hrefines.inv⟩

/-- Two queues: cells go in at both ends, one queue is put behind the other, and a cell is removed
    that was taken out before. -/
theorem cell_queues_refine_lists_two :
    (trace queueStep (initQues [100, 200] ⟨id, id, id⟩)
      [.insertCell 100 1 0, .insertCell 100 2 0, .freeCell 200 3, .insertCellQue 100 200 1,
        .getCell 100, .removeCell 100 2, .peekCell 200]).2 = [0, 0, 0, 0, 2, 0, 0] := by
  have hL : QueueLayout [100, 200] {1, 2, 3} := ⟨by decide, by decide, by decide, by decide⟩
  exact (cell_queues_refine_lists hL ⟨id, id, id⟩ (by decide)).1.trans (by decide)

end SerialNet
