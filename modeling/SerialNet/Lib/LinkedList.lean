import Mathlib.Data.List.Basic

namespace SerialNet

/-!
# Linked lists that end at NULL

`next` and `prev` are the link fields of the nodes, NULL is `none`.  `Chain next p l` says that the
pointer `p` leads through the nodes `l` to NULL, `Back prev q l` that the back links of `l` lead
from each node to the one before it and from the first to `q`.  A doubly linked list is both.

The edits are stated on the link fields: `Chain.cons` and `Back.cons` put a node in front,
`Chain.erase` and `Back.erase` take one out by letting every link to it skip it.
-/

variable {α : Type*} {next next' prev prev' : α → Option α}

/-- The pointer leads through the nodes `l` to NULL. -/
def Chain (next : α → Option α) : Option α → List α → Prop
  | p, [] => p = none
  | p, a :: l => p = some a ∧ Chain next (next a) l

/-- The back links of the nodes `l`; the first leads to `q`. -/
def Back (prev : α → Option α) : Option α → List α → Prop
  | _, [] => True
  | q, a :: l => prev a = q ∧ Back prev (some a) l

instance instDecidableChain [DecidableEq α] : ∀ (p : Option α) (l : List α), Decidable (Chain next p l)
  | p, [] => inferInstanceAs (Decidable (p = none))
  | p, a :: l =>
    have := instDecidableChain (next a) l
    inferInstanceAs (Decidable (p = some a ∧ Chain next (next a) l))

namespace Chain

theorem head?_eq {p : Option α} {l : List α} (h : Chain next p l) : l.head? = p := by
  cases l with
  | nil => exact h.symm
  | cons a l => exact h.1.symm

/-- The pointer and the links determine the nodes. -/
theorem unique : ∀ {p : Option α} {l l' : List α}, Chain next p l → Chain next p l' → l = l'
  | _, [], [], _, _ => rfl
  | _, [], _ :: _, h, h' => by cases h.symm.trans h'.1
  | _, _ :: _, [], h, h' => by cases h.1.symm.trans h'
  | _, a :: l, b :: l', h, h' => by
    obtain rfl := Option.some.inj (h.1.symm.trans h'.1)
    rw [unique h.2 h'.2]

/-- A chain depends on the links of its nodes. -/
theorem congr : ∀ {p : Option α} {l : List α}, Chain next p l → (∀ a ∈ l, next' a = next a) →
    Chain next' p l
  | _, [], h, _ => h
  | _, a :: l, h, hn => by
    refine ⟨h.1, ?_⟩
    rw [hn a List.mem_cons_self]
    exact h.2.congr fun b hb => hn b (List.mem_cons_of_mem _ hb)

/-- What is left of a chain behind some of its nodes. -/
theorem suffix : ∀ {p : Option α} {l₁ l₂ : List α}, Chain next p (l₁ ++ l₂) →
    Chain next l₂.head? l₂
  | p, [], l₂, h => by
    rw [List.nil_append] at h
    rw [h.head?_eq]
    exact h
  | _, _ :: _, _, h => suffix h.2

/-- The node behind one of the nodes is not the first. -/
theorem next_mem_tail {a b : α} : ∀ {p : Option α} {l : List α}, Chain next p l → b ∈ l →
    next b = some a → a ∈ l.tail
  | _, c :: l, h, hb, hba => by
    rcases List.mem_cons.mp hb with rfl | hb
    · exact List.mem_of_mem_head? (h.2.head?_eq.trans hba)
    · exact List.mem_of_mem_tail (h.2.next_mem_tail hb hba)

/-- No node is behind itself. -/
theorem next_ne_self {a : α} : ∀ {p : Option α} {l : List α}, Chain next p l → l.Nodup → a ∈ l →
    next a ≠ some a
  | _, b :: l, h, hnodup, ha => by
    obtain ⟨hb, hnodup⟩ := List.nodup_cons.mp hnodup
    rcases List.mem_cons.mp ha with rfl | ha
    · exact fun hself => hb (List.mem_of_mem_head? (h.2.head?_eq.trans hself))
    · exact h.2.next_ne_self hnodup ha

/-- Put a node in front. -/
theorem cons {a : α} {p : Option α} {l : List α} (h : Chain next p l) (ha : a ∉ l)
    (hself : next' a = p) (hn : ∀ b, b ≠ a → next' b = next b) : Chain next' (some a) (a :: l) := by
  refine ⟨rfl, ?_⟩
  rw [hself]
  exact h.congr fun b hb => hn b fun hba => ha (hba ▸ hb)

variable [DecidableEq α]

/-- Take a node out: links to it skip it. -/
theorem erase {a : α} : ∀ {p p' : Option α} {l : List α}, Chain next p l → l.Nodup →
    (p = some a → p' = next a) → (p ≠ some a → p' = p) →
    (∀ b ∈ l, b ≠ a → next b = some a → next' b = next a) →
    (∀ b ∈ l, b ≠ a → next b ≠ some a → next' b = next b) → Chain next' p' (l.erase a)
  | _, p', [], h, _, _, hne, _, _ => by
    obtain rfl : _ = none := h
    exact hne (by simp)
  | _, p', b :: l, h, hnodup, heq, hne, hskip, hkeep => by
    obtain ⟨rfl, hl⟩ := h
    obtain ⟨hb, hnodup⟩ := List.nodup_cons.mp hnodup
    by_cases hba : b = a
    · subst hba
      rw [List.erase_cons_head, heq rfl]
      apply hl.congr
      intro c hc
      apply hkeep c (List.mem_cons_of_mem _ hc) (fun hcb => hb (hcb ▸ hc))
      -- Nothing behind the node points to it.
      exact fun hs => hb (List.mem_of_mem_tail (hl.next_mem_tail hc hs))
    · rw [List.erase_cons_tail (by simpa using hba), hne (by simpa using hba)]
      exact ⟨rfl, hl.erase hnodup (hskip b List.mem_cons_self hba) (hkeep b List.mem_cons_self hba)
        (fun c hc => hskip c (List.mem_cons_of_mem _ hc))
        fun c hc => hkeep c (List.mem_cons_of_mem _ hc)⟩

end Chain

namespace Back

theorem congr : ∀ {q : Option α} {l : List α}, Back prev q l → (∀ a ∈ l, prev' a = prev a) →
    Back prev' q l
  | _, [], _, _ => trivial
  | _, a :: _, h, hp =>
    ⟨(hp a List.mem_cons_self).trans h.1,
      h.2.congr fun b hb => hp b (List.mem_cons_of_mem _ hb)⟩

/-- Put a node in front: the one that was first points back to it. -/
theorem cons {a : α} {l : List α} (h : Back prev none l) (hnodup : l.Nodup)
    (hself : prev' a = none) (hhead : ∀ b ∈ l.head?, prev' b = some a)
    (hp : ∀ b ∈ l, b ∉ l.head? → prev' b = prev b) : Back prev' none (a :: l) := by
  refine ⟨hself, ?_⟩
  cases l with
  | nil => trivial
  | cons b l =>
    refine ⟨hhead b rfl, h.2.congr fun c hc => hp c (List.mem_cons_of_mem _ hc) ?_⟩
    rintro ⟨⟩
    exact (List.nodup_cons.mp hnodup).1 hc

/-- A node whose back link leads to `a` is behind it. -/
theorem exists_before {a b : α} : ∀ {q : Option α} {l : List α}, Back prev q l → b ∈ l →
    prev b = some a → q = some a ∨ a ∈ l
  | _, c :: l, h, hb, hba => by
    rcases List.mem_cons.mp hb with rfl | hb
    · exact .inl (h.1.symm.trans hba)
    · rcases h.2.exists_before hb hba with hca | ha
      · obtain rfl := Option.some.inj hca
        exact .inr List.mem_cons_self
      · exact .inr (List.mem_cons_of_mem _ ha)

/-- Every node behind a first one has one before it. -/
theorem exists_prev {b : α} : ∀ {q : α} {l : List α}, Back prev (some q) l → b ∈ l →
    ∃ a, prev b = some a
  | q, c :: l, h, hb => by
    rcases List.mem_cons.mp hb with rfl | hb
    · exact ⟨q, h.1⟩
    · exact h.2.exists_prev hb

variable [DecidableEq α]

/-- Take a node out: back links to it skip it. -/
theorem erase {a : α} : ∀ {q q' : Option α} {l : List α}, Back prev q l → l.Nodup →
    (q = some a → q' = prev a) → (q ≠ some a → q' = q) →
    (∀ b ∈ l, b ≠ a → prev b = some a → prev' b = prev a) →
    (∀ b ∈ l, b ≠ a → prev b ≠ some a → prev' b = prev b) → Back prev' q' (l.erase a)
  | _, _, [], _, _, _, _, _, _ => trivial
  | q, q', b :: l, h, hnodup, heq, hne, hskip, hkeep => by
    obtain ⟨hb, hnodup⟩ := List.nodup_cons.mp hnodup
    have htail : ∀ r r', Back prev r l → (r = some a → r' = prev a) → (r ≠ some a → r' = r) →
        Back prev' r' (l.erase a) := fun r r' hr he hn =>
      hr.erase hnodup he hn (fun c hc => hskip c (List.mem_cons_of_mem _ hc))
        fun c hc => hkeep c (List.mem_cons_of_mem _ hc)
    by_cases hba : b = a
    · subst hba
      rw [List.erase_cons_head]
      have hq' : q' = prev b := by
        by_cases hq : q = some b
        · exact heq hq
        · exact (hne hq).trans h.1.symm
      have hl := htail (some b) q' h.2 (fun _ => hq') (fun hn => absurd rfl hn)
      rwa [List.erase_of_not_mem hb] at hl
    · rw [List.erase_cons_tail (by simpa using hba)]
      refine ⟨?_, htail (some b) (some b) h.2 (fun hn => absurd (Option.some.inj hn) hba)
        fun _ => rfl⟩
      rw [← h.1] at heq hne
      by_cases hq : prev b = some a
      · exact (hskip b List.mem_cons_self hba hq).trans (heq hq).symm
      · exact (hkeep b List.mem_cons_self hba hq).trans (hne hq).symm

end Back

/-- In a doubly linked list the links are inverse to each other. -/
theorem next_eq_iff_prev_eq {a b : α} : ∀ {p q : Option α} {l : List α}, Chain next p l →
    Back prev q l → l.Nodup → a ∈ l → b ∈ l → q ≠ some b →
    (next b = some a ↔ prev a = some b)
  | _, q, c :: l, h, hback, hnodup, ha, hb, hq => by
    obtain ⟨hc, hnodup'⟩ := List.nodup_cons.mp hnodup
    rcases List.mem_cons.mp ha with rfl | hal
    · -- Nothing in the list is before the first node.
      exact iff_of_false (fun hba => hc (h.next_mem_tail hb hba))
        fun hab => hq (hback.1.symm.trans hab)
    · rcases List.mem_cons.mp hb with rfl | hbl
      · cases l with
        | nil => cases hal
        | cons d l =>
          obtain ⟨hd, -⟩ := List.nodup_cons.mp hnodup'
          rw [h.2.1, Option.some.injEq]
          refine ⟨fun hda => hda ▸ hback.2.1, fun hab => ?_⟩
          rcases List.mem_cons.mp hal with rfl | hal
          · rfl
          · rcases hback.2.2.exists_before hal hab with hdb | hb
            · exact absurd (Option.some.inj hdb ▸ List.mem_cons_self) hc
            · exact absurd (List.mem_cons_of_mem _ hb) hc
      · exact next_eq_iff_prev_eq h.2 hback.2 hnodup' hal hbl fun hcb =>
          hc (Option.some.inj hcb ▸ hbl)

end SerialNet
