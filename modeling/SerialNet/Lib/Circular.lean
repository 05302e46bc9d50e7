import Mathlib.Data.List.Cycle

namespace SerialNet

/-!
# Circular doubly linked lists

`next` and `prev` are the link fields of the nodes, `l` lists the nodes in order from any of
them.  `Circular` asks for the links between neighbours in both directions, including the
link from the last node back to the first; being a property of the cycle it does not depend on
where the list starts (`circular_append_comm`), so each edit is proved at the end of the
list.

* `Circular.splice`, `Circular.cut` — linking a chain in between two neighbours, and out;
* `Circular.insert`, `Circular.remove` — the same for one node;
* `Circular.inverse` — `next` and `prev` are inverse on the nodes;
* `Circular.rotate`, `Circular.exists_iterate` — from every node the `next` links lead through
  all the others and back.
-/

variable {α : Type*} {next prev next' prev' : α → α}

/-- `a` and `b` are linked in both directions. -/
def Linked (next prev : α → α) (a b : α) : Prop := next a = b ∧ prev b = a

/-- The nodes `l` form a circular doubly linked list. -/
def Circular (next prev : α → α) (l : List α) : Prop :=
  Cycle.Chain (Linked next prev) (l : Cycle α)

theorem circular_cons {a : α} {l : List α} :
    Circular next prev (a :: l) ↔ (a :: (l ++ [a])).IsChain (Linked next prev) :=
  Cycle.chain_coe_cons _ _ _

/-- The list may start at any node. -/
theorem circular_append_comm (l₁ l₂ : List α) :
    Circular next prev (l₁ ++ l₂) ↔ Circular next prev (l₂ ++ l₁) := by
  unfold Circular
  rw [Cycle.coe_eq_coe.mpr List.isRotated_append]

/-- The first node is linked to the second. -/
theorem Circular.linked_front {l : List α} {a b : α} (h : Circular next prev (a :: b :: l)) :
    Linked next prev a b := by
  rw [circular_cons] at h
  exact (List.isChain_cons_cons.mp h).1

/-- Neighbours are linked. -/
theorem Circular.linked {l₁ l₂ : List α} {a b : α}
    (h : Circular next prev (l₁ ++ a :: b :: l₂)) : Linked next prev a b := by
  rw [circular_append_comm] at h
  exact h.linked_front

/-- The last node is linked to the first. -/
theorem Circular.closes {a b : α} {l : List α} (h : Circular next prev (a :: l ++ [b])) :
    Linked next prev b a := by
  rw [circular_append_comm] at h
  exact h.linked_front

/-- A chain of links depends on `next` of all but its last node and `prev` of all but its
    first. -/
theorem isChain_linked_congr : ∀ {l : List α}, (∀ x ∈ l.dropLast, next' x = next x) →
    (∀ y ∈ l.tail, prev' y = prev y) → l.IsChain (Linked next prev) →
    l.IsChain (Linked next' prev')
  | [], _, _, _ => .nil
  | [a], _, _, _ => .singleton a
  | a :: b :: l, hn, hp, h => by
    rw [List.isChain_cons_cons] at h ⊢
    rw [List.dropLast_cons_cons] at hn
    exact ⟨⟨(hn a List.mem_cons_self).trans h.1.1, (hp b List.mem_cons_self).trans h.1.2⟩,
      isChain_linked_congr (fun x hx => hn x (List.mem_cons_of_mem _ hx))
        (fun y hy => hp y (List.mem_cons_of_mem _ hy)) h.2⟩

/-- A circle is a chain whose last node is linked to its first. -/
theorem circular_iff_isChain {l : List α} : Circular next prev l ↔
    l.IsChain (Linked next prev) ∧ ∀ a ∈ l.getLast?, ∀ b ∈ l.head?, Linked next prev a b := by
  cases l with
  | nil => exact iff_of_true trivial ⟨.nil, fun a ha => by cases ha⟩
  | cons b l =>
    rw [circular_cons, ← List.cons_append, List.isChain_append]
    exact and_congr_right fun _ => and_iff_right (.singleton b)

/-- The node before the first one is the last. -/
theorem Circular.getLast?_eq {a : α} {l : List α} (h : Circular next prev (a :: l)) :
    (a :: l).getLast? = some (prev a) := by
  rw [List.getLast?_eq_some_getLast (List.cons_ne_nil a l)]
  have hlast := List.getLast?_eq_some_getLast (List.cons_ne_nil a l)
  have hclose := (circular_iff_isChain.mp h).2 _ hlast a rfl
  exact congrArg some hclose.2.symm

/-- The node behind the last one is the first. -/
theorem Circular.head?_eq {a : α} {l : List α} (h : Circular next prev (l ++ [a])) :
    (l ++ [a]).head? = some (next a) := by
  cases l with
  | nil => exact congrArg some ((circular_iff_isChain.mp h).2 a rfl a rfl).1.symm
  | cons b l => exact congrArg some (h.closes).1.symm

/-- In a list without repetitions the last node is none of those before it. -/
theorem ne_of_mem_dropLast {l : List α} {a x : α} (h : l.Nodup) (ha : l.getLast? = some a)
    (hx : x ∈ l.dropLast) : x ≠ a := by
  rw [← List.dropLast_append_getLast? a ha] at h
  rintro rfl
  exact (List.disjoint_of_nodup_append h) hx (List.mem_singleton_self x)

/-- In a list without repetitions the first node is none of those behind it. -/
theorem ne_of_mem_tail {l : List α} {a x : α} (h : l.Nodup) (ha : l.head? = some a)
    (hx : x ∈ l.tail) : x ≠ a := by
  rw [List.head?_eq_some_iff] at ha
  obtain ⟨l, rfl⟩ := ha
  rintro rfl
  exact (List.nodup_cons.mp h).1 hx

/-- **Link a chain in** between the last node `a` and the first node `b` of a circle. -/
theorem Circular.splice {l r : List α} {a b c d : α} (h : Circular next prev l)
    (hr : r.IsChain (Linked next prev)) (hnodup : (l ++ r).Nodup) (hb : l.head? = some b)
    (ha : l.getLast? = some a) (hc : r.head? = some c) (hd : r.getLast? = some d)
    (hac : Linked next' prev' a c) (hdb : Linked next' prev' d b)
    (hn : ∀ x ∈ l ++ r, x ≠ a → x ≠ d → next' x = next x)
    (hp : ∀ x ∈ l ++ r, x ≠ b → x ≠ c → prev' x = prev x) :
    Circular next' prev' (l ++ r) := by
  obtain ⟨hl, hr', hdisj⟩ := List.nodup_append'.mp hnodup
  have hmem : ∀ x ∈ l, ∀ y ∈ r, x ≠ y := fun x hx y hy hxy => hdisj hx (hxy ▸ hy)
  -- The two pieces keep their links, and two new ones close the circle.
  rw [circular_iff_isChain, List.isChain_append, ha, hc]
  refine ⟨⟨isChain_linked_congr (fun x hx => ?_) (fun y hy => ?_) (circular_iff_isChain.mp h).1,
    isChain_linked_congr (fun x hx => ?_) (fun y hy => ?_) hr, ?_⟩, ?_⟩
  · have hx' := List.mem_of_mem_dropLast hx
    exact hn x (List.mem_append_left _ hx') (ne_of_mem_dropLast hl ha hx)
      (hmem x hx' d (List.mem_of_getLast? hd))
  · have hy' := List.mem_of_mem_tail hy
    exact hp y (List.mem_append_left _ hy') (ne_of_mem_tail hl hb hy)
      (hmem y hy' c (List.mem_of_mem_head? hc))
  · have hx' := List.mem_of_mem_dropLast hx
    exact hn x (List.mem_append_right _ hx')
      (hmem a (List.mem_of_getLast? ha) x hx').symm (ne_of_mem_dropLast hr' hd hx)
  · have hy' := List.mem_of_mem_tail hy
    exact hp y (List.mem_append_right _ hy')
      (hmem b (List.mem_of_mem_head? hb) y hy').symm (ne_of_mem_tail hr' hc hy)
  · rintro x ⟨⟩ y ⟨⟩
    exact hac
  · rw [List.getLast?_append_of_ne_nil _ (by rintro rfl; cases hd), hd,
      List.head?_append_of_ne_nil _ (by rintro rfl; cases hb), hb]
    rintro x ⟨⟩ y ⟨⟩
    exact hdb

/-- **Link a chain out**: of a circle `l ++ r` the part `l` stays, and its last node `a` is
    linked to its first node `b`. -/
theorem Circular.cut {l r : List α} {a b : α} (h : Circular next prev (l ++ r))
    (hnodup : l.Nodup) (hb : l.head? = some b) (ha : l.getLast? = some a)
    (hab : Linked next' prev' a b) (hn : ∀ x ∈ l, x ≠ a → next' x = next x)
    (hp : ∀ x ∈ l, x ≠ b → prev' x = prev x) : Circular next' prev' l := by
  have hchain := (circular_iff_isChain.mp h).1.left_of_append
  rw [circular_iff_isChain, ha, hb]
  refine ⟨isChain_linked_congr (fun x hx => ?_) (fun y hy => ?_) hchain, ?_⟩
  · exact hn x (List.mem_of_mem_dropLast hx) (ne_of_mem_dropLast hnodup ha hx)
  · exact hp y (List.mem_of_mem_tail hy) (ne_of_mem_tail hnodup hb hy)
  · rintro x ⟨⟩ y ⟨⟩
    exact hab

/-- Only the links of the nodes matter. -/
theorem Circular.congr {l : List α} (h : Circular next prev l)
    (hn : ∀ a ∈ l, next' a = next a) (hp : ∀ a ∈ l, prev' a = prev a) :
    Circular next' prev' l := by
  rw [circular_iff_isChain] at h ⊢
  refine ⟨isChain_linked_congr (fun x hx => hn x (List.mem_of_mem_dropLast hx))
    (fun y hy => hp y (List.mem_of_mem_tail hy)) h.1, fun a ha b hb => ?_⟩
  obtain ⟨hab, hba⟩ := h.2 a ha b hb
  exact ⟨(hn a (List.mem_of_getLast? ha)).trans hab, (hp b (List.mem_of_mem_head? hb)).trans hba⟩

/-- Link `q` in between `a` and `b`. -/
theorem Circular.insert {l₁ l₂ : List α} {a q b : α}
    (h : Circular next prev (l₁ ++ a :: b :: l₂)) (hnodup : (l₁ ++ a :: b :: l₂).Nodup)
    (hq : q ∉ l₁ ++ a :: b :: l₂)
    (haq : Linked next' prev' a q) (hqb : Linked next' prev' q b)
    (hn : ∀ x ∈ l₁ ++ a :: b :: l₂, x ≠ a → next' x = next x)
    (hp : ∀ x ∈ l₁ ++ a :: b :: l₂, x ≠ b → prev' x = prev x) :
    Circular next' prev' (l₁ ++ a :: q :: b :: l₂) := by
  -- The circle is read from `b` on, so that `q` comes behind its last node `a`.
  have hperm : (b :: (l₂ ++ l₁ ++ [a])).Perm (l₁ ++ a :: b :: l₂) := by
    have := @List.perm_append_comm _ (b :: l₂) (l₁ ++ [a])
    simpa using this
  have hmem : ∀ x ∈ b :: (l₂ ++ l₁ ++ [a]) ++ [q], x ∈ l₁ ++ a :: b :: l₂ ∨ x = q := by
    intro x hx
    rcases List.mem_append.mp hx with hx | hx
    · exact .inl (hperm.mem_iff.mp hx)
    · exact .inr (List.mem_singleton.mp hx)
  have hcircle : Circular next prev (b :: (l₂ ++ l₁ ++ [a])) := by
    have := (circular_append_comm (l₁ ++ [a]) (b :: l₂)).mp (by simpa using h)
    simpa using this
  have hnew : Circular next' prev' (b :: (l₂ ++ l₁ ++ [a]) ++ [q]) := by
    refine hcircle.splice (.singleton q) ?_ rfl ?_ rfl rfl haq hqb ?_ ?_
    · refine List.nodup_append'.mpr ⟨hperm.nodup_iff.mpr hnodup, List.nodup_singleton q, ?_⟩
      rw [List.disjoint_singleton, hperm.mem_iff]
      exact hq
    · simp [List.getLast?_cons]
    · intro x hx hxa hxq
      exact hn x ((hmem x hx).resolve_right hxq) hxa
    · intro x hx hxb hxq
      exact hp x ((hmem x hx).resolve_right hxq) hxb
  have := (circular_append_comm (b :: l₂) (l₁ ++ [a] ++ [q])).mp (by simpa using hnew)
  simpa using this

/-- Link `q` out from between `a` and `b`. -/
theorem Circular.remove {l₁ l₂ : List α} {a q b : α}
    (h : Circular next prev (l₁ ++ a :: q :: b :: l₂)) (hnodup : (l₁ ++ a :: q :: b :: l₂).Nodup)
    (hab : Linked next' prev' a b)
    (hn : ∀ x ∈ l₁ ++ a :: q :: b :: l₂, x ≠ a → next' x = next x)
    (hp : ∀ x ∈ l₁ ++ a :: q :: b :: l₂, x ≠ b → prev' x = prev x) :
    Circular next' prev' (l₁ ++ a :: b :: l₂) := by
  have hcircle : Circular next prev (b :: (l₂ ++ l₁ ++ [a]) ++ [q]) := by
    have := (circular_append_comm (l₁ ++ [a] ++ [q]) (b :: l₂)).mp (by simpa using h)
    simpa using this
  have hperm : (b :: (l₂ ++ l₁ ++ [a]) ++ [q]).Perm (l₁ ++ a :: q :: b :: l₂) := by
    have := @List.perm_append_comm _ (b :: l₂) (l₁ ++ [a] ++ [q])
    simpa using this
  have hmem : ∀ x ∈ b :: (l₂ ++ l₁ ++ [a]), x ∈ l₁ ++ a :: q :: b :: l₂ := fun x hx =>
    hperm.mem_iff.mp (List.mem_append_left _ hx)
  have hnew : Circular next' prev' (b :: (l₂ ++ l₁ ++ [a])) := by
    refine hcircle.cut (List.Nodup.of_append_left (hperm.nodup_iff.mpr hnodup)) rfl ?_ hab
      (fun x hx => hn x (hmem x hx)) (fun x hx => hp x (hmem x hx))
    simp [List.getLast?_cons]
  have := (circular_append_comm (b :: l₂) (l₁ ++ [a])).mp (by simpa using hnew)
  simpa using this

/-- The list started at one of its nodes. -/
theorem Circular.rotate {l : List α} {a : α} (h : Circular next prev l) (ha : a ∈ l) :
    ∃ z, Circular next prev (a :: z) ∧ (a :: z).Perm l := by
  obtain ⟨x, y, rfl⟩ := List.append_of_mem ha
  exact ⟨y ++ x, (circular_append_comm x (a :: y)).mp h, @List.perm_append_comm _ (a :: y) x⟩

/-- **`next` and `prev` are inverse** on the nodes. -/
theorem Circular.inverse {l : List α} {a : α} (h : Circular next prev l) (ha : a ∈ l) :
    (next a ∈ l ∧ prev (next a) = a) ∧ prev a ∈ l ∧ next (prev a) = a := by
  obtain ⟨z, hz, hperm⟩ := h.rotate ha
  have hmem : ∀ x, x ∈ l ↔ x ∈ a :: z := fun x => hperm.mem_iff.symm
  constructor
  -- A single node is linked to itself; else the successor is the second node.
  · cases z with
    | nil =>
      obtain ⟨hn, hp⟩ := List.isChain_pair.mp (circular_cons.mp hz)
      exact ⟨by rw [hn]; exact ha, by rw [hn]; exact hp⟩
    | cons b z =>
      obtain ⟨hn, hp⟩ := hz.linked_front
      exact ⟨by rw [hn, hmem]; simp, by rw [hn]; exact hp⟩
  -- The predecessor of the first node is the last one.
  · rcases List.eq_nil_or_concat z with rfl | ⟨z, b, rfl⟩
    · obtain ⟨hn, hp⟩ := List.isChain_pair.mp (circular_cons.mp hz)
      exact ⟨by rw [hp]; exact ha, by rw [hp]; exact hn⟩
    · rw [List.concat_eq_append] at hz hmem
      obtain ⟨hn, hp⟩ := Circular.closes hz
      exact ⟨by rw [hp, hmem]; simp, by rw [hp]; exact hn⟩

/-- Every node of a chain is reached from its first by `next`. -/
theorem exists_iterate_of_isChain : ∀ {l : List α} {a b : α},
    (a :: l).IsChain (Linked next prev) → b ∈ a :: l → ∃ k ≤ l.length, next^[k] a = b
  | [], a, b, _, hb => ⟨0, le_refl _, (List.mem_singleton.mp hb).symm⟩
  | c :: l, a, b, h, hb => by
    rcases List.mem_cons.mp hb with rfl | hb
    · exact ⟨0, Nat.zero_le _, rfl⟩
    · obtain ⟨hac, hl⟩ := List.isChain_cons_cons.mp h
      obtain ⟨k, hk, hkb⟩ := exists_iterate_of_isChain hl hb
      refine ⟨k + 1, Nat.succ_le_succ hk, ?_⟩
      rw [Function.iterate_succ_apply, hac.1, hkb]

/-- Every node of a circular list is reached from its first by `next`. -/
theorem Circular.exists_iterate {l : List α} {a b : α} (h : Circular next prev (a :: l))
    (hb : b ∈ a :: l) : ∃ k ≤ l.length, next^[k] a = b := by
  rw [circular_cons, ← List.cons_append] at h
  exact exists_iterate_of_isChain h.left_of_append hb

/-- Along a chain the nodes follow from its first by `next`. -/
theorem iterate_of_isChain : ∀ {l : List α} {a : α}, (a :: l).IsChain (Linked next prev) →
    List.iterate next (next a) l.length = l
  | [], _, _ => rfl
  | b :: l, a, h => by
    obtain ⟨hab, hl⟩ := List.isChain_cons_cons.mp h
    rw [List.length_cons, List.iterate, hab.1, iterate_of_isChain hl]

/-- **The `next` links list the nodes** and lead back to where they started. -/
theorem Circular.iterate {l : List α} {a : α} (h : Circular next prev (a :: l)) :
    List.iterate next (next a) (l.length + 1) = l ++ [a] := by
  have hchain := iterate_of_isChain (circular_cons.mp h)
  rwa [List.length_append, List.length_singleton] at hchain

end SerialNet
