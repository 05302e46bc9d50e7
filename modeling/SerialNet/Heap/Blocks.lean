import SerialNet.Lib.Circular
import SerialNet.Heap.Header

namespace SerialNet

/-!
# The block list of a pool

`BlockList` is the shape of the headers `L` of a pool, stated on the map of headers: in address
order from the first header to the trailer, linked circularly in both directions.  A block
reaches from its header to the next one, so the blocks tile the pool.  The edits of the
allocator keep it:

* `BlockList.congr` — marking a block;
* `BlockList.split` — a new header inside a block;
* `BlockList.absorb` — a header removed, its block merged into the one before it.

`freeSum` adds up the free payloads, and `Coalesced` says that no two neighbours are both
free.
-/

/-- The headers `L` of a pool in address order, the trailer last. -/
structure BlockList (hd : ℕ → Header) (pool start trailer : ℕ) (L : List ℕ) : Prop where
  first : L.head? = some start
  last : L.getLast? = some trailer
  order : L.Pairwise fun p q => p + 16 ≤ q
  aligned : ∀ p ∈ L, p % 4 = 0
  links : Circular (fun p => (hd p).next) (fun p => (hd p).prev) L
  trailer_used : (hd trailer).free = false
  pools : ∀ p ∈ L, (hd p).pool = pool

/-- No two neighbouring blocks are both free. -/
def Coalesced (hd : ℕ → Header) (L : List ℕ) : Prop :=
  L.IsChain fun p q => ¬ ((hd p).free = true ∧ (hd q).free = true)

/-- The payload of a free block, 0 for a block in use. -/
def freeBytes (hd : ℕ → Header) (p : ℕ) : ℕ :=
  if (hd p).free then (hd p).next - p - 16 else 0

/-- The sum of the free payloads. -/
def freeSum (hd : ℕ → Header) (L : List ℕ) : ℕ := (L.map (freeBytes hd)).sum

variable {hd hd' : ℕ → Header} {pool start trailer : ℕ} {L X Y : List ℕ} {a b p q r : ℕ}

/-! ### Neighbours -/

/-- No block is in the list twice. -/
theorem BlockList.nodup (h : BlockList hd pool start trailer L) : L.Nodup :=
  h.order.imp fun hpq => by omega

/-- The trailer is in the list. -/
theorem BlockList.trailer_mem (h : BlockList hd pool start trailer L) : trailer ∈ L :=
  List.mem_of_getLast? h.last

/-- Different headers do not overlap. -/
theorem BlockList.apart (h : BlockList hd pool start trailer L) : Apart {p | p ∈ L} := by
  intro p hp q hq hpq
  have hsymm : Std.Symm fun p q : ℕ => p + 16 ≤ q ∨ q + 16 ≤ p := ⟨fun _ _ => Or.symm⟩
  have hpair : L.Pairwise fun p q => p + 16 ≤ q ∨ q + 16 ≤ p := h.order.imp Or.inl
  exact hpair.forall hp hq hpq

/-- A block that is free is none of those in use. -/
theorem ne_of_free (hp : (hd p).free = true) (hq : (hd q).free = false) : p ≠ q := by
  rintro rfl
  rw [hp] at hq
  cases hq

/-- A free block is not the trailer. -/
theorem BlockList.ne_trailer_of_free (h : BlockList hd pool start trailer L)
    (hp : (hd p).free = true) : p ≠ trailer := ne_of_free hp h.trailer_used

/-- Every header but the trailer has a next one in address order. -/
theorem BlockList.exists_next (h : BlockList hd pool start trailer L) (hp : p ∈ L)
    (hne : p ≠ trailer) : ∃ X q Y, L = X ++ p :: q :: Y := by
  obtain ⟨X, Y, rfl⟩ := List.append_of_mem hp
  cases Y with
  | nil =>
    have hlast := h.last
    rw [List.getLast?_concat, Option.some.injEq] at hlast
    exact absurd hlast hne
  | cons q Y => exact ⟨X, q, Y, rfl⟩

/-- Neighbours point at each other. -/
theorem BlockList.linked (h : BlockList hd pool start trailer (X ++ p :: q :: Y)) :
    (hd p).next = q ∧ (hd q).prev = p := h.links.linked

/-- There is room for a header between neighbours. -/
theorem BlockList.lt_next (h : BlockList hd pool start trailer (X ++ p :: q :: Y)) :
    p + 16 ≤ q := by
  have := (List.pairwise_append.mp h.order).2.1
  exact List.rel_of_pairwise_cons this List.mem_cons_self

/-- Before its trailer a header links to a later one. -/
theorem BlockList.next_mem (h : BlockList hd pool start trailer L) (hp : p ∈ L)
    (hne : p ≠ trailer) : (hd p).next ∈ L ∧ p + 16 ≤ (hd p).next := by
  obtain ⟨X, q, Y, rfl⟩ := h.exists_next hp hne
  rw [h.linked.1]
  exact ⟨by simp, h.lt_next⟩

/-- No header lies inside a block. -/
theorem BlockList.le_or_next_le (h : BlockList hd pool start trailer L) (hp : p ∈ L)
    (hne : p ≠ trailer) (hq : q ∈ L) : q ≤ p ∨ (hd p).next ≤ q := by
  obtain ⟨X, r, Y, rfl⟩ := h.exists_next hp hne
  rw [h.linked.1]
  have horder := h.order
  simp only [List.pairwise_append, List.pairwise_cons, List.mem_cons] at horder
  obtain ⟨-, ⟨-, hr, -⟩, hX⟩ := horder
  rcases List.mem_append.mp hq with hq | hq
  · have := hX q hq p (.inl rfl)
    omega
  · rcases List.mem_cons.mp hq with rfl | hq
    · exact .inl (le_refl _)
    · rcases List.mem_cons.mp hq with rfl | hq
      · exact .inr (le_refl _)
      · have := hr q hq
        omega

/-- The trailer is the highest header. -/
theorem BlockList.le_trailer (h : BlockList hd pool start trailer L) (hp : p ∈ L) :
    p = trailer ∨ p + 16 ≤ trailer := by
  obtain ⟨X, rfl⟩ := List.getLast?_eq_some_iff.mp h.last
  rcases List.mem_append.mp hp with hp | hp
  · exact .inr ((List.pairwise_append.mp h.order).2.2 p hp trailer (by simp))
  · exact .inl (List.mem_singleton.mp hp)

/-- The first header is the lowest. -/
theorem BlockList.start_le (h : BlockList hd pool start trailer L) (hp : p ∈ L) : start ≤ p := by
  obtain ⟨X, rfl⟩ := List.head?_eq_some_iff.mp h.first
  rcases List.mem_cons.mp hp with rfl | hp
  · exact le_refl _
  · have := (List.pairwise_cons.mp h.order).1 p hp
    omega

/-- A block that ends before `q` is linked before it. -/
theorem BlockList.prev_start (h : BlockList hd pool start trailer L) (hne : start ≠ trailer) :
    (hd start).prev = trailer := by
  obtain ⟨X, rfl⟩ := List.head?_eq_some_iff.mp h.first
  rcases List.eq_nil_or_concat X with rfl | ⟨X, t, rfl⟩
  · have hlast := h.last
    rw [List.getLast?_singleton, Option.some.injEq] at hlast
    exact absurd hlast hne
  · have hlast := h.last
    have hlinks := h.links
    rw [List.concat_eq_append, ← List.cons_append] at hlast hlinks
    rw [List.getLast?_concat, Option.some.injEq] at hlast
    rw [← hlast]
    exact hlinks.closes.2

/-! ### The edits -/

/-- The list does not depend on the marks of its blocks. -/
theorem BlockList.congr (h : BlockList hd pool start trailer L)
    (hnext : ∀ x ∈ L, (hd' x).next = (hd x).next) (hprev : ∀ x ∈ L, (hd' x).prev = (hd x).prev)
    (hpool : ∀ x ∈ L, (hd' x).pool = (hd x).pool) (htrailer : (hd' trailer).free = false) :
    BlockList hd' pool start trailer L :=
  ⟨h.first, h.last, h.order, h.aligned, h.links.congr hnext hprev, htrailer,
    fun x hx => (hpool x hx).trans (h.pools x hx)⟩

/-- The headers after the block at `p` is marked. -/
def markHeader (hd : ℕ → Header) (p : ℕ) (free : Bool) : ℕ → Header :=
  Function.update hd p { hd p with free := free }

/-- The marked block has its mark. -/
@[simp] theorem markHeader_self (b : Bool) : (markHeader hd p b p).free = b := by
  simp [markHeader]

/-- The other headers are as they were. -/
theorem markHeader_of_ne {x : ℕ} (b : Bool) (h : x ≠ p) : markHeader hd p b x = hd x := by
  simp [markHeader, h]

@[simp] theorem markHeader_next (b : Bool) (x : ℕ) : (markHeader hd p b x).next = (hd x).next := by
  by_cases h : x = p <;> simp [markHeader, h]

@[simp] theorem markHeader_prev (b : Bool) (x : ℕ) : (markHeader hd p b x).prev = (hd x).prev := by
  by_cases h : x = p <;> simp [markHeader, h]

@[simp] theorem markHeader_pool (b : Bool) (x : ℕ) : (markHeader hd p b x).pool = (hd x).pool := by
  by_cases h : x = p <;> simp [markHeader, h]

/-- To mark a block other than the trailer keeps the list. -/
theorem BlockList.mark (h : BlockList hd pool start trailer L) {b : Bool} (hne : p ≠ trailer) :
    BlockList (markHeader hd p b) pool start trailer L :=
  h.congr (fun x _ => markHeader_next b x) (fun x _ => markHeader_prev b x)
    (fun x _ => markHeader_pool b x) (by rw [markHeader_of_ne b hne.symm]; exact h.trailer_used)

/-- The headers after a new one at `q`, of a free block, is put in between `a` and `b`. -/
def splitHeaders (hd : ℕ → Header) (pool a q b : ℕ) : ℕ → Header := fun x =>
  if x = a then { hd a with next := q }
  else if x = q then { next := b, prev := a, free := true, pool := pool }
  else if x = b then { hd b with prev := q }
  else hd x

theorem splitHeaders_free_of_ne {x : ℕ} (h : x ≠ q) :
    (splitHeaders hd pool a q b x).free = (hd x).free := by
  unfold splitHeaders
  split_ifs <;> simp_all

theorem splitHeaders_pool_of_ne {x : ℕ} (h : x ≠ q) :
    (splitHeaders hd pool a q b x).pool = (hd x).pool := by
  unfold splitHeaders
  split_ifs <;> simp_all

theorem splitHeaders_next_of_ne {x : ℕ} (ha : x ≠ a) (h : x ≠ q) :
    (splitHeaders hd pool a q b x).next = (hd x).next := by
  unfold splitHeaders
  rw [if_neg ha, if_neg h]
  split_ifs <;> simp_all

theorem splitHeaders_prev_of_ne {x : ℕ} (hb : x ≠ b) (h : x ≠ q) :
    (splitHeaders hd pool a q b x).prev = (hd x).prev := by
  unfold splitHeaders
  split_ifs <;> simp_all

/-- The new header. -/
theorem splitHeaders_new (h : q ≠ a) :
    splitHeaders hd pool a q b q = { next := b, prev := a, free := true, pool := pool } := by
  simp [splitHeaders, h]

/-- The headers after the one between `a` and `b` is taken out. -/
def absorbHeaders (hd : ℕ → Header) (a b : ℕ) : ℕ → Header := fun x =>
  if x = a then { hd a with next := b } else if x = b then { hd b with prev := a } else hd x

@[simp] theorem absorbHeaders_free (x : ℕ) : (absorbHeaders hd a b x).free = (hd x).free := by
  unfold absorbHeaders
  split
  · simp_all
  · split <;> simp_all

@[simp] theorem absorbHeaders_pool (x : ℕ) : (absorbHeaders hd a b x).pool = (hd x).pool := by
  unfold absorbHeaders
  split
  · simp_all
  · split <;> simp_all

/-- The link of the block leads past the one that is absorbed. -/
@[simp] theorem absorbHeaders_next_self : (absorbHeaders hd a b a).next = b := by
  simp [absorbHeaders]

theorem absorbHeaders_next_of_ne {x : ℕ} (h : x ≠ a) :
    (absorbHeaders hd a b x).next = (hd x).next := by
  unfold absorbHeaders
  rw [if_neg h]
  split <;> simp_all

/-- The block behind points back past it. -/
theorem absorbHeaders_prev_self (h : b ≠ a) : (absorbHeaders hd a b b).prev = a := by
  simp [absorbHeaders, h]

theorem absorbHeaders_prev_of_ne {x : ℕ} (h : x ≠ b) :
    (absorbHeaders hd a b x).prev = (hd x).prev := by
  unfold absorbHeaders
  split <;> simp_all

/-- A block with a neighbour behind it is not the trailer. -/
theorem BlockList.ne_trailer (h : BlockList hd pool start trailer (X ++ a :: b :: Y)) :
    a ≠ trailer := by
  have := h.lt_next
  have := h.le_trailer (p := b) (by simp)
  omega

/-- No header lies strictly between two neighbours. -/
theorem BlockList.between (h : BlockList hd pool start trailer (X ++ a :: b :: Y)) {x : ℕ}
    (hx : x ∈ X ++ a :: b :: Y) : x ≤ a ∨ b ≤ x := by
  have := h.le_or_next_le (p := a) (by simp) h.ne_trailer hx
  rwa [h.linked.1] at this

/-- A new header `q` inside the block at `a`. -/
theorem BlockList.split (h : BlockList hd pool start trailer (X ++ a :: b :: Y))
    (haq : a + 16 ≤ q) (hqb : q + 16 ≤ b) (hq : q % 4 = 0) :
    BlockList (splitHeaders hd pool a q b) pool start trailer (X ++ a :: q :: b :: Y) := by
  have hmem : ∀ x ∈ X ++ a :: q :: b :: Y, x = q ∨ x ∈ X ++ a :: b :: Y := fun x hx => by
    simp only [List.mem_append, List.mem_cons] at hx ⊢
    tauto
  have hne : ∀ x ∈ X ++ a :: b :: Y, x ≠ q := fun x hx => by
    have := h.between hx
    omega
  refine ⟨?_, ?_, ?_, fun x hx => ?_, ?_, ?_, fun x hx => ?_⟩
  · have hfirst := h.first
    cases X <;> exact hfirst
  · have hlast := h.last
    simpa [List.getLast?_append] using hlast
  -- the new header lies between `a` and `b`
  · have horder := h.order
    simp only [List.pairwise_append, List.pairwise_cons, List.mem_cons, forall_eq_or_imp]
      at horder ⊢
    obtain ⟨hX, ⟨⟨hab, haY⟩, hbY, hY⟩, hXaY⟩ := horder
    refine ⟨hX, ⟨⟨haq, hab, haY⟩, ⟨hqb, fun y hy => ?_⟩, hbY, hY⟩, fun x hx => ?_⟩
    · have := hbY y hy
      omega
    · obtain ⟨hxa, hxb, hxY⟩ := hXaY x hx
      exact ⟨hxa, by omega, hxb, hxY⟩
  · rcases hmem x hx with rfl | hx
    · exact hq
    · exact h.aligned x hx
  -- in the links it stands between `a` and `b` too; no other link changes
  · have hqa : q ≠ a := by omega
    have hba : b ≠ a := by omega
    have hbq : b ≠ q := by omega
    refine h.links.insert h.nodup (fun hq => hne q hq rfl) ⟨?_, ?_⟩ ⟨?_, ?_⟩
      (fun x hx hxa => ?_) (fun x hx hxb => ?_)
    · simp [splitHeaders]
    · simp [splitHeaders_new hqa]
    · simp [splitHeaders_new hqa]
    · simp [splitHeaders, hba, hbq]
    · exact splitHeaders_next_of_ne hxa (hne x hx)
    · exact splitHeaders_prev_of_ne hxb (hne x hx)
  · rw [splitHeaders_free_of_ne (hne trailer h.trailer_mem)]
    exact h.trailer_used
  · rcases hmem x hx with rfl | hx
    · rw [splitHeaders_new (by omega)]
    · rw [splitHeaders_pool_of_ne (hne x hx)]
      exact h.pools x hx

/-- The header `q` leaves the list; its block joins that at `a`. -/
theorem BlockList.absorb (h : BlockList hd pool start trailer (X ++ a :: q :: b :: Y)) :
    BlockList (absorbHeaders hd a b) pool start trailer (X ++ a :: b :: Y) := by
  have hsub : (X ++ a :: b :: Y).Sublist (X ++ a :: q :: b :: Y) :=
    List.Sublist.append (List.Sublist.refl X) ((List.sublist_cons_self q (b :: Y)).cons_cons a)
  have horder := h.order.sublist hsub
  have hba : b ≠ a := by
    have := List.rel_of_pairwise_cons (List.pairwise_append.mp horder).2.1 List.mem_cons_self
    omega
  refine ⟨?_, ?_, horder, fun x hx => h.aligned x (hsub.subset hx), ?_, ?_, fun x hx => ?_⟩
  · have hfirst := h.first
    cases X <;> exact hfirst
  · have hlast := h.last
    simpa [List.getLast?_append] using hlast
  · exact h.links.remove h.nodup ⟨absorbHeaders_next_self, absorbHeaders_prev_self hba⟩
      (fun x _ hx => absorbHeaders_next_of_ne hx) (fun x _ hx => absorbHeaders_prev_of_ne hx)
  · rw [absorbHeaders_free]
    exact h.trailer_used
  · rw [absorbHeaders_pool]
    exact h.pools x (hsub.subset hx)

/-! ### Free payloads -/

/-- The free bytes depend on the free bytes of the blocks. -/
theorem freeSum_congr (h : ∀ x ∈ L, freeBytes hd' x = freeBytes hd x) :
    freeSum hd' L = freeSum hd L := by
  unfold freeSum
  rw [List.map_congr_left h]

/-- The free bytes of two parts add up. -/
theorem freeSum_append (L₁ L₂ : List ℕ) :
    freeSum hd (L₁ ++ L₂) = freeSum hd L₁ + freeSum hd L₂ := by
  simp [freeSum]

/-- The free bytes of the first block and of the rest. -/
@[simp] theorem freeSum_cons (p : ℕ) (L : List ℕ) :
    freeSum hd (p :: L) = freeBytes hd p + freeSum hd L := by
  simp [freeSum]

/-- The free payloads fit between the first header and the trailer. -/
theorem BlockList.freeSum_le (h : BlockList hd pool start trailer L) :
    start + freeSum hd L ≤ trailer := by
  have hsuffix : ∀ (Y X : List ℕ) (p : ℕ), L = X ++ p :: Y → p + freeSum hd (p :: Y) ≤ trailer := by
    intro Y
    induction Y with
    | nil =>
      rintro X p rfl
      have hlast := h.last
      rw [List.getLast?_concat, Option.some.injEq] at hlast
      have hused := h.trailer_used
      rw [hlast, freeSum_cons, freeBytes, hused]
      exact le_refl _
    | cons q Y ih =>
      rintro X p rfl
      have hle := ih (X ++ [p]) q (by simp)
      have hlt := h.lt_next
      have hfree : freeBytes hd p ≤ q - p - 16 := by
        unfold freeBytes
        rw [h.linked.1]
        split <;> omega
      rw [freeSum_cons]
      omega
  obtain ⟨Y, rfl⟩ := List.head?_eq_some_iff.mp h.first
  exact hsuffix Y [] start rfl

/-- The sum changes where one block does. -/
theorem freeSum_update (hnodup : L.Nodup) (hp : p ∈ L)
    (h : ∀ x ∈ L, x ≠ p → freeBytes hd' x = freeBytes hd x) :
    freeSum hd' L + freeBytes hd p = freeSum hd L + freeBytes hd' p := by
  obtain ⟨X, Y, rfl⟩ := List.append_of_mem hp
  have hne : p ∉ X ++ Y := (List.nodup_middle.mp hnodup).notMem
  have hX : freeSum hd' X = freeSum hd X := freeSum_congr fun x hx =>
    h x (by simp [hx]) (fun hxp => hne (by simp [← hxp, hx]))
  have hY : freeSum hd' Y = freeSum hd Y := freeSum_congr fun x hx =>
    h x (by simp [hx]) (fun hxp => hne (by simp [← hxp, hx]))
  rw [freeSum_append, freeSum_append, freeSum_cons, freeSum_cons, hX, hY]
  omega

/-- To mark one block changes the sum by its bytes. -/
theorem freeSum_mark (hd : ℕ → Header) {b : Bool} (hnodup : L.Nodup) (hp : p ∈ L) :
    freeSum (markHeader hd p b) L + freeBytes hd p
      = freeSum hd L + freeBytes (markHeader hd p b) p :=
  freeSum_update hnodup hp fun x _ hx => by rw [freeBytes, freeBytes, markHeader_of_ne b hx]

/-- A block's free payload depends on its mark and its link forward. -/
theorem freeBytes_congr {x : ℕ} (hfree : (hd' x).free = (hd x).free)
    (hnext : (hd' x).next = (hd x).next) : freeBytes hd' x = freeBytes hd x := by
  unfold freeBytes
  rw [hfree, hnext]

/-- Taking out a free header gains its sixteen bytes. -/
theorem BlockList.freeSum_absorb (h : BlockList hd pool start trailer (X ++ a :: q :: b :: Y))
    (ha : (hd a).free = true) (hq : (hd q).free = true) :
    freeSum (absorbHeaders hd a b) (X ++ a :: b :: Y)
      = freeSum hd (X ++ a :: q :: b :: Y) + 16 := by
  have hnodup := h.nodup
  have hne : ∀ x ∈ X ++ b :: Y, x ≠ a := fun x hx hxa => by
    have hnot := (List.nodup_middle.mp hnodup).notMem
    rw [hxa] at hx
    simp only [List.mem_append, List.mem_cons] at hx hnot
    tauto
  have hsame : ∀ l : List ℕ, (∀ x ∈ l, x ∈ X ++ b :: Y) →
      freeSum (absorbHeaders hd a b) l = freeSum hd l := fun l hl =>
    freeSum_congr fun x hx =>
      freeBytes_congr (absorbHeaders_free x) (absorbHeaders_next_of_ne (hne x (hl x hx)))
  have haq := h.lt_next
  have hqb := BlockList.lt_next (X := X ++ [a]) (by simpa using h)
  have hnextq := (BlockList.linked (X := X ++ [a]) (by simpa using h)).1
  rw [freeSum_append, freeSum_append, freeSum_cons, freeSum_cons a,
    hsame X (fun x hx => by simp [hx]), hsame (b :: Y) (fun x hx => by simp_all),
    freeSum_cons q]
  have hfa : freeBytes (absorbHeaders hd a b) a = b - a - 16 := by
    simp [freeBytes, ha]
  have hfa' : freeBytes hd a = q - a - 16 := by
    simp [freeBytes, ha, h.linked.1]
  have hfq : freeBytes hd q = b - q - 16 := by
    simp [freeBytes, hq, hnextq]
  omega

/-- The new header takes sixteen bytes from the block. -/
theorem BlockList.freeSum_split (h : BlockList hd pool start trailer (X ++ a :: b :: Y))
    (haq : a + 16 ≤ q) (hqb : q + 16 ≤ b) (ha : (hd a).free = true) :
    freeSum (splitHeaders hd pool a q b) (X ++ a :: q :: b :: Y) + 16
      = freeSum hd (X ++ a :: b :: Y) := by
  have hnodup := h.nodup
  have hne : ∀ x ∈ X ++ b :: Y, x ≠ a ∧ x ≠ q := fun x hx => by
    have hbetween := h.between (x := x) (by
      simp only [List.mem_append, List.mem_cons] at hx ⊢
      tauto)
    refine ⟨fun hxa => ?_, by omega⟩
    rw [hxa] at hx
    exact (List.nodup_middle.mp hnodup).notMem hx
  have hsame : ∀ l : List ℕ, (∀ x ∈ l, x ∈ X ++ b :: Y) →
      freeSum (splitHeaders hd pool a q b) l = freeSum hd l := fun l hl =>
    freeSum_congr fun x hx =>
      freeBytes_congr (splitHeaders_free_of_ne (hne x (hl x hx)).2)
        (splitHeaders_next_of_ne (hne x (hl x hx)).1 (hne x (hl x hx)).2)
  rw [freeSum_append, freeSum_append, freeSum_cons, freeSum_cons q, freeSum_cons a,
    hsame X (fun x hx => by simp [hx]), hsame (b :: Y) (fun x hx => by simp_all)]
  have hfa : freeBytes (splitHeaders hd pool a q b) a = q - a - 16 := by
    simp [freeBytes, splitHeaders, ha]
  have hfq : freeBytes (splitHeaders hd pool a q b) q = b - q - 16 := by
    simp [freeBytes, splitHeaders_new (show q ≠ a by omega)]
  have hfa' : freeBytes hd a = b - a - 16 := by
    simp [freeBytes, ha, h.linked.1]
  omega

/-! ### Maps that agree on the list -/

/-- The list depends on the headers of its blocks only. -/
theorem BlockList.of_eq (h : BlockList hd pool start trailer L) (heq : ∀ x ∈ L, hd' x = hd x) :
    BlockList hd' pool start trailer L :=
  h.congr (fun x hx => by rw [heq x hx]) (fun x hx => by rw [heq x hx])
    (fun x hx => by rw [heq x hx]) (by rw [heq trailer h.trailer_mem]; exact h.trailer_used)

/-- The number of free bytes depends on the headers of its blocks only. -/
theorem freeSum_of_eq (heq : ∀ x ∈ L, hd' x = hd x) : freeSum hd' L = freeSum hd L :=
  freeSum_congr fun x hx => by rw [freeBytes, freeBytes, heq x hx]

/-- Blocks that are not marked free do not break `Coalesced`. -/
theorem Coalesced.mono (h : Coalesced hd L)
    (hfree : ∀ x ∈ L, (hd' x).free = true → (hd x).free = true) : Coalesced hd' L :=
  List.IsChain.imp_of_mem_imp (fun x y hx hy hxy hboth =>
    hxy ⟨hfree x hx hboth.1, hfree y hy hboth.2⟩) h

end SerialNet
