import SerialNet.Heap.Pool

namespace SerialNet

/-!
# `OS_FreeMem`

The call marks the block free and merges it with its previous and its next neighbour, if they
are free.  After the mark only the block itself may have free neighbours; `FreedAt` describes
this state, `mergeWithPrevious_spec` removes the possible pair before the block and
`mergeWithNext_spec` the one after it.
-/

variable {pool start trailer : ℕ} {m : Memory} {pcb : DmPcb} {X Y : List ℕ}
  {hd : ℕ → Header} {h a b q : ℕ}

/-- The two orders in which the code links `a` and `b`. -/
theorem absorbHeaders_eq_next_first (hba : b ≠ a) :
    Function.update (Function.update hd a { hd a with next := b }) b
        { Function.update hd a { hd a with next := b } b with prev := a }
      = absorbHeaders hd a b := by
  funext x
  by_cases hxb : x = b
  · subst hxb
    simp [absorbHeaders, hba]
  · by_cases hxa : x = a
    · subst hxa
      simp [absorbHeaders, hxb]
    · simp [absorbHeaders, hxa, hxb]

theorem absorbHeaders_eq_prev_first (hba : b ≠ a) :
    Function.update (Function.update hd b { hd b with prev := a }) a
        { Function.update hd b { hd b with prev := a } a with next := b }
      = absorbHeaders hd a b := by
  funext x
  by_cases hxa : x = a
  · subst hxa
    simp [absorbHeaders, Ne.symm hba]
  · by_cases hxb : x = b
    · subst hxb
      simp [absorbHeaders, hba]
    · simp [absorbHeaders, hxa, hxb]

/-- The effect of taking the header `q` out in memory. -/
theorem PoolShape.absorb {m' : Memory}
    (hP : PoolShape pool start trailer m pcb (X ++ a :: q :: b :: Y))
    (ha : (header m a).free = true) (hq : (header m q).free = true)
    (hm : Holds m {p | p ∈ X ++ a :: q :: b :: Y} m' (absorbHeaders (header m) a b)) :
    PoolShape pool start trailer m'
        { pcb with dmAvailable := u32 (pcb.dmAvailable + dmOverhead), dmSearchPtr := a }
        (X ++ a :: b :: Y) ∧
      Leaves trailer m (X ++ a :: q :: b :: Y) m' (X ++ a :: b :: Y) := by
  have hsub : ∀ x ∈ X ++ a :: b :: Y, x ∈ X ++ a :: q :: b :: Y := fun x hx => by
    simp only [List.mem_append, List.mem_cons] at hx ⊢
    tauto
  have hblocks := hP.blocks.absorb.of_eq fun x hx => hm.header x (hsub x hx)
  have havail : freeSum (header m') (X ++ a :: b :: Y) = pcb.dmAvailable + 16 := by
    rw [freeSum_of_eq fun x hx => hm.header x (hsub x hx), hP.blocks.freeSum_absorb ha hq,
      hP.available]
  refine ⟨⟨hblocks, ?_, by simp, hP.list, hP.size, hP.bound, hP.min⟩, fun p hp _ hused => ?_,
    hm.frame, hsub⟩
  · have hle := hblocks.freeSum_le
    have hbound := hP.bound
    rw [havail] at hle ⊢
    unfold dmOverhead
    exact u32_natCast (n := pcb.dmAvailable + 16) (by omega)
  · have hpa : p ≠ a := (ne_of_free ha hused).symm
    have hpq : p ≠ q := (ne_of_free hq hused).symm
    rw [hm.header p hp, absorbHeaders_free, absorbHeaders_next_of_ne hpa]
    refine ⟨?_, hused, rfl⟩
    simp only [List.mem_append, List.mem_cons] at hp ⊢
    tauto

/-- The merge with a free previous neighbour `p`. -/
theorem mergeWithPrevious_free {p : ℕ}
    (hP : PoolShape pool start trailer m pcb (X ++ p :: h :: q :: Y))
    (hp : (header m p).free = true) :
    ∃ m', mergeWithPrevious m pcb h
        = (m', { pcb with
            dmAvailable := u32 (pcb.dmAvailable + dmOverhead)
            dmSearchPtr := p }, p) ∧
      Holds m {x | x ∈ X ++ p :: h :: q :: Y} m' (absorbHeaders (header m) p q) := by
  have hapart := hP.blocks.apart
  have hpS : p ∈ {x | x ∈ X ++ p :: h :: q :: Y} := by simp
  have hhS : h ∈ {x | x ∈ X ++ p :: h :: q :: Y} := by simp
  have hqS : q ∈ {x | x ∈ X ++ p :: h :: q :: Y} := by simp
  have hph := hP.blocks.lt_next
  have hhq := BlockList.lt_next (X := X ++ [p]) (by simpa using hP.blocks)
  have hprev : dmPreviousMemory m h = p := hP.blocks.linked.2
  have hnext : dmNextMemory m h = q :=
    (BlockList.linked (X := X ++ [p]) (by simpa using hP.blocks)).1
  have hfree : dmMemoryFree m p = true := hp
  have h1 := (Holds.refl m _).setNext hapart hpS (x := q) (by have := hP.lt hqS; omega)
  have hnext1 : dmNextMemory (setNextMemory m p q) h = q := by
    rw [h1.next hhS, Function.update_of_ne (by omega)]
    exact hnext
  have hprev1 : dmPreviousMemory (setNextMemory m p q) h = p := by
    rw [h1.prev hhS, Function.update_of_ne (by omega)]
    exact hprev
  have h2 := h1.setPrevious hapart hqS (x := p) (by have := hP.lt hpS; omega)
  rw [absorbHeaders_eq_next_first (by omega)] at h2
  have hprev2 : dmPreviousMemory (setPreviousMemory (setNextMemory m p q) q p) h = p := by
    rw [h2.prev hhS, absorbHeaders_prev_of_ne (by omega)]
    exact hprev
  refine ⟨_, ?_, h2⟩
  simp only [mergeWithPrevious, hprev, hfree, if_true, hnext, hnext1, hprev1, hprev2]

/-- The merge with a free next neighbour `q`. -/
theorem mergeWithNext_free {r : ℕ}
    (hP : PoolShape pool start trailer m pcb (X ++ h :: q :: r :: Y))
    (hq : (header m q).free = true) :
    ∃ m', mergeWithNext m pcb h
        = (m', { pcb with dmAvailable := u32 (pcb.dmAvailable + dmOverhead), dmSearchPtr := h }) ∧
      Holds m {x | x ∈ X ++ h :: q :: r :: Y} m' (absorbHeaders (header m) h r) := by
  have hapart := hP.blocks.apart
  have hhS : h ∈ {x | x ∈ X ++ h :: q :: r :: Y} := by simp
  have hqS : q ∈ {x | x ∈ X ++ h :: q :: r :: Y} := by simp
  have hrS : r ∈ {x | x ∈ X ++ h :: q :: r :: Y} := by simp
  have hhq := hP.blocks.lt_next
  have hqr := BlockList.lt_next (X := X ++ [h]) (by simpa using hP.blocks)
  have hnext : dmNextMemory m h = q := hP.blocks.linked.1
  have hnextq : dmNextMemory m q = r :=
    (BlockList.linked (X := X ++ [h]) (by simpa using hP.blocks)).1
  have hfree : dmMemoryFree m q = true := hq
  have h1 := (Holds.refl m _).setPrevious hapart hrS (x := h) (by have := hP.lt hhS; omega)
  have hnextq1 : dmNextMemory (setPreviousMemory m r h) q = r := by
    rw [h1.next hqS, Function.update_of_ne (by omega)]
    exact hnextq
  have h2 := h1.setNext hapart hhS (x := r) (by have := hP.lt hrS; omega)
  rw [absorbHeaders_eq_prev_first (by omega)] at h2
  refine ⟨_, ?_, h2⟩
  simp only [mergeWithNext, hnext, hfree, if_true, hnextq, hnextq1]

/-- The block at `h` is free, and no other two neighbours are both free. -/
structure FreedAt (m : Memory) (X : List ℕ) (h : ℕ) (Y : List ℕ) : Prop where
  free : (header m h).free = true
  before : Coalesced (header m) X
  after : Coalesced (header m) Y

/-- After `mergeWithPrevious` the resulting block has no free neighbour before it. -/
theorem mergeWithPrevious_spec (hP : PoolShape pool start trailer m pcb (X ++ h :: q :: Y))
    (hF : FreedAt m X h (q :: Y)) :
    ∃ X', let r := mergeWithPrevious m pcb h
      PoolShape pool start trailer r.1 r.2.1 (X' ++ r.2.2 :: q :: Y) ∧
        FreedAt r.1 (X' ++ [r.2.2]) r.2.2 (q :: Y) ∧
        Leaves trailer m (X ++ h :: q :: Y) r.1 (X' ++ r.2.2 :: q :: Y) ∧
        (∀ x ∈ X ++ h :: q :: Y, (header r.1 x).free = (header m x).free) ∧
        r.2.1.dmMinAllocation = pcb.dmMinAllocation := by
  rcases List.eq_nil_or_concat X with rfl | ⟨X', p, rfl⟩
  · -- the first block: before it in the cycle is the trailer
    have hstart : h = start := by simpa using hP.blocks.first
    have hprev : dmPreviousMemory m h = trailer :=
      hstart ▸ hP.blocks.prev_start (hstart ▸ hP.blocks.ne_trailer)
    have hused : dmMemoryFree m trailer = false := hP.blocks.trailer_used
    have hr : mergeWithPrevious m pcb h = (m, pcb, h) := by
      simp [mergeWithPrevious, hprev, hused]
    rw [hr]
    exact ⟨[], hP, ⟨hF.free, List.IsChain.singleton _, hF.after⟩, Leaves.refl _ _ _,
      fun _ _ => rfl, rfl⟩
  · rw [List.concat_eq_append, List.append_assoc, List.singleton_append] at hP ⊢
    have hbefore := hF.before
    rw [List.concat_eq_append] at hbefore
    by_cases hp : (header m p).free = true
    · obtain ⟨m', hr, hm⟩ := mergeWithPrevious_free hP hp
      obtain ⟨hP', hleaves⟩ := hP.absorb hp hF.free hm
      have hsame : ∀ x ∈ X' ++ p :: h :: q :: Y, (header m' x).free = (header m x).free :=
        fun x hx => by rw [hm.header x hx, absorbHeaders_free]
      rw [hr]
      refine ⟨X', hP', ⟨?_, ?_, ?_⟩, hleaves, hsame, rfl⟩
      · rw [hsame p (by simp)]
        exact hp
      · exact hbefore.mono fun x hx hfree => by rwa [hsame x (by simp at hx ⊢; tauto)] at hfree
      · exact hF.after.mono fun x hx hfree => by rwa [hsame x (by simp at hx ⊢; tauto)] at hfree
    · have hprev : dmPreviousMemory m h = p := hP.blocks.linked.2
      have hused : dmMemoryFree m p = false := Bool.eq_false_of_not_eq_true hp
      have hr : mergeWithPrevious m pcb h = (m, pcb, h) := by
        simp [mergeWithPrevious, hprev, hused]
      rw [hr]
      refine ⟨X' ++ [p], ?_, ⟨hF.free, ?_, hF.after⟩, ?_, fun _ _ => rfl, rfl⟩
      · simpa using hP
      · rw [List.append_assoc, List.singleton_append]
        exact List.isChain_append_cons_cons.mpr
          ⟨hbefore, fun hboth => hp hboth.1, List.IsChain.singleton _⟩
      · simpa using Leaves.refl trailer m _

/-- After `mergeWithNext` no two neighbours are both free. -/
theorem mergeWithNext_spec (hP : PoolShape pool start trailer m pcb (X ++ h :: q :: Y))
    (hF : FreedAt m (X ++ [h]) h (q :: Y)) :
    ∃ L', let r := mergeWithNext m pcb h
      PoolShape pool start trailer r.1 r.2 L' ∧ Coalesced (header r.1) L' ∧
        Leaves trailer m (X ++ h :: q :: Y) r.1 L' ∧
        (∀ x ∈ X ++ h :: q :: Y, (header r.1 x).free = (header m x).free) ∧
        r.2.dmMinAllocation = pcb.dmMinAllocation := by
  have hnext : dmNextMemory m h = q := hP.blocks.linked.1
  by_cases hq : (header m q).free = true
  · -- a free next neighbour is not the trailer, so there is a block after it
    have hne : q ≠ trailer := hP.blocks.ne_trailer_of_free hq
    cases Y with
    | nil =>
      have hlast := hP.blocks.last
      rw [← List.singleton_append, ← List.append_assoc, List.getLast?_concat,
        Option.some.injEq] at hlast
      exact absurd hlast hne
    | cons r Y =>
      obtain ⟨m', hr, hm⟩ := mergeWithNext_free hP hq
      obtain ⟨hP', hleaves⟩ := hP.absorb hF.free hq hm
      have hsame : ∀ x ∈ X ++ h :: q :: r :: Y, (header m' x).free = (header m x).free :=
        fun x hx => by rw [hm.header x hx, absorbHeaders_free]
      have hafter := List.isChain_cons_cons.mp hF.after
      have hchain : Coalesced (header m) (X ++ h :: r :: Y) :=
        List.isChain_append_cons_cons.mpr
          ⟨hF.before, fun hboth => hafter.1 ⟨hq, hboth.2⟩, hafter.2⟩
      rw [hr]
      exact ⟨X ++ h :: r :: Y, hP', hchain.mono fun x hx hfree => by
        rwa [hsame x (hleaves.subset x hx)] at hfree, hleaves, hsame, rfl⟩
  · have hused : dmMemoryFree m q = false := Bool.eq_false_of_not_eq_true hq
    have hr : mergeWithNext m pcb h = (m, pcb) := by
      simp [mergeWithNext, hnext, hused]
    rw [hr]
    exact ⟨X ++ h :: q :: Y, hP, List.isChain_append_cons_cons.mpr
      ⟨hF.before, fun hboth => hq hboth.2, hF.after⟩, Leaves.refl _ _ _, fun _ _ => rfl, rfl⟩

/-- The mark: the block at `h` counts as free, and only it may have free neighbours. -/
theorem PoolShape.markFree {m' : Memory} {L : List ℕ} {avail : ℕ}
    (hP : PoolShape pool start trailer m pcb L) (hh : h ∈ L) (hne : h ≠ trailer)
    (hused : (header m h).free = false)
    (hm : Holds m {p | p ∈ L} m' (markHeader (header m) h true))
    (havail : avail = pcb.dmAvailable + ((header m h).next - h - 16)) :
    PoolShape pool start trailer m' { pcb with dmAvailable := avail } L := by
  have hblocks := (hP.blocks.mark (b := true) hne).of_eq hm.header
  refine ⟨hblocks, ?_, hP.search, hP.list, hP.size, hP.bound, hP.min⟩
  have hsum := freeSum_mark (header m) (b := true) hP.blocks.nodup hh
  have hbytes : freeBytes (header m) h = 0 := by simp [freeBytes, hused]
  have hbytes' : freeBytes (markHeader (header m) h true) h = (header m h).next - h - 16 := by
    simp [freeBytes]
  show avail = freeSum (header m') L
  rw [freeSum_of_eq hm.header, havail, hP.available]
  omega

/-- **`OS_FreeMem` of a block in use**: the pool keeps its shape, no two neighbours are both
    free, the other blocks in use and all bytes outside the headers stay, and no other block comes
    into use. -/
theorem osFreeMem_spec {s : Heap} {L : List ℕ}
    (hP : PoolShape pool start trailer s.mem (s.pcb pool) L) (hC : Coalesced (header s.mem) L)
    (hh : h ∈ L) (hne : h ≠ trailer) (hused : (header s.mem h).free = false) :
    ∃ L', let s' := (osFreeMem s (h + dmOverhead)).1
      PoolShape pool start trailer s'.mem (s'.pcb pool) L' ∧ Coalesced (header s'.mem) L' ∧
        (s'.pcb pool).dmMinAllocation = (s.pcb pool).dmMinAllocation ∧
        (∀ p ∈ L, p ≠ trailer → p ≠ h → (header s.mem p).free = false →
          p ∈ L' ∧ (header s'.mem p).free = false ∧
            (header s'.mem p).next = (header s.mem p).next) ∧
        (∀ p ∈ L', (header s'.mem p).free = false →
          p ∈ L ∧ p ≠ h ∧ (header s.mem p).free = false) ∧
        ∀ x, (∀ p ∈ L, OutsideHeader p x) → s'.mem x = s.mem x := by
  obtain ⟨X, q, Y, rfl⟩ := hP.blocks.exists_next hh hne
  have hm := (Holds.refl s.mem {p | p ∈ X ++ h :: q :: Y}).setFree hP.blocks.apart hh true
  set m₀ := setMemoryFree s.mem h true with hm₀
  -- the fields the code reads first
  have hheader : u32 (((h + dmOverhead : ℕ) : ℤ) - dmOverhead) = h := by
    have := hP.lt hh
    unfold u32 dmOverhead
    omega
  have hpool : dmMemoryPool s.mem h = pool := hP.blocks.pools h hh
  have hnext : dmNextMemory m₀ h = (header s.mem h).next := by
    rw [hm.next hh, Function.update_self]
  -- the mark
  have hsum := freeSum_mark (header s.mem) (b := true) hP.blocks.nodup hh
  have hbytes : freeBytes (header s.mem) h = 0 := by simp [freeBytes, hused]
  have hbytes' : freeBytes (markHeader (header s.mem) h true) h
      = (header s.mem h).next - h - 16 := by simp [freeBytes]
  have hle := (hP.blocks.mark (b := true) hne).freeSum_le
  have hlt := (hP.blocks.next_mem hh hne).2
  have hbound := hP.bound
  have havail : u32 ((s.pcb pool).dmAvailable + ((dmNextMemory m₀ h : ℤ) - h) - dmOverhead)
      = (s.pcb pool).dmAvailable + ((header s.mem h).next - h - 16) := by
    rw [hnext, hP.available]
    unfold u32 dmOverhead
    omega
  have hP₀ := hP.markFree hh hne hused hm havail
  have hother : ∀ p ∈ X ++ h :: q :: Y, p ≠ h → header m₀ p = header s.mem p := fun p hp hph => by
    rw [hm.header p hp, Function.update_of_ne hph]
  have hmono : ∀ l : List ℕ, (∀ p ∈ l, p ∈ X ++ h :: q :: Y ∧ p ≠ h) →
      Coalesced (header s.mem) l → Coalesced (header m₀) l := fun l hl hchain =>
    hchain.mono fun p hp hfree => by rwa [hother p (hl p hp).1 (hl p hp).2] at hfree
  have hnot := (List.nodup_middle.mp hP.blocks.nodup).notMem
  have hF₀ : FreedAt m₀ X h (q :: Y) := by
    refine ⟨?_, hmono X (fun p hp => ⟨by simp [hp], ?_⟩) hC.left_of_append,
      hmono (q :: Y) (fun p hp => ⟨by simp_all, ?_⟩) hC.right_of_append.tail⟩
    · rw [hm.header h hh]
      simp
    · rintro rfl
      exact hnot (List.mem_append_left _ hp)
    · rintro rfl
      exact hnot (List.mem_append_right _ hp)
  -- the two merges
  obtain ⟨X', hP₁, hF₁, hleaves₁, hsame₁, hmin₁⟩ := mergeWithPrevious_spec hP₀ hF₀
  obtain ⟨L', hP₂, hC₂, hleaves₂, hsame₂, hmin₂⟩ := mergeWithNext_spec hP₁ hF₁
  have hleaves := hleaves₁.trans hleaves₂
  refine ⟨L', ?_⟩
  simp only [osFreeMem, hheader, hpool, ← hm₀, Function.update_self]
  refine ⟨hP₂, hC₂, hmin₂.trans hmin₁, fun p hp hpt hph hpu => ?_, fun p hp hpu => ?_,
    fun x hx => ?_⟩
  · have := hleaves.used p hp hpt (by rwa [hother p hp hph])
    rwa [hother p hp hph] at this
  · -- the merges change no mark, and that of the block is set
    have hp₁ := hleaves₂.subset p hp
    have hp₀ := hleaves₁.subset p hp₁
    rw [hsame₂ p hp₁, hsame₁ p hp₀] at hpu
    have hph : p ≠ h := (ne_of_free hF₀.free hpu).symm
    rw [hother p hp₀ hph] at hpu
    exact ⟨hp₀, hph, hpu⟩
  · rw [hleaves.frame x hx, hm.frame x hx]

end SerialNet
