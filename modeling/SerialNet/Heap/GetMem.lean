import SerialNet.Heap.Pool

namespace SerialNet

/-!
# `OS_GetMem`

The search loop follows the `next` links once around the circular list, so it ends within as
many turns as there are headers (`getMemLoop_ends`).  The block it finds is split in memory by
`splitBlock_holds` or taken as a whole; `takeBlock_spec` is the effect on the pool.
-/

variable {pool start trailer : ℕ} {m : Memory} {pcb : DmPcb} {L X Y : List ℕ}
  {hd : ℕ → Header} {p q size : ℕ}

/-! ### The search -/

/-- The headers take sixteen bytes each. -/
theorem BlockList.length_le (h : BlockList hd pool start trailer L) :
    start + 16 * L.length ≤ trailer + 16 := by
  have hsuffix : ∀ (Y X : List ℕ) (p : ℕ), L = X ++ p :: Y → p + 16 * Y.length ≤ trailer := by
    intro Y
    induction Y with
    | nil =>
      rintro X p rfl
      have := h.le_trailer (p := p) (by simp)
      simp only [List.length_nil]
      omega
    | cons q Y ih =>
      rintro X p rfl
      have hle := ih (X ++ [p]) q (by simp)
      have hlt := h.lt_next
      simp only [List.length_cons]
      omega
  obtain ⟨Y, rfl⟩ := List.head?_eq_some_iff.mp h.first
  have := hsuffix Y [] start rfl
  simp only [List.length_cons]
  omega

/-- Along a chain of links that leads back to the search pointer the loop ends, at a block that
    is large enough, or when none is. -/
theorem getMemLoop_path (size : ℕ) {sp : ℕ} : ∀ (z : List ℕ) (a fuel : ℕ),
    (a :: (z ++ [sp])).IsChain (Linked (fun p => (header m p).next) fun p => (header m p).prev) →
    sp ∉ z → z.length < fuel →
    ∃ p freeSize, getMemLoop m sp size fuel a = some (p, freeSize) ∧
      (freeSize < size ∧ (∀ x ∈ a :: z, blockFreeSize m x < size) ∨
        p ∈ a :: z ∧ freeSize = blockFreeSize m p ∧ size ≤ freeSize)
  | _, _, 0, _, _, hfuel => absurd hfuel (Nat.not_lt_zero _)
  | z, a, fuel + 1, hchain, hsp, hfuel => by
    unfold getMemLoop
    by_cases hfit : blockFreeSize m a < size
    · simp only [hfit, if_true]
      cases z with
      | nil =>
        have hnext : dmNextMemory m a = sp := (List.isChain_pair.mp hchain).1
        exact ⟨sp, blockFreeSize m a, by simp [hnext], .inl ⟨hfit, by simpa using hfit⟩⟩
      | cons b z =>
        rw [List.cons_append, List.isChain_cons_cons] at hchain
        have hnext : dmNextMemory m a = b := hchain.1.1
        have hne : b ≠ sp := fun hb => hsp (hb ▸ List.mem_cons_self)
        obtain ⟨p, freeSize, hr, hres⟩ := getMemLoop_path size z b fuel hchain.2
          (fun h => hsp (List.mem_cons_of_mem _ h)) (by simpa using hfuel)
        refine ⟨p, freeSize, by simp [hnext, hne, hr], hres.imp (fun h => ?_) fun h => ?_⟩
        · exact ⟨h.1, List.forall_mem_cons.mpr ⟨hfit, h.2⟩⟩
        · exact ⟨List.mem_cons_of_mem _ h.1, h.2⟩
    · refine ⟨a, blockFreeSize m a, by simp [hfit], .inr ⟨List.mem_cons_self, rfl, ?_⟩⟩
      exact not_lt.mp hfit

/-- The search ends; a request of no bytes takes the block at the search pointer. -/
theorem getMemLoop_ends (hP : PoolShape pool start trailer m pcb L) (size : ℕ) :
    ∃ p freeSize,
      getMemLoop m pcb.dmSearchPtr size pcb.dmPoolSize pcb.dmSearchPtr = some (p, freeSize) ∧
      (freeSize < size ∧ (∀ x ∈ L, blockFreeSize m x < size) ∨
        p ∈ L ∧ freeSize = blockFreeSize m p ∧ size ≤ freeSize) ∧
      (size = 0 → p = pcb.dmSearchPtr) := by
  obtain ⟨z, hz, hperm⟩ := hP.blocks.links.rotate hP.search
  have hnodup := hperm.nodup_iff.mpr hP.blocks.nodup
  have hlength : z.length < pcb.dmPoolSize := by
    have hle := hP.blocks.length_le
    have hsize := hP.size
    have hlen := hperm.length_eq
    simp only [List.length_cons] at hlen
    omega
  obtain ⟨p, freeSize, hr, hres⟩ := getMemLoop_path size z pcb.dmSearchPtr pcb.dmPoolSize
    (circular_cons.mp hz) (List.nodup_cons.mp hnodup).1 hlength
  refine ⟨p, freeSize, hr, hres.imp (fun h => ⟨h.1, fun x hx => h.2 x (hperm.mem_iff.mpr hx)⟩)
    fun h => ⟨hperm.mem_iff.mp h.1, h.2⟩, ?_⟩
  rintro rfl
  cases hn : pcb.dmPoolSize with
  | zero => omega
  | succ n =>
    rw [hn, getMemLoop] at hr
    simp at hr
    exact hr.1.symm

/-- A block in use has no free bytes. -/
theorem free_of_blockFreeSize (h : 0 < blockFreeSize m p) : (header m p).free = true := by
  by_contra hused
  have hused' : dmMemoryFree m p = false := Bool.eq_false_iff.mpr hused
  rw [blockFreeSize, hused', if_neg Bool.false_ne_true] at h
  exact absurd h (lt_irrefl 0)

/-- A call of `OS_GetMem` finds nothing and changes nothing, or takes a block that is large
    enough. -/
theorem osGetMem_cases {s : Heap} (hP : PoolShape pool start trailer s.mem (s.pcb pool) L)
    (size : ℕ) :
    (osGetMem s pool size = some (s, osErrMemFull, 0) ∧ 0 < getMemSize (s.pcb pool) size ∧
      ∀ x ∈ L, blockFreeSize s.mem x < getMemSize (s.pcb pool) size) ∨
    ∃ p ∈ L, getMemSize (s.pcb pool) size ≤ blockFreeSize s.mem p ∧
      (getMemSize (s.pcb pool) size = 0 → p = (s.pcb pool).dmSearchPtr) ∧
      osGetMem s pool size =
        let r := takeBlock s pool p (blockFreeSize s.mem p) (getMemSize (s.pcb pool) size)
        some (r.1, osErrNone, r.2) := by
  obtain ⟨p, freeSize, hloop, hfound, hzero⟩ := getMemLoop_ends hP (getMemSize (s.pcb pool) size)
  rcases hfound with ⟨hsmall, hnone⟩ | ⟨hp, rfl, hfit⟩
  · have hget : osGetMem s pool size = some (s, osErrMemFull, 0) := by
      simp only [osGetMem, hloop, Option.map_some, if_neg (not_le.mpr hsmall)]
    exact .inl ⟨hget, Nat.zero_lt_of_lt hsmall, hnone⟩
  · refine .inr ⟨p, hp, hfit, hzero, ?_⟩
    simp only [osGetMem, hloop, Option.map_some, if_pos hfit]

/-! ### Taking a block -/

/-- The writes of the split are those of `splitHeaders`. -/
theorem splitHeaders_eq (hd : ℕ → Header) (pool : ℕ) {p q b : ℕ} (hp : q ≠ p) (hb : b ≠ p)
    (hbq : b ≠ q) :
    (let h1 := Function.update hd q { hd q with free := true }
     let h2 := Function.update h1 q { h1 q with pool := pool }
     let h3 := Function.update h2 q { h2 q with prev := p }
     let h4 := Function.update h3 q { h3 q with next := b }
     let h5 := Function.update h4 b { h4 b with prev := q }
     Function.update h5 p { h5 p with next := q }) = splitHeaders hd pool p q b := by
  funext x
  by_cases hxp : x = p
  · subst hxp
    simp [splitHeaders, Ne.symm hp, Ne.symm hb]
  · by_cases hxq : x = q
    · subst hxq
      simp [splitHeaders, hxp, Ne.symm hbq]
    · by_cases hxb : x = b
      · subst hxb
        simp [splitHeaders, hxp, hxq]
      · simp [splitHeaders, hxp, hxq, hxb]

/-- `splitBlock` puts a header of a free block behind `size` bytes of payload. -/
theorem splitBlock_holds (hP : PoolShape pool start trailer m pcb (X ++ p :: q :: Y))
    (hsize : size % 4 = 0) (hfit : p + size + 32 ≤ q) :
    Holds m {x | x ∈ X ++ p :: (p + size + 16) :: q :: Y} (splitBlock m pool p size)
      (splitHeaders (header m) pool p (p + size + 16) q) := by
  set new := p + size + 16 with hnew
  have haligned := hP.blocks.aligned p (by simp)
  have hapart := (hP.blocks.split (q := new) (by omega) (by omega) (by omega)).apart
  have hpS : p ∈ {x | x ∈ X ++ p :: new :: q :: Y} := by simp
  have hnewS : new ∈ {x | x ∈ X ++ p :: new :: q :: Y} := by simp
  have hqS : q ∈ {x | x ∈ X ++ p :: new :: q :: Y} := by simp
  have hqlt := hP.lt (p := q) (by simp)
  have hpool : pool < 4294967296 := by
    rw [← hP.blocks.pools p (by simp)]
    exact load32_lt m (p + 12)
  have hnewPtr : u32 ((p : ℤ) + size + dmOverhead) = new := by
    unfold u32 dmOverhead
    omega
  have hnext : (header m p).next = q := hP.blocks.linked.1
  have h1 := (Holds.refl m _).setFree hapart hnewS true
  have h2 := h1.setPool hapart hnewS hpool
  have h3 := h2.setPrevious hapart hnewS (x := p) (by omega)
  have hnext3 : dmNextMemory (setPreviousMemory (setMemoryPool (setMemoryFree m new true) new pool)
      new p) p = q := by
    rw [h3.next hpS]
    simp only [Function.update_of_ne (show p ≠ new by omega)]
    exact hnext
  have h4 := h3.setNext hapart hnewS (x := q) (by omega)
  have hnext4 := h4.next hnewS
  rw [Function.update_self] at hnext4
  have h5 := h4.setPrevious hapart hqS (x := new) (by omega)
  have h6 := h5.setNext hapart hpS (x := new) (by omega)
  have heq := splitHeaders_eq (header m) pool (p := p) (q := new) (b := q) (by omega)
    (by omega) (by omega)
  simp only at heq
  rw [heq] at h6
  simp only [splitBlock, hnewPtr, hnext3, hnext4]
  exact h6

/-- The split leaves sixteen bytes fewer to hand out. -/
theorem PoolShape.split {m' : Memory} {avail : ℕ}
    (hP : PoolShape pool start trailer m pcb (X ++ p :: q :: Y)) (hfree : (header m p).free = true)
    (hsize : size % 4 = 0) (hfit : p + size + 32 ≤ q)
    (hm : Holds m {x | x ∈ X ++ p :: (p + size + 16) :: q :: Y} m'
      (splitHeaders (header m) pool p (p + size + 16) q))
    (havail : avail + 16 = pcb.dmAvailable) :
    PoolShape pool start trailer m' { pcb with dmAvailable := avail }
      (X ++ p :: (p + size + 16) :: q :: Y) := by
  have haligned := hP.blocks.aligned p (by simp)
  have hblocks := hP.blocks.split (q := p + size + 16) (by omega) (by omega) (by omega)
  refine ⟨hblocks.of_eq hm.header, ?_, ?_, hP.list, hP.size, hP.bound, hP.min⟩
  · have hsum := hP.blocks.freeSum_split (q := p + size + 16) (by omega) (by omega) hfree
    have := hP.available
    show avail = freeSum (header m') _
    rw [freeSum_of_eq hm.header]
    omega
  · have := hP.search
    simp only [List.mem_append, List.mem_cons] at this ⊢
    tauto

/-- The block at `p` is handed out; the search pointer moves to any header. -/
theorem PoolShape.markUsed {m' : Memory} {avail sp : ℕ}
    (hP : PoolShape pool start trailer m pcb L) (hp : p ∈ L) (hfree : (header m p).free = true)
    (hm : Holds m {x | x ∈ L} m' (markHeader (header m) p false))
    (havail : avail + ((header m p).next - p - 16) = pcb.dmAvailable) (hsp : sp ∈ L) :
    PoolShape pool start trailer m' { pcb with dmAvailable := avail, dmSearchPtr := sp } L := by
  have hne : p ≠ trailer := hP.blocks.ne_trailer_of_free hfree
  refine ⟨(hP.blocks.mark (b := false) hne).of_eq hm.header, ?_, hsp, hP.list, hP.size, hP.bound,
    hP.min⟩
  have hsum := freeSum_mark (header m) (b := false) hP.blocks.nodup hp
  have hbytes : freeBytes (header m) p = (header m p).next - p - 16 := by simp [freeBytes, hfree]
  have hbytes' : freeBytes (markHeader (header m) p false) p = 0 := by simp [freeBytes]
  have := hP.available
  show avail = freeSum (header m') L
  rw [freeSum_of_eq hm.header]
  omega

/-- What `OS_GetMem` does to the pool when it hands out the block at `p` for `size` bytes: the
    blocks in use stay with their payloads, and `p` is one more. -/
structure Taken (trailer : ℕ) (m : Memory) (L : List ℕ) (m' : Memory) (L' : List ℕ) (p size : ℕ) :
    Prop where
  mem : p ∈ L'
  not_trailer : p ≠ trailer
  was_free : p ∈ L ∧ (header m p).free = true
  is_used : (header m' p).free = false
  fits : p + 16 + size ≤ (header m' p).next
  used : ∀ x ∈ L, x ≠ trailer → (header m x).free = false →
    x ∈ L' ∧ (header m' x).free = false ∧ (header m' x).next = (header m x).next
  payload : ∀ x ∈ L, x ≠ trailer → (header m x).free = false →
    ∀ y, x + 16 ≤ y → y < (header m x).next → m' y = m y

/-- Of the blocks in use only `p` is new. -/
def OnlyTakes (trailer : ℕ) (m : Memory) (L : List ℕ) (m' : Memory) (L' : List ℕ) (p : ℕ) : Prop :=
  ∀ x ∈ L', x ≠ trailer → (header m' x).free = false →
    x = p ∨ (x ∈ L ∧ (header m x).free = false)

/-- The block is taken as a whole. -/
theorem taken_whole {m' : Memory} (hP : PoolShape pool start trailer m pcb L)
    (hC : Coalesced (header m) L) (hp : p ∈ L) (hfree : (header m p).free = true)
    (hfit : p + 16 + size ≤ (header m p).next)
    (hm : Holds m {x | x ∈ L} m' (markHeader (header m) p false)) :
    Coalesced (header m') L ∧ Taken trailer m L m' L p size ∧ OnlyTakes trailer m L m' L p := by
  have hne : p ≠ trailer := hP.blocks.ne_trailer_of_free hfree
  have hother : ∀ x ∈ L, (header m x).free = false → header m' x = header m x := fun x hx hu => by
    rw [hm.header x hx, markHeader_of_ne false (ne_of_free hfree hu).symm]
  refine ⟨hC.mono fun x hx hf => ?_, ⟨hp, hne, ⟨hp, hfree⟩, ?_, ?_, fun x hx _ hu => ?_,
    fun x hx hxt hu y hlo hhi => hm.frame y (hP.blocks.payload_outside hx hxt hlo hhi)⟩,
    fun x hx _ hu => ?_⟩
  · by_contra hu
    rw [hother x hx (Bool.eq_false_of_not_eq_true hu)] at hf
    exact hu hf
  · rw [hm.header p hp, markHeader_self]
  · rw [hm.header p hp, markHeader_next]
    exact hfit
  · rw [hother x hx hu]
    exact ⟨hx, hu, rfl⟩
  · by_cases hxp : x = p
    · exact .inl hxp
    · rw [hm.header x hx, markHeader_of_ne false hxp] at hu
      exact .inr ⟨hx, hu⟩

/-- The block is split. -/
theorem taken_split {m₁ m' : Memory} (hP : PoolShape pool start trailer m pcb (X ++ p :: q :: Y))
    (hC : Coalesced (header m) (X ++ p :: q :: Y)) (hfree : (header m p).free = true)
    (hfit : p + size + 32 ≤ q)
    (hm₁ : Holds m {x | x ∈ X ++ p :: (p + size + 16) :: q :: Y} m₁
      (splitHeaders (header m) pool p (p + size + 16) q))
    (hm : Holds m₁ {x | x ∈ X ++ p :: (p + size + 16) :: q :: Y} m'
      (markHeader (header m₁) p false)) :
    Coalesced (header m') (X ++ p :: (p + size + 16) :: q :: Y) ∧
      Taken trailer m (X ++ p :: q :: Y) m' (X ++ p :: (p + size + 16) :: q :: Y) p size ∧
      OnlyTakes trailer m (X ++ p :: q :: Y) m' (X ++ p :: (p + size + 16) :: q :: Y) p := by
  set new := p + size + 16 with hnew
  have hsub : ∀ x ∈ X ++ p :: q :: Y, x ∈ X ++ p :: new :: q :: Y := fun x hx => by
    simp only [List.mem_append, List.mem_cons] at hx ⊢
    tauto
  have hbetween : ∀ x ∈ X ++ p :: q :: Y, x ≠ new := fun x hx => by
    have := hP.blocks.between hx
    omega
  have hfreeOf : ∀ x ∈ X ++ p :: q :: Y, x ≠ p → (header m' x).free = (header m x).free :=
    fun x hx hxp => by
      rw [hm.header x (hsub x hx), markHeader_of_ne _ hxp, hm₁.header x (hsub x hx),
        splitHeaders_free_of_ne (hbetween x hx)]
  have hpused : (header m' p).free = false := by rw [hm.header p (by simp), markHeader_self]
  have hq : (header m q).free = false := by
    have := (List.isChain_append_cons_cons.mp hC).2.1
    exact Bool.eq_false_of_not_eq_true fun hq => this ⟨hfree, hq⟩
  have hq' : (header m' q).free = false := by rw [hfreeOf q (by simp) (by omega), hq]
  have hmono : ∀ l : List ℕ, (∀ x ∈ l, x ∈ X ++ p :: q :: Y) → Coalesced (header m) l →
      Coalesced (header m') l := fun l hl hchain => hchain.mono fun x hx hf => by
    have hxp : x ≠ p := ne_of_free hf hpused
    rwa [hfreeOf x (hl x hx) hxp] at hf
  obtain ⟨hX, -, hY⟩ := List.isChain_append_cons_cons.mp hC
  have hnextp : (header m' p).next = new := by
    rw [hm.header p (by simp), markHeader_next, hm₁.header p (by simp)]
    simp [splitHeaders]
  refine ⟨?_, ⟨by simp, hP.blocks.ne_trailer, ⟨by simp, hfree⟩, hpused, by omega,
    fun x hx _ hu => ?_, fun x hx hxt hu y hlo hhi => ?_⟩, fun x hx _ hu => ?_⟩
  · refine List.isChain_append_cons_cons.mpr ⟨hmono _ (fun x hx => by simp at hx ⊢; tauto) hX,
      fun hboth => ?_, List.isChain_cons_cons.mpr ⟨fun hboth => ?_, hmono _ (fun x hx => ?_) hY⟩⟩
    · rw [hpused] at hboth
      exact absurd hboth.1 (by decide)
    · rw [hq'] at hboth
      exact absurd hboth.2 (by decide)
    · simp at hx ⊢
      tauto
  · have hxp : x ≠ p := (ne_of_free hfree hu).symm
    refine ⟨hsub x hx, by rw [hfreeOf x hx hxp, hu], ?_⟩
    rw [hm.header x (hsub x hx), markHeader_next, hm₁.header x (hsub x hx),
      splitHeaders_next_of_ne hxp (hbetween x hx)]
  · -- the new header lies in the block that was free
    have hout : ∀ r ∈ {r | r ∈ X ++ p :: new :: q :: Y}, OutsideHeader r y := by
      intro r hr
      have hcases : r = new ∨ r ∈ X ++ p :: q :: Y := by
        change r ∈ X ++ p :: new :: q :: Y at hr
        simp only [List.mem_append, List.mem_cons] at hr ⊢
        tauto
      rcases hcases with rfl | hr
      · have hxp : x ≠ p := (ne_of_free hfree hu).symm
        have h1 := hP.blocks.between hx
        have h2 := hP.blocks.le_or_next_le hx hxt (q := p) (by simp)
        unfold OutsideHeader
        omega
      · exact hP.blocks.payload_outside hx hxt hlo hhi r hr
    rw [hm.frame y hout, hm₁.frame y hout]
  · by_cases hxp : x = p
    · exact .inl hxp
    · -- the new header is free, and the others keep their marks
      have hxnew : x ≠ new := by
        rintro rfl
        rw [hm.header _ hx, markHeader_of_ne false hxp, hm₁.header _ hx,
          splitHeaders_new hxp] at hu
        cases hu
      have hxold : x ∈ X ++ p :: q :: Y := by
        simp only [List.mem_append, List.mem_cons] at hx ⊢
        tauto
      exact .inr ⟨hxold, by rwa [hfreeOf x hxold hxp] at hu⟩

/-- The search pointer after the block at `p` was handed out. -/
theorem searchPtr_mem {m' : Memory} {sp : ℕ} (h : BlockList (header m') pool start trailer L)
    (hp : p ∈ L) (hne : p ≠ trailer) (hsp : sp ∈ L) :
    (if sp = p then dmNextMemory m' p else sp) ∈ L := by
  split
  · exact (h.next_mem hp hne).1
  · exact hsp

/-- `takeBlock` where it splits. -/
theorem takeBlock_split {s : Heap} {freeSize : ℕ}
    (h : freeSize ≥ u32 (size + dmOverhead + (s.pcb pool).dmMinAllocation)) :
    takeBlock s pool p freeSize size =
      (let m := setMemoryFree (splitBlock s.mem pool p size) p false
       { s with
          mem := m
          pcb := Function.update s.pcb pool { s.pcb pool with
            dmAvailable := u32 ((s.pcb pool).dmAvailable - size - dmOverhead)
            dmSearchPtr :=
              if (s.pcb pool).dmSearchPtr = p then dmNextMemory m p
              else (s.pcb pool).dmSearchPtr } },
        u32 (p + dmOverhead)) := by
  by_cases hsp : (s.pcb pool).dmSearchPtr = p <;> simp [takeBlock, h, hsp]

/-- `takeBlock` where it does not. -/
theorem takeBlock_whole {s : Heap} {freeSize : ℕ}
    (h : ¬ freeSize ≥ u32 (size + dmOverhead + (s.pcb pool).dmMinAllocation)) :
    takeBlock s pool p freeSize size =
      (let m := setMemoryFree s.mem p false
       { s with
          mem := m
          pcb := Function.update s.pcb pool { s.pcb pool with
            dmAvailable := u32 ((s.pcb pool).dmAvailable - freeSize)
            dmSearchPtr :=
              if (s.pcb pool).dmSearchPtr = p then dmNextMemory m p
              else (s.pcb pool).dmSearchPtr } },
        u32 (p + dmOverhead)) := by
  by_cases hsp : (s.pcb pool).dmSearchPtr = p <;> simp [takeBlock, h, hsp]

/-- The pointer is the same in both. -/
theorem takeBlock_pointer (s : Heap) (pool p freeSize size : ℕ) :
    (takeBlock s pool p freeSize size).2 = u32 (p + dmOverhead) := by
  by_cases h : freeSize ≥ u32 (size + dmOverhead + (s.pcb pool).dmMinAllocation)
  · rw [takeBlock_split h]
  · rw [takeBlock_whole h]

/-- **Handing out a block**: a free block whose payload is enough for `size` bytes, and for a
    further header if the code decides to split it. -/
theorem takeBlock_spec {s : Heap} {freeSize : ℕ}
    (hP : PoolShape pool start trailer s.mem (s.pcb pool) L) (hC : Coalesced (header s.mem) L)
    (hp : p ∈ L) (hfree : (header s.mem p).free = true) (hsize : size % 4 = 0)
    (hfs : freeSize = (header s.mem p).next - p - 16) (hfit : size ≤ freeSize)
    (hsplit : freeSize ≥ u32 (size + dmOverhead + (s.pcb pool).dmMinAllocation) →
      size + 16 ≤ freeSize) :
    ∃ L', let r := takeBlock s pool p freeSize size
      PoolShape pool start trailer r.1.mem (r.1.pcb pool) L' ∧ Coalesced (header r.1.mem) L' ∧
        (r.1.pcb pool).dmMinAllocation = (s.pcb pool).dmMinAllocation ∧
        Taken trailer s.mem L r.1.mem L' p size ∧ OnlyTakes trailer s.mem L r.1.mem L' p ∧
        r.2 = p + 16 := by
  have hne : p ≠ trailer := hP.blocks.ne_trailer_of_free hfree
  have hpointer : u32 ((p : ℤ) + dmOverhead) = p + 16 := by
    have hlt := (hP.blocks.next_mem hp hne).2
    have := hP.lt (hP.blocks.next_mem hp hne).1
    unfold u32 dmOverhead
    omega
  have hnext := (hP.blocks.next_mem hp hne).2
  -- the free bytes of this block are part of the sum
  have hpart : freeSize ≤ (s.pcb pool).dmAvailable := by
    have hsum := freeSum_mark (header s.mem) (b := false) hP.blocks.nodup hp
    have hbytes : freeBytes (header s.mem) p = freeSize := by simp [freeBytes, hfree, hfs]
    have hbytes' : freeBytes (markHeader (header s.mem) p false) p = 0 := by simp [freeBytes]
    have := hP.available
    omega
  have havaillt : (s.pcb pool).dmAvailable < 4294967296 := by
    have := hP.blocks.freeSum_le
    have := hP.available
    have := hP.bound
    omega
  by_cases htest : freeSize ≥ u32 (size + dmOverhead + (s.pcb pool).dmMinAllocation)
  · have hroom := hsplit htest
    obtain ⟨X, q, Y, rfl⟩ := hP.blocks.exists_next hp hne
    have hq := hP.blocks.linked.1
    have hm₁ := splitBlock_holds hP hsize (by omega)
    set m₁ := splitBlock s.mem pool p size with hdef
    have hP₁ := hP.split hfree hsize (by omega) hm₁
      (show (s.pcb pool).dmAvailable - 16 + 16 = _ by omega)
    have hp₁ : p ∈ X ++ p :: (p + size + 16) :: q :: Y := by simp
    have hfree₁ : (header m₁ p).free = true := by
      rw [hm₁.header p hp₁, splitHeaders_free_of_ne (by omega), hfree]
    have hnext₁ : (header m₁ p).next = p + size + 16 := by
      rw [hm₁.header p hp₁]
      simp [splitHeaders]
    have hm := (Holds.refl m₁ _).setFree hP₁.blocks.apart hp₁ false
    have hblocks := (hP₁.blocks.mark (b := false) hne).of_eq hm.header
    have havail : u32 ((s.pcb pool).dmAvailable - size - dmOverhead)
        + ((header m₁ p).next - p - 16) = (s.pcb pool).dmAvailable - 16 := by
      rw [hnext₁]
      unfold u32 dmOverhead
      omega
    have hP₂ := hP₁.markUsed hp₁ hfree₁ hm havail (searchPtr_mem hblocks hp₁ hne hP₁.search)
    obtain ⟨hC₂, htaken, honly⟩ := taken_split hP hC hfree (by omega) hm₁ hm
    refine ⟨X ++ p :: (p + size + 16) :: q :: Y, ?_⟩
    rw [takeBlock_split htest, ← hdef]
    simp only [Function.update_self]
    exact ⟨hP₂, hC₂, trivial, htaken, honly, hpointer⟩
  · have hm := (Holds.refl s.mem _).setFree hP.blocks.apart hp false
    have hblocks := (hP.blocks.mark (b := false) hne).of_eq hm.header
    have havail : u32 ((s.pcb pool).dmAvailable - freeSize)
        + ((header s.mem p).next - p - 16) = (s.pcb pool).dmAvailable := by
      unfold u32
      omega
    have hP₂ := hP.markUsed hp hfree hm havail (searchPtr_mem hblocks hp hne hP.search)
    obtain ⟨hC₂, htaken, honly⟩ := taken_whole hP hC hp hfree (show p + 16 + size ≤ _ by omega) hm
    refine ⟨L, ?_⟩
    rw [takeBlock_whole htest]
    simp only [Function.update_self]
    exact ⟨hP₂, hC₂, trivial, htaken, honly, hpointer⟩

/-- Nothing outside the pool is written. -/
theorem takeBlock_outside {s : Heap} {freeSize : ℕ}
    (hP : PoolShape pool start trailer s.mem (s.pcb pool) L) (hp : p ∈ L)
    (hfree : (header s.mem p).free = true) (hsize : size % 4 = 0)
    (hfs : freeSize = (header s.mem p).next - p - 16)
    (hsplit : freeSize ≥ u32 (size + dmOverhead + (s.pcb pool).dmMinAllocation) →
      size + 16 ≤ freeSize) {x : ℕ} (hx : x < start ∨ trailer + 16 ≤ x) :
    (takeBlock s pool p freeSize size).1.mem x = s.mem x := by
  have hheader : ∀ r ∈ L, OutsideHeader r x := by
    intro r hr
    have hlo := hP.blocks.start_le hr
    have hhi := hP.blocks.le_trailer hr
    unfold OutsideHeader
    omega
  by_cases htest : freeSize ≥ u32 (size + dmOverhead + (s.pcb pool).dmMinAllocation)
  · have hroom := hsplit htest
    obtain ⟨Y, q, Z, rfl⟩ := hP.blocks.exists_next hp (hP.blocks.ne_trailer_of_free hfree)
    have hq : (header s.mem p).next = q := hP.blocks.linked.1
    rw [takeBlock_split htest]
    apply (setMemoryFree_outside (hheader p hp)).trans
    apply (splitBlock_holds hP hsize (by omega)).frame x
    intro r hr
    -- the new header is between the block and the next one
    have hcases : r ∈ Y ++ p :: q :: Z ∨ r = p + size + 16 := by
      have hmem : r ∈ Y ++ p :: (p + size + 16) :: q :: Z := hr
      simp only [List.mem_append, List.mem_cons] at hmem ⊢
      tauto
    rcases hcases with hr | rfl
    · exact hheader r hr
    · have hlo := hP.blocks.start_le hp
      have hhi := hP.blocks.le_trailer (p := q) (by simp)
      unfold OutsideHeader
      omega
  · rw [takeBlock_whole htest]
    exact setMemoryFree_outside (hheader p hp)

end SerialNet
