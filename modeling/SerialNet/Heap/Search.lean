import SerialNet.Heap.Invariant

namespace SerialNet

/-!
# The search finds what there is, and freeing restores the pool

A call of `OS_GetMem` is to fail exactly if no free block is large enough for the request
(`GetMemRight`).  It does unless the request comes to no bytes at all and no block is free
(`getMemRight_iff`): then the search stops where it starts, at a block in use.

A block in use is always one that was handed out (`UsedLive`).  So when all pointers have been
freed, in any order, every block is free, and as no two neighbours are, there is one
(`free_all`).
-/

variable {pool start trailer minAllocation : ℕ} {s : HeapRun} {L : List ℕ}

/-! ### Completeness of the search -/

/-- The bytes that a request comes to: rounded up to whole words, and at least the minimum. -/
def requestSize (pool : DmPcb) (size : ℕ) : ℕ := max pool.dmMinAllocation ((size + 3) / 4 * 4)

/-- A block of the list is free and has a payload of at least `size` bytes. -/
def FreeBlockFits (s : Heap) (pool size : ℕ) : Prop :=
  ∃ k < (s.pcb pool).dmPoolSize, dmMemoryFree s.mem (listHeader s pool k) = true ∧
    size ≤ blockFreeSize s.mem (listHeader s pool k)

instance (s : Heap) (pool size : ℕ) : Decidable (FreeBlockFits s pool size) :=
  inferInstanceAs (Decidable (∃ k < (s.pcb pool).dmPoolSize, _ ∧ _))

/-- What is asked of a call: it ends, and fails with a null pointer and the heap as it was exactly
    if no free block is large enough. -/
def GetMemRight (s : Heap) (pool size : ℕ) : Prop :=
  ∃ r, osGetMem s pool size = some r ∧
    ((r.2.1 = osErrMemFull ∧ r.2.2 = 0 ∧ r.1 = s) ↔
      ¬ FreeBlockFits s pool (requestSize (s.pcb pool) size))

/-- The size that the code searches for. -/
theorem getMemSize_eq {pcb : DmPcb} {size : ℕ} (hmin : pcb.dmMinAllocation % 4 = 0)
    (hsize : size ≤ 4294967292) : getMemSize pcb size = requestSize pcb size := by
  unfold getMemSize requestSize u32
  split <;> omega

/-- Following the links from the first header never leaves the list. -/
theorem listHeader_mem (hP : PoolShape pool start trailer s.heap.mem (s.heap.pcb pool) L)
    (k : ℕ) : listHeader s.heap pool k ∈ L := by
  unfold listHeader
  rw [hP.list]
  induction k with
  | zero => exact List.mem_of_mem_head? hP.blocks.first
  | succ k ih =>
    rw [Function.iterate_succ_apply']
    exact (hP.blocks.links.inverse ih).1.1

/-- The free blocks are those of the list. -/
theorem freeBlockFits_iff (hP : PoolShape pool start trailer s.heap.mem (s.heap.pcb pool) L)
    (size : ℕ) : FreeBlockFits s.heap pool size ↔
      ∃ p ∈ L, (header s.heap.mem p).free = true ∧ size ≤ blockFreeSize s.heap.mem p := by
  constructor
  · rintro ⟨k, -, hfree, hfit⟩
    exact ⟨_, listHeader_mem hP k, hfree, hfit⟩
  · rintro ⟨p, hp, hfree, hfit⟩
    obtain ⟨k, hk, rfl⟩ := exists_listHeader hP hp
    exact ⟨k, hk, hfree, hfit⟩

/-- **One call** is right exactly if it asks for something or some block is free. -/
theorem getMemRight_iff (hP : PoolShape pool start trailer s.heap.mem (s.heap.pcb pool) L)
    {size : ℕ} (hsize : size ≤ 4294967292) :
    GetMemRight s.heap pool size ↔
      requestSize (s.heap.pcb pool) size ≠ 0 ∨ FreeBlockFits s.heap pool 0 := by
  have hfits := freeBlockFits_iff hP
  unfold GetMemRight
  rw [hfits, hfits, ← getMemSize_eq hP.min hsize]
  rcases osGetMem_cases hP size with ⟨hget, hpos, hnone⟩ | ⟨p, hp, hfit, -, hget⟩
  · refine iff_of_true ⟨_, hget, iff_of_true ⟨rfl, rfl, rfl⟩ ?_⟩ (.inl hpos.ne')
    rintro ⟨x, hx, -, hle⟩
    exact absurd (hnone x hx) (not_lt.mpr hle)
  · -- The call succeeds, so it is right if there is a free block that fits.
    have hstatus : ¬ (osErrNone = osErrMemFull) := by decide
    have hright : (∃ r, osGetMem s.heap pool size = some r ∧
        ((r.2.1 = osErrMemFull ∧ r.2.2 = 0 ∧ r.1 = s.heap) ↔
          ¬ ∃ p ∈ L, (header s.heap.mem p).free = true ∧
            getMemSize (s.heap.pcb pool) size ≤ blockFreeSize s.heap.mem p)) ↔
        ∃ p ∈ L, (header s.heap.mem p).free = true ∧
          getMemSize (s.heap.pcb pool) size ≤ blockFreeSize s.heap.mem p := by
      constructor
      · rintro ⟨r, hr, hiff⟩
        rw [hget, Option.some.injEq] at hr
        subst hr
        by_contra hno
        exact hstatus (hiff.mpr hno).1
      · intro hex
        exact ⟨_, hget, iff_of_false (fun hfull => hstatus hfull.1) (not_not_intro hex)⟩
    rw [hright]
    constructor
    · rintro ⟨x, hx, hfree, -⟩
      exact .inr ⟨x, hx, hfree, Nat.zero_le _⟩
    · intro hcond
      by_cases hzero : getMemSize (s.heap.pcb pool) size = 0
      · obtain ⟨x, hx, hfree, -⟩ := hcond.resolve_left (not_not_intro hzero)
        exact ⟨x, hx, hfree, hzero ▸ Nat.zero_le _⟩
      · exact ⟨p, hp, free_of_blockFreeSize (by omega), hfit⟩

/-! ### All pointers freed -/

/-- The headers of a pool with one free block. -/
structure OneFreeBlock (m : Memory) (start trailer : ℕ) : Prop where
  free : dmMemoryFree m start = true
  next : dmNextMemory m start = trailer
  prev : dmPreviousMemory m start = trailer
  trailer_used : dmMemoryFree m trailer = false
  trailer_next : dmNextMemory m trailer = start
  trailer_prev : dmPreviousMemory m trailer = start

/-- If every block is free, there is one. -/
theorem HeapInv.oneFreeBlock (hI : HeapInv pool start trailer s L) (hne : start ≠ trailer)
    (hfree : ∀ p ∈ L, p ≠ trailer → (header s.heap.mem p).free = true) :
    L = [start, trailer] := by
  obtain ⟨Y, rfl⟩ := List.head?_eq_some_iff.mp hI.shape.blocks.first
  cases Y with
  | nil =>
    have hlast := hI.shape.blocks.last
    rw [List.getLast?_singleton, Option.some.injEq] at hlast
    exact absurd hlast hne
  | cons b Y =>
    -- The second header is not free, so it is the trailer, and nothing comes behind that.
    have hb : b = trailer := by
      by_contra hbt
      have hpair := (List.isChain_cons_cons.mp hI.coalesced).1
      exact hpair ⟨hfree start List.mem_cons_self hne, hfree b (by simp) hbt⟩
    subst hb
    cases Y with
    | nil => rfl
    | cons c Y =>
      have hlt := BlockList.lt_next (X := [start]) hI.shape.blocks
      have hle := hI.shape.blocks.le_trailer (p := c) (by simp)
      omega

/-- The pool when nothing is live any more. -/
theorem HeapGood.restored (h : HeapGood pool start trailer minAllocation s L)
    (hlt : start + 16 ≤ trailer) (hlive : s.live = []) :
    OneFreeBlock s.heap.mem start trailer ∧
      (s.heap.pcb pool).dmAvailable = trailer - start - 16 := by
  have hne : start ≠ trailer := by omega
  have hfree : ∀ p ∈ L, p ≠ trailer → (header s.heap.mem p).free = true := by
    intro p hp hpt
    by_contra hused
    have hmem := h.used_live p hp hpt (Bool.eq_false_iff.mpr hused)
    rw [hlive] at hmem
    exact List.not_mem_nil hmem
  obtain rfl := h.inv.oneFreeBlock hne hfree
  have hlinks := circular_cons.mp h.inv.shape.blocks.links
  obtain ⟨⟨hnext, hprev⟩, hclose⟩ := List.isChain_cons_cons.mp hlinks
  obtain ⟨hnext', hprev'⟩ := List.isChain_pair.mp hclose
  have hstart := hfree start List.mem_cons_self hne
  have htrailer := h.inv.shape.blocks.trailer_used
  refine ⟨⟨hstart, hnext, hprev', htrailer, hnext', hprev⟩, ?_⟩
  dsimp only at hnext
  rw [h.inv.shape.available]
  simp [freeSum, freeBytes, hstart, htrailer, hnext]

/-- Freeing the live pointers, in any order. -/
theorem free_all (ps : List ℕ) : ∀ {s L}, HeapGood pool start trailer minAllocation s L →
    ps.Perm (s.live.map Prod.fst) → ∃ t L', run (heapStep pool) s (ps.map .free) = some t ∧
      HeapGood pool start trailer minAllocation t L' ∧ t.live = [] := by
  induction ps with
  | nil =>
    intro s L h hperm
    exact ⟨s, L, rfl, h, List.map_eq_nil_iff.mp hperm.symm.eq_nil⟩
  | cons p ps ih =>
    intro s L h hperm
    have hp : p ∈ s.live.map Prod.fst := hperm.mem_iff.mp List.mem_cons_self
    obtain ⟨s', L', hstep, hnext, -⟩ := h.inv.free hp
    have hlive : s'.live = s.live.filter fun e => e.1 ≠ p := by
      have hallow : s.Allows (.free p) := hp
      rw [heapStep, if_pos hallow] at hstep
      rw [← Option.some.inj hstep]
    have hps : ps.Perm (s'.live.map Prod.fst) := by
      have hnodup := List.nodup_cons.mp (hperm.nodup_iff.mpr h.inv.nodup)
      have hfilter := hperm.filter fun a => decide (a ≠ p)
      rw [List.filter_cons_of_neg (by simp), List.filter_map] at hfilter
      have hkeep : ps.filter (fun a => decide (a ≠ p)) = ps := by
        refine List.filter_eq_self.mpr fun a ha => decide_eq_true ?_
        rintro rfl
        exact hnodup.1 ha
      rw [hkeep] at hfilter
      rw [hlive]
      exact hfilter
    obtain ⟨t, L'', hrun, hgood, hnil⟩ := ih (h.next hnext) hps
    refine ⟨t, L'', ?_, hgood, hnil⟩
    rw [List.map_cons, run_cons, hstep]
    exact hrun

/-! ### Every run -/

/-- `heapStep` with requests of any 32-bit size. -/
def poolStep (pool : ℕ) (s : HeapRun) : HeapOp → Option HeapRun
  | .get size =>
    if size < 4294967296 then
      (osGetMem s.heap pool size).map fun r =>
        { heap := r.1
          live := if r.2.1 = osErrNone then (r.2.2, size) :: s.live else s.live }
    else none
  | op => heapStep pool s op

/-- The request can be rounded up in 32 bits, and does not reach the defects of `GetFits`. -/
def RequestFits (pool : ℕ) (s : HeapRun) : HeapOp → Prop
  | .get size => size ≤ 4294967292 ∧ GetFits pool s (.get size)
  | _ => True

instance (pool : ℕ) (s : HeapRun) : DecidablePred (RequestFits pool s)
  | .get size => inferInstanceAs (Decidable (size ≤ 4294967292 ∧ GetFits pool s (.get size)))
  | .free _ => .isTrue trivial
  | .write _ _ => .isTrue trivial

theorem RequestFits.getFits {op : HeapOp} (h : RequestFits pool s op) : GetFits pool s op := by
  cases op with
  | get size => exact h.2
  | free memory => trivial
  | write address data => trivial

theorem poolStep_eq {op : HeapOp} (h : RequestFits pool s op) :
    poolStep pool s op = heapStep pool s op := by
  cases op with
  | get size =>
    have hallow : s.Allows (.get size) := h.1
    rw [poolStep, if_pos (by have := h.1; omega), heapStep, if_pos hallow]
  | free memory => rfl
  | write address data => rfl

/-- A pool with a minimum and some room below `2^32` has no request that reaches the defects. -/
theorem requestFits_of_min (hP : PoolShape pool start trailer s.heap.mem (s.heap.pcb pool) L)
    (hmin : 0 < (s.heap.pcb pool).dmMinAllocation)
    (hroom : (s.heap.pcb pool).dmPoolSize + (s.heap.pcb pool).dmMinAllocation < 4294967296)
    {size : ℕ} (hsize : size ≤ 4294967292) : RequestFits pool s (.get size) := by
  have heq := getMemSize_eq hP.min hsize
  have hle : (s.heap.pcb pool).dmMinAllocation ≤ requestSize (s.heap.pcb pool) size :=
    le_max_left _ _
  refine ⟨hsize, fun h0 => by omega, fun hover k _ hfree hfit => ?_⟩
  -- No block is as large as a request for which the test for a split overflows.
  have hmem := listHeader_mem hP k
  generalize listHeader s.heap pool k = p at hmem hfree hfit
  have hne : p ≠ trailer := hP.blocks.ne_trailer_of_free hfree
  rw [blockFreeSize_eq hP hmem hne hfree] at hfit
  have hstart := hP.blocks.start_le hmem
  have hnext := hP.blocks.le_trailer (hP.blocks.next_mem hmem hne).1
  have hpool := hP.size
  unfold dmOverhead at hover
  omega

/-- Frees are the same in both. -/
theorem run_poolStep_free (ps : List ℕ) : ∀ s,
    run (poolStep pool) s (ps.map .free) = run (heapStep pool) s (ps.map .free) := by
  induction ps with
  | nil => exact fun _ => rfl
  | cons p ps ih =>
    intro s
    rw [List.map_cons, run_cons, run_cons]
    change (heapStep pool s (.free p)).bind _ = _
    congr 1
    funext s'
    exact ih s'

/-- **The search is complete, and freeing everything restores the pool**, in every state that is
    reached from a new pool by operations that meet `RequestFits`: a call is right exactly if the
    request comes to something or some block is free. -/
theorem heap_search_complete (s₀ : Heap) (name : List UInt8) {size : ℕ}
    (hpool : pool < 4294967296) (halign : start % 4 = 0) (hsize : 32 + minAllocation ≤ size)
    (hbound : start + size ≤ 4294967296) {ops : List HeapOp}
    (hok : Along (poolStep pool) (RequestFits pool)
      (newPool s₀ pool name start size minAllocation) ops)
    (hrun : run (poolStep pool) (newPool s₀ pool name start size minAllocation) ops = some s) :
    (∀ request ≤ 4294967292, GetMemRight s.heap pool request ↔
      requestSize (s.heap.pcb pool) request ≠ 0 ∨ FreeBlockFits s.heap pool 0) ∧
    ∀ ps : List ℕ, ps.Perm (s.live.map Prod.fst) →
      ∃ t, run (poolStep pool) s (ps.map .free) = some t ∧
      OneFreeBlock t.heap.mem start (start + size / 4 * 4 - 16) ∧
      (t.heap.pcb pool).dmAvailable =
        ((newPool s₀ pool name start size minAllocation).heap.pcb pool).dmAvailable := by
  have hnew := heapGood_create s₀ name hpool halign hsize hbound
  have hstep : ∀ s op s', (∃ L, HeapGood pool start (start + size / 4 * 4 - 16)
      (roundMin minAllocation) s L) → RequestFits pool s op → poolStep pool s op = some s' →
      ∃ L, HeapGood pool start (start + size / 4 * 4 - 16) (roundMin minAllocation) s' L := by
    intro s op s' hgood hfits hs'
    rw [poolStep_eq hfits] at hs'
    exact heapGood_step hgood hfits.getFits hs'
  obtain ⟨L, hgood⟩ := run_invariant hstep ops _ s ⟨_, hnew⟩ hok hrun
  refine ⟨fun request hrequest => getMemRight_iff hgood.inv.shape hrequest, fun ps hps => ?_⟩
  obtain ⟨t, L', ht, hgood', hnil⟩ := free_all ps hgood hps
  obtain ⟨hone, havail⟩ := hgood'.restored (by omega) hnil
  -- The new pool has nothing live either.
  have havail₀ := (hnew.restored (by omega) rfl).2
  exact ⟨t, (run_poolStep_free ps s).trans ht, hone, havail.trans havail₀.symm⟩

/-- After the calls of `heapExample` a request of 300 bytes fails as it should, and freeing the one
    live pointer restores the pool. -/
theorem heap_search_complete_example :
    GetMemRight (runEnd (poolStep 0x1000) (newPool emptyHeap 0x1000 [] 0x2000 256 16)
        heapExample).heap 0x1000 300 ∧
      ∃ t, run (poolStep 0x1000) (runEnd (poolStep 0x1000)
          (newPool emptyHeap 0x1000 [] 0x2000 256 16) heapExample) [.free 0x206c] = some t ∧
        OneFreeBlock t.heap.mem 0x2000 0x20f0 := by
  have hok : Along (poolStep 0x1000) (RequestFits 0x1000)
      (newPool emptyHeap 0x1000 [] 0x2000 256 16) heapExample := by decide +kernel
  obtain ⟨hright, hfree⟩ := heap_search_complete emptyHeap [] (by decide) (by decide) (by decide)
    (by decide) hok (run_eq_runEnd (by decide +kernel))
  refine ⟨(hright 300 (by decide)).mpr (.inl (by decide +kernel)), ?_⟩
  obtain ⟨t, hrun, hone, -⟩ := hfree [0x206c] (.of_eq (by decide +kernel))
  exact ⟨t, hrun, hone⟩

/-- In a full pool with `dm_min_allocation` 0, a request of no bytes does not fail. -/
theorem empty_request_in_full_pool :
    ¬ ∀ (s₀ : Heap) (name : List UInt8) (pool start size minAllocation : ℕ) (ops : List HeapOp)
      (s : HeapRun), pool < 4294967296 → start % 4 = 0 → 32 + minAllocation ≤ size →
      start + size ≤ 4294967296 →
      run (poolStep pool) (newPool s₀ pool name start size minAllocation) ops = some s →
      ∀ request ≤ 4294967292, GetMemRight s.heap pool request := by
  intro hall
  obtain ⟨r, hr, hiff⟩ := hall emptyHeap [] 0x1000 0x2000 64 0 [.get 32] _ (by decide) (by decide)
    (by decide) (by decide) (run_eq_runEnd (by decide +kernel)) 0 (by decide)
  have hstatus : (osGetMem (runEnd (poolStep 0x1000) (newPool emptyHeap 0x1000 [] 0x2000 64 0)
      [.get 32]).heap 0x1000 0).map (fun r => r.2.1) = some osErrNone := by decide +kernel
  rw [hr] at hstatus
  have hfull := (hiff.mpr (by decide +kernel)).1
  rw [Option.map_some, Option.some.injEq, hfull] at hstatus
  exact absurd hstatus (by decide)

end SerialNet
