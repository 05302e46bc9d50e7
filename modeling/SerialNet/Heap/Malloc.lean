import SerialNet.Heap.Search

namespace SerialNet

/-!
# `OSMMalloc` and `OSMCalloc`

The system heap is one pool, made by `OS_DMemInit`.  A call is to return NULL, or the payload of
a block that was free and has room for the bytes asked for (`MallocRight`, `CallocRight`).

`OSMMalloc` does that for sizes up to `2^32 - 4`: the next three round up to 0, and then any block
will do.  `OSMCalloc` multiplies in 32 bits, so where `count * size` does not fit it asks for too
little; it is right then only if not even that can be had (`MallocFits`).
-/

/-- `OS_DMEM_POOL_SIZE`. -/
def osDmemPoolSize : ℕ := 1024 * 40

/-- `OS_DMemInit`, with the control block `OS_system_mempool` at `pool` and `sysemPool` at
    `start`. -/
def osDMemInit (s : Heap) (pool start : ℕ) : Heap :=
  (osCreateMemoryPool { s with dmdTotalPools := 0 } pool [83, 121, 115, 0] start osDmemPoolSize
    16).1

/-- `OSMMalloc`; the null pointer is 0. -/
def osmMalloc (s : Heap) (pool size : ℕ) : Option (Heap × ℕ) :=
  (osGetMem s pool size).map fun r => (r.1, if r.2.1 = osErrNone then r.2.2 else 0)

/-- `OSMCalloc`. -/
def osmCalloc (s : Heap) (pool count size : ℕ) : Option (Heap × ℕ) :=
  (osmMalloc s pool (u32 (count * size))).map fun r =>
    if r.2 ≠ 0 then ({ r.1 with mem := memset r.1.mem r.2 0 (u32 (count * size)) }, r.2) else r

/-- `OSMFree`. -/
def osmFree (s : Heap) (ptr : ℕ) : Heap := (osFreeMem s ptr).1

/-! ### What is asked of a call -/

/-- From `s` to `s'` a block of the list that was free is taken, with room for `size` bytes from its
    payload `p` on. -/
def TookBlock (pool : ℕ) (s s' : Heap) (p size : ℕ) : Prop :=
  ∃ k < (s.pcb pool).dmPoolSize, p = listHeader s pool k + dmOverhead ∧
    dmMemoryFree s.mem (listHeader s pool k) = true ∧
    dmMemoryFree s'.mem (listHeader s pool k) = false ∧
    p + size ≤ dmNextMemory s'.mem (listHeader s pool k)

/-- `OSMMalloc` returns NULL and changes nothing, or takes a block for `size` bytes. -/
def MallocRight (s : Heap) (pool size : ℕ) : Prop :=
  ∃ s' p, osmMalloc s pool size = some (s', p) ∧ (p = 0 ∧ s' = s ∨ TookBlock pool s s' p size)

/-- `OSMCalloc` returns NULL and changes nothing, or takes a block for `count * size` bytes, which
    it sets to 0, and no other byte but those that `OSMMalloc` writes. -/
def CallocRight (s : Heap) (pool count size : ℕ) : Prop :=
  ∃ s₁ s' p, osmMalloc s pool (u32 (count * size)) = some (s₁, p) ∧
    osmCalloc s pool count size = some (s', p) ∧
    (p = 0 ∧ s' = s ∨ TookBlock pool s s' p (count * size) ∧
      (∀ x, p ≤ x → x < p + count * size → s'.mem x = 0) ∧
      ∀ x, x < p ∨ p + count * size ≤ x → s'.mem x = s₁.mem x)

/-- A call of the system heap, or a write of an owner. -/
inductive MallocOp where
  | malloc (size : ℕ)
  | calloc (count size : ℕ)
  | free (ptr : ℕ)
  | write (address : ℕ) (data : UInt8)

/-- Perform a call with any 32-bit arguments; only what is live is freed and written. -/
def mallocStep (pool : ℕ) (s : HeapRun) : MallocOp → Option HeapRun
  | .malloc size =>
    if size < 4294967296 then
      (osmMalloc s.heap pool size).map fun r =>
        { heap := r.1, live := if r.2 ≠ 0 then (r.2, size) :: s.live else s.live }
    else none
  | .calloc count size =>
    if count < 4294967296 ∧ size < 4294967296 then
      (osmCalloc s.heap pool count size).map fun r =>
        { heap := r.1, live := if r.2 ≠ 0 then (r.2, count * size) :: s.live else s.live }
    else none
  | .free ptr =>
    if ptr ∈ s.live.map Prod.fst then
      some { heap := osmFree s.heap ptr, live := s.live.filter fun e => e.1 ≠ ptr }
    else none
  | .write address data => heapStep pool s (.write address data)

/-- The size can be rounded up in 32 bits, and the product is not reduced, unless no block is free
    that has room for what is left of it. -/
def MallocFits (pool : ℕ) (s : HeapRun) : MallocOp → Prop
  | .malloc size => size ≤ 4294967292
  | .calloc count size => u32 (count * size) ≤ 4294967292 ∧ (count * size < 4294967296 ∨
      ¬ FreeBlockFits s.heap pool (requestSize (s.heap.pcb pool) (u32 (count * size))))
  | _ => True

instance (pool : ℕ) (s : HeapRun) : DecidablePred (MallocFits pool s)
  | .malloc _ => inferInstanceAs (Decidable (_ ≤ _))
  | .calloc _ _ => inferInstanceAs (Decidable (_ ∧ (_ ∨ ¬ _)))
  | .free _ => .isTrue trivial
  | .write _ _ => .isTrue trivial

/-- The system heap after `OS_DMemInit`. -/
def systemHeap (s : Heap) (pool start : ℕ) : HeapRun := ⟨osDMemInit s pool start, []⟩

/-! ### One call -/

variable {pool start trailer : ℕ} {s : HeapRun} {L : List ℕ}

/-- Where `sysemPool` is: it ends below the end of the address space. -/
structure SystemPool (start trailer : ℕ) : Prop where
  size : trailer + 16 = start + osDmemPoolSize
  bound : start + osDmemPoolSize < 4294967296

/-- The invariant of the system heap. -/
abbrev SystemGood (pool start trailer : ℕ) : HeapRun → List ℕ → Prop :=
  HeapGood pool start trailer 16

/-- The pointer to a block is to its payload. -/
theorem SystemPool.pointer (hS : SystemPool start trailer)
    (hP : PoolShape pool start trailer s.heap.mem (s.heap.pcb pool) L) {h : ℕ} (hh : h ∈ L)
    (freeSize size : ℕ) : (takeBlock s.heap pool h freeSize size).2 = h + 16 := by
  have hsize := hS.size
  have hbound := hS.bound
  have hle := hP.blocks.le_trailer hh
  rw [takeBlock_pointer]
  unfold u32 dmOverhead
  omega

theorem osmMalloc_of_getMem {s t : Heap} {size p : ℕ}
    (h : osGetMem s pool size = some (t, osErrNone, p)) : osmMalloc s pool size = some (t, p) := by
  rw [osmMalloc, h]
  rfl

/-- No block has room up to the end of the address space. -/
theorem not_tookBlock {s s' : Heap} {p size : ℕ} (hsize : 4294967296 ≤ p + size) :
    ¬ TookBlock pool s s' p size := by
  rintro ⟨k, -, -, -, -, hroom⟩
  have hlt := load32_lt s'.mem (listHeader s pool k)
  unfold dmNextMemory at hroom
  omega

/-- What `OSMMalloc` does when it returns the payload of the block at `h`. -/
structure Mallocs (pool start trailer : ℕ) (s : HeapRun) (L : List ℕ) (s' : Heap) (L' : List ℕ)
    (h size : ℕ) : Prop where
  mem : h ∈ L
  was_free : (header s.heap.mem h).free = true
  room : h + 16 + size ≤ (header s.heap.mem h).next
  good : SystemGood pool start trailer ⟨s', (h + 16, size) :: s.live⟩ L'
  keeps : KeepsPayloads s ⟨s', (h + 16, size) :: s.live⟩

/-- A size that can be rounded up meets what the pool's invariant asks of a request. -/
theorem HeapGood.getFits (hS : SystemPool start trailer) (hg : SystemGood pool start trailer s L)
    {size : ℕ} (hsize : size ≤ 4294967292) : GetFits pool s (.get size) := by
  have hP := hg.inv.shape
  have hmin := hg.min
  have hpool : (s.heap.pcb pool).dmPoolSize = osDmemPoolSize := by
    have := hP.size
    have := hS.size
    omega
  refine (requestFits_of_min hP (by omega) ?_ hsize).2
  rw [hpool, hmin]
  decide

/-- **A call of `OSMMalloc`** for a size that can be rounded up. -/
theorem HeapGood.malloc (hS : SystemPool start trailer) (hg : SystemGood pool start trailer s L)
    {size : ℕ} (hsize : size ≤ 4294967292) :
    (osmMalloc s.heap pool size = some (s.heap, 0) ∧
      ¬ FreeBlockFits s.heap pool (requestSize (s.heap.pcb pool) size)) ∨
    ∃ s' h L', osmMalloc s.heap pool size = some (s', h + 16) ∧
      FreeBlockFits s.heap pool (requestSize (s.heap.pcb pool) size) ∧
      Mallocs pool start trailer s L s' L' h size := by
  have hI := hg.inv
  have hP := hI.shape
  have hfits := hg.getFits hS hsize
  rw [freeBlockFits_iff hP, ← getMemSize_eq hP.min hsize]
  rcases osGetMem_cases hP size with ⟨hget, -, hnone⟩ | ⟨h, hh, hfit, hzero, hget⟩
  · refine .inl ⟨by simp [osmMalloc, hget, osErrMemFull, osErrNone], ?_⟩
    rintro ⟨x, hx, -, hle⟩
    exact absurd (hnone x hx) (not_lt.mpr hle)
  · obtain ⟨hfree, hfs, -⟩ := hI.found hfits hh rfl hfit hzero
    have hpointer := hS.pointer hP hh (blockFreeSize s.heap.mem h)
      (getMemSize (s.heap.pcb pool) size)
    obtain ⟨t, L', hstep, hkeeps, hpayloads⟩ := hI.get hsize hfits
    have hallow : s.Allows (.get size) := hsize
    rw [heapStep, if_pos hallow, hget] at hstep
    simp only [Option.map_some, if_true, Option.some.injEq, hpointer] at hstep
    subst hstep
    have hne : h ≠ trailer := hP.blocks.ne_trailer_of_free hfree
    have hlt := (hP.blocks.next_mem hh hne).2
    have hle := (getMemSize_spec hP.min hsize).2
    have hcall := osmMalloc_of_getMem hget
    rw [hpointer] at hcall
    exact .inr ⟨_, h, L', hcall, ⟨h, hh, hfree, hfit⟩,
      ⟨hh, hfree, by omega, hg.next hkeeps, hpayloads⟩⟩

/-- Nothing outside the pool is written. -/
theorem HeapGood.malloc_outside (hS : SystemPool start trailer)
    (hg : SystemGood pool start trailer s L) {size : ℕ} (hsize : size ≤ 4294967292) {s' : Heap}
    {p : ℕ} (h : osmMalloc s.heap pool size = some (s', p)) {x : ℕ}
    (hx : x < start ∨ trailer + 16 ≤ x) : s'.mem x = s.heap.mem x := by
  have hI := hg.inv
  have hP := hI.shape
  obtain ⟨r, hget, hr⟩ := Option.map_eq_some_iff.mp h
  obtain rfl : r.1 = s' := congrArg Prod.fst hr
  rcases osGetMem_cases hP size with ⟨hfull, -, -⟩ | ⟨b, hb, hfit, hzero, htake⟩
  · rw [hfull, Option.some.injEq] at hget
    rw [← hget]
  · obtain ⟨hfree, hfs, hsplit⟩ := hI.found (hg.getFits hS hsize) hb rfl hfit hzero
    rw [htake, Option.some.injEq] at hget
    rw [← hget]
    exact takeBlock_outside hP hb hfree (getMemSize_spec hP.min hsize).1 hfs hsplit hx

/-- The `n` bytes from `q` on belong to somebody: outside the pool, or in a live payload. -/
def HeapRun.Owned (s : HeapRun) (start q n : ℕ) : Prop :=
  q + n ≤ start ∨ start + osDmemPoolSize ≤ q ∧ q + n ≤ 4294967296 ∨
    ∃ e ∈ s.live, e.1 ≤ q ∧ q + n ≤ e.1 + e.2

/-- There is room for the pool beside them, in an address space of 32 bits. -/
theorem HeapRun.Owned.le (hS : SystemPool start trailer) (hI : HeapInv pool start trailer s L)
    {q n : ℕ} (h : s.Owned start q n) : n + osDmemPoolSize ≤ 4294967296 := by
  have hsize := hS.size
  have hbound := hS.bound
  rcases h with hlo | ⟨hhi, hend⟩ | ⟨e, he, hlo, hhi⟩
  · omega
  · omega
  · obtain ⟨-, hstart, hroom, htrailer⟩ := hI.payload he
    unfold osDmemPoolSize at hsize ⊢
    omega

/-- They are not in the block that `OSMMalloc` hands out. -/
theorem Mallocs.disjoint (hS : SystemPool start trailer) {s' : Heap} {L' : List ℕ} {h size : ℕ}
    (hI : HeapInv pool start trailer s L) (hm : Mallocs pool start trailer s L s' L' h size)
    {q n : ℕ} (howned : s.Owned start q n) : q + n ≤ h + 16 ∨ h + 16 + size ≤ q := by
  have hsize := hS.size
  have hstart := hI.shape.blocks.start_le hm.mem
  obtain ⟨-, -, hroom, htrailer⟩ := hm.good.inv.payload List.mem_cons_self
  rcases howned with hlo | ⟨hhi, -⟩ | ⟨e, he, hlo, hhi⟩
  · exact .inl (by omega)
  · exact .inr (by dsimp only at hroom; omega)
  · obtain ⟨-, -, hend, -⟩ := hm.good.inv.payload (List.mem_cons_of_mem _ he)
    have hapart := List.rel_of_pairwise_cons hm.good.inv.disjoint he
    dsimp only at hroom hapart
    omega

/-- Nor does it change them. -/
theorem HeapGood.malloc_owned (hS : SystemPool start trailer)
    (hg : SystemGood pool start trailer s L) {size : ℕ} (hsize : size ≤ 4294967292) {s' : Heap}
    {L' : List ℕ} {h : ℕ} (hcall : osmMalloc s.heap pool size = some (s', h + 16))
    (hm : Mallocs pool start trailer s L s' L' h size) {q n : ℕ} (howned : s.Owned start q n)
    {x : ℕ} (hlo : q ≤ x) (hhi : x < q + n) : s'.mem x = s.heap.mem x := by
  have hpool := hS.size
  rcases howned with howned | ⟨howned, -⟩ | ⟨e, he, helo, hehi⟩
  · exact hg.malloc_outside hS hsize hcall (.inl (by omega))
  · exact hg.malloc_outside hS hsize hcall (.inr (by omega))
  · have hend := (hg.inv.payload he).2.2.1
    exact hm.keeps e he x (by omega) (by omega)

/-- It takes a block for the size. -/
theorem Mallocs.took {s' : Heap} {L' : List ℕ} {h size : ℕ} (hI : HeapInv pool start trailer s L)
    (hm : Mallocs pool start trailer s L s' L' h size) :
    TookBlock pool s.heap s' (h + 16) size := by
  obtain ⟨k, hk, rfl⟩ := exists_listHeader hI.shape hm.mem
  obtain ⟨p, -, -, heq, hused, hroom⟩ := hm.good.inv.live _ List.mem_cons_self
  obtain rfl : listHeader s.heap pool k = p := Nat.add_right_cancel heq
  exact ⟨k, hk, rfl, hm.was_free, hused, hroom⟩

/-- `memset` of what was asked for stays inside the block, which was free. -/
theorem Mallocs.memset {s' : Heap} {L' : List ℕ} {h size : ℕ} (hI : HeapInv pool start trailer s L)
    (hm : Mallocs pool start trailer s L s' L' h size) (c : UInt8) :
    Mallocs pool start trailer s L { s' with mem := memset s'.mem (h + 16) c size } L' h size := by
  refine ⟨hm.mem, hm.was_free, hm.room, hm.good.next (hm.good.inv.keeps ?_), ?_⟩
  · intro p hp x hlo hhi
    apply memset_outside _ c
    by_contra hin
    have hout := hm.good.inv.payload_outside (e := (h + 16, size)) List.mem_cons_self (x := x)
      (by omega) (by omega) p hp
    unfold OutsideHeader at hout
    omega
  · intro e he x hlo hhi
    rw [← hm.keeps e he x hlo hhi]
    obtain ⟨p, hp, hpt, heq, hused, -⟩ := hI.live e he
    rw [LiveBlock.payloadEnd_eq heq] at hhi
    have hne : h ≠ trailer := hI.shape.blocks.ne_trailer_of_free hm.was_free
    have hhp : h ≠ p := ne_of_free hm.was_free hused
    have h₁ := hI.shape.blocks.le_or_next_le hp hpt hm.mem
    have h₂ := hI.shape.blocks.le_or_next_le hm.mem hne hp
    have hroom := hm.room
    exact memset_outside _ c (by omega)

/-- A size that cannot be rounded up is treated as 0, for which the search takes any block. -/
theorem HeapGood.malloc_wraps (hS : SystemPool start trailer)
    (hg : SystemGood pool start trailer s L) {size : ℕ} (hlo : 4294967292 < size)
    (hhi : size < 4294967296) : ∃ s' h, osmMalloc s.heap pool size = some (s', h + 16) := by
  have hzero : getMemSize (s.heap.pcb pool) size = 0 := by
    unfold getMemSize u32
    rw [if_neg (by have := hg.min; omega)]
    omega
  rcases osGetMem_cases hg.inv.shape size with ⟨-, hpos, -⟩ | ⟨h, hh, -, -, hget⟩
  · exact absurd hzero hpos.ne'
  · have hpointer := hS.pointer hg.inv.shape hh (blockFreeSize s.heap.mem h)
      (getMemSize (s.heap.pcb pool) size)
    have hcall := osmMalloc_of_getMem hget
    rw [hpointer] at hcall
    exact ⟨_, h, hcall⟩

/-- **`OSMMalloc`** is right exactly for the sizes that can be rounded up. -/
theorem mallocRight_iff (hS : SystemPool start trailer) (hg : SystemGood pool start trailer s L)
    {size : ℕ} (hsize : size < 4294967296) :
    MallocRight s.heap pool size ↔ MallocFits pool s (.malloc size) := by
  by_cases hfits : size ≤ 4294967292
  · refine iff_of_true ?_ hfits
    rcases hg.malloc hS hfits with ⟨hnull, -⟩ | ⟨s', h, L', hcall, -, hm⟩
    · exact ⟨_, _, hnull, .inl ⟨rfl, rfl⟩⟩
    · exact ⟨_, _, hcall, .inr (hm.took hg.inv)⟩
  · refine iff_of_false ?_ hfits
    obtain ⟨t, h, hcall⟩ := hg.malloc_wraps hS (not_le.mp hfits) hsize
    rintro ⟨s', p, hcall', hres⟩
    rw [hcall, Option.some.injEq, Prod.mk.injEq] at hcall'
    obtain ⟨-, rfl⟩ := hcall'
    rcases hres with ⟨hnull, -⟩ | htook
    · omega
    · exact not_tookBlock (by omega) htook

/-- **`OSMCalloc`** is right exactly if the product is not reduced or not even that is had. -/
theorem callocRight_iff (hS : SystemPool start trailer) (hg : SystemGood pool start trailer s L)
    (count size : ℕ) :
    CallocRight s.heap pool count size ↔ MallocFits pool s (.calloc count size) := by
  -- Where `OSMMalloc` returns a pointer, there is no room for a product of more than 32 bits.
  have hwrong : ∀ {t h}, osmMalloc s.heap pool (u32 (count * size)) = some (t, h + 16) →
      4294967296 ≤ h + 16 + count * size → ¬ CallocRight s.heap pool count size := by
    rintro t h hcall hlarge ⟨s₁, s', p, hcall', -, hres⟩
    rw [hcall, Option.some.injEq, Prod.mk.injEq] at hcall'
    obtain ⟨-, rfl⟩ := hcall'
    rcases hres with ⟨hnull, -⟩ | ⟨htook, -⟩
    · omega
    · exact not_tookBlock hlarge htook
  have hlt := u32_lt (count * size : ℕ)
  have hle : u32 (count * size : ℕ) ≤ count * size := by
    unfold u32
    omega
  rw [Nat.cast_mul] at hlt hle
  by_cases hround : u32 (count * size) ≤ 4294967292
  · simp only [MallocFits, hround, true_and]
    rcases hg.malloc hS hround with ⟨hnull, hnone⟩ | ⟨t, h, L', hcall, hfree, hm⟩
    · refine iff_of_true ⟨_, _, _, hnull, ?_, .inl ⟨rfl, rfl⟩⟩ (.inr hnone)
      simp [osmCalloc, hnull]
    · by_cases hprod : count * size < 4294967296
      · refine iff_of_true ?_ (.inl hprod)
        have hexact := u32_mul hprod
        rw [hexact] at hm
        refine ⟨_, _, _, hcall, by simp [osmCalloc, hcall]; rfl, .inr ⟨?_, ?_, ?_⟩⟩
        · rw [hexact]
          exact (hm.memset hg.inv 0).took hg.inv
        · intro x hlo hhi
          rw [hexact]
          exact memset_inside _ 0 hlo hhi
        · intro x hout
          rw [hexact]
          exact memset_outside _ 0 hout
      · exact iff_of_false (hwrong hcall (by omega)) (by tauto)
  · refine iff_of_false ?_ fun hfits => hround hfits.1
    obtain ⟨t, h, hcall⟩ := hg.malloc_wraps hS (not_le.mp hround) hlt
    exact hwrong hcall (by omega)

/-! ### Every run -/

theorem mallocStep_free (pool : ℕ) (s : HeapRun) (ptr : ℕ) :
    mallocStep pool s (.free ptr) = heapStep pool s (.free ptr) := rfl

/-- **One call** that meets `MallocFits`, or a write of an owner. -/
theorem HeapGood.mallocStep (hS : SystemPool start trailer) (hg : SystemGood pool start trailer s L)
    {op : MallocOp} (hfits : MallocFits pool s op) {s' : HeapRun}
    (hstep : mallocStep pool s op = some s') :
    ∃ L', SystemGood pool start trailer s' L' ∧
      ((∀ a b, op ≠ .write a b) → KeepsPayloads s s') := by
  cases op with
  | malloc size =>
    simp only [SerialNet.mallocStep, Option.ite_none_right_eq_some] at hstep
    obtain ⟨-, hcall⟩ := hstep
    rcases hg.malloc hS hfits with ⟨hnull, -⟩ | ⟨t, h, L', hget, -, hm⟩
    · rw [hnull] at hcall
      obtain rfl : s = s' := Option.some.inj hcall
      exact ⟨L, hg, fun _ _ _ _ _ _ => rfl⟩
    · rw [hget] at hcall
      obtain rfl := Option.some.inj hcall
      exact ⟨L', hm.good, fun _ => hm.keeps⟩
  | calloc count size =>
    simp only [SerialNet.mallocStep, Option.ite_none_right_eq_some] at hstep
    obtain ⟨-, hcall⟩ := hstep
    rcases hg.malloc hS hfits.1 with ⟨hnull, -⟩ | ⟨t, h, L', hget, hfree, hm⟩
    · rw [osmCalloc, hnull] at hcall
      obtain rfl : s = s' := Option.some.inj hcall
      exact ⟨L, hg, fun _ _ _ _ _ _ => rfl⟩
    · -- A pointer is returned, so the product was not reduced.
      have hprod : count * size < 4294967296 := hfits.2.resolve_right (not_not_intro hfree)
      have hexact := u32_mul hprod
      rw [osmCalloc, hget, hexact] at hcall
      obtain rfl := Option.some.inj hcall
      rw [hexact] at hm
      have hset := hm.memset hg.inv 0
      exact ⟨L', hset.good, fun _ => hset.keeps⟩
  | free ptr =>
    rw [mallocStep_free] at hstep
    obtain ⟨t, L', ht, hnext, hkeep⟩ := hg.inv.free (allows_of_step hstep)
    rw [ht, Option.some.injEq] at hstep
    exact ⟨L', hstep ▸ hg.next hnext, fun _ => hstep ▸ hkeep⟩
  | write address data =>
    have hwrite : heapStep pool s (.write address data) = some s' := hstep
    obtain ⟨t, L', ht, hnext⟩ := hg.inv.write (allows_of_step hwrite)
    rw [ht, Option.some.injEq] at hwrite
    exact ⟨L', hwrite ▸ hg.next hnext, fun hne => absurd rfl (hne address data)⟩

/-- `OS_DMemInit` writes nothing outside the pool. -/
theorem systemHeap_outside (s₀ : Heap) (hS : SystemPool start trailer) (hpool : pool < 4294967296)
    {x : ℕ} (hx : x < start ∨ trailer + 16 ≤ x) :
    (systemHeap s₀ pool start).heap.mem x = s₀.mem x := by
  have hsize := hS.size
  have hbound := hS.bound
  unfold osDmemPoolSize at hsize hbound
  have hholds : Holds s₀.mem {p | p ∈ [start, trailer]} (systemHeap s₀ pool start).heap.mem _ :=
    osCreateMemoryPool_holds { s₀ with dmdTotalPools := 0 } [83, 121, 115, 0] 16 hpool
      (show 32 ≤ osDmemPoolSize by decide) hbound.le (by unfold osDmemPoolSize; omega)
  refine hholds.frame x fun p hp => ?_
  have hmem : p = start ∨ p = trailer := by simpa using hp
  unfold OutsideHeader
  omega

/-- The system heap is good after `OS_DMemInit`. -/
theorem systemGood_init (s₀ : Heap) (hS : SystemPool start trailer) (hpool : pool < 4294967296)
    (halign : start % 4 = 0) :
    SystemGood pool start trailer (systemHeap s₀ pool start) [start, trailer] := by
  have htrailer : trailer = start + osDmemPoolSize / 4 * 4 - 16 := by
    have hsize := hS.size
    unfold osDmemPoolSize at hsize ⊢
    omega
  have hmin : 32 + 16 ≤ osDmemPoolSize := by decide
  rw [htrailer]
  exact heapGood_create _ _ hpool halign hmin hS.bound.le

/-- Where `sysemPool` ends. -/
theorem systemPool_of_bound (hbound : start + osDmemPoolSize < 4294967296) :
    SystemPool start (start + osDmemPoolSize - 16) := by
  refine ⟨?_, hbound⟩
  unfold osDmemPoolSize
  omega

/-- The system heap is good after every run of calls that meet `MallocFits`. -/
theorem systemGood_run (s₀ : Heap) (hpool : pool < 4294967296) (halign : start % 4 = 0)
    (hbound : start + osDmemPoolSize < 4294967296) {ops : List MallocOp}
    (hok : Along (mallocStep pool) (MallocFits pool) (systemHeap s₀ pool start) ops)
    (hrun : run (mallocStep pool) (systemHeap s₀ pool start) ops = some s) :
    ∃ L, SystemGood pool start (start + osDmemPoolSize - 16) s L := by
  have hS := systemPool_of_bound hbound
  have hstep : ∀ s op s', (∃ L, SystemGood pool start (start + osDmemPoolSize - 16) s L) →
      MallocFits pool s op → mallocStep pool s op = some s' →
      ∃ L, SystemGood pool start (start + osDmemPoolSize - 16) s' L := by
    rintro s op s' ⟨L, hg⟩ hfits hs'
    obtain ⟨L', hg', -⟩ := hg.mallocStep hS hfits hs'
    exact ⟨L', hg'⟩
  exact run_invariant hstep ops _ s ⟨_, systemGood_init s₀ hS hpool halign⟩ hok hrun

/-- **`OSMMalloc` and `OSMCalloc`**, in every state that is reached from `OS_DMemInit` by calls that
    meet `MallocFits`: a further call is right exactly if it meets `MallocFits` too, and then
    it touches no live payload. -/
theorem malloc_calloc_right_iff (s₀ : Heap) (hpool : pool < 4294967296) (halign : start % 4 = 0)
    (hbound : start + osDmemPoolSize < 4294967296) {ops : List MallocOp}
    (hok : Along (mallocStep pool) (MallocFits pool) (systemHeap s₀ pool start) ops)
    (hrun : run (mallocStep pool) (systemHeap s₀ pool start) ops = some s) :
    (∀ size < 4294967296, MallocRight s.heap pool size ↔ MallocFits pool s (.malloc size)) ∧
    (∀ count < 4294967296, ∀ size < 4294967296,
      CallocRight s.heap pool count size ↔ MallocFits pool s (.calloc count size)) ∧
    ∀ op s', MallocFits pool s op → (∀ a b, op ≠ .write a b) → mallocStep pool s op = some s' →
      KeepsPayloads s s' := by
  have hS := systemPool_of_bound hbound
  obtain ⟨L, hg⟩ := systemGood_run s₀ hpool halign hbound hok hrun
  refine ⟨fun size hsize => mallocRight_iff hS hg hsize, fun count _ size _ =>
    callocRight_iff hS hg count size, fun op s' hfits hne hs' => ?_⟩
  obtain ⟨-, -, hkeeps⟩ := hg.mallocStep hS hfits hs'
  exact hkeeps hne

/-- A block is taken, another one is zeroed, written and kept, and the first is freed. -/
def mallocExample : List MallocOp :=
  [.malloc 40, .calloc 3 8, .write 0x2048 1, .free 0x2010]

theorem malloc_calloc_right_iff_example :
    (runEnd (mallocStep 0x1000) (systemHeap emptyHeap 0x1000 0x2000) mallocExample).live
        = [(0x2048, 24)] ∧
      MallocRight (runEnd (mallocStep 0x1000) (systemHeap emptyHeap 0x1000 0x2000)
        mallocExample).heap 0x1000 100 ∧
      CallocRight (runEnd (mallocStep 0x1000) (systemHeap emptyHeap 0x1000 0x2000)
        mallocExample).heap 0x1000 7 11 := by
  have hok : Along (mallocStep 0x1000) (MallocFits 0x1000) (systemHeap emptyHeap 0x1000 0x2000)
      mallocExample := by decide +kernel
  obtain ⟨hmalloc, hcalloc, -⟩ := malloc_calloc_right_iff emptyHeap (by decide) (by decide)
    (by decide) hok (run_eq_runEnd (by decide +kernel))
  refine ⟨by decide +kernel, (hmalloc 100 (by decide)).mpr (by decide),
    (hcalloc 7 (by decide) 11 (by decide)).mpr (by decide +kernel)⟩

/-- With the pool used up, a request of `2^32 - 1` bytes returns what is behind the trailer; in a
    new pool, `2^30 + 1` objects of 4 bytes are a block of 16 bytes. -/
theorem extreme_sizes_wrap :
    ¬ (∀ (s₀ : Heap) (pool start : ℕ) (ops : List MallocOp) (s : HeapRun), pool < 4294967296 →
      start % 4 = 0 → start + osDmemPoolSize < 4294967296 →
      run (mallocStep pool) (systemHeap s₀ pool start) ops = some s →
      ∀ size < 4294967296, MallocRight s.heap pool size) ∧
    ¬ ∀ (s₀ : Heap) (pool start : ℕ) (ops : List MallocOp) (s : HeapRun), pool < 4294967296 →
      start % 4 = 0 → start + osDmemPoolSize < 4294967296 →
      run (mallocStep pool) (systemHeap s₀ pool start) ops = some s →
      ∀ count < 4294967296, ∀ size < 4294967296, CallocRight s.heap pool count size := by
  constructor
  · intro hall
    obtain ⟨s', p, hcall, hres⟩ := hall emptyHeap 0x1000 0x2000 [.malloc 40928] _ (by decide)
      (by decide) (by decide) (run_eq_runEnd (by decide +kernel)) 4294967295 (by decide)
    have hp : (osmMalloc (runEnd (mallocStep 0x1000) (systemHeap emptyHeap 0x1000 0x2000)
        [.malloc 40928]).heap 0x1000 4294967295).map Prod.snd = some 0xc000 := by decide +kernel
    rw [hcall, Option.map_some, Option.some.injEq] at hp
    obtain rfl : p = 0xc000 := hp
    rcases hres with ⟨hnull, -⟩ | htook
    · exact absurd hnull (by decide)
    · exact not_tookBlock (by decide) htook
  · intro hall
    obtain ⟨s₁, s', p, -, hcall, hres⟩ := hall emptyHeap 0x1000 0x2000 [] _ (by decide) (by decide)
      (by decide) rfl 1073741825 (by decide) 4 (by decide)
    have hp : (osmCalloc (systemHeap emptyHeap 0x1000 0x2000).heap 0x1000 1073741825 4).map Prod.snd
        = some 0x2010 := by decide +kernel
    rw [hcall, Option.map_some, Option.some.injEq] at hp
    obtain rfl : p = 0x2010 := hp
    rcases hres with ⟨hnull, -⟩ | ⟨htook, -⟩
    · exact absurd hnull (by decide)
    · exact not_tookBlock (by decide) htook

end SerialNet
