import SerialNet.Lib.Run
import SerialNet.Heap.GetMem
import SerialNet.Heap.FreeMem

namespace SerialNet

/-!
# The heap along every sequence of calls

`HeapRun` is the heap with the pointers handed out and not freed yet, each with the size that
was asked for.  Between the calls the owners write into their payloads.  `HeapInv` is kept by
every operation that meets `GetFits`.

`GetFits` excludes two requests.  One that rounds to no bytes at all "finds" the block at the
search pointer even if that is in use, or the trailer, because `free_size < size` is false for
0.  And `size + DM_OVERHEAD + dm_min_allocation` may exceed 32 bits, so that a block without
room for another header is split.
-/

/-- The heap, and the pointers handed out with the requested sizes. -/
structure HeapRun where
  heap : Heap
  live : List (ℕ × ℕ)

/-- An operation: a call of the allocator, or a write of an owner. -/
inductive HeapOp where
  | get (size : ℕ)
  | free (memory : ℕ)
  | write (address : ℕ) (data : UInt8)

/-- The operations in question: sizes up to `2^32 - 4`, live pointers, writes of the owner. -/
def HeapRun.Allows (s : HeapRun) : HeapOp → Prop
  | .get size => size ≤ 4294967292
  | .free memory => memory ∈ s.live.map Prod.fst
  | .write address _ => ∃ e ∈ s.live, e.1 ≤ address ∧ address < e.1 + e.2

instance (s : HeapRun) : DecidablePred s.Allows
  | .get _ => inferInstanceAs (Decidable (_ ≤ _))
  | .free _ => inferInstanceAs (Decidable (_ ∈ _))
  | .write _ _ => inferInstanceAs (Decidable (∃ e ∈ s.live, _))

/-- Perform an allowed operation on the pool at `pool`. -/
def heapStep (pool : ℕ) (s : HeapRun) (op : HeapOp) : Option HeapRun :=
  if s.Allows op then
    match op with
    | .get size =>
        (osGetMem s.heap pool size).map fun r =>
          { heap := r.1
            live := if r.2.1 = osErrNone then (r.2.2, size) :: s.live else s.live }
    | .free memory =>
        some { heap := (osFreeMem s.heap memory).1
               live := s.live.filter fun e => e.1 ≠ memory }
    | .write address data =>
        some { s with heap := { s.heap with mem := store8 s.heap.mem address data } }
  else none

/-- The `k`-th header of the list. -/
def listHeader (s : Heap) (pool k : ℕ) : ℕ :=
  (dmNextMemory s.mem)^[k] (s.pcb pool).dmMemoryList

/-- The request does not reach the two defects: one of no bytes finds the block at the search
    pointer free, and where the test for a split overflows no free block is large enough for
    the request but not for another header. -/
def GetFits (pool : ℕ) (s : HeapRun) : HeapOp → Prop
  | .get size =>
      (getMemSize (s.heap.pcb pool) size = 0 →
        dmMemoryFree s.heap.mem (s.heap.pcb pool).dmSearchPtr = true) ∧
      (4294967296 ≤ getMemSize (s.heap.pcb pool) size + dmOverhead
          + (s.heap.pcb pool).dmMinAllocation →
        ∀ k < (s.heap.pcb pool).dmPoolSize,
          dmMemoryFree s.heap.mem (listHeader s.heap pool k) = true →
          getMemSize (s.heap.pcb pool) size
            ≤ blockFreeSize s.heap.mem (listHeader s.heap pool k) →
          getMemSize (s.heap.pcb pool) size + dmOverhead
            ≤ blockFreeSize s.heap.mem (listHeader s.heap pool k))
  | _ => True

instance (pool : ℕ) (s : HeapRun) : DecidablePred (GetFits pool s)
  | .get _ => inferInstanceAs (Decidable ((_ → _) ∧ (_ → _)))
  | .free _ => .isTrue trivial
  | .write _ _ => .isTrue trivial

/-- The pointer `e.1` is the payload of a block in use with room for the `e.2` bytes asked for. -/
def LiveBlock (trailer : ℕ) (m : Memory) (L : List ℕ) (e : ℕ × ℕ) : Prop :=
  ∃ h ∈ L, h ≠ trailer ∧ e.1 = h + 16 ∧ (header m h).free = false ∧
    e.1 + e.2 ≤ (header m h).next

/-- What holds between any two operations. -/
structure HeapInv (pool start trailer : ℕ) (s : HeapRun) (L : List ℕ) : Prop where
  shape : PoolShape pool start trailer s.heap.mem (s.heap.pcb pool) L
  coalesced : Coalesced (header s.heap.mem) L
  live : ∀ e ∈ s.live, LiveBlock trailer s.heap.mem L e
  nodup : (s.live.map Prod.fst).Nodup

/-- The headers in use, but the trailer, are those of live pointers. -/
def UsedLive (trailer : ℕ) (s : HeapRun) (L : List ℕ) : Prop :=
  ∀ p ∈ L, p ≠ trailer → (header s.heap.mem p).free = false → p + 16 ∈ s.live.map Prod.fst

/-- What an operation that leads from `s` to `s'` keeps. -/
structure HeapKeeps (pool start trailer : ℕ) (s : HeapRun) (L : List ℕ) (s' : HeapRun)
    (L' : List ℕ) : Prop where
  inv : HeapInv pool start trailer s' L'
  used_live : UsedLive trailer s L → UsedLive trailer s' L'
  min : (s'.heap.pcb pool).dmMinAllocation = (s.heap.pcb pool).dmMinAllocation

/-- The end of the payload that starts at `e.1`. -/
def payloadEnd (s : HeapRun) (e : ℕ × ℕ) : ℕ := dmNextMemory s.heap.mem (e.1 - 16)

/-- No byte of a live payload of `s` differs in `s'`. -/
def KeepsPayloads (s s' : HeapRun) : Prop :=
  ∀ e ∈ s.live, ∀ x, e.1 ≤ x → x < payloadEnd s e → s'.heap.mem x = s.heap.mem x

variable {pool start trailer : ℕ} {s : HeapRun} {L : List ℕ}

/-! ### The operations -/

theorem LiveBlock.payloadEnd_eq {e : ℕ × ℕ} {h : ℕ} (he : e.1 = h + 16) :
    payloadEnd s e = (header s.heap.mem h).next := by
  rw [payloadEnd, he, Nat.add_sub_cancel]
  rfl

/-- The size of a request is a multiple of four and not below what was asked for. -/
theorem getMemSize_spec {pcb : DmPcb} {size : ℕ} (hmin : pcb.dmMinAllocation % 4 = 0)
    (hsize : size ≤ 4294967292) : getMemSize pcb size % 4 = 0 ∧ size ≤ getMemSize pcb size := by
  unfold getMemSize
  split
  · exact ⟨hmin, by omega⟩
  · unfold u32
    omega

/-- `free_size` of a block of the list. -/
theorem blockFreeSize_eq (hP : PoolShape pool start trailer s.heap.mem (s.heap.pcb pool) L)
    {p : ℕ} (hp : p ∈ L) (hne : p ≠ trailer) (hfree : (header s.heap.mem p).free = true) :
    blockFreeSize s.heap.mem p = (header s.heap.mem p).next - p - 16 := by
  obtain ⟨hnext, hle⟩ := hP.blocks.next_mem hp hne
  have hlt := hP.lt hnext
  have hfree' : dmMemoryFree s.heap.mem p = true := hfree
  rw [blockFreeSize, hfree', if_pos rfl]
  change u32 (((header s.heap.mem p).next : ℤ) - p - dmOverhead) = _
  unfold u32 dmOverhead
  omega

/-- Every header is among the first ones of the list. -/
theorem exists_listHeader (hP : PoolShape pool start trailer s.heap.mem (s.heap.pcb pool) L)
    {p : ℕ} (hp : p ∈ L) :
    ∃ k < (s.heap.pcb pool).dmPoolSize, listHeader s.heap pool k = p := by
  have hlength := hP.blocks.length_le
  have hsize := hP.size
  obtain ⟨Y, rfl⟩ := List.head?_eq_some_iff.mp hP.blocks.first
  obtain ⟨k, hk, hkp⟩ := hP.blocks.links.exists_iterate hp
  refine ⟨k, ?_, ?_⟩
  · simp only [List.length_cons] at hlength
    omega
  · rw [listHeader, hP.list]
    exact hkp

/-- The headers of the live pointers are in use. -/
theorem HeapInv.live_used (hI : HeapInv pool start trailer s L) {h : ℕ}
    (hh : h + 16 ∈ s.live.map Prod.fst) : (header s.heap.mem h).free = false := by
  obtain ⟨e, he, heq⟩ := List.mem_map.mp hh
  obtain ⟨p, -, -, hp, hfree, -⟩ := hI.live e he
  have : h = p := by omega
  rw [this]
  exact hfree

/-- If the blocks of the live pointers stay, with their payloads, so do the payloads. -/
theorem HeapInv.keepsPayloads (hI : HeapInv pool start trailer s L) {s' : HeapRun}
    (h : ∀ p ∈ L, p ≠ trailer → (header s.heap.mem p).free = false →
      ∀ x, p + 16 ≤ x → x < (header s.heap.mem p).next → s'.heap.mem x = s.heap.mem x) :
    KeepsPayloads s s' := by
  intro e he x hlo hhi
  obtain ⟨p, hp, hne, hep, hfree, -⟩ := hI.live e he
  rw [LiveBlock.payloadEnd_eq hep] at hhi
  exact h p hp hne hfree x (by omega) hhi

/-- The block the search loop stops at, when it is large enough, is free and has room for
    another header if the code decides to split it. -/
theorem HeapInv.found (hI : HeapInv pool start trailer s L) {size p freeSize : ℕ}
    (hok : GetFits pool s (.get size)) (hp : p ∈ L) (hfs : freeSize = blockFreeSize s.heap.mem p)
    (hfit : getMemSize (s.heap.pcb pool) size ≤ freeSize)
    (hzero : getMemSize (s.heap.pcb pool) size = 0 → p = (s.heap.pcb pool).dmSearchPtr) :
    (header s.heap.mem p).free = true ∧ freeSize = (header s.heap.mem p).next - p - 16 ∧
      (freeSize ≥ u32 (getMemSize (s.heap.pcb pool) size + dmOverhead
          + (s.heap.pcb pool).dmMinAllocation) →
        getMemSize (s.heap.pcb pool) size + 16 ≤ freeSize) := by
  obtain ⟨hsearch, hroom⟩ := hok
  have hfree : (header s.heap.mem p).free = true := by
    by_cases h0 : getMemSize (s.heap.pcb pool) size = 0
    · rw [hzero h0]
      exact hsearch h0
    · exact free_of_blockFreeSize (by omega)
  have hne : p ≠ trailer := hI.shape.blocks.ne_trailer_of_free hfree
  refine ⟨hfree, hfs.trans (blockFreeSize_eq hI.shape hp hne hfree), fun htest => ?_⟩
  by_cases hover : 4294967296 ≤ getMemSize (s.heap.pcb pool) size + dmOverhead
      + (s.heap.pcb pool).dmMinAllocation
  · obtain ⟨k, hk, hkp⟩ := exists_listHeader hI.shape hp
    have := hroom hover k hk (by rw [hkp]; exact hfree) (by rw [hkp, ← hfs]; exact hfit)
    rw [hkp, ← hfs] at this
    exact this
  · unfold u32 dmOverhead at htest
    unfold dmOverhead at hover
    omega

/-- **A call of `OS_GetMem`** keeps the invariant and the live payloads. -/
theorem HeapInv.get (hI : HeapInv pool start trailer s L) {size : ℕ} (hsize : size ≤ 4294967292)
    (hok : GetFits pool s (.get size)) :
    ∃ s' L', heapStep pool s (.get size) = some s' ∧ HeapKeeps pool start trailer s L s' L' ∧
      KeepsPayloads s s' := by
  have hallow : s.Allows (.get size) := hsize
  rcases osGetMem_cases hI.shape size with ⟨hget, -, -⟩ | ⟨p, hp, hfit, hzero, hget⟩
  · refine ⟨s, L, ?_, ⟨hI, id, rfl⟩, fun _ _ _ _ _ => rfl⟩
    simp [heapStep, hallow, hget, osErrMemFull, osErrNone]
  · obtain ⟨hfree, hfs', hsplit⟩ := hI.found hok hp rfl hfit hzero
    obtain ⟨hmod, hle⟩ := getMemSize_spec hI.shape.min hsize
    obtain ⟨L', hP, hC, hmin, htaken, honly, hpointer⟩ :=
      takeBlock_spec hI.shape hI.coalesced hp hfree hmod hfs' hfit hsplit
    set r := takeBlock s.heap pool p (blockFreeSize s.heap.mem p)
      (getMemSize (s.heap.pcb pool) size) with hr
    dsimp only at hget
    refine ⟨⟨r.1, (r.2, size) :: s.live⟩, L', ?_,
      ⟨⟨hP, hC, fun e he => ?_, ?_⟩, fun hused x hx hxt hxu => ?_, hmin⟩, ?_⟩
    · simp [heapStep, hallow, hget]
    · rcases List.mem_cons.mp he with rfl | he
      · have := htaken.fits
        exact ⟨p, htaken.mem, htaken.not_trailer, hpointer, htaken.is_used, by
          rw [hpointer]; dsimp only; omega⟩
      · obtain ⟨h, hh, hne, heq, hused, hroom⟩ := hI.live e he
        obtain ⟨hh', hused', hnext⟩ := htaken.used h hh hne hused
        exact ⟨h, hh', hne, heq, hused', by rwa [hnext]⟩
    · -- the block was free, so its payload was not handed out
      refine List.nodup_cons.mpr ⟨fun hmem => ?_, hI.nodup⟩
      rw [hpointer] at hmem
      have := hI.live_used hmem
      rw [htaken.was_free.2] at this
      cases this
    · rw [List.map_cons, hpointer]
      rcases honly x hx hxt hxu with rfl | ⟨hxL, hxu'⟩
      · exact List.mem_cons_self
      · exact List.mem_cons_of_mem _ (hused x hxL hxt hxu')
    · exact hI.keepsPayloads htaken.payload

/-- **A call of `OS_FreeMem`** keeps the invariant and the live payloads. -/
theorem HeapInv.free (hI : HeapInv pool start trailer s L) {memory : ℕ}
    (hlive : memory ∈ s.live.map Prod.fst) :
    ∃ s' L', heapStep pool s (.free memory) = some s' ∧
      HeapKeeps pool start trailer s L s' L' ∧ KeepsPayloads s s' := by
  obtain ⟨e, he, rfl⟩ := List.mem_map.mp hlive
  obtain ⟨h, hh, hne, heq, hused, -⟩ := hI.live e he
  obtain ⟨L', hP, hC, hmin, hother, honly, hframe⟩ :=
    osFreeMem_spec hI.shape hI.coalesced hh hne hused
  have hallow : s.Allows (.free e.1) := hlive
  have hmem : e.1 = h + dmOverhead := heq
  rw [← hmem] at hP hC hmin hother honly hframe
  generalize hr : (osFreeMem s.heap e.1).1 = heap at hP hC hmin hother honly hframe
  refine ⟨⟨heap, s.live.filter fun f => f.1 ≠ e.1⟩, L', by rw [heapStep, if_pos hallow, hr],
    ⟨⟨hP, hC, fun f hf => ?_, ?_⟩, fun hlives x hx hxt hxu => ?_, hmin⟩, ?_⟩
  · obtain ⟨hf, hfe⟩ := List.mem_filter.mp hf
    obtain ⟨p, hp, hpt, hpf, hpu, hroom⟩ := hI.live f hf
    have hph : p ≠ h := by
      rintro rfl
      simp [heq, hpf] at hfe
    obtain ⟨hp', hpu', hnext⟩ := hother p hp hpt hph hpu
    exact ⟨p, hp', hpt, hpf, hpu', by rwa [hnext]⟩
  · exact hI.nodup.sublist (List.filter_sublist.map _)
  · obtain ⟨hxL, hxh, hxu'⟩ := honly x hx hxu
    obtain ⟨f, hf, hfx⟩ := List.mem_map.mp (hlives x hxL hxt hxu')
    refine List.mem_map.mpr ⟨f, List.mem_filter.mpr ⟨hf, decide_eq_true ?_⟩, hfx⟩
    omega
  · apply hI.keepsPayloads
    intro p hp hpt _ x hlo hhi
    exact hframe x (hI.shape.blocks.payload_outside hp hpt hlo hhi)

/-- The pool is in its headers: a change of other bytes keeps the invariant. -/
theorem HeapInv.keeps (hI : HeapInv pool start trailer s L) {m : Memory}
    (h : ∀ p ∈ L, ∀ x, p ≤ x → x < p + 16 → m x = s.heap.mem x) :
    HeapKeeps pool start trailer s L { s with heap := { s.heap with mem := m } } L := by
  have hheader : ∀ p ∈ L, header m p = header s.heap.mem p := fun p hp => header_congr (h p hp)
  have hP := hI.shape
  refine ⟨⟨⟨hP.blocks.of_eq hheader, hP.available.trans (freeSum_of_eq hheader).symm, hP.search,
    hP.list, hP.size, hP.bound, hP.min⟩, ?_, fun f hf => ?_, hI.nodup⟩,
    fun hused x hx hxt hxu => ?_, rfl⟩
  · exact hI.coalesced.mono fun p hp hfree => by rwa [hheader p hp] at hfree
  · obtain ⟨p, hp, hpt, hpf, hpu, hroom⟩ := hI.live f hf
    exact ⟨p, hp, hpt, hpf, by rw [hheader p hp]; exact hpu, by rw [hheader p hp]; exact hroom⟩
  · rw [hheader x hx] at hxu
    exact hused x hx hxt hxu

/-- No byte of the payload that starts at `e.1` is in a header. -/
theorem HeapInv.payload_outside (hI : HeapInv pool start trailer s L) {e : ℕ × ℕ}
    (he : e ∈ s.live) {x : ℕ} (hlo : e.1 ≤ x) (hhi : x < e.1 + e.2) :
    ∀ p ∈ L, OutsideHeader p x := by
  obtain ⟨h, hh, hne, heq, -, hroom⟩ := hI.live e he
  exact hI.shape.blocks.payload_outside hh hne (by omega) (by omega)

/-- A write of an owner touches no header. -/
theorem HeapInv.write (hI : HeapInv pool start trailer s L) {address : ℕ} {data : UInt8}
    (howner : ∃ e ∈ s.live, e.1 ≤ address ∧ address < e.1 + e.2) :
    ∃ s' L', heapStep pool s (.write address data) = some s' ∧
      HeapKeeps pool start trailer s L s' L' := by
  have hallow : s.Allows (.write address data) := howner
  obtain ⟨e, he, hlo, hhi⟩ := howner
  have houtside := hI.payload_outside he hlo hhi
  refine ⟨_, L, by rw [heapStep, if_pos hallow], hI.keeps fun p hp x h1 h2 => store8_of_ne ?_⟩
  have := houtside p hp
  unfold OutsideHeader at this
  omega

/-- Every allowed operation that meets `GetFits` can be done and keeps the invariant. -/
theorem HeapInv.step (hI : HeapInv pool start trailer s L) {op : HeapOp} (hallow : s.Allows op)
    (hok : GetFits pool s op) :
    ∃ s' L', heapStep pool s op = some s' ∧ HeapKeeps pool start trailer s L s' L' ∧
      ((∀ a b, op ≠ .write a b) → KeepsPayloads s s') := by
  cases op with
  | get size =>
    obtain ⟨s', L', h, hnext, hkeep⟩ := hI.get hallow hok
    exact ⟨s', L', h, hnext, fun _ => hkeep⟩
  | free memory =>
    obtain ⟨s', L', h, hnext, hkeep⟩ := hI.free hallow
    exact ⟨s', L', h, hnext, fun _ => hkeep⟩
  | write address data =>
    obtain ⟨s', L', h, hnext⟩ := hI.write hallow
    exact ⟨s', L', h, hnext, fun hne => absurd rfl (hne address data)⟩

/-! ### The new pool -/

/-- The headers of a new pool: one free block, and the trailer. -/
theorem osCreateMemoryPool_holds (s : Heap) (name : List UInt8) {size : ℕ} (minAllocation : ℕ)
    (hpool : pool < 4294967296) (hsize : 32 ≤ size) (hbound : start + size ≤ 4294967296)
    (htrailer : trailer = start + size / 4 * 4 - 16) :
    Holds s.mem {p | p ∈ [start, trailer]}
      (osCreateMemoryPool s pool name start size minAllocation).1.mem
      (Function.update (Function.update (header s.mem) start ⟨trailer, trailer, true, pool⟩)
        trailer ⟨start, start, false, pool⟩) := by
  have hapart : Apart {p | p ∈ [start, trailer]} := by
    intro p hp q hq hpq
    change p ∈ [start, trailer] at hp
    change q ∈ [start, trailer] at hq
    simp only [List.mem_cons, List.not_mem_nil, or_false] at hp hq
    omega
  have hS : start ∈ {p | p ∈ [start, trailer]} := by simp
  have hT : trailer ∈ {p | p ∈ [start, trailer]} := by simp
  have hstart : start < 4294967296 := by omega
  have hend : trailer < 4294967296 := by omega
  have hnext : u32 ((start : ℤ) + (u32 ((size / 4 * 4 : ℕ) - 2 * dmOverhead) : ℕ) + dmOverhead)
      = trailer := by
    unfold u32 dmOverhead
    omega
  -- the free block
  set m := setNextMemory (setMemoryFree (setMemoryPool s.mem start pool) start true) start trailer
    with hm
  have hfirst : header m start
      = { header s.mem start with next := trailer, free := true, pool } := by
    rw [hm, header_setNextMemory _ _ hend, header_setMemoryFree, header_setMemoryPool _ _ hpool]
  have hnext₁ : dmNextMemory m start = trailer := congrArg Header.next hfirst
  have hfirst' : header (setPreviousMemory m start trailer) start
      = ⟨trailer, trailer, true, pool⟩ := by
    rw [header_setPreviousMemory _ _ hend, hfirst]
  have hnext₂ : dmNextMemory (setPreviousMemory m start trailer) start = trailer :=
    congrArg Header.next hfirst'
  have h := (Holds.refl s.mem _).write hapart hS hfirst' fun x hx => by
    rw [setPreviousMemory_outside hx, hm, setNextMemory_outside hx, setMemoryFree_outside hx,
      setMemoryPool_outside hx]
  -- the trailer
  simp only [osCreateMemoryPool, hnext, ← hm, hnext₁, hnext₂]
  refine h.write hapart hT ?_ fun x hx => ?_
  · rw [header_setMemoryFree, header_setMemoryPool _ _ hpool, header_setPreviousMemory _ _ hstart,
      header_setNextMemory _ _ hstart]
  · rw [setMemoryFree_outside hx, setMemoryPool_outside hx, setPreviousMemory_outside hx,
      setNextMemory_outside hx]

/-- The invariant holds of a new pool. -/
theorem heapInv_create (s : Heap) (name : List UInt8) {size minAllocation : ℕ}
    (hpool : pool < 4294967296) (halign : start % 4 = 0) (hsize : 32 + minAllocation ≤ size)
    (hbound : start + size ≤ 4294967296) :
    HeapInv pool start (start + size / 4 * 4 - 16)
      ⟨(osCreateMemoryPool s pool name start size minAllocation).1, []⟩
      [start, start + size / 4 * 4 - 16] := by
  set trailer := start + size / 4 * 4 - 16 with htrailer
  have hne : start ≠ trailer := by omega
  have h := osCreateMemoryPool_holds s name minAllocation hpool (by omega)
    hbound htrailer
  set r := (osCreateMemoryPool s pool name start size minAllocation).1 with hr
  have hpcb : r.pcb pool =
      { dmId := dmDynamicId
        dmName := name.take osDmemNameSize
        dmStartAddress := start
        dmPoolSize := size / 4 * 4
        dmMinAllocation := u32 ((u32 ((minAllocation : ℤ) + 4 - 1) / 4 * 4 : ℕ))
        dmAvailable := u32 ((size / 4 * 4 : ℕ) - 2 * dmOverhead)
        dmMemoryList := start
        dmSearchPtr := start } := Function.update_self ..
  -- the two headers name each other in both directions
  have hs : header r.mem start = ⟨trailer, trailer, true, pool⟩ := by
    rw [h.header start (by simp), Function.update_of_ne hne, Function.update_self]
  have ht : header r.mem trailer = ⟨start, start, false, pool⟩ := by
    rw [h.header trailer (by simp), Function.update_self]
  refine ⟨⟨⟨rfl, rfl, ?_, ?_, ?_, ?_, ?_⟩, ?_, ?_, ?_, ?_, ?_, ?_⟩, ?_, ?_, ?_⟩
  · simp; omega
  · simp only [List.mem_cons, List.not_mem_nil, or_false, forall_eq_or_imp, forall_eq]
    omega
  · rw [circular_cons]
    simp [Linked, hs, ht]
  · rw [ht]
  · simp [hs, ht]
  · rw [hpcb]
    simp only [freeSum, freeBytes, hs, ht, List.map_cons, List.map_nil, List.sum_cons,
      List.sum_nil, if_true, Bool.false_eq_true, if_false]
    unfold u32 dmOverhead
    omega
  · rw [hpcb]
    simp
  · rw [hpcb]
  · rw [hpcb]
    dsimp only
    omega
  · omega
  · rw [hpcb]
    dsimp only
    unfold u32
    omega
  · simp [Coalesced, ht]
  · intro e he
    cases he
  · exact List.nodup_nil

/-! ### Every run -/

/-- A live payload is a whole one: aligned, inside the pool and as long as asked for. -/
theorem HeapInv.payload (hI : HeapInv pool start trailer s L) {e : ℕ × ℕ} (he : e ∈ s.live) :
    e.1 % 4 = 0 ∧ start + 16 ≤ e.1 ∧ e.1 + e.2 ≤ payloadEnd s e ∧ payloadEnd s e ≤ trailer := by
  obtain ⟨h, hh, hne, heq, -, hroom⟩ := hI.live e he
  have halign := hI.shape.blocks.aligned h hh
  have hstart := hI.shape.blocks.start_le hh
  have hend := hI.shape.blocks.le_trailer (hI.shape.blocks.next_mem hh hne).1
  rw [LiveBlock.payloadEnd_eq heq]
  refine ⟨by omega, by omega, hroom, ?_⟩
  rcases hend with hend | hend <;> omega

/-- Different live payloads do not overlap. -/
theorem HeapInv.disjoint (hI : HeapInv pool start trailer s L) :
    s.live.Pairwise fun e f => payloadEnd s e ≤ f.1 ∨ payloadEnd s f ≤ e.1 := by
  have hne : s.live.Pairwise fun e f => e.1 ≠ f.1 := List.pairwise_map.mp hI.nodup
  refine hne.imp_of_mem fun {e f} he hf hef => ?_
  obtain ⟨h, hh, hht, heq, -⟩ := hI.live e he
  obtain ⟨k, hk, hkt, hkeq, -⟩ := hI.live f hf
  rw [LiveBlock.payloadEnd_eq heq, LiveBlock.payloadEnd_eq hkeq]
  have h₁ := hI.shape.blocks.le_or_next_le hh hht hk
  have h₂ := hI.shape.blocks.le_or_next_le hk hkt hh
  omega

/-- The heap with a new pool and nothing handed out. -/
def newPool (s : Heap) (pool : ℕ) (name : List UInt8) (start size minAllocation : ℕ) : HeapRun :=
  { heap := (osCreateMemoryPool s pool name start size minAllocation).1, live := [] }

/-- What a run from a new pool keeps: the invariant, every block in use live, and the minimum. -/
structure HeapGood (pool start trailer minAllocation : ℕ) (s : HeapRun) (L : List ℕ) : Prop where
  inv : HeapInv pool start trailer s L
  used_live : UsedLive trailer s L
  min : (s.heap.pcb pool).dmMinAllocation = minAllocation

theorem HeapGood.next {minAllocation : ℕ} (h : HeapGood pool start trailer minAllocation s L)
    {s' : HeapRun} {L' : List ℕ} (hnext : HeapKeeps pool start trailer s L s' L') :
    HeapGood pool start trailer minAllocation s' L' :=
  ⟨hnext.inv, hnext.used_live h.used_live, hnext.min.trans h.min⟩

/-- A possible operation is an allowed one. -/
theorem allows_of_step {s' : HeapRun} {op : HeapOp} (h : heapStep pool s op = some s') :
    s.Allows op := by
  by_contra hnot
  unfold heapStep at h
  rw [if_neg hnot] at h
  cases h

/-- **One operation** that meets `GetFits`. -/
theorem heapGood_step {minAllocation : ℕ} {s' : HeapRun} {op : HeapOp}
    (h : ∃ L, HeapGood pool start trailer minAllocation s L) (hfits : GetFits pool s op)
    (hstep : heapStep pool s op = some s') :
    ∃ L, HeapGood pool start trailer minAllocation s' L := by
  obtain ⟨L, hgood⟩ := h
  obtain ⟨t, L', ht, hnext, -⟩ := hgood.inv.step (allows_of_step hstep) hfits
  rw [ht, Option.some.injEq] at hstep
  exact ⟨L', hstep ▸ hgood.next hnext⟩

/-- `dm_min_allocation`, a multiple of the word size. -/
def roundMin (minAllocation : ℕ) : ℕ := u32 (u32 (minAllocation + 4 - 1) / 4 * 4)

theorem heapGood_create (s : Heap) (name : List UInt8) {size minAllocation : ℕ}
    (hpool : pool < 4294967296) (halign : start % 4 = 0) (hsize : 32 + minAllocation ≤ size)
    (hbound : start + size ≤ 4294967296) :
    HeapGood pool start (start + size / 4 * 4 - 16) (roundMin minAllocation)
      (newPool s pool name start size minAllocation) [start, start + size / 4 * 4 - 16] := by
  have hI := heapInv_create s name hpool halign hsize hbound
  refine ⟨hI, fun p hp hpt hpu => ?_, ?_⟩
  · -- The only block of a new pool is free.
    have hne : start ≠ start + size / 4 * 4 - 16 := by omega
    have hholds := osCreateMemoryPool_holds s name minAllocation hpool (by omega) hbound rfl
    have hstart : p = start := (List.mem_pair.mp hp).resolve_right hpt
    rw [newPool, hholds.header p hp, hstart, Function.update_of_ne hne, Function.update_self] at hpu
    cases hpu
  · simp only [newPool, osCreateMemoryPool, Function.update_self]
    rfl

/-- **The heap invariant.**  In every state reached from a new pool by operations that meet
    `GetFits`, the headers `L` tile the pool in address order as a circular doubly linked list
    with the trailer in use, no two neighbours are both free, the search pointer is a header
    and `dm_available` is the sum of the free payloads; the live payloads are aligned, inside
    the pool, as long as asked for and disjoint, and a call of the allocator, which always
    ends, does not write into them. -/
theorem heap_invariant (s₀ : Heap) (name : List UInt8) {pool start size minAllocation : ℕ}
    (hpool : pool < 4294967296) (halign : start % 4 = 0) (hsize : 32 + minAllocation ≤ size)
    (hbound : start + size ≤ 4294967296) {ops : List HeapOp} {s : HeapRun}
    (hok : Along (heapStep pool) (GetFits pool)
      (newPool s₀ pool name start size minAllocation) ops)
    (hrun : run (heapStep pool) (newPool s₀ pool name start size minAllocation) ops = some s) :
    (∃ L, HeapInv pool start (start + size / 4 * 4 - 16) s L ∧
      ∀ p ∈ L,
        (dmNextMemory s.heap.mem p ∈ L ∧
          dmPreviousMemory s.heap.mem (dmNextMemory s.heap.mem p) = p) ∧
        dmPreviousMemory s.heap.mem p ∈ L ∧
          dmNextMemory s.heap.mem (dmPreviousMemory s.heap.mem p) = p) ∧
    (∀ e ∈ s.live, e.1 % 4 = 0 ∧ start + 16 ≤ e.1 ∧ e.1 + e.2 ≤ payloadEnd s e ∧
      payloadEnd s e ≤ start + size / 4 * 4 - 16) ∧
    (s.live.Pairwise fun e f => payloadEnd s e ≤ f.1 ∨ payloadEnd s f ≤ e.1) ∧
    ∀ op, s.Allows op → GetFits pool s op →
      ∃ s', heapStep pool s op = some s' ∧ ((∀ a b, op ≠ .write a b) → KeepsPayloads s s') := by
  obtain ⟨L, hgood⟩ := run_invariant (fun _ _ _ => heapGood_step) ops _ s
    ⟨_, heapGood_create s₀ name hpool halign hsize hbound⟩ hok hrun
  have hI := hgood.inv
  refine ⟨⟨L, hI, fun p hp => hI.shape.blocks.links.inverse hp⟩, fun e he => hI.payload he,
    hI.disjoint, fun op hallow hfits => ?_⟩
  obtain ⟨s', -, hs', -, hkeep⟩ := hI.step hallow hfits
  exact ⟨s', hs', hkeep⟩

/-- A heap without a pool. -/
def emptyHeap : Heap :=
  { mem := fun _ => 0, pcb := fun _ => ⟨0, [], 0, 0, 0, 0, 0, 0⟩, dmdTotalPools := 0 }

/-- Some calls: freeing the second block merges it with the first. -/
def heapExample : List HeapOp :=
  [.get 40, .get 20, .write 0x2010 7, .free 0x2010, .get 9, .free 0x2048, .get 300]

theorem heap_invariant_example :
    (runEnd (heapStep 0x1000) (newPool emptyHeap 0x1000 [] 0x2000 256 16) heapExample).live
        = [(0x206c, 9)] ∧
      ∃ L, HeapInv 0x1000 0x2000 0x20f0
        (runEnd (heapStep 0x1000) (newPool emptyHeap 0x1000 [] 0x2000 256 16) heapExample) L := by
  have hok : Along (heapStep 0x1000) (GetFits 0x1000)
      (newPool emptyHeap 0x1000 [] 0x2000 256 16) heapExample := by decide +kernel
  have h := heap_invariant emptyHeap [] (by decide) (by decide) (by decide) (by decide) hok
    (run_eq_runEnd (by decide +kernel))
  obtain ⟨⟨L, hI, -⟩, -⟩ := h
  exact ⟨by decide +kernel, L, hI⟩

/-- A pool with `dm_min_allocation` 0: once the search pointer is at the trailer, a request
    of no bytes hands out the trailer, and freeing the pointer marks the trailer free. -/
theorem zero_request_takes_trailer :
    ∃ s, run (heapStep 0x1000) (newPool emptyHeap 0x1000 [] 0x2000 64 0)
        [.get 32, .get 0, .free 0x2040] = some s ∧ ∀ L, ¬ HeapInv 0x1000 0x2000 0x2030 s L := by
  refine ⟨_, run_eq_runEnd (by decide +kernel), fun L hI => ?_⟩
  have hfree : (header (runEnd (heapStep 0x1000) (newPool emptyHeap 0x1000 [] 0x2000 64 0)
      [.get 32, .get 0, .free 0x2040]).heap.mem 0x2030).free = true := by decide +kernel
  rw [hI.shape.blocks.trailer_used] at hfree
  cases hfree

end SerialNet
