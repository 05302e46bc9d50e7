import SerialNet.Heap.Blocks

namespace SerialNet

/-!
# A pool in memory

`PoolShape` connects the control block and the headers in memory with the block list; together
with `Coalesced` it is what every call of the allocator keeps.  `Leaves` is what an edit of the
list leaves alone: the blocks in use, and all bytes outside the headers.
-/

/-- The pool with control block `pcb` at address `pool` and headers `L` in memory `m`. -/
structure PoolShape (pool start trailer : ℕ) (m : Memory) (pcb : DmPcb) (L : List ℕ) : Prop where
  blocks : BlockList (header m) pool start trailer L
  available : pcb.dmAvailable = freeSum (header m) L
  search : pcb.dmSearchPtr ∈ L
  list : pcb.dmMemoryList = start
  size : start + pcb.dmPoolSize = trailer + 16
  bound : trailer + 16 ≤ 4294967296
  min : pcb.dmMinAllocation % 4 = 0

/-- From `m` and `L` to `m'` and `L'` the blocks in use stay, and only headers of `L` are
    written. -/
structure Leaves (trailer : ℕ) (m : Memory) (L : List ℕ) (m' : Memory) (L' : List ℕ) : Prop where
  used : ∀ p ∈ L, p ≠ trailer → (header m p).free = false →
    p ∈ L' ∧ (header m' p).free = false ∧ (header m' p).next = (header m p).next
  frame : ∀ x, (∀ p ∈ L, OutsideHeader p x) → m' x = m x
  subset : ∀ p ∈ L', p ∈ L

variable {pool start trailer : ℕ} {m m' m'' : Memory} {pcb : DmPcb} {L L' L'' : List ℕ}

/-- Without a call the pool is as it was. -/
theorem Leaves.refl (trailer : ℕ) (m : Memory) (L : List ℕ) : Leaves trailer m L m L :=
  ⟨fun _ hp _ hfree => ⟨hp, hfree, rfl⟩, fun _ _ => rfl, fun _ hp => hp⟩

/-- What two calls one after the other leave of the pool. -/
theorem Leaves.trans (h : Leaves trailer m L m' L') (h' : Leaves trailer m' L' m'' L'') :
    Leaves trailer m L m'' L'' := by
  refine ⟨fun p hp hne hfree => ?_, fun x hx => ?_, fun p hp => h.subset p (h'.subset p hp)⟩
  · obtain ⟨hp', hfree', hnext⟩ := h.used p hp hne hfree
    obtain ⟨hp'', hfree'', hnext'⟩ := h'.used p hp' hne hfree'
    exact ⟨hp'', hfree'', hnext'.trans hnext⟩
  · rw [h'.frame x (fun p hp => hx p (h.subset p hp)), h.frame x hx]

/-- Every header is an address of the pool. -/
theorem PoolShape.lt (h : PoolShape pool start trailer m pcb L) {p : ℕ} (hp : p ∈ L) :
    p + 16 ≤ 4294967296 := by
  have := h.bound
  have := h.blocks.le_trailer hp
  omega

/-- The payload of a block lies outside all headers. -/
theorem BlockList.payload_outside {hd : ℕ → Header} (h : BlockList hd pool start trailer L)
    {p x : ℕ} (hp : p ∈ L) (hne : p ≠ trailer) (hlo : p + 16 ≤ x) (hhi : x < (hd p).next) :
    ∀ q ∈ L, OutsideHeader q x := by
  intro q hq
  have := h.le_or_next_le hp hne hq
  unfold OutsideHeader
  by_cases hqp : q = p
  · omega
  · have := h.apart q hq p hp hqp
    omega

end SerialNet
