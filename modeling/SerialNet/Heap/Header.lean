import SerialNet.Heap.Dmem

namespace SerialNet

/-!
# Block headers in memory

A `Header` is the content of a `DM_HEADER`, `header m p` what memory `m` has at `p`.  The
allocator touches memory through the four setters only, so its effect is followed on the map
of headers: `Holds m₀ S m hd` says that the headers at the addresses `S` read as `hd` and
that every byte outside them is as in `m₀`.  Each setter is one `Function.update` of `hd`.
-/

/-- The content of a `DM_HEADER`. -/
structure Header where
  next : ℕ
  prev : ℕ
  free : Bool
  pool : ℕ
deriving DecidableEq, Repr

/-- The header at address `p`. -/
def header (m : Memory) (p : ℕ) : Header :=
  ⟨dmNextMemory m p, dmPreviousMemory m p, dmMemoryFree m p, dmMemoryPool m p⟩

/-- The address `x` is outside the header at `p`. -/
def OutsideHeader (p x : ℕ) : Prop := x < p ∨ p + 16 ≤ x

/-- The headers at two different addresses of `S` do not overlap. -/
def Apart (S : Set ℕ) : Prop := ∀ p ∈ S, ∀ q ∈ S, p ≠ q → p + 16 ≤ q ∨ q + 16 ≤ p

/-- A header is read from its sixteen bytes. -/
theorem header_congr {m m' : Memory} {p : ℕ} (h : ∀ x, p ≤ x → x < p + 16 → m' x = m x) :
    header m' p = header m p := by
  have hbyte : ∀ k, k < 16 → m' (p + k) = m (p + k) := fun k hk =>
    h (p + k) (by omega) (by omega)
  have hload : ∀ k, k + 3 < 16 → load32 m' (p + k) = load32 m (p + k) := fun k hk => by
    unfold load32
    rw [hbyte k (by omega), Nat.add_assoc p k 1, Nat.add_assoc p k 2, Nat.add_assoc p k 3,
      hbyte (k + 1) (by omega), hbyte (k + 2) (by omega), hbyte (k + 3) (by omega)]
  unfold header dmNextMemory dmPreviousMemory dmMemoryFree dmMemoryPool
  rw [← Nat.add_zero p, hload 0 (by omega), Nat.add_zero, hload 4 (by omega), hbyte 8 (by omega),
    hload 12 (by omega)]

/-! ### The setters -/

/-- A store to the first field changes no byte outside the header. -/
theorem setNextMemory_outside {m : Memory} {p x q : ℕ} (h : OutsideHeader p q) :
    setNextMemory m p x q = m q :=
  store32_of_outside (by unfold OutsideHeader at h; omega)

/-- A store to the second field changes no byte outside the header. -/
theorem setPreviousMemory_outside {m : Memory} {p x q : ℕ} (h : OutsideHeader p q) :
    setPreviousMemory m p x q = m q :=
  store32_of_outside (by unfold OutsideHeader at h; omega)

/-- A store to the third field changes no byte outside the header. -/
theorem setMemoryFree_outside {m : Memory} {p q : ℕ} {b : Bool} (h : OutsideHeader p q) :
    setMemoryFree m p b q = m q :=
  store8_of_ne (by unfold OutsideHeader at h; omega)

/-- A store to the fourth field changes no byte outside the header. -/
theorem setMemoryPool_outside {m : Memory} {p x q : ℕ} (h : OutsideHeader p q) :
    setMemoryPool m p x q = m q :=
  store32_of_outside (by unfold OutsideHeader at h; omega)

/-- A stored link is read back, and the other fields keep their value. -/
theorem header_setNextMemory (m : Memory) (p : ℕ) {x : ℕ} (h : x < 4294967296) :
    header (setNextMemory m p x) p = { header m p with next := x } := by
  have h8 : store32 m p x (p + 8) = m (p + 8) := store32_of_outside (by omega)
  simp only [header, setNextMemory, dmNextMemory, dmPreviousMemory, dmMemoryFree, dmMemoryPool,
    load32_store32_self m p h, h8]
  rw [load32_store32_of_disjoint (by omega), load32_store32_of_disjoint (by omega)]

/-- A stored back link is read back, and the other fields keep their value. -/
theorem header_setPreviousMemory (m : Memory) (p : ℕ) {x : ℕ} (h : x < 4294967296) :
    header (setPreviousMemory m p x) p = { header m p with prev := x } := by
  have h8 : store32 m (p + 4) x (p + 8) = m (p + 8) := store32_of_outside (by omega)
  simp only [header, setPreviousMemory, dmNextMemory, dmPreviousMemory, dmMemoryFree,
    dmMemoryPool, load32_store32_self m (p + 4) h, h8]
  rw [load32_store32_of_disjoint (by omega), load32_store32_of_disjoint (by omega)]

/-- A stored pool is read back, and the other fields keep their value. -/
theorem header_setMemoryPool (m : Memory) (p : ℕ) {x : ℕ} (h : x < 4294967296) :
    header (setMemoryPool m p x) p = { header m p with pool := x } := by
  have h8 : store32 m (p + 12) x (p + 8) = m (p + 8) := store32_of_outside (by omega)
  simp only [header, setMemoryPool, dmNextMemory, dmPreviousMemory, dmMemoryFree, dmMemoryPool,
    load32_store32_self m (p + 12) h, h8]
  rw [load32_store32_of_disjoint (by omega), load32_store32_of_disjoint (by omega)]

/-- A stored mark is read back, and the other fields keep their value. -/
theorem header_setMemoryFree (m : Memory) (p : ℕ) (b : Bool) :
    header (setMemoryFree m p b) p = { header m p with free := b } := by
  simp only [header, setMemoryFree, dmNextMemory, dmPreviousMemory, dmMemoryFree, dmMemoryPool,
    store8_self]
  rw [load32_store8_of_outside (by omega), load32_store8_of_outside (by omega),
    load32_store8_of_outside (by omega)]
  cases b <;> rfl

/-! ### Following the map of headers -/

/-- The headers at `S` read as `hd`, and all other bytes are as in `m₀`. -/
structure Holds (m₀ : Memory) (S : Set ℕ) (m : Memory) (hd : ℕ → Header) : Prop where
  header : ∀ p ∈ S, header m p = hd p
  frame : ∀ x, (∀ p ∈ S, OutsideHeader p x) → m x = m₀ x

section

variable {m₀ m m' : Memory} {S : Set ℕ} {hd : ℕ → Header} {p x : ℕ}

/-- Memory holds the headers that are read from it. -/
theorem Holds.refl (m : Memory) (S : Set ℕ) : Holds m S m (SerialNet.header m) :=
  ⟨fun _ _ => rfl, fun _ _ => rfl⟩

/-- The code reads the link of a block as the record has it. -/
theorem Holds.next (h : Holds m₀ S m hd) (hp : p ∈ S) : dmNextMemory m p = (hd p).next := by
  rw [← h.header p hp]; rfl

/-- The code reads the back link of a block as the record has it. -/
theorem Holds.prev (h : Holds m₀ S m hd) (hp : p ∈ S) : dmPreviousMemory m p = (hd p).prev := by
  rw [← h.header p hp]; rfl

/-- The code reads the mark of a block as the record has it. -/
theorem Holds.free (h : Holds m₀ S m hd) (hp : p ∈ S) : dmMemoryFree m p = (hd p).free := by
  rw [← h.header p hp]; rfl

/-- A write inside the header at `p` updates the map there. -/
theorem Holds.write (h : Holds m₀ S m hd) (hS : Apart S) (hp : p ∈ S) {new : Header}
    (hself : SerialNet.header m' p = new) (hout : ∀ x, OutsideHeader p x → m' x = m x) :
    Holds m₀ S m' (Function.update hd p new) := by
  refine ⟨fun q hq => ?_, fun x hx => ?_⟩
  · by_cases hqp : q = p
    · rw [hqp, Function.update_self, hself]
    · rw [Function.update_of_ne hqp, ← h.header q hq]
      refine header_congr (fun x h1 h2 => hout x ?_)
      have := hS p hp q hq (Ne.symm hqp)
      unfold OutsideHeader
      omega
  · rw [hout x (hx p hp), h.frame x hx]

/-- After a store to the link of a block, memory holds the records with this link; the other headers
    lie apart. -/
theorem Holds.setNext (h : Holds m₀ S m hd) (hS : Apart S) (hp : p ∈ S) (hx : x < 4294967296) :
    Holds m₀ S (setNextMemory m p x) (Function.update hd p { hd p with next := x }) :=
  h.write hS hp (by rw [header_setNextMemory m p hx, h.header p hp])
    (fun _ => setNextMemory_outside)

/-- After a store to the back link of a block, memory holds the records with it. -/
theorem Holds.setPrevious (h : Holds m₀ S m hd) (hS : Apart S) (hp : p ∈ S)
    (hx : x < 4294967296) :
    Holds m₀ S (setPreviousMemory m p x) (Function.update hd p { hd p with prev := x }) :=
  h.write hS hp (by rw [header_setPreviousMemory m p hx, h.header p hp])
    (fun _ => setPreviousMemory_outside)

/-- After a store to the pool of a block, memory holds the records with it. -/
theorem Holds.setPool (h : Holds m₀ S m hd) (hS : Apart S) (hp : p ∈ S) (hx : x < 4294967296) :
    Holds m₀ S (setMemoryPool m p x) (Function.update hd p { hd p with pool := x }) :=
  h.write hS hp (by rw [header_setMemoryPool m p hx, h.header p hp])
    (fun _ => setMemoryPool_outside)

/-- After a store to the mark of a block, memory holds the records with it. -/
theorem Holds.setFree (h : Holds m₀ S m hd) (hS : Apart S) (hp : p ∈ S) (b : Bool) :
    Holds m₀ S (setMemoryFree m p b) (Function.update hd p { hd p with free := b }) :=
  h.write hS hp (by rw [header_setMemoryFree m p b, h.header p hp])
    (fun _ => setMemoryFree_outside)

end

end SerialNet
