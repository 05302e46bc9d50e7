import Mathlib.Data.Nat.Basic

namespace SerialNet

/-!
# Words in byte-addressed memory

The Cortex-M3 is little-endian: a 32-bit load takes the byte at the lowest address as the
least significant one.  Memory is a function from addresses to bytes; `load32` reads a
word, `store8` and `store32` write, and the lemmas are the read-over-write laws.
-/

/-- Byte-addressed memory. -/
abbrev Memory := ℕ → UInt8

/-- The four bytes of a 32-bit value, least significant first. -/
def wordBytes (x : ℕ) : List UInt8 :=
  [UInt8.ofNat x, UInt8.ofNat (x / 256), UInt8.ofNat (x / 65536), UInt8.ofNat (x / 16777216)]

/-- The two bytes of a 16-bit value, least significant first. -/
def halfBytes (x : ℕ) : List UInt8 := [UInt8.ofNat x, UInt8.ofNat (x / 256)]

/-- A 32-bit load. -/
def load32 (m : Memory) (p : ℕ) : ℕ :=
  (m p).toNat + 256 * (m (p + 1)).toNat + 65536 * (m (p + 2)).toNat
    + 16777216 * (m (p + 3)).toNat

/-- A 16-bit load. -/
def load16 (m : Memory) (p : ℕ) : ℕ := (m p).toNat + 256 * (m (p + 1)).toNat

/-- An 8-bit store. -/
def store8 (m : Memory) (p : ℕ) (b : UInt8) : Memory := fun q => if q = p then b else m q

/-- A 32-bit store. -/
def store32 (m : Memory) (p : ℕ) (x : ℕ) : Memory := fun q =>
  if q = p then UInt8.ofNat x
  else if q = p + 1 then UInt8.ofNat (x / 256)
  else if q = p + 2 then UInt8.ofNat (x / 65536)
  else if q = p + 3 then UInt8.ofNat (x / 16777216)
  else m q

/-- Copy a block of bytes to address `p`. -/
def storeBytes (m : Memory) (p : ℕ) (xs : List UInt8) : Memory := fun q =>
  if p ≤ q then (xs[q - p]?).getD (m q) else m q

/-- A 16-bit store. -/
def store16 (m : Memory) (p x : ℕ) : Memory := storeBytes m p (halfBytes x)

/-- `memset`. -/
def memset (m : Memory) (p : ℕ) (c : UInt8) (n : ℕ) : Memory := storeBytes m p (List.replicate n c)

/-- Read `n` bytes from address `p` on. -/
def loadBytes (m : Memory) (p n : ℕ) : List UInt8 := (List.range n).map fun i => m (p + i)

/-- A word has 32 bits. -/
theorem load32_lt (m : Memory) (p : ℕ) : load32 m p < 4294967296 := by
  have h0 := (m p).toNat_lt
  have h1 := (m (p + 1)).toNat_lt
  have h2 := (m (p + 2)).toNat_lt
  have h3 := (m (p + 3)).toNat_lt
  unfold load32; omega

/-- A stored byte is read back. -/
@[simp] theorem store8_self (m : Memory) (p : ℕ) (b : UInt8) : store8 m p b p = b := if_pos rfl

/-- A store changes one byte only. -/
theorem store8_of_ne {m : Memory} {p q : ℕ} {b : UInt8} (h : q ≠ p) : store8 m p b q = m q :=
  if_neg h

/-- A store of what is there. -/
theorem store8_eq_self {m : Memory} {p : ℕ} {b : UInt8} (h : m p = b) : store8 m p b = m := by
  funext q
  by_cases hq : q = p
  · rw [hq, store8_self, h]
  · exact store8_of_ne hq

/-- A load returns the word just stored at its address. -/
theorem load32_store32_self (m : Memory) (p : ℕ) {x : ℕ} (h : x < 4294967296) :
    load32 (store32 m p x) p = x := by
  simp only [load32, store32]
  simp
  omega

/-- Bytes outside the stored word are unchanged. -/
theorem store32_of_outside {m : Memory} {p q x : ℕ} (h : q < p ∨ p + 4 ≤ q) :
    store32 m p x q = m q := by
  unfold store32
  rw [if_neg (by omega), if_neg (by omega), if_neg (by omega), if_neg (by omega)]

/-- A word depends on its four bytes. -/
theorem load32_congr {m m' : Memory} {p : ℕ} (h : ∀ q, p ≤ q → q < p + 4 → m' q = m q) :
    load32 m' p = load32 m p := by
  unfold load32
  rw [h p (by omega) (by omega), h (p + 1) (by omega) (by omega), h (p + 2) (by omega) (by omega),
    h (p + 3) (by omega) (by omega)]

/-- Words that do not overlap the stored word are unchanged. -/
theorem load32_store32_of_disjoint {m : Memory} {p q x : ℕ} (h : q + 4 ≤ p ∨ p + 4 ≤ q) :
    load32 (store32 m p x) q = load32 m q :=
  load32_congr fun _ _ _ => store32_of_outside (by omega)

/-- A byte store outside a word leaves the word unchanged. -/
theorem load32_store8_of_outside {m : Memory} {p q : ℕ} {b : UInt8} (h : p < q ∨ q + 4 ≤ p) :
    load32 (store8 m p b) q = load32 m q :=
  load32_congr fun _ _ _ => store8_of_ne (by omega)

/-! ### Blocks of bytes -/

/-- As many bytes are loaded as are asked for. -/
@[simp] theorem length_loadBytes (m : Memory) (p n : ℕ) : (loadBytes m p n).length = n := by
  simp [loadBytes]

/-- The bytes are those of the memory, in order. -/
@[simp] theorem getElem_loadBytes (m : Memory) {p n i : ℕ} (h : i < (loadBytes m p n).length) :
    (loadBytes m p n)[i] = m (p + i) := by
  simp [loadBytes]

/-- The bytes are those of the memory, in order. -/
theorem getElem?_loadBytes (m : Memory) (p : ℕ) {n i : ℕ} (h : i < n) :
    (loadBytes m p n)[i]? = some (m (p + i)) := by
  rw [List.getElem?_eq_getElem (by rw [length_loadBytes]; exact h), getElem_loadBytes]

/-- Two reads in a row are one. -/
theorem loadBytes_add (m : Memory) (p n k : ℕ) :
    loadBytes m p (n + k) = loadBytes m p n ++ loadBytes m (p + n) k := by
  simp [loadBytes, List.range_add, Function.comp_def, Nat.add_assoc]

/-- The first bytes of a read. -/
theorem take_loadBytes (m : Memory) (p : ℕ) {n k : ℕ} (h : k ≤ n) :
    (loadBytes m p n).take k = loadBytes m p k := by
  obtain ⟨d, rfl⟩ := Nat.exists_eq_add_of_le h
  rw [loadBytes_add, List.take_left' (length_loadBytes m p k)]

/-- A block depends on its bytes. -/
theorem loadBytes_congr {m m' : Memory} {p n : ℕ} (h : ∀ x, p ≤ x → x < p + n → m' x = m x) :
    loadBytes m' p n = loadBytes m p n := by
  refine List.map_congr_left fun i hi => h (p + i) (by omega) ?_
  have := List.mem_range.mp hi
  omega

/-- A byte inside the copied block. -/
theorem storeBytes_inside (m : Memory) (p : ℕ) {xs : List UInt8} {i : ℕ} (h : i < xs.length) :
    storeBytes m p xs (p + i) = xs[i] := by
  simp [storeBytes, h]

/-- Inside the copied block the old contents do not matter. -/
theorem storeBytes_congr (m m' : Memory) {p i : ℕ} {xs : List UInt8} (hp : p ≤ i)
    (h : i < p + xs.length) : storeBytes m p xs i = storeBytes m' p xs i := by
  obtain ⟨k, rfl⟩ := Nat.exists_eq_add_of_le hp
  rw [storeBytes_inside m p (by omega), storeBytes_inside m' p (by omega)]

/-- A byte outside the copied block. -/
theorem storeBytes_outside (m : Memory) {p q : ℕ} {xs : List UInt8}
    (h : q < p ∨ p + xs.length ≤ q) : storeBytes m p xs q = m q := by
  unfold storeBytes
  split
  · rw [List.getElem?_eq_none (by omega)]
    rfl
  · rfl

/-- The bytes of the block are set. -/
theorem memset_inside (m : Memory) {p q n : ℕ} (c : UInt8) (hlo : p ≤ q) (hhi : q < p + n) :
    memset m p c n q = c := by
  obtain ⟨i, rfl⟩ := Nat.exists_eq_add_of_le hlo
  rw [memset, storeBytes_inside m p (by rw [List.length_replicate]; omega), List.getElem_replicate]

/-- The bytes outside of the block are not changed. -/
theorem memset_outside (m : Memory) {p q n : ℕ} (c : UInt8) (h : q < p ∨ p + n ≤ q) :
    memset m p c n q = m q :=
  storeBytes_outside m (by rwa [List.length_replicate])

/-- Memory that has `xs` at `p` and is otherwise as `m`. -/
theorem eq_storeBytes {m m' : Memory} {p : ℕ} {xs : List UInt8}
    (hin : ∀ i, ∀ h : i < xs.length, m' (p + i) = xs[i])
    (hout : ∀ q, q < p ∨ p + xs.length ≤ q → m' q = m q) : m' = storeBytes m p xs := by
  funext q
  by_cases hq : q < p ∨ p + xs.length ≤ q
  · rw [hout q hq, storeBytes_outside m hq]
  · obtain ⟨i, rfl⟩ := Nat.exists_eq_add_of_le (show p ≤ q by omega)
    rw [hin i (by omega), storeBytes_inside m p (by omega)]

/-- Two copies in a row are one. -/
theorem storeBytes_append (m : Memory) (p : ℕ) (xs ys : List UInt8) :
    storeBytes (storeBytes m p xs) (p + xs.length) ys = storeBytes m p (xs ++ ys) := by
  refine eq_storeBytes (fun i hi => ?_) (fun q hq => ?_)
  · rw [List.length_append] at hi
    by_cases hx : i < xs.length
    · rw [storeBytes_outside _ (by omega), storeBytes_inside m p hx, List.getElem_append_left hx]
    · obtain ⟨j, rfl⟩ := Nat.exists_eq_add_of_le (not_lt.mp hx)
      rw [← Nat.add_assoc, storeBytes_inside _ _ (by omega)]
      simp
  · rw [List.length_append] at hq
    rw [storeBytes_outside _ (by omega), storeBytes_outside _ (by omega)]

/-- The copied block is read back. -/
theorem loadBytes_storeBytes (m : Memory) (p : ℕ) (xs : List UInt8) :
    loadBytes (storeBytes m p xs) p xs.length = xs := by
  apply List.ext_getElem (by simp)
  intro i h1 h2
  rw [getElem_loadBytes, storeBytes_inside m p h2]

/-- A block elsewhere is not changed. -/
theorem loadBytes_storeBytes_disjoint (m : Memory) {p q n : ℕ} {xs : List UInt8}
    (h : q + n ≤ p ∨ p + xs.length ≤ q) : loadBytes (storeBytes m p xs) q n = loadBytes m q n :=
  loadBytes_congr fun _ _ _ => storeBytes_outside m (by omega)

/-- A copy right behind a block extends it. -/
theorem loadBytes_storeBytes_append (m : Memory) (p n : ℕ) (xs : List UInt8) :
    loadBytes (storeBytes m (p + n) xs) p (n + xs.length) = loadBytes m p n ++ xs := by
  rw [loadBytes_add, loadBytes_storeBytes, loadBytes_storeBytes_disjoint m (Or.inl (Nat.le_refl _))]

/-- A byte store is a copy of one byte. -/
theorem store8_eq_storeBytes (m : Memory) (p : ℕ) (b : UInt8) :
    store8 m p b = storeBytes m p [b] := by
  refine eq_storeBytes (fun i hi => ?_) (fun q hq => ?_)
  · obtain rfl : i = 0 := by simpa using hi
    exact store8_self m p b
  · exact store8_of_ne (by simp at hq; omega)

/-- A word store is a copy of the four bytes of the word. -/
theorem store32_eq_storeBytes (m : Memory) (p x : ℕ) :
    store32 m p x = storeBytes m p (wordBytes x) := by
  refine eq_storeBytes (fun i hi => ?_) (fun q hq => store32_of_outside hq)
  have hcases : i = 0 ∨ i = 1 ∨ i = 2 ∨ i = 3 := by
    have : i < 4 := hi
    omega
  obtain rfl | rfl | rfl | rfl := hcases <;> simp [store32, wordBytes]

/-- A word in memory order is what lies in memory. -/
theorem wordBytes_load32 (m : Memory) (p : ℕ) : wordBytes (load32 m p) = loadBytes m p 4 := by
  have h0 := (m p).toNat_lt
  have h1 := (m (p + 1)).toNat_lt
  have h2 := (m (p + 2)).toNat_lt
  have h3 := (m (p + 3)).toNat_lt
  have hbyte : ∀ {x : ℕ} {b : UInt8}, x % 256 = b.toNat → UInt8.ofNat x = b := fun h =>
    UInt8.toNat.inj (UInt8.toNat_ofNat'.trans h)
  unfold wordBytes load32
  rw [hbyte (b := m p) (by omega), hbyte (b := m (p + 1)) (by omega),
    hbyte (b := m (p + 2)) (by omega), hbyte (b := m (p + 3)) (by omega)]
  rfl

/-! ### Copies -/

/-- Copy `n` bytes from `src` to `dst`: every byte is read before the first is written. -/
def copyBytes (m : Memory) (dst src n : ℕ) : Memory := storeBytes m dst (loadBytes m src n)

/-- No byte is copied. -/
@[simp] theorem copyBytes_zero (m : Memory) (dst src : ℕ) : copyBytes m dst src 0 = m := by
  symm
  apply eq_storeBytes
  · intro i hi
    exact absurd hi (Nat.not_lt_zero i)
  · intros
    rfl

/-- The bytes outside of the target are not changed. -/
theorem copyBytes_outside (m : Memory) {dst src n q : ℕ} (h : q < dst ∨ dst + n ≤ q) :
    copyBytes m dst src n q = m q :=
  storeBytes_outside m (by rwa [length_loadBytes])

/-- A copy at an address that both memories agree on, from a source that they agree on. -/
theorem copyBytes_congr {m m' : Memory} {dst src n q : ℕ}
    (hsrc : ∀ x, src ≤ x → x < src + n → m' x = m x) (hq : m' q = m q) :
    copyBytes m' dst src n q = copyBytes m dst src n q := by
  unfold copyBytes
  rw [loadBytes_congr hsrc]
  by_cases hout : q < dst ∨ dst + (loadBytes m src n).length ≤ q
  · rw [storeBytes_outside m' hout, storeBytes_outside m hout, hq]
  · exact storeBytes_congr m' m (by omega) (by omega)

/-- A copy made from the front, in two parts: the second reads what the first has left of the
    source, which is all that it needs when the target is not inside the source. -/
theorem copyBytes_copyBytes (m : Memory) {dst src k n : ℕ}
    (h : dst ≤ src ∨ src + (k + n) ≤ dst) :
    copyBytes (copyBytes m dst src k) (dst + k) (src + k) n = copyBytes m dst src (k + n) := by
  have hsource : loadBytes (copyBytes m dst src k) (src + k) n = loadBytes m (src + k) n :=
    loadBytes_congr fun x _ _ => copyBytes_outside m (by omega)
  have happend := storeBytes_append m dst (loadBytes m src k) (loadBytes m (src + k) n)
  rw [length_loadBytes] at happend
  unfold copyBytes at hsource ⊢
  rw [hsource, happend, loadBytes_add]

/-- One byte more, from the source as it was. -/
theorem store8_copyBytes (m : Memory) (dst src n : ℕ) :
    store8 (copyBytes m dst src n) (dst + n) (m (src + n)) = copyBytes m dst src (n + 1) := by
  have happend := storeBytes_append m dst (loadBytes m src n) [m (src + n)]
  rw [length_loadBytes] at happend
  rw [store8_eq_storeBytes, copyBytes, happend, copyBytes, loadBytes_add]
  rfl

/-- One byte. -/
theorem store8_eq_copyBytes (m : Memory) (dst src : ℕ) :
    store8 m dst (m src) = copyBytes m dst src 1 :=
  store8_eq_storeBytes m dst (m src)

/-- One half-word. -/
theorem store16_eq_copyBytes (m : Memory) (dst src : ℕ) :
    store16 m dst (load16 m src) = copyBytes m dst src 2 := by
  have h0 := (m src).toNat_lt
  have h1 := (m (src + 1)).toNat_lt
  have hbyte : ∀ {x : ℕ} {b : UInt8}, x % 256 = b.toNat → UInt8.ofNat x = b := fun h =>
    UInt8.toNat.inj (UInt8.toNat_ofNat'.trans h)
  unfold store16 copyBytes halfBytes load16
  rw [hbyte (b := m src) (by omega), hbyte (b := m (src + 1)) (by omega)]
  rfl

/-- One word. -/
theorem store32_eq_copyBytes (m : Memory) (dst src : ℕ) :
    store32 m dst (load32 m src) = copyBytes m dst src 4 := by
  rw [store32_eq_storeBytes, wordBytes_load32, copyBytes]

end SerialNet
