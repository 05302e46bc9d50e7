import Mathlib.Data.List.TakeWhile
import SerialNet.Lib.Bytes

namespace SerialNet

/-!
# Byte strings in memory

`BytesAt m p xs` says that the bytes `xs` lie at address `p`; it splits at `cons` and `++`
and survives stores elsewhere.  `cString m n p` reads a NUL-terminated string at `p` that
must end within `n` bytes.
-/

/-- The bytes `xs` lie in memory from address `p` on. -/
def BytesAt (m : Memory) : ℕ → List UInt8 → Prop
  | _, [] => True
  | p, x :: xs => m p = x ∧ BytesAt m (p + 1) xs

/-- The C string at `p`, if its NUL is among the next `n` bytes. -/
def cString (m : Memory) : ℕ → ℕ → Option (List UInt8)
  | 0, _ => none
  | n + 1, p => if m p = 0 then some [] else (cString m n (p + 1)).map (m p :: ·)

/-- The bytes of an ASCII string. -/
def ascii (s : String) : List UInt8 := s.toList.map fun c => .ofNat c.toNat

/-- `toupper` in the C locale. -/
def toupper (c : UInt8) : UInt8 := if 97 ≤ c ∧ c ≤ 122 then c - 32 else c

/-- No byte lies anywhere. -/
@[simp] theorem bytesAt_nil (m : Memory) (p : ℕ) : BytesAt m p [] := trivial

/-- The first byte lies at the address, the others behind it. -/
@[simp] theorem bytesAt_cons {m : Memory} {p : ℕ} {x : UInt8} {xs : List UInt8} :
    BytesAt m p (x :: xs) ↔ m p = x ∧ BytesAt m (p + 1) xs := Iff.rfl

/-- The second part lies behind the first. -/
theorem bytesAt_append {m : Memory} {p : ℕ} {xs ys : List UInt8} :
    BytesAt m p (xs ++ ys) ↔ BytesAt m p xs ∧ BytesAt m (p + xs.length) ys := by
  induction xs generalizing p with
  | nil => simp
  | cons x xs ih =>
    rw [List.cons_append, bytesAt_cons, bytesAt_cons, ih, and_assoc, List.length_cons,
      Nat.add_assoc, Nat.add_comm 1]

/-- Bytes lie in memory when each of them does. -/
theorem bytesAt_of_getElem {m : Memory} {p : ℕ} {xs : List UInt8}
    (h : ∀ i, ∀ hi : i < xs.length, m (p + i) = xs[i]) : BytesAt m p xs := by
  induction xs generalizing p with
  | nil => trivial
  | cons x xs ih =>
    refine ⟨h 0 (Nat.succ_pos _), ih fun i hi => ?_⟩
    rw [Nat.add_assoc, Nat.add_comm 1]
    exact h (i + 1) (Nat.succ_lt_succ hi)

/-- Each of the bytes lies at its place. -/
theorem BytesAt.getElem? {m : Memory} {p i : ℕ} {xs : List UInt8} {x : UInt8}
    (h : BytesAt m p xs) (hx : xs[i]? = some x) : m (p + i) = x := by
  induction xs generalizing p i with
  | nil => cases hx
  | cons y xs ih =>
    cases i with
    | zero => exact h.1.trans (Option.some.inj hx)
    | succ i =>
      rw [Nat.add_comm i, ← Nat.add_assoc]
      exact ih h.2 hx

/-- Stored bytes lie in memory. -/
theorem bytesAt_storeBytes (m : Memory) (p : ℕ) (xs : List UInt8) :
    BytesAt (storeBytes m p xs) p xs := bytesAt_of_getElem fun _ hi => storeBytes_inside m p hi

/-- Bytes that lie at an address are what is loaded there. -/
theorem loadBytes_of_bytesAt {m : Memory} {p : ℕ} {xs : List UInt8} (h : BytesAt m p xs) :
    loadBytes m p xs.length = xs := by
  induction xs generalizing p with
  | nil => rfl
  | cons x xs ih =>
    rw [List.length_cons, Nat.add_comm, loadBytes_add, ih h.2]
    exact congrArg (· :: xs) h.1

/-- A string depends only on the bytes it covers. -/
theorem BytesAt.congr {m m' : Memory} {p : ℕ} {xs : List UInt8} (h : BytesAt m p xs)
    (hm : ∀ q, p ≤ q → q < p + xs.length → m' q = m q) : BytesAt m' p xs := by
  induction xs generalizing p with
  | nil => trivial
  | cons x xs ih =>
    rw [List.length_cons] at hm
    exact ⟨(hm p (by omega) (by omega)).trans h.1,
      ih h.2 fun q h1 h2 => hm q (by omega) (by omega)⟩

/-- A store elsewhere leaves the bytes where they are. -/
theorem BytesAt.store8 {m : Memory} {p q : ℕ} {b : UInt8} {xs : List UInt8} (h : BytesAt m p xs)
    (hq : q < p ∨ p + xs.length ≤ q) : BytesAt (store8 m q b) p xs :=
  h.congr fun r h1 h2 => store8_of_ne (by omega)

/-- Overwriting one byte of a string. -/
theorem BytesAt.set {m : Memory} {p : ℕ} {xs ys : List UInt8} {x : UInt8} (y : UInt8)
    (h : BytesAt m p (xs ++ x :: ys)) :
    BytesAt (SerialNet.store8 m (p + xs.length) y) p (xs ++ y :: ys) := by
  obtain ⟨h1, h2⟩ := bytesAt_append.1 h
  refine bytesAt_append.2 ⟨h1.store8 (by omega), store8_self _ _ _, h2.2.store8 (by omega)⟩

/-- A word is loaded where its bytes lie. -/
theorem BytesAt.load32 {m : Memory} {p x : ℕ} (h : BytesAt m p (wordBytes x))
    (hx : x < 4294967296) : load32 m p = x := by
  obtain ⟨h0, h1, h2, h3, -⟩ := h
  rw [SerialNet.load32, h0, h1, h2, h3]
  simp only [UInt8.toNat_ofNat']
  omega

/-- The string read back is the one that lies there. -/
theorem cString_of_bytesAt {m : Memory} {n p : ℕ} {xs : List UInt8}
    (h : BytesAt m p (xs ++ [0])) (hnul : 0 ∉ xs) (hn : xs.length < n) :
    cString m n p = some xs := by
  induction xs generalizing n p with
  | nil =>
    obtain ⟨k, rfl⟩ : ∃ k, n = k + 1 := ⟨n - 1, by simp at hn; omega⟩
    rw [cString, if_pos h.1]
  | cons x xs ih =>
    obtain ⟨k, rfl⟩ : ∃ k, n = k + 1 := ⟨n - 1, by simp at hn; omega⟩
    rw [List.mem_cons, not_or] at hnul
    rw [List.length_cons] at hn
    have hx : m p = x := h.1
    rw [cString, if_neg (by rw [hx]; exact fun h0 => hnul.1 h0.symm),
      ih h.2 hnul.2 (by omega), hx]
    rfl

/-- The bytes in front of the first NUL, if there is one, are a string. -/
theorem takeWhile_nul_prefix {xs : List UInt8} (h : 0 ∈ xs) :
    xs.takeWhile (· ≠ 0) ++ [0] <+: xs := by
  have hsplit := List.takeWhile_append_dropWhile (p := fun b : UInt8 => b ≠ 0) (l := xs)
  cases hrest : xs.dropWhile fun b : UInt8 => b ≠ 0 with
  | nil =>
    have hall := List.dropWhile_eq_nil_iff.mp hrest 0 h
    simp at hall
  | cons b rest =>
    have hhead := List.head?_dropWhile_not (fun b : UInt8 => b ≠ 0) xs
    rw [hrest] at hhead hsplit
    have hb : b = 0 := by simpa using hhead
    refine ⟨rest, ?_⟩
    rw [hb] at hsplit
    rw [List.append_assoc, List.singleton_append]
    exact hsplit

/-- The bytes in front of the first NUL have none. -/
theorem nul_not_mem_takeWhile (xs : List UInt8) : 0 ∉ xs.takeWhile (· ≠ 0) := by
  intro h
  have := List.mem_takeWhile_imp h
  simp at this

/-- `toupper` neither makes nor removes a NUL. -/
theorem toupper_eq_zero {c : UInt8} : toupper c = 0 ↔ c = 0 := by
  unfold toupper
  grind

end SerialNet
