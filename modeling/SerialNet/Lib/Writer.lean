import SerialNet.Lib.Bytes

namespace SerialNet

/-!
# Building a message in a buffer

A message is built with a pointer that is moved on by hand and a length that is added up by hand.
A `Writer` is the memory, this pointer and this length.  `Wrote m p bytes w` says that `w` started
on the memory `m` with the pointer at `p` and has written `bytes`, one after the other.
-/

/-- The memory, the pointer and the length. -/
structure Writer where
  mem : Memory
  body : ℕ
  len : ℕ

namespace Writer

/-- `*body++ = b`. -/
def putByte (w : Writer) (b : UInt8) : Writer :=
  { w with mem := store8 w.mem w.body b, body := w.body + 1 }

/-- A copy of `xs` to where the pointer is. -/
def move (w : Writer) (xs : List UInt8) : Writer := { w with mem := storeBytes w.mem w.body xs }

/-- `body += n`. -/
def advance (w : Writer) (n : ℕ) : Writer := { w with body := w.body + n }

/-- `len += n`. -/
def addLen (w : Writer) (n : ℕ) : Writer := { w with len := w.len + n }

/-- A copy of `xs`, behind which both the pointer and the length are moved on. -/
def put (w : Writer) (xs : List UInt8) : Writer :=
  ((w.move xs).advance xs.length).addLen xs.length

/-- The running length counts every byte that is put. -/
@[simp] theorem put_len (w : Writer) (xs : List UInt8) : (w.put xs).len = w.len + xs.length := rfl

end Writer

/-- A writer that started on `m` at `p` has written `bytes`. -/
structure Wrote (m : Memory) (p : ℕ) (bytes : List UInt8) (w : Writer) : Prop where
  mem : w.mem = storeBytes m p bytes
  body : w.body = p + bytes.length

variable {m : Memory} {p : ℕ} {bytes : List UInt8} {w : Writer}

/-- A new writer has written nothing. -/
theorem wrote_nil (m : Memory) (p len : ℕ) : Wrote m p [] ⟨m, p, len⟩ where
  mem := eq_storeBytes (fun _ h => absurd h (Nat.not_lt_zero _)) fun _ _ => rfl
  body := rfl

/-- The running length alone does not change what has been written. -/
theorem Wrote.addLen (h : Wrote m p bytes w) (n : ℕ) : Wrote m p bytes (w.addLen n) :=
  ⟨h.mem, h.body⟩

/-- The memory after a copy whose pointer is not moved on. -/
theorem Wrote.move_mem (h : Wrote m p bytes w) (xs : List UInt8) :
    (w.move xs).mem = storeBytes m p (bytes ++ xs) := by
  rw [Writer.move, h.mem, h.body, storeBytes_append]

/-- What is put comes behind what has been written. -/
theorem Wrote.put (h : Wrote m p bytes w) (xs : List UInt8) :
    Wrote m p (bytes ++ xs) (w.put xs) where
  mem := h.move_mem xs
  body := by
    rw [List.length_append, ← Nat.add_assoc, ← h.body]
    rfl

/-- A byte that is put comes behind what has been written. -/
theorem Wrote.putByte (h : Wrote m p bytes w) (b : UInt8) :
    Wrote m p (bytes ++ [b]) (w.putByte b) where
  mem := by
    rw [Writer.putByte, store8_eq_storeBytes, h.mem, h.body, storeBytes_append]
  body := by
    rw [Writer.putByte, h.body, List.length_append, List.length_singleton, Nat.add_assoc]

end SerialNet
