import SerialNet.Kernel.Priority
import SerialNet.Lib.Window

namespace SerialNet

/-!
# Queues are FIFO lists

`OSQIn` and `OSQOut` go round in the memory of a queue.  `OsQ.messages` is the list that they stand
for; a put appends to it and a take gives its head.
-/

/-- The messages of a queue, oldest first. -/
def OsQ.messages (pq : OsQ) (slots : ℕ → ℕ) : List ℕ :=
  (List.range pq.entries).map fun j =>
    slots (pq.start + wrapIndex pq.size (pq.qout - pq.start) j)

/-- The pointers of a queue are in its memory and `OSQEntries` apart. -/
structure OsQ.Ok (pq : OsQ) : Prop where
  qend : pq.qend = pq.start + pq.size
  entries : pq.entries ≤ pq.size
  le_qout : pq.start ≤ pq.qout
  qout : pq.qout < pq.qend ∨ (pq.size = 0 ∧ pq.qout = pq.start)
  qin : pq.qin = pq.start + wrapIndex pq.size (pq.qout - pq.start) pq.entries

/-- The queue after `*pq->OSQOut++`. -/
def OsQ.taken (pq : OsQ) : OsQ :=
  { pq with
    entries := pq.entries - 1
    qout := if pq.qout + 1 = pq.qend then pq.start else pq.qout + 1 }

/-- The queue after `*pq->OSQIn++ = pmsg`. -/
def OsQ.added (pq : OsQ) : OsQ :=
  { pq with
    entries := pq.entries + 1
    qin := if pq.qin + 1 = pq.qend then pq.start else pq.qin + 1 }

namespace OsQ

variable {pq : OsQ} {slots slots' : ℕ → ℕ}

/-- There are as many messages as `OSQEntries` says. -/
theorem length_messages (pq : OsQ) (slots : ℕ → ℕ) : (pq.messages slots).length = pq.entries := by
  rw [messages, List.length_map, List.length_range]

/-- A new ring is in order. -/
theorem Ok.created (start size : ℕ) : (⟨start, start + size, start, start, size, 0⟩ : OsQ).Ok := by
  refine ⟨rfl, Nat.zero_le _, le_refl _, ?_, ?_⟩
  · dsimp only
    omega
  · dsimp only [wrapIndex]
    split <;> omega

/-- A flushed ring is in order. -/
theorem Ok.flushed (h : pq.Ok) : { pq with qin := pq.start, qout := pq.start, entries := 0 }.Ok := by
  refine ⟨h.qend, Nat.zero_le _, le_refl _, ?_, ?_⟩
  · have hend := h.qend
    dsimp only
    omega
  · dsimp only [wrapIndex]
    split <;> omega

/-- The messages are in the memory of the queue. -/
theorem Ok.covers (h : pq.Ok) {j : ℕ} (hj : j < pq.entries) :
    pq.Covers (pq.start + wrapIndex pq.size (pq.qout - pq.start) j) := by
  obtain ⟨hend, hentries, hle, hout, -⟩ := h
  have hlt := wrapIndex_lt (k := j) (show pq.qout - pq.start < pq.size by omega) (by omega)
  exact ⟨Nat.le_add_right _ _, by omega⟩

/-- Only the memory of the queue counts. -/
theorem Ok.messages_congr (h : pq.Ok) (hslots : ∀ i, pq.Covers i → slots' i = slots i) :
    pq.messages slots' = pq.messages slots := by
  unfold messages
  apply List.map_congr_left
  intro j hj
  exact hslots _ (h.covers (List.mem_range.mp hj))

/-- **A take** gives the oldest message and leaves the others. -/
theorem Ok.taken (h : pq.Ok) (hpos : 0 < pq.entries) (slots : ℕ → ℕ) :
    pq.taken.Ok ∧ pq.messages slots = slots pq.qout :: pq.taken.messages slots := by
  obtain ⟨hend, hentries, hle, hout, hin⟩ := h
  have hlt : pq.qout - pq.start < pq.size := by omega
  -- The new pointer is one place on.
  have hnext : pq.taken.qout - pq.start = wrapIndex pq.size (pq.qout - pq.start) 1 := by
    simp only [OsQ.taken, wrapIndex]
    split <;> split <;> omega
  have hstep : ∀ j, j + 1 ≤ pq.size → wrapIndex pq.size (pq.taken.qout - pq.start) j
      = wrapIndex pq.size (pq.qout - pq.start) (j + 1) := by
    intro j hj
    rw [hnext, wrapIndex_wrapIndex hlt (by omega), Nat.add_comm 1 j]
  refine ⟨⟨hend, ?_, ?_, .inl ?_, ?_⟩, ?_⟩
  · simp only [OsQ.taken]
    omega
  · simp only [OsQ.taken]
    split <;> omega
  · simp only [OsQ.taken]
    split <;> omega
  · rw [show pq.taken.qin = pq.qin from rfl, hin, show pq.taken.start = pq.start from rfl,
      show pq.taken.size = pq.size from rfl, show pq.taken.entries = pq.entries - 1 from rfl,
      hstep _ (by omega), Nat.sub_add_cancel hpos]
  · obtain ⟨n, hn⟩ := Nat.exists_eq_add_one.mpr hpos
    have hfirst : pq.start + wrapIndex pq.size (pq.qout - pq.start) 0 = pq.qout := by
      rw [wrapIndex, Nat.add_zero, if_pos hlt]
      omega
    rw [messages, hn, List.range_succ_eq_map, List.map_cons, hfirst, List.map_map, messages,
      show pq.taken.entries = n from by rw [OsQ.taken, hn]; rfl]
    congr 1
    apply List.map_congr_left
    intro j hj
    have hj := List.mem_range.mp hj
    rw [Function.comp, Nat.succ_eq_add_one, ← hstep j (by omega)]
    rfl

/-- **A put** appends its message. -/
theorem Ok.added (h : pq.Ok) (hlt : pq.entries < pq.size) (slots : ℕ → ℕ) (msg : ℕ) :
    pq.added.Ok ∧ pq.Covers pq.qin ∧
      pq.added.messages (Function.update slots pq.qin msg) = pq.messages slots ++ [msg] := by
  obtain ⟨hend, hentries, hle, hout, hin⟩ := h
  have ho : pq.qout - pq.start < pq.size := by omega
  have hplace := wrapIndex_lt (k := pq.entries) ho hentries
  refine ⟨⟨hend, hlt, hle, .inl (show pq.qout < pq.qend by omega), ?_⟩,
    ⟨by omega, by omega⟩, ?_⟩
  · have hstep : wrapIndex pq.size (wrapIndex pq.size (pq.qout - pq.start) pq.entries) 1
        = wrapIndex pq.size (pq.qout - pq.start) (pq.entries + 1) :=
      wrapIndex_wrapIndex ho (by omega)
    rw [show pq.added.start = pq.start from rfl, show pq.added.size = pq.size from rfl,
      show pq.added.qout = pq.qout from rfl, show pq.added.entries = pq.entries + 1 from rfl,
      ← hstep]
    simp only [OsQ.added, hin]
    generalize wrapIndex pq.size (pq.qout - pq.start) pq.entries = i at hplace ⊢
    unfold wrapIndex
    split <;> split <;> omega
  · rw [messages, show pq.added.entries = pq.entries + 1 from rfl, List.range_succ, List.map_append,
      List.map_singleton, messages]
    congr 1
    · apply List.map_congr_left
      intro j hj
      have hj := List.mem_range.mp hj
      -- The new message is not on the place of one that is there.
      have hne : wrapIndex pq.size (pq.qout - pq.start) j
          ≠ wrapIndex pq.size (pq.qout - pq.start) pq.entries := by
        unfold wrapIndex
        split <;> split <;> omega
      apply Function.update_of_ne
      rw [hin]
      exact fun heq => hne (Nat.add_left_cancel heq)
    · simp only [OsQ.added]
      rw [← hin, Function.update_self]

end OsQ

end SerialNet
