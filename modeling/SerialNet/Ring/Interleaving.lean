import SerialNet.Lib.Run
import SerialNet.Ring.Reader

namespace SerialNet

open RingBuffer

/-!
# The ring shared between the UART interrupt and `UDPSendTask`

`UDPSendTask` reads the ring without any lock while the receive interrupt writes it.  A
state of `UdpRing` is the ring, the reader (if the task is inside `ring_buf_cnt` or
`ring_buf_read`) and two histories: the bytes `ring_buf_write_char` accepted and the bytes
the reads returned.  An event is one interrupt byte or one statement of the task.

`cb->head += c;` may leave `head = size` until the next statement wraps it, and
`ring_buf_full` compares with exactly that `head`.  While it stands there the ring never
looks full, so one more byte than fits is accepted and the whole content is lost.
`ByteFits` excludes just this event; `UdpInv` is the invariant that carries every other
interleaving, stated on the ring with `head` wrapped (`normRing`).
-/

/-- The shared ring with the histories of both sides. -/
structure UdpRing where
  ring : RingBuffer
  reader : Option Reader
  accepted : List UInt8
  returned : List UInt8
deriving DecidableEq, Repr

/-- One atomic event: the interrupt writes a byte, or the task executes a statement. -/
inductive UdpEvent where
  | byte (data : UInt8)
  | task
deriving DecidableEq, Repr

/-- The effect of an event; a returning read appends what it copied to `returned`. -/
def udpRingStep (s : UdpRing) : UdpEvent → Option UdpRing
  | .byte data =>
      let p := ringBufWriteChar s.ring data
      some { s with ring := p.1
                    accepted := if p.2 = 1 then s.accepted ++ [data] else s.accepted }
  | .task =>
      match s.reader with
      | none => some { s with reader := some Reader.start }
      | some t =>
          if t.pc = .done then some { s with reader := none, returned := s.returned ++ t.buf }
          else if t.pc = .empty then some { s with reader := none }
          else some { s with ring := (readerStep s.ring t).1
                             reader := some (readerStep s.ring t).2 }

/-- The start: a well-formed ring with any content, the task outside the read. -/
def UdpRing.init (ring : RingBuffer) : UdpRing := ⟨ring, none, [], []⟩

/-- The event does not overrun the ring: `head` is wrapped, or there is still a free cell
    before the end of the block. -/
def ByteFits (s : UdpRing) : UdpEvent → Prop
  | .byte _ => s.ring.head < s.ring.size ∨ s.ring.tail + 1 < s.ring.size
  | .task => True

instance (s : UdpRing) : DecidablePred (ByteFits s)
  | .byte _ => inferInstanceAs (Decidable (_ ∨ _))
  | .task => .isTrue trivial

/-! ### The ring while `head` may stand at `size` -/

/-- The ring with `head` wrapped. -/
def normRing (r : RingBuffer) : RingBuffer :=
  { r with head := if r.head = r.size then 0 else r.head }

/-- A head inside the ring is as it should be. -/
theorem normRing_of_lt {r : RingBuffer} (h : r.head < r.size) : normRing r = r := by
  unfold normRing
  rw [if_neg (by omega)]

/-- A head behind the last cell stands for the first one. -/
theorem normRing_of_eq {r : RingBuffer} (h : r.head = r.size) :
    normRing r = { r with head := 0 } := by
  unfold normRing
  rw [if_pos h]

/-- A byte that fits is written as if `head` were wrapped. -/
theorem normRing_writeChar {r : RingBuffer} (hwf : (normRing r).Wf) (hle : r.head ≤ r.size)
    (hfit : r.head < r.size ∨ r.tail + 1 < r.size) (data : UInt8) :
    normRing (ringBufWriteChar r data).1 = (ringBufWriteChar (normRing r) data).1 ∧
      (ringBufWriteChar r data).2 = (ringBufWriteChar (normRing r) data).2 ∧
      (ringBufWriteChar r data).1.head = r.head ∧
      (ringBufWriteChar r data).1.size = r.size := by
  have hkeep : (ringBufWriteChar r data).1.head = r.head ∧
      (ringBufWriteChar r data).1.size = r.size := by
    unfold ringBufWriteChar
    dsimp only
    split
    · split <;> exact ⟨rfl, rfl⟩
    · exact ⟨rfl, rfl⟩
  rcases Nat.lt_or_ge r.head r.size with hlt | hge
  · rw [normRing_of_lt hlt, normRing_of_lt (by rw [hkeep.1, hkeep.2]; exact hlt)]
    exact ⟨rfl, rfl, hkeep⟩
  · have heq : r.head = r.size := by omega
    have htail : r.tail + 1 < r.size := hfit.resolve_left (by omega)
    have hle := hwf.size_le
    have hsize : (normRing r).size = r.size := rfl
    have hu : u32 ((r.tail : ℤ) + 1) = r.tail + 1 := by unfold u32; omega
    -- neither ring looks full: `tail + 1` stays below `size`, and it is not `0`
    have hfull : ringBufFull r = false := by
      unfold ringBufFull
      rw [hu, Nat.mod_eq_of_lt htail, beq_eq_false_iff_ne]
      omega
    have hfull0 : ringBufFull { r with head := 0 } = false := by
      unfold ringBufFull
      show (u32 ((r.tail : ℤ) + 1) % r.size == 0) = false
      rw [hu, Nat.mod_eq_of_lt htail, beq_eq_false_iff_ne]
      omega
    refine ⟨?_, ?_, hkeep⟩
    · rw [normRing_of_eq (by rw [hkeep.1, hkeep.2]; exact heq), normRing_of_eq heq]
      unfold ringBufWriteChar
      simp only [hfull, hfull0, hu, Bool.not_false, if_true]
      rw [if_neg (by omega), if_neg (by omega)]
    · rw [normRing_of_eq heq]
      unfold ringBufWriteChar
      simp only [hfull, hfull0, Bool.not_false, if_true]

/-! ### The invariant -/

/-- Where `head` may stand, and what the task knows about its next chunk, by statement. -/
def ReadPc.Ok (r : RingBuffer) : ReadPc → Prop
  | .endLt => r.head < r.size ∧ r.tail < r.head
  | .clamp c | .check c =>
      r.head < r.size ∧ (0 < c → c ≤ r.count ∧ r.head + c ≤ r.size)
  | .copy c | .advance c =>
      r.head < r.size ∧ 0 < c ∧ c ≤ r.count ∧ r.head + c ≤ r.size
  | .wrapTest _ => r.head ≤ r.size
  | .wrap _ => r.head = r.size
  | _ => r.head < r.size

/-- The bytes copied but not yet taken off the ring. -/
def ReadPc.copied (r : RingBuffer) : ReadPc → List UInt8
  | .advance c => r.contents.take c.toNat
  | _ => []

/-- The statements before `ring_buf_read`, where nothing has been copied yet. -/
def ReadPc.Fresh : ReadPc → Prop
  | .cntTest | .cntGe | .cntLt | .select _ | .empty => True
  | _ => False

/-- What holds of the reader: its position is consistent with the ring, and the bytes in
    its buffer are `taken` (already off the ring) followed by the ones just copied. -/
structure ReaderOk (r : RingBuffer) (t : Reader) (taken : List UInt8) : Prop where
  pc : t.pc.Ok r
  buf : t.buf = taken ++ t.pc.copied r
  fresh : t.pc.Fresh → taken = []

/-- The invariant of every run without an overrun: what was there initially and what was
    accepted since is, in order, what was returned, what the running read has taken off
    the ring, and what is still stored. -/
structure UdpInv (initial : List UInt8) (s : UdpRing) : Prop where
  wf : (normRing s.ring).Wf
  history : ∃ taken, initial ++ s.accepted = s.returned ++ taken ++ (normRing s.ring).contents ∧
    match s.reader with
    | none => s.ring.head < s.ring.size ∧ taken = []
    | some t => ReaderOk s.ring t taken

/-- Between two statements the head is at most one cell too far. -/
theorem ReadPc.Ok.head_le {r : RingBuffer} {pc : ReadPc} (h : pc.Ok r) : r.head ≤ r.size := by
  cases pc <;> simp only [ReadPc.Ok] at h <;> omega

/-- Away from the two wrap statements `head` is inside the ring. -/
theorem ReadPc.Ok.head_lt {r : RingBuffer} {pc : ReadPc} (h : pc.Ok r)
    (hwt : ∀ c, pc ≠ .wrapTest c) (hw : ∀ c, pc ≠ .wrap c) : r.head < r.size := by
  cases pc with
  | wrapTest c => exact absurd rfl (hwt c)
  | wrap c => exact absurd rfl (hw c)
  | _ => simp only [ReadPc.Ok] at h; omega

/-! ### An interrupt byte keeps the invariant -/

/-- What the reader knows survives bytes appended behind it: `head` and `size` are
    unchanged and the stored bytes only grow at the end. -/
theorem ReaderOk.append {r r' : RingBuffer} {t : Reader} {taken : List UInt8}
    (h : ReaderOk r t taken) (hhead : r'.head = r.head) (hsize : r'.size = r.size)
    (hcont : r.head < r.size → ∃ more, r'.contents = r.contents ++ more)
    (htail : r.tail < r.head → r.head < r.size → r'.tail < r'.head) : ReaderOk r' t taken := by
  have hcount : r.head < r.size → r.count ≤ r'.count := by
    intro hlt
    obtain ⟨more, hm⟩ := hcont hlt
    rw [← length_contents, ← length_contents, hm, List.length_append]
    omega
  obtain ⟨pc, count, ret, buf⟩ := t
  obtain ⟨hpc, hbuf, hfresh⟩ := h
  refine ⟨?_, ?_, hfresh⟩
  · cases pc with
    | endLt =>
      obtain ⟨h1, h2⟩ := hpc
      exact ⟨by rw [hhead, hsize]; exact h1, htail h2 h1⟩
    | clamp c =>
      have := hcount hpc.1
      exact ⟨by rw [hhead, hsize]; exact hpc.1, fun hc => by have := hpc.2 hc; omega⟩
    | check c =>
      have := hcount hpc.1
      exact ⟨by rw [hhead, hsize]; exact hpc.1, fun hc => by have := hpc.2 hc; omega⟩
    | copy c =>
      have := hcount hpc.1
      obtain ⟨h1, h2, h3, h4⟩ := hpc
      exact ⟨by rw [hhead, hsize]; exact h1, h2, by omega, by omega⟩
    | advance c =>
      have := hcount hpc.1
      obtain ⟨h1, h2, h3, h4⟩ := hpc
      exact ⟨by rw [hhead, hsize]; exact h1, h2, by omega, by omega⟩
    | _ => simp only [ReadPc.Ok] at hpc ⊢; omega
  · cases pc with
    | advance c =>
      obtain ⟨more, hm⟩ := hcont hpc.1
      obtain ⟨h1, h2, h3, h4⟩ := hpc
      show buf = taken ++ r'.contents.take c.toNat
      rw [hm, List.take_append_of_le_length (by rw [length_contents]; omega)]
      exact hbuf
    | _ => exact hbuf

/-- A write behind `tail < head` stays behind `head`. -/
theorem ringBufWriteChar_tail_lt {r : RingBuffer} (hwf : r.Wf) (h : r.tail < r.head)
    (data : UInt8) : (ringBufWriteChar r data).1.tail < (ringBufWriteChar r data).1.head := by
  have hh := hwf.head_lt
  have hs := hwf.size_le
  have hu : u32 ((r.tail : ℤ) + 1) = r.tail + 1 := by unfold u32; omega
  unfold ringBufWriteChar
  cases hf : ringBufFull r with
  | true => exact h
  | false =>
    have hne : r.tail + 1 ≠ r.head := by
      intro he
      unfold ringBufFull at hf
      rw [hu, Nat.mod_eq_of_lt (by omega), beq_eq_false_iff_ne] at hf
      exact hf he
    simp only [hu, Bool.not_false, if_true]
    rw [if_neg (by omega)]
    show r.tail + 1 < r.head
    omega

/-- An interrupt byte that fits goes behind the stored bytes, and what the reader knows stays
    true. -/
theorem normRing_byte {r : RingBuffer} (hwf : (normRing r).Wf) (hle : r.head ≤ r.size)
    (hfit : r.head < r.size ∨ r.tail + 1 < r.size) (data : UInt8) :
    (normRing (ringBufWriteChar r data).1).Wf ∧
      (normRing (ringBufWriteChar r data).1).contents
        = (normRing r).contents ++ (if (ringBufWriteChar r data).2 = 1 then [data] else []) ∧
      ∀ t taken, ReaderOk r t taken → ReaderOk (ringBufWriteChar r data).1 t taken := by
  obtain ⟨hnorm, hret, hhead, hsize⟩ := normRing_writeChar hwf hle hfit data
  obtain ⟨w1, w2, w3, w4⟩ := ringBufWriteChar_spec hwf data
  refine ⟨hnorm ▸ w1, ?_, fun t taken ht => ht.append hhead hsize (fun hlt => ?_) fun htl hlt => ?_⟩
  · rw [hnorm, w3, hret, w4]
    by_cases hfree : (normRing r).count + 1 < (normRing r).size
    · simp only [hfree, if_true]
    · simp only [hfree, if_false, Int.zero_ne_one]
  · rw [normRing_of_lt hlt] at w3
    exact ⟨_, w3⟩
  · rw [normRing_of_lt hlt] at hwf
    exact ringBufWriteChar_tail_lt hwf htl data

/-- **Interrupt step.** -/
theorem udpInv_byte {initial : List UInt8} {s s' : UdpRing} {data : UInt8}
    (hinv : UdpInv initial s) (hfit : ByteFits s (.byte data))
    (hstep : udpRingStep s (.byte data) = some s') : UdpInv initial s' := by
  obtain ⟨hwf, taken, hhist, hreader⟩ := hinv
  have hle : s.ring.head ≤ s.ring.size := by
    rcases hr : s.reader with _ | t <;> rw [hr] at hreader
    · exact hreader.1.le
    · exact hreader.pc.head_le
  obtain ⟨-, -, hhead, hsize⟩ := normRing_writeChar hwf hle hfit data
  obtain ⟨hwf', hcont, hreader'⟩ := normRing_byte hwf hle hfit data
  simp only [udpRingStep, Option.some.injEq] at hstep
  subst hstep
  refine ⟨hwf', taken, ?_, ?_⟩
  · show initial ++ (if (ringBufWriteChar s.ring data).2 = 1 then _ else _)
      = _ ++ (normRing (ringBufWriteChar s.ring data).1).contents
    rw [hcont]
    split
    · rw [← List.append_assoc, hhist, List.append_assoc]
    · rw [hhist, List.append_nil]
  · rcases hr : s.reader with _ | t <;> rw [hr] at hreader
    · exact ⟨by rw [hhead, hsize]; exact hreader.1, hreader.2⟩
    · exact hreader' t taken hreader

/-! ### A statement of the task keeps the invariant -/

/-- The number `ring_buf_cnt_to_end` returns from its first branch is sound whenever it is
    positive, even if `tail` has wrapped since the comparison. -/
theorem endGe_sound {r : RingBuffer} (hwf : r.Wf)
    (hc : 0 < i32 (u32 ((r.tail : ℤ) - r.head))) :
    i32 (u32 ((r.tail : ℤ) - r.head)) ≤ r.count ∧
      r.head + i32 (u32 ((r.tail : ℤ) - r.head)) ≤ r.size := by
  have hh := hwf.head_lt
  have ht := hwf.tail_lt
  have hs := hwf.size_le
  unfold i32 u32 at hc ⊢
  unfold count
  split <;> omega

/-- What the reader takes for the bytes up to the end is stored there. -/
theorem endLt_sound {r : RingBuffer} (hwf : r.Wf) (h : r.tail < r.head) :
    i32 (u32 ((r.size : ℤ) - r.head)) ≤ r.count ∧
      r.head + i32 (u32 ((r.size : ℤ) - r.head)) ≤ r.size := by
  have hh := hwf.head_lt
  have hs := hwf.size_le
  unfold i32 u32 count
  rw [if_neg (by omega)]
  omega

/-- `cb->head += c;` takes the copied bytes off the ring, wherever `head` now stands. -/
theorem advance_sound {r : RingBuffer} (hwf : r.Wf) {c : ℤ} (h0 : 0 < c) (hc : c ≤ r.count)
    (hend : r.head + c ≤ r.size) :
    (normRing { r with head := u32 (r.head + c) }).Wf ∧
      (normRing { r with head := u32 (r.head + c) }).contents = r.contents.drop c.toNat ∧
      u32 (r.head + c) ≤ r.size := by
  have hs := hwf.size_le
  have hcn : ((c.toNat : ℕ) : ℤ) = c := Int.toNat_of_nonneg h0.le
  have hu : u32 ((r.head : ℤ) + c) = r.head + c.toNat := by unfold u32; omega
  have hnorm : normRing { r with head := u32 (r.head + c) } = advanceHead r (c.toNat : ℕ) := by
    unfold normRing advanceHead
    simp only [hcn, hu]
    by_cases heq : r.head + c.toNat = r.size
    · rw [if_pos heq, if_pos (by omega)]
      congr 1
      unfold u32; omega
    · rw [if_neg heq, if_neg (by omega)]
  obtain ⟨h1, -, h3⟩ := advanceHead_spec (c := c.toNat) hwf (by omega) (by omega)
  rw [hnorm]
  exact ⟨h1, h3, by rw [hu]; omega⟩

/-- **Reader step.**  One statement keeps what holds of the reader and the history. -/
theorem readerStep_ok {r : RingBuffer} {t : Reader} {taken before : List UInt8}
    (hwf : (normRing r).Wf) (hok : ReaderOk r t taken)
    (hhist : before = taken ++ (normRing r).contents) :
    (normRing (readerStep r t).1).Wf ∧
      ∃ taken', before = taken' ++ (normRing (readerStep r t).1).contents ∧
        ReaderOk (readerStep r t).1 (readerStep r t).2 taken' := by
  obtain ⟨pc, cnt, ret, buf⟩ := t
  obtain ⟨hpc, hbuf, hfresh⟩ := hok
  -- the ring proper, for the statements that see `head` inside the ring
  have hwf' : r.head < r.size → r.Wf := fun h => by rw [normRing_of_lt h] at hwf; exact hwf
  cases pc with
  | cntTest =>
    refine ⟨hwf, taken, hhist, ?_, ?_, fun _ => hfresh trivial⟩
    · show ReadPc.Ok r (if _ then _ else _); split <;> exact hpc
    · show buf = taken ++ ReadPc.copied r (if _ then _ else _); split <;> exact hbuf
  | cntGe => exact ⟨hwf, taken, hhist, hpc, hbuf, fun _ => hfresh trivial⟩
  | cntLt => exact ⟨hwf, taken, hhist, hpc, hbuf, fun _ => hfresh trivial⟩
  | select dataLen =>
    have htaken : taken = [] := hfresh trivial
    simp only [readerStep]
    split
    · exact ⟨hwf, taken, hhist, hpc, hbuf, fun _ => htaken⟩
    · split <;> exact ⟨hwf, taken, hhist, hpc, hbuf, fun _ => htaken⟩
  | endTest =>
    refine ⟨hwf, taken, hhist, ?_, ?_, ?_⟩
    · show ReadPc.Ok r (if _ then _ else _)
      split
      · exact hpc
      · next hlt => exact ⟨hpc, by omega⟩
    · show buf = taken ++ ReadPc.copied r (if _ then _ else _); split <;> exact hbuf
    · show ReadPc.Fresh (if _ then _ else _) → _; split <;> exact fun h => h.elim
  | endGe =>
    exact ⟨hwf, taken, hhist, ⟨hpc, fun hc => endGe_sound (hwf' hpc) hc⟩, hbuf, fun h => h.elim⟩
  | endLt =>
    exact ⟨hwf, taken, hhist, ⟨hpc.1, fun _ => endLt_sound (hwf' hpc.1) hpc.2⟩, hbuf,
      fun h => h.elim⟩
  | clamp c =>
    have hmin := clampCount_eq_min cnt c
    refine ⟨hwf, taken, hhist, ⟨hpc.1, ?_⟩, hbuf, fun h => h.elim⟩
    show 0 < clampCount cnt c → clampCount cnt c ≤ r.count ∧ r.head + clampCount cnt c ≤ r.size
    intro hc
    have := hpc.2 (by omega)
    omega
  | check c =>
    refine ⟨hwf, taken, hhist, ?_, ?_, ?_⟩
    · show ReadPc.Ok r (if _ then _ else _)
      split
      · exact hpc.1
      · next hc => exact ⟨hpc.1, by omega, hpc.2 (by omega)⟩
    · show buf = taken ++ ReadPc.copied r (if _ then _ else _); split <;> exact hbuf
    · show ReadPc.Fresh (if _ then _ else _) → _; split <;> exact fun h => h.elim
  | copy c =>
    obtain ⟨hlt, h0, hc, hend⟩ := hpc
    refine ⟨hwf, taken, hhist, ⟨hlt, h0, hc, hend⟩, ?_, fun h => h.elim⟩
    show buf ++ (r.buffer.drop r.head).take c.toNat = taken ++ r.contents.take c.toNat
    rw [take_drop_head (hwf' hlt) (by omega) (by omega)]
    rw [show buf = taken by simpa [ReadPc.copied] using hbuf]
  | advance c =>
    obtain ⟨hlt, h0, hc, hend⟩ := hpc
    obtain ⟨h1, h2, h3⟩ := advance_sound (hwf' hlt) h0 hc hend
    rw [normRing_of_lt hlt] at hhist
    refine ⟨h1, taken ++ r.contents.take c.toNat, ?_, h3, ?_, fun h => h.elim⟩
    · show before = _ ++ (normRing { r with head := u32 (r.head + c) }).contents
      rw [h2, List.append_assoc, List.take_append_drop, hhist]
    · show buf = taken ++ r.contents.take c.toNat ++ []
      rw [List.append_nil]
      exact hbuf
  | wrapTest c =>
    refine ⟨hwf, taken, hhist, ?_, ?_, ?_⟩
    · show ReadPc.Ok r (if _ then _ else _)
      have hle : r.head ≤ r.size := hpc
      split
      · show r.head = r.size; omega
      · show r.head < r.size; omega
    · show buf = taken ++ ReadPc.copied r (if _ then _ else _); split <;> exact hbuf
    · show ReadPc.Fresh (if _ then _ else _) → _; split <;> exact fun h => h.elim
  | wrap c =>
    have heq : r.head = r.size := hpc
    have hpos := hwf.size_pos
    have hnorm : { r with head := u32 ((r.head : ℤ) - r.size) } = normRing r := by
      rw [normRing_of_eq heq]
      congr 1
      unfold u32; omega
    have hlt0 : (normRing r).head < (normRing r).size := hwf.head_lt
    have hidem : normRing (normRing r) = normRing r := normRing_of_lt hlt0
    show (normRing { r with head := u32 ((r.head : ℤ) - r.size) }).Wf ∧ ∃ taken',
      before = taken' ++ (normRing { r with head := u32 ((r.head : ℤ) - r.size) }).contents ∧
        ReaderOk { r with head := u32 ((r.head : ℤ) - r.size) } ⟨.account c, cnt, ret, buf⟩ taken'
    rw [hnorm, hidem]
    exact ⟨hwf, taken, hhist, hlt0, hbuf, fun h => h.elim⟩
  | account c => exact ⟨hwf, taken, hhist, hpc, hbuf, fun h => h.elim⟩
  | done => exact ⟨hwf, taken, hhist, hpc, hbuf, fun h => h.elim⟩
  | empty => exact ⟨hwf, taken, hhist, hpc, hbuf, fun _ => hfresh trivial⟩

/-- **Task step.** -/
theorem udpInv_task {initial : List UInt8} {s s' : UdpRing} (hinv : UdpInv initial s)
    (hstep : udpRingStep s .task = some s') : UdpInv initial s' := by
  obtain ⟨hwf, taken, hhist, hreader⟩ := hinv
  rcases hr : s.reader with _ | t <;> rw [hr] at hreader <;> simp only [udpRingStep, hr] at hstep
  · rw [Option.some.injEq] at hstep
    subst hstep
    exact ⟨hwf, taken, hhist, hreader.1, by simp [Reader.start, ReadPc.copied, hreader.2],
      fun _ => hreader.2⟩
  · split at hstep
    · next hdone =>
      rw [Option.some.injEq] at hstep
      subst hstep
      have hlt := hreader.pc.head_lt (by simp [hdone]) (by simp [hdone])
      have hbuf : t.buf = taken := by simpa [hdone, ReadPc.copied] using hreader.buf
      refine ⟨hwf, [], ?_, hlt, rfl⟩
      rw [hbuf, List.append_nil]
      exact hhist
    · split at hstep
      · next hempty =>
        rw [Option.some.injEq] at hstep
        subst hstep
        have hlt := hreader.pc.head_lt (by simp [hempty]) (by simp [hempty])
        exact ⟨hwf, taken, hhist, hlt, hreader.fresh (by rw [hempty]; trivial)⟩
      · rw [Option.some.injEq] at hstep
        subst hstep
        obtain ⟨h1, taken', h2, h3⟩ := readerStep_ok hwf hreader rfl
        refine ⟨h1, taken', ?_, h3⟩
        show initial ++ s.accepted
          = s.returned ++ taken' ++ (normRing (readerStep s.ring t).1).contents
        rw [hhist, List.append_assoc, List.append_assoc, h2]

/-- The invariant holds initially and every event that fits keeps it. -/
theorem udpInv_init {ring : RingBuffer} (h : ring.Wf) :
    UdpInv ring.contents (UdpRing.init ring) := by
  have hn := normRing_of_lt h.head_lt
  refine ⟨hn.symm ▸ h, [], ?_, h.head_lt, rfl⟩
  simp [UdpRing.init, hn]

/-- A statement of the reader, or a byte that fits, keeps the invariant. -/
theorem udpInv_step {initial : List UInt8} (s : UdpRing) (e : UdpEvent) (s' : UdpRing)
    (hinv : UdpInv initial s) (hfit : ByteFits s e) (hstep : udpRingStep s e = some s') :
    UdpInv initial s' := by
  cases e with
  | byte data => exact udpInv_byte hinv hfit hstep
  | task => exact udpInv_task hinv hstep

/-! ### Nothing lost, duplicated or reordered -/

/-- The bytes returned so far are a prefix of the initial content followed by the accepted
    bytes, and outside a read `ring_buf_cnt` is what was put in minus what was returned. -/
def UdpRing.Intact (initial : List UInt8) (s : UdpRing) : Prop :=
  s.returned <+: initial ++ s.accepted ∧
    (s.reader = none →
      ringBufCnt s.ring = (initial.length : ℤ) + s.accepted.length - s.returned.length)

/-- What has been read so far is what has been received. -/
theorem UdpInv.intact {initial : List UInt8} {s : UdpRing} (h : UdpInv initial s) :
    s.Intact initial := by
  obtain ⟨hwf, taken, hhist, hreader⟩ := h
  refine ⟨⟨taken ++ (normRing s.ring).contents, ?_⟩, fun hnone => ?_⟩
  · rw [hhist, List.append_assoc]
  · rw [hnone] at hreader
    obtain ⟨hlt, rfl⟩ := hreader
    rw [normRing_of_lt hlt] at hwf hhist
    have hlen := congrArg List.length hhist
    simp only [List.length_append, List.length_nil, length_contents] at hlen
    rw [ringBufCnt_eq hwf]
    omega

/-- **No byte is lost between interrupt and task** in a run in which no interrupt byte
    arrives while `head` stands unwrapped at `size` and the last cell is taken. -/
theorem udp_reads_intact (ring : RingBuffer) (h : ring.Wf) (events : List UdpEvent) (s : UdpRing)
    (hrun : run udpRingStep (UdpRing.init ring) events = some s)
    (hfit : Along udpRingStep ByteFits (UdpRing.init ring) events) :
    s.Intact ring.contents :=
  (run_invariant udpInv_step events _ s (udpInv_init h) hfit hrun).intact

/-- A two-byte ring holding one byte, in its last cell. -/
def twoByteRing : RingBuffer := { size := 2, head := 1, tail := 0, buffer := [0, 9] }

/-- The ring is in order. -/
theorem twoByteRing_wf : twoByteRing.Wf :=
  ⟨by decide, by decide, by decide, by decide, by decide⟩

/-- A read of that byte, with `bytes` arriving right after `cb->head += c;`. -/
def readWithBytes (bytes : List UInt8) : List UdpEvent :=
  List.replicate 10 .task ++ bytes.map .byte ++ List.replicate 8 .task

/-- One byte arriving there is kept. -/
theorem udp_reads_intact_one_byte :
    UdpRing.Intact [9] ⟨{ size := 2, head := 0, tail := 1, buffer := [1, 9] }, none, [1], [9]⟩ :=
  udp_reads_intact twoByteRing twoByteRing_wf (readWithBytes [1]) _ (by decide +kernel)
    (by decide +kernel)

/-- **Two bytes arriving there are lost.**  Both are accepted, the second wraps `tail` onto
    the wrapped `head`, and afterwards the ring counts as empty. -/
theorem udp_reads_lose_bytes :
    ¬ ∀ ring : RingBuffer, ring.Wf → 2 ≤ ring.size → ∀ (events : List UdpEvent) (s : UdpRing),
      run udpRingStep (UdpRing.init ring) events = some s → s.Intact ring.contents := by
  intro hall
  have hs := hall twoByteRing twoByteRing_wf (by decide) (readWithBytes [1, 2])
    ⟨{ size := 2, head := 0, tail := 0, buffer := [1, 2] }, none, [1, 2], [9]⟩
    (by decide +kernel)
  exact absurd (hs.2 rfl) (by decide)

end SerialNet
