import SerialNet.Net.Device
import SerialNet.Lib.Run

namespace SerialNet

/-!
# The receive interrupt of the UART

`BSP_UartISR` takes the causes of the interrupt in turn and passes the received bytes to
`uart_data_recv`.  Its line status branch is meant to drop erroneous characters only, but it drops
every character it reads, while the two data branches pass every character on: `passes_good_iff`
says for which turns this comes to the good ones.
-/

/-- A character in the receive FIFO with its error marks. -/
structure RxChar where
  byte : UInt8
  parity : Bool
  framing : Bool
deriving DecidableEq, Repr

/-- The character carries no error. -/
def RxChar.good (c : RxChar) : Bool := !c.parity && !c.framing

/-- The receive side of the UART. -/
structure Uart where
  fifo : List RxChar
  overrun : Bool
deriving DecidableEq, Repr

/-! ### The registers -/

/-- `IIR_IID_GET`. -/
def iirIidGet (x : UInt8) : UInt8 := x &&& 0x0f

/-- `UART_IIR_MDS`, modem status. -/
def uartIirMds : UInt8 := 0x00
/-- `UART_IIR_THRE`, the transmitter is empty. -/
def uartIirThre : UInt8 := 0x02
/-- `UART_IIR_RDA`, received data. -/
def uartIirRda : UInt8 := 0x04
/-- `UART_IIR_RLS`, receiver line status. -/
def uartIirRls : UInt8 := 0x06
/-- `UART_IIR_BUSY`, busy detect. -/
def uartIirBusy : UInt8 := 0x07
/-- `UART_IIR_CTI`, the time-out of a character in the FIFO. -/
def uartIirCti : UInt8 := 0x0C

/-- `LSR_DR_GET` and its kin: the bits under `mask`, down to bit 0. -/
def lsrGet (mask lsb x : UInt8) : UInt8 := (x &&& mask) >>> lsb

/-- `LSR_DR_GET`: there is a character to read. -/
def lsrDrGet : UInt8 → UInt8 := lsrGet 0x01 0
/-- `LSR_OE_GET`: overrun. -/
def lsrOeGet : UInt8 → UInt8 := lsrGet 0x02 1
/-- `LSR_PE_GET`: parity error. -/
def lsrPeGet : UInt8 → UInt8 := lsrGet 0x04 2
/-- `LSR_FE_GET`: framing error. -/
def lsrFeGet : UInt8 → UInt8 := lsrGet 0x08 3
/-- `LSR_FERR_GET`: an error somewhere in the FIFO. -/
def lsrFerrGet : UInt8 → UInt8 := lsrGet 0x80 7

/-- The receive bits of a line status. -/
def lsrBits (dr oe pe fe ferr : Bool) : UInt8 :=
  cond dr 0x01 0 ||| cond oe 0x02 0 ||| cond pe 0x04 0 ||| cond fe 0x08 0 ||| cond ferr 0x80 0

/-- The line status register: the parity and framing bits are those of the oldest character. -/
def Uart.lsr (u : Uart) : UInt8 :=
  lsrBits (!u.fifo.isEmpty) u.overrun (u.fifo.head?.any RxChar.parity)
    (u.fifo.head?.any RxChar.framing) (u.fifo.any fun c => !c.good)

/-- The bit of the line status that tells a character is there. -/
theorem lsrDrGet_lsrBits : ∀ dr oe pe fe ferr,
    lsrDrGet (lsrBits dr oe pe fe ferr) ≠ 0 ↔ dr = true := by decide

/-- The bit that tells a parity error. -/
theorem lsrPeGet_lsrBits : ∀ dr oe pe fe ferr,
    lsrPeGet (lsrBits dr oe pe fe ferr) ≠ 0 ↔ pe = true := by decide

/-! ### The handler -/

/-- The handler at work: what it read from the receive register and what it passed on, in order,
    and the device behind `uart_data_recv`. -/
structure Isr where
  uart : Uart
  device : Device
  reads : List RxChar
  handed : List RxChar
  bFlag : Bool

/-- One turn of the loop: what arrived before it, whether some of that was lost, and the value
    that `IIR` shows. -/
structure IsrTurn where
  arrivals : List RxChar
  overrun : Bool
  iir : UInt8

/-- `NST_RD_UART_REG(RBR_OFFSET)`; the causes under which the handler reads say that the FIFO is
    not empty. -/
def readRbr (s : Isr) : Option (RxChar × Isr) :=
  match s.uart.fifo with
  | [] => none
  | c :: fifo =>
      some (c, { s with uart := { s.uart with fifo := fifo }, reads := s.reads ++ [c] })

/-- `NST_RD_UART_REG(LSR_OFFSET)`, which clears the overrun. -/
def readLsr (s : Isr) : UInt8 × Isr :=
  (s.uart.lsr, { s with uart := { s.uart with overrun := false } })

/-- `Dummy = NST_RD_UART_REG(RBR_OFFSET); uart_data_recv(Dummy);`. -/
def readAndRecv (s : Isr) : Option Isr :=
  (readRbr s).map fun (dummy, s) =>
    { s with device := uartDataRecv s.device dummy.byte, handed := s.handed ++ [dummy] }

/-- The loop of `UART_IIR_RDA`, with `n` characters to go. -/
def rdaLoop : ℕ → Isr → Option Isr
  | 0, s => some s
  | n + 1, s => (readAndRecv s).bind (rdaLoop n)

/-- The loop of `UART_IIR_CTI`; the first argument bounds its turns. -/
def ctiLoop : ℕ → Isr → Option Isr
  | 0, _ => none
  | n + 1, s =>
      (readAndRecv s).bind fun s =>
        if lsrDrGet (readLsr s).1 ≠ 0 then ctiLoop n (readLsr s).2 else some (readLsr s).2

/-- The branch of `UART_IIR_RLS`. -/
def lineStatus (s : Isr) : Option Isr :=
  let lsrValue := (readLsr s).1
  -- The comment here promises to drop erroneous characters only.
  if lsrOeGet lsrValue ≠ 0 ∧ lsrPeGet lsrValue ≠ 0 ∧ lsrFeGet lsrValue ≠ 0 ∧
      lsrFerrGet lsrValue ≠ 0 then some (readLsr s).2
  else if lsrDrGet lsrValue ≠ 0 then (readRbr (readLsr s).2).map Prod.snd
  else some (readLsr s).2

/-- The FIFO that a turn finds. -/
def Isr.fifoAt (s : Isr) (t : IsrTurn) : List RxChar := s.uart.fifo ++ t.arrivals

/-- The handler at the beginning of a turn. -/
def Isr.enter (s : Isr) (t : IsrTurn) : Isr :=
  { s with
    uart := { fifo := s.fifoAt t, overrun := s.uart.overrun || t.overrun }
    bFlag := true }

/-- One turn of the loop of `BSP_UartISR`.  After a turn that clears `bFlag` the handler has
    returned, and the next turn is the first one of its next call. -/
def isrTurn (s : Isr) (t : IsrTurn) : Option Isr :=
  let s := s.enter t
  let iirValue := iirIidGet t.iir
  if iirValue = uartIirRls then lineStatus s
  else if iirValue = uartIirRda then rdaLoop 14 s
  else if iirValue = uartIirCti then ctiLoop s.uart.fifo.length s
  else if iirValue = uartIirThre ∨ iirValue = uartIirMds ∨ iirValue = uartIirBusy then some s
  else some { s with bFlag := false }

/-- What the two data causes say about the FIFO: 14 characters are there, or one. -/
def CauseHolds (s : Isr) (t : IsrTurn) : Prop :=
  (iirIidGet t.iir = uartIirRda → 14 ≤ (s.fifoAt t).length) ∧
    (iirIidGet t.iir = uartIirCti → s.fifoAt t ≠ [])

instance (s : Isr) (t : IsrTurn) : Decidable (CauseHolds s t) :=
  inferInstanceAs (Decidable (_ ∧ _))

/-- The handler has read `rs` and passed on `hs`. -/
structure Isr.Moved (s s' : Isr) (rs hs : List RxChar) : Prop where
  reads : s'.reads = s.reads ++ rs
  handed : s'.handed = s.handed ++ hs
  device : s'.device = (hs.map RxChar.byte).foldl uartDataRecv s.device
  fifo : s.uart.fifo = rs ++ s'.uart.fifo
  sublist : hs.Sublist rs

/-- The turn passes on the good ones of the characters it reads: the data branches find no error,
    and the line status branch finds no character or a bad one. -/
def TurnRight (s : Isr) (t : IsrTurn) : Prop :=
  (iirIidGet t.iir = uartIirRls → ∀ c ∈ (s.fifoAt t).head?, c.good = false) ∧
    (iirIidGet t.iir = uartIirRda → ∀ c ∈ (s.fifoAt t).take 14, c.good) ∧
    (iirIidGet t.iir = uartIirCti → ∀ c ∈ s.fifoAt t, c.good)

instance (s : Isr) (t : IsrTurn) : Decidable (TurnRight s t) :=
  inferInstanceAs (Decidable (_ ∧ _ ∧ _))

/-! ### What the loops read -/

variable {s s' : Isr} {t : IsrTurn}

/-- Nothing read, nothing handed on. -/
theorem Isr.Moved.refl (s : Isr) : s.Moved s [] [] :=
  ⟨(List.append_nil _).symm, (List.append_nil _).symm, rfl, rfl, List.Sublist.refl _⟩

/-- What is read and handed on in two parts. -/
theorem Isr.Moved.trans {s s₁ s₂ : Isr} {rs₁ hs₁ rs₂ hs₂ : List RxChar}
    (h₁ : s.Moved s₁ rs₁ hs₁) (h₂ : s₁.Moved s₂ rs₂ hs₂) :
    s.Moved s₂ (rs₁ ++ rs₂) (hs₁ ++ hs₂) where
  reads := by rw [h₂.reads, h₁.reads, List.append_assoc]
  handed := by rw [h₂.handed, h₁.handed, List.append_assoc]
  device := by rw [h₂.device, h₁.device, List.map_append, List.foldl_append]
  fifo := by rw [h₁.fifo, h₂.fifo, List.append_assoc]
  sublist := h₁.sublist.append h₂.sublist

/-- The oldest character is read. -/
theorem readRbr_some {c : RxChar} {fifo : List RxChar} (hfifo : s.uart.fifo = c :: fifo) :
    readRbr s =
      some (c, { s with uart := { s.uart with fifo := fifo }, reads := s.reads ++ [c] }) := by
  rw [readRbr, hfifo]

/-- The data branches move the oldest character. -/
theorem readAndRecv_some {s : Isr} {c : RxChar} {fifo : List RxChar}
    (hfifo : s.uart.fifo = c :: fifo) :
    ∃ s', readAndRecv s = some s' ∧ s.Moved s' [c] [c] ∧ s'.uart.fifo = fifo := by
  refine ⟨_, by rw [readAndRecv, readRbr_some hfifo, Option.map_some], ?_, rfl⟩
  exact ⟨rfl, rfl, rfl, hfifo, List.Sublist.refl _⟩

/-- An empty FIFO gives nothing to read. -/
theorem readAndRecv_none {s : Isr} (hfifo : s.uart.fifo = []) : readAndRecv s = none := by
  rw [readAndRecv, readRbr, hfifo, Option.map_none]

/-- The data available branch moves `n` characters. -/
theorem rdaLoop_moved {n : ℕ} {s s' : Isr} (h : rdaLoop n s = some s') :
    s.Moved s' (s.uart.fifo.take n) (s.uart.fifo.take n) := by
  induction n generalizing s with
  | zero => exact Option.some.inj h ▸ Isr.Moved.refl s
  | succ n ih =>
    rw [rdaLoop] at h
    cases hfifo : s.uart.fifo with
    | nil =>
      rw [readAndRecv_none hfifo] at h
      cases h
    | cons c fifo =>
      obtain ⟨s₁, hs₁, hmoved, hrest⟩ := readAndRecv_some hfifo
      rw [hs₁, Option.bind_some] at h
      rw [List.take_succ_cons, ← hrest]
      exact hmoved.trans (ih h)

/-- It finds them if there are `n`. -/
theorem rdaLoop_isSome_iff {n : ℕ} {s : Isr} :
    (rdaLoop n s).isSome ↔ n ≤ s.uart.fifo.length := by
  induction n generalizing s with
  | zero => exact iff_of_true rfl (Nat.zero_le _)
  | succ n ih =>
    rw [rdaLoop]
    cases hfifo : s.uart.fifo with
    | nil =>
      rw [readAndRecv_none hfifo]
      exact iff_of_false (by simp) (by simp)
    | cons c fifo =>
      obtain ⟨s₁, hs₁, -, hrest⟩ := readAndRecv_some hfifo
      rw [hs₁, Option.bind_some, ih, hrest, List.length_cons, Nat.succ_le_succ_iff]

/-- Reading the line status moves no character. -/
theorem readLsr_moved (s : Isr) : s.Moved (readLsr s).2 [] [] :=
  ⟨(List.append_nil _).symm, (List.append_nil _).symm, rfl, rfl, List.Sublist.refl _⟩

/-- The status says whether there is a character. -/
theorem readLsr_dr (s : Isr) : lsrDrGet (readLsr s).1 ≠ 0 ↔ s.uart.fifo ≠ [] := by
  show lsrDrGet s.uart.lsr ≠ 0 ↔ s.uart.fifo ≠ []
  rw [Uart.lsr, lsrDrGet_lsrBits]
  cases s.uart.fifo <;> simp

/-- It says whether the oldest one has a parity error. -/
theorem readLsr_pe {c : RxChar} {fifo : List RxChar} (hfifo : s.uart.fifo = c :: fifo) :
    lsrPeGet (readLsr s).1 ≠ 0 ↔ c.parity = true := by
  show lsrPeGet s.uart.lsr ≠ 0 ↔ c.parity = true
  rw [Uart.lsr, lsrPeGet_lsrBits, hfifo]
  rfl

/-- The timeout branch empties the FIFO. -/
theorem ctiLoop_some : ∀ {fifo : List RxChar} {s : Isr} {n : ℕ}, s.uart.fifo = fifo →
    fifo ≠ [] → fifo.length ≤ n → ∃ s', ctiLoop n s = some s' ∧ s.Moved s' fifo fifo
  | [], _, _, _, hne, _ => absurd rfl hne
  | c :: fifo, s, 0, _, _, hn => absurd hn (Nat.not_succ_le_zero _)
  | c :: fifo, s, n + 1, hfifo, _, hn => by
    obtain ⟨s₁, hs₁, hmoved, hrest⟩ := readAndRecv_some hfifo
    have hstatus := hmoved.trans (readLsr_moved s₁)
    have hdr : lsrDrGet (readLsr s₁).1 ≠ 0 ↔ fifo ≠ [] := hrest ▸ readLsr_dr s₁
    rw [ctiLoop, hs₁, Option.bind_some]
    by_cases hempty : fifo = []
    · rw [if_neg fun h => hdr.mp h hempty, hempty]
      exact ⟨_, rfl, hstatus⟩
    · rw [if_pos (hdr.mpr hempty)]
      obtain ⟨s', hs', hloop⟩ := ctiLoop_some (s := (readLsr s₁).2) hrest hempty
        (Nat.le_of_succ_le_succ hn)
      exact ⟨s', hs', hstatus.trans hloop⟩

/-! ### One turn -/

/-- A turn for a line error is right unless the character it drops is a good one. -/
theorem turnRight_rls (h : iirIidGet t.iir = uartIirRls) :
    TurnRight s t ↔ ∀ c ∈ (s.fifoAt t).head?, c.good = false := by
  unfold TurnRight
  rw [h]
  exact ⟨fun hr => hr.1 rfl, fun hr => ⟨fun _ => hr, fun h => absurd h (by decide),
    fun h => absurd h (by decide)⟩⟩

/-- A turn for received data is right when the characters of the threshold are good. -/
theorem turnRight_rda (h : iirIidGet t.iir = uartIirRda) :
    TurnRight s t ↔ ∀ c ∈ (s.fifoAt t).take 14, c.good := by
  unfold TurnRight
  rw [h]
  exact ⟨fun hr => hr.2.1 rfl, fun hr => ⟨fun h => absurd h (by decide), fun _ => hr,
    fun h => absurd h (by decide)⟩⟩

/-- A turn for a time-out is right when all characters of the FIFO are good. -/
theorem turnRight_cti (h : iirIidGet t.iir = uartIirCti) :
    TurnRight s t ↔ ∀ c ∈ s.fifoAt t, c.good := by
  unfold TurnRight
  rw [h]
  exact ⟨fun hr => hr.2.2 rfl, fun hr => ⟨fun h => absurd h (by decide),
    fun h => absurd h (by decide), fun _ => hr⟩⟩

/-- The line status branch drops the oldest character, unless all four error bits are set: then
    this one has a parity error and stays. -/
theorem lineStatus_moved (h : lineStatus s = some s') :
    ∃ rs, s.Moved s' rs [] ∧
      ([] = rs.filter RxChar.good ↔ ∀ c ∈ s.uart.fifo.head?, c.good = false) := by
  have hstatus := readLsr_moved s
  rw [lineStatus] at h
  cases hfifo : s.uart.fifo with
  | nil =>
    have hdr : ¬ lsrDrGet (readLsr s).1 ≠ 0 := fun hdr => (readLsr_dr s).mp hdr hfifo
    rw [if_neg hdr, ite_self] at h
    exact ⟨[], Option.some.inj h ▸ hstatus, iff_of_true rfl (by rintro c ⟨⟩)⟩
  | cons c fifo =>
    have hhead : (∀ d ∈ (c :: fifo).head?, d.good = false) ↔ c.good = false := by simp
    rw [hhead]
    split at h
    case isTrue hall =>
      have hparity : c.parity = true := (readLsr_pe hfifo).mp hall.2.1
      refine ⟨[], Option.some.inj h ▸ hstatus, iff_of_true rfl ?_⟩
      rw [RxChar.good, hparity]
      rfl
    case isFalse =>
      have hdr := (readLsr_dr s).mpr (hfifo ▸ List.cons_ne_nil c fifo)
      rw [if_pos hdr, readRbr_some (s := (readLsr s).2) hfifo] at h
      refine ⟨[c], Option.some.inj h ▸ ?_, ?_⟩
      · exact ⟨rfl, (List.append_nil _).symm, rfl, hfifo, List.nil_sublist _⟩
      · cases hgood : c.good <;> simp [hgood]

/-- What a turn can do: it moves the oldest characters, and passes on the good ones if and only if
    it is right. -/
theorem isrTurn_moved (h : isrTurn s t = some s') :
    ∃ rs hs, (s.enter t).Moved s' rs hs ∧ (hs = rs.filter RxChar.good ↔ TurnRight s t) := by
  have hstay : ∀ b, (s.enter t).Moved { s.enter t with bFlag := b } [] [] :=
    fun b => ⟨(List.append_nil _).symm, (List.append_nil _).symm, rfl, rfl, List.Sublist.refl _⟩
  rw [isrTurn] at h
  split_ifs at h with hrls hrda hcti hother
  · obtain ⟨rs, hmoved, hright⟩ := lineStatus_moved h
    exact ⟨rs, [], hmoved, hright.trans (turnRight_rls hrls).symm⟩
  · refine ⟨_, _, rdaLoop_moved h, ?_⟩
    rw [turnRight_rda hrda, eq_comm, List.filter_eq_self]
    rfl
  · have hne : s.fifoAt t ≠ [] := by
      rintro hempty
      change ctiLoop (s.fifoAt t).length _ = _ at h
      rw [hempty] at h
      cases h
    obtain ⟨s₁, hs₁, hmoved⟩ := ctiLoop_some (s := s.enter t) rfl hne le_rfl
    cases hs₁.symm.trans h
    refine ⟨_, _, hmoved, ?_⟩
    rw [turnRight_cti hcti, eq_comm, List.filter_eq_self]
    rfl
  all_goals
    refine ⟨[], [], Option.some.inj h ▸ hstay _, iff_of_true rfl ?_⟩
    exact ⟨fun h => absurd h hrls, fun h => absurd h hrda, fun h => absurd h hcti⟩

/-- A turn goes through if the cause keeps its promise. -/
theorem isrTurn_isSome (h : CauseHolds s t) : (isrTurn s t).isSome := by
  have hstatus : (lineStatus (s.enter t)).isSome := by
    unfold lineStatus
    extract_lets lsrValue
    split_ifs with _ hdr
    · rfl
    · obtain ⟨c, fifo, hfifo⟩ := List.exists_cons_of_ne_nil ((readLsr_dr _).mp hdr)
      rw [readRbr_some (s := (readLsr (s.enter t)).2) hfifo]
      rfl
    · rfl
  unfold isrTurn
  extract_lets s₁ iirValue
  split_ifs with hrls hrda hcti
  · exact hstatus
  · exact rdaLoop_isSome_iff.mpr (h.1 hrda)
  · obtain ⟨s', hs', -⟩ := ctiLoop_some (s := s.enter t) rfl (h.2 hcti) le_rfl
    exact Option.isSome_iff_exists.mpr ⟨s', hs'⟩
  all_goals rfl

/-! ### Whole runs -/

/-- If two parts each pass on some of what they read, then together they pass on the good ones if
    and only if each does. -/
theorem append_eq_filter_iff {α : Type*} {p : α → Bool} {hs rs hs' rs' : List α}
    (hsub : hs.Sublist rs) (hsub' : hs'.Sublist rs') :
    hs ++ hs' = (rs ++ rs').filter p ↔ hs = rs.filter p ∧ hs' = rs'.filter p := by
  rw [List.filter_append]
  constructor
  · intro heq
    have hall : ∀ x ∈ hs ++ hs', p x = true := by
      rw [heq, ← List.filter_append]
      exact fun x hx => (List.mem_filter.mp hx).2
    rw [List.forall_mem_append] at hall
    have hle : hs.Sublist (rs.filter p) := by
      simpa only [List.filter_eq_self.mpr hall.1] using hsub.filter p
    have hle' : hs'.Sublist (rs'.filter p) := by
      simpa only [List.filter_eq_self.mpr hall.2] using hsub'.filter p
    have hlength := congrArg List.length heq
    rw [List.length_append, List.length_append] at hlength
    have := hle.length_le
    have := hle'.length_le
    exact ⟨hle.eq_of_length (by omega), hle'.eq_of_length (by omega)⟩
  · rintro ⟨rfl, rfl⟩
    rfl

/-- What a run can do: it moves the oldest characters, and passes on the good ones if and only if
    all its turns are right. -/
theorem isr_run_moved : ∀ {turns : List IsrTurn} {s : Isr}, Along isrTurn CauseHolds s turns →
    ∃ s' rs hs, run isrTurn s turns = some s' ∧
      s'.reads = s.reads ++ rs ∧ s'.handed = s.handed ++ hs ∧ hs.Sublist rs ∧
      s'.device = (hs.map RxChar.byte).foldl uartDataRecv s.device ∧
      rs ++ s'.uart.fifo = s.uart.fifo ++ turns.flatMap IsrTurn.arrivals ∧
      (hs = rs.filter RxChar.good ↔ Along isrTurn TurnRight s turns)
  | [], s, _ => ⟨s, [], [], rfl, (List.append_nil _).symm, (List.append_nil _).symm,
      List.Sublist.refl _, rfl, (List.append_nil _).symm, iff_of_true rfl trivial⟩
  | t :: turns, s, hcause => by
    obtain ⟨s₁, hs₁⟩ := Option.isSome_iff_exists.mp (isrTurn_isSome hcause.1)
    obtain ⟨rs, hs, hmoved, hright⟩ := isrTurn_moved hs₁
    obtain ⟨s', rs', hs', hrun, hreads, hhanded, hsub, hdevice, hfifo, hall⟩ :=
      isr_run_moved (hcause.2 s₁ hs₁)
    have hfirst : s.uart.fifo ++ t.arrivals = rs ++ s₁.uart.fifo := hmoved.fifo
    refine ⟨s', rs ++ rs', hs ++ hs', ?_, ?_, ?_, hmoved.sublist.append hsub, ?_, ?_, ?_⟩
    · rw [run_cons, hs₁, Option.bind_some, hrun]
    · rw [hreads, hmoved.reads, List.append_assoc]
      rfl
    · rw [hhanded, hmoved.handed, List.append_assoc]
      rfl
    · rw [hdevice, hmoved.device, List.map_append, List.foldl_append]
      rfl
    · rw [List.append_assoc, hfifo, List.flatMap_cons, ← List.append_assoc, ← hfirst,
        List.append_assoc]
    · rw [append_eq_filter_iff hmoved.sublist hsub, hright, hall, Along]
      refine and_congr_right fun _ => ⟨fun h s₂ hs₂ => ?_, fun h => h s₁ hs₁⟩
      cases hs₁.symm.trans hs₂
      exact h

/-- The handler when the interrupt occurs. -/
def isrEntry (u : Uart) (d : Device) : Isr :=
  { uart := u, device := d, reads := [], handed := [], bFlag := true }

/-- **When the good characters are passed on.**  For every FIFO and every sequence of causes, each
    true of the FIFO it finds, the handler gets through, reads the received characters in order, and
    calls `uart_data_recv` for each it passes on.  These are the good ones of those it read if and
    only if no data turn reads a bad one and no line status turn finds a good one. -/
theorem passes_good_iff (u : Uart) (d : Device) (turns : List IsrTurn)
    (hcause : Along isrTurn CauseHolds (isrEntry u d) turns) :
    ∃ s, run isrTurn (isrEntry u d) turns = some s ∧
      s.reads ++ s.uart.fifo = u.fifo ++ turns.flatMap IsrTurn.arrivals ∧
      s.device = (s.handed.map RxChar.byte).foldl uartDataRecv d ∧
      (s.handed = s.reads.filter RxChar.good ↔ Along isrTurn TurnRight (isrEntry u d) turns) := by
  obtain ⟨s, rs, hs, hrun, hreads, hhanded, -, hdevice, hfifo, hright⟩ := isr_run_moved hcause
  have hreads : s.reads = rs := hreads
  have hhanded : s.handed = hs := hhanded
  subst hreads hhanded
  exact ⟨s, hrun, hfifo, hdevice, hright⟩

/-- An `A` that arrived well, and one with a parity error. -/
def charA : RxChar := ⟨65, false, false⟩
/-- An `A` with a parity error. -/
def badCharA : RxChar := ⟨65, true, false⟩

/-- Fourteen good characters are passed on; the bad one after them is dropped. -/
theorem passes_good_iff_frame : ∃ s,
    run isrTurn (isrEntry ⟨List.replicate 14 charA ++ [badCharA], false⟩ (initDevice []))
      [⟨[], false, 0xC4⟩, ⟨[], false, 0xC6⟩] = some s ∧
    s.reads ++ s.uart.fifo = List.replicate 14 charA ++ [badCharA] ++
      [⟨[], false, 0xC4⟩, ⟨[], false, 0xC6⟩].flatMap IsrTurn.arrivals ∧
    s.device = (s.handed.map RxChar.byte).foldl uartDataRecv (initDevice []) ∧
    (s.handed = s.reads.filter RxChar.good ↔
      Along isrTurn TurnRight
        (isrEntry ⟨List.replicate 14 charA ++ [badCharA], false⟩ (initDevice []))
        [⟨[], false, 0xC4⟩, ⟨[], false, 0xC6⟩]) :=
  passes_good_iff _ _ _ (by decide +kernel)

/-- After an overrun the oldest good character is dropped. -/
theorem good_char_dropped :
    ¬ ∀ (u : Uart) (d : Device) (turns : List IsrTurn) (s : Isr),
      Along isrTurn CauseHolds (isrEntry u d) turns → run isrTurn (isrEntry u d) turns = some s →
      s.handed = s.reads.filter RxChar.good := by
  intro hall
  have hdropped := hall ⟨[charA], true⟩ (initDevice []) [⟨[], false, 0xC6⟩]
    { isrEntry ⟨[], false⟩ (initDevice []) with reads := [charA] } (by decide +kernel)
    rfl
  exact absurd hdropped (by decide)

end SerialNet
