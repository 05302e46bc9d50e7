import SerialNet.At.Parse

namespace SerialNet

/-!
# Receiving a command line

The AT half of `uart_data_recv`: a state machine that waits for `AT` or `at`, stores the line
into `uart_rec_atcmd` up to the line feed, puts a NUL over the byte before it, and then leaves
the buffer alone until `AtThread` has processed it.
-/

/-- `at_stateType`. -/
inductive AtState where
  | idle | recving | process | ipSending | ipSended | ipTraning
deriving DecidableEq, Repr

/-- The variables of the command path, with what its two sides have put out. -/
structure AtUart where
  atState : AtState
  atHead : UInt8 × UInt8
  pCmdLine : ℕ
  mem : Memory
  /-- What `AtThread` did, in order. -/
  events : List AtEvent
  /-- What the interrupt printed. -/
  console : List String

/-- The printed answer to a line that arrives too early. -/
def busyLine : String := "\r\nbusy p...\r\n"

/-- The AT branch of `uart_data_recv`. -/
def atRecv (s : AtUart) (dummy : UInt8) : AtUart :=
  match s.atState with
  | .idle =>
      let s := { s with atHead := (s.atHead.2, dummy) }
      if s.atHead = (65, 84) ∨ s.atHead = (97, 116) then
        -- `atHead[1] = 0`: the two bytes are used up.
        { s with atState := .recving, pCmdLine := uartRecAtcmd, atHead := (s.atHead.1, 0) }
      else s
  | .recving =>
      let s := { s with mem := store8 s.mem s.pCmdLine dummy }
      let s :=
        if dummy = 10 then
          -- The line feed is stored first; the NUL goes over the byte before it.
          let s := { s with pCmdLine := s.pCmdLine - 1 }
          { s with mem := store8 s.mem s.pCmdLine 0, atState := .process }
        -- The buffer is full: the line is given up.
        else if s.pCmdLine ≥ uartRecAtcmd + (maxAtRecvSize - 1) then { s with atState := .idle }
        else s
      { s with pCmdLine := s.pCmdLine + 1 }
  | .process => if dummy = 10 then { s with console := s.console ++ [busyLine] } else s
  | .ipSending => s
  | .ipSended => s
  | .ipTraning => s

/-- Receive several bytes. -/
def atFeed (s : AtUart) (bytes : List UInt8) : AtUart := bytes.foldl atRecv s

theorem atFeed_append (s : AtUart) (xs ys : List UInt8) :
    atFeed s (xs ++ ys) = atFeed (atFeed s xs) ys := List.foldl_append

/-- The two bytes that open a command line. -/
def IsHead (head : List UInt8) : Prop := head = ascii "AT" ∨ head = ascii "at"

/-- Whatever came before, `AT` or `at` starts a line. -/
theorem atFeed_head {s : AtUart} (hidle : s.atState = .idle) {head : List UInt8}
    (hhead : IsHead head) :
    (atFeed s head).atState = .recving ∧ (atFeed s head).pCmdLine = uartRecAtcmd ∧
      (atFeed s head).mem = s.mem ∧ (atFeed s head).events = s.events := by
  have hA : ascii "AT" = [65, 84] := by decide
  have ha : ascii "at" = [97, 116] := by decide
  rcases hhead with h | h
  · rw [h, hA]
    simp [atFeed, atRecv, hidle]
  · rw [h, ha]
    simp [atFeed, atRecv, hidle]

/-- The bytes of the line are stored one after the other.  Induction on the bytes still to
    come; `done` are the ones already stored. -/
theorem atFeed_line : ∀ (line done : List UInt8) (s : AtUart), s.atState = .recving →
    s.pCmdLine = uartRecAtcmd + done.length → BytesAt s.mem uartRecAtcmd done →
    (∀ x ∈ line, x ≠ 10) → done.length + line.length ≤ 199 →
    (atFeed s line).atState = .recving ∧
      (atFeed s line).pCmdLine = uartRecAtcmd + (done ++ line).length ∧
      BytesAt (atFeed s line).mem uartRecAtcmd (done ++ line) ∧
      (atFeed s line).events = s.events
  | [], done, s, hst, hp, hm, _, _ => by
    rw [List.append_nil]
    exact ⟨hst, hp, hm, rfl⟩
  | x :: line, done, s, hst, hp, hm, hlf, hlen => by
    rw [List.length_cons] at hlen
    have hx : x ≠ 10 := hlf x (List.mem_cons_self ..)
    have hroom : ¬ uartRecAtcmd + done.length ≥ uartRecAtcmd + (maxAtRecvSize - 1) := by
      unfold maxAtRecvSize; omega
    have hstep : atRecv s x = { s with mem := store8 s.mem (uartRecAtcmd + done.length) x
                                       pCmdLine := uartRecAtcmd + done.length + 1 } := by
      simp only [atRecv, hst, hx, hp, hroom, if_false]
    have hm' : BytesAt (store8 s.mem (uartRecAtcmd + done.length) x) uartRecAtcmd (done ++ [x]) :=
      bytesAt_append.2 ⟨hm.store8 (by omega), store8_self _ _ _, trivial⟩
    have ih := atFeed_line line (done ++ [x]) (atRecv s x) (by rw [hstep]; exact hst)
      (by rw [hstep, List.length_append]; rfl) (by rw [hstep]; exact hm')
      (fun y hy => hlf y (List.mem_cons_of_mem _ hy))
      (by rw [List.length_append, List.length_singleton]; omega)
    rw [List.append_assoc, List.singleton_append] at ih
    obtain ⟨h1, h2, h3, h4⟩ := ih
    exact ⟨h1, h2, h3, h4.trans (by rw [hstep])⟩

/-- The line feed ends the line: a NUL stands where the carriage return was. -/
theorem atRecv_lineFeed {s : AtUart} {line : List UInt8} (hst : s.atState = .recving)
    (hp : s.pCmdLine = uartRecAtcmd + line.length + 1)
    (hm : BytesAt s.mem uartRecAtcmd (line ++ [13])) :
    (atRecv s 10).atState = .process ∧ BytesAt (atRecv s 10).mem uartRecAtcmd (line ++ [0]) ∧
      (atRecv s 10).events = s.events := by
  have hline := (bytesAt_append.1 hm).1
  have hstep : atRecv s 10 = { s with
      mem := store8 (store8 s.mem (uartRecAtcmd + line.length + 1) 10)
        (uartRecAtcmd + line.length) 0
      pCmdLine := uartRecAtcmd + line.length + 1
      atState := .process } := by
    simp [atRecv, hst, hp]
  rw [hstep]
  exact ⟨rfl, bytesAt_append.2 ⟨(hline.store8 (by omega)).store8 (by omega), store8_self _ _ _,
    trivial⟩, rfl⟩

/-- A complete line is stored and handed to `AtThread`. -/
theorem atFeed_command {s : AtUart} (hidle : s.atState = .idle) {head line : List UInt8}
    (hhead : IsHead head) (hlf : ∀ x ∈ line, x ≠ 10) (hlen : line.length ≤ 198) :
    (atFeed s (head ++ line ++ [13, 10])).atState = .process ∧
      BytesAt (atFeed s (head ++ line ++ [13, 10])).mem uartRecAtcmd (line ++ [0]) ∧
      (atFeed s (head ++ line ++ [13, 10])).events = s.events := by
  obtain ⟨h1, h2, -, h4⟩ := atFeed_head hidle hhead
  have hbytes : head ++ line ++ [13, 10] = head ++ ((line ++ [13]) ++ [10]) := by simp
  obtain ⟨k1, k2, k3, k4⟩ := atFeed_line (line ++ [13]) [] (atFeed s head) h1 h2 trivial
    (by
      intro x hx
      rcases List.mem_append.1 hx with h | h
      · exact hlf x h
      · rw [List.mem_singleton.1 h]; decide)
    (by rw [List.length_append, List.length_singleton, List.length_nil]; omega)
  rw [hbytes, atFeed_append, atFeed_append]
  rw [List.nil_append] at k2 k3
  obtain ⟨l1, l2, l3⟩ := atRecv_lineFeed k1
    (by rw [k2, List.length_append, List.length_singleton, Nat.add_assoc]) k3
  exact ⟨l1, l2, l3.trans (k4.trans h4)⟩

/-- While a line is being processed, further bytes change nothing but the console. -/
theorem atFeed_process {s : AtUart} (hst : s.atState = .process) (bytes : List UInt8) :
    (atFeed s bytes).atState = .process ∧ (atFeed s bytes).mem = s.mem ∧
      (atFeed s bytes).events = s.events := by
  induction bytes generalizing s with
  | nil => exact ⟨hst, rfl, rfl⟩
  | cons b bytes ih =>
    have hb : (atRecv s b).atState = .process ∧ (atRecv s b).mem = s.mem ∧
        (atRecv s b).events = s.events := by
      simp only [atRecv, hst]
      split
      · exact ⟨rfl, rfl, rfl⟩
      · exact ⟨hst, rfl, rfl⟩
    obtain ⟨h1, h2, h3⟩ := ih hb.1
    exact ⟨h1, h2.trans hb.2.1, h3.trans hb.2.2⟩

end SerialNet
