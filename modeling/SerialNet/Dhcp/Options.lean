import SerialNet.Lib.Loads
import SerialNet.Dhcp.Message

namespace SerialNet

/-!
# The bytes `_ParseDhcpOptions` reads

The option loop once more, as a program that loads bytes in the order of the source; its result is
the one of `parseDhcpOptions` (`valueOn_parseDhcpOptions`).  The loop tests a byte for the end mark
before it tests the position, and compares neither a length nor the four bytes of an address with
what is left of the message.  So it stays inside `DHCP_MSG` exactly when the options come to their
end mark there (`options_read_inside_iff`).
-/

namespace Loads

/-- `NST_MOVE_MEM` of four bytes to a word. -/
def moveWord (p : ℕ) : Prog (Load ℕ UInt8) UInt32 := do
  let b₀ ← load p
  let b₁ ← load (p + 1)
  let b₂ ← load (p + 2)
  let b₃ ← load (p + 3)
  pure (.ofNat (b₀.toNat + 256 * b₁.toNat + 65536 * b₂.toNat + 16777216 * b₃.toNat))

/-- The body of the option loop. -/
def parseDhcpOption (p : ℕ) (o : DhcpOptions) : Prog (Load ℕ UInt8) (ℕ × DhcpOptions) := do
  if (← load p) = dhcpOptionIdPad then pure (p + 1, o)
  else
    let len := (← load (p + 1)).toNat
    if (← load p) = dhcpOptionIdMsgType then
      let type ← load (p + 2)
      pure (p + 2 + len, { o with msgType := type, ret := o.ret ||| 0x01 })
    else if (← load p) = dhcpOptionIdReqIpAddr then
      let ip ← moveWord (p + 2)
      pure (p + 2 + len, { o with reqIpAddr := ip, ret := o.ret ||| 0x02 })
    else if (← load p) = dhcpOptionIdServerId then
      let ip ← moveWord (p + 2)
      pure (p + 2 + len, { o with serverId := ip, ret := o.ret ||| 0x04 })
    else pure (p + 2 + len, o)

/-- The option loop, for at most `fuel` tests of its condition. -/
def parseDhcpLoop : ℕ → ℕ → DhcpOptions → Prog (Load ℕ UInt8) (Option DhcpOptions)
  | 0, _, _ => pure none
  | fuel + 1, p, o => do
    -- The byte is looked at before the position.
    if (← load p) = dhcpOptionIdEnd then pure (some o)
    else if p < sizeofDhcpMsg then
      let r ← parseDhcpOption p o
      parseDhcpLoop fuel r.1 r.2
    else pure (some o)

/-- `_ParseDhcpOptions` with the out parameters of `o`; `none` if the loop does not end. -/
def parseDhcpOptions (o : DhcpOptions) : Prog (Load ℕ UInt8) (Option DhcpOptions) :=
  parseDhcpLoop (sizeofDhcpMsg - offOptions + 1) offOptions { o with ret := 0 }

end Loads

section Value

variable (m : Memory)

/-- Four bytes are read as a word. -/
@[simp] theorem valueOn_moveWord (p : ℕ) :
    valueOn m (Loads.moveWord p) = .ofNat (load32 m p) := by
  simp [Loads.moveWord, load32]

/-- The program reads an option as the function does. -/
theorem valueOn_parseDhcpOption (p : ℕ) (o : DhcpOptions) :
    valueOn m (Loads.parseDhcpOption p o) = parseDhcpOption m p o := by
  simp [Loads.parseDhcpOption, parseDhcpOption]

/-- The program computes the loop of `Dhcp/Message`. -/
theorem valueOn_parseDhcpLoop (fuel : ℕ) (p : ℕ) (o : DhcpOptions) (h : sizeofDhcpMsg - p ≤ fuel) :
    valueOn m (Loads.parseDhcpLoop (fuel + 1) p o) = some (parseDhcpLoop m fuel p o) := by
  induction fuel generalizing p o with
  | zero =>
    have hend : ¬ p < sizeofDhcpMsg := by omega
    simp [Loads.parseDhcpLoop, parseDhcpLoop, hend]
  | succ fuel ih =>
    rw [Loads.parseDhcpLoop, parseDhcpLoop, valueOn_load_bind]
    simp only [valueOn_ite, valueOn_bind, valueOn_pure, valueOn_parseDhcpOption]
    by_cases hmark : m p = dhcpOptionIdEnd
    · rw [if_pos hmark, if_neg fun hc => hc.1 hmark]
    · by_cases hp : p < sizeofDhcpMsg
      · rw [if_neg hmark, if_pos hp, if_pos ⟨hmark, hp⟩]
        exact ih _ _ (by have := lt_parseDhcpOption m p o; omega)
      · rw [if_neg hmark, if_neg hp, if_neg fun hc => hp hc.2]

/-- For the initial values of its caller the program computes `parseDhcpOptions`. -/
theorem valueOn_parseDhcpOptions :
    valueOn m (Loads.parseDhcpOptions ⟨0xff, 0, 0, 0⟩) = some (parseDhcpOptions m) :=
  valueOn_parseDhcpLoop m _ _ _ (by decide)

end Value

/-! ### The condition -/

/-- How many bytes are read as the value of an option, whatever its length says. -/
def valueSize (id : UInt8) : ℕ :=
  if id = dhcpOptionIdMsgType then 1
  else if id = dhcpOptionIdReqIpAddr ∨ id = dhcpOptionIdServerId then 4 else 0

/-- The options come to their end mark within these bytes, and so do the values that are read. -/
inductive EndsInside : List UInt8 → Prop where
  | endMark (rest : List UInt8) : EndsInside (dhcpOptionIdEnd :: rest)
  | pad {rest : List UInt8} (hrest : EndsInside rest) : EndsInside (dhcpOptionIdPad :: rest)
  | option {id len : UInt8} {data : List UInt8} (hpad : id ≠ dhcpOptionIdPad)
      (hend : id ≠ dhcpOptionIdEnd) (hvalue : valueSize id ≤ data.length)
      (hrest : EndsInside (data.drop len.toNat)) : EndsInside (id :: len :: data)

/-- The bytes of the message from `p` on. -/
def restOf (m : Memory) (p : ℕ) : List UInt8 := loadBytes m p (sizeofDhcpMsg - p)

/-- Address `p` lies inside the message. -/
def InMsg (p : ℕ) : Prop := p < sizeofDhcpMsg

instance : DecidablePred InMsg := fun p => inferInstanceAs (Decidable (p < sizeofDhcpMsg))

section Condition

variable {m : Memory} {p : ℕ}

/-- Behind the message there is nothing to read. -/
theorem restOf_nil (h : sizeofDhcpMsg ≤ p) : restOf m p = [] := by
  rw [restOf, Nat.sub_eq_zero_of_le h]
  rfl

/-- Inside the message there is a byte and what follows it. -/
theorem restOf_cons (h : p < sizeofDhcpMsg) : restOf m p = m p :: restOf m (p + 1) := by
  have hsplit := loadBytes_add m p 1 (sizeofDhcpMsg - (p + 1))
  rw [show 1 + (sizeofDhcpMsg - (p + 1)) = sizeofDhcpMsg - p by omega] at hsplit
  exact hsplit

/-- What follows `k` bytes further on. -/
theorem drop_restOf (k : ℕ) : (restOf m p).drop k = restOf m (p + k) := by
  by_cases hk : k ≤ sizeofDhcpMsg - p
  · have hsplit := loadBytes_add m p k (sizeofDhcpMsg - p - k)
    rw [show k + (sizeofDhcpMsg - p - k) = sizeofDhcpMsg - p by omega] at hsplit
    rw [restOf, hsplit, List.drop_left' (length_loadBytes m p k), restOf, Nat.sub_sub]
  · rw [restOf_nil (show sizeofDhcpMsg ≤ p + k by omega)]
    apply List.drop_eq_nil_of_le
    rw [restOf, length_loadBytes]
    omega

/-- A word is inside when its last byte is. -/
theorem readsWithin_moveWord :
    ReadsWithin m InMsg (Loads.moveWord p) ↔ p + 3 < sizeofDhcpMsg := by
  simp only [Loads.moveWord, readsWithin_load_bind, readsWithin_pure, InMsg, and_true]
  omega

/-- The bytes that one turn reads behind the option's id. -/
theorem readsWithin_parseDhcpOption (o : DhcpOptions) (hpad : m p ≠ dhcpOptionIdPad) :
    ReadsWithin m InMsg (Loads.parseDhcpOption p o) ↔
      p + 1 + valueSize (m p) < sizeofDhcpMsg := by
  unfold Loads.parseDhcpOption valueSize
  rw [readsWithin_load_bind, readsWithin_ite, if_neg hpad]
  simp only [readsWithin_load_bind, readsWithin_ite, readsWithin_bind (Loads.moveWord (p + 2)),
    readsWithin_moveWord, readsWithin_pure, InMsg, and_true]
  by_cases htype : m p = dhcpOptionIdMsgType
  · rw [if_pos htype, if_pos htype]
    omega
  · rw [if_neg htype, if_neg htype]
    by_cases hreq : m p = dhcpOptionIdReqIpAddr
    · rw [if_pos hreq, if_pos (Or.inl hreq)]
      omega
    · rw [if_neg hreq]
      by_cases hserver : m p = dhcpOptionIdServerId
      · rw [if_pos hserver, if_pos (Or.inr hserver)]
        omega
      · rw [if_neg hserver, if_neg (not_or.mpr ⟨hreq, hserver⟩), and_true]
        omega

/-- Where any other option leads. -/
theorem parseDhcpOption_next {o : DhcpOptions} (hpad : m p ≠ dhcpOptionIdPad) :
    (parseDhcpOption m p o).1 = p + 1 + 1 + (m (p + 1)).toNat := by
  unfold parseDhcpOption
  rw [if_neg hpad]
  dsimp only
  split_ifs <;> rfl

/-- A pad is one byte. -/
theorem endsInside_pad_iff {rest : List UInt8} :
    EndsInside (dhcpOptionIdPad :: rest) ↔ EndsInside rest := by
  constructor
  · intro h
    generalize hl : dhcpOptionIdPad :: rest = l at h
    cases h with
    | endMark => exact absurd (List.cons.inj hl).1 (by decide)
    | pad hrest => rwa [(List.cons.inj hl).2]
    | option hpad => exact absurd (List.cons.inj hl).1.symm hpad
  · exact .pad

/-- An option needs its length byte. -/
theorem not_endsInside_single {id : UInt8} (hpad : id ≠ dhcpOptionIdPad)
    (hend : id ≠ dhcpOptionIdEnd) : ¬ EndsInside [id] := by
  intro h
  cases h with
  | endMark => exact hend rfl
  | pad => exact hpad rfl

/-- Behind any other option come its value and its data, as far as the message goes. -/
theorem endsInside_option_iff {id len : UInt8} {data : List UInt8} (hpad : id ≠ dhcpOptionIdPad)
    (hend : id ≠ dhcpOptionIdEnd) :
    EndsInside (id :: len :: data) ↔
      valueSize id ≤ data.length ∧ EndsInside (data.drop len.toNat) := by
  constructor
  · intro h
    cases h with
    | endMark => exact absurd rfl hend
    | pad => exact absurd rfl hpad
    | option _ _ hvalue hrest => exact ⟨hvalue, hrest⟩
  · exact fun h => .option hpad hend h.1 h.2

/-- **The loop reads inside the message** exactly when the options from here on end there. -/
theorem readsWithin_parseDhcpLoop (fuel : ℕ) (p : ℕ) (o : DhcpOptions)
    (h : sizeofDhcpMsg - p ≤ fuel) :
    ReadsWithin m InMsg (Loads.parseDhcpLoop (fuel + 1) p o) ↔ EndsInside (restOf m p) := by
  induction fuel generalizing p o with
  | zero =>
    rw [restOf_nil (by omega), Loads.parseDhcpLoop, readsWithin_load_bind]
    exact iff_of_false (fun hc => absurd hc.1 (by unfold InMsg; omega)) fun hc => by cases hc
  | succ fuel ih =>
    rw [Loads.parseDhcpLoop, readsWithin_load_bind, readsWithin_ite, readsWithin_ite,
      readsWithin_bind, valueOn_parseDhcpOption]
    by_cases hp : p < sizeofDhcpMsg
    · rw [and_iff_right (show InMsg p from hp), restOf_cons hp, if_pos hp]
      by_cases hmark : m p = dhcpOptionIdEnd
      · rw [if_pos hmark, hmark]
        exact iff_of_true (readsWithin_pure _) (.endMark _)
      · rw [if_neg hmark, ih _ _ (by have := lt_parseDhcpOption m p o; omega)]
        by_cases hpad : m p = dhcpOptionIdPad
        · -- a pad is one byte
          have hreads : ReadsWithin m InMsg (Loads.parseDhcpOption p o) := by
            rw [Loads.parseDhcpOption, readsWithin_load_bind, if_pos hpad]
            exact ⟨hp, readsWithin_pure _⟩
          rw [parseDhcpOption, if_pos hpad, and_iff_right hreads, hpad, endsInside_pad_iff]
        · rw [readsWithin_parseDhcpOption o hpad, parseDhcpOption_next hpad]
          by_cases hlen : p + 1 < sizeofDhcpMsg
          · rw [restOf_cons hlen, endsInside_option_iff hpad hmark, drop_restOf]
            apply and_congr_left
            intro _
            rw [restOf, length_loadBytes]
            omega
          · -- the length byte is not in the message
            rw [restOf_nil (show sizeofDhcpMsg ≤ p + 1 by omega)]
            exact iff_of_false (fun hc => by omega) (not_endsInside_single hpad hmark)
    · rw [restOf_nil (by omega)]
      exact iff_of_false (fun hc => hp hc.1) fun hc => by cases hc

end Condition

/-- **When option parsing stays inside the message.**  For every content of `DHCP_MSG`, of the
    memory behind it and of the out parameters the loop ends; and it reads bytes of the message
    only, exactly when the options come to their end mark, and the values read for the options 50,
    53 and 54 lie, inside the message. -/
theorem options_read_inside_iff (m : Memory) (o : DhcpOptions) :
    (∃ r, valueOn m (Loads.parseDhcpOptions o) = some r) ∧
      (ReadsWithin m InMsg (Loads.parseDhcpOptions o) ↔ EndsInside (restOf m offOptions)) :=
  ⟨⟨_, valueOn_parseDhcpLoop m _ _ _ (by decide)⟩, readsWithin_parseDhcpLoop _ _ _ (by decide)⟩

/-- A message in which every byte is 200: the third option would start 96 bytes behind its end. -/
theorem options_read_outside :
    ¬ ∀ (m : Memory) (o : DhcpOptions), (∃ r, valueOn m (Loads.parseDhcpOptions o) = some r) ∧
      ReadsWithin m InMsg (Loads.parseDhcpOptions o) := by
  intro hall
  have hinside := (hall (fun _ => 200) ⟨0xff, 0, 0, 0⟩).2
  exact absurd hinside (by decide)

end SerialNet
