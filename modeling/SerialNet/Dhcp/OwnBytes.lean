import SerialNet.Dhcp.Invariant
import SerialNet.Dhcp.Pool

namespace SerialNet

/-!
# What a DHCP payload says by itself

`DHCPS_RecvCb` copies the payload over `DhcpMsg` and then reads the whole buffer, wherever the
payload ended.  `ownOptions` walks through the options by the received bytes alone and notes
where the three values stand; it gives up at the first byte that was not received.  Wherever it
comes to an end the option loop does the same on every buffer with this payload
(`parseDhcpLoop_own`), and where it gives up the old bytes of the buffer can continue the options
with a message type of their choice (`parseDhcpLoop_stale`).
-/

/-! ### The buffer after a reception -/

/-- `DhcpMsg` and what lies behind it, before a reception. -/
def oldBytes (s : Dhcp) (beyond : Memory) : Memory := fun p =>
  if p < sizeofDhcpMsg then s.msg p else beyond p

/-- The memory after `payload` was copied over `old`. -/
def overlay (payload : List UInt8) (old : Memory) : Memory :=
  (pbufCopyPartial payload old sizeofDhcpMsg).2

/-- The request read after `payload` was copied over `old`. -/
def decodeOver (payload : List UInt8) (old : Memory) : Option DhcpRequest :=
  decodeRequest (pbufCopyPartial payload old sizeofDhcpMsg).1 (overlay payload old)

/-- What is decoded is the payload over the bytes of the message before. -/
theorem receivedRequest_eq (s : Dhcp) (payload : List UInt8) (beyond : Memory) :
    receivedRequest s payload beyond = decodeOver payload (oldBytes s beyond) := rfl

/-- Address `p` of the buffer holds a byte of the payload. -/
def Received (payload : List UInt8) (p : ℕ) : Prop := p < payload.length ∧ p < sizeofDhcpMsg

instance (payload : List UInt8) (p : ℕ) : Decidable (Received payload p) :=
  inferInstanceAs (Decidable (_ ∧ _))

/-- Memory `m` holds the received bytes. -/
def HoldsPayload (m : Memory) (payload : List UInt8) : Prop :=
  ∀ p b, p < sizeofDhcpMsg → payload[p]? = some b → m p = b

variable {payload : List UInt8} {old : Memory} {p : ℕ}

/-- A byte of the payload that fits into the buffer is received. -/
theorem received_of_getElem? {b : UInt8} (hp : p < sizeofDhcpMsg) (hb : payload[p]? = some b) :
    Received payload p := ⟨(List.getElem?_eq_some_iff.mp hb).1, hp⟩

/-- Behind the payload the old bytes remain. -/
theorem overlay_of_not_received (h : ¬ Received payload p) : overlay payload old p = old p := by
  have hlen : (payload.take sizeofDhcpMsg).length ≤ p := by
    rw [List.length_take]
    unfold Received at h
    omega
  have hout := storeBytes_outside old (p := 0) (q := p) (.inr (by rw [Nat.zero_add]; exact hlen))
  exact hout

/-- In the payload's place there is the payload. -/
theorem overlay_of_received (h : Received payload p) :
    payload[p]? = some (overlay payload old p) := by
  have hlen : p < (payload.take sizeofDhcpMsg).length := by
    rw [List.length_take]
    exact lt_min h.2 h.1
  have hin := storeBytes_inside old 0 hlen
  rw [Nat.zero_add, List.getElem_take] at hin
  rw [List.getElem?_eq_getElem h.1]
  exact congrArg some hin.symm

/-- What a received byte is does not depend on the old ones. -/
theorem overlay_eq_iff (old : Memory) {v : UInt8} (h : Received payload p) :
    overlay payload old p = v ↔ payload[p]? = some v := by
  rw [overlay_of_received h, Option.some_inj]

/-- The buffer holds the payload. -/
theorem holdsPayload_overlay (payload : List UInt8) (old : Memory) :
    HoldsPayload (overlay payload old) payload := by
  intro p b hp hb
  exact (overlay_eq_iff old (received_of_getElem? hp hb)).mpr hb

/-- Received bytes are the same over any old contents. -/
theorem overlay_congr (old old' : Memory) (h : Received payload p) :
    overlay payload old p = overlay payload old' p :=
  Option.some.inj ((overlay_of_received h).symm.trans (overlay_of_received h))

/-! ### The options by the received bytes -/

/-- Where the values of the last message type, requested address and server id stand. -/
structure OptionPlaces where
  msgType : Option ℕ
  reqIpAddr : Option ℕ
  serverId : Option ℕ
deriving DecidableEq

/-- No option seen yet. -/
def OptionPlaces.empty : OptionPlaces := ⟨none, none, none⟩

/-- Note option `id` with its value at `p`. -/
def OptionPlaces.note (o : OptionPlaces) (id : UInt8) (p : ℕ) : OptionPlaces :=
  if id = dhcpOptionIdMsgType then { o with msgType := some p }
  else if id = dhcpOptionIdReqIpAddr then { o with reqIpAddr := some p }
  else if id = dhcpOptionIdServerId then { o with serverId := some p }
  else o

/-- The option loop by the received bytes alone: no result when an option's id, or a length that
    is needed to find the next one, was not received. -/
def ownOptions (payload : List UInt8) : ℕ → ℕ → OptionPlaces → Option OptionPlaces
  | 0, _, o => some o
  | fuel + 1, p, o =>
      if p < sizeofDhcpMsg then
        match payload[p]? with
        | none => none
        | some id =>
            if id = dhcpOptionIdEnd then some o
            else if id = dhcpOptionIdPad then ownOptions payload fuel (p + 1) o
            else if p + 2 < sizeofDhcpMsg then
              match payload[p + 1]? with
              | none => none
              | some len => ownOptions payload fuel (p + 2 + len.toNat) (o.note id (p + 2))
            else some (o.note id (p + 2))
      else some o

/-- `Ret` of `_ParseDhcpOptions`, by the options that were seen. -/
def optionFlags (msgType reqIpAddr serverId : Bool) : UInt8 :=
  (if msgType then 0x01 else 0) ||| (if reqIpAddr then 0x02 else 0)
    ||| (if serverId then 0x04 else 0)

/-- Seeing an option sets its flag. -/
theorem optionFlags_or : ∀ t r s : Bool, optionFlags t r s ||| 0x01 = optionFlags true r s ∧
    optionFlags t r s ||| 0x02 = optionFlags t true s ∧
    optionFlags t r s ||| 0x04 = optionFlags t r true := by
  decide

/-- The variables of `_ParseDhcpOptions` once the options at the places `o` were read. -/
def OptionPlaces.values (o : OptionPlaces) (m : Memory) : DhcpOptions where
  msgType := (o.msgType.map m).getD 0xff
  reqIpAddr := (o.reqIpAddr.map fun p => .ofNat (load32 m p)).getD 0
  serverId := (o.serverId.map fun p => .ofNat (load32 m p)).getD 0
  ret := optionFlags o.msgType.isSome o.reqIpAddr.isSome o.serverId.isSome

/-- A turn of the option loop notes the option it reads. -/
theorem parseDhcpOption_note (m : Memory) (p : ℕ) (o : OptionPlaces)
    (hpad : m p ≠ dhcpOptionIdPad) :
    parseDhcpOption m p (o.values m)
      = (p + 2 + (m (p + 1)).toNat, (o.note (m p) (p + 2)).values m) := by
  have hret := optionFlags_or o.msgType.isSome o.reqIpAddr.isSome o.serverId.isSome
  unfold parseDhcpOption OptionPlaces.note
  rw [if_neg hpad]
  split_ifs
  · simp [OptionPlaces.values, hret.1]
  · simp [OptionPlaces.values, hret.2.1]
  · simp [OptionPlaces.values, hret.2.2]
  · rfl

/-- A pad is skipped. -/
theorem parseDhcpOption_pad {m : Memory} {p : ℕ} (h : m p = dhcpOptionIdPad) (v : DhcpOptions) :
    parseDhcpOption m p v = (p + 1, v) := by
  rw [parseDhcpOption, if_pos h]

/-- Any other option leads behind its data. -/
theorem parseDhcpOption_fst {m : Memory} {p : ℕ} (h : m p ≠ dhcpOptionIdPad) (v : DhcpOptions) :
    (parseDhcpOption m p v).1 = p + 2 + (m (p + 1)).toNat := by
  rw [parseDhcpOption, if_neg h]
  dsimp only
  split_ifs <;> rfl

/-- **Where the received bytes decide.**  If the walk over the received bytes ends, the option
    loop reads the values at the places noted, whatever else is in the buffer. -/
theorem parseDhcpLoop_own {m : Memory} (hm : HoldsPayload m payload) (fuel : ℕ) :
    ∀ (p : ℕ) (o places : OptionPlaces), ownOptions payload fuel p o = some places →
      parseDhcpLoop m fuel p (o.values m) = places.values m := by
  induction fuel with
  | zero =>
    intro p o places h
    rw [ownOptions, Option.some.injEq] at h
    rw [parseDhcpLoop, h]
  | succ fuel ih =>
    intro p o places h
    rw [ownOptions] at h
    rw [parseDhcpLoop]
    by_cases hp : p < sizeofDhcpMsg
    · rw [if_pos hp] at h
      cases hid : payload[p]? with
      | none =>
        rw [hid] at h
        cases h
      | some id =>
        have hmp : m p = id := hm p id hp hid
        simp only [hid] at h
        by_cases hend : id = dhcpOptionIdEnd
        · rw [if_pos hend, Option.some.injEq] at h
          rw [if_neg (by rw [hmp]; exact fun hc => hc.1 hend), h]
        · rw [if_neg hend] at h
          rw [if_pos ⟨by rwa [hmp], hp⟩]
          by_cases hpad : id = dhcpOptionIdPad
          · rw [if_pos hpad] at h
            rw [parseDhcpOption_pad (hmp.trans hpad)]
            exact ih _ _ _ h
          · rw [if_neg hpad] at h
            rw [parseDhcpOption_note m p o (by rwa [hmp]), hmp]
            by_cases hlast : p + 2 < sizeofDhcpMsg
            · rw [if_pos hlast] at h
              cases hlen : payload[p + 1]? with
              | none =>
                rw [hlen] at h
                cases h
              | some len =>
                simp only [hlen] at h
                rw [hm (p + 1) len (by omega) hlen]
                exact ih _ _ _ h
            · -- the option reaches the end of the buffer, whatever its length is
              rw [if_neg hlast, Option.some.injEq] at h
              rw [← h]
              cases fuel with
              | zero => rfl
              | succ fuel => exact if_neg fun hc => absurd hc.2 (by simp only; omega)
    · rw [if_neg hp, Option.some.injEq] at h
      rw [if_neg fun hc => hp hc.2, h]

/-- An option with a message type, followed by the end mark, is read as the last one. -/
theorem parseDhcpLoop_type {m : Memory} (fuel : ℕ) {q : ℕ} (v : DhcpOptions)
    (hq : q < sizeofDhcpMsg) (h0 : m q = dhcpOptionIdMsgType) (h1 : m (q + 1) = 1)
    (h3 : m (q + 3) = dhcpOptionIdEnd) :
    ∃ v' : DhcpOptions, parseDhcpLoop m (fuel + 1) q v
      = { v' with msgType := m (q + 2), ret := v'.ret ||| 0x01 } := by
  have hstep : parseDhcpOption m q v
      = (q + 3, { v with msgType := m (q + 2), ret := v.ret ||| 0x01 }) := by
    rw [parseDhcpOption, h0, h1]
    rfl
  refine ⟨v, ?_⟩
  rw [parseDhcpLoop, if_pos ⟨by rw [h0]; decide, hq⟩, hstep]
  cases fuel with
  | zero => rfl
  | succ fuel => exact if_neg fun hc => hc.1 h3

/-- **Where they do not.**  If the walk gives up, there is a place `q` outside the received bytes
    where an option with a message type, followed by the end mark, is read as the last one. -/
theorem parseDhcpLoop_stale (payload : List UInt8) (fuel : ℕ) :
    ∀ (p : ℕ) (o : OptionPlaces), sizeofDhcpMsg ≤ p + fuel →
      ownOptions payload fuel p o = none →
      ∃ q, p ≤ q ∧ payload.length ≤ q ∧ q < sizeofDhcpMsg ∧
        ∀ m : Memory, HoldsPayload m payload →
          (∀ x, p ≤ x → x < q → payload.length ≤ x → m x = 0) →
          m q = dhcpOptionIdMsgType → m (q + 1) = 1 → m (q + 3) = dhcpOptionIdEnd →
          ∀ v, ∃ v' : DhcpOptions, parseDhcpLoop m fuel p v
            = { v' with msgType := m (q + 2), ret := v'.ret ||| 0x01 } := by
  induction fuel with
  | zero =>
    intro p o _ h
    cases h
  | succ fuel ih =>
    intro p o hfuel h
    rw [ownOptions] at h
    by_cases hp : p < sizeofDhcpMsg
    · rw [if_pos hp] at h
      cases hid : payload[p]? with
      | none =>
        -- the next option is not received: the message type can stand here
        refine ⟨p, le_rfl, List.getElem?_eq_none_iff.mp hid, hp, ?_⟩
        intro m _ _ h0 h1 h3 v
        exact parseDhcpLoop_type fuel v hp h0 h1 h3
      | some id =>
        have hin : p < payload.length := (List.getElem?_eq_some_iff.mp hid).1
        simp only [hid] at h
        by_cases hend : id = dhcpOptionIdEnd
        · rw [if_pos hend] at h
          cases h
        · rw [if_neg hend] at h
          by_cases hpad : id = dhcpOptionIdPad
          · rw [if_pos hpad] at h
            obtain ⟨q, hpq, hq, hq', hall⟩ := ih _ _ (by omega) h
            refine ⟨q, by omega, hq, hq', fun m hm hzero h0 h1 h3 v => ?_⟩
            have hmp : m p = id := hm p id hp hid
            rw [parseDhcpLoop, if_pos ⟨by rwa [hmp], hp⟩, parseDhcpOption_pad (hmp.trans hpad)]
            exact hall m hm (fun x hx => hzero x (by omega)) h0 h1 h3 _
          · rw [if_neg hpad] at h
            by_cases hlast : p + 2 < sizeofDhcpMsg
            · rw [if_pos hlast] at h
              cases hlen : payload[p + 1]? with
              | none =>
                -- the length byte is free: 0 leads to the place right behind it
                have hout : payload.length ≤ p + 1 := List.getElem?_eq_none_iff.mp hlen
                refine ⟨p + 2, by omega, by omega, hlast, fun m hm hzero h0 h1 h3 v => ?_⟩
                have hmp : m p = id := hm p id hp hid
                rw [parseDhcpLoop, if_pos ⟨by rwa [hmp], hp⟩, parseDhcpOption_fst (by rwa [hmp]),
                  hzero (p + 1) (by omega) (by omega) hout]
                obtain ⟨k, rfl⟩ : ∃ k, fuel = k + 1 := ⟨fuel - 1, by omega⟩
                exact parseDhcpLoop_type k _ hlast h0 h1 h3
              | some len =>
                simp only [hlen] at h
                obtain ⟨q, hpq, hq, hq', hall⟩ := ih _ _ (by omega) h
                refine ⟨q, by omega, hq, hq', fun m hm hzero h0 h1 h3 v => ?_⟩
                have hmp : m p = id := hm p id hp hid
                rw [parseDhcpLoop, if_pos ⟨by rwa [hmp], hp⟩, parseDhcpOption_fst (by rwa [hmp]),
                  hm (p + 1) len (by omega) hlen]
                exact hall m hm (fun x hx => hzero x (by omega)) h0 h1 h3 _
            · rw [if_neg hlast] at h
              cases h
    · rw [if_neg hp] at h
      cases h

end SerialNet
