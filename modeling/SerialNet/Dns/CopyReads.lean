import SerialNet.Dns.NameReads

namespace SerialNet

/-!
# What `DNSS_RecvCb` reads of the message

The callback once more, as a program that loads cells of the copy of the message: the flags, the
name as far as `strlen` looks, the type and the class behind it, the comparison, and what the
generators of the replies copy.  The received length is not looked at anywhere.  `CopySuffices`
says by the received bytes and the stored name when all of these lie in the copy
(`message_read_inside_iff`).
-/

namespace Loads

/-- A 16-bit load from the message. -/
def load16 (p : ℕ) : Prog (Load DnsPlace UInt8) ℕ := do
  let b₀ ← load (.message p)
  let b₁ ← load (.message (p + 1))
  pure (b₀.toNat + 256 * b₁.toNat)

/-- `NST_MOVE_MEM(&DnsQuery, p, sizeof(DnsQuery))`. -/
def queryAt (p : ℕ) : Prog (Load DnsPlace UInt8) DnsQuery := do
  let rrType ← load16 p
  let rrClass ← load16 (p + 2)
  pure { rrType := rrType, rrClass := rrClass }

/-- `NST_MOVE_MEM` of `n` bytes of the message. -/
def moveBytes : ℕ → ℕ → Prog (Load DnsPlace UInt8) (List UInt8)
  | 0, _ => pure []
  | n + 1, p => do
    let b ← load (.message p)
    let rest ← moveBytes n (p + 1)
    pure (b :: rest)

/-- What the two generators read: `strlen` of the name for the size of the block, and once there is
    a block the name with the byte behind it.  `gen` builds the reply from the bytes copied. -/
def generate (queryName : ℕ) (alloc : DnsAlloc) (gen : List UInt8 → Option DnsReply) :
    Prog (Load DnsPlace UInt8) (Option DnsReply) := do
  let _ ← strlen queryName
  if ¬ alloc.reply then pure none
  else
    let n ← strlen queryName
    let bytes ← moveBytes (n + 1) queryName
    -- `Body += strlen(QueryName) + 1; Len += strlen(QueryName) + 1;`
    let _ ← strlen queryName
    let _ ← strlen queryName
    pure (gen bytes)

/-- `_DNSNameErrGenAndSend` for the name at `queryName`. -/
def dnsNameErrGenAndSend (alloc : DnsAlloc) (query : DnsQuery) (queryName tansactionId : ℕ) :
    Prog (Load DnsPlace UInt8) (Option DnsReply) :=
  generate queryName alloc fun bytes =>
    SerialNet.dnsNameErrGenAndSend alloc query bytes tansactionId

/-- `_DNSAnswerGenAndSend` for the name at `queryName`. -/
def dnsAnswerGenAndSend (s : Memory) (alloc : DnsAlloc) (query : DnsQuery)
    (queryName tansactionId : ℕ) : Prog (Load DnsPlace UInt8) (Option DnsReply) :=
  generate queryName alloc fun bytes =>
    SerialNet.dnsAnswerGenAndSend s alloc query bytes tansactionId

/-- The callback behind the filter on the flags. -/
def answerQuery (s : Memory) (fuel : ℕ) (alloc : DnsAlloc) :
    Prog (Load DnsPlace UInt8) (Option (Option DnsReply)) := do
  let n ← strlen sizeofDnsHeader
  let query ← queryAt (sizeofDnsHeader + n + 1)
  if query.rrClass ≠ htons dnsRrclassIn ∧ query.rrType ≠ htons dnsRrtypeA then pure (some none)
  else
    let r ← dnsCompareName fuel sizeofDnsHeader
    match r with
    | none => pure none
    | some r => do
      let tansactionId ← load16 0
      if r ≠ 0 then do
        let reply ← dnsNameErrGenAndSend alloc query sizeofDnsHeader tansactionId
        pure (some reply)
      else do
        let reply ← dnsAnswerGenAndSend s alloc query sizeofDnsHeader tansactionId
        pure (some reply)

/-- `DNSS_RecvCb` once the message is copied. -/
def dnssRecvCb (s : Memory) (fuel : ℕ) (alloc : DnsAlloc) :
    Prog (Load DnsPlace UInt8) (Option (Option DnsReply)) :=
  if ¬ alloc.msg then pure (some none)
  else do
    let flag ← load (.message offDnsFlag1)
    if flag &&& dnsFlag1Response ≠ 0 then pure (some none)
    else
      let flag ← load (.message offDnsFlag1)
      if flag &&& ((0xf : UInt8) <<< 3) ≠ dnsFlag1OpcodeStandard then pure (some none)
      else answerQuery s fuel alloc

end Loads

section Value

variable {s m : Memory}

/-- The program reads a half-word as the function does. -/
@[simp] theorem valueOn_load16 (p : ℕ) :
    valueOn (dnsCells s m) (Loads.load16 p) = load16 m p := rfl

/-- The program reads type and class as the function does. -/
@[simp] theorem valueOn_queryAt (p : ℕ) :
    valueOn (dnsCells s m) (Loads.queryAt p) = queryAt m p := by
  simp [Loads.queryAt, queryAt]

/-- The program copies the bytes that lie there. -/
@[simp] theorem valueOn_moveBytes (n p : ℕ) :
    valueOn (dnsCells s m) (Loads.moveBytes n p) = loadBytes m p n := by
  induction n generalizing p with
  | zero => rfl
  | succ n ih =>
    rw [Loads.moveBytes, valueOn_load_bind, valueOn_bind, ih, Nat.add_comm n 1, loadBytes_add]
    rfl

/-- The generators build the reply of their abstract versions. -/
theorem valueOn_generate {q : ℕ} {alloc : DnsAlloc} {gen : List UInt8 → Option DnsReply}
    (hgen : ∀ bytes, ¬ alloc.reply → gen bytes = none) :
    valueOn (dnsCells s m) (Loads.generate q alloc gen) = gen (loadBytes m q (strlen m q + 1)) := by
  rw [Loads.generate, valueOn_bind, valueOn_ite]
  by_cases hreply : alloc.reply = true
  · rw [if_neg (not_not.mpr hreply)]
    simp only [valueOn_bind, valueOn_strlen, valueOn_moveBytes, valueOn_pure]
  · rw [if_pos hreply, hgen _ hreply]
    rfl

/-- The program sends the name error that the function sends. -/
@[simp] theorem valueOn_dnsNameErrGenAndSend (alloc : DnsAlloc) (query : DnsQuery)
    (q tansactionId : ℕ) :
    valueOn (dnsCells s m) (Loads.dnsNameErrGenAndSend alloc query q tansactionId)
      = dnsNameErrGenAndSend alloc query (loadBytes m q (strlen m q + 1)) tansactionId :=
  valueOn_generate fun _ h => if_pos h

/-- The program sends the answer that the function sends. -/
@[simp] theorem valueOn_dnsAnswerGenAndSend (alloc : DnsAlloc) (query : DnsQuery)
    (q tansactionId : ℕ) :
    valueOn (dnsCells s m) (Loads.dnsAnswerGenAndSend s alloc query q tansactionId)
      = dnsAnswerGenAndSend s alloc query (loadBytes m q (strlen m q + 1)) tansactionId :=
  valueOn_generate fun _ h => if_pos h

/-- The program computes the callback of `Dns/Server`. -/
theorem valueOn_dnssRecvCb (s : Memory) (payload : List UInt8) (block : Memory) (behind : ℕ)
    (alloc : DnsAlloc) :
    valueOn (dnsCells s (storeBytes block 0 payload))
        (Loads.dnssRecvCb s (payload.length + behind) alloc)
      = dnssRecvCb s payload block behind alloc := by
  unfold Loads.dnssRecvCb dnssRecvCb
  rw [valueOn_ite]
  apply if_congr Iff.rfl rfl
  generalize storeBytes block 0 payload = m
  dsimp only
  rw [valueOn_load_bind, valueOn_ite, valueOn_load_bind, valueOn_ite, dnsCells_message]
  by_cases hresponse : m offDnsFlag1 &&& dnsFlag1Response ≠ 0
  · rw [if_pos hresponse, if_pos (.inl hresponse)]
    rfl
  by_cases hopcode : m offDnsFlag1 &&& ((0xf : UInt8) <<< 3) ≠ dnsFlag1OpcodeStandard
  · rw [if_neg hresponse, if_pos hopcode, if_pos (.inr hopcode)]
    rfl
  rw [if_neg hresponse, if_neg hopcode, if_neg (not_or.mpr ⟨hresponse, hopcode⟩),
    Loads.answerQuery, valueOn_bind, valueOn_strlen, valueOn_bind, valueOn_queryAt, valueOn_ite]
  apply if_congr Iff.rfl rfl
  rw [valueOn_bind, valueOn_dnsCompareName]
  cases dnsCompareName s m (payload.length + behind) sizeofDnsHeader with
  | none => rfl
  | some r =>
    dsimp only
    rw [valueOn_bind, valueOn_load16, valueOn_ite, valueOn_bind, valueOn_bind, Option.map_some,
      valueOn_dnsNameErrGenAndSend, valueOn_dnsAnswerGenAndSend]
    split_ifs <;> rfl

end Value

/-! ### The condition -/

/-- Inside the copy of a message of `n` bytes; what is read of `DnsServer` does not matter. -/
def InCopy (n : ℕ) : DnsPlace → Prop
  | .server _ => True
  | .message p => p < n

instance (n : ℕ) : DecidablePred (InCopy n)
  | .server _ => inferInstanceAs (Decidable True)
  | .message p => inferInstanceAs (Decidable (p < n))

/-- With `k` characters of a label left and the stored name at `a`, the comparison comes to an end
    within these bytes: at a zero or a compressed name in the place of a length, or at a character
    that differs from the stored one. -/
def LabelsEnd (s : Memory) : ℕ → ℕ → List UInt8 → Prop
  | _, _, [] => False
  | 0, a, n :: rest => n = 0 ∨ n &&& 0xc0 = 0xc0 ∨ LabelsEnd s n.toNat (a + 1) rest
  | k + 1, a, c :: rest => toupper (s a) = toupper c → LabelsEnd s k (a + 1) rest

/-- The comparison of the name that these bytes begin with ends within them. -/
def CompareEnds (s : Memory) : List UInt8 → Prop
  | [] => False
  | n :: rest => n &&& 0xc0 = 0xc0 ∨ LabelsEnd s n.toNat offDnsName rest

/-- The received name, up to its NUL, but no more than `strlen` counts. -/
def receivedName (payload : List UInt8) : List UInt8 :=
  ((payload.drop sizeofDnsHeader).takeWhile (· ≠ 0)).take defStrlenMaxVal

/-- The type and the class behind the received name. -/
def receivedQuery (payload : List UInt8) : DnsQuery :=
  queryAt (storeBytes (fun _ => 0) 0 payload)
    (sizeofDnsHeader + (receivedName payload).length + 1)

/-- The message passes the filter on the flags. -/
def PassesFlags (payload : List UInt8) : Prop :=
  ∃ flag ∈ payload[offDnsFlag1]?, flag &&& dnsFlag1Response = 0 ∧
    flag &&& ((0xf : UInt8) <<< 3) = dnsFlag1OpcodeStandard

/-- The received bytes are all the callback needs: it has no memory; or the flags are there and
    do not pass; or behind the name there are the NUL, or the 4096th character in its place, and
    type and class, and these do not pass, or the name is empty or too long to be compared, or its
    comparison ends within the message. -/
def CopySuffices (s : Memory) (payload : List UInt8) (alloc : DnsAlloc) : Prop :=
  ¬ alloc.msg ∨ offDnsFlag1 < payload.length ∧ (PassesFlags payload →
    sizeofDnsHeader + (receivedName payload).length + 5 ≤ payload.length ∧
    ((receivedQuery payload).rrClass = htons dnsRrclassIn ∨
      (receivedQuery payload).rrType = htons dnsRrtypeA →
      receivedName payload ≠ [] → (receivedName payload).length ≤ 33 →
      CompareEnds s (payload.drop sizeofDnsHeader)))

/-! ### What is read -/

/-- The bytes `rest` lie at `q`, and the copy of `n` bytes ends with them. -/
structure CopyAt (m : Memory) (n q : ℕ) (rest : List UInt8) : Prop where
  bytes : BytesAt m q rest
  inCopy : ∀ i, q + i < n ↔ i < rest.length

section Reads

variable {s m : Memory} {n q : ℕ}

/-- One character further on. -/
theorem CopyAt.tail {c : UInt8} {rest : List UInt8} (h : CopyAt m n q (c :: rest)) :
    CopyAt m n (q + 1) rest where
  bytes := h.bytes.2
  inCopy := fun i => by
    have hi := h.inCopy (i + 1)
    rw [List.length_cons] at hi
    omega

/-- A character that is there is inside. -/
theorem CopyAt.head {c : UInt8} {rest : List UInt8} (h : CopyAt m n q (c :: rest)) :
    InCopy n (.message q) := (h.inCopy 0).mpr (Nat.succ_pos _)

/-- Behind its last byte nothing is inside the copy. -/
theorem CopyAt.nil (h : CopyAt m n q []) : ¬ InCopy n (.message q) :=
  fun hq => absurd ((h.inCopy 0).mp hq) (Nat.not_lt_zero 0)

/-- What `strlen` counts, and whether it stays in the copy, which it does if that is less than what
    there is. -/
theorem CopyAt.strlen {rest : List UInt8} (h : CopyAt m n q rest) :
    min (strlen m q) rest.length = ((rest.takeWhile (· ≠ 0)).take defStrlenMaxVal).length ∧
      (ReadsWithin (dnsCells s m) (InCopy n) (Loads.strlen q) ↔ strlen m q < rest.length) := by
  constructor
  · rw [List.length_take, Nat.min_comm defStrlenMaxVal]
    exact min_strLenN_length defStrlenMaxVal h.bytes
  · refine (readsWithin_strLenN s m defStrlenMaxVal q).trans ⟨fun hreads => ?_, fun hlt i hi => ?_⟩
    · exact (h.inCopy _).mp (hreads _ le_rfl)
    · exact (h.inCopy i).mpr (lt_of_le_of_lt hi hlt)

/-- The comparison of a label and what follows it. -/
theorem readsWithin_compareRest_iff (rest : List UInt8) : ∀ (fuel k a q : ℕ),
    rest.length ≤ fuel → CopyAt m n q rest →
    (ReadsWithin (dnsCells s m) (InCopy n) (compareRest fuel k a q) ↔ LabelsEnd s k a rest) := by
  induction rest with
  | nil =>
    intro fuel k a q _ h
    refine iff_of_false (fun hreads => h.nil (message_of_readsWithin hreads)) ?_
    cases k <;> exact id
  | cons c rest ih =>
    intro fuel k a q hfuel h
    rw [List.length_cons] at hfuel
    have hc : m q = c := h.bytes.1
    cases k with
    | zero =>
      rw [LabelsEnd]
      by_cases hzero : c = 0
      · rw [(compareRest_last (hc.trans hzero) fuel a).2]
        exact iff_of_true ⟨h.head, trivial⟩ (.inl hzero)
      · obtain ⟨fuel, rfl⟩ : ∃ f, fuel = f + 1 := ⟨fuel - 1, by omega⟩
        rw [(compareRest_next hc hzero fuel a).2, and_iff_right h.head, or_iff_right hzero]
        by_cases hcompressed : c &&& 0xc0 = 0xc0
        · rw [if_pos hcompressed]
          exact iff_of_true trivial (.inl hcompressed)
        · rw [if_neg hcompressed, or_iff_right hcompressed]
          exact ih fuel c.toNat (a + 1) (q + 1) (by omega) h.tail
    | succ k =>
      rw [(compareRest_char fuel k a q).2, hc, LabelsEnd,
        ih fuel k (a + 1) (q + 1) (by omega) h.tail]
      exact ⟨fun hreads => hreads.2.2, fun hends => ⟨trivial, h.head, hends⟩⟩

/-- A copy stays inside when each of its bytes is. -/
theorem readsWithin_moveBytes {k : ℕ} (h : ∀ i < k, InCopy n (.message (q + i))) :
    ReadsWithin (dnsCells s m) (InCopy n) (Loads.moveBytes k q) := by
  induction k generalizing q with
  | zero => exact readsWithin_pure _
  | succ k ih =>
    refine (readsWithin_load_bind _ _).mpr ⟨h 0 (Nat.succ_pos k), ?_⟩
    refine (readsWithin_bind _ _).mpr ⟨ih fun i hi => ?_, readsWithin_pure _⟩
    have hi' := h (i + 1) (Nat.succ_lt_succ hi)
    rwa [Nat.add_right_comm]

section Name

variable {rest : List UInt8} {fuel : ℕ} (h : CopyAt m n q rest) (hin : strlen m q < rest.length)
include h hin

/-- The comparison of a name that `strlen` has found in the copy stays there, unless it goes on
    behind the message. -/
theorem readsWithin_dnsCompareName_iff (hfuel : rest.length ≤ fuel) (hq : q = sizeofDnsHeader) :
    ReadsWithin (dnsCells s m) (InCopy n) (Loads.dnsCompareName fuel sizeofDnsHeader) ↔
      (0 < strlen m q → strlen m q ≤ 33 → CompareEnds s rest) := by
  subst hq
  have hle : strlen m sizeofDnsHeader ≤ 4095 := strLenN_le m _ _
  rw [Loads.dnsCompareName, readsWithin_bind, h.strlen.2, and_iff_right hin, valueOn_strlen,
    readsWithin_ite]
  by_cases hshort : 0 < strlen m sizeofDnsHeader ∧ strlen m sizeofDnsHeader ≤ 33
  · rw [if_neg (by unfold u32; omega)]
    simp only [hshort, forall_const]
    cases rest with
    | nil => exact absurd hin (Nat.not_lt_zero _)
    | cons c rest =>
      rw [List.length_cons] at hfuel
      obtain ⟨fuel, rfl⟩ : ∃ f, fuel = f + 1 := ⟨fuel - 1, by omega⟩
      have hc : m sizeofDnsHeader = c := h.bytes.1
      rw [dnsCompareLoop_succ, readsWithin_load_bind, readsWithin_ite, dnsCells_message, hc,
        and_iff_right h.head, CompareEnds]
      by_cases hcompressed : c &&& 0xc0 = 0xc0
      · rw [if_pos hcompressed]
        exact iff_of_true ((readsWithin_dnsNameEnds 3).mpr trivial) (.inl hcompressed)
      · rw [if_neg hcompressed, or_iff_right hcompressed]
        exact readsWithin_compareRest_iff rest fuel c.toNat offDnsName _ (by omega) h.tail
  · rw [if_pos (by unfold u32; omega)]
    exact iff_of_true (readsWithin_pure _) fun hpos hle' => absurd ⟨hpos, hle'⟩ hshort

/-- The generators stay there. -/
theorem readsWithin_generate (alloc : DnsAlloc) (gen : List UInt8 → Option DnsReply) :
    ReadsWithin (dnsCells s m) (InCopy n) (Loads.generate q alloc gen) := by
  have hreads : ReadsWithin (dnsCells s m) (InCopy n) (Loads.strlen q) := h.strlen.2.mpr hin
  have hbytes : ReadsWithin (dnsCells s m) (InCopy n) (Loads.moveBytes (strlen m q + 1) q) :=
    readsWithin_moveBytes fun i hi => (h.inCopy i).mpr (by omega)
  rw [Loads.generate, readsWithin_bind, readsWithin_ite]
  refine ⟨hreads, ?_⟩
  split
  · exact readsWithin_pure _
  · simp only [readsWithin_bind, valueOn_strlen, hreads, hbytes, readsWithin_pure, and_self]

end Name

end Reads

section Message

variable (s : Memory) (payload : List UInt8) (block : Memory)

/-- What is left of a payload lies in its copy. -/
theorem copyAt_storeBytes (q : ℕ) :
    CopyAt (storeBytes block 0 payload) payload.length q (payload.drop q) where
  bytes := bytesAt_of_getElem fun i hi => by
    rw [List.length_drop] at hi
    have hin := storeBytes_inside block 0 (show q + i < payload.length by omega)
    rw [Nat.zero_add] at hin
    rw [hin, List.getElem_drop]
  inCopy := fun i => by
    rw [List.length_drop]
    omega

/-- Type and class are inside when their last byte is. -/
theorem readsWithin_queryAt (n p : ℕ) (m : Memory) :
    ReadsWithin (dnsCells s m) (InCopy n) (Loads.queryAt p) ↔ p + 3 < n := by
  simp only [Loads.queryAt, Loads.load16, readsWithin_bind, readsWithin_load, readsWithin_pure,
    InCopy, and_true]
  omega

/-- Type and class are those of the payload if they lie in it. -/
theorem queryAt_received {p : ℕ} (h : p + 3 < payload.length) :
    queryAt (storeBytes block 0 payload) p = queryAt (storeBytes (fun _ => 0) 0 payload) p := by
  have hbyte : ∀ p, p < payload.length →
      storeBytes block 0 payload p = storeBytes (fun _ => 0) 0 payload p :=
    fun p hp => storeBytes_congr _ _ (Nat.zero_le p) (by omega)
  unfold queryAt load16
  rw [hbyte _ (by omega), hbyte _ (by omega), hbyte _ (by omega), hbyte _ (by omega)]

/-- Behind the filter. -/
theorem readsWithin_answerQuery {fuel : ℕ} (hfuel : payload.length ≤ fuel)
    (hflag : offDnsFlag1 < payload.length) (alloc : DnsAlloc) :
    ReadsWithin (dnsCells s (storeBytes block 0 payload)) (InCopy payload.length)
        (Loads.answerQuery s fuel alloc) ↔
      sizeofDnsHeader + (receivedName payload).length + 5 ≤ payload.length ∧
      ((receivedQuery payload).rrClass = htons dnsRrclassIn ∨
        (receivedQuery payload).rrType = htons dnsRrtypeA →
        receivedName payload ≠ [] → (receivedName payload).length ≤ 33 →
        CompareEnds s (payload.drop sizeofDnsHeader)) := by
  have hcopy := copyAt_storeBytes payload block sizeofDnsHeader
  obtain ⟨hmin, hstrlen⟩ := hcopy.strlen (s := s)
  change _ = (receivedName payload).length at hmin
  have hrest : (payload.drop sizeofDnsHeader).length = payload.length - 12 := List.length_drop
  by_cases hin : strlen (storeBytes block 0 payload) sizeofDnsHeader
      < (payload.drop sizeofDnsHeader).length
  · rw [min_eq_left hin.le] at hmin
    rw [Loads.answerQuery, readsWithin_bind, hstrlen, and_iff_right hin, valueOn_strlen,
      readsWithin_bind, readsWithin_queryAt, valueOn_queryAt, hmin]
    by_cases hbound : sizeofDnsHeader + (receivedName payload).length + 1 + 3 < payload.length
    · have hroom : sizeofDnsHeader + (receivedName payload).length + 5 ≤ payload.length := by omega
      rw [and_iff_right hbound, and_iff_right hroom, queryAt_received payload block hbound]
      change ReadsWithin _ _ (if (receivedQuery payload).rrClass ≠ htons dnsRrclassIn ∧
        (receivedQuery payload).rrType ≠ htons dnsRrtypeA then _ else _) ↔ _
      rw [readsWithin_ite]
      by_cases hasked : (receivedQuery payload).rrClass = htons dnsRrclassIn ∨
        (receivedQuery payload).rrType = htons dnsRrtypeA
      · rw [if_neg (by rwa [← not_or, not_not]), readsWithin_bind,
          readsWithin_dnsCompareName_iff hcopy hin (by omega) rfl, hmin, List.length_pos_iff]
        refine (and_iff_left ?_).trans (by simp only [hasked, forall_const])
        -- the id and the name that the reply repeats
        cases valueOn (dnsCells s (storeBytes block 0 payload))
          (Loads.dnsCompareName fuel sizeofDnsHeader) with
        | none => exact readsWithin_pure _
        | some r =>
          have hid : ReadsWithin (dnsCells s (storeBytes block 0 payload))
              (InCopy payload.length) (Loads.load16 0) := by
            simp only [Loads.load16, readsWithin_bind, readsWithin_load, readsWithin_pure, InCopy,
              and_true]
            omega
          refine (readsWithin_bind _ _).mpr ⟨hid, ?_⟩
          rw [readsWithin_ite, readsWithin_bind, readsWithin_bind]
          split_ifs
          · exact ⟨readsWithin_generate hcopy hin alloc _, readsWithin_pure _⟩
          · exact ⟨readsWithin_generate hcopy hin alloc _, readsWithin_pure _⟩
      · rw [if_pos (by rwa [← not_or])]
        exact iff_of_true (readsWithin_pure _) fun h => absurd h hasked
    · exact iff_of_false (fun h => hbound h.1) fun h => hbound (by omega)
  · rw [min_eq_right (not_lt.mp hin)] at hmin
    refine iff_of_false (fun hreads => ?_) fun hends => ?_
    · exact hin (hstrlen.mp ((readsWithin_bind _ _).mp hreads).1)
    · have hlong := hends.1
      unfold sizeofDnsHeader at hlong
      omega

/-- The filter looks at the byte of the flags in the copy. -/
theorem passesFlags_iff (hflag : offDnsFlag1 < payload.length) :
    PassesFlags payload ↔ storeBytes block 0 payload offDnsFlag1 &&& dnsFlag1Response = 0 ∧
      storeBytes block 0 payload offDnsFlag1 &&& ((0xf : UInt8) <<< 3)
        = dnsFlag1OpcodeStandard := by
  have hbyte : payload[offDnsFlag1]? = some (storeBytes block 0 payload offDnsFlag1) := by
    have hin := storeBytes_inside block 0 hflag
    rw [Nat.zero_add] at hin
    rw [hin]
    exact List.getElem?_eq_getElem hflag
  unfold PassesFlags
  rw [hbyte]
  simp

/-- **When the callback reads inside the message.**  For every payload, whatever was in the block
    and in `DnsServer` before, `DNSS_RecvCb` and what it calls read the copy of the message below
    the received length only, exactly when the received bytes suffice. -/
theorem message_read_inside_iff (behind : ℕ) (alloc : DnsAlloc) :
    ReadsWithin (dnsCells s (storeBytes block 0 payload)) (InCopy payload.length)
        (Loads.dnssRecvCb s (payload.length + behind) alloc) ↔ CopySuffices s payload alloc := by
  unfold Loads.dnssRecvCb CopySuffices
  rw [readsWithin_ite]
  by_cases hmsg : alloc.msg = true
  · rw [if_neg (not_not.mpr hmsg), or_iff_right (not_not.mpr hmsg), readsWithin_load_bind]
    apply and_congr_right
    intro hflag
    replace hflag : offDnsFlag1 < payload.length := hflag
    have hanswer := readsWithin_answerQuery s payload block
      (Nat.le_add_right payload.length behind) hflag alloc
    rw [readsWithin_ite, dnsCells_message, passesFlags_iff payload block hflag, ← hanswer]
    by_cases hresponse : storeBytes block 0 payload offDnsFlag1 &&& dnsFlag1Response = 0
    · rw [if_neg (not_not.mpr hresponse), readsWithin_load_bind, readsWithin_ite, dnsCells_message,
        and_iff_right (show InCopy payload.length (.message offDnsFlag1) from hflag)]
      by_cases hopcode : storeBytes block 0 payload offDnsFlag1 &&& ((0xf : UInt8) <<< 3)
          = dnsFlag1OpcodeStandard
      · rw [if_neg (not_not.mpr hopcode)]
        exact ⟨fun h _ => h, fun h => h ⟨hresponse, hopcode⟩⟩
      · rw [if_pos hopcode]
        exact iff_of_true (readsWithin_pure _) fun h => absurd h.2 hopcode
    · rw [if_pos hresponse]
      exact iff_of_true (readsWithin_pure _) fun h => absurd h.1 hresponse
  · rw [if_pos hmsg]
    exact iff_of_true (readsWithin_pure _) (.inl hmsg)

end Message

/-- A message that ends with the header: its name is looked for behind it. -/
theorem header_read_behind :
    ¬ ∀ (s : Memory) (payload : List UInt8) (block : Memory) (behind : ℕ) (alloc : DnsAlloc),
      payload.length < 65536 →
      ReadsWithin (dnsCells s (storeBytes block 0 payload)) (InCopy payload.length)
        (Loads.dnssRecvCb s (payload.length + behind) alloc) := by
  intro hall
  have hinside := hall sampleDns (List.replicate 12 0) (fun _ => 0) 0 ⟨true, true, true⟩ (by decide)
  exact absurd hinside (by decide)

end SerialNet
