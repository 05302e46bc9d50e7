import SerialNet.Dns.Compare

namespace SerialNet

/-!
# Which DNS queries are answered

The answer that is due: an A record to a standard query of type A and class IN for the configured
name, a name error to such a query for another name, and nothing to any other message.  The code
departs from it in two places (`dns_policy_iff`):

* it goes on unless both the class and the type are others, so a query with only one of them right
  is replied to;
* `_DnsCompareName` accepts any character of the configured name in place of a dot.

A label with a zero byte also makes the code look for type and class at another place.
-/

/-! ### Messages -/

/-- A 16-bit field on the wire. -/
def be16 (x : UInt16) : List UInt8 := [.ofNat (x.toNat / 256), .ofNat x.toNat]

/-- A message with one question, whose name is not compressed. -/
structure DnsMessage where
  tansactionId : UInt16
  dnsFlag1 : UInt8
  dnsFlag2 : UInt8
  answerRR : UInt16
  authorityRR : UInt16
  additionalRR : UInt16
  labels : List (List UInt8)
  rrType : UInt16
  rrClass : UInt16
  /-- The records behind the question. -/
  records : List UInt8
  valid : ValidName labels

/-- The header on the wire. -/
def DnsMessage.header (q : DnsMessage) : List UInt8 :=
  be16 q.tansactionId ++ [q.dnsFlag1, q.dnsFlag2] ++ be16 1 ++ be16 q.answerRR
    ++ be16 q.authorityRR ++ be16 q.additionalRR

/-- The message on the wire. -/
def DnsMessage.bytes (q : DnsMessage) : List UInt8 :=
  q.header ++ (encodeName q.labels ++ (be16 q.rrType ++ be16 q.rrClass ++ q.records))

/-- The message is a query, not a response, and its opcode is 0. -/
def DnsMessage.IsStandardQuery (q : DnsMessage) : Prop :=
  q.dnsFlag1.toNat / 128 = 0 ∧ q.dnsFlag1.toNat / 8 % 16 = 0

/-- The question is of type A and class IN. -/
def DnsMessage.IsAIn (q : DnsMessage) : Prop := q.rrType = 1 ∧ q.rrClass = 1

/-- The question asks for the name `dnsName`. -/
def DnsMessage.AsksFor (q : DnsMessage) (dnsName : List UInt8) : Prop :=
  q.labels ≠ [] ∧ SameName dnsName (dottedName q.labels)

/-- A reply with an A record. -/
def DnsReply.HasARecord (r : DnsReply) : Prop :=
  ∃ a ∈ r.answer, a.rrType = htons dnsRrtypeA ∧ a.rrClass = htons dnsRrclassIn

/-- A name-error reply. -/
def DnsReply.IsNameError (r : DnsReply) : Prop := r.dnsFlag2 &&& dnsFlag2ErrMask = dnsFlag2ErrName

/-- What is sent, if anything, is what is due to the message. -/
def FollowsPolicy (dnsName : List UInt8) (q : DnsMessage) (sent : Option DnsReply) : Prop :=
  ((∃ r ∈ sent, r.HasARecord) ↔ q.IsStandardQuery ∧ q.IsAIn ∧ q.AsksFor dnsName) ∧
    ((∃ r ∈ sent, r.IsNameError) ↔ q.IsStandardQuery ∧ q.IsAIn ∧ ¬ q.AsksFor dnsName) ∧
    (¬ (q.IsStandardQuery ∧ q.IsAIn) → sent = none)

/-! ### The condition -/

/-- The type and the class that the code sees, behind the first zero byte of the name. -/
def DnsMessage.seen (q : DnsMessage) : DnsQuery :=
  queryAt (storeBytes (fun _ => 0) 0 q.bytes) (sizeofDnsHeader + (visibleName q.labels).length + 1)

/-- The code takes the name for the configured one. -/
def DnsMessage.Accepted (q : DnsMessage) (s : Memory) : Prop :=
  0 < (visibleName q.labels).length ∧ (visibleName q.labels).length ≤ 33 ∧
    labelsMatch s offDnsName q.labels = true

/-- For a standard query: the type or the class that the code sees is right exactly when both are,
    and for such a query the name is not mistaken for the configured one. -/
def QueryTakenRight (s : Memory) (dnsName : List UInt8) (q : DnsMessage) : Prop :=
  q.IsStandardQuery →
    ((q.seen.rrType = htons dnsRrtypeA ∨ q.seen.rrClass = htons dnsRrclassIn) ↔ q.IsAIn) ∧
    (q.IsAIn → q.Accepted s → q.AsksFor dnsName)

/-! ### The message in memory -/

section Memory

variable {q : DnsMessage} {block : Memory}

theorem length_header (q : DnsMessage) : q.header.length = sizeofDnsHeader := rfl

/-- The name lies behind the header. -/
theorem name_bytesAt (q : DnsMessage) (block : Memory) :
    BytesAt (storeBytes block 0 q.bytes) sizeofDnsHeader (encodeName q.labels) := by
  have hall := bytesAt_storeBytes block 0 q.bytes
  rw [DnsMessage.bytes, bytesAt_append, bytesAt_append, Nat.zero_add, length_header] at hall
  exact hall.2.1

/-- The code takes the name up to its first zero. -/
theorem strlen_name (q : DnsMessage) (block : Memory) :
    strlen (storeBytes block 0 q.bytes) sizeofDnsHeader = (visibleName q.labels).length := by
  obtain ⟨rest, hrest⟩ := visibleName_of_labels q.labels
  have hname := name_bytesAt q block
  rw [← hrest] at hname
  have hlt := length_visibleName_lt q.labels
  have hle := q.valid.length_le
  rw [strlen_of_bytesAt (bytesAt_append.mp hname).1 (zero_not_mem_visibleName _)]
  unfold defStrlenMaxVal
  omega

/-- The type and the class that the code sees do not depend on the block. -/
theorem queryAt_seen (q : DnsMessage) (block : Memory) :
    queryAt (storeBytes block 0 q.bytes)
      (sizeofDnsHeader + (visibleName q.labels).length + 1) = q.seen := by
  have hlt := length_visibleName_lt q.labels
  have hlen : q.bytes.length = sizeofDnsHeader + ((encodeName q.labels).length
      + (4 + q.records.length)) := by
    rw [DnsMessage.bytes, List.length_append, List.length_append, length_header]
    simp [be16]
    omega
  have hbyte : ∀ p, p < q.bytes.length →
      storeBytes block 0 q.bytes p = storeBytes (fun _ => 0) 0 q.bytes p :=
    fun p hp => storeBytes_congr _ _ (Nat.zero_le p) (by omega)
  unfold DnsMessage.seen queryAt load16
  rw [hbyte _ (by omega), hbyte _ (by omega), hbyte _ (by omega), hbyte _ (by omega)]

/-- A 16-bit field is loaded in network order. -/
theorem load16_be16 {m : Memory} {p : ℕ} {x : UInt16} (h : BytesAt m p (be16 x)) :
    load16 m p = htons x.toNat := by
  obtain ⟨h0, h1, -⟩ := h
  rw [load16, h0, h1, htons, UInt8.toNat_ofNat', UInt8.toNat_ofNat']
  omega

/-- Without a zero byte in a label the code sees the type and the class of the question. -/
theorem seen_of_zero_free (hzero : ∀ l ∈ q.labels, 0 ∉ l) :
    q.seen = ⟨htons q.rrType.toNat, htons q.rrClass.toNat⟩ := by
  have hall : BytesAt (storeBytes (fun _ => 0) 0 q.bytes) 0 (q.header ++ (encodeName q.labels
      ++ (be16 q.rrType ++ be16 q.rrClass ++ q.records))) := bytesAt_storeBytes _ 0 q.bytes
  rw [bytesAt_append, bytesAt_append, bytesAt_append, bytesAt_append, Nat.zero_add, length_header,
    encodeName_of_zero_free q.valid.pos q.valid.le hzero, List.length_append,
    List.length_singleton, ← Nat.add_assoc] at hall
  obtain ⟨htype, hclass⟩ := hall.2.2.1
  have htwo : (be16 q.rrType).length = 2 := rfl
  rw [htwo] at hclass
  rw [DnsMessage.seen, queryAt, load16_be16 htype, load16_be16 hclass]

/-- The first byte of the flags. -/
theorem flag1_at (q : DnsMessage) (block : Memory) :
    storeBytes block 0 q.bytes offDnsFlag1 = q.dnsFlag1 := by
  have hall := bytesAt_storeBytes block 0 q.bytes
  rw [DnsMessage.bytes, DnsMessage.header] at hall
  simp only [bytesAt_append, bytesAt_cons] at hall
  exact hall.1.1.1.1.1.2.1

/-- The filter on the flags. -/
theorem standard_iff (q : DnsMessage) :
    (q.dnsFlag1 &&& dnsFlag1Response ≠ 0 ∨
      q.dnsFlag1 &&& ((0xf : UInt8) <<< 3) ≠ dnsFlag1OpcodeStandard) ↔ ¬ q.IsStandardQuery := by
  have hall : ∀ n < 256, (UInt8.ofNat n &&& dnsFlag1Response ≠ 0 ∨
      UInt8.ofNat n &&& ((0xf : UInt8) <<< 3) ≠ dnsFlag1OpcodeStandard) ↔
      ¬ (n / 128 = 0 ∧ n / 8 % 16 = 0) := by
    decide +kernel
  have hflag := hall q.dnsFlag1.toNat q.dnsFlag1.toNat_lt
  rw [UInt8.ofNat_toNat] at hflag
  exact hflag

end Memory

/-! ### The reply -/

/-- The server was started or configured with the name. -/
def Configured (s : Memory) (dnsName : List UInt8) : Prop :=
  ∃ old, (∃ netif socket, dnssStart netif socket dnsName old = (s, dnssErrSuccess)) ∨
    dnssConfig old (some dnsName) = (s, dnssErrSuccess)

/-- `DnsName` holds the configured name and zeros behind it. -/
theorem Configured.field {s : Memory} {dnsName : List UInt8} (h : Configured s dnsName)
    (hlen : dnsName.length ≤ 32) :
    (∀ i, ∀ hi : i < dnsName.length, s (offDnsName + i) = dnsName[i]) ∧
      ∀ i, dnsName.length ≤ i → i < 32 → s (offDnsName + i) = 0 := by
  obtain ⟨old, ⟨netif, socket, hstart⟩ | hconfig⟩ := h
  · unfold dnssStart at hstart
    rw [if_neg (by omega)] at hstart
    by_cases hup : netif.up = true
    · rw [if_neg (not_not.mpr hup)] at hstart
      replace hstart := (Prod.mk.inj hstart).1
      rw [← hstart]
      -- the address and the socket lie outside the name
      have hout : ∀ (m : Memory) (i : ℕ), i < 32 →
          store32 (store32 m offHostIp netif.ipAddr.toNat) 0 socket (offDnsName + i)
            = m (offDnsName + i) := by
        intro m i hi
        unfold offDnsName
        rw [store32_of_outside (by omega), store32_of_outside (by unfold offHostIp; omega)]
      refine ⟨fun i hi => ?_, fun i hi hi' => ?_⟩
      · rw [hout _ i (by omega), storeBytes_inside _ _ hi]
      · have hin : offDnsName + i < (List.replicate sizeofDnsServer (0 : UInt8)).length := by
          rw [List.length_replicate]
          unfold offDnsName sizeofDnsServer
          omega
        have hzero := storeBytes_inside old 0 hin
        rw [Nat.zero_add, List.getElem_replicate] at hzero
        rw [hout _ i hi', storeBytes_outside _ (by omega), hzero]
    · rw [if_pos hup] at hstart
      exact absurd (Prod.mk.inj hstart).2 (by decide)
  · unfold dnssConfig at hconfig
    dsimp only at hconfig
    rw [if_neg (by omega)] at hconfig
    rw [← (Prod.mk.inj hconfig).1]
    refine ⟨fun i hi => storeBytes_inside _ _ hi, fun i hi hi' => ?_⟩
    have hin : i < (List.replicate 32 (0 : UInt8)).length := by
      rwa [List.length_replicate]
    rw [storeBytes_outside _ (by omega), storeBytes_inside old offDnsName hin,
      List.getElem_replicate]

/-- The configured name lies in `DnsName` as a C string. -/
theorem Configured.bytesAt {s : Memory} {dnsName : List UInt8} (h : Configured s dnsName)
    (hlen : dnsName.length ≤ 31) : BytesAt s offDnsName (dnsName ++ [0]) := by
  obtain ⟨hname, hzero⟩ := h.field (by omega)
  exact bytesAt_append.mpr ⟨bytesAt_of_getElem hname, hzero _ le_rfl (by omega), trivial⟩

section Reply

variable {s : Memory} {dnsName : List UInt8} {q : DnsMessage}

/-- The configured name is accepted. -/
theorem DnsMessage.AsksFor.accepted (h : q.AsksFor dnsName) (hs : Configured s dnsName)
    (hlen : dnsName.length ≤ 31) : q.Accepted s := by
  obtain ⟨hne, hsame⟩ := h
  have htext : dnsName.length = (dottedName q.labels).length := by
    have := congrArg List.length hsame
    simpa using this
  have hwire := length_encodeName hne
  have hlt := length_visibleName_lt q.labels
  exact ⟨length_visibleName_pos hne q.valid, by omega,
    labelsMatch_of_sameName hne (hs.bytesAt hlen) hsame⟩

/-- What `_DnsCompareName` returns for the name of a message. -/
theorem dnsCompareName_spec (s : Memory) (q : DnsMessage) (block : Memory) (behind : ℕ) :
    ∃ r, dnsCompareName s (storeBytes block 0 q.bytes) (q.bytes.length + behind) sizeofDnsHeader
        = some r ∧ (r = 0 ↔ q.Accepted s) := by
  unfold dnsCompareName
  rw [strlen_name]
  have hlt : (visibleName q.labels).length < 256 :=
    (length_visibleName_lt q.labels).trans_le (by have := q.valid.length_le; omega)
  by_cases hlen : 0 < (visibleName q.labels).length ∧ (visibleName q.labels).length ≤ 33
  · have hne : q.labels ≠ [] := fun hc => by
      rw [hc] at hlen
      simp [visibleName, encodeName] at hlen
    have hfuel : q.labels.length ≤ q.bytes.length + behind := by
      have := length_le_encodeName q.labels
      rw [DnsMessage.bytes, List.length_append, List.length_append]
      omega
    rw [if_neg (by unfold u32; omega),
      dnsCompareLoop_spec hne q.valid.le q.valid.pos hfuel (name_bytesAt q block)]
    refine ⟨_, rfl, ?_⟩
    unfold DnsMessage.Accepted
    by_cases hmatch : labelsMatch s offDnsName q.labels
    · simp [hmatch, hlen]
    · simp [hmatch]
  · rw [if_pos (by unfold u32; omega)]
    refine ⟨1, rfl, ?_⟩
    unfold DnsMessage.Accepted
    refine iff_of_false (by decide) fun hc => hlen ⟨hc.1, hc.2.1⟩

/-- The reply to a message: none, an A record or a name error. -/
theorem dnssRecvCb_cases (s : Memory) (q : DnsMessage) (block : Memory) (behind : ℕ) :
    ∃ sent, dnssRecvCb s q.bytes block behind ⟨true, true, true⟩ = some sent ∧
      ((¬ (q.IsStandardQuery ∧ (q.seen.rrType = htons dnsRrtypeA ∨
          q.seen.rrClass = htons dnsRrclassIn)) ∧ sent = none) ∨
        (q.IsStandardQuery ∧ (q.seen.rrType = htons dnsRrtypeA ∨
            q.seen.rrClass = htons dnsRrclassIn) ∧
          ∃ r, sent = some r ∧ ((q.Accepted s ∧ r.HasARecord ∧ ¬ r.IsNameError) ∨
            (¬ q.Accepted s ∧ ¬ r.HasARecord ∧ r.IsNameError)))) := by
  unfold dnssRecvCb
  rw [if_neg (by simp)]
  dsimp only
  rw [flag1_at]
  by_cases hstd : q.IsStandardQuery
  · rw [if_neg fun hc => (standard_iff q).mp hc hstd, strlen_name, queryAt_seen]
    by_cases hseen : q.seen.rrType = htons dnsRrtypeA ∨ q.seen.rrClass = htons dnsRrclassIn
    · rw [if_neg fun hc => hseen.elim hc.2 hc.1]
      obtain ⟨r, hr, hzero⟩ := dnsCompareName_spec s q block behind
      rw [hr, Option.map_some]
      by_cases hacc : q.Accepted s
      · rw [if_neg (not_not.mpr (hzero.mpr hacc))]
        refine ⟨_, rfl, .inr ⟨hstd, hseen, _, rfl, .inl ⟨hacc, ⟨_, rfl, rfl, rfl⟩, ?_⟩⟩⟩
        show ¬ (dnsFlag2ErrNone &&& dnsFlag2ErrMask = dnsFlag2ErrName)
        decide
      · rw [if_pos fun hc => hacc (hzero.mp hc)]
        refine ⟨_, rfl, .inr ⟨hstd, hseen, _, rfl, .inr ⟨hacc, ?_, ?_⟩⟩⟩
        · rintro ⟨a, ha, -⟩
          cases ha
        · show dnsFlag2ErrName &&& dnsFlag2ErrMask = dnsFlag2ErrName
          decide
    · rw [if_pos ⟨fun hc => hseen (.inr hc), fun hc => hseen (.inl hc)⟩]
      exact ⟨none, rfl, .inl ⟨fun hc => hseen hc.2, rfl⟩⟩
  · rw [if_pos ((standard_iff q).mpr hstd)]
    exact ⟨none, rfl, .inl ⟨fun hc => hstd hc.1, rfl⟩⟩

end Reply

/-- **When the DNS server does what is due**: memory allocation succeeding, for every configured
    name of at most 31 characters and every message with one question and an uncompressed name,
    exactly when the code takes type, class and name of a standard query right. -/
theorem dns_policy_iff {s : Memory} {dnsName : List UInt8} (hs : Configured s dnsName)
    (hlen : dnsName.length ≤ 31) (q : DnsMessage) (block : Memory) (behind : ℕ) :
    (∃ sent, dnssRecvCb s q.bytes block behind ⟨true, true, true⟩ = some sent ∧
        FollowsPolicy dnsName q sent) ↔ QueryTakenRight s dnsName q := by
  obtain ⟨sent, hsent, hcases⟩ := dnssRecvCb_cases s q block behind
  have haccepted : q.AsksFor dnsName → q.Accepted s := fun h => h.accepted hs hlen
  rw [hsent]
  simp only [Option.some.injEq, exists_eq_left']
  unfold FollowsPolicy QueryTakenRight
  have hnone : ∀ P : DnsReply → Prop, (∃ r ∈ (none : Option DnsReply), P r) ↔ False := by simp
  have hsome : ∀ (r : DnsReply) (P : DnsReply → Prop), (∃ r' ∈ some r, P r') ↔ P r := by simp
  generalize (q.seen.rrType = htons dnsRrtypeA ∨ q.seen.rrClass = htons dnsRrclassIn) = seen
    at hcases ⊢
  generalize q.IsStandardQuery = standard at hcases ⊢
  generalize q.IsAIn = aIn
  generalize q.AsksFor dnsName = asks at haccepted ⊢
  generalize q.Accepted s = accepted at hcases haccepted ⊢
  rcases hcases with ⟨hnot, rfl⟩ | ⟨hstd, hseen, r, rfl, ⟨hacc, hrec, herr⟩ | ⟨hacc, hrec, herr⟩⟩
  · rw [hnone, hnone]
    grind
  · rw [hsome, hsome]
    simp only [hrec, herr, hstd, hseen, hacc, reduceCtorEq]
    grind
  · rw [hsome, hsome]
    simp only [hrec, herr, hstd, hseen, hacc, reduceCtorEq]
    grind

/-- A server with the name `wifi`, started at 192.168.1.1. -/
def sampleDns : Memory :=
  (dnssStart ⟨true, 0x0101a8c0, 0x00ffffff⟩ 1 (ascii "wifi") (fun _ => 0)).1

theorem sampleDns_configured : Configured sampleDns (ascii "wifi") :=
  ⟨_, .inl ⟨_, _, Prod.ext rfl rfl⟩⟩

/-- A standard query for `wifi`. -/
def sampleQuery (rrType : UInt16) : DnsMessage :=
  { tansactionId := 1, dnsFlag1 := 1, dnsFlag2 := 0, answerRR := 0, authorityRR := 0
    additionalRR := 0, labels := [ascii "wifi"], rrType := rrType, rrClass := 1, records := []
    valid := ⟨by decide, by decide, by decide⟩ }

theorem dns_policy_iff_sample :
    (∃ sent, dnssRecvCb sampleDns (sampleQuery 1).bytes (fun _ => 0) 0 ⟨true, true, true⟩
          = some sent ∧ FollowsPolicy (ascii "wifi") (sampleQuery 1) sent) ↔
      QueryTakenRight sampleDns (ascii "wifi") (sampleQuery 1) := by
  have hlen : (ascii "wifi").length ≤ 31 := by decide
  exact dns_policy_iff sampleDns_configured hlen (sampleQuery 1) _ 0

/-- A query for an IPv6 address (type 28) of the configured name is answered by an A record. -/
theorem aaaa_query_is_answered :
    ¬ ∀ (s : Memory) (dnsName : List UInt8), Configured s dnsName → 1 ≤ dnsName.length →
      dnsName.length ≤ 31 → ∀ (q : DnsMessage) (block : Memory) (behind : ℕ), ∃ sent,
      dnssRecvCb s q.bytes block behind ⟨true, true, true⟩ = some sent ∧
        FollowsPolicy dnsName q sent := by
  intro hall
  obtain ⟨sent, hsent, -, -, hnone⟩ := hall sampleDns (ascii "wifi") sampleDns_configured
    (by decide) (by decide) (sampleQuery 28) (fun _ => 0) 0
  have hreplied : (dnssRecvCb sampleDns (sampleQuery 28).bytes (fun _ => 0) 0
      ⟨true, true, true⟩).map Option.isSome = some true := by
    decide +kernel
  rw [hsent, hnone fun h => absurd h.2.1 (by decide)] at hreplied
  cases hreplied

end SerialNet
