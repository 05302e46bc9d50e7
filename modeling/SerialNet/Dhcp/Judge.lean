import SerialNet.Dhcp.OwnBytes

namespace SerialNet

/-!
# When a DHCP payload is judged by its own bytes

`DHCPS_RecvCb` never looks at the length of a message beyond whether it is 0, so a short message
is completed by what earlier traffic left in `DhcpMsg` and by the memory behind it.  That does not
matter where each byte that decides was received (`judge_decodeOver`):

* what was received is enough to refuse the payload (`RefusedByOwnBytes`), or
* the options end within the received bytes, and the values that matter for the type of message
  were received (`OptionsReceived`).
-/

/-! ### The condition -/

/-- The header bytes that the filter of `DHCPS_RecvCb` demands. -/
def requiredBytes : List (ℕ × UInt8) :=
  [(0, dhcpOpRequest), (offHType, dhcpHwtypeEthernet), (offMagic, 0x63), (offMagic + 1, 0x82),
    (offMagic + 2, 0x53), (offMagic + 3, 0x63)]

/-- The payload is empty, or one of the bytes that the filter demands was received and is
    another. -/
def RefusedByOwnBytes (payload : List UInt8) : Prop :=
  payload = [] ∨ ∃ r ∈ requiredBytes, payload[r.1]? ≠ none ∧ payload[r.1]? ≠ some r.2

instance (payload : List UInt8) : Decidable (RefusedByOwnBytes payload) :=
  inferInstanceAs (Decidable (_ ∨ _))

/-- The word at `place`, if there is one, was received. -/
def WordReceived (payload : List UInt8) (place : Option ℕ) : Prop :=
  ∀ p ∈ place, Received payload (p + 3)

/-- The options end within the received bytes and name no type of message, or the type was
    received, with the requested address for a DISCOVER, and both words for a REQUEST. -/
def OptionsReceived (payload : List UInt8) : Prop :=
  ∃ o, ownOptions payload (sizeofDhcpMsg - offOptions) offOptions .empty = some o ∧
    ∀ p ∈ o.msgType, p < sizeofDhcpMsg ∧ ∃ t, payload[p]? = some t ∧
      (t = dhcpMsgDiscover ∨ t = dhcpMsgRequest → WordReceived payload o.reqIpAddr) ∧
      (t = dhcpMsgRequest → WordReceived payload o.serverId)

/-- A state after some history of messages, ticks and deletions. -/
def Reached (s : Dhcp) : Prop := ∃ s₀ es, DhcpStarted s₀ ∧ (trace dhcpStep s₀ es).1 = s

/-- After any two histories that lead to the same table and configuration, `payload` causes the
    same change of them and the same reply. -/
def JudgedByOwnBytes (payload : List UInt8) : Prop :=
  ∀ s s', Reached s → Reached s' → s.server = s'.server → ∀ beyond beyond' alloc,
    (dhcpsRecvCb s payload beyond alloc).1.server = (dhcpsRecvCb s' payload beyond' alloc).1.server ∧
      (dhcpsRecvCb s payload beyond alloc).2 = (dhcpsRecvCb s' payload beyond' alloc).2

/-! ### Decoding -/

/-- The request in `m` once its options were read. -/
def requestOf (m : Memory) (o : DhcpOptions) : Option DhcpRequest :=
  if o.ret &&& 0x01 = 0 then none
  else some { msgType := o.msgType
              reqIpAddr := o.reqIpAddr
              serverId := o.serverId
              xid := ntohl (.ofNat (load32 m offXid))
              macAddr := .ofFn fun i => m (offChaddr + i) }

/-- The bytes of the magic number. -/
theorem magic_iff (m : Memory) : ntohl (.ofNat (load32 m offMagic)) = dhcpMagic ↔
    m offMagic = 0x63 ∧ m (offMagic + 1) = 0x82 ∧ m (offMagic + 2) = 0x53 ∧
      m (offMagic + 3) = 0x63 := by
  -- The comparison in host order is one of the word in memory with the swapped magic number.
  have hword : ntohl (.ofNat (load32 m offMagic)) = dhcpMagic ↔ load32 m offMagic = 0x63538263 := by
    constructor
    · intro h
      have hmagic : ntohl dhcpMagic = .ofNat 0x63538263 := by decide
      rw [← h, ntohl_ntohl, ← UInt32.toNat_inj, UInt32.toNat_ofNat_of_lt' (load32_lt m _)] at hmagic
      exact hmagic
    · intro h
      rw [h]
      decide
  have h0 := (m offMagic).toNat_lt
  have h1 := (m (offMagic + 1)).toNat_lt
  have h2 := (m (offMagic + 2)).toNat_lt
  have h3 := (m (offMagic + 3)).toNat_lt
  rw [hword, load32, ← UInt8.toNat_inj, ← UInt8.toNat_inj, ← UInt8.toNat_inj, ← UInt8.toNat_inj]
  have hb : (0x63 : UInt8).toNat = 0x63 ∧ (0x82 : UInt8).toNat = 0x82 ∧
      (0x53 : UInt8).toNat = 0x53 := by decide
  rw [hb.1, hb.2.1, hb.2.2]
  constructor
  · intro h
    omega
  · rintro ⟨ha, hb, hc, hd⟩
    rw [ha, hb, hc, hd]

/-- The filter, byte by byte. -/
theorem decodeRequest_eq (n : ℕ) (m : Memory) : decodeRequest n m =
    if n ≠ 0 ∧ ∀ r ∈ requiredBytes, m r.1 = r.2 then requestOf m (parseDhcpOptions m) else none := by
  have hiff : (n ≠ 0 ∧ ∀ r ∈ requiredBytes, m r.1 = r.2) ↔
      ¬ (n = 0 ∨ m 0 ≠ dhcpOpRequest ∨ ntohl (.ofNat (load32 m offMagic)) ≠ dhcpMagic ∨
        m offHType ≠ dhcpHwtypeEthernet) := by
    rw [Ne, Ne, Ne, Ne, magic_iff]
    simp only [requiredBytes, List.forall_mem_cons, List.not_mem_nil, false_imp_iff, implies_true,
      and_true]
    tauto
  by_cases h : n = 0 ∨ m 0 ≠ dhcpOpRequest ∨ ntohl (.ofNat (load32 m offMagic)) ≠ dhcpMagic ∨
      m offHType ≠ dhcpHwtypeEthernet
  · rw [if_neg (fun hc => hiff.mp hc h), decodeRequest, if_pos h]
  · rw [if_pos (hiff.mpr h), decodeRequest, if_neg h]
    rfl

variable {payload : List UInt8} {old : Memory}

/-- A payload that its own bytes refuse is ignored. -/
theorem decodeOver_refused (h : RefusedByOwnBytes payload) : decodeOver payload old = none := by
  rw [decodeOver, decodeRequest_eq]
  apply if_neg
  intro hc
  -- An empty payload has length 0; else the received byte is the one the filter reads.
  rcases h with rfl | ⟨r, hr, hsome, hne⟩
  · exact hc.1 rfl
  · obtain ⟨b, hb⟩ := Option.ne_none_iff_exists'.mp hsome
    have hlt : ∀ r ∈ requiredBytes, r.1 < sizeofDhcpMsg := by decide
    have hm := holdsPayload_overlay payload old r.1 b (hlt r hr) hb
    rw [hc.2 r hr] at hm
    exact hne (hb.trans (congrArg some hm.symm))

/-- A payload that they do not refuse passes the filter over a correct header. -/
theorem decodeOver_passed (h : ¬ RefusedByOwnBytes payload)
    (hold : ∀ r ∈ requiredBytes, ¬ Received payload r.1 → old r.1 = r.2) :
    decodeOver payload old = requestOf (overlay payload old)
      (parseDhcpOptions (overlay payload old)) := by
  obtain ⟨hne, hall⟩ := not_or.mp h
  rw [decodeOver, decodeRequest_eq]
  refine if_pos ⟨?_, fun r hr => ?_⟩
  · have hpos := List.length_pos_iff.mpr hne
    show min payload.length sizeofDhcpMsg ≠ 0
    unfold sizeofDhcpMsg
    omega
  -- A required byte is either received, and then right, or one of the old header.
  · by_cases hrec : Received payload r.1
    · by_contra hc
      have hbyte : payload[r.1]? = some (overlay payload old r.1) := overlay_of_received hrec
      refine hall ⟨r, hr, ?_, ?_⟩
      · rw [hbyte]
        exact Option.some_ne_none _
      · rw [hbyte]
        exact fun heq => hc (Option.some.inj heq)
    · rw [overlay_of_not_received hrec]
      exact hold r hr hrec

/-- Words whose last byte was received are the same over any old contents. -/
theorem load32_overlay (old old' : Memory) {p : ℕ} (h : Received payload (p + 3)) :
    load32 (overlay payload old) p = load32 (overlay payload old') p := by
  have hbyte : ∀ x, x ≤ p + 3 → overlay payload old x = overlay payload old' x :=
    fun x hx => overlay_congr old old' ⟨by have := h.1; omega, by have := h.2; omega⟩
  unfold load32
  rw [hbyte p (by omega), hbyte (p + 1) (by omega), hbyte (p + 2) (by omega),
    hbyte (p + 3) le_rfl]

/-- The options begin with a received byte if the walk does not give up. -/
theorem ownOptions_received {o : OptionPlaces}
    (h : ownOptions payload (sizeofDhcpMsg - offOptions) offOptions .empty = some o) :
    offOptions < payload.length := by
  by_contra hlt
  have hnone : payload[offOptions]? = none := List.getElem?_eq_none (not_lt.mp hlt)
  have hgives : ownOptions payload (sizeofDhcpMsg - offOptions) offOptions .empty = none := by
    rw [show sizeofDhcpMsg - offOptions = 307 + 1 from rfl, ownOptions, if_pos (by decide), hnone]
  rw [hgives] at h
  cases h

/-! ### Requests with the same effect -/

/-- Two requests that differ at most in what the server ignores for their type. -/
structure Alike (q q' : DhcpRequest) : Prop where
  msgType : q.msgType = q'.msgType
  xid : q.xid = q'.xid
  macAddr : q.macAddr = q'.macAddr
  reqIpAddr : q.msgType = dhcpMsgDiscover ∨ q.msgType = dhcpMsgRequest → q.reqIpAddr = q'.reqIpAddr
  serverId : q.msgType = dhcpMsgRequest → q.serverId = q'.serverId

/-- The client's own entry does not depend on the address it asks for. -/
theorem scanClients_myClient (t : ClientTable) (mac : Mac) (ip ip' : UInt32) :
    (scanClients t mac ip).myClient = (scanClients t mac ip').myClient := by
  -- Induction over the entries still to be scanned; the two scans may differ elsewhere.
  suffices h : ∀ (rest : List (Fin 8)) (r r' : Scan), r.myClient = r'.myClient →
      (rest.foldl (scanClient t mac ip) r).myClient
        = (rest.foldl (scanClient t mac ip') r').myClient from
    h (List.finRange 8) _ _ rfl
  intro rest
  induction rest with
  | nil =>
    intro r r' h
    exact h
  | cons i rest ih =>
    intro r r' h
    apply ih
    unfold scanClient
    split_ifs <;> first | exact h | rfl

/-- Requests that are alike have the same effect. -/
theorem handleRequest_alike (s : DhcpServer) (alloc : Bool) {q q' : DhcpRequest}
    (h : Alike q q') : handleRequest s alloc q = handleRequest s alloc q' := by
  -- RELEASE and DECLINE only use the client's own entry.
  have hrelease : lookupRelease s.clients (scanClients s.clients q'.macAddr q.reqIpAddr)
      = lookupRelease s.clients (scanClients s.clients q'.macAddr q'.reqIpAddr) := by
    rw [lookupRelease, lookupRelease, scanClients_myClient _ _ q.reqIpAddr q'.reqIpAddr]
  have hbranch : lookupBranch s q = lookupBranch s q' := by
    unfold lookupBranch
    rw [h.msgType, h.macAddr]
    split_ifs with hd hr
    · rw [h.reqIpAddr (.inl (h.msgType.trans hd))]
    · rw [h.reqIpAddr (.inr (h.msgType.trans hr)), serverAccepted, serverAccepted,
        h.serverId (h.msgType.trans hr)]
    · exact hrelease
    · exact hrelease
    · rfl
  unfold handleRequest clientTableLookup
  rw [hbranch, h.msgType, h.macAddr, h.xid]

/-- What `DHCPS_RecvCb` makes of the request it read. -/
def judge (s : DhcpServer) (alloc : Bool) : Option DhcpRequest → DhcpServer × Option DhcpReply
  | none => (s, none)
  | some q => handleRequest s alloc q

theorem dhcpsRecvCb_judge (s : Dhcp) (payload : List UInt8) (beyond : Memory) (alloc : Bool) :
    ((dhcpsRecvCb s payload beyond alloc).1.server, (dhcpsRecvCb s payload beyond alloc).2)
      = judge s.server alloc (decodeOver payload (oldBytes s beyond)) := by
  unfold dhcpsRecvCb
  rw [receivedRequest_eq]
  cases decodeOver payload (oldBytes s beyond) <;> rfl

/-- The request in `m` whose options stand at the places `o`, the type at `p`. -/
def requestAt (o : OptionPlaces) (p : ℕ) (m : Memory) : DhcpRequest where
  msgType := m p
  reqIpAddr := (o.reqIpAddr.map fun p => .ofNat (load32 m p)).getD 0
  serverId := (o.serverId.map fun p => .ofNat (load32 m p)).getD 0
  xid := ntohl (.ofNat (load32 m offXid))
  macAddr := .ofFn fun i => m (offChaddr + i)

section Own

variable {o : OptionPlaces} (hrefused : ¬ RefusedByOwnBytes payload)
  (ho : ownOptions payload (sizeofDhcpMsg - offOptions) offOptions .empty = some o)

include ho in
/-- The header was received if the walk does not give up. -/
theorem header_received {x : ℕ} (hx : x ≤ offOptions) : Received payload x := by
  have hlen := ownOptions_received ho
  unfold offOptions at hx hlen
  exact ⟨by omega, by unfold sizeofDhcpMsg; omega⟩

include hrefused ho in
/-- What is read where the walk does not give up. -/
theorem decodeOver_own (old : Memory) : decodeOver payload old
    = o.msgType.map fun p => requestAt o p (overlay payload old) := by
  have hrequired : ∀ r ∈ requiredBytes, r.1 ≤ offOptions := by decide
  have hparse := parseDhcpLoop_own (holdsPayload_overlay payload old) _ _ _ _ ho
  replace hparse : parseDhcpOptions (overlay payload old) = o.values (overlay payload old) := hparse
  rw [decodeOver_passed hrefused
    fun r hr hc => absurd (header_received ho (hrequired r hr)) hc, hparse]
  unfold requestOf requestAt OptionPlaces.values
  -- Without a type bit 0 of `Ret` stays clear, whatever the other two are.
  cases o.msgType with
  | none =>
    have hflag : ∀ r s : Bool, optionFlags false r s &&& 0x01 = 0 := by decide
    exact if_pos (hflag _ _)
  | some p =>
    have hflag : ∀ r s : Bool, ¬ optionFlags true r s &&& 0x01 = 0 := by decide
    exact if_neg (hflag _ _)

include ho in
/-- The client's address was received. -/
theorem requestAt_macAddr (old old' : Memory) (p p' : ℕ) :
    (requestAt o p (overlay payload old)).macAddr
      = (requestAt o p' (overlay payload old')).macAddr := by
  show Vector.ofFn _ = Vector.ofFn _
  congr 1
  funext i
  refine overlay_congr old old' (header_received ho ?_)
  have := i.isLt
  unfold offChaddr offOptions
  omega

end Own

/-- Words that were received, or are not there, are read the same over any old contents. -/
theorem wordAt_overlay {place : Option ℕ} (h : WordReceived payload place) (old old' : Memory) :
    (place.map fun p => UInt32.ofNat (load32 (overlay payload old) p)).getD 0
      = (place.map fun p => UInt32.ofNat (load32 (overlay payload old') p)).getD 0 := by
  cases place with
  | none => rfl
  | some p =>
    simp only [Option.map_some, Option.getD_some]
    rw [load32_overlay old old' (h p rfl)]

/-- **Where the bytes that decide were received**, the old contents of the buffer do not matter. -/
theorem judge_decodeOver (h : RefusedByOwnBytes payload ∨ OptionsReceived payload)
    (old old' : Memory) (s : DhcpServer) (alloc : Bool) :
    judge s alloc (decodeOver payload old) = judge s alloc (decodeOver payload old') := by
  by_cases hrefused : RefusedByOwnBytes payload
  · rw [decodeOver_refused hrefused, decodeOver_refused hrefused]
  obtain ⟨o, ho, hplaces⟩ := h.resolve_left hrefused
  rw [decodeOver_own hrefused ho, decodeOver_own hrefused ho]
  cases htype : o.msgType with
  | none => rfl
  | some p =>
    obtain ⟨hp, t, ht, hdiscover, hrequest⟩ := hplaces p htype
    -- The type is a received byte, so it is the same over both old contents.
    have hvalue : ∀ m : Memory, overlay payload m p = t := fun m =>
      holdsPayload_overlay payload m p t hp ht
    refine handleRequest_alike s alloc ⟨?_, ?_, ?_, fun h => ?_, fun h => ?_⟩
    · exact (hvalue old).trans (hvalue old').symm
    · show ntohl _ = ntohl _
      rw [load32_overlay old old' (header_received ho (by decide))]
    · exact requestAt_macAddr ho old old' p p
    · exact wordAt_overlay (hdiscover ((hvalue old) ▸ h)) old old'
    · exact wordAt_overlay (hrequest ((hvalue old) ▸ h)) old old'

end SerialNet
