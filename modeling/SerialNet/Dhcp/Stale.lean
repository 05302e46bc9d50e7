import SerialNet.Dhcp.Judge
import SerialNet.Dhcp.Nak

namespace SerialNet

/-!
# Stale bytes in `DhcpMsg` decide

A byte that decides and was not received is the attacker's: an ignored packet leaves any bytes in
the buffer (`Reached.stale`), and some reachable server tells two values of the byte apart.

* A missing type, or a place where the options can be continued, makes the message a RELEASE or
  one of an unknown type, which is answered by a NAK (`nak_of_unknown`).
* For a missing byte of an address the server is one whose own address agrees with it in the three
  bytes before (`exists_held`): a client that holds an entry loses it if it asks for another one
  of the pool and keeps it if it asks for the server's address (`handleRequest_moves`,
  `handleRequest_stays`), and a server id is accepted if it is the server's address.

So the condition of `judge_decodeOver` is exact (`judged_by_own_bytes_iff`).
-/

/-! ### Words whose last byte is free -/

/-- The host part of a prefix of 24 bits. -/
theorem toNat_not_mask24 : (~~~(prefixMask 24)).toNat = 255 := by decide

/-- The bits of a word in memory. -/
theorem testBit_load32 (m : Memory) (p : ℕ) (i : ℕ) :
    (load32 m p).testBit i
      = if i < 24 then (load32 m p % 2 ^ 24).testBit i else (m (p + 3)).toNat.testBit (i - 24) := by
  have h0 := (m p).toNat_lt
  have h1 := (m (p + 1)).toNat_lt
  have h2 := (m (p + 2)).toNat_lt
  by_cases hi : i < 24
  · rw [if_pos hi, Nat.testBit_mod_two_pow]
    simp [hi]
  · rw [if_neg hi]
    have hdiv : load32 m p / 2 ^ 24 = (m (p + 3)).toNat := by
      unfold load32
      omega
    rw [← hdiv, Nat.testBit_div_two_pow]
    congr 1
    omega

/-- The host number is the last byte of an address in a message. -/
theorem hostNumber_ntohl_load32 (m : Memory) (p : ℕ) :
    hostNumber (prefixMask 24) (ntohl (.ofNat (load32 m p))) = (m (p + 3)).toNat := by
  apply Nat.eq_of_testBit_eq
  intro i
  have hb := (m (p + 3)).toNat_lt
  rw [hostNumber, UInt32.toNat_and, toNat_not_mask24, Nat.testBit_and,
    show 255 = 2 ^ 8 - 1 from rfl, Nat.testBit_two_pow_sub_one]
  by_cases hi : i < 8
  · have hbit := getLsbD_ntohl (.ofNat (load32 m p)) (i := i) (by omega)
    rw [if_pos hi] at hbit
    have hword : (UInt32.ofNat (load32 m p)).toBitVec.getLsbD (i + 24)
        = (load32 m p).testBit (i + 24) := by
      show (UInt32.ofNat (load32 m p)).toNat.testBit (i + 24) = _
      rw [UInt32.toNat_ofNat_of_lt' (load32_lt m p)]
    have hswap : (ntohl (.ofNat (load32 m p))).toNat.testBit i
        = (load32 m p).testBit (i + 24) := hbit.trans hword
    rw [hswap, testBit_load32, if_neg (by omega)]
    simp [hi]
  · have hhigh : (m (p + 3)).toNat.testBit i = false := by
      refine Nat.testBit_lt_two_pow (lt_of_lt_of_le hb ?_)
      exact Nat.pow_le_pow_right (by omega) (by omega)
    rw [hhigh]
    simp [hi]

/-- The subnet is in the first three bytes. -/
theorem subnet_ntohl_load32 {m m' : Memory} {p : ℕ} (h : ∀ i < 3, m (p + i) = m' (p + i)) :
    ntohl (.ofNat (load32 m p)) &&& prefixMask 24
      = ntohl (.ofNat (load32 m' p)) &&& prefixMask 24 := by
  have hlow : load32 m p % 2 ^ 24 = load32 m' p % 2 ^ 24 := by
    have h0 := h 0 (by omega)
    have h1 := h 1 (by omega)
    have h2 := h 2 (by omega)
    rw [Nat.add_zero] at h0
    unfold load32
    rw [h0, h1, h2]
    omega
  have hword : ∀ (m : Memory) (k : ℕ), (UInt32.ofNat (load32 m p)).toBitVec.getLsbD k
      = (load32 m p).testBit k := by
    intro m k
    show (UInt32.ofNat (load32 m p)).toNat.testBit k = _
    rw [UInt32.toNat_ofNat_of_lt' (load32_lt m p)]
  refine UInt32.toBitVec_inj.mp (BitVec.eq_of_getLsbD_eq fun i hi => ?_)
  rw [UInt32.toBitVec_and, UInt32.toBitVec_and, BitVec.getLsbD_and, BitVec.getLsbD_and]
  by_cases hi8 : i < 8
  · have hmask : (prefixMask 24).toBitVec.getLsbD i = false := by
      have hall : ∀ i < 8, (prefixMask 24).toBitVec.getLsbD i = false := by decide
      exact hall i hi8
    rw [hmask, Bool.and_false, Bool.and_false]
  · have hfrom : (if i < 8 then i + 24 else if i < 16 then i + 8 else if i < 24 then i - 8
        else i - 24) < 24 := by
      split_ifs <;> omega
    rw [getLsbD_ntohl _ hi, getLsbD_ntohl _ hi, hword, hword, testBit_load32, testBit_load32,
      if_pos hfrom, if_pos hfrom, hlow]

/-! ### A server that tells two requests apart -/

/-- The client `mac` holds entry `my`, and all other entries are idle. -/
structure HeldAlone (t : ClientTable) (mac : Mac) (my : Fin 8) : Prop where
  own : Owns t mac my
  not_select : (t my).state ≠ .select
  idle : ∀ j, j ≠ my → (t j).state = .idle

section Held

variable {s : DhcpServer} {q : DhcpRequest} {my : Fin 8}

/-- What the scan finds for a client that holds the only entry in use. -/
theorem HeldAlone.scan (h : HeldAlone s.clients q.macAddr my) (ip : UInt32) :
    (scanClients s.clients q.macAddr ip).myClient = some my ∧
      (scanClients s.clients q.macAddr ip).ipUnavailable = false := by
  have hscan := scanClients_spec s.clients q.macAddr ip
  have halone : ∀ j, Owns s.clients q.macAddr j → j = my := fun j hj => by
    by_contra hne
    exact hj.1 (h.idle j hne)
  constructor
  · cases hmy : (scanClients s.clients q.macAddr ip).myClient with
    | none => exact absurd h.own (hscan.my_none hmy my (List.mem_finRange my))
    | some j => rw [halone j (hscan.my_some j hmy)]
  · apply Bool.eq_false_iff.mpr
    intro hun
    obtain ⟨j, -, hj, hmac, -⟩ := hscan.unavailable.1 hun
    have hjm : j = my := by
      by_contra hne
      exact hj (h.idle j hne)
    exact hmac (hjm ▸ h.own.2)

/-- The branch that a DISCOVER and a REQUEST take. -/
theorem lookupBranch_cases (s : DhcpServer) (q : DhcpRequest) :
    (q.msgType = dhcpMsgDiscover → lookupBranch s q
      = lookupDiscover s.clients (scanClients s.clients q.macAddr q.reqIpAddr)) ∧
    (q.msgType = dhcpMsgRequest → lookupBranch s q
      = lookupRequest s.clients (scanClients s.clients q.macAddr q.reqIpAddr)
          (serverAccepted s q)) := by
  refine ⟨fun h => if_pos h, fun h => ?_⟩
  rw [lookupBranch, h]
  rfl

/-- The client loses its entry when it asks for the address of an idle one. -/
theorem handleRequest_moves (alloc : Bool) (h : HeldAlone s.clients q.macAddr my)
    (htype : q.msgType = dhcpMsgDiscover ∨ q.msgType = dhcpMsgRequest) {k : Fin 8} (hk : k ≠ my)
    (hip : (s.clients k).ipAddr = q.reqIpAddr) :
    ((handleRequest s alloc q).1.clients my).state = .idle := by
  have hscan := scanClients_spec s.clients q.macAddr q.reqIpAddr
  obtain ⟨hmy, hun⟩ := h.scan q.reqIpAddr
  obtain ⟨hdiscover, hrequest⟩ := lookupBranch_cases s q
  -- only what the pointers of the scan mean is used from here on
  generalize scanClients s.clients q.macAddr q.reqIpAddr = r at hscan hmy hun hdiscover hrequest
  obtain ⟨req, hreq⟩ : ∃ req, r.reqClient = some req := by
    cases hc : r.reqClient with
    | none => exact absurd hip (hscan.req_none hc k (List.mem_finRange k) (h.idle k hk))
    | some req => exact ⟨req, rfl⟩
  have hidle := (hscan.req_some req hreq).1
  have hne : my ≠ req := fun heq => h.own.1 (heq ▸ hidle)
  rcases htype with ht | ht
  -- DISCOVER: the entry is dropped and the idle one offered
  · have hb := hdiscover ht
    unfold lookupDiscover at hb
    simp only [hmy, hreq] at hb
    rw [handleRequest_offer alloc hb (by simp [Function.update_of_ne hne.symm, hidle]) ht]
    simp [offered, Function.update_of_ne hne, dropClient]
  · have hb := hrequest ht
    unfold lookupRequest at hb
    simp only [hmy, hreq, hun] at hb
    -- REQUEST: bound to the idle entry, or refused if it selects another server
    by_cases hacc : serverAccepted s q = true
    · rw [hacc] at hb
      replace hb : lookupBranch s q = (dropped s.clients my, some req) := hb
      rw [handleRequest_bind alloc hb
        (by simp [dropped, Function.update_of_ne hne.symm, hidle]) ht]
      simp [bound, cleanClientHistory, Function.update_of_ne hne, dropped, dropClient]
      split_ifs <;> rfl
    · rw [if_neg (by simp), if_neg hacc] at hb
      rw [(handleRequest_none alloc hb).1]
      simp [dropClient]

/-- The client keeps its entry when no idle one has the address. -/
theorem handleRequest_stays (alloc : Bool) (h : HeldAlone s.clients q.macAddr my)
    (htype : q.msgType = dhcpMsgDiscover ∨ q.msgType = dhcpMsgRequest)
    (hip : ∀ k, (s.clients k).ipAddr ≠ q.reqIpAddr) :
    ((handleRequest s alloc q).1.clients my).state ≠ .idle := by
  have hscan := scanClients_spec s.clients q.macAddr q.reqIpAddr
  obtain ⟨hmy, hun⟩ := h.scan q.reqIpAddr
  obtain ⟨hdiscover, hrequest⟩ := lookupBranch_cases s q
  generalize scanClients s.clients q.macAddr q.reqIpAddr = r at hscan hmy hun hdiscover hrequest
  have hreq : r.reqClient = none := by
    cases hc : r.reqClient with
    | none => rfl
    | some k => exact absurd (hscan.req_some k hc).2 (hip k)
  rcases htype with ht | ht
  · have hb := hdiscover ht
    unfold lookupDiscover at hb
    simp only [hmy, hreq] at hb
    rw [handleRequest_offer alloc hb (by simp) ht]
    simp [offered]
  · have hb := hrequest ht
    unfold lookupRequest at hb
    simp only [hmy, hreq, hun] at hb
    by_cases hacc : serverAccepted s q = true
    · rw [if_neg (by simp), if_pos hacc] at hb
      rw [handleRequest_bind alloc hb h.not_select ht]
      simp [bound_self]
    · rw [if_neg (by simp), if_neg hacc] at hb
      rw [(handleRequest_none alloc hb).1]
      exact h.own.1

/-- A REQUEST of the client is answered by a NAK exactly when it selects another server. -/
theorem handleRequest_selects (h : HeldAlone s.clients q.macAddr my)
    (htype : q.msgType = dhcpMsgRequest) :
    (∃ alloc r, (handleRequest s alloc q).2 = some r ∧ r.msgType = dhcpMsgNak) ↔
      serverAccepted s q = false := by
  have hb := (lookupBranch_cases s q).2 htype
  obtain ⟨hmy, hun⟩ := h.scan q.reqIpAddr
  have hnone : (lookupBranch s q).2 = none ↔ serverAccepted s q = false := by
    rw [hb, lookupRequest, hmy, hun]
    cases (scanClients s.clients q.macAddr q.reqIpAddr).reqClient <;>
      cases serverAccepted s q <;> simp
  rw [handleRequest_nak_iff, hnone, htype]
  exact ⟨fun hc => hc.1, fun hc => ⟨hc, by decide, by decide⟩⟩

end Held

/-! ### Reaching such a server -/

/-- A correct header, and zeros behind it. -/
def headerBytes : Memory := fun p =>
  ((requiredBytes.find? fun r => r.1 = p).map Prod.snd).getD 0

/-- The header passes the filter. -/
theorem headerBytes_required : ∀ r ∈ requiredBytes, headerBytes r.1 = r.2 := by decide

/-- A correct header with one option behind it: a message of type `t` at `q`. -/
def typeBytes (q : ℕ) (t : UInt8) : Memory := fun p =>
  if p = q then dhcpOptionIdMsgType
  else if p = q + 1 then 1
  else if p = q + 2 then t
  else if p = q + 3 then dhcpOptionIdEnd
  else headerBytes p

/-- Behind the header it has zeros. -/
theorem headerBytes_behind {p : ℕ} (hp : offOptions ≤ p) : headerBytes p = 0 := by
  have hfind : requiredBytes.find? (fun r => r.1 = p) = none := by
    rw [List.find?_eq_none]
    intro r hr
    have hless : ∀ r ∈ requiredBytes, r.1 < offOptions := by decide
    have hlt := hless r hr
    simp only [decide_eq_true_eq]
    omega
  rw [headerBytes, hfind]
  rfl

/-- In front of the type option there is the header. -/
theorem typeBytes_before {q p : ℕ} (t : UInt8) (hp : p < q) : typeBytes q t p = headerBytes p := by
  unfold typeBytes
  rw [if_neg (by omega), if_neg (by omega), if_neg (by omega), if_neg (by omega)]

/-- The type option, and the end behind it. -/
theorem typeBytes_option (q : ℕ) (t : UInt8) : typeBytes q t q = dhcpOptionIdMsgType ∧
    typeBytes q t (q + 1) = 1 ∧ typeBytes q t (q + 2) = t ∧
    typeBytes q t (q + 3) = dhcpOptionIdEnd := by
  simp [typeBytes]

/-- A full buffer with a DISCOVER of client `mac`. -/
def discoverBytes (mac : Mac) : Memory := fun p =>
  if h : offChaddr ≤ p ∧ p < offChaddr + 6 then mac[p - offChaddr]
  else typeBytes offOptions dhcpMsgDiscover p

/-- A payload as long as the buffer replaces all of it. -/
theorem overlay_full (m old : Memory) {p : ℕ} (hp : p < sizeofDhcpMsg) :
    overlay (loadBytes m 0 sizeofDhcpMsg) old p = m p := by
  have hrec : Received (loadBytes m 0 sizeofDhcpMsg) p := ⟨by rwa [length_loadBytes], hp⟩
  have hbyte : (loadBytes m 0 sizeofDhcpMsg)[p]?
      = some (overlay (loadBytes m 0 sizeofDhcpMsg) old p) := overlay_of_received hrec
  rw [List.getElem?_eq_getElem hrec.1, getElem_loadBytes, Nat.zero_add] at hbyte
  exact (Option.some.inj hbyte).symm

/-- The server reads the DISCOVER. -/
theorem decodeOver_discover (mac : Mac) (old : Memory) :
    ∃ q, decodeOver (loadBytes (discoverBytes mac) 0 sizeofDhcpMsg) old = some q ∧
      q.msgType = dhcpMsgDiscover ∧ q.macAddr = mac := by
  obtain ⟨m, hm⟩ : ∃ m, m = overlay (loadBytes (discoverBytes mac) 0 sizeofDhcpMsg) old :=
    ⟨_, rfl⟩
  have hbyte : ∀ p, p < sizeofDhcpMsg → m p = discoverBytes mac p := fun p hp => by
    rw [hm, overlay_full (discoverBytes mac) old hp]
  -- outside the hardware address the buffer is the header with one option
  have hrest : ∀ p, p < sizeofDhcpMsg → ¬ (offChaddr ≤ p ∧ p < offChaddr + 6) →
      m p = typeBytes offOptions dhcpMsgDiscover p := fun p hp hout => by
    rw [hbyte p hp, discoverBytes, dif_neg hout]
  have hrequired : ∀ r ∈ requiredBytes, m r.1 = r.2 := by
    intro r hr
    have hplace : ∀ r ∈ requiredBytes, r.1 < sizeofDhcpMsg ∧
        ¬ (offChaddr ≤ r.1 ∧ r.1 < offChaddr + 6) ∧
        typeBytes offOptions dhcpMsgDiscover r.1 = r.2 := by decide
    obtain ⟨hlt, hout, hvalue⟩ := hplace r hr
    rw [hrest r.1 hlt hout, hvalue]
  -- the option loop reads the type and stops at the end option
  have hparse : parseDhcpOptions m = ⟨dhcpMsgDiscover, 0, 0, 0x01⟩ := by
    have h0 : m offOptions = dhcpOptionIdMsgType := hrest _ (by decide) (by decide)
    have h1 : m (offOptions + 1) = 1 := hrest _ (by decide) (by decide)
    have h2 : m (offOptions + 2) = dhcpMsgDiscover := hrest _ (by decide) (by decide)
    have h3 : m (offOptions + 3) = dhcpOptionIdEnd := hrest _ (by decide) (by decide)
    have hstep : parseDhcpOption m offOptions ⟨0xff, 0, 0, 0⟩
        = (offOptions + 3, ⟨dhcpMsgDiscover, 0, 0, 0x01⟩) := by
      rw [parseDhcpOption, h0, h1, h2]
      rfl
    rw [parseDhcpOptions, show sizeofDhcpMsg - offOptions = 306 + 1 + 1 from rfl, parseDhcpLoop,
      if_pos ⟨by rw [h0]; decide, by decide⟩, hstep, parseDhcpLoop, if_neg fun hc => hc.1 h3]
  refine ⟨⟨dhcpMsgDiscover, 0, 0, ntohl (.ofNat (load32 m offXid)), mac⟩, ?_, rfl, rfl⟩
  have hmac : (Vector.ofFn fun i : Fin 6 => m (offChaddr + i)) = mac := by
    apply Vector.ext
    intro i hi
    have hin : offChaddr ≤ offChaddr + i ∧ offChaddr + i < offChaddr + 6 := by omega
    rw [Vector.getElem_ofFn, hbyte _ (by unfold offChaddr sizeofDhcpMsg; omega), discoverBytes,
      dif_pos hin]
    congr 1
    show offChaddr + i - offChaddr = i
    omega
  have hlen : (pbufCopyPartial (loadBytes (discoverBytes mac) 0 sizeofDhcpMsg) old
      sizeofDhcpMsg).1 ≠ 0 := by
    show min (loadBytes (discoverBytes mac) 0 sizeofDhcpMsg).length sizeofDhcpMsg ≠ 0
    rw [length_loadBytes]
    decide
  rw [decodeOver, decodeRequest_eq, ← hm, if_pos ⟨hlen, hrequired⟩, requestOf, hparse,
    if_neg (by decide), hmac]

/-- A DISCOVER to an idle table is answered by an offer. -/
theorem handleRequest_first {s : DhcpServer} {q : DhcpRequest} (alloc : Bool)
    (hidle : ∀ i, (s.clients i).state = .idle) (htype : q.msgType = dhcpMsgDiscover) :
    ∃ i, (handleRequest s alloc q).1 = { s with clients := offered s.clients i q.macAddr } := by
  have hb := (lookupBranch_cases s q).1 htype
  have hscan := scanClients_spec s.clients q.macAddr q.reqIpAddr
  have hsome : (lookupBranch s q).2 ≠ none := fun hc =>
    (((lookupBranch_discover htype).mp hc) 0).1 (hidle 0)
  have hmy : (scanClients s.clients q.macAddr q.reqIpAddr).myClient = none := by
    cases hc : (scanClients s.clients q.macAddr q.reqIpAddr).myClient with
    | none => rfl
    | some i => exact absurd (hidle i) (hscan.my_some i hc).1
  obtain ⟨i, hi⟩ := Option.ne_none_iff_exists'.mp hsome
  have hpair : lookupBranch s q = (s.clients, some i) := by
    refine Prod.ext ?_ hi
    rw [hb, lookupDiscover, hmy]
  refine ⟨i, ?_⟩
  rw [handleRequest_offer alloc hpair (hidle i) htype]

/-- One more event. -/
theorem Reached.step {s : Dhcp} (h : Reached s) (e : DhcpEvent) : Reached (dhcpStep s e).1 := by
  obtain ⟨s₀, es, hs₀, rfl⟩ := h
  exact ⟨s₀, es ++ [e], hs₀, by rw [trace_append]; rfl⟩

/-- **Any bytes can be left in the buffer**, but for the first one, without a change of the
    server: by a packet that is not a request. -/
theorem Reached.stale {s : Dhcp} (h : Reached s) (m : Memory) :
    ∃ s', Reached s' ∧ s'.server = s.server ∧ ∀ p, 0 < p → p < sizeofDhcpMsg → s'.msg p = m p := by
  obtain ⟨junk, hfirst, hrest⟩ : ∃ junk : Memory, junk 0 = dhcpOpReply ∧
      ∀ p, 0 < p → junk p = m p :=
    ⟨fun p => if p = 0 then dhcpOpReply else m p, rfl, fun p hp => if_neg (by omega)⟩
  obtain ⟨payload, hpayload⟩ : ∃ payload, payload = loadBytes junk 0 sizeofDhcpMsg := ⟨_, rfl⟩
  have hover : ∀ (old : Memory) {p : ℕ}, p < sizeofDhcpMsg → overlay payload old p = junk p :=
    fun old p hp => by rw [hpayload, overlay_full junk old hp]
  have hnone : receivedRequest s payload (fun _ => 0) = none := by
    rw [receivedRequest_eq, decodeOver, decodeRequest_eq, if_neg]
    rintro ⟨-, hall⟩
    have h0 := hall (0, dhcpOpRequest) (by decide)
    rw [hover _ (by decide), hfirst] at h0
    exact absurd h0 (by decide)
  refine ⟨_, h.step (.recv payload (fun _ => 0) true), (dhcpsRecvCb_none true hnone).1, ?_⟩
  intro p hpos hp
  have hmsg : (dhcpsRecvCb s payload (fun _ => 0) true).1.msg
      = overlay payload (oldBytes s fun _ => 0) := by
    unfold dhcpsRecvCb
    rw [hnone]
    rfl
  show (dhcpsRecvCb s payload (fun _ => 0) true).1.msg p = m p
  rw [hmsg, hover _ hp, hrest p hpos]

/-- With a socket, a start on an interface that is up succeeds. -/
theorem dhcpsStart_success {netif : Netif} {old s : DhcpServer} {err : ℤ} (hup : netif.up = true)
    (h : dhcpsStart netif true old = some (s, err)) :
    err = dhcpsErrSuccess ∧ s.serverIpAddr = netif.ipAddr := by
  unfold dhcpsStart at h
  rw [if_neg (by simp [hup])] at h
  dsimp only at h
  by_cases hmask : ~~~ntohl netif.netmask = 0
  · rw [if_pos hmask] at h
    cases h
  · rw [if_neg hmask, if_neg (by simp), Option.some.injEq, Prod.mk.injEq] at h
    exact ⟨h.2.symm, by rw [← h.1]⟩

/-- Where the server can be: at the address with the bytes of `m` at `p`, if the last one is 1. -/
theorem exists_held {m : Memory} {p : ℕ} (hlast : m (p + 3) = 1) (mac : Mac) :
    ∃ s, Reached s ∧ s.server.serverIpAddr = .ofNat (load32 m p) ∧
      ∃ my, HeldAlone s.server.clients mac my ∧
        ∀ k m', (∀ i < 3, m' (p + i) = m (p + i)) →
          ((s.server.clients k).ipAddr = .ofNat (load32 m' p) ↔ (m' (p + 3)).toNat = k + 2) := by
  have hhost := hostNumber_ntohl_load32 m p
  rw [hlast] at hhost
  have hup : (⟨true, .ofNat (load32 m p), ntohl (prefixMask 24)⟩ : Netif).up = true := rfl
  obtain ⟨server, err, hstart, hclients⟩ := dhcpsStart_clients hup (by decide : 1 ≤ 24) (by decide)
    (ntohl_ntohl _) true clearedServer
  have hok := dhcpsStart_success rfl hstart
  rw [hok.1] at hstart
  -- the first client of the fresh server is `mac`
  have hstarted : DhcpStarted ⟨server, fun _ => 0⟩ := ⟨_, _, _, hstart⟩
  have hreached : Reached ⟨server, fun _ => 0⟩ := ⟨_, [], hstarted, rfl⟩
  have hidle : ∀ i, (server.clients i).state = .idle := fun i => (hstarted.initial.2 i).1
  obtain ⟨payload, hdecode⟩ : ∃ payload, ∀ old, ∃ q, decodeOver payload old = some q ∧
      q.msgType = dhcpMsgDiscover ∧ q.macAddr = mac := ⟨_, decodeOver_discover mac⟩
  obtain ⟨q, hq, htype, hmac⟩ := hdecode (oldBytes ⟨server, fun _ => 0⟩ fun _ => 0)
  obtain ⟨my, hmy⟩ := handleRequest_first (s := server) true hidle htype
  have hserver := (dhcpsRecvCb_some (s := ⟨server, fun _ => 0⟩) true hq).1
  have haddr := (dhcpStep_tableInv (s := ⟨server, fun _ => 0⟩)
    (.recv payload (fun _ => 0) true) hstarted.tableInv).2.1
  rw [hmy, hmac] at hserver
  refine ⟨_, hreached.step (.recv payload (fun _ => 0) true), ?_, my, ?_, ?_⟩
  · show (dhcpsRecvCb ⟨server, fun _ => 0⟩ _ _ true).1.server.serverIpAddr = _
    rw [hserver]
    exact hok.2
  · show HeldAlone (dhcpsRecvCb ⟨server, fun _ => 0⟩ _ _ true).1.server.clients mac my
    rw [hserver]
    refine ⟨⟨?_, ?_⟩, ?_, fun j hj => ?_⟩
    · simp [offered]
    · simp [offered]
    · simp [offered]
    · simp [offered, Function.update_of_ne hj, hidle]
  · intro k m' hbytes
    rw [haddr k]
    obtain ⟨hnet, hnumber⟩ := hclients k
    rw [hhost] at hnumber
    have hpool : ∀ k : Fin 8, poolHost (2 ^ (32 - 24) - 1) (1 : UInt8).toNat k = k + 2 := by
      decide
    rw [hpool k] at hnumber
    have hsubnet := subnet_ntohl_load32 hbytes
    constructor
    · intro heq
      rw [← hnumber, heq, hostNumber_ntohl_load32]
    · intro hlast'
      refine ntohl_inj (eq_of_subnet_of_hostNumber (hnet.trans hsubnet.symm) ?_)
      rw [hnumber, hostNumber_ntohl_load32, hlast']

/-! ### Bytes that were not received decide -/

section Stale

variable {payload : List UInt8}

/-- Only the bytes that were not received depend on the old contents. -/
theorem decodeOver_congr {old old' : Memory} (h : ∀ p, ¬ Received payload p → old p = old' p) :
    decodeOver payload old = decodeOver payload old' := by
  have hsame : overlay payload old = overlay payload old' := by
    funext p
    by_cases hp : Received payload p
    · exact overlay_congr old old' hp
    · rw [overlay_of_not_received hp, overlay_of_not_received hp, h p hp]
  unfold decodeOver
  rw [hsame]
  rfl

/-- A payload that is judged by its own bytes is judged alike over any two contents. -/
theorem JudgedByOwnBytes.judge_eq (h : JudgedByOwnBytes payload) (hne : payload ≠ []) {s : Dhcp}
    (hs : Reached s) (old old' : Memory) (alloc : Bool) :
    judge s.server alloc (decodeOver payload old)
      = judge s.server alloc (decodeOver payload old') := by
  have hfirst : Received payload 0 := ⟨List.length_pos_iff.mpr hne, by decide⟩
  have hover : ∀ {s' : Dhcp} {m : Memory}, (∀ p, 0 < p → p < sizeofDhcpMsg → s'.msg p = m p) →
      decodeOver payload (oldBytes s' m) = decodeOver payload m := by
    intro s' m hmsg
    apply decodeOver_congr
    intro p hp
    have hpos : 0 < p := Nat.pos_of_ne_zero fun h0 => hp (h0 ▸ hfirst)
    unfold oldBytes
    split
    · exact hmsg p hpos ‹_›
    · rfl
  obtain ⟨s₁, hs₁, hserver₁, hmsg₁⟩ := hs.stale old
  obtain ⟨s₂, hs₂, hserver₂, hmsg₂⟩ := hs.stale old'
  obtain ⟨heq, hreply⟩ := h s₁ s₂ hs₁ hs₂ (hserver₁.trans hserver₂.symm) old old' alloc
  rw [← hover hmsg₁, ← hover hmsg₂, ← hserver₁, ← dhcpsRecvCb_judge, hserver₁, ← hserver₂,
    ← dhcpsRecvCb_judge, heq, hreply]

/-- A type that the old contents can choose is not judged by the payload's own bytes. -/
theorem nak_of_unknown (hne : payload ≠ []) (old : UInt8 → Memory)
    (htype : ∀ t, ∃ q, decodeOver payload (old t) = some q ∧ q.msgType = t) :
    ¬ JudgedByOwnBytes payload := by
  intro h
  obtain ⟨q, hq, hinform⟩ := htype dhcpInform
  obtain ⟨q', hq', hrelease⟩ := htype dhcpMsgRelease
  have hreached : Reached sampleDhcp := ⟨sampleDhcp, [], sampleDhcp_started, rfl⟩
  have hnak := handleRequest_nak_iff sampleDhcp.server q
  have hnak' := handleRequest_nak_iff sampleDhcp.server q'
  have hnone : (lookupBranch sampleDhcp.server q).2 = none :=
    lookupBranch_other (by rw [hinform]; decide) (by rw [hinform]; decide)
  rw [hinform] at hnak
  obtain ⟨alloc, r, hr, hrtype⟩ := hnak.mpr ⟨hnone, by decide, by decide⟩
  have heq := h.judge_eq hne hreached (old dhcpInform) (old dhcpMsgRelease) alloc
  rw [hq, hq'] at heq
  replace heq : handleRequest sampleDhcp.server alloc q
      = handleRequest sampleDhcp.server alloc q' := heq
  exact (hnak'.mp ⟨alloc, r, by rw [← heq, hr], hrtype⟩).2.1 hrelease

/-- Zeros but for one byte. -/
def oneByte (p : ℕ) (b : UInt8) : Memory := fun x => if x = p then b else 0

/-- A byte that was not received is the old one. -/
theorem overlay_oneByte {p : ℕ} (b : UInt8) (hp : ¬ Received payload p) :
    overlay payload (oneByte p b) p = b := by
  rw [overlay_of_not_received hp, oneByte, if_pos rfl]

/-- All other bytes do not depend on it. -/
theorem overlay_oneByte_of_ne {p x : ℕ} (b b' : UInt8) (hx : x ≠ p) :
    overlay payload (oneByte p b) x = overlay payload (oneByte p b') x := by
  by_cases hrec : Received payload x
  · exact overlay_congr _ _ hrec
  · rw [overlay_of_not_received hrec, overlay_of_not_received hrec, oneByte, if_neg hx, oneByte,
      if_neg hx]

/-- The old contents choose the type if the options can be continued. -/
theorem decodeOver_stale (hrefused : ¬ RefusedByOwnBytes payload)
    (ho : ownOptions payload (sizeofDhcpMsg - offOptions) offOptions .empty = none) :
    ∃ q, ∀ t, ∃ r, decodeOver payload (typeBytes q t) = some r ∧ r.msgType = t := by
  obtain ⟨q, hq, hlen, hlt, hall⟩ := parseDhcpLoop_stale payload _ _ _ (by decide) ho
  refine ⟨q, fun t => ?_⟩
  obtain ⟨h0, h1, h2, h3⟩ := typeBytes_option q t
  have hout : ∀ x, payload.length ≤ x → overlay payload (typeBytes q t) x = typeBytes q t x :=
    fun x hx => overlay_of_not_received fun hc => absurd hc.1 (not_lt.mpr hx)
  obtain ⟨v, hv⟩ := hall (overlay payload (typeBytes q t)) (holdsPayload_overlay payload _)
    (fun x hx hxq hxl => by rw [hout x hxl, typeBytes_before t hxq, headerBytes_behind hx])
    (by rw [hout q hlen, h0]) (by rw [hout _ (by omega), h1]) (by rw [hout _ (by omega), h3])
    ⟨0xff, 0, 0, 0⟩
  have hparse : parseDhcpOptions (overlay payload (typeBytes q t))
      = { v with msgType := t, ret := v.ret ||| 0x01 } := by
    rw [hout (q + 2) (by omega), h2] at hv
    exact hv
  have hdecode : decodeOver payload (typeBytes q t) = _ :=
    decodeOver_passed hrefused fun r hr _ => by
    have hless : ∀ r ∈ requiredBytes, r.1 < offOptions := by decide
    rw [typeBytes_before t (lt_of_lt_of_le (hless r hr) hq), headerBytes_required r hr]
  have hflag : ¬ (v.ret ||| 0x01) &&& 0x01 = 0 := by
    rw [← UInt8.toNat_inj, UInt8.toNat_and, UInt8.toNat_or]
    intro hc
    have hbit := congrArg (Nat.testBit · 0) hc
    simp at hbit
  rw [hdecode, hparse, requestOf, if_neg hflag]
  exact ⟨_, rfl, rfl⟩

/-- A missing byte of the address asked for is not judged by the payload's own bytes. -/
theorem reqIpAddr_received (hrefused : ¬ RefusedByOwnBytes payload) {o : OptionPlaces}
    (ho : ownOptions payload (sizeofDhcpMsg - offOptions) offOptions .empty = some o) {p : ℕ}
    (hp : o.msgType = some p) (hrec : Received payload p)
    (htype : payload[p]? = some dhcpMsgDiscover ∨ payload[p]? = some dhcpMsgRequest)
    (h : JudgedByOwnBytes payload) : WordReceived payload o.reqIpAddr := by
  intro y hy
  by_contra hout
  have hy' : o.reqIpAddr = some y := hy
  have hne : payload ≠ [] := fun hc => hrefused (.inl hc)
  -- the client of the message holds an entry, and asks for another one or the server's address
  obtain ⟨s, hs, -, my, hheld, hpool⟩ := exists_held (m := overlay payload (oneByte (y + 3) 1))
    (overlay_oneByte 1 hout) (requestAt o p (overlay payload (oneByte (y + 3) 1))).macAddr
  obtain ⟨k, hk⟩ : ∃ k : Fin 8, k ≠ my := exists_ne my
  have hlast : ∀ b, overlay payload (oneByte (y + 3) b) (y + 3) = b := fun b =>
    overlay_oneByte b hout
  have hagree : ∀ b, ∀ i < 3, overlay payload (oneByte (y + 3) b) (y + i)
      = overlay payload (oneByte (y + 3) 1) (y + i) := fun b i hi =>
    overlay_oneByte_of_ne b 1 (by omega)
  have heq := h.judge_eq hne hs (oneByte (y + 3) 1) (oneByte (y + 3) (.ofNat (k + 2))) true
  rw [decodeOver_own hrefused ho, decodeOver_own hrefused ho, hp] at heq
  have hreq : ∀ b, (requestAt o p (overlay payload (oneByte (y + 3) b))).reqIpAddr
      = .ofNat (load32 (overlay payload (oneByte (y + 3) b)) y) := fun b => by
    unfold requestAt
    rw [hy']
    rfl
  have htype' : ∀ b, (requestAt o p (overlay payload (oneByte (y + 3) b))).msgType
        = dhcpMsgDiscover ∨
      (requestAt o p (overlay payload (oneByte (y + 3) b))).msgType = dhcpMsgRequest := fun b => by
    show overlay payload _ p = _ ∨ overlay payload _ p = _
    rw [overlay_eq_iff _ hrec, overlay_eq_iff _ hrec]
    exact htype
  have hstays := handleRequest_stays true hheld (htype' 1) fun j hj => by
    rw [hreq 1, hpool j _ (hagree 1), hlast 1] at hj
    exact absurd hj (by have := j.isLt; show 1 ≠ j.val + 2; omega)
  have hmoves := handleRequest_moves
    (q := requestAt o p (overlay payload (oneByte (y + 3) (.ofNat (k + 2))))) true
    (by rw [requestAt_macAddr ho _ (oneByte (y + 3) 1) p p]; exact hheld) (htype' _) hk (by
      rw [hreq, hpool k _ (hagree _), hlast, UInt8.toNat_ofNat_of_lt']
      have := k.isLt
      show k.val + 2 < 256
      omega)
  apply hstays
  rw [← hmoves]
  exact congrArg (fun r : DhcpServer × Option DhcpReply => (r.1.clients my).state) heq

/-- A missing byte of the server id is not judged by the payload's own bytes. -/
theorem serverId_received (hrefused : ¬ RefusedByOwnBytes payload) {o : OptionPlaces}
    (ho : ownOptions payload (sizeofDhcpMsg - offOptions) offOptions .empty = some o) {p : ℕ}
    (hp : o.msgType = some p) (hrec : Received payload p)
    (htype : payload[p]? = some dhcpMsgRequest) (h : JudgedByOwnBytes payload) :
    WordReceived payload o.serverId := by
  intro y hy
  by_contra hout
  have hy' : o.serverId = some y := hy
  have hne : payload ≠ [] := fun hc => hrefused (.inl hc)
  -- the client of the message holds an entry, and names the server or its neighbour
  obtain ⟨s, hs, hip, my, hheld, -⟩ := exists_held (m := overlay payload (oneByte (y + 3) 1))
    (overlay_oneByte 1 hout) (requestAt o p (overlay payload (oneByte (y + 3) 1))).macAddr
  have hsid : ∀ b, (requestAt o p (overlay payload (oneByte (y + 3) b))).serverId
      = .ofNat (load32 (overlay payload (oneByte (y + 3) b)) y) := fun b => by
    unfold requestAt
    rw [hy']
    rfl
  have hhost : ∀ b, hostNumber (prefixMask 24)
      (ntohl (requestAt o p (overlay payload (oneByte (y + 3) b))).serverId) = b.toNat := fun b => by
    rw [hsid, hostNumber_ntohl_load32, overlay_oneByte b hout]
  have htype' : ∀ b, (requestAt o p (overlay payload (oneByte (y + 3) b))).msgType
      = dhcpMsgRequest := fun b => by
    show overlay payload _ p = _
    rw [overlay_eq_iff _ hrec]
    exact htype
  have hown := handleRequest_selects hheld (htype' 1)
  have hother := handleRequest_selects
    (q := requestAt o p (overlay payload (oneByte (y + 3) 2)))
    (by rw [requestAt_macAddr ho _ (oneByte (y + 3) 1) p p]; exact hheld) (htype' 2)
  have hforeign : serverAccepted s.server (requestAt o p (overlay payload (oneByte (y + 3) 2)))
      = false := by
    have h2 := hhost 2
    refine decide_eq_false (not_or.mpr ⟨fun hc => ?_, fun hc => ?_⟩)
    · rw [hc] at h2
      exact absurd h2 (by decide)
    · rw [← hc, hip, ← hsid, hhost 1] at h2
      exact absurd h2 (by decide)
  have haccepted : serverAccepted s.server (requestAt o p (overlay payload (oneByte (y + 3) 1)))
      = true := by
    refine decide_eq_true (.inr ?_)
    rw [hip, hsid]
  obtain ⟨alloc, r, hr, hnak⟩ := hother.mpr hforeign
  have heq := h.judge_eq hne hs (oneByte (y + 3) 1) (oneByte (y + 3) 2) alloc
  rw [decodeOver_own hrefused ho, decodeOver_own hrefused ho, hp] at heq
  have hrefuses := hown.mp ⟨alloc, r, by
    rw [← hr]
    exact congrArg Prod.snd heq, hnak⟩
  rw [haccepted] at hrefuses
  cases hrefuses

end Stale

/-- **When a packet is judged by its own bytes**: after any two histories that lead to the same
    table and configuration a payload has the same effect exactly when the bytes that were received
    refuse it, or the walk over its options ends within them and the values that matter were
    received. -/
theorem judged_by_own_bytes_iff (payload : List UInt8) :
    JudgedByOwnBytes payload ↔ RefusedByOwnBytes payload ∨ OptionsReceived payload := by
  constructor
  · intro h
    by_cases hrefused : RefusedByOwnBytes payload
    · exact .inl hrefused
    refine .inr ?_
    have hne : payload ≠ [] := fun hc => hrefused (.inl hc)
    cases ho : ownOptions payload (sizeofDhcpMsg - offOptions) offOptions .empty with
    | none =>
      obtain ⟨q, hq⟩ := decodeOver_stale hrefused ho
      exact absurd h (nak_of_unknown hne (typeBytes q) hq)
    | some o =>
      refine ⟨o, ho, fun p hp => ?_⟩
      by_cases hrec : Received payload p
      · have hsome : payload[p]? = some (overlay payload (oneByte p 0) p) :=
          overlay_of_received hrec
        refine ⟨hrec.2, _, hsome, fun ht => ?_, fun ht => ?_⟩
        · exact reqIpAddr_received hrefused ho hp hrec
            (ht.imp (hsome.trans ∘ congrArg some) (hsome.trans ∘ congrArg some)) h
        · exact serverId_received hrefused ho hp hrec (hsome.trans (congrArg some ht)) h
      · refine absurd h (nak_of_unknown hne (oneByte p) fun t => ?_)
        refine ⟨requestAt o p (overlay payload (oneByte p t)), ?_, overlay_oneByte t hrec⟩
        rw [decodeOver_own hrefused ho, show o.msgType = some p from hp]
        rfl
  · intro h s s' _ _ hserver beyond beyond' alloc
    have hj := dhcpsRecvCb_judge s payload beyond alloc
    have hj' := dhcpsRecvCb_judge s' payload beyond' alloc
    rw [hserver, judge_decodeOver h _ (oldBytes s' beyond'), ← hj', Prod.mk.injEq] at hj
    exact hj

/-- In pads there are no options. -/
theorem parseDhcpLoop_pads {m : Memory} (fuel : ℕ) (o : DhcpOptions) {p : ℕ}
    (hpads : ∀ x, p ≤ x → m x = dhcpOptionIdPad) : parseDhcpLoop m fuel p o = o := by
  induction fuel generalizing p with
  | zero => rfl
  | succ fuel ih =>
    rw [parseDhcpLoop, parseDhcpOption, if_pos (hpads p le_rfl)]
    split
    · exact ih fun x hx => hpads x (Nat.le_of_succ_le hx)
    · rfl

/-- The header of a client's message, cut off where the options begin. -/
def cutMessage : List UInt8 := (sampleMessage dhcpMsgDiscover sampleMac 0).take 240

/-- The message without options is ignored by a server that has just been started, and answered
    by a NAK after another message that was answered so: it reads the server's own options. -/
theorem cut_message_reads_last_reply : ¬ ∀ payload, JudgedByOwnBytes payload := by
  intro hall
  have hreached : Reached sampleDhcp := ⟨sampleDhcp, [], sampleDhcp_started, rfl⟩
  have hserver : (dhcpStep sampleDhcp (sampleRecv dhcpInform sampleMac 0)).1.server
      = sampleDhcp.server := by
    have hq : receivedRequest sampleDhcp (sampleMessage dhcpInform sampleMac 0) (fun _ => 0)
        = some ⟨dhcpInform, 0, 0, 0, sampleMac⟩ := by
      decide +kernel
    have hb : lookupBranch sampleDhcp.server ⟨dhcpInform, 0, 0, 0, sampleMac⟩
        = (sampleDhcp.server.clients, none) := by
      unfold lookupBranch
      rw [if_neg (by decide), if_neg (by decide), if_neg (by decide), if_neg (by decide)]
    simp only [sampleRecv, dhcpStep]
    rw [(dhcpsRecvCb_some true hq).1, (handleRequest_none true hb).1]
  have hreply := (hall cutMessage sampleDhcp _ hreached
    (hreached.step (sampleRecv dhcpInform sampleMac 0)) hserver.symm (fun _ => 0) (fun _ => 0)
    true).2
  have hignored : (dhcpsRecvCb sampleDhcp cutMessage (fun _ => 0) true).2 = none := by
    refine (dhcpsRecvCb_none true ?_).2
    have hpads : ∀ x, offOptions ≤ x →
        (receivedMsg sampleDhcp cutMessage fun _ => 0).2 x = dhcpOptionIdPad := by
      intro x hx
      have hlength : (cutMessage.take sizeofDhcpMsg).length ≤ offOptions := by decide +kernel
      have hkept : storeBytes (fun p => if p < sizeofDhcpMsg then sampleDhcp.msg p else 0) 0
          (cutMessage.take sizeofDhcpMsg) x = _ := storeBytes_outside _ (.inr (by omega))
      exact hkept.trans (ite_self 0)
    unfold receivedRequest decodeRequest
    rw [parseDhcpOptions, parseDhcpLoop_pads _ _ hpads]
    exact ite_self none
  have hanswered : ((dhcpsRecvCb (dhcpStep sampleDhcp (sampleRecv dhcpInform sampleMac 0)).1
      cutMessage (fun _ => 0) true).2.map DhcpReply.msgType) = some dhcpMsgNak := by
    decide +kernel
  rw [← hreply, hignored] at hanswered
  cases hanswered

end SerialNet
