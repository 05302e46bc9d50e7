import SerialNet.At.StringSettings

namespace SerialNet

/-!
# The credentials that `SoftApConfThread` receives

A packet of 200 bytes brings the name of a network and its password.  The thread copies both into
arrays on its stack, and ends each with a NUL that it stores one byte too far.  A byte of the old
contents stays between text and NUL, and the longest texts push the NUL out of the array
(`credentials_delivered_iff`).
-/

/-! ### The arrays -/

/-- `for (j = 0; j < len; j++) array[j] = text[j]; array[j+1] = '\0';`, the stores from `j` on. -/
def copyStores (j : ℕ) : List UInt8 → List (ℕ × UInt8)
  | [] => [(j + 1, 0)]
  | c :: text => (j, c) :: copyStores (j + 1) text

/-- An array after stores; those behind its end do not change it. -/
def afterStores (array : List UInt8) (stores : List (ℕ × UInt8)) : List UInt8 :=
  stores.foldl (fun array st => array.set st.1 st.2) array

/-- The `strlen(array)` bytes at `array`; `none` if `strlen` reads on behind the array. -/
def stringArg (array : List UInt8) : Option (List UInt8) :=
  if 0 ∈ array then some (stringIn array) else none

/-- `memset(&array, 0, strlen(array))`. -/
def clearStores (arg : Option (List UInt8)) : List (ℕ × UInt8) :=
  match arg with
  | some text => (List.range text.length).map fun j => (j, 0)
  | none => []

/-- `ssid` and `password` on the stack, with whatever they hold. -/
structure SoftApLocals where
  ssid : List UInt8
  password : List UInt8
  ssid_size : ssid.length = 33
  password_size : password.length = 64

/-- What is stored into the two arrays, and what the setters get. -/
structure SoftApJoin where
  ssidStores : List (ℕ × UInt8)
  passwordStores : List (ℕ × UInt8)
  ssidArg : Option (List UInt8)
  passwordArg : Option (List UInt8)

/-- How the thread goes on behind a datagram: with the next one, at `END`, or by joining. -/
inductive SoftApStep where
  | again
  | quit
  | join (r : SoftApJoin)

/-- `recv_data[0]` to `recv_data[7]`. -/
def softApPrefix : List UInt8 := [0, 1, 2, 3, 4, 5, 6, 7]

/-- One turn of the loop of `SoftApConfThread`; a `char` is unsigned. -/
def softApPacket (l : SoftApLocals) (recvData : List UInt8) : SoftApStep :=
  if recvData.length ≠ 200 then .again
  else if recvData.take 8 ≠ softApPrefix then .again
  else
    let ssidLen := (recvData.getD 8 0).toNat
    if ssidLen > 32 ∨ ssidLen = 0 then .quit
    else
      let ssidStores := copyStores 0 ((recvData.drop 9).take ssidLen)
      let passwordLen := (recvData.getD (9 + ssidLen) 0).toNat
      if passwordLen > 64 then .quit
      else
        let passwordStores := copyStores 0 ((recvData.drop (9 + ssidLen + 1)).take passwordLen)
        let ssidArg := stringArg (afterStores l.ssid ssidStores)
        let passwordArg := stringArg (afterStores l.password passwordStores)
        .join {
          -- At `END` the texts are cleared.
          ssidStores := ssidStores ++ clearStores ssidArg
          passwordStores := passwordStores ++ clearStores passwordArg
          ssidArg := ssidArg
          passwordArg := passwordArg }

/-- The loop, as long as the link is up and datagrams arrive. -/
def softApConfThread (l : SoftApLocals) : List (List UInt8) → SoftApStep
  | [] => .again
  | recvData :: datagrams =>
    match softApPacket l recvData with
    | .again => softApConfThread l datagrams
    | step => step

/-- What the calls behind a packet make of `SysParam`. -/
def softApJoin (cfg : CfgParam) (ssid password : List UInt8) : CfgParam :=
  let cfg := infNetModeSet cfg 0
  let cfg := infSsidSet cfg (some ssid)
  let cfg := infKeySet cfg 0 password
  let cfg := infConTryTimesSet cfg 5
  { cfg with wiFiCfg := { cfg.wiFiCfg with encry := 4 } }

/-! ### Packets -/

/-- A packet with a name and a password. -/
structure SoftApPacket where
  ssid : List UInt8
  password : List UInt8
  padding : List UInt8
  ssid_length : ssid.length ≤ 32
  ssid_ne_nil : ssid ≠ []
  ssid_no_nul : 0 ∉ ssid
  password_length : password.length ≤ 64
  password_no_nul : 0 ∉ password
  padding_length : padding.length = 190 - ssid.length - password.length

/-- The 200 bytes. -/
def SoftApPacket.bytes (packet : SoftApPacket) : List UInt8 :=
  softApPrefix ++ .ofNat packet.ssid.length :: packet.ssid ++
    .ofNat packet.password.length :: packet.password ++ packet.padding

/-- A datagram that the loop passes over. -/
def IsSkipped (recvData : List UInt8) : Prop :=
  recvData.length ≠ 200 ∨ recvData.take 8 ≠ softApPrefix

/-- Behind any datagrams that are passed over, the packet is stored inside of the arrays and the
    setters get its texts. -/
def CredentialsDelivered (l : SoftApLocals) (packet : SoftApPacket) : Prop :=
  ∀ skipped : List (List UInt8), (∀ recvData ∈ skipped, IsSkipped recvData) → ∃ r : SoftApJoin,
    softApConfThread l (skipped ++ [packet.bytes]) = .join r ∧
      (∀ st ∈ r.ssidStores, st.1 < 33) ∧ (∀ st ∈ r.passwordStores, st.1 < 64) ∧
      r.ssidArg = some packet.ssid ∧ r.passwordArg = some packet.password

/-! ### Stores -/

variable {array text : List UInt8} {l : SoftApLocals}

/-- The NUL is the last store, and the only one that can leave the array. -/
theorem copyStores_bounds {n : ℕ} (j : ℕ) (text : List UInt8) :
    (∀ st ∈ copyStores j text, st.1 < n) ↔ j + text.length + 1 < n := by
  induction text generalizing j with
  | nil => simp [copyStores]
  | cons c text ih =>
    rw [copyStores, List.forall_mem_cons, ih, List.length_cons]
    show j < n ∧ _ ↔ _
    omega

/-- The copy of a text leaves it in the array, with a NUL one place behind its end. -/
theorem afterStores_copyStores (j : ℕ) (hlength : j + text.length ≤ array.length) :
    afterStores array (copyStores j text) =
      (writeAt array j text).set (j + text.length + 1) 0 := by
  induction text generalizing array j with
  | nil =>
    have hnone : writeAt array j [] = array := by simp [writeAt]
    rw [hnone]
    rfl
  | cons c text ih =>
    rw [List.length_cons] at hlength
    have hnext : writeAt (array.set j c) (j + 1) text = writeAt array j (c :: text) := by
      have htake : (array.set j c).take (j + 1) = array.take j ++ [c] := by
        rw [set_eq_writeAt (by omega)]
        exact @take_writeAt _ array j [c] (by omega)
      rw [writeAt, writeAt, htake, List.drop_set_of_lt (by omega), List.length_cons,
        Nat.add_right_comm, ← Nat.add_assoc]
      simp
    show afterStores (array.set j c) (copyStores (j + 1) text) = _
    rw [ih (j + 1) (by rw [List.length_set]; omega), hnext, List.length_cons]
    congr 1
    omega

/-- With the NUL inside of the array, the text is read back if a 0 was behind it. -/
theorem stringArg_copied_iff (array : List UInt8) (htext : 0 ∉ text)
    (hlength : text.length + 1 < array.length) :
    stringArg (afterStores array (copyStores 0 text)) = some text ↔
      array[text.length]? = some 0 := by
  have hafter : afterStores array (copyStores 0 text) =
      text ++ (array.drop text.length).set 1 0 := by
    rw [afterStores_copyStores 0 (by omega), writeAt_zero, Nat.zero_add,
      List.set_append_right _ _ (Nat.le_succ _), Nat.succ_sub le_rfl, Nat.sub_self]
  have hnul : 0 ∈ afterStores array (copyStores 0 text) := by
    rw [hafter]
    exact List.mem_append_right _ (List.mem_set (by rw [List.length_drop]; omega) _)
  have hhead : ((array.drop text.length).set 1 0).head? = array[text.length]? := by
    rw [List.head?_eq_getElem?, List.getElem?_set_ne one_ne_zero, List.getElem?_drop, Nat.add_zero]
  rw [stringArg, if_pos hnul, hafter, Option.some.injEq, stringIn_append_iff htext, hhead,
    List.getElem?_eq_getElem (by omega)]
  exact ⟨fun h => congrArg some (h _ rfl), fun h c hc => Option.some.inj (hc.symm.trans h)⟩

/-- The stores of a text that fits are inside. -/
theorem clearStores_bounds {n : ℕ} (hlength : text.length ≤ n) :
    ∀ st ∈ clearStores (some text), st.1 < n := by
  intro st hst
  obtain ⟨j, hj, rfl⟩ := List.mem_map.mp hst
  exact (List.mem_range.mp hj).trans_le hlength

/-! ### The packet -/

/-- The fields of a packet one after the other. -/
theorem SoftApPacket.bytes_eq (packet : SoftApPacket) : packet.bytes =
    softApPrefix ++ .ofNat packet.ssid.length ::
      (packet.ssid ++ .ofNat packet.password.length :: (packet.password ++ packet.padding)) := by
  simp [SoftApPacket.bytes]

/-- The thread finds the two texts. -/
theorem softApPacket_bytes (packet : SoftApPacket) :
    let ssidArg := stringArg (afterStores l.ssid (copyStores 0 packet.ssid))
    let passwordArg := stringArg (afterStores l.password (copyStores 0 packet.password))
    softApPacket l packet.bytes = .join {
      ssidStores := copyStores 0 packet.ssid ++ clearStores ssidArg
      passwordStores := copyStores 0 packet.password ++ clearStores passwordArg
      ssidArg := ssidArg
      passwordArg := passwordArg } := by
  intro ssidArg passwordArg
  have hssid := packet.ssid_length
  have hpassword := packet.password_length
  have hne : packet.ssid.length ≠ 0 := fun h => packet.ssid_ne_nil (List.length_eq_zero_iff.mp h)
  have hlength : packet.bytes.length = 200 := by
    have := packet.padding_length
    rw [packet.bytes_eq]
    simp only [softApPrefix, List.length_append, List.length_cons, List.length_nil]
    omega
  have hprefix : packet.bytes.take 8 = softApPrefix := by
    rw [packet.bytes_eq]
    exact List.take_left' rfl
  have hssidLen : (packet.bytes.getD 8 0).toNat = packet.ssid.length := by
    rw [packet.bytes_eq]
    exact UInt8.toNat_ofNat_of_lt' (by show packet.ssid.length < 256; omega)
  have hdrop : packet.bytes.drop 9 = packet.ssid ++
      .ofNat packet.password.length :: (packet.password ++ packet.padding) := by
    rw [packet.bytes_eq]
    rfl
  have hpasswordLen :
      (packet.bytes.getD (9 + packet.ssid.length) 0).toNat = packet.password.length := by
    rw [List.getD_eq_getElem?_getD, ← List.getElem?_drop, hdrop,
      List.getElem?_append_right le_rfl, Nat.sub_self]
    exact UInt8.toNat_ofNat_of_lt' (by show packet.password.length < 256; omega)
  have hdrop' : packet.bytes.drop (9 + packet.ssid.length + 1) =
      packet.password ++ packet.padding := by
    rw [Nat.add_assoc, ← List.drop_drop, hdrop, ← List.drop_drop, List.drop_left]
    rfl
  unfold softApPacket
  rw [if_neg (not_not_intro hlength), if_neg (not_not_intro hprefix)]
  simp only [hssidLen, hpasswordLen]
  rw [if_neg (by omega), if_neg (by omega), hdrop, hdrop', List.take_left, List.take_left]

/-- Datagrams of another kind are passed over. -/
theorem softApConfThread_skipped {skipped : List (List UInt8)} {recvData : List UInt8}
    {r : SoftApJoin} (hskipped : ∀ d ∈ skipped, IsSkipped d)
    (h : softApPacket l recvData = .join r) :
    softApConfThread l (skipped ++ [recvData]) = .join r := by
  induction skipped with
  | nil =>
    rw [List.nil_append, softApConfThread, h]
  | cons d skipped ih =>
    rw [List.forall_mem_cons] at hskipped
    have hagain : softApPacket l d = .again := by
      unfold softApPacket
      by_cases hlength : d.length ≠ 200
      · exact if_pos hlength
      · rw [if_neg hlength]
        exact if_pos (hskipped.1.resolve_left hlength)
    rw [List.cons_append, softApConfThread, hagain]
    exact ih hskipped.2

/-- The setters then store the two texts, so that the readers of `SysParam` find them. -/
theorem softApJoin_strings (p : SizedParam) (packet : SoftApPacket) :
    let r := (softApJoin p.cfg packet.ssid packet.password).strings
    r.ssid = packet.ssid ∧ r.key = packet.password := by
  let p' : SizedParam :=
    ⟨infNetModeSet p.cfg 0, p.ssid_size, p.psk_size, p.dnsName_size⟩
  have hcalls : SameButDns (p'.run _).cfg.strings (p'.cfg.strings.run
      [.ssid packet.ssid packet.ssid_length packet.ssid_ne_nil packet.ssid_no_nul,
        .key 0 packet.password (by decide) packet.password_length]) :=
    SameButDns.run _ ⟨rfl, rfl, rfl⟩
  exact ⟨hcalls.ssid, hcalls.key⟩

/-- **When the credentials arrive.**  For every packet and all contents of the stack: if and only if
    both NULs stay in their arrays, for a name of up to 31 and a password of up to 62 bytes, and the
    bytes behind the two texts were 0 before. -/
theorem credentials_delivered_iff (l : SoftApLocals) (packet : SoftApPacket) :
    CredentialsDelivered l packet ↔
      packet.ssid.length ≤ 31 ∧ packet.password.length ≤ 62 ∧
        l.ssid[packet.ssid.length]? = some 0 ∧
        l.password[packet.password.length]? = some 0 := by
  have hpacket := softApPacket_bytes (l := l) packet
  have hssid := stringArg_copied_iff l.ssid packet.ssid_no_nul
  have hpassword := stringArg_copied_iff l.password packet.password_no_nul
  rw [l.ssid_size] at hssid
  rw [l.password_size] at hpassword
  constructor
  · intro h
    obtain ⟨r, hr, hssidStores, hpasswordStores, hssidArg, hpasswordArg⟩ := h [] (by simp)
    rw [softApConfThread_skipped (by simp) hpacket] at hr
    cases hr
    rw [List.forall_mem_append, copyStores_bounds] at hssidStores hpasswordStores
    have h1 := hssidStores.1
    have h2 := hpasswordStores.1
    exact ⟨by omega, by omega, (hssid (by omega)).mp hssidArg,
      (hpassword (by omega)).mp hpasswordArg⟩
  · rintro ⟨h1, h2, hnul, hnul'⟩ skipped hskipped
    have hssidArg := (hssid (by omega)).mpr hnul
    have hpasswordArg := (hpassword (by omega)).mpr hnul'
    refine ⟨_, softApConfThread_skipped hskipped hpacket, ?_, ?_, hssidArg, hpasswordArg⟩
    · show ∀ st ∈ copyStores 0 packet.ssid ++ clearStores _, st.1 < 33
      rw [hssidArg, List.forall_mem_append, copyStores_bounds]
      exact ⟨by omega, clearStores_bounds (by omega)⟩
    · show ∀ st ∈ copyStores 0 packet.password ++ clearStores _, st.1 < 64
      rw [hpasswordArg, List.forall_mem_append, copyStores_bounds]
      exact ⟨by omega, clearStores_bounds (by omega)⟩

/-- On a stack without zeros the name `a` gets longer. -/
theorem ssid_with_stale_byte : ¬ ∀ l packet, CredentialsDelivered l packet := by
  intro hall
  let l : SoftApLocals :=
    ⟨List.replicate 33 1, List.replicate 64 1, List.length_replicate, List.length_replicate⟩
  let packet : SoftApPacket :=
    ⟨ascii "a", [], List.replicate 189 0, by decide, by decide, by decide, by decide, by decide,
      List.length_replicate⟩
  obtain ⟨r, hr, -, -, hssidArg, -⟩ := hall l packet [] (by simp)
  rw [softApConfThread_skipped (by simp) (softApPacket_bytes packet)] at hr
  cases hr
  have hlonger : stringArg (afterStores l.ssid (copyStores 0 packet.ssid)) = some [97, 1] := by
    decide
  exact absurd (hlonger.symm.trans hssidArg) (by decide)

end SerialNet
