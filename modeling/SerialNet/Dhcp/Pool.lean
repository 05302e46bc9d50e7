import SerialNet.Dhcp.Server
import SerialNet.Lib.Subnet
import Mathlib.Tactic.Push

namespace SerialNet

/-!
# The addresses of the DHCP pool

`DHCPS_Start` fills the table with the host numbers after the server's own, modulo the largest
host number `M` of the subnet and with 1 in place of 0.  So the two host numbers around the
wrap-around, 0 and 1, both become 1, and the pool is well formed exactly when not both of them
occur in it (`dhcpsStart_pool_iff`).
-/

/-- The eight addresses are different ones of the server's subnet, and none is the network
    address, the broadcast address or the server's own. -/
def PoolWellFormed (netif : Netif) (s : DhcpServer) : Prop :=
  let ip := ntohl netif.ipAddr
  let mask := ntohl netif.netmask
  (∀ i j, (s.clients i).ipAddr = (s.clients j).ipAddr → i = j) ∧
    ∀ i, let a := ntohl (s.clients i).ipAddr
      a &&& mask = ip &&& mask ∧ a ≠ ip &&& mask ∧ a ≠ ip ||| ~~~mask ∧ a ≠ ip

/-! ### Host numbers -/

/-- The host number `i` after `h` modulo `M`, with 1 in place of 0. -/
def nextHost (M h i : ℕ) : ℕ := if (h + i) % M ≠ 0 then (h + i) % M else 1

theorem nextHost_eq {M h i : ℕ} (hpos : 0 < h) (hh : h < M) (hi : i < M) :
    nextHost M h i = if h + i < M then h + i else if h + i = M then 1 else h + i - M := by
  unfold nextHost
  by_cases hlt : h + i < M
  · rw [if_pos hlt, Nat.mod_eq_of_lt hlt, if_pos (by omega)]
  · rw [if_neg hlt, Nat.mod_eq_sub_mod (by omega), Nat.mod_eq_of_lt (by omega)]
    split_ifs <;> omega

/-- `hostAfter` in host numbers. -/
theorem hostAfter_spec {p : ℕ} (hp : 1 ≤ p) (hp' : p ≤ 28) (val : UInt32) {offset : UInt32}
    (ho : offset.toNat ≤ 7) :
    hostAfter val (prefixMask p) offset &&& prefixMask p = val &&& prefixMask p ∧
      hostNumber (prefixMask p) (hostAfter val (prefixMask p) offset)
        = nextHost (2 ^ (32 - p) - 1) (hostNumber (prefixMask p) val) offset.toNat := by
  have hlt : 2 ^ (32 - p) ≤ 2 ^ 31 := Nat.pow_le_pow_right (by omega) (by omega)
  have hge : 2 ^ 4 ≤ 2 ^ (32 - p) := Nat.pow_le_pow_right (by omega) (by omega)
  have hM := toNat_not_prefixMask hp
  -- the host number that is put into the subnet
  set x : UInt32 := if ((val &&& ~~~prefixMask p) + offset) % ~~~prefixMask p ≠ 0
    then ((val &&& ~~~prefixMask p) + offset) % ~~~prefixMask p else 1 with hx
  have hle : hostNumber (prefixMask p) val ≤ 2 ^ (32 - p) - 1 := by
    rw [hostNumber, UInt32.toNat_and, hM]
    exact Nat.and_le_right
  have hmod : (((val &&& ~~~prefixMask p) + offset) % ~~~prefixMask p).toNat
      = (hostNumber (prefixMask p) val + offset.toNat) % (2 ^ (32 - p) - 1) := by
    have hsum : hostNumber (prefixMask p) val + offset.toNat < 2 ^ 32 := by omega
    rw [UInt32.toNat_mod, UInt32.toNat_add, hM, ← hostNumber, Nat.mod_eq_of_lt hsum]
  have hnum : x.toNat
      = nextHost (2 ^ (32 - p) - 1) (hostNumber (prefixMask p) val) offset.toNat := by
    have hzero : ((val &&& ~~~prefixMask p) + offset) % ~~~prefixMask p ≠ 0 ↔
        (hostNumber (prefixMask p) val + offset.toNat) % (2 ^ (32 - p) - 1) ≠ 0 := by
      rw [← hmod, Ne, Ne, ← UInt32.toNat_inj]
      rfl
    rw [hx, nextHost]
    by_cases h : ((val &&& ~~~prefixMask p) + offset) % ~~~prefixMask p ≠ 0
    · rw [if_pos h, if_pos (hzero.mp h), hmod]
    · rw [if_neg h, if_neg (fun h' => h (hzero.mpr h'))]
      rfl
  have hxlt : x.toNat < 2 ^ (32 - p) := by
    have hmodlt := Nat.mod_lt (hostNumber (prefixMask p) val + offset.toNat)
      (show 0 < 2 ^ (32 - p) - 1 by omega)
    rw [hnum, nextHost]
    split <;> omega
  have hand := and_prefixMask_eq_zero hp hxlt
  have hval : hostAfter val (prefixMask p) offset = (val &&& prefixMask p) ||| x := rfl
  rw [hval, hostNumber, subnet_and_not hand]
  exact ⟨subnet_and hand, hnum⟩

/-- The wrap-around is inside the pool, with another entry behind it: the server's host number
    is one of the six before the last. -/
def WrapsInside (M h : ℕ) : Prop := M ≤ h + 7 ∧ h + 2 ≤ M

/-- The host number of entry `i`, for a server with host number `h`. -/
def poolHost (M h i : ℕ) : ℕ := nextHost M (nextHost M h 1) i

/-- The host numbers of the pool. -/
theorem poolHost_eq {M h i : ℕ} (hM : 15 ≤ M) (hpos : 0 < h) (hh : h < M) (hi : i < 8) :
    poolHost M h i = if h + 1 = M then i + 1 else if h + 1 + i < M then h + 1 + i
      else if h + 1 + i = M then 1 else h + 1 + i - M := by
  rw [poolHost, nextHost_eq hpos hh (by omega)]
  by_cases hlast : h + 1 = M
  · rw [if_neg (by omega), if_pos hlast, nextHost_eq (by omega) (by omega) (by omega),
      if_pos (by omega), if_pos hlast, Nat.add_comm]
  · rw [if_pos (by omega), nextHost_eq (by omega) (by omega) (by omega), if_neg hlast]

/-- The pool avoids 0, `M` and the server's own host number. -/
theorem poolHost_usable {M h i : ℕ} (hM : 15 ≤ M) (hpos : 0 < h) (hh : h < M) (hi : i < 8) :
    0 < poolHost M h i ∧ poolHost M h i < M ∧ poolHost M h i ≠ h := by
  rw [poolHost_eq hM hpos hh hi]
  split_ifs <;> omega

/-- The host numbers of the pool are different exactly when the wrap-around is not inside. -/
theorem poolHost_injective_iff {M h : ℕ} (hM : 15 ≤ M) (hpos : 0 < h) (hh : h < M) :
    (∀ i j : Fin 8, poolHost M h i = poolHost M h j → i = j) ↔ ¬ WrapsInside M h := by
  constructor
  · rintro hinj ⟨h1, h2⟩
    -- the entry at the wrap-around and the next one
    have heq := hinj ⟨M - h - 1, by omega⟩ ⟨M - h, by omega⟩ (by
      rw [poolHost_eq hM hpos hh (by dsimp only; omega),
        poolHost_eq hM hpos hh (by dsimp only; omega)]
      dsimp only
      split_ifs <;> omega)
    simp only [Fin.mk.injEq] at heq
    omega
  · intro hwrap i j heq
    rw [poolHost_eq hM hpos hh i.isLt, poolHost_eq hM hpos hh j.isLt] at heq
    unfold WrapsInside at hwrap
    have hi := i.isLt
    have hj := j.isLt
    apply Fin.ext
    split_ifs at heq <;> omega

/-! ### `DHCPS_Start` -/

/-- The addresses `DHCPS_Start` puts into the table. -/
theorem dhcpsStart_clients {netif : Netif} {p : ℕ} (hup : netif.up = true) (hp : 1 ≤ p)
    (hp' : p ≤ 28) (hmask : ntohl netif.netmask = prefixMask p) (udpNew : Bool)
    (old : DhcpServer) :
    ∃ s err, dhcpsStart netif udpNew old = some (s, err) ∧ ∀ i,
      ntohl (s.clients i).ipAddr &&& prefixMask p = ntohl netif.ipAddr &&& prefixMask p ∧
      hostNumber (prefixMask p) (ntohl (s.clients i).ipAddr)
        = poolHost (2 ^ (32 - p) - 1) (hostNumber (prefixMask p) (ntohl netif.ipAddr)) i := by
  have hge : 2 ^ 4 ≤ 2 ^ (32 - p) := Nat.pow_le_pow_right (by omega) (by omega)
  have hne : ~~~(prefixMask p) ≠ 0 := fun h => by
    have hzero := congrArg UInt32.toNat h
    rw [toNat_not_prefixMask hp, UInt32.toNat_zero] at hzero
    omega
  obtain ⟨hnet₁, hhost₁⟩ := hostAfter_spec hp hp' (ntohl netif.ipAddr)
    (show (1 : UInt32).toNat ≤ 7 by decide)
  -- each entry's host number is two applications of `hostAfter` away from the server's
  have hfacts : ∀ i : Fin 8,
      let a := hostAfter (hostAfter (ntohl netif.ipAddr) (prefixMask p) 1) (prefixMask p)
        (.ofNat i)
      a &&& prefixMask p = ntohl netif.ipAddr &&& prefixMask p ∧
        hostNumber (prefixMask p) a
          = poolHost (2 ^ (32 - p) - 1) (hostNumber (prefixMask p) (ntohl netif.ipAddr)) i := by
    intro i
    have hi : (UInt32.ofNat i.val).toNat = i :=
      UInt32.toNat_ofNat_of_lt' (i.isLt.trans (by decide))
    obtain ⟨hnet, hhost⟩ := hostAfter_spec hp hp'
      (hostAfter (ntohl netif.ipAddr) (prefixMask p) 1)
      (show (UInt32.ofNat i.val).toNat ≤ 7 by omega)
    rw [hi, hhost₁] at hhost
    exact ⟨hnet.trans hnet₁, hhost⟩
  simp only [dhcpsStart, hup, not_true, if_false, hmask, hne]
  cases udpNew
  · refine ⟨_, _, rfl, fun i => ?_⟩
    simpa only [ntohl_ntohl] using hfacts i
  · refine ⟨_, _, rfl, fun i => ?_⟩
    simpa only [ntohl_ntohl] using hfacts i

/-- **The pool is well formed exactly when the wrap-around is not inside it**, for every server
    address with a usable host number and every contiguous netmask of prefix length 1 to 28:
    `DHCPS_Start` does not divide by zero, and the eight entries have different addresses of the
    subnet that are not the network, the broadcast or the server's own address. -/
theorem dhcpsStart_pool_iff {netif : Netif} {p : ℕ} (hup : netif.up = true) (hp : 1 ≤ p)
    (hp' : p ≤ 28) (hmask : ntohl netif.netmask = prefixMask p)
    (hnetwork : hostNumber (prefixMask p) (ntohl netif.ipAddr) ≠ 0)
    (hbroadcast : hostNumber (prefixMask p) (ntohl netif.ipAddr) ≠ 2 ^ (32 - p) - 1)
    (udpNew : Bool) (old : DhcpServer) :
    (∃ s err, dhcpsStart netif udpNew old = some (s, err) ∧ PoolWellFormed netif s) ↔
      ¬ WrapsInside (2 ^ (32 - p) - 1) (hostNumber (prefixMask p) (ntohl netif.ipAddr)) := by
  have hge : 2 ^ 4 ≤ 2 ^ (32 - p) := Nat.pow_le_pow_right (by omega) (by omega)
  have hle : hostNumber (prefixMask p) (ntohl netif.ipAddr) ≤ 2 ^ (32 - p) - 1 := by
    rw [hostNumber, UInt32.toNat_and, toNat_not_prefixMask hp]
    exact Nat.and_le_right
  obtain ⟨s, err, hstart, hclients⟩ := dhcpsStart_clients hup hp hp' hmask udpNew old
  have hM : 15 ≤ 2 ^ (32 - p) - 1 := by omega
  rw [← poolHost_injective_iff hM (by omega) (by omega)]
  constructor
  -- equal host numbers in one subnet are equal addresses
  · rintro ⟨s', err', hstart', hinj, -⟩ i j heq
    rw [hstart, Option.some.injEq, Prod.mk.injEq] at hstart'
    rw [← hstart'.1] at hinj
    refine hinj i j (ntohl_inj ?_)
    apply eq_of_subnet_of_hostNumber ((hclients i).1.trans (hclients j).1.symm)
    rw [(hclients i).2, (hclients j).2, heq]
  · intro hinj
    refine ⟨s, err, hstart, fun i j heq => hinj i j ?_, fun i => ?_⟩
    · rw [← (hclients i).2, ← (hclients j).2, heq]
    · obtain ⟨hnet, hhost⟩ := hclients i
      obtain ⟨hpos, hlt, hown⟩ := poolHost_usable hM (by omega) (by omega) i.isLt
        (h := hostNumber (prefixMask p) (ntohl netif.ipAddr))
      rw [hmask]
      -- not the network, not the broadcast, not the server
      refine ⟨hnet, fun h => ?_, fun h => ?_, fun h => ?_⟩
      · rw [h, hostNumber_network] at hhost
        omega
      · rw [h, hostNumber_broadcast, toNat_not_prefixMask hp] at hhost
        omega
      · rw [h] at hhost
        exact hown hhost.symm

/-- A server at `ip` (in host order) in a subnet of 254 hosts. -/
def netifOf (ip : UInt32) : Netif := ⟨true, ntohl ip, ntohl (prefixMask 24)⟩

/-- The server at 192.168.1.1. -/
theorem dhcpsStart_pool_iff_first :
    (∃ s err, dhcpsStart (netifOf 0xc0a80101) true clearedServer = some (s, err) ∧
        PoolWellFormed (netifOf 0xc0a80101) s) ↔
      ¬ WrapsInside (2 ^ (32 - 24) - 1)
        (hostNumber (prefixMask 24) (ntohl (netifOf 0xc0a80101).ipAddr)) := by
  have hup : (netifOf 0xc0a80101).up = true := rfl
  have hmask : ntohl (netifOf 0xc0a80101).netmask = prefixMask 24 := ntohl_ntohl (prefixMask 24)
  have h := dhcpsStart_pool_iff hup (by decide) (by decide) hmask (by decide +kernel)
    (by decide +kernel) true clearedServer
  exact h

/-- The server at 192.168.1.250 has 192.168.1.1 in its pool twice. -/
theorem pool_has_address_twice :
    ¬ ∀ (netif : Netif) (p : ℕ), netif.up = true → 1 ≤ p → p ≤ 28 →
      ntohl netif.netmask = prefixMask p → hostNumber (prefixMask p) (ntohl netif.ipAddr) ≠ 0 →
      hostNumber (prefixMask p) (ntohl netif.ipAddr) ≠ 2 ^ (32 - p) - 1 →
      ∀ udpNew old, ∃ s err, dhcpsStart netif udpNew old = some (s, err) ∧
        PoolWellFormed netif s := by
  intro hall
  obtain ⟨s, err, hstart, hinj, -⟩ := hall (netifOf 0xc0a801fa) 24 rfl (by decide) (by decide)
    (ntohl_ntohl (prefixMask 24)) (by decide +kernel) (by decide +kernel) true clearedServer
  have hsame : (dhcpsStart (netifOf 0xc0a801fa) true clearedServer).map
      (fun r => decide ((r.1.clients 4).ipAddr = (r.1.clients 5).ipAddr)) = some true := by
    decide +kernel
  rw [hstart, Option.map_some, Option.some.injEq, decide_eq_true_eq] at hsame
  exact absurd (hinj 4 5 hsame) (by decide)

end SerialNet
