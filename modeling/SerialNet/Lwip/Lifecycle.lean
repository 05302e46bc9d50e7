import SerialNet.Lwip.Link

namespace SerialNet

/-!
# When the servers' sockets and timers are kept in order

What should hold at every moment: each server owns at most one `udp_pcb`, at most one tick timer
is armed, nothing is left after a link-down, and no `udp_pcb` is removed twice (`LinkOrder`).

A link-down stops the servers that the configuration names by then, not those that run, and
`DNSS_Stop` leaves the pointer to the removed socket behind.  So all depends on the link-downs:
the configuration must stop the servers that run, and must not name the DNS server when its
pointer is a stale one (`StopsWhatRuns`).  `link_order_iff` says that this is exact.
-/

/-- What the configuration starts at a link-up and stops at a link-down. -/
def LinkCfg.runsDhcps (c : LinkCfg) : Prop := c.protocol = .softap ∧ c.bDhcpServer

/-- The same for the DNS server. -/
def LinkCfg.runsDnss (c : LinkCfg) : Prop := c.protocol = .softap ∧ c.bDnsServer

/-- The servers' sockets and timers are in order. -/
structure LinkOrder (s : LinkState) : Prop where
  dhcp_pcb : (s.udp.pcbs.filter (·.owner = .dhcps)).length ≤ 1
  dns_pcb : (s.udp.pcbs.filter (·.owner = .dnss)).length ≤ 1
  timer : s.tickTimers ≤ 1
  down : s.linkUp = false → s.udp.pcbs = [] ∧ s.tickTimers = 0
  once : s.udp.removedTwice = false

/-- At a link-down the configuration names the DHCP server if that has a socket, and, if the
    pointer to the DNS server's socket is not NULL, names the DNS server exactly if that socket is
    alive. -/
def StopsWhatRuns (s : LinkState) : LinkEvent → Prop
  | .linkDown => (s.dhcpSocket ≠ none → s.cfg.runsDhcps) ∧
      ∀ pcb ∈ s.dnsSocket, pcb ∈ s.udp.pcbs ↔ s.cfg.runsDnss
  | _ => True

/-- What the servers own: the socket of the DHCP server and, if it is alive, that of the DNS
    server. -/
structure LinkOwn (s : LinkState) : Prop where
  pcbs : ∃ live : Bool, s.udp.pcbs
    = s.dhcpSocket.toList ++ if live then s.dnsSocket.toList else []
  dhcp_owner : ∀ pcb ∈ s.dhcpSocket, pcb.owner = .dhcps ∧ pcb.id < s.udp.nextId
  dns_owner : ∀ pcb ∈ s.dnsSocket, pcb.owner = .dnss ∧ pcb.id < s.udp.nextId
  enable : s.dhcpEnable = s.dhcpSocket.isSome
  timer : s.tickTimers ≤ if s.dhcpEnable then 1 else 0
  once : s.udp.removedTwice = false

/-- The state as long as every link-down stops what runs: while the link is down nothing is
    owned. -/
structure LinkGood (s : LinkState) : Prop extends LinkOwn s where
  down : s.linkUp = false → s.dhcpSocket = none ∧ s.udp.pcbs = []

/-- Good states are in order. -/
theorem LinkGood.order {s : LinkState} (h : LinkGood s) : LinkOrder s := by
  obtain ⟨⟨⟨live, hpcbs⟩, hdhcp, hdns, henable, htimer, honce⟩, hdown⟩ := h
  have hd : (s.dhcpSocket.toList.filter (·.owner = .dnss)) = [] := by
    rw [List.filter_eq_nil_iff]
    intro pcb hp
    simp [(hdhcp pcb (by simpa using hp)).1]
  have hn : (s.dnsSocket.toList.filter (·.owner = .dhcps)) = [] := by
    rw [List.filter_eq_nil_iff]
    intro pcb hp
    simp [(hdns pcb (by simpa using hp)).1]
  have hle : ∀ (o : Option UdpPcb) (owner : PcbOwner),
      (o.toList.filter (·.owner = owner)).length ≤ 1 := by
    intro o owner
    apply Nat.le_trans (List.length_filter_le _ _)
    cases o <;> simp
  refine ⟨?_, ?_, ?_, fun hl => ⟨(hdown hl).2, ?_⟩, honce⟩
  · rw [hpcbs, List.filter_append]
    cases live <;> simp [hn, hle]
  · rw [hpcbs, List.filter_append, hd]
    cases live <;> simp [hle]
  · split at htimer <;> omega
  · rw [henable, (hdown hl).1] at htimer
    simpa using htimer

/-! ### What the operations do to the sockets -/

/-- Both stop functions remove the socket their pointer names. -/
def removeSocket (u : Udp) (socket : Option UdpPcb) : Udp := socket.elim u (udpRemove u)

theorem dhcpsStopLink_eq (s : LinkState) : dhcpsStopLink s =
    { s with
      udp := removeSocket s.udp s.dhcpSocket, tickTimers := s.tickTimers - 1
      dhcpEnable := false, dhcpSocket := none } := by
  cases h : s.dhcpSocket <;> simp [dhcpsStopLink, sysUntimeout, removeSocket, h]

theorem dnssStopLink_eq (s : LinkState) : dnssStopLink s =
    { s with udp := removeSocket s.udp s.dnsSocket } := by
  cases s
  rename_i dnsSocket
  cases dnsSocket <;> rfl

/-- Removing a pointer that is alive takes it off the list. -/
theorem removeSocket_live {u : Udp} {socket : Option UdpPcb} (h : ∀ pcb ∈ socket, pcb ∈ u.pcbs) :
    removeSocket u socket
      = { u with pcbs := socket.elim u.pcbs (u.pcbs.erase ·) } := by
  cases socket with
  | none => rfl
  | some pcb => simp [removeSocket, udpRemove, h pcb rfl]

/-- Removing a stale pointer is a second removal. -/
theorem removeSocket_stale {u : Udp} {pcb : UdpPcb} (h : pcb ∉ u.pcbs) :
    removeSocket u (some pcb) = { u with removedTwice := true } := by
  simp [removeSocket, udpRemove, h]

/-- Removing one server's socket does not touch the other's. -/
theorem mem_removeSocket_other {u : Udp} {socket : Option UdpPcb} {pcb : UdpPcb}
    (h : ∀ p ∈ socket, p.owner ≠ pcb.owner) :
    pcb ∈ (removeSocket u socket).pcbs ↔ pcb ∈ u.pcbs := by
  cases socket with
  | none => rfl
  | some p =>
    have hne : pcb ≠ p := fun he => h p rfl (he ▸ rfl)
    simp only [removeSocket, Option.elim, udpRemove]
    split
    · exact List.mem_erase_of_ne hne
    · rfl

/-- What was removed twice stays removed twice, so a socket named without that was alive. -/
theorem removeSocket_once {u : Udp} {socket : Option UdpPcb}
    (h : (removeSocket u socket).removedTwice = false) :
    u.removedTwice = false ∧ ∀ pcb ∈ socket, pcb ∈ u.pcbs := by
  cases socket with
  | none => exact ⟨h, by simp⟩
  | some p =>
    by_cases hmem : p ∈ u.pcbs
    · rw [removeSocket_live (by simpa using hmem)] at h
      exact ⟨h, by simpa using hmem⟩
    · rw [removeSocket_stale hmem] at h
      cases h

/-! ### A link-up -/

/-- The DHCP server starts with no socket alive: it gets one, or none. -/
theorem dhcpsStartLink_own {s : LinkState} (h : LinkOwn s) (hup : s.netifUp)
    (hnone : s.dhcpSocket = none) (hpcbs : s.udp.pcbs = []) (alloc : LinkAlloc) :
    LinkOwn (dhcpsStartLink s alloc).1 ∧
      (dhcpsStartLink s alloc).1.udp.pcbs = (dhcpsStartLink s alloc).1.dhcpSocket.toList ∧
      (dhcpsStartLink s alloc).1.netifUp := by
  have hzero : s.tickTimers = 0 := by
    have := h.timer
    rw [h.enable, hnone] at this
    simpa using this
  by_cases hmem : alloc.dhcpPcb = true
  · have hd : (dhcpsStartLink s alloc).1 = { s with
        udp := { s.udp with pcbs := [⟨.dhcps, s.udp.nextId⟩], nextId := s.udp.nextId + 1 }
        dhcpSocket := some ⟨.dhcps, s.udp.nextId⟩
        tickTimers := if alloc.timer then 1 else 0, dhcpEnable := true } := by
      cases ht : alloc.timer <;>
        simp [dhcpsStartLink, sysTimeout, udpNew, hup, hmem, hpcbs, hzero, ht]
    rw [hd]
    refine ⟨⟨⟨false, rfl⟩, ?_, ?_, rfl, ?_, h.once⟩, rfl, hup⟩
    · simp
    · intro pcb hp
      exact ⟨(h.dns_owner pcb hp).1, Nat.lt_succ_of_lt (h.dns_owner pcb hp).2⟩
    · show (if alloc.timer then 1 else 0) ≤ 1
      split <;> omega
  · have hd : (dhcpsStartLink s alloc).1 = { s with dhcpEnable := false, dhcpSocket := none } := by
      simp [dhcpsStartLink, udpNew, hup, hmem]
    rw [hd]
    refine ⟨⟨⟨false, hpcbs⟩, ?_, h.dns_owner, rfl, ?_, h.once⟩, hpcbs, hup⟩
    · simp
    · exact Nat.le_of_eq hzero

/-- The DNS server starts with no socket of its own alive. -/
theorem dnssStartLink_own {s : LinkState} (h : LinkOwn s) (hup : s.netifUp)
    (hpcbs : s.udp.pcbs = s.dhcpSocket.toList) (alloc : LinkAlloc) :
    LinkOwn (dnssStartLink s alloc).1 := by
  by_cases hname : s.cfg.dnsName.length > 32
  · have hd : (dnssStartLink s alloc).1 = s := by simp [dnssStartLink, hname]
    rw [hd]
    exact h
  by_cases hmem : alloc.dnsPcb = true
  · have hd : (dnssStartLink s alloc).1 = { s with
        udp := { s.udp with
          pcbs := s.udp.pcbs ++ [⟨.dnss, s.udp.nextId⟩], nextId := s.udp.nextId + 1 }
        dnsSocket := some ⟨.dnss, s.udp.nextId⟩ } := by
      simp [dnssStartLink, udpNew, hname, hup, hmem]
    rw [hd]
    refine ⟨⟨true, by simp [hpcbs]⟩, ?_, ?_, h.enable, h.timer, h.once⟩
    · intro pcb hp
      exact ⟨(h.dhcp_owner pcb hp).1, Nat.lt_succ_of_lt (h.dhcp_owner pcb hp).2⟩
    · simp
  · have hd : (dnssStartLink s alloc).1 = { s with dnsSocket := none } := by
      simp [dnssStartLink, udpNew, hname, hup, hmem]
    rw [hd]
    exact ⟨⟨false, by simp [hpcbs]⟩, h.dhcp_owner, by simp, h.enable, h.timer, h.once⟩

/-- **Link-up.**  From a good state with the link down the servers that start own what they
    allocated, and nothing else is alive. -/
theorem l2LinkUp_own {s : LinkState} (h : LinkGood s) (hl : s.linkUp = false) (alloc : LinkAlloc) :
    LinkOwn (l2LinkUp s alloc).1 := by
  obtain ⟨hnone, hpcbs⟩ := h.down hl
  have hs : LinkOwn { s with netifUp := true } :=
    ⟨h.pcbs, h.dhcp_owner, h.dns_owner, h.enable, h.timer, h.once⟩
  rw [l2LinkUp]
  by_cases hap : s.cfg.protocol = .softap
  · simp only [hap, if_true]
    by_cases hd : s.cfg.bDhcpServer = true
    · obtain ⟨h1, h2, h3⟩ := dhcpsStartLink_own hs rfl hnone hpcbs alloc
      simp only [hd, if_true]
      split
      · exact dnssStartLink_own h1 h3 h2 alloc
      · exact h1
    · simp only [hd, if_false, Bool.false_eq_true]
      have hempty : s.udp.pcbs = s.dhcpSocket.toList := by rw [hpcbs, hnone]; rfl
      split
      · exact dnssStartLink_own hs rfl hempty alloc
      · exact hs
  · simp only [hap, if_false]
    exact hs

/-! ### A link-down -/

/-- Whom a link-down stops is a matter of the configuration. -/
theorem l2LinkDown_eq (s : LinkState) [Decidable s.cfg.runsDhcps] [Decidable s.cfg.runsDnss] :
    l2LinkDown s =
      let stopped : LinkState :=
        if s.cfg.runsDhcps then dhcpsStopLink { s with netifUp := false }
        else { s with netifUp := false }
      if s.cfg.runsDnss then dnssStopLink stopped else stopped := by
  by_cases hap : s.cfg.protocol = .softap
  · by_cases hd : s.cfg.bDhcpServer = true
    · simp [l2LinkDown, LinkCfg.runsDhcps, LinkCfg.runsDnss, hap, hd, dhcpsStopLink_eq]
    · simp [l2LinkDown, LinkCfg.runsDhcps, LinkCfg.runsDnss, hap, hd]
  · simp [l2LinkDown, LinkCfg.runsDhcps, LinkCfg.runsDnss, hap]

/-- What a link-down leaves of the `udp_pcb`s. -/
theorem l2LinkDown_udp (s : LinkState) [Decidable s.cfg.runsDhcps] [Decidable s.cfg.runsDnss] :
    (l2LinkDown s).udp =
      let stopped := if s.cfg.runsDhcps then removeSocket s.udp s.dhcpSocket else s.udp
      if s.cfg.runsDnss then removeSocket stopped s.dnsSocket else stopped := by
  rw [l2LinkDown_eq]
  by_cases hd : s.cfg.runsDhcps <;> by_cases hn : s.cfg.runsDnss <;>
    simp [hd, hn, dhcpsStopLink_eq, dnssStopLink_eq]

/-- The DNS server's pointer names a live socket exactly if it is on the list. -/
theorem LinkOwn.dns_live {s : LinkState} (h : LinkOwn s) {pcb : UdpPcb} (hp : pcb ∈ s.dnsSocket)
    {live : Bool}
    (hpcbs : s.udp.pcbs = s.dhcpSocket.toList ++ if live then s.dnsSocket.toList else []) :
    pcb ∈ s.udp.pcbs ↔ live := by
  have hnot : pcb ∉ s.dhcpSocket.toList := by
    intro hmem
    have h1 := (h.dhcp_owner pcb (by simpa using hmem)).1
    rw [(h.dns_owner pcb hp).1] at h1
    cases h1
  rw [hpcbs, List.mem_append]
  cases live <;> simp_all

/-- **Link-down that stops what runs.**  It leaves no socket and no timer. -/
theorem l2LinkDown_good {s : LinkState} (h : LinkOwn s) (hstop : StopsWhatRuns s .linkDown) :
    LinkGood { l2LinkDown s with linkUp := false } := by
  classical
  obtain ⟨live, hpcbs⟩ := h.pcbs
  -- the DHCP server's socket goes, named or not
  have hdhcp : (if s.cfg.runsDhcps then removeSocket s.udp s.dhcpSocket else s.udp)
      = { s.udp with pcbs := if live then s.dnsSocket.toList else [] } := by
    cases hs : s.dhcpSocket with
    | none =>
      rw [hs] at hpcbs
      simp only [removeSocket, Option.elim, ite_self]
      rw [← show s.udp.pcbs = if live then s.dnsSocket.toList else [] from hpcbs]
    | some pcb =>
      rw [if_pos (hstop.1 (by simp [hs])), removeSocket_live (by simp [hpcbs, hs]), hpcbs, hs]
      simp
  -- the DNS server's socket goes exactly if it is still there
  have hudp : (l2LinkDown s).udp = { s.udp with pcbs := [] } := by
    rw [l2LinkDown_udp, hdhcp]
    cases hs : s.dnsSocket with
    | none => simp [removeSocket]
    | some pcb =>
      have hlive := h.dns_live hs hpcbs
      have hnamed := hstop.2 pcb hs
      rw [hlive] at hnamed
      by_cases hl : live = true
      · rw [if_pos (hnamed.mp hl), if_pos hl, removeSocket_live (by simp)]
        simp
      · rw [if_neg (fun hr => hl (hnamed.mpr hr)), if_neg hl]
  -- the stop of the DHCP server clears its pointer and its timer
  have hrest : (l2LinkDown s).dhcpSocket = none ∧ (l2LinkDown s).dhcpEnable = false ∧
      (l2LinkDown s).tickTimers = 0 ∧ (l2LinkDown s).dnsSocket = s.dnsSocket := by
    have ht := h.timer
    have he := h.enable
    rw [l2LinkDown_eq]
    by_cases hd : s.cfg.runsDhcps
    · have : s.tickTimers - 1 = 0 := by
        split at ht <;> omega
      by_cases hn : s.cfg.runsDnss <;> simp [hd, hn, dhcpsStopLink_eq, dnssStopLink_eq, this]
    · have hnone : s.dhcpSocket = none := by
        by_contra hne
        exact hd (hstop.1 hne)
      rw [hnone] at he
      have hzero : s.tickTimers = 0 := by simpa [he] using ht
      by_cases hn : s.cfg.runsDnss <;> simp [hd, hn, dnssStopLink_eq, hnone, he, hzero]
  obtain ⟨h1, h2, h3, h4⟩ := hrest
  refine ⟨⟨⟨false, ?_⟩, ?_, ?_, ?_, ?_, ?_⟩, fun _ => ⟨h1, ?_⟩⟩
  · simp [hudp, h1]
  · simp [h1]
  · simpa [h4, hudp] using h.dns_owner
  · simp [h1, h2]
  · simp [h3]
  · simp [hudp, h.once]
  · simp [hudp]

/-- **Link-down that does not.**  It leaves a socket or removes one that is gone. -/
theorem l2LinkDown_bad {s : LinkState} (h : LinkOwn s)
    (horder : LinkOrder { l2LinkDown s with linkUp := false }) : StopsWhatRuns s .linkDown := by
  classical
  obtain ⟨live, hpcbs⟩ := h.pcbs
  have hempty : (l2LinkDown s).udp.pcbs = [] := (horder.down rfl).1
  have honce : (l2LinkDown s).udp.removedTwice = false := horder.once
  rw [l2LinkDown_udp] at hempty honce
  have hother : ∀ p ∈ s.dhcpSocket, ∀ q ∈ s.dnsSocket, p.owner ≠ q.owner := by
    intro p hp q hq
    rw [(h.dhcp_owner p hp).1, (h.dns_owner q hq).1]
    simp
  refine ⟨fun hne => ?_, fun pcb hp => ⟨fun hmem => ?_, fun hn => ?_⟩⟩
  -- a DHCP server that is not stopped keeps its socket on the list
  · by_contra hd
    obtain ⟨pcb, hs⟩ := Option.ne_none_iff_exists'.mp hne
    rw [if_neg hd] at hempty
    have hmem : pcb ∈ s.udp.pcbs := by simp [hpcbs, hs]
    split at hempty
    · rw [← mem_removeSocket_other (fun p hp => (hother pcb hs p hp).symm), hempty] at hmem
      cases hmem
    · rw [hempty] at hmem
      cases hmem
  -- so does the DNS server
  · by_contra hn
    rw [if_neg hn] at hempty
    split at hempty
    · rw [← mem_removeSocket_other (fun p hp' => hother p hp' pcb hp), hempty] at hmem
      cases hmem
    · rw [hempty] at hmem
      cases hmem
  -- and a stop that names a socket which is gone removes it twice
  · rw [if_pos hn] at honce
    have hmem := (removeSocket_once honce).2 pcb hp
    split at hmem
    · exact (mem_removeSocket_other (fun p hp' => hother p hp' pcb hp)).mp hmem
    · exact hmem

/-! ### Runs -/

/-- **One step.**  From a good state a step that stops what runs leaves a good state, any other
    one breaks the order. -/
theorem linkStep_order {s s' : LinkState} {e : LinkEvent} (h : LinkGood s)
    (hs : linkStep s e = some s') :
    (StopsWhatRuns s e ∧ LinkGood s') ∨ (¬ StopsWhatRuns s e ∧ ¬ LinkOrder s') := by
  cases e with
  | config c =>
    obtain rfl := Option.some.inj hs
    exact .inl ⟨trivial, ⟨⟨h.pcbs, h.dhcp_owner, h.dns_owner, h.enable, h.timer, h.once⟩, h.down⟩⟩
  | linkUp alloc =>
    simp only [linkStep] at hs
    split at hs
    · cases hs
    · rename_i hl
      obtain rfl := Option.some.inj hs
      have hown := l2LinkUp_own h (by simpa using hl) alloc
      refine .inl ⟨trivial, ⟨⟨hown.pcbs, hown.dhcp_owner, hown.dns_owner, hown.enable, hown.timer,
        hown.once⟩, ?_⟩⟩
      simp
  | linkDown =>
    simp only [linkStep] at hs
    split at hs
    · obtain rfl := Option.some.inj hs
      by_cases hstop : StopsWhatRuns s .linkDown
      · exact .inl ⟨hstop, l2LinkDown_good h.toLinkOwn hstop⟩
      · exact .inr ⟨hstop, fun horder => hstop (l2LinkDown_bad h.toLinkOwn horder)⟩
    · cases hs
  | tick rearmed =>
    simp only [linkStep] at hs
    split at hs
    · cases hs
    · rename_i ht
      obtain rfl := Option.some.inj hs
      -- an armed timer means that the server runs
      have henable : s.dhcpEnable = true := by
        by_contra he
        have := h.timer
        rw [if_neg he] at this
        omega
      have hle := h.timer
      rw [if_pos henable] at hle
      have hd : dhcpTickLink { s with tickTimers := s.tickTimers - 1 } rearmed
          = { s with
                tickTimers := if rearmed then s.tickTimers - 1 + 1 else s.tickTimers - 1 } := by
        cases rearmed <;> simp [dhcpTickLink, sysTimeout, henable]
      rw [hd]
      refine .inl ⟨trivial, ⟨⟨h.pcbs, h.dhcp_owner, h.dns_owner, h.enable, ?_, h.once⟩, h.down⟩⟩
      show (if rearmed then s.tickTimers - 1 + 1 else s.tickTimers - 1)
        ≤ if s.dhcpEnable then 1 else 0
      rw [if_pos henable]
      split <;> omega

/-- Nothing is owned at boot. -/
theorem linkBoot_good (c : LinkCfg) : LinkGood (linkBoot c) where
  pcbs := ⟨false, rfl⟩
  dhcp_owner := by simp [linkBoot]
  dns_owner := by simp [linkBoot]
  enable := rfl
  timer := Nat.le_refl 0
  once := rfl
  down := fun _ => ⟨rfl, rfl⟩

/-- **The servers' life.**  In every run from boot the servers' sockets and timers are in order
    at every moment exactly if every link-down stops the servers that run. -/
theorem link_order_iff (c : LinkCfg) (es : List LinkEvent)
    (h : (run linkStep (linkBoot c) es).isSome) :
    Always linkStep LinkOrder (linkBoot c) es ↔ Along linkStep StopsWhatRuns (linkBoot c) es :=
  always_iff_along (fun _ hs => hs.order) (fun _ _ _ hg hs => linkStep_order hg hs) es
    (linkBoot c) (linkBoot_good c) h

/-- Access point configurations. -/
def apCfg (bDhcpServer bDnsServer : Bool) : LinkCfg := ⟨.softap, bDhcpServer, bDnsServer, []⟩

/-- Both servers run, are stopped, and run again. -/
theorem servers_restart_in_order :
    (run linkStep (linkBoot (apCfg true true))
      [.linkUp ⟨true, true, true⟩, .tick true, .linkDown, .linkUp ⟨true, true, true⟩]).isSome ∧
    (Always linkStep LinkOrder (linkBoot (apCfg true true))
      [.linkUp ⟨true, true, true⟩, .tick true, .linkDown, .linkUp ⟨true, true, true⟩] ↔
    Along linkStep StopsWhatRuns (linkBoot (apCfg true true))
      [.linkUp ⟨true, true, true⟩, .tick true, .linkDown, .linkUp ⟨true, true, true⟩]) := by
  have h : (run linkStep (linkBoot (apCfg true true))
      [.linkUp ⟨true, true, true⟩, .tick true, .linkDown, .linkUp ⟨true, true, true⟩]).isSome := by
    decide
  exact ⟨h, link_order_iff _ _ h⟩

/-- The DNS server is on, then off for one time the link is up, then on again before the
    link-down: its socket is removed twice.  Turned off before the link-down, it leaves its
    socket alive. -/
theorem dns_socket_out_of_order :
    ((run linkStep (linkBoot (apCfg false true)) [.linkUp ⟨true, true, true⟩, .linkDown,
        .config (apCfg false false), .linkUp ⟨true, true, true⟩, .config (apCfg false true),
        .linkDown]).isSome ∧
      ¬ Always linkStep LinkOrder (linkBoot (apCfg false true)) [.linkUp ⟨true, true, true⟩,
        .linkDown, .config (apCfg false false), .linkUp ⟨true, true, true⟩,
        .config (apCfg false true), .linkDown]) ∧
    (run linkStep (linkBoot (apCfg false true)) [.linkUp ⟨true, true, true⟩,
        .config (apCfg false false), .linkDown]).isSome ∧
      ¬ Always linkStep LinkOrder (linkBoot (apCfg false true)) [.linkUp ⟨true, true, true⟩,
        .config (apCfg false false), .linkDown] := by
  refine ⟨⟨by decide, fun h => ?_⟩, by decide, fun h => ?_⟩
  · have hend := ((((((h.2 _ rfl).2 _ rfl).2 _ rfl).2 _ rfl).2 _ rfl).2 _ rfl).once
    exact absurd hend (by decide)
  · have hend := (((h.2 _ rfl).2 _ rfl).2 _ rfl).down rfl
    exact absurd hend.1 (by decide)

end SerialNet
