import Mathlib.Data.Int.Notation
import Mathlib.Data.List.Basic
import SerialNet.Lib.Run

namespace SerialNet

/-!
# Link up and link down with the DHCP and the DNS server

`L2LinkUp` starts the servers that the configuration asks for, `L2LinkDown` stops those that the
configuration asks for by then.  The state is what the two servers own (their sockets and the tick
timer of the DHCP server), the `udp_pcb`s that are alive, and the configuration, which may change
at any time.  Whether an allocation succeeds is part of the event.

A `udp_pcb` is named by a number that is never used again, so that a pointer to a removed one
can be told from one to a later one at the same address.
-/

/-- `PARAM_NET_MODE`. -/
inductive ParamNetMode where
  | staBss | staAdhoc | softap
deriving DecidableEq

/-- The fields of `SysParam` that the two functions read. -/
structure LinkCfg where
  protocol : ParamNetMode
  bDhcpServer : Bool
  bDnsServer : Bool
  dnsName : List UInt8

/-- Who created a `udp_pcb`. -/
inductive PcbOwner where
  | dhcps | dnss
deriving DecidableEq

/-- A `udp_pcb` of one of the servers. -/
structure UdpPcb where
  owner : PcbOwner
  id : ℕ
deriving DecidableEq

/-- The `udp_pcb`s of the servers, and whether one was ever removed a second time. -/
structure Udp where
  pcbs : List UdpPcb
  nextId : ℕ
  removedTwice : Bool

/-- `udp_new`; `ok` says that there was memory. -/
def udpNew (u : Udp) (owner : PcbOwner) (ok : Bool) : Udp × Option UdpPcb :=
  if ok then ({ u with pcbs := u.pcbs ++ [⟨owner, u.nextId⟩], nextId := u.nextId + 1 },
    some ⟨owner, u.nextId⟩)
  else (u, none)

/-- `udp_remove`. -/
def udpRemove (u : Udp) (pcb : UdpPcb) : Udp :=
  if pcb ∈ u.pcbs then { u with pcbs := u.pcbs.erase pcb } else { u with removedTwice := true }

/-- The configuration, the link, and what the two servers own. -/
structure LinkState where
  cfg : LinkCfg
  linkUp : Bool
  netifUp : Bool
  udp : Udp
  /-- How many timers for `_DhcpTickHandle` are armed. -/
  tickTimers : ℕ
  /-- `DhcpServer.Enable` and `DhcpServer.Socket`. -/
  dhcpEnable : Bool
  dhcpSocket : Option UdpPcb
  /-- `DnsServer.Socket`. -/
  dnsSocket : Option UdpPcb

/-- Which allocations of a link-up succeed: the two sockets and the timer. -/
structure LinkAlloc where
  dhcpPcb : Bool
  timer : Bool
  dnsPcb : Bool

/-! ### The servers -/

/-- `sys_timeout(DHCP_TICK_TIME, _DhcpTickHandle, NULL)`. -/
def sysTimeout (s : LinkState) (ok : Bool) : LinkState :=
  if ok then { s with tickTimers := s.tickTimers + 1 } else s

/-- `sys_untimeout(_DhcpTickHandle, NULL)`: the first matching timer is removed. -/
def sysUntimeout (s : LinkState) : LinkState := { s with tickTimers := s.tickTimers - 1 }

/-- `DHCPS_Start`, as far as it concerns socket and timer. -/
def dhcpsStartLink (s : LinkState) (alloc : LinkAlloc) : LinkState × ℤ :=
  if ¬ s.netifUp then (s, -1)
  else
    -- `memset` clears the control block without stopping a server that still runs.
    let s : LinkState := { s with dhcpEnable := false, dhcpSocket := none }
    -- `udp_new`, then the timer; a failed `sys_timeout` is not noticed.
    let r := udpNew s.udp .dhcps alloc.dhcpPcb
    let s : LinkState := { s with udp := r.1, dhcpSocket := r.2 }
    if s.dhcpSocket = none then (s, -3)
    else
      let s := sysTimeout s alloc.timer
      ({ s with dhcpEnable := true }, 0)

/-- `DHCPS_Stop`. -/
def dhcpsStopLink (s : LinkState) : LinkState :=
  let s : LinkState := { s with dhcpEnable := false }
  let s := sysUntimeout s
  let s : LinkState := match s.dhcpSocket with
    | some pcb => { s with udp := udpRemove s.udp pcb }
    | none => s
  -- `memset`: unlike `DNSS_Stop`, no pointer to the removed socket stays.
  { s with dhcpEnable := false, dhcpSocket := none }

/-- `DNSS_Start`, as far as it concerns the socket. -/
def dnssStartLink (s : LinkState) (alloc : LinkAlloc) : LinkState × ℤ :=
  if s.cfg.dnsName.length > 32 then (s, -2)
  else if ¬ s.netifUp then (s, -1)
  else
    -- `memset`, also when an earlier socket is still alive.
    let s : LinkState := { s with dnsSocket := none }
    let r := udpNew s.udp .dnss alloc.dnsPcb
    let s : LinkState := { s with udp := r.1, dnsSocket := r.2 }
    if s.dnsSocket = none then (s, -3) else (s, 0)

/-- `DNSS_Stop`; the pointer to the socket stays. -/
def dnssStopLink (s : LinkState) : LinkState :=
  match s.dnsSocket with
  | some pcb => { s with udp := udpRemove s.udp pcb }
  | none => s

/-- `_DhcpTickHandle`, as far as it concerns the timer. -/
def dhcpTickLink (s : LinkState) (ok : Bool) : LinkState :=
  if ¬ s.dhcpEnable then s else sysTimeout s ok

/-! ### `L2LinkUp` and `L2LinkDown` -/

/-- `L2LinkUp`: both ways to an address end with the interface up and `Ret` 0. -/
def l2LinkUp (s : LinkState) (alloc : LinkAlloc) : LinkState × ℤ :=
  let s : LinkState := { s with netifUp := true }
  let r : LinkState × ℤ :=
    if s.cfg.protocol = .softap then
      let r := if s.cfg.bDhcpServer then dhcpsStartLink s alloc else (s, 0)
      -- `Ret` of the DNS server replaces the one of the DHCP server.
      if r.1.cfg.bDnsServer then dnssStartLink r.1 alloc else r
    else (s, 0)
  (r.1, if r.2 = 0 then 0 else -1)

/-- `L2LinkDown`. -/
def l2LinkDown (s : LinkState) : LinkState :=
  let s : LinkState := { s with netifUp := false }
  -- What is stopped depends on the configuration now, not on what `L2LinkUp` started.
  if s.cfg.protocol = .softap then
    let s := if s.cfg.bDhcpServer then dhcpsStopLink s else s
    if s.cfg.bDnsServer then dnssStopLink s else s
  else s

/-- What can happen: the configuration changes, the link goes up or down, or the tick timer
    expires. -/
inductive LinkEvent where
  | config (c : LinkCfg)
  | linkUp (alloc : LinkAlloc)
  | linkDown
  | tick (rearmed : Bool)

/-- Perform one event; link-up and link-down alternate, and only an armed timer expires. -/
def linkStep (s : LinkState) : LinkEvent → Option LinkState
  | .config c => some { s with cfg := c }
  | .linkUp alloc => if s.linkUp then none else some { (l2LinkUp s alloc).1 with linkUp := true }
  | .linkDown => if s.linkUp then some { l2LinkDown s with linkUp := false } else none
  | .tick rearmed =>
      if s.tickTimers = 0 then none
      else some (dhcpTickLink { s with tickTimers := s.tickTimers - 1 } rearmed)

/-- The state at boot. -/
def linkBoot (c : LinkCfg) : LinkState :=
  { cfg := c, linkUp := false, netifUp := false, udp := ⟨[], 0, false⟩, tickTimers := 0
    dhcpEnable := false, dhcpSocket := none, dnsSocket := none }

end SerialNet
