import SerialNet.Kernel.Tables

namespace SerialNet

open PrioTable

/-!
# Moves

What the services can do, said once.  A `Move` is a change of events, queues and waiting tasks with
what is true before it and the notes that it leaves; `Moves` is a sequence of moves.  What a task
does to itself or to the list of the tasks is not a move: it begins to wait (`waitCur`), goes on
behind a pend (`resumeCur`), is delayed (`delayCur`), is created (`addTask`) or deleted
(`dropTask`).  The laws of the kernel are proved for the moves, for these five and for the tick, and
not for each service.
-/

/-! ### The changes -/

/-- A task that got the event. -/
def OsTcb.readied (c : OsTcb) (msg : ℕ) : OsTcb :=
  { c with dly := 0, msg, stat := osStatRdy, statPend := .ok }

/-- A task that begins to wait. -/
def OsTcb.waiting (c : OsTcb) (e : EventId) (b : BitVec 8) (timeout : ℕ) : OsTcb :=
  { c with stat := b, statPend := .ok, dly := timeout, eventPtr := some e }

/-- A task that goes on behind a pend. -/
def OsTcb.resumed (c : OsTcb) (msg : ℕ) : OsTcb :=
  { c with stat := osStatRdy, statPend := .ok, eventPtr := none, msg }

/-- A task at the tick. -/
def OsTcb.ticked (c : OsTcb) : OsTcb := if c.dly ≠ 0 then Kernel.tickTcb c else c

/-- `OSTCBStat` of a task in a pend of this kind. -/
def PendKind.type : PendKind → EventType
  | .sem => .sem
  | .q => .q

namespace Kernel

/-- The first task of the wait list gets the event. -/
def readyFirst (k : Kernel) (e : EventId) (msg : ℕ) : Kernel :=
  let c := k.tcb (k.firstWaiter e)
  { k with
    tcb := Function.update k.tcb (k.firstWaiter e) (c.readied msg)
    rdy := k.rdy.set c.prio
    event := Function.update k.event e { k.event e with tbl := (k.event e).tbl.clear c.prio } }

/-- The current task waits. -/
def waitCur (k : Kernel) (e : EventId) (b : BitVec 8) (timeout : ℕ) : Kernel :=
  { k with
    tcb := Function.update k.tcb k.tcbCur (k.cur.waiting e b timeout)
    rdy := k.rdy.clear k.cur.prio
    event := Function.update k.event e { k.event e with tbl := (k.event e).tbl.set k.cur.prio } }

/-- The current task goes on behind a pend; after a timeout it leaves the wait list. -/
def resumeCur (k : Kernel) (e : EventId) (msg : ℕ) : Kernel :=
  { k with
    tcb := Function.update k.tcb k.tcbCur (k.cur.resumed msg)
    event :=
      if k.cur.statPend = .timeout then
        Function.update k.event e { k.event e with tbl := (k.event e).tbl.clear k.cur.prio }
      else k.event }

/-- The current task is delayed. -/
def delayCur (k : Kernel) (ticks : ℕ) : Kernel :=
  { k with
    tcb := Function.update k.tcb k.tcbCur { k.cur with dly := ticks }
    rdy := k.rdy.clear k.cur.prio }

/-- A task with the first free control block. -/
def addTask (k : Kernel) (prio : Prio) (t : TcbId) (free : List TcbId) : Kernel :=
  { k with
    tcb := Function.update k.tcb t ⟨prio, osStatRdy, .ok, 0, none, 0⟩
    prioTbl := Function.update k.prioTbl prio (.tcb t)
    tcbFreeList := free
    tcbList := t :: k.tcbList
    rdy := k.rdy.set prio }

/-- A task is taken out of everything. -/
def dropTask (k : Kernel) (t : TcbId) : Kernel :=
  let c := k.tcb t
  { k with
    tcb := Function.update k.tcb t { c with dly := 0, stat := osStatRdy, statPend := .ok }
    prioTbl := Function.update k.prioTbl c.prio .null
    tcbList := k.tcbList.erase t
    tcbFreeList := t :: k.tcbFreeList
    rdy := k.rdy.clear c.prio
    event :=
      match c.eventPtr with
      | some e =>
          Function.update k.event e { k.event e with tbl := (k.event e).tbl.clear c.prio }
      | none => k.event }

/-- The queue of an event that is a queue. -/
abbrev queue (k : Kernel) (e : EventId) : OsQ := k.q (k.qOf e)

/-- The current task is in its own code. -/
structure CurFree (k : Kernel) : Prop where
  mem : k.tcbCur ∈ k.tcbList
  notIdle : k.cur.prio ≠ osTaskIdlePrio
  ready : k.cur.Ready
  eventPtr : k.cur.eventPtr = none
  statPend : k.cur.statPend = .ok

/-- A change of the kernel, with what holds before it and the notes that it leaves. -/
inductive Move (k : Kernel) : Kernel → List Note → Prop
  | hand (e : EventId) (msg : ℕ) (notes : List Note) (hne : (k.event e).tbl.grp ≠ 0)
      (hty : (k.event e).type = .q ∨ (k.event e).type = .sem ∧ msg = 0)
      (hnotes : notes = [.posted e msg, .handed (k.firstWaiter e) e msg]) :
      Move k (k.readyFirst e msg) notes
  /-- A delete readies a task. -/
  | release (e : EventId) (hne : (k.event e).tbl.grp ≠ 0)
      (hty : (k.event e).type = .q ∨ (k.event e).type = .sem) :
      Move k (k.readyFirst e 0) [.released (k.firstWaiter e) e]
  | give (e : EventId) (hty : (k.event e).type = .sem) (hgrp : (k.event e).tbl.grp = 0)
      (hlt : (k.event e).cnt < 65535) :
      Move k (k.setEvent e { k.event e with cnt := (k.event e).cnt + 1 }) [.posted e 0]
  | take (e : EventId) (hcur : k.CurFree) (hty : (k.event e).type = .sem) (hpos : 0 < (k.event e).cnt) :
      Move k (k.setEvent e { k.event e with cnt := (k.event e).cnt - 1 }) (k.takeNotes e 0)
  | put (e : EventId) (msg : ℕ) (hty : (k.event e).type = .q) (hgrp : (k.event e).tbl.grp = 0)
      (hlt : (k.queue e).entries < (k.queue e).size) :
      Move k (k.osQPut (k.qOf e) msg) [.posted e msg]
  | get (e : EventId) (hcur : k.CurFree) (hty : (k.event e).type = .q) (hpos : 0 < (k.queue e).entries) :
      Move k (k.osQTake (k.qOf e)).1 (k.takeNotes e (k.osQTake (k.qOf e)).2)
  | flush (e : EventId) (hty : (k.event e).type = .q) : Move k (k.osQFlush e) [.flushed e]
  | semNew (e : EventId) (cnt : ℕ) (free : List EventId) (hfree : k.eventFreeList = e :: free) :
      Move k ({ k with eventFreeList := free }.setEvent e ⟨.sem, none, cnt, .empty⟩)
        [.semCreated e cnt]
  | qNew (e : EventId) (i : QId) (start size : ℕ) (free : List EventId) (qfree : List QId)
      (hfree : k.eventFreeList = e :: free) (hqfree : k.qFreeList = i :: qfree)
      (hmem : ∀ e', (k.event e').type = .q → ∀ i, (k.queue e').Covers i →
        ¬ (start ≤ i ∧ i < start + size)) :
      Move k (({ k with eventFreeList := free, qFreeList := qfree }.setQ i
        ⟨start, start + size, start, start, size, 0⟩).setEvent e ⟨.q, some i, 0, .empty⟩)
        [.qCreated e]
  | semFree (e : EventId) (hty : (k.event e).type = .sem) (hgrp : (k.event e).tbl.grp = 0) :
      Move k (k.osEventFree e) [.deleted e]
  | qFree (e : EventId) (hty : (k.event e).type = .q) (hgrp : (k.event e).tbl.grp = 0) :
      Move k (k.osQFree e) [.deleted e]

/-- Moves one after the other. -/
inductive Moves : Kernel → Kernel → List Note → Prop
  | nil (k : Kernel) : Moves k k []
  | cons {k k' k'' : Kernel} {n n' : List Note} (h : Move k k' n) (hs : Moves k' k'' n') :
      Moves k k'' (n ++ n')

end Kernel

end SerialNet
