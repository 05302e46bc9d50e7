import SerialNet.Lib.CInt
import SerialNet.Lib.PrioTable

namespace SerialNet

open PrioTable

/-!
# The kernel — `os_core.c`

The state of the operating system and the functions that all of its services share: the scheduler,
the wait lists of the events, and the tick.  Priorities are the numbers below 64
(`OS_LOWEST_PRIO` is 63).  A ready or wait list is a `PrioTable`; the fields `OSTCBX`, `OSTCBY`,
`OSTCBBitX` and `OSTCBBitY` of a task are those of its priority and are computed from it.

The free lists and the list of the tasks are kept as lists instead of link fields.
`OSEventPendMulti` is called nowhere, so that `OSTCBEventMultiPtr` is always NULL and left out.
A context switch sets `OSPrioCur` and `OSTCBCur`.
-/

/-! ### Control blocks -/

/-- A priority below `OS_LOWEST_PRIO + 1`; a smaller number is a higher priority. -/
abbrev Prio := Fin 64

/-- An entry of `OSTCBTbl`: `OS_MAX_TASKS + OS_N_SYS_TASKS` tasks. -/
abbrev TcbId := Fin 22

/-- An entry of `OSEventTbl`, or from 20 on of `OSEventTblPatch`. -/
abbrev EventId := Fin 30

/-- An entry of `OSQTbl`. -/
abbrev QId := Fin 20

theorem neZero_prios : NeZero 64 := ⟨by decide⟩

theorem neZero_tcbs : NeZero 22 := ⟨by decide⟩

theorem neZero_events : NeZero 30 := ⟨by decide⟩

attribute [local instance] neZero_eight neZero_prios neZero_tcbs neZero_events

/-- `OS_TASK_IDLE_PRIO`, the lowest priority. -/
def osTaskIdlePrio : Prio := 63
/-- `OS_TASK_STAT_PRIO`. -/
def osTaskStatPrio : Prio := 62
/-- `OS_TASK_TMR_PRIO`. -/
def osTaskTmrPrio : Prio := 25

/-- `OS_STAT_RDY`, no bit set. -/
def osStatRdy : BitVec 8 := 0x00
/-- `OS_STAT_SEM`, pending on a semaphore. -/
def osStatSem : BitVec 8 := 0x01
/-- `OS_STAT_Q`, pending on a queue. -/
def osStatQ : BitVec 8 := 0x04
/-- `OS_STAT_SUSPEND`. -/
def osStatSuspend : BitVec 8 := 0x08
/-- `OS_STAT_PEND_ANY`, the bits of everything a task can pend on. -/
def osStatPendAny : BitVec 8 := 0x37

/-- `OSTCBStatPend`. -/
inductive PendStat where
  | ok | timeout | abort
deriving DecidableEq, Repr

/-- `OS_TCB`. -/
structure OsTcb where
  prio : Prio
  stat : BitVec 8
  statPend : PendStat
  dly : ℕ
  eventPtr : Option EventId
  /-- A message pointer as a number; 0 is NULL. -/
  msg : ℕ

/-- `OSEventType`, as far as the modelled services use it. -/
inductive EventType where
  | unused | q | sem | mutex
deriving DecidableEq, Repr

/-- `OS_EVENT`; `ptr` is the queue of an event of type `OS_EVENT_TYPE_Q`. -/
structure OsEvent where
  type : EventType
  ptr : Option QId
  cnt : ℕ
  tbl : PrioTable

/-- `OS_Q`; the pointers count entries of the memory of messages. -/
structure OsQ where
  start : ℕ
  qend : ℕ
  qin : ℕ
  qout : ℕ
  size : ℕ
  entries : ℕ

/-- An entry of `OSTCBPrioTbl`. -/
inductive PrioSlot where
  | null | reserved | tcb (t : TcbId)
deriving DecidableEq

/-- The variables of the kernel. -/
structure Kernel where
  running : Bool
  intNesting : ℕ
  lockNesting : ℕ
  prioCur : Prio
  prioHighRdy : Prio
  tcbCur : TcbId
  rdy : PrioTable
  tcb : TcbId → OsTcb
  prioTbl : Prio → PrioSlot
  tcbList : List TcbId
  tcbFreeList : List TcbId
  event : EventId → OsEvent
  eventFreeList : List EventId
  q : QId → OsQ
  qFreeList : List QId
  /-- The memory that queues keep their messages in. -/
  slots : ℕ → ℕ
  /-- `OSTime`, 32 bits. -/
  time : ℕ
  /-- `OSTmrSemSignal`. -/
  tmrSemSignal : EventId

namespace Kernel

/-- A store to a task control block. -/
def setTcb (k : Kernel) (t : TcbId) (c : OsTcb) : Kernel :=
  { k with tcb := Function.update k.tcb t c }

/-- A store to an event control block. -/
def setEvent (k : Kernel) (e : EventId) (c : OsEvent) : Kernel :=
  { k with event := Function.update k.event e c }

/-- A store to a queue control block. -/
def setQ (k : Kernel) (i : QId) (c : OsQ) : Kernel := { k with q := Function.update k.q i c }

/-- A store to `OSTCBPrioTbl`. -/
def setPrioTbl (k : Kernel) (p : Prio) (c : PrioSlot) : Kernel :=
  { k with prioTbl := Function.update k.prioTbl p c }

/-- The task that an entry of `OSTCBPrioTbl` points to.  The callers have a priority of a task;
    what is read through another entry does not matter. -/
def tcbAt (k : Kernel) (p : Prio) : TcbId :=
  match k.prioTbl p with
  | .tcb t => t
  | _ => 0

/-- The current task. -/
def cur (k : Kernel) : OsTcb := k.tcb k.tcbCur

/-! ### The scheduler -/

/-- `OSUnMapTbl`. -/
def osUnMapTbl : List ℕ := [
  0, 0, 1, 0, 2, 0, 1, 0, 3, 0, 1, 0, 2, 0, 1, 0, 4, 0, 1, 0, 2, 0, 1, 0, 3, 0, 1, 0, 2, 0, 1, 0,
  5, 0, 1, 0, 2, 0, 1, 0, 3, 0, 1, 0, 2, 0, 1, 0, 4, 0, 1, 0, 2, 0, 1, 0, 3, 0, 1, 0, 2, 0, 1, 0,
  6, 0, 1, 0, 2, 0, 1, 0, 3, 0, 1, 0, 2, 0, 1, 0, 4, 0, 1, 0, 2, 0, 1, 0, 3, 0, 1, 0, 2, 0, 1, 0,
  5, 0, 1, 0, 2, 0, 1, 0, 3, 0, 1, 0, 2, 0, 1, 0, 4, 0, 1, 0, 2, 0, 1, 0, 3, 0, 1, 0, 2, 0, 1, 0,
  7, 0, 1, 0, 2, 0, 1, 0, 3, 0, 1, 0, 2, 0, 1, 0, 4, 0, 1, 0, 2, 0, 1, 0, 3, 0, 1, 0, 2, 0, 1, 0,
  5, 0, 1, 0, 2, 0, 1, 0, 3, 0, 1, 0, 2, 0, 1, 0, 4, 0, 1, 0, 2, 0, 1, 0, 3, 0, 1, 0, 2, 0, 1, 0,
  6, 0, 1, 0, 2, 0, 1, 0, 3, 0, 1, 0, 2, 0, 1, 0, 4, 0, 1, 0, 2, 0, 1, 0, 3, 0, 1, 0, 2, 0, 1, 0,
  5, 0, 1, 0, 2, 0, 1, 0, 3, 0, 1, 0, 2, 0, 1, 0, 4, 0, 1, 0, 2, 0, 1, 0, 3, 0, 1, 0, 2, 0, 1, 0]

/-- An entry of `OSUnMapTbl`. -/
def osUnMap (b : BitVec 8) : Fin 8 := Fin.ofNat 8 (osUnMapTbl.getD b.toNat 0)

/-- The priority that the two searches in a ready or wait list give. -/
def osFirst (t : PrioTable) : Prio :=
  let y := osUnMap t.grp
  prioOf y (osUnMap (t.tbl y))

/-- `OS_SchedNew`. -/
def osSchedNew (k : Kernel) : Kernel := { k with prioHighRdy := osFirst k.rdy }

/-- `OSCtxSw` and `OSIntCtxSw`: the task of `OSPrioHighRdy` goes on. -/
def osCtxSw (k : Kernel) : Kernel :=
  { k with prioCur := k.prioHighRdy, tcbCur := k.tcbAt k.prioHighRdy }

/-- `OS_SchedNew`, and a switch if another task is to run. -/
def osSwitch (k : Kernel) : Kernel :=
  let k := osSchedNew k
  if k.prioHighRdy ≠ k.prioCur then osCtxSw k else k

/-- `OS_Sched`. -/
def osSched (k : Kernel) : Kernel :=
  if k.intNesting = 0 then if k.lockNesting = 0 then osSwitch k else k else k

/-- `OSIntEnter`. -/
def osIntEnter (k : Kernel) : Kernel :=
  if k.running ∧ k.intNesting < 255 then { k with intNesting := k.intNesting + 1 } else k

/-- `OSIntExit`. -/
def osIntExit (k : Kernel) : Kernel :=
  if k.running then
    let k := { k with intNesting := k.intNesting - 1 }
    if k.intNesting = 0 then if k.lockNesting = 0 then osSwitch k else k else k
  else k

/-- `OSSchedLock`. -/
def osSchedLock (k : Kernel) : Kernel :=
  if k.running ∧ k.intNesting = 0 ∧ k.lockNesting < 255 then
    { k with lockNesting := k.lockNesting + 1 }
  else k

/-- `OSSchedUnlock`, and whether it calls `OS_Sched`. -/
def osSchedUnlock (k : Kernel) : Kernel × Bool :=
  if k.running ∧ k.lockNesting > 0 then
    let k := { k with lockNesting := k.lockNesting - 1 }
    (k, k.lockNesting = 0 ∧ k.intNesting = 0)
  else (k, false)

/-- `OSStart`. -/
def osStart (k : Kernel) : Kernel :=
  if k.running then k else { osCtxSw (osSchedNew k) with running := true }

/-! ### Wait lists -/

/-- `OS_EventTaskRemove`. -/
def osEventTaskRemove (k : Kernel) (ptcb : TcbId) (pevent : EventId) : Kernel :=
  let ev := k.event pevent
  k.setEvent pevent { ev with tbl := ev.tbl.clear (k.tcb ptcb).prio }

/-- `OS_EventTaskRdy`: the first task of the wait list gets the event; its priority. -/
def osEventTaskRdy (k : Kernel) (pevent : EventId) (pmsg : ℕ) (msk : BitVec 8)
    (pendStat : PendStat) : Kernel × Prio :=
  let prio := osFirst (k.event pevent).tbl
  let ptcb := k.tcbAt prio
  let c := k.tcb ptcb
  let c := { c with dly := 0, msg := pmsg, stat := c.stat &&& ~~~msk, statPend := pendStat }
  let k := k.setTcb ptcb c
  let k := if c.stat &&& osStatSuspend = osStatRdy then { k with rdy := k.rdy.set c.prio } else k
  (osEventTaskRemove k ptcb pevent, prio)

/-- `OS_EventTaskWait`. -/
def osEventTaskWait (k : Kernel) (pevent : EventId) : Kernel :=
  let k := k.setTcb k.tcbCur { k.cur with eventPtr := some pevent }
  let ev := k.event pevent
  let k := k.setEvent pevent { ev with tbl := ev.tbl.set k.cur.prio }
  { k with rdy := k.rdy.clear k.cur.prio }

/-- `while (pevent->OSEventGrp != 0u) OS_EventTaskRdy(..)`, for at most `n` tasks. -/
def osEventAllRdy : ℕ → Kernel → EventId → BitVec 8 → Kernel
  | 0, k, _, _ => k
  | n + 1, k, pevent, msk =>
      if (k.event pevent).tbl.grp ≠ 0 then
        osEventAllRdy n (osEventTaskRdy k pevent 0 msk .ok).1 pevent msk
      else k

/-! ### Tasks -/

/-- `OS_TCBInit`; the values of a task that were never set do not matter. -/
def osTcbInit (k : Kernel) (prio : Prio) : Kernel × Bool :=
  match k.tcbFreeList with
  | ptcb :: free =>
      let c : OsTcb := {
        prio, stat := osStatRdy, statPend := .ok, dly := 0, eventPtr := none, msg := 0 }
      ({ (k.setTcb ptcb c).setPrioTbl prio (.tcb ptcb) with
          tcbFreeList := free, tcbList := ptcb :: k.tcbList, rdy := k.rdy.set prio }, true)
  | [] => (k, false)

end Kernel

end SerialNet
