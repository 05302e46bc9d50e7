import SerialNet.Kernel.Core

namespace SerialNet

open PrioTable

attribute [local instance] neZero_prios

/-!
# The services of the kernel — `os_sem.c`, `os_q.c`, `os_time.c`, `os_task.c`, `os_mutex.c`

The services that the firmware calls.  A call is one step up to the end of its critical section, and
says whether it goes on with `OS_Sched`.  So the tests of the type, of `OSIntNesting` and of
`OSLockNesting` that a pend or a post makes in front of its critical section belong to the step, and
so do both sections of `OSTaskCreate` and of `OSTaskDel`, and the whole of `OSTimeTick`.  A pend
that has to wait ends with `OS_Sched`, too; what it does when the task runs again is `osSemPendEnd`
or `osQPendEnd`.

Names and the argument checks that `OS_ARG_CHK_EN` switches off are left out.
-/

/-! ### Errors and results -/

/-- The `OS_ERR_*` codes that the calls of the model return. -/
inductive OsError where
  | none | eventType | pendIsr | pendLocked | timeout | pendAbort | semOvf | qFull | qEmpty
  | createIsr | delIsr | taskWaiting | invalidOpt | taskDelIsr | taskDelIdle | taskNotExist | taskDel
  | taskCreateIsr | prioExist | taskNoMoreTcb | peventNull
deriving DecidableEq, Repr

/-- The first part of a pend returns, or waits with `OS_Sched`. -/
inductive PendResult where
  | returns (err : OsError) (msg : ℕ)
  | waits
deriving DecidableEq

/-- The option of a delete. -/
inductive DelOpt where
  | noPend | always | other
deriving DecidableEq

namespace Kernel

/-! ### Semaphores -/

/-- `OSSemCreate`. -/
def osSemCreate (k : Kernel) (cnt : ℕ) : Kernel × Option EventId :=
  if k.intNesting > 0 then (k, none)
  else
    match k.eventFreeList with
    | pevent :: free =>
        ({ k with eventFreeList := free }.setEvent pevent ⟨.sem, none, cnt, .empty⟩, some pevent)
    | [] => (k, none)

/-- The event goes back to the free list. -/
def osEventFree (k : Kernel) (pevent : EventId) : Kernel :=
  { k.setEvent pevent ⟨.unused, none, 0, (k.event pevent).tbl⟩ with
    eventFreeList := pevent :: k.eventFreeList }

/-- `OSSemDel`, and whether it calls `OS_Sched`. -/
def osSemDel (k : Kernel) (pevent : EventId) (opt : DelOpt) : Kernel × OsError × Bool :=
  if (k.event pevent).type ≠ .sem then (k, .eventType, false)
  else if k.intNesting > 0 then (k, .delIsr, false)
  else
    let tasksWaiting : Bool := (k.event pevent).tbl.grp ≠ 0
    match opt with
    | .noPend => if tasksWaiting then (k, .taskWaiting, false)
        else (osEventFree k pevent, .none, false)
    | .always => (osEventFree (osEventAllRdy 64 k pevent osStatSem) pevent, .none, tasksWaiting)
    | .other => (k, .invalidOpt, false)

/-- The first part of `OSSemPend`. -/
def osSemPend (k : Kernel) (pevent : EventId) (timeout : ℕ) : Kernel × PendResult :=
  let ev := k.event pevent
  if ev.type ≠ .sem then (k, .returns .eventType 0)
  else if k.intNesting > 0 then (k, .returns .pendIsr 0)
  else if k.lockNesting > 0 then (k, .returns .pendLocked 0)
  else if ev.cnt > 0 then (k.setEvent pevent { ev with cnt := ev.cnt - 1 }, .returns .none 0)
  else
    let c := k.cur
    let c := { c with stat := c.stat ||| osStatSem, statPend := .ok, dly := timeout }
    (osEventTaskWait (k.setTcb k.tcbCur c) pevent, .waits)

/-- The second part of `OSSemPend`. -/
def osSemPendEnd (k : Kernel) (pevent : EventId) : Kernel × OsError :=
  let r : Kernel × OsError :=
    match k.cur.statPend with
    | .ok => (k, .none)
    | .abort => (k, .pendAbort)
    | .timeout => (osEventTaskRemove k k.tcbCur pevent, .timeout)
  (r.1.setTcb k.tcbCur { r.1.cur with stat := osStatRdy, statPend := .ok, eventPtr := none }, r.2)

/-- `OSSemPost`, and whether it calls `OS_Sched`. -/
def osSemPost (k : Kernel) (pevent : EventId) : Kernel × OsError × Bool :=
  let ev := k.event pevent
  if ev.type ≠ .sem then (k, .eventType, false)
  else if ev.tbl.grp ≠ 0 then ((osEventTaskRdy k pevent 0 osStatSem .ok).1, .none, true)
  else if ev.cnt < 65535 then (k.setEvent pevent { ev with cnt := ev.cnt + 1 }, .none, false)
  else (k, .semOvf, false)

/-- `OSSemAccept`: the count. -/
def osSemAccept (k : Kernel) (pevent : EventId) : Kernel × ℕ :=
  let ev := k.event pevent
  if ev.type ≠ .sem then (k, 0)
  else (if ev.cnt > 0 then k.setEvent pevent { ev with cnt := ev.cnt - 1 } else k, ev.cnt)

/-! ### Queues -/

/-- `OSQCreate`. -/
def osQCreate (k : Kernel) (start size : ℕ) : Kernel × Option EventId :=
  if k.intNesting > 0 then (k, none)
  else
    match k.eventFreeList with
    | pevent :: free =>
        match k.qFreeList with
        | pq :: qfree =>
            let k := { k with eventFreeList := free, qFreeList := qfree }
            let k := k.setQ pq ⟨start, start + size, start, start, size, 0⟩
            (k.setEvent pevent ⟨.q, some pq, 0, .empty⟩, some pevent)
        | [] => (k, none)
    | [] => (k, none)

/-- The queue of an event of type `OS_EVENT_TYPE_Q`. -/
def qOf (k : Kernel) (pevent : EventId) : QId := (k.event pevent).ptr.getD 0

/-- The event and its queue go back to the free lists. -/
def osQFree (k : Kernel) (pevent : EventId) : Kernel :=
  osEventFree { k with qFreeList := k.qOf pevent :: k.qFreeList } pevent

/-- `OSQDel`, and whether it calls `OS_Sched`. -/
def osQDel (k : Kernel) (pevent : EventId) (opt : DelOpt) : Kernel × OsError × Bool :=
  if (k.event pevent).type ≠ .q then (k, .eventType, false)
  else if k.intNesting > 0 then (k, .delIsr, false)
  else
    let tasksWaiting : Bool := (k.event pevent).tbl.grp ≠ 0
    match opt with
    | .noPend => if tasksWaiting then (k, .taskWaiting, false) else (osQFree k pevent, .none, false)
    | .always => (osQFree (osEventAllRdy 64 k pevent osStatQ) pevent, .none, tasksWaiting)
    | .other => (k, .invalidOpt, false)

/-- `OSQFlush`. -/
def osQFlush (k : Kernel) (pevent : EventId) : Kernel :=
  let pq := k.q (k.qOf pevent)
  k.setQ (k.qOf pevent) { pq with qin := pq.start, qout := pq.start, entries := 0 }

/-- `pmsg = *pq->OSQOut++`, with the step from the end to the start. -/
def osQTake (k : Kernel) (i : QId) : Kernel × ℕ :=
  let pq := k.q i
  let qout := pq.qout + 1
  (k.setQ i { pq with entries := pq.entries - 1, qout := if qout = pq.qend then pq.start else qout },
    k.slots pq.qout)

/-- `*pq->OSQIn++ = pmsg`, with the step from the end to the start. -/
def osQPut (k : Kernel) (i : QId) (pmsg : ℕ) : Kernel :=
  let pq := k.q i
  let qin := pq.qin + 1
  { k.setQ i { pq with entries := pq.entries + 1, qin := if qin = pq.qend then pq.start else qin } with
    slots := Function.update k.slots pq.qin pmsg }

/-- `OSQAccept`. -/
def osQAccept (k : Kernel) (pevent : EventId) : Kernel × OsError × ℕ :=
  if (k.event pevent).type ≠ .q then (k, .eventType, 0)
  else if (k.q (k.qOf pevent)).entries > 0 then
    let r := osQTake k (k.qOf pevent)
    (r.1, .none, r.2)
  else (k, .qEmpty, 0)

/-- The first part of `OSQPend`. -/
def osQPend (k : Kernel) (pevent : EventId) (timeout : ℕ) : Kernel × PendResult :=
  if (k.event pevent).type ≠ .q then (k, .returns .eventType 0)
  else if k.intNesting > 0 then (k, .returns .pendIsr 0)
  else if k.lockNesting > 0 then (k, .returns .pendLocked 0)
  else if (k.q (k.qOf pevent)).entries > 0 then
    let r := osQTake k (k.qOf pevent)
    (r.1, .returns .none r.2)
  else
    let c := k.cur
    let c := { c with stat := c.stat ||| osStatQ, statPend := .ok, dly := timeout }
    (osEventTaskWait (k.setTcb k.tcbCur c) pevent, .waits)

/-- The second part of `OSQPend`. -/
def osQPendEnd (k : Kernel) (pevent : EventId) : Kernel × OsError × ℕ :=
  let r : Kernel × OsError × ℕ :=
    match k.cur.statPend with
    | .ok => (k, .none, k.cur.msg)
    | .abort => (k, .pendAbort, 0)
    | .timeout => (osEventTaskRemove k k.tcbCur pevent, .timeout, 0)
  (r.1.setTcb k.tcbCur
    { r.1.cur with stat := osStatRdy, statPend := .ok, eventPtr := none, msg := 0 }, r.2)

/-- `OSQPost`, and whether it calls `OS_Sched`. -/
def osQPost (k : Kernel) (pevent : EventId) (pmsg : ℕ) : Kernel × OsError × Bool :=
  if (k.event pevent).type ≠ .q then (k, .eventType, false)
  else if (k.event pevent).tbl.grp ≠ 0 then
    ((osEventTaskRdy k pevent pmsg osStatQ .ok).1, .none, true)
  else if (k.q (k.qOf pevent)).entries ≥ (k.q (k.qOf pevent)).size then (k, .qFull, false)
  else (osQPut k (k.qOf pevent) pmsg, .none, false)

/-! ### Time -/

/-- `OSTimeDly`, and whether it calls `OS_Sched`. -/
def osTimeDly (k : Kernel) (ticks : ℕ) : Kernel × Bool :=
  if k.intNesting > 0 then (k, false)
  else if k.lockNesting > 0 then (k, false)
  else if ticks > 0 then
    ({ k with rdy := k.rdy.clear k.cur.prio }.setTcb k.tcbCur { k.cur with dly := ticks }, true)
  else (k, false)

/-- What a tick does with a task that is delayed. -/
def tickTcb (c : OsTcb) : OsTcb :=
  if c.dly - 1 = 0 then
    if c.stat &&& osStatPendAny ≠ osStatRdy then
      { c with dly := 0, stat := c.stat &&& ~~~osStatPendAny, statPend := .timeout }
    else { c with dly := 0, statPend := .ok }
  else { c with dly := c.dly - 1 }

/-- The body of the loop of `OSTimeTick`. -/
def tickTask (k : Kernel) (ptcb : TcbId) : Kernel :=
  if (k.tcb ptcb).dly ≠ 0 then
    let c := tickTcb (k.tcb ptcb)
    let k := k.setTcb ptcb c
    if c.dly = 0 ∧ c.stat &&& osStatSuspend = osStatRdy then { k with rdy := k.rdy.set c.prio }
    else k
  else k

/-- The loop of `OSTimeTick`, which the idle task ends. -/
def tickLoop : Kernel → List TcbId → Kernel
  | k, [] => k
  | k, ptcb :: next =>
      if (k.tcb ptcb).prio ≠ osTaskIdlePrio then tickLoop (tickTask k ptcb) next else k

/-- `OSTimeTick`.  `OSTimeTickHook` calls `OSTmrSignal` at every tick, as `OS_TMR_CFG_TICKS_PER_SEC`
    is `OS_TICKS_PER_SEC`; the step mode of `OSTickStepState` is off. -/
def osTimeTick (k : Kernel) : Kernel :=
  let k := (osSemPost k k.tmrSemSignal).1
  let k := { k with time := u32 (k.time + 1) }
  if k.running then tickLoop k k.tcbList else k

/-! ### Tasks -/

/-- `OSTaskCreate` and `OSTaskCreateExt`, and whether they call `OS_Sched`. -/
def osTaskCreate (k : Kernel) (prio : Prio) : Kernel × OsError × Bool :=
  if k.intNesting > 0 then (k, .taskCreateIsr, false)
  else if k.prioTbl prio = .null then
    let r := osTcbInit (k.setPrioTbl prio .reserved) prio
    if r.2 then (r.1, .none, k.running) else (r.1.setPrioTbl prio .null, .taskNoMoreTcb, false)
  else (k, .prioExist, false)

/-- `OSTaskDel`, and whether it calls `OS_Sched`; `none` is `OS_PRIO_SELF`.  `OSLockNesting` is as
    before behind `OS_Dummy`. -/
def osTaskDel (k : Kernel) (prio : Option Prio) : Kernel × OsError × Bool :=
  if k.intNesting > 0 then (k, .taskDelIsr, false)
  else if prio = some osTaskIdlePrio then (k, .taskDelIdle, false)
  else
    let prio := prio.getD k.cur.prio
    match k.prioTbl prio with
    | .null => (k, .taskNotExist, false)
    | .reserved => (k, .taskDel, false)
    | .tcb ptcb =>
        let c := k.tcb ptcb
        let k := { k with rdy := k.rdy.clear c.prio }
        let k := match c.eventPtr with
          | some pevent => osEventTaskRemove k ptcb pevent
          | none => k
        let k := k.setTcb ptcb { c with dly := 0, stat := osStatRdy, statPend := .ok }
        let k := k.setPrioTbl prio .null
        ({ k with tcbList := k.tcbList.erase ptcb, tcbFreeList := ptcb :: k.tcbFreeList },
          .none, k.running)

/-! ### Mutexes -/

/-- `OSMutexCreate`. -/
def osMutexCreate (k : Kernel) (prio : Prio) : Kernel × Option EventId × OsError :=
  if k.intNesting > 0 then (k, none, .createIsr)
  else if k.prioTbl prio ≠ .null then (k, none, .prioExist)
  else
    match k.eventFreeList with
    | pevent :: free =>
        ({ k.setPrioTbl prio .reserved with eventFreeList := free }.setEvent pevent
          ⟨.mutex, none, prio.val * 256 + 255, .empty⟩, some pevent, .none)
    | [] => (k, none, .peventNull)

/-- `NST_ALLOC_LOCK`; `OS_LOWEST_PRIO` is the priority of the idle task. -/
def nstAllocLock (k : Kernel) : Kernel × Option EventId :=
  let r := osMutexCreate k 63
  (r.1, r.2.1)

end Kernel

end SerialNet
