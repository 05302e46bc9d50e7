import SerialNet.Kernel.Calls
import SerialNet.Lib.Run

namespace SerialNet

attribute [local instance] neZero_prios neZero_tcbs neZero_events

/-!
# Runs of the kernel

The tasks call the services in any order, and interrupts, the tick among them, come between any two
steps of a task.  A step is a call up to the end of its last critical section (`Kernel.Calls`), its
`OS_Sched`, or what a pend does behind it.  So an interrupt can come between a critical section and
the `OS_Sched` behind it; it does not come between the tests in front of a critical section and the
section, nor between two sections of one call.  A task that is about to call `OS_Sched`, or that
waits in a pend, has this in its `TaskPc`; it goes on when the kernel has made it the current task
again.

The log says what was created, posted and deleted, which task each unit or message was handed to, and
when that task's call returned it.
-/

/-- The two calls that wait on an event. -/
inductive PendKind where
  | sem | q
deriving DecidableEq

/-- Where a task is. -/
inductive TaskPc where
  /-- In its own code. -/
  | user
  /-- Before `OS_Sched`, behind which the call returns. -/
  | sched
  /-- Before the `OS_Sched` of a pend. -/
  | schedPend (kind : PendKind) (pevent : EventId)
  /-- Behind the `OS_Sched` of a pend. -/
  | pend (kind : PendKind) (pevent : EventId)
deriving DecidableEq

/-- What the log of a run records, for the specifications to replay. -/
inductive Note where
  | semCreated (pevent : EventId) (cnt : ℕ)
  | qCreated (pevent : EventId)
  | posted (pevent : EventId) (msg : ℕ)
  | handed (t : TcbId) (pevent : EventId) (msg : ℕ)
  /-- A delete readies a waiting task, whose call returns as if it had got something. -/
  | released (t : TcbId) (pevent : EventId)
  | returned (t : TcbId) (pevent : EventId) (msg : ℕ)
  | flushed (pevent : EventId)
  | deleted (pevent : EventId)
deriving DecidableEq, Repr

/-- The kernel with its tasks. -/
structure OsSystem where
  kernel : Kernel
  pc : TcbId → TaskPc
  log : List Note

/-- The calls of the tasks. -/
inductive OsCall where
  | timeDly (ticks : ℕ)
  | semCreate (cnt : ℕ)
  | semDel (pevent : EventId) (opt : DelOpt)
  | semPend (pevent : EventId) (timeout : ℕ)
  | semPost (pevent : EventId)
  | semAccept (pevent : EventId)
  | qCreate (start size : ℕ)
  | qDel (pevent : EventId) (opt : DelOpt)
  | qPend (pevent : EventId) (timeout : ℕ)
  | qPost (pevent : EventId) (msg : ℕ)
  | qAccept (pevent : EventId)
  | qFlush (pevent : EventId)
  | taskCreate (prio : Prio)
  | taskDel (prio : Option Prio)
  | schedLock
  | schedUnlock
  | nstAllocLock

/-- The calls of interrupt routines. -/
inductive IsrCall where
  | semPost (pevent : EventId)
  | qPost (pevent : EventId) (msg : ℕ)
  | timeTick

/-- What happens in one step.  `sched` is the `OS_Sched` that a call ends with, `resume` is what a
    pend does when the task runs again. -/
inductive OsLabel where
  | start
  | call (c : OsCall)
  | sched
  | resume
  | intEnter
  | isr (c : IsrCall)
  | intExit

/-- What a call leaves behind. -/
structure Performed where
  kernel : Kernel
  pc : TaskPc
  notes : List Note

namespace Kernel

/-! ### Notes -/

/-- The task that the next post to an event readies. -/
def firstWaiter (k : Kernel) (pevent : EventId) : TcbId := k.tcbAt (osFirst (k.event pevent).tbl)

/-- An accepted post, which hands over what it posts if a task waits. -/
def postNotes (k : Kernel) (pevent : EventId) (msg : ℕ) (err : OsError) : List Note :=
  if err = .none then
    .posted pevent msg ::
      if (k.event pevent).tbl.grp ≠ 0 then [.handed (k.firstWaiter pevent) pevent msg] else []
  else []

/-- The tasks that a delete readies. -/
def allRdyNotes : ℕ → Kernel → EventId → BitVec 8 → List Note
  | 0, _, _, _ => []
  | n + 1, k, pevent, msk =>
      if (k.event pevent).tbl.grp ≠ 0 then
        .released (k.firstWaiter pevent) pevent ::
          allRdyNotes n (k.osEventTaskRdy pevent 0 msk .ok).1 pevent msk
      else []

/-- A delete that succeeds, which readies the waiting tasks first. -/
def delNotes (k : Kernel) (pevent : EventId) (opt : DelOpt) (err : OsError) (msk : BitVec 8) :
    List Note :=
  if err = .none then
    (if opt = .always then k.allRdyNotes 64 pevent msk else []) ++ [.deleted pevent]
  else []

/-- The current task has got a unit or message and returns with it. -/
def takeNotes (k : Kernel) (pevent : EventId) (msg : ℕ) : List Note :=
  [.handed k.tcbCur pevent msg, .returned k.tcbCur pevent msg]

end Kernel

/-! ### Steps -/

/-- After a call that calls `OS_Sched` or not. -/
def pcOf (sched : Bool) : TaskPc := if sched then .sched else .user

/-- A call of the current task. -/
def OsCall.perform (k : Kernel) : OsCall → Performed
  | .timeDly ticks =>
      let r := k.osTimeDly ticks
      ⟨r.1, pcOf r.2, []⟩
  | .semCreate cnt =>
      let r := k.osSemCreate cnt
      ⟨r.1, .user, r.2.toList.map fun pevent => .semCreated pevent cnt⟩
  | .semDel pevent opt =>
      let r := k.osSemDel pevent opt
      ⟨r.1, pcOf r.2.2, k.delNotes pevent opt r.2.1 osStatSem⟩
  | .semPend pevent timeout =>
      let r := k.osSemPend pevent timeout
      match r.2 with
      | .returns err msg => ⟨r.1, .user, if err = .none then k.takeNotes pevent msg else []⟩
      | .waits => ⟨r.1, .schedPend .sem pevent, []⟩
  | .semPost pevent =>
      let r := k.osSemPost pevent
      ⟨r.1, pcOf r.2.2, k.postNotes pevent 0 r.2.1⟩
  | .semAccept pevent =>
      let r := k.osSemAccept pevent
      ⟨r.1, .user, if r.2 > 0 then k.takeNotes pevent 0 else []⟩
  | .qCreate start size =>
      let r := k.osQCreate start size
      ⟨r.1, .user, r.2.toList.map .qCreated⟩
  | .qDel pevent opt =>
      let r := k.osQDel pevent opt
      ⟨r.1, pcOf r.2.2, k.delNotes pevent opt r.2.1 osStatQ⟩
  | .qPend pevent timeout =>
      let r := k.osQPend pevent timeout
      match r.2 with
      | .returns err msg => ⟨r.1, .user, if err = .none then k.takeNotes pevent msg else []⟩
      | .waits => ⟨r.1, .schedPend .q pevent, []⟩
  | .qPost pevent msg =>
      let r := k.osQPost pevent msg
      ⟨r.1, pcOf r.2.2, k.postNotes pevent msg r.2.1⟩
  | .qAccept pevent =>
      let r := k.osQAccept pevent
      ⟨r.1, .user, if r.2.1 = .none then k.takeNotes pevent r.2.2 else []⟩
  | .qFlush pevent => ⟨k.osQFlush pevent, .user, [.flushed pevent]⟩
  | .taskCreate prio =>
      let r := k.osTaskCreate prio
      ⟨r.1, pcOf r.2.2, []⟩
  | .taskDel prio =>
      let r := k.osTaskDel prio
      ⟨r.1, pcOf r.2.2, []⟩
  | .schedLock => ⟨k.osSchedLock, .user, []⟩
  | .schedUnlock =>
      let r := k.osSchedUnlock
      ⟨r.1, pcOf r.2, []⟩
  | .nstAllocLock => ⟨k.nstAllocLock.1, .user, []⟩

/-- A call of an interrupt routine: the kernel and the notes. -/
def IsrCall.perform (k : Kernel) : IsrCall → Kernel × List Note
  | .semPost pevent =>
      let r := k.osSemPost pevent
      (r.1, k.postNotes pevent 0 r.2.1)
  | .qPost pevent msg =>
      let r := k.osQPost pevent msg
      (r.1, k.postNotes pevent msg r.2.1)
  | .timeTick => (k.osTimeTick, k.postNotes k.tmrSemSignal 0 (k.osSemPost k.tmrSemSignal).2.1)

/-- The calls that `main` makes before `OSStart`. -/
def OsCall.atBoot : OsCall → Bool
  | .semCreate _ | .qCreate _ _ | .taskCreate _ | .nstAllocLock => true
  | _ => false

/-- A new task starts in its own code. -/
def OsCall.newPc (k : Kernel) (pc : TcbId → TaskPc) : OsCall → TcbId → TaskPc
  | .taskCreate prio =>
      match k.tcbFreeList with
      | ptcb :: _ => if (k.osTaskCreate prio).2.1 = .none then Function.update pc ptcb .user else pc
      | [] => pc
  | _ => pc

/-- A task can make calls; the idle task makes none. -/
def Kernel.InTask (k : Kernel) : Prop := k.running ∧ k.intNesting = 0 ∧ k.cur.prio ≠ osTaskIdlePrio

instance (k : Kernel) : Decidable k.InTask := inferInstanceAs (Decidable (_ ∧ _ ∧ _))

/-- The current task goes on behind `OS_Sched` of a pend. -/
def pendEnd (k : Kernel) : PendKind → EventId → Kernel × OsError × ℕ
  | .sem, pevent =>
      let r := k.osSemPendEnd pevent
      (r.1, r.2, 0)
  | .q, pevent => k.osQPendEnd pevent

/-- A step of the system. -/
def osStep (s : OsSystem) : OsLabel → Option OsSystem
  | .start => if s.kernel.running then none else some { s with kernel := s.kernel.osStart }
  | .call c =>
      if (s.kernel.InTask ∧ s.pc s.kernel.tcbCur = .user) ∨ (¬ s.kernel.running ∧ c.atBoot) then
        let r := c.perform s.kernel
        some {
          kernel := r.kernel
          pc := c.newPc s.kernel (Function.update s.pc s.kernel.tcbCur r.pc)
          log := s.log ++ r.notes }
      else none
  | .sched =>
      if s.kernel.InTask then
        match s.pc s.kernel.tcbCur with
        | .sched => some { s with
            kernel := s.kernel.osSched, pc := Function.update s.pc s.kernel.tcbCur .user }
        | .schedPend kind pevent => some { s with
            kernel := s.kernel.osSched
            pc := Function.update s.pc s.kernel.tcbCur (.pend kind pevent) }
        | _ => none
      else none
  | .resume =>
      if s.kernel.InTask then
        match s.pc s.kernel.tcbCur with
        | .pend kind pevent =>
            let r := pendEnd s.kernel kind pevent
            some {
              kernel := r.1
              pc := Function.update s.pc s.kernel.tcbCur .user
              log := if r.2.1 = .none then s.log ++ [.returned s.kernel.tcbCur pevent r.2.2]
                else s.log }
        | _ => none
      else none
  | .intEnter => if s.kernel.running then some { s with kernel := s.kernel.osIntEnter } else none
  | .isr c =>
      if s.kernel.intNesting > 0 then
        let r := c.perform s.kernel
        some { s with kernel := r.1, log := s.log ++ r.2 }
      else none
  | .intExit =>
      if s.kernel.intNesting > 0 then some { s with kernel := s.kernel.osIntExit } else none

/-! ### The start -/

/-- `OS_InitMisc`, `OS_InitRdyList`, `OS_InitTCBList`, `OS_InitEventList` and `OS_QInit`. -/
def osInitLists : Kernel where
  running := false
  intNesting := 0
  lockNesting := 0
  prioCur := 0
  prioHighRdy := 0
  tcbCur := 0
  rdy := .empty
  tcb := fun _ => ⟨0, osStatRdy, .ok, 0, none, 0⟩
  prioTbl := fun _ => .null
  tcbList := []
  tcbFreeList := List.finRange 22
  event := fun _ => ⟨.unused, none, 0, .empty⟩
  eventFreeList := (List.finRange 20).map (Fin.castLE (by decide))
  q := fun _ => ⟨0, 0, 0, 0, 0, 0⟩
  qFreeList := List.finRange 20
  slots := fun _ => 0
  time := 0
  tmrSemSignal := 0

/-- `OSTmr_Init`: its semaphores and its task. -/
def osTmrInit (k : Kernel) : Kernel :=
  let tmrSem := k.osSemCreate 1
  let tmrSemSignal := tmrSem.1.osSemCreate 0
  ({ tmrSemSignal.1 with tmrSemSignal := tmrSemSignal.2.getD 0 }.osTaskCreate osTaskTmrPrio).1

/-- `OSEventPatch`: ten more events, linked behind the last one of the table. -/
def osEventPatch (k : Kernel) : Kernel :=
  { k with eventFreeList := k.eventFreeList ++ [20, 21, 22, 23, 24, 25, 26, 27, 28, 29] }

/-- `OSInit`. -/
def osInit : Kernel :=
  let k := (osInitLists.osTaskCreate osTaskIdlePrio).1
  let k := (k.osTaskCreate osTaskStatPrio).1
  osEventPatch (osTmrInit k)

/-- The system before the calls of `main`; `OSTmr_Init` has created two semaphores. -/
def osBoot : OsSystem := ⟨osInit, fun _ => .user, [.semCreated 0 1, .semCreated 1 0]⟩

/-! ### What the callers promise -/

/-- The entries of a queue in memory. -/
def OsQ.Covers (pq : OsQ) (i : ℕ) : Prop := pq.start ≤ i ∧ i < pq.qend

/-- A queue gets memory of its own, only queues are flushed, and a task that deletes itself has not
    locked the scheduler. -/
def CallOk (s : OsSystem) : OsLabel → Prop
  | .call (.qCreate start size) => ∀ e, (s.kernel.event e).type = .q → ∀ i,
      (s.kernel.q (s.kernel.qOf e)).Covers i → ¬ (start ≤ i ∧ i < start + size)
  | .call (.qFlush pevent) => (s.kernel.event pevent).type = .q
  | .call (.taskDel prio) => prio.getD s.kernel.cur.prio = s.kernel.cur.prio →
      s.kernel.lockNesting = 0
  | _ => True

end SerialNet
