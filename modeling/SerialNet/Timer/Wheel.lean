import SerialNet.Lib.CInt
import SerialNet.Lib.LinkedList
import Mathlib.Logic.Function.Basic

namespace SerialNet

/-!
# The timer wheel — `os_tmr.c` and the timers of `util.c`

A running timer is in the doubly linked list of the spoke `OSTmrMatch % OS_TMR_CFG_WHEEL_SIZE`, an
unused one in the free list, which `OSTmrNext` links.  A pointer to a timer is an entry of
`OSTmrTbl`, and NULL is `none`.  `OSTmr_Unlink` writes through `OSTmrPrev` of a timer that is not
the first of its spoke; a write through NULL gives `none`.

The names of timers and the argument checks that `OS_ARG_CHK_EN` switches off are left out, and so
is the semaphore `OSTmrSem`, which nothing uses.
-/

/-! ### Timers -/

/-- An entry of `OSTmrTbl`: `OS_TMR_CFG_MAX` timers. -/
abbrev TmrId := Fin 16

theorem neZero_tmrs : NeZero 16 := ⟨by decide⟩

attribute [local instance] neZero_tmrs

/-- `OS_TMR_CFG_WHEEL_SIZE`, the number of spokes. -/
def osTmrCfgWheelSize : ℕ := 8

/-- `OS_TMR_TYPE`. -/
def osTmrType : ℕ := 100

/-- `OSTmrState`. -/
inductive TmrState where
  | unused | stopped | completed | running
deriving DecidableEq, Repr

/-- `OS_TMR_OPT_NONE`: stop without calling the callback. -/
def osTmrOptNone : ℕ := 0
/-- `OS_TMR_OPT_ONE_SHOT`: expire once. -/
def osTmrOptOneShot : ℕ := 1
/-- `OS_TMR_OPT_PERIODIC`: start again after every expiry. -/
def osTmrOptPeriodic : ℕ := 2
/-- `OS_TMR_OPT_CALLBACK`: stop and call the callback with its own argument. -/
def osTmrOptCallback : ℕ := 3
/-- `OS_TMR_OPT_CALLBACK_ARG`: stop and call it with the argument of the stop. -/
def osTmrOptCallbackArg : ℕ := 4

/-- `OS_TMR`. -/
structure OsTmr where
  type : ℕ
  /-- A function pointer as a number. -/
  callback : Option ℕ
  callbackArg : ℕ
  next : Option TmrId
  prev : Option TmrId
  /-- `OSTmrMatch`. -/
  matchTime : ℕ
  dly : ℕ
  period : ℕ
  opt : ℕ
  state : TmrState
deriving DecidableEq

/-- `OS_TMR_WHEEL`. -/
structure OsTmrWheel where
  first : Option TmrId
  entries : ℕ

/-- The variables of `os_tmr.c`. -/
@[ext]
structure Timers where
  tbl : TmrId → OsTmr
  wheel : ℕ → OsTmrWheel
  /-- `OSTmrTime`, 32 bits. -/
  time : ℕ
  freeList : Option TmrId
  used : ℕ
  free : ℕ

/-- The `OS_ERR_TMR_*` codes that the calls return. -/
inductive TmrError where
  | none | nonAvail | isr | invalidType | inactive | stopped | noCallback | invalidOpt
deriving DecidableEq, Repr

/-- `OS_TMR_LINK_DLY` and `OS_TMR_LINK_PERIODIC`. -/
inductive LinkType where
  | dly | periodic
deriving DecidableEq

namespace Timers

/-- A store to a timer. -/
def setTmr (T : Timers) (ptmr : TmrId) (c : OsTmr) : Timers :=
  { T with tbl := Function.update T.tbl ptmr c }

/-- A store to a spoke of the wheel. -/
def setWheel (T : Timers) (spoke : ℕ) (w : OsTmrWheel) : Timers :=
  { T with wheel := Function.update T.wheel spoke w }

/-- A store to a timer leaves the wheel alone. -/
@[simp] theorem setTmr_wheel (T : Timers) (ptmr : TmrId) (c : OsTmr) :
    (T.setTmr ptmr c).wheel = T.wheel := rfl

/-- `OSTmr_Init`. -/
def osTmrInit : Timers where
  tbl := fun ix =>
    { type := osTmrType, callback := none, callbackArg := 0
      next := if h : ix.val + 1 < 16 then some ⟨ix.val + 1, h⟩ else none
      prev := none, matchTime := 0, dly := 0, period := 0, opt := osTmrOptNone, state := .unused }
  wheel := fun _ => ⟨none, 0⟩
  time := 0
  freeList := some 0
  used := 0
  free := 16

/-! ### The lists -/

/-- `OSTmr_Alloc`. -/
def osTmrAlloc (T : Timers) : Timers × Option TmrId :=
  match T.freeList with
  | none => (T, none)
  | some ptmr =>
      ({ T.setTmr ptmr { T.tbl ptmr with next := none, prev := none } with
          freeList := (T.tbl ptmr).next
          used := u16 (T.used + 1)
          free := u16 (T.free - 1) }, some ptmr)

/-- `OSTmr_Free`. -/
def osTmrFree (T : Timers) (ptmr : TmrId) : Timers :=
  { T.setTmr ptmr
      { T.tbl ptmr with
        state := .unused, opt := osTmrOptNone, period := 0, matchTime := 0
        callback := none, callbackArg := 0, prev := none, next := T.freeList } with
    freeList := some ptmr
    used := u16 (T.used - 1)
    free := u16 (T.free + 1) }

/-- The time that `OSTmr_Link` gives a timer. -/
def linkMatch (T : Timers) (c : OsTmr) : LinkType → ℕ
  | .periodic => u32 (c.period + T.time)
  | .dly => if c.dly = 0 then u32 (c.period + T.time) else u32 (c.dly + T.time)

/-- `OSTmr_Link`. -/
def osTmrLink (T : Timers) (ptmr : TmrId) (type : LinkType) : Timers :=
  let m := T.linkMatch (T.tbl ptmr) type
  let spoke := m % osTmrCfgWheelSize
  let T := T.setTmr ptmr { T.tbl ptmr with state := .running, matchTime := m }
  let T :=
    match (T.wheel spoke).first with
    | none => (T.setWheel spoke ⟨some ptmr, 1⟩).setTmr ptmr { T.tbl ptmr with next := none }
    | some ptmr1 =>
        let T := T.setWheel spoke ⟨some ptmr, u16 ((T.wheel spoke).entries + 1)⟩
        let T := T.setTmr ptmr { T.tbl ptmr with next := some ptmr1 }
        T.setTmr ptmr1 { T.tbl ptmr1 with prev := some ptmr }
  T.setTmr ptmr { T.tbl ptmr with prev := none }

/-- The node that a pointer leads to gets another back link. -/
def setPrev (T : Timers) (ptmr : Option TmrId) (prev : Option TmrId) : Timers :=
  match ptmr with
  | none => T
  | some ptmr2 => T.setTmr ptmr2 { T.tbl ptmr2 with prev := prev }

/-- `OSTmr_Unlink`; the second case writes `ptmr1->OSTmrNext`. -/
def osTmrUnlink (T : Timers) (ptmr : TmrId) : Option Timers :=
  let c := T.tbl ptmr
  let spoke := c.matchTime % osTmrCfgWheelSize
  let cut :=
    if (T.wheel spoke).first = some ptmr then
      some ((T.setWheel spoke { T.wheel spoke with first := c.next }).setPrev c.next none)
    else
      c.prev.map fun ptmr1 =>
        (T.setTmr ptmr1 { T.tbl ptmr1 with next := c.next }).setPrev c.next (some ptmr1)
  cut.map fun T =>
    (T.setTmr ptmr { T.tbl ptmr with state := .stopped, next := none, prev := none }).setWheel
      spoke { T.wheel spoke with entries := u16 ((T.wheel spoke).entries - 1) }

/-! ### Calls

`isr` says whether `OSIntNesting > 0`.  Between `OSSchedLock` and `OSSchedUnlock` no other task
runs, so that a call is one step.
-/

/-- `OSTmrCreate`. -/
def osTmrCreate (T : Timers) (isr : Bool) (dly period opt : ℕ) (callback : Option ℕ) (arg : ℕ) :
    Timers × Option TmrId × TmrError :=
  if isr then (T, none, .isr)
  else
    match T.osTmrAlloc with
    | (T, none) => (T, none, .nonAvail)
    | (T, some ptmr) =>
        (T.setTmr ptmr
          { T.tbl ptmr with
            state := .stopped, dly := dly, period := period, opt := opt
            callback := callback, callbackArg := arg }, some ptmr, .none)

/-- `OSTmrDel`. -/
def osTmrDel (T : Timers) (isr : Bool) (ptmr : TmrId) : Option (Timers × Bool × TmrError) :=
  if (T.tbl ptmr).type ≠ osTmrType then some (T, false, .invalidType)
  else if isr then some (T, false, .isr)
  else
    match (T.tbl ptmr).state with
    | .running => (T.osTmrUnlink ptmr).map fun T => (T.osTmrFree ptmr, true, .none)
    | .stopped | .completed => some (T.osTmrFree ptmr, true, .none)
    | .unused => some (T, false, .inactive)

/-- `OSTmrRemainGet`. -/
def osTmrRemainGet (T : Timers) (isr : Bool) (ptmr : TmrId) : ℕ × TmrError :=
  let c := T.tbl ptmr
  if c.type ≠ osTmrType then (0, .invalidType)
  else if isr then (0, .isr)
  else
    match c.state with
    | .running => (u32 (c.matchTime - T.time), .none)
    | .stopped =>
        (if c.opt = osTmrOptPeriodic then if c.dly = 0 then c.period else c.dly else c.dly, .none)
    | .completed => (0, .none)
    | .unused => (0, .inactive)

/-- `OSTmrStart`. -/
def osTmrStart (T : Timers) (isr : Bool) (ptmr : TmrId) : Option (Timers × Bool × TmrError) :=
  if (T.tbl ptmr).type ≠ osTmrType then some (T, false, .invalidType)
  else if isr then some (T, false, .isr)
  else
    match (T.tbl ptmr).state with
    | .running => (T.osTmrUnlink ptmr).map fun T => (T.osTmrLink ptmr .dly, true, .none)
    | .stopped | .completed => some (T.osTmrLink ptmr .dly, true, .none)
    | .unused => some (T, false, .inactive)

/-- What `OSTmrStop` calls, and its error. -/
def stopCall (c : OsTmr) (opt arg : ℕ) : Option (ℕ × ℕ) × TmrError :=
  if opt = osTmrOptCallback then
    (c.callback.map (·, c.callbackArg), if c.callback.isSome then .none else .noCallback)
  else if opt = osTmrOptCallbackArg then
    (c.callback.map (·, arg), if c.callback.isSome then .none else .noCallback)
  else if opt = osTmrOptNone then (none, .none)
  else (none, .invalidOpt)

/-- `OSTmrStop`, and the callback that it calls with its argument. -/
def osTmrStop (T : Timers) (isr : Bool) (ptmr : TmrId) (opt arg : ℕ) :
    Option (Timers × Bool × TmrError × Option (ℕ × ℕ)) :=
  if (T.tbl ptmr).type ≠ osTmrType then some (T, false, .invalidType, none)
  else if isr then some (T, false, .isr, none)
  else
    match (T.tbl ptmr).state with
    | .running => (T.osTmrUnlink ptmr).map fun T =>
        (T, true, (stopCall (T.tbl ptmr) opt arg).2, (stopCall (T.tbl ptmr) opt arg).1)
    | .stopped | .completed => some (T, true, .stopped, none)
    | .unused => some (T, false, .inactive, none)

/-! ### The timer task -/

/-- The beginning of a turn of `OSTmr_Task`: one more tick. -/
def advance (T : Timers) : Timers := { T with time := u32 (T.time + 1) }

/-- A timer of the current spoke that expires; the wheel it is taken out of may be corrupt. -/
def expire (T : Timers) (ptmr : TmrId) : Option Timers :=
  (T.osTmrUnlink ptmr).map fun T =>
    if (T.tbl ptmr).opt = osTmrOptPeriodic then T.osTmrLink ptmr .periodic
    else T.setTmr ptmr { T.tbl ptmr with state := .completed }

end Timers

/-! ### Steps

The walk along a spoke keeps the pointer to the next timer while a callback runs.  The scheduler is
locked during the walk, so that the only calls of tasks in it are those of callbacks.
-/

/-- Where `OSTmr_Task` is. -/
inductive TmrPc where
  /-- It waits for `OSTmrSemSignal`. -/
  | idle
  /-- Before the test of the `while` loop. -/
  | walk (ptmr : Option TmrId)
  /-- A callback runs, behind which the loop goes on. -/
  | callback (next : Option TmrId)
  /-- `OSTmr_Unlink` wrote through NULL. -/
  | fault
deriving DecidableEq

/-- A call of the timer module, or one of the two assignments of `NST_SetTimer`. -/
inductive TmrCall where
  | create (dly period opt : ℕ) (callback : Option ℕ) (arg : ℕ)
  | del (ptmr : TmrId)
  | start (ptmr : TmrId)
  | stop (ptmr : TmrId) (opt arg : ℕ)
  | setPeriod (ptmr : TmrId) (period : ℕ)
  | setDly (ptmr : TmrId) (dly : ℕ)

/-- A timer expires, or is stopped with a callback, and its callback is called with an argument. -/
inductive TmrNote where
  | expired (ptmr : TmrId) (call : Option (ℕ × ℕ))
  | stopped (ptmr : TmrId) (call : ℕ × ℕ)
deriving DecidableEq

/-- The timers, where `OSTmr_Task` is, and what has happened so far. -/
structure TmrSystem where
  timers : Timers
  pc : TmrPc
  log : List TmrNote

/-- A call, and the notes.  Times have the type `INT32U`, options `INT8U`. -/
def TmrCall.perform (T : Timers) (isr : Bool) : TmrCall → Option (Timers × List TmrNote)
  | .create dly period opt callback arg =>
      some ((T.osTmrCreate isr (u32 dly) (u32 period) (u8 opt) callback arg).1, [])
  | .del ptmr => (T.osTmrDel isr ptmr).map fun r => (r.1, [])
  | .start ptmr => (T.osTmrStart isr ptmr).map fun r => (r.1, [])
  | .stop ptmr opt arg =>
      (T.osTmrStop isr ptmr (u8 opt) arg).map fun r =>
        (r.1, r.2.2.2.toList.map fun call => .stopped ptmr call)
  | .setPeriod ptmr period => some (T.setTmr ptmr { T.tbl ptmr with period := u32 period }, [])
  | .setDly ptmr dly => some (T.setTmr ptmr { T.tbl ptmr with dly := u32 dly }, [])

/-- What happens in one step. -/
inductive TmrLabel where
  /-- A call of a task or callback, or of an interrupt routine. -/
  | call (isr : Bool) (c : TmrCall)
  /-- `OSTmr_Task` gets `OSTmrSemSignal`. -/
  | tick
  /-- A turn of the loop. -/
  | visit
  /-- A callback returns. -/
  | ret

/-- The calls that can be made: the scheduler is locked in the walk. -/
def TmrPc.Calls (isr : Bool) : TmrPc → Prop
  | .idle | .callback _ => True
  | .walk _ => isr = true
  | .fault => False

instance (isr : Bool) : DecidablePred (TmrPc.Calls isr)
  | .idle | .callback _ => inferInstanceAs (Decidable True)
  | .walk _ => inferInstanceAs (Decidable (isr = true))
  | .fault => inferInstanceAs (Decidable False)

namespace TmrSystem

/-- The turn of the loop for a timer. -/
def visit (s : TmrSystem) (ptmr : TmrId) : TmrSystem :=
  let next := (s.timers.tbl ptmr).next
  if s.timers.time = (s.timers.tbl ptmr).matchTime then
    match s.timers.expire ptmr with
    | none => { s with pc := .fault }
    | some T =>
        let call := (T.tbl ptmr).callback.map (·, (T.tbl ptmr).callbackArg)
        { timers := T
          pc := if call.isSome then .callback next else .walk next
          log := s.log ++ [.expired ptmr call] }
  else { s with pc := .walk next }

end TmrSystem

/-- One step; a callback's own calls are steps between `visit` and its return. -/
def tmrStep (s : TmrSystem) : TmrLabel → Option TmrSystem
  | .call isr c =>
      if s.pc.Calls isr then
        match c.perform s.timers isr with
        | none => some { s with pc := .fault }
        | some r => some { s with timers := r.1, log := s.log ++ r.2 }
      else none
  | .tick =>
      if s.pc = .idle then
        let T := s.timers.advance
        some { s with timers := T, pc := .walk (T.wheel (T.time % osTmrCfgWheelSize)).first }
      else none
  | .visit =>
      match s.pc with
      | .walk none => some { s with pc := .idle }
      | .walk (some ptmr) => some (s.visit ptmr)
      | _ => none
  | .ret =>
      match s.pc with
      | .callback next => some { s with pc := .walk next }
      | _ => none

/-- The system behind `OSTmr_Init`. -/
def tmrBoot : TmrSystem := ⟨.osTmrInit, .idle, []⟩

end SerialNet
