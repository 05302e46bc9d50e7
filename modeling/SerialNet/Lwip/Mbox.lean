import Mathlib.Logic.Function.Basic
import SerialNet.Lib.CInt
import SerialNet.Lib.Fifo
import SerialNet.Lib.Run

namespace SerialNet

/-!
# Mailboxes of `sys_arch.c`

A mailbox is a queue of the operating system, taken to be a bounded FIFO (`Fifo`) whose post
fails when it is full.  Messages are pointers, kept as numbers; NULL cannot be queued, so the
address of `pvNullPointer` stands for it.

`_sys_mbox_post` waits between its tries, and other tasks run then: a task that posts has its
message and its count of failures in `PostPc`, and one `turn` is one evaluation of the condition
of the loop.  A call counts as returned with its last access to the queue.  `given` and `fetched`
record what the calls have promised and delivered so far.
-/

/-! ### Constants -/

/-- `ERR_OK`. -/
def errOk : ℤ := 0
/-- `ERR_MEM`, the mailbox is full. -/
def errMem : ℤ := -1
/-- `SYS_ARCH_TIMEOUT`, returned when no message came in time. -/
def sysArchTimeout : ℕ := 0xffffffff
/-- `OS_TICKS_PER_SEC`. -/
def osTicksPerSec : ℕ := 100

/-! ### The three calls -/

/-- The pointer that is queued for `msg`; `np` is the address of `pvNullPointer`. -/
def toQueue (np msg : ℕ) : ℕ := if msg = 0 then np else msg

/-- The message that is read from a queued pointer. -/
def fromQueue (np temp : ℕ) : ℕ := if temp = np then 0 else temp

/-- `_sys_mbox_trypost`. -/
def sysMboxTrypost {cap : ℕ} (np : ℕ) (q : Fifo ℕ cap) (msg : ℕ) : Fifo ℕ cap × ℤ :=
  match q.push (toQueue np msg) with
  | some q' => (q', errOk)
  | none => (q, errMem)

/-- The timeout of `_sys_arch_mbox_fetch` in ticks; 0 waits for ever. -/
def ucosTimeout (timeout : ℕ) : ℕ :=
  if timeout ≠ 0 then
    let ticks := u32 (timeout * osTicksPerSec) / 1000
    -- A short wait must not become 0, which waits for ever; `OSQPend` takes 16 bits.
    if ticks < 1 then 1 else if ticks > 65535 then 65535 else ticks
  else 0

/-- The waiting time that `_sys_arch_mbox_fetch` returns for a message, from the tick counter
    before and after. -/
def fetchTime (before after : ℕ) : ℕ :=
  -- An equal or smaller counter is taken for one that has wrapped round.
  let timeoutNew := if after > before then u32 (after - before)
    else u32 (0xffffffff - before + after)
  u32 (u32 (timeoutNew * 1000) / osTicksPerSec + 1 : ℕ)

/-- `_sys_arch_mbox_fetch` when `OSQPend` returns: the message, the return value and the queue.
    Without a message it returns only by a timeout. -/
def sysArchMboxFetch {cap : ℕ} (np : ℕ) (q : Fifo ℕ cap) (timeout before after : ℕ) :
    Option (ℕ × ℕ × Fifo ℕ cap) :=
  match q.pop with
  | some (temp, q') => some (fromQueue np temp, fetchTime before after, q')
  | none => if ucosTimeout timeout = 0 then none else some (0, sysArchTimeout, q)

/-! ### The system -/

/-- Where a task is in `_sys_mbox_post`. -/
inductive PostPc where
  | idle
  | posting (msg i : ℕ)
deriving DecidableEq

/-- A mailbox with its tasks. -/
structure Mbox (τ : Type) (cap : ℕ) where
  queue : Fifo ℕ cap
  pc : τ → PostPc
  /-- The messages of posts that have returned and of tryposts that returned `ERR_OK`. -/
  given : List ℕ
  /-- The messages that fetches have returned. -/
  fetched : List ℕ

/-- What a task can do: call `_sys_mbox_post`, go on with it, or make one of the other calls. -/
inductive MboxAct (τ : Type) where
  | post (t : τ) (msg : ℕ)
  | turn (t : τ)
  | trypost (t : τ) (msg : ℕ)
  | fetch (t : τ) (timeout before after : ℕ)

section System

variable {τ : Type} [DecidableEq τ] {cap : ℕ}

/-- One evaluation of `while((i<10) && (OSQPost(..) != OS_ERR_NONE))` by task `t`. -/
def postTurn (np : ℕ) (s : Mbox τ cap) (t : τ) (msg i : ℕ) : Mbox τ cap :=
  let returns : Mbox τ cap :=
    { s with pc := Function.update s.pc t .idle, given := s.given ++ [msg] }
  if i < 10 then
    match s.queue.push (toQueue np msg) with
    | some q => { returns with queue := q }
    -- `i++`, and `OSTimeDly(5)` lets the other tasks run.
    | none => { s with pc := Function.update s.pc t (.posting msg (i + 1)) }
  -- Ten failures: the call returns like after a success, without having queued `msg`.
  else returns

/-- Perform one action; a task inside `_sys_mbox_post` can only go on with it. -/
def mboxStep (np : ℕ) (s : Mbox τ cap) : MboxAct τ → Option (Mbox τ cap)
  | .post t msg =>
      if s.pc t = .idle then some { s with pc := Function.update s.pc t (.posting msg 0) }
      else none
  | .turn t =>
      match s.pc t with
      | .idle => none
      | .posting msg i => some (postTurn np s t msg i)
  | .trypost t msg =>
      if s.pc t = .idle then
        let r := sysMboxTrypost np s.queue msg
        some { s with queue := r.1, given := if r.2 = errOk then s.given ++ [msg] else s.given }
      else none
  | .fetch t timeout before after =>
      if s.pc t = .idle then
        (sysArchMboxFetch np s.queue timeout before after).map fun r =>
          { s with queue := r.2.2
                   fetched := if r.2.1 ≠ sysArchTimeout then s.fetched ++ [r.1] else s.fetched }
      else none

/-- An empty mailbox that no task is posting to. -/
def Mbox.start (τ : Type) (cap : ℕ) : Mbox τ cap := ⟨.empty, fun _ => .idle, [], []⟩

end System

/-- A fetch that got a message does not report a timeout. -/
theorem fetchTime_ne_timeout (before after : ℕ) : fetchTime before after ≠ sysArchTimeout := by
  have hlt := u32_lt ((if after > before then u32 (after - before)
    else u32 (0xffffffff - before + after) : ℕ) * 1000 : ℤ)
  unfold fetchTime sysArchTimeout osTicksPerSec
  dsimp only
  rw [u32_natCast (by push_cast at hlt ⊢; omega)]
  push_cast at hlt ⊢
  omega

end SerialNet
