import Mathlib.Algebra.Group.Nat.Defs
import Mathlib.Order.Lattice
import SerialNet.Lwip.Mbox

namespace SerialNet

/-!
# Waiting times of `sys_arch.c`

`_sys_arch_mbox_fetch` and `_sys_arch_sem_wait` convert milliseconds to ticks on the way in and
ticks to milliseconds on the way out, each with its own copy of the arithmetic.  Here the
semaphore's copy stands beside the one of `Mbox.lean`, with what the two are for: `idealTicks`
and `idealTime` are the same conversions without a machine word.

Both divisions come after a product of 32 bits, and the copies disagree on two comparisons, so
each of the conversions is right on a set of inputs that is written out (`TicksFit`, `TimesAgree`).
-/

/-! ### The semaphore -/

/-- The error that `OSSemPend` reports. -/
inductive OsErr where
  | none
  | timeout
  | pendIsr
deriving DecidableEq

/-- The timeout of `_sys_arch_sem_wait` in ticks, before it is cast to 16 bits. -/
def semTimeout (timeout : ℕ) : ℕ :=
  if timeout ≠ 0 then
    let ticks := u32 (timeout * osTicksPerSec) / 1000
    -- `_sys_arch_mbox_fetch` tests against 65535 here: 65536 ticks pass this clamp.
    if ticks < 1 then 1 else if ticks > 65536 then 65535 else ticks
  else 0

/-- The waiting time that `_sys_arch_sem_wait` returns after a wait that did not time out. -/
def semTime (before after : ℕ) : ℕ :=
  let timeoutNew := if after ≥ before then u32 (after - before)
    else u32 (0xffffffff - before + after)
  u32 (u32 (timeoutNew * 1000) / osTicksPerSec + 1 : ℕ)

/-- `_sys_arch_sem_wait` when `OSSemPend` returns with `ucErr`. -/
def sysArchSemWait (ucErr : OsErr) (before after : ℕ) : ℕ :=
  if ucErr = .timeout then sysArchTimeout else semTime before after

/-- The ticks that `OSQPend` is given, a `u16_t`. -/
def fetchPend (timeout : ℕ) : ℕ := u16 (ucosTimeout timeout)

/-- The ticks that `OSSemPend` is given, a `u16_t`. -/
def semPend (timeout : ℕ) : ℕ := u16 (semTimeout timeout)

/-! ### What the conversions are for -/

/-- A timeout in milliseconds as ticks of a wait: at least one, at most what 16 bits hold. -/
def idealTicks (timeout : ℕ) : ℕ := min 65535 (max 1 (timeout * osTicksPerSec / 1000))

/-- The ticks from one reading of the counter to a later one. -/
def elapsed (before after : ℕ) : ℕ := u32 (after - before)

/-- The milliseconds that are reported for a wait of `ticks`. -/
def idealTime (ticks : ℕ) : ℕ := ticks * 1000 / osTicksPerSec + 1

/-- A timeout of 0 waits for ever: no conversion of another one gives it. -/
theorem idealTicks_pos (timeout : ℕ) : 0 < idealTicks timeout :=
  lt_min (by decide) (lt_max_of_lt_left one_pos)

theorem idealTicks_mono {a b : ℕ} (h : a ≤ b) : idealTicks a ≤ idealTicks b := by
  refine min_le_min_left _ (max_le_max_left _ ?_)
  exact Nat.div_le_div_right (Nat.mul_le_mul_right _ h)

/-! ### From milliseconds to ticks -/

/-- The timeouts that both waits convert correctly.  Those whose product fits 32 bits do, but for
    the ten that are 65536 ticks; of the others those whose remainder is still past the clamp. -/
def TicksFit (timeout : ℕ) : Prop :=
  if timeout * osTicksPerSec < 4294967296 then timeout / 10 ≠ 65536
  else 65535000 ≤ timeout * osTicksPerSec % 4294967296 ∧
    ¬ (65536000 ≤ timeout * osTicksPerSec % 4294967296 ∧
      timeout * osTicksPerSec % 4294967296 < 65537000)

/-- What is asked of the two waits for one timeout. -/
structure TicksRight (timeout : ℕ) : Prop where
  fetch : fetchPend timeout = idealTicks timeout
  sem : semPend timeout = idealTicks timeout

/-- The fetch clamps the wrapped product, and then nothing more is lost. -/
theorem fetchPend_eq {timeout : ℕ} (hpos : 0 < timeout) :
    fetchPend timeout = min 65535 (max 1 (timeout * osTicksPerSec % 4294967296 / 1000)) := by
  have hu : u32 (timeout * osTicksPerSec) = timeout * osTicksPerSec % 4294967296 := by
    unfold u32 osTicksPerSec; omega
  unfold fetchPend ucosTimeout
  rw [if_pos (by omega), hu]
  generalize timeout * osTicksPerSec % 4294967296 / 1000 = ticks
  dsimp only
  split
  · unfold u16; omega
  · split <;> unfold u16 <;> omega

/-- The semaphore's clamp lets 65536 pass, which the cast makes 0. -/
theorem semPend_eq {timeout : ℕ} (hpos : 0 < timeout) :
    semPend timeout = if timeout * osTicksPerSec % 4294967296 / 1000 = 65536 then 0
      else min 65535 (max 1 (timeout * osTicksPerSec % 4294967296 / 1000)) := by
  have hu : u32 (timeout * osTicksPerSec) = timeout * osTicksPerSec % 4294967296 := by
    unfold u32 osTicksPerSec; omega
  unfold semPend semTimeout
  rw [if_pos (by omega), hu]
  generalize timeout * osTicksPerSec % 4294967296 / 1000 = ticks
  dsimp only
  split
  · rw [if_neg (by omega)]; unfold u16; omega
  · split
    · rw [if_neg (by omega)]; unfold u16; omega
    · split <;> unfold u16 <;> omega

theorem ticksRight_iff {timeout : ℕ} (hpos : 0 < timeout) :
    TicksRight timeout ↔ TicksFit timeout := by
  have hright : TicksRight timeout ↔
      timeout * osTicksPerSec % 4294967296 / 1000 ≠ 65536 ∧
        min 65535 (max 1 (timeout * osTicksPerSec % 4294967296 / 1000)) = idealTicks timeout := by
    have hf := fetchPend_eq hpos
    have hs := semPend_eq hpos
    constructor
    · rintro ⟨hfetch, hsem⟩
      refine ⟨fun hzero => ?_, hf.symm.trans hfetch⟩
      rw [if_pos hzero] at hs
      exact absurd (hs.symm.trans hsem) (idealTicks_pos timeout).ne
    · rintro ⟨hne, heq⟩
      rw [if_neg hne] at hs
      exact ⟨hf.trans heq, hs.trans heq⟩
  rw [hright]
  unfold TicksFit idealTicks osTicksPerSec
  split
  · -- Without a wrap only the 65536 ticks remain.
    rw [Nat.mod_eq_of_lt ‹_›]
    omega
  · -- A wrapped product stands for a timeout past the clamp.
    omega

/-- Both waits convert a timeout correctly exactly when it is one that fits; over those the
    ticks are never 0 and grow with the timeout. -/
theorem waits_convert_iff {timeout : ℕ} (hpos : 0 < timeout) :
    (TicksRight timeout ↔ TicksFit timeout) ∧
    (TicksFit timeout → fetchPend timeout ≠ 0 ∧ semPend timeout ≠ 0) ∧
    (∀ longer, timeout ≤ longer → TicksFit timeout → TicksFit longer →
      fetchPend timeout ≤ fetchPend longer ∧ semPend timeout ≤ semPend longer) := by
  refine ⟨ticksRight_iff hpos, ?_, ?_⟩
  · intro hfit
    have hright := (ticksRight_iff hpos).mpr hfit
    have hne := (idealTicks_pos timeout).ne'
    exact ⟨hright.fetch ▸ hne, hright.sem ▸ hne⟩
  · intro longer hle hfit hfitLonger
    have hright := (ticksRight_iff hpos).mpr hfit
    have hlonger := (ticksRight_iff (hpos.trans_le hle)).mpr hfitLonger
    have hmono := idealTicks_mono hle
    rw [hright.fetch, hright.sem, hlonger.fetch, hlonger.sem]
    exact ⟨hmono, hmono⟩

/-- One second is 100 ticks for both. -/
theorem waits_convert_iff_second : fetchPend 1000 = 100 ∧ semPend 1000 = 100 ∧ TicksFit 1000 := by
  have hfit : TicksFit 1000 := by unfold TicksFit; decide
  have hright := (waits_convert_iff (by decide : 0 < 1000)).1.mpr hfit
  exact ⟨hright.fetch, hright.sem, hfit⟩

/-- 655360 ms are 65536 ticks, which the semaphore's wait turns into a wait for ever. -/
theorem sem_waits_for_ever :
    ¬ ∀ timeout, 0 < timeout → timeout < 2 ^ 32 → TicksRight timeout := by
  intro hall
  have hsem := (hall 655360 (by decide) (by decide)).sem
  exact absurd hsem (by decide)

/-! ### From ticks to milliseconds -/

/-- The readings for which both waits report the same right time: the counter has moved on
    without wrapping, or the wait is so long that no exact time is asked for. -/
def TimesAgree (before after : ℕ) : Prop :=
  before < after ∨ 2 ^ 22 ≤ elapsed before after

/-- What is asked of the times `v` of the fetch and `w` of the semaphore's wait. -/
structure TimesRight (before after v w : ℕ) : Prop where
  same : v = w
  exact_time : elapsed before after < 2 ^ 22 → v = idealTime (elapsed before after)
  not_timeout : v ≠ sysArchTimeout ∧ w ≠ sysArchTimeout

/-- The product by 1000 fits below `2 ^ 22` ticks. -/
theorem time_of_ticks {ticks : ℕ} (h : ticks < 2 ^ 22) :
    u32 (u32 (ticks * 1000) / osTicksPerSec + 1 : ℕ) = idealTime ticks := by
  have hmul : u32 (ticks * 1000) = ticks * 1000 := by unfold u32; omega
  rw [hmul, u32_natCast (by unfold osTicksPerSec; omega)]
  rfl

/-- A counter that has moved on is subtracted by both. -/
theorem times_forward {before after : ℕ} (hlt : before < after) (h : after < 2 ^ 32) :
    elapsed before after = after - before ∧ fetchTime before after = semTime before after ∧
      semTime before after = u32 (u32 (elapsed before after * 1000) / osTicksPerSec + 1 : ℕ) := by
  have hel : elapsed before after = after - before := by unfold elapsed u32; omega
  refine ⟨hel, ?_, ?_⟩
  · unfold fetchTime semTime
    rw [if_pos hlt, if_pos hlt.le]
  · unfold semTime
    rw [if_pos hlt.le]
    rfl

/-- A counter that has wrapped is one tick short in both. -/
theorem times_wrapped {before after : ℕ} (hlt : after < before) (h : before < 2 ^ 32) :
    fetchTime before after = semTime before after ∧
      semTime before after =
        u32 (u32 ((elapsed before after - 1 : ℕ) * 1000) / osTicksPerSec + 1 : ℕ) := by
  have hel : u32 (0xffffffff - before + after) = elapsed before after - 1 := by
    unfold elapsed u32; omega
  unfold fetchTime semTime
  rw [if_neg (by omega), if_neg (by omega), hel]
  exact ⟨rfl, rfl⟩

/-- An unchanged counter is taken for a wrapped one by the fetch alone. -/
theorem times_unchanged (before : ℕ) :
    elapsed before before = 0 ∧ fetchTime before before ≠ semTime before before := by
  have hel : elapsed before before = 0 := by unfold elapsed u32; omega
  have hfetch : u32 (0xffffffff - before + before) = 4294967295 := by unfold u32; omega
  have hsem : u32 ((before : ℤ) - before) = 0 := by unfold u32; omega
  refine ⟨hel, ?_⟩
  unfold fetchTime semTime
  rw [if_neg (lt_irrefl before), if_pos le_rfl, hfetch, hsem]
  decide

/-- The semaphore's time is never the value that stands for a timeout. -/
theorem semTime_ne_timeout (before after : ℕ) : semTime before after ≠ sysArchTimeout := by
  have hlt := u32_lt ((if after ≥ before then u32 (after - before)
    else u32 (0xffffffff - before + after) : ℕ) * 1000 : ℤ)
  unfold semTime sysArchTimeout osTicksPerSec
  dsimp only
  rw [u32_natCast (by push_cast at hlt ⊢; omega)]
  push_cast at hlt ⊢
  omega

theorem timesRight_iff {before after : ℕ} (hb : before < 2 ^ 32) (ha : after < 2 ^ 32) :
    TimesRight before after (fetchTime before after) (semTime before after) ↔
      TimesAgree before after := by
  have hne := And.intro (fetchTime_ne_timeout before after) (semTime_ne_timeout before after)
  rcases lt_trichotomy before after with hlt | rfl | hlt
  · obtain ⟨-, hsame, htime⟩ := times_forward hlt ha
    refine ⟨fun _ => .inl hlt, fun _ => ⟨hsame, fun hshort => ?_, hne⟩⟩
    rw [hsame, htime, time_of_ticks hshort]
  · obtain ⟨hzero, hdiff⟩ := times_unchanged before
    constructor
    · intro hright
      exact absurd hright.same hdiff
    · rintro (h | h)
      · exact absurd h (lt_irrefl before)
      · rw [hzero] at h
        exact absurd h (by decide)
  · obtain ⟨hsame, htime⟩ := times_wrapped hlt hb
    have hpos : 0 < elapsed before after := by unfold elapsed u32; omega
    constructor
    · intro hright
      by_contra hagree
      have hshort : elapsed before after < 2 ^ 22 :=
        not_le.mp fun h => hagree (.inr h)
      -- The time of one tick less is 10 ms less.
      have heq := hright.exact_time hshort
      rw [hsame, htime, time_of_ticks (by omega)] at heq
      unfold idealTime osTicksPerSec at heq
      omega
    · rintro (h | h)
      · exact absurd h hlt.not_gt
      · exact ⟨hsame, fun hshort => absurd hshort h.not_gt, hne⟩

/-- When neither wait times out, the two calls return the same right time exactly for the
    readings that agree, whatever message, queue and timeout the fetch has. -/
theorem waits_agree_iff {cap : ℕ} (np timeout temp : ℕ) (q q' : Fifo ℕ cap) (ucErr : OsErr)
    (before after : ℕ) (hpop : q.pop = some (temp, q')) (herr : ucErr ≠ .timeout)
    (hb : before < 2 ^ 32) (ha : after < 2 ^ 32) :
    (∃ v, (sysArchMboxFetch np q timeout before after).map (fun r => r.2.1) = some v ∧
      TimesRight before after v (sysArchSemWait ucErr before after)) ↔
        TimesAgree before after := by
  have hfetch : (sysArchMboxFetch np q timeout before after).map (fun r => r.2.1) =
      some (fetchTime before after) := by
    unfold sysArchMboxFetch
    rw [hpop]
    rfl
  have hsem : sysArchSemWait ucErr before after = semTime before after := if_neg herr
  rw [hfetch, hsem, ← timesRight_iff hb ha]
  constructor
  · rintro ⟨v, hv, hright⟩
    rwa [← Option.some.inj hv] at hright
  · exact fun hright => ⟨_, rfl, hright⟩

/-- A wait of 5 ticks over the wrap of the counter is not one on which the two are right. -/
theorem waits_agree_iff_wrap :
    (∃ v, (sysArchMboxFetch 1 (⟨[7], by decide⟩ : Fifo ℕ 1) 0 4294967293 2).map
        (fun r => r.2.1) = some v ∧
      TimesRight 4294967293 2 v (sysArchSemWait .none 4294967293 2)) ↔
        TimesAgree 4294967293 2 :=
  waits_agree_iff 1 0 7 ⟨[7], by decide⟩ ⟨[], by decide⟩ .none 4294967293 2 rfl (by decide)
    (by decide) (by decide)

/-- A message that is there at once, within one tick: the fetch reports 42949663 ms. -/
theorem fetch_at_once :
    ¬ ∀ before after, before < 2 ^ 32 → after < 2 ^ 32 →
      ∃ v, (sysArchMboxFetch 1 (⟨[7], by decide⟩ : Fifo ℕ 1) 0 before after).map
          (fun r => r.2.1) = some v ∧
        TimesRight before after v (sysArchSemWait .none before after) := by
  intro hall
  obtain ⟨v, hv, hright⟩ := hall 0 0 (by decide) (by decide)
  have hsame := Option.some.inj hv ▸ hright.same
  exact absurd hsame (by decide)

end SerialNet
