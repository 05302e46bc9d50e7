import SerialNet.Lib.Thumb
import Mathlib.Tactic.IntervalCases

namespace SerialNet

open Thumb

/-!
# `util.c` — `__aeabi_memcpy` and `__aeabi_memcpy4`

The copy routine in assembly, line by line: bytes until the destination is a multiple of four;
then, from a source that is not one, two words at a time, and from one that is, eight registers at
a time, then four, two and one; then the last bytes.  The condition on a line is the one its `IT`
block gives it.  Each definition is the code from one label on, with what it falls into.

`Moved` says what a part of the routine has done, and there is one `steps_*` lemma a part.
-/

/-- The labels of the two functions. -/
inductive MemcpyLabel where
  | aeabiMemcpy | dstAligned | copy8BytesLoop | copyLess8Bytes | memcpyLastbytes
  | aeabiMemcpy4 | copy32BytesLoop | copy16BytesLoop | memcpyLastbytesAligned
  deriving DecidableEq, Repr

/-- `_memcpy_lastbytes`: up to three bytes. -/
def memcpyLastbytes : List (Line MemcpyLabel) :=
  [.op .al (.lsls .r2 .r2 31),
    .op .cs (.ldrb .r3 .r1 1),
    .op .cs (.ldrb .ip .r1 1),
    .op .mi (.ldrb .r2 .r1 1),
    .op .cs (.strb .r3 .r0 1),
    .op .cs (.strb .ip .r0 1),
    .op .mi (.strb .r2 .r0 1),
    .bx .al .lr]

/-- `copy_less_8_bytes`: a word, if there is one left. -/
def copyLess8Bytes : List (Line MemcpyLabel) :=
  [.op .al (.adds .r2 .r2 4),
    .op .pl (.ldr .r3 .r1 4),
    .op .pl (.str .r3 .r0 4),
    .op .al .nop] ++ memcpyLastbytes

/-- `copy_8_bytes_loop`: two words from a source that need not be aligned. -/
def copy8BytesLoop : List (Line MemcpyLabel) :=
  [.b .cc .copyLess8Bytes,
    .op .al (.ldr .r3 .r1 4),
    .op .al (.subs .r2 .r2 8),
    .op .al (.ldr .ip .r1 4),
    .op .al (.stmia .r0 [.r3, .ip]),
    .b .al .copy8BytesLoop] ++ copyLess8Bytes

/-- `dst_aligned`. -/
def dstAligned : List (Line MemcpyLabel) :=
  [.op .al (.ands .r3 .r1 3),
    .b .eq .aeabiMemcpy4,
    .op .al (.subs .r2 .r2 8)] ++ copy8BytesLoop

/-- `__aeabi_memcpy`. -/
def aeabiMemcpy : List (Line MemcpyLabel) :=
  [.op .al (.cmp .r2 3),
    .b .ls .memcpyLastbytes,
    .op .al (.ands .ip .r0 3),
    .b .eq .dstAligned,
    .op .al (.ldrb .r3 .r1 1),
    .op .al (.cmp .ip 2),
    .op .al (.add .r2 .ip),
    .op .ls (.ldrb .ip .r1 1),
    .op .al (.strb .r3 .r0 1),
    .op .cc (.ldrb .r3 .r1 1),
    .op .al (.sub .r2 .r2 4),
    .op .ls (.strb .ip .r0 1),
    .op .cc (.strb .r3 .r0 1)] ++ dstAligned

/-- `_memcpy_lastbytes_aligned`: a half-word and a byte, where they are left. -/
def memcpyLastbytesAligned : List (Line MemcpyLabel) :=
  [.op .al (.lsls .r2 .r2 31),
    .op .cs (.ldrh .r3 .r1 2),
    .op .mi (.ldrb .r2 .r1 1),
    .op .cs (.strh .r3 .r0 2),
    .op .mi (.strb .r2 .r0 1),
    .bx .al .lr]

/-- The end of `copy_16_bytes_loop`, when the saved registers are back. -/
def copyLastWord : List (Line MemcpyLabel) :=
  [.op .al (.lsls .ip .r2 30),
    .op .cs (.ldr .r3 .r1 4),
    .op .cs (.str .r3 .r0 4),
    .bx .eq .lr] ++ memcpyLastbytesAligned

/-- `copy_16_bytes_loop`: not a loop, four words and then two. -/
def copy16BytesLoop : List (Line MemcpyLabel) :=
  [.op .al (.lsls .ip .r2 28),
    .op .cs (.ldmia .r1 [.r3, .r4, .ip, .lr]),
    .op .cs (.stmia .r0 [.r3, .r4, .ip, .lr]),
    .op .mi (.ldmia .r1 [.r3, .r4]),
    .op .mi (.stmia .r0 [.r3, .r4]),
    .op .al (.ldmia .sp [.r4, .lr])] ++ copyLastWord

/-- `copy_32_bytes_loop`. -/
def copy32BytesLoop : List (Line MemcpyLabel) :=
  [.op .al (.ldmia .r1 [.r3, .r4, .ip, .lr]),
    .op .al (.subs .r2 .r2 32),
    .op .al (.stmia .r0 [.r3, .r4, .ip, .lr]),
    .op .al (.ldmia .r1 [.r3, .r4, .ip, .lr]),
    .op .al (.stmia .r0 [.r3, .r4, .ip, .lr]),
    .b .cs .copy32BytesLoop] ++ copy16BytesLoop

/-- `__aeabi_memcpy4`. -/
def aeabiMemcpy4 : List (Line MemcpyLabel) :=
  [.op .al (.push [.r4, .lr]),
    .op .al (.subs .r2 .r2 32),
    .b .cc .copy16BytesLoop] ++ copy32BytesLoop

/-- The code from each label on. -/
def memcpyCode : MemcpyLabel → List (Line MemcpyLabel)
  | .aeabiMemcpy => aeabiMemcpy
  | .dstAligned => dstAligned
  | .copy8BytesLoop => copy8BytesLoop
  | .copyLess8Bytes => copyLess8Bytes
  | .memcpyLastbytes => memcpyLastbytes
  | .aeabiMemcpy4 => aeabiMemcpy4
  | .copy32BytesLoop => copy32BytesLoop
  | .copy16BytesLoop => copy16BytesLoop
  | .memcpyLastbytesAligned => memcpyLastbytesAligned

/-! ### What a part has done -/

/-- From `s` to `s'` the routine has copied `k` bytes and moved both pointers on. -/
structure Moved (s s' : Machine) (k : ℕ) : Prop where
  r0 : s'.reg .r0 = s.reg .r0 + k
  r1 : s'.reg .r1 = s.reg .r1 + k
  mem : s'.mem = copyBytes s.mem (s.reg .r0) (s.reg .r1) k

/-- There are `n` bytes to copy, both ends are addresses, and no byte of the source is overwritten
    before it is read: what a copy from the front needs. -/
structure CopyReady (s : Machine) (n : ℕ) : Prop where
  dst_end : s.reg .r0 + n < 4294967296
  src_end : s.reg .r1 + n < 4294967296
  forward : s.reg .r0 ≤ s.reg .r1 ∨ s.reg .r1 + n ≤ s.reg .r0

/-- The registers of the list hold the same values. -/
def Kept (rs : List Reg) (s s' : Machine) : Prop := ∀ r ∈ rs, s'.reg r = s.reg r

/-- Registers that both parts keep are kept by the two together. -/
theorem Kept.trans {rs : List Reg} {s s' t : Machine} (h₁ : Kept rs s s') (h₂ : Kept rs s' t) :
    Kept rs s t :=
  fun r hr => (h₂ r hr).trans (h₁ r hr)

/-- A part keeps every list of registers that is in one it keeps. -/
theorem Kept.mono {rs qs : List Reg} {s s' : Machine} (h : Kept rs s s') (hsub : qs ⊆ rs) :
    Kept qs s s' :=
  fun r hr => h r (hsub hr)

/-- Two parts one after the other have copied their bytes together. -/
theorem Moved.trans {s s' t : Machine} {k n : ℕ} (h₁ : Moved s s' k) (h₂ : Moved s' t n)
    (hp : CopyReady s (k + n)) : Moved s t (k + n) where
  r0 := by rw [h₂.r0, h₁.r0, Nat.add_assoc]
  r1 := by rw [h₂.r1, h₁.r1, Nat.add_assoc]
  mem := by rw [h₂.mem, h₁.mem, h₁.r0, h₁.r1, copyBytes_copyBytes s.mem hp.forward]

/-- A step that leaves the pointers and the memory as they are. -/
theorem moved_zero {s s' : Machine} (h0 : s'.reg .r0 = s.reg .r0) (h1 : s'.reg .r1 = s.reg .r1)
    (hm : s'.mem = s.mem) : Moved s s' 0 where
  r0 := h0
  r1 := h1
  mem := by rw [hm, copyBytes_zero]

/-- When some bytes are copied the others still can be. -/
theorem CopyReady.after {s s' : Machine} {k n : ℕ} (h : CopyReady s (k + n)) (hm : Moved s s' k) :
    CopyReady s' n where
  dst_end := by rw [hm.r0, Nat.add_assoc]; exact h.dst_end
  src_end := by rw [hm.r1, Nat.add_assoc]; exact h.src_end
  forward := by
    rw [hm.r0, hm.r1]
    have := h.forward
    omega

/-- Fewer bytes can be copied too. -/
theorem CopyReady.mono {s : Machine} {k n : ℕ} (h : CopyReady s n) (hk : k ≤ n) :
    CopyReady s k where
  dst_end := by have := h.dst_end; omega
  src_end := by have := h.src_end; omega
  forward := by have := h.forward; omega

/-- The two pointers alone matter. -/
theorem CopyReady.congr {s s' : Machine} {n : ℕ} (h : CopyReady s n) (h0 : s'.reg .r0 = s.reg .r0)
    (h1 : s'.reg .r1 = s.reg .r1) : CopyReady s' n where
  dst_end := by rw [h0]; exact h.dst_end
  src_end := by rw [h1]; exact h.src_end
  forward := by rw [h0, h1]; exact h.forward

/-- From `code` on, the routine copies `n` bytes and returns, with the registers that belong to its
    caller as they were. -/
def Finishes (code : List (Line MemcpyLabel)) (s : Machine) (n : ℕ) : Prop :=
  ∃ t, Steps memcpyCode (.at code s) (.returned (s.reg .lr) t) ∧ Moved s t n ∧ Kept [.r4, .sp] s t

/-- The code up to a place, and from this place on the rest. -/
theorem Finishes.after {code code' : List (Line MemcpyLabel)} {s s' : Machine} {k n : ℕ}
    (hs : Steps memcpyCode (.at code s) (.at code' s')) (hm : Moved s s' k)
    (hk : Kept [.r4, .sp, .lr] s s') (hp : CopyReady s (k + n))
    (h : CopyReady s' n → Finishes code' s' n) : Finishes code s (k + n) := by
  obtain ⟨t, ht, hmt, hkt⟩ := h (hp.after hm)
  rw [hk .lr (by decide)] at ht
  exact ⟨t, hs.trans ht, hm.trans hmt hp, (hk.mono (by decide)).trans hkt⟩

/-! ### The last bytes -/

/-- What `lsls r2, r2, #31` puts into the flags: carry is bit 1 of the count, `N` is bit 0. -/
theorem exec_countBits (s : Machine) :
    ∃ s', Instr.exec s (.lsls .r2 .r2 31) = some s' ∧ s'.mem = s.mem ∧
      (∀ r, r ≠ .r2 → s'.reg r = s.reg r) ∧ s'.c = decide (2 ≤ s.reg .r2 % 4) ∧
      s'.n = decide (s.reg .r2 % 2 = 1) := by
  obtain ⟨s', hexec, hmem, hreg, hc, hn, -⟩ := exec_lsls s .r2 .r2 (Nat.le_refl 31)
  refine ⟨s', hexec, hmem, hreg, ?_, ?_⟩
  · rw [hc, decide_eq_decide]
    omega
  · rw [hn, decide_eq_decide]
    omega

/-- Two bytes if bit 1 of the count is set, one more if bit 0 is; all are loaded before the first is
    stored. -/
theorem finishes_memcpyLastbytes {s : Machine} (hp : CopyReady s (s.reg .r2 % 4)) :
    Finishes memcpyLastbytes s (s.reg .r2 % 4) := by
  have hdst := hp.dst_end
  have hsrc := hp.src_end
  obtain ⟨s₁, hshift, hmem, hreg, hc, hn⟩ := exec_countBits s
  have hn4 : s.reg .r2 % 4 < 4 := Nat.mod_lt _ (by decide)
  by_cases htwo : 2 ≤ s.reg .r2 % 4 <;> by_cases hone : s.reg .r2 % 2 = 1
  · obtain h : s.reg .r2 % 4 = 3 := by omega
    simp only [htwo, hone, decide_true] at hc hn
    rw [h] at hdst hsrc ⊢
    have h0 := Nat.mod_eq_of_lt (show s.reg .r0 + 1 < 4294967296 by omega)
    have h1 := Nat.mod_eq_of_lt (show s.reg .r1 + 1 < 4294967296 by omega)
    have h0' := Nat.mod_eq_of_lt (show s.reg .r0 + 2 < 4294967296 by omega)
    have h1' := Nat.mod_eq_of_lt (show s.reg .r1 + 2 < 4294967296 by omega)
    refine ⟨_, steps_op rfl hshift <| steps_op hc rfl <| steps_op hc rfl <| steps_op hn rfl <|
      steps_op hc rfl <| steps_op hc rfl <| steps_op hn rfl <| steps_bx rfl (by simp [hreg]),
      ⟨?_, ?_, ?_⟩, ?_⟩
    all_goals simp [Kept, hreg, hmem, h0, h1, h0', h1', Nat.add_assoc, Nat.mod_eq_of_lt hdst,
      Nat.mod_eq_of_lt hsrc, store8_eq_copyBytes, store8_copyBytes]
  · obtain h : s.reg .r2 % 4 = 2 := by omega
    simp only [htwo, hone, decide_true, decide_false] at hc hn
    rw [h] at hdst hsrc ⊢
    have h0 := Nat.mod_eq_of_lt (show s.reg .r0 + 1 < 4294967296 by omega)
    have h1 := Nat.mod_eq_of_lt (show s.reg .r1 + 1 < 4294967296 by omega)
    refine ⟨_, steps_op rfl hshift <| steps_op hc rfl <| steps_op hc rfl <| steps_skip hn <|
      steps_op hc rfl <| steps_op hc rfl <| steps_skip hn <| steps_bx rfl (by simp [hreg]),
      ⟨?_, ?_, ?_⟩, ?_⟩
    all_goals simp [Kept, hreg, hmem, h0, h1, Nat.add_assoc, Nat.mod_eq_of_lt hdst,
      Nat.mod_eq_of_lt hsrc, store8_eq_copyBytes, store8_copyBytes]
  · obtain h : s.reg .r2 % 4 = 1 := by omega
    simp only [htwo, hone, decide_true, decide_false] at hc hn
    rw [h] at hdst hsrc ⊢
    refine ⟨_, steps_op rfl hshift <| steps_skip hc <| steps_skip hc <| steps_op hn rfl <|
      steps_skip hc <| steps_skip hc <| steps_op hn rfl <| steps_bx rfl (by simp [hreg]),
      ⟨?_, ?_, ?_⟩, ?_⟩
    all_goals simp [Kept, hreg, hmem, Nat.mod_eq_of_lt hdst, Nat.mod_eq_of_lt hsrc,
      store8_eq_copyBytes]
  · obtain h : s.reg .r2 % 4 = 0 := by omega
    simp only [htwo, hone, decide_false] at hc hn
    rw [h]
    refine ⟨_, steps_op rfl hshift <| steps_skip hc <| steps_skip hc <| steps_skip hn <|
      steps_skip hc <| steps_skip hc <| steps_skip hn <| steps_bx rfl (hreg .lr (by decide)),
      ⟨?_, ?_, ?_⟩, ?_⟩
    all_goals simp [Kept, hreg, hmem]

/-- The same with a half-word for the two bytes. -/
theorem finishes_memcpyLastbytesAligned {s : Machine} (hp : CopyReady s (s.reg .r2 % 4)) :
    Finishes memcpyLastbytesAligned s (s.reg .r2 % 4) := by
  have hdst := hp.dst_end
  have hsrc := hp.src_end
  obtain ⟨s₁, hshift, hmem, hreg, hc, hn⟩ := exec_countBits s
  have hn4 : s.reg .r2 % 4 < 4 := Nat.mod_lt _ (by decide)
  by_cases htwo : 2 ≤ s.reg .r2 % 4 <;> by_cases hone : s.reg .r2 % 2 = 1
  · obtain h : s.reg .r2 % 4 = 3 := by omega
    simp only [htwo, hone, decide_true] at hc hn
    rw [h] at hdst hsrc ⊢
    have h0 := Nat.mod_eq_of_lt (show s.reg .r0 + 2 < 4294967296 by omega)
    have h1 := Nat.mod_eq_of_lt (show s.reg .r1 + 2 < 4294967296 by omega)
    refine ⟨_, steps_op rfl hshift <| steps_op hc rfl <| steps_op hn rfl <| steps_op hc rfl <|
      steps_op hn rfl <| steps_bx rfl (by simp [hreg]), ⟨?_, ?_, ?_⟩, ?_⟩
    all_goals simp [Kept, hreg, hmem, h0, h1, Nat.add_assoc, Nat.mod_eq_of_lt hdst,
      Nat.mod_eq_of_lt hsrc, store16_eq_copyBytes, store8_copyBytes]
  · obtain h : s.reg .r2 % 4 = 2 := by omega
    simp only [htwo, hone, decide_true, decide_false] at hc hn
    rw [h] at hdst hsrc ⊢
    refine ⟨_, steps_op rfl hshift <| steps_op hc rfl <| steps_skip hn <| steps_op hc rfl <|
      steps_skip hn <| steps_bx rfl (by simp [hreg]), ⟨?_, ?_, ?_⟩, ?_⟩
    all_goals simp [Kept, hreg, hmem, Nat.mod_eq_of_lt hdst, Nat.mod_eq_of_lt hsrc,
      store16_eq_copyBytes]
  · obtain h : s.reg .r2 % 4 = 1 := by omega
    simp only [htwo, hone, decide_true, decide_false] at hc hn
    rw [h] at hdst hsrc ⊢
    refine ⟨_, steps_op rfl hshift <| steps_skip hc <| steps_op hn rfl <| steps_skip hc <|
      steps_op hn rfl <| steps_bx rfl (by simp [hreg]), ⟨?_, ?_, ?_⟩, ?_⟩
    all_goals simp [Kept, hreg, hmem, Nat.mod_eq_of_lt hdst, Nat.mod_eq_of_lt hsrc,
      store8_eq_copyBytes]
  · obtain h : s.reg .r2 % 4 = 0 := by omega
    simp only [htwo, hone, decide_false] at hc hn
    rw [h]
    refine ⟨_, steps_op rfl hshift <| steps_skip hc <| steps_skip hn <| steps_skip hc <|
      steps_skip hn <| steps_bx rfl (hreg .lr (by decide)), ⟨?_, ?_, ?_⟩, ?_⟩
    all_goals simp [Kept, hreg, hmem]

/-! ### Two words at a time -/

/-- One word through `r3`. -/
theorem steps_copyWord {s : Machine} (c : Cond) (hc : c.holds s = true) (hp : CopyReady s 4) :
    ∃ s', (∀ rest, Steps memcpyCode
        (.at (.op c (.ldr .r3 .r1 4) :: .op c (.str .r3 .r0 4) :: rest) s) (.at rest s')) ∧
      Moved s s' 4 ∧ Kept [.r2, .r4, .sp, .lr] s s' ∧ s'.z = s.z := by
  have hdst := Nat.mod_eq_of_lt hp.dst_end
  have hsrc := Nat.mod_eq_of_lt hp.src_end
  have hc' : ∀ s', SameFlags s s' → c.holds s' = true :=
    fun s' h => (Cond.holds_congr h c).trans hc
  refine ⟨_, fun _ => steps_op hc rfl <| steps_op (hc' _ ⟨rfl, rfl, rfl⟩) rfl <| Steps.refl _,
    ⟨?_, ?_, ?_⟩, ?_, rfl⟩
  all_goals simp [Kept, hdst, hsrc, store32_eq_copyBytes]

/-- Fewer than eight bytes are left, and `r2` is their number less eight. -/
theorem finishes_copyLess8Bytes {s : Machine} {n : ℕ} (hn : n < 8)
    (hr2 : s.reg .r2 = (n + 4294967296 - 8) % 4294967296) (hp : CopyReady s n) :
    Finishes copyLess8Bytes s n := by
  obtain ⟨s₁, hadd, hmem, hreg, hr2', hsign⟩ := exec_adds s .r2 4
  have hm₁ : Moved s s₁ 0 := moved_zero (hreg .r0 (by decide)) (hreg .r1 (by decide)) hmem
  have hk₁ : Kept [.r4, .sp, .lr] s s₁ := by simp [Kept, hreg]
  rw [hr2] at hr2'
  rw [← Nat.zero_add n] at hp ⊢
  by_cases hfour : 4 ≤ n
  · -- `r2` is the number less four, and not negative
    have hpl : (!s₁.n) = true := by
      rw [hsign, hr2', Bool.not_eq_true', decide_eq_false_iff_not]
      omega
    refine Finishes.after (steps_op rfl hadd (Steps.refl _)) hm₁ hk₁ hp fun hp₁ => ?_
    obtain ⟨s₂, hword, hm₂, hk₂, -⟩ :=
      steps_copyWord .pl hpl (hp₁.mono hfour)
    obtain ⟨k, rfl⟩ := Nat.exists_eq_add_of_le hfour
    have hk : s₂.reg .r2 % 4 = k := by
      rw [hk₂ .r2 (by decide), hr2']
      omega
    refine Finishes.after ((hword _).trans (steps_op rfl rfl (Steps.refl _))) hm₂
      (hk₂.mono (by decide)) hp₁ fun hp₂ => ?_
    rw [← hk] at hp₂ ⊢
    exact finishes_memcpyLastbytes hp₂
  · have hmi : (!s₁.n) = false := by
      rw [hsign, hr2', Bool.not_eq_false', decide_eq_true_iff]
      omega
    refine Finishes.after (steps_op rfl hadd <| steps_skip hmi <| steps_skip hmi <|
      steps_op rfl rfl (Steps.refl _)) hm₁ hk₁ hp fun hp₁ => ?_
    have hk : s₁.reg .r2 % 4 = n := by
      rw [hr2']
      omega
    rw [← hk] at hp₁ ⊢
    exact finishes_memcpyLastbytes hp₁

/-- Two words, from a source that need not be aligned to a target that is. -/
theorem steps_copy8Bytes {s : Machine} (hcc : s.c = true) (ha : s.reg .r0 % 4 = 0)
    (hp : CopyReady s 8) :
    ∃ s', Steps memcpyCode (.at copy8BytesLoop s) (.at copy8BytesLoop s') ∧ Moved s s' 8 ∧
      Kept [.r4, .sp, .lr] s s' ∧ s'.c = decide (8 ≤ s.reg .r2) ∧
      s'.reg .r2 = (s.reg .r2 + 4294967296 - 8) % 4294967296 := by
  have hdst := Nat.mod_eq_of_lt hp.dst_end
  have hsrc := Nat.mod_eq_of_lt hp.src_end
  have h1 := Nat.mod_eq_of_lt (show s.reg .r1 + 4 < 4294967296 by have := hp.src_end; omega)
  obtain ⟨s₁, hsub, hmem₁, hreg₁, hr2₁, hc₁⟩ :=
    exec_subs ((s.advance .r1 4).setReg .r3 (load32 s.mem (s.reg .r1))) .r2 8
  obtain ⟨s₂, hstm, hmem₂, ⟨-, -, hc₂⟩, hr0₂, hreg₂⟩ :=
    exec_stmia ((s₁.advance .r1 4).setReg .ip (load32 s₁.mem (s₁.reg .r1))) .r0 [.r3, .ip]
      (m := s.mem) (q := s.reg .r1) (by simp [hreg₁, ha])
      (by simp [hreg₁, hmem₁, h1, List.range_succ])
  refine ⟨s₂, steps_fall (by simp [Cond.holds, hcc]) <| steps_op rfl rfl <| steps_op rfl hsub <|
    steps_op rfl rfl <| steps_op rfl hstm <| steps_branch rfl (Steps.refl _), ⟨?_, ?_, ?_⟩,
    ?_, ?_, ?_⟩
  · rw [hr0₂]
    simp [hreg₁, hdst]
  · rw [hreg₂ .r1 (by decide)]
    simp [hreg₁, h1, Nat.add_assoc, hsrc]
  · rw [hmem₂]
    simp [hreg₁, hmem₁, copyBytes]
  · simp [Kept, hreg₂, hreg₁]
  · rw [hc₂]
    simp [hc₁]
  · rw [hreg₂ .r2 (by decide)]
    simp [hr2₁]

/-- The loop: the carry says whether eight bytes are left, and `r2` is eight less than what is. -/
theorem finishes_copy8BytesLoop (n : ℕ) : ∀ s : Machine, s.c = decide (8 ≤ n) →
    s.reg .r2 = (n + 4294967296 - 8) % 4294967296 → s.reg .r0 % 4 = 0 → CopyReady s n →
    Finishes copy8BytesLoop s n := by
  induction n using Nat.strong_induction_on with
  | _ n ih =>
    intro s hc hr2 ha hp
    by_cases hn : 8 ≤ n
    · obtain ⟨k, rfl⟩ := Nat.exists_eq_add_of_le hn
      have hend := hp.dst_end
      have hr2k : s.reg .r2 = k := by omega
      obtain ⟨s', hs, hm, hk, hc', hr2'⟩ := steps_copy8Bytes (by simpa [hn] using hc) ha (hp.mono hn)
      refine Finishes.after hs hm hk hp fun hp' => ih k (by omega) s' ?_ ?_ ?_ hp'
      · rw [hc', hr2k]
      · rw [hr2', hr2k]
      · rw [hm.r0]
        omega
    · obtain ⟨t, ht, hmt, hkt⟩ := finishes_copyLess8Bytes (by omega) hr2 hp
      exact ⟨t, steps_branch (by simp [Cond.holds, hc, hn]) ht, hmt, hkt⟩

/-! ### Whole registers -/

/-- Registers that a multiple load may fill without losing a pointer, the count or the stack. -/
def Scratch (rs : List Reg) : Prop := rs.Nodup ∧ ∀ r ∈ rs, r ∉ [Reg.r0, .r1, .r2, .sp]

/-- A multiple load and store of the same registers, if the condition holds. -/
theorem steps_copyRegs {s : Machine} (c : Cond) (rs : List Reg) (hrs : Scratch rs)
    (h0 : s.reg .r0 % 4 = 0) (h1 : s.reg .r1 % 4 = 0)
    (hp : CopyReady s (if c.holds s then 4 * rs.length else 0)) :
    ∃ s', (∀ rest, Steps memcpyCode
        (.at (.op c (.ldmia .r1 rs) :: .op c (.stmia .r0 rs) :: rest) s) (.at rest s')) ∧
      Moved s s' (if c.holds s then 4 * rs.length else 0) ∧ Kept [.r2, .sp] s s' ∧
      SameFlags s s' := by
  obtain ⟨hnodup, hsafe⟩ := hrs
  have hnot : ∀ r ∈ [Reg.r0, .r1, .r2, .sp], r ∉ rs := fun r hr hmem => hsafe r hmem hr
  cases hc : c.holds s with
  | false =>
    exact ⟨s, fun _ => steps_skip hc (steps_skip hc (Steps.refl _)), moved_zero rfl rfl rfl,
      fun _ _ => rfl, rfl, rfl, rfl⟩
  | true =>
    rw [if_pos hc] at hp
    have hdst := Nat.mod_eq_of_lt hp.dst_end
    have hsrc := Nat.mod_eq_of_lt hp.src_end
    obtain ⟨s₁, hldm, hmem₁, hflags₁, hr1₁, hreg₁, hloaded⟩ :=
      exec_ldmia s .r1 rs h1 hnodup (hnot .r1 (by decide))
    have hr0₁ : s₁.reg .r0 = s.reg .r0 := hreg₁ .r0 (by decide) (hnot .r0 (by decide))
    obtain ⟨s₂, hstm, hmem₂, hflags₂, hr0₂, hreg₂⟩ := exec_stmia s₁ .r0 rs (by rw [hr0₁, h0]) hloaded
    refine ⟨s₂, fun _ => steps_op hc hldm <|
      steps_op ((Cond.holds_congr hflags₁ c).trans hc) hstm <| Steps.refl _, ⟨?_, ?_, ?_⟩, ?_,
      hflags₁.trans hflags₂⟩
    · rw [hr0₂, hr0₁, hdst]
      rfl
    · rw [hreg₂ .r1 (by decide), hr1₁, hsrc]
      rfl
    · rw [hmem₂, hmem₁, hr0₁]
      rfl
    · intro r hr
      have hr' : r ∈ [Reg.r0, .r1, .r2, .sp] := List.mem_cons_of_mem _ (List.mem_cons_of_mem _ hr)
      rw [hreg₂ r (by rintro rfl; simp at hr), hreg₁ r (by rintro rfl; simp at hr) (hnot r hr')]

/-- Eight registers. -/
theorem steps_copy32Bytes {s : Machine} (h0 : s.reg .r0 % 4 = 0) (h1 : s.reg .r1 % 4 = 0)
    (hp : CopyReady s 32) :
    ∃ s', Steps memcpyCode (.at copy32BytesLoop s)
        (.at (.b .cs .copy32BytesLoop :: copy16BytesLoop) s') ∧ Moved s s' 32 ∧
      Kept [.sp] s s' ∧ s'.c = decide (32 ≤ s.reg .r2) ∧
      s'.reg .r2 = (s.reg .r2 + 4294967296 - 32) % 4294967296 := by
  have hdst := Nat.mod_eq_of_lt (hp.mono (show 16 ≤ 32 by decide)).dst_end
  have hsrc := Nat.mod_eq_of_lt (hp.mono (show 16 ≤ 32 by decide)).src_end
  obtain ⟨s₁, hldm, hmem₁, -, hr1₁, hreg₁, hloaded⟩ :=
    exec_ldmia s .r1 [.r3, .r4, .ip, .lr] h1 (by decide) (by decide)
  obtain ⟨s₂, hsub, hmem₂, hreg₂, hr2₂, hc₂⟩ := exec_subs s₁ .r2 32
  have hloaded₂ : [Reg.r3, .r4, .ip, .lr].map s₂.reg = [Reg.r3, .r4, .ip, .lr].map s₁.reg :=
    List.map_congr_left fun r hr => hreg₂ r (by rintro rfl; simp at hr)
  have hr0₂ : s₂.reg .r0 = s.reg .r0 := by simp [hreg₂, hreg₁]
  obtain ⟨s₃, hstm, hmem₃, ⟨-, -, hc₃⟩, hr0₃, hreg₃⟩ :=
    exec_stmia s₂ .r0 [.r3, .r4, .ip, .lr] (by rw [hr0₂, h0]) (hloaded₂.trans hloaded)
  have hm₃ : Moved s s₃ 16 := by
    constructor
    · rw [hr0₃, hr0₂]
      exact hdst
    · rw [hreg₃ .r1 (by decide), hreg₂ .r1 (by decide), hr1₁]
      exact hsrc
    · rw [hmem₃, hmem₂, hmem₁, hr0₂]
      rfl
  have hp₃ : CopyReady s₃ 16 := CopyReady.after hp hm₃
  obtain ⟨s₄, hregs, hm₄, hk₄, -, -, hc₄⟩ := steps_copyRegs .al [.r3, .r4, .ip, .lr]
    (by unfold Scratch; decide)
    (by rw [hm₃.r0]; omega) (by rw [hm₃.r1]; omega) hp₃
  refine ⟨s₄, (steps_op rfl hldm <| steps_op rfl hsub <| steps_op rfl hstm (hregs _)),
    hm₃.trans hm₄ hp, ?_, ?_, ?_⟩
  · simp [Kept, hk₄ .sp (by decide), hreg₃, hreg₂, hreg₁]
  · rw [hc₄, hc₃, hc₂, hreg₁ .r2 (by decide) (by decide)]
  · rw [hk₄ .r2 (by decide), hreg₃ .r2 (by decide), hr2₂, hreg₁ .r2 (by decide) (by decide)]

/-- The loop, with `n` bytes to go and `r2` thirty-two less: fewer than thirty-two are left, and the
    low bits of `r2` are those of `n`. -/
theorem steps_copy32BytesLoop (n : ℕ) : ∀ s : Machine, 32 ≤ n → s.reg .r2 = n - 32 →
    s.reg .r0 % 4 = 0 → s.reg .r1 % 4 = 0 → CopyReady s n →
    ∃ s', Steps memcpyCode (.at copy32BytesLoop s) (.at copy16BytesLoop s') ∧
      Moved s s' (n - n % 32) ∧ Kept [.sp] s s' ∧ s'.reg .r2 % 32 = n % 32 := by
  induction n using Nat.strong_induction_on with
  | _ n ih =>
    intro s hn hr2 h0 h1 hp
    have hend := hp.dst_end
    obtain ⟨s₁, hs₁, hm₁, hk₁, hc₁, hr2₁⟩ := steps_copy32Bytes h0 h1 (hp.mono hn)
    obtain ⟨k, rfl⟩ := Nat.exists_eq_add_of_le hn
    by_cases hmore : 32 ≤ k
    · have hcs : s₁.c = true := by
        rw [hc₁, hr2, decide_eq_true]
        omega
      obtain ⟨s', hs', hm', hk', hr2'⟩ := ih k (by omega) s₁ hmore (by omega)
        (by rw [hm₁.r0]; omega) (by rw [hm₁.r1]; omega) (hp.after hm₁)
      have hsum : 32 + k - (32 + k) % 32 = 32 + (k - k % 32) := by omega
      refine ⟨s', hs₁.trans (steps_branch hcs hs'), ?_, hk₁.trans hk', by omega⟩
      rw [hsum]
      exact hm₁.trans hm' (hp.mono (by omega))
    · have hcs : s₁.c = false := by
        rw [hc₁, hr2, decide_eq_false]
        omega
      have hsum : 32 + k - (32 + k) % 32 = 32 := by omega
      refine ⟨s₁, hs₁.trans (steps_fall hcs (Steps.refl _)), ?_, hk₁, by omega⟩
      rw [hsum]
      exact hm₁

/-- The code of `copy_16_bytes_loop` up to where the saved registers come back: four words if bit 4
    of the count is set, two if bit 3 is. -/
theorem steps_copy16BytesLoop {s : Machine} (h0 : s.reg .r0 % 4 = 0) (h1 : s.reg .r1 % 4 = 0)
    (hp : CopyReady s (s.reg .r2 % 32)) :
    ∃ s', Steps memcpyCode (.at copy16BytesLoop s)
        (.at (.op .al (.ldmia .sp [.r4, .lr]) :: copyLastWord) s') ∧
      Moved s s' (s.reg .r2 % 32 - s.reg .r2 % 8) ∧ Kept [.r2, .sp] s s' := by
  obtain ⟨s₁, hshift, hmem₁, hreg₁, hc₁, hn₁, -⟩ := exec_lsls s .ip .r2 (show 28 ≤ 31 by decide)
  have hm₁ : Moved s s₁ 0 := moved_zero (hreg₁ .r0 (by decide)) (hreg₁ .r1 (by decide)) hmem₁
  have hk₁ : Kept [.r2, .sp] s s₁ := by simp [Kept, hreg₁]
  have hfour : (if Cond.cs.holds s₁ then 4 * [Reg.r3, .r4, .ip, .lr].length else 0)
      = 16 * (s.reg .r2 / 16 % 2) := by
    rw [show Cond.cs.holds s₁ = s₁.c from rfl, hc₁]
    split <;> simp_all
  have hp₁ : CopyReady s₁ (s.reg .r2 % 32) := hp.congr hm₁.r0 hm₁.r1
  obtain ⟨s₂, hs₂, hm₂, hk₂, hf₂⟩ := steps_copyRegs .cs [.r3, .r4, .ip, .lr]
    (by unfold Scratch; decide) (by rw [hm₁.r0]; omega) (by rw [hm₁.r1]; omega)
    (hp₁.mono (by rw [hfour]; omega))
  rw [hfour] at hm₂
  have htwo : (if Cond.mi.holds s₂ then 4 * [Reg.r3, .r4].length else 0)
      = 8 * (s.reg .r2 / 8 % 2) := by
    rw [show Cond.mi.holds s₂ = s₂.n from rfl, hf₂.1, hn₁]
    split <;> simp_all
  have hp₂ : CopyReady s₂ (s.reg .r2 % 32 - 16 * (s.reg .r2 / 16 % 2)) :=
    CopyReady.after (hp₁.mono (by omega)) hm₂
  obtain ⟨s₃, hs₃, hm₃, hk₃, -⟩ := steps_copyRegs .mi [.r3, .r4] (by unfold Scratch; decide)
    (by rw [hm₂.r0, hm₁.r0]; omega) (by rw [hm₂.r1, hm₁.r1]; omega)
    (hp₂.mono (by rw [htwo]; omega))
  rw [htwo] at hm₃
  have hsum : s.reg .r2 % 32 - s.reg .r2 % 8
      = 0 + (16 * (s.reg .r2 / 16 % 2) + 8 * (s.reg .r2 / 8 % 2)) := by omega
  refine ⟨s₃, steps_op rfl hshift ((hs₂ _).trans (hs₃ _)), ?_, (hk₁.trans hk₂).trans hk₃⟩
  rw [hsum]
  exact hm₁.trans (hm₂.trans hm₃ (hp₁.mono (by omega))) (hp.mono (by omega))

end SerialNet
