import SerialNet.Lib.Bytes
import Mathlib.Algebra.Group.Nat.Defs
import Mathlib.Logic.Function.Basic
import Mathlib.Logic.Relation

namespace SerialNet

/-!
# A piece of the Thumb-2 instruction set

The instructions that a hand-written copy routine of a Cortex-M3 uses: compares and additions with
an immediate operand, a shift, loads and stores that move their base register on, and the multiple
loads and stores, which fault on an address that is not a multiple of four (single ones do not).
Code is a list of lines in which every instruction carries the condition it is executed under, as
the `IT` block in front of it says; a branch names a label, whose code runs on to the end of the
routine.  Of the flags, `V` is not here, since no condition below reads it.

`Steps` is execution; the `steps_*` rules run one line, and the lemmas on `loadRegs` and
`storeRegs` say what a multiple load and a multiple store of the same registers move.
-/

namespace Thumb

/-- The registers in use, with `ip` for `r12`. -/
inductive Reg where
  | r0 | r1 | r2 | r3 | r4 | ip | sp | lr
  deriving DecidableEq, Repr

/-- Registers hold 32-bit values. -/
structure Machine where
  reg : Reg → ℕ
  n : Bool
  z : Bool
  c : Bool
  mem : Memory

/-- The conditions, on the flags. -/
inductive Cond where
  | al | eq | cs | cc | mi | pl | ls
  deriving DecidableEq, Repr

/-- A condition, read off the flags. -/
def Cond.holds (s : Machine) : Cond → Bool
  | .al => true
  | .eq => s.z
  | .cs => s.c
  | .cc => !s.c
  | .mi => s.n
  | .pl => !s.n
  | .ls => !s.c || s.z

/-- The flags are the same. -/
def SameFlags (s s' : Machine) : Prop := s'.n = s.n ∧ s'.z = s.z ∧ s'.c = s.c

/-- Flags that two steps leave alone. -/
theorem SameFlags.trans {s s' t : Machine} (h₁ : SameFlags s s') (h₂ : SameFlags s' t) :
    SameFlags s t :=
  ⟨h₂.1.trans h₁.1, h₂.2.1.trans h₁.2.1, h₂.2.2.trans h₁.2.2⟩

/-- A condition depends on the flags only. -/
theorem Cond.holds_congr {s s' : Machine} (h : SameFlags s s') (c : Cond) :
    c.holds s' = c.holds s := by
  obtain ⟨hn, hz, hc⟩ := h
  cases c <;> simp only [holds, hn, hz, hc]

/-- Instructions.  A load or store uses the address in `rn` and then adds the offset to `rn`. -/
inductive Instr where
  | cmp (rn : Reg) (k : ℕ)
  | ands (rd rn : Reg) (k : ℕ)
  | add (rd rm : Reg)
  | adds (rd rn : Reg) (k : ℕ)
  | sub (rd rn : Reg) (k : ℕ)
  | subs (rd rn : Reg) (k : ℕ)
  | lsls (rd rm : Reg) (k : ℕ)
  | ldrb (rt rn : Reg) (k : ℕ)
  | ldrh (rt rn : Reg) (k : ℕ)
  | ldr (rt rn : Reg) (k : ℕ)
  | strb (rt rn : Reg) (k : ℕ)
  | strh (rt rn : Reg) (k : ℕ)
  | str (rt rn : Reg) (k : ℕ)
  | ldmia (rn : Reg) (rs : List Reg)
  | stmia (rn : Reg) (rs : List Reg)
  | push (rs : List Reg)
  | nop
  deriving DecidableEq, Repr

/-! ### Machines -/

/-- A write to a register. -/
def Machine.setReg (s : Machine) (r : Reg) (x : ℕ) : Machine :=
  { s with reg := Function.update s.reg r x }

/-- A written register has the new value, the others their own. -/
@[simp] theorem Machine.reg_setReg (s : Machine) (r q : Reg) (x : ℕ) :
    (s.setReg r x).reg q = if q = r then x else s.reg q :=
  Function.update_apply s.reg r x q

@[simp] theorem Machine.mem_setReg (s : Machine) (r : Reg) (x : ℕ) :
    (s.setReg r x).mem = s.mem := rfl

@[simp] theorem Machine.n_setReg (s : Machine) (r : Reg) (x : ℕ) : (s.setReg r x).n = s.n := rfl

@[simp] theorem Machine.z_setReg (s : Machine) (r : Reg) (x : ℕ) : (s.setReg r x).z = s.z := rfl

@[simp] theorem Machine.c_setReg (s : Machine) (r : Reg) (x : ℕ) : (s.setReg r x).c = s.c := rfl

/-- The flags of the result `x` with carry `carry`. -/
def Machine.setFlags (s : Machine) (x : ℕ) (carry : Bool) : Machine :=
  { s with n := x.testBit 31, z := decide (x = 0), c := carry }

@[simp] theorem Machine.reg_setFlags (s : Machine) (x : ℕ) (carry : Bool) :
    (s.setFlags x carry).reg = s.reg := rfl

@[simp] theorem Machine.mem_setFlags (s : Machine) (x : ℕ) (carry : Bool) :
    (s.setFlags x carry).mem = s.mem := rfl

@[simp] theorem Machine.n_setFlags (s : Machine) (x : ℕ) (carry : Bool) :
    (s.setFlags x carry).n = x.testBit 31 := rfl

@[simp] theorem Machine.z_setFlags (s : Machine) (x : ℕ) (carry : Bool) :
    (s.setFlags x carry).z = decide (x = 0) := rfl

@[simp] theorem Machine.c_setFlags (s : Machine) (x : ℕ) (carry : Bool) :
    (s.setFlags x carry).c = carry := rfl

/-- A shift to the left; the carry is the last bit shifted out. -/
def Machine.shifted (s : Machine) (rd rm : Reg) (k : ℕ) : Machine :=
  (s.setReg rd (s.reg rm * 2 ^ k % 4294967296)).setFlags (s.reg rm * 2 ^ k % 4294967296)
    ((s.reg rm).testBit (32 - k))

/-- The base register after an access of `k` bytes. -/
def Machine.advance (s : Machine) (rn : Reg) (k : ℕ) : Machine :=
  s.setReg rn ((s.reg rn + k) % 4294967296)

/-- A pointer that is moved on wraps like any register; the other registers keep their value. -/
@[simp] theorem Machine.reg_advance (s : Machine) (rn q : Reg) (k : ℕ) :
    (s.advance rn k).reg q = if q = rn then (s.reg rn + k) % 4294967296 else s.reg q :=
  s.reg_setReg rn q _

@[simp] theorem Machine.mem_advance (s : Machine) (rn : Reg) (k : ℕ) :
    (s.advance rn k).mem = s.mem := rfl

@[simp] theorem Machine.n_advance (s : Machine) (rn : Reg) (k : ℕ) : (s.advance rn k).n = s.n := rfl

@[simp] theorem Machine.z_advance (s : Machine) (rn : Reg) (k : ℕ) : (s.advance rn k).z = s.z := rfl

@[simp] theorem Machine.c_advance (s : Machine) (rn : Reg) (k : ℕ) : (s.advance rn k).c = s.c := rfl

/-- The words from address `p` on, into the registers of the list. -/
def loadRegs (reg : Reg → ℕ) (m : Memory) (p : ℕ) : List Reg → Reg → ℕ
  | [] => reg
  | r :: rs => loadRegs (Function.update reg r (load32 m p)) m (p + 4) rs

/-- The registers of the list, into the words from address `p` on. -/
def storeRegs (reg : Reg → ℕ) (m : Memory) (p : ℕ) : List Reg → Memory
  | [] => m
  | r :: rs => storeRegs reg (store32 m p (reg r)) (p + 4) rs

/-- What an instruction does; `none` is a usage fault. -/
def Instr.exec (s : Machine) : Instr → Option Machine
  | .cmp rn k =>
      some (s.setFlags ((s.reg rn + 4294967296 - k) % 4294967296) (decide (k ≤ s.reg rn)))
  | .ands rd rn k => some ((s.setReg rd (s.reg rn &&& k)).setFlags (s.reg rn &&& k) s.c)
  | .add rd rm => some (s.setReg rd ((s.reg rd + s.reg rm) % 4294967296))
  | .adds rd rn k =>
      let x := (s.reg rn + k) % 4294967296
      some ((s.setReg rd x).setFlags x (decide (4294967296 ≤ s.reg rn + k)))
  | .sub rd rn k => some (s.setReg rd ((s.reg rn + 4294967296 - k) % 4294967296))
  | .subs rd rn k =>
      let x := (s.reg rn + 4294967296 - k) % 4294967296
      some ((s.setReg rd x).setFlags x (decide (k ≤ s.reg rn)))
  | .lsls rd rm k => some (s.shifted rd rm k)
  | .ldrb rt rn k => some ((s.advance rn k).setReg rt (s.mem (s.reg rn)).toNat)
  | .ldrh rt rn k => some ((s.advance rn k).setReg rt (load16 s.mem (s.reg rn)))
  | .ldr rt rn k => some ((s.advance rn k).setReg rt (load32 s.mem (s.reg rn)))
  | .strb rt rn k =>
      some { s.advance rn k with mem := store8 s.mem (s.reg rn) (UInt8.ofNat (s.reg rt)) }
  | .strh rt rn k => some { s.advance rn k with mem := store16 s.mem (s.reg rn) (s.reg rt) }
  | .str rt rn k => some { s.advance rn k with mem := store32 s.mem (s.reg rn) (s.reg rt) }
  | .ldmia rn rs =>
      if s.reg rn % 4 = 0 then
        let loaded := { s with reg := loadRegs s.reg s.mem (s.reg rn) rs }
        some (loaded.setReg rn ((s.reg rn + 4 * rs.length) % 4294967296))
      else none
  | .stmia rn rs =>
      if s.reg rn % 4 = 0 then
        some { s.advance rn (4 * rs.length) with mem := storeRegs s.reg s.mem (s.reg rn) rs }
      else none
  | .push rs =>
      let p := (s.reg .sp + 4294967296 - 4 * rs.length) % 4294967296
      if p % 4 = 0 then some { s.setReg .sp p with mem := storeRegs s.reg s.mem p rs } else none
  | .nop => some s

/-! ### The flags -/

/-- The carry of a shift is the last bit out, and `N` the bit that has come to the top. -/
theorem exec_lsls (s : Machine) (rd rm : Reg) {k : ℕ} (hk : k ≤ 31) :
    ∃ s', Instr.exec s (.lsls rd rm k) = some s' ∧ s'.mem = s.mem ∧
      (∀ r, r ≠ rd → s'.reg r = s.reg r) ∧ s'.c = decide (s.reg rm / 2 ^ (32 - k) % 2 = 1) ∧
      s'.n = decide (s.reg rm / 2 ^ (31 - k) % 2 = 1) ∧
      s'.z = decide (s.reg rm * 2 ^ k % 4294967296 = 0) := by
  refine ⟨_, rfl, rfl, ?_, Nat.testBit_eq_decide_div_mod_eq, ?_, rfl⟩
  · intro r hr
    simp [Machine.shifted, hr]
  · have hmod := Nat.testBit_mod_two_pow (s.reg rm * 2 ^ k) 32 31
    have hmul := Nat.testBit_mul_two_pow (s.reg rm) 31 k
    simp only [hk, decide_true, Bool.true_and] at hmul
    rw [← Nat.testBit_eq_decide_div_mod_eq]
    simpa [Machine.shifted, hmul] using hmod

/-- After a subtraction the carry says that there was no borrow. -/
theorem exec_subs (s : Machine) (rd : Reg) (k : ℕ) :
    ∃ s', Instr.exec s (.subs rd rd k) = some s' ∧ s'.mem = s.mem ∧
      (∀ r, r ≠ rd → s'.reg r = s.reg r) ∧
      s'.reg rd = (s.reg rd + 4294967296 - k) % 4294967296 ∧ s'.c = decide (k ≤ s.reg rd) := by
  refine ⟨_, rfl, rfl, ?_, ?_, rfl⟩
  · intro r hr
    simp [hr]
  · simp

/-- After an addition `N` is the sign of the result. -/
theorem exec_adds (s : Machine) (rd : Reg) (k : ℕ) :
    ∃ s', Instr.exec s (.adds rd rd k) = some s' ∧ s'.mem = s.mem ∧
      (∀ r, r ≠ rd → s'.reg r = s.reg r) ∧ s'.reg rd = (s.reg rd + k) % 4294967296 ∧
      s'.n = decide (2147483648 ≤ s'.reg rd) := by
  refine ⟨_, rfl, rfl, ?_, ?_, ?_⟩
  · intro r hr
    simp [hr]
  · simp
  · have hlt : (s.reg rd + k) % 4294967296 < 4294967296 := Nat.mod_lt _ (by decide)
    simp only [Machine.n_setFlags, Machine.reg_setFlags, Machine.reg_setReg, if_true,
      Nat.testBit_eq_decide_div_mod_eq, decide_eq_decide]
    omega

/-- After a comparison `ls` and `cc` are the unsigned orders. -/
theorem exec_cmp (s : Machine) (rn : Reg) {k : ℕ} (hrn : s.reg rn < 4294967296)
    (hk : k < 4294967296) :
    ∃ s', Instr.exec s (.cmp rn k) = some s' ∧ s'.mem = s.mem ∧ s'.reg = s.reg ∧
      Cond.cc.holds s' = decide (s.reg rn < k) ∧ Cond.ls.holds s' = decide (s.reg rn ≤ k) := by
  have hz : (s.reg rn + 4294967296 - k) % 4294967296 = 0 ↔ s.reg rn = k := by omega
  refine ⟨_, rfl, s.mem_setFlags _ _, s.reg_setFlags _ _, ?_, ?_⟩
  · by_cases hle : k ≤ s.reg rn
    · simp [Cond.holds, hle]
    · simp [Cond.holds, hle, Nat.not_le.mp hle]
  · obtain hlt | heq | hgt := Nat.lt_trichotomy (s.reg rn) k
    · simp [Cond.holds, Nat.le_of_lt hlt, Nat.not_le.mpr hlt]
    · simp [Cond.holds, heq]
    · simp [Cond.holds, hz, Nat.ne_of_gt hgt, Nat.le_of_lt hgt, Nat.not_le.mpr hgt]

/-- The low two bits are the remainder by four. -/
theorem exec_ands_three (s : Machine) (rd rn : Reg) :
    ∃ s', Instr.exec s (.ands rd rn 3) = some s' ∧ s'.mem = s.mem ∧
      (∀ r, r ≠ rd → s'.reg r = s.reg r) ∧ s'.reg rd = s.reg rn % 4 ∧
      s'.z = decide (s.reg rn % 4 = 0) := by
  have hand : s.reg rn &&& 3 = s.reg rn % 4 := Nat.and_two_pow_sub_one_eq_mod (s.reg rn) 2
  refine ⟨_, rfl, rfl, ?_, ?_, ?_⟩
  · intro r hr
    simp [hr]
  · simp [hand]
  · simp [hand]

/-! ### Multiple loads and stores -/

/-- A register that is not in the list is not loaded. -/
theorem loadRegs_of_notMem {rs : List Reg} {q : Reg} (h : q ∉ rs) (reg : Reg → ℕ) (m : Memory)
    (p : ℕ) : loadRegs reg m p rs q = reg q := by
  induction rs generalizing reg p with
  | nil => rfl
  | cons r rs ih =>
    rw [List.mem_cons, not_or] at h
    obtain ⟨hne, hrest⟩ := h
    rw [loadRegs, ih hrest, Function.update_of_ne hne]

/-- The first of `n + 1` words, and the others. -/
theorem map_range_words {α : Type} (f : ℕ → α) (p n : ℕ) :
    (List.range (n + 1)).map (fun i => f (p + 4 * i))
      = f p :: (List.range n).map fun i => f (p + 4 + 4 * i) := by
  rw [List.range_succ_eq_map, List.map_cons, List.map_map]
  congr 1
  apply List.map_congr_left
  intro i _
  rw [Function.comp_apply, Nat.succ_eq_add_one, Nat.mul_add, Nat.add_comm (4 * i), ← Nat.add_assoc]

/-- Register by register, a multiple load reads the words in order. -/
theorem map_loadRegs {rs : List Reg} (h : rs.Nodup) (reg : Reg → ℕ) (m : Memory) (p : ℕ) :
    rs.map (loadRegs reg m p rs) = (List.range rs.length).map fun i => load32 m (p + 4 * i) := by
  induction rs generalizing reg p with
  | nil => rfl
  | cons r rs ih =>
    obtain ⟨hr, hrest⟩ := List.nodup_cons.mp h
    rw [List.map_cons, loadRegs, loadRegs_of_notMem hr, Function.update_self, ih hrest,
      List.length_cons, map_range_words (load32 m)]

/-- A multiple store writes the words in order. -/
theorem storeRegs_eq_storeBytes (rs : List Reg) (reg : Reg → ℕ) (m : Memory) (p : ℕ) :
    storeRegs reg m p rs = storeBytes m p ((rs.map reg).flatMap wordBytes) := by
  induction rs generalizing m p with
  | nil =>
    apply eq_storeBytes
    · intro i hi
      exact absurd hi (Nat.not_lt_zero i)
    · intros
      rfl
  | cons r rs ih =>
    rw [storeRegs, ih, store32_eq_storeBytes, List.map_cons, List.flatMap_cons, ← storeBytes_append]
    rfl

/-- The words from `p` on are the bytes from `p` on. -/
theorem flatMap_wordBytes_load32 (m : Memory) (p n : ℕ) :
    ((List.range n).map fun i => load32 m (p + 4 * i)).flatMap wordBytes = loadBytes m p (4 * n) := by
  induction n with
  | zero => rfl
  | succ n ih =>
    rw [List.range_succ, List.map_append, List.flatMap_append, ih, Nat.mul_succ, loadBytes_add]
    simp [wordBytes_load32]

/-- Registers are stored in a block of four bytes for each. -/
theorem storeRegs_outside {rs : List Reg} {p q : ℕ} (h : q < p ∨ p + 4 * rs.length ≤ q)
    (reg : Reg → ℕ) (m : Memory) : storeRegs reg m p rs q = m q := by
  induction rs generalizing m p with
  | nil => rfl
  | cons r rs ih =>
    rw [List.length_cons] at h
    rw [storeRegs, ih (by omega), store32_of_outside (by omega)]

/-- Register by register, the words of a multiple store are read back in order. -/
theorem map_load32_storeRegs {rs : List Reg} {reg : Reg → ℕ} (h : ∀ r ∈ rs, reg r < 4294967296)
    (m : Memory) (p : ℕ) :
    (List.range rs.length).map (fun i => load32 (storeRegs reg m p rs) (p + 4 * i))
      = rs.map reg := by
  induction rs generalizing m p with
  | nil => rfl
  | cons r rs ih =>
    obtain ⟨hr, hrest⟩ := List.forall_mem_cons.mp h
    have hfirst : load32 (storeRegs reg m p (r :: rs)) p = reg r := by
      rw [storeRegs, load32_congr (fun q _ hq => storeRegs_outside (Or.inl hq) reg _),
        load32_store32_self m p hr]
    rw [List.length_cons, map_range_words (load32 _), hfirst, List.map_cons,
      ← ih hrest (store32 m p (reg r)) (p + 4)]
    rfl

/-- Stored registers are still there after a copy to somewhere else. -/
theorem map_load32_copyBytes_storeRegs {rs : List Reg} {reg : Reg → ℕ}
    (h : ∀ r ∈ rs, reg r < 4294967296) (m : Memory) {p dst n : ℕ} (src : ℕ)
    (hdst : dst + n ≤ p ∨ p + 4 * rs.length ≤ dst) :
    (List.range rs.length).map
        (fun i => load32 (copyBytes (storeRegs reg m p rs) dst src n) (p + 4 * i))
      = rs.map reg := by
  rw [← map_load32_storeRegs h m p]
  apply List.map_congr_left
  intro i hi
  have hlt := List.mem_range.mp hi
  exact load32_congr fun q _ _ => copyBytes_outside _ (by omega)

/-- `ldmia` with write-back loads one word for each register of the list, from an aligned address
    on. -/
theorem exec_ldmia (s : Machine) (rn : Reg) (rs : List Reg) (ha : s.reg rn % 4 = 0)
    (hrs : rs.Nodup) (hrn : rn ∉ rs) :
    ∃ s', Instr.exec s (.ldmia rn rs) = some s' ∧ s'.mem = s.mem ∧ SameFlags s s' ∧
      s'.reg rn = (s.reg rn + 4 * rs.length) % 4294967296 ∧
      (∀ r, r ≠ rn → r ∉ rs → s'.reg r = s.reg r) ∧
      rs.map s'.reg = (List.range rs.length).map fun i => load32 s.mem (s.reg rn + 4 * i) := by
  refine ⟨_, if_pos ha, rfl, ⟨rfl, rfl, rfl⟩, ?_, ?_, ?_⟩
  · simp
  · intro r hne hr
    rw [Machine.reg_setReg, if_neg hne]
    exact loadRegs_of_notMem hr _ _ _
  · rw [← map_loadRegs hrs s.reg]
    apply List.map_congr_left
    intro r hr
    have hne : r ≠ rn := fun h => hrn (h ▸ hr)
    rw [Machine.reg_setReg, if_neg hne]

/-- A multiple store of registers that hold the words from `q` on copies them. -/
theorem exec_stmia (s : Machine) (rn : Reg) (rs : List Reg) {m : Memory} {q : ℕ}
    (ha : s.reg rn % 4 = 0)
    (h : rs.map s.reg = (List.range rs.length).map fun i => load32 m (q + 4 * i)) :
    ∃ s', Instr.exec s (.stmia rn rs) = some s' ∧
      s'.mem = storeBytes s.mem (s.reg rn) (loadBytes m q (4 * rs.length)) ∧
      SameFlags s s' ∧ s'.reg rn = (s.reg rn + 4 * rs.length) % 4294967296 ∧
      ∀ r, r ≠ rn → s'.reg r = s.reg r := by
  refine ⟨_, if_pos ha, ?_, ⟨rfl, rfl, rfl⟩, ?_, ?_⟩
  · rw [← flatMap_wordBytes_load32, ← h]
    exact storeRegs_eq_storeBytes rs s.reg s.mem (s.reg rn)
  · simp
  · intro r hr
    simp [hr]

/-- A push stores the registers of the list below the old stack pointer. -/
theorem exec_push (s : Machine) (rs : List Reg) (hroom : 4 * rs.length ≤ s.reg .sp)
    (hlt : s.reg .sp < 4294967296) (ha : s.reg .sp % 4 = 0) :
    ∃ s', Instr.exec s (.push rs) = some s' ∧
      s'.mem = storeRegs s.reg s.mem (s.reg .sp - 4 * rs.length) rs ∧
      s'.reg .sp = s.reg .sp - 4 * rs.length ∧ ∀ r, r ≠ .sp → s'.reg r = s.reg r := by
  have hp : (s.reg .sp + 4294967296 - 4 * rs.length) % 4294967296 = s.reg .sp - 4 * rs.length := by
    omega
  refine ⟨{ s.setReg .sp (s.reg .sp - 4 * rs.length) with
    mem := storeRegs s.reg s.mem (s.reg .sp - 4 * rs.length) rs }, ?_, rfl, ?_, ?_⟩
  · simp only [Instr.exec, hp]
    rw [if_pos (by omega)]
  · simp
  · intro r hr
    simp [hr]

/-! ### Programs -/

/-- A line of a program whose labels are `L`. -/
inductive Line (L : Type) where
  | op (c : Cond) (i : Instr)
  | b (c : Cond) (l : L)
  | bx (c : Cond) (rm : Reg)

variable {L : Type}

/-- The lines still to be executed, or the address that the program has returned to. -/
inductive Config (L : Type) where
  | at (code : List (Line L)) (s : Machine)
  | returned (ret : ℕ) (s : Machine)

/-- One line; `prog` gives the code from each label on. -/
def step (prog : L → List (Line L)) : Config L → Option (Config L)
  | .at (.op c i :: rest) s =>
      if c.holds s then (i.exec s).map (Config.at rest) else some (.at rest s)
  | .at (.b c l :: rest) s => some (.at (if c.holds s then prog l else rest) s)
  | .at (.bx c rm :: rest) s => some (if c.holds s then .returned (s.reg rm) s else .at rest s)
  | .at [] _ => none
  | .returned _ _ => none

/-- Execution, from one configuration to a later one. -/
def Steps (prog : L → List (Line L)) : Config L → Config L → Prop :=
  Relation.ReflTransGen fun a b => step prog a = some b

section Rules

variable {prog : L → List (Line L)} {rest : List (Line L)} {c : Cond} {s s' : Machine}
  {b : Config L}

/-- Without a step the program stays where it is. -/
theorem Steps.refl (a : Config L) : Steps prog a a := Relation.ReflTransGen.refl

/-- Steps one after the other. -/
theorem Steps.trans {x y z : Config L} (h₁ : Steps prog x y) (h₂ : Steps prog y z) :
    Steps prog x z :=
  Relation.ReflTransGen.trans h₁ h₂

/-- An instruction whose condition holds is executed. -/
theorem steps_op {i : Instr} (hc : c.holds s = true) (hi : i.exec s = some s')
    (h : Steps prog (.at rest s') b) : Steps prog (.at (.op c i :: rest) s) b :=
  Relation.ReflTransGen.head (by rw [step, if_pos hc, hi, Option.map_some]) h

/-- An instruction whose condition fails does nothing. -/
theorem steps_skip {i : Instr} (hc : c.holds s = false) (h : Steps prog (.at rest s) b) :
    Steps prog (.at (.op c i :: rest) s) b :=
  Relation.ReflTransGen.head (by rw [step, hc, if_neg Bool.false_ne_true]) h

/-- A branch whose condition holds goes on at its label. -/
theorem steps_branch {l : L} (hc : c.holds s = true) (h : Steps prog (.at (prog l) s) b) :
    Steps prog (.at (.b c l :: rest) s) b :=
  Relation.ReflTransGen.head (by rw [step, if_pos hc]) h

/-- A branch whose condition fails goes on behind it. -/
theorem steps_fall {l : L} (hc : c.holds s = false) (h : Steps prog (.at rest s) b) :
    Steps prog (.at (.b c l :: rest) s) b :=
  Relation.ReflTransGen.head (by rw [step, hc, if_neg Bool.false_ne_true]) h

/-- A return whose condition holds ends the run at the address in the register. -/
theorem steps_bx {rm : Reg} {ret : ℕ} (hc : c.holds s = true) (hr : s.reg rm = ret) :
    Steps prog (.at (.bx c rm :: rest) s) (.returned ret s) :=
  Relation.ReflTransGen.single (by rw [step, if_pos hc, hr])

/-- A return whose condition fails goes on behind it. -/
theorem steps_bx_skip {rm : Reg} (hc : c.holds s = false) (h : Steps prog (.at rest s) b) :
    Steps prog (.at (.bx c rm :: rest) s) b :=
  Relation.ReflTransGen.head (by rw [step, hc, if_neg Bool.false_ne_true]) h

end Rules

end Thumb

end SerialNet
