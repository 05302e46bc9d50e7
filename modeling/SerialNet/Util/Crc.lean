import Mathlib.Tactic.IntervalCases
import SerialNet.Lib.CString
import SerialNet.Lib.Crc

namespace SerialNet

/-!
# `util.c` — the checksums of 8 and 32 bits

`NST_GetCrc8` takes a byte at a time from a table of 256 entries.  `NST_GetCrc32` keeps its
register in the other order of bits, takes a byte at a time by 32 equations on single bits, and
turns the register round at the end.
-/

/-! ### `NST_GetCrc8` -/

set_option maxRecDepth 4096 in
/-- `__crc8_tbl`. -/
def crc8Tbl : Vector UInt8 256 :=
  #v[0x00, 0x91, 0xe3, 0x72, 0x07, 0x96, 0xe4, 0x75, 0x0e, 0x9f, 0xed, 0x7c, 0x09, 0x98, 0xea, 0x7b,
    0x1c, 0x8d, 0xff, 0x6e, 0x1b, 0x8a, 0xf8, 0x69, 0x12, 0x83, 0xf1, 0x60, 0x15, 0x84, 0xf6, 0x67,
    0x38, 0xa9, 0xdb, 0x4a, 0x3f, 0xae, 0xdc, 0x4d, 0x36, 0xa7, 0xd5, 0x44, 0x31, 0xa0, 0xd2, 0x43,
    0x24, 0xb5, 0xc7, 0x56, 0x23, 0xb2, 0xc0, 0x51, 0x2a, 0xbb, 0xc9, 0x58, 0x2d, 0xbc, 0xce, 0x5f,
    0x70, 0xe1, 0x93, 0x02, 0x77, 0xe6, 0x94, 0x05, 0x7e, 0xef, 0x9d, 0x0c, 0x79, 0xe8, 0x9a, 0x0b,
    0x6c, 0xfd, 0x8f, 0x1e, 0x6b, 0xfa, 0x88, 0x19, 0x62, 0xf3, 0x81, 0x10, 0x65, 0xf4, 0x86, 0x17,
    0x48, 0xd9, 0xab, 0x3a, 0x4f, 0xde, 0xac, 0x3d, 0x46, 0xd7, 0xa5, 0x34, 0x41, 0xd0, 0xa2, 0x33,
    0x54, 0xc5, 0xb7, 0x26, 0x53, 0xc2, 0xb0, 0x21, 0x5a, 0xcb, 0xb9, 0x28, 0x5d, 0xcc, 0xbe, 0x2f,
    0xe0, 0x71, 0x03, 0x92, 0xe7, 0x76, 0x04, 0x95, 0xee, 0x7f, 0x0d, 0x9c, 0xe9, 0x78, 0x0a, 0x9b,
    0xfc, 0x6d, 0x1f, 0x8e, 0xfb, 0x6a, 0x18, 0x89, 0xf2, 0x63, 0x11, 0x80, 0xf5, 0x64, 0x16, 0x87,
    0xd8, 0x49, 0x3b, 0xaa, 0xdf, 0x4e, 0x3c, 0xad, 0xd6, 0x47, 0x35, 0xa4, 0xd1, 0x40, 0x32, 0xa3,
    0xc4, 0x55, 0x27, 0xb6, 0xc3, 0x52, 0x20, 0xb1, 0xca, 0x5b, 0x29, 0xb8, 0xcd, 0x5c, 0x2e, 0xbf,
    0x90, 0x01, 0x73, 0xe2, 0x97, 0x06, 0x74, 0xe5, 0x9e, 0x0f, 0x7d, 0xec, 0x99, 0x08, 0x7a, 0xeb,
    0x8c, 0x1d, 0x6f, 0xfe, 0x8b, 0x1a, 0x68, 0xf9, 0x82, 0x13, 0x61, 0xf0, 0x85, 0x14, 0x66, 0xf7,
    0xa8, 0x39, 0x4b, 0xda, 0xaf, 0x3e, 0x4c, 0xdd, 0xa6, 0x37, 0x45, 0xd4, 0xa1, 0x30, 0x42, 0xd3,
    0xb4, 0x25, 0x57, 0xc6, 0xb3, 0x22, 0x50, 0xc1, 0xba, 0x2b, 0x59, 0xc8, 0xbd, 0x2c, 0x5e, 0xcf]

/-- `NST_GetCrc8`, from the register `crc8` on. -/
def nstGetCrc8Loop (m : Memory) : ℕ → ℕ → UInt8 → UInt8
  | 0, _, crc8 => crc8
  | len + 1, ptr, crc8 => nstGetCrc8Loop m len (ptr + 1) (crc8Tbl.get (crc8 ^^^ m ptr).toFin)

/-- `NST_GetCrc8`. -/
def nstGetCrc8 (m : Memory) (ptr len : ℕ) : UInt8 := nstGetCrc8Loop m len ptr 0

/-! ### `NST_GetCrc32` -/

/-- The equations of `_cal_crc32`; every cell of the three arrays holds a single bit. -/
def crcOut (inDataBuf crcBuf : ℕ → Bool) : ℕ → Bool
  | 0 => inDataBuf 1 ^^ inDataBuf 7 ^^ crcBuf 30 ^^ crcBuf 24
  | 1 => inDataBuf 0 ^^ inDataBuf 1 ^^ inDataBuf 6 ^^ inDataBuf 7 ^^ crcBuf 31 ^^ crcBuf 30
      ^^ crcBuf 25 ^^ crcBuf 24
  | 2 => inDataBuf 0 ^^ inDataBuf 1 ^^ inDataBuf 5 ^^ inDataBuf 6 ^^ inDataBuf 7 ^^ crcBuf 31
      ^^ crcBuf 30 ^^ crcBuf 26 ^^ crcBuf 25 ^^ crcBuf 24
  | 3 => inDataBuf 0 ^^ inDataBuf 4 ^^ inDataBuf 5 ^^ inDataBuf 6 ^^ crcBuf 31 ^^ crcBuf 27
      ^^ crcBuf 26 ^^ crcBuf 25
  | 4 => inDataBuf 1 ^^ inDataBuf 3 ^^ inDataBuf 4 ^^ inDataBuf 5 ^^ inDataBuf 7 ^^ crcBuf 30
      ^^ crcBuf 28 ^^ crcBuf 27 ^^ crcBuf 26 ^^ crcBuf 24
  | 5 => inDataBuf 0 ^^ inDataBuf 1 ^^ inDataBuf 2 ^^ inDataBuf 3 ^^ inDataBuf 4 ^^ inDataBuf 6
      ^^ inDataBuf 7 ^^ crcBuf 31 ^^ crcBuf 30 ^^ crcBuf 29 ^^ crcBuf 28 ^^ crcBuf 27 ^^ crcBuf 25
      ^^ crcBuf 24
  | 6 => inDataBuf 0 ^^ inDataBuf 1 ^^ inDataBuf 2 ^^ inDataBuf 3 ^^ inDataBuf 5 ^^ inDataBuf 6
      ^^ crcBuf 31 ^^ crcBuf 30 ^^ crcBuf 29 ^^ crcBuf 28 ^^ crcBuf 26 ^^ crcBuf 25
  | 7 => inDataBuf 0 ^^ inDataBuf 2 ^^ inDataBuf 4 ^^ inDataBuf 5 ^^ inDataBuf 7 ^^ crcBuf 31
      ^^ crcBuf 29 ^^ crcBuf 27 ^^ crcBuf 26 ^^ crcBuf 24
  | 8 => inDataBuf 3 ^^ inDataBuf 4 ^^ inDataBuf 6 ^^ inDataBuf 7 ^^ crcBuf 28 ^^ crcBuf 27
      ^^ crcBuf 25 ^^ crcBuf 24 ^^ crcBuf 0
  | 9 => inDataBuf 2 ^^ inDataBuf 3 ^^ inDataBuf 5 ^^ inDataBuf 6 ^^ crcBuf 29 ^^ crcBuf 28
      ^^ crcBuf 26 ^^ crcBuf 25 ^^ crcBuf 1
  | 10 => inDataBuf 2 ^^ inDataBuf 4 ^^ inDataBuf 5 ^^ inDataBuf 7 ^^ crcBuf 29 ^^ crcBuf 27
      ^^ crcBuf 26 ^^ crcBuf 24 ^^ crcBuf 2
  | 11 => inDataBuf 3 ^^ inDataBuf 4 ^^ inDataBuf 6 ^^ inDataBuf 7 ^^ crcBuf 28 ^^ crcBuf 27
      ^^ crcBuf 25 ^^ crcBuf 24 ^^ crcBuf 3
  | 12 => inDataBuf 1 ^^ inDataBuf 2 ^^ inDataBuf 3 ^^ inDataBuf 5 ^^ inDataBuf 6 ^^ inDataBuf 7
      ^^ crcBuf 30 ^^ crcBuf 29 ^^ crcBuf 28 ^^ crcBuf 26 ^^ crcBuf 25 ^^ crcBuf 24 ^^ crcBuf 4
  | 13 => inDataBuf 0 ^^ inDataBuf 1 ^^ inDataBuf 2 ^^ inDataBuf 4 ^^ inDataBuf 5 ^^ inDataBuf 6
      ^^ crcBuf 31 ^^ crcBuf 30 ^^ crcBuf 29 ^^ crcBuf 27 ^^ crcBuf 26 ^^ crcBuf 25 ^^ crcBuf 5
  | 14 => inDataBuf 0 ^^ inDataBuf 1 ^^ inDataBuf 3 ^^ inDataBuf 4 ^^ inDataBuf 5 ^^ crcBuf 31
      ^^ crcBuf 30 ^^ crcBuf 28 ^^ crcBuf 27 ^^ crcBuf 26 ^^ crcBuf 6
  | 15 => inDataBuf 0 ^^ inDataBuf 2 ^^ inDataBuf 3 ^^ inDataBuf 4 ^^ crcBuf 31 ^^ crcBuf 29
      ^^ crcBuf 28 ^^ crcBuf 27 ^^ crcBuf 7
  | 16 => inDataBuf 2 ^^ inDataBuf 3 ^^ inDataBuf 7 ^^ crcBuf 29 ^^ crcBuf 28 ^^ crcBuf 24
      ^^ crcBuf 8
  | 17 => inDataBuf 1 ^^ inDataBuf 2 ^^ inDataBuf 6 ^^ crcBuf 30 ^^ crcBuf 29 ^^ crcBuf 25
      ^^ crcBuf 9
  | 18 => inDataBuf 0 ^^ inDataBuf 1 ^^ inDataBuf 5 ^^ crcBuf 31 ^^ crcBuf 30 ^^ crcBuf 26
      ^^ crcBuf 10
  | 19 => inDataBuf 0 ^^ inDataBuf 4 ^^ crcBuf 31 ^^ crcBuf 27 ^^ crcBuf 11
  | 20 => inDataBuf 3 ^^ crcBuf 28 ^^ crcBuf 12
  | 21 => inDataBuf 2 ^^ crcBuf 29 ^^ crcBuf 13
  | 22 => inDataBuf 7 ^^ crcBuf 24 ^^ crcBuf 14
  | 23 => inDataBuf 1 ^^ inDataBuf 6 ^^ inDataBuf 7 ^^ crcBuf 30 ^^ crcBuf 25 ^^ crcBuf 24
      ^^ crcBuf 15
  | 24 => inDataBuf 0 ^^ inDataBuf 5 ^^ inDataBuf 6 ^^ crcBuf 31 ^^ crcBuf 26 ^^ crcBuf 25
      ^^ crcBuf 16
  | 25 => inDataBuf 4 ^^ inDataBuf 5 ^^ crcBuf 27 ^^ crcBuf 26 ^^ crcBuf 17
  | 26 => inDataBuf 1 ^^ inDataBuf 3 ^^ inDataBuf 4 ^^ inDataBuf 7 ^^ crcBuf 30 ^^ crcBuf 28
      ^^ crcBuf 27 ^^ crcBuf 24 ^^ crcBuf 18
  | 27 => inDataBuf 0 ^^ inDataBuf 2 ^^ inDataBuf 3 ^^ inDataBuf 6 ^^ crcBuf 31 ^^ crcBuf 29
      ^^ crcBuf 28 ^^ crcBuf 25 ^^ crcBuf 19
  | 28 => inDataBuf 1 ^^ inDataBuf 2 ^^ inDataBuf 5 ^^ crcBuf 30 ^^ crcBuf 29 ^^ crcBuf 26
      ^^ crcBuf 20
  | 29 => inDataBuf 0 ^^ inDataBuf 1 ^^ inDataBuf 4 ^^ crcBuf 31 ^^ crcBuf 30 ^^ crcBuf 27
      ^^ crcBuf 21
  | 30 => inDataBuf 0 ^^ inDataBuf 3 ^^ crcBuf 31 ^^ crcBuf 28 ^^ crcBuf 22
  | 31 => inDataBuf 2 ^^ crcBuf 23 ^^ crcBuf 29
  | _ => false

/-- `_cal_crc32`. -/
def calCrc32 (crcResult : BitVec 32) (data8 : UInt8) : BitVec 32 :=
  let inDataBuf := data8.toBitVec.getLsbD
  -- The sign that the shift to the right brings in stays above the bit that is kept.
  let crcBuf := crcResult.getLsbD
  (List.range 32).foldl (fun crcResult i =>
    if crcOut inDataBuf crcBuf i then crcResult ||| (1#32 <<< i) else crcResult) 0

/-- The loop of `NST_GetCrc32`, for the remaining bytes. -/
def nstGetCrc32Loop (m : Memory) (pData : ℕ) : ℕ → ℕ → BitVec 32 → BitVec 32
  | 0, _, crcResult => crcResult
  | n + 1, i, crcResult => nstGetCrc32Loop m pData n (i + 1) (calCrc32 crcResult (m (pData + i)))

/-- `NST_GetCrc32`; `dataSize` is a signed number. -/
def nstGetCrc32 (m : Memory) (pData : ℕ) (dataSize : ℤ) : BitVec 32 :=
  let crcResult := nstGetCrc32Loop m pData dataSize.toNat 0 0xFFFFFFFF#32
  let val := (List.range 32).foldl (fun val i =>
    if crcResult.getLsbD i then val ||| (1#32 <<< (31 - i)) else val) 0
  ~~~val

/-! ### The table is the generator's -/

/-- Entry `x` is what eight bits make of the register `x`. -/
theorem crc8Tbl_get : ∀ x : Fin 256,
    (crc8Tbl.get x).toBitVec = crcByte 0xE0#8 (BitVec.ofFin x) 0 := by
  decide +kernel

/-- A byte can be added to a register of its own width before its bits are shifted out. -/
theorem crcByte_eight (r d : BitVec 8) : crcByte 0xE0#8 r d = crcByte 0xE0#8 (r ^^^ d) 0 := by
  have hlinear := crcByte_linear 0xE0#8
  have hbyte : crcByte 0xE0#8 0 d = crcByte 0xE0#8 d 0 :=
    hlinear.right.ext hlinear.left (by decide) d
  have hsum := hlinear r d 0 0
  rw [BitVec.xor_self] at hsum
  rw [hlinear.split, hbyte]
  exact hsum.symm

/-- The loop over the bytes is the bitwise register with the polynomial `0xE0`. -/
theorem nstGetCrc8Loop_eq (m : Memory) (len : ℕ) : ∀ (ptr : ℕ) (crc8 : UInt8),
    (nstGetCrc8Loop m len ptr crc8).toBitVec
      = crcBytes 0xE0#8 (loadBytes m ptr len) crc8.toBitVec := by
  induction len with
  | zero => exact fun _ _ => rfl
  | succ len ih =>
    intro ptr crc8
    rw [Nat.add_comm, loadBytes_add, Nat.add_comm, nstGetCrc8Loop, ih, crc8Tbl_get]
    show _ = crcBytes 0xE0#8 (m ptr :: loadBytes m (ptr + 1) len) crc8.toBitVec
    rw [crcBytes_cons, crcByte_eight crc8.toBitVec]
    rfl

/-- **`NST_GetCrc8`** is the bitwise CRC-8 of the bytes it is given. -/
theorem nstGetCrc8_eq_crc8 (m : Memory) (ptr len : ℕ) :
    (nstGetCrc8 m ptr len).toBitVec = crc8 (loadBytes m ptr len) := nstGetCrc8Loop_eq m len ptr 0

/-! ### The equations are eight steps of the reflected register -/

/-- A loop that sets the bit at `pos i` for every `i` with `bit i`. -/
theorem getLsbD_setBits (bit : ℕ → Bool) (pos : ℕ → ℕ) (idxs : List ℕ) (j : ℕ) :
    ∀ r : BitVec 32,
    (idxs.foldl (fun r i => if bit i then r ||| (1#32 <<< pos i) else r) r).getLsbD j
      = (r.getLsbD j || idxs.any fun i => bit i && decide (j < 32 ∧ pos i = j)) := by
  induction idxs with
  | nil => simp
  | cons i idxs ih =>
    intro r
    rw [List.foldl_cons, ih, List.any_cons]
    have hbit : (1#32 <<< pos i).getLsbD j = decide (j < 32 ∧ pos i = j) := by
      rw [← BitVec.twoPow_eq, BitVec.getLsbD_twoPow]
      grind
    cases bit i with
    | true => rw [if_pos rfl, BitVec.getLsbD_or, hbit, Bool.true_and, Bool.or_assoc]
    | false => rw [if_neg Bool.false_ne_true, Bool.false_and, Bool.false_or]

/-- The register that `_cal_crc32` returns has the bits of `crc_out`. -/
theorem calCrc32_getLsbD (r : BitVec 32) (d : UInt8) {i : ℕ} (hi : i < 32) :
    (calCrc32 r d).getLsbD i = crcOut d.toBitVec.getLsbD r.getLsbD i := by
  have hbits := getLsbD_setBits (crcOut d.toBitVec.getLsbD r.getLsbD) (fun i => i)
    (List.range 32) i 0
  apply hbits.trans
  rw [show (0 : BitVec 32) = 0#32 from rfl, BitVec.getLsbD_zero, Bool.false_or]
  rw [Bool.eq_iff_iff, List.any_eq_true]
  constructor
  · rintro ⟨k, -, hk⟩
    obtain ⟨hout, hpos⟩ := Bool.and_eq_true_iff.mp hk
    rwa [(of_decide_eq_true hpos).2] at hout
  · intro hout
    exact ⟨i, List.mem_range.mpr hi, by simp [hout, hi]⟩

/-- Sums of two pairs can be formed in another order. -/
theorem xor_pairs {p q a a' b b' : Bool} (hp : p = (a ^^ a')) (hq : q = (b ^^ b')) :
    (p ^^ q) = ((a ^^ b) ^^ (a' ^^ b')) := by
  rw [hp, hq, Bool.xor_assoc, Bool.xor_assoc, Bool.xor_left_comm a']

/-- Every equation is linear. -/
theorem crcOut_xor (d d' c c' : ℕ → Bool) {i : ℕ} (hi : i < 32) :
    crcOut (fun j => d j ^^ d' j) (fun j => c j ^^ c' j) i = (crcOut d c i ^^ crcOut d' c' i) := by
  interval_cases i <;> simp only [crcOut] <;> (repeat' apply xor_pairs) <;> rfl

/-- A byte of `_cal_crc32` is linear in register and byte together. -/
theorem calCrc32_linear :
    XorLinear₂ fun (r : BitVec 32) (d : BitVec 8) => calCrc32 r (UInt8.ofBitVec d) := by
  intro x y a b
  apply BitVec.eq_of_getLsbD_eq
  intro i hi
  rw [BitVec.getLsbD_xor, calCrc32_getLsbD _ _ hi, calCrc32_getLsbD _ _ hi, calCrc32_getLsbD _ _ hi,
    ← crcOut_xor _ _ _ _ hi]
  congr 1
  · funext j
    exact BitVec.getLsbD_xor
  · funext j
    exact BitVec.getLsbD_xor

/-- Bits are reversed one by one. -/
theorem reverse_xor (x y : BitVec 32) : (x ^^^ y).reverse = x.reverse ^^^ y.reverse := by
  apply BitVec.eq_of_getLsbD_eq
  intro i _
  rw [BitVec.getLsbD_xor, BitVec.getLsbD_reverse, BitVec.getLsbD_reverse, BitVec.getLsbD_reverse,
    BitVec.getMsbD_xor]

/-- **The 32 equations** shift the bits of a byte into the register turned round. -/
theorem calCrc32_reverse (r : BitVec 32) (d : UInt8) :
    calCrc32 r.reverse d = (crcByte 0xEDB88320#32 r d.toBitVec).reverse := by
  have hcode : XorLinear₂ fun (r : BitVec 32) (d : BitVec 8) =>
      calCrc32 r.reverse (UInt8.ofBitVec d) := by
    intro x y a b
    show calCrc32 (x ^^^ y).reverse _ = _
    rw [reverse_xor]
    exact calCrc32_linear x.reverse y.reverse a b
  have hbits : XorLinear₂ fun (r : BitVec 32) (d : BitVec 8) =>
      (crcByte 0xEDB88320#32 r d).reverse := by
    intro x y a b
    show (crcByte 0xEDB88320#32 (x ^^^ y) (a ^^^ b)).reverse = _
    rw [crcByte_linear, reverse_xor]
  -- 32 registers and 8 bytes of a single bit
  exact hcode.ext hbits (by decide +kernel) (by decide +kernel) r d.toBitVec

/-- The loop works on the reversed register. -/
theorem nstGetCrc32Loop_eq (m : Memory) (pData n : ℕ) : ∀ (i : ℕ) (r : BitVec 32),
    nstGetCrc32Loop m pData n i r.reverse
      = (crcBytes 0xEDB88320#32 (loadBytes m (pData + i) n) r).reverse := by
  induction n with
  | zero => exact fun _ _ => rfl
  | succ n ih =>
    intro i r
    rw [Nat.add_comm, loadBytes_add, Nat.add_comm, nstGetCrc32Loop, calCrc32_reverse, ih]
    rfl

/-- The loop at the end turns the register round. -/
theorem setBits_reverse (r : BitVec 32) :
    (List.range 32).foldl (fun val i =>
      if r.getLsbD i then val ||| (1#32 <<< (31 - i)) else val) 0 = r.reverse := by
  apply BitVec.eq_of_getLsbD_eq
  intro j hj
  rw [getLsbD_setBits r.getLsbD (fun i => 31 - i), BitVec.getLsbD_reverse, BitVec.getMsbD,
    show (0 : BitVec 32) = 0#32 from rfl, BitVec.getLsbD_zero, Bool.false_or, Bool.eq_iff_iff,
    List.any_eq_true]
  constructor
  · rintro ⟨i, hi, hbit⟩
    have := List.mem_range.mp hi
    grind
  · intro hbit
    refine ⟨31 - j, List.mem_range.mpr (by omega), ?_⟩
    grind

/-- **`NST_GetCrc32`** is the bitwise CRC-32 of the bytes it is given. -/
theorem nstGetCrc32_eq_crc32 (m : Memory) (pData : ℕ) (dataSize : ℤ) :
    nstGetCrc32 m pData dataSize = crc32 (loadBytes m pData dataSize.toNat) := by
  have hloop := nstGetCrc32Loop_eq m pData dataSize.toNat 0 0xFFFFFFFF#32
  rw [show (0xFFFFFFFF#32).reverse = 0xFFFFFFFF#32 by decide +kernel] at hloop
  rw [nstGetCrc32, setBits_reverse, hloop, BitVec.reverse_reverse_eq, crc32]
  exact BitVec.xor_allOnes.symm

example : crc32 (ascii "123456789") = 0xCBF43926#32 := by decide +kernel

end SerialNet
