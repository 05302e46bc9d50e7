import SerialNet.Util.Memcpy

namespace SerialNet

open Thumb

/-!
# The copy routine returns

`__aeabi_memcpy4` pushes `r4` and `lr`, since it copies through them, so the eight bytes below the
stack pointer are lost; `StackReady` keeps them apart from the bytes that are copied.  `Returns` is
`Finishes` up to these eight bytes, and the two functions are put together from their parts by
`Returns.after`.
-/

/-! ### The end of the aligned copy -/

/-- The return when no byte is left, and the last bytes otherwise. -/
theorem finishes_bxeq {s : Machine} (hz : s.z = decide (s.reg .r2 % 4 = 0))
    (hp : CopyReady s (s.reg .r2 % 4)) :
    Finishes (.bx .eq .lr :: memcpyLastbytesAligned) s (s.reg .r2 % 4) := by
  by_cases hnone : s.reg .r2 % 4 = 0
  · rw [hnone]
    exact ⟨s, steps_bx (hz.trans (decide_eq_true hnone)) rfl, moved_zero rfl rfl rfl,
      fun _ _ => rfl⟩
  · obtain ⟨t, ht, hmt, hkt⟩ := finishes_memcpyLastbytesAligned hp
    exact ⟨t, steps_bx_skip (hz.trans (decide_eq_false hnone)) ht, hmt, hkt⟩

/-- A word if bit 2 of the count is set, then the last bytes. -/
theorem finishes_copyLastWord {s : Machine} (hp : CopyReady s (s.reg .r2 % 8)) :
    Finishes copyLastWord s (s.reg .r2 % 8) := by
  obtain ⟨s₁, hshift, hmem, hreg, hc, -, hz⟩ := exec_lsls s .ip .r2 (show 30 ≤ 31 by decide)
  have hm₁ : Moved s s₁ 0 := moved_zero (hreg .r0 (by decide)) (hreg .r1 (by decide)) hmem
  have hk₁ : Kept [.r2, .r4, .sp, .lr] s s₁ := by simp [Kept, hreg]
  have hz₁ : s₁.z = decide (s₁.reg .r2 % 4 = 0) := by
    rw [hz, hreg .r2 (by decide), decide_eq_decide]
    omega
  by_cases hfour : s.reg .r2 / 4 % 2 = 1
  · have hp₁ : CopyReady s₁ 4 := (hp.mono (by omega)).congr hm₁.r0 hm₁.r1
    obtain ⟨s₂, hword, hm₂, hk₂, hz₂⟩ := steps_copyWord .cs (hc.trans (decide_eq_true hfour)) hp₁
    have hr2 : s₂.reg .r2 = s.reg .r2 := (hk₂ .r2 (by decide)).trans (hreg .r2 (by decide))
    have hm : Moved s s₂ 4 := hm₁.trans hm₂ (hp.mono (by omega))
    have hn : s.reg .r2 % 8 = 4 + s₂.reg .r2 % 4 := by omega
    rw [hn] at hp ⊢
    refine Finishes.after (steps_op rfl hshift (hword _)) hm
      ((hk₁.trans hk₂).mono (by decide)) hp fun hp₂ => finishes_bxeq ?_ hp₂
    rw [hz₂, hz₁, hk₂ .r2 (by decide)]
  · have hcs : s₁.c = false := hc.trans (decide_eq_false hfour)
    have hr2 : s₁.reg .r2 = s.reg .r2 := hreg .r2 (by decide)
    have hn : s.reg .r2 % 8 = 0 + s₁.reg .r2 % 4 := by omega
    rw [hn] at hp ⊢
    exact Finishes.after (steps_op rfl hshift <| steps_skip hcs <| steps_skip hcs (Steps.refl _))
      hm₁ (hk₁.mono (by decide)) hp fun hp₁ => finishes_bxeq hz₁ hp₁

/-! ### The aligned copy -/

/-- The code of `__aeabi_memcpy4` behind the first subtraction: what is not a multiple of
    thirty-two is left. -/
theorem steps_toCopy16BytesLoop {s : Machine} {n : ℕ} (hc : s.c = decide (32 ≤ n))
    (hr2 : s.reg .r2 = (n + 4294967296 - 32) % 4294967296) (h0 : s.reg .r0 % 4 = 0)
    (h1 : s.reg .r1 % 4 = 0) (hp : CopyReady s n) :
    ∃ s', Steps memcpyCode (.at (.b .cc .copy16BytesLoop :: copy32BytesLoop) s)
        (.at copy16BytesLoop s') ∧
      Moved s s' (n - n % 32) ∧ Kept [.sp] s s' ∧ s'.reg .r2 % 32 = n % 32 := by
  have hend := hp.dst_end
  by_cases hn : 32 ≤ n
  · obtain ⟨s', hs, hm, hk, hr2'⟩ := steps_copy32BytesLoop n s hn (by omega) h0 h1 hp
    exact ⟨s', steps_fall (by simp [Cond.holds, hc, hn]) hs, hm, hk, hr2'⟩
  · have hnone : n - n % 32 = 0 := by omega
    rw [hnone]
    exact ⟨s, steps_branch (by simp [Cond.holds, hc, hn]) (Steps.refl _), moved_zero rfl rfl rfl,
      fun _ _ => rfl, by omega⟩

/-- Whole registers, as long as there are eight bytes: all that `__aeabi_memcpy4` does while `r4`
    and `lr` are on the stack. -/
theorem steps_copyWhole {s : Machine} {n : ℕ} (hc : s.c = decide (32 ≤ n))
    (hr2 : s.reg .r2 = (n + 4294967296 - 32) % 4294967296) (h0 : s.reg .r0 % 4 = 0)
    (h1 : s.reg .r1 % 4 = 0) (hp : CopyReady s n) :
    ∃ s', Steps memcpyCode (.at (.b .cc .copy16BytesLoop :: copy32BytesLoop) s)
        (.at (.op .al (.ldmia .sp [.r4, .lr]) :: copyLastWord) s') ∧
      Moved s s' (n - n % 8) ∧ Kept [.sp] s s' ∧ s'.reg .r2 % 8 = n % 8 := by
  obtain ⟨s₁, hs₁, hm₁, hk₁, hr2₁⟩ := steps_toCopy16BytesLoop hc hr2 h0 h1 hp
  have hp₁ : CopyReady s₁ (s₁.reg .r2 % 32) := CopyReady.after (hp.mono (by omega)) hm₁
  obtain ⟨s₂, hs₂, hm₂, hk₂⟩ := steps_copy16BytesLoop (by rw [hm₁.r0]; omega)
    (by rw [hm₁.r1]; omega) hp₁
  have hr2₂ := hk₂ .r2 (by decide)
  have hsum : n - n % 8 = n - n % 32 + (s₁.reg .r2 % 32 - s₁.reg .r2 % 8) := by omega
  refine ⟨s₂, hs₁.trans hs₂, ?_, hk₁.trans (hk₂.mono (by decide)), by omega⟩
  rw [hsum]
  exact hm₁.trans hm₂ (hp.mono (by omega))

/-! ### The two words on the stack -/

/-- The eight bytes below the stack pointer, where `__aeabi_memcpy4` saves `r4` and `lr`, are none
    of the `n` bytes of the source or of the target. -/
structure StackReady (s : Machine) (n : ℕ) : Prop where
  aligned : s.reg .sp % 4 = 0
  room : 8 ≤ s.reg .sp
  reg_lt : ∀ r ∈ [Reg.r4, .sp, .lr], s.reg r < 4294967296
  dst : s.reg .r0 + n ≤ s.reg .sp - 8 ∨ s.reg .sp ≤ s.reg .r0
  src : s.reg .r1 + n ≤ s.reg .sp - 8 ∨ s.reg .sp ≤ s.reg .r1

/-- The stack stays apart from the bytes that are left to copy. -/
theorem StackReady.after {s s' : Machine} {k n : ℕ} (h : StackReady s (k + n)) (hm : Moved s s' k)
    (hk : Kept [.r4, .sp, .lr] s s') : StackReady s' n := by
  have hsp := hk .sp (by decide)
  have hdst := h.dst
  have hsrc := h.src
  refine ⟨?_, ?_, ?_, ?_, ?_⟩
  · rw [hsp]
    exact h.aligned
  · rw [hsp]
    exact h.room
  · intro r hr
    rw [hk r hr]
    exact h.reg_lt r hr
  · rw [hsp, hm.r0]
    omega
  · rw [hsp, hm.r1]
    omega

/-- From `code` on, the routine copies `n` bytes and returns to its caller, and may leave anything
    in the eight bytes below the stack pointer. -/
def Returns (code : List (Line MemcpyLabel)) (s : Machine) (n : ℕ) : Prop :=
  ∃ t, Steps memcpyCode (.at code s) (.returned (s.reg .lr) t) ∧ Kept [.r4, .sp] s t ∧
    ∀ q, q < s.reg .sp - 8 ∨ s.reg .sp ≤ q →
      t.mem q = copyBytes s.mem (s.reg .r0) (s.reg .r1) n q

/-- Code that leaves the stack alone. -/
theorem Finishes.returns {code : List (Line MemcpyLabel)} {s : Machine} {n : ℕ}
    (h : Finishes code s n) : Returns code s n := by
  obtain ⟨t, ht, hmt, hkt⟩ := h
  exact ⟨t, ht, hkt, fun q _ => congrFun hmt.mem q⟩

/-- The code up to a place, and from this place on the rest. -/
theorem Returns.after {code code' : List (Line MemcpyLabel)} {s s' : Machine} {k n : ℕ}
    (hs : Steps memcpyCode (.at code s) (.at code' s')) (hm : Moved s s' k)
    (hk : Kept [.r4, .sp, .lr] s s') (hp : CopyReady s (k + n)) (hstack : StackReady s (k + n))
    (h : CopyReady s' n → StackReady s' n → Returns code' s' n) : Returns code s (k + n) := by
  obtain ⟨t, ht, hkt, hmem⟩ := h (hp.after hm) (hstack.after hm hk)
  rw [hk .lr (by decide)] at ht
  refine ⟨t, hs.trans ht, (hk.mono (by decide)).trans hkt, fun q hq => ?_⟩
  rw [hmem q (by rwa [hk .sp (by decide)]), hm.mem, hm.r0, hm.r1,
    copyBytes_copyBytes s.mem hp.forward]

/-- The first two lines of `__aeabi_memcpy4`: `r4` and `lr` go below the stack pointer. -/
theorem steps_pushSaved {s : Machine} {n : ℕ} (hr2 : s.reg .r2 = n) (hstack : StackReady s n) :
    ∃ s', Steps memcpyCode (.at aeabiMemcpy4 s)
        (.at (.b .cc .copy16BytesLoop :: copy32BytesLoop) s') ∧
      s'.mem = storeRegs s.reg s.mem (s.reg .sp - 8) [.r4, .lr] ∧
      s'.reg .sp = s.reg .sp - 8 ∧ Kept [.r0, .r1] s s' ∧ s'.c = decide (32 ≤ n) ∧
      s'.reg .r2 = (n + 4294967296 - 32) % 4294967296 := by
  obtain ⟨s₁, hpush, hmem₁, hsp₁, hreg₁⟩ :=
    exec_push s [.r4, .lr] hstack.room (hstack.reg_lt .sp (by decide)) hstack.aligned
  obtain ⟨s₂, hsub, hmem₂, hreg₂, hr2₂, hc₂⟩ := exec_subs s₁ .r2 32
  rw [hreg₁ .r2 (by decide), hr2] at hr2₂ hc₂
  exact ⟨s₂, steps_op rfl hpush <| steps_op rfl hsub (Steps.refl _), hmem₂.trans hmem₁,
    (hreg₂ .sp (by decide)).trans hsp₁, by simp [Kept, hreg₂, hreg₁], hc₂, hr2₂⟩

/-- The pop brings back what was pushed at `s`, if only the target has been written since. -/
theorem steps_popSaved {s s' : Machine} {n k : ℕ} (hstack : StackReady s n) (hk : k ≤ n)
    (hsp : s'.reg .sp = s.reg .sp - 8)
    (hmem : s'.mem = copyBytes (storeRegs s.reg s.mem (s.reg .sp - 8) [.r4, .lr]) (s.reg .r0)
      (s.reg .r1) k) :
    ∃ t, (∀ rest, Steps memcpyCode (.at (.op .al (.ldmia .sp [.r4, .lr]) :: rest) s')
        (.at rest t)) ∧
      Moved s' t 0 ∧ t.reg .r2 = s'.reg .r2 ∧ Kept [.r4, .sp, .lr] s t := by
  have hroom := hstack.room
  have haligned := hstack.aligned
  have hsplt := hstack.reg_lt .sp (by decide)
  have hdst := hstack.dst
  have hsub : [Reg.r4, .lr] ⊆ [.r4, .sp, .lr] := by decide
  have hsaved := map_load32_copyBytes_storeRegs (fun r hr => hstack.reg_lt r (hsub hr)) s.mem
    (s.reg .r1) (show s.reg .r0 + k ≤ s.reg .sp - 8 ∨ s.reg .sp - 8 + 8 ≤ s.reg .r0 by omega)
  rw [← hmem, ← hsp] at hsaved
  obtain ⟨t, hpop, hmem', -, hsp', hreg', hloaded⟩ :=
    exec_ldmia s' .sp [.r4, .lr] (by rw [hsp]; omega) (by decide) (by decide)
  have hback := List.map_inj_left.mp (hloaded.trans hsaved)
  have hsp'' : t.reg .sp = s.reg .sp := by
    rw [hsp', hsp]
    change (s.reg .sp - 8 + 8) % 4294967296 = s.reg .sp
    omega
  refine ⟨t, fun _ => steps_op rfl hpop (Steps.refl _), moved_zero ?_ ?_ hmem', ?_, ?_⟩
  · exact hreg' .r0 (by decide) (by decide)
  · exact hreg' .r1 (by decide) (by decide)
  · exact hreg' .r2 (by decide) (by decide)
  · simp [Kept, hback, hsp'']

/-- `__aeabi_memcpy4`: the copy of whole registers runs between the push and the pop, and the last
    bytes follow. -/
theorem returns_aeabiMemcpy4 {s : Machine} {n : ℕ} (hr2 : s.reg .r2 = n) (h0 : s.reg .r0 % 4 = 0)
    (h1 : s.reg .r1 % 4 = 0) (hp : CopyReady s n) (hstack : StackReady s n) :
    Returns aeabiMemcpy4 s n := by
  obtain ⟨s₁, hs₁, hmem₁, hsp₁, hk₁, hc₁, hr2₁⟩ := steps_pushSaved hr2 hstack
  have hr0₁ := hk₁ .r0 (by decide)
  have hr1₁ := hk₁ .r1 (by decide)
  have hp₁ : CopyReady s₁ n := hp.congr hr0₁ hr1₁
  obtain ⟨s₂, hs₂, hm₂, hk₂, hr2₂⟩ :=
    steps_copyWhole hc₁ hr2₁ (by rw [hr0₁, h0]) (by rw [hr1₁, h1]) hp₁
  obtain ⟨s₃, hs₃, hm₃, hr2₃, hback⟩ := steps_popSaved hstack (Nat.sub_le n (n % 8))
    ((hk₂ .sp (by decide)).trans hsp₁) (by rw [hm₂.mem, hmem₁, hr0₁, hr1₁])
  have hm₃ : Moved s₁ s₃ (n - n % 8) := hm₂.trans hm₃ (hp₁.mono (by omega))
  have hsum : n - n % 8 + s₃.reg .r2 % 8 = n := by omega
  rw [← hsum] at hp₁
  obtain ⟨t, ht, hmt, hkt⟩ := finishes_copyLastWord (hp₁.after hm₃)
  have hm := hm₃.trans hmt hp₁
  rw [hsum] at hm
  rw [hback .lr (by decide)] at ht
  refine ⟨t, hs₁.trans <| hs₂.trans <| (hs₃ _).trans ht, (hback.mono (by decide)).trans hkt, ?_⟩
  -- of the memory at the start, the push has changed the eight bytes only
  have hroom := hstack.room
  have hsrc := hstack.src
  have hpushed : ∀ q, q < s.reg .sp - 8 ∨ s.reg .sp ≤ q → s₁.mem q = s.mem q := by
    intro q hq
    rw [hmem₁]
    exact storeRegs_outside (show q < s.reg .sp - 8 ∨ s.reg .sp - 8 + 8 ≤ q by omega) _ _
  intro q hq
  rw [hm.mem, hr0₁, hr1₁]
  exact copyBytes_congr (fun x _ _ => hpushed x (by omega)) (hpushed q hq)

/-! ### The two functions -/

/-- The target is aligned: by whole registers if the source is, too, and otherwise by two words. -/
theorem returns_dstAligned {s : Machine} {n : ℕ} (hr2 : s.reg .r2 = n) (h0 : s.reg .r0 % 4 = 0)
    (hp : CopyReady s n) (hstack : StackReady s n) : Returns dstAligned s n := by
  obtain ⟨s₁, hands, hmem₁, hreg₁, -, hz₁⟩ := exec_ands_three s .r3 .r1
  have hend := hp.dst_end
  rw [← Nat.zero_add n] at hp hstack ⊢
  by_cases h1 : s.reg .r1 % 4 = 0
  · have hm₁ : Moved s s₁ 0 := moved_zero (hreg₁ .r0 (by decide)) (hreg₁ .r1 (by decide)) hmem₁
    refine Returns.after (steps_op rfl hands <|
        steps_branch (hz₁.trans (decide_eq_true h1)) (Steps.refl _)) hm₁ (by simp [Kept, hreg₁])
      hp hstack fun hp₁ hstack₁ => returns_aeabiMemcpy4 ?_ ?_ ?_ hp₁ hstack₁
    · rw [hreg₁ .r2 (by decide), hr2]
    · rw [hm₁.r0, Nat.add_zero, h0]
    · rw [hm₁.r1, Nat.add_zero, h1]
  · obtain ⟨s₂, hsub, hmem₂, hreg₂, hr2₂, hc₂⟩ := exec_subs s₁ .r2 8
    rw [hreg₁ .r2 (by decide), hr2] at hr2₂ hc₂
    have hm₂ : Moved s s₂ 0 := moved_zero (by simp [hreg₂, hreg₁]) (by simp [hreg₂, hreg₁])
      (hmem₂.trans hmem₁)
    refine Returns.after (steps_op rfl hands <| steps_fall (hz₁.trans (decide_eq_false h1)) <|
        steps_op rfl hsub (Steps.refl _)) hm₂ (by simp [Kept, hreg₂, hreg₁])
      hp hstack fun hp₂ _ => (finishes_copy8BytesLoop n s₂ hc₂ hr2₂ ?_ hp₂).returns
    rw [hm₂.r0, Nat.add_zero, h0]

/-- The bytes in front of the first word of the target, whose offset is in `ip`. -/
theorem steps_alignDst {s : Machine} {n : ℕ} (hr2 : s.reg .r2 = n) (hn : 4 ≤ n)
    (hip : s.reg .ip = s.reg .r0 % 4) (hoff : s.reg .r0 % 4 ≠ 0) (hp : CopyReady s n) :
    ∃ s', Steps memcpyCode (.at (aeabiMemcpy.drop 4) s) (.at dstAligned s') ∧
      Moved s s' (4 - s.reg .r0 % 4) ∧ Kept [.r4, .sp, .lr] s s' ∧
      s'.reg .r2 = n - (4 - s.reg .r0 % 4) := by
  have hdst := hp.dst_end
  have hsrc := hp.src_end
  have hforward := hp.forward
  have h0 : ∀ i, i ≤ 3 → (s.reg .r0 + i) % 4294967296 = s.reg .r0 + i :=
    fun i hi => Nat.mod_eq_of_lt (by omega)
  have h1 : ∀ i, i ≤ 3 → (s.reg .r1 + i) % 4294967296 = s.reg .r1 + i :=
    fun i hi => Nat.mod_eq_of_lt (by omega)
  obtain ⟨s₁, hcmp, hmem₁, hreg₁, hcc₁, hls₁⟩ :=
    exec_cmp ((s.advance .r1 1).setReg .r3 (s.mem (s.reg .r1)).toNat) .ip
      (by simp only [Machine.reg_setReg, Machine.reg_advance, reduceCtorEq, if_false, hip]; omega)
      (show 2 < 4294967296 by decide)
  have hcases : s.reg .r0 % 4 = 1 ∨ s.reg .r0 % 4 = 2 ∨ s.reg .r0 % 4 = 3 := by omega
  obtain h | h | h := hcases
  · have hcc : Cond.cc.holds s₁ = true := by simp [hcc₁, hip, h]
    have hls : Cond.ls.holds s₁ = true := by simp [hls₁, hip, h]
    rw [h]
    refine ⟨_, steps_op rfl rfl <| steps_op rfl hcmp <| steps_op rfl rfl <| steps_op hls rfl <|
      steps_op rfl rfl <| steps_op hcc rfl <| steps_op rfl rfl <| steps_op hls rfl <|
      steps_op hcc rfl <| Steps.refl _, ⟨?_, ?_, ?_⟩, ?_, ?_⟩
    all_goals simp [Kept, hreg₁, hmem₁, h0, h1, Nat.add_assoc,
      store8_eq_copyBytes, store8_copyBytes]
    · -- the third byte is read after the first is written, which is not it
      rw [copyBytes_outside s.mem (by omega)]
      exact store8_copyBytes s.mem _ _ 2
    · omega
  · have hcc : Cond.cc.holds s₁ = false := by simp [hcc₁, hip, h]
    have hls : Cond.ls.holds s₁ = true := by simp [hls₁, hip, h]
    rw [h]
    refine ⟨_, steps_op rfl rfl <| steps_op rfl hcmp <| steps_op rfl rfl <| steps_op hls rfl <|
      steps_op rfl rfl <| steps_skip hcc <| steps_op rfl rfl <| steps_op hls rfl <|
      steps_skip hcc <| Steps.refl _, ⟨?_, ?_, ?_⟩, ?_, ?_⟩
    all_goals simp [Kept, hreg₁, hmem₁, h0, h1, Nat.add_assoc,
      store8_eq_copyBytes, store8_copyBytes]
    omega
  · have hcc : Cond.cc.holds s₁ = false := by simp [hcc₁, hip, h]
    have hls : Cond.ls.holds s₁ = false := by simp [hls₁, hip, h]
    rw [h]
    refine ⟨_, steps_op rfl rfl <| steps_op rfl hcmp <| steps_op rfl rfl <| steps_skip hls <|
      steps_op rfl rfl <| steps_skip hcc <| steps_op rfl rfl <| steps_skip hls <|
      steps_skip hcc <| Steps.refl _, ⟨?_, ?_, ?_⟩, ?_, ?_⟩
    all_goals simp [Kept, hreg₁, hmem₁, h0, h1, store8_eq_copyBytes]
    omega

/-- `__aeabi_memcpy`: fewer than four bytes at once, else from an aligned target on. -/
theorem returns_aeabiMemcpy {s : Machine} {n : ℕ} (hr2 : s.reg .r2 = n) (hp : CopyReady s n)
    (hstack : StackReady s n) : Returns aeabiMemcpy s n := by
  have hend := hp.dst_end
  obtain ⟨s₁, hcmp, hmem₁, hreg₁, -, hls₁⟩ :=
    exec_cmp s .r2 (show s.reg .r2 < 4294967296 by omega) (show 3 < 4294967296 by decide)
  have hm₁ : Moved s s₁ 0 := moved_zero (by rw [hreg₁]) (by rw [hreg₁]) hmem₁
  have hk₁ : Kept [.r4, .sp, .lr] s s₁ := fun r _ => congrFun hreg₁ r
  rw [hr2] at hls₁
  by_cases hfew : n ≤ 3
  · have hmod : s₁.reg .r2 % 4 = n := by
      rw [hreg₁, hr2]
      omega
    rw [← Nat.zero_add n] at hp hstack ⊢
    refine Returns.after (steps_op rfl hcmp <|
        steps_branch (hls₁.trans (decide_eq_true hfew)) (Steps.refl _)) hm₁ hk₁ hp hstack
      fun hp₁ _ => ?_
    rw [← hmod] at hp₁ ⊢
    exact (finishes_memcpyLastbytes hp₁).returns
  · obtain ⟨s₂, hands, hmem₂, hreg₂, hip₂, hz₂⟩ := exec_ands_three s₁ .ip .r0
    have hfall : Cond.ls.holds s₁ = false := hls₁.trans (decide_eq_false hfew)
    have hm₂ : Moved s s₂ 0 := moved_zero (by rw [hreg₂ .r0 (by decide), hreg₁])
      (by rw [hreg₂ .r1 (by decide), hreg₁]) (hmem₂.trans hmem₁)
    have hk₂ : Kept [.r4, .sp, .lr] s s₂ := by simp [Kept, hreg₂, hreg₁]
    have hr2₂ : s₂.reg .r2 = n := by rw [hreg₂ .r2 (by decide), hreg₁, hr2]
    have hr0₂ : s₁.reg .r0 = s₂.reg .r0 := (hreg₂ .r0 (by decide)).symm
    rw [hr0₂] at hip₂ hz₂
    by_cases h0 : s₂.reg .r0 % 4 = 0
    · rw [← Nat.zero_add n] at hp hstack ⊢
      exact Returns.after (steps_op rfl hcmp <| steps_fall hfall <| steps_op rfl hands <|
          steps_branch (hz₂.trans (decide_eq_true h0)) (Steps.refl _)) hm₂ hk₂ hp hstack
        fun hp₂ hstack₂ => returns_dstAligned hr2₂ h0 hp₂ hstack₂
    · have hp₂ : CopyReady s₂ n := hp.congr hm₂.r0 hm₂.r1
      obtain ⟨s₃, hs₃, hm₃, hk₃, hr2₃⟩ := steps_alignDst hr2₂ (by omega) hip₂ h0 hp₂
      have hsum : n = 0 + (4 - s₂.reg .r0 % 4) + (n - (4 - s₂.reg .r0 % 4)) := by omega
      rw [hsum] at hp hstack ⊢
      refine Returns.after (steps_op rfl hcmp <| steps_fall hfall <| steps_op rfl hands <|
          steps_fall (hz₂.trans (decide_eq_false h0)) hs₃) (hm₂.trans hm₃ (hp.mono (by omega)))
        (hk₂.trans hk₃) hp hstack fun hp₃ hstack₃ => returns_dstAligned hr2₃ ?_ hp₃ hstack₃
      rw [hm₃.r0]
      omega

/-- What the caller sees: from `code` on, the routine returns with `r4` and the stack pointer as they
    were, the target has the bytes that the source had, and outside of it only the eight bytes below
    the stack pointer may differ. -/
def Copies (code : List (Line MemcpyLabel)) (s : Machine) : Prop :=
  ∃ t, Steps memcpyCode (.at code s) (.returned (s.reg .lr) t) ∧ Kept [.r4, .sp] s t ∧
    loadBytes t.mem (s.reg .r0) (s.reg .r2) = loadBytes s.mem (s.reg .r1) (s.reg .r2) ∧
    ∀ q, q < s.reg .r0 ∨ s.reg .r0 + s.reg .r2 ≤ q → q < s.reg .sp - 8 ∨ s.reg .sp ≤ q →
      t.mem q = s.mem q

/-- What the caller sees of a routine that returns. -/
theorem Returns.copies {code : List (Line MemcpyLabel)} {s : Machine}
    (h : Returns code s (s.reg .r2)) (hstack : StackReady s (s.reg .r2)) : Copies code s := by
  obtain ⟨t, ht, hk, hmem⟩ := h
  refine ⟨t, ht, hk, ?_, fun q hout hslot => ?_⟩
  · have hdst := hstack.dst
    have hcopied := loadBytes_storeBytes s.mem (s.reg .r0) (loadBytes s.mem (s.reg .r1) (s.reg .r2))
    rw [length_loadBytes] at hcopied
    rw [← hcopied]
    exact loadBytes_congr fun q _ _ => hmem q (by omega)
  · rw [hmem q hslot, copyBytes_outside s.mem hout]

/-- **`__aeabi_memcpy4`** copies `r2` bytes between aligned addresses. -/
theorem aeabiMemcpy4_copies {s : Machine} (h0 : s.reg .r0 % 4 = 0) (h1 : s.reg .r1 % 4 = 0)
    (hp : CopyReady s (s.reg .r2)) (hstack : StackReady s (s.reg .r2)) :
    Copies aeabiMemcpy4 s :=
  (returns_aeabiMemcpy4 rfl h0 h1 hp hstack).copies hstack

/-- **`__aeabi_memcpy`** copies `r2` bytes, whatever the two addresses are aligned to. -/
theorem aeabiMemcpy_copies {s : Machine} (hp : CopyReady s (s.reg .r2))
    (hstack : StackReady s (s.reg .r2)) : Copies aeabiMemcpy s :=
  (returns_aeabiMemcpy rfl hp hstack).copies hstack

/-- Twelve bytes between addresses of different alignment, called from 4097. -/
def unalignedCopy : Machine where
  reg
    | .r0 => 1001
    | .r1 => 2002
    | .r2 => 12
    | .sp => 65536
    | .lr => 4097
    | _ => 0
  n := false
  z := false
  c := false
  mem q := UInt8.ofNat q

theorem aeabiMemcpy_copies_unaligned :
    ∃ t, Steps memcpyCode (.at aeabiMemcpy unalignedCopy) (.returned 4097 t) ∧
      loadBytes t.mem 1001 12 = [210, 211, 212, 213, 214, 215, 216, 217, 218, 219, 220, 221] ∧
      t.mem 1000 = 232 ∧ t.mem 1013 = 245 := by
  have h : Copies aeabiMemcpy unalignedCopy := aeabiMemcpy_copies ⟨by decide, by decide, by decide⟩
    ⟨by decide, by decide, by decide, by decide, by decide⟩
  obtain ⟨t, ht, -, hcopied, hframe⟩ := h
  exact ⟨t, ht, hcopied, hframe 1000 (by decide) (by decide), hframe 1013 (by decide) (by decide)⟩

end SerialNet
