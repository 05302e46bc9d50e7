import Mathlib.Data.List.Infix
import SerialNet.Lib.TrailingRun
import SerialNet.Net.Sessions

namespace SerialNet

/-!
# `+++`, the way out of `DATA_MODE`

A stream asks for `AT_MODE` when it ends with a run of exactly three `+` and line ends behind it
(`EndsEscape`).  `uart_data_recv` decides it with the counter `end_sendFlags`, which is right as
long as

* no run of `+` reaches 259, where the counter of eight bits is 3 again;
* no three `+` follow directly on an escape with a line end, as the counter goes on from 3 there.

`escape_recognised_iff` is this condition, for every run of the system in which no mode switch
intervenes.
-/

/-! ### Streams -/

/-- The byte `+`. -/
def isPlus (dummy : UInt8) : Bool := dummy == 43
/-- A carriage return or a line feed. -/
def isLineEnd (dummy : UInt8) : Bool := dummy == 13 || dummy == 10

/-- The number of `+` at the end of the stream. -/
def plusRun (w : List UInt8) : ℕ := trailing isPlus w

/-- The stream ends with exactly three `+`, followed by any number of CR or LF. -/
def EndsEscape (w : List UInt8) : Prop := plusRun (w.rdropWhile isLineEnd) = 3

instance : DecidablePred EndsEscape := fun _ => inferInstanceAs (Decidable (_ = _))

/-- The counter is right at the end of the stream: the last run of `+` is not 259 long, and it is
    not three behind an escape. -/
def EscapeOk (w : List UInt8) : Prop :=
  plusRun w ≠ 259 ∧ ¬ (plusRun w = 3 ∧ EndsEscape (w.rdropWhile isPlus))

instance : DecidablePred EscapeOk := fun _ => inferInstanceAs (Decidable (_ ∧ _))

/-- No run of `+` in the stream reaches 259, and none of three follows directly on an escape and
    its line ends. -/
def EscapesApart (w : List UInt8) : Prop := ∀ v, v <+: w → EscapeOk v

instance : DecidablePred EscapesApart := fun w =>
  decidable_of_iff (∀ v ∈ w.inits, EscapeOk v) (by simp [EscapesApart, List.mem_inits])

/-- What a byte does to `end_sendFlags`. -/
def endSendStep (flags : ℕ) (dummy : UInt8) : ℕ :=
  if dummy = 43 then (flags + 1) % 256
  else if flags = endSendTrue ∧ (dummy = 13 ∨ dummy = 10) then flags
  else endSendFalse

/-- `end_sendFlags` after a stream. -/
def endSendFlags (w : List UInt8) : ℕ := w.foldl endSendStep 0

/-! ### The counter and the stream -/

section Stream

variable {w : List UInt8} {b : UInt8}

/-- The counter goes on with the last byte. -/
theorem endSendFlags_concat (w : List UInt8) (b : UInt8) :
    endSendFlags (w ++ [b]) = endSendStep (endSendFlags w) b := by
  rw [endSendFlags, List.foldl_append]
  rfl

/-- A `+` counts up, in eight bits. -/
theorem endSendFlags_plus (w : List UInt8) :
    endSendFlags (w ++ [43]) = (endSendFlags w + 1) % 256 := by
  rw [endSendFlags_concat, endSendStep, if_pos rfl]

/-- A `+` makes the run longer. -/
theorem plusRun_plus (w : List UInt8) : plusRun (w ++ [43]) = plusRun w + 1 :=
  trailing_concat_pos w rfl

/-- Another byte ends the run. -/
theorem plusRun_other (hb : b ≠ 43) : plusRun (w ++ [b]) = 0 :=
  trailing_concat_neg w (by simpa [isPlus] using hb)

/-- The third `+` in a row ends the sequence. -/
theorem endsEscape_plus (w : List UInt8) : EndsEscape (w ++ [43]) ↔ plusRun w + 1 = 3 := by
  rw [EndsEscape, List.rdropWhile_concat_neg _ _ _ (by decide), plusRun_plus]

/-- Behind another byte the stream still ends with an escape only if the byte is a line end. -/
theorem endsEscape_other (hb : b ≠ 43) :
    EndsEscape (w ++ [b]) ↔ EndsEscape w ∧ (b = 13 ∨ b = 10) := by
  by_cases hend : b = 13 ∨ b = 10
  · rw [EndsEscape, List.rdropWhile_concat_pos _ _ _ (by simpa [isLineEnd] using hend)]
    exact (and_iff_left hend).symm
  · rw [EndsEscape, List.rdropWhile_concat_neg _ _ _ (by simpa [isLineEnd] using hend),
      plusRun_other hb]
    exact iff_of_false (by decide) fun h => hend h.2

/-- Behind another byte the counter is 3 only if it was and the byte is a line end. -/
theorem endSendFlags_other (hb : b ≠ 43) :
    endSendFlags (w ++ [b])
      = if endSendFlags w = endSendTrue ∧ (b = 13 ∨ b = 10) then endSendTrue else endSendFalse := by
  rw [endSendFlags_concat, endSendStep, if_neg hb]
  split
  · rename_i h
    exact h.1
  · rfl

/-- The counter at the end of the stream is right. -/
def FlagsRight (w : List UInt8) : Prop := endSendFlags w = endSendTrue ↔ EndsEscape w

instance : DecidablePred FlagsRight := fun _ => inferInstanceAs (Decidable (_ ↔ _))

/-- A last `+` belongs to the run. -/
theorem rdropWhile_plus (w : List UInt8) :
    (w ++ [43]).rdropWhile isPlus = w.rdropWhile isPlus :=
  List.rdropWhile_concat_pos _ _ _ rfl

/-- The counter is right behind a byte that is not `+`, if it was. -/
theorem FlagsRight.other (h : FlagsRight w) (hb : b ≠ 43) : FlagsRight (w ++ [b]) := by
  unfold FlagsRight at h ⊢
  rw [endSendFlags_other hb, endsEscape_other hb, ← h]
  split
  · exact iff_of_true rfl ‹_›
  · exact iff_of_false (by decide) ‹_›

/-- As long as the counter is right it counts the last run of `+`, from 3 on behind an escape. -/
theorem endSendFlags_eq (h : ∀ v, v <+: w → FlagsRight v) :
    (EndsEscape (w.rdropWhile isPlus) → endSendFlags w = (plusRun w + 3) % 256) ∧
      (¬ EndsEscape (w.rdropWhile isPlus) → endSendFlags w = plusRun w % 256) := by
  induction w using List.reverseRecOn with
  | nil => exact ⟨fun hesc => absurd hesc (by decide), fun _ => rfl⟩
  | append_singleton w b ih =>
    rw [forall_prefix_concat] at h
    by_cases hb : b = 43
    · obtain ⟨hesc, hnot⟩ := ih h.1
      rw [hb, endSendFlags_plus, plusRun_plus, rdropWhile_plus]
      exact ⟨fun he => by rw [hesc he]; omega, fun he => by rw [hnot he]; omega⟩
    · have hright : endSendFlags (w ++ [b]) = endSendTrue ↔ EndsEscape (w ++ [b]) := h.2
      rw [plusRun_other hb, List.rdropWhile_concat_neg _ _ _ (by simpa [isPlus] using hb), ← hright]
      refine ⟨id, fun hne => ?_⟩
      rw [endSendFlags_other hb] at hne ⊢
      rw [if_neg fun hc => hne (if_pos hc)]
      rfl

/-- Under the condition a run of `+` is shorter than 259, and than 3 behind an escape. -/
theorem EscapesApart.plusRun_lt (h : EscapesApart w) :
    plusRun w < 259 ∧ (EndsEscape (w.rdropWhile isPlus) → plusRun w < 3) := by
  induction w using List.reverseRecOn with
  | nil => exact ⟨by decide, fun _ => by decide⟩
  | append_singleton w b ih =>
    rw [EscapesApart, forall_prefix_concat] at h
    obtain ⟨hlong, hbehind⟩ := ih h.1
    by_cases hb : b = 43
    · have hok := h.2
      rw [hb, EscapeOk, plusRun_plus, rdropWhile_plus] at hok
      rw [hb, plusRun_plus, rdropWhile_plus]
      refine ⟨by omega, fun hesc => ?_⟩
      have := hbehind hesc
      have hne : plusRun w + 1 ≠ 3 := fun heq => hok.2 ⟨heq, hesc⟩
      omega
    · rw [plusRun_other hb]
      exact ⟨by decide, fun _ => by decide⟩

/-- **The counter over a stream** is right all the way exactly under the condition. -/
theorem flagsRight_iff (w : List UInt8) :
    (∀ v, v <+: w → FlagsRight v) ↔ EscapesApart w := by
  refine forall_prefix_iff (iff_of_true ?_ ?_) (fun w b hright hok => ?_) w
  · exact iff_of_false (by decide) (by decide)
  · decide
  · by_cases hb : b = 43
    · obtain ⟨hesc, hnot⟩ := endSendFlags_eq hright
      obtain ⟨hlong, hbehind⟩ := EscapesApart.plusRun_lt hok
      rw [hb, FlagsRight, EscapeOk, endSendFlags_plus, endsEscape_plus, plusRun_plus,
        rdropWhile_plus, endSendTrue]
      by_cases he : EndsEscape (w.rdropWhile isPlus)
      · have := hbehind he
        rw [hesc he, and_iff_left he]
        omega
      · have hnone : ¬ (plusRun w + 1 = 3 ∧ EndsEscape (w.rdropWhile isPlus)) := fun h => he h.2
        rw [hnot he, and_iff_left hnone]
        omega
    · -- another byte starts a new run, and the counter follows the line ends
      apply iff_of_true (FlagsRight.other (hright w (List.prefix_refl w)) hb)
      rw [EscapeOk, plusRun_other hb]
      exact ⟨by decide, fun h => absurd h.1 (by decide)⟩

end Stream

/-- A second escape behind a line end is not seen. -/
example : ¬ FlagsRight [43, 43, 43, 13, 43, 43, 43] := by decide

/-! ### The system -/

/-- The step is not one of the mode switch that resets the counter or leaves `DATA_MODE`. -/
def NoSwitch (s : System) : Label → Prop
  | .mode => s.modePc ≠ .clearFlags ∧ s.modePc ≠ .setMode
  | _ => True

instance (s : System) : DecidablePred (NoSwitch s)
  | .mode => inferInstanceAs (Decidable (_ ∧ _))
  | .byte _ | .timer | .task _ | .call | .close _ | .sockets .. | .quit | .configure .. =>
    .isTrue trivial

/-- Escapes are recognised in the run from `s` along `ls`. -/
structure EscapeRight (s : System) (ls : List Label) : Prop where
  /-- `end_sendFlags` is 3 exactly when the stream so far ends with an escape. -/
  flags : ∀ ks u, ks <+: ls → run systemStep s ks = some u →
    (u.dev.endSendFlags = endSendTrue ↔ EndsEscape (received s ks))
  /-- `modeSwitchSem` is posted only by the third `+` of a run. -/
  posts : ∀ ks l u u', ks ++ [l] <+: ls → run systemStep s ks = some u →
    systemStep u l = some u' → u.dev.modeSwitchSem < u'.dev.modeSwitchSem →
    ∃ w, received s (ks ++ [l]) = w ++ [43] ∧ plusRun (w ++ [43]) = 3
  /-- `TestSerialToWifi` goes on to leave `DATA_MODE` only behind an escape. -/
  leaves : ∀ ks u u', ks <+: ls → run systemStep s ks = some u → u.modePc = .check →
    modeStep u = some u' → u'.modePc ≠ .loopTop → EndsEscape (received s ks)

/-- The counter and the semaphore after a byte. -/
theorem dataRecv_flags (d : Device) (dummy : UInt8) :
    (dataRecv d dummy).atMode = d.atMode ∧
      (dataRecv d dummy).endSendFlags = endSendStep d.endSendFlags dummy ∧
      (d.modeSwitchSem < (dataRecv d dummy).modeSwitchSem →
        dummy = 43 ∧ (dataRecv d dummy).endSendFlags = endSendTrue) := by
  by_cases hplus : dummy = 43
  · simp only [dataRecv, hplus, if_true, resetTimer0, apply_ite Device.endSendFlags,
      apply_ite Device.modeSwitchSem, apply_ite Device.atMode, ite_self, endSendStep, true_and]
    split_ifs with h3
    · exact fun _ => h3
    · exact fun h => absurd h (lt_irrefl _)
  · simp only [dataRecv, hplus, if_false, resetTimer0, apply_ite Device.endSendFlags,
      apply_ite Device.modeSwitchSem, apply_ite Device.atMode, ite_self, endSendStep, lt_irrefl,
      false_imp_iff, and_true]

/-- A step of `TestSerialToWifi` outside the switch. -/
theorem modeStep_flags {s s' : System} (hok : NoSwitch s .mode) (h : modeStep s = some s') :
    s'.dev.atMode = s.dev.atMode ∧ s'.dev.endSendFlags = s.dev.endSendFlags ∧
      s'.dev.modeSwitchSem ≤ s.dev.modeSwitchSem := by
  obtain ⟨hclear, hset⟩ := hok
  cases hpc : s.modePc <;> simp only [modeStep, hpc] at h
  case clearFlags => exact absurd hpc hclear
  case setMode => exact absurd hpc hset
  case pend =>
    split at h
    · rw [← Option.some.inj h]
      exact ⟨rfl, rfl, Nat.sub_le _ _⟩
    · cases h
  all_goals
    rw [← Option.some.inj h]
    exact ⟨rfl, rfl, le_rfl⟩

/-- What a step in `DATA_MODE` does: its byte, if it brings one, moves the counter, and only a third
    `+` posts. -/
structure FlagsStep (s : System) (l : Label) (s' : System) : Prop where
  mode : s'.dev.atMode = .data
  flags : s'.dev.endSendFlags = (stepBytes s l).foldl endSendStep s.dev.endSendFlags
  posts : s.dev.modeSwitchSem < s'.dev.modeSwitchSem →
    stepBytes s l = [43] ∧ s'.dev.endSendFlags = endSendTrue

/-- A step that brings no byte. -/
theorem FlagsStep.quiet {s s' : System} {l : Label} (hdata : s.dev.atMode = .data)
    (hbytes : stepBytes s l = []) (hmode : s'.dev.atMode = s.dev.atMode)
    (hflags : s'.dev.endSendFlags = s.dev.endSendFlags)
    (hsem : s'.dev.modeSwitchSem ≤ s.dev.modeSwitchSem) : FlagsStep s l s' where
  mode := hmode.trans hdata
  flags := by
    rw [hbytes]
    exact hflags
  posts hlt := absurd hlt (not_lt.mpr hsem)

/-- A step in the data mode moves the counter only with a received byte. -/
theorem systemStep_flags {s s' : System} {l : Label} (hdata : s.dev.atMode = .data)
    (hok : NoSwitch s l) (h : systemStep s l = some s') : FlagsStep s l s' := by
  cases l with
  | byte dummy =>
    rw [← Option.some.inj h]
    obtain ⟨hmode, hflags, hpost⟩ := dataRecv_flags s.dev dummy
    have hdev : uartDataRecv s.dev dummy = dataRecv s.dev dummy := by
      rw [uartDataRecv, if_pos hdata]
    have hbytes : stepBytes s (.byte dummy) = [dummy] := if_pos hdata
    rw [hdev]
    refine ⟨hmode.trans hdata, by rw [hbytes]; exact hflags, fun hlt => ?_⟩
    obtain ⟨rfl, h3⟩ := hpost hlt
    exact ⟨hbytes, h3⟩
  | timer =>
    obtain ⟨d, hd, rfl⟩ := Option.map_eq_some_iff.mp h
    unfold timerIsr at hd
    split at hd
    · rw [← Option.some.inj hd]
      unfold timerFuncProcess
      dsimp only
      split <;> exact .quiet hdata rfl rfl rfl le_rfl
    · cases hd
  | task snd =>
    have hdev := sendStep_dev h
    refine .quiet hdata rfl ?_ ?_ ?_ <;> rw [hdev]
  | call =>
    simp only [systemStep] at h
    split at h
    · rw [← Option.some.inj h]
      exact .quiet hdata rfl rfl rfl le_rfl
    · cases h
  | close i =>
    rw [← Option.some.inj h]
    exact .quiet hdata rfl rfl rfl le_rfl
  | sockets connStatus sockfd tcpServerFd tcpClient =>
    rw [← Option.some.inj h]
    exact .quiet hdata rfl rfl rfl le_rfl
  | mode =>
    obtain ⟨hmode, hflags, hsem⟩ := modeStep_flags hok h
    exact .quiet hdata rfl hmode hflags hsem
  | quit =>
    simp only [systemStep, hdata, reduceCtorEq, if_false] at h
  | configure proto role frameLength =>
    simp only [systemStep, hdata, reduceCtorEq, if_false] at h

/-! ### Runs -/

/-- What a longer run receives comes behind what it received before. -/
theorem received_append {s t : System} {ks : List Label} (h : run systemStep s ks = some t)
    (ls : List Label) : received s (ks ++ ls) = received s ks ++ received t ls := by
  induction ks generalizing s with
  | nil =>
    rw [← Option.some.inj h]
    rfl
  | cons k ks ih =>
    rw [run_cons] at h
    cases hk : systemStep s k with
    | none =>
      rw [hk] at h
      cases h
    | some s' =>
      rw [hk] at h
      rw [List.cons_append, received, received, hk]
      dsimp only
      rw [ih h, List.append_assoc]

/-- What a single step receives. -/
theorem received_singleton (s : System) (l : Label) : received s [l] = stepBytes s l := by
  rw [received]
  cases systemStep s l <;> exact List.append_nil _

/-- A step brings one byte at most. -/
theorem stepBytes_cases (s : System) (l : Label) :
    stepBytes s l = [] ∨ ∃ b, stepBytes s l = [b] := by
  cases l with
  | byte dummy =>
    by_cases hdata : s.dev.atMode = .data
    · exact .inr ⟨dummy, if_pos hdata⟩
    · exact .inl (if_neg hdata)
  | _ => exact .inl rfl

/-- Every prefix of the stream was all that had been received at some point of the run. -/
theorem exists_prefix_of_received {s : System} {ls : List Label}
    (hrun : (run systemStep s ls).isSome) : ∀ v, v <+: received s ls →
      ∃ ks, ks <+: ls ∧ received s ks = v := by
  induction ls using List.reverseRecOn with
  | nil => exact fun v hv => ⟨[], List.prefix_refl _, (List.prefix_nil.mp hv).symm⟩
  | append_singleton ls l ih =>
    obtain ⟨t, ht⟩ := Option.isSome_iff_exists.mp hrun
    rw [run_append, Option.bind_eq_some_iff] at ht
    obtain ⟨u, hu, -⟩ := ht
    have hbefore : ∀ v, v <+: received s ls → ∃ ks, ks <+: ls ++ [l] ∧ received s ks = v := by
      intro v hv
      obtain ⟨ks, hks, rfl⟩ := ih (by rw [hu]; rfl) v hv
      exact ⟨ks, hks.trans (List.prefix_append ls [l]), rfl⟩
    intro v hv
    by_cases hall : v = received s (ls ++ [l])
    · exact ⟨ls ++ [l], List.prefix_refl _, hall.symm⟩
    · rw [received_append hu, received_singleton] at hv hall
      rcases stepBytes_cases u l with hnone | ⟨b, hone⟩
      · rw [hnone, List.append_nil] at hv
        exact hbefore v hv
      · rw [hone] at hv hall
        exact hbefore v ((List.prefix_concat_iff.mp hv).resolve_left hall)

/-- **A run** in `DATA_MODE` counts its stream. -/
theorem run_flags {ls : List Label} : ∀ {s t : System}, s.dev.atMode = .data →
    Along systemStep NoSwitch s ls → run systemStep s ls = some t →
    t.dev.atMode = .data ∧
      t.dev.endSendFlags = (received s ls).foldl endSendStep s.dev.endSendFlags := by
  induction ls with
  | nil =>
    intro s t hdata _ h
    rw [← Option.some.inj h]
    exact ⟨hdata, rfl⟩
  | cons l ls ih =>
    intro s t hdata hok h
    rw [run_cons, Option.bind_eq_some_iff] at h
    obtain ⟨s', hs', ht⟩ := h
    have hstep := systemStep_flags hdata hok.1 hs'
    obtain ⟨hmode, hflags⟩ := ih hstep.mode (hok.2 s' hs') ht
    refine ⟨hmode, ?_⟩
    rw [received, hs', List.foldl_append, ← hstep.flags]
    exact hflags

/-- Only the third of exactly three `+` completes an escape. -/
theorem plusRun_of_endsEscape {w : List UInt8} (h : EndsEscape (w ++ [43])) :
    plusRun (w ++ [43]) = 3 := by
  rw [plusRun_plus]
  exact (endsEscape_plus w).mp h

/-- **Escape recognition.**  In every run in `DATA_MODE` that starts with `end_sendFlags` at 0 and
    in which no mode switch intervenes, escapes are recognised exactly if no run of `+` reaches 259
    and none of three follows directly on an escape and its line ends. -/
theorem escape_recognised_iff {s : System} {ls : List Label} (hdata : s.dev.atMode = .data)
    (hflags : s.dev.endSendFlags = endSendFalse) (hok : Along systemStep NoSwitch s ls)
    (hrun : (run systemStep s ls).isSome) :
    EscapeRight s ls ↔ EscapesApart (received s ls) := by
  have hwithin : ∀ ks, ks <+: ls → Along systemStep NoSwitch s ks ∧
      ∃ u, run systemStep s ks = some u := by
    rintro ks ⟨rest, rfl⟩
    obtain ⟨t, ht⟩ := Option.isSome_iff_exists.mp hrun
    rw [run_append, Option.bind_eq_some_iff] at ht
    obtain ⟨u, hu, -⟩ := ht
    exact ⟨(along_append.mp hok).1, u, hu⟩
  have hcount : ∀ ks u, ks <+: ls → run systemStep s ks = some u →
      u.dev.endSendFlags = endSendFlags (received s ks) := by
    intro ks u hks hu
    rw [(run_flags hdata (hwithin ks hks).1 hu).2, hflags]
    rfl
  rw [← flagsRight_iff]
  constructor
  · intro hright v hv
    obtain ⟨ks, hks, rfl⟩ := exists_prefix_of_received hrun v hv
    obtain ⟨-, u, hu⟩ := hwithin ks hks
    rw [FlagsRight, ← hcount ks u hks hu]
    exact hright.flags ks u hks hu
  · intro hstream
    have hreceived : ∀ ks, ks <+: ls → received s ks <+: received s ls := by
      rintro ks ⟨rest, rfl⟩
      obtain ⟨-, u, hu⟩ := hwithin ks (List.prefix_append ks rest)
      rw [received_append hu]
      exact List.prefix_append _ _
    have hall : ∀ ks u, ks <+: ls → run systemStep s ks = some u →
        (u.dev.endSendFlags = endSendTrue ↔ EndsEscape (received s ks)) := by
      intro ks u hks hu
      rw [hcount ks u hks hu]
      exact hstream _ (hreceived ks hks)
    refine ⟨hall, ?_, ?_⟩
    · intro ks l u u' hks hu hu' hlt
      have hbefore : ks <+: ls := (List.prefix_append ks [l]).trans hks
      have hmode := (run_flags hdata (hwithin ks hbefore).1 hu).1
      have hl : NoSwitch u l := ((along_append.mp (hwithin _ hks).1).2 u hu).1
      obtain ⟨hbytes, h3⟩ := (systemStep_flags hmode hl hu').posts hlt
      have hnext : run systemStep s (ks ++ [l]) = some u' := by
        rw [run_append, hu, Option.bind_some, run_singleton, hu']
      have hends := (hall _ u' hks hnext).mp h3
      rw [received_append hu, received_singleton, hbytes] at hends ⊢
      exact ⟨_, rfl, plusRun_of_endsEscape hends⟩
    · intro ks u u' hks hu hpc hu' hleave
      apply (hall ks u hks hu).mp
      by_contra h3
      simp only [modeStep, hpc, h3, if_false] at hu'
      rw [← Option.some.inj hu'] at hleave
      exact hleave rfl

/-- A line end keeps the escape, and the task goes on to leave `DATA_MODE`. -/
def escapeExample : List Label :=
  [97, 43, 43, 43, 13].map .byte ++ List.replicate 3 .mode

theorem escape_recognised_iff_example : EscapeRight udpSession escapeExample :=
  (escape_recognised_iff rfl rfl (by decide +kernel) (by decide +kernel)).mpr (by decide +kernel)

/-- Any bytes can be received, one after the other. -/
theorem run_bytes (w : List UInt8) : ∀ {s : System}, s.dev.atMode = .data →
    ∃ t, run systemStep s (w.map .byte) = some t ∧ received s (w.map .byte) = w ∧
      t.dev.endSendFlags = w.foldl endSendStep s.dev.endSendFlags := by
  induction w with
  | nil => exact fun _ => ⟨_, rfl, rfl, rfl⟩
  | cons b w ih =>
    intro s hdata
    have hstep : systemStep s (.byte b) = some { s with dev := uartDataRecv s.dev b } := rfl
    have hbyte := systemStep_flags (l := .byte b) hdata trivial hstep
    obtain ⟨t, ht, hreceived, hflags⟩ := ih hbyte.mode
    have hbytes : stepBytes s (.byte b) = [b] := if_pos hdata
    refine ⟨t, ?_, ?_, ?_⟩
    · rw [List.map_cons, run_cons, hstep]
      exact ht
    · rw [List.map_cons, received, hstep, hbytes]
      exact congrArg (b :: ·) hreceived
    · rw [hflags, hbyte.flags, hbytes]
      rfl

/-- 259 `+` in a row are taken for an escape. -/
theorem long_run_escapes :
    ¬ ∀ (s : System) (ls : List Label), s.dev.atMode = .data →
      s.dev.endSendFlags = endSendFalse → Along systemStep NoSwitch s ls →
      (run systemStep s ls).isSome → EscapeRight s ls := by
  intro hall
  obtain ⟨t, ht, hreceived, hflags⟩ := run_bytes (List.replicate 259 43) (s := udpSession) rfl
  have hok : Along systemStep NoSwitch udpSession ((List.replicate 259 43).map .byte) := by
    refine along_of_forall (fun _ l hl => ?_) _
    obtain ⟨b, -, rfl⟩ := List.mem_map.mp hl
    trivial
  have hright := (hall _ _ rfl rfl hok (by rw [ht]; rfl)).flags _ t (List.prefix_refl _) ht
  rw [hreceived, hflags] at hright
  exact absurd (hright.mp (by decide +kernel)) (by decide +kernel)

end SerialNet
