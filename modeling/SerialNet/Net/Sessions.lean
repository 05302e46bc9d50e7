import SerialNet.Ring.Interleaving
import SerialNet.Net.Lock
import SerialNet.Net.ModeSwitch

namespace SerialNet

open RingBuffer

/-!
# Sessions in `DATA_MODE`

A session begins with `AT+QUIT`, which finds the ring empty if the last switch was made well
(`SwitchInv`).  From then on everything the send task holds was received since (`SessionInv`):
what is stored and what the running read has taken off (`Stored`), the chunk in `send_buf`, and
what was sent.  This also covers a byte that overruns the ring: it loses bytes, but brings none
back.
-/

/-! ### What is stored in a session was received in it -/

/-- What the send task knows of the ring: its reader's knowledge, or that `head` is inside. -/
def SendPc.Knows (r : RingBuffer) (taken : List UInt8) : SendPc → Prop
  | .reading t => ReaderOk r t taken
  | _ => r.head < r.size

/-- The bytes the running read has taken off the ring and those still stored are among the bytes
    `got`, in order. -/
def Stored (got : List UInt8) (r : RingBuffer) (pc : SendPc) : Prop :=
  (normRing r).Wf ∧ ∃ taken, (taken ++ (normRing r).contents).Sublist got ∧ pc.Knows r taken

/-- Outside the read no byte is in between. -/
theorem stored_of_outside {got : List UInt8} {r : RingBuffer} {pc : SendPc} (hwf : (normRing r).Wf)
    (hlt : r.head < r.size) (hcont : (normRing r).contents.Sublist got) (hout : pc.Outside) :
    Stored got r pc := by
  refine ⟨hwf, [], hcont, ?_⟩
  cases pc with
  | reading t =>
    rw [show t = Reader.start from hout]
    exact ⟨hlt, rfl, fun _ => rfl⟩
  | _ => exact hlt

/-- What the reader has copied was received. -/
theorem readerOk_buf_sublist {got : List UInt8} {r : RingBuffer} {t : Reader} {taken : List UInt8}
    (h : (taken ++ (normRing r).contents).Sublist got) (hok : ReaderOk r t taken) :
    t.buf.Sublist got := by
  have hcopied : (t.pc.copied r).Sublist (normRing r).contents := by
    obtain ⟨pc, count, ret, buf⟩ := t
    cases pc with
    | advance c =>
      rw [normRing_of_lt hok.pc.1]
      exact List.take_sublist _ _
    | _ => exact List.nil_sublist _
  rw [hok.buf]
  exact (hcopied.append_left taken).trans h

/-- `head` is inside the ring between two reads. -/
theorem SendPc.Knows.head_lt {r : RingBuffer} {taken : List UInt8} {pc : SendPc}
    (h : pc.Knows r taken) (hin : ∀ t, pc = .reading t → t.pc = .empty ∨ t.pc = .done) :
    r.head < r.size := by
  cases pc with
  | reading t =>
    have hpc : t.pc.Ok r := h.pc
    rcases hin t rfl with hempty | hdone
    · rw [hempty] at hpc
      exact hpc
    · rw [hdone] at hpc
      exact hpc
  | _ => exact h

/-- A statement of the send task keeps what is stored. -/
theorem stored_task {got : List UInt8} {s s' : System} (hblock : (ringBufClear s.dev.uartrxbuf).Wf)
    (h : Stored got s.dev.uartrxbuf s.sendPc) (he : SendEffect s s') :
    Stored got s'.dev.uartrxbuf s'.sendPc := by
  obtain ⟨hwf, taken, hsub, hknows⟩ := h
  have hcont : (normRing s.dev.uartrxbuf).contents.Sublist got :=
    (List.sublist_append_right _ _).trans hsub
  cases he with
  | read t hpc hpc' hring hsent =>
    rw [hpc] at hknows
    obtain ⟨hwf', taken', hsame, hok'⟩ := readerStep_ok hwf hknows rfl
    rw [hring, hpc']
    exact ⟨hwf', taken', hsame ▸ hsub, hok'⟩
  | fetch t hpc hdone hout hring hbuf hsent =>
    have hlt := hknows.head_lt fun u hu => .inr (by
      rw [hpc] at hu
      rw [← SendPc.reading.inj hu]
      exact hdone)
    rw [hring]
    exact stored_of_outside hwf hlt hcont hout
  | clear hpc' hring hsent =>
    have hpos : 0 < s.dev.uartrxbuf.size := hblock.size_pos
    have hnorm : normRing (ringBufClear s.dev.uartrxbuf) = ringBufClear s.dev.uartrxbuf :=
      normRing_of_lt hpos
    rw [hring, hpc']
    refine stored_of_outside ?_ hpos ?_ trivial
    · rw [hnorm]
      exact hblock
    · rw [hnorm]
      exact List.nil_sublist _
  | send fd hchunk hout hring hbuf hsent =>
    have hlt := hknows.head_lt fun u hu => by
      rw [hu] at hchunk
      exact hchunk.elim
    rw [hring]
    exact stored_of_outside hwf hlt hcont hout
  | move hin hout hchunk hring hbuf hsent =>
    have hlt := hknows.head_lt fun u hu => .inl (hin u hu)
    rw [hring]
    exact stored_of_outside hwf hlt hcont hout

/-- A byte that arrives while `head` stands unwrapped at `size` and the last cell is taken wraps
    `tail` onto it: the ring is empty. -/
theorem ringBufWriteChar_overrun {r : RingBuffer} (hwf : (normRing r).Wf) (hhead : r.head = r.size)
    (htail : r.tail + 1 = r.size) (data : UInt8) :
    (ringBufWriteChar r data).1
      = { r with buffer := r.buffer.set r.tail data, tail := 0 } := by
  have hs : r.size ≤ 2147483648 := hwf.size_le
  have hu : u32 ((r.tail : ℤ) + 1) = r.size := by unfold u32; omega
  have hfull : ringBufFull r = false := by
    unfold ringBufFull
    rw [hu, Nat.mod_self, beq_eq_false_iff_ne]
    omega
  have hzero : u32 ((r.size : ℤ) - r.size) = 0 := by unfold u32; omega
  simp only [ringBufWriteChar, hfull, hu, Bool.not_false, if_true, ge_iff_le, le_refl, hzero]

/-- A byte interrupt keeps what is stored, also when the byte overruns the ring. -/
theorem stored_byte {got : List UInt8} {r : RingBuffer} {pc : SendPc} (h : Stored got r pc)
    (data : UInt8) : Stored (got ++ [data]) (ringBufWriteChar r data).1 pc := by
  obtain ⟨hwf, taken, hsub, hknows⟩ := h
  have hle : r.head ≤ r.size := by
    cases pc with
    | reading t => exact hknows.pc.head_le
    | _ => exact Nat.le_of_lt hknows
  by_cases hfit : r.head < r.size ∨ r.tail + 1 < r.size
  · obtain ⟨-, -, hhead, hsize⟩ := normRing_writeChar hwf hle hfit data
    obtain ⟨hwf', hcont, hreader⟩ := normRing_byte hwf hle hfit data
    refine ⟨hwf', taken, ?_, ?_⟩
    · rw [hcont, ← List.append_assoc]
      apply hsub.append
      split
      · exact List.Sublist.refl _
      · exact List.nil_sublist _
    · cases pc with
      | reading t => exact hreader t taken hknows
      | _ =>
        show (ringBufWriteChar r data).1.head < (ringBufWriteChar r data).1.size
        rw [hhead, hsize]
        exact hknows
  · have htail : r.tail < r.size := hwf.tail_lt
    have heq : r.head = r.size := by omega
    have hover := ringBufWriteChar_overrun hwf heq (by omega) data
    have hnorm : normRing (ringBufWriteChar r data).1
        = { r with head := 0, buffer := r.buffer.set r.tail data, tail := 0 } := by
      rw [hover]
      exact normRing_of_eq heq
    have hempty : (normRing (ringBufWriteChar r data).1).contents = [] := by
      rw [hnorm]
      rfl
    refine ⟨?_, taken, ?_, ?_⟩
    · rw [hnorm]
      refine ⟨hwf.size_pos, hwf.size_le, hwf.size_pos, hwf.size_pos, ?_⟩
      show r.size ≤ (r.buffer.set r.tail data).length
      rw [List.length_set]
      exact hwf.block
    · rw [hempty, List.append_nil]
      exact ((List.sublist_append_left _ _).trans hsub).trans (List.sublist_append_left _ _)
    · rw [hover]
      cases pc with
      | reading t =>
        -- only the two wrap statements leave `head` at `size`
        obtain ⟨rpc, count, ret, buf⟩ := t
        obtain ⟨hpc, hbuf, hfresh⟩ := hknows
        cases rpc with
        | wrapTest c => exact ⟨hpc, hbuf, hfresh⟩
        | wrap c => exact ⟨hpc, hbuf, hfresh⟩
        | _ =>
          simp only [ReadPc.Ok] at hpc
          omega
      | _ => exact absurd hknows (by show ¬ r.head < r.size; omega)

/-! ### What a session sends -/

/-- The bytes a step brings in `DATA_MODE`. -/
def stepBytes (s : System) : Label → List UInt8
  | .byte dummy => if s.dev.atMode = .data then [dummy] else []
  | _ => []

/-- The bytes received in `DATA_MODE` in a run, in order. -/
def received : System → List Label → List UInt8
  | _, [] => []
  | s, l :: ls =>
    stepBytes s l ++ match systemStep s l with
      | some s' => received s' ls
      | none => []

/-- The statements of `TestSerialToWifi` after the switch. -/
def ModePc.AfterSwitch : ModePc → Prop
  | .clearRing | .post | .setIdle | .loopTop => True
  | _ => False

/-- What holds between any two steps of a session: `old` was sent before it, `got` has been
    received in it. -/
structure SessionInv (old : List (ℤ × List UInt8)) (got : List UInt8) (s : System) : Prop where
  switch : SwitchInv s
  at_after : s.dev.atMode = .at → s.modePc.AfterSwitch
  clear_at : s.modePc = .clearRing → s.dev.atMode = .at
  /-- Until the ring is cleared again it stores nothing else. -/
  stored : ¬ Switched s → Stored got s.dev.uartrxbuf s.sendPc
  buf : ∀ t, s.sendPc = .reading t → t.buf.Sublist got
  chunk : s.sendPc.HoldsChunk → s.sendBuf.Sublist got
  sent : ∃ new, s.sent = old ++ new ∧ ∀ c ∈ new, c.2.Sublist got

variable {old : List (ℤ × List UInt8)} {got : List UInt8}

/-- A step that leaves everything but the environment alone. -/
theorem SessionInv.frame {s s' : System} (h : SessionInv old got s)
    (hring : s'.dev.uartrxbuf = s.dev.uartrxbuf) (hmode : s'.dev.atMode = s.dev.atMode)
    (hpc : s'.modePc = s.modePc) (hsend : s'.sendPc = s.sendPc) (hbuf : s'.sendBuf = s.sendBuf)
    (hsent : s'.sent = s.sent) : SessionInv old got s' := by
  have hsw : Switched s' ↔ Switched s := by unfold Switched; rw [hmode, hpc]
  refine ⟨h.switch.frame hring hmode hpc hsend, ?_, ?_, ?_, ?_, ?_, ?_⟩
  · rw [hmode, hpc]
    exact h.at_after
  · rw [hmode, hpc]
    exact h.clear_at
  · rw [hsw, hring, hsend]
    exact h.stored
  · rw [hsend]
    exact h.buf
  · rw [hsend, hbuf]
    exact h.chunk
  · rw [hsent]
    exact h.sent

/-- A byte interrupt. -/
theorem sessionInv_byte {s : System} (h : SessionInv old got s) (dummy : UInt8) :
    SessionInv old (got ++ stepBytes s (.byte dummy))
      { s with dev := uartDataRecv s.dev dummy } := by
  obtain ⟨hmode, hring⟩ := uartDataRecv_ring s.dev dummy
  by_cases hdata : s.dev.atMode = .data
  · have hgrow : got.Sublist (got ++ [dummy]) := List.sublist_append_left _ _
    have hswitch := switchInv_step s (.byte dummy) _ h.switch trivial rfl
    have hnot : ¬ Switched s := fun hsw => by
      have := hsw.1
      rw [hdata] at this
      cases this
    rw [if_pos hdata] at hring
    simp only [stepBytes, hdata, if_true]
    refine ⟨hswitch, fun hat => ?_, fun hclear => ?_, fun _ => ?_, fun t ht => ?_, fun hc => ?_, ?_⟩
    · rw [show (uartDataRecv s.dev dummy).atMode = .at from hat, hdata] at hmode
      cases hmode
    · exact hmode.trans (h.clear_at hclear)
    · show Stored (got ++ [dummy]) (uartDataRecv s.dev dummy).uartrxbuf s.sendPc
      rw [hring]
      exact stored_byte (h.stored hnot) dummy
    · exact (h.buf t ht).trans hgrow
    · exact (h.chunk hc).trans hgrow
    · obtain ⟨new, hnew, hsub⟩ := h.sent
      exact ⟨new, hnew, fun c hc => (hsub c hc).trans hgrow⟩
  · rw [if_neg hdata] at hring
    simp only [stepBytes, hdata, if_false, List.append_nil]
    exact h.frame hring hmode rfl rfl rfl rfl

/-- A statement of the send task. -/
theorem sessionInv_task {s s' : System} {snd : ℤ} (h : SessionInv old got s)
    (hs : sendStep s snd = some s') : SessionInv old got s' := by
  obtain ⟨he, hmode, hpc⟩ := sendStep_effect hs
  have hswitch := switchInv_step s (.task snd) s' h.switch trivial hs
  have hsw : Switched s' ↔ Switched s := by unfold Switched; rw [hmode, hpc]
  have hstored : ¬ Switched s' → Stored got s'.dev.uartrxbuf s'.sendPc := fun hnot =>
    stored_task h.switch.block (h.stored (hsw.not.mp hnot)) he
  have hout : s'.sendPc.Outside → ∀ t, s'.sendPc = .reading t → t.buf.Sublist got := by
    intro hout t ht
    rw [ht] at hout
    rw [show t = Reader.start from hout]
    exact List.nil_sublist _
  refine ⟨hswitch, by rw [hmode, hpc]; exact h.at_after, by rw [hmode, hpc]; exact h.clear_at,
    hstored, ?_, ?_, ?_⟩
  · cases he with
    | read t hpc hpc' hring hsent =>
      intro u hu
      by_cases hat : Switched s
      · obtain ⟨hhead, htail, hidle⟩ := h.switch.quiet hat
        rw [hpc] at hidle
        have hpos : 0 < s.dev.uartrxbuf.size := h.switch.block.size_pos
        obtain ⟨-, hsame, -⟩ := readerStep_quiet hpos hhead htail hidle
        rw [hpc'] at hu
        rw [← SendPc.reading.inj hu, hsame]
        exact h.buf t hpc
      · obtain ⟨-, taken, hsub, hknows⟩ := hstored (hsw.not.mpr hat)
        rw [hu] at hknows
        exact readerOk_buf_sublist hsub hknows
    | fetch t hpc hdone hout' hring hbuf hsent => exact hout hout'
    | clear hpc' hring hsent => exact hout (by rw [hpc']; trivial)
    | send fd hchunk hout' hring hbuf hsent => exact hout hout'
    | move hin hout' hchunk hring hbuf hsent => exact hout hout'
  · intro hc
    cases he with
    | read t hpc hpc' hring hsent =>
      rw [hpc'] at hc
      exact hc.elim
    | fetch t hpc hdone hout' hring hbuf hsent =>
      rw [hbuf]
      exact h.buf t hpc
    | clear hpc' hring hsent =>
      rw [hpc'] at hc
      exact hc.elim
    | send fd hchunk hout' hring hbuf hsent =>
      rw [hbuf]
      exact h.chunk hchunk
    | move hin hout' hchunk hring hbuf hsent =>
      rw [hbuf]
      exact h.chunk (hchunk hc)
  -- Only `send` and `sendto` add to `sent`, and what they add is `send_buf`.
  · obtain ⟨new, hnew, hsub⟩ := h.sent
    cases he with
    | send fd hchunk hout' hring hbuf hsent =>
      refine ⟨new ++ [(fd, s.sendBuf)], by rw [hsent, hnew, List.append_assoc], fun c hc => ?_⟩
      rcases List.mem_append.mp hc with hc | hc
      · exact hsub c hc
      · rw [List.mem_singleton.mp hc]
        exact h.chunk hchunk
    | read t hpc hpc' hring hsent => exact ⟨new, hsent.trans hnew, hsub⟩
    | fetch t hpc hdone hout' hring hbuf hsent => exact ⟨new, hsent.trans hnew, hsub⟩
    | clear hpc' hring hsent => exact ⟨new, hsent.trans hnew, hsub⟩
    | move hin hout' hchunk hring hbuf hsent => exact ⟨new, hsent.trans hnew, hsub⟩

/-- `TestSerialToWifi` stays behind the switch while the mode is `AT_MODE`. -/
theorem modeStep_afterSwitch {s s' : System} (h : modeStep s = some s')
    (hafter : s.dev.atMode = .at → s.modePc.AfterSwitch) :
    s'.dev.atMode = .at → s'.modePc.AfterSwitch := by
  cases hpc : s.modePc <;> rw [hpc] at hafter <;> simp only [modeStep, hpc] at h
  case loopTop =>
    rw [← Option.some.inj h]
    intro hat
    rw [show s.dev.atMode = .at from hat]
    trivial
  case pend =>
    split at h
    · rw [← Option.some.inj h]
      exact fun hat => (hafter hat).elim
    · cases h
  case setMode | clearRing | post | setIdle =>
    rw [← Option.some.inj h]
    exact fun _ => trivial
  all_goals
    rw [← Option.some.inj h]
    exact fun hat => (hafter hat).elim

/-- A statement of `TestSerialToWifi`. -/
theorem sessionInv_mode {s s' : System} (h : SessionInv old got s) (hok : ClearOk s .mode)
    (hs : modeStep s = some s') : SessionInv old got s' := by
  have hswitch := switchInv_step s .mode s' h.switch hok hs
  have hafter := modeStep_afterSwitch hs h.at_after
  obtain ⟨hpc, hbuf, hsent, hring, hmode⟩ := modeStep_ring hs
  refine ⟨hswitch, hafter, fun hclear => ?_, fun hnot => ?_, by rw [hpc]; exact h.buf,
    by rw [hpc, hbuf]; exact h.chunk, by rw [hsent]; exact h.sent⟩
  · rcases hmode with ⟨-, hne⟩ | ⟨-, hat, -⟩
    · exact absurd hclear hne
    · exact hat
  · -- the session goes on: the ring was not cleared, and it was not cleared before
    have hdata : s.dev.atMode = .data := by
      cases hm : s.dev.atMode with
      | data => rfl
      | «at» =>
        rcases hmode with ⟨hmode, hne⟩ | ⟨hset, -, -⟩
        · exact absurd ⟨hmode.trans hm, hne⟩ hnot
        · have := h.at_after hm
          rw [hset] at this
          exact this.elim
    have hnotclear : s.modePc ≠ .clearRing := fun hclear => by
      rw [h.clear_at hclear] at hdata
      cases hdata
    rw [if_neg hnotclear] at hring
    rw [hring, hpc]
    apply h.stored
    intro hsw
    rw [hsw.1] at hdata
    cases hdata

/-- Every step of a session keeps the invariant. -/
theorem sessionInv_step {s s' : System} {l : Label} (h : SessionInv old got s) (hok : ClearOk s l)
    (hquit : l ≠ .quit) (hs : systemStep s l = some s') :
    SessionInv old (got ++ stepBytes s l) s' := by
  cases l with
  | byte dummy =>
    rw [← Option.some.inj hs]
    exact sessionInv_byte h dummy
  | timer =>
    obtain ⟨d, hd, rfl⟩ := Option.map_eq_some_iff.mp hs
    simp only [stepBytes, List.append_nil]
    unfold timerIsr at hd
    split at hd
    · rw [← Option.some.inj hd]
      obtain ⟨hmode, hring, -⟩ := timerFuncProcess_wake s.dev
      exact h.frame hring hmode rfl rfl rfl rfl
    · cases hd
  | task snd =>
    simp only [stepBytes, List.append_nil]
    exact sessionInv_task h hs
  | call =>
    simp only [stepBytes, List.append_nil]
    have hswitch := switchInv_step s .call s' h.switch trivial hs
    simp only [systemStep] at hs
    split at hs
    · rename_i hcall
      have hnot : ¬ Switched s := fun hsw => by
        have := hsw.1
        rw [hcall.2] at this
        cases this
      obtain ⟨hwf, taken, hsub, hknows⟩ := h.stored hnot
      rw [hcall.1] at hknows
      rw [← Option.some.inj hs] at hswitch ⊢
      refine ⟨hswitch, h.at_after, h.clear_at, fun _ => ?_, fun t ht => ?_, False.elim, h.sent⟩
      · exact stored_of_outside hwf hknows ((List.sublist_append_right _ _).trans hsub) trivial
      · cases ht
    · cases hs
  | close i =>
    rw [← Option.some.inj hs]
    simp only [stepBytes, List.append_nil]
    exact h.frame rfl rfl rfl rfl rfl rfl
  | sockets connStatus sockfd tcpServerFd tcpClient =>
    rw [← Option.some.inj hs]
    simp only [stepBytes, List.append_nil]
    exact h.frame rfl rfl rfl rfl rfl rfl
  | mode =>
    simp only [stepBytes, List.append_nil]
    exact sessionInv_mode h hok hs
  | quit => exact absurd rfl hquit
  | configure proto role frameLength =>
    simp only [stepBytes, List.append_nil]
    simp only [systemStep] at hs
    split at hs
    · rw [← Option.some.inj hs]
      exact h.frame rfl rfl rfl rfl rfl rfl
    · cases hs

/-- A whole session: induction over the run, with the bytes received so far. -/
theorem sessionInv_run {ls : List Label} {s t : System} (h : SessionInv old got s)
    (hok : Along systemStep ClearOk s ls) (hquit : .quit ∉ ls)
    (hr : run systemStep s ls = some t) : SessionInv old (got ++ received s ls) t := by
  induction ls generalizing s got with
  | nil =>
    rw [run_nil, Option.some.injEq] at hr
    rw [received, List.append_nil, ← hr]
    exact h
  | cons l ls ih =>
    rw [run_cons, Option.bind_eq_some_iff] at hr
    obtain ⟨s', hs, hr'⟩ := hr
    rw [List.mem_cons, not_or] at hquit
    have hnext := sessionInv_step h hok.1 (Ne.symm hquit.1) hs
    have hend := ih hnext (hok.2 s' hs) hquit.2 hr'
    rw [received, hs, ← List.append_assoc]
    exact hend

theorem ringBufClear_of_zero {r : RingBuffer} (hhead : r.head = 0) (htail : r.tail = 0) :
    ringBufClear r = r := by
  obtain ⟨size, head, tail, buffer⟩ := r
  subst hhead htail
  rfl

/-- `AT+QUIT` after a complete switch begins a session with nothing in the ring. -/
theorem sessionInv_quit {t u : System} (h : SwitchInv t) (hsw : Switched t)
    (hret : t.sendPc = .returned) (hu : systemStep t .quit = some u) :
    SessionInv u.sent [] u := by
  -- The switch has left `head = tail = 0` and the send task outside its read.
  have hswitch := switchInv_step t .quit u h trivial hu
  obtain ⟨hhead, htail, -⟩ := h.quiet hsw
  have hclear := ringBufClear_of_zero hhead htail
  have hpos : t.dev.uartrxbuf.head < t.dev.uartrxbuf.size := by
    rw [hhead]
    exact h.block.size_pos
  simp only [systemStep, hsw.1, if_true] at hu
  rw [← Option.some.inj hu] at hswitch ⊢
  refine ⟨hswitch, fun hat => (by cases hat), fun hc => absurd hc hsw.2, fun _ => ?_,
    fun v hv => ?_, fun hc => ?_, [], by rw [List.append_nil], fun c hc => by cases hc⟩
  · have hout : t.sendPc.Outside := by rw [hret]; trivial
    refine stored_of_outside ?_ hpos ?_ hout
    · show (normRing t.dev.uartrxbuf).Wf
      rw [normRing_of_lt hpos, ← hclear]
      exact h.block
    · show (normRing t.dev.uartrxbuf).contents.Sublist []
      rw [normRing_of_lt hpos, ← hclear]
      exact List.nil_sublist _
  · rw [show t.sendPc = .reading v from hv] at hret
    cases hret
  · rw [show t.sendPc = .returned from hret] at hc
    exact hc.elim

/-! ### No data crosses the switch -/

/-- **Sessions stay apart** in a run from `DATA_MODE`, with the send task at any statement, in
    which the ring is never cleared under a committed read: once `TestSerialToWifi` has switched
    and the send task has returned the ring is empty, and in the session that `AT+QUIT` begins
    then every chunk sent consists of bytes received in it, in order. -/
theorem mode_switch_separates {s t : System} {ls : List Label}
    (hblock : (ringBufClear s.dev.uartrxbuf).Wf) (hdata : s.dev.atMode = .data)
    (hok : Along systemStep ClearOk s ls) (hr : run systemStep s ls = some t) (hsw : Switched t)
    (hret : t.sendPc = .returned) :
    ringBufEmpty t.dev.uartrxbuf = true ∧
      ∀ (u v : System) (ks : List Label), systemStep t .quit = some u → .quit ∉ ks →
        Along systemStep ClearOk u ks → run systemStep u ks = some v →
        ∀ chunk ∈ v.sent.drop u.sent.length, chunk.2.Sublist (received u ks) := by
  -- The switch itself first; the next session then starts from an empty ring.
  have hinv : SwitchInv t :=
    run_invariant switchInv_step ls s t (switchInv_of_data hblock hdata) hok hr
  obtain ⟨hhead, htail, -⟩ := hinv.quiet hsw
  refine ⟨by simp [ringBufEmpty, hhead, htail], fun u v ks hu hquit hok' hv chunk hc => ?_⟩
  have hsession := sessionInv_run (sessionInv_quit hinv hsw hret hu) hok' hquit hv
  obtain ⟨new, hnew, hsub⟩ := hsession.sent
  rw [hnew, List.drop_left] at hc
  exact hsub chunk hc

/-- After `+++` was sent and the switch was made, `AT` commands select UDP. -/
def switchToUdp : List Label := escape 10 7 ++ [.configure .udp .client 256]

/-- A UDP session that sends one byte. -/
def udpByteSession : List Label :=
  [.sockets true 0 (-1) (fun _ => -1), .call, .task 0, .task 0, .byte 65, .timer] ++
    List.replicate 19 (.task 1)

/-- The state after the switch, and the one in which the next session begins. -/
abbrev afterSwitch : System := runEnd systemStep tcpSession switchToUdp
/-- The state after the switch when the next session has begun. -/
abbrev nextSession : System := runEnd systemStep afterSwitch [.quit]

/-- The escape sequence of the first session is not sent again in the second. -/
theorem mode_switch_separates_udp :
    ringBufEmpty afterSwitch.dev.uartrxbuf = true ∧
      ∀ chunk ∈ (runEnd systemStep nextSession udpByteSession).sent.drop nextSession.sent.length,
        chunk.2.Sublist (received nextSession udpByteSession) := by
  have hblock : (ringBufClear tcpSession.dev.uartrxbuf).Wf :=
    (ringBufAlloc_spec (by decide) (by decide) (by decide +kernel)).1
  have hok : Along systemStep ClearOk tcpSession switchToUdp := by decide +kernel
  have hrun : run systemStep tcpSession switchToUdp = some afterSwitch :=
    run_eq_runEnd (by decide +kernel)
  have hsw : Switched afterSwitch := by decide +kernel
  have hret : afterSwitch.sendPc = .returned := by decide +kernel
  obtain ⟨hempty, hnext⟩ := mode_switch_separates (s := tcpSession) (t := afterSwitch) hblock rfl
    hok hrun hsw hret
  have hquit : run systemStep afterSwitch [.quit] = some nextSession :=
    run_eq_runEnd (by decide +kernel)
  rw [run_singleton] at hquit
  have hok' : Along systemStep ClearOk nextSession udpByteSession := by decide +kernel
  have hrun' : run systemStep nextSession udpByteSession
      = some (runEnd systemStep nextSession udpByteSession) := run_eq_runEnd (by decide +kernel)
  exact ⟨hempty, hnext _ _ _ hquit (by simp [udpByteSession]) hok' hrun'⟩

/-- `+++` is sent, then a carriage return arrives; `TestSerialToWifi` runs between `memcpy` and
    `cb->head += c;` of its read, and `TCPSendTask` goes on until it returns. -/
def clearMidRead : List Label :=
  escape 3 0 ++ [.byte 13, .timer] ++ List.replicate 10 (.task 1) ++ List.replicate 7 .mode ++
    List.replicate 15 (.task 1)

/-- **The switch can leave the whole old ring to the next session**: the task returns with `head`
    one cell past `tail`, although it held `recv_lock` while the ring was cleared. -/
theorem clear_mid_read_leaves_ring :
    ¬ ∀ (s t : System) (ls : List Label), (ringBufClear s.dev.uartrxbuf).Wf →
      s.dev.atMode = .data → run systemStep s ls = some t → Switched t → t.sendPc = .returned →
      ringBufEmpty t.dev.uartrxbuf = true ∧
        ∀ (u v : System) (ks : List Label), systemStep t .quit = some u → .quit ∉ ks →
          run systemStep u ks = some v →
          ∀ chunk ∈ v.sent.drop u.sent.length, chunk.2.Sublist (received u ks) := by
  intro hall
  have hblock : (ringBufClear tcpSession.dev.uartrxbuf).Wf :=
    (ringBufAlloc_spec (by decide) (by decide) (by decide +kernel)).1
  have hempty := (hall tcpSession (runEnd systemStep tcpSession clearMidRead) clearMidRead hblock
    rfl (run_eq_runEnd (by decide +kernel)) (by decide +kernel) (by decide +kernel)).1
  exact absurd hempty (by decide +kernel)

end SerialNet
