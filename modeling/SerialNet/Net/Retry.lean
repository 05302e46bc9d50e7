import SerialNet.Net.SendTask

namespace SerialNet

/-!
# The retry loop of `TCPSendTask` in server mode

When `send` to client `i` fails, the task retries until the send succeeds, the mode changes or
`Get_MaxFd() <= 0`.  `TCPRecvTask` meanwhile closes the client and sets its slot to -1.  The
loop never looks at the slot: it ends only if no descriptor above 0 is left, neither of another
client nor of the listening socket, and then `return` drops the chunk for the clients that
remain.

`LeavesDeadSlot` says what serving the other clients would need, and
`leavesDeadSlot_iff` when the task does it.
-/

/-- The task is in the retry loop of slot `i`; a send that succeeded is on its way out. -/
def SendPc.InRetry (i : Fin 5) : SendPc → Prop
  | .retryTest target | .delay target | .resend target => target = some i
  | .resendTest target snd => target = some i ∧ snd ≤ 0
  | _ => False

instance (i : Fin 5) (pc : SendPc) : Decidable (pc.InRetry i) := by
  unfold SendPc.InRetry; split <;> infer_instance

/-- What may happen around the task: interrupts, and `TCPRecvTask` closing clients; a send on a
    negative descriptor fails. -/
def RetryEnv (s : System) : Label → Prop
  | .task snd =>
      ∀ target, s.sendPc = .send target ∨ s.sendPc = .resend target →
        targetFd s.dev target < 0 → snd < 0
  | .byte _ | .timer | .close _ => True
  | _ => False

/-- The label is a statement of the send task. -/
def Label.isTask : Label → Bool
  | .task _ => true
  | _ => false

/-- From `s` on, whatever happens around it: after the four statements of one iteration the
    task has left the retry loop of slot `i`, and when it is done with the chunk it has offered
    it to every later slot that is still live. -/
def LeavesDeadSlot (s : System) (i : Fin 5) : Prop :=
  ∀ (ls : List Label) (t : System), run systemStep s ls = some t →
    Along systemStep RetryEnv s ls →
    (4 ≤ ls.countP Label.isTask → ¬ t.sendPc.InRetry i) ∧
      (t.sendPc = .loopTop ∨ t.sendPc = .returned → ∀ j, i < j → 0 ≤ t.dev.tcpClient j →
        (t.dev.tcpClient j, s.sendBuf) ∈ t.sent.drop s.sent.length)

/-- No descriptor above 0 is left, and no later slot is live. -/
def NoneToServe (d : Device) (i : Fin 5) : Prop :=
  d.tcpServerFd ≤ 0 ∧ (∀ j, d.tcpClient j ≤ 0) ∧ ∀ j, i < j → d.tcpClient j < 0

instance (d : Device) (i : Fin 5) : Decidable (NoneToServe d i) :=
  inferInstanceAs (Decidable (_ ∧ _ ∧ _))

/-! ### `Get_MaxFd` -/

section

variable {d : Device}

/-- The loop of `Get_MaxFd` returns its start value or the descriptor of a live client. -/
theorem getMaxFd_foldl {P : ℤ → Prop} (h : ∀ j, 0 ≤ d.tcpClient j → P (d.tcpClient j)) :
    ∀ (l : List (Fin 5)) (maxfd : ℤ), P maxfd →
      P (l.foldl (fun maxfd i => if d.tcpClient i ≥ 0 then d.tcpClient i else maxfd) maxfd)
  | [], _, hP => hP
  | j :: l, maxfd, hP => by
    rw [List.foldl_cons]
    apply getMaxFd_foldl h l
    split
    · exact h j (by assumption)
    · exact hP

theorem getMaxFd_le_zero (hserver : d.tcpServerFd ≤ 0) (h : ∀ j, d.tcpClient j ≤ 0) :
    getMaxFd d ≤ 0 := by
  refine getMaxFd_foldl (P := (· ≤ 0)) (fun j _ => h j) _ _ ?_
  split <;> omega

/-- Without a live client it is the listening socket. -/
theorem getMaxFd_of_no_client (hserver : 0 ≤ d.tcpServerFd) (h : ∀ j, d.tcpClient j < 0) :
    getMaxFd d = d.tcpServerFd := by
  refine getMaxFd_foldl (P := (· = d.tcpServerFd)) (fun j hj => ?_) _ _ (if_pos hserver)
  have := h j
  omega

/-- With one live client it is that client. -/
theorem getMaxFd_of_one_client {k : Fin 5} (hk : 0 ≤ d.tcpClient k)
    (h : ∀ j, j ≠ k → d.tcpClient j < 0) : getMaxFd d = d.tcpClient k := by
  obtain ⟨l₁, l₂, hl⟩ := List.append_of_mem (List.mem_finRange k)
  rw [getMaxFd, hl, List.foldl_append, List.foldl_cons, if_pos hk]
  refine getMaxFd_foldl (P := (· = d.tcpClient k)) (fun j hj => ?_) _ _ rfl
  by_cases hjk : j = k
  · rw [hjk]
  · have := h j hjk
    omega

end

/-! ### One statement of the loop -/

/-- How many statements the task is away from the next test at the top of the loop. -/
def retryRank : SendPc → ℕ
  | .delay _ => 4
  | .resend _ => 3
  | .resendTest _ _ => 2
  | .retryTest _ => 1
  | _ => 0

theorem SendPc.InRetry.rank_pos {i : Fin 5} {pc : SendPc} (h : pc.InRetry i) :
    0 < retryRank pc := by
  cases pc <;> first | exact h.elim | simp [retryRank]

theorem retryRank_le (pc : SendPc) : retryRank pc ≤ 4 := by
  cases pc <;> simp [retryRank]

/-- A statement of the retry loop whose send, if it is one, fails: nothing changes but the
    calls made.  The task goes on in the loop, unless it is at the test and
    `Get_MaxFd() <= 0`. -/
theorem retry_statement {i : Fin 5} {s : System} (snd : ℤ) (hpc : s.sendPc.InRetry i)
    (hdata : s.dev.atMode = .data) (hsnd : s.sendPc = .resend (some i) → snd < 0) :
    ∃ s', sendStep s snd = some s' ∧ s'.dev = s.dev ∧
      (∃ l, s'.sent = s.sent ++ l ∧ ∀ call ∈ l, call.1 = s.dev.tcpClient i) ∧
      (s.sendPc = .retryTest (some i) ∧ getMaxFd s.dev ≤ 0 ∧ s'.sendPc = .giveUpClear ∨
        s'.sendPc.InRetry i ∧
          (getMaxFd s.dev ≤ 0 → retryRank s'.sendPc + 1 = retryRank s.sendPc)) := by
  cases heq : s.sendPc <;> rw [heq] at hpc hsnd <;> first | exact hpc.elim | skip
  case retryTest target =>
    obtain rfl : target = some i := hpc
    have hgives : givesUp s.dev (some i) ↔ getMaxFd s.dev ≤ 0 := by simp [givesUp, hdata]
    by_cases hmax : getMaxFd s.dev ≤ 0
    · refine ⟨{ s with sendPc := .giveUpClear }, ?_, rfl, ⟨[], by simp, by simp⟩,
        .inl ⟨rfl, hmax, rfl⟩⟩
      simp [sendStep, heq, hgives, hmax]
    · refine ⟨{ s with sendPc := .delay (some i) }, ?_, rfl, ⟨[], by simp, by simp⟩,
        .inr ⟨rfl, fun h => absurd h hmax⟩⟩
      simp [sendStep, heq, hgives, hmax]
  case delay target =>
    obtain rfl : target = some i := hpc
    exact ⟨{ s with sendPc := .resend (some i) }, by simp [sendStep, heq], rfl,
      ⟨[], by simp, by simp⟩, .inr ⟨rfl, fun _ => rfl⟩⟩
  case resend target =>
    obtain rfl : target = some i := hpc
    refine ⟨{ s with sent := s.sent ++ [(s.dev.tcpClient i, s.sendBuf)]
                     sendPc := .resendTest (some i) snd }, by simp [sendStep, heq, targetFd],
      rfl, ⟨[(s.dev.tcpClient i, s.sendBuf)], rfl, by simp⟩, .inr ⟨⟨rfl, ?_⟩, fun _ => rfl⟩⟩
    exact le_of_lt (hsnd rfl)
  case resendTest target res =>
    obtain ⟨rfl, hres⟩ := hpc
    refine ⟨{ s with sendPc := .retryTest (some i) }, ?_, rfl, ⟨[], by simp, by simp⟩,
      .inr ⟨rfl, fun _ => rfl⟩⟩
    simp [sendStep, heq, not_lt.mpr hres]

/-! ### The loop is left when nobody is left -/

/-- The task is in the retry loop of a dead slot with nobody left to serve, or on its way out
    through `return`. -/
structure GivingUp (i : Fin 5) (s : System) : Prop where
  data : s.dev.atMode = .data
  dead : s.dev.tcpClient i < 0
  nobody : NoneToServe s.dev i
  pc : s.sendPc.InRetry i ∨ s.sendPc = .giveUpClear ∨ s.sendPc = .giveUpFlow ∨
    s.sendPc = .returned

/-- Interrupts and closed clients do not bring anybody back. -/
theorem GivingUp.frame {i : Fin 5} {s s' : System} (h : GivingUp i s)
    (hpc : s'.sendPc = s.sendPc) (hmode : s'.dev.atMode = s.dev.atMode)
    (hserver : s'.dev.tcpServerFd = s.dev.tcpServerFd)
    (hclient : ∀ j, s'.dev.tcpClient j = s.dev.tcpClient j ∨ s'.dev.tcpClient j = -1) :
    GivingUp i s' := by
  obtain ⟨hdata, hdead, ⟨hserv, hall, hlater⟩, hout⟩ := h
  refine ⟨hmode.trans hdata, ?_, ⟨hserver ▸ hserv, fun j => ?_, fun j hj => ?_⟩, hpc ▸ hout⟩
  · rcases hclient i with h | h <;> omega
  · have := hall j
    rcases hclient j with h | h <;> omega
  · have := hlater j hj
    rcases hclient j with h | h <;> omega

/-- A statement of the task brings it one closer to the exit. -/
theorem givingUp_task {i : Fin 5} {s s' : System} {snd : ℤ} (h : GivingUp i s)
    (henv : RetryEnv s (.task snd)) (hs : sendStep s snd = some s') :
    GivingUp i s' ∧ retryRank s'.sendPc ≤ retryRank s.sendPc - 1 := by
  obtain ⟨hdata, hdead, hnone, hpc⟩ := h
  have hmax := getMaxFd_le_zero hnone.1 hnone.2.1
  rcases hpc with hpc | hpc | hpc | hpc
  · obtain ⟨s'', hs'', hdev, -, hnext⟩ := retry_statement snd hpc hdata
      (fun hresend => henv (some i) (.inr hresend) hdead)
    obtain rfl : s'' = s' := Option.some.inj (hs''.symm.trans hs)
    rcases hnext with ⟨-, -, hclear⟩ | ⟨hpc', hrank⟩
    · refine ⟨⟨hdev ▸ hdata, hdev ▸ hdead, hdev ▸ hnone, .inr (.inl hclear)⟩, ?_⟩
      rw [hclear]
      exact Nat.zero_le _
    · refine ⟨⟨hdev ▸ hdata, hdev ▸ hdead, hdev ▸ hnone, .inl hpc'⟩, ?_⟩
      have := hrank hmax
      omega
  · simp only [sendStep, hpc, Option.some.injEq] at hs
    subst hs
    exact ⟨⟨hdata, hdead, hnone, .inr (.inr (.inl rfl))⟩, Nat.zero_le _⟩
  · simp only [sendStep, hpc, Option.some.injEq] at hs
    subst hs
    refine ⟨⟨?_, ?_, ?_, .inr (.inr (.inr rfl))⟩, Nat.zero_le _⟩ <;>
      (unfold restartUart; dsimp only; split)
    all_goals first | exact hdata | exact hdead | exact hnone
  · simp [sendStep, hpc] at hs

/-- The variables of the loop's test are not changed by a byte interrupt. -/
theorem uartDataRecv_clients (d : Device) (dummy : UInt8) :
    (uartDataRecv d dummy).atMode = d.atMode ∧
      (uartDataRecv d dummy).tcpServerFd = d.tcpServerFd ∧
      (uartDataRecv d dummy).tcpClient = d.tcpClient := by
  simp only [uartDataRecv, dataRecv, resetTimer0, apply_ite Device.atMode,
    apply_ite Device.tcpServerFd, apply_ite Device.tcpClient, ite_self, and_self]

/-- Nor by the timer interrupt. -/
theorem timerFuncProcess_clients (d : Device) :
    (timerFuncProcess d).atMode = d.atMode ∧
      (timerFuncProcess d).tcpServerFd = d.tcpServerFd ∧
      (timerFuncProcess d).tcpClient = d.tcpClient := by
  simp only [timerFuncProcess, apply_ite Device.atMode, apply_ite Device.tcpServerFd,
    apply_ite Device.tcpClient, ite_self, and_self]

/-- One step of the environment or the task. -/
theorem givingUp_step {i : Fin 5} {s s' : System} {l : Label} (h : GivingUp i s)
    (henv : RetryEnv s l) (hs : systemStep s l = some s') :
    GivingUp i s' ∧ retryRank s'.sendPc ≤ retryRank s.sendPc - [l].countP Label.isTask := by
  cases l with
  | task snd => exact givingUp_task h henv hs
  | byte dummy =>
    rw [← Option.some.inj hs]
    obtain ⟨hmode, hserver, hclient⟩ := uartDataRecv_clients s.dev dummy
    exact ⟨h.frame rfl hmode hserver (fun j => .inl (congrFun hclient j)), le_refl _⟩
  | timer =>
    simp only [systemStep, timerIsr] at hs
    split at hs
    · rw [← Option.some.inj hs]
      obtain ⟨hmode, hserver, hclient⟩ := timerFuncProcess_clients s.dev
      exact ⟨h.frame rfl hmode hserver (fun j => .inl (congrFun hclient j)), le_refl _⟩
    · cases hs
  | close k =>
    rw [← Option.some.inj hs]
    refine ⟨h.frame rfl rfl rfl (fun j => ?_), le_refl _⟩
    by_cases hjk : j = k
    · exact .inr (by simp [hjk])
    · exact .inl (by simp [hjk])
  | call | sockets _ _ _ _ | mode | quit | configure _ _ _ => exact henv.elim

/-- Whatever happens around the task, each of its statements brings it one closer to the
    exit. -/
theorem givingUp_run {i : Fin 5} : ∀ (ls : List Label) (s t : System), GivingUp i s →
    Along systemStep RetryEnv s ls → run systemStep s ls = some t →
    GivingUp i t ∧ retryRank t.sendPc ≤ retryRank s.sendPc - ls.countP Label.isTask
  | [], s, t, h, _, hr => by
    obtain rfl : s = t := Option.some.inj hr
    exact ⟨h, le_refl _⟩
  | l :: ls, s, t, h, henv, hr => by
    rw [run_cons, Option.bind_eq_some_iff] at hr
    obtain ⟨s', hs', hr'⟩ := hr
    obtain ⟨h', hrank⟩ := givingUp_step h henv.1 hs'
    obtain ⟨ht, hrank'⟩ := givingUp_run ls s' t h' (henv.2 s' hs') hr'
    have hcount : (l :: ls).countP Label.isTask
        = [l].countP Label.isTask + ls.countP Label.isTask := 
      @List.countP_append _ _ [l] ls
    exact ⟨ht, by omega⟩

/-- With nobody left to serve, the task leaves the loop within one iteration. -/
theorem leavesDeadSlot_of_noneToServe {s : System} {i : Fin 5} (hdata : s.dev.atMode = .data)
    (hpc : s.sendPc.InRetry i) (hdead : s.dev.tcpClient i < 0) (h : NoneToServe s.dev i) :
    LeavesDeadSlot s i := by
  intro ls t hr henv
  obtain ⟨ht, hrank⟩ := givingUp_run ls s t ⟨hdata, hdead, h, .inl hpc⟩ henv hr
  refine ⟨fun hcount hin => ?_, fun _ j hj hlive => ?_⟩
  · have := hin.rank_pos
    have := retryRank_le s.sendPc
    omega
  · have := ht.nobody.2.2 j hj
    omega

/-! ### Otherwise it is not -/

/-- The descriptors after the clients `js` were closed. -/
def closeClients (tcpClient : Fin 5 → ℤ) (js : List (Fin 5)) : Fin 5 → ℤ :=
  js.foldl (fun c k => Function.update c k (-1)) tcpClient

theorem closeClients_apply (tcpClient : Fin 5 → ℤ) (js : List (Fin 5)) (j : Fin 5) :
    (j ∈ js → closeClients tcpClient js j = -1) ∧
      (j ∉ js → closeClients tcpClient js j = tcpClient j) := by
  induction js generalizing tcpClient with
  | nil => simp [closeClients]
  | cons k js ih =>
    obtain ⟨hmem, hnot⟩ := ih (Function.update tcpClient k (-1))
    constructor
    · intro hj
      by_cases hin : j ∈ js
      · exact hmem hin
      · have hjk : j = k := (List.mem_cons.mp hj).resolve_right hin
        exact (hnot hin).trans (by rw [hjk, Function.update_self])
    · intro hj
      obtain ⟨hjk, hin⟩ := not_or.mp (fun h => hj (List.mem_cons.mpr h))
      exact (hnot hin).trans (Function.update_of_ne hjk _ _)

/-- `TCPRecvTask` closes the clients `js`. -/
theorem run_close (js : List (Fin 5)) (s : System) :
    run systemStep s (js.map .close) = some { s with dev := { s.dev with
      tcpClient := closeClients s.dev.tcpClient js } } := by
  induction js generalizing s with
  | nil => rfl
  | cons k js ih =>
    rw [List.map_cons, run_cons]
    show run systemStep _ (js.map .close) = _
    rw [ih]
    rfl

/-- Clients are closed, then every send fails. -/
theorem along_retryEnv (s : System) (js : List (Fin 5)) (n : ℕ) :
    Along systemStep RetryEnv s (js.map .close ++ List.replicate n (.task (-1))) := by
  refine along_of_forall (fun u l hl => ?_) s
  rcases List.mem_append.mp hl with hl | hl
  · obtain ⟨j, -, rfl⟩ := List.mem_map.mp hl
    trivial
  · rw [List.eq_of_mem_replicate hl]
    exact fun _ _ _ => by decide

/-- Failing sends keep the task in the loop while `Get_MaxFd() > 0`. -/
theorem retry_forever {i : Fin 5} (n : ℕ) : ∀ {s : System}, s.sendPc.InRetry i →
    s.dev.atMode = .data → 0 < getMaxFd s.dev →
    ∃ t, run systemStep s (List.replicate n (.task (-1))) = some t ∧ t.sendPc.InRetry i := by
  induction n with
  | zero => exact fun {s} hpc _ _ => ⟨s, rfl, hpc⟩
  | succ n ih =>
    intro s hpc hdata hmax
    obtain ⟨s', hs', hdev, -, hnext⟩ := retry_statement (-1) hpc hdata (by simp)
    rcases hnext with ⟨-, hle, -⟩ | ⟨hpc', -⟩
    · omega
    · obtain ⟨t, ht, hin⟩ := ih hpc' (hdev ▸ hdata) (hdev ▸ hmax)
      refine ⟨t, ?_, hin⟩
      rw [List.replicate_succ, run_cons]
      show (sendStep s (-1)).bind _ = _
      rw [hs']
      exact ht

/-- Failing sends let it give up once `Get_MaxFd() <= 0`, after offering the chunk to slot `i`
    at most. -/
theorem retry_gives_up {i : Fin 5} : ∀ (n : ℕ) {s : System}, retryRank s.sendPc ≤ n →
    s.sendPc.InRetry i → s.dev.atMode = .data → getMaxFd s.dev ≤ 0 →
    ∃ (k : ℕ) (t : System), run systemStep s (List.replicate k (.task (-1))) = some t ∧
      t.sendPc = .giveUpClear ∧ t.dev = s.dev ∧
      ∃ l, t.sent = s.sent ++ l ∧ ∀ call ∈ l, call.1 = s.dev.tcpClient i
  | 0, s, hrank, hpc, _, _ => by
    have := hpc.rank_pos
    omega
  | n + 1, s, hrank, hpc, hdata, hmax => by
    obtain ⟨s', hs', hdev, ⟨l, hsent, hl⟩, hnext⟩ :=
      retry_statement (-1) hpc hdata (by simp)
    have hstep : systemStep s (.task (-1)) = some s' := hs'
    rcases hnext with ⟨-, -, hclear⟩ | ⟨hpc', hrank'⟩
    · exact ⟨1, s', by simp [run_cons, hstep], hclear, hdev, l, hsent, hl⟩
    · have hle := hrank' hmax
      obtain ⟨k, t, ht, hclear, hdev', l', hsent', hl'⟩ :=
        retry_gives_up n (by omega) hpc' (hdev ▸ hdata) (hdev ▸ hmax)
      refine ⟨k + 1, t, ?_, hclear, hdev'.trans hdev, l ++ l', ?_, ?_⟩
      · rw [List.replicate_succ, run_cons, hstep]
        exact ht
      · rw [hsent', hsent, List.append_assoc]
      · rw [hdev] at hl'
        intro call hcall
        exact (List.mem_append.mp hcall).elim (hl call) (hl' call)

theorem restartUart_tcpClient (d : Device) : (restartUart d).tcpClient = d.tcpClient := by
  unfold restartUart
  split <;> rfl

/-- Having given up, the task clears the ring and returns. -/
theorem giveUp_returns {s : System} (hpc : s.sendPc = .giveUpClear) :
    run systemStep s (List.replicate 2 (.task (-1))) = some { s with
      dev := restartUart { s.dev with uartrxbuf := ringBufClear s.dev.uartrxbuf }
      sendPc := .returned } := by
  simp [List.replicate, run_cons, systemStep, sendStep, hpc]

/-- The chunk has to reach nobody, if the slot is to be left in every case: a descriptor above 0
    keeps the task in the loop after all others are closed, and the exit through `return` skips
    a later slot with descriptor 0. -/
theorem noneToServe_of_leavesDeadSlot {s : System} {i : Fin 5} (hdata : s.dev.atMode = .data)
    (hpc : s.sendPc.InRetry i) (hdead : s.dev.tcpClient i < 0) (h : LeavesDeadSlot s i) :
    NoneToServe s.dev i := by
  -- closing the clients `js` must leave `Get_MaxFd() <= 0`
  have hclosed : ∀ js : List (Fin 5), ¬ 0 < getMaxFd { s.dev with
      tcpClient := closeClients s.dev.tcpClient js } := by
    intro js hmax
    obtain ⟨t, ht, hin⟩ := retry_forever 4 (s := { s with dev := { s.dev with
      tcpClient := closeClients s.dev.tcpClient js } }) hpc hdata hmax
    have hr : run systemStep s (js.map .close ++ List.replicate 4 (.task (-1))) = some t := by
      rw [run_append, run_close]
      exact ht
    refine (h _ t hr (along_retryEnv s js 4)).1 ?_ hin
    rw [List.countP_append]
    exact Nat.le_add_left 4 _
  have hserver : s.dev.tcpServerFd ≤ 0 := by
    by_contra hpos
    apply hclosed (List.finRange 5)
    rw [getMaxFd_of_no_client]
    · exact not_le.mp hpos
    · exact (not_le.mp hpos).le
    · intro j
      exact ((closeClients_apply _ _ j).1 (List.mem_finRange j)).trans_lt (by decide)
  have hall : ∀ j, s.dev.tcpClient j ≤ 0 := by
    intro j
    by_contra hpos
    apply hclosed ((List.finRange 5).filter (· ≠ j))
    rw [getMaxFd_of_one_client (k := j)]
    · exact (not_le.mp hpos).trans_eq ((closeClients_apply _ _ j).2 (by simp)).symm
    · exact (not_le.mp hpos).le.trans_eq ((closeClients_apply _ _ j).2 (by simp)).symm
    · intro k hk
      exact ((closeClients_apply _ _ k).1 (by simp [hk])).trans_lt (by decide)
  refine ⟨hserver, hall, fun j hj => ?_⟩
  by_contra hlive
  obtain ⟨k, t, ht, hclear, hdev, l, hsent, hl⟩ :=
    retry_gives_up 4 (retryRank_le s.sendPc) hpc hdata (getMaxFd_le_zero hserver hall)
  have hreturn := giveUp_returns hclear
  have hr : run systemStep s (List.replicate (k + 2) (.task (-1)))
      = run systemStep t (List.replicate 2 (.task (-1))) := by
    rw [← List.replicate_append_replicate, run_append, ht]
    rfl
  have hoffered := (h _ _ (hr.trans hreturn) (along_retryEnv s [] (k + 2))).2 (.inr rfl) j hj
  simp only [restartUart_tcpClient, hdev, hsent, List.drop_left] at hoffered
  have := hl _ (hoffered (not_lt.mp hlive))
  simp only at this
  omega

/-! ### The exact condition -/

/-- **The task leaves the retry loop of a dead slot and serves the others exactly when there is
    nobody else**: no descriptor above 0, the listening socket's included, and no later slot
    that is live. -/
theorem leavesDeadSlot_iff {s : System} {i : Fin 5} (hdata : s.dev.atMode = .data)
    (hpc : s.sendPc.InRetry i) (hdead : s.dev.tcpClient i < 0) :
    LeavesDeadSlot s i ↔ NoneToServe s.dev i :=
  ⟨noneToServe_of_leavesDeadSlot hdata hpc hdead, leavesDeadSlot_of_noneToServe hdata hpc hdead⟩

/-- A TCP server listening on descriptor 0, whose client in slot `i` has just been closed while
    the task retries to send to it; slot 1 has descriptor `other`. -/
def deadClient (i : Fin 5) (other : ℤ) : System :=
  { dev := { initDevice (List.replicate uartRecvBufSize 0) with
             atMode := .data, socketProtocol := .tcp, socketType := .server, tcpServerFd := 0
             tcpClient := fun j => if j.val = 1 then other else -1 }
    sendPc := .retryTest (some i)
    proto := .tcp
    role := .server
    sendBuf := [65]
    sent := [(1, [65])]
    modePc := .pend }

/-- Without another client. -/
theorem leavesDeadSlot_iff_alone :
    LeavesDeadSlot (deadClient 0 (-1)) 0 ↔ NoneToServe (deadClient 0 (-1)).dev 0 :=
  leavesDeadSlot_iff rfl rfl (by decide)

/-- **One dead client stops the other.**  With a live client in slot 1, one iteration after slot
    0 was closed the task is still in its retry loop. -/
theorem dead_client_stops_others :
    ¬ ∀ (s : System) (i : Fin 5), s.dev.atMode = .data → s.sendPc.InRetry i →
      s.dev.tcpClient i < 0 → LeavesDeadSlot s i := by
  intro hall
  have hleaves := hall (deadClient 0 2) 0 rfl rfl (by decide)
  have hin := (hleaves (List.replicate 4 (.task (-1))) _ (run_eq_runEnd (by decide +kernel))
    (along_retryEnv _ [] 4)).1 (by decide)
  exact absurd hin (by decide +kernel)

end SerialNet
