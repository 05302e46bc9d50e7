import Mathlib.Data.List.Infix
import SerialNet.At.Narrowing
import SerialNet.Lib.Run

namespace SerialNet

/-!
# `ping.c` — a ping session

`AT+PING` starts a session that sends a request at once and then one at every timeout, until
`ping_seq_num` has reached `ping_count`; replies that carry the number of the last request are
counted meanwhile.  The three counters have 16 bits.  Buffers can be allocated here.

`PingState` counts what the module does beside its static variables: the requests it sends, the
reports it prints and the commands it accepts.
-/

/-- `PING_ID`. -/
def pingId : ℕ := 0xAFAF

/-- The static variables of `ping.c`, and what was done so far. -/
structure PingState where
  pingFlag : Bool
  pingCount : ℕ
  pingSeqNum : ℕ
  pingRecvNum : ℕ
  /-- `ping_pcb` is there and `ping_recv` is called for ICMP packets. -/
  pingPcb : Bool
  /-- The timeouts of `ping_timeout` that are pending. -/
  timers : ℕ
  /-- The echo requests sent. -/
  requests : ℕ
  /-- The reports printed, the last one first: `Sent` and `Received`. -/
  reports : List (ℕ × ℕ)
  /-- The commands for which `ping_init` returned 0. -/
  accepted : ℕ
deriving DecidableEq

/-- After boot. -/
def PingState.boot : PingState := ⟨false, 0, 0, 0, false, 0, 0, [], 0⟩

/-- `ping_send`, with `ping_prepare_echo`. -/
def pingSend (s : PingState) : PingState :=
  { s with pingSeqNum := u16 (s.pingSeqNum + 1), requests := s.requests + 1 }

/-- `ping_recv` for an ICMP packet with the fields `id` and `seqno`. -/
def pingRecv (s : PingState) (totLen id seqno : ℕ) : PingState :=
  -- A second reply to the same request is counted like the first.
  if totLen ≥ 20 + 8 ∧ id = pingId ∧ seqno = s.pingSeqNum then
    { s with pingRecvNum := u16 (s.pingRecvNum + 1) }
  else s

/-- `ping_timeout`. -/
def pingTimeout (s : PingState) : PingState :=
  let s : PingState := { s with timers := s.timers - 1 }
  if s.pingCount ≠ 0 ∧ s.pingSeqNum ≥ s.pingCount then
    { s with
      reports := (s.pingSeqNum, s.pingRecvNum) :: s.reports, pingFlag := false, pingPcb := false }
  else { pingSend s with timers := s.timers + 1 }

/-- `ping_raw_init`. -/
def pingRawInit (s : PingState) : PingState :=
  { s with pingRecvNum := 0, pingSeqNum := 0, pingPcb := true, timers := s.timers + 1 }

/-- `ping_init`. -/
def pingInit (s : PingState) (count : ℤ) : PingState × ℤ :=
  if s.pingFlag then (s, -1)
  else
    (pingRawInit { s with pingFlag := true, pingCount := u16 count, accepted := s.accepted + 1 }, 0)

/-- `responsePING`, with the arguments `arg1` and `arg2` if there are any. -/
def responsePing (s : PingState) (argc : ℕ) (arg1 arg2 : List UInt8) : PingState :=
  if argc ≠ 3 ∨ isValidIp arg1 = false ∨ strIsDigit arg2 = false ∨ arg2.length = 0 then s
  else
    let r := pingInit s (atoi arg2)
    if r.2 = 0 then pingSend r.1 else r.1

/-- What happens to the module. -/
inductive PingEvent where
  | command (argc : ℕ) (arg1 arg2 : List UInt8)
  | timeout
  | reply (totLen id seqno : ℕ)

/-- A timeout comes only if one is pending, a packet reaches `ping_recv` only through the pcb. -/
def pingStep (s : PingState) : PingEvent → Option PingState
  | .command argc arg1 arg2 => some (responsePing s argc arg1 arg2)
  | .timeout => if s.timers = 0 then none else some (pingTimeout s)
  | .reply totLen id seqno => some (if s.pingPcb then pingRecv s totLen id seqno else s)

/-! ### Events -/

/-- The timeouts among the events. -/
def pingTimeouts : List PingEvent → ℕ
  | [] => 0
  | .timeout :: es => pingTimeouts es + 1
  | _ :: es => pingTimeouts es

/-- The replies that come while the request that they carry the number of is the last one sent;
    `k` requests have been sent before the events. -/
def currentReplies (k : ℕ) : List PingEvent → ℕ
  | [] => 0
  | .timeout :: es => currentReplies (k + 1) es
  | .reply totLen id seqno :: es =>
      (if totLen ≥ 20 + 8 ∧ id = pingId ∧ seqno = k % 65536 then 1 else 0) + currentReplies k es
  | .command _ _ _ :: es => currentReplies k es

/-- What is asked of the events `es` after `AT+PING` with the count `n` in state `s`: `n` requests,
    one report with them, and no other command accepted. -/
def PingLaw (s : PingState) (arg1 arg2 : List UInt8) (n : ℕ) (es : List PingEvent) : Prop :=
  ∃ t, run pingStep s (.command 3 arg1 arg2 :: es) = some t ∧ t.requests = s.requests + n ∧
    (∃ received ≤ n, t.reports = (n, received) :: s.reports) ∧ t.accepted = s.accepted + 1

/-! ### A session -/

/-- The session that started in `base` with the count `c` goes on: `k` requests are sent, and `m`
    replies were counted. -/
structure Pinging (base : PingState) (c k m : ℕ) (s : PingState) : Prop where
  pingFlag : s.pingFlag = true
  pingCount : s.pingCount = c
  pingSeqNum : s.pingSeqNum = k % 65536
  pingRecvNum : s.pingRecvNum = m % 65536
  pingPcb : s.pingPcb = true
  timers : s.timers = 1
  requests : s.requests = base.requests + k
  reports : s.reports = base.reports
  accepted : s.accepted = base.accepted + 1

variable {base s : PingState} {c k m n : ℕ}

/-- No command gets through during a session. -/
theorem Pinging.command (h : Pinging base c k m s) (argc : ℕ) (arg1 arg2 : List UInt8) :
    responsePing s argc arg1 arg2 = s := by
  unfold responsePing pingInit
  rw [h.pingFlag]
  split <;> rfl

theorem Pinging.reply (h : Pinging base c k m s) (totLen id seqno : ℕ) :
    Pinging base c k
      (m + if totLen ≥ 20 + 8 ∧ id = pingId ∧ seqno = k % 65536 then 1 else 0)
      (pingRecv s totLen id seqno) := by
  unfold pingRecv
  by_cases hcurrent : totLen ≥ 20 + 8 ∧ id = pingId ∧ seqno = k % 65536
  · rw [if_pos hcurrent, if_pos (by rw [h.pingSeqNum]; exact hcurrent)]
    refine ⟨h.pingFlag, h.pingCount, h.pingSeqNum, ?_, h.pingPcb, h.timers, h.requests, h.reports,
      h.accepted⟩
    show u16 ((s.pingRecvNum : ℤ) + 1) = _
    rw [h.pingRecvNum]
    unfold u16
    omega
  · rw [if_neg hcurrent, if_neg (by rw [h.pingSeqNum]; exact hcurrent)]
    exact h

/-- A timeout before the count is reached sends the next request. -/
theorem Pinging.timeout (h : Pinging base c k m s) (hmore : c = 0 ∨ k % 65536 < c) :
    Pinging base c (k + 1) m (pingTimeout s) := by
  have hnot : ¬ (s.pingCount ≠ 0 ∧ s.pingSeqNum ≥ s.pingCount) := by
    rw [h.pingCount, h.pingSeqNum]
    omega
  unfold pingTimeout
  dsimp only
  rw [if_neg hnot]
  refine ⟨h.pingFlag, h.pingCount, ?_, h.pingRecvNum, h.pingPcb, ?_, ?_, h.reports, h.accepted⟩
  · show u16 ((s.pingSeqNum : ℤ) + 1) = _
    rw [h.pingSeqNum]
    unfold u16
    omega
  · show s.timers - 1 + 1 = 1
    rw [h.timers]
  · show s.requests + 1 = _
    rw [h.requests, Nat.add_assoc]

/-- The timeout at the count ends the session with a report. -/
theorem Pinging.finish (h : Pinging base c k m s) (hc : c ≠ 0) (hk : k % 65536 = c) :
    (pingTimeout s).requests = base.requests + k ∧
      (pingTimeout s).reports = (c, m % 65536) :: base.reports ∧
      (pingTimeout s).accepted = base.accepted + 1 := by
  have hend : s.pingCount ≠ 0 ∧ s.pingSeqNum ≥ s.pingCount := by
    rw [h.pingCount, h.pingSeqNum]
    omega
  unfold pingTimeout
  dsimp only
  rw [if_pos hend]
  refine ⟨h.requests, ?_, h.accepted⟩
  show (s.pingSeqNum, s.pingRecvNum) :: s.reports = _
  rw [h.pingSeqNum, h.pingRecvNum, h.reports, hk]

/-- Events that do not reach the count keep the session going. -/
theorem Pinging.run (es : List PingEvent) : ∀ {k m : ℕ} {s : PingState}, Pinging base c k m s →
    (c = 0 ∨ c < 65536 ∧ k + pingTimeouts es ≤ c) →
    ∃ t, SerialNet.run pingStep s es = some t ∧
      Pinging base c (k + pingTimeouts es) (m + currentReplies k es) t := by
  induction es with
  | nil => exact fun h _ => ⟨_, rfl, h⟩
  | cons e es ih =>
    intro k m s h hcount
    rw [run_cons]
    cases e with
    | command argc arg1 arg2 =>
      rw [pingStep, h.command, Option.bind_some]
      exact ih h hcount
    | timeout =>
      rw [pingTimeouts] at hcount
      rw [pingStep, if_neg (by rw [h.timers]; decide), Option.bind_some]
      obtain ⟨t, hrun, ht⟩ := ih (h.timeout (by omega)) (by omega)
      refine ⟨t, hrun, ?_⟩
      rw [pingTimeouts, currentReplies, show k + (pingTimeouts es + 1) = k + 1 + pingTimeouts es by
        omega]
      exact ht
    | reply totLen id seqno =>
      rw [pingStep, if_pos h.pingPcb, Option.bind_some]
      obtain ⟨t, hrun, ht⟩ := ih (h.reply totLen id seqno) hcount
      refine ⟨t, hrun, ?_⟩
      rw [currentReplies, ← Nat.add_assoc]
      exact ht

/-! ### Between sessions -/

/-- A timeout is pending exactly during a session. -/
structure PingInv (s : PingState) : Prop where
  timers : s.timers = if s.pingFlag then 1 else 0

theorem pingInv_step {s' : PingState} {e : PingEvent} (h : PingInv s)
    (hstep : pingStep s e = some s') : PingInv s' := by
  cases e with
  | command argc arg1 arg2 =>
    obtain rfl : responsePing s argc arg1 arg2 = s' := Option.some.inj hstep
    unfold responsePing pingInit
    split
    · exact h
    · cases hflag : s.pingFlag with
      | true => exact h
      | false =>
        constructor
        show s.timers + 1 = 1
        rw [h.timers, hflag]
        rfl
  | timeout =>
    rw [pingStep] at hstep
    split at hstep
    · cases hstep
    · rename_i hpending
      obtain rfl := Option.some.inj hstep
      have hone : s.timers = 1 ∧ s.pingFlag = true := by
        have := h.timers
        split at this
        · exact ⟨this, by assumption⟩
        · exact absurd this hpending
      unfold pingTimeout
      dsimp only
      constructor
      split
      · show s.timers - 1 = 0
        rw [hone.1]
      · show s.timers - 1 + 1 = if s.pingFlag then 1 else 0
        rw [hone.1, hone.2]
        rfl
  | reply totLen id seqno =>
    obtain rfl := Option.some.inj hstep
    unfold pingRecv
    split
    · split
      · exact ⟨h.timers⟩
      · exact h
    · exact h

/-- An accepted command starts a session. -/
theorem pinging_start {ip : List UInt8} (h : PingInv s) (hidle : s.pingFlag = false)
    (hip : isValidIp ip = true) (count : DecimalArg) :
    Pinging s (count.value % 65536) 1 0 (responsePing s 3 ip count.text) := by
  have htimers : s.timers = 0 := by
    rw [h.timers, hidle]
    rfl
  unfold responsePing
  rw [if_neg (by simp [hip, count.digits, count.length_ne_zero]), count.atoi_text]
  unfold pingInit
  rw [hidle]
  refine ⟨rfl, ?_, rfl, rfl, rfl, ?_, rfl, rfl, rfl⟩
  · exact u16_natCast count.value
  · show s.timers + 1 = 1
    rw [htimers]

/-- Reports are only added. -/
theorem reports_suffix {s' : PingState} {e : PingEvent} (hstep : pingStep s e = some s') :
    s.reports <:+ s'.reports := by
  cases e with
  | command argc arg1 arg2 =>
    obtain rfl := Option.some.inj hstep
    unfold responsePing pingInit
    split
    · exact List.suffix_refl _
    · cases s.pingFlag <;> exact List.suffix_refl _
  | timeout =>
    rw [pingStep] at hstep
    split at hstep
    · cases hstep
    · obtain rfl := Option.some.inj hstep
      unfold pingTimeout
      dsimp only
      split
      · exact List.suffix_cons _ _
      · exact List.suffix_refl _
  | reply totLen id seqno =>
    obtain rfl := Option.some.inj hstep
    unfold pingRecv
    split
    · split <;> exact List.suffix_refl _
    · exact List.suffix_refl _

theorem reports_suffix_run (es : List PingEvent) : ∀ {s t : PingState},
    run pingStep s es = some t → s.reports <:+ t.reports := by
  induction es with
  | nil =>
    intro s t hrun
    rw [← Option.some.inj hrun]
  | cons e es ih =>
    intro s t hrun
    rw [run_cons, Option.bind_eq_some_iff] at hrun
    obtain ⟨s', hstep, hrun⟩ := hrun
    exact (reports_suffix hstep).trans (ih hrun)

/-! ### The law -/

/-- The events up to any of their timeouts. -/
theorem pingTimeouts_split (es : List PingEvent) : ∀ {j : ℕ}, j < pingTimeouts es →
    ∃ before after, es = before ++ .timeout :: after ∧ pingTimeouts before = j := by
  induction es with
  | nil => exact fun hj => absurd hj (Nat.not_lt_zero _)
  | cons e es ih =>
    intro j hj
    cases e with
    | timeout =>
      cases j with
      | zero => exact ⟨[], es, rfl, rfl⟩
      | succ j =>
        rw [pingTimeouts] at hj
        obtain ⟨before, after, rfl, hbefore⟩ := ih (Nat.lt_of_succ_lt_succ hj)
        exact ⟨.timeout :: before, after, rfl, congrArg (· + 1) hbefore⟩
    | command argc arg1 arg2 =>
      obtain ⟨before, after, rfl, hbefore⟩ := ih hj
      exact ⟨.command argc arg1 arg2 :: before, after, rfl, hbefore⟩
    | reply totLen id seqno =>
      obtain ⟨before, after, rfl, hbefore⟩ := ih hj
      exact ⟨.reply totLen id seqno :: before, after, rfl, hbefore⟩

/-- The run of a session up to the timeout that ends it. -/
theorem Pinging.run_finish {before : List PingEvent} (h : Pinging base c 1 0 s) (hc : c < 65536)
    (hlast : pingTimeouts before + 1 = c) :
    ∃ t, SerialNet.run pingStep s (before ++ [.timeout]) = some t ∧ t.requests = base.requests + c ∧
      t.reports = (c, currentReplies 1 before % 65536) :: base.reports ∧
      t.accepted = base.accepted + 1 := by
  obtain ⟨u, hrun, hu⟩ := h.run before (Or.inr ⟨hc, by omega⟩)
  rw [Nat.add_comm 1, hlast, Nat.zero_add] at hu
  refine ⟨pingTimeout u, ?_, hu.finish (by omega) (Nat.mod_eq_of_lt hc)⟩
  rw [run_append, hrun, Option.bind_some, run_singleton, pingStep,
    if_neg (by rw [hu.timers]; decide)]

/-- A count that does not fit the counter: the session ends early or never. -/
theorem not_pingLaw_of_wide {before : List PingEvent} {arg1 arg2 : List UInt8}
    (h : Pinging s (n % 65536) 1 0 (responsePing s 3 arg1 arg2))
    (hn : pingTimeouts before + 1 = n) (hwide : 65535 < n) :
    ¬ PingLaw s arg1 arg2 n (before ++ [.timeout]) := by
  rintro ⟨t, hrun, -, ⟨received, -, hreports⟩, -⟩
  rw [run_cons, pingStep, Option.bind_some] at hrun
  by_cases hzero : n % 65536 = 0
  · -- `ping_count` is 0: no timeout prints a report
    rw [hzero] at h
    obtain ⟨u, hu, hpinging⟩ := h.run (before ++ [.timeout]) (Or.inl rfl)
    obtain rfl : u = t := Option.some.inj (hu.symm.trans hrun)
    rw [hpinging.reports] at hreports
    exact List.cons_ne_self _ _ hreports.symm
  · -- the report comes after `n % 65536` timeouts, and it stays
    obtain ⟨first, after, rfl, hfirst⟩ :=
      pingTimeouts_split before (show n % 65536 - 1 < pingTimeouts before by omega)
    obtain ⟨u, hu, -, hureports, -⟩ := h.run_finish (Nat.mod_lt _ (by decide))
      (show pingTimeouts first + 1 = n % 65536 by omega)
    rw [show first ++ PingEvent.timeout :: after ++ [.timeout]
      = (first ++ [.timeout]) ++ (after ++ [.timeout]) by simp, run_append, hu,
      Option.bind_some] at hrun
    have hsuffix := reports_suffix_run _ hrun
    rw [hureports, hreports] at hsuffix
    have hsame := hsuffix.eq_of_length rfl
    have hcount : n % 65536 = n := congrArg Prod.fst (List.cons.inj hsame).1
    omega

/-- **A ping session** keeps its law exactly if the count fits the counter and no more replies are
    counted than requests are sent. -/
theorem ping_law_iff (past : List PingEvent) (hreach : run pingStep .boot past = some s)
    (hidle : s.pingFlag = false) {ip : List UInt8} (hip : isValidIp ip = true)
    (count : DecimalArg) (before : List PingEvent) (hn : pingTimeouts before + 1 = count.value) :
    PingLaw s ip count.text count.value (before ++ [.timeout]) ↔
      count.value ≤ 65535 ∧ currentReplies 1 before % 65536 ≤ count.value := by
  have hstep : ∀ s e s', PingInv s → True → pingStep s e = some s' → PingInv s' :=
    fun _ _ _ hs _ hstep => pingInv_step hs hstep
  have hinv : PingInv s :=
    run_invariant hstep past .boot s ⟨rfl⟩ (along_of_forall (fun _ _ _ => trivial) _) hreach
  have hstart := pinging_start hinv hidle hip count
  by_cases hfits : count.value ≤ 65535
  · rw [and_iff_right hfits]
    rw [Nat.mod_eq_of_lt (show count.value < 65536 by omega)] at hstart
    obtain ⟨t, hrun, hrequests, hreports, haccepted⟩ :=
      hstart.run_finish (show count.value < 65536 by omega) hn
    have hfull : run pingStep s (.command 3 ip count.text :: (before ++ [.timeout])) = some t := by
      rw [run_cons, pingStep, Option.bind_some]
      exact hrun
    constructor
    · rintro ⟨u, hu, -, ⟨received, hle, hureports⟩, -⟩
      obtain rfl : t = u := Option.some.inj (hfull.symm.trans hu)
      rw [hreports] at hureports
      have hreceived : currentReplies 1 before % 65536 = received :=
        congrArg Prod.snd (List.cons.inj hureports).1
      rwa [hreceived]
    · exact fun hle => ⟨t, hfull, hrequests, ⟨_, hle, hreports⟩, haccepted⟩
  · exact iff_of_false (not_pingLaw_of_wide hstart hn (by omega)) fun h => hfits h.1

/-- Two requests, one answered, one not. -/
theorem ping_law_iff_two :
    PingLaw .boot (ascii "10.0.0.1") (ascii "2") 2 [.reply 60 pingId 1, .timeout, .timeout] :=
  (ping_law_iff [] rfl rfl (by decide +kernel) ⟨ascii "2", by decide, by decide, by decide⟩
    [.reply 60 pingId 1, .timeout] rfl).mpr (by decide)

/-- The only request is answered twice; and `AT+PING=10.0.0.1,65537` sends one request. -/
theorem ping_reply_twice :
    ¬ PingLaw .boot (ascii "10.0.0.1") (ascii "1") 1
        [.reply 60 pingId 1, .reply 60 pingId 1, .timeout] ∧
      (run pingStep .boot [.command 3 (ascii "10.0.0.1") (ascii "65537"), .timeout]).map
        PingState.reports = some [(1, 0)] := by
  refine ⟨?_, by decide +kernel⟩
  rintro ⟨t, hrun, -, ⟨received, hle, hreports⟩, -⟩
  have hend : (run pingStep .boot [.command 3 (ascii "10.0.0.1") (ascii "1"),
      .reply 60 pingId 1, .reply 60 pingId 1, .timeout]).map PingState.reports = some [(1, 2)] := by
    decide +kernel
  rw [hrun, Option.map_some, hreports, Option.some.injEq] at hend
  have hreceived : received = 2 := congrArg Prod.snd (List.cons.inj hend).1
  omega

end SerialNet
