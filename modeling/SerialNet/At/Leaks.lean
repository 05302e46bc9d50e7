import SerialNet.At.Broadcast

namespace SerialNet

open Prog

/-!
# What the response functions leave behind

A call leaks when it returns with a block of the heap that it took and did not free, or with an
open socket that no status field with the value 1 stands for.  There are two ways to do so
(`CallLeaks`): `responseWSCANAP` takes the scan table before it looks at its arguments and keeps
it when they are wrong or the scan does not start, and `responseBCTRXSTART` keeps a socket that
it cannot bind.
-/

variable {s : CallState} {argc : ℕ} {env : AtEnv}

/-! ### Leaks -/

/-- The transmit socket is in its field with the status 1. -/
def TxRecorded (s : CallState) (fd : ℕ) : Prop :=
  s.broadcast.txStatus = 1 ∧ s.broadcast.txSockfd = fd

/-- The receive socket is in its field with the status 1. -/
def RxRecorded (s : CallState) (fd : ℕ) : Prop :=
  s.broadcast.rxStatus = 1 ∧ s.broadcast.rxSockfd = fd

/-- The sockets that are open in `s'` were open in `s` or are recorded. -/
structure NoSocketLeak (s s' : CallState) : Prop where
  tx : ∀ fd ∈ s'.txOpen, fd ∈ s.txOpen ∨ TxRecorded s' fd
  rx : ∀ fd ∈ s'.rxOpen, fd ∈ s.rxOpen ∨ RxRecorded s' fd

/-- Between `s` and `s'` all memory that was taken has been freed, and each new socket has been
    closed or is recorded. -/
structure NoLeak (s s' : CallState) : Prop extends NoSocketLeak s s' where
  blocks : s'.blocks = s.blocks

/-- The scan table is taken and not freed. -/
def ScanLeaks (argc : ℕ) (env : AtEnv) : Prop :=
  env.malloc ≠ none ∧
    (¬ (argc = 2 ∧ strIsDigit (env.argv 1) = true ∧ (env.argv 1).length ≠ 0) ∨ env.scanStart ≠ 0)

/-- The socket of the receiver is opened and cannot be bound. -/
def BindLeaks (s : CallState) (argc : ℕ) (env : AtEnv) : Prop :=
  Starts s argc env ∧ env.socket ≠ none ∧ env.bind = -1

/-- The calls that leak. -/
def CallLeaks (s : CallState) (responseFunction : AtHandler) (argc : ℕ) (env : AtEnv) : Prop :=
  (responseFunction = .wscanap ∧ ScanLeaks argc env) ∨
    (responseFunction = .bctrxstart ∧ BindLeaks s argc env)

/-! ### The scan -/

/-- The scan table stays taken when the arguments are wrong or the scan does not start. -/
theorem wscanap_blocks (env : AtEnv) (argc : ℕ) (s : CallState) {p : ℕ}
    (hmalloc : env.malloc = some p) :
    (callHandler env .wscanap argc s).blocks =
      if argc = 2 ∧ strIsDigit (env.argv 1) = true ∧ (env.argv 1).length ≠ 0 ∧ env.scanStart = 0
        then s.blocks else p :: s.blocks := by
  unfold callHandler AtCmd.program AtCmd.responseWSCANAP
  -- The return for a filter above the range of `INT8` is not reached.
  have hfilter := i8_le (u8 (atoi (env.argv 1)))
  by_cases hargc : argc = 2
  · by_cases hdigits : strIsDigit (env.argv 1) = true
    · by_cases hempty : env.argv 1 = []
      · simp [hargc, hempty, hmalloc, strIsDigit]
      · by_cases hwifi : s.settings.wifiStarted = true
        · by_cases hscan : env.scanStart = 0
          · simp [hargc, hdigits, hempty, hmalloc, hfilter, hwifi, hscan, atStep]
          · simp [hargc, hdigits, hempty, hmalloc, hfilter, hwifi, hscan]
        · by_cases hscan : env.scanStart = 0
          · simp [hargc, hdigits, hempty, hmalloc, hfilter, hwifi, hscan, atStep]
          · simp [hargc, hdigits, hempty, hmalloc, hfilter, hwifi, hscan]
    · simp [hargc, hdigits, hmalloc]
  · simp [hargc, hmalloc]

/-- The heap after a call. -/
theorem blocks_iff (env : AtEnv) (responseFunction : AtHandler) (argc : ℕ) (s : CallState) :
    (callHandler env responseFunction argc s).blocks = s.blocks ↔
      ¬ (responseFunction = .wscanap ∧ ScanLeaks argc env) := by
  by_cases hscan : responseFunction = .wscanap
  · subst hscan
    cases hmalloc : env.malloc with
    | none =>
      -- Nothing was taken.
      have hblocks : (callHandler env .wscanap argc s).blocks = s.blocks := by
        unfold callHandler AtCmd.program AtCmd.responseWSCANAP
        simp [hmalloc]
      exact iff_of_true hblocks fun hleak => hleak.2.1 hmalloc
    | some p =>
      rw [wscanap_blocks env argc s hmalloc]
      split
      · rename_i hok
        apply iff_of_true rfl
        rintro ⟨-, -, hargs | hstart⟩
        · exact hargs ⟨hok.1, hok.2.1, hok.2.2.1⟩
        · exact hstart hok.2.2.2
      · rename_i hbad
        refine iff_of_false (List.cons_ne_self p s.blocks) fun hno => hno ⟨rfl, ?_, ?_⟩
        · rw [hmalloc]
          exact Option.some_ne_none p
        · rw [← not_and_or]
          exact fun hok => hbad ⟨hok.1.1, hok.1.2.1, hok.1.2.2, hok.2⟩
  · exact iff_of_true (callHandler_blocks hscan env argc s) fun hleak => hscan hleak.1

/-! ### The sockets -/

/-- A call that opens no socket leaks none. -/
theorem noSocketLeak_of_subset {s s' : CallState} (htx : s'.txOpen ⊆ s.txOpen)
    (hrx : s'.rxOpen ⊆ s.rxOpen) : NoSocketLeak s s' :=
  ⟨fun _ h => .inl (htx h), fun _ h => .inl (hrx h)⟩

/-- A call that opens and closes nothing leaves nothing behind. -/
theorem noSocketLeak_of_eq {s s' : CallState} (htx : s'.txOpen = s.txOpen)
    (hrx : s'.rxOpen = s.rxOpen) : NoSocketLeak s s' :=
  noSocketLeak_of_subset (htx ▸ List.Subset.refl _) (hrx ▸ List.Subset.refl _)

/-- `AT+BCTTXSTART` closes its socket when it cannot be set up. -/
theorem noSocketLeak_txStart (env : AtEnv) (argc : ℕ) (s : CallState) :
    NoSocketLeak s (callHandler env .bcttxstart argc s) := by
  by_cases h : Starts s argc env
  · cases hsocket : env.socket with
    | none =>
      obtain ⟨r, hcall⟩ := txStart_none h hsocket
      rw [hcall]
      exact noSocketLeak_of_eq rfl rfl
    | some fd =>
      by_cases hopt : env.setsockopt = -1
      · obtain ⟨r, hcall⟩ := txStart_setsockopt h hsocket hopt
        rw [hcall]
        refine noSocketLeak_of_subset ?_ (List.filter_subset_self _)
        intro n hn
        obtain ⟨hmem, hne⟩ := List.mem_filter.mp hn
        -- The new descriptor is the one that is filtered out.
        apply (List.mem_cons.mp hmem).resolve_left
        rintro rfl
        simp at hne
      · obtain ⟨r, hcall⟩ := txStart_done h hsocket hopt
        rw [hcall]
        refine ⟨fun n hn => ?_, fun n hn => .inl hn⟩
        rcases List.mem_cons.mp hn with rfl | hn
        · exact .inr ⟨rfl, rfl⟩
        · exact .inl hn
  · obtain ⟨r, hcall⟩ := txStart_refused h
    rw [hcall]
    exact noSocketLeak_of_eq rfl rfl

/-- A receiver that cannot be bound is a leak, and the only one. -/
theorem noSocketLeak_rxStart (hfresh : ∀ fd ∈ env.socket, s.Fresh fd) :
    NoSocketLeak s (callHandler env .bctrxstart argc s) ↔ ¬ BindLeaks s argc env := by
  by_cases h : Starts s argc env
  · cases hsocket : env.socket with
    | none =>
      obtain ⟨r, hcall⟩ := rxStart_none h hsocket
      rw [hcall]
      refine iff_of_true ?_ fun hleak => hleak.2.1 hsocket
      exact noSocketLeak_of_eq rfl rfl
    | some fd =>
      by_cases hbind : env.bind = -1
      · obtain ⟨r, hcall⟩ := rxStart_unbound h hsocket hbind
        rw [hcall]
        refine iff_of_false ?_ fun hno => hno ⟨h, hsocket ▸ Option.some_ne_none fd, hbind⟩
        intro hleak
        rcases hleak.rx fd List.mem_cons_self with hmem | hrec
        · apply hfresh fd hsocket
          exact List.mem_append_left _ (List.mem_append_right _ hmem)
        · exact absurd (h.rx.symm.trans hrec.1) (by decide)
      · obtain ⟨r, hcall⟩ := rxStart_done h hsocket hbind
        rw [hcall]
        refine iff_of_true ⟨fun n hn => .inl hn, fun n hn => ?_⟩ fun hleak => hbind hleak.2.2
        rcases List.mem_cons.mp hn with rfl | hn
        · exact .inr ⟨rfl, rfl⟩
        · exact .inl hn
  · obtain ⟨r, hcall⟩ := rxStart_refused h
    rw [hcall]
    refine iff_of_true ?_ fun hleak => h hleak.1
    exact noSocketLeak_of_eq rfl rfl

/-- The sockets after a call. -/
theorem sockets_iff (responseFunction : AtHandler) (hfresh : ∀ fd ∈ env.socket, s.Fresh fd) :
    NoSocketLeak s (callHandler env responseFunction argc s) ↔
      ¬ (responseFunction = .bctrxstart ∧ BindLeaks s argc env) := by
  have hno : responseFunction ≠ .bctrxstart →
      NoSocketLeak s (callHandler env responseFunction argc s) →
      (NoSocketLeak s (callHandler env responseFunction argc s) ↔
        ¬ (responseFunction = .bctrxstart ∧ BindLeaks s argc env)) :=
    fun hne hleak => iff_of_true hleak fun h => hne h.1
  by_cases hbct : responseFunction ∈ bctHandlers
  · simp only [bctHandlers, List.mem_cons, List.not_mem_nil, or_false] at hbct
    rcases hbct with rfl | rfl | rfl | rfl | rfl
    · exact hno (by decide) (noSocketLeak_txStart env argc s)
    · apply hno (by decide)
      rw [txStop_spec]
      split
      · split
        · exact noSocketLeak_of_subset (List.filter_subset_self _) (List.filter_subset_self _)
        · exact noSocketLeak_of_eq rfl rfl
      · exact noSocketLeak_of_eq rfl rfl
    · apply hno (by decide)
      by_cases h : Sends s argc env
      · obtain ⟨r, n, hcall⟩ := txData_sends h
        rw [hcall]
        exact noSocketLeak_of_eq rfl rfl
      · obtain ⟨r, n, hcall⟩ := txData_refused h
        rw [hcall]
        exact noSocketLeak_of_eq rfl rfl
    · rw [noSocketLeak_rxStart hfresh]
      exact not_congr (and_iff_right rfl).symm
    · apply hno (by decide)
      rw [rxStop_spec]
      split
      · split
        · exact noSocketLeak_of_subset (List.filter_subset_self _) (List.filter_subset_self _)
        · exact noSocketLeak_of_eq rfl rfl
      · exact noSocketLeak_of_eq rfl rfl
  · have hsame := callHandler_sameSockets hbct env argc s
    refine hno (fun h => hbct (h ▸ by decide)) ?_
    exact noSocketLeak_of_eq hsame.txOpen hsame.rxOpen

/-- **One call** leaks nothing exactly if it is none of the two calls that do. -/
theorem noLeak_iff (responseFunction : AtHandler) (hfresh : ∀ fd ∈ env.socket, s.Fresh fd) :
    NoLeak s (callHandler env responseFunction argc s) ↔
      ¬ CallLeaks s responseFunction argc env := by
  unfold CallLeaks
  rw [not_or, ← blocks_iff env responseFunction argc s, ← sockets_iff responseFunction hfresh]
  exact ⟨fun h => ⟨h.blocks, h.toNoSocketLeak⟩, fun h => ⟨h.2, h.1⟩⟩

/-! ### Runs -/

/-- Every open socket is recorded. -/
structure AllRecorded (s : CallState) : Prop where
  tx : ∀ fd ∈ s.txOpen, TxRecorded s fd
  rx : ∀ fd ∈ s.rxOpen, RxRecorded s fd

/-- A start command finds no open socket when all are recorded. -/
theorem AllRecorded.nothing_open (h : AllRecorded s) (hstarts : Starts s argc env) :
    s.txOpen = [] ∧ s.rxOpen = [] := by
  constructor
  · apply List.eq_nil_iff_forall_not_mem.mpr
    intro fd hfd
    exact absurd (hstarts.tx.symm.trans (h.tx fd hfd).1) (by decide)
  · apply List.eq_nil_iff_forall_not_mem.mpr
    intro fd hfd
    exact absurd (hstarts.rx.symm.trans (h.rx fd hfd).1) (by decide)

/-- Without open sockets all are recorded. -/
theorem allRecorded_of_nil (htx : s.txOpen = []) (hrx : s.rxOpen = []) : AllRecorded s :=
  ⟨fun _ hfd => absurd (htx ▸ hfd) List.not_mem_nil,
    fun _ hfd => absurd (hrx ▸ hfd) List.not_mem_nil⟩

/-- `AT+BCTTXSTART` records the socket that it keeps. -/
theorem allRecorded_txStart (h : AllRecorded s) (env : AtEnv) (argc : ℕ) :
    AllRecorded (callHandler env .bcttxstart argc s) := by
  by_cases hstarts : Starts s argc env
  · obtain ⟨htx, hrx⟩ := h.nothing_open hstarts
    cases hsocket : env.socket with
    | none =>
      obtain ⟨r, hcall⟩ := txStart_none hstarts hsocket
      rw [hcall]
      exact allRecorded_of_nil htx hrx
    | some fd =>
      by_cases hopt : env.setsockopt = -1
      · obtain ⟨r, hcall⟩ := txStart_setsockopt hstarts hsocket hopt
        rw [hcall]
        apply allRecorded_of_nil
        · simp [CallState.close, htx]
        · simp [CallState.close, hrx]
      · obtain ⟨r, hcall⟩ := txStart_done hstarts hsocket hopt
        rw [hcall]
        refine ⟨fun n hn => ?_, fun n hn => absurd (hrx ▸ hn) List.not_mem_nil⟩
        rw [htx, List.mem_singleton] at hn
        exact ⟨rfl, by rw [hn]⟩
  · obtain ⟨r, hcall⟩ := txStart_refused hstarts
    rw [hcall]
    exact ⟨h.tx, h.rx⟩

/-- `AT+BCTRXSTART` records its socket, unless `bind` fails. -/
theorem allRecorded_rxStart (h : AllRecorded s) (hok : ¬ BindLeaks s argc env) :
    AllRecorded (callHandler env .bctrxstart argc s) := by
  by_cases hstarts : Starts s argc env
  · obtain ⟨htx, hrx⟩ := h.nothing_open hstarts
    cases hsocket : env.socket with
    | none =>
      obtain ⟨r, hcall⟩ := rxStart_none hstarts hsocket
      rw [hcall]
      exact allRecorded_of_nil htx hrx
    | some fd =>
      have hbind : env.bind ≠ -1 := fun hbind =>
        hok ⟨hstarts, hsocket ▸ Option.some_ne_none fd, hbind⟩
      obtain ⟨r, hcall⟩ := rxStart_done hstarts hsocket hbind
      rw [hcall]
      refine ⟨fun n hn => absurd (htx ▸ hn) List.not_mem_nil, fun n hn => ?_⟩
      rw [hrx, List.mem_singleton] at hn
      exact ⟨rfl, by rw [hn]⟩
  · obtain ⟨r, hcall⟩ := rxStart_refused hstarts
    rw [hcall]
    exact ⟨h.tx, h.rx⟩

/-- A stop closes the recorded socket of its direction, and there is no other one. -/
theorem allRecorded_txStop (h : AllRecorded s) (env : AtEnv) (argc : ℕ) :
    AllRecorded (callHandler env .bcttxstop argc s) := by
  rw [txStop_spec]
  split
  · split
    · refine ⟨fun n hn => ?_, fun n hn => h.rx n (List.mem_of_mem_filter hn)⟩
      obtain ⟨hmem, hne⟩ := List.mem_filter.mp hn
      exact absurd (h.tx n hmem).2.symm (by simpa using hne)
    · rename_i hfd
      refine ⟨fun n hn => absurd ?_ hfd, h.rx⟩
      rw [(h.tx n hn).2]
      exact Int.natCast_nonneg n
  · exact ⟨h.tx, h.rx⟩

/-- `AT+BCTRXSTOP` opens nothing. -/
theorem allRecorded_rxStop (h : AllRecorded s) (env : AtEnv) (argc : ℕ) :
    AllRecorded (callHandler env .bctrxstop argc s) := by
  rw [rxStop_spec]
  split
  · split
    · refine ⟨fun n hn => h.tx n (List.mem_of_mem_filter hn), fun n hn => ?_⟩
      obtain ⟨hmem, hne⟩ := List.mem_filter.mp hn
      exact absurd (h.rx n hmem).2.symm (by simpa using hne)
    · rename_i hfd
      refine ⟨h.tx, fun n hn => absurd ?_ hfd⟩
      rw [(h.rx n hn).2]
      exact Int.natCast_nonneg n
  · exact ⟨h.tx, h.rx⟩

/-- `AT+BCTTXDATA` opens nothing. -/
theorem allRecorded_txData (h : AllRecorded s) (env : AtEnv) (argc : ℕ) :
    AllRecorded (callHandler env .bcttxdata argc s) := by
  by_cases hsends : Sends s argc env
  · obtain ⟨r, n, hcall⟩ := txData_sends hsends
    rw [hcall]
    exact ⟨h.tx, h.rx⟩
  · obtain ⟨r, n, hcall⟩ := txData_refused hsends
    rw [hcall]
    exact ⟨h.tx, h.rx⟩

/-- **One call** that leaks nothing keeps every open socket recorded. -/
theorem allRecorded_call (h : AllRecorded s) {responseFunction : AtHandler}
    (hok : ¬ CallLeaks s responseFunction argc env) :
    AllRecorded (callHandler env responseFunction argc s) := by
  by_cases hbct : responseFunction ∈ bctHandlers
  · simp only [bctHandlers, List.mem_cons, List.not_mem_nil, or_false] at hbct
    rcases hbct with rfl | rfl | rfl | rfl | rfl
    · exact allRecorded_txStart h env argc
    · exact allRecorded_txStop h env argc
    · exact allRecorded_txData h env argc
    · exact allRecorded_rxStart h fun hleak => hok (.inr ⟨rfl, hleak⟩)
    · exact allRecorded_rxStop h env argc
  · have hsame := callHandler_sameSockets hbct env argc s
    constructor
    · intro fd hfd
      rw [TxRecorded, hsame.broadcast]
      exact h.tx fd (hsame.txOpen ▸ hfd)
    · intro fd hfd
      rw [RxRecorded, hsame.broadcast]
      exact h.rx fd (hsame.rxOpen ▸ hfd)

/-- The events that leak nothing. -/
def LeakFree (s : CallState) : CallEvent → Prop
  | .call responseFunction argc env => ¬ CallLeaks s responseFunction argc env
  | _ => True

/-- **One event.** -/
theorem leakFree_step {s s' : CallState} {e : CallEvent} {blocks : List ℕ}
    (h : s.blocks = blocks ∧ AllRecorded s) (hok : LeakFree s e) (hstep : callStep s e = some s') :
    s'.blocks = blocks ∧ AllRecorded s' := by
  unfold callStep at hstep
  split at hstep
  case isTrue => cases hstep
  cases e with
  | call responseFunction argc env =>
    dsimp only at hstep
    split at hstep
    · obtain rfl := Option.some.inj hstep
      have hblocks := (blocks_iff env responseFunction argc s).mpr fun hscan => hok (.inl hscan)
      exact ⟨hblocks.trans h.1, allRecorded_call h.2 hok⟩
    · cases hstep
  | otherOpens fd =>
    dsimp only at hstep
    split at hstep
    · obtain rfl := Option.some.inj hstep
      exact ⟨h.1, h.2.tx, h.2.rx⟩
    · cases hstep
  | otherCloses fd =>
    obtain rfl := Option.some.inj hstep
    exact ⟨h.1, h.2.tx, h.2.rx⟩
  | settings settings =>
    obtain rfl := Option.some.inj hstep
    exact ⟨h.1, h.2.tx, h.2.rx⟩

/-- **Response functions leak nothing**: in every state, for every command and outcome a call
    leaks exactly if it is one of the two of `CallLeaks`; and any number of calls that are not
    leaves the heap as it was and no socket unrecorded. -/
theorem no_leak_iff (s : CallState) :
    (∀ (responseFunction : AtHandler) (argc : ℕ) (env : AtEnv),
      (∀ fd ∈ env.socket, s.Fresh fd) →
        (NoLeak s (callHandler env responseFunction argc s) ↔
          ¬ CallLeaks s responseFunction argc env)) ∧
    (∀ (t : CallState) (es : List CallEvent), AllRecorded s → Along callStep LeakFree s es →
      run callStep s es = some t → t.blocks = s.blocks ∧ AllRecorded t) := by
  refine ⟨fun responseFunction argc env hfresh => noLeak_iff responseFunction hfresh, ?_⟩
  intro t es hs hes hrun
  exact run_invariant (fun _ _ _ hinv hok hstep => leakFree_step hinv hok hstep) es s t
    ⟨rfl, hs⟩ hes hrun

/-- `AT+BCTRXSTART=5000` whose socket cannot be bound, and `AT+BCTTXSTART=5000` and
    `AT+BCTTXSTOP`, right after boot. -/
theorem no_leak_iff_start :
    ¬ NoLeak (callStart linkedSettings [0]) (callHandler
        { bctEnv (ascii "5000") (some 3) with bind := -1 } .bctrxstart 2
        (callStart linkedSettings [0])) ∧
      ∀ t, run callStep (callStart linkedSettings [0])
          [.call .bcttxstart 2 (bctEnv (ascii "5000") (some 3)),
            .call .bcttxstop 1 (bctEnv [] none)] = some t → t.blocks = [] := by
  constructor
  · intro hno
    have hiff := (no_leak_iff (callStart linkedSettings [0])).1 .bctrxstart 2
    refine (hiff _ ?_).mp hno (.inr ⟨rfl, ?_⟩)
    · intro fd hfd
      obtain rfl := Option.some.inj hfd
      decide
    · have hstarts : Starts (callStart linkedSettings [0]) 2
          { bctEnv (ascii "5000") (some 3) with bind := -1 } :=
        ⟨rfl, by decide +kernel, by decide +kernel, by decide +kernel, rfl, rfl⟩
      exact ⟨hstarts, Option.some_ne_none 3, rfl⟩
  · intro t hrun
    have hleak : ∀ argc env s, LeakFree s (.call .bcttxstart argc env) ∧
        LeakFree s (.call .bcttxstop argc env) := by
      intro argc env s
      constructor <;> rintro (⟨h, -⟩ | ⟨h, -⟩) <;> cases h
    refine ((no_leak_iff (callStart linkedSettings [0])).2 t _ ?_ ?_ hrun).1
    · exact allRecorded_of_nil rfl rfl
    · exact ⟨(hleak _ _ _).1, fun s1 _ => ⟨(hleak _ _ s1).2, fun _ _ => trivial⟩⟩

/-- `AT+WSCANAP` without an argument takes the scan table and keeps it. -/
theorem scan_without_argument_keeps_table :
    ¬ ∀ (s : CallState) (responseFunction : AtHandler) (argc : ℕ) (env : AtEnv),
      (∀ fd ∈ env.socket, s.Fresh fd) → NoLeak s (callHandler env responseFunction argc s) := by
  intro hall
  have hleak := hall (callStart linkedSettings [0]) .wscanap 1
    { bctEnv [] none with malloc := some 64 } fun fd hfd => by cases hfd
  exact absurd hleak.blocks (by decide +kernel)

end SerialNet
