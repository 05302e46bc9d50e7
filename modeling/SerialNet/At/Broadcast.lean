import SerialNet.At.Handlers
import SerialNet.Lib.Run

namespace SerialNet

open Prog

/-!
# The sockets of the broadcast commands

Each of the two directions has a status and a descriptor in `UDP_BROADCAST_STS`.  The start
commands set the status last, the stop commands clear it first, but neither tests the descriptor
against the status, and none takes a closed descriptor out of its field.  So the two fields agree
only in `BctGood` states, and a run stays in them exactly as long as every command is one that
`BctOk` admits (`broadcast_sockets_owned_iff`).

The first part says what a call does, one lemma for each way through a response function.  Other
modules open and close their descriptors between the calls, and a new descriptor is one that
nobody has open.
-/

variable {s : CallState} {argc : ℕ} {env : AtEnv}

/-! ### What a call does -/

/-- The arguments and the state let a start command go on to `socket`. -/
structure Starts (s : CallState) (argc : ℕ) (env : AtEnv) : Prop where
  argc_eq : argc = 2
  digits : strIsDigit (env.argv 1) = true
  port : ¬ (atoi (env.argv 1) > 65535 ∨ atoi (env.argv 1) = 0)
  wifi : s.settings.wifiStarted = true
  tx : s.broadcast.txStatus = 0
  rx : s.broadcast.rxStatus = 0

/-- `responseBCTTXSTART` that does not go on changes nothing. -/
theorem txStart_refused (h : ¬ Starts s argc env) :
    ∃ r, callHandler env .bcttxstart argc s = { s with reads := r } := by
  unfold callHandler AtCmd.program AtCmd.responseBCTTXSTART
  by_cases hargc : argc = 2
  · by_cases hdigits : strIsDigit (env.argv 1) = true
    · by_cases hport : atoi (env.argv 1) > 65535 ∨ atoi (env.argv 1) = 0
      · simp [hargc, hdigits, hport]
      · by_cases hwifi : s.settings.wifiStarted = true
        · by_cases hrx : s.broadcast.rxStatus = 0
          · have htx : s.broadcast.txStatus ≠ 0 := fun htx =>
              h ⟨hargc, hdigits, hport, hwifi, htx, hrx⟩
            simp [hargc, hdigits, hport, hwifi, hrx, htx]
          · simp [hargc, hdigits, hport, hwifi, hrx]
        · simp [hargc, hdigits, hport, hwifi]
    · simp [hargc, hdigits]
  · simp [hargc]

/-- Without a socket `AT+BCTTXSTART` changes nothing. -/
theorem txStart_none (h : Starts s argc env) (hsocket : env.socket = none) :
    ∃ r, callHandler env .bcttxstart argc s = { s with
      reads := r
      broadcast := { s.broadcast with txPort := atoi (env.argv 1), txSockfd := -1 } } := by
  obtain ⟨hargc, hdigits, hport, hwifi, htx, hrx⟩ := h
  unfold callHandler AtCmd.program AtCmd.responseBCTTXSTART
  simp [hargc, hdigits, hport, hwifi, hrx, htx, hsocket, CallState.openSocket]

/-- Without the option the socket is closed again, but its descriptor stays in its field. -/
theorem txStart_setsockopt (h : Starts s argc env) {fd : ℕ} (hsocket : env.socket = some fd)
    (hopt : env.setsockopt = -1) :
    ∃ r, callHandler env .bcttxstart argc s = CallState.close { s with
      reads := r
      broadcast := { s.broadcast with txPort := atoi (env.argv 1), txSockfd := fd }
      txOpen := fd :: s.txOpen } fd := by
  obtain ⟨hargc, hdigits, hport, hwifi, htx, hrx⟩ := h
  refine ⟨[1, 1], ?_⟩
  unfold callHandler AtCmd.program AtCmd.responseBCTTXSTART
  simp [hargc, hdigits, hport, hwifi, hrx, htx, hsocket, CallState.openSocket, hopt, atStep]

/-- With a socket that can be set up it has one, and its status is 1. -/
theorem txStart_done (h : Starts s argc env) {fd : ℕ} (hsocket : env.socket = some fd)
    (hopt : env.setsockopt ≠ -1) :
    ∃ r, callHandler env .bcttxstart argc s = { s with
      reads := r
      broadcast := { s.broadcast with
        txStatus := 1, txPort := atoi (env.argv 1), txSockfd := fd }
      txOpen := fd :: s.txOpen } := by
  obtain ⟨hargc, hdigits, hport, hwifi, htx, hrx⟩ := h
  unfold callHandler AtCmd.program AtCmd.responseBCTTXSTART
  simp [hargc, hdigits, hport, hwifi, hrx, htx, hsocket, CallState.openSocket, hopt, atStep]

/-- `responseBCTRXSTART` that does not go on changes nothing. -/
theorem rxStart_refused (h : ¬ Starts s argc env) :
    ∃ r, callHandler env .bctrxstart argc s = { s with reads := r } := by
  unfold callHandler AtCmd.program AtCmd.responseBCTRXSTART
  by_cases hargc : argc = 2
  · by_cases hdigits : strIsDigit (env.argv 1) = true
    · by_cases hport : atoi (env.argv 1) > 65535 ∨ atoi (env.argv 1) = 0
      · simp [hargc, hdigits, hport]
      · by_cases hwifi : s.settings.wifiStarted = true
        · by_cases htx : s.broadcast.txStatus = 0
          · have hrx : s.broadcast.rxStatus ≠ 0 := fun hrx =>
              h ⟨hargc, hdigits, hport, hwifi, htx, hrx⟩
            simp [hargc, hdigits, hport, hwifi, hrx, htx]
          · simp [hargc, hdigits, hport, hwifi, htx]
        · simp [hargc, hdigits, hport, hwifi]
    · simp [hargc, hdigits]
  · simp [hargc]

/-- Without a socket `AT+BCTRXSTART` changes nothing. -/
theorem rxStart_none (h : Starts s argc env) (hsocket : env.socket = none) :
    ∃ r, callHandler env .bctrxstart argc s = { s with
      reads := r
      broadcast := { s.broadcast with rxPort := atoi (env.argv 1), rxSockfd := -1 } } := by
  obtain ⟨hargc, hdigits, hport, hwifi, htx, hrx⟩ := h
  unfold callHandler AtCmd.program AtCmd.responseBCTRXSTART
  simp [hargc, hdigits, hport, hwifi, hrx, htx, hsocket, CallState.openSocket]

/-- A socket that cannot be bound stays open. -/
theorem rxStart_unbound (h : Starts s argc env) {fd : ℕ} (hsocket : env.socket = some fd)
    (hbind : env.bind = -1) :
    ∃ r, callHandler env .bctrxstart argc s = { s with
      reads := r
      broadcast := { s.broadcast with rxPort := atoi (env.argv 1), rxSockfd := fd }
      rxOpen := fd :: s.rxOpen } := by
  obtain ⟨hargc, hdigits, hport, hwifi, htx, hrx⟩ := h
  unfold callHandler AtCmd.program AtCmd.responseBCTRXSTART
  simp [hargc, hdigits, hport, hwifi, hrx, htx, hsocket, CallState.openSocket, hbind]

/-- With a socket that can be bound it has one, and its status is 1. -/
theorem rxStart_done (h : Starts s argc env) {fd : ℕ} (hsocket : env.socket = some fd)
    (hbind : env.bind ≠ -1) :
    ∃ r, callHandler env .bctrxstart argc s = { s with
      reads := r
      broadcast := { s.broadcast with
        rxStatus := 1, rxPort := atoi (env.argv 1), rxSockfd := fd }
      rxOpen := fd :: s.rxOpen } := by
  obtain ⟨hargc, hdigits, hport, hwifi, htx, hrx⟩ := h
  unfold callHandler AtCmd.program AtCmd.responseBCTRXSTART
  simp [hargc, hdigits, hport, hwifi, hrx, htx, hsocket, CallState.openSocket, hbind, atStep]

/-- `responseBCTTXSTOP` closes what is in the field, whatever the status was. -/
theorem txStop_spec (env : AtEnv) (argc : ℕ) (s : CallState) :
    callHandler env .bcttxstop argc s =
      if argc = 1 then
        if 0 ≤ s.broadcast.txSockfd then
          CallState.close { s with reads := [], broadcast := { s.broadcast with txStatus := 0 } }
            s.broadcast.txSockfd
        else { s with reads := [], broadcast := { s.broadcast with txStatus := 0 } }
      else { s with reads := [] } := by
  unfold callHandler AtCmd.program AtCmd.responseBCTTXSTOP
  by_cases hargc : argc = 1
  · by_cases hfd : 0 ≤ s.broadcast.txSockfd
    · simp [hargc, hfd, atStep]
    · simp [hargc, hfd]
  · simp [hargc]

/-- `AT+BCTRXSTOP` closes any descriptor that is not negative. -/
theorem rxStop_spec (env : AtEnv) (argc : ℕ) (s : CallState) :
    callHandler env .bctrxstop argc s =
      if argc = 1 then
        if 0 ≤ s.broadcast.rxSockfd then
          CallState.close { s with reads := [], broadcast := { s.broadcast with rxStatus := 0 } }
            s.broadcast.rxSockfd
        else { s with reads := [], broadcast := { s.broadcast with rxStatus := 0 } }
      else { s with reads := [] } := by
  unfold callHandler AtCmd.program AtCmd.responseBCTRXSTOP
  by_cases hargc : argc = 1
  · by_cases hfd : 0 ≤ s.broadcast.rxSockfd
    · simp [hargc, hfd, atStep]
    · simp [hargc, hfd]
  · simp [hargc]

/-- The arguments and the state let `responseBCTTXDATA` go on to `sendto`. -/
structure Sends (s : CallState) (argc : ℕ) (env : AtEnv) : Prop where
  argc_eq : argc = 3
  digits : strIsDigit (env.argv 1) = true
  length : ¬ (atoi (env.argv 1) > 256 ∨ atoi (env.argv 1) = 0)
  wifi : s.settings.wifiStarted = true
  socket : 0 ≤ s.broadcast.txSockfd

/-- A refused `AT+BCTTXDATA` sends nothing. -/
theorem txData_refused (h : ¬ Sends s argc env) :
    ∃ r n, callHandler env .bcttxdata argc s =
      { s with reads := r, broadcast := { s.broadcast with txLen := n } } := by
  unfold callHandler AtCmd.program AtCmd.responseBCTTXDATA
  by_cases hargc : argc = 3
  · by_cases hdigits : strIsDigit (env.argv 1) = true
    · by_cases hlength : atoi (env.argv 1) > 256 ∨ atoi (env.argv 1) = 0
      · exact ⟨[1, 1], 0, by simp [hargc, hdigits, hlength, atStep]⟩
      · refine ⟨[1, 1], atoi (env.argv 1), ?_⟩
        by_cases hwifi : s.settings.wifiStarted = true
        · have hfd : s.broadcast.txSockfd < 0 :=
            not_le.mp fun hfd => h ⟨hargc, hdigits, hlength, hwifi, hfd⟩
          simp [hargc, hdigits, hlength, hwifi, hfd]
        · simp [hargc, hdigits, hlength, hwifi]
    · exact ⟨[1], s.broadcast.txLen, by simp [hargc, hdigits]⟩
  · exact ⟨[], s.broadcast.txLen, by simp [hargc]⟩

/-- The data is sent through what is in the field, whatever the status is. -/
theorem txData_sends (h : Sends s argc env) :
    ∃ r n, callHandler env .bcttxdata argc s =
      { s with
        reads := r
        broadcast := { s.broadcast with txLen := n }
        misused := s.misused || ! decide (s.Owns s.broadcast.txSockfd) } := by
  obtain ⟨hargc, hdigits, hlength, hwifi, hfd⟩ := h
  refine ⟨[1, 1, 2], atoi (env.argv 1), ?_⟩
  unfold callHandler AtCmd.program AtCmd.responseBCTTXDATA
  have hfd' : ¬ s.broadcast.txSockfd < 0 := not_lt.mpr hfd
  simp [hargc, hdigits, hlength, hwifi, hfd']
  rfl

/-! ### Which commands touch what -/

/-- The operation touches no socket of the broadcast commands. -/
@[simp] def NoSocket : ∀ β, AtOp β → Prop
  | _, .setBroadcast _ => False
  | _, .socket _ => False
  | _, .sendto _ _ _ => False
  | _, .close _ => False
  | _, _ => True

/-- The operation touches no memory of the heap. -/
@[simp] def NoHeap : ∀ β, AtOp β → Prop
  | _, .malloc _ => False
  | _, .free _ => False
  | _, _ => True

/-- The broadcast commands. -/
def bctHandlers : List AtHandler :=
  [.bcttxstart, .bcttxstop, .bcttxdata, .bctrxstart, .bctrxstop]

/-- The operations without their arguments. -/
inductive OpKind where
  | arg | settings | setSettings | broadcast | setBroadcast | malloc | free | scanStart
  | socket | setsockopt | bind | sendto | close | pingInit | txRateSet | beaconPeriodSet
  | inetAton | chipReset
deriving DecidableEq

/-- Which operation it is, without its arguments. -/
@[simp] def AtOp.kind : ∀ {β : Type}, AtOp β → OpKind
  | _, .arg _ => .arg
  | _, .settings => .settings
  | _, .setSettings _ => .setSettings
  | _, .broadcast => .broadcast
  | _, .setBroadcast _ => .setBroadcast
  | _, .malloc _ => .malloc
  | _, .free _ => .free
  | _, .scanStart _ => .scanStart
  | _, .socket _ => .socket
  | _, .setsockopt _ => .setsockopt
  | _, .bind _ => .bind
  | _, .sendto _ _ _ => .sendto
  | _, .close _ => .close
  | _, .pingInit _ => .pingInit
  | _, .txRateSet _ _ => .txRateSet
  | _, .beaconPeriodSet _ _ => .beaconPeriodSet
  | _, .inetAton _ => .inetAton
  | _, .chipReset => .chipReset

/-- What each command does, apart from printing. -/
def operations : AtHandler → List OpKind
  | .save => [.setSettings]
  | .factory => [.setSettings, .chipReset]
  | .rst => [.chipReset]
  | .baudrate | .uartft | .uartfl | .wqsopt => [.arg, .setSettings]
  | .lslpt | .wphymode | .wscap => [.arg, .settings, .setSettings]
  | .ping => [.arg, .inetAton, .pingInit]
  | .wtxrate => [.arg, .settings, .txRateSet]
  | .wscanap => [.malloc, .arg, .settings, .setSettings, .scanStart, .free]
  | .wsbcn => [.arg, .settings, .beaconPeriodSet]
  | .wsmtconf | .quit => [.settings, .setSettings]
  | .nqscnn | .nlocip => [.arg, .settings, .inetAton, .setSettings]
  | .bcttxstart => [.arg, .settings, .broadcast, .setBroadcast, .socket, .setsockopt, .close]
  | .bctrxstart => [.arg, .settings, .broadcast, .setBroadcast, .socket, .bind]
  | .bcttxstop | .bctrxstop => [.broadcast, .setBroadcast, .close]
  | .bcttxdata => [.arg, .settings, .broadcast, .setBroadcast, .sendto]
  | .help | .ver | .sver | .systime | .mslp | .ipconfig | .mac | .wstop | .wsaconf | .airkiss => []

/-- The command performs such an operation. -/
def Performs (responseFunction : AtHandler) (β : Type) (e : AtOp β) : Prop :=
  e.kind ∈ operations responseFunction

/-- A program performs the operations of its command, whatever its arguments are. -/
theorem program_operations (responseFunction : AtHandler) (argc : ℕ) :
    All (Performs responseFunction) (AtCmd.program responseFunction argc) := by
  cases responseFunction with
  | save => simp [AtCmd.program, AtCmd.responseSAVE, Performs, operations]
  | factory => simp [AtCmd.program, AtCmd.responseFACTORY, Performs, operations]
  | rst => simp [AtCmd.program, AtCmd.responseRST, Performs, operations]
  | baudrate => simp [AtCmd.program, AtCmd.responseBAUDRATE, Performs, operations]
  | uartft => simp [AtCmd.program, AtCmd.responseUARTFT, Performs, operations]
  | uartfl => simp [AtCmd.program, AtCmd.responseUARTFL, Performs, operations]
  | lslpt => simp [AtCmd.program, AtCmd.responseLSLPT, Performs, operations]
  | ping => simp [AtCmd.program, AtCmd.responsePING, Performs, operations]
  | wqsopt => simp [AtCmd.program, AtCmd.responseWQSOPT, Performs, operations]
  | wphymode => simp [AtCmd.program, AtCmd.responseWPHYMODE, Performs, operations]
  | wtxrate =>
    have hset : ∀ r, All (Performs .wtxrate) (AtCmd.setTxRate r) := by
      rintro (_ | r) <;> simp [AtCmd.setTxRate, Performs, operations]
    simp [AtCmd.program, AtCmd.responseWTXRATE, hset, Performs, operations]
  | wscanap =>
    rw [AtCmd.program, AtCmd.responseWSCANAP, all_perform_bind]
    refine ⟨by simp [Performs, operations], ?_⟩
    rintro (_ | p) <;> simp [Performs, operations]
  | wsbcn => simp [AtCmd.program, AtCmd.responseWSBCN, Performs, operations]
  | wscap => simp [AtCmd.program, AtCmd.responseWSCAP, Performs, operations]
  | wsmtconf => simp [AtCmd.program, AtCmd.responseWSMTCONF, Performs, operations]
  | nqscnn =>
    simp [AtCmd.program, AtCmd.responseNQSCNN, AtCmd.responseNMODE, AtCmd.responseNTYPE,
      AtCmd.responseBinary, AtCmd.responseNPORT, AtCmd.responseNRMTIP, Performs, operations]
  | nlocip => simp [AtCmd.program, AtCmd.responseNLOCIP, Performs, operations]
  | quit => simp [AtCmd.program, AtCmd.responseQUIT, Performs, operations]
  | bcttxstart => simp [AtCmd.program, AtCmd.responseBCTTXSTART, Performs, operations]
  | bcttxstop => simp [AtCmd.program, AtCmd.responseBCTTXSTOP, Performs, operations]
  | bcttxdata => simp [AtCmd.program, AtCmd.responseBCTTXDATA, Performs, operations]
  | bctrxstart => simp [AtCmd.program, AtCmd.responseBCTRXSTART, Performs, operations]
  | bctrxstop => simp [AtCmd.program, AtCmd.responseBCTRXSTOP, Performs, operations]
  | _ => exact trivial

/-- Only the broadcast commands touch their sockets. -/
theorem noSocket_program {responseFunction : AtHandler} (h : responseFunction ∉ bctHandlers)
    (argc : ℕ) : All NoSocket (AtCmd.program responseFunction argc) := by
  have hnone : ∀ k ∈ [OpKind.setBroadcast, .socket, .sendto, .close],
      k ∉ operations responseFunction := by
    revert h
    cases responseFunction <;> decide
  apply (program_operations responseFunction argc).mono
  intro β e he
  cases e with
  | setBroadcast f => exact hnone .setBroadcast (by decide) he
  | socket use => exact hnone .socket (by decide) he
  | sendto fd data len => exact hnone .sendto (by decide) he
  | close fd => exact hnone .close (by decide) he
  | _ => exact trivial

/-- Only the scan takes memory. -/
theorem noHeap_program {responseFunction : AtHandler} (h : responseFunction ≠ .wscanap)
    (argc : ℕ) : All NoHeap (AtCmd.program responseFunction argc) := by
  have hnone : ∀ k ∈ [OpKind.malloc, .free], k ∉ operations responseFunction := by
    revert h
    cases responseFunction <;> decide
  apply (program_operations responseFunction argc).mono
  intro β e he
  cases e with
  | malloc size => exact hnone .malloc (by decide) he
  | free p => exact hnone .free (by decide) he
  | _ => exact trivial

/-- The two states have the same sockets and the same broadcast status. -/
structure SameSockets (s s' : CallState) : Prop where
  broadcast : s'.broadcast = s.broadcast
  txOpen : s'.txOpen = s.txOpen
  rxOpen : s'.rxOpen = s.rxOpen
  misused : s'.misused = s.misused

/-- Other commands leave the sockets alone. -/
theorem callHandler_sameSockets {responseFunction : AtHandler}
    (h : responseFunction ∉ bctHandlers) (env : AtEnv) (argc : ℕ) (s : CallState) :
    SameSockets s (callHandler env responseFunction argc s) := by
  have hstep : ∀ β (e : AtOp β) (t : CallState), NoSocket β e → SameSockets s t →
      SameSockets s (atStep env β e t).2 := by
    intro β e t he ht
    cases e with
    | setBroadcast f => exact he.elim
    | socket use => exact he.elim
    | sendto fd data len => exact he.elim
    | close fd => exact he.elim
    | _ => exact ⟨ht.broadcast, ht.txOpen, ht.rxOpen, ht.misused⟩
  exact exec_invariant hstep (noSocket_program h argc) ⟨rfl, rfl, rfl, rfl⟩

/-- Commands other than the scan leave the heap alone. -/
theorem callHandler_blocks {responseFunction : AtHandler} (h : responseFunction ≠ .wscanap)
    (env : AtEnv) (argc : ℕ) (s : CallState) :
    (callHandler env responseFunction argc s).blocks = s.blocks := by
  have hstep : ∀ β (e : AtOp β) (t : CallState), NoHeap β e → t.blocks = s.blocks →
      (atStep env β e t).2.blocks = s.blocks := by
    intro β e t he ht
    cases e with
    | malloc size => exact he.elim
    | free p => exact he.elim
    | socket use => exact (congrArg CallState.blocks (t.openSocket_eq use env.socket)).trans ht
    | _ => exact ht
  exact exec_invariant hstep (noHeap_program h argc) rfl

/-! ### Runs -/

/-- Nobody has the descriptor open. -/
def CallState.Fresh (s : CallState) (fd : ℕ) : Prop := fd ∉ s.txOpen ++ s.rxOpen ++ s.others

instance (s : CallState) (fd : ℕ) : Decidable (s.Fresh fd) :=
  inferInstanceAs (Decidable (fd ∉ s.txOpen ++ s.rxOpen ++ s.others))

/-- What can happen. -/
inductive CallEvent where
  /-- `AtThread` calls a response function. -/
  | call (responseFunction : AtHandler) (argc : ℕ) (env : AtEnv)
  /-- Another module opens a descriptor. -/
  | otherOpens (fd : ℕ)
  /-- Another module closes one of its descriptors. -/
  | otherCloses (fd : ℕ)
  /-- The settings or the link status change. -/
  | settings (settings : Settings)

/-- One event; a new descriptor is a fresh one, and a reset ends the run. -/
def callStep (s : CallState) (e : CallEvent) : Option CallState :=
  if s.resetting then none
  else
    match e with
    | .call responseFunction argc env =>
        if ∀ fd ∈ env.socket, s.Fresh fd then some (callHandler env responseFunction argc s)
        else none
    | .otherOpens fd => if s.Fresh fd then some { s with others := fd :: s.others } else none
    | .otherCloses fd => some { s with others := s.others.filter (· ≠ fd) }
    | .settings settings => some { s with settings := settings }

/-- After boot; `others` are the descriptors that are open already. -/
def callStart (settings : Settings) (others : List ℕ) : CallState :=
  ⟨settings, .zero, [], [], [], [], others, false, false⟩

/-- What the commands are asked to keep. -/
structure SocketsOwned (s : CallState) : Prop where
  not_misused : s.misused = false
  tx_iff : s.broadcast.txStatus = 1 ↔ s.txOpen ≠ []
  rx_iff : s.broadcast.rxStatus = 1 ↔ s.rxOpen ≠ []
  not_both : ¬ (s.broadcast.txStatus = 1 ∧ s.broadcast.rxStatus = 1)

/-- A status, a descriptor and the open sockets of one direction that agree. -/
def Agree (status : ℕ) (fd : ℤ) (opened : List ℕ) : Prop :=
  (status = 1 ∧ ∃ n : ℕ, fd = n ∧ opened = [n]) ∨ (status = 0 ∧ opened = [])

/-- The states that the admitted commands keep. -/
structure BctGood (s : CallState) : Prop where
  not_misused : s.misused = false
  tx : Agree s.broadcast.txStatus s.broadcast.txSockfd s.txOpen
  rx : Agree s.broadcast.rxStatus s.broadcast.rxSockfd s.rxOpen
  not_both : ¬ (s.broadcast.txStatus = 1 ∧ s.broadcast.rxStatus = 1)

/-- The commands that keep the descriptors and the statuses together: a stop in its status or
    without a descriptor, data through an open socket, and a start of the receiver whose socket
    can be bound. -/
def BctOk (s : CallState) : CallEvent → Prop
  | .call .bcttxstop argc _ =>
      argc = 1 → s.broadcast.txStatus = 1 ∨ s.broadcast.txSockfd < 0
  | .call .bctrxstop argc _ =>
      argc = 1 → s.broadcast.rxStatus = 1 ∨ s.broadcast.rxSockfd < 0
  | .call .bcttxdata argc env => Sends s argc env →
      s.broadcast.txStatus = 1 ∨
        (s.broadcast.rxStatus = 1 ∧ s.broadcast.rxSockfd = s.broadcast.txSockfd)
  | .call .bctrxstart argc env =>
      Starts s argc env → env.socket ≠ none → env.bind ≠ -1
  | _ => True

section Agree

variable {status : ℕ} {fd : ℤ} {opened : List ℕ}

/-- Without the status no socket is open. -/
theorem Agree.eq_nil (h : Agree status fd opened) (hstatus : status ≠ 1) : opened = [] := by
  rcases h with ⟨h1, -⟩ | ⟨-, hnil⟩
  · exact absurd h1 hstatus
  · exact hnil

/-- With the status one socket is open, and it is the descriptor's. -/
theorem Agree.eq_one (h : Agree status fd opened) (hstatus : status = 1) :
    ∃ n : ℕ, fd = n ∧ opened = [n] := by
  rcases h with ⟨-, hone⟩ | ⟨h0, -⟩
  · exact hone
  · rw [h0] at hstatus
    exact absurd hstatus (by decide)

/-- A status that is not 1 is 0. -/
theorem Agree.eq_zero (h : Agree status fd opened) (hstatus : status ≠ 1) : status = 0 := by
  rcases h with ⟨h1, -⟩ | ⟨h0, -⟩
  · exact absurd h1 hstatus
  · exact h0

/-- The status says whether a socket is open. -/
theorem Agree.iff_ne_nil (h : Agree status fd opened) : status = 1 ↔ opened ≠ [] := by
  constructor
  · intro hstatus
    obtain ⟨n, -, hopened⟩ := h.eq_one hstatus
    rw [hopened]
    exact List.cons_ne_nil n []
  · intro hne
    by_contra hstatus
    exact hne (h.eq_nil hstatus)

end Agree

/-- What asks for no misuse does not close a foreign descriptor. -/
theorem SocketsOwned.owns_of_close {fd : ℤ} (h : SocketsOwned (s.close fd)) : s.Owns fd := by
  by_contra howns
  have hmisused : (s.misused || ! decide (s.Owns fd)) = false := h.not_misused
  rw [decide_eq_false howns, Bool.not_false, Bool.or_true] at hmisused
  cases hmisused

/-- Closing an own descriptor is no misuse. -/
theorem close_not_misused {fd : ℤ} (h : s.misused = false) (howns : s.Owns fd) :
    (s.close fd).misused = false := by
  show (s.misused || ! decide (s.Owns fd)) = false
  rw [h, decide_eq_true howns]
  rfl

/-- In these states the sockets are as they should be. -/
theorem BctGood.owned (h : BctGood s) : SocketsOwned s :=
  ⟨h.not_misused, h.tx.iff_ne_nil, h.rx.iff_ne_nil, h.not_both⟩

/-- What a good state owns is the descriptor of a direction that has the status 1. -/
theorem BctGood.owns_iff (h : BctGood s) (fd : ℤ) :
    s.Owns fd ↔ (s.broadcast.txStatus = 1 ∧ s.broadcast.txSockfd = fd) ∨
      (s.broadcast.rxStatus = 1 ∧ s.broadcast.rxSockfd = fd) := by
  have hside : ∀ {status : ℕ} {field : ℤ} {opened : List ℕ}, Agree status field opened →
      ((∃ n ∈ opened, (n : ℤ) = fd) ↔ status = 1 ∧ field = fd) := by
    rintro status field opened (⟨h1, n, rfl, rfl⟩ | ⟨h0, rfl⟩)
    · simp [h1]
    · simp [h0]
  rw [← hside h.tx, ← hside h.rx]
  unfold CallState.Owns
  simp only [List.mem_append, or_and_right, exists_or]

/-- The arguments that were read are not part of it. -/
theorem BctGood.reads (h : BctGood s) (r : List ℕ) : BctGood { s with reads := r } :=
  ⟨h.not_misused, h.tx, h.rx, h.not_both⟩

/-! ### The commands -/

/-- A start command finds no open socket. -/
theorem Starts.nothing_open (h : Starts s argc env) (hs : BctGood s) :
    s.txOpen = [] ∧ s.rxOpen = [] :=
  ⟨hs.tx.eq_nil (h.tx ▸ by decide), hs.rx.eq_nil (h.rx ▸ by decide)⟩

/-- `AT+BCTTXSTART` keeps the agreement, whatever fails. -/
theorem bctGood_txStart (hs : BctGood s) : BctGood (callHandler env .bcttxstart argc s) := by
  by_cases h : Starts s argc env
  · obtain ⟨htx, hrx⟩ := h.nothing_open hs
    cases hsocket : env.socket with
    | none =>
      obtain ⟨r, hcall⟩ := txStart_none h hsocket
      rw [hcall]
      exact ⟨hs.not_misused, .inr ⟨h.tx, htx⟩, hs.rx, hs.not_both⟩
    | some fd =>
      by_cases hopt : env.setsockopt = -1
      · obtain ⟨r, hcall⟩ := txStart_setsockopt h hsocket hopt
        rw [hcall]
        refine ⟨?_, .inr ⟨h.tx, ?_⟩, .inr ⟨h.rx, ?_⟩, hs.not_both⟩
        · simp [CallState.close, CallState.Owns, hs.not_misused]
        · simp [CallState.close, htx]
        · simp [CallState.close, hrx]
      · obtain ⟨r, hcall⟩ := txStart_done h hsocket hopt
        rw [hcall]
        refine ⟨hs.not_misused, .inl ⟨rfl, fd, rfl, by rw [htx]⟩, hs.rx, ?_⟩
        rintro ⟨-, h1⟩
        exact absurd (h.rx.symm.trans h1) (by decide)
  · obtain ⟨r, hcall⟩ := txStart_refused h
    rw [hcall]
    exact hs.reads r

/-- `AT+BCTRXSTART` keeps it if the socket can be bound, and breaks it otherwise. -/
theorem bctGood_rxStart (hs : BctGood s)
    (hok : Starts s argc env → env.socket ≠ none → env.bind ≠ -1) :
    BctGood (callHandler env .bctrxstart argc s) := by
  by_cases h : Starts s argc env
  · obtain ⟨htx, hrx⟩ := h.nothing_open hs
    cases hsocket : env.socket with
    | none =>
      obtain ⟨r, hcall⟩ := rxStart_none h hsocket
      rw [hcall]
      exact ⟨hs.not_misused, hs.tx, .inr ⟨h.rx, hrx⟩, hs.not_both⟩
    | some fd =>
      have hbind : env.bind ≠ -1 := hok h (hsocket ▸ Option.some_ne_none fd)
      obtain ⟨r, hcall⟩ := rxStart_done h hsocket hbind
      rw [hcall]
      refine ⟨hs.not_misused, hs.tx, .inl ⟨rfl, fd, rfl, by rw [hrx]⟩, ?_⟩
      rintro ⟨h1, -⟩
      exact absurd (h.tx.symm.trans h1) (by decide)
  · obtain ⟨r, hcall⟩ := rxStart_refused h
    rw [hcall]
    exact hs.reads r

/-- A `bind` that fails leaves a socket open behind the status 0. -/
theorem bctBad_rxStart (h : Starts s argc env) (hsocket : env.socket ≠ none)
    (hbind : env.bind = -1) : ¬ SocketsOwned (callHandler env .bctrxstart argc s) := by
  obtain ⟨fd, hfd⟩ := Option.ne_none_iff_exists'.mp hsocket
  obtain ⟨r, hcall⟩ := rxStart_unbound h hfd hbind
  rw [hcall]
  intro howned
  -- The socket is open, and the status is still 0.
  have h1 : s.broadcast.rxStatus = 1 := howned.rx_iff.mpr (List.cons_ne_nil fd s.rxOpen)
  exact absurd (h.rx.symm.trans h1) (by decide)

/-- `AT+BCTTXSTOP` closes the open socket if the status says that there is one. -/
theorem bctGood_txStop (hs : BctGood s)
    (hok : argc = 1 → s.broadcast.txStatus = 1 ∨ s.broadcast.txSockfd < 0) :
    BctGood (callHandler env .bcttxstop argc s) := by
  rw [txStop_spec]
  split
  · have hnotboth : ¬ (0 = 1 ∧ s.broadcast.rxStatus = 1) := fun h => absurd h.1 (by decide)
    by_cases h1 : s.broadcast.txStatus = 1
    · obtain ⟨n, hfd, hopen⟩ := hs.tx.eq_one h1
      have hrx : s.broadcast.rxStatus ≠ 1 := fun hrx => hs.not_both ⟨h1, hrx⟩
      have howns : s.Owns s.broadcast.txSockfd := (hs.owns_iff _).mpr (.inl ⟨h1, rfl⟩)
      rw [if_pos (hfd ▸ Int.natCast_nonneg n)]
      refine ⟨close_not_misused hs.not_misused howns, .inr ⟨rfl, ?_⟩,
        .inr ⟨hs.rx.eq_zero hrx, ?_⟩, hnotboth⟩
      · simp [CallState.close, hopen, hfd]
      · simp [CallState.close, hs.rx.eq_nil hrx]
    · have hfd : s.broadcast.txSockfd < 0 := (hok ‹_›).resolve_left h1
      rw [if_neg (not_le.mpr hfd)]
      exact ⟨hs.not_misused, .inr ⟨rfl, hs.tx.eq_nil h1⟩, hs.rx, hnotboth⟩
  · exact hs.reads []

/-- With a stale descriptor it closes what is not open, or the socket of the receiver. -/
theorem bctBad_txStop (hs : BctGood s) (hstatus : s.broadcast.txStatus ≠ 1)
    (hfd : 0 ≤ s.broadcast.txSockfd) : ¬ SocketsOwned (callHandler env .bcttxstop 1 s) := by
  rw [txStop_spec, if_pos rfl, if_pos hfd]
  intro howned
  have howns : s.Owns s.broadcast.txSockfd := howned.owns_of_close
  obtain ⟨hrx, heq⟩ := ((hs.owns_iff _).mp howns).resolve_left fun h => hstatus h.1
  obtain ⟨n, hn, hopen⟩ := hs.rx.eq_one hrx
  apply howned.rx_iff.mp hrx
  simp [CallState.close, hopen, ← heq, hn]

/-- A stop in the status 1, or with no descriptor, leaves the sockets in order. -/
theorem bctGood_rxStop (hs : BctGood s)
    (hok : argc = 1 → s.broadcast.rxStatus = 1 ∨ s.broadcast.rxSockfd < 0) :
    BctGood (callHandler env .bctrxstop argc s) := by
  rw [rxStop_spec]
  split
  · have hnotboth : ¬ (s.broadcast.txStatus = 1 ∧ 0 = 1) := fun h => absurd h.2 (by decide)
    by_cases h1 : s.broadcast.rxStatus = 1
    · obtain ⟨n, hfd, hopen⟩ := hs.rx.eq_one h1
      have htx : s.broadcast.txStatus ≠ 1 := fun htx => hs.not_both ⟨htx, h1⟩
      have howns : s.Owns s.broadcast.rxSockfd := (hs.owns_iff _).mpr (.inr ⟨h1, rfl⟩)
      rw [if_pos (hfd ▸ Int.natCast_nonneg n)]
      refine ⟨close_not_misused hs.not_misused howns, .inr ⟨hs.tx.eq_zero htx, ?_⟩,
        .inr ⟨rfl, ?_⟩, hnotboth⟩
      · simp [CallState.close, hs.tx.eq_nil htx]
      · simp [CallState.close, hopen, hfd]
    · have hfd : s.broadcast.rxSockfd < 0 := (hok ‹_›).resolve_left h1
      rw [if_neg (not_le.mpr hfd)]
      exact ⟨hs.not_misused, hs.tx, .inr ⟨rfl, hs.rx.eq_nil h1⟩, hnotboth⟩
  · exact hs.reads []

/-- A stop in the status 0 with a descriptor closes somebody else's. -/
theorem bctBad_rxStop (hs : BctGood s) (hstatus : s.broadcast.rxStatus ≠ 1)
    (hfd : 0 ≤ s.broadcast.rxSockfd) : ¬ SocketsOwned (callHandler env .bctrxstop 1 s) := by
  rw [rxStop_spec, if_pos rfl, if_pos hfd]
  intro howned
  have howns : s.Owns s.broadcast.rxSockfd := howned.owns_of_close
  obtain ⟨htx, heq⟩ := ((hs.owns_iff _).mp howns).resolve_right fun h => hstatus h.1
  obtain ⟨n, hn, hopen⟩ := hs.tx.eq_one htx
  apply howned.tx_iff.mp htx
  simp [CallState.close, hopen, ← heq, hn]

/-- `AT+BCTTXDATA` is right exactly if the descriptor is one of an open socket. -/
theorem bctGood_txData (hs : BctGood s)
    (hok : Sends s argc env → s.broadcast.txStatus = 1 ∨
      (s.broadcast.rxStatus = 1 ∧ s.broadcast.rxSockfd = s.broadcast.txSockfd)) :
    BctGood (callHandler env .bcttxdata argc s) := by
  by_cases h : Sends s argc env
  · have howns : s.Owns s.broadcast.txSockfd :=
      (hs.owns_iff _).mpr ((hok h).imp_left fun h1 => ⟨h1, rfl⟩)
    obtain ⟨r, n, hcall⟩ := txData_sends h
    rw [hcall, decide_eq_true howns]
    exact ⟨by simp [hs.not_misused], hs.tx, hs.rx, hs.not_both⟩
  · obtain ⟨r, n, hcall⟩ := txData_refused h
    rw [hcall]
    exact ⟨hs.not_misused, hs.tx, hs.rx, hs.not_both⟩

/-- Without a sender's socket of its own the command sends through somebody else's. -/
theorem bctBad_txData (hs : BctGood s) (h : Sends s argc env)
    (hbad : ¬ (s.broadcast.txStatus = 1 ∨
      (s.broadcast.rxStatus = 1 ∧ s.broadcast.rxSockfd = s.broadcast.txSockfd))) :
    ¬ SocketsOwned (callHandler env .bcttxdata argc s) := by
  have howns : ¬ s.Owns s.broadcast.txSockfd := fun howns =>
    hbad (((hs.owns_iff _).mp howns).imp_left And.left)
  obtain ⟨r, n, hcall⟩ := txData_sends h
  rw [hcall, decide_eq_false howns]
  intro howned
  exact absurd howned.not_misused (by simp)

/-! ### The condition -/

/-- The other commands keep it. -/
theorem bctGood_same {s s' : CallState} (hs : BctGood s) (h : SameSockets s s') : BctGood s' := by
  constructor
  · rw [h.misused]
    exact hs.not_misused
  · rw [h.broadcast, h.txOpen]
    exact hs.tx
  · rw [h.broadcast, h.rxOpen]
    exact hs.rx
  · rw [h.broadcast]
    exact hs.not_both

/-- **One call**: an admitted one keeps the agreement, and any other one breaks what is asked. -/
theorem bctCall_good_or_bad (hs : BctGood s) (responseFunction : AtHandler) (argc : ℕ)
    (env : AtEnv) :
    (BctOk s (.call responseFunction argc env) ∧
      BctGood (callHandler env responseFunction argc s)) ∨
    (¬ BctOk s (.call responseFunction argc env) ∧
      ¬ SocketsOwned (callHandler env responseFunction argc s)) := by
  by_cases hok : BctOk s (.call responseFunction argc env)
  · refine .inl ⟨hok, ?_⟩
    cases responseFunction with
    | bcttxstart => exact bctGood_txStart hs
    | bcttxstop => exact bctGood_txStop hs hok
    | bcttxdata => exact bctGood_txData hs hok
    | bctrxstart => exact bctGood_rxStart hs hok
    | bctrxstop => exact bctGood_rxStop hs hok
    | _ => exact bctGood_same hs (callHandler_sameSockets (by decide) env argc s)
  · refine .inr ⟨hok, ?_⟩
    cases responseFunction with
    | bcttxstop =>
      simp only [BctOk, Classical.not_imp, not_or, not_lt] at hok
      obtain ⟨rfl, hstatus, hfd⟩ := hok
      exact bctBad_txStop hs hstatus hfd
    | bcttxdata =>
      simp only [BctOk, Classical.not_imp] at hok
      exact bctBad_txData hs hok.1 hok.2
    | bctrxstart =>
      simp only [BctOk, Classical.not_imp, not_not] at hok
      exact bctBad_rxStart hok.1 hok.2.1 hok.2.2
    | bctrxstop =>
      simp only [BctOk, Classical.not_imp, not_or, not_lt] at hok
      obtain ⟨rfl, hstatus, hfd⟩ := hok
      exact bctBad_rxStop hs hstatus hfd
    | _ => exact absurd trivial hok

/-- **One event.** -/
theorem callStep_good_or_bad {s s' : CallState} {e : CallEvent} (hs : BctGood s)
    (hstep : callStep s e = some s') :
    (BctOk s e ∧ BctGood s') ∨ (¬ BctOk s e ∧ ¬ SocketsOwned s') := by
  unfold callStep at hstep
  split at hstep
  case isTrue => cases hstep
  cases e with
  | call responseFunction argc env =>
    dsimp only at hstep
    split at hstep
    · obtain rfl := Option.some.inj hstep
      exact bctCall_good_or_bad hs responseFunction argc env
    · cases hstep
  | otherOpens fd =>
    dsimp only at hstep
    split at hstep
    · obtain rfl := Option.some.inj hstep
      exact .inl ⟨trivial, hs.not_misused, hs.tx, hs.rx, hs.not_both⟩
    · cases hstep
  | otherCloses fd =>
    obtain rfl := Option.some.inj hstep
    exact .inl ⟨trivial, hs.not_misused, hs.tx, hs.rx, hs.not_both⟩
  | settings settings =>
    obtain rfl := Option.some.inj hstep
    exact .inl ⟨trivial, hs.not_misused, hs.tx, hs.rx, hs.not_both⟩

/-- **The broadcast commands use only their own descriptors** and keep the statuses right,
    throughout a run from boot, exactly if every command of the run is an admitted one. -/
theorem broadcast_sockets_owned_iff {settings : Settings} {others : List ℕ} {es : List CallEvent}
    (h : (run callStep (callStart settings others) es).isSome) :
    Always callStep SocketsOwned (callStart settings others) es ↔
      Along callStep BctOk (callStart settings others) es := by
  have hgood : BctGood (callStart settings others) :=
    ⟨rfl, .inr ⟨rfl, rfl⟩, .inr ⟨rfl, rfl⟩, fun h => absurd h.1 Nat.zero_ne_one⟩
  exact always_iff_along (fun _ hs => hs.owned)
    (fun _ _ _ hs hstep => callStep_good_or_bad hs hstep) es _ hgood h

/-- The settings after a first boot, with the link up. -/
def linkedSettings : Settings :=
  { firstBoot (fun _ => 0) .zero .zero [] (true, true) with linkStatus := .linkUp }

/-- A call with one argument; `socket` answers as given, and the other calls succeed. -/
def bctEnv (arg : List UInt8) (socket : Option ℕ) : AtEnv :=
  ⟨fun _ => arg, none, 0, socket, 0, 0, 0, 0, 0, 0, fun _ => 0⟩

/-- `AT+BCTTXSTART=5000`, another module, and `AT+BCTTXSTOP`. -/
theorem broadcast_sockets_owned_iff_start_stop :
    Always callStep SocketsOwned (callStart linkedSettings [0])
      [.call .bcttxstart 2 (bctEnv (ascii "5000") (some 3)), .otherOpens 1,
        .call .bcttxstop 1 (bctEnv [] none)] := by
  refine (broadcast_sockets_owned_iff (by decide +kernel)).mpr ⟨trivial, ?_⟩
  intro s1 h1
  refine ⟨trivial, ?_⟩
  intro s2 h2
  refine ⟨fun _ => .inl ?_, fun _ _ => trivial⟩
  have hrun : (run callStep (callStart linkedSettings [0])
      [.call .bcttxstart 2 (bctEnv (ascii "5000") (some 3)), .otherOpens 1]).map
        (fun s => s.broadcast.txStatus) = some 1 := by decide +kernel
  rw [run_cons, h1, Option.bind_some, run_cons, h2] at hrun
  exact Option.some.inj hrun

/-- `AT+BCTTXSTOP` right after boot closes descriptor 0, which another module has open. -/
theorem stop_closes_foreign_descriptor :
    ¬ ∀ (settings : Settings) (others : List ℕ) (es : List CallEvent),
      (run callStep (callStart settings others) es).isSome →
        Always callStep SocketsOwned (callStart settings others) es := by
  intro hall
  have hrun := hall linkedSettings [0] [.call .bcttxstop 1 (bctEnv [] none)] (by decide +kernel)
  have hmisused := (hrun.2 _ rfl).not_misused
  exact absurd hmisused (by decide +kernel)

end SerialNet
