import Mathlib.Data.List.TakeDrop
import SerialNet.At.ArgvStores
import SerialNet.At.EndToEnd
import SerialNet.At.Handlers
import SerialNet.At.Narrowing

namespace SerialNet

/-!
# The datagram of `AT+BCTTXDATA`

The command sends as many bytes as its first argument says, from where its second argument starts
in `uart_rec_atcmd`.  Nothing compares the two: behind a shorter argument lie its NUL, the line
feed and what earlier lines have left.  `sendsOwnData_iff` says for which lines the datagram is
made of the argument alone.
-/

/-! ### `responseBCTTXDATA` -/

/-- What is handed to `sendto`: the address of the message, and the bytes that lie there. -/
structure Datagram where
  address : ℕ
  bytes : List UInt8
deriving DecidableEq

/-- The variables that the command reads, and what `sendto` answers. -/
structure TxEnv where
  linkStatus : SysEvtId
  broadcast : UdpBroadcastSts
  sendto : ℤ → Datagram → ℤ

/-- What the command prints, sends and keeps. -/
structure TxAnswer where
  printed : String
  datagram : Option Datagram
  broadcast : UdpBroadcastSts

/-- The line for `INVALID_PARAMETER`. -/
def invalidParameterLine : String := "+ERROR=-2\n\r"

/-- The line for success. -/
def okLine : String := "+OK\n\r"

/-- `responseBCTTXDATA`; `argv` lists the pointers up to `argc`. -/
def responseBCTTXDATA (env : TxEnv) (m : Memory) (argv : List ℕ) : Option TxAnswer :=
  match argv with
  | [_, arg1, arg2] =>
    (cString m (uartRecAtcmdEnd - arg1) arg1).map fun text =>
      if strIsDigit text then
        let broadcast := { env.broadcast with txLen := atoi text }
        if broadcast.txLen > 256 ∨ broadcast.txLen = 0 then
          ⟨invalidParameterLine, none, { broadcast with txLen := 0 }⟩
        else if env.linkStatus ≠ .linkUp ∧ env.linkStatus ≠ .scanDone then
          ⟨"+ERROR=link_status isn't SYS_EVT_LINK_UP\n\r", none, broadcast⟩
        else if broadcast.txSockfd < 0 then ⟨"+ERROR= -41\n\r", none, broadcast⟩
        else
          -- The length of the string at `arg2` is not looked at.
          let datagram := ⟨arg2, loadBytes m arg2 broadcast.txLen⟩
          let ret := env.sendto broadcast.txSockfd datagram
          ⟨if ret < 0 then "+ERROR=-43\n\r" else okLine, some datagram, broadcast⟩
      else ⟨invalidParameterLine, none, env.broadcast⟩
  | _ => some ⟨invalidParameterLine, none, env.broadcast⟩

/-- The program of `responseBCTTXDATA` keeps the same. -/
theorem responseBCTTXDATA_broadcast {env : TxEnv} {m : Memory} {arg0 arg1 arg2 : ℕ}
    {answer : TxAnswer} {call : AtEnv} {s : CallState}
    (htext : cString m (uartRecAtcmdEnd - arg1) arg1 = some (call.argv 1))
    (hlink : s.settings.linkStatus = env.linkStatus) (hbroadcast : s.broadcast = env.broadcast)
    (h : responseBCTTXDATA env m [arg0, arg1, arg2] = some answer) :
    (callHandler call .bcttxdata 3 s).broadcast = answer.broadcast := by
  have hstarted : s.settings.wifiStarted = true ↔
      ¬ (env.linkStatus ≠ .linkUp ∧ env.linkStatus ≠ .scanDone) := by
    rw [Settings.wifiStarted, hlink, decide_eq_true_iff]
    tauto
  rw [responseBCTTXDATA, htext] at h
  obtain rfl := Option.some.inj h
  dsimp only
  rw [← hbroadcast]
  by_cases hdigits : strIsDigit (call.argv 1) = true
  · rw [if_pos hdigits]
    by_cases hrange : 256 < atoi (call.argv 1) ∨ atoi (call.argv 1) = 0
    · rw [if_pos hrange]
      simp [callHandler, AtCmd.program, AtCmd.responseBCTTXDATA, hdigits, hrange]
      rfl
    · rw [if_neg hrange]
      by_cases hup : s.settings.wifiStarted = true
      · rw [if_neg (hstarted.mp hup)]
        by_cases hsock : s.broadcast.txSockfd < 0
        · simp [callHandler, AtCmd.program, AtCmd.responseBCTTXDATA, hdigits, hrange, hup, hsock]
        · simp [callHandler, AtCmd.program, AtCmd.responseBCTTXDATA, hdigits, hrange, hup, hsock]
      · rw [if_pos (not_not.mp (mt hstarted.mpr hup))]
        simp [callHandler, AtCmd.program, AtCmd.responseBCTTXDATA, hdigits, hrange, hup]
  · rw [if_neg hdigits]
    simp [callHandler, AtCmd.program, AtCmd.responseBCTTXDATA, hdigits]

/-- `parseParameter` up to the call of `processCommand`: the memory and the pointers. -/
def parseArgv (m : Memory) (args : ℕ) : Option (Memory × List ℕ) :=
  (strsep m (some args) [61]).bind fun r =>
    match r.2.1 with
    | none => some (r.1, r.2.2.toList)
    | some p => parseArguments maxSingleParameter r.1 (some p) r.2.2.toList

/-- Parsing a line is splitting it and looking its name up. -/
theorem parseParameter_eq_parseArgv (m : Memory) (args : ℕ) :
    parseParameter m args = (parseArgv m args).bind fun a => processCommand a.1 a.2 := by
  rw [parseParameter, parseArgv, Option.bind_assoc]
  apply Option.bind_congr
  intro r _
  cases r.2.1 with
  | none => rfl
  | some p => rfl

/-- `AtThread` on a line that leads to `responseBCTTXDATA`. -/
def bctTxData (env : TxEnv) (m : Memory) : Option TxAnswer :=
  (parseArgv m uartRecAtcmd).bind fun a =>
    (processCommand a.1 a.2).bind fun r =>
      match r.2 with
      | .call .bcttxdata _ _ => responseBCTTXDATA env r.1 a.2
      | _ => none

/-! ### The lines -/

/-- A line `+BCTTXDATA=len,data` behind its `AT`, in any case; no longer line is received. -/
structure TxLine where
  name : List UInt8
  len : List UInt8
  data : List UInt8
  is_name : name.map toupper = ascii "+BCTTXDATA"
  digits : strIsDigit len = true
  no_lineFeed : 10 ∉ data
  fits : name.length + (len.length + data.length) ≤ 196

namespace TxLine

variable (line : TxLine)

/-- The line without its line feed: name, `=`, number, `,` and data. -/
def bytes : List UInt8 := line.name ++ 61 :: (line.len ++ 44 :: line.data)

/-- The number in front of the comma. -/
def announced : ℕ := decimal line.len

/-- The number that `atoi` makes of it. -/
def taken : ℕ := line.announced % 4294967296

/-- Where the first argument starts, and where the second one does. -/
def lenAddress : ℕ := uartRecAtcmd + line.name.length + 1
/-- Where the data begins in `uart_rec_atcmd`. -/
def dataAddress : ℕ := line.lenAddress + line.len.length + 1

/-- The second argument as a C string. -/
def dataText : List UInt8 := line.data.takeWhile (· ≠ 0)

/-- The line is refused whatever the device does: the number that the command takes is out of
    range, or there is a further argument. -/
def Refused : Prop := line.taken = 0 ∨ 256 < line.taken ∨ 44 ∈ line.dataText

/-- The name is the command's up to case. -/
theorem mem_name {x : UInt8} (hx : x ∈ line.name) : toupper x ∈ ascii "+BCTTXDATA" := by
  rw [← line.is_name]
  exact List.mem_map_of_mem hx

/-- The name has no `=` and no NUL. -/
theorem name_clean : ∀ x ∈ line.name, x ∉ [(61 : UInt8)] ∧ x ≠ 0 := by
  intro x hx
  have hupper := line.mem_name hx
  refine ⟨fun h => ?_, ?_⟩
  · obtain rfl := List.mem_singleton.mp h
    exact absurd hupper (by decide +kernel)
  · rintro rfl
    exact absurd hupper (by decide +kernel)

/-- The announced length has digits only. -/
theorem isdigit_of_mem_len {x : UInt8} (hx : x ∈ line.len) : isdigit x = true :=
  List.all_eq_true.mp line.digits x hx

/-- The announced length has no comma and no NUL. -/
theorem len_clean : ∀ x ∈ line.len, x ∉ [(44 : UInt8)] ∧ x ≠ 0 := by
  intro x hx
  have hdigit := line.isdigit_of_mem_len hx
  refine ⟨fun h => ?_, ?_⟩
  · obtain rfl := List.mem_singleton.mp h
    exact absurd hdigit (by decide)
  · rintro rfl
    exact absurd hdigit (by decide)

/-- The name is not cut. -/
theorem nul_not_mem_name : 0 ∉ line.name := fun h => (line.name_clean 0 h).2 rfl

/-- The announced length is not cut. -/
theorem nul_not_mem_len : 0 ∉ line.len := fun h => (line.len_clean 0 h).2 rfl

/-- The line ends where it ends. -/
theorem bytes_no_lineFeed : ∀ x ∈ line.bytes, x ≠ 10 := by
  rintro x hx rfl
  rcases List.mem_append.mp hx with hname | hrest
  · exact absurd (line.mem_name hname) (by decide +kernel)
  · rcases List.mem_cons.mp hrest with h | hrest
    · exact absurd h (by decide)
    · rcases List.mem_append.mp hrest with hlen | hdata
      · exact absurd (line.isdigit_of_mem_len hlen) (by decide)
      · rcases List.mem_cons.mp hdata with h | hdata
        · exact absurd h (by decide)
        · exact line.no_lineFeed hdata

/-- The length of the line from its parts. -/
theorem length_bytes :
    line.bytes.length = line.name.length + (line.len.length + (line.data.length + 1) + 1) := by
  rw [bytes, List.length_append, List.length_cons, List.length_append, List.length_cons]

/-- The string at the second argument ends at the first NUL of the data or at the one behind it. -/
theorem dataText_le : line.dataText ++ [0] <+: line.data ++ [0] := by
  by_cases hnul : 0 ∈ line.data
  · have htext := takeWhile_nul_prefix hnul
    exact htext.trans (List.prefix_append _ _)
  · have hall : ∀ x ∈ line.data, x ≠ 0 := by
      rintro x hx rfl
      exact hnul hx
    have htext : line.dataText = line.data :=
      List.takeWhile_eq_self_iff.mpr fun x hx => decide_eq_true (hall x hx)
    exact ⟨[], by rw [htext, List.append_nil]⟩

/-- The text of the data is a part of it. -/
theorem length_dataText_le : line.dataText.length ≤ line.data.length :=
  (List.takeWhile_prefix _).length_le

/-- The text of the data lies where the data does, with a NUL behind it. -/
theorem bytesAt_dataText {m : Memory} (h : BytesAt m line.dataAddress (line.data ++ [0])) :
    BytesAt m line.dataAddress (line.dataText ++ [0]) := by
  obtain ⟨rest, hrest⟩ := line.dataText_le
  rw [← hrest] at h
  exact (bytesAt_append.mp h).1

/-- The second argument ends in front of the end of the buffer. -/
theorem dataAddress_add_le : line.dataAddress + line.data.length + 1 ≤ uartRecAtcmdEnd := by
  have hfits := line.fits
  unfold dataAddress lenAddress uartRecAtcmdEnd maxAtRecvSize
  omega

end TxLine

/-! ### Parsing -/

/-- The loop only adds pointers, the one it is given first. -/
theorem parseArguments_extends {fuel : ℕ} {m m' : Memory} {stringp : Option ℕ} {argv argv' : List ℕ}
    (h : parseArguments fuel m stringp argv = some (m', argv')) :
    argv ++ stringp.toList <+: argv' := by
  induction fuel generalizing m stringp argv with
  | zero => cases h
  | succ fuel ih =>
    rw [parseArguments] at h
    split at h
    · cases h
    · obtain ⟨r, hr, hnext⟩ := Option.bind_eq_some_iff.mp h
      obtain ⟨htok, hnull⟩ := strsep_tok hr
      rw [htok] at hnext
      cases stringp with
      | none =>
        obtain ⟨-, rfl⟩ := Prod.mk.inj (Option.some.inj hnext)
        exact ⟨[], by rw [Option.toList_none, List.append_nil, List.append_nil]⟩
      | some tok => exact (List.prefix_append _ _).trans (ih hnext)

variable {m : Memory}

/-- The first two steps of the parser: the name, and the argument in front of the first comma. -/
theorem parseArgv_len (line : TxLine) (hm : BytesAt m uartRecAtcmd (line.bytes ++ [0])) :
    ∃ m₁, BytesAt m₁ uartRecAtcmd (line.name ++ [0]) ∧
      BytesAt m₁ line.lenAddress (line.len ++ [0]) ∧
      BytesAt m₁ line.dataAddress (line.data ++ [0]) ∧
      parseArgv m uartRecAtcmd =
        parseArguments 49 m₁ (some line.dataAddress) [uartRecAtcmd, line.lenAddress] := by
  have hend := line.dataAddress_add_le
  have haddress : line.dataAddress = uartRecAtcmd + line.name.length + 1 + line.len.length + 1 :=
    rfl
  rw [TxLine.bytes, List.append_assoc, List.cons_append, List.append_assoc, List.cons_append] at hm
  -- the `=` becomes the NUL of the name
  have hname := strsep_token hm line.name_clean (List.mem_singleton_self _) (by decide) (by omega)
  have hset := bytesAt_append.mp (hm.set 0)
  -- and the comma the NUL of the number
  have hlen := strsep_token hset.2.2 line.len_clean (List.mem_singleton_self _) (by decide)
    (by omega)
  have hset' := bytesAt_append.mp (hset.2.2.set 0)
  refine ⟨store8 (store8 m (uartRecAtcmd + line.name.length) 0)
    (uartRecAtcmd + line.name.length + 1 + line.len.length) 0, ?_, ?_, hset'.2.2, ?_⟩
  · have hnul : BytesAt (store8 m (uartRecAtcmd + line.name.length) 0) uartRecAtcmd
        (line.name ++ [0]) := bytesAt_append.mpr ⟨hset.1, hset.2.1, trivial⟩
    apply hnul.store8
    rw [List.length_append, List.length_singleton]
    omega
  · exact bytesAt_append.mpr ⟨hset'.1, hset'.2.1, trivial⟩
  · rw [parseArgv, hname]
    show parseArguments 50 _ (some (uartRecAtcmd + line.name.length + 1)) [uartRecAtcmd] = _
    rw [parseArguments, hlen]
    rfl

/-- The array of arguments is not full yet. -/
theorem room_for_argument (p q : ℕ) : ¬ maxSingleParameter ≤ [p, q].length := by
  show ¬ 50 ≤ 2
  decide

/-- A comma in the data makes a further argument. -/
theorem parseArgv_comma (line : TxLine) (hm : BytesAt m uartRecAtcmd (line.bytes ++ [0]))
    (hcomma : 44 ∈ line.dataText) {a : Memory × List ℕ} (ha : parseArgv m uartRecAtcmd = some a) :
    4 ≤ a.2.length := by
  obtain ⟨m₁, -, -, hdata, hparse⟩ := parseArgv_len line hm
  have hend := line.dataAddress_add_le
  have hshort := line.length_dataText_le
  have htext := nul_not_mem_takeWhile line.data
  obtain ⟨xs, ys, hsplit, hxs⟩ := List.eq_append_cons_of_mem hcomma
  obtain ⟨rest, hrest⟩ := line.dataText_le
  change 0 ∉ line.dataText at htext
  rw [hsplit] at hshort htext hrest
  rw [← hrest, List.append_assoc, List.append_assoc, List.cons_append] at hdata
  rw [List.length_append] at hshort
  have hclean := token_clean hxs fun h => htext (List.mem_append_left _ h)
  have htok := strsep_token hdata hclean (List.mem_singleton_self _) (by decide) (by omega)
  rw [hparse, parseArguments, if_neg (room_for_argument _ _), htok] at ha
  have hprefix := (parseArguments_extends ha).length_le
  simpa using hprefix

/-- Otherwise `argv` has the two arguments. -/
theorem parseArgv_data (line : TxLine) (hm : BytesAt m uartRecAtcmd (line.bytes ++ [0]))
    (hcomma : 44 ∉ line.dataText) :
    ∃ m₁, BytesAt m₁ uartRecAtcmd (line.name ++ [0]) ∧
      BytesAt m₁ line.lenAddress (line.len ++ [0]) ∧
      BytesAt m₁ line.dataAddress (line.data ++ [0]) ∧
      parseArgv m uartRecAtcmd =
        some (m₁, [uartRecAtcmd, line.lenAddress, line.dataAddress]) := by
  obtain ⟨m₁, hname, hlen, hdata, hparse⟩ := parseArgv_len line hm
  have hend := line.dataAddress_add_le
  have hshort := line.length_dataText_le
  have hlast := strsep_last (line.bytesAt_dataText hdata)
    (token_clean hcomma (nul_not_mem_takeWhile _)) (by omega)
  refine ⟨m₁, hname, hlen, hdata, ?_⟩
  rw [hparse, parseArguments, if_neg (room_for_argument _ _), hlast]
  rfl

/-- The whole parser hands the two arguments over as they lie in memory. -/
theorem bctTxData_data (env : TxEnv) (line : TxLine)
    (hm : BytesAt m uartRecAtcmd (line.bytes ++ [0])) (hcomma : 44 ∉ line.dataText) :
    ∃ m₂, BytesAt m₂ line.lenAddress (line.len ++ [0]) ∧
      BytesAt m₂ line.dataAddress (line.data ++ [0]) ∧
      bctTxData env m =
        responseBCTTXDATA env m₂ [uartRecAtcmd, line.lenAddress, line.dataAddress] := by
  obtain ⟨m₁, hname, hlen, hdata, hparse⟩ := parseArgv_data line hm hcomma
  have hend := line.dataAddress_add_le
  have hshort := line.length_dataText_le
  have haddress : line.lenAddress = uartRecAtcmd + line.name.length + 1 := rfl
  have haddress' : line.dataAddress = line.lenAddress + line.len.length + 1 := rfl
  have hbuffer : uartRecAtcmdEnd = uartRecAtcmd + 200 := rfl
  -- upper-casing the name leaves the arguments alone
  obtain ⟨m₂, hrequest, hupper, hframe⟩ :=
    stringTorequest_spec hname line.nul_not_mem_name (by omega) (by omega)
  have hlen₂ : BytesAt m₂ line.lenAddress (line.len ++ [0]) :=
    hlen.congr fun q hq _ => hframe q (by omega)
  have hdata₂ : BytesAt m₂ line.dataAddress (line.data ++ [0]) :=
    hdata.congr fun q hq _ => hframe q (by omega)
  refine ⟨m₂, hlen₂, hdata₂, ?_⟩
  -- the three strings can be read
  rw [line.is_name] at hrequest hupper
  have hread₀ := cString_of_bytesAt (n := uartRecAtcmdEnd - uartRecAtcmd) hupper
    (by decide +kernel) (by decide +kernel)
  have hread₁ := cString_of_bytesAt (n := uartRecAtcmdEnd - line.lenAddress) hlen₂
    line.nul_not_mem_len (by omega)
  have hread₂ := cString_of_bytesAt (n := uartRecAtcmdEnd - line.dataAddress)
    (line.bytesAt_dataText hdata₂) (nul_not_mem_takeWhile _) (by omega)
  have hcompare : compareRequest (ascii "+BCTTXDATA") = some .bcttxdata := by decide +kernel
  have hfind := find_requestNumber ⟨.bcttxdata, "AT+BCTTXDATA", .bcttxdata⟩ (by decide)
  have hprocess : processCommand m₁ [uartRecAtcmd, line.lenAddress, line.dataAddress] =
      some (m₂, .call .bcttxdata 3 [ascii "+BCTTXDATA", line.len, line.dataText]) := by
    rw [processCommand, hrequest, Option.bind_some, hcompare]
    simp only [hfind, List.mapM_cons, hread₀, hread₁, hread₂]
    rfl
  rw [bctTxData, hparse, Option.bind_some, hprocess]
  rfl

/-! ### What is sent -/

/-- Nothing but the second argument is sent, and `+OK` says that it was as much of it as
    announced. -/
structure OwnData (line : TxLine) (answer : TxAnswer) : Prop where
  /-- No byte behind the argument or behind the buffer is handed to `sendto`. -/
  inside : ∀ d, answer.datagram = some d → line.dataAddress ≤ d.address ∧
    d.address + d.bytes.length ≤ line.dataAddress + line.data.length ∧
    d.address + d.bytes.length ≤ uartRecAtcmdEnd
  exact : answer.printed = okLine → line.announced ≤ line.data.length ∧
    answer.datagram = some ⟨line.dataAddress, line.data.take line.announced⟩

/-- The line sends its own data, whatever the buffer held before and whatever the device does. -/
def SendsOwnData (line : TxLine) : Prop :=
  ∀ (s : AtUart) (env : TxEnv) (head : List UInt8) (answer : TxAnswer), s.atState = .idle →
    IsHead head → bctTxData env (atFeed s (head ++ line.bytes ++ [13, 10])).mem = some answer →
    OwnData line answer

/-- The received line lies in the buffer. -/
theorem bytesAt_received {s : AtUart} {head : List UInt8} (hidle : s.atState = .idle)
    (hhead : IsHead head) (line : TxLine) :
    BytesAt (atFeed s (head ++ line.bytes ++ [13, 10])).mem uartRecAtcmd (line.bytes ++ [0]) := by
  have hfits := line.fits
  have hlength := line.length_bytes
  exact (atFeed_command hidle hhead line.bytes_no_lineFeed (by omega)).2.1

/-- The number that the command takes is in range. -/
def TxLine.InRange (line : TxLine) : Prop := line.taken ≠ 0 ∧ line.taken ≤ 256

/-- No line has so many bytes of data that their number is reduced. -/
theorem TxLine.taken_of_short {line : TxLine} (hshort : line.announced ≤ line.data.length) :
    line.taken = line.announced := by
  have hfits := line.fits
  exact Nat.mod_eq_of_lt (by omega)

/-- The device is linked and has a socket, and `sendto` takes the datagram. -/
def TxEnv.CanSend (env : TxEnv) (d : Datagram) : Prop :=
  (env.linkStatus = .linkUp ∨ env.linkStatus = .scanDone) ∧ 0 ≤ env.broadcast.txSockfd ∧
    0 ≤ env.sendto env.broadcast.txSockfd d

/-- The answer to a line for which the datagram is `d`. -/
structure Answers (env : TxEnv) (line : TxLine) (d : Datagram) (answer : TxAnswer) : Prop where
  ok_iff : answer.printed = okLine ↔ line.InRange ∧ env.CanSend d
  sent : answer.printed = okLine → answer.datagram = some d
  only : ∀ d', answer.datagram = some d' → d' = d ∧ line.InRange

/-- An error without a datagram. -/
theorem Answers.error {env : TxEnv} {line : TxLine} {d : Datagram} {printed : String}
    {broadcast : UdpBroadcastSts} (hprinted : printed ≠ okLine)
    (h : ¬ (line.InRange ∧ env.CanSend d)) : Answers env line d ⟨printed, none, broadcast⟩ where
  ok_iff := iff_of_false hprinted h
  sent := fun hok => absurd hok hprinted
  only := by rintro _ ⟨⟩

/-- What the command makes of its two arguments: it sends as many bytes as it takes the number
    for, from the start of the second one. -/
theorem responseBCTTXDATA_spec (env : TxEnv) (line : TxLine) (arg0 : ℕ)
    (hlen : BytesAt m line.lenAddress (line.len ++ [0])) :
    ∃ answer, responseBCTTXDATA env m [arg0, line.lenAddress, line.dataAddress] = some answer ∧
      Answers env line ⟨line.dataAddress, loadBytes m line.dataAddress line.taken⟩ answer := by
  have hend := line.dataAddress_add_le
  have haddress : line.dataAddress = line.lenAddress + line.len.length + 1 := rfl
  have hread := cString_of_bytesAt (n := uartRecAtcmdEnd - line.lenAddress) hlen
    line.nul_not_mem_len (by omega)
  have hatoi : atoi line.len = line.taken := atoi_eq line.digits
  refine ⟨_, by rw [responseBCTTXDATA, hread]; rfl, ?_⟩
  dsimp only
  rw [if_pos line.digits, hatoi]
  split
  case isTrue hrange =>
    apply Answers.error (by decide)
    rintro ⟨⟨_, _⟩, -⟩
    omega
  case isFalse hrange =>
    have hin : line.InRange := ⟨by omega, by omega⟩
    split
    case isTrue hlink =>
      apply Answers.error (by decide)
      rintro ⟨-, hup, -⟩
      exact hup.elim hlink.1 hlink.2
    case isFalse hlink =>
      split
      case isTrue hsock =>
        apply Answers.error (by decide)
        rintro ⟨-, -, hopen, -⟩
        exact not_le.mpr hsock hopen
      case isFalse hsock =>
        have hup : env.linkStatus = .linkUp ∨ env.linkStatus = .scanDone := by
          by_contra hdown
          exact hlink (not_or.mp hdown)
        constructor
        case ok_iff =>
          dsimp only
          split
          case isTrue hret => exact iff_of_false (by decide) fun h => not_le.mpr hret h.2.2.2
          case isFalse hret =>
            exact iff_of_true rfl ⟨hin, hup, not_lt.mp hsock, not_lt.mp hret⟩
        case sent => exact fun _ => rfl
        case only =>
          rintro _ ⟨⟩
          exact ⟨rfl, hin⟩

/-- Bytes of the data, as far as they go. -/
theorem loadBytes_data {line : TxLine} (hdata : BytesAt m line.dataAddress (line.data ++ [0]))
    (hshort : line.announced ≤ line.data.length) :
    loadBytes m line.dataAddress line.taken = line.data.take line.announced := by
  rw [line.taken_of_short hshort, ← take_loadBytes m line.dataAddress hshort,
    loadBytes_of_bytesAt (bytesAt_append.mp hdata).1]

/-- With a further argument nothing is sent. -/
theorem bctTxData_comma {env : TxEnv} {answer : TxAnswer} (line : TxLine)
    (hm : BytesAt m uartRecAtcmd (line.bytes ++ [0])) (hcomma : 44 ∈ line.dataText)
    (h : bctTxData env m = some answer) : answer.datagram = none ∧ answer.printed ≠ okLine := by
  obtain ⟨⟨m₁, argv⟩, hparse, h⟩ := Option.bind_eq_some_iff.mp h
  obtain ⟨⟨m₂, event⟩, -, h⟩ := Option.bind_eq_some_iff.mp h
  have hargc := parseArgv_comma line hm hcomma hparse
  dsimp only at h
  split at h
  · unfold responseBCTTXDATA at h
    split at h
    · exact absurd hargc (show ¬ 4 ≤ 3 by decide)
    · obtain rfl := Option.some.inj h
      exact ⟨rfl, show invalidParameterLine ≠ okLine by decide⟩
  · cases h

/-- A device that is linked, has a socket and sends everything. -/
def TxEnv.sending : TxEnv := ⟨.linkUp, .zero, fun _ d => d.bytes.length⟩

/-- A link that is up, an open socket and a `sendto` that succeeds. -/
theorem TxEnv.sending_canSend (d : Datagram) : TxEnv.sending.CanSend d :=
  ⟨Or.inl rfl, le_rfl, Int.natCast_nonneg _⟩

/-- A receiver that waits for a line. -/
def AtUart.waiting : AtUart := ⟨.idle, (0, 0), 0, fun _ => 0, [], []⟩

/-- **When `AT+BCTTXDATA` sends its own data.**  Whatever the buffer held before and whatever the
    device does, the datagram is the announced part of the second argument, and no other byte is
    sent, if and only if the line is refused anyway or announces at most as many bytes as it has.  A
    number from `2^32` on can be reduced to one in range, and is not refused then. -/
theorem sendsOwnData_iff (line : TxLine) :
    SendsOwnData line ↔ line.Refused ∨ line.announced ≤ line.data.length := by
  have hend := line.dataAddress_add_le
  constructor
  · intro h
    by_contra hnot
    obtain ⟨hrefused, hlong⟩ := not_or.mp hnot
    obtain ⟨hzero, hlarge, hcomma⟩ : line.taken ≠ 0 ∧ ¬ 256 < line.taken ∧
        44 ∉ line.dataText := by
      simpa only [TxLine.Refused, not_or] using hrefused
    have hm := bytesAt_received (s := AtUart.waiting) rfl (Or.inl rfl) line
    obtain ⟨m₂, hlen, -, hrun⟩ := bctTxData_data .sending line hm hcomma
    obtain ⟨answer, hanswer, hspec⟩ := responseBCTTXDATA_spec .sending line uartRecAtcmd hlen
    have hprinted := hspec.ok_iff.mpr ⟨⟨hzero, not_lt.mp hlarge⟩, TxEnv.sending_canSend _⟩
    have hown := h AtUart.waiting .sending (ascii "AT") answer rfl (Or.inl rfl)
      (hrun.trans hanswer)
    exact hlong (hown.exact hprinted).1
  · intro h s env head answer hidle hhead hrun
    have hm := bytesAt_received hidle hhead line
    by_cases hcomma : 44 ∈ line.dataText
    · have hnothing := bctTxData_comma line hm hcomma hrun
      exact ⟨by rw [hnothing.1]; rintro _ ⟨⟩, fun hok => absurd hok hnothing.2⟩
    · obtain ⟨m₂, hlen, hdata, hparsed⟩ := bctTxData_data env line hm hcomma
      obtain ⟨answer', hanswer, hspec⟩ := responseBCTTXDATA_spec env line uartRecAtcmd hlen
      obtain rfl : answer' = answer :=
        Option.some.inj (hanswer.symm.trans (hparsed.symm.trans hrun))
      have hshort (hin : line.InRange) : line.announced ≤ line.data.length :=
        h.resolve_left fun hrefused => hrefused.elim hin.1 fun hrefused =>
          hrefused.elim (not_lt.mpr hin.2) hcomma
      constructor
      case inside =>
        intro d hd
        obtain ⟨rfl, hin⟩ := hspec.only d hd
        have := hshort hin
        rw [length_loadBytes, line.taken_of_short this]
        exact ⟨le_rfl, by dsimp only; omega, by dsimp only; omega⟩
      case exact =>
        intro hok
        have := hshort (hspec.ok_iff.mp hok).1
        refine ⟨this, ?_⟩
        rw [hspec.sent hok, loadBytes_data hdata this]

/-- `+BCTTXDATA=5,a`. -/
def TxLine.short : TxLine where
  name := ascii "+BCTTXDATA"
  len := ascii "5"
  data := ascii "a"
  is_name := by decide +kernel
  digits := by decide
  no_lineFeed := by decide
  fits := by decide

/-- The receiver that waits for the next line, after `AtThread` has parsed this one. -/
def AtUart.afterLine (bytes : List UInt8) : Option AtUart :=
  (parseParameter (atFeed .waiting bytes).mem uartRecAtcmd).map fun r =>
    { AtUart.waiting with mem := r.1 }

/-- After `AT+BCTTXDATA=8,password`, the line `AT+BCTTXDATA=5,a` sends `a`, the NUL, the line feed
    and `sw`. -/
theorem bcttxdata_sends_stale :
    ((AtUart.afterLine (ascii "AT+BCTTXDATA=8,password\r\n")).bind fun s =>
      (bctTxData .sending (atFeed s (ascii "AT" ++ TxLine.short.bytes ++ [13, 10])).mem).map
        fun answer => (answer.printed, answer.datagram.map Datagram.bytes)) =
      some (okLine, some [97, 0, 10, 115, 119]) ∧
    ¬ ∀ line, SendsOwnData line := by
  have hrun : ((AtUart.afterLine (ascii "AT+BCTTXDATA=8,password\r\n")).bind fun s =>
      (bctTxData .sending (atFeed s (ascii "AT" ++ TxLine.short.bytes ++ [13, 10])).mem).map
        fun answer => (answer.printed, answer.datagram.map Datagram.bytes)) =
      some (okLine, some [97, 0, 10, 115, 119]) := by
    decide +kernel
  refine ⟨hrun, fun hall => ?_⟩
  obtain ⟨s, hline, hsecond⟩ := Option.bind_eq_some_iff.mp hrun
  obtain ⟨answer, hanswer, hpair⟩ := Option.map_eq_some_iff.mp hsecond
  obtain ⟨r, -, rfl⟩ := Option.map_eq_some_iff.mp hline
  have hown := hall .short _ .sending (ascii "AT") answer rfl (Or.inl rfl) hanswer
  have hshort := (hown.exact (congrArg Prod.fst hpair)).1
  exact absurd hshort (by decide)

end SerialNet
