import SerialNet.Net.Device

namespace SerialNet

/-!
# A command line, from the UART to the handler

`AtThread` polls for a complete line, parses it and only then returns the receiver to
`at_statIdle`; interrupts may bring further bytes at any time in between.  The main result
puts the receiver (`atFeed_command`), the parser (`parseParameter_spec`) and the two command
tables together.
-/

/-- Receive several bytes. -/
def feed (d : Device) (bytes : List UInt8) : Device := bytes.foldl uartDataRecv d

/-- In `AT_MODE` bytes go to the command path. -/
theorem feed_at {d : Device} (h : d.atMode = .at) (bytes : List UInt8) :
    feed d bytes = { d with cmd := atFeed d.cmd bytes } := by
  induction bytes generalizing d with
  | nil => rfl
  | cons b bytes ih =>
    have hb : uartDataRecv d b = { d with cmd := atRecv d.cmd b } := by
      simp [uartDataRecv, h]
    show feed (uartDataRecv d b) bytes = _
    rw [hb]
    exact ih (d := { d with cmd := atRecv d.cmd b }) h

/-- `AtThread` up to `at_state = at_statIdle`: parse the line, if there is one.  What a
    handler does to the rest of the device is not part of this step. -/
def atThreadParse (d : Device) : Option Device :=
  if d.atMode = .at ∧ d.cmd.atState = .process then
    (parseParameter d.cmd.mem uartRecAtcmd).map fun r =>
      { d with cmd := { d.cmd with mem := r.1, events := d.cmd.events ++ [r.2] } }
  else none

/-- `at_state = at_statIdle` of `AtThread`. -/
def atThreadFinish (d : Device) : Device := { d with cmd := { d.cmd with atState := .idle } }

/-! ### The two tables agree -/

/-- Every command name leads to its own request number. -/
theorem compareRequest_requestName :
    ∀ c ∈ sAtCommands, compareRequest ((ascii c.requestName).drop 2) = some c.requestNumber := by
  decide +kernel

/-- Every request number leads to its own command. -/
theorem find_requestNumber : ∀ c ∈ sAtCommands,
    (sAtCommands.find? fun c' => some c.requestNumber = some c'.requestNumber) = some c := by
  decide +kernel

/-- Every string that `stringTorequest` knows is the name of a command. -/
theorem requestStrings_named : ∀ p ∈ requestStrings, ∃ c ∈ sAtCommands,
    ascii c.requestName = ascii "AT" ++ ascii p.1 := by
  decide +kernel

/-- `name` is the name of command `c` without its `AT`. -/
def Names (name : List UInt8) (c : AtCommand) : Prop := ascii c.requestName = ascii "AT" ++ name

/-- The name of a command is dispatched to its response function. -/
theorem dispatch_known {name : List UInt8} {c : AtCommand} (hc : c ∈ sAtCommands)
    (hname : Names name c) (args : List (List UInt8)) :
    dispatch name args = .call c.responseFunction (1 + args.length) (name :: args) := by
  have hreq := compareRequest_requestName c hc
  have hdrop : (ascii c.requestName).drop 2 = name := by
    rw [hname]; rfl
  rw [hdrop] at hreq
  simp only [dispatch, hreq, find_requestNumber c hc]

/-- Any other name is an invalid command. -/
theorem dispatch_unknown {name : List UInt8} (hname : ∀ c ∈ sAtCommands, ¬ Names name c)
    (args : List (List UInt8)) : dispatch name args = invalidCommand := by
  have hreq : compareRequest name = none := by
    unfold compareRequest
    rw [Option.map_eq_none_iff, List.find?_eq_none]
    intro p hp hpn
    obtain ⟨c, hc, hcn⟩ := requestStrings_named p hp
    exact hname c hc (by rw [Names, hcn, of_decide_eq_true hpn])
  have hfind : (sAtCommands.find? fun c => compareRequest name = some c.requestNumber) = none := by
    simp [hreq]
  simp only [dispatch, hfind]

/-! ### End to end -/

/-- **A command line reaches its handler.**  From `at_statIdle`, for every opening, name,
    argument list and bytes `early` and `late` that arrive before and after the parsing: the
    line is parsed into exactly one event; it calls the response function of the upper-cased
    name with the arguments as typed, or, for an unknown name, prints the error; no other byte
    reaches the buffer; and the receiver is idle again. -/
theorem at_command_end_to_end (d : Device) (hmode : d.atMode = .at)
    (hidle : d.cmd.atState = .idle) (head : List UInt8) (hhead : IsHead head)
    (name : List UInt8) (args : List (List UInt8)) (hname : ∀ x ∈ name, x ≠ 10 ∧ x ≠ 61 ∧ x ≠ 0)
    (hargs : ∀ a ∈ args, ∀ x ∈ a, x ≠ 10 ∧ x ≠ 44 ∧ x ≠ 0)
    (hlen : (commandLine name args).length ≤ 198) (hnum : args.length ≤ 48)
    (early late : List UInt8) :
    let fed := feed d (head ++ commandLine name args ++ [13, 10])
    let waiting := feed fed early
    (waiting.cmd.mem = fed.cmd.mem ∧
      ∀ m b, (uartDataRecv { waiting with cmd := { waiting.cmd with mem := m } } b).cmd.mem = m) ∧
    ∃ parsed event, atThreadParse waiting = some parsed ∧
      (feed parsed late).cmd.mem = parsed.cmd.mem ∧
      (atThreadFinish (feed parsed late)).cmd.events = d.cmd.events ++ [event] ∧
      (atThreadFinish (feed parsed late)).cmd.atState = .idle ∧
      (∀ c ∈ sAtCommands, Names (name.map toupper) c →
        event = .call c.responseFunction (1 + args.length) (name.map toupper :: args)) ∧
      ((∀ c ∈ sAtCommands, ¬ Names (name.map toupper) c) → event = invalidCommand) := by
  intro fed waiting
  have hlf := commandLine_no_lineFeed hname hargs
  obtain ⟨h1, h2, h3⟩ := atFeed_command hidle hhead hlf hlen
  have hfed : fed = { d with cmd := atFeed d.cmd (head ++ commandLine name args ++ [13, 10]) } :=
    feed_at hmode _
  rw [← show fed.cmd = atFeed d.cmd (head ++ commandLine name args ++ [13, 10]) by rw [hfed]]
    at h1 h2 h3
  have hmode' : fed.atMode = .at := by rw [hfed]; exact hmode
  -- bytes that arrive before the line is parsed change nothing
  have hwait : waiting = { fed with cmd := atFeed fed.cmd early } := feed_at hmode' early
  obtain ⟨k1, k2, k3⟩ := atFeed_process h1 early
  rw [← show waiting.cmd = atFeed fed.cmd early by rw [hwait]] at k1 k2 k3
  have hmode'' : waiting.atMode = .at := by rw [hwait]; exact hmode'
  refine ⟨⟨k2, fun m b => ?_⟩, ?_⟩
  · obtain ⟨-, hm, -⟩ := atFeed_process (s := { waiting.cmd with mem := m }) k1 [b]
    simp only [uartDataRecv, hmode'']
    exact hm
  · obtain ⟨m', hparse⟩ := parseParameter_spec (by rw [← k2] at h2; exact h2)
      (fun x hx => ⟨(hname x hx).2.1, (hname x hx).2.2⟩)
      (fun a ha x hx => ⟨(hargs a ha x hx).2.1, (hargs a ha x hx).2.2⟩) (by omega) hnum
    -- nor do those that arrive before the receiver is idle again
    set event := dispatch (name.map toupper) args
    set parsed : Device := { waiting with
      cmd := { waiting.cmd with mem := m', events := waiting.cmd.events ++ [event] } }
    obtain ⟨l1, l2, l3⟩ := atFeed_process (s := parsed.cmd) k1 late
    have hlate : feed parsed late = { parsed with cmd := atFeed parsed.cmd late } :=
      feed_at (d := parsed) hmode'' late
    refine ⟨parsed, event, ?_, ?_, ?_, rfl, fun c hc hn => dispatch_known hc hn args,
      fun hn => dispatch_unknown hn args⟩
    · rw [atThreadParse, if_pos ⟨hmode'', k1⟩, hparse]
      rfl
    · rw [hlate]; exact l2
    · rw [hlate]
      show (atFeed parsed.cmd late).events = _
      rw [l3]
      show waiting.cmd.events ++ [event] = _
      rw [k3, h3]

/-- `at+ping=10.0.0.1,` is a ping with an empty second argument. -/
theorem at_command_end_to_end_ping :
    ∃ parsed event,
      atThreadParse (feed (feed (initDevice []) (ascii "at"
        ++ commandLine (ascii "+ping") [ascii "10.0.0.1", []] ++ [13, 10])) [65, 10]) = some parsed ∧
      (atThreadFinish (feed parsed [10])).cmd.events = [event] ∧
      event = .call .ping 3 [ascii "+PING", ascii "10.0.0.1", []] := by
  have hping : (ascii "+ping").map toupper = ascii "+PING" := by decide +kernel
  obtain ⟨-, parsed, event, h1, -, h3, -, h5, -⟩ :=
    at_command_end_to_end (initDevice []) rfl rfl (ascii "at") (.inr rfl) (ascii "+ping")
      [ascii "10.0.0.1", []] (by decide +kernel) (by decide +kernel) (by decide +kernel)
      (by decide) [65, 10] [10]
  refine ⟨parsed, event, h1, h3, ?_⟩
  rw [hping] at h5
  exact h5 ⟨.ping, "AT+PING", .ping⟩ (by decide) (by unfold Names; decide +kernel)

end SerialNet
