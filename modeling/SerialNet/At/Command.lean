import SerialNet.Lib.CString

namespace SerialNet

/-!
# AT commands: from the command line to the handler

The command line lies NUL-terminated in `uart_rec_atcmd`, and `parseParameter` splits it in
place with `strsep`: NULs are stored over the delimiters and `argv` points into the buffer.
A result `none` stands for what C leaves undefined here: a string that runs past the end of
the buffer, or a store past the end of `argv`.  A handler is represented by its name and the
arguments it is called with.
-/

/-- The address of `uart_rec_atcmd`; only its size matters, not where the linker puts it. -/
def uartRecAtcmd : ℕ := 0x20000000

/-- `MAX_AT_RECV_SIZE`. -/
def maxAtRecvSize : ℕ := 200

/-- The end of the buffer. -/
def uartRecAtcmdEnd : ℕ := uartRecAtcmd + maxAtRecvSize

/-- `MAX_SINGLE_PARAMETER`. -/
def maxSingleParameter : ℕ := 50

/-! ### `strsep` of `strlib.c` -/

/-- The scan of `strsep` from `s`: the address of the first delimiter or NUL. -/
def strsepScan (m : Memory) (delim : List UInt8) : ℕ → ℕ → Option ℕ
  | 0, _ => none
  | n + 1, s => if m s ∈ delim ∨ m s = 0 then some s else strsepScan m delim n (s + 1)

/-- `strsep` on a string that ends before `uartRecAtcmdEnd`: the memory, the new `*stringp`
    and the token. -/
def strsep (m : Memory) (stringp : Option ℕ) (delim : List UInt8) :
    Option (Memory × Option ℕ × Option ℕ) :=
  match stringp with
  | none => some (m, none, none)
  | some tok =>
      (strsepScan m delim (uartRecAtcmdEnd - tok) tok).map fun e =>
        if m e = 0 then (m, none, some tok) else (store8 m e 0, some (e + 1), some tok)

/-! ### The command tables -/

/-- `REQUEST`, as far as commands use it. -/
inductive Request where
  | help | ver | sver | save | factory | rst | systime | baudrate | uartft | uartfl | mslp
  | lslpt | ipconfig | ping | mac | wqsopt | wphymode | wtxrate | wscanap | wsbcn | wscap
  | wsmtconf | wstop | nqscnn | nlocip | wsaconf | airkiss | bcttxstart | bcttxstop | bcttxdata
  | bctrxstart | bctrxstop | quit
deriving DecidableEq, Repr

/-- The response functions. -/
inductive AtHandler where
  | help | ver | sver | save | factory | rst | systime | baudrate | uartft | uartfl | mslp
  | lslpt | ipconfig | ping | mac | wqsopt | wphymode | wtxrate | wscanap | wsbcn | wscap
  | wsmtconf | wstop | nqscnn | nlocip | wsaconf | airkiss | bcttxstart | bcttxstop | bcttxdata
  | bctrxstart | bctrxstop | quit
deriving DecidableEq, Repr

/-- `_S_AT_CMD`. -/
structure AtCommand where
  requestNumber : Request
  requestName : String
  responseFunction : AtHandler
deriving DecidableEq, Repr

/-- `s_at_commands`. -/
def sAtCommands : List AtCommand :=
  [
    ⟨.help, "AT+HELP", .help⟩, ⟨.ver, "AT+VER", .ver⟩, ⟨.sver, "AT+SVER", .sver⟩,
    ⟨.save, "AT+SAVE", .save⟩, ⟨.factory, "AT+FACTORY", .factory⟩, ⟨.rst, "AT+RST", .rst⟩,
    ⟨.systime, "AT+SYSTIME", .systime⟩, ⟨.baudrate, "AT+BAUDRATE", .baudrate⟩,
    ⟨.uartft, "AT+UARTFT", .uartft⟩, ⟨.uartfl, "AT+UARTFL", .uartfl⟩, ⟨.mslp, "AT+MSLP", .mslp⟩,
    ⟨.lslpt, "AT+LSLPT", .lslpt⟩, ⟨.ipconfig, "AT+IPCONFIG", .ipconfig⟩,
    ⟨.ping, "AT+PING", .ping⟩, ⟨.mac, "AT+MAC", .mac⟩, ⟨.wqsopt, "AT+WQSOPT", .wqsopt⟩,
    ⟨.wphymode, "AT+WPHYMODE", .wphymode⟩, ⟨.wtxrate, "AT+WTXRATE", .wtxrate⟩,
    ⟨.wscanap, "AT+WSCANAP", .wscanap⟩, ⟨.wsbcn, "AT+WSBCN", .wsbcn⟩,
    ⟨.wscap, "AT+WSCAP", .wscap⟩, ⟨.wsmtconf, "AT+WSMTCONF", .wsmtconf⟩,
    ⟨.wstop, "AT+WSTOP", .wstop⟩, ⟨.nqscnn, "AT+NQSCNN", .nqscnn⟩,
    ⟨.nlocip, "AT+NLOCIP", .nlocip⟩, ⟨.wsaconf, "AT+WSACONF", .wsaconf⟩,
    ⟨.airkiss, "AT+AIRKISS", .airkiss⟩, ⟨.bcttxstart, "AT+BCTTXSTART", .bcttxstart⟩,
    ⟨.bcttxstop, "AT+BCTTXSTOP", .bcttxstop⟩, ⟨.bcttxdata, "AT+BCTTXDATA", .bcttxdata⟩,
    ⟨.bctrxstart, "AT+BCTRXSTART", .bctrxstart⟩, ⟨.bctrxstop, "AT+BCTRXSTOP", .bctrxstop⟩,
    ⟨.quit, "AT+QUIT", .quit⟩]

/-- The comparisons of `stringTorequest`, in order. -/
def requestStrings : List (String × Request) :=
  [
    ("+HELP", .help), ("+VER", .ver), ("+SVER", .sver), ("+SAVE", .save), ("+FACTORY", .factory),
    ("+RST", .rst), ("+SYSTIME", .systime), ("+BAUDRATE", .baudrate), ("+UARTFT", .uartft),
    ("+UARTFL", .uartfl), ("+MSLP", .mslp), ("+LSLPT", .lslpt), ("+IPCONFIG", .ipconfig),
    ("+PING", .ping), ("+MAC", .mac), ("+WQSOPT", .wqsopt), ("+WSCANAP", .wscanap),
    ("+WSTOP", .wstop), ("+WPHYMODE", .wphymode), ("+WTXRATE", .wtxrate), ("+WSBCN", .wsbcn),
    ("+WSCAP", .wscap), ("+WSMTCONF", .wsmtconf), ("+NQSCNN", .nqscnn), ("+NLOCIP", .nlocip),
    ("+WSACONF", .wsaconf), ("+AIRKISS", .airkiss), ("+BCTTXSTART", .bcttxstart),
    ("+BCTTXSTOP", .bcttxstop), ("+BCTTXDATA", .bcttxdata), ("+BCTRXSTART", .bctrxstart),
    ("+BCTRXSTOP", .bctrxstop), ("+QUIT", .quit)]

/-- The chain of `strcmp`s in `stringTorequest`; `none` is `INVALID_COMMAND`. -/
def compareRequest (str : List UInt8) : Option Request :=
  (requestStrings.find? fun p => ascii p.1 = str).map Prod.snd

/-! ### `stringTorequest` -/

/-- The upper-casing loop of `stringTorequest`, with its 8-bit counter `i`. -/
def toupperLoop (str : ℕ) : ℕ → Memory → ℕ → Option Memory
  | 0, _, _ => none
  | fuel + 1, m, i =>
      -- The condition `i < strlen(str)` is evaluated anew at every turn.
      (cString m (uartRecAtcmdEnd - str) str).bind fun s =>
        if i < s.length then
          toupperLoop str fuel (store8 m (str + i) (toupper (m (str + i)))) ((i + 1) % 256)
        else some m

/-- `stringTorequest`: the string is upper-cased in place. -/
def stringTorequest (m : Memory) (str : ℕ) : Option (Memory × Option Request) :=
  (toupperLoop str 256 m 0).bind fun m =>
    (cString m (uartRecAtcmdEnd - str) str).map fun s => (m, compareRequest s)

/-! ### `processCommand` and `parseParameter` -/

/-- What the command layer does: call a response function, or print a line. -/
inductive AtEvent where
  | call (responseFunction : AtHandler) (argc : ℕ) (argv : List (List UInt8))
  | print (line : String)
deriving DecidableEq, Repr

/-- The line for `INVALID_COMMAND`, which is -1. -/
def invalidCommand : AtEvent := .print "+ERROR= -1\n\r"

/-- `processCommand`; `argv` lists the pointers up to `argc`. -/
def processCommand (m : Memory) (argv : List ℕ) : Option (Memory × AtEvent) :=
  match argv with
  | [] => some (m, .print "+ERROR=-1\n\r")
  | arg0 :: _ =>
      (stringTorequest m arg0).bind fun r =>
        match sAtCommands.find? fun c => r.2 = some c.requestNumber with
        | some c =>
            (argv.mapM fun p => cString r.1 (uartRecAtcmdEnd - p) p).map fun args =>
              (r.1, .call c.responseFunction argv.length args)
        | none => some (r.1, invalidCommand)

/-- The inner loop of `parseParameter`; each turn stores into `argv[argc]`. -/
def parseArguments : ℕ → Memory → Option ℕ → List ℕ → Option (Memory × List ℕ)
  | 0, _, _, _ => none
  | fuel + 1, m, p, argv =>
      -- The source has no such test: the store would be out of bounds.
      if maxSingleParameter ≤ argv.length then none
      else (strsep m p [44]).bind fun r =>
        match r.2.2 with
        | some tok => parseArguments fuel r.1 r.2.1 (argv ++ [tok])
        | none => some (r.1, argv)

/-- `parseParameter`.  The outer loop is entered only with `p` not null, and the inner one
    leaves it null. -/
def parseParameter (m : Memory) (args : ℕ) : Option (Memory × AtEvent) :=
  (strsep m (some args) [61]).bind fun r =>
    match r.2.1 with
    | none => processCommand r.1 r.2.2.toList
    | some p =>
        (parseArguments maxSingleParameter r.1 (some p) r.2.2.toList).bind fun a =>
          processCommand a.1 a.2

end SerialNet
