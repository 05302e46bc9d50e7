import SerialNet.Lib.Writer
import SerialNet.Heap.Malloc
import SerialNet.Dns.Policy

namespace SerialNet

/-!
# DNS replies in memory, and what they decode to

`Dns.Server` has the replies as records.  Here the two generators are modelled as they work: the
buffer is taken from the system heap with a size that is computed on its own, and is filled field
by field through a pointer, next to a running length.  What they leave in the buffer are the bytes
of the record (`DnsReply.bytes`), which are sent whole and stay inside the buffer.  The name is
copied by its `strlen`, which is at most 4095: of a longer name the reply has 4096 characters and
no zero, and does not decode to the question any more (`replies_decode_iff`).

`decodeDns` reads a message the way the protocol says, with its fields in network order.  The name
of the question is taken up to its zero, as the server does, so that it may be any string; the name
of a record is a pointer into the message.
-/

/-! ### The generators -/

/-- `sizeof(DNS_QUERY)`: type and class. -/
def sizeofDnsQuery : ℕ := 4
/-- `sizeof(DNS_ANSWER)`: type, class and time to live. -/
def sizeofDnsAnswer : ℕ := 8

/-- `DNS_QUERY` in memory. -/
def DnsQuery.bytes (query : DnsQuery) : List UInt8 :=
  halfBytes query.rrType ++ halfBytes query.rrClass

/-- `NST_MOVE_MEM(Body, p, n)`, whose length is converted to 16 bits. -/
def Writer.moveMem (w : Writer) (p n : ℕ) : Writer := w.move (loadBytes w.mem p (n % 65536))

/-- The header that a generator stores at `pDnsReply`. -/
def dnsHeader (m : Memory) (pDnsReply tansactionId : ℕ) (dnsFlag2 : UInt8) (answerRR : ℕ) :
    Memory :=
  let m := store16 m pDnsReply tansactionId
  let m := store8 m (pDnsReply + offDnsFlag1) dnsFlag1Response
  let m := store8 m (pDnsReply + 3) dnsFlag2
  let m := store16 m (pDnsReply + 4) (htons 1)
  let m := store16 m (pDnsReply + 6) answerRR
  let m := store16 m (pDnsReply + 8) 0
  store16 m (pDnsReply + 10) 0

/-- The question's name: `NST_MOVE_MEM(Body, QueryName, strlen(QueryName) + 1)`, and `Body` and `Len`
    are moved on.  `strlen` is called anew for each. -/
def Writer.moveName (w : Writer) (queryName : ℕ) : Writer :=
  let w := w.moveMem queryName (strlen w.mem queryName + 1)
  let w := w.advance (strlen w.mem queryName + 1)
  w.addLen (strlen w.mem queryName + 1)

/-- `_DNSNameErrGenAndSend` once the buffer is there, at `pDnsReply`.  `queryName` is the pointer
    to the name. -/
def dnsNameErrGen (query : DnsQuery) (queryName tansactionId : ℕ) (m : Memory) (pDnsReply : ℕ) :
    Writer :=
  let w : Writer := ⟨dnsHeader m pDnsReply tansactionId dnsFlag2ErrName 0,
    pDnsReply + sizeofDnsHeader, 0⟩
  let w := w.addLen sizeofDnsHeader
  -- Query.
  let w := w.moveName queryName
  let w := w.move query.bytes
  w.addLen sizeofDnsQuery

/-- `_DNSAnswerGenAndSend` once the buffer is there; `server` is the static `DnsServer`. -/
def dnsAnswerGen (server : Memory) (query : DnsQuery) (queryName tansactionId : ℕ) (m : Memory)
    (pDnsReply : ℕ) : Writer :=
  let w : Writer := ⟨dnsHeader m pDnsReply tansactionId dnsFlag2ErrNone (htons 1),
    pDnsReply + sizeofDnsHeader, 0⟩
  let w := w.addLen sizeofDnsHeader
  -- Query.
  let w := w.moveName queryName
  let w := w.move query.bytes
  let w := w.advance sizeofDnsQuery
  let w := w.addLen sizeofDnsQuery
  -- Name, provided as offset to first occurrence in response.
  let w := w.move (halfBytes (htons (dnsNameOffset ||| sizeofDnsHeader)))
  let w := w.advance 2
  let w := w.addLen 2
  -- Answer.
  let w := w.move (halfBytes (htons dnsRrtypeA) ++ halfBytes (htons dnsRrclassIn)
    ++ wordBytes (ntohl dnsDefaultTtl).toNat)
  let w := w.advance sizeofDnsAnswer
  let w := w.addLen sizeofDnsAnswer
  -- Length.
  let w := w.move (halfBytes (htons 4))
  let w := w.advance 2
  let w := w.addLen 2
  -- IP address.
  let w := w.move (wordBytes (load32 server offHostIp))
  let w := w.advance 4
  w.addLen 4

/-- The common course of the generators: a buffer of `size` bytes is filled by `gen` and sent.
    `pbuf` says whether `pbuf_alloc` succeeds, which takes the length as 16 bits.  The result is
    the heap, and the bytes that are handed to `udp_sendto`. -/
def dnsGenAndSend (size : ℕ) (gen : Memory → ℕ → Writer) (s : Heap) (pool : ℕ) (pbuf : Bool) :
    Option (Heap × Option (List UInt8)) :=
  (osmMalloc s pool size).map fun (s, pDnsReply) =>
    if pDnsReply = 0 then (s, none)
    else
      let w := gen s.mem pDnsReply
      let s := { s with mem := w.mem }
      if ¬ pbuf then (osmFree s pDnsReply, none)
      else (osmFree s pDnsReply, some (loadBytes w.mem pDnsReply (w.len % 65536)))

/-- The size that `_DNSNameErrGenAndSend` allocates for the name at `queryName`. -/
def dnsNameErrSize (m : Memory) (queryName : ℕ) : ℕ :=
  u32 (sizeofDnsHeader + (strlen m queryName + 1) + sizeofDnsQuery + 3) / 4 * 4

/-- The size of a name error in closed form. -/
theorem dnsNameErrSize_eq (m : Memory) (queryName : ℕ) :
    dnsNameErrSize m queryName = (strlen m queryName + 20) / 4 * 4 := by
  have hle : strlen m queryName ≤ 4095 := strLenN_le _ _ _
  unfold dnsNameErrSize u32 sizeofDnsHeader sizeofDnsQuery
  omega

/-- The size that `_DNSAnswerGenAndSend` allocates. -/
def dnsAnswerSize (m : Memory) (queryName : ℕ) : ℕ :=
  u32 (sizeofDnsHeader + (strlen m queryName + 1) + sizeofDnsQuery + 2 + sizeofDnsAnswer + 2 + 4 + 3)
    / 4 * 4

/-- The size of an answer in closed form. -/
theorem dnsAnswerSize_eq (m : Memory) (queryName : ℕ) :
    dnsAnswerSize m queryName = (strlen m queryName + 36) / 4 * 4 := by
  have hle : strlen m queryName ≤ 4095 := strLenN_le _ _ _
  unfold dnsAnswerSize u32 sizeofDnsHeader sizeofDnsQuery sizeofDnsAnswer
  omega

/-! ### Decoding -/

/-- A resource record whose name is a pointer, with the name that it denotes. -/
structure DnsRecord where
  pointer : UInt16
  name : List UInt8
  rrType : UInt16
  rrClass : UInt16
  ttl : UInt32
  data : List UInt8
deriving DecidableEq

/-- A message with one question. -/
structure DnsDecoded where
  id : UInt16
  response : Bool
  rcode : UInt8
  name : List UInt8
  rrType : UInt16
  rrClass : UInt16
  answers : List DnsRecord
  authorityRR : UInt16
  additionalRR : UInt16
deriving DecidableEq

/-- A field of 16 bits, and what follows it. -/
def decode16 : List UInt8 → Option (UInt16 × List UInt8)
  | hi :: lo :: rest => some (.ofNat (256 * hi.toNat + lo.toNat), rest)
  | _ => none

/-- A field of 32 bits. -/
def decode32 (bytes : List UInt8) : Option (UInt32 × List UInt8) := do
  let (hi, bytes) ← decode16 bytes
  let (lo, bytes) ← decode16 bytes
  return (.ofNat (65536 * hi.toNat + lo.toNat), bytes)

/-- A string up to its zero. -/
def decodeString : List UInt8 → Option (List UInt8 × List UInt8)
  | [] => none
  | b :: rest => if b = 0 then some ([], rest) else (decodeString rest).map fun r => (b :: r.1, r.2)

/-- What a pointer in the message `msg` denotes: its two highest bits are set, and the others are
    the offset of a string. -/
def decodePointer (msg : List UInt8) (pointer : UInt16) : Option (List UInt8) :=
  if 0xC000 ≤ pointer then (decodeString (msg.drop (pointer.toNat - 0xC000))).map Prod.fst else none

/-- A resource record of the message `msg`. -/
def decodeRecord (msg bytes : List UInt8) : Option (DnsRecord × List UInt8) := do
  let (pointer, bytes) ← decode16 bytes
  let name ← decodePointer msg pointer
  let (rrType, bytes) ← decode16 bytes
  let (rrClass, bytes) ← decode16 bytes
  let (ttl, bytes) ← decode32 bytes
  let (length, bytes) ← decode16 bytes
  guard (length.toNat ≤ bytes.length)
  return (⟨pointer, name, rrType, rrClass, ttl, bytes.take length.toNat⟩, bytes.drop length.toNat)

/-- `n` resource records. -/
def decodeRecords (msg : List UInt8) : ℕ → List UInt8 → Option (List DnsRecord × List UInt8)
  | 0, bytes => some ([], bytes)
  | n + 1, bytes => do
      let (record, bytes) ← decodeRecord msg bytes
      let (records, bytes) ← decodeRecords msg n bytes
      return (record :: records, bytes)

/-- A message with one question and answers, and nothing behind them. -/
def decodeDns (msg : List UInt8) : Option DnsDecoded := do
  let (id, bytes) ← decode16 msg
  let (flags, bytes) ← decode16 bytes
  let (questions, bytes) ← decode16 bytes
  let (answerRR, bytes) ← decode16 bytes
  let (authorityRR, bytes) ← decode16 bytes
  let (additionalRR, bytes) ← decode16 bytes
  guard (questions = 1)
  let (name, bytes) ← decodeString bytes
  let (rrType, bytes) ← decode16 bytes
  let (rrClass, bytes) ← decode16 bytes
  let (answers, bytes) ← decodeRecords msg answerRR.toNat bytes
  guard (bytes = [])
  return { id := id, response := 0x8000 ≤ flags, rcode := .ofNat (flags.toNat % 16), name := name
           rrType := rrType, rrClass := rrClass, answers := answers, authorityRR := authorityRR
           additionalRR := additionalRR }

/-! ### The bytes of a reply -/

/-- An answer record in memory. -/
def DnsAnswer.bytes (a : DnsAnswer) : List UInt8 :=
  halfBytes a.name ++ (halfBytes a.rrType ++ halfBytes a.rrClass ++ wordBytes a.ttl.toNat)
    ++ halfBytes a.length ++ wordBytes a.ipAddr

/-- The header of a reply in memory. -/
def DnsReply.header (r : DnsReply) : List UInt8 :=
  halfBytes r.tansactionId ++ [r.dnsFlag1] ++ [r.dnsFlag2] ++ halfBytes r.quentions
    ++ halfBytes r.answerRR ++ halfBytes r.authorityRR ++ halfBytes r.additionalRR

/-- A reply in memory. -/
def DnsReply.bytes (r : DnsReply) : List UInt8 :=
  r.header ++ r.queryName ++ r.query.bytes ++ (r.answer.elim [] DnsAnswer.bytes)

/-! ### What the generators leave in the buffer -/

/-- `w` has built the reply `r` at `p`, over the memory `m`. -/
structure Builds (r : DnsReply) (m : Memory) (p : ℕ) (w : Writer) : Prop where
  mem : w.mem = storeBytes m p r.bytes
  len : w.len = r.bytes.length

section Build

variable {m : Memory} {p q : ℕ} {name bytes : List UInt8} {w : Writer}

/-- What is copied of a name and its NUL. -/
def copiedName (name : List UInt8) : List UInt8 := (name ++ [0]).take (defStrlenMaxVal + 1)

/-- What is copied of a name, with or without its NUL. -/
theorem length_copiedName (name : List UInt8) :
    (copiedName name).length = min name.length defStrlenMaxVal + 1 := by
  rw [copiedName, List.length_take, List.length_append, List.length_singleton, Nat.min_comm,
    Nat.add_min_add_right]

/-- A name that `strlen` counts to its end is copied with its NUL. -/
theorem copiedName_of_le (hlen : name.length ≤ defStrlenMaxVal) :
    copiedName name = name ++ [0] :=
  List.take_of_length_le (by rw [List.length_append, List.length_singleton]; omega)

/-- The header is stored field behind field. -/
theorem dnsHeader_eq (m : Memory) (p tansactionId : ℕ) (dnsFlag2 : UInt8) (answerRR : ℕ) :
    dnsHeader m p tansactionId dnsFlag2 answerRR
      = storeBytes m p (halfBytes tansactionId ++ [dnsFlag1Response] ++ [dnsFlag2]
          ++ halfBytes (htons 1) ++ halfBytes answerRR ++ halfBytes 0 ++ halfBytes 0) := by
  unfold dnsHeader store16
  dsimp only
  rw [← storeBytes_append, ← storeBytes_append, ← storeBytes_append, ← storeBytes_append,
    ← storeBytes_append, ← storeBytes_append, store8_eq_storeBytes, store8_eq_storeBytes]
  rfl

/-- The name that lies at `q` is put behind what was written, if none of it is overwritten. -/
theorem Wrote.moveName (h : Wrote m p bytes w) (hname : BytesAt m q (name ++ [0])) (hnul : 0 ∉ name)
    (hdisj : q + (name.length + 1) ≤ p ∨ p + (bytes.length + (copiedName name).length) ≤ q) :
    w.moveName q = w.put (copiedName name) := by
  have hcopied := length_copiedName name
  unfold defStrlenMaxVal at hcopied
  have hkept {xs : List UInt8} (hxs : xs.length ≤ bytes.length + (copiedName name).length) :
      BytesAt (storeBytes m p xs) q (name ++ [0]) := by
    refine hname.congr fun x hlo hhi => storeBytes_outside m ?_
    rw [List.length_append, List.length_singleton] at hhi
    omega
  have hlen {xs : List UInt8} (hxs : xs.length ≤ bytes.length + (copiedName name).length) :
      strlen (storeBytes m p xs) q + 1 = (copiedName name).length := by
    rw [strlen_of_bytesAt (hkept hxs) hnul, length_copiedName]
  have hread : loadBytes w.mem q (copiedName name).length = copiedName name := by
    have hall := loadBytes_of_bytesAt (hkept (Nat.le_add_right _ _))
    rw [← h.mem, List.length_append, List.length_singleton] at hall
    rw [← take_loadBytes w.mem q (show (copiedName name).length ≤ name.length + 1 by omega), hall]
    exact (List.prefix_iff_eq_take.mp (List.take_prefix ..)).symm
  have hmove : w.moveMem q (strlen w.mem q + 1) = w.move (copiedName name) := by
    rw [Writer.moveMem, h.mem, hlen (Nat.le_add_right _ _), ← h.mem, Nat.mod_eq_of_lt (by omega),
      hread]
  have hafter : strlen (w.move (copiedName name)).mem q + 1 = (copiedName name).length := by
    rw [h.move_mem]
    exact hlen (List.length_append ..).le
  show ((w.moveMem q (strlen w.mem q + 1)).advance
    (strlen (w.moveMem q (strlen w.mem q + 1)).mem q + 1)).addLen
    (strlen (w.moveMem q (strlen w.mem q + 1)).mem q + 1) = _
  rw [hmove, hafter]
  rfl

/-- The name-error generator builds its reply. -/
theorem dnsNameErrGen_builds (query : DnsQuery) (tansactionId : ℕ)
    (hname : BytesAt m q (name ++ [0])) (hnul : 0 ∉ name)
    (hdisj : q + (name.length + 1) ≤ p ∨ p + (sizeofDnsHeader + (copiedName name).length) ≤ q) :
    ∃ r, dnsNameErrGenAndSend ⟨true, true, true⟩ query (copiedName name) tansactionId = some r ∧
      Builds r m p (dnsNameErrGen query q tansactionId m p) := by
  have hheader : Wrote m p _ (⟨dnsHeader m p tansactionId dnsFlag2ErrName 0, p + sizeofDnsHeader,
      sizeofDnsHeader⟩ : Writer) := ⟨dnsHeader_eq _ _ _ _ _, rfl⟩
  have hgen : dnsNameErrGen query q tansactionId m p = _ :=
    congrArg (fun w : Writer => (w.move query.bytes).addLen sizeofDnsQuery)
      (hheader.moveName hname hnul hdisj)
  refine ⟨_, rfl, ?_, ?_⟩
  · rw [hgen, DnsReply.bytes, Option.elim_none, List.append_nil]
    exact (hheader.put (copiedName name)).move_mem query.bytes
  · rw [hgen, DnsReply.bytes, Option.elim_none, List.append_nil]
    simp only [Writer.addLen, Writer.move, Writer.put_len, List.length_append]
    rfl

/-- So does the generator of answers. -/
theorem dnsAnswerGen_builds (server : Memory) (query : DnsQuery) (tansactionId : ℕ)
    (hname : BytesAt m q (name ++ [0])) (hnul : 0 ∉ name)
    (hdisj : q + (name.length + 1) ≤ p ∨ p + (sizeofDnsHeader + (copiedName name).length) ≤ q) :
    ∃ r, dnsAnswerGenAndSend server ⟨true, true, true⟩ query (copiedName name) tansactionId
        = some r ∧
      Builds r m p (dnsAnswerGen server query q tansactionId m p) := by
  have hheader : Wrote m p _ (⟨dnsHeader m p tansactionId dnsFlag2ErrNone (htons 1),
      p + sizeofDnsHeader, sizeofDnsHeader⟩ : Writer) := ⟨dnsHeader_eq _ _ _ _ _, rfl⟩
  have hgen : dnsAnswerGen server query q tansactionId m p = _ :=
    congrArg (fun w : Writer => ((((w.put query.bytes).put
      (halfBytes (htons (dnsNameOffset ||| sizeofDnsHeader)))).put
      (halfBytes (htons dnsRrtypeA) ++ halfBytes (htons dnsRrclassIn)
        ++ wordBytes (ntohl dnsDefaultTtl).toNat)).put (halfBytes (htons 4))).put
      (wordBytes (load32 server offHostIp))) (hheader.moveName hname hnul hdisj)
  have hwrote := (((((hheader.put (copiedName name)).put query.bytes).put
    (halfBytes (htons (dnsNameOffset ||| sizeofDnsHeader)))).put
    (halfBytes (htons dnsRrtypeA) ++ halfBytes (htons dnsRrclassIn)
      ++ wordBytes (ntohl dnsDefaultTtl).toNat)).put (halfBytes (htons 4))).put
    (wordBytes (load32 server offHostIp))
  refine ⟨_, rfl, ?_, ?_⟩
  · rw [hgen, DnsReply.bytes, Option.elim_some, DnsAnswer.bytes, hwrote.mem]
    simp only [List.append_assoc, DnsReply.header]
  · rw [hgen, DnsReply.bytes, Option.elim_some, DnsAnswer.bytes]
    simp only [Writer.put_len, List.length_append]
    rfl

end Build

/-! ### Decoding what was built -/

/-- A half-word is decoded as it was written. -/
theorem decode16_be16 (x : UInt16) (rest : List UInt8) :
    decode16 (be16 x ++ rest) = some (x, rest) := by
  have hlt := x.toNat_lt
  have hvalue : 256 * (x.toNat / 256 % 256) + x.toNat % 256 = x.toNat := by omega
  simp only [be16, List.cons_append, List.nil_append, decode16, UInt8.toNat_ofNat']
  rw [hvalue, UInt16.ofNat_toNat]

/-- A value in network order is stored as the protocol has it. -/
theorem halfBytes_htons (x : UInt16) : halfBytes (htons x.toNat) = be16 x := by
  have hlt := x.toNat_lt
  have hlo : UInt8.ofNat (htons x.toNat) = UInt8.ofNat (x.toNat / 256) := by
    apply UInt8.toNat.inj
    rw [UInt8.toNat_ofNat', UInt8.toNat_ofNat', htons]
    omega
  have hhi : UInt8.ofNat (htons x.toNat / 256) = UInt8.ofNat x.toNat := by
    have hdiv : htons x.toNat / 256 = x.toNat % 256 := by
      rw [htons, Nat.add_comm, Nat.add_mul_div_right _ _ (by decide),
        Nat.div_eq_of_lt (Nat.mod_lt _ (by decide)), Nat.zero_add]
    apply UInt8.toNat.inj
    rw [UInt8.toNat_ofNat', UInt8.toNat_ofNat', hdiv, Nat.mod_mod]
  rw [halfBytes, be16, hlo, hhi]

/-- A string is decoded up to its NUL. -/
theorem decodeString_append {name : List UInt8} (hnul : 0 ∉ name) (rest : List UInt8) :
    decodeString (name ++ 0 :: rest) = some (name, rest) := by
  induction name with
  | nil => rfl
  | cons b name ih =>
    rw [List.mem_cons, not_or] at hnul
    rw [List.cons_append, decodeString, if_neg fun hb => hnul.1 hb.symm, ih hnul.2]
    rfl

/-- The pointer of an answer denotes what lies behind the header. -/
theorem decodePointer_header {msg name rest : List UInt8} (hnul : 0 ∉ name)
    (hmsg : msg.drop sizeofDnsHeader = name ++ 0 :: rest) :
    decodePointer msg 0xC00C = some name := by
  have hoffset : (0xC00C : UInt16).toNat - 0xC000 = sizeofDnsHeader := rfl
  rw [decodePointer, if_pos (by decide), hoffset, hmsg, decodeString_append hnul]
  rfl

/-- The header and the question, as the protocol has them; `queryName` is to end with a zero. -/
def questionBytes (id flags answerRR : UInt16) (queryName : List UInt8)
    (rrType rrClass : UInt16) : List UInt8 :=
  be16 id ++ (be16 flags ++ (be16 1 ++ (be16 answerRR ++ (be16 0 ++ (be16 0 ++ (queryName ++
    (be16 rrType ++ be16 rrClass)))))))

/-- Header, name, type and class. -/
theorem length_questionBytes (id flags answerRR rrType rrClass : UInt16) (queryName : List UInt8) :
    (questionBytes id flags answerRR queryName rrType rrClass).length = 16 + queryName.length := by
  simp only [questionBytes, be16, List.length_append, List.length_cons, List.length_nil]
  omega

/-- A message is decoded when its answers are. -/
theorem decodeDns_of_records {id flags answerRR rrType rrClass : UInt16} {name records : List UInt8}
    {answers : List DnsRecord} (hnul : 0 ∉ name)
    (hanswers : decodeRecords
      (questionBytes id flags answerRR (name ++ [0]) rrType rrClass ++ records)
      answerRR.toNat records = some (answers, [])) :
    decodeDns (questionBytes id flags answerRR (name ++ [0]) rrType rrClass ++ records)
      = some { id := id, response := 0x8000 ≤ flags, rcode := .ofNat (flags.toNat % 16)
               name := name, rrType := rrType, rrClass := rrClass, answers := answers
               authorityRR := 0, additionalRR := 0 } := by
  generalize hmsg : questionBytes id flags answerRR (name ++ [0]) rrType rrClass ++ records = msg
    at hanswers
  have hid : decode16 msg = some (id, be16 flags ++ (be16 1 ++ (be16 answerRR ++ (be16 0 ++ (be16 0
      ++ (name ++ 0 :: (be16 rrType ++ (be16 rrClass ++ records)))))))) := by
    rw [← hmsg, ← decode16_be16]
    simp only [questionBytes, List.append_assoc, List.cons_append, List.nil_append]
  -- field by field
  refine Option.bind_eq_some_iff.mpr ⟨_, hid, ?_⟩
  refine Option.bind_eq_some_iff.mpr ⟨_, decode16_be16 flags _, ?_⟩
  refine Option.bind_eq_some_iff.mpr ⟨_, decode16_be16 1 _, ?_⟩
  refine Option.bind_eq_some_iff.mpr ⟨_, decode16_be16 answerRR _, ?_⟩
  refine Option.bind_eq_some_iff.mpr ⟨_, decode16_be16 0 _, ?_⟩
  refine Option.bind_eq_some_iff.mpr ⟨_, decode16_be16 0 _, ?_⟩
  refine Option.bind_eq_some_iff.mpr ⟨(), if_pos rfl, ?_⟩
  refine Option.bind_eq_some_iff.mpr ⟨_, decodeString_append hnul _, ?_⟩
  refine Option.bind_eq_some_iff.mpr ⟨_, decode16_be16 rrType _, ?_⟩
  refine Option.bind_eq_some_iff.mpr ⟨_, decode16_be16 rrClass _, ?_⟩
  refine Option.bind_eq_some_iff.mpr ⟨_, hanswers, ?_⟩
  exact Option.bind_eq_some_iff.mpr ⟨(), if_pos rfl, rfl⟩

/-- The answer record, as the protocol has it. -/
def answerBytes (ipAddr : List UInt8) : List UInt8 :=
  be16 0xC00C ++ (be16 1 ++ (be16 1 ++ (be16 0 ++ (be16 3600 ++ (be16 4 ++ ipAddr)))))

/-- Pointer, type, class, time to live, length and the address. -/
theorem length_answerBytes (ipAddr : List UInt8) :
    (answerBytes ipAddr).length = 12 + ipAddr.length := by
  simp only [answerBytes, be16, List.length_append, List.length_cons, List.length_nil]
  omega

/-- What a name error decodes to. -/
def nameError (id : UInt16) (name : List UInt8) (rrType rrClass : UInt16) : DnsDecoded where
  id := id
  response := true
  rcode := 3
  name := name
  rrType := rrType
  rrClass := rrClass
  answers := []
  authorityRR := 0
  additionalRR := 0

/-- What an answer with the address `ipAddr` decodes to. -/
def addressAnswer (id : UInt16) (name : List UInt8) (rrType rrClass : UInt16)
    (ipAddr : List UInt8) : DnsDecoded :=
  { nameError id name rrType rrClass with
    rcode := 0
    answers := [{ pointer := 0xC00C, name := name, rrType := 1, rrClass := 1, ttl := 3600
                  data := ipAddr }] }

/-- A name error decodes to the question with its response code. -/
theorem decodeDns_nameError {name : List UInt8} (hnul : 0 ∉ name) (id rrType rrClass : UInt16) :
    decodeDns (questionBytes id 0x8003 0 (name ++ [0]) rrType rrClass)
      = some (nameError id name rrType rrClass) := by
  have hdecode : decodeDns (questionBytes id 0x8003 0 (name ++ [0]) rrType rrClass ++ [])
      = some (nameError id name rrType rrClass) := decodeDns_of_records hnul rfl
  rw [List.append_nil] at hdecode
  exact hdecode

/-- An answer decodes to the question with one record, whose name is the question's. -/
theorem decodeDns_addressAnswer {name ipAddr : List UInt8} (hnul : 0 ∉ name)
    (hip : ipAddr.length = 4) (id rrType rrClass : UInt16) :
    decodeDns (questionBytes id 0x8000 1 (name ++ [0]) rrType rrClass ++ answerBytes ipAddr)
      = some (addressAnswer id name rrType rrClass ipAddr) := by
  apply decodeDns_of_records hnul
  generalize hmsg :
    questionBytes id 0x8000 1 (name ++ [0]) rrType rrClass ++ answerBytes ipAddr = msg
  have hpointer : decodePointer msg 0xC00C = some name := by
    have hdrop : msg.drop sizeofDnsHeader
        = name ++ 0 :: (be16 rrType ++ be16 rrClass ++ answerBytes ipAddr) := by
      rw [← hmsg]
      show name ++ [0] ++ (be16 rrType ++ be16 rrClass) ++ answerBytes ipAddr = _
      simp only [List.append_assoc, List.cons_append, List.nil_append]
    exact decodePointer_header hnul hdrop
  have hrecord : decodeRecord msg (answerBytes ipAddr)
      = some (⟨0xC00C, name, 1, 1, 3600, ipAddr⟩, []) := by
    have hlen : (4 : UInt16).toNat = ipAddr.length := hip.symm
    rw [answerBytes, decodeRecord]
    simp only [Option.bind_eq_bind, Option.bind_some, decode16_be16, hpointer, decode32, pure,
      hlen, guard, le_refl, if_true, List.take_length, List.drop_length]
    rfl
  show (decodeRecord msg (answerBytes ipAddr)).bind _ = _
  rw [hrecord]
  rfl

/-! ### How long a message is that decodes -/

/-- A half-word takes two bytes. -/
theorem decode16_length {bytes rest : List UInt8} {x : UInt16}
    (h : decode16 bytes = some (x, rest)) : bytes.length = 2 + rest.length := by
  match bytes with
  | hi :: lo :: bytes =>
    obtain rfl := congrArg Prod.snd (Option.some.inj h)
    rw [List.length_cons, List.length_cons, Nat.add_comm 2]

/-- A word takes four bytes. -/
theorem decode32_length {bytes rest : List UInt8} {x : UInt32}
    (h : decode32 bytes = some (x, rest)) : bytes.length = 4 + rest.length := by
  obtain ⟨⟨hi, bytes₁⟩, h₁, h⟩ := Option.bind_eq_some_iff.mp h
  obtain ⟨⟨lo, bytes₂⟩, h₂, h⟩ := Option.bind_eq_some_iff.mp h
  obtain ⟨-, rfl⟩ := Prod.mk.inj (Option.some.inj h)
  rw [decode16_length h₁, decode16_length h₂]
  omega

/-- A string takes its bytes and the NUL. -/
theorem decodeString_length {bytes rest name : List UInt8}
    (h : decodeString bytes = some (name, rest)) :
    bytes.length = name.length + 1 + rest.length := by
  induction bytes generalizing name with
  | nil => cases h
  | cons b bytes ih =>
    rw [decodeString] at h
    split at h
    · obtain ⟨rfl, rfl⟩ := Prod.mk.inj (Option.some.inj h)
      rw [List.length_cons, List.length_nil, Nat.zero_add, Nat.add_comm]
    · obtain ⟨⟨name', rest'⟩, h', heq⟩ := Option.map_eq_some_iff.mp h
      simp only [Prod.mk.injEq] at heq
      obtain ⟨rfl, rfl⟩ := heq
      rw [List.length_cons, List.length_cons, ih h']
      omega

/-- A record takes twelve bytes and its data. -/
theorem decodeRecord_length {msg bytes rest : List UInt8} {record : DnsRecord}
    (h : decodeRecord msg bytes = some (record, rest)) :
    bytes.length = 12 + record.data.length + rest.length := by
  obtain ⟨⟨pointer, bytes₁⟩, h₁, h⟩ := Option.bind_eq_some_iff.mp h
  obtain ⟨name, -, h⟩ := Option.bind_eq_some_iff.mp h
  obtain ⟨⟨rrType, bytes₂⟩, h₂, h⟩ := Option.bind_eq_some_iff.mp h
  obtain ⟨⟨rrClass, bytes₃⟩, h₃, h⟩ := Option.bind_eq_some_iff.mp h
  obtain ⟨⟨ttl, bytes₄⟩, h₄, h⟩ := Option.bind_eq_some_iff.mp h
  obtain ⟨⟨length, bytes₅⟩, h₅, h⟩ := Option.bind_eq_some_iff.mp h
  obtain ⟨-, -, h⟩ := Option.bind_eq_some_iff.mp h
  obtain ⟨rfl, rfl⟩ := Prod.mk.inj (Option.some.inj h)
  have hdata : (bytes₅.take length.toNat).length + (bytes₅.drop length.toNat).length
      = bytes₅.length := by
    rw [← List.length_append, List.take_append_drop]
  rw [decode16_length h₁, decode16_length h₂, decode16_length h₃, decode32_length h₄,
    decode16_length h₅]
  dsimp only
  omega

/-- Records lie one behind the other. -/
theorem decodeRecords_length {msg : List UInt8} {n : ℕ} {bytes rest : List UInt8}
    {records : List DnsRecord} (h : decodeRecords msg n bytes = some (records, rest)) :
    bytes.length = (records.map fun r => 12 + r.data.length).sum + rest.length := by
  induction n generalizing bytes records with
  | zero =>
    obtain ⟨rfl, rfl⟩ := Prod.mk.inj (Option.some.inj h)
    simp
  | succ n ih =>
    obtain ⟨⟨record, bytes₁⟩, h₁, h⟩ := Option.bind_eq_some_iff.mp h
    obtain ⟨⟨records', bytes₂⟩, h₂, h⟩ := Option.bind_eq_some_iff.mp h
    obtain ⟨rfl, rfl⟩ := Prod.mk.inj (Option.some.inj h)
    rw [decodeRecord_length h₁, ih h₂, List.map_cons, List.sum_cons]
    omega

/-- A message that decodes has the header, the question and the answers, and no byte more. -/
theorem decodeDns_length {msg : List UInt8} {d : DnsDecoded} (h : decodeDns msg = some d) :
    msg.length = 17 + d.name.length + (d.answers.map fun r => 12 + r.data.length).sum := by
  obtain ⟨⟨id, bytes₁⟩, h₁, h⟩ := Option.bind_eq_some_iff.mp h
  obtain ⟨⟨flags, bytes₂⟩, h₂, h⟩ := Option.bind_eq_some_iff.mp h
  obtain ⟨⟨questions, bytes₃⟩, h₃, h⟩ := Option.bind_eq_some_iff.mp h
  obtain ⟨⟨answerRR, bytes₄⟩, h₄, h⟩ := Option.bind_eq_some_iff.mp h
  obtain ⟨⟨authorityRR, bytes₅⟩, h₅, h⟩ := Option.bind_eq_some_iff.mp h
  obtain ⟨⟨additionalRR, bytes₆⟩, h₆, h⟩ := Option.bind_eq_some_iff.mp h
  obtain ⟨-, -, h⟩ := Option.bind_eq_some_iff.mp h
  obtain ⟨⟨name, bytes₇⟩, h₇, h⟩ := Option.bind_eq_some_iff.mp h
  obtain ⟨⟨rrType, bytes₈⟩, h₈, h⟩ := Option.bind_eq_some_iff.mp h
  obtain ⟨⟨rrClass, bytes₉⟩, h₉, h⟩ := Option.bind_eq_some_iff.mp h
  obtain ⟨⟨answers, rest⟩, hanswers, h⟩ := Option.bind_eq_some_iff.mp h
  obtain ⟨_, hend, h⟩ := Option.bind_eq_some_iff.mp h
  obtain rfl := Option.some.inj h
  obtain rfl : rest = [] := by
    by_contra hrest
    rw [guard, if_neg hrest] at hend
    cases hend
  rw [decode16_length h₁, decode16_length h₂, decode16_length h₃, decode16_length h₄,
    decode16_length h₅, decode16_length h₆, decodeString_length h₇, decode16_length h₈,
    decode16_length h₉, decodeRecords_length hanswers, List.length_nil]
  dsimp only
  omega

section Copied

variable {name ipAddr : List UInt8} (hnul : 0 ∉ name) (id rrType rrClass : UInt16)
include hnul

/-- A name error with the copied name decodes to the question if the whole name was copied. -/
theorem decodeDns_nameError_iff :
    decodeDns (questionBytes id 0x8003 0 (copiedName name) rrType rrClass)
        = some (nameError id name rrType rrClass) ↔ name.length ≤ defStrlenMaxVal := by
  constructor
  · intro hdecode
    have hlen := decodeDns_length hdecode
    rw [length_questionBytes, length_copiedName] at hlen
    change _ = 17 + name.length + 0 at hlen
    omega
  · intro hle
    rw [copiedName_of_le hle]
    exact decodeDns_nameError hnul id rrType rrClass

/-- So does an answer. -/
theorem decodeDns_addressAnswer_iff (hip : ipAddr.length = 4) :
    decodeDns (questionBytes id 0x8000 1 (copiedName name) rrType rrClass ++ answerBytes ipAddr)
        = some (addressAnswer id name rrType rrClass ipAddr) ↔
      name.length ≤ defStrlenMaxVal := by
  constructor
  · intro hdecode
    have hlen := decodeDns_length hdecode
    rw [List.length_append, length_questionBytes, length_copiedName, length_answerBytes] at hlen
    change _ = 17 + name.length + (12 + ipAddr.length + 0) at hlen
    omega
  · intro hle
    rw [copiedName_of_le hle]
    exact decodeDns_addressAnswer hnul hip id rrType rrClass

end Copied

/-! ### What is sent -/

/-- A generator that gets no buffer sends nothing.  One that gets a buffer of `size` bytes writes
    only there, and sends, if `pbuf_alloc` succeeds, exactly the bytes that it wrote; they decode
    to `d`. -/
def SendsReply (size : ℕ) (gen : Memory → ℕ → Writer) (s : Heap) (pool : ℕ) (d : DnsDecoded) :
    Prop :=
  ∃ s' p, osmMalloc s pool size = some (s', p) ∧
    (p = 0 ∧ (∀ pbuf, dnsGenAndSend size gen s pool pbuf = some (s, none)) ∨
      TookBlock pool s s' p size ∧ ∃ sent, sent.length ≤ size ∧
        (gen s'.mem p).mem = storeBytes s'.mem p sent ∧ decodeDns sent = some d ∧
        ∀ pbuf, ∃ s'', dnsGenAndSend size gen s pool pbuf
          = some (s'', if pbuf then some sent else none))

variable {pool start trailer : ℕ} {s : HeapRun} {L : List ℕ}

/-- The heap has a free block for `size` bytes. -/
def HasBlock (s : Heap) (pool size : ℕ) : Prop :=
  FreeBlockFits s pool (requestSize (s.pcb pool) size)

/-- A generator that builds a reply of at most `size` bytes sends it, if there is a block. -/
theorem sendsReply_iff (hS : SystemPool start trailer) (hg : SystemGood pool start trailer s L)
    {q size : ℕ} {name : List UInt8} {gen : Memory → ℕ → Writer} {bytes : List UInt8}
    {d : DnsDecoded} (hname : BytesAt s.heap.mem q (name ++ [0]))
    (howned : s.Owned start q (name.length + 1)) (hsize : size ≤ 4294967292)
    (hroom : bytes.length ≤ size) (hheader : sizeofDnsHeader + (copiedName name).length ≤ size)
    (hbuilds : ∀ m p, BytesAt m q (name ++ [0]) →
      (q + (name.length + 1) ≤ p ∨ p + (sizeofDnsHeader + (copiedName name).length) ≤ q) →
      ∃ r, r.bytes = bytes ∧ Builds r m p (gen m p)) :
    SendsReply size gen s.heap pool d ↔ decodeDns bytes = some d ∨ ¬ HasBlock s.heap pool size := by
  rcases hg.malloc hS hsize with ⟨hnull, hnone⟩ | ⟨s', h, L', hcall, hfree, hm⟩
  · refine iff_of_true ⟨_, _, hnull, .inl ⟨rfl, fun pbuf => ?_⟩⟩ (.inr hnone)
    rw [dnsGenAndSend, hnull]
    rfl
  have hpool : size ≤ osDmemPoolSize := by
    obtain ⟨-, hlo, hend, htrailer⟩ := hm.good.inv.payload List.mem_cons_self
    have := hS.size
    dsimp only at hlo hend
    omega
  have hkept : BytesAt s'.mem q (name ++ [0]) := by
    refine hname.congr fun x hlo hhi => hg.malloc_owned hS hsize hcall hm howned hlo ?_
    rwa [List.length_append, List.length_singleton] at hhi
  have hapart := hm.disjoint hS hg.inv howned
  obtain ⟨r, rfl, hbuild⟩ := hbuilds s'.mem (h + 16) hkept (by omega)
  have hsent : loadBytes (gen s'.mem (h + 16)).mem (h + 16)
      ((gen s'.mem (h + 16)).len % 65536) = r.bytes := by
    rw [hbuild.len, Nat.mod_eq_of_lt (by unfold osDmemPoolSize at hpool; omega), hbuild.mem]
    exact loadBytes_storeBytes _ _ _
  have hrun (pbuf : Bool) : dnsGenAndSend size gen s.heap pool pbuf
      = some (osmFree { s' with mem := (gen s'.mem (h + 16)).mem } (h + 16),
          if pbuf then some r.bytes else none) := by
    rw [dnsGenAndSend, hcall, Option.map_some, Option.some.injEq]
    dsimp only
    rw [if_neg (Nat.succ_ne_zero _), hsent]
    cases pbuf <;> rfl
  have hblock : HasBlock s.heap pool size := hfree
  rw [or_iff_left (not_not_intro hblock)]
  constructor
  · rintro ⟨t, p, hcall', hres⟩
    rw [hcall, Option.some.injEq, Prod.mk.injEq] at hcall'
    obtain ⟨rfl, rfl⟩ := hcall'
    rcases hres with ⟨hnull, -⟩ | ⟨-, sent, -, -, hdecode, hsend⟩
    · omega
    · -- what is sent are the bytes of the reply
      obtain ⟨s'', hsend⟩ := hsend true
      rw [hrun, Option.some.injEq, Prod.mk.injEq, if_pos rfl, if_pos rfl, Option.some.injEq] at hsend
      rw [hsend.2, hdecode]
  · intro hdecode
    exact ⟨_, _, hcall, .inr ⟨hm.took hg.inv, _, hroom, hbuild.mem, hdecode, fun pbuf =>
      ⟨_, hrun pbuf⟩⟩⟩

/-- The bytes of a name error are those that the protocol prescribes. -/
theorem nameErr_bytes {id rrType rrClass : UInt16} {queryName : List UInt8} {r : DnsReply}
    (h : dnsNameErrGenAndSend ⟨true, true, true⟩ ⟨htons rrType.toNat, htons rrClass.toNat⟩ queryName
      (htons id.toNat) = some r) :
    r.bytes = questionBytes id 0x8003 0 queryName rrType rrClass := by
  obtain rfl := Option.some.inj h
  simp only [DnsReply.bytes, DnsReply.header, DnsQuery.bytes, halfBytes_htons, Option.elim_none,
    questionBytes, List.append_assoc, List.append_nil, List.cons_append, List.nil_append]
  rfl

/-- So are those of an answer. -/
theorem answer_bytes {server : Memory} {id rrType rrClass : UInt16} {queryName : List UInt8}
    {r : DnsReply}
    (h : dnsAnswerGenAndSend server ⟨true, true, true⟩ ⟨htons rrType.toNat, htons rrClass.toNat⟩
      queryName (htons id.toNat) = some r) :
    r.bytes = questionBytes id 0x8000 1 queryName rrType rrClass
      ++ answerBytes (loadBytes server offHostIp 4) := by
  obtain rfl := Option.some.inj h
  simp only [DnsReply.bytes, DnsReply.header, DnsQuery.bytes, DnsAnswer.bytes, halfBytes_htons,
    Option.elim_some, questionBytes, answerBytes, wordBytes_load32, List.append_assoc,
    List.cons_append, List.nil_append]
  rfl

section Name

variable (hS : SystemPool start trailer) (hg : SystemGood pool start trailer s L) {queryName : ℕ}
  {name : List UInt8} (hname : BytesAt s.heap.mem queryName (name ++ [0])) (hnul : 0 ∉ name)
  (howned : s.Owned start queryName (name.length + 1)) (id rrType rrClass : UInt16)
include hS hg hname hnul howned

/-- The name error is what it is to be exactly if the whole name is copied, or nothing is sent. -/
theorem sendsReply_nameErr_iff :
    SendsReply (dnsNameErrSize s.heap.mem queryName)
        (dnsNameErrGen ⟨htons rrType.toNat, htons rrClass.toNat⟩ queryName (htons id.toNat))
        s.heap pool (nameError id name rrType rrClass) ↔
      name.length ≤ defStrlenMaxVal ∨
        ¬ HasBlock s.heap pool (dnsNameErrSize s.heap.mem queryName) := by
  have hcopied := length_copiedName name
  have hsize := dnsNameErrSize_eq s.heap.mem queryName
  rw [strlen_of_bytesAt hname hnul] at hsize
  unfold defStrlenMaxVal at hcopied hsize
  rw [← decodeDns_nameError_iff hnul id rrType rrClass]
  refine sendsReply_iff hS hg hname howned (by omega) ?_ ?_ fun m p hat hapart => ?_
  · rw [length_questionBytes]
    omega
  · unfold sizeofDnsHeader
    omega
  · obtain ⟨r, hr, hbuilds⟩ := dnsNameErrGen_builds ⟨htons rrType.toNat, htons rrClass.toNat⟩
      (htons id.toNat) hat hnul hapart
    exact ⟨r, nameErr_bytes hr, hbuilds⟩

/-- So is the answer. -/
theorem sendsReply_answer_iff (server : Memory) :
    SendsReply (dnsAnswerSize s.heap.mem queryName)
        (dnsAnswerGen server ⟨htons rrType.toNat, htons rrClass.toNat⟩ queryName (htons id.toNat))
        s.heap pool (addressAnswer id name rrType rrClass (loadBytes server offHostIp 4)) ↔
      name.length ≤ defStrlenMaxVal ∨
        ¬ HasBlock s.heap pool (dnsAnswerSize s.heap.mem queryName) := by
  have hcopied := length_copiedName name
  have hsize := dnsAnswerSize_eq s.heap.mem queryName
  rw [strlen_of_bytesAt hname hnul] at hsize
  unfold defStrlenMaxVal at hcopied hsize
  have hip := length_loadBytes server offHostIp 4
  rw [← decodeDns_addressAnswer_iff hnul id rrType rrClass hip]
  refine sendsReply_iff hS hg hname howned (by omega) ?_ ?_ fun m p hat hapart => ?_
  · rw [List.length_append, length_questionBytes, length_answerBytes]
    omega
  · unfold sizeofDnsHeader
    omega
  · obtain ⟨r, hr, hbuilds⟩ := dnsAnswerGen_builds server
      ⟨htons rrType.toNat, htons rrClass.toNat⟩ (htons id.toNat) hat hnul hapart
    exact ⟨r, answer_bytes hr, hbuilds⟩

end Name

/-- **When the DNS replies decode back to the question.**  In every state that the system heap
    reaches by calls that meet `MallocFits`, for every string in memory that somebody owns, and
    every id, type and class: exactly if the string has at most 4095 characters, or there is no
    block for the reply, and nothing is sent. -/
theorem replies_decode_iff (s₀ : Heap) (hpool : pool < 4294967296) (halign : start % 4 = 0)
    (hbound : start + osDmemPoolSize < 4294967296) {ops : List MallocOp}
    (hok : Along (mallocStep pool) (MallocFits pool) (systemHeap s₀ pool start) ops)
    (hrun : run (mallocStep pool) (systemHeap s₀ pool start) ops = some s) (server : Memory)
    {queryName : ℕ} {name : List UInt8} (hname : BytesAt s.heap.mem queryName (name ++ [0]))
    (hnul : 0 ∉ name) (howned : s.Owned start queryName (name.length + 1))
    (id rrType rrClass : UInt16) :
    (SendsReply (dnsNameErrSize s.heap.mem queryName)
        (dnsNameErrGen ⟨htons rrType.toNat, htons rrClass.toNat⟩ queryName (htons id.toNat))
        s.heap pool (nameError id name rrType rrClass) ↔
      name.length ≤ 4095 ∨ ¬ HasBlock s.heap pool (dnsNameErrSize s.heap.mem queryName)) ∧
    (SendsReply (dnsAnswerSize s.heap.mem queryName)
        (dnsAnswerGen server ⟨htons rrType.toNat, htons rrClass.toNat⟩ queryName (htons id.toNat))
        s.heap pool (addressAnswer id name rrType rrClass (loadBytes server offHostIp 4)) ↔
      name.length ≤ 4095 ∨ ¬ HasBlock s.heap pool (dnsAnswerSize s.heap.mem queryName)) := by
  have hS := systemPool_of_bound hbound
  obtain ⟨L, hg⟩ := systemGood_run s₀ hpool halign hbound hok hrun
  exact ⟨sendsReply_nameErr_iff hS hg hname hnul howned id rrType rrClass,
    sendsReply_answer_iff hS hg hname hnul howned id rrType rrClass server⟩

/-- A message with the name `a` is copied to the heap. -/
def replyExample : List MallocOp := [.malloc 16, .write 0x2010 1, .write 0x2011 97]

/-- The heap with this message in it. -/
def replyHeap : HeapRun :=
  runEnd (mallocStep 0x1000) (systemHeap emptyHeap 0x1000 0x2000) replyExample

theorem replies_decode_iff_example :
    (SendsReply (dnsNameErrSize replyHeap.heap.mem 0x2010)
        (dnsNameErrGen ⟨htons 28, htons 1⟩ 0x2010 (htons 0x1234)) replyHeap.heap 0x1000
        (nameError 0x1234 [1, 97] 28 1) ↔
      2 ≤ 4095 ∨ ¬ HasBlock replyHeap.heap 0x1000 (dnsNameErrSize replyHeap.heap.mem 0x2010)) ∧
    (SendsReply (dnsAnswerSize replyHeap.heap.mem 0x2010)
        (dnsAnswerGen (storeBytes (fun _ => 0) offHostIp [192, 168, 1, 1]) ⟨htons 28, htons 1⟩ 0x2010
          (htons 0x1234)) replyHeap.heap 0x1000 (addressAnswer 0x1234 [1, 97] 28 1 [192, 168, 1, 1]) ↔
      2 ≤ 4095 ∨ ¬ HasBlock replyHeap.heap 0x1000 (dnsAnswerSize replyHeap.heap.mem 0x2010)) := by
  have hok : Along (mallocStep 0x1000) (MallocFits 0x1000) (systemHeap emptyHeap 0x1000 0x2000)
      replyExample := by decide +kernel
  have hname : BytesAt replyHeap.heap.mem 0x2010 ([1, 97] ++ [0]) :=
    ⟨by decide +kernel, by decide +kernel, by decide +kernel, trivial⟩
  have howned : replyHeap.Owned 0x2000 0x2010 3 :=
    .inr (.inr ⟨(0x2010, 16), by decide +kernel, by decide, by decide⟩)
  exact replies_decode_iff emptyHeap (by decide) (by decide) (by decide) hok
    (run_eq_runEnd (by decide +kernel)) _ hname (by decide) howned 0x1234 28 1

/-- A name of 4096 letters. -/
def longName : List UInt8 := List.replicate 4096 97

/-- A heap behind whose pool, at address `0x10000`, this name lies. -/
def longNameHeap : Heap :=
  { emptyHeap with mem := storeBytes (fun _ => 0) 0x10000 (longName ++ [0]) }

/-- Of a name of 4096 letters the zero is not copied, and the name error does not decode to the
    question. -/
theorem long_name_loses_its_end :
    ¬ ∀ (pool start : ℕ) (s₀ : Heap) (ops : List MallocOp) (s : HeapRun), pool < 4294967296 →
      start % 4 = 0 → start + osDmemPoolSize < 4294967296 →
      Along (mallocStep pool) (MallocFits pool) (systemHeap s₀ pool start) ops →
      run (mallocStep pool) (systemHeap s₀ pool start) ops = some s →
      ∀ (server : Memory) (queryName : ℕ) (name : List UInt8),
      BytesAt s.heap.mem queryName (name ++ [0]) → 0 ∉ name →
      s.Owned start queryName (name.length + 1) → ∀ (id rrType rrClass : UInt16),
      SendsReply (dnsNameErrSize s.heap.mem queryName)
        (dnsNameErrGen ⟨htons rrType.toNat, htons rrClass.toNat⟩ queryName (htons id.toNat))
        s.heap pool (nameError id name rrType rrClass) ∧
      SendsReply (dnsAnswerSize s.heap.mem queryName)
        (dnsAnswerGen server ⟨htons rrType.toNat, htons rrClass.toNat⟩ queryName (htons id.toNat))
        s.heap pool (addressAnswer id name rrType rrClass (loadBytes server offHostIp 4)) := by
  intro hall
  have hS : SystemPool 0x2000 (0x2000 + osDmemPoolSize - 16) := systemPool_of_bound (by decide)
  have hg : SystemGood 0x1000 0x2000 _ (systemHeap longNameHeap 0x1000 0x2000) _ :=
    systemGood_init longNameHeap hS (by decide) (by decide)
  have hname : BytesAt (systemHeap longNameHeap 0x1000 0x2000).heap.mem 0x10000 (longName ++ [0]) :=
    (bytesAt_storeBytes (fun _ => 0) 0x10000 (longName ++ [0])).congr fun x hlo _ =>
      systemHeap_outside longNameHeap hS (by decide)
        (.inr (by unfold osDmemPoolSize; omega))
  have hblock : HasBlock (systemHeap longNameHeap 0x1000 0x2000).heap 0x1000 4112 :=
    ⟨0, by decide +kernel, by decide +kernel, by decide +kernel⟩
  have hnul : 0 ∉ longName := fun h => absurd (List.eq_of_mem_replicate h) (by decide)
  have hlength : longName.length = 4096 := List.length_replicate
  have hsends := hall 0x1000 0x2000 longNameHeap [] _ (by decide) (by decide) (by decide) trivial rfl
    (fun _ => 0) 0x10000 longName hname hnul
  generalize systemHeap longNameHeap 0x1000 0x2000 = s at hg hname hblock hsends
  generalize longName = name at hname hnul hlength hsends
  have howned : s.Owned 0x2000 0x10000 (name.length + 1) := .inr (.inl ⟨by decide, by omega⟩)
  have hsize := dnsNameErrSize_eq s.heap.mem 0x10000
  rw [strlen_of_bytesAt hname hnul, hlength] at hsize
  rcases (sendsReply_nameErr_iff hS hg hname hnul howned 1 1 1).mp (hsends howned 1 1 1).1
    with hle | hnone
  · rw [hlength] at hle
    exact absurd hle (by decide)
  · rw [hsize] at hnone
    exact hnone hblock

end SerialNet
