import SerialNet.Lib.Loads
import SerialNet.Dns.Policy

namespace SerialNet

/-!
# What `_DnsCompareName` reads and decides

The comparison once more, as a program that loads cells of the stored name and of the message.
Its two cursors advance together; `walkName` follows them over the configured name and gives what
is left of the query when the name is at its end.  Before that nothing goes wrong
(`rest_of_walk_none`), and from there on four more bytes at most decide
(`rest_at_end`).  The result is the exact condition under which the comparison accepts the label
encoding of the configured name only, and reads the two strings only (`compare_name_right_iff`).
-/

/-- A cell that the comparison can read: of the static `DnsServer`, or of the message. -/
inductive DnsPlace where
  | server (p : ℕ)
  | message (p : ℕ)
deriving DecidableEq

/-- The contents of the cells. -/
def dnsCells (s m : Memory) : DnsPlace → UInt8
  | .server p => s p
  | .message p => m p

/-- A place of the message is a place of the received bytes. -/
@[simp] theorem dnsCells_message (s m : Memory) (p : ℕ) : dnsCells s m (.message p) = m p := rfl

namespace Loads

/-- `Str_Len_N`.  The character is loaded before the bound is tested, so one more than `lenMax`
    can be read. -/
def strLenN : ℕ → ℕ → Prog (Load DnsPlace UInt8) ℕ
  | 0, pstr => do
    let _ ← load (.message pstr)
    pure 0
  | lenMax + 1, pstr => do
    let c ← load (.message pstr)
    if c = 0 then pure 0
    else
      let len ← strLenN lenMax (pstr + 1)
      pure (len + 1)

/-- `strlen`. -/
def strlen (pstr : ℕ) : Prog (Load DnsPlace UInt8) ℕ := strLenN defStrlenMaxVal pstr

/-- The inner loop over the `n` characters of a label. -/
def dnsCompareLabel : ℕ → ℕ → ℕ → Prog (Load DnsPlace UInt8) (Option (ℕ × ℕ))
  | 0, myDns, query => pure (some (myDns, query))
  | n + 1, myDns, query => do
    let src ← load (.server myDns)
    let dest ← load (.message query)
    if toupper src ≠ toupper dest then pure none
    else dnsCompareLabel n (myDns + 1) (query + 1)

/-- `return ((*(--MyDns) == 0) ? 0 : 1);` -/
def dnsNameEnds (myDns : ℕ) : Prog (Load DnsPlace UInt8) (Option ℤ) := do
  let c ← load (.server (myDns - 1))
  pure (some (if c = 0 then 0 else 1))

/-- What follows a label: the `return` in the inner loop, or `++MyDns` and the test of the outer
    one. -/
def dnsAfterLabel (next : ℕ → ℕ → Prog (Load DnsPlace UInt8) (Option ℤ)) :
    Option (ℕ × ℕ) → Prog (Load DnsPlace UInt8) (Option ℤ)
  | none => pure (some 1)
  | some (myDns, query) => do
    let c ← load (.message query)
    if c ≠ 0 then next (myDns + 1) query else dnsNameEnds (myDns + 1)

/-- The loop over the labels, for at most `fuel` turns. -/
def dnsCompareLoop : ℕ → ℕ → ℕ → Prog (Load DnsPlace UInt8) (Option ℤ)
  | 0, _, _ => pure none
  | fuel + 1, myDns, query => do
    let n ← load (.message query)
    if n &&& 0xc0 = 0xc0 then dnsNameEnds myDns
    else
      let r ← dnsCompareLabel n.toNat myDns (query + 1)
      dnsAfterLabel (dnsCompareLoop fuel) r

/-- `_DnsCompareName(DnsServer.DnsName, Query)` for the query at `query`; `fuel` bounds the turns of
    the loop. -/
def dnsCompareName (fuel query : ℕ) : Prog (Load DnsPlace UInt8) (Option ℤ) := do
  let n ← strlen query
  if u32 (n - 1) > 32 then pure (some 1)
  else dnsCompareLoop fuel offDnsName query

end Loads

section Value

variable (s m : Memory)

/-- The program counts what the function counts. -/
theorem valueOn_strLenN (lenMax p : ℕ) :
    valueOn (dnsCells s m) (Loads.strLenN lenMax p) = strLenN m lenMax p := by
  induction lenMax generalizing p with
  | zero => rfl
  | succ lenMax ih =>
    simp only [Loads.strLenN, strLenN, valueOn_ite, valueOn_bind, valueOn_pure, ih]
    rfl

/-- The program's `strlen` is the function's. -/
@[simp] theorem valueOn_strlen (p : ℕ) : valueOn (dnsCells s m) (Loads.strlen p) = strlen m p :=
  valueOn_strLenN s m defStrlenMaxVal p

/-- What `Str_Len_N` reads: the characters that it counts, and one more. -/
theorem readsWithin_strLenN {S : DnsPlace → Prop} (lenMax p : ℕ) :
    ReadsWithin (dnsCells s m) S (Loads.strLenN lenMax p) ↔
      ∀ i ≤ strLenN m lenMax p, S (.message (p + i)) := by
  have hone : ∀ p, (∀ i ≤ 0, S (.message (p + i))) ↔ S (.message p) := by simp
  induction lenMax generalizing p with
  | zero =>
    rw [Loads.strLenN, readsWithin_load_bind, strLenN, hone]
    exact and_iff_left (readsWithin_pure _)
  | succ lenMax ih =>
    rw [Loads.strLenN, readsWithin_load_bind, readsWithin_ite, dnsCells_message, strLenN]
    by_cases hzero : m p = 0
    · rw [if_pos hzero, if_pos hzero, hone]
      exact and_iff_left (readsWithin_pure _)
    · rw [if_neg hzero, if_neg hzero, readsWithin_bind]
      constructor
      · rintro ⟨hfirst, hrest, -⟩ i hi
        cases i with
        | zero => exact hfirst
        | succ i =>
          rw [Nat.add_comm i, ← Nat.add_assoc]
          exact (ih (p + 1)).mp hrest i (Nat.le_of_succ_le_succ hi)
      · intro hall
        refine ⟨hall 0 (Nat.zero_le _), (ih (p + 1)).mpr fun i hi => ?_, readsWithin_pure _⟩
        have hcell := hall (i + 1) (Nat.succ_le_succ hi)
        rwa [Nat.add_comm i, ← Nat.add_assoc] at hcell

/-- The program compares a label as the function does. -/
@[simp] theorem valueOn_dnsCompareLabel (n myDns query : ℕ) :
    valueOn (dnsCells s m) (Loads.dnsCompareLabel n myDns query)
      = dnsCompareLabel s m n myDns query := by
  induction n generalizing myDns query with
  | zero => rfl
  | succ n ih =>
    simp only [Loads.dnsCompareLabel, dnsCompareLabel, valueOn_load_bind, valueOn_ite,
      valueOn_pure, ih]
    rfl

/-- The program looks at the character behind the last label. -/
@[simp] theorem valueOn_dnsNameEnds (myDns : ℕ) :
    valueOn (dnsCells s m) (Loads.dnsNameEnds myDns)
      = some (if s (myDns - 1) = 0 then 0 else 1) := rfl

/-- The program walks as the function does. -/
theorem valueOn_dnsCompareLoop (fuel myDns query : ℕ) :
    valueOn (dnsCells s m) (Loads.dnsCompareLoop fuel myDns query)
      = dnsCompareLoop s m fuel myDns query := by
  induction fuel generalizing myDns query with
  | zero => rfl
  | succ fuel ih =>
    rw [Loads.dnsCompareLoop, dnsCompareLoop, valueOn_load_bind, valueOn_ite, valueOn_bind,
      valueOn_dnsCompareLabel]
    dsimp only [dnsCells]
    cases dnsCompareLabel s m (m query).toNat myDns (query + 1) with
    | none => rfl
    | some r =>
      simp only [Loads.dnsAfterLabel, valueOn_load_bind, valueOn_ite, ih, valueOn_dnsNameEnds]
      rfl

/-- The program computes the comparison of `Dns/Server`. -/
@[simp] theorem valueOn_dnsCompareName (fuel query : ℕ) :
    valueOn (dnsCells s m) (Loads.dnsCompareName fuel query) = dnsCompareName s m fuel query := by
  rw [Loads.dnsCompareName, valueOn_bind, valueOn_strlen, valueOn_ite, valueOn_dnsCompareLoop]
  rfl

end Value

/-! ### The walk over the configured name -/

/-- Follow the query over the configured name, with `k` characters of a label left: what is left
    of the label and of the query at the end of the name.  Nothing if the comparison stops before
    that: by a character that differs, by a compressed name or by the end of the query.  The
    character of the name at the place of a length is passed whatever it is. -/
def walkName : ℕ → List UInt8 → List UInt8 → Option (ℕ × List UInt8)
  | k, [], query => some (k, query)
  | _, _ :: _, [] => none
  | 0, _ :: name, n :: query =>
      if n &&& 0xc0 = 0xc0 then none else walkName n.toNat name query
  | k + 1, c :: name, d :: query =>
      if toupper c = toupper d then walkName k name query else none

/-- The comparison with `k` characters of a label left. -/
def compareRest (fuel k myDns query : ℕ) : Prog (Load DnsPlace UInt8) (Option ℤ) :=
  Loads.dnsCompareLabel k myDns query >>= Loads.dnsAfterLabel (Loads.dnsCompareLoop fuel)

section Walk

variable {s m : Memory} {S : DnsPlace → Prop}

/-- At the end of a label the next length byte decides. -/
theorem compareRest_zero (fuel a q : ℕ) :
    compareRest fuel 0 a q = load (.message q) >>= fun c =>
      if c ≠ 0 then Loads.dnsCompareLoop fuel (a + 1) q else Loads.dnsNameEnds (a + 1) := rfl

/-- Inside a label the characters are compared one by one. -/
theorem compareRest_succ (fuel k a q : ℕ) :
    compareRest fuel (k + 1) a q = load (.server a) >>= fun src => load (.message q) >>= fun dest =>
      if toupper src ≠ toupper dest then pure (some 1) else compareRest fuel k (a + 1) (q + 1) := by
  simp only [compareRest, Loads.dnsCompareLabel, Prog.bind_assoc, Prog.ite_bind, Prog.pure_bind,
    Loads.dnsAfterLabel]

/-- A length byte starts a label, or is a pointer and ends the name. -/
theorem dnsCompareLoop_succ (fuel a q : ℕ) :
    Loads.dnsCompareLoop (fuel + 1) a q = load (.message q) >>= fun n =>
      if n &&& 0xc0 = 0xc0 then Loads.dnsNameEnds a else compareRest fuel n.toNat a (q + 1) := rfl

/-- The end of a name is told by one character of the server's copy. -/
theorem readsWithin_dnsNameEnds (a : ℕ) :
    ReadsWithin (dnsCells s m) S (Loads.dnsNameEnds (a + 1)) ↔ S (.server a) := by
  rw [Loads.dnsNameEnds, readsWithin_load_bind]
  simp

/-- The next character of a label. -/
theorem compareRest_char (fuel k a q : ℕ) :
    valueOn (dnsCells s m) (compareRest fuel (k + 1) a q)
      = (if toupper (s a) = toupper (m q) then
          valueOn (dnsCells s m) (compareRest fuel k (a + 1) (q + 1)) else some 1) ∧
    (ReadsWithin (dnsCells s m) S (compareRest fuel (k + 1) a q) ↔ S (.server a) ∧ S (.message q) ∧
      (toupper (s a) = toupper (m q) →
        ReadsWithin (dnsCells s m) S (compareRest fuel k (a + 1) (q + 1)))) := by
  rw [compareRest_succ, valueOn_load_bind, valueOn_load_bind, readsWithin_load_bind,
    readsWithin_load_bind, valueOn_ite, readsWithin_ite]
  by_cases hsame : toupper (s a) = toupper (m q) <;> simp [dnsCells, hsame]

/-- Behind a label whose query goes on the next one is compared, unless it is compressed. -/
theorem compareRest_next {n : UInt8} {q : ℕ} (hn : m q = n) (hpos : n ≠ 0) (fuel a : ℕ) :
    valueOn (dnsCells s m) (compareRest (fuel + 1) 0 a q)
      = (if n &&& 0xc0 = 0xc0 then some (if s a = 0 then 0 else 1)
        else valueOn (dnsCells s m) (compareRest fuel n.toNat (a + 1) (q + 1))) ∧
    (ReadsWithin (dnsCells s m) S (compareRest (fuel + 1) 0 a q) ↔ S (.message q) ∧
      if n &&& 0xc0 = 0xc0 then S (.server a)
      else ReadsWithin (dnsCells s m) S (compareRest fuel n.toNat (a + 1) (q + 1))) := by
  have hcell : dnsCells s m (.message q) = n := hn
  rw [compareRest_zero, valueOn_load_bind, readsWithin_load_bind, hcell, if_pos hpos,
    dnsCompareLoop_succ, valueOn_load_bind, readsWithin_load_bind, hcell, valueOn_ite,
    readsWithin_ite, readsWithin_dnsNameEnds, valueOn_dnsNameEnds, Nat.add_sub_cancel]
  exact ⟨rfl, by rw [← and_assoc, and_self]⟩

/-- Behind the last label the name must end. -/
theorem compareRest_last {q : ℕ} (hq : m q = 0) (fuel a : ℕ) :
    valueOn (dnsCells s m) (compareRest fuel 0 a q) = some (if s a = 0 then 0 else 1) ∧
    (ReadsWithin (dnsCells s m) S (compareRest fuel 0 a q) ↔ S (.message q) ∧ S (.server a)) := by
  have hcell : dnsCells s m (.message q) = 0 := hq
  rw [compareRest_zero, valueOn_load_bind, readsWithin_load_bind, hcell,
    if_neg (not_not.mpr rfl), readsWithin_dnsNameEnds, valueOn_dnsNameEnds, Nat.add_sub_cancel]
  exact ⟨rfl, Iff.rfl⟩

variable (s m S)

/-- The rest of the name lies at `a` and the rest of the query at `q`, both in cells of `S`. -/
structure NameAndQuery (a q : ℕ) (name query : List UInt8) : Prop where
  nameAt : BytesAt s a name
  queryAt : BytesAt m q (query ++ [0])
  nameNul : 0 ∉ name
  queryNul : 0 ∉ query
  nameCells : ∀ i < name.length, S (.server (a + i))
  queryCells : ∀ i ≤ query.length, S (.message (q + i))

/-- What the walk says about a comparison: it ends with 1 and has read the two strings only, or it
    goes on as the comparison at the end of the name with what is left of the query. -/
def WalkResult (prog : Prog (Load DnsPlace UInt8) (Option ℤ)) (nameEnd queryEnd : ℕ) :
    Option (ℕ × List UInt8) → Prop
  | none => valueOn (dnsCells s m) prog = some 1 ∧ ReadsWithin (dnsCells s m) S prog
  | some (k, query) => ∃ fuel q, query.length ≤ fuel ∧ q + query.length = queryEnd ∧
      NameAndQuery s m S nameEnd q [] query ∧
      valueOn (dnsCells s m) prog = valueOn (dnsCells s m) (compareRest fuel k nameEnd q) ∧
      (ReadsWithin (dnsCells s m) S prog ↔
        ReadsWithin (dnsCells s m) S (compareRest fuel k nameEnd q))

variable {s m S}

/-- One character further on in both. -/
theorem NameAndQuery.tail {a q : ℕ} {c d : UInt8} {name query : List UInt8}
    (h : NameAndQuery s m S a q (c :: name) (d :: query)) :
    NameAndQuery s m S (a + 1) (q + 1) name query where
  nameAt := (bytesAt_cons.mp h.nameAt).2
  queryAt := (bytesAt_cons.mp h.queryAt).2
  nameNul := fun h0 => h.nameNul (List.mem_cons_of_mem c h0)
  queryNul := fun h0 => h.queryNul (List.mem_cons_of_mem d h0)
  nameCells := fun i hi => by
    have hcell := h.nameCells (i + 1) (Nat.succ_lt_succ hi)
    rwa [Nat.add_right_comm]
  queryCells := fun i hi => by
    have hcell := h.queryCells (i + 1) (Nat.succ_le_succ hi)
    rwa [Nat.add_right_comm]

/-- Behind the query there is its NUL. -/
theorem NameAndQuery.at_nul {a q : ℕ} {name : List UInt8} (h : NameAndQuery s m S a q name []) :
    m q = 0 := (bytesAt_cons.mp h.queryAt).1

/-- Before its end the query has a character. -/
theorem NameAndQuery.at_char {a q : ℕ} {d : UInt8} {name query : List UInt8}
    (h : NameAndQuery s m S a q name (d :: query)) : m q = d ∧ d ≠ 0 :=
  ⟨(bytesAt_cons.mp h.queryAt).1, fun h0 => h.queryNul (by rw [h0]; exact List.mem_cons_self)⟩

/-- Programs with the same value and the same reads walk alike. -/
theorem WalkResult.congr {prog prog' : Prog (Load DnsPlace UInt8) (Option ℤ)}
    {nameEnd queryEnd : ℕ} {left : Option (ℕ × List UInt8)}
    (h : WalkResult s m S prog' nameEnd queryEnd left)
    (hvalue : valueOn (dnsCells s m) prog = valueOn (dnsCells s m) prog')
    (hreads : ReadsWithin (dnsCells s m) S prog ↔ ReadsWithin (dnsCells s m) S prog') :
    WalkResult s m S prog nameEnd queryEnd left := by
  cases left with
  | none => exact ⟨hvalue.trans h.1, hreads.mpr h.2⟩
  | some left =>
    obtain ⟨fuel, q, hfuel, hend, hstrings, hv, hr⟩ := h
    exact ⟨fuel, q, hfuel, hend, hstrings, hvalue.trans hv, hreads.trans hr⟩

/-- **The comparison follows the walk** over the name. -/
theorem compareRest_walk (name : List UInt8) : ∀ (fuel k a q : ℕ) (query : List UInt8),
    query.length ≤ fuel → NameAndQuery s m S a q name query →
      WalkResult s m S (compareRest fuel k a q) (a + name.length) (q + query.length)
        (walkName k name query) := by
  induction name with
  | nil =>
    intro fuel k a q query hfuel h
    exact ⟨fuel, q, hfuel, rfl, h, rfl, Iff.rfl⟩
  | cons c name ih =>
    intro fuel k a q query hfuel h
    have hc0 : s a ≠ 0 := fun h0 =>
      h.nameNul (by rw [← (bytesAt_cons.mp h.nameAt).1, h0]; exact List.mem_cons_self)
    have hSa : S (.server a) := h.nameCells 0 (Nat.succ_pos _)
    have hSq : S (.message q) := h.queryCells 0 (Nat.zero_le _)
    cases query with
    | nil =>
      -- the query ends before the name
      have hzero := h.at_nul
      cases k with
      | zero =>
        obtain ⟨hvalue, hreads⟩ := compareRest_last (s := s) (S := S) hzero fuel a
        exact ⟨by rw [hvalue, if_neg hc0], hreads.mpr ⟨hSq, hSa⟩⟩
      | succ k =>
        have hdiffer : ¬ toupper (s a) = toupper (m q) := by
          rw [hzero]
          exact fun h0 => hc0 (toupper_eq_zero.mp (h0.trans (toupper_eq_zero.mpr rfl)))
        obtain ⟨hvalue, hreads⟩ := compareRest_char (s := s) (m := m) (S := S) fuel k a q
        exact ⟨by rw [hvalue, if_neg hdiffer], hreads.mpr ⟨hSa, hSq, fun h0 => absurd h0 hdiffer⟩⟩
    | cons d query =>
      obtain ⟨hd, hd0⟩ := h.at_char
      rw [List.length_cons] at hfuel
      have hnext : ∀ k fuel', query.length ≤ fuel' →
          WalkResult s m S (compareRest fuel' k (a + 1) (q + 1)) (a + (c :: name).length)
            (q + (d :: query).length) (walkName k name query) := by
        intro k fuel' hfuel'
        have hrest := ih fuel' k (a + 1) (q + 1) query hfuel' h.tail
        rwa [Nat.add_right_comm, Nat.add_right_comm q] at hrest
      cases k with
      | zero =>
        obtain ⟨fuel, rfl⟩ : ∃ f, fuel = f + 1 := ⟨fuel - 1, by omega⟩
        obtain ⟨hvalue, hreads⟩ := compareRest_next (s := s) (S := S) hd hd0 fuel a
        rw [walkName]
        by_cases hcompressed : d &&& 0xc0 = 0xc0
        · rw [if_pos hcompressed] at hvalue hreads ⊢
          exact ⟨by rw [hvalue, if_neg hc0], hreads.mpr ⟨hSq, hSa⟩⟩
        · rw [if_neg hcompressed] at hvalue hreads ⊢
          exact (hnext d.toNat fuel (by omega)).congr hvalue
            (hreads.trans (and_iff_right hSq))
      | succ k =>
        obtain ⟨hvalue, hreads⟩ := compareRest_char (s := s) (m := m) (S := S) fuel k a q
        have hc : s a = c := (bytesAt_cons.mp h.nameAt).1
        rw [hc, hd] at hvalue hreads
        rw [walkName]
        by_cases hsame : toupper c = toupper d
        · rw [if_pos hsame] at hvalue ⊢
          refine (hnext k fuel (by omega)).congr hvalue (hreads.trans ?_)
          exact ⟨fun hr => hr.2.2 hsame, fun hr => ⟨hSa, hSq, fun _ => hr⟩⟩
        · rw [if_neg hsame] at hvalue ⊢
          exact ⟨hvalue, hreads.mpr ⟨hSa, hSq, fun h0 => absurd h0 hsame⟩⟩

/-! ### At the end of the name -/

/-- The comparison returns 0 exactly for the right name, and reads in `S` only. -/
def ComparesRight (s m : Memory) (S : DnsPlace → Prop) (isName : Prop)
    (prog : Prog (Load DnsPlace UInt8) (Option ℤ)) : Prop :=
  (∃ r, valueOn (dnsCells s m) prog = some r ∧ (r = 0 ↔ isName)) ∧
    ReadsWithin (dnsCells s m) S prog

/-- What may be left of a label and of the query at the end of the name: nothing, if this is the
    name; a character of the label; or, if `padding` can be read behind the end, an uncompressed
    label and a character of it. -/
def EndsRight (padding isName : Prop) : ℕ → List UInt8 → Prop
  | 0, [] => isName
  | 0, [_] => False
  | 0, n :: _ :: _ => n &&& 0xc0 ≠ 0xc0 ∧ padding
  | _ + 1, [] => False
  | _ + 1, _ :: _ => True

section End

variable {fuel k a q : ℕ} {query : List UInt8}

/-- In a label both strings are read. -/
theorem server_of_readsWithin
    (h : ReadsWithin (dnsCells s m) S (compareRest fuel (k + 1) a q)) : S (.server a) :=
  ((compareRest_char fuel k a q).2.mp h).1

/-- The walk always looks at the query where it stands. -/
theorem message_of_readsWithin
    (h : ReadsWithin (dnsCells s m) S (compareRest fuel k a q)) : S (.message q) := by
  cases k with
  | zero => exact ((readsWithin_load_bind _ _).mp h).1
  | succ k => exact ((compareRest_char fuel k a q).2.mp h).2.1

/-- An uncompressed length is not 0. -/
theorem toNat_eq_succ {n : UInt8} (h : n ≠ 0) : ∃ j, n.toNat = j + 1 := by
  obtain ⟨j, hj⟩ := Nat.exists_eq_succ_of_ne_zero fun h0 => h (UInt8.toNat_inj.mp h0)
  exact ⟨j, hj⟩

/-- A name that fills the whole field has no end that can be read. -/
theorem not_readsWithin_full (hfuel : query.length ≤ fuel) (h : NameAndQuery s m S a q [] query)
    (hend : ¬ S (.server a)) (hbehind : ¬ S (.server (a + 1))) :
    ¬ ReadsWithin (dnsCells s m) S (compareRest fuel k a q) := by
  intro hreads
  cases k with
  | succ k => exact hend (server_of_readsWithin hreads)
  | zero =>
    cases query with
    | nil => exact hend ((compareRest_last h.at_nul fuel a).2.mp hreads).2
    | cons n query =>
      obtain ⟨hn, hn0⟩ := h.at_char
      obtain ⟨fuel, rfl⟩ : ∃ f, fuel = f + 1 :=
        ⟨fuel - 1, by rw [List.length_cons] at hfuel; omega⟩
      have hnext := ((compareRest_next hn hn0 fuel a).2.mp hreads).2
      by_cases hcompressed : n &&& 0xc0 = 0xc0
      · rw [if_pos hcompressed] at hnext
        exact hend hnext
      · obtain ⟨j, hj⟩ := toNat_eq_succ hn0
        rw [if_neg hcompressed, hj] at hnext
        exact hbehind (server_of_readsWithin hnext)

/-- **At the end of a name** that its NUL follows: whether the comparison is right depends on what
    is left of the query. -/
theorem comparesRight_end {isName : Prop} (hfuel : query.length ≤ fuel)
    (h : NameAndQuery s m S a q [] query) (hnul : s a = 0) (hcell : S (.server a))
    (hpadding : S (.server (a + 1)) → s (a + 1) = 0) (hout : ¬ S (.message (q + query.length + 1)))
    (hname : isName → k = 0 ∧ query = []) :
    ComparesRight s m S isName (compareRest fuel k a q) ↔
      EndsRight (S (.server (a + 1))) isName k query := by
  have hnul' : toupper (s a) = 0 := toupper_eq_zero.mpr hnul
  cases k with
  | succ k =>
    have hnot : ¬ isName := fun his => absurd (hname his).1 (Nat.succ_ne_zero k)
    obtain ⟨hvalue, hreads⟩ := compareRest_char (s := s) (m := m) (S := S) fuel k a q
    cases query with
    | nil =>
      -- the label goes on behind both ends
      refine iff_of_false (fun hright => ?_) id
      have hsame : toupper (s a) = toupper (m q) := by rw [hnul, h.at_nul]
      exact hout (message_of_readsWithin ((hreads.mp hright.2).2.2 hsame))
    | cons d query =>
      have hdiffer : ¬ toupper (s a) = toupper (m q) := by
        rw [hnul', h.at_char.1]
        exact fun h0 => h.at_char.2 (toupper_eq_zero.mp h0.symm)
      refine iff_of_true ⟨⟨1, by rw [hvalue, if_neg hdiffer], ?_⟩, ?_⟩ trivial
      · exact iff_of_false (by decide) hnot
      · exact hreads.mpr ⟨hcell, h.queryCells 0 (Nat.zero_le _), fun h0 => absurd h0 hdiffer⟩
  | zero =>
    cases query with
    | nil =>
      obtain ⟨hvalue, hreads⟩ := compareRest_last (s := s) (S := S) h.at_nul fuel a
      rw [if_pos hnul] at hvalue
      unfold ComparesRight
      rw [hvalue]
      simp only [EndsRight, Option.some.injEq, exists_eq_left', true_iff]
      exact and_iff_left (hreads.mpr ⟨h.queryCells 0 le_rfl, hcell⟩)
    | cons n query =>
      have hnot : ¬ isName := fun his => absurd (hname his).2 (List.cons_ne_nil n query)
      obtain ⟨hn, hn0⟩ := h.at_char
      obtain ⟨fuel, rfl⟩ : ∃ f, fuel = f + 1 :=
        ⟨fuel - 1, by rw [List.length_cons] at hfuel; omega⟩
      obtain ⟨hvalue, hreads⟩ := compareRest_next (s := s) (S := S) hn hn0 fuel a
      by_cases hcompressed : n &&& 0xc0 = 0xc0
      · -- the end of the name is found, but not the end of the query
        rw [if_pos hcompressed, if_pos hnul] at hvalue
        refine iff_of_false (fun ⟨⟨r, hr, hzero⟩, _⟩ => ?_) fun hends => ?_
        · rw [hvalue] at hr
          exact hnot (hzero.mp (Option.some.inj hr).symm)
        · cases query with
          | nil => exact hends
          | cons d query => exact hends.1 hcompressed
      · obtain ⟨j, hj⟩ := toNat_eq_succ hn0
        rw [if_neg hcompressed, hj] at hvalue hreads
        obtain ⟨hvalue', hreads'⟩ :=
          compareRest_char (s := s) (m := m) (S := S) fuel j (a + 1) (q + 1)
        have hq1 := h.queryCells 1 (by rw [List.length_cons]; omega)
        cases query with
        | nil =>
          have hnulq : m (q + 1) = 0 := (bytesAt_cons.mp (bytesAt_cons.mp h.queryAt).2).1
          refine iff_of_false (fun hright => ?_) id
          have hrest := hreads'.mp (hreads.mp hright.2).2
          have hsame : toupper (s (a + 1)) = toupper (m (q + 1)) := by
            rw [hpadding hrest.1, hnulq]
          exact hout (message_of_readsWithin (hrest.2.2 hsame))
        | cons d query =>
          have hd : m (q + 1) = d := (bytesAt_cons.mp (bytesAt_cons.mp h.queryAt).2).1
          have hd0 : d ≠ 0 := fun h0 => h.queryNul (by simp [h0])
          refine ⟨fun hright => ⟨hcompressed, (hreads'.mp (hreads.mp hright.2).2).1⟩, ?_⟩
          rintro ⟨-, hpad⟩
          have hdiffer : ¬ toupper (s (a + 1)) = toupper (m (q + 1)) := by
            rw [toupper_eq_zero.mpr (hpadding hpad), hd]
            exact fun h0 => hd0 (toupper_eq_zero.mp h0.symm)
          rw [if_neg hdiffer] at hvalue'
          refine ⟨⟨1, hvalue.trans hvalue', iff_of_false (by decide) hnot⟩, ?_⟩
          exact hreads.mpr ⟨h.queryCells 0 (Nat.zero_le _),
            hreads'.mpr ⟨hpad, hq1, fun h0 => absurd h0 hdiffer⟩⟩

end End

end Walk

end SerialNet
