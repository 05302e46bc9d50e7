import SerialNet.Dns.NameReads

namespace SerialNet

/-!
# When `_DnsCompareName` accepts the encoding of the configured name only

The comparison should accept the label encoding of the configured name, up to case, and should
read nothing but the name and the query.  It does so unless one of these happens
(`NameTakenRight`): the query begins with a compressed name, where the byte in front of the stored
name is looked at; the name fills its field, so that no NUL ends it; the query agrees with the name
up to its end although a length stands where the name has another character than a dot, or a
character where it has a dot; or the query and the name end together inside a label, or the query
goes on with another label.
-/

/-! ### The configured name -/

/-- The labels of a dotted name that can be configured. -/
structure ConfigurableName (labels : List (List UInt8)) : Prop where
  ne : labels ≠ []
  pos : ∀ l ∈ labels, 0 < l.length
  noDot : ∀ l ∈ labels, 46 ∉ l
  noNul : ∀ l ∈ labels, 0 ∉ l
  le : (dottedName labels).length ≤ 32

/-- Labels without a zero make a name without one. -/
theorem zero_not_mem_dottedName {labels : List (List UInt8)} (h : ∀ l ∈ labels, 0 ∉ l) :
    0 ∉ dottedName labels := by
  induction labels with
  | nil => simp [dottedName]
  | cons l ls ih =>
    cases ls with
    | nil => simpa [dottedName] using h l
    | cons l' ls =>
      have hrest := ih fun x hx => h x (List.mem_cons_of_mem l hx)
      have hl := h l List.mem_cons_self
      simp only [dottedName, List.mem_append, List.mem_cons, not_or]
      exact ⟨hl, by decide, hrest⟩

/-! ### The encoding and the walk -/

/-- The labels with their lengths, without the final zero. -/
def encodeLabels (labels : List (List UInt8)) : List UInt8 :=
  labels.flatMap fun l => .ofNat l.length :: l

/-- The encoding is the labels with their lengths, and a zero. -/
theorem encodeName_eq (labels : List (List UInt8)) :
    encodeName labels = encodeLabels labels ++ [0] := by
  induction labels with
  | nil => rfl
  | cons l ls ih => simp [encodeName, encodeLabels, ih]

/-- The query with its NUL is the encoding of the labels, up to case. -/
def IsEncodingOf (query : List UInt8) (labels : List (List UInt8)) : Prop :=
  SameName (query ++ [0]) (encodeName labels)

/-- A query is the encoding of a name up to case, without the zero. -/
theorem isEncodingOf_iff {query : List UInt8} {labels : List (List UInt8)} :
    IsEncodingOf query labels ↔ SameName query (encodeLabels labels) := by
  unfold IsEncodingOf SameName
  rw [encodeName_eq, List.map_append, List.map_append, List.append_left_inj]

/-- The length of a label is the same in either case. -/
theorem length_of_toupper {n : ℕ} (hn : n ≤ 32) {c : UInt8}
    (h : toupper c = toupper (.ofNat n)) : c = .ofNat n := by
  have hle : (UInt8.ofNat n).toNat ≤ 32 := by
    rw [UInt8.toNat_ofNat', Nat.mod_eq_of_lt (by omega)]
    exact hn
  generalize UInt8.ofNat n = d at h hle ⊢
  -- a length is below the letters of either case
  have hd : toupper d = d := by
    apply if_neg
    intro hletter
    have hlow : 97 ≤ d.toNat := UInt8.le_iff_toNat_le.mp hletter.1
    omega
  rw [hd, toupper] at h
  split at h
  · rename_i hletter
    have hlow : 97 ≤ c.toNat := UInt8.le_iff_toNat_le.mp hletter.1
    have hupper : c.toNat - 32 = d.toNat := by
      rw [← h, UInt8.toNat_sub_of_le c 32 (UInt8.le_iff_toNat_le.mpr (le_trans (by decide) hlow))]
      rfl
    omega
  · exact h

/-- The walk over a label. -/
theorem walkName_label (l : List UInt8) : ∀ (x name query : List UInt8), SameName x l →
    walkName l.length (l ++ name) (x ++ query) = walkName 0 name query := by
  induction l with
  | nil =>
    intro x name query h
    obtain rfl : x = [] := by simpa [SameName] using h
    rfl
  | cons c l ih =>
    intro x name query h
    obtain ⟨d, x, rfl, hd, hx⟩ := List.map_eq_cons_iff.mp
      (show x.map toupper = toupper c :: l.map toupper from h)
    rw [List.cons_append, List.cons_append, List.length_cons, walkName, if_pos hd.symm]
    exact ih x name query hx

/-- **The encoding of the name** is walked through to its end. -/
theorem walkName_of_encoding (labels : List (List UInt8)) :
    ∀ (l : List UInt8) (query : List UInt8), (dottedName (l :: labels)).length ≤ 32 →
      SameName query (l ++ encodeLabels labels) →
      walkName l.length (dottedName (l :: labels)) query = some (0, []) := by
  induction labels with
  | nil =>
    intro l query _ h
    have hwalk := walkName_label l query [] [] (by simpa [encodeLabels] using h)
    rw [List.append_nil, List.append_nil] at hwalk
    exact hwalk
  | cons l' ls ih =>
    intro l query hle h
    -- the characters of the label, the length of the next one, and the rest
    rw [SameName, List.map_append] at h
    obtain ⟨x, y, rfl, hx, hy⟩ := List.map_eq_append_iff.mp h
    replace hy : y.map toupper
        = toupper (.ofNat l'.length) :: (l' ++ encodeLabels ls).map toupper := hy
    obtain ⟨d, z, rfl, hd, hz⟩ := List.map_eq_cons_iff.mp hy
    rw [dottedName, List.length_append, List.length_cons] at hle
    have hlen : l'.length ≤ (dottedName (l' :: ls)).length := by
      cases ls with
      | nil => exact le_rfl
      | cons l'' ls => rw [dottedName, List.length_append]; omega
    have hlength := length_of_toupper (by omega) hd
    rw [dottedName, walkName_label l x _ _ hx, walkName, hlength,
      if_neg (length_not_compressed l'.length (by omega)), UInt8.toNat_ofNat',
      Nat.mod_eq_of_lt (by omega)]
    exact ih l' z (by omega) hz

/-! ### The condition -/

/-- Inside the name, of which the first `extent` bytes of its field count, or inside the query at
    `q` with its NUL. -/
def InNameOrQuery (extent q : ℕ) (query : List UInt8) : DnsPlace → Prop
  | .server p => offDnsName ≤ p ∧ p < offDnsName + extent
  | .message p => q ≤ p ∧ p ≤ q + query.length

instance (extent q : ℕ) (query : List UInt8) : DecidablePred (InNameOrQuery extent q query)
  | .server p => inferInstanceAs (Decidable (offDnsName ≤ p ∧ p < offDnsName + extent))
  | .message p => inferInstanceAs (Decidable (q ≤ p ∧ p ≤ q + query.length))

/-- The query is empty or too long; or it does not begin with a compressed name and the walk over
    the configured name stops before its end, or the name has at most 31 characters and what is
    left of the query at its end does no harm. -/
def NameTakenRight (extent : ℕ) (labels : List (List UInt8)) (query : List UInt8) : Prop :=
  query = [] ∨ 33 < query.length ∨ ∃ n rest, query = n :: rest ∧ n &&& 0xc0 ≠ 0xc0 ∧
    ∀ left ∈ walkName n.toNat (dottedName labels) rest, (dottedName labels).length ≤ 31 ∧
      EndsRight ((dottedName labels).length + 1 < extent) (IsEncodingOf query labels) left.1 left.2

section Compare

variable {s m : Memory} {S : DnsPlace → Prop} {labels : List (List UInt8)} {q fuel : ℕ}
  {query : List UInt8}

/-- The encoding of a configured name has 2 to 33 bytes. -/
theorem IsEncodingOf.length (h : IsEncodingOf query labels) (hlabels : ConfigurableName labels) :
    query.length = (dottedName labels).length + 1 := by
  unfold IsEncodingOf SameName at h
  have hlen := congrArg List.length h
  rw [List.length_map, List.length_map, length_encodeName hlabels.ne, List.length_append,
    List.length_singleton] at hlen
  omega

/-- The encoding of the name leaves nothing at the end of the walk. -/
theorem IsEncodingOf.walk {n : UInt8} {rest : List UInt8} (h : IsEncodingOf (n :: rest) labels)
    (hlabels : ConfigurableName labels) :
    walkName n.toNat (dottedName labels) rest = some (0, []) := by
  cases labels with
  | nil => exact absurd rfl hlabels.ne
  | cons l ls =>
    have hle := hlabels.le
    have hlen : l.length ≤ (dottedName (l :: ls)).length := by
      cases ls with
      | nil => exact le_rfl
      | cons l' ls => rw [dottedName, List.length_append]; omega
    have hsame := isEncodingOf_iff.mp h
    rw [SameName, encodeLabels, List.flatMap_cons, List.cons_append, List.map_cons, List.map_cons,
      List.cons.injEq] at hsame
    rw [length_of_toupper (by omega) hsame.1, UInt8.toNat_ofNat', Nat.mod_eq_of_lt (by omega)]
    exact walkName_of_encoding ls l rest hle hsame.2

/-- The first byte of the query.  If it is compressed, the comparison reads the byte in front of
    the name. -/
theorem comparesRight_first {n : UInt8} {rest : List UInt8} {extent : ℕ} {R : Prop} (hq : m q = n) :
    ComparesRight s m (InNameOrQuery extent q (n :: rest)) R
        (Loads.dnsCompareLoop (fuel + 1) offDnsName q) ↔
      n &&& 0xc0 ≠ 0xc0 ∧ ComparesRight s m (InNameOrQuery extent q (n :: rest)) R
        (compareRest fuel n.toNat offDnsName (q + 1)) := by
  have hn : dnsCells s m (.message q) = n := hq
  have hbefore : ¬ InNameOrQuery extent q (n :: rest) (.server 3) := fun h => absurd h.1 (by decide)
  have hcell : InNameOrQuery extent q (n :: rest) (.message q) := ⟨le_rfl, Nat.le_add_right _ _⟩
  rw [dnsCompareLoop_succ]
  by_cases hcompressed : n &&& 0xc0 = 0xc0
  · refine iff_of_false (fun hright => ?_) fun h => h.1 hcompressed
    have hreads := ((readsWithin_load_bind _ _).mp hright.2).2
    rw [hn, if_pos hcompressed] at hreads
    exact hbefore ((readsWithin_dnsNameEnds 3).mp hreads)
  · rw [and_iff_right hcompressed]
    unfold ComparesRight
    rw [valueOn_load_bind, readsWithin_load_bind, hn, if_neg hcompressed, and_iff_right hcell]

/-- The name and what follows the first byte of the query lie side by side. -/
theorem nameAndQuery_of_configured {n : UInt8} {rest : List UInt8} {extent : ℕ}
    (hlabels : ConfigurableName labels) (hs : Configured s (dottedName labels))
    (hq : BytesAt m q (n :: rest ++ [0])) (hnul : 0 ∉ n :: rest)
    (hextent : extent = min ((dottedName labels).length + 1) 32 ∨ extent = 32) :
    NameAndQuery s m (InNameOrQuery extent q (n :: rest)) offDnsName (q + 1) (dottedName labels)
      rest where
  nameAt := bytesAt_of_getElem (hs.field hlabels.le).1
  queryAt := hq.2
  nameNul := zero_not_mem_dottedName hlabels.noNul
  queryNul := fun h => hnul (List.mem_cons_of_mem n h)
  nameCells := fun i hi => by
    have hle := hlabels.le
    exact ⟨Nat.le_add_right _ _, by omega⟩
  queryCells := fun i hi => ⟨by omega, by rw [List.length_cons]; omega⟩

/-- What the comparison does with a query of 1 to 33 bytes. -/
theorem comparesRight_loop {n : UInt8} {rest : List UInt8} {extent : ℕ}
    (hlabels : ConfigurableName labels) (hs : Configured s (dottedName labels))
    (hq : BytesAt m q (n :: rest ++ [0])) (hnul : 0 ∉ n :: rest) (hfuel : rest.length ≤ fuel)
    (hextent : extent = min ((dottedName labels).length + 1) 32 ∨ extent = 32) :
    ComparesRight s m (InNameOrQuery extent q (n :: rest)) (IsEncodingOf (n :: rest) labels)
        (Loads.dnsCompareLoop (fuel + 1) offDnsName q) ↔
      n &&& 0xc0 ≠ 0xc0 ∧ ∀ left ∈ walkName n.toNat (dottedName labels) rest,
        (dottedName labels).length ≤ 31 ∧ EndsRight ((dottedName labels).length + 1 < extent)
          (IsEncodingOf (n :: rest) labels) left.1 left.2 := by
  obtain ⟨-, hzero⟩ := hs.field hlabels.le
  have hle := hlabels.le
  have hwalk := compareRest_walk (dottedName labels) fuel n.toNat _ _ rest hfuel
    (nameAndQuery_of_configured hlabels hs hq hnul hextent)
  rw [comparesRight_first hq.1]
  apply and_congr_right
  intro _
  cases hleft : walkName n.toNat (dottedName labels) rest with
  | none =>
    rw [hleft] at hwalk
    refine iff_of_true ⟨⟨1, hwalk.1, iff_of_false (by decide) fun his => ?_⟩, hwalk.2⟩
      fun _ h => by cases h
    rw [his.walk hlabels] at hleft
    cases hleft
  | some left =>
    obtain ⟨k, query⟩ := left
    rw [hleft] at hwalk
    obtain ⟨fuel', q', hfuel', hend, hstrings', hvalue, hreads⟩ := hwalk
    have htransfer : ComparesRight s m (InNameOrQuery extent q (n :: rest))
        (IsEncodingOf (n :: rest) labels) (compareRest fuel n.toNat offDnsName (q + 1)) ↔
        ComparesRight s m (InNameOrQuery extent q (n :: rest)) (IsEncodingOf (n :: rest) labels)
          (compareRest fuel' k (offDnsName + (dottedName labels).length) q') := by
      unfold ComparesRight
      rw [hvalue, hreads]
    simp only [htransfer, Option.mem_some_iff, forall_eq']
    by_cases hlen : (dottedName labels).length ≤ 31
    · have hname : IsEncodingOf (n :: rest) labels → k = 0 ∧ query = [] := fun his => by
        have hwalk := his.walk hlabels
        rw [hleft] at hwalk
        cases hwalk
        exact ⟨rfl, rfl⟩
      have hpadding : InNameOrQuery extent q (n :: rest)
          (.server (offDnsName + (dottedName labels).length + 1))
          = ((dottedName labels).length + 1 < extent) :=
        propext ⟨fun h => by have := h.2; omega, fun h => ⟨by omega, by omega⟩⟩
      rw [and_iff_right hlen, comparesRight_end hfuel' hstrings' (hzero _ le_rfl (by omega))
        ⟨Nat.le_add_right _ _, by omega⟩ (fun h => ?_) (fun h => ?_) hname,
        hpadding]
      · rw [hpadding] at h
        exact hzero ((dottedName labels).length + 1) (by omega) (by omega)
      · have hbehind := h.2
        rw [List.length_cons] at hbehind
        omega
    · -- the name fills its field
      refine iff_of_false (fun hright => ?_) fun h => hlen h.1
      refine not_readsWithin_full hfuel' hstrings' (fun h => ?_) (fun h => ?_) hright.2
      · have := h.2
        omega
      · have := h.2
        omega

end Compare

/-- **When the comparison of names is right.**  For every name that `DNSS_Start` or `DNSS_Config`
    can store and every query in the message, `_DnsCompareName` returns 0 exactly for the encoding
    of the name up to case, and reads the name and the query only, if and only if the query is
    taken right.  The name can be its characters with the NUL behind them, or its whole field. -/
theorem compare_name_right_iff (hlabels : ConfigurableName labels)
    (hs : Configured s (dottedName labels)) {m : Memory} {q fuel : ℕ} {query : List UInt8}
    (hq : BytesAt m q (query ++ [0])) (hnul : 0 ∉ query) (hfuel : query.length < fuel)
    {extent : ℕ}
    (hextent : extent = min ((dottedName labels).length + 1) 32 ∨ extent = 32) :
    ComparesRight s m (InNameOrQuery extent q query) (IsEncodingOf query labels)
        (Loads.dnsCompareName fuel q) ↔ NameTakenRight extent labels query := by
  have hlength := strlen_of_bytesAt hq hnul
  unfold defStrlenMaxVal at hlength
  have hstrlen : ReadsWithin (dnsCells s m) (InNameOrQuery extent q query) (Loads.strlen q) :=
    (readsWithin_strLenN s m _ q).mpr fun i (hi : i ≤ strlen m q) => ⟨by omega, by omega⟩
  have hprog : ComparesRight s m (InNameOrQuery extent q query) (IsEncodingOf query labels)
      (Loads.dnsCompareName fuel q) ↔
      ComparesRight s m (InNameOrQuery extent q query) (IsEncodingOf query labels)
        (if u32 (strlen m q - 1) > 32 then pure (some 1)
        else Loads.dnsCompareLoop fuel offDnsName q) := by
    unfold ComparesRight Loads.dnsCompareName
    rw [valueOn_bind, readsWithin_bind, valueOn_strlen, and_iff_right hstrlen]
  rw [hprog]
  have hle := hlabels.le
  by_cases hshort : 0 < query.length ∧ query.length ≤ 33
  · obtain ⟨n, rest, rfl⟩ := List.exists_cons_of_length_pos hshort.1
    obtain ⟨fuel, rfl⟩ : ∃ f, fuel = f + 1 := ⟨fuel - 1, by omega⟩
    rw [if_neg (by unfold u32; omega),
      comparesRight_loop hlabels hs hq hnul (by rw [List.length_cons] at hfuel; omega) hextent]
    unfold NameTakenRight
    constructor
    · exact fun h => .inr (.inr ⟨n, rest, rfl, h⟩)
    · rintro (h | h | ⟨n', rest', heq, h⟩)
      · cases h
      · omega
      · cases heq
        exact h
  · rw [if_pos (by unfold u32; omega)]
    refine iff_of_true ⟨⟨1, rfl, iff_of_false (by decide) fun his => ?_⟩, readsWithin_pure _⟩ ?_
    · have hlength := his.length hlabels
      omega
    · by_cases hempty : query = []
      · exact .inl hempty
      · have hpos := List.length_pos_iff.mpr hempty
        exact .inr (.inl (by omega))

/-- The name `WIFI` on the wire, behind a header. -/
def sampleWire : Memory := storeBytes (fun _ => 0) sizeofDnsHeader (4 :: ascii "WIFI" ++ [0])

theorem compare_name_right_iff_sample :
    ComparesRight sampleDns sampleWire (InNameOrQuery 32 sizeofDnsHeader (4 :: ascii "WIFI"))
        (IsEncodingOf (4 :: ascii "WIFI") [ascii "wifi"]) (Loads.dnsCompareName 6 sizeofDnsHeader) ↔
      NameTakenRight 32 [ascii "wifi"] (4 :: ascii "WIFI") := by
  have hlabels : ConfigurableName [ascii "wifi"] :=
    ⟨by decide, by decide, by decide, by decide, by decide⟩
  exact compare_name_right_iff hlabels sampleDns_configured (bytesAt_storeBytes _ _ _) (by decide)
    (by decide) (.inr rfl)

/-- A server with the name `axb`. -/
def axbDns : Memory := (dnssConfig (fun _ => 0) (some (ascii "axb"))).1

/-- The query `a.b` on the wire. -/
def abWire : Memory := storeBytes (fun _ => 0) sizeofDnsHeader [1, 97, 1, 98, 0]

/-- The name `axb` is taken for `a.b`: what stands in the place of a dot is not looked at. -/
theorem other_name_accepted :
    ¬ ∀ (labels : List (List UInt8)) (s m : Memory) (q fuel : ℕ) (query : List UInt8) (extent : ℕ),
      ConfigurableName labels → Configured s (dottedName labels) → BytesAt m q (query ++ [0]) →
      0 ∉ query → query.length < fuel →
      extent = min ((dottedName labels).length + 1) 32 ∨ extent = 32 →
      ComparesRight s m (InNameOrQuery extent q query) (IsEncodingOf query labels)
        (Loads.dnsCompareName fuel q) := by
  intro hall
  have hlabels : ConfigurableName [ascii "axb"] :=
    ⟨by decide, by decide, by decide, by decide, by decide⟩
  obtain ⟨⟨r, hr, hzero⟩, -⟩ := hall [ascii "axb"] axbDns abWire sizeofDnsHeader 5 [1, 97, 1, 98] 32
    hlabels ⟨_, .inr (Prod.ext rfl rfl)⟩ (bytesAt_storeBytes _ _ _) (by decide) (by decide)
    (.inr rfl)
  have haccepted : valueOn (dnsCells axbDns abWire) (Loads.dnsCompareName 5 sizeofDnsHeader)
      = some 0 := by
    decide
  rw [haccepted] at hr
  have hname : IsEncodingOf [1, 97, 1, 98] [ascii "axb"] :=
    hzero.mp (Option.some.inj hr).symm
  exact absurd (isEncodingOf_iff.mp hname) (by decide)

end SerialNet
