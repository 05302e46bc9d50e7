import SerialNet.Dns.Server
import SerialNet.Lib.DomainName

namespace SerialNet

/-!
# What `_DnsCompareName` accepts

The characters of each label are compared with the stored name, and the character of the stored
name between two labels is skipped, whatever it is; behind the last label the stored name must
end (`labelsMatch`).  `dnsCompareLoop_spec` says that the loop computes this.  A name with the
configured text is accepted (`labelsMatch_of_sameName`), but not only such a name.
-/

/-- The characters of a label agree with the stored ones from `a` on. -/
def labelMatch (s : Memory) : ℕ → List UInt8 → Bool
  | _, [] => true
  | a, c :: cs => toupper (s a) = toupper c && labelMatch s (a + 1) cs

/-- The labels agree with the stored name at `a`, with any character in place of a dot. -/
def labelsMatch (s : Memory) : ℕ → List (List UInt8) → Bool
  | a, [] => s (a - 1) = 0
  | a, l :: ls => labelMatch s a l && labelsMatch s (a + l.length + 1) ls

variable {s m : Memory}

/-- The inner loop. -/
theorem dnsCompareLabel_spec {l : List UInt8} {a q : ℕ} (hq : BytesAt m q l) :
    dnsCompareLabel s m l.length a q
      = if labelMatch s a l then some (a + l.length, q + l.length) else none := by
  induction l generalizing a q with
  | nil => rfl
  | cons c cs ih =>
    obtain ⟨hc, hcs⟩ := bytesAt_cons.mp hq
    rw [List.length_cons, dnsCompareLabel, hc, labelMatch]
    by_cases hsame : toupper (s a) = toupper c
    · rw [if_neg (not_not.mpr hsame), ih hcs, decide_eq_true hsame, Bool.true_and]
      simp only [Nat.add_assoc, Nat.add_comm 1]
    · rw [if_pos hsame, decide_eq_false hsame]
      rfl

/-- The length of a label is not mistaken for a compressed name. -/
theorem length_not_compressed : ∀ n < 64, UInt8.ofNat n &&& 0xc0 ≠ 0xc0 := by decide

/-- **The loop over the labels** of an uncompressed name. -/
theorem dnsCompareLoop_spec {labels : List (List UInt8)} (hne : labels ≠ [])
    (hle : ∀ l ∈ labels, l.length ≤ 63) (hpos : ∀ l ∈ labels, 0 < l.length) {fuel a q : ℕ}
    (hfuel : labels.length ≤ fuel) (hq : BytesAt m q (encodeName labels)) :
    dnsCompareLoop s m fuel a q = some (if labelsMatch s a labels then 0 else 1) := by
  induction labels generalizing fuel a q with
  | nil => exact absurd rfl hne
  | cons l ls ih =>
    obtain ⟨fuel, rfl⟩ : ∃ k, fuel = k + 1 :=
      ⟨fuel - 1, by rw [List.length_cons] at hfuel; omega⟩
    have hl := hle l (by simp)
    obtain ⟨hlen, hrest⟩ := bytesAt_cons.mp hq
    obtain ⟨hlabel, hnext⟩ := bytesAt_append.mp hrest
    have hn : (m q).toNat = l.length := by
      rw [hlen, UInt8.toNat_ofNat_of_lt' (by show l.length < 256; omega)]
    rw [dnsCompareLoop]
    dsimp only
    rw [if_neg (by rw [hlen]; exact length_not_compressed l.length (by omega)), hn,
      dnsCompareLabel_spec hlabel, labelsMatch]
    by_cases hmatch : labelMatch s a l
    · rw [if_pos hmatch, hmatch, Bool.true_and]
      dsimp only
      cases ls with
      | nil =>
        -- the zero that ends the name
        have hzero : m (q + 1 + l.length) = 0 := (bytesAt_cons.mp hnext).1
        rw [if_neg (not_not.mpr hzero), labelsMatch]
        simp
      | cons l' ls =>
        have hmore : m (q + 1 + l.length) ≠ 0 := by
          rw [(bytesAt_cons.mp hnext).1]
          exact ofNat_length_ne_zero (hpos l' (by simp)) (hle l' (by simp))
        rw [if_pos hmore]
        refine ih (by simp) (fun x hx => hle x (by simp [hx])) (fun x hx => hpos x (by simp [hx]))
          ?_ hnext
        simp only [List.length_cons] at hfuel ⊢
        omega
    · rw [if_neg hmatch]
      simp [hmatch]

/-- A stored text that agrees with a label up to case. -/
theorem labelMatch_of_sameName {x l : List UInt8} {a : ℕ} (hx : BytesAt s a x)
    (hsame : SameName x l) : labelMatch s a l = true := by
  induction x generalizing l a with
  | nil =>
    cases l with
    | nil => rfl
    | cons c cs => simp [SameName] at hsame
  | cons b bs ih =>
    cases l with
    | nil => simp [SameName] at hsame
    | cons c cs =>
      obtain ⟨hb, hbs⟩ := bytesAt_cons.mp hx
      simp only [SameName, List.map_cons, List.cons.injEq] at hsame
      rw [labelMatch, hb, ih hbs hsame.2, hsame.1]
      simp

/-- The stored text is accepted as itself, up to case. -/
theorem labelsMatch_of_sameName {labels : List (List UInt8)} (hne : labels ≠ []) {x : List UInt8}
    {a : ℕ} (hx : BytesAt s a (x ++ [0])) (hsame : SameName x (dottedName labels)) :
    labelsMatch s a labels = true := by
  induction labels generalizing x a with
  | nil => exact absurd rfl hne
  | cons l ls ih =>
    cases ls with
    | nil =>
      replace hsame : SameName x l := hsame
      have hlen : x.length = l.length := by
        have := congrArg List.length hsame
        simpa using this
      obtain ⟨hbytes, hend⟩ := bytesAt_append.mp hx
      rw [labelsMatch, labelMatch_of_sameName hbytes hsame, labelsMatch, ← hlen,
        Nat.add_sub_cancel, (bytesAt_cons.mp hend).1]
      rfl
    | cons l' ls =>
      -- the text up to the first dot, the dot, and the rest
      have hparts := hsame
      rw [SameName, dottedName, List.map_append, List.map_cons] at hparts
      obtain ⟨x₁, x₂, rfl, h₁, h₂⟩ := List.map_eq_append_iff.mp hparts
      obtain ⟨c, x₃, rfl, -, h₃⟩ := List.map_eq_cons_iff.mp h₂
      have hlen : x₁.length = l.length := by
        have := congrArg List.length h₁
        simpa using this
      rw [List.append_assoc, List.cons_append] at hx
      obtain ⟨hbytes, hrest⟩ := bytesAt_append.mp hx
      rw [labelsMatch, labelMatch_of_sameName hbytes h₁, Bool.true_and]
      rw [hlen] at hrest
      exact ih (by simp) (bytesAt_cons.mp hrest).2 h₃

end SerialNet
