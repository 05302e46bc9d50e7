import SerialNet.Timer.Wheel
import Mathlib.Data.Fintype.Card

namespace SerialNet

/-!
# The lists of the timer wheel

`Timers.Wf` names the nodes of every list: the spokes hold exactly the running timers, each the
ones whose time falls on it, and the free list holds exactly the unused ones.  The operations are
stated on these lists.  Taking a timer out lets the links to it skip it, everywhere
(`Wf.unlink_tbl`), and putting one in makes it the first of its spoke (`Wf.link`).
-/

namespace Timers

/-- `OSTmrNext`. -/
def nextOf (T : Timers) (t : TmrId) : Option TmrId := (T.tbl t).next

/-- `OSTmrPrev`. -/
def prevOf (T : Timers) (t : TmrId) : Option TmrId := (T.tbl t).prev

/-- The lists of the wheel, and what the timers in none of them look like. -/
structure Wf (T : Timers) (spokes : ℕ → List TmrId) (unused : List TmrId) : Prop where
  chain : ∀ i, Chain T.nextOf (T.wheel i).first (spokes i)
  back : ∀ i, Back T.prevOf none (spokes i)
  nodup : ∀ i, (spokes i).Nodup
  mem : ∀ i t, t ∈ spokes i ↔
    (T.tbl t).state = .running ∧ (T.tbl t).matchTime % osTmrCfgWheelSize = i
  entries : ∀ i, (T.wheel i).entries = (spokes i).length
  freeChain : Chain T.nextOf T.freeList unused
  freeNodup : unused.Nodup
  memFree : ∀ t, t ∈ unused ↔ (T.tbl t).state = .unused
  free : T.free = unused.length
  used : T.used + unused.length = 16
  type : ∀ t, (T.tbl t).type = osTmrType
  /-- A timer in no spoke has no back link, and one in no list no link. -/
  prevNone : ∀ t, (T.tbl t).state ≠ .running → (T.tbl t).prev = none
  nextNone : ∀ t, (T.tbl t).state = .stopped ∨ (T.tbl t).state = .completed →
    (T.tbl t).next = none
  timeLt : T.time < 4294967296
  matchLt : ∀ t, (T.tbl t).matchTime < 4294967296

variable {T : Timers} {spokes : ℕ → List TmrId} {unused : List TmrId} {t u : TmrId}

namespace Wf

/-- A spoke has no more timers than there are. -/
theorem length_le (h : T.Wf spokes unused) (i : ℕ) : (spokes i).length ≤ 16 := by
  simpa using (h.nodup i).length_le_card

/-- The free list has no more timers than there are. -/
theorem freeLength_le (h : T.Wf spokes unused) : unused.length ≤ 16 := by
  have := h.used
  omega

/-- A running timer is in its spoke. -/
theorem mem_spoke (h : T.Wf spokes unused) (ht : (T.tbl t).state = .running) :
    t ∈ spokes ((T.tbl t).matchTime % osTmrCfgWheelSize) :=
  (h.mem _ t).mpr ⟨ht, rfl⟩

/-- The only link to a running timer is that of the one before it. -/
theorem next_eq_iff (h : T.Wf spokes unused) (ht : (T.tbl t).state = .running) :
    (T.tbl u).next = some t ↔ (T.tbl t).prev = some u := by
  have hmem := h.mem_spoke ht
  have hboth : u ∈ spokes ((T.tbl t).matchTime % osTmrCfgWheelSize) →
      ((T.tbl u).next = some t ↔ (T.tbl t).prev = some u) := fun hu =>
    next_eq_iff_prev_eq (h.chain _) (h.back _) (h.nodup _) hmem hu (by simp)
  constructor
  · intro hnext
    cases hu : (T.tbl u).state with
    | unused =>
      have := List.mem_of_mem_tail (h.freeChain.next_mem_tail ((h.memFree u).mpr hu) hnext)
      rw [h.memFree, ht] at this
      cases this
    | stopped => rw [h.nextNone u (.inl hu)] at hnext; cases hnext
    | completed => rw [h.nextNone u (.inr hu)] at hnext; cases hnext
    | running =>
      have := List.mem_of_mem_tail ((h.chain _).next_mem_tail (h.mem_spoke hu) hnext)
      rw [h.mem] at this
      rw [this.2] at hboth
      exact (hboth (h.mem_spoke hu)).mp hnext
  · intro hprev
    rcases (h.back _).exists_before hmem hprev with hq | hu
    · cases hq
    · exact (hboth hu).mpr hprev

/-- The only back link to a running timer is that of the one behind it. -/
theorem prev_eq_iff (h : T.Wf spokes unused) (ht : (T.tbl t).state = .running) :
    (T.tbl u).prev = some t ↔ (T.tbl t).next = some u := by
  have hmem := h.mem_spoke ht
  constructor
  · intro hprev
    by_cases hu : (T.tbl u).state = .running
    · exact (h.next_eq_iff hu).mpr hprev
    · rw [h.prevNone u hu] at hprev
      cases hprev
  · intro hnext
    have hu := List.mem_of_mem_tail ((h.chain _).next_mem_tail hmem hnext)
    exact (h.next_eq_iff ((h.mem _ u).mp hu).1).mp hnext

/-- A timer that the pointer of a spoke leads to is in it. -/
theorem first_mem (h : T.Wf spokes unused) {i : ℕ} (hfirst : (T.wheel i).first = some t) :
    t ∈ spokes i :=
  List.mem_of_mem_head? ((h.chain i).head?_eq.trans hfirst)

/-- A timer is the first of its spoke if it has no back link. -/
theorem first_iff (h : T.Wf spokes unused) (ht : (T.tbl t).state = .running) :
    (T.wheel ((T.tbl t).matchTime % osTmrCfgWheelSize)).first = some t ↔
      (T.tbl t).prev = none := by
  have hmem := h.mem_spoke ht
  have hchain := h.chain ((T.tbl t).matchTime % osTmrCfgWheelSize)
  have hback := h.back ((T.tbl t).matchTime % osTmrCfgWheelSize)
  cases hl : spokes ((T.tbl t).matchTime % osTmrCfgWheelSize) with
  | nil =>
    rw [hl] at hmem
    cases hmem
  | cons a l =>
    rw [hl] at hmem hchain hback
    rw [hchain.1, Option.some.injEq]
    constructor
    · rintro rfl
      exact hback.1
    · intro hprev
      by_contra hne
      -- Every other timer of the list has one before it.
      obtain ⟨b, hb⟩ := hback.2.exists_prev ((List.mem_cons.mp hmem).resolve_left (Ne.symm hne))
      rw [prevOf, hprev] at hb
      cases hb

end Wf

/-! ### Taking a timer out -/

/-- Only the back link of this timer is stored. -/
@[simp] theorem setPrev_tbl (T : Timers) (p q : Option TmrId) (u : TmrId) :
    (T.setPrev p q).tbl u = if p = some u then { T.tbl u with prev := q } else T.tbl u := by
  cases p with
  | none => rfl
  | some a =>
    by_cases hu : u = a
    · subst hu
      simp [setPrev, setTmr]
    · simp [setPrev, setTmr, hu, Ne.symm hu]

/-- The back link of a timer is not in the wheel. -/
@[simp] theorem setPrev_wheel (T : Timers) (p q : Option TmrId) :
    (T.setPrev p q).wheel = T.wheel := by
  cases p <;> rfl

/-- Time, free list and counters are left alone. -/
@[simp] theorem setPrev_rest (T : Timers) (p q : Option TmrId) :
    (T.setPrev p q).time = T.time ∧ (T.setPrev p q).freeList = T.freeList ∧
      (T.setPrev p q).used = T.used ∧ (T.setPrev p q).free = T.free := by
  cases p <;> exact ⟨rfl, rfl, rfl, rfl⟩

/-- The timers behind `OSTmr_Unlink` of a running timer. -/
def unlinked (T : Timers) (t : TmrId) : Timers :=
  let c := T.tbl t
  let i := c.matchTime % osTmrCfgWheelSize
  { T with
    tbl := fun u =>
      if u = t then { c with state := .stopped, next := none, prev := none }
      else
        { T.tbl u with
          next := if (T.tbl u).next = some t then c.next else (T.tbl u).next
          prev := if (T.tbl u).prev = some t then c.prev else (T.tbl u).prev }
    wheel := Function.update T.wheel i
      ⟨if (T.wheel i).first = some t then c.next else (T.wheel i).first,
        u16 ((T.wheel i).entries - 1)⟩ }

namespace Wf

/-- **`OSTmr_Unlink` of a running timer** lets every link to it skip it. -/
theorem osTmrUnlink_eq (h : T.Wf spokes unused) (ht : (T.tbl t).state = .running) :
    T.osTmrUnlink t = some (T.unlinked t) := by
  have hself : (T.tbl t).next ≠ some t :=
    (h.chain _).next_ne_self (h.nodup _) (h.mem_spoke ht)
  have hself' : (T.tbl t).prev ≠ some t := fun hprev => hself ((h.prev_eq_iff ht).mp hprev)
  have hfirst := h.first_iff ht
  have hnext : ∀ u, (T.tbl u).next = some t ↔ (T.tbl t).prev = some u := fun _ => h.next_eq_iff ht
  have hprev : ∀ u, (T.tbl u).prev = some t ↔ (T.tbl t).next = some u := fun _ => h.prev_eq_iff ht
  simp only [osTmrUnlink, unlinked, hfirst, hnext, hprev]
  cases hp : (T.tbl t).prev with
  | none =>
    simp only [↓reduceIte, Option.map_some, Option.some.injEq]
    apply Timers.ext
    · funext u
      by_cases hu : u = t
      · simp [setTmr, setWheel, hu, hself]
      · by_cases hub : (T.tbl t).next = some u <;> simp [setTmr, setWheel, hu, hub]
    all_goals simp [setTmr, setWheel]
  | some a =>
    have hat : t ≠ a := fun hat => hself' (hat ▸ hp)
    simp only [reduceCtorEq, ↓reduceIte, Option.map_some, Option.some.injEq]
    apply Timers.ext
    · funext u
      by_cases hu : u = t
      · simp [setTmr, setWheel, hu, hself, hat]
      · by_cases hub : (T.tbl t).next = some u
        · by_cases hua : u = a
          · subst hua
            simp [setTmr, setWheel, hu, hub]
          · simp [setTmr, setWheel, hu, hub, hua, Ne.symm hua]
        · by_cases hua : u = a
          · subst hua
            simp [setTmr, setWheel, hu, hub]
          · simp [setTmr, setWheel, hu, hub, hua, Ne.symm hua]
    all_goals simp [setTmr, setWheel]

/-- A timer that is not running cannot be taken out. -/
theorem osTmrUnlink_eq_none (h : T.Wf spokes unused) (ht : (T.tbl t).state ≠ .running) :
    T.osTmrUnlink t = none := by
  have hfirst : (T.wheel ((T.tbl t).matchTime % osTmrCfgWheelSize)).first ≠ some t :=
    fun hfirst => ht ((h.mem _ t).mp (h.first_mem hfirst)).1
  simp only [osTmrUnlink, if_neg hfirst, h.prevNone t ht, Option.map_none]

/-- A timer in use is not on the free list. -/
theorem not_mem_unused (h : T.Wf spokes unused) (ht : (T.tbl t).state ≠ .unused) : t ∉ unused :=
  fun hmem => ht ((h.memFree t).mp hmem)

/-- A timer that does not run is on no spoke. -/
theorem not_mem_spoke (h : T.Wf spokes unused) (ht : (T.tbl t).state ≠ .running) (i : ℕ) :
    t ∉ spokes i :=
  fun hmem => ht ((h.mem i t).mp hmem).1

/-- `OSTmr_Unlink` takes a running timer out of its spoke. -/
theorem unlinked (h : T.Wf spokes unused) (ht : (T.tbl t).state = .running) :
    (T.unlinked t).Wf (fun i => (spokes i).erase t) unused where
  chain i := by
    apply (h.chain i).erase (h.nodup i)
    · intro hfirst
      obtain rfl := ((h.mem i t).mp (h.first_mem hfirst)).2
      simp [Timers.unlinked, nextOf, hfirst]
    · intro hfirst
      by_cases hi : i = (T.tbl t).matchTime % osTmrCfgWheelSize
      · subst hi
        simp [Timers.unlinked, hfirst]
      · simp [Timers.unlinked, hi]
    all_goals
      intro b _ hb hnext
      simp only [nextOf] at hnext
      simp [Timers.unlinked, nextOf, hb, hnext]
  back i := by
    apply (h.back i).erase (h.nodup i) (by simp) (by simp)
    all_goals
      intro b _ hb hprev
      simp only [prevOf] at hprev
      simp [Timers.unlinked, prevOf, hb, hprev]
  nodup i := (h.nodup i).erase t
  mem i u := by
    rw [(h.nodup i).mem_erase_iff, h.mem]
    by_cases hu : u = t <;> simp [Timers.unlinked, hu]
  entries i := by
    have hlen := h.entries i
    have hle := h.length_le i
    by_cases hi : i = (T.tbl t).matchTime % osTmrCfgWheelSize
    · subst hi
      have hpos := List.length_pos_of_mem (h.mem_spoke ht)
      rw [List.length_erase_of_mem (h.mem_spoke ht)]
      simp only [Timers.unlinked, Function.update_self]
      unfold u16
      omega
    · have hnot : t ∉ spokes i := fun hmem => hi ((h.mem i t).mp hmem).2.symm
      rw [List.erase_of_not_mem hnot]
      simpa [Timers.unlinked, hi] using hlen
  freeChain := by
    refine h.freeChain.congr fun b hb => ?_
    have hbt : b ≠ t := by
      rintro rfl
      exact h.not_mem_unused (by simp [ht]) hb
    have hnext : (T.tbl b).next ≠ some t := fun hnext =>
      h.not_mem_unused (by simp [ht]) (List.mem_of_mem_tail (h.freeChain.next_mem_tail hb hnext))
    simp [Timers.unlinked, nextOf, hbt, hnext]
  freeNodup := h.freeNodup
  memFree u := by
    by_cases hu : u = t
    · subst hu
      simp [Timers.unlinked, h.not_mem_unused (t := u) (by simp [ht])]
    · simp [Timers.unlinked, hu, h.memFree]
  free := h.free
  used := h.used
  type u := by
    by_cases hu : u = t <;> simp [Timers.unlinked, hu, h.type]
  prevNone u hu := by
    by_cases hut : u = t
    · simp [Timers.unlinked, hut]
    · simp only [Timers.unlinked, if_neg hut] at hu ⊢
      simp [h.prevNone u hu]
  nextNone u hu := by
    by_cases hut : u = t
    · simp [Timers.unlinked, hut]
    · simp only [Timers.unlinked, if_neg hut] at hu ⊢
      simp [h.nextNone u hu]
  timeLt := h.timeLt
  matchLt u := by
    by_cases hut : u = t <;> simp [Timers.unlinked, hut, h.matchLt]

end Wf

/-! ### Putting a timer in -/

/-- The spoke that `OSTmr_Link` puts a timer in. -/
def linkSpoke (T : Timers) (t : TmrId) (type : LinkType) : ℕ :=
  T.linkMatch (T.tbl t) type % osTmrCfgWheelSize

/-- The timers behind `OSTmr_Link`. -/
def linked (T : Timers) (t : TmrId) (type : LinkType) : Timers :=
  let w := T.wheel (T.linkSpoke t type)
  { T with
    tbl := fun u =>
      if u = t then
        { T.tbl t with
          state := .running, matchTime := T.linkMatch (T.tbl t) type
          next := w.first, prev := none }
      else if w.first = some u then { T.tbl u with prev := some t }
      else T.tbl u
    wheel := Function.update T.wheel (T.linkSpoke t type)
      ⟨some t, if w.first = none then 1 else u16 (w.entries + 1)⟩ }

/-- A match is a tick count of 32 bits. -/
theorem linkMatch_lt (T : Timers) (c : OsTmr) (type : LinkType) :
    T.linkMatch c type < 4294967296 := by
  cases type with
  | periodic => exact u32_lt _
  | dly =>
    simp only [linkMatch]
    split <;> exact u32_lt _

/-- **`OSTmr_Link`** puts a timer in front of a spoke. -/
theorem osTmrLink_eq {type : LinkType}
    (hfirst : (T.wheel (T.linkSpoke t type)).first ≠ some t) :
    T.osTmrLink t type = T.linked t type := by
  simp only [linkSpoke] at hfirst
  cases hf : (T.wheel (T.linkMatch (T.tbl t) type % osTmrCfgWheelSize)).first with
  | none =>
    simp only [osTmrLink, linked, linkSpoke, setTmr_wheel, hf]
    apply Timers.ext
    · funext u
      by_cases hu : u = t <;> simp [setTmr, setWheel, hu]
    all_goals simp [setTmr, setWheel]
  | some a =>
    have hat : t ≠ a := fun hat => hfirst (hat ▸ hf)
    simp only [osTmrLink, linked, linkSpoke, setTmr_wheel, hf]
    apply Timers.ext
    · funext u
      by_cases hu : u = t
      · subst hu
        simp [setTmr, setWheel, hat]
      · by_cases hua : u = a
        · subst hua
          simp [setTmr, setWheel, hu]
        · simp [setTmr, setWheel, hu, hua, Ne.symm hua]
    all_goals simp [setTmr, setWheel]

namespace Wf

/-- `OSTmr_Link` puts a timer in front of its spoke. -/
theorem linked (h : T.Wf spokes unused)
    (ht : (T.tbl t).state = .stopped ∨ (T.tbl t).state = .completed) (type : LinkType) :
    (T.linked t type).Wf
      (Function.update spokes (T.linkSpoke t type) (t :: spokes (T.linkSpoke t type))) unused := by
  have hrun : (T.tbl t).state ≠ .running := by rcases ht with ht | ht <;> simp [ht]
  have hused : (T.tbl t).state ≠ .unused := by rcases ht with ht | ht <;> simp [ht]
  have hnot := h.not_mem_spoke hrun
  have hnext : ∀ b, b ≠ t → (T.linked t type).nextOf b = T.nextOf b := fun b hb => by
    simp only [nextOf, Timers.linked, if_neg hb]
    split <;> rfl
  have hprev : ∀ b, b ≠ t → (T.wheel (T.linkSpoke t type)).first ≠ some b →
      (T.linked t type).prevOf b = T.prevOf b := fun b hb hf => by
    simp only [prevOf, Timers.linked, if_neg hb, if_neg hf]
  have hstate : ∀ b, b ≠ t → ((T.linked t type).tbl b).state = (T.tbl b).state ∧
      ((T.linked t type).tbl b).matchTime = (T.tbl b).matchTime ∧
      ((T.linked t type).tbl b).type = (T.tbl b).type := fun b hb => by
    simp only [Timers.linked, if_neg hb]
    split <;> exact ⟨rfl, rfl, rfl⟩
  have hfirst : (spokes (T.linkSpoke t type)).head? = (T.wheel (T.linkSpoke t type)).first :=
    (h.chain _).head?_eq
  have hspoke : ∀ {i b}, b ∈ spokes i → b ≠ t := fun hb hbt => hnot _ (hbt ▸ hb)
  refine
    { chain := fun i => ?_
      back := fun i => ?_
      nodup := fun i => ?_
      mem := fun i u => ?_
      entries := fun i => ?_
      freeChain := h.freeChain.congr fun b hb => hnext b ?_
      freeNodup := h.freeNodup
      memFree := fun u => ?_
      free := h.free
      used := h.used
      type := fun u => ?_
      prevNone := fun u hu => ?_
      nextNone := fun u hu => ?_
      timeLt := h.timeLt
      matchLt := fun u => ?_ }
  · by_cases hi : i = T.linkSpoke t type
    · subst hi
      simp only [Timers.linked, Function.update_self]
      exact (h.chain _).cons (hnot _) (by simp [nextOf]) hnext
    · simp only [Timers.linked, Function.update_of_ne hi]
      exact (h.chain i).congr fun b hb => hnext b (hspoke hb)
  · by_cases hi : i = T.linkSpoke t type
    · subst hi
      rw [Function.update_self]
      apply (h.back _).cons (h.nodup _)
      · simp [Timers.linked, prevOf]
      · intro b hb
        have hbt := hspoke (List.mem_of_mem_head? hb)
        rw [hfirst] at hb
        simp [Timers.linked, prevOf, hbt, Option.mem_def.mp hb]
      · intro b hb hhead
        rw [hfirst] at hhead
        exact hprev b (hspoke hb) hhead
    · rw [Function.update_of_ne hi]
      refine (h.back i).congr fun b hb => hprev b (hspoke hb) fun hf => hi ?_
      exact ((h.mem _ b).mp hb).2.symm.trans ((h.mem _ b).mp (h.first_mem hf)).2
  · by_cases hi : i = T.linkSpoke t type
    · subst hi
      rw [Function.update_self]
      exact (h.nodup _).cons (hnot _)
    · rw [Function.update_of_ne hi]
      exact h.nodup i
  · by_cases hu : u = t
    · subst hu
      by_cases hi : i = T.linkSpoke u type
      · subst hi
        simp [Timers.linked, linkSpoke]
      · rw [Function.update_of_ne hi]
        refine iff_of_false (hnot i) fun hmem => hi ?_
        simpa [Timers.linked, linkSpoke] using hmem.2.symm
    · rw [(hstate u hu).1, (hstate u hu).2.1, ← h.mem]
      by_cases hi : i = T.linkSpoke t type
      · subst hi
        simp [hu]
      · rw [Function.update_of_ne hi]
  · by_cases hi : i = T.linkSpoke t type
    · subst hi
      have hlen := ((h.nodup (T.linkSpoke t type)).cons (hnot _)).length_le_card
      have hentries := h.entries (T.linkSpoke t type)
      simp only [Timers.linked, Function.update_self, ← hfirst]
      rw [List.length_cons, Fintype.card_fin] at hlen
      cases hl : spokes (T.linkSpoke t type) with
      | nil => simp
      | cons b l =>
        rw [hl] at hlen hentries
        simp only [List.head?_cons, reduceCtorEq, ↓reduceIte, hentries, List.length_cons] at hlen ⊢
        unfold u16
        omega
    · simpa [Timers.linked, hi] using h.entries i
  · rintro rfl
    exact h.not_mem_unused hused hb
  · by_cases hu : u = t
    · subst hu
      simp [Timers.linked, h.not_mem_unused hused]
    · rw [(hstate u hu).1, h.memFree]
  · by_cases hu : u = t
    · simp [Timers.linked, hu, h.type]
    · rw [(hstate u hu).2.2, h.type]
  · by_cases hut : u = t
    · simp [Timers.linked, hut]
    · rw [(hstate u hut).1] at hu
      refine (hprev u hut fun hf => hu ?_).trans (h.prevNone u hu)
      exact ((h.mem _ u).mp (h.first_mem hf)).1
  · by_cases hut : u = t
    · subst hut
      simp [Timers.linked] at hu
    · rw [(hstate u hut).1] at hu
      exact (hnext u hut).trans (h.nextNone u hu)
  · by_cases hut : u = t
    · simp [Timers.linked, hut, linkMatch_lt]
    · rw [(hstate u hut).2.1]
      exact h.matchLt u

/-! ### The other operations -/

/-- A timer whose links, time and list do not change. -/
theorem setTmr (h : T.Wf spokes unused) {c : OsTmr} (htype : c.type = (T.tbl t).type)
    (hnext : c.next = (T.tbl t).next) (hprev : c.prev = (T.tbl t).prev)
    (hmatch : c.matchTime = (T.tbl t).matchTime)
    (hrun : c.state = .running ↔ (T.tbl t).state = .running)
    (hunused : c.state = .unused ↔ (T.tbl t).state = .unused) :
    (T.setTmr t c).Wf spokes unused := by
  have hlinks : (T.setTmr t c).nextOf = T.nextOf ∧ (T.setTmr t c).prevOf = T.prevOf := by
    constructor <;> funext u <;> by_cases hu : u = t <;>
      simp [nextOf, prevOf, Timers.setTmr, hu, hnext, hprev]
  have hstate : ∀ u, (((T.setTmr t c).tbl u).state = .running ↔ (T.tbl u).state = .running) ∧
      (((T.setTmr t c).tbl u).state = .unused ↔ (T.tbl u).state = .unused) ∧
      ((T.setTmr t c).tbl u).matchTime = (T.tbl u).matchTime ∧
      ((T.setTmr t c).tbl u).type = (T.tbl u).type := fun u => by
    by_cases hu : u = t
    · simp [Timers.setTmr, hu, hrun, hunused, hmatch, htype]
    · simp [Timers.setTmr, hu]
  refine
    { chain := hlinks.1 ▸ h.chain
      back := hlinks.2 ▸ h.back
      nodup := h.nodup
      mem := fun i u => ?_
      entries := h.entries
      freeChain := hlinks.1 ▸ h.freeChain
      freeNodup := h.freeNodup
      memFree := fun u => (h.memFree u).trans (hstate u).2.1.symm
      free := h.free
      used := h.used
      type := fun u => (hstate u).2.2.2.trans (h.type u)
      prevNone := fun u hu => (congrFun hlinks.2 u).trans (h.prevNone u (mt (hstate u).1.mpr hu))
      nextNone := fun u hu => (congrFun hlinks.1 u).trans (h.nextNone u ?_)
      timeLt := h.timeLt
      matchLt := fun u => (hstate u).2.2.1 ▸ h.matchLt u }
  · rw [h.mem, (hstate u).1, (hstate u).2.2.1]
  · have hrun' := mt (hstate u).1.mpr
    have hunused' := mt (hstate u).2.1.mpr
    cases hs : (T.tbl u).state with
    | stopped => exact .inl rfl
    | completed => exact .inr rfl
    | running => rcases hu with hu | hu <;> simp [hu, hs] at hrun'
    | unused => rcases hu with hu | hu <;> simp [hu, hs] at hunused'

/-- `OSTmr_Free` of a timer that is not in the wheel. -/
theorem osTmrFree (h : T.Wf spokes unused)
    (ht : (T.tbl t).state = .stopped ∨ (T.tbl t).state = .completed) :
    (T.osTmrFree t).Wf spokes (t :: unused) := by
  have hrun : (T.tbl t).state ≠ .running := by rcases ht with ht | ht <;> simp [ht]
  have hused : (T.tbl t).state ≠ .unused := by rcases ht with ht | ht <;> simp [ht]
  have hnot := h.not_mem_unused hused
  have hother : ∀ u, u ≠ t → (T.osTmrFree t).tbl u = T.tbl u := fun u hu => by
    simp [Timers.osTmrFree, Timers.setTmr, hu]
  have hspoke : ∀ {i b}, b ∈ spokes i → b ≠ t := fun hb hbt => h.not_mem_spoke hrun _ (hbt ▸ hb)
  have hlen := (h.freeNodup.cons hnot).length_le_card
  rw [List.length_cons, Fintype.card_fin] at hlen
  have hused' := h.used
  refine
    { chain := fun i => (h.chain i).congr fun b hb => ?_
      back := fun i => (h.back i).congr fun b hb => ?_
      nodup := h.nodup
      mem := fun i u => ?_
      entries := h.entries
      freeChain := h.freeChain.cons hnot ?_ fun b hb => ?_
      freeNodup := h.freeNodup.cons hnot
      memFree := fun u => ?_
      free := ?_
      used := ?_
      type := fun u => ?_
      prevNone := fun u hu => ?_
      nextNone := fun u hu => ?_
      timeLt := h.timeLt
      matchLt := fun u => ?_ }
  · rw [nextOf, hother b (hspoke hb), nextOf]
  · rw [prevOf, hother b (hspoke hb), prevOf]
  · by_cases hu : u = t
    · subst hu
      simp [Timers.osTmrFree, Timers.setTmr, h.not_mem_spoke hrun]
    · rw [hother u hu, h.mem]
  · simp [nextOf, Timers.osTmrFree, Timers.setTmr]
  · rw [nextOf, hother b hb, nextOf]
  · by_cases hu : u = t
    · simp [Timers.osTmrFree, Timers.setTmr, hu]
    · rw [hother u hu, List.mem_cons, h.memFree]
      simp [hu]
  · simp only [Timers.osTmrFree, h.free, List.length_cons]
    unfold u16
    omega
  · simp only [Timers.osTmrFree, List.length_cons]
    unfold u16
    omega
  · by_cases hu : u = t
    · simp [Timers.osTmrFree, Timers.setTmr, hu, h.type]
    · rw [hother u hu, h.type]
  · by_cases hut : u = t
    · simp [Timers.osTmrFree, Timers.setTmr, hut]
    · rw [hother u hut] at hu ⊢
      exact h.prevNone u hu
  · by_cases hut : u = t
    · simp [Timers.osTmrFree, Timers.setTmr, hut] at hu
    · rw [hother u hut] at hu ⊢
      exact h.nextNone u hu
  · by_cases hut : u = t
    · simp [Timers.osTmrFree, Timers.setTmr, hut]
    · rw [hother u hut]
      exact h.matchLt u

end Wf

/-- The timers behind a successful `OSTmrCreate`. -/
def created (T : Timers) (t : TmrId) (dly period opt : ℕ) (callback : Option ℕ) (arg : ℕ) : Timers :=
  { T.setTmr t
      { T.tbl t with
        state := .stopped, dly := dly, period := period, opt := opt
        callback := callback, callbackArg := arg, next := none, prev := none } with
    freeList := (T.tbl t).next
    used := u16 (T.used + 1)
    free := u16 (T.free - 1) }

/-- `OSTmrCreate` takes the first unused timer, or changes nothing. -/
theorem osTmrCreate_cases (T : Timers) (isr : Bool) (dly period opt : ℕ) (callback : Option ℕ)
    (arg : ℕ) :
    (T.osTmrCreate isr dly period opt callback arg).1 = T ∨
      ∃ t, T.freeList = some t ∧ T.osTmrCreate isr dly period opt callback arg =
        (T.created t dly period opt callback arg, some t, .none) := by
  unfold osTmrCreate
  split
  · exact .inl rfl
  · cases hf : T.freeList with
    | none => simp [osTmrAlloc, hf]
    | some t =>
      refine .inr ⟨t, rfl, ?_⟩
      simp [osTmrAlloc, hf, setTmr, created]

namespace Wf

/-- The created timer comes from the free list and is on no spoke yet. -/
theorem created (h : T.Wf spokes unused) (ht : T.freeList = some t) (dly period opt : ℕ)
    (callback : Option ℕ) (arg : ℕ) :
    ∃ rest, unused = t :: rest ∧ (T.created t dly period opt callback arg).Wf spokes rest := by
  cases hl : unused with
  | nil =>
    have := h.freeChain
    rw [hl, ht] at this
    cases this
  | cons a rest =>
    obtain ⟨hfirst, hchain⟩ := hl ▸ h.freeChain
    obtain rfl : t = a := Option.some.inj (ht.symm.trans hfirst)
    refine ⟨rest, rfl, ?_⟩
    subst hl
    obtain ⟨hnot, hnodup⟩ := List.nodup_cons.mp h.freeNodup
    have hunused : (T.tbl t).state = .unused := (h.memFree t).mp List.mem_cons_self
    have hother : ∀ u, u ≠ t → (T.created t dly period opt callback arg).tbl u = T.tbl u :=
      fun u hu => by simp [Timers.created, Timers.setTmr, hu]
    have hspoke : ∀ {i b}, b ∈ spokes i → b ≠ t := fun hb hbt =>
      h.not_mem_spoke (t := t) (by simp [hunused]) _ (hbt ▸ hb)
    have hlen := h.freeLength_le
    have hused := h.used
    rw [List.length_cons] at hlen hused
    refine
      { chain := fun i => (h.chain i).congr fun b hb => ?_
        back := fun i => (h.back i).congr fun b hb => ?_
        nodup := h.nodup
        mem := fun i u => ?_
        entries := h.entries
        freeChain := hchain.congr fun b hb => ?_
        freeNodup := hnodup
        memFree := fun u => ?_
        free := ?_
        used := ?_
        type := fun u => ?_
        prevNone := fun u hu => ?_
        nextNone := fun u hu => ?_
        timeLt := h.timeLt
        matchLt := fun u => ?_ }
    · rw [nextOf, hother b (hspoke hb), nextOf]
    · rw [prevOf, hother b (hspoke hb), prevOf]
    · by_cases hu : u = t
      · subst hu
        simp [Timers.created, Timers.setTmr, h.not_mem_spoke (t := u) (by simp [hunused])]
      · rw [hother u hu, h.mem]
    · rw [nextOf, hother b fun hbt => hnot (hbt ▸ hb), nextOf]
    · by_cases hu : u = t
      · subst hu
        simp [Timers.created, Timers.setTmr, hnot]
      · rw [hother u hu, ← h.memFree]
        simp [hu]
    · simp only [Timers.created, h.free, List.length_cons]
      unfold u16
      omega
    · simp only [Timers.created]
      unfold u16
      omega
    · by_cases hu : u = t
      · simp [Timers.created, Timers.setTmr, hu, h.type]
      · rw [hother u hu, h.type]
    · by_cases hut : u = t
      · simp [Timers.created, Timers.setTmr, hut]
      · rw [hother u hut] at hu ⊢
        exact h.prevNone u hu
    · by_cases hut : u = t
      · simp [Timers.created, Timers.setTmr, hut]
      · rw [hother u hut] at hu ⊢
        exact h.nextNone u hu
    · by_cases hut : u = t
      · subst hut
        simp [Timers.created, Timers.setTmr, h.matchLt]
      · rw [hother u hut]
        exact h.matchLt u

/-- The clock ticks without touching a list. -/
theorem advance (h : T.Wf spokes unused) : T.advance.Wf spokes unused := by
  have hlt : T.advance.time < 4294967296 := by
    simp only [Timers.advance]
    exact u32_lt _
  exact { h with timeLt := hlt }

end Wf

/-- Behind `OSTmr_Init` all timers are unused. -/
theorem osTmrInit_wf : osTmrInit.Wf (fun _ => []) (List.finRange 16) where
  chain _ := rfl
  back _ := trivial
  nodup _ := List.nodup_nil
  mem _ _ := by simp [osTmrInit]
  entries _ := rfl
  freeChain := by decide
  freeNodup := List.nodup_finRange 16
  memFree t := by simp [osTmrInit]
  free := by simp [osTmrInit]
  used := by simp [osTmrInit]
  type _ := rfl
  prevNone _ _ := rfl
  nextNone _ h := by simp [osTmrInit] at h
  timeLt := by decide
  matchLt _ := by simp [osTmrInit]

end Timers

end SerialNet
