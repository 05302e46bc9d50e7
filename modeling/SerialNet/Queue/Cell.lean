import SerialNet.Lib.CInt
import SerialNet.Lib.Circular
import Mathlib.Logic.Function.Basic

namespace SerialNet

/-!
# Cell queues

The functions of `util.h` on the circular lists of `NST_linked_list`, and those of `task_util.h`
that make them queues of `NST_Cell`s.  A head has the same two link fields as a cell and is a node
of its own list, so an empty queue is a head that is linked to itself.

`Lists m q l` says that the queue at `q` has the cells `l`.  For each function a `_spec` lemma gives
the new list, and that no node outside the queue has changed.
-/

/-- The fields of the heads and cells by their addresses. -/
structure CellMem where
  pprev : ℕ → ℕ
  pnext : ℕ → ℕ
  /-- A `UINT16`, which only a head has. -/
  count : ℕ → ℕ

/-- `NST_TRUE`. -/
def nstTrue : ℕ := 1

namespace CellMem

/-- A store to `pPrev`. -/
def setPrev (m : CellMem) (node p : ℕ) : CellMem :=
  { m with pprev := Function.update m.pprev node p }

/-- A store to `pNext`. -/
def setNext (m : CellMem) (node p : ℕ) : CellMem :=
  { m with pnext := Function.update m.pnext node p }

/-- A store to `Count`. -/
def setCount (m : CellMem) (node n : ℕ) : CellMem :=
  { m with count := Function.update m.count node n }

section Fields

variable (m : CellMem) (node p n x : ℕ)

/-- A stored back link is read back. -/
@[simp] theorem setPrev_pprev : (m.setPrev node p).pprev x = if x = node then p else m.pprev x :=
  Function.update_apply _ _ _ _

@[simp] theorem setPrev_pnext : (m.setPrev node p).pnext = m.pnext := rfl

@[simp] theorem setPrev_count : (m.setPrev node p).count = m.count := rfl

@[simp] theorem setNext_pprev : (m.setNext node p).pprev = m.pprev := rfl

/-- A stored link is read back. -/
@[simp] theorem setNext_pnext : (m.setNext node p).pnext x = if x = node then p else m.pnext x :=
  Function.update_apply _ _ _ _

@[simp] theorem setNext_count : (m.setNext node p).count = m.count := rfl

@[simp] theorem setCount_pprev : (m.setCount node n).pprev = m.pprev := rfl

@[simp] theorem setCount_pnext : (m.setCount node n).pnext = m.pnext := rfl

/-- A stored count is read back. -/
@[simp] theorem setCount_count : (m.setCount node n).count x = if x = node then n else m.count x :=
  Function.update_apply _ _ _ _

end Fields

end CellMem

/-! ### `util.h` -/

/-- `util_init_list`. -/
def utilInitList (m : CellMem) (phead : ℕ) : CellMem := (m.setNext phead phead).setPrev phead phead

/-- `util_init_list_head`. -/
def utilInitListHead (m : CellMem) (phead : ℕ) : CellMem := (utilInitList m phead).setCount phead 0

/-- `util_peek_list`. -/
def utilPeekList (m : CellMem) (phead : ℕ) : ℕ :=
  if m.pnext phead ≠ phead then m.pnext phead else 0

/-- `util_enqueue_list_tail`. -/
def utilEnqueueListTail (m : CellMem) (phead pnode : ℕ) : CellMem :=
  let poldLast := m.pprev phead
  let m := m.setPrev pnode poldLast
  let m := m.setNext pnode phead
  let m := m.setNext poldLast pnode
  let m := m.setPrev phead pnode
  m.setCount phead (u16 (m.count phead + 1))

/-- `util_enqueue_list_head`. -/
def utilEnqueueListHead (m : CellMem) (phead pnode : ℕ) : CellMem :=
  let poldFirst := m.pnext phead
  let m := m.setPrev pnode phead
  let m := m.setNext pnode poldFirst
  let m := m.setPrev poldFirst pnode
  let m := m.setNext phead pnode
  m.setCount phead (u16 (m.count phead + 1))

/-- `util_unlink_list`. -/
def utilUnlinkList (m : CellMem) (phead pnode : ℕ) : CellMem :=
  let pmyPrev := m.pprev pnode
  let pmyNext := m.pnext pnode
  let m := m.setPrev pmyNext pmyPrev
  let m := m.setNext pmyPrev pmyNext
  let m := m.setCount phead (u16 (m.count phead - 1))
  (m.setPrev pnode 0).setNext pnode 0

/-- `util_dequeue_list`. -/
def utilDequeueList (m : CellMem) (phead : ℕ) : CellMem × ℕ :=
  let pnode := m.pnext phead
  if pnode ≠ 0 ∧ pnode ≠ phead then (utilUnlinkList m phead pnode, pnode) else (m, 0)

/-! ### `task_util.h` -/

/-- `NST_InitQue`. -/
def nstInitQue (m : CellMem) (pQueHead : ℕ) : CellMem := utilInitListHead m pQueHead

/-- `NST_GetCell`. -/
def nstGetCell (m : CellMem) (pQueHead : ℕ) : CellMem × ℕ := utilDequeueList m pQueHead

/-- `NST_PeekCell`. -/
def nstPeekCell (m : CellMem) (pQueHead : ℕ) : ℕ := utilPeekList m pQueHead

/-- `NST_FreeCell`. -/
def nstFreeCell (m : CellMem) (pFreeQueHead pCell : ℕ) : CellMem :=
  utilEnqueueListTail m pFreeQueHead pCell

/-- `NST_RemoveCell`. -/
def nstRemoveCell (m : CellMem) (pQueHead pCell : ℕ) : CellMem :=
  if pCell ≠ 0 ∧ m.pnext pCell ≠ 0 ∧ m.pprev pCell ≠ 0 then utilUnlinkList m pQueHead pCell else m

/-- `NST_InsertCell`. -/
def nstInsertCell (m : CellMem) (pQueHead pCell addTail : ℕ) : CellMem :=
  if addTail = nstTrue then utilEnqueueListTail m pQueHead pCell
  else utilEnqueueListHead m pQueHead pCell

/-- The links that `NST_InsertCellQue` sets at the tail. -/
def linkQueTail (m : CellMem) (pQueHead pInsertedQueHead : ℕ) : CellMem :=
  let pQueLastCell := m.pprev pQueHead
  let pInsertedQueFirstCell := m.pnext pInsertedQueHead
  let pInsertedQueLastCell := m.pprev pInsertedQueHead
  let m := m.setNext pQueLastCell pInsertedQueFirstCell
  let m := m.setPrev pInsertedQueFirstCell pQueLastCell
  let m := m.setPrev pQueHead pInsertedQueLastCell
  m.setNext pInsertedQueLastCell pQueHead

/-- The links that `NST_InsertCellQue` sets at the head. -/
def linkQueHead (m : CellMem) (pQueHead pInsertedQueHead : ℕ) : CellMem :=
  let pQueFirstCell := m.pnext pQueHead
  let pInsertedQueLastCell := m.pprev pInsertedQueHead
  let pInsertedQueFirstCell := m.pnext pInsertedQueHead
  let m := m.setNext pInsertedQueLastCell pQueFirstCell
  let m := m.setPrev pQueFirstCell pInsertedQueLastCell
  let m := m.setNext pQueHead pInsertedQueFirstCell
  m.setPrev pInsertedQueFirstCell pQueHead

/-- `NST_InsertCellQue`. -/
def nstInsertCellQue (m : CellMem) (pQueHead pInsertedQueHead addTail : ℕ) : CellMem :=
  if m.count pInsertedQueHead = 0 then m
  else
    let m :=
      if addTail = nstTrue then linkQueTail m pQueHead pInsertedQueHead
      else linkQueHead m pQueHead pInsertedQueHead
    let m := m.setCount pQueHead (u16 (m.count pQueHead + m.count pInsertedQueHead))
    let m := m.setPrev pInsertedQueHead pInsertedQueHead
    let m := m.setNext pInsertedQueHead pInsertedQueHead
    m.setCount pInsertedQueHead 0

/-! ### Queues and their lists -/

/-- The queue at `q` has the cells `l`, in this order. -/
structure Lists (m : CellMem) (q : ℕ) (l : List ℕ) : Prop where
  links : Circular m.pnext m.pprev (q :: l)
  count : m.count q = l.length

/-- The node at `x` is the same in both. -/
structure SameNode (m m' : CellMem) (x : ℕ) : Prop where
  pnext : m'.pnext x = m.pnext x
  pprev : m'.pprev x = m.pprev x
  count : m'.count x = m.count x

variable {m m' : CellMem} {q c src x addTail : ℕ} {l r A B : List ℕ}

/-- A queue depends on its head and cells only. -/
theorem Lists.congr (h : Lists m q l) (hsame : ∀ x ∈ q :: l, SameNode m m' x) : Lists m' q l where
  links := h.links.congr (fun x hx => (hsame x hx).pnext) fun x hx => (hsame x hx).pprev
  count := (hsame q List.mem_cons_self).count.trans h.count

/-- The head's `pprev` is the last cell, or the head. -/
theorem Lists.last (h : Lists m q l) : (q :: l).getLast? = some (m.pprev q) := h.links.getLast?_eq

/-- The head's `pnext` is the first cell, or the head. -/
theorem Lists.first (h : Lists m q l) : (l ++ [q]).head? = some (m.pnext q) :=
  Circular.head?_eq ((circular_append_comm [q] l).mp h.links)

/-- The cells of a queue are a chain. -/
theorem Lists.isChain (h : Lists m q l) : l.IsChain (Linked m.pnext m.pprev) := by
  have hchain := (circular_iff_isChain.mp h.links).1
  cases l with
  | nil => exact .nil
  | cons b l => exact (List.isChain_cons_cons.mp hchain).2

/-- `NST_InitQue` makes an empty queue. -/
theorem nstInitQue_spec (m : CellMem) (q : ℕ) :
    Lists (nstInitQue m q) q [] ∧ ∀ x ≠ q, SameNode m (nstInitQue m q) x := by
  constructor
  · constructor
    · rw [circular_iff_isChain]
      refine ⟨.singleton q, ?_⟩
      rintro a ⟨⟩ b ⟨⟩
      constructor <;> simp [nstInitQue, utilInitListHead, utilInitList]
    · simp [nstInitQue, utilInitListHead]
  · intro x hx
    constructor <;> simp [nstInitQue, utilInitListHead, utilInitList, hx]

/-- `NST_PeekCell` finds the first cell. -/
theorem Lists.peek (h : Lists m q l) (hnodup : (q :: l).Nodup) : nstPeekCell m q = l.headD 0 := by
  have hfirst := h.first
  unfold nstPeekCell utilPeekList
  cases l with
  | nil =>
    have hq : q = m.pnext q := Option.some.inj hfirst
    rw [← hq, if_neg (not_not_intro rfl)]
    rfl
  | cons a l =>
    have ha : a = m.pnext q := Option.some.inj hfirst
    rw [← ha, if_pos]
    · rfl
    · rintro rfl
      exact (List.nodup_cons.mp hnodup).1 List.mem_cons_self

/-- A queue that gains a cell. -/
theorem Lists.count_succ (h : Lists m q l) (hlen : l.length + 1 < 65536) :
    u16 (m.count q + 1) = l.length + 1 := by
  rw [h.count]
  unfold u16
  omega

/-- `util_enqueue_list_tail`. -/
theorem utilEnqueueListTail_spec (h : Lists m q l) (hnodup : (q :: l).Nodup) (hc : c ∉ q :: l)
    (hlen : l.length + 1 < 65536) :
    Lists (utilEnqueueListTail m q c) q (l ++ [c]) ∧
      ∀ x ∉ c :: q :: l, SameNode m (utilEnqueueListTail m q c) x := by
  have hlast := h.last
  have hmem : m.pprev q ∈ q :: l := List.mem_of_getLast? hlast
  have hce : c ≠ m.pprev q := fun heq => hc (heq ▸ hmem)
  have hcq : c ≠ q := fun heq => hc (heq ▸ List.mem_cons_self)
  refine ⟨⟨?_, ?_⟩, ?_⟩
  · -- The chain of the new cell alone, between the last cell and the head.
    have hall : (q :: l ++ [c]).Nodup :=
      List.nodup_append'.mpr ⟨hnodup, List.nodup_singleton c, List.disjoint_singleton.mpr hc⟩
    refine h.links.splice (.singleton c) hall rfl hlast rfl rfl ⟨?_, ?_⟩ ⟨?_, ?_⟩ ?_ ?_
    · simp [utilEnqueueListTail]
    · simp [utilEnqueueListTail, hcq]
    · simp [utilEnqueueListTail, hce]
    · simp [utilEnqueueListTail]
    · intro x _ hxe (hxc : x ≠ c)
      simp [utilEnqueueListTail, hxe, hxc]
    · intro x _ hxq (hxc : x ≠ c)
      simp [utilEnqueueListTail, hxq, hxc]
  · simp [utilEnqueueListTail, h.count_succ hlen]
  · intro x hx
    simp only [List.mem_cons, not_or] at hx
    have hxe : x ≠ m.pprev q := by
      rintro rfl
      exact (List.mem_cons.mp hmem).elim hx.2.1 hx.2.2
    constructor <;> simp [utilEnqueueListTail, hx.1, hx.2.1, hxe]

/-- `util_enqueue_list_head`. -/
theorem utilEnqueueListHead_spec (h : Lists m q l) (hnodup : (q :: l).Nodup) (hc : c ∉ q :: l)
    (hlen : l.length + 1 < 65536) :
    Lists (utilEnqueueListHead m q c) q (c :: l) ∧
      ∀ x ∉ c :: q :: l, SameNode m (utilEnqueueListHead m q c) x := by
  have hfirst := h.first
  have hperm : (l ++ [q]).Perm (q :: l) := List.perm_append_singleton q l
  have hmem : m.pnext q ∈ q :: l := hperm.mem_iff.mp (List.mem_of_mem_head? hfirst)
  have hcf : c ≠ m.pnext q := fun heq => hc (heq ▸ hmem)
  have hcq : c ≠ q := fun heq => hc (heq ▸ List.mem_cons_self)
  refine ⟨⟨?_, ?_⟩, ?_⟩
  · -- The circle is read from the first cell on, and the new cell comes behind the head.
    have hrotated := (circular_append_comm [q] l).mp h.links
    have hall : (l ++ [q] ++ [c]).Nodup := by
      refine List.nodup_append'.mpr ⟨hperm.nodup_iff.mpr hnodup, List.nodup_singleton c, ?_⟩
      rw [List.disjoint_singleton, hperm.mem_iff]
      exact hc
    have hnew : Circular (utilEnqueueListHead m q c).pnext (utilEnqueueListHead m q c).pprev
        (l ++ [q] ++ [c]) := by
      refine hrotated.splice (.singleton c) hall hfirst List.getLast?_concat rfl rfl
        ⟨?_, ?_⟩ ⟨?_, ?_⟩ ?_ ?_
      · simp [utilEnqueueListHead]
      · simp [utilEnqueueListHead, hcf]
      · simp [utilEnqueueListHead, hcq]
      · simp [utilEnqueueListHead]
      · intro x _ hxq (hxc : x ≠ c)
        simp [utilEnqueueListHead, hxq, hxc]
      · intro x _ hxf (hxc : x ≠ c)
        simp [utilEnqueueListHead, hxf, hxc]
    rw [List.append_assoc] at hnew
    exact (circular_append_comm l [q, c]).mp hnew
  · simp [utilEnqueueListHead, h.count_succ hlen]
  · intro x hx
    simp only [List.mem_cons, not_or] at hx
    have hxf : x ≠ m.pnext q := by
      rintro rfl
      exact (List.mem_cons.mp hmem).elim hx.2.1 hx.2.2
    constructor <;> simp [utilEnqueueListHead, hx.1, hx.2.1, hxf]

/-- `util_unlink_list` of a cell of the queue. -/
theorem utilUnlinkList_spec (h : Lists m q (A ++ c :: B)) (hnodup : (q :: (A ++ c :: B)).Nodup)
    (hlen : (A ++ c :: B).length < 65536) :
    Lists (utilUnlinkList m q c) q (A ++ B) ∧
      ((utilUnlinkList m q c).pnext c = 0 ∧ (utilUnlinkList m q c).pprev c = 0) ∧
      ∀ x ∉ q :: (A ++ c :: B), SameNode m (utilUnlinkList m q c) x := by
  -- The circle is read from the node behind `c` on, so that `c` is its last node.
  have hperm : (B ++ q :: A ++ [c]).Perm (q :: (A ++ c :: B)) := by
    have := @List.perm_append_comm _ B (q :: (A ++ [c]))
    simpa using this
  have hcircle : Circular m.pnext m.pprev (B ++ q :: A ++ [c]) := by
    have := (circular_append_comm (q :: (A ++ [c])) B).mp (by simpa using h.links)
    simpa using this
  obtain ⟨hrest, -, hdisj⟩ := List.nodup_append'.mp (hperm.nodup_iff.mpr hnodup)
  have hc : c ∉ B ++ q :: A := List.disjoint_singleton.mp hdisj
  have hfirst : (B ++ q :: A).head? = some (m.pnext c) := by
    rw [← hcircle.head?_eq, List.head?_append_of_ne_nil (B ++ q :: A) (by simp)]
  have hlast : (B ++ q :: A).getLast? = some (m.pprev c) := by
    have hrotated : Circular m.pnext m.pprev (c :: (B ++ q :: A)) :=
      (circular_append_comm (B ++ q :: A) [c]).mp hcircle
    rw [← hrotated.getLast?_eq]
    simp [List.getLast?_cons, List.getLast?_append]
  have hnext : m.pnext c ∈ B ++ q :: A := List.mem_of_mem_head? hfirst
  have hprev : m.pprev c ∈ B ++ q :: A := List.mem_of_getLast? hlast
  have hne : ∀ {x}, x ∈ B ++ q :: A → x ≠ c := fun hx heq => hc (heq ▸ hx)
  refine ⟨⟨?_, ?_⟩, ?_, ?_⟩
  · have hnew : Circular (utilUnlinkList m q c).pnext (utilUnlinkList m q c).pprev
        (B ++ q :: A) := by
      refine hcircle.cut hrest hfirst hlast ⟨?_, ?_⟩ ?_ ?_
      · simp [utilUnlinkList, hne hprev]
      · simp [utilUnlinkList, hne hnext]
      · intro x hx hxp
        simp [utilUnlinkList, hne hx, hxp]
      · intro x hx hxn
        simp [utilUnlinkList, hne hx, hxn]
    exact (circular_append_comm B (q :: A)).mp hnew
  · have hcount : u16 (m.count q - 1) = (A ++ B).length := by
      rw [h.count]
      simp only [List.length_append, List.length_cons] at hlen ⊢
      unfold u16
      omega
    simp [utilUnlinkList, hcount]
  · simp [utilUnlinkList]
  · intro x hx
    rw [← hperm.mem_iff, List.mem_append, not_or, List.mem_singleton] at hx
    have hxn : x ≠ m.pnext c := fun heq => hx.1 (heq ▸ hnext)
    have hxp : x ≠ m.pprev c := fun heq => hx.1 (heq ▸ hprev)
    have hxq : x ≠ q := fun heq => hx.1 (by simp [heq])
    constructor <;> simp [utilUnlinkList, hx.2, hxn, hxp, hxq]

/-- `NST_GetCell` takes the first cell out. -/
theorem nstGetCell_spec (h : Lists m q l) (hnodup : (q :: l).Nodup) (hzero : 0 ∉ l)
    (hlen : l.length < 65536) :
    Lists (nstGetCell m q).1 q l.tail ∧ (nstGetCell m q).2 = l.headD 0 ∧
      (∀ x ∈ l.head?, (nstGetCell m q).1.pnext x = 0 ∧ (nstGetCell m q).1.pprev x = 0) ∧
      ∀ x ∉ q :: l, SameNode m (nstGetCell m q).1 x := by
  have hfirst := h.first
  unfold nstGetCell utilDequeueList
  cases l with
  | nil =>
    have hq : q = m.pnext q := Option.some.inj hfirst
    rw [← hq, if_neg fun hn => hn.2 rfl]
    exact ⟨h, rfl, fun x hx => (by cases hx), fun x _ => ⟨rfl, rfl, rfl⟩⟩
  | cons a l =>
    have ha : a = m.pnext q := Option.some.inj hfirst
    have hpos : a ≠ 0 := by
      rintro rfl
      exact hzero List.mem_cons_self
    have haq : a ≠ q := by
      rintro rfl
      exact (List.nodup_cons.mp hnodup).1 List.mem_cons_self
    rw [← ha, if_pos ⟨hpos, haq⟩]
    obtain ⟨hlists, hlinks, hsame⟩ := @utilUnlinkList_spec m q a [] l h hnodup hlen
    refine ⟨hlists, rfl, ?_, hsame⟩
    rintro x ⟨⟩
    exact hlinks

/-- `NST_RemoveCell` of a cell of the queue. -/
theorem nstRemoveCell_spec (h : Lists m q (A ++ c :: B)) (hnodup : (q :: (A ++ c :: B)).Nodup)
    (hzero : 0 ∉ q :: (A ++ c :: B)) (hlen : (A ++ c :: B).length < 65536) :
    Lists (nstRemoveCell m q c) q (A ++ B) ∧
      ((nstRemoveCell m q c).pnext c = 0 ∧ (nstRemoveCell m q c).pprev c = 0) ∧
      ∀ x ∉ q :: (A ++ c :: B), SameNode m (nstRemoveCell m q c) x := by
  have hc : c ∈ q :: (A ++ c :: B) := by simp
  obtain ⟨⟨hnext, -⟩, hprev, -⟩ := h.links.inverse hc
  have hpos : c ≠ 0 ∧ m.pnext c ≠ 0 ∧ m.pprev c ≠ 0 :=
    ⟨fun h0 => hzero (h0 ▸ hc), fun h0 => hzero (h0 ▸ hnext), fun h0 => hzero (h0 ▸ hprev)⟩
  unfold nstRemoveCell
  rw [if_pos hpos]
  exact utilUnlinkList_spec h hnodup hlen

/-- `NST_RemoveCell` of a cell without links changes nothing. -/
theorem nstRemoveCell_unlinked (h : m.pnext c = 0) : nstRemoveCell m q c = m := by
  unfold nstRemoveCell
  rw [if_neg fun hn => hn.2.1 h]

/-- `NST_InsertCell`. -/
theorem nstInsertCell_spec (h : Lists m q l) (hnodup : (q :: l).Nodup) (hc : c ∉ q :: l)
    (hlen : l.length + 1 < 65536) (addTail : ℕ) :
    Lists (nstInsertCell m q c addTail) q (if addTail = nstTrue then l ++ [c] else c :: l) ∧
      ∀ x ∉ c :: q :: l, SameNode m (nstInsertCell m q c addTail) x := by
  unfold nstInsertCell
  split
  · exact utilEnqueueListTail_spec h hnodup hc hlen
  · exact utilEnqueueListHead_spec h hnodup hc hlen

section InsertCellQue

/-- The memory at the end of `NST_InsertCellQue` differs from the linked one in the heads' counts
    and in the links of the emptied head. -/
def finishInsert (m : CellMem) (q src : ℕ) : CellMem :=
  (((m.setCount q (u16 (m.count q + m.count src))).setPrev src src).setNext src src).setCount src 0

/-- A queue that is not empty is linked at one end and counted. -/
theorem nstInsertCellQue_eq (m : CellMem) (q src addTail : ℕ) (h : m.count src ≠ 0) :
    nstInsertCellQue m q src addTail =
      finishInsert (if addTail = nstTrue then linkQueTail m q src else linkQueHead m q src)
        q src := by
  unfold nstInsertCellQue
  rw [if_neg h]
  rfl

/-- The emptied queue is an empty one. -/
theorem finishInsert_src (m : CellMem) (q src : ℕ) : Lists (finishInsert m q src) src [] := by
  constructor
  · rw [circular_iff_isChain]
    refine ⟨.singleton src, ?_⟩
    rintro a ⟨⟩ b ⟨⟩
    constructor <;> simp [finishInsert]
  · simp [finishInsert]

/-- Two queues of which the second is not empty, and which have no node in common. -/
structure Splices (m : CellMem) (q src : ℕ) (l r : List ℕ) : Prop where
  dst : Lists m q l
  inserted : Lists m src r
  nodup : (q :: l ++ src :: r).Nodup
  ne_nil : r ≠ []
  fits : l.length + r.length < 65536

namespace Splices

/-- The nodes of the two queues are different. -/
theorem ne (h : Splices m q src l r) {x y : ℕ} (hx : x ∈ q :: l) (hy : y ∈ src :: r) : x ≠ y :=
  fun heq => (List.nodup_append'.mp h.nodup).2.2 hx (heq ▸ hy)

/-- The cells of the inserted queue are not its head. -/
theorem ne_src (h : Splices m q src l r) {y : ℕ} (hy : y ∈ r) : y ≠ src :=
  fun heq => (List.nodup_cons.mp (List.nodup_append'.mp h.nodup).2.1).1 (heq ▸ hy)

/-- No cell is twice in what is put together. -/
theorem nodup_cells (h : Splices m q src l r) : (q :: l ++ r).Nodup :=
  h.nodup.sublist ((List.sublist_cons_self src r).append_left (q :: l))

/-- The first cell is the one the source queue points to. -/
theorem first (h : Splices m q src l r) : r.head? = some (m.pnext src) := by
  rw [← h.inserted.first, List.head?_append_of_ne_nil r h.ne_nil]

/-- The last cell is the one its back link points to. -/
theorem last (h : Splices m q src l r) : r.getLast? = some (m.pprev src) := by
  rw [← h.inserted.last, ← List.singleton_append, List.getLast?_append_of_ne_nil [src] h.ne_nil]

/-- The count does not overflow. -/
theorem count_add (h : Splices m q src l r) :
    u16 (m.count q + m.count src) = l.length + r.length := by
  have hfits := h.fits
  rw [h.dst.count, h.inserted.count]
  unfold u16
  omega

/-- At the tail, the cells come behind the last one. -/
theorem tail (h : Splices m q src l r) :
    Lists (finishInsert (linkQueTail m q src) q src) q (l ++ r) ∧
      ∀ x ∉ q :: l ++ src :: r, SameNode m (finishInsert (linkQueTail m q src) q src) x := by
  have hq : q ∈ q :: l := List.mem_cons_self
  have hlast : m.pprev q ∈ q :: l := List.mem_of_getLast? h.dst.last
  have hf : m.pnext src ∈ r := List.mem_of_mem_head? h.first
  have hg : m.pprev src ∈ r := List.mem_of_getLast? h.last
  have hne : ∀ {x}, x ∈ q :: l → x ≠ src := fun hx => h.ne hx List.mem_cons_self
  have hsrc : ∀ x ∈ q :: l ++ r, x ≠ src := fun x hx =>
    (List.mem_append.mp hx).elim hne h.ne_src
  refine ⟨⟨?_, ?_⟩, ?_⟩
  · refine h.dst.links.splice h.inserted.isChain h.nodup_cells rfl h.dst.last h.first h.last
      ⟨?_, ?_⟩ ⟨?_, ?_⟩ ?_ ?_
    · have hlg := h.ne hlast (List.mem_cons_of_mem _ hg)
      simp [finishInsert, linkQueTail, hne hlast, hlg]
    · have hfq := (h.ne hq (List.mem_cons_of_mem _ hf)).symm
      simp [finishInsert, linkQueTail, h.ne_src hf, hfq]
    · simp [finishInsert, linkQueTail, h.ne_src hg]
    · simp [finishInsert, linkQueTail, hne hq]
    · intro x hx hxl hxg
      simp [finishInsert, linkQueTail, hsrc x hx, hxl, hxg]
    · intro x hx hxq hxf
      simp [finishInsert, linkQueTail, hsrc x hx, hxq, hxf]
  · simp [finishInsert, linkQueTail, hne hq, h.count_add]
  · intro x hx
    simp only [List.mem_append, List.mem_cons, not_or] at hx
    obtain ⟨⟨hxq, hxl⟩, hxs, hxr⟩ := hx
    have hxlast : x ≠ m.pprev q := by
      rintro rfl
      exact (List.mem_cons.mp hlast).elim hxq hxl
    have hxf : x ≠ m.pnext src := fun heq => hxr (heq ▸ hf)
    have hxg : x ≠ m.pprev src := fun heq => hxr (heq ▸ hg)
    constructor <;> simp [finishInsert, linkQueTail, hxq, hxs, hxlast, hxf, hxg]

/-- At the head, the cells come before the first one. -/
theorem head (h : Splices m q src l r) :
    Lists (finishInsert (linkQueHead m q src) q src) q (r ++ l) ∧
      ∀ x ∉ q :: l ++ src :: r, SameNode m (finishInsert (linkQueHead m q src) q src) x := by
  have hperm : (l ++ [q]).Perm (q :: l) := List.perm_append_singleton q l
  have hq : q ∈ q :: l := List.mem_cons_self
  have hfirst : m.pnext q ∈ q :: l := hperm.mem_iff.mp (List.mem_of_mem_head? h.dst.first)
  have hf : m.pnext src ∈ r := List.mem_of_mem_head? h.first
  have hg : m.pprev src ∈ r := List.mem_of_getLast? h.last
  have hne : ∀ {x}, x ∈ q :: l → x ≠ src := fun hx => h.ne hx List.mem_cons_self
  have hmem : ∀ {x}, x ∈ l ++ [q] ++ r ↔ x ∈ q :: l ++ r := (hperm.append_right r).mem_iff
  have hsrc : ∀ x ∈ l ++ [q] ++ r, x ≠ src := fun x hx =>
    (List.mem_append.mp (hmem.mp hx)).elim hne h.ne_src
  refine ⟨⟨?_, ?_⟩, ?_⟩
  · -- The circle is read from the first cell on, and the inserted ones come behind the head.
    have hnew : Circular (finishInsert (linkQueHead m q src) q src).pnext
        (finishInsert (linkQueHead m q src) q src).pprev (l ++ [q] ++ r) := by
      have hnodup := (hperm.append_right r).nodup_iff.mpr h.nodup_cells
      refine ((circular_append_comm [q] l).mp h.dst.links).splice h.inserted.isChain hnodup
        h.dst.first List.getLast?_concat h.first h.last ⟨?_, ?_⟩ ⟨?_, ?_⟩ ?_ ?_
      · simp [finishInsert, linkQueHead, hne hq]
      · simp [finishInsert, linkQueHead, h.ne_src hf]
      · have hgq := (h.ne hq (List.mem_cons_of_mem _ hg)).symm
        simp [finishInsert, linkQueHead, h.ne_src hg, hgq]
      · have hfn := h.ne hfirst (List.mem_cons_of_mem _ hf)
        simp [finishInsert, linkQueHead, hne hfirst, hfn]
      · intro x hx hxq hxg
        simp [finishInsert, linkQueHead, hsrc x hx, hxq, hxg]
      · intro x hx hxn hxf
        simp [finishInsert, linkQueHead, hsrc x hx, hxn, hxf]
    rw [List.append_assoc] at hnew
    exact (circular_append_comm l ([q] ++ r)).mp hnew
  · have hcount := h.count_add
    rw [Nat.add_comm] at hcount
    simp [finishInsert, linkQueHead, hne hq, hcount]
  · intro x hx
    simp only [List.mem_append, List.mem_cons, not_or] at hx
    obtain ⟨⟨hxq, hxl⟩, hxs, hxr⟩ := hx
    have hxfirst : x ≠ m.pnext q := by
      rintro rfl
      exact (List.mem_cons.mp hfirst).elim hxq hxl
    have hxf : x ≠ m.pnext src := fun heq => hxr (heq ▸ hf)
    have hxg : x ≠ m.pprev src := fun heq => hxr (heq ▸ hg)
    constructor <;> simp [finishInsert, linkQueHead, hxq, hxs, hxfirst, hxf, hxg]

end Splices

/-- `NST_InsertCellQue` moves all cells, and leaves an empty queue. -/
theorem nstInsertCellQue_spec (hq : Lists m q l) (hsrc : Lists m src r)
    (hnodup : (q :: l ++ src :: r).Nodup) (hfits : l.length + r.length < 65536) (addTail : ℕ) :
    Lists (nstInsertCellQue m q src addTail) q (if addTail = nstTrue then l ++ r else r ++ l) ∧
      Lists (nstInsertCellQue m q src addTail) src [] ∧
      ∀ x ∉ q :: l ++ src :: r, SameNode m (nstInsertCellQue m q src addTail) x := by
  by_cases hnil : r = []
  · subst hnil
    have hsame : nstInsertCellQue m q src addTail = m := if_pos hsrc.count
    rw [hsame, List.append_nil, List.nil_append, ite_self]
    exact ⟨hq, hsrc, fun x _ => ⟨rfl, rfl, rfl⟩⟩
  · have hsplice : Splices m q src l r := ⟨hq, hsrc, hnodup, hnil, hfits⟩
    have hcount : m.count src ≠ 0 := by
      rw [hsrc.count]
      exact fun h0 => hnil (List.length_eq_zero_iff.mp h0)
    rw [nstInsertCellQue_eq m q src addTail hcount]
    have hempty := fun m' => finishInsert_src m' q src
    split
    · exact ⟨hsplice.tail.1, hempty _, hsplice.tail.2⟩
    · exact ⟨hsplice.head.1, hempty _, hsplice.head.2⟩

end InsertCellQue

end SerialNet
