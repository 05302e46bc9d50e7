import Mathlib.Data.List.Basic
import Mathlib.Tactic.Ring

namespace SerialNet

/-!
# Windows of a circular store

A store is a list of cells of which the first `size` are used as a circle.
`window cells size head n` reads `n` cells from position `head` on, continuing at cell
`0` after cell `size - 1`.  Positions wrap by one comparison (`wrapIndex`), so facts about
them are linear arithmetic.

* `window_add` — a window splits at any point;
* `window_contiguous` — up to the end of the store it is a slice of the list;
* `window_writeAt` / `window_snoc_writeAt` — a block copy leaves a disjoint window
  alone and extends the window it is adjacent to.
-/

variable {α : Type*}

/-- The position `k` cells after `head` on a circle of `size` cells. -/
def wrapIndex (size head k : ℕ) : ℕ :=
  if head + k < size then head + k else head + k - size

/-- A wrapped position is one of the array. -/
theorem wrapIndex_lt {size head k : ℕ} (hh : head < size) (hk : k ≤ size) :
    wrapIndex size head k < size := by
  unfold wrapIndex; split <;> omega

/-- Two moves on are one. -/
theorem wrapIndex_wrapIndex {size head m k : ℕ} (hh : head < size) (h : m + k ≤ size) :
    wrapIndex size (wrapIndex size head m) k = wrapIndex size head (m + k) := by
  unfold wrapIndex; split <;> split <;> split <;> omega

/-- Overwrite the cells from `pos` on with `xs` (`memcpy` into the store). -/
def writeAt (cells : List α) (pos : ℕ) (xs : List α) : List α :=
  cells.take pos ++ xs ++ cells.drop (pos + xs.length)

/-- What fits leaves the length of the array. -/
theorem length_writeAt {cells : List α} {pos : ℕ} {xs : List α}
    (h : pos + xs.length ≤ cells.length) : (writeAt cells pos xs).length = cells.length := by
  simp only [writeAt, List.length_append, List.length_take, List.length_drop]; omega

/-- A cell inside the copied block holds the copied value. -/
theorem getElem?_writeAt_inside {cells : List α} {pos i : ℕ} {xs : List α}
    (hp : pos ≤ cells.length) (h0 : pos ≤ i) (h1 : i < pos + xs.length) :
    (writeAt cells pos xs)[i]? = xs[i - pos]? := by
  have htake : (cells.take pos).length = pos := by simp [hp]
  rw [writeAt, List.append_assoc, List.getElem?_append_right (by omega), htake,
    List.getElem?_append_left (by omega)]

/-- Up to the end of the copied block: what was there before it, and the block. -/
theorem take_writeAt {cells : List α} {pos : ℕ} {xs : List α} (hp : pos ≤ cells.length) :
    (writeAt cells pos xs).take (pos + xs.length) = cells.take pos ++ xs := by
  have hlen : (cells.take pos ++ xs).length = pos + xs.length := by simp [hp]
  rw [writeAt, ← hlen, List.take_left]

/-- A cell outside the copied block keeps its value. -/
theorem getElem?_writeAt_outside {cells : List α} {pos i : ℕ} {xs : List α}
    (hp : pos ≤ cells.length) (h : i < pos ∨ pos + xs.length ≤ i) :
    (writeAt cells pos xs)[i]? = cells[i]? := by
  have htake : (cells.take pos).length = pos := by simp [hp]
  rcases h with h | h
  · rw [writeAt, List.append_assoc, List.getElem?_append_left (by omega),
      List.getElem?_take_of_lt h]
  · rw [writeAt, List.getElem?_append_right (by simp; omega), List.getElem?_drop]
    congr 1
    simp only [List.length_append, htake]
    omega

/-- A single-cell `List.set` is a block copy of length one. -/
theorem set_eq_writeAt {cells : List α} {pos : ℕ} {x : α} (h : pos < cells.length) :
    cells.set pos x = writeAt cells pos [x] := by
  rw [List.set_eq_take_append_cons_drop, if_pos h]
  simp [writeAt]

section Window

variable [Inhabited α]

/-- The `n` cells that follow each other on the circle from `head` on. -/
def window (cells : List α) (size head n : ℕ) : List α :=
  (List.range n).map fun k => (cells[wrapIndex size head k]?).getD default

/-- A window has its length. -/
@[simp] theorem length_window (cells : List α) (size head n : ℕ) :
    (window cells size head n).length = n := by simp [window]

/-- An empty window. -/
@[simp] theorem window_zero (cells : List α) (size head : ℕ) :
    window cells size head 0 = [] := rfl

/-- A window splits into an initial window and the one that starts where it ends. -/
theorem window_add {cells : List α} {size head m n : ℕ} (hh : head < size) (h : m + n ≤ size) :
    window cells size head (m + n)
      = window cells size head m ++ window cells size (wrapIndex size head m) n := by
  unfold window
  rw [List.range_add, List.map_append, List.map_map]
  congr 1
  apply List.map_congr_left
  intro k hk
  rw [List.mem_range] at hk
  simp only [Function.comp_apply]
  rw [wrapIndex_wrapIndex hh (by omega)]

/-- Two stores that agree on the cells of a window have the same window. -/
theorem window_congr {cells cells' : List α} {size head n : ℕ}
    (h : ∀ k < n, cells'[wrapIndex size head k]? = cells[wrapIndex size head k]?) :
    window cells' size head n = window cells size head n :=
  List.map_congr_left fun k hk => by rw [h k (List.mem_range.mp hk)]

/-- A window that does not wrap is a slice of the list of cells. -/
theorem window_contiguous {cells : List α} {size head n : ℕ} (h : head + n ≤ size)
    (hlen : size ≤ cells.length) : window cells size head n = (cells.drop head).take n := by
  apply List.ext_getElem?
  intro k
  by_cases hk : k < n
  · have hw : wrapIndex size head k = head + k := by unfold wrapIndex; rw [if_pos (by omega)]
    rw [List.getElem?_take_of_lt hk, List.getElem?_drop, window, List.getElem?_map,
      List.getElem?_range hk, Option.map_some, hw, List.getElem?_eq_getElem (by omega),
      Option.getD_some]
  · rw [List.getElem?_eq_none (by simp; omega), List.getElem?_eq_none (by simp; omega)]

/-- A block copied outside a window leaves the window unchanged. -/
theorem window_writeAt {cells : List α} {size head n pos : ℕ} {xs : List α}
    (hp : pos ≤ cells.length)
    (h : ∀ k < n, wrapIndex size head k < pos ∨ pos + xs.length ≤ wrapIndex size head k) :
    window (writeAt cells pos xs) size head n = window cells size head n :=
  window_congr fun k hk => getElem?_writeAt_outside hp (h k hk)

/-- A block copied right behind a window extends it, as long as it fits before the end of
    the store and into the free part of the circle. -/
theorem window_snoc_writeAt {cells : List α} {size head n : ℕ} {xs : List α} (hh : head < size)
    (hlen : size ≤ cells.length) (hfree : n + xs.length ≤ size)
    (hend : wrapIndex size head n + xs.length ≤ size) :
    window (writeAt cells (wrapIndex size head n) xs) size head (n + xs.length)
      = window cells size head n ++ xs := by
  have hpos : wrapIndex size head n ≤ cells.length := by omega
  rw [window_add hh hfree]
  congr 1
  · -- the old window lies before the copied block, or behind it on the circle
    apply window_writeAt hpos
    intro k hk
    unfold wrapIndex at hend ⊢
    split <;> split <;> simp_all <;> omega
  · rw [window_contiguous hend (by rw [length_writeAt (by omega)]; exact hlen)]
    apply List.ext_getElem?
    intro k
    by_cases hk : k < xs.length
    · rw [List.getElem?_take_of_lt hk, List.getElem?_drop,
        getElem?_writeAt_inside hpos (by omega) (by omega)]
      congr 1
      omega
    · rw [List.getElem?_eq_none (by simp; omega), List.getElem?_eq_none (by omega)]

end Window

end SerialNet
