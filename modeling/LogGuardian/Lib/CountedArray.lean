import Mathlib

/-!
# Arrays with a count

An array of cells of which the first ones are in use.
-/

universe u

structure CountedArray (Item : Type u) (capacity : ℕ) where
  cells : ℕ → Item
  count : ℕ
  fits : count ≤ capacity

namespace CountedArray

open List

variable {Item : Type u} {capacity : ℕ} (array : CountedArray Item capacity)

def toList : List Item := (List.range array.count).map array.cells

def clear : CountedArray Item capacity := { array with count := 0, fits := Nat.zero_le capacity }

def push (item : Item) : CountedArray Item capacity :=
  if room : array.count < capacity then
    ⟨Function.update array.cells array.count item, array.count + 1, room⟩
  else array

/-- Move the cells behind an index one place down. -/
def removeAt (index : ℕ) : CountedArray Item capacity where
  cells := fun j => if index ≤ j ∧ j + 1 < array.count then array.cells (j + 1) else array.cells j
  count := array.count - 1
  fits := (Nat.sub_le _ _).trans array.fits

@[simp]
theorem length_toList : array.toList.length = array.count := by simp [toList]

@[simp]
theorem toList_clear : array.clear.toList = [] := rfl

theorem toList_push_of_lt {item : Item} (room : array.count < capacity) :
    (array.push item).toList = array.toList ++ [item] := by
  have kept : (range array.count).map (Function.update array.cells array.count item) =
      array.toList := by
    apply map_congr_left
    intro j used
    exact Function.update_of_ne (List.mem_range.mp used).ne item array.cells
  rw [push, dif_pos room]
  simp only [toList] at kept ⊢
  rw [range_succ, map_append, kept]
  simp

theorem toList_foldl_push (items : List Item) :
    (items.foldl push array).toList = (array.toList ++ items).take capacity := by
  induction items generalizing array with
  | nil =>
    have fits : array.toList.length ≤ capacity := by simpa using array.fits
    rw [append_nil, take_of_length_le fits]
    rfl
  | cons item rest ih =>
    rw [foldl_cons, ih]
    by_cases room : array.count < capacity
    · rw [array.toList_push_of_lt room, append_assoc, singleton_append]
    · have full : capacity ≤ array.toList.length := by simpa using room
      rw [push, dif_neg room, take_append_of_le_length full, take_append_of_le_length full]

theorem toList_removeAt {index : ℕ} (used : index < array.count) :
    (array.removeAt index).toList = array.toList.eraseIdx index := by
  apply ext_getElem
  · rw [length_eraseIdx_of_lt (by simpa using used)]
    simp [removeAt]
  · intro j inRemoved inErased
    have inside : j < array.count - 1 := by simpa [removeAt] using inRemoved
    simp only [toList, removeAt, getElem_map, getElem_range, getElem_eraseIdx]
    by_cases before : j < index
    · rw [if_neg (by omega), dif_pos before]
    · rw [if_pos ⟨by omega, by omega⟩, dif_neg before]

variable [BEq Item]

/-- The first of some cells that holds an item. -/
def indexFrom (cells : ℕ → Item) (item : Item) : ℕ → ℕ → Option ℕ
  | _, 0 => none
  | index, left + 1 =>
    if cells index == item then some index else indexFrom cells item (index + 1) left

def indexOf (item : Item) : Option ℕ := indexFrom array.cells item 0 array.count

theorem indexFrom_eq (cells : ℕ → Item) (item : Item) (index left : ℕ) :
    indexFrom cells item index left =
      (((List.range' index left).map cells).idxOf? item).map (index + ·) := by
  induction left generalizing index with
  | zero => rfl
  | succ left ih =>
    rw [indexFrom, range'_succ, map_cons, idxOf?_cons, ih]
    by_cases here : (cells index == item) = true
    · simp [here]
    · rw [if_neg here, if_neg here, Option.map_map]
      congr 1
      funext j
      simp only [Function.comp_apply]
      omega

theorem indexOf_eq (item : Item) : array.indexOf item = array.toList.idxOf? item := by
  rw [indexOf, indexFrom_eq, ← range_eq_range']
  simp [toList]

variable [LawfulBEq Item]

theorem isSome_indexOf (item : Item) : (array.indexOf item).isSome ↔ item ∈ array.toList := by
  rw [indexOf_eq, List.isSome_idxOf?]

theorem toList_removeAt_indexOf {item : Item} {index : ℕ} (found : array.indexOf item = some index) :
    (array.removeAt index).toList = array.toList.erase item := by
  rw [indexOf_eq] at found
  have position : array.toList.idxOf item = index := by
    rw [List.idxOf_eq_getD_idxOf?, found]
    rfl
  have present : item ∈ array.toList := by
    rw [← List.isSome_idxOf?, found]
    rfl
  have used : index < array.count := by
    rw [← position, ← array.length_toList]
    exact idxOf_lt_length_of_mem present
  rw [array.toList_removeAt used, ← position, eraseIdx_idxOf_eq_erase]

end CountedArray
