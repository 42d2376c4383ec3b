import Mathlib

/-!
# Writing into a C buffer

A cursor walks over a buffer of `size` cells.
-/

namespace Buffer

open List

universe u

variable {α : Type u}

structure Cursor (α : Type u) where
  n : ℕ
  cells : ℕ → α
  touched : List ℕ

/-- The empty cursor over a memory of any content. -/
def start (memory : ℕ → α) : Cursor α := ⟨0, memory, []⟩

def put (item : α) (cursor : Cursor α) : Cursor α where
  n := cursor.n + 1
  cells := Function.update cursor.cells cursor.n item
  touched := cursor.touched ++ [cursor.n]

/-- `size - n` in a `size_t` with the given number of values. -/
def room (modulus size n : ℕ) : ℕ := (size + (modulus - n % modulus)) % modulus

/-- What `snprintf` stores: the beginning of the text that leaves place for the NUL. -/
def store (nul : α) (limit : ℕ) (text : List α) : List α :=
  if limit = 0 then [] else text.take (limit - 1) ++ [nul]

/-- Write some cells at the cursor without moving it. -/
def overwrite (items : List α) (cursor : Cursor α) : Cursor α where
  n := cursor.n
  cells index :=
    if cursor.n ≤ index then (items[index - cursor.n]?).getD (cursor.cells index)
    else cursor.cells index
  touched := cursor.touched ++ List.range' cursor.n items.length

def print (nul : α) (modulus size : ℕ) (text : List α) (cursor : Cursor α) : Cursor α :=
  { overwrite (store nul (room modulus size cursor.n) text) cursor with
    n := cursor.n + text.length }

/-- `out[n] = '\0'`. -/
def terminate (nul : α) (cursor : Cursor α) : Cursor α := overwrite [nul] cursor

/-- `memcpy(out + n, items, length)` and `n += length`. -/
def copy (items : List α) (cursor : Cursor α) : Cursor α :=
  { overwrite items cursor with n := cursor.n + items.length }

/-- The cells that the cursor has passed. -/
def Cursor.text (cursor : Cursor α) : List α := (List.range cursor.n).map cursor.cells

/-- The cursor is inside the buffer, and so is everything that was written. -/
structure Cursor.Inside (size : ℕ) (cursor : Cursor α) : Prop where
  position : cursor.n < size
  touched : ∀ index ∈ cursor.touched, index < size

theorem inside_start {size : ℕ} (memory : ℕ → α) (given : 0 < size) :
    (start memory).Inside size := ⟨given, by simp [start]⟩

section Operations

variable {nul item : α} {modulus size : ℕ} {text : List α} {cursor : Cursor α}

theorem inside_put (inside : cursor.Inside size) (fits : cursor.n + 1 < size) :
    (put item cursor).Inside size := by
  refine ⟨fits, ?_⟩
  intro index mem
  rcases List.mem_append.mp mem with earlier | here
  · exact inside.touched index earlier
  · rw [List.mem_singleton.mp here]
    exact inside.position

theorem room_of_le (small : size < modulus) (within : cursor.n ≤ size) :
    room modulus size cursor.n = size - cursor.n := by
  unfold room
  rw [Nat.mod_eq_of_lt (show cursor.n < modulus by omega),
    show size + (modulus - cursor.n) = size - cursor.n + modulus by omega, Nat.add_mod_right,
    Nat.mod_eq_of_lt (by omega)]

theorem length_store_le (limit : ℕ) : (store nul limit text).length ≤ limit := by
  unfold store
  split_ifs
  · simp
  · simp only [length_append, length_take, length_singleton]
    omega

theorem touched_print (small : size < modulus) (inside : cursor.Inside size) :
    ∀ index ∈ (print nul modulus size text cursor).touched, index < size := by
  intro index mem
  rcases List.mem_append.mp mem with earlier | here
  · exact inside.touched index earlier
  · have within := inside.position
    have length : (store nul (room modulus size cursor.n) text).length ≤ size - cursor.n := by
      rw [room_of_le small within.le]
      exact length_store_le _
    rw [mem_range'_1] at here
    omega

theorem inside_print (small : size < modulus) (inside : cursor.Inside size)
    (fits : cursor.n + text.length < size) : (print nul modulus size text cursor).Inside size :=
  ⟨fits, touched_print small inside⟩

theorem inside_terminate (inside : cursor.Inside size) : (terminate nul cursor).Inside size := by
  refine ⟨inside.position, ?_⟩
  intro index mem
  rcases List.mem_append.mp mem with earlier | here
  · exact inside.touched index earlier
  · have position := inside.position
    simp only [length_singleton, mem_range'_1] at here
    omega

theorem mem_touched_terminate (nul : α) (cursor : Cursor α) :
    cursor.n ∈ (terminate nul cursor).touched := by
  apply mem_append_right
  simp

theorem cells_terminate (nul : α) (cursor : Cursor α) :
    (terminate nul cursor).cells cursor.n = nul := by
  simp [terminate, overwrite]

theorem text_put : (put item cursor).text = cursor.text ++ [item] := by
  unfold Cursor.text put
  dsimp only
  rw [range_succ, map_append, map_singleton, Function.update_self]
  congr 1
  apply map_congr_left
  intro index mem
  rw [mem_range] at mem
  exact Function.update_of_ne (by omega) _ _

theorem text_print (small : size < modulus) (fits : cursor.n + text.length < size) :
    (print nul modulus size text cursor).text = cursor.text ++ text := by
  have limit : room modulus size cursor.n = size - cursor.n := room_of_le small (by omega)
  have stored : store nul (size - cursor.n) text = text ++ [nul] := by
    unfold store
    rw [if_neg (by omega), take_of_length_le (by omega)]
  unfold Cursor.text print overwrite
  dsimp only
  rw [limit, stored, range_add, map_append]
  congr 1
  · apply map_congr_left
    intro index mem
    rw [mem_range] at mem
    rw [if_neg (by omega)]
  · apply ext_getElem
    · simp
    · intro index inRange inText
      simp [List.getElem?_append_left inText, List.getElem?_eq_getElem inText]

theorem text_copy (items : List α) (cursor : Cursor α) :
    (copy items cursor).text = cursor.text ++ items := by
  unfold Cursor.text copy overwrite
  dsimp only
  rw [range_add, map_append]
  congr 1
  · apply map_congr_left
    intro index mem
    rw [mem_range] at mem
    rw [if_neg (by omega)]
  · apply ext_getElem
    · simp
    · intro index inRange inItems
      simp [List.getElem?_eq_getElem inItems]

/-- A cursor past the end has left a NUL in the last cell. -/
def Cursor.Cut (nul : α) (size : ℕ) (cursor : Cursor α) : Prop :=
  size ≤ cursor.n → cursor.cells (size - 1) = nul

theorem cut_start (memory : ℕ → α) (given : 0 < size) : (start memory).Cut nul size := by
  intro past
  exact absurd past (by simp only [start]; omega)

theorem cut_print (small : size < modulus) (within : cursor.n ≤ size) (cut : cursor.Cut nul size) :
    (print nul modulus size text cursor).Cut nul size := by
  intro past
  have limit : room modulus size cursor.n = size - cursor.n := room_of_le small within
  change size ≤ cursor.n + text.length at past
  unfold print overwrite store
  dsimp only
  rw [limit]
  by_cases atEnd : cursor.n = size
  · rw [if_pos (show size - cursor.n = 0 by omega)]
    simp only [List.getElem?_nil, Option.getD_none, ite_self]
    exact cut atEnd.ge
  · rw [if_neg (show ¬size - cursor.n = 0 by omega), if_pos (by omega),
      List.getElem?_append_right (by rw [length_take]; omega)]
    rw [length_take, show size - 1 - cursor.n - min (size - cursor.n - 1) text.length = 0 by omega]
    rfl

theorem nul_mem_text (given : 0 < size) (cut : cursor.Cut nul size) (past : size ≤ cursor.n) :
    nul ∈ cursor.text := by
  unfold Cursor.text
  rw [mem_map]
  refine ⟨size - 1, ?_, cut past⟩
  rw [mem_range]
  omega

end Operations

end Buffer
