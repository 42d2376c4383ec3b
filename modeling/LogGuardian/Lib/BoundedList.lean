import Mathlib

/-!
# Lists with a capacity

A list that takes items at its end until it is full and then ignores them.
-/

universe u v w

@[ext]
structure BoundedList (Item : Type u) (capacity : ℕ) where
  items : List Item
  fits : items.length ≤ capacity
  deriving DecidableEq, Repr

namespace BoundedList

open List

variable {Item : Type u} {capacity : ℕ}

def empty : BoundedList Item capacity := ⟨[], Nat.zero_le capacity⟩

def push (list : BoundedList Item capacity) (item : Item) : BoundedList Item capacity :=
  if room : list.items.length < capacity then
    ⟨list.items ++ [item], by simpa using room⟩
  else list

@[simp]
theorem items_empty : (empty : BoundedList Item capacity).items = [] := rfl

def pushAll (list : BoundedList Item capacity) (added : List Item) : BoundedList Item capacity :=
  added.foldl push list

theorem pushAll_append (list : BoundedList Item capacity) (first second : List Item) :
    list.pushAll (first ++ second) = (list.pushAll first).pushAll second :=
  foldl_append

@[simp]
theorem items_pushAll (list : BoundedList Item capacity) (added : List Item) :
    (list.pushAll added).items = (list.items ++ added).take capacity := by
  induction added generalizing list with
  | nil =>
    rw [append_nil, take_of_length_le list.fits]
    rfl
  | cons item rest ih =>
    have step : list.pushAll (item :: rest) = (list.push item).pushAll rest := rfl
    rw [step, ih]
    unfold push
    split_ifs with room
    · rw [append_assoc, singleton_append]
    · have full : capacity ≤ list.items.length := Nat.le_of_not_lt room
      rw [take_append_of_le_length full, take_append_of_le_length full]

/-- The old contents disappear in what is added. -/
def Absorbs (list : BoundedList Item capacity) (added : List Item) : Prop :=
  ∀ index < capacity, added[index]? = list.items[index % list.items.length]?

instance [DecidableEq Item] (list : BoundedList Item capacity) (added : List Item) :
    Decidable (list.Absorbs added) := by
  unfold Absorbs
  infer_instance

theorem take_append_eq_take_iff (old added : List Item) :
    (old ++ added).take capacity = added.take capacity ↔
      ∀ index < capacity, (old ++ added)[index]? = added[index]? := by
  rw [List.ext_getElem?_iff]
  apply forall_congr'
  intro index
  rw [List.getElem?_take, List.getElem?_take]
  split_ifs with inside <;> simp [inside]

theorem pushAll_eq_fresh_iff (list : BoundedList Item capacity) (added : List Item) :
    list.pushAll added = (empty : BoundedList Item capacity).pushAll added ↔
      list.items = [] ∨ list.Absorbs added := by
  rw [BoundedList.ext_iff, items_pushAll, items_pushAll, items_empty, nil_append,
    take_append_eq_take_iff]
  constructor
  · intro same
    rcases Nat.eq_zero_or_pos list.items.length with empty | positive
    · exact Or.inl (List.length_eq_zero_iff.mp empty)
    · right
      intro index
      -- Going back by the length of the old contents reaches them in the end.
      induction index using Nat.strong_induction_on with
      | _ index ih =>
        intro inside
        rw [← same index inside]
        rcases Nat.lt_or_ge index list.items.length with before | after
        · rw [List.getElem?_append_left before, Nat.mod_eq_of_lt before]
        · rw [List.getElem?_append_right after,
            ih (index - list.items.length) (by omega) (by omega), Nat.mod_eq_sub_mod after]
  · rintro (empty | absorbs) index inside
    · rw [empty, nil_append]
    · rw [absorbs index inside]
      rcases Nat.lt_or_ge index list.items.length with before | after
      · rw [List.getElem?_append_left before, Nat.mod_eq_of_lt before]
      · rw [List.getElem?_append_right after, absorbs (index - list.items.length) (by omega),
          Nat.mod_eq_sub_mod after]

theorem foldl_component {State : Type v} {Event : Type w} {step : State → Event → State}
    {component : State → BoundedList Item capacity} {added : Event → List Item}
    (adds : ∀ state event, component (step state event) = (component state).pushAll (added event))
    (state : State) (events : List Event) :
    component (events.foldl step state) = (component state).pushAll (events.flatMap added) := by
  induction events generalizing state with
  | nil => rfl
  | cons event rest ih => rw [foldl_cons, ih, adds, flatMap_cons, pushAll_append]

end BoundedList
