import LogGuardian.Lib.BoundedList

/-!
# Checked access to memory
-/

universe u

inductive Access (α : Type u) where
  | stray
  | rejected
  | done (value : α)
  deriving DecidableEq, Repr

namespace Access

open List

variable {α β : Type u}

protected def bind (first : Access α) (next : α → Access β) : Access β :=
  match first with
  | stray => stray
  | rejected => rejected
  | done value => next value

instance : Monad Access where
  pure := done
  bind := Access.bind

@[simp]
theorem done_bind (value : α) (next : α → Access β) : (done value >>= next) = next value := rfl

@[simp]
theorem stray_bind (next : α → Access β) : (stray >>= next) = stray := rfl

@[simp]
theorem rejected_bind (next : α → Access β) : (rejected >>= next) = rejected := rfl

/-- `text[p]`. -/
def read (text : List α) (p : ℕ) : Access α :=
  match text[p]? with
  | some item => done item
  | none => stray

theorem read_eq_done {text : List α} {p : ℕ} (fallback : α) (inside : p < text.length) :
    read text p = done (text.getD p fallback) := by
  simp [read, inside]

theorem read_eq_stray {text : List α} {p : ℕ} (outside : text.length ≤ p) :
    read text p = stray := by
  simp [read, outside]

/-- `list[count++] = item`. -/
def store {capacity : ℕ} (list : BoundedList α capacity) (item : α) :
    Access (BoundedList α capacity) :=
  if list.items.length < capacity then done (list.push item) else stray

/-- `memcpy(list, text + p, count)`. -/
def copy (capacity : ℕ) (text : List α) (p count : ℕ) : Access (BoundedList α capacity) :=
  if fits : p + count ≤ text.length ∧ count ≤ capacity then
    done ⟨(text.drop p).take count, (List.length_take_le _ _).trans fits.2⟩
  else stray

theorem exists_copy {capacity p count : ℕ} {text : List α} (inside : p + count ≤ text.length)
    (fits : count ≤ capacity) :
    ∃ list, copy capacity text p count = done list ∧ list.items = (text.drop p).take count := by
  refine ⟨_, dif_pos ⟨inside, fits⟩, rfl⟩

section Collect

variable {capacity : ℕ} (fetch : ℕ → Access α) (keep : α → Bool)

/-- `for (; count > 0 && length < capacity; i++, count--)`: fetch an item and store it if it
is to be kept. -/
def collect : ℕ → ℕ → BoundedList α capacity → Access (BoundedList α capacity)
  | 0, _, list => done list
  | count + 1, i, list =>
    if list.items.length < capacity then do
      let item ← fetch i
      let longer ← if keep item then store list item else done list
      collect count (i + 1) longer
    else done list

/-- The items to keep among `count` readable ones. -/
def kept (value : ℕ → α) (i count : ℕ) : List α := ((List.range' i count).map value).filter keep

variable {fetch keep} {value : ℕ → α} {available i : ℕ}

theorem kept_succ (keep : α → Bool) (value : ℕ → α) (i count : ℕ) :
    kept keep value i (count + 1) =
      (if keep (value i) then [value i] else []) ++ kept keep value (i + 1) count := by
  unfold kept
  rw [range'_succ, map_cons, filter_cons]
  split_ifs <;> rfl

theorem pushAll_full {list : BoundedList α capacity} (full : ¬list.items.length < capacity)
    (added : List α) : list.pushAll added = list := by
  apply BoundedList.ext
  rw [BoundedList.items_pushAll]
  have length := list.fits
  rw [take_append_of_le_length (by omega), take_of_length_le length]

theorem collect_eq (inside : ∀ i < available, fetch i = done (value i))
    (outside : ∀ i, available ≤ i → fetch i = stray) (count : ℕ) (within : i ≤ available)
    (list : BoundedList α capacity) :
    collect fetch keep count i list =
      if i + count ≤ available ∨
          capacity ≤ list.items.length + (kept keep value i (min count (available - i))).length then
        done (list.pushAll (kept keep value i (min count (available - i))))
      else stray := by
  induction count generalizing i list with
  | zero =>
    rw [Nat.zero_min, if_pos (Or.inl (by omega))]
    rfl
  | succ count ih =>
    rw [collect]
    by_cases room : list.items.length < capacity
    · rw [if_pos room]
      rcases Nat.lt_or_ge i available with readable | unreadable
      · have fewer : min (count + 1) (available - i) = min count (available - (i + 1)) + 1 := by
          omega
        have position : i + (count + 1) = i + 1 + count := by omega
        rw [inside i readable, done_bind, fewer, kept_succ, position]
        by_cases wanted : keep (value i) = true
        · have longer : (list.push (value i)).items = list.items ++ [value i] := by
            unfold BoundedList.push
            rw [dif_pos room]
          rw [if_pos wanted, if_pos wanted, store, if_pos room]
          simp only [done_bind]
          rw [ih readable (list.push (value i)), longer, length_append, length_append,
            Nat.add_assoc list.items.length]
          rfl
        · rw [if_neg wanted, if_neg wanted]
          simp only [done_bind]
          rw [ih readable list]
          rfl
      · have atEnd : available - i = 0 := by omega
        rw [outside i unreadable, stray_bind, if_neg]
        simp only [atEnd, Nat.min_zero, kept, range'_zero, map_nil, filter_nil,
          length_nil]
        omega
    · rw [if_neg room, if_pos (Or.inr (by omega)), pushAll_full room]

end Collect

end Access
