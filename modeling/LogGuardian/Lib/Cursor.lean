import Mathlib

/-!
# Loops that read a text
-/

namespace Cursor

open List

universe u

variable {α σ : Type u}

/-- `while (p < stop && go(text[p])) { state = update(state, text[p]); p++; }` -/
def scan (text : List α) (stop : ℕ) (go : α → Bool) (update : σ → α → σ) :
    ℕ → σ → ℕ → Option (σ × ℕ)
  | 0, state, p => some (state, p)
  | fuel + 1, state, p =>
    if p < stop then do
      let symbol ← text[p]?
      if go symbol then scan text stop go update fuel (update state symbol) (p + 1)
      else some (state, p)
    else some (state, p)

/-- The text between a position and a bound. -/
def rest (text : List α) (stop p : ℕ) : List α := (text.take stop).drop p

variable {text : List α} {stop p : ℕ}

theorem length_rest (inside : stop ≤ text.length) : (rest text stop p).length = stop - p := by
  rw [rest, length_drop, length_take_of_le inside]

theorem rest_eq_cons (inside : stop ≤ text.length) (before : p < stop) :
    ∃ symbol, text[p]? = some symbol ∧ rest text stop p = symbol :: rest text stop (p + 1) := by
  have bound : p < (text.take stop).length := by
    rw [length_take_of_le inside]
    exact before
  refine ⟨(text.take stop)[p], ?_, drop_eq_getElem_cons bound⟩
  rw [getElem_take, List.getElem?_eq_getElem]

theorem rest_eq_nil (after : stop ≤ p) : rest text stop p = [] := by
  apply drop_of_length_le
  exact (length_take_le stop text).trans after

theorem rest_min (text : List α) (stop p count : ℕ) :
    rest text (min stop (p + count)) p = (rest text stop p).take count := by
  have counts : min stop (p + count) - p = min count (stop - p) := by omega
  rw [rest, rest, drop_take, drop_take, take_take, counts]

theorem rest_add (text : List α) (stop p count : ℕ) :
    rest text stop (p + count) = (rest text stop p).drop count := by
  rw [rest, rest, drop_drop]

theorem scan_eq (inside : stop ≤ text.length) (go : α → Bool) (update : σ → α → σ) {fuel : ℕ}
    (enough : stop - p ≤ fuel) (state : σ) :
    scan text stop go update fuel state p =
      some (((rest text stop p).takeWhile go).foldl update state,
        p + ((rest text stop p).takeWhile go).length) := by
  induction fuel generalizing state p with
  | zero =>
    rw [scan, rest_eq_nil (by omega)]
    rfl
  | succ fuel ih =>
    unfold scan
    by_cases before : p < stop
    · rcases rest_eq_cons inside before with ⟨symbol, read, split⟩
      rw [if_pos before, read, split]
      rcases taken : go symbol with _ | _
      · simp [taken]
      · have later := ih (p := p + 1) (by omega) (update state symbol)
        simp [taken, later, Nat.add_assoc, Nat.add_comm 1]
    · rw [if_neg before, rest_eq_nil (by omega)]
      rfl

theorem rest_add_length_takeWhile (text : List α) (stop p : ℕ) (go : α → Bool) :
    rest text stop (p + ((rest text stop p).takeWhile go).length) =
      (rest text stop p).dropWhile go := by
  have split := takeWhile_append_dropWhile (p := go) (l := rest text stop p)
  rw [rest_add]
  conv_lhs => arg 2; rw [← split]
  exact drop_left

end Cursor
