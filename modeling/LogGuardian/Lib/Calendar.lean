import Mathlib

/-!
# The Gregorian calendar
-/

namespace Calendar

def IsLeap (year : ℕ) : Prop := year % 4 = 0 ∧ (year % 100 ≠ 0 ∨ year % 400 = 0)

instance : DecidablePred IsLeap := fun year =>
  inferInstanceAs (Decidable (year % 4 = 0 ∧ (year % 100 ≠ 0 ∨ year % 400 = 0)))

/-- Days of a month, which is counted from 0. -/
def monthLength (year month : ℕ) : ℕ :=
  if month = 1 then if IsLeap year then 29 else 28
  else if month = 3 ∨ month = 5 ∨ month = 8 ∨ month = 10 then 30
  else 31

/-- Days of a year before a month. -/
def daysBeforeMonth (year month : ℕ) : ℕ := ∑ index ∈ Finset.range month, monthLength year index

def yearLength (year : ℕ) : ℕ := daysBeforeMonth year 12

/-- Days from the first day of the epoch to the first day of a month. -/
def daysBefore (epoch year month : ℕ) : ℕ :=
  ∑ index ∈ Finset.Ico epoch year, yearLength index + daysBeforeMonth year month

variable {epoch year month : ℕ}

theorem daysBefore_self (epoch : ℕ) : daysBefore epoch epoch 0 = 0 := by
  simp [daysBefore, daysBeforeMonth]

theorem daysBefore_succ_month :
    daysBefore epoch year (month + 1) = daysBefore epoch year month + monthLength year month := by
  rw [daysBefore, daysBeforeMonth, Finset.sum_range_succ, ← Nat.add_assoc]
  rfl

theorem daysBefore_succ_year (later : epoch ≤ year) :
    daysBefore epoch (year + 1) 0 = daysBefore epoch year 12 := by
  rw [daysBefore, daysBefore, Finset.sum_Ico_succ_top later]
  simp [daysBeforeMonth, yearLength]

theorem eq_daysBefore {count : ℕ → ℕ → ℤ} (start : count epoch 0 = 0)
    (nextMonth : ∀ year month, month < 11 →
      count year (month + 1) = count year month + monthLength year month)
    (nextYear : ∀ year, count (year + 1) 0 = count year 11 + monthLength year 11)
    (later : epoch ≤ year) (valid : month < 12) : count year month = daysBefore epoch year month := by
  have inYear : ∀ {year}, count year 0 = daysBefore epoch year 0 →
      ∀ {month}, month < 12 → count year month = daysBefore epoch year month := by
    intro year first month valid
    induction month with
    | zero => exact first
    | succ month ih =>
      rw [nextMonth year month (by omega), ih (by omega), daysBefore_succ_month]
      rfl
  apply inYear _ valid
  induction year, later using Nat.le_induction with
  | base => rw [start, daysBefore_self, Nat.cast_zero]
  | succ year later ih =>
    rw [nextYear, inYear ih (by omega), daysBefore_succ_year later, ← Nat.cast_add,
      ← daysBefore_succ_month]

end Calendar
