import Mathlib

/-!
# Token buckets
-/

namespace TokenBucket

/-- A visit to the bucket, with what is left in it afterwards. -/
structure Visit where
  time : ℕ
  admitted : Bool
  left : ℕ
  deriving DecidableEq, Repr

/-- What a visit pays. -/
def Visit.paid (cost : ℕ) (visit : Visit) : ℕ := if visit.admitted then cost else 0

/-- Visits in order of time that pay from what the bucket can hold and can have gained. -/
def Limited (capacity cost : ℕ) : ℕ → ℕ → List Visit → Prop
  | _, _, [] => True
  | tokens, last, visit :: rest =>
    last ≤ visit.time ∧
      visit.left + visit.paid cost ≤ min capacity (tokens + (visit.time - last)) ∧
      Limited capacity cost visit.left visit.time rest

/-- The visits that were admitted in an interval. -/
def admittedIn (start length : ℕ) (visits : List Visit) : ℕ :=
  visits.countP fun visit => visit.admitted && start ≤ visit.time && visit.time ≤ start + length

variable {capacity cost start length : ℕ}

theorem admittedIn_of_late {tokens last : ℕ} {visits : List Visit}
    (limited : Limited capacity cost tokens last visits) (late : start + length < last) :
    admittedIn start length visits = 0 := by
  induction visits generalizing tokens last with
  | nil => rfl
  | cons visit rest ih =>
    have after : start + length < visit.time := lt_of_lt_of_le late limited.1
    rw [admittedIn, List.countP_cons_of_neg (by simp [Nat.not_le.mpr after])]
    exact ih limited.2.2 after

theorem cost_admittedIn_cons (visit : Visit) (rest : List Visit) :
    cost * admittedIn start length (visit :: rest) ≤
      visit.paid cost + cost * admittedIn start length rest := by
  rw [admittedIn, admittedIn, List.countP_cons, Visit.paid, Nat.mul_add]
  rcases visit.admitted with _ | _
  · simp
  · split
    · simp [Nat.add_comm]
    · simp

theorem cost_admittedIn_le_of_inside {tokens last : ℕ} {visits : List Visit}
    (limited : Limited capacity cost tokens last visits) (inside : last ≤ start + length) :
    cost * admittedIn start length visits ≤ tokens + (start + length - last) := by
  induction visits generalizing tokens last with
  | nil => exact Nat.zero_le _
  | cons visit rest ih =>
    rcases limited with ⟨later, pays, others⟩
    have split := @cost_admittedIn_cons cost start length visit rest
    rcases Nat.lt_or_ge (start + length) visit.time with late | early
    · rw [admittedIn, List.countP_cons_of_neg (by simp [Nat.not_le.mpr late])]
      have none := admittedIn_of_late others late
      rw [admittedIn] at none
      rw [none]
      exact Nat.zero_le _
    · have after := ih others early
      omega

theorem cost_admittedIn_le {tokens last : ℕ} {visits : List Visit}
    (limited : Limited capacity cost tokens last visits) :
    cost * admittedIn start length visits ≤ capacity + length := by
  induction visits generalizing tokens last with
  | nil => exact Nat.zero_le _
  | cons visit rest ih =>
    rcases limited with ⟨later, pays, others⟩
    rcases Nat.lt_or_ge visit.time start with early | inside
    · rw [admittedIn, List.countP_cons_of_neg (by simp [Nat.not_le.mpr early])]
      exact ih others
    · have split := @cost_admittedIn_cons cost start length visit rest
      rcases Nat.lt_or_ge (start + length) visit.time with late | early
      · have none := admittedIn_of_late others late
        rw [none] at split
        omega
      · have after := cost_admittedIn_le_of_inside others early
        omega

end TokenBucket
