import Mathlib

/-!
# Counters that start anew with every window

A counter belongs to a window of time.
-/

structure RateWindow where
  window : ℤ := 0
  count : ℤ := 0
  deriving DecidableEq, Repr

namespace RateWindow

open List

/-- The counter in a window. -/
def enter (counter : RateWindow) (now : ℤ) : RateWindow :=
  if now ≠ counter.window then ⟨now, 0⟩ else counter

/-- Count a call. -/
def tick (counter : RateWindow) (now : ℤ) : RateWindow :=
  { counter.enter now with count := Int.bmod ((counter.enter now).count + 1) (2 ^ 32) }

/-- Admit a call while there is room. -/
def take (cap : ℤ) (counter : RateWindow) (now : ℤ) : Bool × RateWindow :=
  if (counter.enter now).count < cap then
    (true, { counter.enter now with count := (counter.enter now).count + 1 })
  else (false, counter.enter now)

/-- The counter after what it counted in the given windows. -/
structure Tracks (counter : RateWindow) (times : List ℤ) : Prop where
  count : counter.count = times.count counter.window
  latest : ∀ time ∈ times, time ≤ counter.window
  current : times = [] ∨ counter.window ∈ times

theorem tracks_nil : Tracks {} [] where
  count := rfl
  latest := by simp
  current := .inl rfl

variable {counter : RateWindow} {times : List ℤ} {now : ℤ}

@[simp]
theorem window_enter : (counter.enter now).window = now := by
  unfold enter
  split
  · rfl
  · rename_i same
    exact (not_not.mp same).symm

theorem Tracks.count_enter (tracks : counter.Tracks times) (latest : ∀ time ∈ times, time ≤ now) :
    (counter.enter now).count = times.count now := by
  unfold enter
  split
  · rename_i moved
    have none : times.count now = 0 := by
      apply count_eq_zero_of_not_mem
      intro inTimes
      rcases tracks.current with empty | atWindow
      · rw [empty] at inTimes
        exact not_mem_nil inTimes
      · exact moved (le_antisymm (tracks.latest now inTimes) (latest counter.window atWindow))
    rw [none]
    rfl
  · rename_i same
    rw [not_not.mp same]
    exact tracks.count

theorem tracks_counted (latest : ∀ time ∈ times, time ≤ now) :
    Tracks ⟨now, times.count now + 1⟩ (times ++ [now]) where
  count := by simp
  latest := by
    intro time inTimes
    rcases List.mem_append.mp inTimes with before | isNow
    · exact latest time before
    · exact (List.mem_singleton.mp isNow).le
  current := .inr (by simp)

theorem Tracks.tick_eq (tracks : counter.Tracks times) (latest : ∀ time ∈ times, time ≤ now)
    (few : times.count now + 1 < 2 ^ 31) : counter.tick now = ⟨now, times.count now + 1⟩ := by
  have small : Int.bmod ((times.count now : ℤ) + 1) (2 ^ 32) = times.count now + 1 := by
    rw [Int.bmod_def]
    omega
  rw [tick, window_enter, tracks.count_enter latest, small]

theorem Tracks.take_eq (tracks : counter.Tracks times) (latest : ∀ time ∈ times, time ≤ now)
    (cap : ℤ) :
    counter.take cap now =
      if (times.count now : ℤ) < cap then (true, ⟨now, times.count now + 1⟩)
      else (false, counter.enter now) := by
  simp [take, tracks.count_enter latest]

theorem Tracks.enter (tracks : counter.Tracks times) (latest : ∀ time ∈ times, time ≤ now)
    (counted : 0 < times.count now) : (counter.enter now).Tracks times where
  count := by rw [window_enter, tracks.count_enter latest]
  latest := by
    rw [window_enter]
    exact latest
  current := by
    rw [window_enter]
    exact .inr (List.count_pos_iff.mp counted)

end RateWindow

/-! ## Logs of limited calls

A log of calls with verdicts, where the calls that share a key are allowed up to a limit. -/

universe u v

variable {α : Type u} {κ : Type v} [DecidableEq κ] (key : α → κ) (limit : ℕ)

def LimitsBy (log : List (α × Bool)) : Prop :=
  ∀ before item ok after, log = before ++ (item, ok) :: after →
    ok = decide (before.countP (fun entry => key entry.1 = key item) + 1 ≤ limit)

namespace LimitsBy

variable {key limit} {log : List (α × Bool)} {item : α}

theorem nil : LimitsBy key limit ([] : List (α × Bool)) := by
  intro before item ok after split
  simp at split

theorem of_append {rest : List (α × Bool)} (limits : LimitsBy key limit (log ++ rest)) :
    LimitsBy key limit log := by
  intro before item ok after split
  apply limits before item ok (after ++ rest)
  rw [split, List.append_assoc, List.cons_append]

theorem snoc (limits : LimitsBy key limit log) :
    LimitsBy key limit (log ++ [(item,
      decide (log.countP (fun entry => key entry.1 = key item) + 1 ≤ limit))]) := by
  intro before other ok after split
  rcases List.eq_nil_or_concat after with rfl | ⟨init, last, rfl⟩
  · rcases List.append_inj' split rfl with ⟨rfl, same⟩
    simp only [List.cons.injEq, Prod.mk.injEq, and_true] at same
    rw [← same.1, ← same.2]
  · rw [List.concat_eq_append, ← List.cons_append, ← List.append_assoc] at split
    rcases List.append_inj' split rfl with ⟨same, _⟩
    exact limits before other ok init same

theorem countP_allowed (limits : LimitsBy key limit log) (k : κ) :
    log.countP (fun entry => decide (key entry.1 = k) && entry.2) =
      min (log.countP fun entry => key entry.1 = k) limit := by
  induction log using List.reverseRecOn with
  | nil => simp
  | append_singleton log entry ih =>
    have before := ih limits.of_append
    have verdict := limits log entry.1 entry.2 [] rfl
    rw [List.countP_append, List.countP_append, before]
    by_cases same : key entry.1 = k
    · by_cases within : (log.countP fun entry => key entry.1 = k) + 1 ≤ limit
      · simp [same, verdict, within]
        omega
      · simp [same, verdict, within]
        omega
    · simp [same]

end LimitsBy
