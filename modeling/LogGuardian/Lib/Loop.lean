import Mathlib

/-!
# While loops with fuel

A `while` loop is a halting test and a body.
-/

namespace Loop

universe u

variable {State : Type u} (halted : State → Prop) (body : State → State)

/-- Turns of the loop lead from the first state to the second. -/
inductive Reaches : State → State → Prop
  | refl (state : State) : Reaches state state
  | step {state last : State} (running : ¬halted state) (later : Reaches (body state) last) :
      Reaches state last

namespace Reaches

variable {halted body} {first middle last : State}

theorem trans (early : Reaches halted body first middle) (late : Reaches halted body middle last) :
    Reaches halted body first last := by
  induction early with
  | refl => exact late
  | step running _ ih => exact .step running (ih late)

theorem single (running : ¬halted first) (turn : body first = middle) :
    Reaches halted body first middle := by
  apply Reaches.step running
  rw [turn]
  exact .refl middle

theorem sequence (states : ℕ → State) (count : ℕ)
    (turn : ∀ index < count, ¬halted (states index) ∧ body (states index) = states (index + 1)) :
    Reaches halted body (states 0) (states count) := by
  induction count with
  | zero => exact .refl _
  | succ count ih =>
    have now := turn count (Nat.lt_succ_self count)
    apply (ih fun index before => turn index (Nat.lt_succ_of_lt before)).trans
    exact .single now.1 now.2

end Reaches

variable [DecidablePred halted]

def run : ℕ → State → State
  | 0, state => state
  | fuel + 1, state => if halted state then state else run fuel (body state)

variable {halted body}

theorem run_invariant (Invariant : State → Prop)
    (step : ∀ state, ¬halted state → Invariant state → Invariant (body state))
    (fuel : ℕ) {state : State} (initial : Invariant state) :
    Invariant (run halted body fuel state) := by
  induction fuel generalizing state with
  | zero => exact initial
  | succ fuel ih =>
    unfold run
    split
    · exact initial
    · rename_i running
      exact ih (step state running initial)

theorem halted_run {measure : State → ℕ}
    (decreases : ∀ state, ¬halted state → measure (body state) < measure state)
    {fuel : ℕ} {state : State} (enough : measure state < fuel) :
    halted (run halted body fuel state) := by
  induction fuel generalizing state with
  | zero => omega
  | succ fuel ih =>
    unfold run
    split
    · assumption
    · rename_i running
      have smaller := decreases state running
      exact ih (by omega)

variable (halted) in
/-- Run a body that may fail. -/
def tryRun (tryBody : State → Option State) : ℕ → State → Option State
  | 0, _ => none
  | fuel + 1, state =>
    if halted state then some state else (tryBody state).bind (tryRun tryBody fuel)

theorem tryRun_eq_run {tryBody : State → Option State} {measure : State → ℕ}
    (Invariant : State → Prop)
    (succeeds : ∀ state, ¬halted state → Invariant state → tryBody state = some (body state))
    (step : ∀ state, ¬halted state → Invariant state → Invariant (body state))
    (decreases : ∀ state, ¬halted state → measure (body state) < measure state)
    {fuel : ℕ} {state : State} (initial : Invariant state) (enough : measure state < fuel) :
    tryRun halted tryBody fuel state = some (run halted body fuel state) := by
  induction fuel generalizing state with
  | zero => omega
  | succ fuel ih =>
    unfold tryRun run
    split
    · rfl
    · rename_i running
      have smaller := decreases state running
      rw [succeeds state running initial, Option.bind_some]
      exact ih (step state running initial) (by omega)

theorem Reaches.run_eq {first last : State}
    (reaches : Reaches halted body first last) (stopped : halted last) {fuel : ℕ}
    (enough : halted (run halted body fuel first)) : run halted body fuel first = last := by
  induction reaches generalizing fuel with
  | refl =>
    cases fuel with
    | zero => rfl
    | succ fuel => exact if_pos stopped
  | step running _ ih =>
    cases fuel with
    | zero => exact absurd enough running
    | succ fuel =>
      rw [run, if_neg running] at enough ⊢
      exact ih stopped enough

end Loop
