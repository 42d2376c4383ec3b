import Mathlib

/-!
# Runs of a deterministic machine
-/

namespace Machine

universe u v

variable {State : Type u} {Event : Type v} (step : State → Event → State)

/-- The state after a list of events. -/
def run (state : State) (events : List Event) : State := events.foldl step state

/-- Every step of the run meets the guard. -/
def Guarded (guard : State → Event → Prop) : State → List Event → Prop
  | _, [] => True
  | state, event :: rest => guard state event ∧ Guarded guard (step state event) rest

instance decidableGuarded (guard : State → Event → Prop)
    [∀ state event, Decidable (guard state event)] :
    ∀ state events, Decidable (Guarded step guard state events)
  | _, [] => isTrue trivial
  | state, event :: rest =>
    @instDecidableAnd _ _ _ (decidableGuarded guard (step state event) rest)

variable {step}

theorem run_append (state : State) (first second : List Event) :
    run step state (first ++ second) = run step (run step state first) second :=
  List.foldl_append

variable {guard : State → Event → Prop} {state : State} {events : List Event}

theorem guarded_append (state : State) (first second : List Event) :
    Guarded step guard state (first ++ second) ↔
      Guarded step guard state first ∧ Guarded step guard (run step state first) second := by
  induction first generalizing state with
  | nil => simp [Guarded, run]
  | cons event rest ih =>
    rw [List.cons_append, Guarded, Guarded, ih, and_assoc]
    rfl

theorem run_invariant (Invariant : State → Prop)
    (preserves : ∀ state event, Invariant state → Invariant (step state event))
    (initial : Invariant state) (events : List Event) :
    Invariant (run step state events) := by
  induction events generalizing state with
  | nil => exact initial
  | cons event rest ih =>
    apply ih
    exact preserves state event initial

theorem run_invariant_of_guarded (Invariant : State → Prop)
    (preserves : ∀ state event, guard state event → Invariant state →
      Invariant (step state event)) (initial : Invariant state)
    (guarded : Guarded step guard state events) : Invariant (run step state events) := by
  induction events generalizing state with
  | nil => exact initial
  | cons event rest ih =>
    rcases guarded with ⟨now, later⟩
    apply ih _ later
    exact preserves state event now initial

theorem guarded_of_forall_mem (every : ∀ event ∈ events, ∀ state, guard state event) (state : State) :
    Guarded step guard state events := by
  induction events generalizing state with
  | nil => trivial
  | cons event rest ih =>
    refine ⟨every event (by simp) state, ?_⟩
    apply ih
    intro later mem
    exact every later (by simp [mem])

theorem forall_prefix_iff_guarded_of_guarded (Invariant : State → Prop)
    {works : State → Event → Prop} (exactly : ∀ state event, works state event → Invariant state →
      (Invariant (step state event) ↔ guard state event)) (initial : Invariant state)
    (working : Guarded step works state events) :
    (∀ before, before <+: events → Invariant (run step state before)) ↔
      Guarded step guard state events := by
  induction events generalizing state with
  | nil =>
    refine ⟨fun _ => trivial, fun _ before empty => ?_⟩
    rw [List.prefix_nil.mp empty]
    exact initial
  | cons event rest ih =>
    rcases working with ⟨works, worksLater⟩
    unfold Guarded
    rw [← exactly state event works initial]
    constructor
    · intro always
      have next : Invariant (step state event) := always [event] (by simp)
      refine ⟨next, (ih next worksLater).mp ?_⟩
      intro before initially
      exact always (event :: before) (List.cons_prefix_cons.mpr ⟨rfl, initially⟩)
    · rintro ⟨next, guarded⟩ before initially
      rcases before with _ | ⟨first, before⟩
      · exact initial
      · rcases List.cons_prefix_cons.mp initially with ⟨rfl, restInitially⟩
        exact (ih next worksLater).mpr guarded before restInitially

theorem forall_prefix_iff_guarded (Invariant : State → Prop)
    (exactly : ∀ state event, Invariant state →
      (Invariant (step state event) ↔ guard state event)) (initial : Invariant state)
    (events : List Event) :
    (∀ before, before <+: events → Invariant (run step state before)) ↔
      Guarded step guard state events := by
  apply forall_prefix_iff_guarded_of_guarded Invariant (fun state event _ => exactly state event)
    initial
  exact guarded_of_forall_mem (fun _ _ _ => trivial) state

end Machine
