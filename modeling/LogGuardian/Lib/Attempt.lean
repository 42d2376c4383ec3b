import Mathlib

/-!
# Attempts over a logged channel

A client tries one request after the other until one is accepted.
-/

universe u v

/-- The result of a series of requests. -/
structure Attempt (Request : Type u) (State : Type v) where
  ok : Bool
  log : List (Request × Bool)
  state : State

namespace Attempt

open List

variable {Request : Type u} {State : Type v}

/-- Give up without a request. -/
def fail (state : State) : Attempt Request State := ⟨false, [], state⟩

/-- Send one request. -/
def once (send : Request → State → Bool × State) (request : Request) (state : State) :
    Attempt Request State :=
  ⟨(send request state).1, [(request, (send request state).1)], (send request state).2⟩

/-- Go on with `next` when the first attempt failed. -/
def orElse (first : Attempt Request State) (next : State → Attempt Request State) :
    Attempt Request State :=
  if first.ok then first
  else { next first.state with log := first.log ++ (next first.state).log }

/-- Send the same request until it is accepted, at most `tries` times. -/
def retry (send : Request → State → Bool × State) (request : Request) :
    ℕ → State → Attempt Request State
  | 0, state => fail state
  | tries + 1, state => (once send request state).orElse (retry send request tries)

/-- Some request of the log was accepted. -/
def Accepted (log : List (Request × Bool)) : Prop := ∃ request, (request, true) ∈ log

/-- The attempt succeeded exactly when one of its requests was accepted. -/
def Honest (attempt : Attempt Request State) : Prop := attempt.ok = true ↔ Accepted attempt.log

theorem honest_fail (state : State) : (fail state : Attempt Request State).Honest := by
  simp [Honest, Accepted, fail]

theorem honest_once (send : Request → State → Bool × State) (request : Request) (state : State) :
    (once send request state).Honest := by
  simp [Honest, Accepted, once]

variable {first : Attempt Request State} {next : State → Attempt Request State}
  {send : Request → State → Bool × State} {request : Request}

theorem honest_orElse (firstHonest : first.Honest) (nextHonest : ∀ state, (next state).Honest) :
    (first.orElse next).Honest := by
  unfold orElse
  split
  · exact firstHonest
  · rename_i failed
    have firstRefused : ¬Accepted first.log := fun accepted => failed (firstHonest.mpr accepted)
    have honest := nextHonest first.state
    simp only [Honest, Accepted, mem_append, exists_or] at honest firstRefused ⊢
    rw [honest]
    exact (or_iff_right firstRefused).symm

theorem honest_retry (send : Request → State → Bool × State) (request : Request) (tries : ℕ)
    (state : State) : (retry send request tries state).Honest := by
  induction tries generalizing state with
  | zero => exact honest_fail state
  | succ tries ih =>
    apply honest_orElse
    · exact honest_once send request state
    · exact ih

theorem forall_log_orElse (Good : Request → Prop) (firstGood : ∀ entry ∈ first.log, Good entry.1)
    (nextGood : ∀ state, ∀ entry ∈ (next state).log, Good entry.1) :
    ∀ entry ∈ (first.orElse next).log, Good entry.1 := by
  intro entry mem
  unfold orElse at mem
  split at mem
  · exact firstGood entry mem
  · rcases List.mem_append.mp mem with early | late
    · exact firstGood entry early
    · exact nextGood _ entry late

theorem forall_log_once (Good : Request → Prop) (good : Good request) (state : State) :
    ∀ entry ∈ (once send request state).log, Good entry.1 := by
  intro entry mem
  simp only [once, mem_singleton] at mem
  rw [mem]
  exact good

theorem forall_log_retry (Good : Request → Prop) (good : Good request) (tries : ℕ) (state : State) :
    ∀ entry ∈ (retry send request tries state).log, Good entry.1 := by
  induction tries generalizing state with
  | zero => simp [retry, fail]
  | succ tries ih =>
    apply forall_log_orElse Good
    · exact forall_log_once Good good state
    · exact ih

theorem pairwise_log_orElse {Before : Request × Bool → Request × Bool → Prop}
    (firstOrdered : first.log.Pairwise Before)
    (nextOrdered : ∀ state, (next state).log.Pairwise Before)
    (between : ∀ early ∈ first.log, ∀ state, ∀ late ∈ (next state).log, Before early late) :
    (first.orElse next).log.Pairwise Before := by
  unfold orElse
  split
  · exact firstOrdered
  · apply List.pairwise_append.mpr
    exact ⟨firstOrdered, nextOrdered _, fun early inFirst late => between early inFirst _ late⟩

/-! ## Where a log stops

A settled attempt ends with its accepted request; a failed one has none. -/

def Refused (log : List (Request × Bool)) : Prop := ∀ entry ∈ log, entry.2 = false

structure Settled (attempt : Attempt Request State) : Prop where
  failed : attempt.ok = false → Refused attempt.log
  succeeded : attempt.ok = true →
    ∃ front request, attempt.log = front ++ [(request, true)] ∧ Refused front

theorem settled_fail (state : State) : (fail state : Attempt Request State).Settled where
  failed _ := by simp [Refused, fail]
  succeeded ok := Bool.noConfusion ok

theorem settled_once (send : Request → State → Bool × State) (request : Request) (state : State) :
    (once send request state).Settled where
  failed refused := by
    intro entry mem
    rw [List.mem_singleton.mp mem]
    exact refused
  succeeded accepted := by
    refine ⟨[], request, ?_, by simp [Refused]⟩
    simp only [once] at accepted ⊢
    rw [accepted, nil_append]

theorem settled_orElse (firstSettled : first.Settled) (nextSettled : ∀ state, (next state).Settled) :
    (first.orElse next).Settled := by
  unfold orElse
  split
  · exact firstSettled
  · rename_i failed
    have refused := firstSettled.failed (Bool.not_eq_true _ ▸ failed)
    have later := nextSettled first.state
    constructor
    · intro failedToo entry mem
      rcases List.mem_append.mp mem with early | late
      · exact refused entry early
      · exact later.failed failedToo entry late
    · intro accepted
      rcases later.succeeded accepted with ⟨front, request, split, frontRefused⟩
      refine ⟨first.log ++ front, request, ?_, List.forall_mem_append.mpr ⟨refused, frontRefused⟩⟩
      rw [append_assoc, ← split]

theorem settled_retry (send : Request → State → Bool × State) (request : Request) (tries : ℕ)
    (state : State) : (retry send request tries state).Settled := by
  induction tries generalizing state with
  | zero => exact settled_fail state
  | succ tries ih =>
    apply settled_orElse
    · exact settled_once send request state
    · exact ih

theorem Settled.eq_nil_of_accepted {attempt : Attempt Request State} (settled : attempt.Settled)
    {front back : List (Request × Bool)} {entry : Request × Bool}
    (split : attempt.log = front ++ entry :: back) (accepted : entry.2 = true) : back = [] := by
  have inLog : entry ∈ attempt.log := by
    rw [split]
    exact mem_append_right _ mem_cons_self
  rcases ok : attempt.ok with _ | _
  · exact Bool.noConfusion ((settled.failed ok entry inLog).symm.trans accepted)
  · rcases settled.succeeded ok with ⟨refusedPart, request, ends, refused⟩
    rcases eq_nil_or_concat back with empty | ⟨rest, last, rfl⟩
    · exact empty
    · rw [split, concat_eq_append, ← cons_append, ← append_assoc] at ends
      have sameFront := (append_inj' ends rfl).1
      have early : entry ∈ refusedPart := by
        rw [← sameFront]
        exact mem_append_right _ mem_cons_self
      exact Bool.noConfusion ((refused entry early).symm.trans accepted)

end Attempt
