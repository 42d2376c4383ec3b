import Mathlib

/-!
# A fixed table of expiring answers

Slots hold a key, an answer and the time at which the answer expires.
-/

namespace ExpiringCache

universe u v

structure Slot (Key : Type u) (Answer : Type v) where
  key : Key
  expire : ℤ
  answer : Answer

variable {Key : Type u} {Answer : Type v} [DecidableEq Key]

def lookup (key : Key) (now : ℤ) (slots : List (Slot Key Answer)) : Option Answer :=
  (slots.find? fun slot => slot.key = key ∧ now < slot.expire).map Slot.answer

/-- The slot that a store takes. -/
def place (home : ℕ) (key : Key) (now : ℤ) (slots : List (Slot Key Answer)) : Option ℕ :=
  ((List.range slots.length).map fun i => (home + i) % slots.length).find? fun index =>
    (slots.drop index).head?.any fun slot => slot.key = key ∨ slot.expire ≤ now

def store (home : ℕ) (slot : Slot Key Answer) (now : ℤ) (slots : List (Slot Key Answer)) :
    List (Slot Key Answer) :=
  match place home slot.key now slots with
  | some index => slots.set index slot
  | none => slots

/-- Every slot in use holds an answer that goes with its key. -/
def Explained (blank : Key) (Goes : Key → Answer → Prop) (slots : List (Slot Key Answer)) : Prop :=
  ∀ slot ∈ slots, slot.key = blank ∨ Goes slot.key slot.answer

variable {blank : Key} {Goes : Key → Answer → Prop} {slots : List (Slot Key Answer)}

theorem explained_store {home : ℕ} {slot : Slot Key Answer} {now : ℤ}
    (explained : Explained blank Goes slots) (goes : Goes slot.key slot.answer) :
    Explained blank Goes (store home slot now slots) := by
  unfold store
  split
  · intro other mem
    rcases List.mem_or_eq_of_mem_set mem with old | rfl
    · exact explained other old
    · exact Or.inr goes
  · exact explained

theorem goes_of_lookup {key : Key} {now : ℤ} {answer : Answer}
    (explained : Explained blank Goes slots) (used : key ≠ blank)
    (found : lookup key now slots = some answer) : Goes key answer := by
  rcases Option.map_eq_some_iff.mp found with ⟨slot, hit, rfl⟩
  have live := List.find?_some hit
  simp only [decide_eq_true_eq] at live
  rcases explained slot (List.mem_of_find?_eq_some hit) with unused | goes
  · exact absurd (live.1.symm.trans unused) used
  · rw [← live.1]
    exact goes

end ExpiringCache
