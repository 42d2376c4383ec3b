import Mathlib

/-!
# Hash chains
-/

namespace HashChain

universe u v

variable {Record : Type u} {Tag : Type v} (carries : Record → Tag → Prop) (hash : Record → Tag)

/-- The records are linked to each other, and the first one to `start`. -/
def Valid : Tag → List Record → Prop
  | _, [] => True
  | start, record :: rest => carries record start ∧ Valid (hash record) rest

/-- The tag that the next record has to carry. -/
def tip (start : Tag) (records : List Record) : Tag :=
  records.foldl (fun _ record => hash record) start

variable {carries hash} {start : Tag}

@[simp] theorem tip_nil : tip hash start [] = start := rfl

@[simp] theorem tip_append_singleton (records : List Record) (record : Record) :
    tip hash start (records ++ [record]) = hash record := by
  simp [tip]

theorem valid_append_singleton (records : List Record) (record : Record) :
    Valid carries hash start (records ++ [record]) ↔
      Valid carries hash start records ∧ carries record (tip hash start records) := by
  induction records generalizing start with
  | nil => simp [Valid]
  | cons first rest ih =>
    rw [List.cons_append, Valid, Valid, ih, and_assoc]
    rfl

end HashChain
