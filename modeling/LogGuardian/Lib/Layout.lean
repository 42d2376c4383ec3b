import Mathlib

/-!
# Pieces of a text

`LiesAt piece text p` says that a piece begins at position `p` of a text.
-/

universe u

variable {α : Type u}

def LiesAt (piece text : List α) (p : ℕ) : Prop := piece <+: text.drop p

namespace LiesAt

open List

variable {piece text : List α} {p : ℕ}

theorem whole (text : List α) : LiesAt text text 0 := prefix_rfl

theorem append_iff {first second : List α} :
    LiesAt (first ++ second) text p ↔
      LiesAt first text p ∧ LiesAt second text (p + first.length) := by
  constructor
  · rintro ⟨rest, split⟩
    refine ⟨⟨second ++ rest, by rw [← split, append_assoc]⟩, ⟨rest, ?_⟩⟩
    rw [← drop_drop, ← split, append_assoc, drop_left]
  · rintro ⟨⟨behind, split⟩, ⟨rest, tail⟩⟩
    refine ⟨rest, ?_⟩
    rw [← drop_drop, ← split, drop_left] at tail
    rw [append_assoc, tail, split]

theorem cons_iff {item : α} {rest : List α} :
    LiesAt (item :: rest) text p ↔ LiesAt [item] text p ∧ LiesAt rest text (p + 1) := by
  rw [← singleton_append]
  exact append_iff

theorem getD_add (lies : LiesAt piece text p) {i : ℕ} (inside : i < piece.length) (fallback : α) :
    text.getD (p + i) fallback = piece.getD i fallback := by
  rcases lies with ⟨rest, split⟩
  have dropped : text.getD (p + i) fallback = (text.drop p).getD i fallback := by
    simp [getD_eq_getElem?_getD]
  rw [dropped, ← split, getD_append _ _ _ _ inside]

theorem getD_head {item : α} {rest : List α} (lies : LiesAt (item :: rest) text p) (fallback : α) :
    text.getD p fallback = item :=
  lies.getD_add (Nat.zero_lt_succ _) fallback

theorem length_le (lies : LiesAt piece text p) : piece.length ≤ text.length - p := by
  have length := List.IsPrefix.length_le lies
  rwa [length_drop] at length

end LiesAt
