import Mathlib

/-!
# Iterated hash functions

A compression function is iterated over the blocks of a message.
-/

namespace BlockHash

open List

universe u v

variable {State : Type u} {Item : Type v} (compress : State → List Item → State) (width : ℕ)

def foldBlocks : ℕ → State → List Item → State
  | 0, state, _ => state
  | count + 1, state, items =>
    foldBlocks count (compress state (items.take width)) (items.drop width)

/-- Compress every full block. -/
def hash (state : State) (items : List Item) : State :=
  foldBlocks compress width (items.length / width) state items

structure Stream (State : Type u) (Item : Type v) where
  state : State
  pending : List Item := []
  deriving DecidableEq, Repr

def absorb (stream : Stream State Item) (item : Item) : Stream State Item :=
  if (stream.pending ++ [item]).length = width then
    { state := compress stream.state (stream.pending ++ [item]) }
  else { stream with pending := stream.pending ++ [item] }

def absorbAll (stream : Stream State Item) (items : List Item) : Stream State Item :=
  items.foldl (absorb compress width) stream

/-- The number of fill items between the mark at the end of a message and the field of its length. -/
def fill (reserve length : ℕ) : ℕ := (2 * width - 1 - reserve - length % width) % width

variable {compress width}

theorem hash_of_short {items : List Item} (short : items.length < width) (state : State) :
    hash compress width state items = state := by
  rw [hash, Nat.div_eq_of_lt short]
  rfl

theorem hash_block_append {block : List Item} (length : block.length = width) (positive : 0 < width)
    (state : State) (items : List Item) :
    hash compress width state (block ++ items) =
      hash compress width (compress state block) items := by
  have count : (block ++ items).length / width = items.length / width + 1 := by
    rw [length_append, length, Nat.add_comm, Nat.add_div_right _ positive]
  rw [hash, count, foldBlocks, take_left' length, drop_left' length]
  rfl

theorem hash_block {block : List Item} (length : block.length = width) (positive : 0 < width)
    (state : State) : hash compress width state block = compress state block := by
  rw [← append_nil block, hash_block_append length positive, append_nil]
  exact hash_of_short positive _

theorem length_pending_absorb {stream : Stream State Item} (item : Item)
    (short : stream.pending.length < width) :
    (absorb compress width stream item).pending.length = (stream.pending.length + 1) % width := by
  have length : (stream.pending ++ [item]).length = stream.pending.length + 1 := by simp
  unfold absorb
  split_ifs with full
  · rw [← length, full, Nat.mod_self]
    rfl
  · exact length.trans (Nat.mod_eq_of_lt (by omega)).symm

theorem hash_absorb {stream : Stream State Item} (item : Item)
    (short : stream.pending.length < width) (items : List Item) :
    hash compress width (absorb compress width stream item).state
        ((absorb compress width stream item).pending ++ items) =
      hash compress width stream.state (stream.pending ++ item :: items) := by
  have split : stream.pending ++ item :: items = stream.pending ++ [item] ++ items := by simp
  unfold absorb
  split_ifs with full
  · rw [split, hash_block_append full (by omega)]
    rfl
  · rw [split]

theorem length_pending_absorbAll {stream : Stream State Item} (items : List Item)
    (short : stream.pending.length < width) :
    (absorbAll compress width stream items).pending.length =
      (stream.pending.length + items.length) % width := by
  induction items generalizing stream with
  | nil => exact (Nat.mod_eq_of_lt short).symm
  | cons item rest ih =>
    have next : (absorb compress width stream item).pending.length = _ :=
      length_pending_absorb item short
    have step : absorbAll compress width stream (item :: rest) =
      absorbAll compress width (absorb compress width stream item) rest := rfl
    rw [step, ih, next, Nat.mod_add_mod, length_cons]
    · congr 1
      omega
    · rw [next]
      exact Nat.mod_lt _ (by omega)

theorem hash_absorbAll {stream : Stream State Item} (items : List Item)
    (short : stream.pending.length < width) (tail : List Item) :
    hash compress width (absorbAll compress width stream items).state
        ((absorbAll compress width stream items).pending ++ tail) =
      hash compress width stream.state (stream.pending ++ (items ++ tail)) := by
  induction items generalizing stream with
  | nil => rfl
  | cons item rest ih =>
    rw [cons_append, ← hash_absorb item short]
    apply ih
    rw [length_pending_absorb item short]
    exact Nat.mod_lt _ (by omega)

section Padding

variable {pending field : List Item} (mark zero : Item)

theorem hash_padding_of_fits (fits : pending.length + 1 + field.length ≤ width) (state : State) :
    hash compress width state
        (pending ++ (mark :: List.replicate (fill width field.length pending.length) zero ++ field)) =
      compress state (pending ++
        (mark :: List.replicate (width - field.length - 1 - pending.length) zero ++ field)) := by
  have count : fill width field.length pending.length = width - field.length - 1 - pending.length := by
    rw [fill, Nat.mod_eq_of_lt (show pending.length < width by omega)]
    rw [show 2 * width - 1 - field.length - pending.length =
      width - field.length - 1 - pending.length + width by omega, Nat.add_mod_right,
      Nat.mod_eq_of_lt (by omega)]
  rw [count, hash_block _ (by omega)]
  simp only [length_append, length_cons, length_replicate]
  omega

theorem hash_padding_of_not_fits (short : pending.length < width) (room : field.length < width)
    (long : width < pending.length + 1 + field.length) (state : State) :
    hash compress width state
        (pending ++ (mark :: List.replicate (fill width field.length pending.length) zero ++ field)) =
      compress (compress state (pending ++ mark :: List.replicate (width - 1 - pending.length) zero))
        (List.replicate (width - field.length) zero ++ field) := by
  have count : fill width field.length pending.length =
      (width - 1 - pending.length) + (width - field.length) := by
    rw [fill, Nat.mod_eq_of_lt short, Nat.mod_eq_of_lt (by omega)]
    omega
  have split : pending ++ (mark :: replicate (fill width field.length pending.length) zero ++ field) =
      (pending ++ mark :: replicate (width - 1 - pending.length) zero) ++
        (replicate (width - field.length) zero ++ field) := by
    rw [count, replicate_add]
    simp only [append_assoc, cons_append]
  rw [split, hash_block_append _ (by omega), hash_block _ (by omega)]
  · simp only [length_append, length_replicate]
    omega
  · simp only [length_append, length_cons, length_replicate]
    omega

end Padding

end BlockHash
