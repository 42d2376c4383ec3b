import Mathlib

/-!
# Linear probing without tombstones

A table of keys over `size` slots.
-/

namespace LinearProbe

universe u

variable {Key : Type u} {size : ℕ} [NeZero size] (home : Key → Fin size) (reach : ℕ)

/-- The slot at a distance from the home of a key. -/
def slotAt (key : Key) (distance : ℕ) : Fin size := Fin.ofNat size ((home key).val + distance)

/-- Where the search for a key stops: the first slot that is free or holds the key. -/
def probe [DecidableEq Key] (table : Fin size → Option Key) (key : Key) : Option (Fin size) :=
  ((List.range reach).find? fun distance =>
    table (slotAt home key distance) = none ∨
      table (slotAt home key distance) = some key).map (slotAt home key)

/-- Every key is stored once and is reachable from its home over occupied slots. -/
structure Sound (table : Fin size → Option Key) : Prop where
  unique : ∀ {left right key}, table left = some key → table right = some key → left = right
  chained : ∀ {slot key}, table slot = some key →
    ∃ distance < reach, slotAt home key distance = slot ∧
      ∀ earlier < distance, table (slotAt home key earlier) ≠ none

/-- No key that stays has a freed slot on the way to it. -/
def StrandsNone (table : Fin size → Option Key) (freed : Fin size → Prop) : Prop :=
  ∀ slot key, table slot = some key → ¬freed slot →
    ∀ distance < reach, slotAt home key distance = slot →
      ∀ earlier < distance, ¬freed (slotAt home key earlier)

variable {home reach}

theorem slotAt_injective {key : Key} {left right : ℕ} (leftLt : left < size)
    (rightLt : right < size) (same : slotAt home key left = slotAt home key right) :
    left = right := by
  have sameVal := congrArg Fin.val same
  have congruent : left ≡ right [MOD size] := Nat.ModEq.add_left_cancel' _ sameVal
  exact Nat.ModEq.eq_of_lt_of_lt congruent leftLt rightLt

section Probe

variable [DecidableEq Key] {table : Fin size → Option Key} {key : Key} {slot : Fin size}

theorem probe_eq_some_iff :
    probe home reach table key = some slot ↔
      ∃ distance < reach, slotAt home key distance = slot ∧
        (table slot = none ∨ table slot = some key) ∧
        ∀ earlier < distance, table (slotAt home key earlier) ≠ none ∧
          table (slotAt home key earlier) ≠ some key := by
  simp only [probe, Option.map_eq_some_iff, List.find?_range_eq_some, decide_eq_true_eq,
    List.mem_range, Bool.not_eq_true', decide_eq_false_iff_not, not_or]
  constructor
  · rintro ⟨distance, ⟨stops, near, goesOn⟩, rfl⟩
    exact ⟨distance, near, rfl, stops, goesOn⟩
  · rintro ⟨distance, near, rfl, stops, goesOn⟩
    exact ⟨distance, ⟨stops, near, goesOn⟩, rfl⟩

theorem probe_eq_none_iff :
    probe home reach table key = none ↔
      ∀ distance < reach, table (slotAt home key distance) ≠ none ∧
        table (slotAt home key distance) ≠ some key := by
  simp only [probe, Option.map_eq_none_iff, List.find?_range_eq_none, Bool.not_eq_true',
    decide_eq_false_iff_not, not_or]

theorem probe_of_mem (sound : Sound home reach table) (stored : table slot = some key) :
    probe home reach table key = some slot := by
  rcases sound.chained stored with ⟨distance, near, rfl, occupied⟩
  rw [probe_eq_some_iff]
  -- the key is at no earlier slot: it would be the same slot, at a shorter distance
  by_cases earlierHit : ∃ earlier < distance, table (slotAt home key earlier) = some key
  · rcases earlierHit with ⟨earlier, before, hit⟩
    have least := Nat.find_spec (p := fun candidate => candidate < distance ∧
      table (slotAt home key candidate) = some key) ⟨earlier, before, hit⟩
    refine ⟨_, least.1.trans near, sound.unique least.2 stored, Or.inr stored, ?_⟩
    intro candidate smaller
    refine ⟨occupied _ (smaller.trans least.1), fun again => ?_⟩
    exact Nat.find_min ⟨earlier, before, hit⟩ smaller ⟨smaller.trans least.1, again⟩
  · push Not at earlierHit
    exact ⟨distance, near, rfl, Or.inr stored,
      fun earlier before => ⟨occupied earlier before, earlierHit earlier before⟩⟩

theorem sound_iff_probe :
    Sound home reach table ↔
      ∀ slot key, table slot = some key → probe home reach table key = some slot := by
  refine ⟨fun sound _ _ stored => probe_of_mem sound stored, fun finds => ⟨?_, ?_⟩⟩
  · intro left right key storedLeft storedRight
    have both := (finds left key storedLeft).symm.trans (finds right key storedRight)
    simpa using both
  · intro slot key stored
    rcases probe_eq_some_iff.mp (finds slot key stored) with ⟨distance, near, found, -, goesOn⟩
    exact ⟨distance, near, found, fun earlier before => (goesOn earlier before).1⟩

theorem not_mem_of_probe_free (sound : Sound home reach table)
    (stops : probe home reach table key = some slot) (free : table slot = none)
    (other : Fin size) : table other ≠ some key := by
  intro stored
  have found := probe_of_mem sound stored
  rw [stops, Option.some.injEq] at found
  rw [found, stored] at free
  simp at free

theorem not_mem_of_probe_none (sound : Sound home reach table)
    (full : probe home reach table key = none) (other : Fin size) : table other ≠ some key := by
  intro stored
  rw [probe_of_mem sound stored] at full
  simp at full

theorem exists_probe (sound : Sound home size table) {known : Finset Key}
    (stored : ∀ slot other, table slot = some other → other ∈ known) (isKnown : key ∈ known)
    (few : known.card ≤ size) : ∃ slot, probe home size table key = some slot := by
  by_contra stops
  have full := probe_eq_none_iff.mp (Option.eq_none_iff_forall_ne_some.mpr (not_exists.mp stops))
  have taken (distance : Fin size) : ∃ other, table (slotAt home key distance) = some other :=
    Option.ne_none_iff_exists'.mp (full distance distance.isLt).1
  choose keyAt held using taken
  -- the keys along the probe are distinct, and none is the key
  have distinct : Function.Injective keyAt := fun left right same =>
    Fin.ext (slotAt_injective left.isLt right.isLt (sound.unique (held left) (same ▸ held right)))
  have absent : key ∉ Finset.univ.image keyAt := by
    intro atSlot
    rcases Finset.mem_image.mp atSlot with ⟨distance, -, rfl⟩
    exact (full distance distance.isLt).2 (held distance)
  have inside : insert key (Finset.univ.image keyAt) ⊆ known := by
    intro other isThere
    rcases Finset.mem_insert.mp isThere with rfl | atSlot
    · exact isKnown
    · rcases Finset.mem_image.mp atSlot with ⟨distance, -, rfl⟩
      exact stored _ _ (held distance)
  have many := Finset.card_le_card inside
  rw [Finset.card_insert_of_notMem absent, Finset.card_image_of_injective _ distinct,
    Finset.card_fin] at many
  omega

end Probe

theorem sound_empty : Sound home reach fun _ : Fin size => (none : Option Key) where
  unique := by simp
  chained := by simp

theorem sound_store [DecidableEq Key] {table : Fin size → Option Key} {key : Key} {slot : Fin size}
    (sound : Sound home reach table) (absent : ∀ other, table other ≠ some key)
    {distance : ℕ} (near : distance < reach) (found : slotAt home key distance = slot)
    (occupied : ∀ earlier < distance, table (slotAt home key earlier) ≠ none) :
    Sound home reach (Function.update table slot (some key)) where
  unique := by
    intro left right other storedLeft storedRight
    by_cases leftIs : left = slot <;> by_cases rightIs : right = slot
    · rw [leftIs, rightIs]
    · simp only [leftIs, Function.update_self, Function.update_of_ne rightIs] at storedLeft storedRight
      exact absurd storedRight (storedLeft ▸ absent right)
    · simp only [rightIs, Function.update_self, Function.update_of_ne leftIs] at storedLeft storedRight
      exact absurd storedLeft (storedRight ▸ absent left)
    · rw [Function.update_of_ne leftIs] at storedLeft
      rw [Function.update_of_ne rightIs] at storedRight
      exact sound.unique storedLeft storedRight
  chained := by
    have stillOccupied : ∀ other, table other ≠ none →
        Function.update table slot (some key) other ≠ none := by
      intro other full
      by_cases otherIs : other = slot
      · simp [otherIs]
      · rwa [Function.update_of_ne otherIs]
    intro other otherKey stored
    by_cases otherIs : other = slot
    · rw [otherIs, Function.update_self, Option.some.injEq] at stored
      subst stored
      exact ⟨distance, near, found.trans otherIs.symm,
        fun earlier before => stillOccupied _ (occupied earlier before)⟩
    · rw [Function.update_of_ne otherIs] at stored
      rcases sound.chained stored with ⟨otherDistance, otherNear, otherAt, otherOccupied⟩
      exact ⟨otherDistance, otherNear, otherAt,
        fun earlier before => stillOccupied _ (otherOccupied earlier before)⟩

theorem sound_free_iff (fits : reach ≤ size) {table : Fin size → Option Key}
    {freed : Fin size → Prop} [DecidablePred freed] (sound : Sound home reach table) :
    (Sound home reach fun slot => if freed slot then none else table slot) ↔
      StrandsNone home reach table freed := by
  constructor
  · intro after slot key stored kept distance near found earlier before freedEarlier
    have storedAfter : (if freed slot then none else table slot) = some key := by
      rw [if_neg kept, stored]
    rcases after.chained storedAfter with ⟨other, otherNear, otherFound, occupied⟩
    obtain rfl : other = distance :=
      slotAt_injective (otherNear.trans_le fits) (near.trans_le fits)
        (otherFound.trans found.symm)
    exact occupied earlier before (if_pos freedEarlier)
  · intro strandsNone
    refine ⟨?_, ?_⟩
    · intro left right key storedLeft storedRight
      split_ifs at storedLeft storedRight
      exact sound.unique storedLeft storedRight
    · intro slot key stored
      split_ifs at stored with free
      rcases sound.chained stored with ⟨distance, near, found, occupied⟩
      refine ⟨distance, near, found, fun earlier before => ?_⟩
      rw [if_neg (strandsNone slot key stored free distance near found earlier before)]
      exact occupied earlier before

end LinearProbe
