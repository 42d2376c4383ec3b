import Mathlib

/-!
# Slots of a ring buffer
-/

namespace Ring

open List

universe u

variable {Item : Type u} {size index other : ℕ} {slots : ℕ → Item} {item : Item}

def get (size : ℕ) (slots : ℕ → Item) (index : ℕ) : Item := slots (index % size)

def put (size : ℕ) (slots : ℕ → Item) (index : ℕ) (item : Item) : ℕ → Item :=
  Function.update slots (index % size) item

@[simp]
theorem get_put_self : get size (put size slots index item) index = item := by
  simp [get, put]

theorem get_put_of_mod_ne (apart : other % size ≠ index % size) :
    get size (put size slots index item) other = get size slots other := by
  rw [get, put, Function.update_of_ne apart, get]

theorem mod_ne_mod_of_lt (before : other < index) (near : index < other + size) :
    other % size ≠ index % size := by
  intro same
  have divides : (index - other) % size = 0 := Nat.sub_mod_eq_zero_of_mod_eq same.symm
  rw [Nat.mod_eq_of_lt (by omega)] at divides
  omega

theorem get_put_of_lt (before : other < index) (near : index < other + size) :
    get size (put size slots index item) other = get size slots other :=
  get_put_of_mod_ne (mod_ne_mod_of_lt before near)

theorem get_put_of_gt (after : index < other) (near : other < index + size) :
    get size (put size slots index item) other = get size slots other :=
  get_put_of_mod_ne (mod_ne_mod_of_lt after near).symm

theorem get_mod {modulus : ℕ} (divides : size ∣ modulus) :
    get size slots (index % modulus) = get size slots index := by
  rw [get, Nat.mod_mod_of_dvd _ divides, get]

theorem put_mod {modulus : ℕ} (divides : size ∣ modulus) :
    put size slots (index % modulus) item = put size slots index item := by
  rw [put, Nat.mod_mod_of_dvd _ divides, put]

/-! ## A ring as a list

The slots of a ring that started empty, after a history of items: the whole history while it
fits, and its last items from then on. -/

structure Recent (slots history : List Item) : Prop where
  fits : history.length ≤ slots.length → slots.take history.length = history
  wraps : slots.length ≤ history.length →
    slots.rotate history.length = history.drop (history.length - slots.length)

theorem recent_nil (slots : List Item) : Recent slots [] where
  fits _ := rfl
  wraps short := by
    rw [List.length_eq_zero_iff.mp (Nat.le_zero.mp short)]
    rfl

theorem rotate_set_succ {slots : List Item} {k : ℕ} (inside : k < slots.length) :
    (slots.set k item).rotate (k + 1) = (slots.rotate k).tail ++ [item] := by
  rw [rotate_eq_drop_append_take (by rw [length_set]; omega),
    rotate_eq_drop_append_take inside.le, drop_set_of_lt (by omega),
    take_set, take_succ_eq_append_getElem inside, drop_eq_getElem_cons inside,
    cons_append, tail_cons, append_assoc]
  congr 1
  rw [set_append_right _ _ (by simp), length_take, min_eq_left inside.le, Nat.sub_self,
    set_cons_zero]

variable {slots history : List Item}

theorem take_set_of_fits {k : ℕ} (inside : k < slots.length) :
    (slots.set k item).take (k + 1) = slots.take k ++ [item] := by
  rw [take_set, take_succ_eq_append_getElem inside, set_append_right _ _ (by simp),
    length_take, min_eq_left inside.le, Nat.sub_self, set_cons_zero]

theorem rotate_set_mod {n : ℕ} (nonempty : slots ≠ []) :
    (slots.set (n % slots.length) item).rotate (n + 1) = (slots.rotate n).tail ++ [item] := by
  have positive := List.length_pos_iff.mpr nonempty
  rw [← rotate_mod _ (n + 1), ← Nat.mod_add_mod, ← rotate_mod slots n,
    ← rotate_set_succ (Nat.mod_lt n positive)]
  exact (congrArg _ (by rw [length_set])).trans (rotate_mod _ (n % slots.length + 1))

theorem Recent.push (recent : Recent slots history) (item : Item) :
    Recent (slots.set (history.length % slots.length) item) (history ++ [item]) where
  fits short := by
    rw [length_append, length_singleton, length_set] at short
    rw [length_append, length_singleton, Nat.mod_eq_of_lt short,
      take_set_of_fits short, recent.fits (by omega)]
  wraps long := by
    rw [length_append, length_singleton, length_set] at *
    by_cases full : slots.length ≤ history.length
    · rcases eq_or_ne slots [] with rfl | nonempty
      · simp
      · rw [rotate_set_mod nonempty, recent.wraps full, tail_drop,
          drop_append_of_le_length (by
            have := List.length_pos_iff.mpr nonempty
            omega)]
        congr 2
        omega
    · -- the last free slot is filled
      have isLast : history.length + 1 = slots.length := by omega
      have filled : (slots.set history.length item).take (history.length + 1) =
          slots.take history.length ++ [item] := take_set_of_fits (by omega)
      rw [recent.fits (by omega), take_of_length_le (by simp [isLast])] at filled
      rw [Nat.mod_eq_of_lt (by omega), filled, isLast, Nat.sub_self, drop_zero, ← isLast]
      exact (congrArg _ (by simp)).trans (rotate_length (history ++ [item]))

theorem Recent.countP_take (recent : Recent slots history) (p : Item → Bool) :
    (slots.take (min history.length slots.length)).countP p =
      (history.drop (history.length - slots.length)).countP p := by
  rcases le_total history.length slots.length with short | long
  · rw [min_eq_left short, recent.fits short, Nat.sub_eq_zero_of_le short, drop_zero]
  · rw [min_eq_right long, take_length, ← recent.wraps long]
    exact ((rotate_perm slots _).countP_eq p).symm

end Ring
