import Mathlib

/-!
# Escaped texts
-/

namespace Escape

open List

universe u

variable {α : Type u} [DecidableEq α] (quote escape : α)

def Balanced : List α → Prop
  | [] => True
  | [symbol] => symbol ≠ quote ∧ symbol ≠ escape
  | symbol :: next :: rest =>
    if symbol = escape then Balanced rest else symbol ≠ quote ∧ Balanced (next :: rest)

instance decidableBalanced : DecidablePred (Balanced quote escape)
  | [] => inferInstanceAs (Decidable True)
  | [symbol] => inferInstanceAs (Decidable (symbol ≠ quote ∧ symbol ≠ escape))
  | symbol :: next :: rest =>
    let _ := decidableBalanced rest
    let _ := decidableBalanced (next :: rest)
    inferInstanceAs
      (Decidable (if symbol = escape then Balanced quote escape rest
        else symbol ≠ quote ∧ Balanced quote escape (next :: rest)))

/-- The number of escape symbols a text ends with. -/
def trailing (text : List α) : ℕ := (text.reverse.takeWhile (· = escape)).length

variable {quote escape}

theorem trailing_append_escape (text : List α) :
    trailing escape (text ++ [escape]) = trailing escape text + 1 := by
  simp [trailing]

theorem trailing_append_of_ne (text : List α) {symbol : α} (other : symbol ≠ escape) :
    trailing escape (text ++ [symbol]) = 0 := by
  simp [trailing, other]

variable {text front : List α} {position : ℕ}

theorem trailing_of_not_mem (none : escape ∉ text) : trailing escape text = 0 := by
  rcases eq_nil_or_concat text with rfl | ⟨front, last, rfl⟩
  · rfl
  · rw [concat_eq_append] at none ⊢
    apply trailing_append_of_ne
    rintro rfl
    exact none (by simp)

theorem even_trailing_pair (even : trailing escape text % 2 = 0) (symbol : α) :
    trailing escape (text ++ [escape] ++ [symbol]) % 2 = 0 := by
  by_cases again : symbol = escape
  · rw [again, trailing_append_escape, trailing_append_escape]
    omega
  · rw [trailing_append_of_ne _ again]

theorem even_trailing_append (even : trailing escape front % 2 = 0)
    (balanced : Balanced quote escape text) : trailing escape (front ++ text) % 2 = 0 := by
  induction text using Balanced.induct escape generalizing front with
  | case1 => simpa using even
  | case2 symbol => rw [trailing_append_of_ne _ balanced.2]
  | case3 next rest ih =>
    rw [Balanced, if_pos rfl] at balanced
    have pair := ih (even_trailing_pair even next) balanced
    simpa using pair
  | case4 symbol next rest plain ih =>
    rw [Balanced, if_neg plain] at balanced
    have single : trailing escape (front ++ [symbol]) % 2 = 0 := by
      rw [trailing_append_of_ne _ plain]
    have later := ih single balanced.2
    simpa using later

theorem odd_trailing_of_quote (distinct : quote ≠ escape) {before after : List α}
    (even : trailing escape front % 2 = 0) (balanced : Balanced quote escape text)
    (split : text = before ++ quote :: after) : trailing escape (front ++ before) % 2 = 1 := by
  induction text using Balanced.induct escape generalizing front before with
  | case1 => simp at split
  | case2 symbol =>
    rcases before with _ | ⟨first, before⟩
    · exact absurd (List.cons.inj split).1 balanced.1
    · simp at split
  | case3 next rest ih =>
    rw [Balanced, if_pos rfl] at balanced
    rcases before with _ | ⟨first, _ | ⟨second, before⟩⟩
    · exact absurd (List.cons.inj split).1.symm distinct
    · rw [← (List.cons.inj split).1, trailing_append_escape]
      omega
    · simp only [cons_append, List.cons.injEq] at split
      rcases split with ⟨rfl, rfl, later⟩
      have inside := ih (even_trailing_pair even next) balanced later
      simpa using inside
  | case4 symbol next rest plain ih =>
    rw [Balanced, if_neg plain] at balanced
    rcases before with _ | ⟨first, before⟩
    · exact absurd (List.cons.inj split).1 balanced.1
    · rcases List.cons.inj split with ⟨rfl, later⟩
      have single : trailing escape (front ++ [symbol]) % 2 = 0 := by
        rw [trailing_append_of_ne _ plain]
      have inside := ih single balanced.2 later
      simpa using inside

theorem balanced_of_plain (plain : ∀ symbol ∈ text, symbol ≠ quote ∧ symbol ≠ escape) :
    Balanced quote escape text := by
  induction text using Balanced.induct escape with
  | case1 => trivial
  | case2 symbol => exact plain symbol mem_cons_self
  | case3 next rest _ => exact absurd rfl (plain escape mem_cons_self).2
  | case4 symbol next rest other ih =>
    rw [Balanced, if_neg other]
    exact ⟨(plain symbol mem_cons_self).1,
      ih fun later member => plain later (mem_cons_of_mem _ member)⟩

theorem balanced_append {first second : List α} (balancedFirst : Balanced quote escape first)
    (balancedSecond : Balanced quote escape second) : Balanced quote escape (first ++ second) := by
  induction first using Balanced.induct escape with
  | case1 => exact balancedSecond
  | case2 symbol =>
    rcases second with _ | ⟨next, second⟩
    · exact balancedFirst
    · rw [singleton_append, Balanced, if_neg balancedFirst.2]
      exact ⟨balancedFirst.1, balancedSecond⟩
  | case3 next rest ih =>
    rw [Balanced, if_pos rfl] at balancedFirst
    rw [cons_append, cons_append, Balanced, if_pos rfl]
    exact ih balancedFirst
  | case4 symbol next rest plain ih =>
    rw [Balanced, if_neg plain] at balancedFirst
    rw [cons_append, cons_append, Balanced, if_neg plain]
    exact ⟨balancedFirst.1, ih balancedFirst.2⟩

variable (quote escape)

/-- The position holds a quote that no escape symbol escapes. -/
def Delimits (text : List α) (position : ℕ) : Prop :=
  text[position]? = some quote ∧ trailing escape (text.take position) % 2 = 0

def quotes : Bool → List α → ℕ
  | _, [] => 0
  | odd, symbol :: rest =>
    (if symbol = quote ∧ odd = false then 1 else 0) + quotes (symbol = escape && !odd) rest

/-- The number of delimiting quotes from a position on. -/
def quotesFrom (text : List α) (position : ℕ) : ℕ :=
  quotes quote escape (trailing escape (text.take position) % 2 = 1) (text.drop position)

variable {quote escape}

theorem trailing_append_of_zero (none : trailing escape front = 0) (text : List α) :
    trailing escape (front ++ text) = trailing escape text := by
  induction text using reverseRecOn with
  | nil => rw [append_nil, none]; rfl
  | append_singleton text symbol ih =>
    rw [← append_assoc]
    by_cases again : symbol = escape
    · rw [again, trailing_append_escape, trailing_append_escape, ih]
    · rw [trailing_append_of_ne _ again, trailing_append_of_ne _ again]

theorem quotes_append_of_balanced (distinct : quote ≠ escape)
    (balanced : Balanced quote escape text) (rest : List α) :
    quotes quote escape false (text ++ rest) = quotes quote escape false rest := by
  induction text using Balanced.induct escape with
  | case1 => rfl
  | case2 symbol => simp [quotes, balanced.1, balanced.2]
  | case3 next text ih =>
    rw [Balanced, if_pos rfl] at balanced
    simpa [quotes, distinct.symm] using ih balanced
  | case4 symbol next text plain ih =>
    rw [Balanced, if_neg plain] at balanced
    have later := ih balanced.2
    rw [cons_append, quotes]
    simpa [balanced.1, plain] using later

theorem quotes_cons_quote (distinct : quote ≠ escape) (rest : List α) :
    quotes quote escape false (quote :: rest) = quotes quote escape false rest + 1 := by
  simp [quotes, distinct, Nat.add_comm]

theorem quotesFrom_eq (inside : position < text.length) :
    quotesFrom quote escape text position =
      (if text[position] = quote ∧ trailing escape (text.take position) % 2 = 0 then 1 else 0) +
        quotesFrom quote escape text (position + 1) := by
  have taken : text.take (position + 1) = text.take position ++ [text[position]] :=
    take_succ_eq_append_getElem inside
  unfold quotesFrom
  rw [drop_eq_getElem_cons inside, quotes, taken]
  congr 1
  · simp
  · congr 1
    by_cases escapes : text[position] = escape
    · rw [escapes, trailing_append_escape]
      rcases Nat.mod_two_eq_zero_or_one (trailing escape (text.take position)) with even | odd
      · simp [Nat.add_mod, even]
      · simp [Nat.add_mod, odd]
    · rw [trailing_append_of_ne _ escapes]
      simp [escapes]

theorem quotesFrom_of_delimits (delimits : Delimits quote escape text position) :
    quotesFrom quote escape text position = quotesFrom quote escape text (position + 1) + 1 := by
  rcases List.getElem?_eq_some_iff.mp delimits.1 with ⟨inside, symbol⟩
  rw [quotesFrom_eq inside, if_pos ⟨symbol, delimits.2⟩, Nat.add_comm]

theorem quotesFrom_antitone (text : List α) {first second : ℕ} (le : first ≤ second) :
    quotesFrom quote escape text second ≤ quotesFrom quote escape text first := by
  induction second, le using Nat.le_induction with
  | base => exact le_rfl
  | succ second _ ih =>
    apply le_trans _ ih
    by_cases inside : second < text.length
    · rw [quotesFrom_eq inside]
      omega
    · have ended : text.drop (second + 1) = [] := drop_of_length_le (by omega)
      rw [quotesFrom, ended]
      exact Nat.zero_le _

end Escape
