import Mathlib

/-!
# Rounded arithmetic
-/

/-- A rounding to a format with at least 53 bits. -/
structure Rounding where
  round : ℝ → ℝ
  monotone : Monotone round
  exact : ∀ (m : ℤ) (e : ℕ), |m| ≤ 2 ^ 53 → e ≤ 1000 → round (m / 2 ^ e) = m / 2 ^ e

namespace Rounding

variable (rounding : Rounding) {x : ℝ} {m : ℤ} {e : ℕ}

theorem round_le_dyadic (below : x ≤ m / 2 ^ e) (short : |m| ≤ 2 ^ 53) (inRange : e ≤ 1000) :
    rounding.round x ≤ m / 2 ^ e := by
  rw [← rounding.exact m e short inRange]
  exact rounding.monotone below

theorem dyadic_le_round (above : m / 2 ^ e ≤ x) (short : |m| ≤ 2 ^ 53) (inRange : e ≤ 1000) :
    m / 2 ^ e ≤ rounding.round x := by
  rw [← rounding.exact m e short inRange]
  exact rounding.monotone above

theorem round_nonneg (nonneg : 0 ≤ x) : 0 ≤ rounding.round x := by
  have bound : ((0 : ℤ) : ℝ) / 2 ^ 0 ≤ rounding.round x :=
    rounding.dyadic_le_round (by simpa using nonneg) (by norm_num) (by norm_num)
  simpa using bound

theorem round_intCast (short : |m| ≤ 2 ^ 53) : rounding.round m = m := by
  have exact := rounding.exact m 0 short (by norm_num)
  simpa using exact

/-- A sum from the left, rounded after each term. -/
noncomputable def sum (terms : List ℝ) : ℝ :=
  terms.foldl (fun total term => rounding.round (total + term)) 0

variable {terms : List ℝ} {bounds : List ℕ}

theorem foldl_nonneg (nonneg : ∀ term ∈ terms, 0 ≤ term) :
    ∀ {total : ℝ}, 0 ≤ total →
      0 ≤ terms.foldl (fun total term => rounding.round (total + term)) total := by
  induction terms with
  | nil => exact id
  | cons term rest ih =>
    intro total start
    apply ih fun other inRest => nonneg other (List.mem_cons_of_mem term inRest)
    exact rounding.round_nonneg (add_nonneg start (nonneg term List.mem_cons_self))

theorem sum_nonneg (nonneg : ∀ term ∈ terms, 0 ≤ term) :
    0 ≤ rounding.sum terms :=
  rounding.foldl_nonneg nonneg le_rfl

theorem foldl_le (inRange : e ≤ 1000)
    (below : List.Forall₂ (fun (term : ℝ) (bound : ℕ) => term ≤ bound / 2 ^ e) terms
      bounds) :
    ∀ {total : ℝ} {start : ℕ}, total ≤ start / 2 ^ e → start + bounds.sum ≤ 2 ^ 53 →
      terms.foldl (fun total term => rounding.round (total + term)) total ≤
        ((start + bounds.sum : ℕ) : ℝ) / 2 ^ e := by
  induction below with
  | nil =>
    intro total start startBelow _
    simpa using startBelow
  | @cons term bound rest bounds termBelow _ ih =>
    intro total start startBelow short
    rw [List.sum_cons] at short ⊢
    rw [← add_assoc] at short ⊢
    apply ih _ short
    have added : total + term ≤ (((start + bound : ℕ) : ℤ) : ℝ) / 2 ^ e := by
      push_cast
      rw [add_div]
      exact add_le_add startBelow termBelow
    have rounded := rounding.round_le_dyadic added (by rw [Nat.abs_cast]; omega) inRange
    simpa using rounded

theorem sum_le (inRange : e ≤ 1000)
    (below : List.Forall₂ (fun (term : ℝ) (bound : ℕ) => term ≤ bound / 2 ^ e) terms bounds)
    (short : bounds.sum ≤ 2 ^ 53) : rounding.sum terms ≤ (bounds.sum : ℝ) / 2 ^ e := by
  have start : (0 : ℝ) ≤ (0 : ℕ) / 2 ^ e := by simp
  have bounded := rounding.foldl_le inRange below start (by rwa [Nat.zero_add])
  rw [Nat.zero_add] at bounded
  exact bounded

end Rounding
