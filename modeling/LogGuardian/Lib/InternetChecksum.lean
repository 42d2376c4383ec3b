import LogGuardian.Lib.Loop

/-!
# The internet checksum
-/

namespace InternetChecksum

abbrev Memory := ℕ → UInt8

def load16 (memory : Memory) (p : ℕ) : ℕ := (memory p).toNat * 256 + (memory (p + 1)).toNat

def store16 (memory : Memory) (p value : ℕ) : Memory :=
  Function.update (Function.update memory p (UInt8.ofNat (value / 256))) (p + 1)
    (UInt8.ofNat value)

def load32 (memory : Memory) (p : ℕ) : ℕ := load16 memory p * 2 ^ 16 + load16 memory (p + 2)

def store32 (memory : Memory) (p value : ℕ) : Memory :=
  store16 (store16 memory p (value / 2 ^ 16)) (p + 2) value

/-- Exchange two regions of the same size. -/
def swap (memory : Memory) (p q size : ℕ) : Memory := fun i =>
  if p ≤ i ∧ i < p + size then memory (q + (i - p))
  else if q ≤ i ∧ i < q + size then memory (p + (i - q))
  else memory i

variable {memory : Memory} {p q value : ℕ}

theorem store16_of_ne {i : ℕ} (apart : i ≠ p) (apart' : i ≠ p + 1) :
    store16 memory p value i = memory i := by
  rw [store16, Function.update_of_ne apart', Function.update_of_ne apart]

@[simp]
theorem load16_store16 : load16 (store16 memory p value) p = value % 2 ^ 16 := by
  rw [load16, store16, Function.update_of_ne (by omega), Function.update_self, Function.update_self,
    UInt8.toNat_ofNat', UInt8.toNat_ofNat']
  omega

theorem load16_store16_of_apart (apart : q + 1 < p ∨ p + 1 < q) :
    load16 (store16 memory p value) q = load16 memory q := by
  rw [load16, load16, store16_of_ne (by omega) (by omega), store16_of_ne (by omega) (by omega)]

@[simp]
theorem load32_store32 : load32 (store32 memory p value) p = value % 2 ^ 32 := by
  rw [load32, store32, load16_store16_of_apart (by omega), load16_store16, load16_store16]
  omega

/-- The sum of the words from an address on. -/
def wordSum (memory : Memory) (p : ℕ) : ℕ → ℕ
  | 0 => 0
  | n + 1 => wordSum memory p n + load16 memory (p + 2 * n)

/-- `while (sum >> 16) sum = (sum & 0xffff) + (sum >> 16)`. -/
def fold (sum : ℕ) : ℕ :=
  Loop.run (fun sum => sum / 2 ^ 16 = 0) (fun sum => sum % 2 ^ 16 + sum / 2 ^ 16) (sum + 1) sum

theorem wordSum_of_agree {other : Memory} {n : ℕ}
    (agree : ∀ i < n, load16 other (p + 2 * i) = load16 memory (p + 2 * i)) :
    wordSum other p n = wordSum memory p n := by
  induction n with
  | zero => rfl
  | succ n ih =>
    rw [wordSum, wordSum, ih fun i before => agree i (by omega), agree n (by omega)]

theorem wordSum_store16_of_apart {n : ℕ} (apart : q + 1 < p ∨ p + 2 * n ≤ q) :
    wordSum (store16 memory q value) p n = wordSum memory p n := by
  apply wordSum_of_agree
  intro i before
  exact load16_store16_of_apart (by omega)

theorem wordSum_store16 {n k : ℕ} (inside : k < n) :
    wordSum (store16 memory (p + 2 * k) value) p n + load16 memory (p + 2 * k) =
      wordSum memory p n + value % 2 ^ 16 := by
  induction n with
  | zero => omega
  | succ n ih =>
    rw [wordSum, wordSum]
    rcases Nat.lt_succ_iff_lt_or_eq.mp inside with before | rfl
    · rw [load16_store16_of_apart (by omega)]
      omega
    · rw [wordSum_store16_of_apart (by omega), load16_store16]
      omega

theorem fold_lt (sum : ℕ) : fold sum < 2 ^ 16 := by
  have decreases : ∀ now : ℕ, ¬ now / 2 ^ 16 = 0 → now % 2 ^ 16 + now / 2 ^ 16 < now := by omega
  have halted := @Loop.halted_run ℕ (fun now => now / 2 ^ 16 = 0)
    (fun now => now % 2 ^ 16 + now / 2 ^ 16) _ id decreases (sum + 1) sum (Nat.lt_succ_self sum)
  change fold sum / 2 ^ 16 = 0 at halted
  omega

theorem fold_invariant (sum : ℕ) : fold sum % 65535 = sum % 65535 ∧ (0 < sum → 0 < fold sum) := by
  apply Loop.run_invariant (fun now => now % 65535 = sum % 65535 ∧ (0 < sum → 0 < now))
  · rintro now running ⟨same, positive⟩
    constructor <;> omega
  · exact ⟨rfl, id⟩

theorem fold_add_complement {sum : ℕ} (positive : 0 < sum) :
    fold (sum + (65535 - fold sum)) = 65535 := by
  have small := fold_lt sum
  have same := (fold_invariant sum).1
  have whole := fold_lt (sum + (65535 - fold sum))
  have whole' := fold_invariant (sum + (65535 - fold sum))
  omega

theorem load16_le_wordSum {n k : ℕ} (inside : k < n) :
    load16 memory (p + 2 * k) ≤ wordSum memory p n := by
  induction n with
  | zero => omega
  | succ n ih =>
    rcases Nat.lt_succ_iff_lt_or_eq.mp inside with before | rfl
    · exact (ih before).trans (Nat.le_add_right _ _)
    · exact Nat.le_add_left _ _

theorem fold_sealed {n k rest : ℕ} (inside : k < n)
    (positive : 0 < rest + wordSum (store16 memory (p + 2 * k) 0) p n) :
    fold (rest + wordSum (store16 (store16 memory (p + 2 * k) 0) (p + 2 * k)
      (65535 - fold (rest + wordSum (store16 memory (p + 2 * k) 0) p n))) p n) = 65535 := by
  have completed := fold_add_complement positive
  have replaced := @wordSum_store16 (store16 memory (p + 2 * k) 0) p
    (65535 - fold (rest + wordSum (store16 memory (p + 2 * k) 0) p n)) n k inside
  rw [load16_store16] at replaced
  apply Eq.trans (congrArg fold _) completed
  omega

end InternetChecksum
