import LogGuardian.IpMap.Window
import LogGuardian.Lib.Rounding

/-!
# Beaconing
-/

namespace LogGuardian

open List

def beaconingMinSamples : ℕ := 16

/-- The mean, the variance and its root as the loops of `detect_beaconing` compute them. -/
noncomputable def stddev (double : Rounding) (diffs : List ℝ) : ℝ :=
  let mean := double.round (double.sum diffs / diffs.length)
  let var := double.sum (diffs.map fun diff =>
    double.round (double.round (diff - mean) * double.round (diff - mean)))
  double.round (√(double.round (var / diffs.length)))

noncomputable def windowDiffs (double : Rounding) (window : SlidingWindow) (start count : ℕ) :
    List ℝ :=
  (List.range (count - 1)).map fun i =>
    |double.round ((window.times.getD ((start + (i + 1)) % 2 ^ 32 % windowSlots) 0 -
      window.times.getD ((start + i) % 2 ^ 32 % windowSlots) 0 : ℤ) : ℝ)|

open Classical in
noncomputable def detectBeaconing (double : Rounding) (window : SlidingWindow) : Bool :=
  let count := if window.count < windowSlots then window.count else windowSlots
  if count < beaconingMinSamples then false
  else
    let start := if count ≤ window.head then window.head - count else 0
    let diffs := windowDiffs double window start count
    if diffs.length < 2 then false else decide (stddev double diffs < 1 / 2)

def steps (times : List ℤ) : List ℕ :=
  List.zipWith (fun time next => (next - time).natAbs) times times.tail

theorem steps_cons_cons (time next : ℤ) (rest : List ℤ) :
    steps (time :: next :: rest) = (next - time).natAbs :: steps (next :: rest) := rfl

theorem sum_steps_of_pairwise {ts : ℤ} {time : ℤ} {rest : List ℤ}
    (ordered : (time :: rest).Pairwise (· ≤ ·)) (upTo : ∀ other ∈ time :: rest, other ≤ ts) :
    ((steps (time :: rest)).sum : ℤ) ≤ ts - time := by
  induction rest generalizing time with
  | nil =>
    have := upTo time mem_cons_self
    simp only [steps, tail_cons, zipWith_nil_right, sum_nil]
    omega
  | cons next rest ih =>
    have later : time ≤ next := (List.pairwise_cons.mp ordered).1 next mem_cons_self
    have tail := ih ordered.tail fun other inRest => upTo other (mem_cons_of_mem time inRest)
    rw [steps_cons_cons, sum_cons]
    omega

theorem sum_steps_append_le {since : ℤ} {front back : List ℤ}
    (frontNear : ∀ time ∈ front, since ≤ time ∧ time ≤ since + 1)
    (backNear : ∀ time ∈ back, since ≤ time ∧ time ≤ since + 1) :
    (steps front).sum + (steps back).sum ≤ (steps (front ++ back)).sum ∧
      (steps (front ++ back)).sum ≤ (steps front).sum + (steps back).sum + 1 := by
  induction front with
  | nil => simp [steps]
  | cons time rest ih =>
    have inner := ih fun other inRest => frontNear other (mem_cons_of_mem time inRest)
    cases rest with
    | nil =>
      cases back with
      | nil => simp [steps]
      | cons next back =>
        have here := frontNear time mem_cons_self
        have there := backNear next mem_cons_self
        rw [cons_append, nil_append, steps_cons_cons, sum_cons]
        simp only [steps, tail_cons, zipWith_nil_right, sum_nil]
        omega
    | cons next rest =>
      rw [cons_append, cons_append, steps_cons_cons, steps_cons_cons, sum_cons,
        sum_cons]
      rw [cons_append] at inner
      omega

theorem le_one_of_mem_steps {since : ℤ} {times : List ℤ}
    (near : ∀ time ∈ times, since ≤ time ∧ time ≤ since + 1) : ∀ diff ∈ steps times, diff ≤ 1 := by
  intro diff inSteps
  rcases List.mem_iff_getElem.mp inSteps with ⟨i, inside, rfl⟩
  rw [steps, length_zipWith, length_tail] at inside
  have here := near _ (getElem_mem (show i < times.length by omega))
  have next := near _ (getElem_mem (show i + 1 < times.length by omega))
  simp only [steps, getElem_zipWith, getElem_tail]
  omega

theorem sum_steps_of_isRotated {since : ℤ} {times rotated : List ℤ}
    (ordered : times.Pairwise (· ≤ ·))
    (near : ∀ time ∈ times, since ≤ time ∧ time ≤ since + 1) (isRotated : times ~r rotated) :
    (steps rotated).sum ≤ 2 := by
  rcases List.isRotated_iff_mod.mp isRotated with ⟨k, inside, rfl⟩
  rw [rotate_eq_drop_append_take inside]
  have whole : (steps times).sum ≤ 1 := by
    cases times with
    | nil => simp [steps]
    | cons time rest =>
      have total := sum_steps_of_pairwise ordered fun other inTimes => (near other inTimes).2
      have first := near time mem_cons_self
      omega
  have frontNear : ∀ time ∈ times.take k, since ≤ time ∧ time ≤ since + 1 :=
    fun time inFront => near time (mem_of_mem_take inFront)
  have backNear : ∀ time ∈ times.drop k, since ≤ time ∧ time ≤ since + 1 :=
    fun time inBack => near time (mem_of_mem_drop inBack)
  have cut := (sum_steps_append_le frontNear backNear).1
  have joined := (sum_steps_append_le backNear frontNear).2
  rw [take_append_drop] at cut
  omega

section Burst

variable (double : Rounding)

theorem round_square_le {diff : ℕ} (isStep : diff ≤ 1) {mean : ℝ} (nonneg : 0 ≤ mean)
    (small : mean ≤ 1 / 32) :
    double.round (double.round (diff - mean) * double.round (diff - mean)) ≤
      ((1 + 1023 * diff : ℕ) : ℝ) / 2 ^ 10 := by
  have square : double.round (diff - mean) * double.round (diff - mean) ≤
      (((1 + 1023 * diff : ℕ) : ℤ) : ℝ) / 2 ^ 10 := by
    interval_cases diff
    · have upper : double.round ((0 : ℕ) - mean) ≤ ((0 : ℤ) : ℝ) / 2 ^ 0 :=
        double.round_le_dyadic (by simpa using nonneg) (by norm_num) (by norm_num)
      have lower : ((-1 : ℤ) : ℝ) / 2 ^ 5 ≤ double.round ((0 : ℕ) - mean) :=
        double.dyadic_le_round (by norm_num; linarith) (by norm_num) (by norm_num)
      nlinarith
    · have upper : double.round ((1 : ℕ) - mean) ≤ ((1 : ℤ) : ℝ) / 2 ^ 0 :=
        double.round_le_dyadic (by simpa using nonneg) (by norm_num) (by norm_num)
      have lower : 0 ≤ double.round ((1 : ℕ) - mean) :=
        double.round_nonneg (by norm_num; linarith)
      norm_num at upper lower ⊢
      nlinarith
  have rounded := double.round_le_dyadic square (by rw [Nat.abs_cast]; norm_cast; omega) (by norm_num)
  simpa using rounded

def asReals (diffs : List ℕ) : List ℝ := diffs.map fun (diff : ℕ) => (diff : ℝ)

theorem sum_asReals_le {diffs : List ℕ} (few : diffs.sum ≤ 2) : double.sum (asReals diffs) ≤ 2 := by
  have bounded : double.sum (asReals diffs) ≤ (diffs.sum : ℝ) / 2 ^ 0 := by
    apply double.sum_le (by norm_num)
    · rw [asReals, List.forall₂_map_left_iff, List.forall₂_same]
      intro diff _
      simp
    · omega
  have cast : (diffs.sum : ℝ) ≤ 2 := by exact_mod_cast few
  linarith

theorem sum_asReals_nonneg (diffs : List ℕ) : 0 ≤ double.sum (asReals diffs) := by
  apply double.sum_nonneg
  intro real inReals
  rcases List.mem_map.mp inReals with ⟨diff, _, rfl⟩
  positivity

theorem sum_bounds (diffs : List ℕ) :
    (diffs.map fun diff => 1 + 1023 * diff).sum = diffs.length + 1023 * diffs.sum := by
  rw [sum_map_add, sum_map_mul_left]
  simp

theorem stddev_lt_of_steps {diffs : List ℕ} (many : diffs.length = 127)
    (areSteps : ∀ diff ∈ diffs, diff ≤ 1) (few : diffs.sum ≤ 2) :
    stddev double (asReals diffs) < 1 / 2 := by
  have length : ((asReals diffs).length : ℝ) = 127 := by
    rw [asReals, length_map, many]
    norm_num
  have total := sum_asReals_le double few
  have nonneg := sum_asReals_nonneg double diffs
  unfold stddev
  rw [length]
  dsimp only
  have meanNonneg : 0 ≤ double.round (double.sum (asReals diffs) / 127) :=
    double.round_nonneg (by positivity)
  have meanSmall : double.round (double.sum (asReals diffs) / 127) ≤ 1 / 32 := by
    have rounded : double.round (double.sum (asReals diffs) / 127) ≤ ((1 : ℤ) : ℝ) / 2 ^ 5 :=
      double.round_le_dyadic (by norm_num; linarith) (by norm_num) (by norm_num)
    norm_num at rounded ⊢
    exact rounded
  generalize double.round (double.sum (asReals diffs) / 127) = mean at meanNonneg meanSmall ⊢
  have varSmall : double.sum ((asReals diffs).map fun diff =>
      double.round (double.round (diff - mean) * double.round (diff - mean))) ≤ 3 := by
    have bounded : double.sum ((asReals diffs).map fun diff =>
        double.round (double.round (diff - mean) * double.round (diff - mean))) ≤
          (((diffs.map fun diff => 1 + 1023 * diff).sum : ℕ) : ℝ) / 2 ^ 10 := by
      apply double.sum_le (by norm_num)
      · rw [asReals, map_map, List.forall₂_map_left_iff, List.forall₂_map_right_iff,
          List.forall₂_same]
        intro diff inDiffs
        exact round_square_le double (areSteps diff inDiffs) meanNonneg meanSmall
      · rw [sum_bounds]
        omega
    have cast : (((diffs.map fun diff => 1 + 1023 * diff).sum : ℕ) : ℝ) ≤ 3072 := by
      rw [sum_bounds]
      exact_mod_cast (show diffs.length + 1023 * diffs.sum ≤ 3072 by omega)
    linarith
  generalize double.sum ((asReals diffs).map fun diff =>
    double.round (double.round (diff - mean) * double.round (diff - mean))) = var at varSmall ⊢
  have squared : double.round (var / 127) ≤ ((1 : ℤ) : ℝ) / 2 ^ 4 :=
    double.round_le_dyadic (by norm_num; linarith) (by norm_num) (by norm_num)
  have root : √(double.round (var / 127)) ≤ ((1 : ℤ) : ℝ) / 2 ^ 2 := by
    rw [Real.sqrt_le_left (by norm_num)]
    norm_num at squared ⊢
    exact squared
  have rounded := double.round_le_dyadic root (by norm_num) (by norm_num)
  norm_num at rounded ⊢
  linarith

theorem getElem_rotate_eq {times : List ℤ} (length : times.length = windowSlots) {start i : ℕ}
    (inside : i < (times.rotate start).length) :
    (times.rotate start)[i] = times.getD ((start + i) % 2 ^ 32 % windowSlots) 0 := by
  have slot : (start + i) % 2 ^ 32 % windowSlots = (i + start) % times.length := by
    rw [length, add_comm i]
    exact Nat.mod_mod_of_dvd (start + i) (by decide)
  rw [getElem_rotate, slot, getD_eq_getElem]

theorem abs_round_diff {here next since : ℤ} (hereNear : since ≤ here ∧ here ≤ since + 1)
    (nextNear : since ≤ next ∧ next ≤ since + 1) :
    |double.round ((next - here : ℤ) : ℝ)| = (((next - here).natAbs : ℕ) : ℝ) := by
  rw [double.round_intCast (by rw [abs_le]; omega), Nat.cast_natAbs, Int.cast_abs]

theorem windowDiffs_eq {window : SlidingWindow} (length : window.times.length = windowSlots)
    {since : ℤ} (near : ∀ time ∈ window.times, since ≤ time ∧ time ≤ since + 1) (start : ℕ) :
    windowDiffs double window start windowSlots = asReals (steps (window.times.rotate start)) := by
  have rotated : ∀ time ∈ window.times.rotate start, since ≤ time ∧ time ≤ since + 1 :=
    fun time inTimes => near time (List.mem_rotate.mp inTimes)
  apply ext_getElem
  · simp [windowDiffs, asReals, steps, length]
  · intro i inDiffs inSteps
    have inRotated : i + 1 < (window.times.rotate start).length := by
      rw [length_rotate, length]
      have bounded : i < windowSlots - 1 := by simpa [windowDiffs] using inDiffs
      omega
    simp only [windowDiffs, asReals, steps, getElem_map, getElem_range,
      getElem_zipWith, getElem_tail]
    rw [← getElem_rotate_eq length inRotated,
      ← getElem_rotate_eq length (show i < (window.times.rotate start).length by omega)]
    exact abs_round_diff double (rotated _ (getElem_mem _)) (rotated _ (getElem_mem _))

theorem detectBeaconing_of_burst {window : SlidingWindow} {history : List ℤ}
    (follows : window.Follows history) (ordered : history.Pairwise (· ≤ ·))
    (full : windowSlots ≤ history.length) {since : ℤ}
    (near : ∀ time ∈ history.drop (history.length - windowSlots),
      since ≤ time ∧ time ≤ since + 1) : detectBeaconing double window = true := by
  have wrapped := follows.recent.wraps (by rw [follows.length]; exact full)
  rw [follows.length] at wrapped
  have isRotated : history.drop (history.length - windowSlots) ~r window.times := by
    rw [← wrapped]
    exact List.IsRotated.forall window.times history.length
  have timesNear : ∀ time ∈ window.times, since ≤ time ∧ time ≤ since + 1 :=
    fun time inTimes => near time (isRotated.mem_iff.mpr inTimes)
  have fires (start : ℕ) : stddev double (windowDiffs double window start windowSlots) < 1 / 2 := by
    rw [windowDiffs_eq double follows.length timesNear]
    apply stddev_lt_of_steps
    · simp [steps, follows.length, windowSlots]
    · exact le_one_of_mem_steps fun time inTimes => timesNear time (List.mem_rotate.mp inTimes)
    · apply sum_steps_of_isRotated (ordered.drop) near
      exact isRotated.trans (List.IsRotated.forall window.times start).symm
  have count : window.count = windowSlots := by
    rw [follows.count, min_eq_right full]
  have counted : (if window.count < windowSlots then window.count else windowSlots) =
      windowSlots := by
    rw [count, if_neg (lt_irrefl windowSlots)]
  have enough : ¬ windowSlots < beaconingMinSamples := by decide
  rw [detectBeaconing]
  rw [counted, if_neg enough, if_neg (by simp [windowDiffs, windowSlots]), decide_eq_true_iff]
  exact fires _

end Burst

end LogGuardian
