import LogGuardian.Anomaly.Beaconing

/-!
# The two readers of the sliding window

`window_count_since` looks at the slots in use, in any order.
-/

namespace LogGuardian

open List

namespace SlidingWindow

/-- A window without pushes. -/
structure IsEmpty (window : SlidingWindow) : Prop where
  length : window.times.length = windowSlots
  head : window.head = 0
  count : window.count = 0

/-- The window after a sequence of `window_push` calls. -/
def pushAll (window : SlidingWindow) (history : List ℤ) : SlidingWindow :=
  history.foldl windowPush window

theorem IsEmpty.follows_pushAll {window : SlidingWindow} (empty : window.IsEmpty)
    (history : List ℤ) : (window.pushAll history).Follows history := by
  induction history using reverseRecOn with
  | nil => exact follows_nil empty.length empty.head empty.count
  | append_singleton history ts ih =>
    rw [pushAll, foldl_append]
    exact ih.push ts

def used (window : SlidingWindow) : ℕ :=
  if window.count < windowSlots then window.count else windowSlots

/-- `start` of `detect_beaconing`. -/
def beaconStart (window : SlidingWindow) : ℕ :=
  if window.used ≤ window.head then window.head - window.used else 0

/-- The timestamps in the order in which `detect_beaconing` reads them. -/
def beaconTimes (window : SlidingWindow) : List ℤ :=
  (List.range window.used).map fun i =>
    window.times.getD ((window.beaconStart + i) % 2 ^ 32 % windowSlots) 0

theorem windowDiffs_eq_beaconTimes (double : Rounding) (window : SlidingWindow) :
    windowDiffs double window window.beaconStart window.used =
      List.zipWith (fun time next : ℤ => |double.round ((next - time : ℤ) : ℝ)|)
        window.beaconTimes window.beaconTimes.tail := by
  apply ext_getElem
  · simp [windowDiffs, beaconTimes]
  · intro i _ _
    simp only [windowDiffs, beaconTimes, getElem_map, getElem_range, getElem_zipWith,
      getElem_tail]

open Classical in
theorem detectBeaconing_eq_beaconTimes (double : Rounding) {window : SlidingWindow}
    (enough : beaconingMinSamples ≤ window.used) :
    detectBeaconing double window =
      decide (stddev double (List.zipWith (fun time next : ℤ =>
        |double.round ((next - time : ℤ) : ℝ)|) window.beaconTimes window.beaconTimes.tail) <
          1 / 2) := by
  have several : ¬(windowDiffs double window window.beaconStart window.used).length < 2 := by
    rw [windowDiffs, List.length_map, List.length_range]
    unfold beaconingMinSamples at enough
    omega
  rw [← windowDiffs_eq_beaconTimes]
  exact (if_neg (not_lt.mpr enough)).trans (if_neg several)

/-- Both readers see the last timestamps, and `detect_beaconing` in the order of the pushes. -/
structure ReadsLast (window : SlidingWindow) (history : List ℤ) : Prop where
  counts : ∀ since, windowCountSince window since =
    (history.drop (history.length - windowSlots)).countP fun time => since ≤ time
  beacon : window.beaconTimes = history.drop (history.length - windowSlots)

variable {window : SlidingWindow} {history : List ℤ}

theorem Follows.used (follows : window.Follows history) :
    window.used = min history.length windowSlots := by
  rw [SlidingWindow.used, follows.count]
  split <;> omega

theorem Follows.beaconTimes_of_fits (follows : window.Follows history)
    (fits : history.length < windowSlots) : window.beaconTimes = history := by
  have used : window.used = history.length := by
    rw [follows.used]
    omega
  have small : windowSlots < 2 ^ 32 := by decide
  have start : window.beaconStart = 0 := by
    rw [beaconStart, used, follows.head, Nat.mod_eq_of_lt (fits.trans small), if_pos le_rfl,
      Nat.sub_self]
  have stored := follows.recent.fits (by rw [follows.length]; exact fits.le)
  rw [beaconTimes, used, start]
  apply ext_getElem
  · simp
  · intro i _ inside
    rw [getElem_map, getElem_range, Nat.zero_add,
      Nat.mod_eq_of_lt (inside.trans (fits.trans small)), Nat.mod_eq_of_lt (inside.trans fits),
      getD_eq_getElem _ _ (by rw [follows.length]; exact inside.trans fits)]
    have same : (window.times.take history.length).getD i 0 = history.getD i 0 := by rw [stored]
    rw [getD_eq_getElem _ _ inside,
      getD_eq_getElem _ _ (by rw [stored]; exact inside), getElem_take] at same
    exact same

theorem Follows.beaconTimes_of_full (follows : window.Follows history)
    (full : windowSlots ≤ history.length) :
    window.beaconTimes = window.times.rotate window.beaconStart := by
  have used : window.used = windowSlots := by
    rw [follows.used, min_eq_right full]
  apply ext_getElem
  · rw [beaconTimes, length_map, length_range, length_rotate, used, follows.length]
  · intro i _ inside
    simp [getElem_rotate_eq follows.length inside, beaconTimes]

theorem Follows.rotate_eq (follows : window.Follows history)
    (full : windowSlots ≤ history.length) :
    window.times.rotate history.length = history.drop (history.length - windowSlots) := by
  rw [follows.recent.wraps (by rw [follows.length]; exact full), follows.length]

theorem Follows.beaconStart_of_full (follows : window.Follows history)
    (full : windowSlots ≤ history.length) :
    window.beaconStart =
      if windowSlots ≤ history.length % 2 ^ 32 then history.length % 2 ^ 32 - windowSlots
      else 0 := by
  rw [beaconStart, follows.used, min_eq_right full, follows.head]

end SlidingWindow

open SlidingWindow

/-- The number of pushes does not leave the write index right behind a wrap. -/
def ClearOfWrap (pushes : ℕ) : Prop :=
  pushes < 2 ^ 32 ∨ pushes % 2 ^ 32 = 0 ∨ windowSlots ≤ pushes % 2 ^ 32

theorem mod_beaconStart {pushes : ℕ} (full : windowSlots ≤ pushes) (clear : ClearOfWrap pushes) :
    (if windowSlots ≤ pushes % 2 ^ 32 then pushes % 2 ^ 32 - windowSlots else 0) % windowSlots =
      pushes % windowSlots := by
  have divides : pushes % 2 ^ 32 % windowSlots = pushes % windowSlots :=
    Nat.mod_mod_of_dvd _ (by decide)
  rcases clear with small | wrapped | far
  · rw [Nat.mod_eq_of_lt small, if_pos full, ← Nat.mod_eq_sub_mod full]
  · rw [wrapped] at divides ⊢
    rw [if_neg (by decide), divides]
  · rw [if_pos far, ← Nat.mod_eq_sub_mod far, divides]

theorem SlidingWindow.Follows.readsLast {window : SlidingWindow} {history : List ℤ}
    (follows : window.Follows history) (clear : ClearOfWrap history.length) :
    window.ReadsLast history where
  counts := follows.windowCountSince
  beacon := by
    rcases lt_or_ge history.length windowSlots with fits | full
    · rw [follows.beaconTimes_of_fits fits, Nat.sub_eq_zero_of_le fits.le, drop_zero]
    · rw [follows.beaconTimes_of_full full, ← follows.rotate_eq full, ← rotate_mod,
        ← rotate_mod _ history.length, follows.length, follows.beaconStart_of_full full,
        mod_beaconStart full clear]

def risingTimes (pushes : ℕ) : List ℤ := (List.range pushes).map Int.ofNat

theorem length_risingTimes (pushes : ℕ) : (risingTimes pushes).length = pushes := by
  simp [risingTimes]

theorem nodup_risingTimes (pushes : ℕ) : (risingTimes pushes).Nodup :=
  List.nodup_range.map fun _ _ same => Int.ofNat.inj same

theorem not_readsLast_risingTimes {window : SlidingWindow} {pushes : ℕ}
    (follows : window.Follows (risingTimes pushes)) (near : ¬ClearOfWrap pushes) :
    ¬window.ReadsLast (risingTimes pushes) := by
  intro reads
  simp only [ClearOfWrap, not_or, not_lt, not_le] at near
  have full : windowSlots ≤ (risingTimes pushes).length := by
    rw [length_risingTimes]
    exact le_trans (by decide) near.1
  have start : window.beaconStart = 0 := by
    rw [follows.beaconStart_of_full full, length_risingTimes, if_neg (not_le.mpr near.2.2)]
  have order := reads.beacon
  rw [follows.beaconTimes_of_full full, start, rotate_zero, ← follows.rotate_eq full] at order
  have distinct : window.times.Nodup := by
    rw [order, follows.rotate_eq full]
    exact (nodup_risingTimes pushes).sublist (drop_sublist _ _)
  have aligned : pushes % windowSlots = 0 := by
    rcases distinct.rotate_eq_self_iff.mp order.symm with zero | nil
    · rwa [length_risingTimes, follows.length] at zero
    · have length := follows.length
      rw [nil] at length
      cases length
  have divides : pushes % 2 ^ 32 % windowSlots = pushes % windowSlots :=
    Nat.mod_mod_of_dvd _ (by decide)
  rw [aligned, Nat.mod_eq_of_lt near.2.2] at divides
  exact near.2.1 divides

/-- Both readers are right after every sequence of so many pushes exactly if the counter is clear of
a wrap. -/
theorem readsLast_pushAll_iff (pushes : ℕ) :
    (∀ (window : SlidingWindow) (history : List ℤ), window.IsEmpty → history.length = pushes →
      (window.pushAll history).ReadsLast history) ↔ ClearOfWrap pushes := by
  constructor
  · intro reads
    by_contra near
    have empty : SlidingWindow.IsEmpty {} := ⟨by simp, rfl, rfl⟩
    exact not_readsLast_risingTimes (empty.follows_pushAll _) near
      (reads {} (risingTimes pushes) empty (length_risingTimes pushes))
  · rintro clear window history empty rfl
    exact (empty.follows_pushAll history).readsLast clear

/-- One push behind the wrap, the last timestamp is read first. -/
theorem rising_read_out_of_order :
    ¬(pushAll {} (risingTimes (2 ^ 32 + 1))).ReadsLast (risingTimes (2 ^ 32 + 1)) := by
  have empty : SlidingWindow.IsEmpty {} := ⟨by simp, rfl, rfl⟩
  apply not_readsLast_risingTimes (empty.follows_pushAll _)
  unfold ClearOfWrap windowSlots
  omega

end LogGuardian
