import LogGuardian.IpMap.Basic
import LogGuardian.Lib.Ring

/-!
# The sliding window

`window_push` and `window_count_since` of `ip_map.c`.
-/

namespace LogGuardian

open List

def windowCountSince (window : SlidingWindow) (since : ℤ) : ℕ :=
  (window.times.take (min window.count windowSlots)).countP fun time => since ≤ time

namespace SlidingWindow

/-- The window after a history of timestamps. -/
structure Follows (window : SlidingWindow) (history : List ℤ) : Prop where
  length : window.times.length = windowSlots
  head : window.head = history.length % 2 ^ 32
  count : window.count = min history.length windowSlots
  recent : Ring.Recent window.times history

variable {window : SlidingWindow} {history : List ℤ}

theorem follows_nil (length : window.times.length = windowSlots) (head : window.head = 0)
    (count : window.count = 0) : window.Follows [] where
  length := length
  head := head
  count := count
  recent := Ring.recent_nil window.times

theorem Follows.push (follows : window.Follows history) (ts : ℤ) :
    (windowPush window ts).Follows (history ++ [ts]) where
  length := by rw [windowPush, length_set, follows.length]
  head := by
    rw [windowPush, follows.head, length_append]
    exact Nat.mod_add_mod _ _ _
  count := by
    rw [windowPush, follows.count, length_append, length_singleton]
    dsimp only
    split <;> omega
  recent := by
    have slot : window.head % windowSlots = history.length % window.times.length := by
      rw [follows.head, follows.length]
      exact Nat.mod_mod_of_dvd _ (by decide)
    rw [windowPush, slot]
    exact follows.recent.push ts

theorem Follows.windowCountSince (follows : window.Follows history) (since : ℤ) :
    windowCountSince window since =
      (history.drop (history.length - windowSlots)).countP fun time => since ≤ time := by
  rw [LogGuardian.windowCountSince, follows.count, min_assoc, min_self, ← follows.length]
  exact follows.recent.countP_take _

end SlidingWindow

theorem countP_drop_of_pairwise {history : List ℤ} (ordered : history.Pairwise (· ≤ ·))
    (slots : ℕ) (since : ℤ) :
    ((history.drop (history.length - slots)).countP fun time => since ≤ time) =
      min slots (history.countP fun time => since ≤ time) := by
  induction history with
  | nil => simp
  | cons time rest ih =>
    rw [pairwise_cons] at ordered
    rw [length_cons]
    by_cases fits : rest.length + 1 ≤ slots
    · rw [Nat.sub_eq_zero_of_le fits, drop_zero, min_eq_right]
      exact List.countP_le_length.trans fits
    rw [show rest.length + 1 - slots = rest.length - slots + 1 by omega, drop_succ_cons,
      ih ordered.2, countP_cons]
    by_cases recent : since ≤ time
    · have all : (rest.countP fun time => since ≤ time) = rest.length := by
        rw [countP_eq_length]
        intro later inRest
        exact decide_eq_true (recent.trans (ordered.1 later inRest))
      omega
    · simp [recent]

theorem SlidingWindow.Follows.windowCountSince_of_pairwise {window : SlidingWindow}
    {history : List ℤ} (follows : window.Follows history) (ordered : history.Pairwise (· ≤ ·))
    (since : ℤ) :
    LogGuardian.windowCountSince window since =
      min windowSlots (history.countP fun time => since ≤ time) := by
  rw [follows.windowCountSince, countP_drop_of_pairwise ordered]

end LogGuardian
