import LogGuardian.AttackTree.Lineage

/-!
# Hiding behind harmless events
-/

namespace LogGuardian

open List

def treeAfter (falco : LineageEvent → Bool) (pid start : ℤ) (events : List (LineageEvent × ℤ)) :
    AttackTree :=
  events.foldl (fun tree event => tree.note event.1 (falco event.1) event.2) (freshTree pid start)

def endsInRule (falco : LineageEvent → Bool) (events : List (LineageEvent × ℤ)) : Bool :=
  events.getLast?.any fun event => falco event.1

def historyRisk (falco : LineageEvent → Bool) (events : List (LineageEvent × ℤ)) : ℕ :=
  let risk := calcRisk ((events.map Prod.fst).take 32)
  if endsInRule falco events then min (risk + 18) 100 else risk

theorem note_eq (tree : AttackTree) (event : LineageEvent) (falco : Bool) (now : ℤ) :
    (tree.note event falco now).events = (tree.events ++ [event]).take 32 ∧
      (tree.note event falco now).riskScore =
        let risk := calcRisk ((tree.events ++ [event]).take 32)
        if falco then min (risk + 18) 100 else risk := by
  have length := tree.length_events
  unfold AttackTree.note
  by_cases room : tree.events.length < 32
  · rw [dif_pos room, take_of_length_le (by simpa using room)]
    exact ⟨rfl, rfl⟩
  · rw [dif_neg room, take_append_of_le_length (by omega), take_of_length_le length]
    exact ⟨rfl, rfl⟩

theorem treeAfter_eq (falco : LineageEvent → Bool) (pid start : ℤ)
    (events : List (LineageEvent × ℤ)) :
    (treeAfter falco pid start events).events = (events.map Prod.fst).take 32 ∧
      (treeAfter falco pid start events).riskScore = historyRisk falco events := by
  induction events using reverseRecOn with
  | nil => exact ⟨rfl, rfl⟩
  | append_singleton before event ih =>
    have noted := note_eq (treeAfter falco pid start before) event.1 (falco event.1) event.2
    have stored : ((before.map Prod.fst).take 32 ++ [event.1]).take 32 =
        ((before ++ [event]).map Prod.fst).take 32 := by
      rw [map_append, take_append, take_append, take_take, length_take]
      congr 2
      omega
    rw [ih.1, stored] at noted
    have last : endsInRule falco (before ++ [event]) = falco event.1 := by simp [endsInRule]
    rw [treeAfter, foldl_concat, historyRisk, last]
    exact noted

theorem calcRisk_mono {first second : List LineageEvent} (sublist : first.Sublist second) :
    calcRisk first ≤ calcRisk second := by
  have bonus {less more : Bool} (imp : less → more) (points : ℕ) :
      (if less then points else 0) ≤ if more then points else 0 := by
    cases less <;> cases more <;> simp_all
  have sum := (sublist.map LineageEvent.risk).sum_le_sum (by simp)
  unfold calcRisk
  dsimp only
  gcongr <;> (apply bonus; simp only [Bool.and_eq_true]; grind)

/-- A process of at most 32 events does not lower its score by further events, if a rule matches
the last of them where one matched the last before. -/
theorem riskScore_le_of_sublist {falco : LineageEvent → Bool} {pid start : ℤ}
    {first second : List (LineageEvent × ℤ)} (sublist : first.Sublist second)
    (fits : second.length ≤ 32) (rules : endsInRule falco first → endsInRule falco second) :
    (treeAfter falco pid start first).riskScore ≤ (treeAfter falco pid start second).riskScore := by
  have mono := calcRisk_mono (sublist.map Prod.fst)
  have short := sublist.length_le
  rw [(treeAfter_eq _ _ _ _).2, (treeAfter_eq _ _ _ _).2]
  unfold historyRisk
  rw [take_of_length_le (by simpa using short.trans fits),
    take_of_length_le (by simpa using fits)]
  have bound : calcRisk (first.map Prod.fst) ≤ 100 := min_le_right _ _
  split_ifs <;> simp_all <;> omega

def quietEvent (type : LineageEventType) : LineageEvent :=
  ⟨type, 7, 1, ascii "php-fpm", [], 1000, by decide, by decide, by decide, by decide⟩

theorem riskScore_le_of_connect :
    [(quietEvent .recv, (0 : ℤ))].Sublist [(quietEvent .connect, 0), (quietEvent .recv, 0)] ∧
      (treeAfter (fun _ => false) 7 0 [(quietEvent .recv, 0)]).riskScore ≤
        (treeAfter (fun _ => false) 7 0
          [(quietEvent .connect, 0), (quietEvent .recv, 0)]).riskScore := by
  have sublist := sublist_cons_self (quietEvent .connect, (0 : ℤ)) [(quietEvent .recv, 0)]
  exact ⟨sublist, riskScore_le_of_sublist sublist (by decide) (by decide)⟩

/-- A program start that a rule matches scores 58, and 40 once the process receives something. -/
theorem riskScore_hidden :
    (treeAfter (·.type = .execve) 7 0 [(quietEvent .execve, 0)]).riskScore = 58 ∧
      (treeAfter (·.type = .execve) 7 0
        [(quietEvent .execve, 0), (quietEvent .recv, 0)]).riskScore = 40 ∧
      (treeAfter (fun _ => false) 7 0 (List.replicate 32 (quietEvent .recv, 0) ++
        [(quietEvent .execve, 0)])).riskScore = 0 := by
  decide +kernel

end LogGuardian
