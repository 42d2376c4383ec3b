import LogGuardian.Waf.Fired

/-!
# Padding a request

Text around the URL and around the body never takes points away.
-/

namespace LogGuardian

section Scan

variable {α σ ρ : Type*} [Preorder ρ] {step : σ → α → σ} {read : σ → ρ}

theorem read_le_read_foldl (grows : ∀ state item, read state ≤ read (step state item))
    (items : List α) (state : σ) : read state ≤ read (items.foldl step state) := by
  induction items generalizing state with
  | nil => exact le_rfl
  | cons item items ih => exact (grows state item).trans (ih _)

theorem read_foldl_le_padded [PartialOrder σ] [OrderBot σ]
    (mono : ∀ item, Monotone fun state => step state item)
    (readMono : Monotone read) (grows : ∀ state item, read state ≤ read (step state item))
    (before items behind : List α) :
    read (items.foldl step ⊥) ≤ read ((before ++ items ++ behind).foldl step ⊥) := by
  rw [List.foldl_append, List.foldl_append]
  apply le_trans _ (read_le_read_foldl grows behind _)
  exact readMono (List.foldl_monotone mono items bot_le)

end Scan

section Padding

variable (before behind : Bytes)

theorem ciContains_padded {text needle : Bytes} (found : ciContains text needle = true) :
    ciContains (before ++ text ++ behind) needle = true := by
  simp only [ciContains, hasLit, Bool.and_eq_true, decide_eq_true_eq, Search.find_isSome_iff]
    at found ⊢
  rcases found with ⟨nonempty, occurs⟩
  refine ⟨by simp [nonempty], occurs.trans ?_⟩
  exact ⟨before.map toLower, behind.map toLower, by simp⟩

theorem scanPatterns_padded {text : Bytes} {patterns : List Bytes}
    (found : scanPatterns text patterns = true) :
    scanPatterns (before ++ text ++ behind) patterns = true := by
  simp only [scanPatterns, List.any_eq_true] at found ⊢
  rcases found with ⟨pattern, known, contained⟩
  exact ⟨pattern, known, ciContains_padded before behind contained⟩

theorem graphqlNestingDepth_padded (text : Bytes) :
    graphqlNestingDepth text ≤ graphqlNestingDepth (before ++ text ++ behind) := by
  apply read_foldl_le_padded _ monotone_snd
  · rintro ⟨depth, deepest⟩ byte
    split_ifs
    · exact le_max_left _ _
    · exact le_rfl
    · exact le_rfl
  · rintro byte ⟨depth, deepest⟩ ⟨depth', deepest'⟩ ⟨deeper, higher⟩
    split_ifs
    · exact ⟨Nat.succ_le_succ deeper, max_le_max higher (Nat.succ_le_succ deeper)⟩
    · exact ⟨Nat.sub_le_sub_right deeper 1, higher⟩
    · exact ⟨deeper, higher⟩

theorem detectIdorPattern_padded {url : Bytes} (found : detectIdorPattern url = true) :
    detectIdorPattern (before ++ url ++ behind) = true := by
  simp only [detectIdorPattern, Bool.and_eq_true, decide_eq_true_eq] at found ⊢
  refine ⟨by simp; omega, ?_⟩
  apply top_le_iff.mp
  apply (top_le_iff.mpr found.2).trans
  apply read_foldl_le_padded _ monotone_snd
  · rintro ⟨run, hit⟩ byte
    split_ifs
    · exact le_sup_left
    · exact le_rfl
  · rintro byte ⟨run, hit⟩ ⟨run', hit'⟩ ⟨longer, higher⟩
    split_ifs
    · refine ⟨Nat.succ_le_succ longer, sup_le_sup higher ?_⟩
      simp only [Bool.le_iff_imp, decide_eq_true_eq]
      omega
    · exact ⟨le_rfl, higher⟩

end Padding

/-- Rules with the same matches, where each one fires if the other does. -/
def FiresMore (rules more : List WafRule) : Prop :=
  List.Forall₂ (fun rule other => rule.entry = other.entry ∧ (rule.fires → other.fires)) rules more

theorem scoreSum_firedEntries_cons (rule : WafRule) (rules : List WafRule) :
    scoreSum (firedEntries (rule :: rules)) =
      (if rule.fires then rule.entry.score else 0) + scoreSum (firedEntries rules) := by
  by_cases fires : rule.fires = true
  · simp [scoreSum, firedEntries, fires]
  · simp [firedEntries, fires]

theorem FiresMore.scoreSum_le {rules more : List WafRule} (fires : FiresMore rules more) :
    scoreSum (firedEntries rules) ≤ scoreSum (firedEntries more) := by
  induction fires with
  | nil => exact le_rfl
  | @cons rule other rules more both _ ih =>
    rcases both with ⟨same, implied⟩
    rw [scoreSum_firedEntries_cons, scoreSum_firedEntries_cons, same]
    apply Nat.add_le_add _ ih
    by_cases fires : rule.fires = true
    · rw [if_pos fires, if_pos (implied fires)]
    · rw [if_neg fires]
      exact Nat.zero_le _

section Score

variable (cfg : WafConfig) (url body userAgent method before behind before' behind' : Bytes)

theorem scanFires_padded (enabled : Bool) (patterns : List Bytes)
    (fires : scanFires enabled url body patterns = true) :
    scanFires enabled (before ++ url ++ behind) (before' ++ body ++ behind') patterns = true := by
  simp only [scanFires, Bool.and_eq_true, Bool.or_eq_true] at fires ⊢
  exact ⟨fires.1, fires.2.imp (scanPatterns_padded before behind)
    (scanPatterns_padded before' behind')⟩

theorem depthFires_padded (enabled : Bool) (fires : depthFires enabled body = true) :
    depthFires enabled (before' ++ body ++ behind') = true := by
  simp only [depthFires, Bool.and_eq_true, decide_eq_true_eq] at fires ⊢
  exact ⟨fires.1, fires.2.trans (graphqlNestingDepth_padded before' behind' body)⟩

theorem graphqlFires_padded (enabled : Bool) (fires : graphqlFires enabled url body method = true) :
    graphqlFires enabled (before ++ url ++ behind) (before' ++ body ++ behind') method = true := by
  simp only [graphqlFires, Bool.and_eq_true, Bool.or_eq_true, decide_eq_true_eq] at fires ⊢
  refine ⟨fires.1, fires.2.imp (Or.imp_left (Or.imp ?_ ?_)) ?_⟩
  · exact scanPatterns_padded before behind
  · exact scanPatterns_padded before' behind'
  · intro deep
    exact deep.trans (graphqlNestingDepth_padded before' behind' body)

theorem firesMore_payloadTable :
    FiresMore (payloadTable cfg url body method)
      (payloadTable cfg (before ++ url ++ behind) (before' ++ body ++ behind') method) := by
  have scan (enabled : Bool) (patterns : List Bytes) :=
    scanFires_padded url body before behind before' behind' enabled patterns
  have depth := depthFires_padded body before' behind' cfg.methodAbuseEnabled
  have graphql := graphqlFires_padded url body method before behind before' behind'
    cfg.methodAbuseEnabled
  simp only [FiresMore, payloadTable, List.forall₂_cons, List.Forall₂.nil, and_true, true_and]
  refine ⟨scan _ _, scan _ _, scan _ _, scan _ _, scan _ _, scan _ _, depth, graphql, ?_⟩
  exact ⟨scan _ _, scan _ _, scan _ _, scan _ _, scan _ _⟩

theorem firesMore_requestTable :
    FiresMore (requestTable cfg url userAgent method)
      (requestTable cfg (before ++ url ++ behind) userAgent method) := by
  simp only [FiresMore, requestTable, List.forall₂_cons, List.Forall₂.nil, and_true, true_and,
    imp_self, Bool.and_eq_true]
  exact And.imp_right (detectIdorPattern_padded before behind)

theorem totalScore_wafAnalyze_le_padded :
    (wafAnalyze cfg url body userAgent method).totalScore ≤
      (wafAnalyze cfg (before ++ url ++ behind) (before' ++ body ++ behind')
        userAgent method).totalScore := by
  rw [totalScore_wafAnalyze, totalScore_wafAnalyze]
  unfold wafFired
  split_ifs
  · apply FiresMore.scoreSum_le
    apply List.rel_append
    · exact firesMore_payloadTable cfg url body method before behind before' behind'
    · exact firesMore_requestTable cfg url userAgent method before behind
  · exact le_rfl

/-- Text around the URL and around the body never lowers the score, and never takes a request that
is to be banned back below the threshold. -/
theorem wafAnalyze_padded :
    (wafAnalyze cfg url body userAgent method).totalScore ≤
        (wafAnalyze cfg (before ++ url ++ behind) (before' ++ body ++ behind')
          userAgent method).totalScore ∧
      (wafShouldBan cfg (wafAnalyze cfg url body userAgent method) = true →
        wafShouldBan cfg (wafAnalyze cfg (before ++ url ++ behind) (before' ++ body ++ behind')
          userAgent method) = true) := by
  have higher := totalScore_wafAnalyze_le_padded cfg url body userAgent method before behind
    before' behind'
  refine ⟨higher, ?_⟩
  simp only [wafShouldBan, Bool.and_eq_true, decide_eq_true_eq]
  rintro ⟨enabled, reached⟩
  exact ⟨enabled, reached.trans (Int.ofNat_le.mpr higher)⟩

end Score

end LogGuardian
