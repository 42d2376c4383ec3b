import LogGuardian.Anomaly.Trust
import LogGuardian.Lib.RateWindow

/-!
# The auto-ban policy

`ban_policy_should_auto_ban` of `ban_policy.c`.
-/

namespace LogGuardian

open List

/-- The values of `decision`. -/
inductive PolicyDecision where
  | policyOff | forceCrit | forceWaf | forceApt | skipFpTrust | skipRateCap | ban | skipRisk
  deriving DecidableEq, Repr

namespace PolicyDecision

def text : PolicyDecision → Bytes
  | policyOff => ascii "policy_off"
  | forceCrit => ascii "force_crit"
  | forceWaf => ascii "force_waf"
  | forceApt => ascii "force_apt"
  | skipFpTrust => ascii "skip_fp_trust"
  | skipRateCap => ascii "skip_rate_cap"
  | ban => ascii "ban"
  | skipRisk => ascii "skip_risk"

def IsForced : PolicyDecision → Bool
  | policyOff | forceCrit | forceWaf | forceApt => true
  | _ => false

end PolicyDecision

/-- `BanPolicyVerdict`. -/
structure PolicyVerdict where
  riskScore : ℚ
  minRisk : ℚ
  allowBan : Bool
  decision : PolicyDecision
  deriving DecidableEq, Repr

structure PolicyCall where
  enabled : Bool
  minRisk : ℚ
  ip : Option Bytes
  alert : Option Alert
  incidentRisk : Bytes → ℚ
  distRiskBonus : Bytes → ℚ
  trust : FpTrust
  now : ℕ

structure PolicyState where
  rate : RateWindow := {}
  capSkips : ℕ := 0

def fpTrustIsTrusted (trust : FpTrust) (ip : Bytes) : Bool :=
  trust.enabled && (trust.slotOf ip).any (·.trusted)

def PolicyCall.Trusted (call : PolicyCall) : Bool := call.ip.any (fpTrustIsTrusted call.trust)

def PolicyCall.minute (call : PolicyCall) : ℤ := ((call.now / 60 : ℕ) : ℤ)

def alertRiskScore : Option Alert → ℚ
  | none => 0
  | some alert =>
    let base : ℚ :=
      match alert.level with
      | .crit => 45
      | .warn => 25
      | .info => 10
    let holds (literal : String) : Bool := hasLit alert.message (ascii literal)
    let raised :=
      if holds "SQL INJECTION" || holds "SQLi" then base + 40
      else if holds "WAF ALARM" || holds "Wasm" then base + 35
      else if holds "HONEY" || holds "TRAP" then base + 50
      else if holds "BRUTE" || holds "Brute" then base + 30
      else if holds "BEACONING" || holds "COVERT" then base + 38
      else base
    if raised > 100 then 100 else raised

def rateCapOk (cap : ℤ) (minute : ℤ) (state : PolicyState) : Bool × PolicyState :=
  if cap ≤ 0 then (true, state)
  else
    let (ok, rate) := state.rate.take cap minute
    (ok, { state with rate })

section Policy

/- The sum of two doubles, rounded. -/
variable (addDouble : ℚ → ℚ → ℚ)

def policyRisk (call : PolicyCall) : ℚ :=
  let incident := (call.ip.map call.incidentRisk).getD 0
  let alert := alertRiskScore call.alert
  let risk := if incident > alert then incident else alert
  match call.ip with
  | none => risk
  | some ip =>
    let bonus := call.distRiskBonus ip
    if bonus > 0 then
      let raised := addDouble risk bonus
      if raised > 100 then 100 else raised
    else risk

def banPolicyShouldAutoBan (cap : ℤ) (call : PolicyCall) (state : PolicyState) :
    PolicyVerdict × PolicyState :=
  let critMessage (literal : String) : Bool :=
    call.alert.any fun alert => alert.level = .crit && hasLit alert.message (ascii literal)
  if !call.enabled then
    (⟨alertRiskScore call.alert, call.minRisk, true, .policyOff⟩, state)
  else
    let risk := policyRisk addDouble call
    if (call.alert.any fun alert => alert.level = .crit) ∧ 85 ≤ alertRiskScore call.alert then
      (⟨risk, call.minRisk, true, .forceCrit⟩, state)
    else if critMessage "WAF ALARM" then (⟨risk, call.minRisk, true, .forceWaf⟩, state)
    else if critMessage "SENKRON APT" || critMessage "APT KUME" || critMessage "DAGITIK APT" then
      (⟨risk, call.minRisk, true, .forceApt⟩, state)
    else if call.Trusted then (⟨risk, call.minRisk, false, .skipFpTrust⟩, state)
    else if call.minRisk ≤ risk then
      match rateCapOk cap call.minute state with
      | (true, after) => (⟨risk, call.minRisk, true, .ban⟩, after)
      | (false, after) =>
        (⟨risk, call.minRisk, false, .skipRateCap⟩, { after with capSkips := after.capSkips + 1 })
    else (⟨risk, call.minRisk, false, .skipRisk⟩, state)

structure PolicyHistory where
  state : PolicyState := {}
  log : List (PolicyCall × PolicyVerdict) := []

def policyStep (cap : ℤ) (history : PolicyHistory) (call : PolicyCall) : PolicyHistory :=
  let (verdict, state) := banPolicyShouldAutoBan addDouble cap call history.state
  ⟨state, history.log ++ [(call, verdict)]⟩

def policyRun (cap : ℤ) (calls : List PolicyCall) : PolicyHistory :=
  Machine.run (policyStep addDouble cap) {} calls

/-- What every entry of the log says: the calls that are allowed, and that trust prevents a ban. -/
structure SoundVerdict (call : PolicyCall) (verdict : PolicyVerdict) : Prop where
  allowed : verdict.allowBan = true ↔ verdict.decision = .ban ∨ verdict.decision.IsForced = true
  trusted : call.Trusted = true → verdict.decision ≠ .ban

variable {addDouble}

theorem banPolicyShouldAutoBan_cases (cap : ℤ) (call : PolicyCall) (state : PolicyState) :
    SoundVerdict call (banPolicyShouldAutoBan addDouble cap call state).1 ∧
      (((banPolicyShouldAutoBan addDouble cap call state).1.decision ≠ .ban ∧
          (banPolicyShouldAutoBan addDouble cap call state).2.rate = state.rate) ∨
        ((banPolicyShouldAutoBan addDouble cap call state).1.decision = .ban ↔
            (rateCapOk cap call.minute state).1 = true) ∧
          (banPolicyShouldAutoBan addDouble cap call state).2.rate =
            (rateCapOk cap call.minute state).2.rate) := by
  unfold banPolicyShouldAutoBan
  dsimp only
  split_ifs with off crit waf apt trusted risky
  · exact ⟨⟨by simp [PolicyDecision.IsForced], by simp⟩, .inl ⟨by simp, rfl⟩⟩
  · exact ⟨⟨by simp [PolicyDecision.IsForced], by simp⟩, .inl ⟨by simp, rfl⟩⟩
  · exact ⟨⟨by simp [PolicyDecision.IsForced], by simp⟩, .inl ⟨by simp, rfl⟩⟩
  · exact ⟨⟨by simp [PolicyDecision.IsForced], by simp⟩, .inl ⟨by simp, rfl⟩⟩
  · exact ⟨⟨by simp [PolicyDecision.IsForced], by simp⟩, .inl ⟨by simp, rfl⟩⟩
  · rcases asked : rateCapOk cap call.minute state with ⟨ok, after⟩
    cases ok with
    | true =>
      refine ⟨⟨by simp, fun isTrusted => absurd isTrusted trusted⟩, .inr ⟨by simp, rfl⟩⟩
    | false => exact ⟨⟨by simp [PolicyDecision.IsForced], by simp⟩, .inr ⟨by simp, rfl⟩⟩
  · exact ⟨⟨by simp [PolicyDecision.IsForced], by simp⟩, .inl ⟨by simp, rfl⟩⟩

def bannedMinutes (log : List (PolicyCall × PolicyVerdict)) : List ℤ :=
  (log.filter (·.2.decision = .ban)).map (·.1.minute)

theorem bannedMinutes_append (log : List (PolicyCall × PolicyVerdict)) (call : PolicyCall)
    (verdict : PolicyVerdict) :
    bannedMinutes (log ++ [(call, verdict)]) =
      bannedMinutes log ++ if verdict.decision = .ban then [call.minute] else [] := by
  by_cases banned : verdict.decision = .ban <;> simp [bannedMinutes, banned]

theorem count_bannedMinutes (log : List (PolicyCall × PolicyVerdict)) (minute : ℤ) :
    (bannedMinutes log).count minute =
      log.countP fun entry => entry.2.decision = .ban ∧ entry.1.minute = minute := by
  rw [bannedMinutes, count, countP_map, countP_filter]
  congr 1
  funext entry
  simp [Bool.beq_eq_decide_eq]
  exact Bool.and_comm _ _

/-- The counter holds the bans of its minute, and no minute has more than the cap. -/
structure Capped (cap : ℤ) (history : PolicyHistory) : Prop where
  tracks : history.state.rate.Tracks (bannedMinutes history.log)
  within : ∀ minute, ((bannedMinutes history.log).count minute : ℤ) ≤ cap

theorem Capped.step {cap : ℤ} (positive : 0 < cap) {history : PolicyHistory} {call : PolicyCall}
    (capped : Capped cap history)
    (latest : ∀ minute ∈ bannedMinutes history.log, minute ≤ call.minute) :
    Capped cap (policyStep addDouble cap history call) := by
  have logged : bannedMinutes (policyStep addDouble cap history call).log =
      bannedMinutes history.log ++
        if (banPolicyShouldAutoBan addDouble cap call history.state).1.decision = .ban then
          [call.minute] else [] :=
    bannedMinutes_append _ _ _
  have rate : (policyStep addDouble cap history call).state.rate =
      (banPolicyShouldAutoBan addDouble cap call history.state).2.rate := rfl
  rcases (@banPolicyShouldAutoBan_cases addDouble cap call history.state).2 with
    ⟨notBan, unasked⟩ | ⟨asked, taken⟩
  · rw [if_neg notBan, append_nil] at logged
    refine ⟨?_, ?_⟩
    · rw [logged, rate, unasked]
      exact capped.tracks
    · rw [logged]
      exact capped.within
  · have asks : rateCapOk cap call.minute history.state =
        ((history.state.rate.take cap call.minute).1,
          { history.state with rate := (history.state.rate.take cap call.minute).2 }) := by
      rw [rateCapOk, if_neg (not_le.mpr positive)]
    rw [asks] at asked taken
    rw [capped.tracks.take_eq latest] at asked taken
    by_cases room : ((bannedMinutes history.log).count call.minute : ℤ) < cap
    · rw [if_pos room] at asked taken
      rw [if_pos (asked.mpr rfl)] at logged
      refine ⟨?_, ?_⟩
      · rw [logged, rate, taken]
        exact RateWindow.tracks_counted latest
      · intro minute
        have before := capped.within minute
        rw [logged, count_append, count_singleton]
        by_cases same : call.minute = minute
        · rw [same] at room
          simp only [same, beq_self_eq_true, if_true]
          omega
        · simp only [beq_iff_eq, same, if_false]
          omega
    · rw [if_neg room] at asked taken
      have notBan : ¬ (banPolicyShouldAutoBan addDouble cap call history.state).1.decision =
          .ban := fun isBan => Bool.noConfusion (asked.mp isBan)
      rw [if_neg notBan, append_nil] at logged
      refine ⟨?_, ?_⟩
      · rw [logged, rate, taken]
        exact capped.tracks.enter latest (by omega)
      · rw [logged]
        exact capped.within

theorem policyRun_snoc (cap : ℤ) (calls : List PolicyCall) (call : PolicyCall) :
    policyRun addDouble cap (calls ++ [call]) =
      policyStep addDouble cap (policyRun addDouble cap calls) call := by
  rw [policyRun, Machine.run_append]
  rfl

theorem capped_policyRun {cap : ℤ} (positive : 0 < cap) {calls : List PolicyCall}
    (ordered : calls.Pairwise fun first second => first.now ≤ second.now) :
    Capped cap (policyRun addDouble cap calls) ∧
      (policyRun addDouble cap calls).log.map Prod.fst = calls ∧
      ∀ entry ∈ (policyRun addDouble cap calls).log, SoundVerdict entry.1 entry.2 := by
  induction calls using reverseRecOn with
  | nil =>
    refine ⟨⟨RateWindow.tracks_nil, ?_⟩, rfl, by simp [policyRun, Machine.run]⟩
    intro minute
    exact positive.le
  | append_singleton calls call ih =>
    rw [pairwise_append] at ordered
    rcases ih ordered.1 with ⟨capped, logged, sound⟩
    rw [policyRun_snoc]
    refine ⟨capped.step positive ?_, ?_, ?_⟩
    · intro minute inMinutes
      rcases List.mem_map.mp inMinutes with ⟨entry, inLog, rfl⟩
      have inCalls : entry.1 ∈ calls :=
        logged ▸ List.mem_map.mpr ⟨entry, mem_of_mem_filter inLog, rfl⟩
      have earlier := ordered.2.2 entry.1 inCalls call (List.mem_singleton.mpr rfl)
      exact Int.ofNat_le.mpr (Nat.div_le_div_right earlier)
    · simp [policyStep, logged]
    · intro entry inLog
      rcases List.mem_append.mp inLog with before | isLast
      · exact sound entry before
      · rw [List.mem_singleton.mp isLast]
        exact (banPolicyShouldAutoBan_cases cap call _).1

variable (addDouble) in
/-- No minute has more bans than the cap; all other calls that are allowed are forced ones; and no
fully trusted address gets the decision to ban. -/
theorem policyRun_capped {cap : ℤ} (positive : 0 < cap) {calls : List PolicyCall}
    (ordered : calls.Pairwise fun first second => first.now ≤ second.now) :
    (∀ minute, ((policyRun addDouble cap calls).log.countP fun entry =>
        entry.2.decision = .ban ∧ entry.1.minute = minute : ℤ) ≤ cap) ∧
      ∀ entry ∈ (policyRun addDouble cap calls).log, SoundVerdict entry.1 entry.2 := by
  rcases capped_policyRun positive ordered with ⟨capped, _, sound⟩
  refine ⟨?_, sound⟩
  intro minute
  rw [← count_bannedMinutes]
  exact capped.within minute

end Policy

def bruteCall (now : ℕ) : PolicyCall where
  enabled := true
  minRisk := 60
  ip := some (ascii "203.0.113.7")
  alert := some ⟨.crit, ascii "LOW & SLOW BRUTE FORCE!"⟩
  incidentRisk := fun _ => 0
  distRiskBonus := fun _ => 0
  trust := ⟨false, fun _ => {}⟩
  now := now

def bruteCalls : List PolicyCall := [bruteCall 600, bruteCall 610, bruteCall 659]

/-- With a cap of two, the third alert of the minute is skipped. -/
example : (policyRun (· + ·) 2 bruteCalls).log.map (·.2.decision) = [.ban, .ban, .skipRateCap] := by
  decide +kernel

theorem policyRun_capped_bruteCalls :
    ((0 : ℤ) < 2 ∧ bruteCalls.Pairwise fun first second => first.now ≤ second.now) ∧
      (∀ minute, ((policyRun (· + ·) 2 bruteCalls).log.countP fun entry =>
          entry.2.decision = .ban ∧ entry.1.minute = minute : ℤ) ≤ 2) ∧
      ∀ entry ∈ (policyRun (· + ·) 2 bruteCalls).log, SoundVerdict entry.1 entry.2 := by
  have ordered : bruteCalls.Pairwise fun first second => first.now ≤ second.now := by
    simp [bruteCalls, bruteCall]
  exact ⟨⟨by decide, ordered⟩, policyRun_capped (· + ·) (by decide) ordered⟩

end LogGuardian
