import LogGuardian.Anomaly.Check

/-!
# Suppressed alerts and the mesh
-/

namespace LogGuardian

open List

def Finding.PublishesLoudly : Finding → Prop
  | .raise alert (some _) _ => neverSuppressMessage alert.message = true
  | _ => True

namespace CheckResult

/-- Nothing was published. -/
def Unpublished (result : CheckResult) : Prop :=
  ∀ effect ∈ result.effects, effect.IsPublication = false

end CheckResult

namespace Mesh

/-- Whether `anomaly_mesh_propagate` sends a critical alert about an address. -/
def Publishes (mesh : Mesh) : Bool :=
  match mesh.backend with
  | .none => false
  | .zmq => mesh.pubSocket
  | .etcd => mesh.etcdActive && mesh.etcdMode ≠ 2 && mesh.minThreatScore ≤ 800

end Mesh

namespace Engines

/-- None of the stages before the low and slow stage stops at the request. -/
def PassEarly (engines : Engines) (thresholds : Thresholds) (record : IpRecord) : Prop :=
  engines.apt = none ∧ engines.covert = none ∧ engines.waf = none ∧
    (engines.sqli = true → incrLong record.cnt.sqliHits < thresholds.sqliScore)

end Engines

/-- An address that the trust store spares a critical alert about credentials. -/
def FpTrust.Spares (trust : FpTrust) (ip : Bytes) : Prop :=
  trust.enabled = true ∧
    ∃ slot, trust.slotOf ip = some slot ∧ slot.trusted = true ∧ suppressEma ≤ slot.cleanEma

section Stages

variable {thresholds : Thresholds} {engines : Engines} {record : IpRecord} {ts : ℤ}

theorem publishesLoudly_afterCooldown {alert : AlertRecord} {propagate : Option Bytes}
    {signal : Option IncidentSignal}
    (loud : propagate.isSome = true → neverSuppressMessage alert.message = true) :
    (afterCooldown thresholds ts record alert propagate signal).2.PublishesLoudly := by
  unfold afterCooldown
  split
  · trivial
  · cases propagate with
    | none => trivial
    | some mitre => exact loud rfl

theorem afterCooldown_ne_pass {alert : AlertRecord} {propagate : Option Bytes}
    {signal : Option IncidentSignal} :
    (afterCooldown thresholds ts record alert propagate signal).2 ≠ .pass := by
  unfold afterCooldown
  split <;> exact Finding.noConfusion

theorem neverSuppressMessage_makeAlert {level : AlertLevel} {start rest mitre tactic : Bytes}
    {needle : Bytes} (known : needle ∈ suppressNeedles) (occurs : needle <:+: start)
    (fits : start.length < 256) :
    neverSuppressMessage (makeAlert level record ts (start ++ rest) mitre tactic).message =
      true := by
  apply neverSuppressMessage_of_infix known
  exact occurs.trans (infix_copyInto fits)

theorem publishesLoudly_waf : (wafStage engines ts record).2.PublishesLoudly := by
  unfold wafStage
  split
  · trivial
  · apply neverSuppressMessage_makeAlert (show ascii "WAF ALARM" ∈ suppressNeedles by decide)
    · exact ⟨[], ascii "! Kategori: ", by decide⟩
    · decide

theorem publishesLoudly_sqli : (sqliStage thresholds engines ts record).2.PublishesLoudly := by
  unfold sqliStage
  split
  · dsimp only
    split
    · apply publishesLoudly_afterCooldown
      intro _
      apply neverSuppressMessage_makeAlert
        (show ascii "SQL INJECTION" ∈ suppressNeedles by decide)
      · exact ⟨[], ascii " / PAYLOAD SALDIRISI! ", by decide⟩
      · decide
    · trivial
  · trivial

theorem publishesLoudly_beaconing :
    (beaconingStage thresholds engines ts record).2.PublishesLoudly := by
  unfold beaconingStage
  split
  · apply publishesLoudly_afterCooldown
    intro _
    apply neverSuppressMessage_makeAlert (show ascii "BEACONING" ∈ suppressNeedles by decide)
    · exact ⟨[], ascii " TESPIT EDILDI! ", by decide⟩
    · decide
  · trivial

end Stages

theorem publishesLoudly_firstFinding {stages : List Stage} :
    ∀ {record : IpRecord}, (∀ stage ∈ stages, ∀ record, (stage record).2.PublishesLoudly) →
      (firstFinding stages record).2.PublishesLoudly := by
  induction stages with
  | nil => exact fun _ => trivial
  | cons stage rest ih =>
    intro record loud
    have here := loud stage mem_cons_self record
    rw [firstFinding]
    split
    · exact ih fun other inRest => loud other (mem_cons_of_mem stage inRest)
    · exact here

variable {early late : List Stage}

theorem firstFinding_append_of_pass {after : IpRecord} :
    ∀ {record : IpRecord}, firstFinding early record = (after, .pass) →
      firstFinding (early ++ late) record = firstFinding late after := by
  induction early with
  | nil =>
    intro record passed
    cases passed
    rfl
  | cons stage rest ih =>
    intro record passed
    rw [cons_append, firstFinding]
    rw [firstFinding] at passed
    split at passed
    · exact ih passed
    · rename_i decided
      rw [passed] at decided
      exact absurd rfl (decided after)

theorem firstFinding_append_of_ne :
    ∀ {record : IpRecord}, (firstFinding early record).2 ≠ .pass →
      firstFinding (early ++ late) record = firstFinding early record := by
  induction early with
  | nil => exact fun stopped => absurd rfl stopped
  | cons stage rest ih =>
    intro record stopped
    rw [cons_append, firstFinding, firstFinding]
    rw [firstFinding] at stopped
    split at stopped
    · exact ih stopped
    · rfl

theorem firstFinding_singleton {stage : Stage} {record : IpRecord} :
    firstFinding [stage] record = stage record := by
  rw [firstFinding]
  split
  · rename_i after passed
    exact passed.symm
  · rfl

section Rows

variable {thresholds : Thresholds} {engines : Engines} {record : IpRecord} {ts : ℤ}

theorem publishesLoudly_early :
    (firstFinding (earlyStages thresholds engines ts) record).2.PublishesLoudly := by
  apply publishesLoudly_firstFinding
  simp only [earlyStages, forall_mem_cons]
  refine ⟨?_, ?_, fun _ => publishesLoudly_waf, fun _ => publishesLoudly_sqli, by simp⟩
  · intro record
    unfold aptStage
    split <;> trivial
  · intro record
    unfold covertStage
    split <;> trivial

theorem publishesLoudly_late {url : Bytes} {entry : LogEntry} :
    (firstFinding (lateStages thresholds engines url entry) record).2.PublishesLoudly := by
  have noPropagation {record : IpRecord} {alert : AlertRecord} {ts : ℤ} :
      (afterCooldown thresholds ts record alert none none).2.PublishesLoudly :=
    publishesLoudly_afterCooldown fun isSome => Bool.noConfusion isSome
  apply publishesLoudly_firstFinding
  simp only [lateStages, forall_mem_cons]
  refine ⟨?_, ?_, fun _ => publishesLoudly_beaconing, ?_, ?_, ?_, ?_, by simp⟩
  · intro record
    unfold ddosStage
    split
    · exact noPropagation
    · trivial
  · intro record
    unfold starvationStage
    dsimp only
    split
    · split
      · exact noPropagation
      · trivial
    · trivial
  · intro record
    unfold baselineStage
    split
    · trivial
    · split <;> trivial
  · intro record
    unfold endpointStage
    dsimp only
    split
    · trivial
    · exact noPropagation
  · intro record
    unfold errorRateStage
    dsimp only
    split
    · exact noPropagation
    · trivial
  · intro record
    unfold mlStage
    split
    · exact noPropagation
    · trivial

theorem firstFinding_early_of_passEarly (silent : engines.PassEarly thresholds record) :
    ∃ hits, firstFinding (earlyStages thresholds engines ts) record =
      ({ record with cnt := { record.cnt with sqliHits := hits } }, .pass) := by
  rcases silent with ⟨noApt, noCovert, noWaf, fewHits⟩
  simp only [earlyStages, firstFinding, aptStage, covertStage, wafStage, noApt, noCovert, noWaf]
  unfold sqliStage
  by_cases injected : engines.sqli = true
  · refine ⟨incrLong record.cnt.sqliHits, ?_⟩
    simp [if_pos injected, if_neg (not_le.mpr (fewHits injected))]
  · refine ⟨record.cnt.sqliHits, ?_⟩
    simp [if_neg injected]

theorem passEarly_of_firstFinding
    (passed : (firstFinding (earlyStages thresholds engines ts) record).2 = .pass) :
    engines.PassEarly thresholds record := by
  rcases engines with ⟨apt, covert, waf, sqli, beaconing, baseline, mlScore⟩
  cases apt with
  | some result => cases passed
  | none => cases covert with
    | some finding => cases passed
    | none => cases waf with
      | some finding => cases passed
      | none =>
        refine ⟨rfl, rfl, rfl, ?_⟩
        intro injected
        by_contra reached
        rw [not_lt] at reached
        change (firstFinding [sqliStage _ _ _] record).2 = .pass at passed
        rw [firstFinding_singleton, sqliStage, if_pos injected] at passed
        exact afterCooldown_ne_pass ((congrArg Prod.snd (if_pos reached)).symm.trans passed)

end Rows

section LowSlow

variable {record : IpRecord} {ts : ℤ}

theorem mem_lowSlowText {byte : UInt8} (shown : byte ∈ lowSlowText record ts) :
    byte ∈ ascii "LOW & SLOW BRUTE FORCE! Son 300 sn'de  istek + - hata." ∨
      isDigit byte = true := by
  simp only [lowSlowText, mem_append] at shown
  rcases shown with inText | inCount | inText | inErrors | inText
  · exact .inl (mem_append_left (ascii " istek + - hata.") inText)
  · exact .inr (isDigit_of_mem_numeral inCount)
  · exact .inl (List.IsInfix.subset (by decide) inText)
  · rcases mem_printInt inErrors with digit | isMinus
    · exact .inr digit
    · exact .inl (isMinus ▸ by decide)
  · exact .inl (List.IsInfix.subset (by decide) inText)

theorem neverSuppressMessage_lowSlow {level : AlertLevel} {mitre tactic : Bytes} :
    neverSuppressMessage (makeAlert level record ts (lowSlowText record ts) mitre tactic).message =
      false := by
  have absent {byte : UInt8}
      (unused : byte ∉ ascii "LOW & SLOW BRUTE FORCE! Son 300 sn'de  istek + - hata.")
      (noDigit : isDigit byte = false) :
      byte ∉ (makeAlert level record ts (lowSlowText record ts) mitre tactic).message := by
    intro shown
    rcases mem_lowSlowText (mem_of_mem_take shown) with inText | digit
    · exact unused inText
    · exact Bool.noConfusion (noDigit.symm.trans digit)
  apply neverSuppressMessage_eq_false
  simp only [suppressNeedles, forall_mem_cons]
  refine ⟨⟨chr 'Q', by decide, absent ?_ ?_⟩, ⟨chr 'A', by decide, absent ?_ ?_⟩,
    ⟨chr 'A', by decide, absent ?_ ?_⟩, ⟨chr 'V', by decide, absent ?_ ?_⟩,
    ⟨chr 'H', by decide, absent ?_ ?_⟩, ⟨chr 'A', by decide, absent ?_ ?_⟩,
    ⟨chr 'J', by decide, absent ?_ ?_⟩, ⟨chr 'P', by decide, absent ?_ ?_⟩, by simp⟩ <;> decide

theorem fpTrustShouldSuppress_lowSlow {trust : FpTrust} {ip : Bytes} :
    fpTrustShouldSuppress trust ip (lowSlowAlert record ts) = true ↔ trust.Spares ip := by
  have spoken : neverSuppressMessage (lowSlowAlert record ts).message = false :=
    neverSuppressMessage_lowSlow
  simp only [fpTrustShouldSuppress, spoken, Bool.and_eq_true, Bool.not_false, and_true,
    Option.any_eq_true]
  apply and_congr_right
  intro _
  apply exists_congr
  intro slot
  apply and_congr_right
  intro _
  simp [slotSuppresses, lowSlowAlert, makeAlert]

theorem unpublished_propagate_iff {mesh : Mesh} {mitre : Bytes} (named : record.ip ≠ []) :
    (∀ effect ∈ anomalyMeshPropagate mesh (lowSlowAlert record ts) mitre,
      effect.IsPublication = false) ↔ mesh.Publishes = false := by
  have kept : copyInto ipStrLen record.ip ≠ [] := by
    intro empty
    rcases List.take_eq_nil_iff.mp empty with zero | isNil
    · exact absurd zero (by decide)
    · exact named isNil
  rcases mesh with ⟨backend, pubSocket, etcdActive, etcdMode, minThreatScore⟩
  cases backend <;>
    simp [anomalyMeshPropagate, lowSlowAlert, makeAlert, kept, Mesh.Publishes,
      Effect.IsPublication]
  grind

end LowSlow

section Conclude

variable {around : Surroundings} {record : IpRecord} {alert : AlertRecord}

variable {trust : FpTrust} {signal : Option IncidentSignal}

theorem alert_anomalyEmit_eq_none :
    (anomalyEmit trust record alert signal).alert = none ↔
      fpTrustShouldSuppress trust record.ip alert = true := by
  unfold anomalyEmit
  split <;> simp_all

theorem unpublished_anomalyEmit :
    (anomalyEmit trust record alert signal).Unpublished := by
  unfold anomalyEmit CheckResult.Unpublished
  split
  · simp [Effect.IsPublication]
  · cases signal <;> simp [Effect.IsPublication]

theorem alert_conclude_raise {propagate : Option Bytes} :
    (conclude around (record, .raise alert propagate signal)).alert = none ↔
      fpTrustShouldSuppress around.trust record.ip alert = true :=
  alert_anomalyEmit_eq_none

theorem unpublished_conclude_raise {mitre : Bytes} :
    (conclude around (record, .raise alert (some mitre) signal)).Unpublished ↔
      ∀ effect ∈ anomalyMeshPropagate around.mesh alert mitre, effect.IsPublication = false :=
  ⟨fun unpublished effect inMesh => unpublished effect (mem_append_left _ inMesh),
    fun unpublished => List.forall_mem_append.mpr ⟨unpublished, unpublished_anomalyEmit⟩⟩

theorem unpublished_conclude_of_loud {outcome : IpRecord × Finding}
    (loud : outcome.2.PublishesLoudly) (silent : (conclude around outcome).alert = none) :
    (conclude around outcome).Unpublished := by
  rcases outcome with ⟨record, finding⟩
  cases finding with
  | pass => simp [conclude, CheckResult.Unpublished]
  | quiet => simp [conclude, CheckResult.Unpublished]
  | raise alert propagate signal =>
    cases propagate with
    | none => exact unpublished_anomalyEmit
    | some mitre =>
      have suppressed := alert_conclude_raise.mp silent
      unfold fpTrustShouldSuppress at suppressed
      rw [show neverSuppressMessage alert.message = true from loud] at suppressed
      simp at suppressed

end Conclude

/-- The states in which an alert is published and then suppressed. -/
structure PublishesSuppressed (around : Surroundings) (engines : Engines) (record : IpRecord)
    (ts : ℤ) : Prop where
  unlisted : isWhitelisted around.rulesWhitelist record.ip = false
  passEarly : engines.PassEarly around.thresholds record
  fires : detectLowAndSlow around.thresholds record ts = true
  cooled : coolingDown around.thresholds record ts = false
  publishes : around.mesh.Publishes = true
  spares : around.trust.Spares record.ip

section Check

variable {around : Surroundings} {engines : Engines} {url : Bytes} {record : IpRecord}
  {entry : LogEntry}

theorem firstFinding_stages_of_passEarly (silent : engines.PassEarly around.thresholds record) :
    ∃ counted, firstFinding (stages around.thresholds engines url entry) record =
        firstFinding (lowSlowStage around.thresholds entry.ts ::
          lateStages around.thresholds engines url entry) counted ∧
      counted.ip = record.ip ∧
      detectLowAndSlow around.thresholds counted entry.ts =
        detectLowAndSlow around.thresholds record entry.ts ∧
      coolingDown around.thresholds counted entry.ts =
        coolingDown around.thresholds record entry.ts := by
  rcases firstFinding_early_of_passEarly silent with ⟨hits, passed⟩
  exact ⟨_, firstFinding_append_of_pass passed, rfl, rfl, rfl⟩

theorem firstFinding_lowSlow_of_quiet {late : List Stage}
    (quiet : detectLowAndSlow around.thresholds record entry.ts ≠ true) :
    firstFinding (lowSlowStage around.thresholds entry.ts :: late) record =
      firstFinding late record := by
  simp [firstFinding, lowSlowStage, if_neg quiet]

theorem firstFinding_lowSlow_of_fires {late : List Stage}
    (fires : detectLowAndSlow around.thresholds record entry.ts = true) :
    firstFinding (lowSlowStage around.thresholds entry.ts :: late) record =
      afterCooldown around.thresholds entry.ts record (lowSlowAlert record entry.ts)
        (some (ascii "T1110")) (some .brute) := by
  simp only [firstFinding, lowSlowStage, if_pos fires]
  split
  · rename_i passed
    exact absurd (congrArg Prod.snd passed) afterCooldown_ne_pass
  · rfl

theorem not_spares_nil {trust : FpTrust} : ¬ trust.Spares [] := by
  rintro ⟨_, slot, found, _⟩
  cases found

theorem conclude_lowSlow {signal : Option IncidentSignal} {after : IpRecord}
    (sameIp : after.ip = record.ip) {mitre : Bytes} {ts : ℤ} :
    ((conclude around (after, .raise (lowSlowAlert record ts) (some mitre) signal)).alert = none →
      (conclude around
        (after, .raise (lowSlowAlert record ts) (some mitre) signal)).Unpublished) ↔
      ¬ (around.mesh.Publishes = true ∧ around.trust.Spares record.ip) := by
  have spared : (conclude around
      (after, .raise (lowSlowAlert record ts) (some mitre) signal)).alert = none ↔
        around.trust.Spares record.ip := by
    rw [alert_conclude_raise, fpTrustShouldSuppress_lowSlow, sameIp]
  by_cases named : record.ip = []
  · have unspared : ¬ around.trust.Spares record.ip := named ▸ not_spares_nil
    exact iff_of_true (fun silent => absurd (spared.mp silent) unspared)
      fun both => unspared both.2
  rw [unpublished_conclude_raise, unpublished_propagate_iff named, ← Bool.not_eq_true]
  constructor
  · intro kept both
    exact kept (spared.mpr both.2) both.1
  · intro apart silent publishes
    exact apart ⟨publishes, spared.mp silent⟩

/-- A check without an alert publishes nothing, except on an address that the trust store spares
an alert of the low and slow stage. -/
theorem anomalyCheck_unpublished_iff (around : Surroundings) (engines : Engines) (url : Bytes)
    (record : IpRecord) (entry : LogEntry) :
    ((anomalyCheck around engines url record entry).alert = none →
        (anomalyCheck around engines url record entry).Unpublished) ↔
      ¬ PublishesSuppressed around engines record entry.ts := by
  unfold anomalyCheck
  by_cases listed : isWhitelisted around.rulesWhitelist record.ip = true
  · rw [if_pos listed]
    refine iff_of_true (fun _ => by simp [CheckResult.Unpublished]) ?_
    intro suppressed
    exact Bool.noConfusion (suppressed.unlisted.symm.trans listed)
  rw [if_neg listed]
  by_cases silent : engines.PassEarly around.thresholds record
  swap
  · refine iff_of_true (unpublished_conclude_of_loud ?_) fun suppressed =>
      silent suppressed.passEarly
    unfold stages
    rw [firstFinding_append_of_ne (mt passEarly_of_firstFinding silent)]
    exact publishesLoudly_early
  rcases firstFinding_stages_of_passEarly silent with ⟨counted, reached, sameIp, sameFire, sameCool⟩
  rw [reached]
  by_cases fires : detectLowAndSlow around.thresholds record entry.ts = true
  swap
  · refine iff_of_true (unpublished_conclude_of_loud ?_) fun suppressed => fires suppressed.fires
    rw [firstFinding_lowSlow_of_quiet (sameFire ▸ fires)]
    exact publishesLoudly_late
  rw [firstFinding_lowSlow_of_fires (sameFire.trans fires), afterCooldown]
  by_cases cooling : coolingDown around.thresholds record entry.ts = true
  · rw [if_pos (sameCool.trans cooling)]
    refine iff_of_true (unpublished_conclude_of_loud trivial) fun suppressed =>
      Bool.noConfusion (suppressed.cooled.symm.trans cooling)
  rw [if_neg (sameCool ▸ cooling)]
  apply (conclude_lowSlow rfl).trans
  rw [sameIp, not_iff_not]
  constructor
  · rintro ⟨publishes, spares⟩
    exact ⟨Bool.not_eq_true _ ▸ listed, silent, fires, Bool.not_eq_true _ ▸ cooling, publishes,
      spares⟩
  · intro suppressed
    exact ⟨suppressed.publishes, suppressed.spares⟩

end Check

def sparedSlot : FpTrustSlot where
  ip := ascii "203.0.113.7"
  cleanEma := 1
  samples := 5000
  isPartial := true
  trusted := true

def sparedSurroundings : Surroundings where
  thresholds := {}
  rulesWhitelist := fun _ => false
  trust := ⟨true, fun slot => if slot = fpHash sparedSlot.ip then sparedSlot else {}⟩
  mesh := ⟨.zmq, true, false, 0, 0⟩

def sparedRecord : IpRecord where
  ip := sparedSlot.ip
  state := .ready
  window := ⟨List.replicate windowSlots 1000, 8, 8⟩
  cnt := { totalRequests := 8, error4xx := 1 }

theorem slotOf_sparedSlot :
    sparedSurroundings.trust.slotOf sparedSlot.ip = some sparedSlot := by
  have atHome : LinearProbe.slotAt fpHash sparedSlot.ip 0 = fpHash sparedSlot.ip := by
    decide
  have atSlot : sparedSurroundings.trust.pool (fpHash sparedSlot.ip) = sparedSlot := by
    simp [sparedSurroundings]
  have found : LinearProbe.probe fpHash fpPoolSize sparedSurroundings.trust.keys sparedSlot.ip =
      some (fpHash sparedSlot.ip) := by
    rw [LinearProbe.probe_eq_some_iff]
    refine ⟨0, by decide, atHome, .inr ?_, fun earlier before => absurd before (by omega)⟩
    decide
  rw [FpTrust.slotOf, found]
  exact congrArg some atSlot

theorem spares_sparedRecord : sparedSurroundings.trust.Spares sparedRecord.ip :=
  ⟨rfl, sparedSlot, slotOf_sparedSlot, rfl, by decide +kernel⟩

/-- The check raises no alert about the office, but its peers are told of it. -/
theorem anomalyCheck_publishes_spared :
    (anomalyCheck sparedSurroundings {} [] sparedRecord { ts := 1000 }).alert = none ∧
      ¬ (anomalyCheck sparedSurroundings {} [] sparedRecord { ts := 1000 }).Unpublished := by
  have raised : firstFinding (stages sparedSurroundings.thresholds {} [] { ts := 1000 })
      sparedRecord = ({ sparedRecord with lastAlertTs := 1000 },
        .raise (lowSlowAlert sparedRecord 1000) (some (ascii "T1110")) (some .brute)) := by
    decide
  have suppressed : fpTrustShouldSuppress sparedSurroundings.trust sparedRecord.ip
      (lowSlowAlert sparedRecord 1000) = true :=
    fpTrustShouldSuppress_lowSlow.mpr spares_sparedRecord
  have unlisted : ¬ isWhitelisted sparedSurroundings.rulesWhitelist sparedRecord.ip = true := by
    decide
  have published : Effect.publishZmq sparedSlot.ip (ascii "T1110")
      (lowSlowAlert sparedRecord 1000).message ∈
        anomalyMeshPropagate sparedSurroundings.mesh (lowSlowAlert sparedRecord 1000)
          (ascii "T1110") := by
    decide
  rw [anomalyCheck, if_neg unlisted, raised, alert_conclude_raise, unpublished_conclude_raise]
  refine ⟨suppressed, ?_⟩
  intro unpublished
  exact Bool.noConfusion (unpublished _ published)

end LogGuardian
