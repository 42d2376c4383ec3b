import LogGuardian.Anomaly.Beaconing
import LogGuardian.Anomaly.Published

/-!
# Bursts of requests
-/

namespace LogGuardian

open List

def Finding.IsRaise : Finding → Bool
  | .raise .. => true
  | _ => false

/-- A stage keeps the address and the window, and unless it raises also the last alert. -/
structure KeepsTraffic (record : IpRecord) (outcome : IpRecord × Finding) : Prop where
  window : outcome.1.window = record.window
  ip : outcome.1.ip = record.ip
  lastAlertTs : outcome.2.IsRaise = false → outcome.1.lastAlertTs = record.lastAlertTs

section Keeps

variable {thresholds : Thresholds} {engines : Engines} {record : IpRecord} {ts : ℤ}

theorem keepsTraffic_pass {cnt : IpCounters} :
    KeepsTraffic record ({ record with cnt := cnt }, .pass) where
  window := rfl
  ip := rfl
  lastAlertTs _ := rfl

theorem keepsTraffic_raise {alert : AlertRecord} {propagate : Option Bytes}
    {signal : Option IncidentSignal} :
    KeepsTraffic record
      ({ record with lastAlertTs := ts }, .raise alert propagate signal) where
  window := rfl
  ip := rfl
  lastAlertTs notRaise := Bool.noConfusion notRaise

theorem keepsTraffic_afterCooldown {cnt : IpCounters} {alert : AlertRecord}
    {propagate : Option Bytes} {signal : Option IncidentSignal} :
    KeepsTraffic record
      (afterCooldown thresholds ts { record with cnt := cnt } alert propagate signal) := by
  unfold afterCooldown
  split
  · exact ⟨rfl, rfl, fun _ => rfl⟩
  · exact ⟨rfl, rfl, fun notRaise => Bool.noConfusion notRaise⟩

theorem keepsTraffic_early :
    ∀ stage ∈ earlyStages thresholds engines ts, ∀ record, KeepsTraffic record (stage record) := by
  simp only [earlyStages, forall_mem_cons]
  refine ⟨?_, ?_, ?_, ?_, by simp⟩
  · intro record
    unfold aptStage
    split
    · exact keepsTraffic_pass
    · exact keepsTraffic_raise
  · intro record
    unfold covertStage
    split
    · exact keepsTraffic_pass
    · exact keepsTraffic_raise
  · intro record
    unfold wafStage
    split
    · exact keepsTraffic_pass
    · exact keepsTraffic_raise
  · intro record
    unfold sqliStage
    dsimp only
    split
    · split
      · exact keepsTraffic_afterCooldown
      · exact keepsTraffic_pass
    · exact keepsTraffic_pass

theorem keepsTraffic_lowSlow : KeepsTraffic record (lowSlowStage thresholds ts record) := by
  unfold lowSlowStage
  split
  · exact keepsTraffic_afterCooldown
  · exact keepsTraffic_pass

theorem keepsTraffic_late {url : Bytes} {entry : LogEntry} :
    ∀ stage ∈ lateStages thresholds engines url entry, ∀ record,
      KeepsTraffic record (stage record) := by
  simp only [lateStages, forall_mem_cons]
  refine ⟨?_, ?_, ?_, ?_, ?_, ?_, ?_, by simp⟩
  · intro record
    unfold ddosStage
    split
    · exact keepsTraffic_afterCooldown
    · exact keepsTraffic_pass
  · intro record
    unfold starvationStage
    dsimp only
    split
    · split
      · exact keepsTraffic_afterCooldown
      · exact keepsTraffic_pass
    · exact keepsTraffic_pass
  · intro record
    unfold beaconingStage
    split
    · exact keepsTraffic_afterCooldown
    · exact keepsTraffic_pass
  · intro record
    unfold baselineStage
    split
    · exact keepsTraffic_pass
    · split
      · exact keepsTraffic_raise
      · exact keepsTraffic_pass
  · intro record
    unfold endpointStage
    dsimp only
    split
    · exact keepsTraffic_pass
    · exact keepsTraffic_afterCooldown
  · intro record
    unfold errorRateStage
    dsimp only
    split
    · exact keepsTraffic_afterCooldown
    · exact keepsTraffic_pass
  · intro record
    unfold mlStage
    split
    · exact keepsTraffic_afterCooldown
    · exact keepsTraffic_pass

theorem keepsTraffic_firstFinding {stages : List Stage}
    (keeps : ∀ stage ∈ stages, ∀ record, KeepsTraffic record (stage record)) :
    ∀ record, KeepsTraffic record (firstFinding stages record) := by
  induction stages with
  | nil => exact fun _ => keepsTraffic_pass
  | cons stage rest ih =>
    intro record
    have here := keeps stage mem_cons_self record
    rw [firstFinding]
    split
    · rename_i after passed
      rw [passed] at here
      have there := ih (fun other inRest => keeps other (mem_cons_of_mem stage inRest)) after
      exact ⟨there.window.trans here.window, there.ip.trans here.ip,
        fun notRaise => (there.lastAlertTs notRaise).trans (here.lastAlertTs rfl)⟩
    · exact here

theorem keepsTraffic_stages {url : Bytes} {entry : LogEntry} :
    ∀ stage ∈ stages thresholds engines url entry, ∀ record,
      KeepsTraffic record (stage record) := by
  unfold stages
  rw [forall_mem_append, forall_mem_cons]
  exact ⟨keepsTraffic_early, fun _ => keepsTraffic_lowSlow, keepsTraffic_late⟩

theorem exists_pass_of_mem {stages : List Stage} {stage : Stage} (inRow : stage ∈ stages) :
    ∀ {record : IpRecord}, (firstFinding stages record).2 = .pass →
      ∃ reached, (stage reached).2 = .pass := by
  induction stages with
  | nil => exact absurd inRow not_mem_nil
  | cons first rest ih =>
    intro record passed
    rw [firstFinding] at passed
    split at passed
    · rename_i after here
      rcases List.mem_cons.mp inRow with rfl | inRest
      · exact ⟨record, congrArg Prod.snd here⟩
      · exact ih inRest passed
    · rename_i decided
      exact (decided (first record).1 (Prod.ext rfl passed)).elim

end Keeps

structure Hit where
  entry : LogEntry
  url : Bytes
  engines : Engines
  around : Surroundings

namespace Hit

noncomputable def verdicts (request : Hit) (double : Rounding) (record : IpRecord) : Engines :=
  { request.engines with beaconing := detectBeaconing double record.window }

noncomputable def frontStages (request : Hit) (double : Rounding) (record : IpRecord) :
    List Stage :=
  earlyStages request.around.thresholds (request.verdicts double record) request.entry.ts ++
    [lowSlowStage request.around.thresholds request.entry.ts]

noncomputable def backStages (request : Hit) (double : Rounding) (record : IpRecord) :
    List Stage :=
  (lateStages request.around.thresholds (request.verdicts double record) request.url
    request.entry).tail

/-- No other detector fires on the request. -/
def OthersSilent (request : Hit) (double : Rounding) (record : IpRecord) : Prop :=
  let updated := ipmapUpdate record request.entry
  let front := firstFinding (request.frontStages double updated) updated
  front.2 = .pass ∧
    ((ddosStage request.around.thresholds request.entry.ts front.1).2 = .pass →
      (firstFinding (request.backStages double updated) front.1).2 = .pass)

end Hit

/-- `ipmap_update` and then `anomaly_check`. -/
noncomputable def handleRequest (double : Rounding) (record : IpRecord) (request : Hit) :
    CheckResult :=
  let updated := ipmapUpdate record request.entry
  anomalyCheck request.around (request.verdicts double updated) request.url updated request.entry

noncomputable def handleRequests (double : Rounding) :
    IpRecord → List Hit → List CheckResult
  | _, [] => []
  | record, request :: rest =>
    let result := handleRequest double record request
    result :: handleRequests double result.record rest

noncomputable def recordAfter (double : Rounding) (record : IpRecord) (requests : List Hit) :
    IpRecord :=
  Machine.run (fun record request => (handleRequest double record request).record) record requests

/-- The record of an address before its first request. -/
structure FreshRecord (record : IpRecord) : Prop where
  length : record.window.times.length = windowSlots
  head : record.window.head = 0
  count : record.window.count = 0
  lastAlertTs : record.lastAlertTs = 0

def burst (times : List ℤ) (now : ℤ) : ℕ := times.countP fun time => now - 1 ≤ time

/-- The record of an address after requests at the given times, none of which raised an alert. -/
structure Tracks (ip : Bytes) (record : IpRecord) (times : List ℤ) : Prop where
  follows : record.window.Follows times
  ip : record.ip = ip
  lastAlertTs : record.lastAlertTs = 0

section Requests

variable {double : Rounding} {ip : Bytes} {record : IpRecord} {request : Hit} {times : List ℤ}

theorem FreshRecord.tracks (fresh : FreshRecord record) : Tracks record.ip record [] where
  follows := SlidingWindow.follows_nil fresh.length fresh.head fresh.count
  ip := rfl
  lastAlertTs := fresh.lastAlertTs

theorem Tracks.update (tracks : Tracks ip record times) (entry : LogEntry) :
    Tracks ip (ipmapUpdate record entry) (times ++ [entry.ts]) where
  follows := tracks.follows.push entry.ts
  ip := tracks.ip
  lastAlertTs := tracks.lastAlertTs

theorem record_conclude {around : Surroundings} {outcome : IpRecord × Finding} :
    (conclude around outcome).record = outcome.1 := by
  rcases outcome with ⟨record, finding⟩
  cases finding with
  | pass => rfl
  | quiet => rfl
  | raise alert propagate signal =>
    unfold conclude anomalyEmit
    dsimp only
    split <;> rfl

theorem isRaise_of_effects {around : Surroundings} {outcome : IpRecord × Finding}
    (unraised : (conclude around outcome).effects = []) : outcome.2.IsRaise = false := by
  rcases outcome with ⟨record, finding⟩
  cases finding with
  | pass => rfl
  | quiet => rfl
  | raise alert propagate signal =>
    have emitted := (List.append_eq_nil_iff.mp unraised).2
    unfold anomalyEmit at emitted
    split at emitted <;> cases emitted

theorem Tracks.handleRequest (tracks : Tracks ip record times)
    (unraised : (handleRequest double record request).effects = []) :
    Tracks ip (handleRequest double record request).record (times ++ [request.entry.ts]) := by
  have updated := tracks.update request.entry
  unfold LogGuardian.handleRequest anomalyCheck at unraised ⊢
  dsimp only at unraised ⊢
  split at unraised
  · rename_i listed
    rw [if_pos listed]
    exact updated
  · rename_i unlisted
    rw [if_neg unlisted, record_conclude]
    have keeps : KeepsTraffic (ipmapUpdate record request.entry) (firstFinding
        (stages request.around.thresholds
          (request.verdicts double (ipmapUpdate record request.entry)) request.url request.entry)
        (ipmapUpdate record request.entry)) := keepsTraffic_firstFinding keepsTraffic_stages _
    exact ⟨keeps.window ▸ updated.follows, keeps.ip.trans updated.ip,
      (keeps.lastAlertTs (isRaise_of_effects unraised)).trans updated.lastAlertTs⟩

theorem Tracks.recordAfter {requests : List Hit} :
    ∀ {record : IpRecord} {times : List ℤ}, Tracks ip record times →
      (∀ result ∈ handleRequests double record requests, result.effects = []) →
      Tracks ip (recordAfter double record requests) (times ++ requests.map (·.entry.ts)) := by
  induction requests with
  | nil =>
    intro record times tracks _
    rw [map_nil, append_nil]
    exact tracks
  | cons request rest ih =>
    intro record times tracks unraised
    rw [handleRequests, forall_mem_cons] at unraised
    have rested := ih (tracks.handleRequest unraised.1) unraised.2
    rw [append_assoc] at rested
    exact rested

end Requests

/-- An address about which the trust store suppresses a warning. -/
def FpTrust.SparesWarnings (trust : FpTrust) (ip : Bytes) : Prop :=
  trust.enabled = true ∧
    ∃ slot, trust.slotOf ip = some slot ∧ (slot.isPartial = true ∨ slot.trusted = true)

theorem sparesWarnings_of_suppress {trust : FpTrust} {ip : Bytes} {alert : AlertRecord}
    (suppressed : fpTrustShouldSuppress trust ip alert = true) : trust.SparesWarnings ip := by
  unfold fpTrustShouldSuppress at suppressed
  rw [Bool.and_eq_true, Bool.and_eq_true, Option.any_eq_true] at suppressed
  rcases suppressed with ⟨⟨enabled, _⟩, slot, found, suppresses⟩
  refine ⟨enabled, slot, found, ?_⟩
  unfold slotSuppresses at suppresses
  split at suppresses <;> simp_all

section Bursts

variable {double : Rounding} {ip : Bytes} {record : IpRecord} {request : Hit} {times : List ℤ}

theorem Hit.OthersSilent.exists_passed (silent : request.OthersSilent double record) :
    ∃ after, firstFinding (request.frontStages double (ipmapUpdate record request.entry))
        (ipmapUpdate record request.entry) = (after, .pass) ∧
      ((ddosStage request.around.thresholds request.entry.ts after).2 = .pass →
        (firstFinding (request.backStages double (ipmapUpdate record request.entry)) after).2 =
          .pass) :=
  ⟨_, Prod.ext rfl silent.1, silent.2⟩

theorem keepsTraffic_frontStages {after : IpRecord}
    (passed : firstFinding (request.frontStages double record) record = (after, .pass)) :
    after.window = record.window ∧ after.ip = record.ip ∧
      after.lastAlertTs = record.lastAlertTs := by
  have keeps : KeepsTraffic record (firstFinding (request.frontStages double record) record) := by
    apply keepsTraffic_firstFinding
    unfold Hit.frontStages
    rw [forall_mem_append, forall_mem_singleton]
    exact ⟨keepsTraffic_early, fun _ => keepsTraffic_lowSlow⟩
  rw [passed] at keeps
  exact ⟨keeps.window, keeps.ip, keeps.lastAlertTs rfl⟩

theorem ddosAlert_congr {thresholds : Thresholds} {after : IpRecord}
    (sameWindow : after.window = record.window) (sameIp : after.ip = record.ip) (ts : ℤ) :
    ddosAlert thresholds after ts = ddosAlert thresholds record ts := by
  rw [ddosAlert, ddosAlert, makeAlert, makeAlert, sameWindow, sameIp]

theorem alert_handleRequest_eq_none (silent : request.OthersSilent double record)
    (unlisted : isWhitelisted request.around.rulesWhitelist record.ip = false)
    (unraised : record.lastAlertTs = 0)
    (counted : request.around.thresholds.ddosRps ≤
      windowCountSince (ipmapUpdate record request.entry).window (request.entry.ts - 1)) :
    (handleRequest double record request).alert = none ↔
      fpTrustShouldSuppress request.around.trust record.ip
        (ddosAlert request.around.thresholds (ipmapUpdate record request.entry)
          request.entry.ts) = true := by
  rcases silent.exists_passed with ⟨after, passed, _⟩
  rcases keepsTraffic_frontStages passed with ⟨sameWindow, sameIp, sameAlertTs⟩
  have notCooling : ¬ coolingDown request.around.thresholds after request.entry.ts = true := by
    have never : after.lastAlertTs = 0 := sameAlertTs.trans unraised
    simp [coolingDown, never]
  have shown : request.around.thresholds.ddosRps ≤
      windowCountSince after.window (request.entry.ts - 1) := by
    rw [sameWindow]
    exact counted
  have raised : firstFinding (stages request.around.thresholds
      (request.verdicts double (ipmapUpdate record request.entry)) request.url request.entry)
      (ipmapUpdate record request.entry) =
        ({ after with lastAlertTs := request.entry.ts },
          .raise (ddosAlert request.around.thresholds after request.entry.ts) none none) := by
    rw [show stages request.around.thresholds
        (request.verdicts double (ipmapUpdate record request.entry)) request.url request.entry =
          request.frontStages double (ipmapUpdate record request.entry) ++
            ddosStage request.around.thresholds request.entry.ts ::
              request.backStages double (ipmapUpdate record request.entry) from rfl,
      firstFinding_append_of_pass passed, firstFinding, ddosStage, if_pos shown, afterCooldown,
      if_neg notCooling]
  unfold handleRequest anomalyCheck
  rw [if_neg (show ¬ isWhitelisted _ (ipmapUpdate record request.entry).ip = true from
    Bool.eq_false_iff.mp unlisted), raised, alert_conclude_raise, ddosAlert_congr sameWindow sameIp]
  exact iff_of_eq (congrArg (fun ip => fpTrustShouldSuppress _ ip _ = true) sameIp)

theorem detectBeaconing_of_tracks (tracks : Tracks ip record times)
    (ordered : (times ++ [request.entry.ts]).Pairwise (· ≤ ·))
    (full : windowSlots ≤ burst (times ++ [request.entry.ts]) request.entry.ts) :
    detectBeaconing double (ipmapUpdate record request.entry).window = true := by
  have long : windowSlots ≤ (times ++ [request.entry.ts]).length :=
    full.trans countP_le_length
  have allRecent := countP_drop_of_pairwise ordered windowSlots (request.entry.ts - 1)
  rw [min_eq_left (show _ ≤ countP _ _ from full)] at allRecent
  apply detectBeaconing_of_burst double (tracks.update request.entry).follows ordered long
  intro time inLast
  constructor
  · have length : ((times ++ [request.entry.ts]).drop
        ((times ++ [request.entry.ts]).length - windowSlots)).length = windowSlots := by
      rw [length_drop, Nat.sub_sub_self long]
    exact of_decide_eq_true
      (List.countP_eq_length.mp (allRecent.trans length.symm) time inLast)
  · rw [sub_add_cancel]
    rcases List.mem_append.mp (mem_of_mem_drop inLast) with before | isNow
    · exact (List.pairwise_append.mp ordered).2.2 time before _ (List.mem_singleton.mpr rfl)
    · exact (List.mem_singleton.mp isNow).le

theorem ddosRps_le_of_othersSilent (tracks : Tracks ip record times)
    (ordered : (times ++ [request.entry.ts]).Pairwise (· ≤ ·))
    (silent : request.OthersSilent double record)
    (reached : request.around.thresholds.ddosRps ≤
      burst (times ++ [request.entry.ts]) request.entry.ts) :
    request.around.thresholds.ddosRps ≤ windowSlots := by
  by_contra beyond
  rw [not_le] at beyond
  rcases silent.exists_passed with ⟨after, passed, behind⟩
  have uncounted : ¬ request.around.thresholds.ddosRps ≤
      windowCountSince after.window (request.entry.ts - 1) := by
    rw [(keepsTraffic_frontStages passed).1,
      (tracks.update request.entry).follows.windowCountSince_of_pairwise ordered]
    exact fun counted => absurd (counted.trans (min_le_left _ _)) (not_le.mpr beyond)
  have inRow : beaconingStage request.around.thresholds
      (request.verdicts double (ipmapUpdate record request.entry)) request.entry.ts ∈
        request.backStages double (ipmapUpdate record request.entry) :=
    mem_cons_of_mem _ mem_cons_self
  rcases exists_pass_of_mem inRow (behind (by rw [ddosStage, if_neg uncounted])) with
    ⟨asked, letPass⟩
  have beaconing : (request.verdicts double (ipmapUpdate record request.entry)).beaconing = true :=
    detectBeaconing_of_tracks tracks ordered (beyond.le.trans reached)
  rw [beaconingStage, if_pos beaconing] at letPass
  exact afterCooldown_ne_pass letPass

end Bursts

/-- The request with which a burst reaches the configured rate raises an alert, if nothing was
raised before it and the trust store does not spare the address. -/
theorem alert_of_burst (double : Rounding) (record : IpRecord) (fresh : FreshRecord record)
    (before : List Hit) (current : Hit)
    (ordered : ((before ++ [current]).map (·.entry.ts)).Pairwise (· ≤ ·))
    (unlisted : isWhitelisted current.around.rulesWhitelist record.ip = false)
    (unraised : ∀ result ∈ handleRequests double record before, result.effects = [])
    (silent : current.OthersSilent double (recordAfter double record before))
    (reached : current.around.thresholds.ddosRps ≤
      burst ((before ++ [current]).map (·.entry.ts)) current.entry.ts)
    (unspared : ¬ current.around.trust.SparesWarnings record.ip) :
    (handleRequest double (recordAfter double record before) current).alert.isSome = true := by
  have tracks := fresh.tracks.recordAfter unraised
  rw [map_append, map_singleton] at ordered reached
  have counts := (tracks.update current.entry).follows.windowCountSince_of_pairwise ordered
    (current.entry.ts - 1)
  have counted : current.around.thresholds.ddosRps ≤ windowCountSince
      (ipmapUpdate (recordAfter double record before) current.entry).window
      (current.entry.ts - 1) := by
    rw [counts]
    exact le_min (ddosRps_le_of_othersSilent tracks ordered silent reached) reached
  rw [Option.isSome_iff_ne_none, ne_eq, alert_handleRequest_eq_none silent
    (by rw [tracks.ip]; exact unlisted) tracks.lastAlertTs counted, tracks.ip]
  exact fun suppressed => unspared (sparesWarnings_of_suppress suppressed)

theorem id_dyadic : ∀ (m : ℤ) (e : ℕ), |m| ≤ 2 ^ 53 → e ≤ 1000 →
    (id : ℝ → ℝ) (m / 2 ^ e) = m / 2 ^ e := fun _ _ _ _ => rfl

noncomputable def exactDouble : Rounding := ⟨id, monotone_id, id_dyadic⟩

def officeRecord : IpRecord where
  ip := sparedSlot.ip
  state := .ready

def officeEntry : LogEntry := { ts := 1000, status := 200 }

def oneRequest : Thresholds := { ddosRps := 1 }

def officeHit (trust : FpTrust) : Hit where
  entry := officeEntry
  url := ascii "/"
  engines := {}
  around := { sparedSurroundings with thresholds := oneRequest, trust := trust }

theorem freshRecord_officeRecord : FreshRecord officeRecord := ⟨rfl, rfl, rfl, rfl⟩

theorem othersSilent_officeHit {trust : FpTrust} :
    (officeHit trust).OthersSilent exactDouble officeRecord := by
  have back : (firstFinding (lateStages oneRequest {} (ascii "/") officeEntry).tail
      (ipmapUpdate officeRecord officeEntry)).2 = .pass := by
    decide
  unfold Hit.OthersSilent
  rw [show (officeHit trust).entry = officeEntry from rfl]
  dsimp only
  exact ⟨rfl, fun _ => back⟩

/-- A request at a rate limit of two, on a machine without a trust store. -/
def pairHit : Hit :=
  { officeHit ⟨false, fun _ => {}⟩ with
    around := { sparedSurroundings with
      thresholds := { ddosRps := 2 }
      trust := ⟨false, fun _ => {}⟩ } }

/-- The second of two requests in one second. -/
theorem alert_of_burst_pair :
    (FreshRecord officeRecord ∧
      (∀ result ∈ handleRequests exactDouble officeRecord [pairHit], result.effects = []) ∧
      pairHit.OthersSilent exactDouble (recordAfter exactDouble officeRecord [pairHit]) ∧
      burst [1000, 1000] 1000 = 2) ∧
      (handleRequest exactDouble (recordAfter exactDouble officeRecord [pairHit])
        pairHit).alert.isSome = true := by
  have unraised : ∀ result ∈ handleRequests exactDouble officeRecord [pairHit],
      result.effects = [] := by
    intro result isResult
    rw [List.mem_singleton.mp isResult]
    rfl
  have silent : pairHit.OthersSilent exactDouble
      (recordAfter exactDouble officeRecord [pairHit]) := by
    refine ⟨rfl, fun counted => ?_⟩
    exact absurd counted (by decide)
  refine ⟨⟨freshRecord_officeRecord, unraised, silent, by decide⟩, ?_⟩
  apply alert_of_burst exactDouble officeRecord freshRecord_officeRecord [pairHit] pairHit
    (by decide) (by decide) unraised silent
  · exact show 2 ≤ burst [1000, 1000] 1000 by decide
  · exact fun spares => Bool.noConfusion spares.1

/-- No alert about a burst from an address that the trust store spares. -/
theorem handleRequest_spared :
    (FreshRecord officeRecord ∧
      (officeHit sparedSurroundings.trust).OthersSilent exactDouble officeRecord ∧
      isWhitelisted sparedSurroundings.rulesWhitelist officeRecord.ip = false ∧
      oneRequest.ddosRps ≤ burst [officeEntry.ts] officeEntry.ts) ∧
      (handleRequest exactDouble officeRecord (officeHit sparedSurroundings.trust)).alert =
        none := by
  have unlisted : isWhitelisted sparedSurroundings.rulesWhitelist officeRecord.ip = false := by
    decide
  have counted : oneRequest.ddosRps ≤
      windowCountSince (ipmapUpdate officeRecord officeEntry).window (officeEntry.ts - 1) := by
    decide
  have suppressed : fpTrustShouldSuppress sparedSurroundings.trust officeRecord.ip
      (ddosAlert oneRequest (ipmapUpdate officeRecord officeEntry) officeEntry.ts) = true := by
    have spoken : neverSuppressMessage
        (ddosAlert oneRequest (ipmapUpdate officeRecord officeEntry) officeEntry.ts).message =
          false := by
      decide
    rw [fpTrustShouldSuppress, spoken,
      show sparedSurroundings.trust.slotOf officeRecord.ip = some sparedSlot from
        slotOf_sparedSlot]
    rfl
  refine ⟨⟨freshRecord_officeRecord, othersSilent_officeHit, unlisted, by decide⟩, ?_⟩
  exact (alert_handleRequest_eq_none othersSilent_officeHit unlisted rfl counted).mpr suppressed

end LogGuardian
