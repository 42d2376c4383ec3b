import LogGuardian.Anomaly.Trust
import LogGuardian.IpMap.Window
import LogGuardian.JsonText

/-!
# The anomaly check
-/

namespace LogGuardian

structure EndpointLimit where
  path : Bytes
  limitRpm : ℤ
  deriving DecidableEq, Repr

structure Thresholds where
  lowSlowReq : ℕ := 8
  bruteforceErr : ℤ := 1
  ddosRps : ℕ := 300
  slowRespMs : ℤ := 1200
  sqliScore : ℤ := 1
  slowHitCount : ℤ := 3
  alertCooldownSec : ℤ := 10
  endpointLimits : List EndpointLimit := []
  deriving DecidableEq, Repr

/-- `AptResult` without `APT_RESULT_CLEAN`. -/
inductive AptResult where
  | cluster | syncApt | entropy
  deriving DecidableEq, Repr

/-- What `covert_ch_analyze` found: the text behind the type, and whether it is a DNS tunnel. -/
structure CovertFinding where
  detail : Bytes
  dnsTunnel : Bool
  deriving DecidableEq, Repr

structure WafFinding where
  category : Bytes
  totalScore : ℤ
  matchCount : ℤ
  ts : ℤ
  deriving DecidableEq, Repr

/-- The verdicts of the engines on a request. -/
structure Engines where
  apt : Option AptResult := none
  covert : Option CovertFinding := none
  waf : Option WafFinding := none
  sqli : Bool := false
  beaconing : Bool := false
  baseline : Option Bytes := none
  mlScore : ℤ := 0
  deriving DecidableEq, Repr

inductive MeshBackend where
  | none | zmq | etcd
  deriving DecidableEq, Repr

structure Mesh where
  backend : MeshBackend
  pubSocket : Bool
  etcdActive : Bool
  etcdMode : ℕ
  minThreatScore : ℤ
  deriving DecidableEq, Repr

structure Surroundings where
  thresholds : Thresholds
  rulesWhitelist : Bytes → Bool
  trust : FpTrust
  mesh : Mesh

inductive IncidentSignal where
  | sqli | waf | brute
  deriving DecidableEq, Repr

inductive Effect where
  | publishZmq (ip mitre message : Bytes)
  | publishEtcd (ip mitre message : Bytes)
  | noteSuppressed (ip : Bytes)
  | noteAlert (ip : Bytes)
  | noteSignal (ip : Bytes) (signal : IncidentSignal)
  deriving DecidableEq, Repr

namespace Effect

def IsPublication : Effect → Bool
  | publishZmq .. => true
  | publishEtcd .. => true
  | _ => false

end Effect

inductive Finding where
  | pass
  | quiet
  | raise (alert : AlertRecord) (propagate : Option Bytes) (signal : Option IncidentSignal)
  deriving DecidableEq, Repr

def windowSeconds : ℤ := 300

def detectLowAndSlow (thresholds : Thresholds) (record : IpRecord) (now : ℤ) : Bool :=
  thresholds.lowSlowReq ≤ windowCountSince record.window (now - windowSeconds) &&
    thresholds.bruteforceErr ≤ record.cnt.error4xx

/-- The loop of `detect_endpoint_abuse` from an index on. -/
def detectEndpointAbuse (url : Bytes) :
    List EndpointLimit → ℕ → List ℕ → Option EndpointLimit × List ℕ
  | [], _, hits => (none, hits)
  | limit :: rest, i, hits =>
    if limit.path ≠ [] ∧ hasLit url limit.path then
      let count : ℕ := (hits.getD i 0 + 1) % 2 ^ 16
      if limit.limitRpm ≤ count then (some limit, hits.set i count)
      else detectEndpointAbuse url rest (i + 1) (hits.set i count)
    else detectEndpointAbuse url rest (i + 1) hits

def isWhitelisted (rulesWhitelist : Bytes → Bool) (ip : Bytes) : Bool :=
  rulesWhitelist ip || ip = ascii "127.0.0.1" || ip = ascii "::1"

/-- `la > 0 && (e->ts - la) < g_alert_cooldown_sec`. -/
def coolingDown (thresholds : Thresholds) (record : IpRecord) (ts : ℤ) : Bool :=
  0 < record.lastAlertTs && ts - record.lastAlertTs < thresholds.alertCooldownSec

/-- An alert about a record, with its text in `ALERT_MSG_LEN` bytes. -/
def makeAlert (level : AlertLevel) (record : IpRecord) (ts : ℤ) (text mitre tactic : Bytes) :
    AlertRecord where
  level := level
  message := copyInto 256 text
  ip := copyInto ipStrLen record.ip
  ts := ts
  mitreId := mitre
  mitreTactic := tactic

abbrev Stage := IpRecord → IpRecord × Finding

def afterCooldown (thresholds : Thresholds) (ts : ℤ) (record : IpRecord) (alert : AlertRecord)
    (propagate : Option Bytes) (signal : Option IncidentSignal) : IpRecord × Finding :=
  if coolingDown thresholds record ts then (record, .quiet)
  else ({ record with lastAlertTs := ts }, .raise alert propagate signal)

def aptText : AptResult → Bytes
  | .syncApt => ascii "SENKRON APT SALDIRISI! 5+ IP eszamanli payload: BOTNET/DEVLET DESTEKLI TEHDIT AKTORU."
  | .entropy => ascii "DAGITIK APT KUMESI! Farkli IP'lerden AYNI entropi payload " ++
      [0xe2, 0x80, 0x94] ++ ascii " APT Toolkit tespiti."
  | .cluster => ascii "APT KUME ALARMI! 5+ farkli IP ayni normalize payload kullaniyor. "

def aptStage (engines : Engines) (ts : ℤ) : Stage := fun record =>
  match engines.apt with
  | none => (record, .pass)
  | some result =>
    ({ record with lastAlertTs := ts },
      .raise (makeAlert .crit record ts (aptText result) (ascii "T1584")
        (ascii "Resource Development")) none (some .waf))

def covertStage (engines : Engines) (ts : ℤ) : Stage := fun record =>
  match engines.covert with
  | none => (record, .pass)
  | some finding =>
    let (mitre, tactic) :=
      if finding.dnsTunnel then (ascii "T1071.004", ascii "Command & Control")
      else (ascii "T1020", ascii "Exfiltration")
    ({ record with lastAlertTs := ts },
      .raise (makeAlert .warn record ts (ascii "COVERT CHANNEL! Tip: " ++ finding.detail) mitre
        tactic) none (some .waf))

def wafStage (engines : Engines) (ts : ℤ) : Stage := fun record =>
  match engines.waf with
  | none => (record, .pass)
  | some finding =>
    ({ record with lastAlertTs := ts },
      .raise (makeAlert .crit record finding.ts
        (ascii "WAF ALARM! Kategori: " ++ (finding.category ++ ascii " | Skor: " ++
          printInt finding.totalScore ++ ascii " | " ++ printInt finding.matchCount ++
          ascii " kural eslemesi")) (ascii "T1190") (ascii "Initial Access"))
        (some (ascii "T1190")) (some .waf))

def sqliStage (thresholds : Thresholds) (engines : Engines) (ts : ℤ) : Stage := fun record =>
  if engines.sqli then
    let hits := incrLong record.cnt.sqliHits
    let counted := { record with cnt := { record.cnt with sqliHits := hits } }
    if thresholds.sqliScore ≤ hits then
      afterCooldown thresholds ts counted
        (makeAlert .crit record ts (ascii "SQL INJECTION / PAYLOAD SALDIRISI! " ++
          (printInt hits ++ ascii " adet supheli istek.")) (ascii "T1190") (ascii "Initial Access"))
        (some (ascii "T1190")) (some .sqli)
    else (counted, .pass)
  else (record, .pass)

def lowSlowText (record : IpRecord) (ts : ℤ) : Bytes :=
  ascii "LOW & SLOW BRUTE FORCE! Son 300 sn'de " ++
    (numeral (windowCountSince record.window (ts - windowSeconds)) ++
      (ascii " istek + " ++ (printInt record.cnt.error4xx ++ ascii " hata.")))

def lowSlowAlert (record : IpRecord) (ts : ℤ) : AlertRecord :=
  makeAlert .crit record ts (lowSlowText record ts) (ascii "T1110") (ascii "Credential Access")

def lowSlowStage (thresholds : Thresholds) (ts : ℤ) : Stage := fun record =>
  if detectLowAndSlow thresholds record ts then
    afterCooldown thresholds ts record (lowSlowAlert record ts) (some (ascii "T1110"))
      (some .brute)
  else (record, .pass)

def ddosAlert (thresholds : Thresholds) (record : IpRecord) (ts : ℤ) : AlertRecord :=
  makeAlert .warn record ts (ascii "TRAFIK PATLAMASI (DDoS)! Son 1 sn'de " ++
    (numeral (windowCountSince record.window (ts - 1)) ++
      (ascii " istek (esik: " ++ (numeral thresholds.ddosRps ++ ascii ").")))) (ascii "T1498")
    (ascii "Impact")

def ddosStage (thresholds : Thresholds) (ts : ℤ) : Stage := fun record =>
  if thresholds.ddosRps ≤ windowCountSince record.window (ts - 1) then
    afterCooldown thresholds ts record (ddosAlert thresholds record ts) none none
  else (record, .pass)

def starvationStage (thresholds : Thresholds) (entry : LogEntry) : Stage := fun record =>
  if thresholds.slowRespMs < entry.responseMs then
    let slow := incrLong record.cnt.respSlow
    let counted := { record with cnt := { record.cnt with respSlow := slow } }
    if thresholds.slowHitCount ≤ slow then
      afterCooldown thresholds entry.ts counted
        (makeAlert .warn record entry.ts (ascii "KAYNAK TUKENMESI! Yanit " ++
          printInt entry.responseMs ++ ascii " ms (esik: " ++ printInt thresholds.slowRespMs ++
          ascii " ms). Toplam yavas: " ++ printInt slow) (ascii "T1499") (ascii "Impact")) none none
    else (counted, .pass)
  else (record, .pass)

def beaconingStage (thresholds : Thresholds) (engines : Engines) (ts : ℤ) : Stage := fun record =>
  if engines.beaconing then
    afterCooldown thresholds ts record
      (makeAlert .crit record ts (ascii "BEACONING TESPIT EDILDI! " ++
        (ascii "Istek araliklari makine hassasiyetinde sabit " ++ [0xe2, 0x80, 0x94] ++
          ascii " C2 bot/malware sinyali.")) (ascii "T1071.001") (ascii "Command & Control"))
      (some (ascii "T1071.001")) none
  else (record, .pass)

def baselineStage (thresholds : Thresholds) (engines : Engines) (ts : ℤ) : Stage := fun record =>
  match engines.baseline with
  | none => (record, .pass)
  | some reason =>
    if record.lastAlertTs = 0 ∨ thresholds.alertCooldownSec ≤ ts - record.lastAlertTs then
      ({ record with lastAlertTs := ts },
        .raise (makeAlert .crit record ts
          (if reason = [] then ascii "Endpoint baseline anomaly" else reason) (ascii "T1190")
          (ascii "Initial Access")) none (some .waf))
    else (record, .pass)

def endpointStage (thresholds : Thresholds) (url : Bytes) (ts : ℤ) : Stage := fun record =>
  let (abused, hits) := detectEndpointAbuse url thresholds.endpointLimits 0 record.cnt.endpointHits
  let counted := { record with cnt := { record.cnt with endpointHits := hits } }
  match abused with
  | none => (counted, .pass)
  | some limit =>
    afterCooldown thresholds ts counted
      (makeAlert .crit record ts (ascii "ENDPOINT ABUSE! Hedef: " ++ limit.path ++
        ascii ", Limit Asildi (" ++ printInt limit.limitRpm ++ ascii ")") (ascii "T1110")
        (ascii "Credential Access")) none none

def errorRateStage (thresholds : Thresholds) (ts : ℤ) : Stage := fun record =>
  let total := record.cnt.totalRequests
  let err4 := record.cnt.error4xx
  if 50 < total ∧ 50 < (err4 * 100).tdiv total then
    afterCooldown thresholds ts record
      (makeAlert .crit record ts (ascii "MANTIK HATASI TARAMASI: " ++ printInt err4 ++ ascii "/" ++
        printInt total ++ ascii " istek 4xx (%" ++ printInt ((err4 * 100).tdiv total) ++
        ascii "). Brute-force veya dir-scan suphesi.") (ascii "T1083") (ascii "Discovery")) none none
  else (record, .pass)

def mlStage (thresholds : Thresholds) (engines : Engines) (ts : ℤ) : Stage := fun record =>
  if 14 ≤ engines.mlScore then
    afterCooldown thresholds ts record
      (makeAlert .warn record ts (ascii "ML ANOMALI! EWMA Mahalanobis uzaklik yuksek " ++
        [0xe2, 0x80, 0x94] ++ ascii " ML skor: " ++ printInt engines.mlScore ++
        ascii ". Sessiz sapma / gizli saldiri olabilir.") (ascii "T1110")
        (ascii "Credential Access")) none none
  else (record, .pass)

def firstFinding : List Stage → Stage
  | [], record => (record, .pass)
  | stage :: rest, record =>
    match stage record with
    | (after, .pass) => firstFinding rest after
    | decided => decided

def earlyStages (thresholds : Thresholds) (engines : Engines) (ts : ℤ) : List Stage :=
  [aptStage engines ts, covertStage engines ts, wafStage engines ts,
   sqliStage thresholds engines ts]

def lateStages (thresholds : Thresholds) (engines : Engines) (url : Bytes) (entry : LogEntry) :
    List Stage :=
  [ddosStage thresholds entry.ts, starvationStage thresholds entry,
   beaconingStage thresholds engines entry.ts, baselineStage thresholds engines entry.ts,
   endpointStage thresholds url entry.ts, errorRateStage thresholds entry.ts,
   mlStage thresholds engines entry.ts]

def stages (thresholds : Thresholds) (engines : Engines) (url : Bytes) (entry : LogEntry) :
    List Stage :=
  earlyStages thresholds engines entry.ts ++
    lowSlowStage thresholds entry.ts :: lateStages thresholds engines url entry

/-- `anomaly_mesh_propagate` with a threat score of 800. -/
def anomalyMeshPropagate (mesh : Mesh) (alert : AlertRecord) (mitre : Bytes) : List Effect :=
  if alert.level ≠ .crit ∨ alert.ip = [] then []
  else
    match mesh.backend with
    | .none => []
    | .zmq => if mesh.pubSocket then [.publishZmq alert.ip mitre alert.message] else []
    | .etcd =>
      if mesh.etcdActive ∧ mesh.etcdMode ≠ 2 ∧ mesh.minThreatScore ≤ 800 then
        [.publishEtcd alert.ip mitre alert.message]
      else []

structure CheckResult where
  record : IpRecord
  alert : Option AlertRecord
  effects : List Effect
  deriving DecidableEq, Repr

/-- `anomaly_emit` and `ANOMALY_ALERT_RETURN`. -/
def anomalyEmit (trust : FpTrust) (record : IpRecord) (alert : AlertRecord)
    (signal : Option IncidentSignal) : CheckResult :=
  if fpTrustShouldSuppress trust record.ip alert then
    ⟨record, none, [.noteSuppressed record.ip]⟩
  else
    ⟨record, some alert,
      .noteAlert record.ip :: (signal.map (Effect.noteSignal record.ip)).toList⟩

def conclude (around : Surroundings) : IpRecord × Finding → CheckResult
  | (record, .raise alert propagate signal) =>
    let published := (propagate.map (anomalyMeshPropagate around.mesh alert)).getD []
    let emitted := anomalyEmit around.trust record alert signal
    { emitted with effects := published ++ emitted.effects }
  | (record, _) => ⟨record, none, []⟩

/-- `anomaly_check` on a request with the given URL. -/
def anomalyCheck (around : Surroundings) (engines : Engines) (url : Bytes) (record : IpRecord)
    (entry : LogEntry) : CheckResult :=
  if isWhitelisted around.rulesWhitelist record.ip then ⟨record, none, []⟩
  else conclude around (firstFinding (stages around.thresholds engines url entry) record)

end LogGuardian
