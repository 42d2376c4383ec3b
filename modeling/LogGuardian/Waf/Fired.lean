import LogGuardian.Waf.Rules

/-!
# The rules that fire
-/

namespace LogGuardian

structure WafRule where
  fires : Bool
  entry : WafMatch
  deriving DecidableEq, Repr

def firedEntries (rules : List WafRule) : List WafMatch :=
  (rules.filter WafRule.fires).map WafRule.entry

def scanFires (enabled : Bool) (url body : Bytes) (patterns : List Bytes) : Bool :=
  enabled && (scanPatterns url patterns || scanPatterns body patterns)

def depthFires (enabled : Bool) (body : Bytes) : Bool :=
  enabled && decide (12 ≤ graphqlNestingDepth body)

def graphqlFires (enabled : Bool) (url body method : Bytes) : Bool :=
  enabled && (scanPatterns url graphqlPatterns || scanPatterns body graphqlPatterns ||
    ciContains method (ascii "graphql") || decide (12 ≤ graphqlNestingDepth body))

def payloadTable (cfg : WafConfig) (url body method : Bytes) : List WafRule :=
  [⟨scanFires (cfg.lfiEnabled || cfg.pathTravEnabled) url body lfiPatterns,
      .lfi, 8, "LFI/Path Traversal tespit edildi"⟩,
    ⟨scanFires cfg.rfiEnabled url body rfiPatterns, .rfi, 6, "Remote File Inclusion girişimi"⟩,
    ⟨scanFires cfg.ssrfEnabled url body ssrfPatterns,
      .ssrf, 9, "SSRF hedef IP/hostname tespit edildi"⟩,
    ⟨scanFires cfg.xxeEnabled url body xxePatterns,
      .xxe, 7, "XXE payload (DTD entity) tespit edildi"⟩,
    ⟨scanFires cfg.xssEnabled url body xssPatterns, .xss, 5, "XSS payload tespit edildi"⟩,
    ⟨scanFires cfg.methodAbuseEnabled url body nosqlPatterns,
      .methodAbuse, 8, "NoSQL operator injection tespit edildi"⟩,
    ⟨depthFires cfg.methodAbuseEnabled body, .methodAbuse, 9, "GraphQL depth limit abuse"⟩,
    ⟨graphqlFires cfg.methodAbuseEnabled url body method,
      .methodAbuse, 8, "GraphQL introspection veya API abuse"⟩,
    ⟨scanFires cfg.methodAbuseEnabled url body oauthAbusePatterns,
      .methodAbuse, 8, "OAuth/OIDC abuse (redirect_uri/PKCE)"⟩,
    ⟨scanFires cfg.shellcmdEnabled url body shellcmdPatterns,
      .shellcmd, 10, "OS komut enjeksiyonu imzasi"⟩,
    ⟨scanFires cfg.shellcmdEnabled url body javaRcePatterns,
      .shellcmd, 10, "Java/Template RCE (Spring4Shell/OGNL/Text4Shell/Log4Shell)"⟩,
    ⟨scanFires cfg.shellcmdEnabled url body modernRcePatterns,
      .shellcmd, 10, "Modern uygulama RCE (PHP-CGI/SpEL)"⟩,
    ⟨scanFires cfg.shellcmdEnabled url body enterpriseOgnlPatterns,
      .shellcmd, 10, "Enterprise OGNL (Confluence/Struts WebWork)"⟩]

def requestTable (cfg : WafConfig) (url userAgent method : Bytes) : List WafRule :=
  [⟨cfg.scannerDetectEnabled && scanPatterns userAgent scannerUaPatterns,
      .scanner, 7, "Bilinen saldiri tarayicisi User-Agent"⟩,
    ⟨cfg.scannerDetectEnabled && decide (userAgent = [chr '-']),
      .scanner, 3, "Bos User-Agent (bot/crawler imzasi)"⟩,
    ⟨cfg.methodAbuseEnabled &&
        abusedMethods.any (fun abused => method.map toLower = abused.map toLower),
      .methodAbuse, 4, "Kötüye kullanilan HTTP metodu"⟩,
    ⟨cfg.idorEnabled && detectIdorPattern url,
      .idor, 2, "Sayisal ID tarama pattern (IDOR adayi)"⟩]

/-- The matches of the rules of `waf_analyze` that fire, in the order of the code. -/
def wafFired (cfg : WafConfig) (url body userAgent method : Bytes) : List WafMatch :=
  if cfg.enabled then
    firedEntries (payloadTable cfg url body method ++ requestTable cfg url userAgent method)
  else []

def addEntry (r : WafResult) (entry : WafMatch) : WafResult :=
  addMatch r entry.category entry.score entry.reason

@[simp] theorem firedEntries_nil : firedEntries [] = [] := rfl

theorem firedEntries_append (first second : List WafRule) :
    firedEntries (first ++ second) = firedEntries first ++ firedEntries second := by
  simp [firedEntries]

theorem foldl_firedEntries_cons (rule : WafRule) (rules : List WafRule) (r : WafResult) :
    (firedEntries (rule :: rules)).foldl addEntry r =
      (firedEntries rules).foldl addEntry (if rule.fires then addEntry r rule.entry else r) := by
  by_cases fires : rule.fires = true
  · simp [firedEntries, fires]
  · simp [firedEntries, fires]

theorem graphqlRule_eq (enabled : Bool) (url body method : Bytes) (r : WafResult) :
    graphqlRule enabled url body method r =
      let r := if depthFires enabled body then
        addMatch r .methodAbuse 9 "GraphQL depth limit abuse" else r
      if graphqlFires enabled url body method then
        addMatch r .methodAbuse 8 "GraphQL introspection veya API abuse" else r := by
  rcases enabled with _ | _
  · simp [graphqlRule, depthFires, graphqlFires]
  · simp [graphqlRule, depthFires, graphqlFires]

theorem payloadRules_eq (cfg : WafConfig) (url body method : Bytes) :
    payloadRules cfg url body method =
      (firedEntries (payloadTable cfg url body method)).foldl addEntry {} := by
  simp only [payloadTable, foldl_firedEntries_cons]
  simp only [payloadRules, graphqlRule_eq]
  rfl

theorem requestRules_eq (cfg : WafConfig) (url userAgent method : Bytes) (r : WafResult) :
    idorRule cfg.idorEnabled url (methodRule cfg.methodAbuseEnabled method
        (scannerRule cfg.scannerDetectEnabled userAgent r)) =
      (firedEntries (requestTable cfg url userAgent method)).foldl addEntry r := by
  simp only [requestTable, foldl_firedEntries_cons]
  rw [scannerRule_eq]
  rcases cfg.scannerDetectEnabled with _ | _
  · rfl
  · simp only [Bool.true_and, decide_eq_true_eq]
    rfl

theorem wafAnalyze_eq_foldl (cfg : WafConfig) (url body userAgent method : Bytes) :
    wafAnalyze cfg url body userAgent method =
      (wafFired cfg url body userAgent method).foldl addEntry {} := by
  rcases enabled : cfg.enabled with _ | _
  · simp [wafAnalyze, wafFired, enabled]
  · simp only [wafAnalyze, wafFired, enabled, Bool.not_true, Bool.false_eq_true, if_false, if_true]
    rw [firedEntries_append, List.foldl_append, ← payloadRules_eq, ← requestRules_eq]

def scoreSum (entries : List WafMatch) : ℕ := (entries.map WafMatch.score).sum

theorem totalScore_foldl (entries : List WafMatch) (r : WafResult) :
    (entries.foldl addEntry r).totalScore = r.totalScore + scoreSum entries := by
  induction entries generalizing r with
  | nil => simp [scoreSum]
  | cons entry entries ih =>
    rw [List.foldl_cons, ih]
    simp [addEntry, addMatch, scoreSum, Nat.add_assoc]

theorem totalScore_wafAnalyze (cfg : WafConfig) (url body userAgent method : Bytes) :
    (wafAnalyze cfg url body userAgent method).totalScore =
      scoreSum (wafFired cfg url body userAgent method) := by
  rw [wafAnalyze_eq_foldl, totalScore_foldl]
  exact Nat.zero_add _

end LogGuardian
