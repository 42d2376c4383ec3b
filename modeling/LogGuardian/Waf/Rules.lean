import LogGuardian.Api.Query

/-!
# The WAF rules

`waf_analyze` of `waf_rules.c` and `detect_sqli` of `anomaly.c`.
-/

namespace LogGuardian

structure WafConfig where
  enabled : Bool := true
  banThreshold : ℤ := 10
  lfiEnabled : Bool := true
  rfiEnabled : Bool := true
  pathTravEnabled : Bool := true
  ssrfEnabled : Bool := true
  xxeEnabled : Bool := true
  xssEnabled : Bool := true
  scannerDetectEnabled : Bool := true
  shellcmdEnabled : Bool := true
  methodAbuseEnabled : Bool := true
  idorEnabled : Bool := true
  deriving DecidableEq, Repr

inductive WafCategory where
  | none | lfi | rfi | pathTrav | ssrf | xxe | xss | scanner | methodAbuse | shellcmd | idor
  | schemaViolation | wasmBlock
  deriving DecidableEq, Repr

structure WafMatch where
  category : WafCategory
  score : ℕ
  reason : String
  deriving DecidableEq, Repr

structure WafResult where
  totalScore : ℕ := 0
  matched : List WafMatch := []
  dominant : WafCategory := .none
  deriving DecidableEq, Repr

def lfiPatterns : List Bytes :=
  ["../", "..\\", "%2e%2e%2f", "%2e%2e/", "..%2f", "%252e%252e", "..%5c", "%c0%ae", "....//",
    "/etc/passwd", "/etc/shadow", "/proc/self/environ", "/proc/self/cmdline", "/var/log/",
    "/boot/grub", "\\windows\\system32", "win.ini", "boot.ini"].map ascii

def rfiPatterns : List Bytes :=
  ["http://", "https://", "ftp://", "ftps://", "php://input", "php://filter", "data://",
    "expect://", "zip://", "glob://"].map ascii

def ssrfPatterns : List Bytes :=
  ["169.254.169.254", "metadata.google", "169.254.170.2", "localhost", "127.0.0.1", "::1",
    "0.0.0.0", "10.0.0.", "192.168.", "172.16.", "fd", "file:///", "dict://", "gopher://"].map ascii

def xxePatterns : List Bytes :=
  ["<!entity", "<!doctype", "system \"file", "system 'file", "system \"http", "system 'http",
    "%xxe;", "&xxe;", "SYSTEM"].map ascii

def xssPatterns : List Bytes :=
  ["<script", "</script>", "javascript:", "vbscript:", "onload=", "onerror=", "onfocus=",
    "onclick=", "onmouseover=", "ontoggle=", "onstart=", "alert(", "document.cookie",
    "document.write(", "eval(", "expression(", "fromcharcode(", "&#x", "%3cscript"].map ascii

def nosqlPatterns : List Bytes :=
  ["$gt", "$ne", "$where", "$regex", "$or", "$and", "$nin", "$exists", "$expr", "$jsonschema",
    "$elemmatch", "$text", "$comment", "$mod", "$size", "$all", "$type", "$in", "$not", "[$ne]",
    "[$gt]", "[$regex]", "[$where]"].map ascii

def graphqlPatterns : List Bytes :=
  ["__schema", "introspectionquery", "query \x7b", "mutation \x7b", "__typename", "/graphql",
    "application/graphql"].map ascii

def shellcmdPatterns : List Bytes :=
  [";ls ", ";cat ", ";id;", ";pwd", "|ls", "|cat", "|id", "|whoami", "`id`", "$(id)", "$(ls)",
    "/bin/sh", "/bin/bash", "cmd.exe", "powershell", "wget http", "curl http", "; ping",
    "&& ping"].map ascii

def javaRcePatterns : List Bytes :=
  ["class.module.classloader", ".class.classloader", "_memberaccess", "@ognl.", "getruntime",
    "processbuilder", "$\x7bjndi:", "$\x7bscript:", "$\x7bdns:", "$\x7burl:", "$\x7blower:",
    "$\x7bupper:", "$\x7benv:"].map ascii

def modernRcePatterns : List Bytes :=
  ["allow_url_include", "auto_prepend_file", "cgi.force_redirect", "t(java.lang.runtime",
    "t(java.lang.processbuilder", "#this.getclass(", "%23this.getclass("].map ascii

def enterpriseOgnlPatterns : List Bytes :=
  ["ognl.OgnlUtil", "com.opensymphony.xwork2", "webwork.util.ValueStack", "confluence.webwork",
    "DefaultMemberAccess"].map ascii

def oauthAbusePatterns : List Bytes :=
  ["redirect_uri=//evil", "redirect_uri=https://evil", "redirect_uri=http://evil",
    "code_challenge_method=plain", "response_type=token&redirect", "grant_type=password&username=",
    "/oauth/authorize?redirect_uri=http", "/oauth/token?grant_type=client"].map ascii

def scannerUaPatterns : List Bytes :=
  ["sqlmap", "nikto", "nessus", "openvas", "masscan", "nmap", "zgrab", "hydra", "medusa",
    "burpsuite", "dirbuster", "gobuster", "ffuf", "wfuzz", "acunetix", "appscan", "w3af", "havij",
    "pangolin", "python-requests", "go-http-client", "libwww-perl", "lwp-trivial", "java/", "curl/",
    "wget/", "scrapy", "nuclei"].map ascii

def abusedMethods : List Bytes :=
  ["TRACE", "TRACK", "CONNECT", "PROPFIND", "PROPPATCH", "MKCOL", "COPY", "MOVE", "LOCK", "UNLOCK",
    "SEARCH"].map ascii

def ciContains (haystack needle : Bytes) : Bool :=
  haystack ≠ [] && hasLit (haystack.map toLower) (needle.map toLower)

def scanPatterns (data : Bytes) (patterns : List Bytes) : Bool := patterns.any (ciContains data)

def graphqlNestingDepth (data : Bytes) : ℕ :=
  (data.foldl (fun (depth, deepest) byte =>
    if byte = chr '\x7b' then (depth + 1, max deepest (depth + 1))
    else if byte = chr '\x7d' then (depth - 1, deepest)
    else (depth, deepest)) (0, 0)).2

def detectIdorPattern (url : Bytes) : Bool :=
  4 ≤ url.length && (url.foldl (fun (run, hit) byte =>
    if isDigit byte then (run + 1, hit || 3 ≤ run + 1) else (0, hit)) (0, false)).2

/-- `add_match`: only the first eight matches are kept, every score counts. -/
def addMatch (r : WafResult) (cat : WafCategory) (score : ℕ) (reason : String) : WafResult where
  totalScore := r.totalScore + score
  matched := if r.matched.length < 8 then r.matched ++ [⟨cat, score, reason⟩] else r.matched
  dominant := if 0 < score then cat else r.dominant

def scanRule (enabled : Bool) (url body : Bytes) (patterns : List Bytes) (cat : WafCategory)
    (score : ℕ) (reason : String) (r : WafResult) : WafResult :=
  if enabled && (scanPatterns url patterns || scanPatterns body patterns) then
    addMatch r cat score reason
  else r

def graphqlRule (enabled : Bool) (url body method : Bytes) (r : WafResult) : WafResult :=
  if enabled then
    let hit := scanPatterns url graphqlPatterns || scanPatterns body graphqlPatterns ||
      ciContains method (ascii "graphql")
    let deep := 12 ≤ graphqlNestingDepth body
    let r := if deep then addMatch r .methodAbuse 9 "GraphQL depth limit abuse" else r
    if hit || deep then addMatch r .methodAbuse 8 "GraphQL introspection veya API abuse" else r
  else r

def scannerRule (enabled : Bool) (userAgent : Bytes) (r : WafResult) : WafResult :=
  if enabled && 0 < userAgent.length then
    let r :=
      if scanPatterns userAgent scannerUaPatterns then
        addMatch r .scanner 7 "Bilinen saldiri tarayicisi User-Agent"
      else r
    if userAgent = [] ∨ userAgent = [chr '-'] then
      addMatch r .scanner 3 "Bos User-Agent (bot/crawler imzasi)"
    else r
  else r

def methodRule (enabled : Bool) (method : Bytes) (r : WafResult) : WafResult :=
  if enabled && abusedMethods.any (fun abused => method.map toLower = abused.map toLower) then
    addMatch r .methodAbuse 4 "Kötüye kullanilan HTTP metodu"
  else r

def idorRule (enabled : Bool) (url : Bytes) (r : WafResult) : WafResult :=
  if enabled && detectIdorPattern url then
    addMatch r .idor 2 "Sayisal ID tarama pattern (IDOR adayi)"
  else r

def payloadRules (cfg : WafConfig) (url body method : Bytes) : WafResult :=
  let r : WafResult := {}
  let r := scanRule (cfg.lfiEnabled || cfg.pathTravEnabled) url body lfiPatterns .lfi 8
    "LFI/Path Traversal tespit edildi" r
  let r := scanRule cfg.rfiEnabled url body rfiPatterns .rfi 6 "Remote File Inclusion girişimi" r
  let r := scanRule cfg.ssrfEnabled url body ssrfPatterns .ssrf 9
    "SSRF hedef IP/hostname tespit edildi" r
  let r := scanRule cfg.xxeEnabled url body xxePatterns .xxe 7
    "XXE payload (DTD entity) tespit edildi" r
  let r := scanRule cfg.xssEnabled url body xssPatterns .xss 5 "XSS payload tespit edildi" r
  let r := scanRule cfg.methodAbuseEnabled url body nosqlPatterns .methodAbuse 8
    "NoSQL operator injection tespit edildi" r
  let r := graphqlRule cfg.methodAbuseEnabled url body method r
  let r := scanRule cfg.methodAbuseEnabled url body oauthAbusePatterns .methodAbuse 8
    "OAuth/OIDC abuse (redirect_uri/PKCE)" r
  let r := scanRule cfg.shellcmdEnabled url body shellcmdPatterns .shellcmd 10
    "OS komut enjeksiyonu imzasi" r
  let r := scanRule cfg.shellcmdEnabled url body javaRcePatterns .shellcmd 10
    "Java/Template RCE (Spring4Shell/OGNL/Text4Shell/Log4Shell)" r
  let r := scanRule cfg.shellcmdEnabled url body modernRcePatterns .shellcmd 10
    "Modern uygulama RCE (PHP-CGI/SpEL)" r
  scanRule cfg.shellcmdEnabled url body enterpriseOgnlPatterns .shellcmd 10
    "Enterprise OGNL (Confluence/Struts WebWork)" r

def wafAnalyze (cfg : WafConfig) (url body userAgent method : Bytes) : WafResult :=
  if !cfg.enabled then {}
  else
    let r := payloadRules cfg url body method
    let r := scannerRule cfg.scannerDetectEnabled userAgent r
    let r := methodRule cfg.methodAbuseEnabled method r
    idorRule cfg.idorEnabled url r

def wafShouldBan (cfg : WafConfig) (r : WafResult) : Bool :=
  cfg.enabled && cfg.banThreshold ≤ (r.totalScore : ℤ)

/-- The configuration, `pcre_engine_match`, and whether the Shannon entropy of a text is above the
threshold. -/
structure WafEngine where
  cfg : WafConfig := {}
  pcreEngineMatch : Bytes → Bool
  highEntropy : Bytes → Bool

def detectSqli (engine : WafEngine) (url body : Bytes) : Bool :=
  let decodedUrl := urlDecode (copyInto 8192 url)
  let params := (decodedUrl.dropWhile (· ≠ chr '?')).drop 1
  let decodedBody := urlDecode (copyInto 8192 body)
  (url ≠ [] && (engine.pcreEngineMatch decodedUrl ||
      (8 < params.length && engine.highEntropy params))) ||
    (body ≠ [] && (engine.pcreEngineMatch decodedBody ||
      (8 < decodedBody.length && engine.highEntropy decodedBody)))

/-- Two user agents that the scanner rule does not tell apart. -/
def SameAgentClass (first second : Bytes) : Prop :=
  scanPatterns first scannerUaPatterns = scanPatterns second scannerUaPatterns ∧
    (first = [chr '-'] ↔ second = [chr '-'])

instance (first second : Bytes) : Decidable (SameAgentClass first second) := by
  unfold SameAgentClass
  infer_instance

theorem scanPatterns_nil (patterns : List Bytes) : scanPatterns [] patterns = false := by
  simp [scanPatterns, ciContains]

theorem scannerRule_eq (enabled : Bool) (userAgent : Bytes) (r : WafResult) :
    scannerRule enabled userAgent r =
      if enabled = true then
        let r :=
          if scanPatterns userAgent scannerUaPatterns then
            addMatch r .scanner 7 "Bilinen saldiri tarayicisi User-Agent"
          else r
        if userAgent = [chr '-'] then
          addMatch r .scanner 3 "Bos User-Agent (bot/crawler imzasi)"
        else r
      else r := by
  rcases userAgent with _ | ⟨first, rest⟩
  · simp [scannerRule, scanPatterns_nil]
  · simp [scannerRule]

theorem wafAnalyze_congr {first second : Bytes} (same : SameAgentClass first second)
    (cfg : WafConfig) (url body method : Bytes) :
    wafAnalyze cfg url body first method = wafAnalyze cfg url body second method := by
  simp [wafAnalyze, scannerRule_eq, same.1, same.2]

end LogGuardian
