import LogGuardian.Ban.Coverage
import LogGuardian.Ban.Recorded

/-!
# The producers of ban requests
-/

namespace LogGuardian

universe u

def isWhitelistedIp (whitelist : List Bytes) (ip : Bytes) : Bool := ip ∈ whitelist

def lgAddWhitelistIp (whitelist : List Bytes) (ip : Bytes) : List Bytes :=
  if !isValidIp ip || isWhitelistedIp whitelist ip || 256 ≤ whitelist.length then whitelist
  else whitelist ++ [copyInto ipStrLen ip]

def lgRemoveWhitelistIp (whitelist : List Bytes) (ip : Bytes) : List Bytes :=
  if isValidIp ip then whitelist.erase ip else whitelist

/-- The `WHITELIST_IP` lines of a rules file that is read again. -/
def rulesWhitelist (vals : List Bytes) : List Bytes := (vals.filter isValidIp).take 256

def directBan (ip : Bytes) : IpcMessage :=
  if isIpv6Addr ip then daemonIpcBanIpv6 ip else daemonIpcBanIpv4 ip

/-- The action of a `MeshThreatEvent` in `sub_thread_func`. -/
def meshApply (action : ℕ) (ip : Bytes) : Option IpcMessage :=
  match action with
  | 0 => some (directBan ip)
  | 1 => if isIpv6Addr ip then none else some (daemonIpcTarpitIpv4 ip 60)
  | 3 => some (if isIpv6Addr ip then daemonIpcUnbanIpv6 ip else daemonIpcUnbanIpv4 ip)
  | _ => none

def base64DecodeByte (byte : UInt8) : Option ℕ :=
  if chr 'A' ≤ byte ∧ byte ≤ chr 'Z' then some (byte.toNat - 65)
  else if chr 'a' ≤ byte ∧ byte ≤ chr 'z' then some (byte.toNat - 97 + 26)
  else if isDigit byte then some (digitValue byte + 52)
  else if byte = chr '+' then some 62
  else if byte = chr '/' then some 63
  else none

/-- `base64_decode` into a buffer with `room` bytes left. -/
def base64Decode : Bytes → ℕ → Bytes
  | first :: second :: third :: fourth :: rest, room =>
    if room ≤ 2 then []
    else
      match base64DecodeByte first, base64DecodeByte second with
      | some a, some b =>
        let c := if third = chr '=' then some 0 else base64DecodeByte third
        let d := if fourth = chr '=' then some 0 else base64DecodeByte fourth
        let low : UInt8 := ((a * 4 + b / 16) % 256).toUInt8
        let middle : UInt8 := match c with
          | some c => ((b % 16) * 16 + c / 4).toUInt8
          | none => 255
        let high : UInt8 := match c, d with
          | some c, some d => ((c % 4) * 64 + d).toUInt8
          | none, some d => (192 + d).toUInt8
          | _, none => 255
        let out := low :: ((if third = chr '=' then [] else [middle]) ++
          (if fourth = chr '=' then [] else [high]))
        out ++ base64Decode rest (room - out.length)
      | _, _ => []
  | _, _ => []

/-- The value of the first `"key":"…"` in a text, cut to a buffer. -/
def jsonGetStr (json key : Bytes) (outsize : ℕ) : Option Bytes :=
  let search := [chr '"'] ++ key ++ ascii "\":\""
  (findLit json search).map fun hit =>
    copyInto outsize ((hit.drop search.length).takeWhile (· ≠ chr '"'))

/-- `process_watch_event`: the address that an etcd watch response bans. -/
def processWatchEvent (jsonChunk : Bytes) : Option Bytes := do
  let b64 ← jsonGetStr jsonChunk (ascii "value") 512
  let value := (base64Decode b64 512).takeWhile (· ≠ 0)
  let ip ← jsonGetStr value (ascii "ip") 64
  if isIpv6Addr ip then (inetPton6 ip).map fun _ => ip else (inetPton4 ip).map fun _ => ip

structure SubnetTrack where
  subnet : Bytes := []
  alertCount : ℕ := 0
  lastAlert : ℤ := 0
  deriving DecidableEq, Repr

/-- `%d` of `sscanf`: the number and the rest of the text. -/
def scanDecimal (text : Bytes) : Option (ℤ × Bytes) :=
  let trimmed := text.dropWhile isSpace
  let digits :=
    if trimmed.head? = some (chr '-') ∨ trimmed.head? = some (chr '+') then trimmed.drop 1
    else trimmed
  if digits.takeWhile isDigit = [] then none
  else some (atoi text, digits.dropWhile isDigit)

/-- The text of the /24 network of an address: `sscanf` with `%d.%d.%d.`, then `snprintf`. -/
def subnetText (ip : Bytes) : Option Bytes := do
  let (a, afterA) ← scanDecimal ip
  let dotA ← expect (chr '.') afterA
  let (b, afterB) ← scanDecimal dotA
  let dotB ← expect (chr '.') afterB
  let (c, _) ← scanDecimal dotB
  return copyInto 32 (ascii (toString a ++ "." ++ toString b ++ "." ++ toString c ++ ".0/24"))

def SubnetTrack.stale (now : ℤ) (track : SubnetTrack) : Bool :=
  track.subnet = [] || 60 < now - track.lastAlert

/-- `siem_track_subnet_alert`: the table and the ban it sends on the twentieth alert. -/
def siemTrackSubnetAlert (subnets : List SubnetTrack) (ip : Bytes) (now : ℤ) :
    List SubnetTrack × Option IpcMessage :=
  match subnetText ip with
  | none => (subnets, none)
  | some subnet =>
    match subnets.findIdx? (fun track => !track.stale now && track.subnet = subnet) with
    | some index =>
      let track := subnets.getD index {}
      if 20 ≤ track.alertCount + 1 then
        (subnets.set index { track with alertCount := 0, lastAlert := now },
          some (daemonIpcBanIpv4 subnet))
      else
        (subnets.set index { track with alertCount := track.alertCount + 1, lastAlert := now },
          none)
    | none =>
      match subnets.findIdx? (fun track => track.stale now) with
      | some index => (subnets.set index ⟨copyInto 32 subnet, 1, now⟩, none)
      | none => (subnets, none)

/-- The tokens of a `PUSH_THREAT_FEED` payload up to the first that is no address. -/
def fleetFeedTokens (payload : Bytes) : List Bytes :=
  (((copyInto 512 payload).splitOnP fun byte =>
    byte = 32 || byte = chr ',' || byte = 9 || byte = 10).filter (· ≠ [])).takeWhile isValidIp

structure AnalyzerState (State : Type u) where
  whitelist : List Bytes
  subnets : List SubnetTrack
  layers : State
  sent : List (List Bytes × Request)

inductive AnalyzerEvent where
  | caller (caller : BanCaller) (books : BanBooks)
  | apiBan (ip : Bytes)
  | fleetBan (ip : Bytes)
  | fleetFeed (payload : Bytes)
  | ja3Flush (ips : List Bytes)
  | feedIoc (allowBan useBanPipeline : Bool) (ip : Bytes)
  | mesh (action : ℕ) (ip : Bytes)
  | etcdWatch (jsonChunk : Bytes)
  | siemAlert (ip : Bytes) (now : ℤ)
  | bootSync (ips : List Bytes)
  | whitelistAdd (ip : Bytes)
  | whitelistRemove (ip : Bytes)
  | whitelistReload (vals : List Bytes)

section Analyzer

variable {State : Type u} (layers : Layers State)

def AnalyzerState.record (analyzer : AnalyzerState State) (log : List (Request × Bool))
    (state : State) : AnalyzerState State :=
  { analyzer with
    layers := state
    sent := analyzer.sent ++ log.map fun entry => (analyzer.whitelist, entry.1) }

/-- A call of `ban_pipeline_ban` with the current whitelist. -/
def AnalyzerState.pipeline (analyzer : AnalyzerState State) (ip : Bytes) : AnalyzerState State :=
  let result := banPipelineBan layers (isWhitelistedIp analyzer.whitelist) ip analyzer.layers
  analyzer.record result.log result.state

def AnalyzerState.direct (analyzer : AnalyzerState State) (message : IpcMessage) :
    AnalyzerState State :=
  let answer := Attempt.once layers.send (.ipc message) analyzer.layers
  analyzer.record answer.log answer.state

/-- A row of `db_sync_xdp_bans`. -/
def AnalyzerState.xdpDirect (analyzer : AnalyzerState State) (ip : Bytes) : AnalyzerState State :=
  let answer := tryXdpBan layers ip analyzer.layers
  analyzer.record answer.log answer.state

def analyzerStep (analyzer : AnalyzerState State) : AnalyzerEvent → AnalyzerState State
  | .caller caller books =>
    let banning := caller.run layers (isWhitelistedIp analyzer.whitelist) books analyzer.layers
    analyzer.record banning.log banning.state
  | .apiBan ip | .fleetBan ip => if isValidIp ip then analyzer.pipeline layers ip else analyzer
  | .fleetFeed payload =>
    (fleetFeedTokens payload).foldl (AnalyzerState.pipeline layers) analyzer
  | .ja3Flush ips => ips.foldl (AnalyzerState.pipeline layers) analyzer
  | .feedIoc allowBan useBanPipeline ip =>
    if !isValidIp ip || !allowBan then analyzer
    else if useBanPipeline then analyzer.pipeline layers ip
    else analyzer.direct layers (directBan ip)
  | .mesh action ip =>
    match meshApply action ip with
    | some message => analyzer.direct layers message
    | none => analyzer
  | .etcdWatch jsonChunk =>
    match processWatchEvent jsonChunk with
    | some ip => analyzer.direct layers (directBan ip)
    | none => analyzer
  | .siemAlert ip now =>
    let tracked := { analyzer with subnets := (siemTrackSubnetAlert analyzer.subnets ip now).1 }
    match (siemTrackSubnetAlert analyzer.subnets ip now).2 with
    | some message => tracked.direct layers message
    | none => tracked
  | .bootSync ips => ips.foldl (AnalyzerState.xdpDirect layers) analyzer
  | .whitelistAdd ip => { analyzer with whitelist := lgAddWhitelistIp analyzer.whitelist ip }
  | .whitelistRemove ip => { analyzer with whitelist := lgRemoveWhitelistIp analyzer.whitelist ip }
  | .whitelistReload vals => { analyzer with whitelist := rulesWhitelist vals }

end Analyzer

end LogGuardian
