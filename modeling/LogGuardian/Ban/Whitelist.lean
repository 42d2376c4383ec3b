import LogGuardian.Ban.Producers

/-!
# The whitelist over whole runs

The pipeline compares the whitelist as text.
-/

namespace LogGuardian

universe u

/-- No address of the whitelist lies in the block. -/
def Spares (whitelist : List Bytes) (block : Option Block) : Prop :=
  ∀ named ∈ block, ∀ listed ∈ whitelist, ∀ address ∈ denotes listed, ¬named.Contains address

instance (whitelist : List Bytes) (block : Option Block) : Decidable (Spares whitelist block) := by
  unfold Spares
  infer_instance

/-- If the whitelist holds the IPv6 address of the text, it holds it in the same spelling. -/
def SpelledAlike (whitelist : List Bytes) (ip : Bytes) : Prop :=
  isIpv6Addr ip = true →
    ∀ address ∈ denotes ip, ∀ listed ∈ whitelist, denotes listed = some address → listed = ip

instance (whitelist : List Bytes) (ip : Bytes) : Decidable (SpelledAlike whitelist ip) := by
  unfold SpelledAlike
  infer_instance

def cidrBlock (text : Bytes) : Option Block :=
  (inetPton4 (ipcSplitCidr text).1).map fun bits => .v4 bits (ipcSplitCidr text).2

def namedBlock (text : Bytes) : Option Block :=
  if isIpv6Addr text then (inetPton6 (copyInto 46 text)).map .v6 else cidrBlock text

def xdpBlock (text : Bytes) : Option Block :=
  if isIpv6Addr text then (inetPton6 text).map .v6
  else (xdpKeyV4 text).map fun key => .v4 key.2 key.1

/-- The tracker holds a live entry for the subnet whose next alert is the twentieth. -/
def SubnetDue (subnets : List SubnetTrack) (subnet : Bytes) (now : ℤ) : Prop :=
  ∃ track ∈ subnets, track.stale now = false ∧ track.subnet = subnet ∧ 19 ≤ track.alertCount

section Runs

variable {State : Type u} (layers : Layers State)

/-- What a step must meet: texts for the pipeline are spelled as in the whitelist, texts that go
round it name no block with a whitelisted address. -/
def HonouringStep (analyzer : AnalyzerState State) : AnalyzerEvent → Prop
  | .caller _ books => SpelledAlike analyzer.whitelist books.record.ip
  | .apiBan ip | .fleetBan ip => SpelledAlike analyzer.whitelist ip
  | .fleetFeed payload => ∀ ip ∈ fleetFeedTokens payload, SpelledAlike analyzer.whitelist ip
  | .ja3Flush ips => ∀ ip ∈ ips, SpelledAlike analyzer.whitelist ip
  | .feedIoc allowBan useBanPipeline ip => allowBan = true →
      if useBanPipeline then SpelledAlike analyzer.whitelist ip
      else Spares analyzer.whitelist (namedBlock ip)
  | .mesh action ip => action = 0 → Spares analyzer.whitelist (namedBlock ip)
  | .etcdWatch jsonChunk =>
    ∀ ip ∈ processWatchEvent jsonChunk, Spares analyzer.whitelist (namedBlock ip)
  | .siemAlert ip now =>
    ∀ subnet ∈ subnetText ip, SubnetDue analyzer.subnets subnet now →
      Spares analyzer.whitelist (cidrBlock subnet)
  | .bootSync ips => ∀ ip ∈ ips, Spares analyzer.whitelist (xdpBlock ip)
  | .whitelistAdd _ | .whitelistRemove _ | .whitelistReload _ => True

/-- No request covers an address that was whitelisted when it was sent. -/
def AnalyzerState.Honours (analyzer : AnalyzerState State) : Prop :=
  ∀ entry ∈ analyzer.sent, Spares entry.1 entry.2.banBlock

variable {layers} {analyzer : AnalyzerState State}

variable {ip : Bytes} {address : Address} {whitelist ips : List Bytes} {state : State}
  {entry : Request × Bool} {message : IpcMessage}

theorem denotes_of_inetPton4 (noColon : isIpv6Addr ip = false) (named : denotes ip = some address) :
    ∃ bits, inetPton4 ip = some bits ∧ address = .v4 bits := by
  simp only [isIpv6Addr, decide_eq_false_iff_not] at noColon
  rcases parsed : inetPton4 ip with _ | bits
  · simp [denotes, parsed, inetPton6_of_no_colon noColon] at named
  · simp only [denotes, parsed, Option.some.injEq] at named
    exact ⟨bits, rfl, named.symm⟩

theorem mem_of_denotes_eq {listed : Bytes} (alike : SpelledAlike whitelist ip)
    (named : denotes ip = some address) (mem : listed ∈ whitelist)
    (same : denotes listed = some address) : ip ∈ whitelist := by
  rcases family : isIpv6Addr ip with _ | _
  · rcases denotes_of_inetPton4 family named with ⟨bits, parsed, rfl⟩
    have parsedListed : inetPton4 listed = some bits := by
      unfold denotes at same
      split at same
      · simp_all
      · simp [Option.map_eq_some_iff] at same
    rw [inetPton4_injective parsed parsedListed]
    exact mem
  · rw [← alike family address named listed mem same]
    exact mem

theorem Honours.record {log : List (Request × Bool)} (honours : analyzer.Honours)
    (spared : ∀ entry ∈ log, Spares analyzer.whitelist entry.1.banBlock) :
    (analyzer.record log state).Honours := by
  intro entry mem
  rcases List.mem_append.mp mem with old | new
  · exact honours entry old
  · rcases List.mem_map.mp new with ⟨logged, loggedMem, rfl⟩
    exact spared logged loggedMem

theorem spares_banPipelineBan (alike : SpelledAlike whitelist ip)
    (sent : entry ∈ (banPipelineBan layers (isWhitelistedIp whitelist) ip state).log) :
    Spares whitelist entry.1.banBlock := by
  rcases banBlock_banPipelineBan layers sent with ⟨valid, notListed, covers⟩
  intro block named listed mem address listedNames contains
  rw [covers] at named
  have names := denotes_of_hostBlock valid named contains
  have whitelisted := mem_of_denotes_eq alike names mem listedNames
  simp [isWhitelistedIp, whitelisted] at notListed

theorem Honours.pipeline (honours : analyzer.Honours) (alike : SpelledAlike analyzer.whitelist ip) :
    (analyzer.pipeline layers ip).Honours := by
  apply Honours.record honours
  intro entry sent
  exact spares_banPipelineBan alike sent

theorem Honours.direct (honours : analyzer.Honours)
    (spared : Spares analyzer.whitelist message.banBlock) :
    (analyzer.direct layers message).Honours := by
  apply Honours.record honours
  apply Attempt.forall_log_once (fun request : Request => Spares analyzer.whitelist request.banBlock)
  exact spared

theorem banBlock_daemonIpcBanIpv4 (ipCidr : Bytes) :
    (daemonIpcBanIpv4 ipCidr).banBlock = cidrBlock ipCidr := by
  have short : copyInto 46 (ipcSplitCidr ipCidr).1 = (ipcSplitCidr ipCidr).1 := by
    apply copyInto_of_length_lt
    have whole : (copyInto 46 ipCidr).length ≤ 45 := by simp [copyInto]
    have part : ((copyInto 46 ipCidr).takeWhile (· ≠ chr '/')).length ≤
        (copyInto 46 ipCidr).length := ( List.takeWhile_prefix _).length_le
    unfold ipcSplitCidr
    dsimp only
    split <;> dsimp only <;> omega
  simp [daemonIpcBanIpv4, ipcMessage, IpcMessage.banBlock, cidrBlock, short]

theorem banBlock_directBan (ip : Bytes) : (directBan ip).banBlock = namedBlock ip := by
  rcases family : isIpv6Addr ip with _ | _
  · simp only [directBan, namedBlock, family]
    exact banBlock_daemonIpcBanIpv4 ip
  · simp [directBan, family, daemonIpcBanIpv6, ipcMessage, IpcMessage.banBlock, namedBlock]

theorem spares_meshApply {action : ℕ} (spared : action = 0 → Spares whitelist (namedBlock ip))
    (applied : meshApply action ip = some message) : Spares whitelist message.banBlock := by
  unfold meshApply at applied
  split at applied
  · cases applied
    rw [banBlock_directBan]
    exact spared rfl
  · split at applied
    · cases applied
    · cases applied
      simp [Spares, IpcMessage.banBlock, daemonIpcTarpitIpv4, ipcMessage]
  · cases applied
    split <;> simp [Spares, IpcMessage.banBlock, daemonIpcUnbanIpv6, daemonIpcUnbanIpv4, ipcMessage]
  · cases applied

theorem subnetDue_of_siemTrackSubnetAlert {subnets : List SubnetTrack} {now : ℤ}
    (sent : (siemTrackSubnetAlert subnets ip now).2 = some message) :
    ∃ subnet, subnetText ip = some subnet ∧ SubnetDue subnets subnet now ∧
      message = daemonIpcBanIpv4 subnet := by
  unfold siemTrackSubnetAlert at sent
  rcases text : subnetText ip with _ | subnet
  · simp [text] at sent
  rw [text] at sent
  dsimp only at sent
  split at sent
  · rename_i index found
    rw [List.findIdx?_eq_some_iff_getElem] at found
    rcases found with ⟨bound, live, -⟩
    rw [List.getD_eq_getElem _ _ bound] at sent
    split at sent
    · simp only [Bool.and_eq_true, Bool.not_eq_true', decide_eq_true_eq] at live
      refine ⟨subnet, rfl, ⟨subnets[index], List.getElem_mem bound, live.1, live.2, by omega⟩, ?_⟩
      exact (Option.some.inj sent).symm
    · cases sent
  · split at sent <;> cases sent

theorem banBlock_tryXdpBan (sent : entry ∈ (tryXdpBan layers ip state).log) :
    entry.1.banBlock = xdpBlock ip := by
  unfold tryXdpBan at sent
  unfold xdpBlock
  split at sent
  · split at sent
    · rename_i family
      unfold xdpBanIpv6 at sent
      split at sent
      · rename_i address parsed
        split at sent
        · simp only [Attempt.once, List.mem_singleton] at sent
          simp [sent, Request.banBlock, family, parsed]
        · simp [Attempt.fail] at sent
      · simp [Attempt.fail] at sent
    · rename_i family
      unfold xdpBanIpv4 at sent
      split at sent
      · rename_i plen address parsed
        split at sent
        · simp only [Attempt.once, List.mem_singleton] at sent
          simp [sent, Request.banBlock, family, parsed]
        · simp [Attempt.fail] at sent
      · simp [Attempt.fail] at sent
  · simp [Attempt.fail] at sent

theorem Honours.xdpDirect (honours : analyzer.Honours)
    (spared : Spares analyzer.whitelist (xdpBlock ip)) :
    (analyzer.xdpDirect layers ip).Honours := by
  apply Honours.record honours
  intro entry sent
  rw [banBlock_tryXdpBan sent]
  exact spared

theorem Honours.foldl (Fit : List Bytes → Bytes → Prop)
    {handle : AnalyzerState State → Bytes → AnalyzerState State}
    (keeps : ∀ analyzer ip, (handle analyzer ip).whitelist = analyzer.whitelist)
    (honoured : ∀ analyzer ip, analyzer.Honours → Fit analyzer.whitelist ip →
      (handle analyzer ip).Honours) {analyzer : AnalyzerState State} (honours : analyzer.Honours)
    (fit : ∀ ip ∈ ips, Fit analyzer.whitelist ip) : (ips.foldl handle analyzer).Honours := by
  induction ips generalizing analyzer with
  | nil => exact honours
  | cons ip rest ih =>
    apply ih
    · exact honoured analyzer ip honours (fit ip (by simp))
    · intro later mem
      rw [keeps]
      exact fit later (by simp [mem])

theorem Honours.pipelines (honours : analyzer.Honours)
    (alike : ∀ ip ∈ ips, SpelledAlike analyzer.whitelist ip) :
    (ips.foldl (AnalyzerState.pipeline layers) analyzer).Honours := by
  apply Honours.foldl SpelledAlike _ _ honours alike
  · intro analyzer ip
    rfl
  · intro analyzer ip
    exact Honours.pipeline

theorem honours_analyzerStep {event : AnalyzerEvent} (honouring : HonouringStep analyzer event)
    (honours : analyzer.Honours) : (analyzerStep layers analyzer event).Honours := by
  cases event with
  | caller caller books =>
    apply Honours.record honours
    intro entry sent
    rcases log_run layers (isWhitelistedIp analyzer.whitelist) caller books analyzer.layers with
      silent | asked
    · rw [silent] at sent
      cases sent
    · rw [asked] at sent
      exact spares_banPipelineBan honouring sent
  | apiBan ip =>
    simp only [analyzerStep]
    split
    · exact Honours.pipeline honours honouring
    · exact honours
  | fleetBan ip =>
    simp only [analyzerStep]
    split
    · exact Honours.pipeline honours honouring
    · exact honours
  | fleetFeed payload => exact Honours.pipelines honours honouring
  | ja3Flush ips => exact Honours.pipelines honours honouring
  | feedIoc allowBan useBanPipeline ip =>
    simp only [analyzerStep]
    split
    · exact honours
    · rename_i allowed
      simp only [Bool.or_eq_true, Bool.not_eq_true', not_or, Bool.not_eq_false] at allowed
      have fit := honouring allowed.2
      split
      · rename_i piped
        rw [if_pos piped] at fit
        exact Honours.pipeline honours fit
      · rename_i piped
        rw [if_neg piped] at fit
        apply Honours.direct honours
        rw [banBlock_directBan]
        exact fit
  | mesh action ip =>
    simp only [analyzerStep]
    split
    · rename_i message applied
      exact Honours.direct honours (spares_meshApply honouring applied)
    · exact honours
  | etcdWatch jsonChunk =>
    simp only [analyzerStep]
    split
    · rename_i ip read
      apply Honours.direct honours
      rw [banBlock_directBan]
      exact honouring ip read
    · exact honours
  | siemAlert ip now =>
    simp only [analyzerStep]
    split
    · rename_i message sent
      rcases subnetDue_of_siemTrackSubnetAlert sent with ⟨subnet, text, due, rfl⟩
      have tracked : AnalyzerState.Honours
          { analyzer with subnets := (siemTrackSubnetAlert analyzer.subnets ip now).1 } := honours
      apply Honours.direct tracked
      rw [banBlock_daemonIpcBanIpv4]
      exact honouring subnet text due
    · exact honours
  | bootSync ips =>
    apply Honours.foldl (fun whitelist ip => Spares whitelist (xdpBlock ip)) _ _ honours honouring
    · intro analyzer ip
      rfl
    · intro analyzer ip
      exact Honours.xdpDirect
  | whitelistAdd ip => exact honours
  | whitelistRemove ip => exact honours
  | whitelistReload vals => exact honours

end Runs

def newAnalyzer (whitelist : List Bytes) : AnalyzerState Unit := ⟨whitelist, [], (), []⟩

def mixedRun : List AnalyzerEvent :=
  [.mesh 0 (ascii "198.51.100.4"), .fleetBan (ascii "203.0.113.7"),
    .whitelistAdd (ascii "198.51.100.4"), .apiBan (ascii "198.51.100.5")]

end LogGuardian
