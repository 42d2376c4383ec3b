import LogGuardian.Ban.World

/-!
# Lifting a ban
-/

namespace LogGuardian

universe u

section Pipeline

variable {State : Type u} (layers : Layers State)

def xdpUnbanIpv4 (ip : Bytes) (state : State) : Attempt Request State :=
  match xdpKeyV4 ip with
  | some (plen, address) =>
    if layers.xdpMapV4 state then
      Attempt.once layers.send (.xdpDeleteV4 plen address) state
    else .fail state
  | none => .fail state

def xdpUnbanIpv6 (ip : Bytes) (state : State) : Attempt Request State :=
  match inetPton6 ip with
  | some address =>
    if layers.xdpMapV6 state then Attempt.once layers.send (.xdpDeleteV6 address) state
    else .fail state
  | none => .fail state

def daemonIpcPing (state : State) : Attempt Request State :=
  Attempt.retry layers.send (.ipc ⟨.ping, 0, [], 0⟩) 3 state

/-- The first half of `ban_pipeline_unban`. -/
def unbanXdp (ip : Bytes) (state : State) : State :=
  let ping := daemonIpcPing layers state
  if ping.ok then
    (layers.send
      (.ipc (if isIpv6Addr ip then daemonIpcUnbanIpv6 ip else daemonIpcUnbanIpv4 ip)) ping.state).2
  else if layers.xdpActive ping.state then
    (if isIpv6Addr ip then xdpUnbanIpv6 layers ip ping.state
      else xdpUnbanIpv4 layers ip ping.state).state
  else ping.state

/-- `ban_pipeline_unban`: the return code and the state. -/
def banPipelineUnban (ip : Bytes) (state : State) : ℤ × State :=
  if !isValidIp ip then (-1, state)
  else
    let del := layers.send (.ipset .del (isIpv6Addr ip) ip) (unbanXdp layers ip state)
    let test := layers.send (.ipset .test (isIpv6Addr ip) ip) del.2
    if test.1 then (-1, test.2) else (0, test.2)

end Pipeline

inductive WorldEvent where
  | ban (whitelist : List Bytes) (ip : Bytes)
  | unban (ip : Bytes)
  | request (request : Request)
  | synBanDaemon (source : BitVec 32)
  | synBanLocal (source : BitVec 32)
  | ipsetMember (block : Block)
  | environment (env : Environment)
  | daemonMapsReloaded
  | localMapsReloaded

def worldStep (world : World) : WorldEvent → World
  | .ban whitelist ip => (banPipelineBan worldLayers (· ∈ whitelist) ip world).state
  | .unban ip => (banPipelineUnban worldLayers ip world).2
  | .request request => (world.send request).2
  | .synBanDaemon source =>
    { world with
      daemonMaps := (CoverStore.update (xdpMapFull false) (lpmKey 32 source) world.daemonMaps).2 }
  | .synBanLocal source =>
    { world with
      localMaps := (CoverStore.update (xdpMapFull false) (lpmKey 32 source) world.localMaps).2 }
  | .ipsetMember block =>
    { world with ipset := (CoverStore.update (ipsetFull block.isV6) block world.ipset).2 }
  | .environment env => { world with env := env }
  | .daemonMapsReloaded => { world with daemonMaps := [] }
  | .localMapsReloaded => { world with localMaps := [] }

/-- The daemon carries out a request to lift the ban of an address. -/
def Environment.DaemonUnbans (env : Environment) (ip : Bytes) : Prop :=
  env.daemonUp = true ∧ env.authorized = true ∧ isReservedBanTarget ip = false

instance (env : Environment) (ip : Bytes) : Decidable (env.DaemonUnbans ip) := by
  unfold Environment.DaemonUnbans
  infer_instance

/-- Only the host entry of the address matches it, and only in a store that the call writes to: the
daemon's maps if the daemon is up and carries out the request, the local maps if it is down. -/
def UnbanReaches (world : World) (ip : Bytes) (address : Address) : Prop :=
  (∀ block ∈ world.daemonMaps, block.Contains address →
      (world.env.DaemonUnbans ip ∧ world.env.daemonLoaded (isIpv6Addr ip) = true) ∧
        some block = hostBlock ip) ∧
    (∀ block ∈ world.localMaps, block.Contains address →
      (world.env.daemonUp = false ∧ world.env.xdpActive = true ∧
        world.env.localLoaded (isIpv6Addr ip) = true) ∧ some block = hostBlock ip) ∧
      (world.env.ipset = false → ∀ block ∈ world.ipset, block.Contains address →
        (world.env.DaemonUnbans ip ∧ world.env.daemonIpset = true) ∧ some block = hostBlock ip)

section Proof

variable {world : World} {ip : Bytes} {host : Block}

theorem lpmKey_host (bits : BitVec 32) : lpmKey 32 bits = .v4 bits 32 := by
  rw [lpmKey, netmask_host, BitVec.and_allOnes]

theorem daemonIpcPing_world (world : World) :
    (daemonIpcPing worldLayers world).ok = world.env.daemonUp ∧
      (daemonIpcPing worldLayers world).state = world := by
  rcases up : world.env.daemonUp with _ | _ <;>
    simp [daemonIpcPing, Attempt.retry, Attempt.orElse, Attempt.once, Attempt.fail, worldLayers,
      World.send, handleClient, handleCommand, up]

theorem runIpsetIp_del {usable : Bool} {members : List Block} (named : hostBlock ip = some host) :
    (runIpsetIp usable .del (isIpv6Addr ip) ip members).2 =
      if usable = true then CoverStore.delete host members else members := by
  have family : familyHost (isIpv6Addr ip) ip = some host := named
  cases usable <;> simp [runIpsetIp, family]

theorem runIpsetIp_test {usable : Bool} {members : List Block} (named : hostBlock ip = some host) :
    runIpsetIp usable .test (isIpv6Addr ip) ip members =
      (usable && decide (CoverStore.Covered Block.Contains members host.base), members) := by
  have family : familyHost (isIpv6Addr ip) ip = some host := named
  cases usable <;> simp [runIpsetIp, family]

theorem doUnban_world (named : hostBlock ip = some host) :
    (doUnban (isIpv6Addr ip) (some host) ip world).2 =
      { world with
        daemonMaps :=
          if world.env.daemonLoaded (isIpv6Addr ip) = true then
            CoverStore.delete host world.daemonMaps
          else world.daemonMaps
        ipset :=
          if world.env.daemonIpset = true then CoverStore.delete host world.ipset
          else world.ipset } := by
  simp [doUnban, runIpsetIp_del named]

theorem send_unban (valid : isValidIp ip = true) (named : hostBlock ip = some host)
    (up : world.env.daemonUp = true) :
    (world.send
        (.ipc (if isIpv6Addr ip then daemonIpcUnbanIpv6 ip else daemonIpcUnbanIpv4 ip))).2 =
      if world.env.DaemonUnbans ip then (doUnban (isIpv6Addr ip) (some host) ip world).2
      else world := by
  have whole : copyInto 46 ip = ip := copyInto_of_isValidIp valid le_rfl
  rcases family : isIpv6Addr ip with _ | _
  · rcases inetPton4_of_valid valid family with ⟨bits, parsed⟩
    have hostIs : lpmKey 32 bits = host := by
      simpa [hostBlock, family, parsed, lpmKey_host] using named
    have split := ipcSplitCidr_of_inetPton4 parsed
    rcases authorized : world.env.authorized with _ | _ <;>
      rcases reserved : isReservedBanTarget ip with _ | _ <;>
        simp [World.send, handleClient, handleCommand, daemonIpcUnbanIpv4, ipcMessage, split, whole,
          ipcValidateBanIpv4, ipcClampV4Prefix, valid, family, parsed, reserved, up, authorized,
          Environment.DaemonUnbans, doUnbanV4, hostIs]
  · rcases inetPton6_of_valid valid family with ⟨bytes, parsed⟩
    have hostIs : Block.v6 bytes = host := by simpa [hostBlock, family, parsed] using named
    rcases authorized : world.env.authorized with _ | _ <;>
      rcases reserved : isReservedBanTarget ip with _ | _ <;>
        simp [World.send, handleClient, handleCommand, daemonIpcUnbanIpv6, ipcMessage, whole,
          ipcValidateBanIpv6, valid, family, parsed, reserved, up, authorized,
          Environment.DaemonUnbans, doUnbanV6, hostIs]

theorem xdpUnban_world (valid : isValidIp ip = true) (named : hostBlock ip = some host) :
    (if isIpv6Addr ip then xdpUnbanIpv6 worldLayers ip world
        else xdpUnbanIpv4 worldLayers ip world).state =
      if world.env.localLoaded (isIpv6Addr ip) = true then
        { world with localMaps := CoverStore.delete host world.localMaps }
      else world := by
  rcases family : isIpv6Addr ip with _ | _
  · rcases inetPton4_of_valid valid family with ⟨bits, parsed⟩
    have hostIs : lpmKey 32 bits = host := by
      simpa [hostBlock, family, parsed, lpmKey_host] using named
    rcases loaded : world.env.localV4 with _ | _ <;>
      simp [xdpUnbanIpv4, xdpKeyV4_of_inetPton4 parsed, worldLayers, Environment.localLoaded, loaded,
        Attempt.once, Attempt.fail, World.send, hostIs]
  · rcases inetPton6_of_valid valid family with ⟨bytes, parsed⟩
    have hostIs : Block.v6 bytes = host := by simpa [hostBlock, family, parsed] using named
    rcases loaded : world.env.localV6 with _ | _ <;>
      simp [xdpUnbanIpv6, parsed, worldLayers, Environment.localLoaded, loaded, Attempt.once,
        Attempt.fail, World.send, hostIs]

theorem unbanXdp_world (valid : isValidIp ip = true) (named : hostBlock ip = some host) :
    unbanXdp worldLayers ip world =
      { world with
        daemonMaps :=
          if world.env.DaemonUnbans ip ∧ world.env.daemonLoaded (isIpv6Addr ip) = true then
            CoverStore.delete host world.daemonMaps
          else world.daemonMaps
        localMaps :=
          if world.env.daemonUp = false ∧ world.env.xdpActive = true ∧
              world.env.localLoaded (isIpv6Addr ip) = true then
            CoverStore.delete host world.localMaps
          else world.localMaps
        ipset :=
          if world.env.DaemonUnbans ip ∧ world.env.daemonIpset = true then
            CoverStore.delete host world.ipset
          else world.ipset } := by
  rcases daemonIpcPing_world world with ⟨pingOk, pingState⟩
  simp only [unbanXdp, pingOk, pingState]
  rcases up : world.env.daemonUp with _ | _
  · have refuses : ¬world.env.DaemonUnbans ip := by simp [Environment.DaemonUnbans, up]
    have active : worldLayers.xdpActive world = world.env.xdpActive := rfl
    simp only [refuses, active, xdpUnban_world valid named]
    rcases world.env.xdpActive with _ | _ <;>
      rcases world.env.localLoaded (isIpv6Addr ip) with _ | _ <;> simp
  · have sent := send_unban valid named up
    simp only [worldLayers] at sent ⊢
    rw [sent]
    by_cases unbans : world.env.DaemonUnbans ip
    · simp [unbans, doUnban_world named]
    · simp [unbans]

theorem banPipelineUnban_world (valid : isValidIp ip = true) (named : hostBlock ip = some host) :
    banPipelineUnban worldLayers ip world =
      let reached := unbanXdp worldLayers ip world
      let members :=
        if world.env.ipset = true then CoverStore.delete host reached.ipset else reached.ipset
      (if world.env.ipset = true ∧ CoverStore.Covered Block.Contains members host.base then -1 else 0,
        { reached with ipset := members }) := by
  have sameEnv : (unbanXdp worldLayers ip world).env = world.env := by
    rw [unbanXdp_world valid named]
  simp only [banPipelineUnban, valid, Bool.not_true, Bool.false_eq_true, if_false, worldLayers,
    World.send, runIpsetIp_del named, runIpsetIp_test named]
  simp only [worldLayers] at sameEnv
  simp only [sameEnv, Bool.and_eq_true, decide_eq_true_eq]
  split_ifs <;> rfl

theorem base_of_denotes {address : Address} (valid : isValidIp ip = true)
    (named : hostBlock ip = some host) (means : denotes ip = some address) : host.base = address := by
  have contains : host.Contains host.base := by cases host <;> simp [Block.base, Block.Contains]
  have same := denotes_of_hostBlock valid named contains
  rw [means] at same
  exact (Option.some.inj same).symm

theorem hostBlock_of_isValidIp (valid : isValidIp ip = true) : ∃ host, hostBlock ip = some host := by
  rcases family : isIpv6Addr ip with _ | _
  · rcases inetPton4_of_valid valid family with ⟨bits, parsed⟩
    simp [hostBlock, family, parsed]
  · rcases inetPton6_of_valid valid family with ⟨bytes, parsed⟩
    simp [hostBlock, family, parsed]

theorem isValidIp_of_unban (success : (banPipelineUnban worldLayers ip world).1 = 0) :
    isValidIp ip = true := by
  rcases valid : isValidIp ip with _ | _
  · simp [banPipelineUnban, valid] at success
  · rfl

theorem not_matches_iff {address : Address} (means : denotes ip = some address)
    (success : (banPipelineUnban worldLayers ip world).1 = 0) :
    ¬(banPipelineUnban worldLayers ip world).2.Matches address ↔ UnbanReaches world ip address := by
  have valid := isValidIp_of_unban success
  rcases hostBlock_of_isValidIp valid with ⟨host, named⟩
  rw [banPipelineUnban_world valid named, unbanXdp_world valid named] at success ⊢
  rw [base_of_denotes valid named means] at success
  unfold World.Matches UnbanReaches
  simp only [not_or, named, Option.some.injEq]
  refine and_congr CoverStore.not_covered_delete_if (and_congr CoverStore.not_covered_delete_if ?_)
  rcases usable : world.env.ipset with _ | _
  · simp only [Bool.false_eq_true, if_false, true_imp_iff]
    exact CoverStore.not_covered_delete_if
  · simp only [usable, true_and] at success ⊢
    simp only [Bool.true_eq_false, false_imp_iff, iff_true]
    intro covered
    rw [if_pos covered] at success
    exact absurd success (by decide)

end Proof

/-- After any history, an address whose ban is lifted with success is matched by no store exactly
if the condition holds. -/
theorem unban_unmatches_iff (history : List WorldEvent) {ip : Bytes} {address : Address}
    (means : denotes ip = some address)
    (success : (banPipelineUnban worldLayers ip (Machine.run worldStep {} history)).1 = 0) :
    ¬(banPipelineUnban worldLayers ip (Machine.run worldStep {} history)).2.Matches address ↔
      UnbanReaches (Machine.run worldStep {} history) ip address :=
  not_matches_iff means success

/-- A host ban through the daemon, lifted through the daemon. -/
theorem unban_unmatches_after_daemon_ban :
    ¬(banPipelineUnban worldLayers (ascii "198.51.100.7")
        (Machine.run worldStep {} [.ban [] (ascii "198.51.100.7")])).2.Matches
          (.v4 0xC6336407#32) := by
  apply (unban_unmatches_iff [.ban [] (ascii "198.51.100.7")] (by decide) (by decide)).mpr
  unfold UnbanReaches
  decide

/-- The daemon is down when the address is banned, so the ban goes to the local map; it is up when
the ban is lifted, so the local map is not asked. -/
theorem unban_leaves_local_entry :
    (banPipelineUnban worldLayers (ascii "198.51.100.7")
        (Machine.run worldStep {}
          [.environment { daemonUp := false, xdpActive := true, localV4 := true },
            .ban [] (ascii "198.51.100.7"),
            .environment { daemonUp := true, xdpActive := true, localV4 := true }])).1 = 0 ∧
      (banPipelineUnban worldLayers (ascii "198.51.100.7")
        (Machine.run worldStep {}
          [.environment { daemonUp := false, xdpActive := true, localV4 := true },
            .ban [] (ascii "198.51.100.7"),
            .environment { daemonUp := true, xdpActive := true, localV4 := true }])).2.Matches
              (.v4 0xC6336407#32) := by
  decide

end LogGuardian
