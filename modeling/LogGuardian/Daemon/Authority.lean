import LogGuardian.Daemon.Client

/-!
# Authority over the daemon
-/

namespace LogGuardian

namespace Daemon

inductive Store where
  | blacklist | ipset | tarpitV4 | tarpitV6
  deriving DecidableEq, Repr

def entries (daemon : Daemon) : Store → List Block
  | .blacklist => daemon.world.daemonMaps
  | .ipset => daemon.world.ipset
  | .tarpitV4 => daemon.tarpitV4.map Prod.fst
  | .tarpitV6 => daemon.tarpitV6.map Prod.fst

/-- `g_running`. -/
def running (daemon : Daemon) : Bool := daemon.world.env.daemonUp

/-- Two states with the same stores and the same running flag. -/
def SameStores (daemon after : Daemon) : Prop :=
  after.world.daemonMaps = daemon.world.daemonMaps ∧ after.world.ipset = daemon.world.ipset ∧
    after.tarpitV4 = daemon.tarpitV4 ∧ after.tarpitV6 = daemon.tarpitV6 ∧
    after.running = daemon.running

/-- An entry for the address of a message that validation accepted. -/
def AcceptedEntry (message : ClientMessage) (entry : Block) : Prop :=
  (∃ plen address, ipcValidateBanIpv4 message.ip message.v4Prefix = some plen ∧
      inetPton4 message.ip = some address ∧ (entry = lpmKey plen address ∨ entry = .v4 address 32)) ∨
    ipcValidateBanIpv6 message.ip = true ∧ ∃ address, inetPton6 message.ip = some address ∧
      entry = .v6 address

/-- The message has the token that is configured. -/
def HasToken (auth : IpcAuth) (message : ClientMessage) : Prop :=
  message.authToken = auth.digest ∧ auth.digest ≠ 0

section Stores

variable {v6 : Bool} {key : Option Block} {ip : Bytes} {world : World} {entry : Block}

theorem mem_daemonMaps_doBan (mem : entry ∈ (doBan v6 key ip world).2.daemonMaps) :
    entry ∈ world.daemonMaps ∨ key = some entry := by
  unfold doBan at mem
  rcases loaded : world.env.daemonLoaded v6 with _ | _
  · rw [loaded] at mem
    exact Or.inl mem
  · rw [loaded] at mem
    rcases key with _ | key
    · exact Or.inl mem
    · rcases CoverStore.mem_of_mem_update mem with rfl | old
      · exact Or.inr rfl
      · exact Or.inl old

theorem mem_runIpsetIp_add {usable : Bool} {members : List Block}
    (mem : entry ∈ (runIpsetIp usable .add v6 ip members).2) :
    entry ∈ members ∨ familyHost v6 ip = some entry := by
  unfold runIpsetIp at mem
  split at mem
  · rename_i host named
    rcases CoverStore.mem_of_mem_update mem with rfl | old
    · exact Or.inr named
    · exact Or.inl old
  · exact Or.inl mem

theorem mem_ipset_doBan (mem : entry ∈ (doBan v6 key ip world).2.ipset) :
    entry ∈ world.ipset ∨ familyHost v6 ip = some entry := by
  unfold doBan at mem
  dsimp only at mem
  split at mem
  · exact Or.inl mem
  · exact mem_runIpsetIp_add mem

theorem running_doBan (v6 : Bool) (key : Option Block) (ip : Bytes) (world : World) :
    (doBan v6 key ip world).2.env.daemonUp = world.env.daemonUp := by
  unfold doBan
  dsimp only
  split <;> rfl

theorem mem_daemonMaps_doUnban (mem : entry ∈ (doUnban v6 key ip world).2.daemonMaps) :
    entry ∈ world.daemonMaps := by
  unfold doUnban at mem
  rcases key with _ | key
  · exact mem
  · dsimp only at mem
    split at mem
    · exact ((CoverStore.mem_delete entry).mp mem).1
    · exact mem

theorem mem_ipset_doUnban (mem : entry ∈ (doUnban v6 key ip world).2.ipset) :
    entry ∈ world.ipset := by
  unfold doUnban runIpsetIp at mem
  dsimp only at mem
  split at mem
  · exact ((CoverStore.mem_delete entry).mp mem).1
  · exact mem

theorem mem_tarpitUpdate {new : Block} {prob : UInt8} {entries : List (Block × UInt8)}
    (mem : entry ∈ (tarpitUpdate new prob entries).2.map Prod.fst) :
    entry ∈ entries.map Prod.fst ∨ entry = new := by
  unfold tarpitUpdate at mem
  split_ifs at mem with present full
  · rw [List.map_map] at mem
    rcases List.mem_map.mp mem with ⟨old, isOld, rfl⟩
    dsimp only [Function.comp]
    split
    · exact Or.inr rfl
    · exact Or.inl (List.mem_map_of_mem isOld)
  · exact Or.inl mem
  · rcases List.mem_cons.mp mem with same | old
    · exact Or.inr same
    · exact Or.inl old

end Stores

section Effects

variable {auth : IpcAuth} {uid : UInt32} {message : ClientMessage} {daemon after : Daemon}

theorem entries_onWorld {operation : World → Bool × World} {store : Store} {entry : Block}
    (maps : entry ∈ (operation daemon.world).2.daemonMaps →
      entry ∈ daemon.world.daemonMaps ∨ AcceptedEntry message entry)
    (members : entry ∈ (operation daemon.world).2.ipset →
      entry ∈ daemon.world.ipset ∨ AcceptedEntry message entry)
    (mem : entry ∈ (onWorld operation daemon).2.entries store) :
    entry ∈ daemon.entries store ∨ AcceptedEntry message entry := by
  cases store with
  | blacklist => exact maps mem
  | ipset => exact members mem
  | tarpitV4 => exact Or.inl mem
  | tarpitV6 => exact Or.inl mem

theorem Effect.mem_entries (effect : Effect auth uid message daemon after) {store : Store}
    {entry : Block} (mem : entry ∈ after.entries store) :
    entry ∈ daemon.entries store ∨ AcceptedEntry message entry := by
  cases effect with
  | none => exact Or.inl mem
  | @banV4 plen accepted =>
    refine entries_onWorld (fun inMaps => ?_) (fun inSet => ?_) mem
    · apply (mem_daemonMaps_doBan inMaps).imp_right
      intro named
      rcases Option.map_eq_some_iff.mp named with ⟨address, parsed, rfl⟩
      exact Or.inl ⟨plen, address, accepted, parsed, Or.inl rfl⟩
    · apply (mem_ipset_doBan inSet).imp_right
      intro named
      rcases Option.map_eq_some_iff.mp named with ⟨address, parsed, rfl⟩
      exact Or.inl ⟨plen, address, accepted, parsed, Or.inr rfl⟩
  | banV6 accepted =>
    have isAccepted : (inetPton6 message.ip).map Block.v6 = some entry →
        AcceptedEntry message entry := by
      intro named
      rcases Option.map_eq_some_iff.mp named with ⟨address, parsed, rfl⟩
      exact Or.inr ⟨accepted, address, parsed, rfl⟩
    refine entries_onWorld (fun inMaps => ?_) (fun inSet => ?_) mem
    · exact (mem_daemonMaps_doBan inMaps).imp_right isAccepted
    · exact (mem_ipset_doBan inSet).imp_right isAccepted
  | unbanV4 accepted =>
    exact entries_onWorld (fun inMaps => Or.inl (mem_daemonMaps_doUnban inMaps))
      (fun inSet => Or.inl (mem_ipset_doUnban inSet)) mem
  | unbanV6 accepted =>
    exact entries_onWorld (fun inMaps => Or.inl (mem_daemonMaps_doUnban inMaps))
      (fun inSet => Or.inl (mem_ipset_doUnban inSet)) mem
  | @tarpitV4 plen accepted =>
    unfold doTarpitV4 at mem
    split at mem
    · rename_i address loaded parsed
      cases store with
      | tarpitV4 =>
        apply (mem_tarpitUpdate mem).imp_right
        rintro rfl
        exact Or.inl ⟨plen, address, accepted, parsed, Or.inl rfl⟩
      | blacklist => exact Or.inl mem
      | ipset => exact Or.inl mem
      | tarpitV6 => exact Or.inl mem
    · exact Or.inl mem
  | tarpitV6 accepted =>
    unfold doTarpitV6 at mem
    split at mem
    · rename_i address loaded parsed
      cases store with
      | tarpitV6 =>
        apply (mem_tarpitUpdate mem).imp_right
        rintro rfl
        exact Or.inr ⟨accepted, address, parsed, rfl⟩
      | blacklist => exact Or.inl mem
      | ipset => exact Or.inl mem
      | tarpitV4 => exact Or.inl mem
    · exact Or.inl mem
  | shutdown cmd allowed => exact Or.inl (by cases store <;> exact mem)

theorem Effect.running_eq (effect : Effect auth uid message daemon after) :
    after.running = daemon.running ∨
      message.cmd = IpcCmd.code .shutdown ∧ auth.shutdownAllowed uid message.authToken = true := by
  cases effect with
  | shutdown cmd allowed => exact Or.inr ⟨cmd, allowed⟩
  | none => exact Or.inl rfl
  | banV4 accepted => exact Or.inl (running_doBan ..)
  | banV6 accepted => exact Or.inl (running_doBan ..)
  | unbanV4 accepted => exact Or.inl rfl
  | unbanV6 accepted => exact Or.inl rfl
  | tarpitV4 accepted =>
    unfold doTarpitV4
    split <;> exact Or.inl rfl
  | tarpitV6 accepted =>
    unfold doTarpitV6
    split <;> exact Or.inl rfl

theorem runCommand_ping (isPing : message.cmd = IpcCmd.code .ping) :
    (runCommand auth uid message daemon).daemon = daemon := by
  unfold runCommand
  rw [isPing]
  rfl

end Effects

def clientStep (auth : IpcAuth) (daemon : Daemon) (client : Client) : Daemon :=
  (handleClient auth client daemon).2

section Steps

variable {auth : IpcAuth} {client : Client} {daemon : Daemon}

theorem clientStep_cases (required : auth.required = true) :
    (∃ dirty, clientStep auth daemon client = { daemon with bansJsonDirty := dirty }) ∨
      ∃ message after dirty, recvMessage client.bytes = some message ∧
        HasToken auth message ∧ Effect auth client.uid message daemon after ∧
        clientStep auth daemon client = { after with bansJsonDirty := dirty } := by
  rcases handleClient_cases auth client daemon with
    same | ⟨message, dirty, received, passed, result⟩
  · exact Or.inl ⟨daemon.bansJsonDirty, same⟩
  · rcases passed with isPing | valid
    · rw [runCommand_ping isPing] at result
      exact Or.inl ⟨dirty, result⟩
    · exact Or.inr ⟨message, _, dirty, received, IpcAuth.token_eq_digest required valid,
        effect_runCommand, result⟩

theorem authorized_of_clientStep (required : auth.required = true)
    (changes : ¬SameStores daemon (clientStep auth daemon client)) :
    ∃ message, recvMessage client.bytes = some message ∧ HasToken auth message := by
  rcases clientStep_cases required with ⟨dirty, result⟩ | ⟨message, after, dirty, received, token, -, -⟩
  · rw [result] at changes
    exact absurd ⟨rfl, rfl, rfl, rfl, rfl⟩ changes
  · exact ⟨message, received, token⟩

theorem shutdown_of_clientStep (required : auth.required = true) (runs : daemon.running = true)
    (stops : (clientStep auth daemon client).running = false) :
    ∃ message, recvMessage client.bytes = some message ∧
      message.cmd = IpcCmd.code .shutdown ∧ HasToken auth message ∧ client.uid = 0 := by
  rcases clientStep_cases required with
    ⟨dirty, result⟩ | ⟨message, after, dirty, received, token, effect, result⟩
  · rw [result] at stops
    exact absurd (runs.symm.trans stops) (by decide)
  · rw [result] at stops
    rcases effect.running_eq with same | ⟨cmd, allowed⟩
    · exact absurd (runs.symm.trans (same.symm.trans stops)) (by decide)
    · refine ⟨message, received, cmd, token, ?_⟩
      simp only [IpcAuth.shutdownAllowed, Bool.and_eq_true, decide_eq_true_eq] at allowed
      exact allowed.1

theorem mem_entries_clientStep (required : auth.required = true) {store : Store} {entry : Block}
    (mem : entry ∈ (clientStep auth daemon client).entries store) :
    entry ∈ daemon.entries store ∨
      ∃ message, recvMessage client.bytes = some message ∧ HasToken auth message ∧
        AcceptedEntry message entry := by
  rcases clientStep_cases required with
    ⟨dirty, result⟩ | ⟨message, after, dirty, received, token, effect, result⟩
  · rw [result] at mem
    exact Or.inl (by cases store <;> exact mem)
  · rw [result] at mem
    have inAfter : entry ∈ after.entries store := by
      cases store <;> exact mem
    exact (effect.mem_entries inAfter).imp_right fun accepted => ⟨message, received, token, accepted⟩

theorem mem_entries_run (required : auth.required = true) {clients : List Client} {store : Store}
    {entry : Block} (mem : entry ∈ (Machine.run (clientStep auth) daemon clients).entries store) :
    entry ∈ daemon.entries store ∨
      ∃ client ∈ clients, ∃ message, recvMessage client.bytes = some message ∧
        HasToken auth message ∧ AcceptedEntry message entry := by
  induction clients generalizing daemon with
  | nil => exact Or.inl mem
  | cons client clients ih =>
    rcases ih mem with before | ⟨later, isLater, accepted⟩
    · apply (mem_entries_clientStep required before).imp_right
      intro accepted
      exact ⟨client, by simp, accepted⟩
    · exact Or.inr ⟨later, by simp [isLater], accepted⟩

end Steps

/-- Over every sequence of clients with any bytes and any credentials, while authentication is
required: the stores and the running flag change only for a whole message with the configured
digest, the flag is cleared only by such a shutdown from root, and every entry of every store was
there at the start or was validated. -/
theorem command_authority (auth : IpcAuth) (required : auth.required = true) (initial : Daemon)
    (clients : List Client) :
    (∀ before client, before ++ [client] <+: clients →
        let daemon := Machine.run (clientStep auth) initial before
        let next := clientStep auth daemon client
        (¬SameStores daemon next → ∃ message, recvMessage client.bytes = some message ∧
            HasToken auth message) ∧
          (daemon.running = true → next.running = false →
            ∃ message, recvMessage client.bytes = some message ∧
              message.cmd = IpcCmd.code .shutdown ∧ HasToken auth message ∧
              client.uid = 0)) ∧
      ∀ store entry, entry ∈ (Machine.run (clientStep auth) initial clients).entries store →
        entry ∈ initial.entries store ∨
          ∃ client ∈ clients, ∃ message, recvMessage client.bytes = some message ∧
            HasToken auth message ∧ AcceptedEntry message entry := by
  refine ⟨?_, fun store entry mem => mem_entries_run required mem⟩
  intro before client _ daemon next
  refine ⟨fun changes => authorized_of_clientStep required changes, ?_⟩
  intro runs stops
  exact shutdown_of_clientStep required runs stops


def addressMessage (cmd : IpcCmd) (ip : Bytes) (plen prob : UInt8) (token : UInt64) :
    ClientMessage where
  cmd := cmd.code
  plen := plen
  ip := ip
  prob := prob
  authToken := token

def addressClient (cmd : IpcCmd) (ip : Bytes) (plen prob : UInt8) (token : UInt64)
    (credentials : Option (UInt32 × UInt32)) : Client where
  credentials := credentials
  bytes := (addressMessage cmd ip plen prob token).bytes

def sampleAuth : IpcAuth where
  prod := some (ascii "1")
  token := some (ascii "secret")
  sha _ := 7
  inGroup _ _ := false

/-- A ban by a client that is not root. -/
theorem command_authority_of_ban :
    let client := addressClient .banV4 (ascii "203.0.113.9") 32 0 7 (some (1000, 1000))
    let host : Block := .v4 0xcb007109 32
    sampleAuth.required = true ∧
      host ∈ (Machine.run (clientStep sampleAuth) {} [client]).entries .blacklist ∧
      ∃ sender ∈ [client], ∃ message, recvMessage sender.bytes = some message ∧
        HasToken sampleAuth message ∧ AcceptedEntry message host := by
  intro client host
  have required : sampleAuth.required = true := by
    decide +kernel
  have banned : host ∈ (Machine.run (clientStep sampleAuth) {} [client]).entries .blacklist := by
    decide +kernel
  have explained := (command_authority sampleAuth required {} [client]).2 .blacklist host banned
  exact ⟨required, banned, explained.resolve_left (by decide)⟩

/-- The tarpit entry is gone and the other two stores are as they were. -/
def TarpitUndone (key : Block) (daemon after : Daemon) : Prop :=
  key ∉ after.entries .tarpitV4 ∧ after.entries .blacklist = daemon.entries .blacklist ∧
    after.entries .ipset = daemon.entries .ipset

theorem recvMessage_addressClient {ip : Bytes} {address : BitVec 32}
    (parsed : inetPton4 ip = some address) (cmd : IpcCmd) (plen prob : UInt8) (token : UInt64)
    (credentials : Option (UInt32 × UInt32)) :
    recvMessage (addressClient cmd ip plen prob token credentials).bytes =
      some (addressMessage cmd ip plen prob token) := by
  have short := length_le_of_inetPton4 parsed
  apply recvMessage_bytes
  · show ip.length ≤ 45
    omega
  · intro nul
    rcases mem_of_inetPton4 parsed nul with digit | dot
    · exact absurd digit (by decide)
    · exact absurd dot (by decide)

theorem mem_tarpitUpdate_self {key : Block} {prob : UInt8} {entries : List (Block × UInt8)}
    (takes : (tarpitUpdate key prob entries).1 = true) :
    key ∈ (tarpitUpdate key prob entries).2.map Prod.fst := by
  unfold tarpitUpdate at takes ⊢
  split_ifs at takes ⊢ with present full
  · rcases List.mem_map.mp present with ⟨old, isOld, rfl⟩
    rw [List.map_map]
    exact List.mem_map.mpr ⟨old, isOld, by simp⟩
  · simp

section Tarpit

variable {auth : IpcAuth} {daemon : Daemon} {ip : Bytes} {plen prob : UInt8} {token : UInt64}
  {credentials : Option (UInt32 × UInt32)} {clamped : ℕ} {address : BitVec 32}

theorem doTarpitV4_of_loaded (loaded : daemon.tarpitV4Loaded = true)
    (parsed : inetPton4 ip = some address) :
    (doTarpitV4 ip prob clamped daemon).2 =
      { daemon with
        tarpitV4 := (tarpitUpdate (lpmKey clamped address) prob daemon.tarpitV4).2 } := by
  unfold doTarpitV4
  rw [loaded, parsed]

theorem doUnbanV4_of_loaded {world : World} (parsed : inetPton4 ip = some address)
    (mapLoaded : world.env.daemonV4 = true) (ipsetUsable : world.env.daemonIpset = true) :
    (doUnbanV4 ip clamped world).2 =
      { world with
        daemonMaps := CoverStore.delete (lpmKey clamped address) world.daemonMaps
        ipset := CoverStore.delete (.v4 address 32) world.ipset } := by
  simp [doUnbanV4, doUnban, parsed, Environment.daemonLoaded, mapLoaded, runIpsetIp, ipsetUsable,
    familyHost]

theorem tarpitStart_result (accepted : ipcValidateBanIpv4 ip plen.toNat = some clamped)
    (parsed : inetPton4 ip = some address) (valid : auth.validateMessage token = true)
    (loaded : daemon.tarpitV4Loaded = true) :
    let started :=
      clientStep auth daemon (addressClient .tarpitStart ip plen prob token credentials)
    started.world = daemon.world ∧
      started.tarpitV4 = (tarpitUpdate (lpmKey clamped address) prob daemon.tarpitV4).2 := by
  intro started
  have received := recvMessage_addressClient parsed .tarpitStart plen prob token credentials
  rcases handleClient_of_valid received valid daemon with ⟨dirty, result⟩
  have carried : ∀ uid,
      (runCommand auth uid (addressMessage .tarpitStart ip plen prob token) daemon).daemon =
        (doTarpitV4 ip prob clamped daemon).2 := fun _ => daemon_onValidV4 accepted _ _ _
  rw [carried, doTarpitV4_of_loaded loaded parsed] at result
  have isStarted : started = _ := result
  rw [isStarted]
  exact ⟨rfl, rfl⟩

theorem tarpitStop_result (accepted : ipcValidateBanIpv4 ip plen.toNat = some clamped)
    (parsed : inetPton4 ip = some address) (valid : auth.validateMessage token = true)
    (mapLoaded : daemon.world.env.daemonV4 = true)
    (ipsetUsable : daemon.world.env.daemonIpset = true) :
    let after := clientStep auth daemon (addressClient .tarpitStop ip plen prob token credentials)
    after.tarpitV4 = daemon.tarpitV4 ∧
      after.world.daemonMaps = CoverStore.delete (lpmKey clamped address) daemon.world.daemonMaps ∧
      after.world.ipset = CoverStore.delete (.v4 address 32) daemon.world.ipset := by
  intro after
  have received := recvMessage_addressClient parsed .tarpitStop plen prob token credentials
  rcases handleClient_of_valid received valid daemon with ⟨dirty, result⟩
  have carried : ∀ uid,
      (runCommand auth uid (addressMessage .tarpitStop ip plen prob token) daemon).daemon =
        (onWorld (doUnbanV4 ip clamped) daemon).2 := fun _ => daemon_onValidV4 accepted _ _ _
  rw [carried, onWorld, doUnbanV4_of_loaded parsed mapLoaded ipsetUsable] at result
  have isAfter : after = _ := result
  rw [isAfter]
  exact ⟨rfl, rfl, rfl⟩

end Tarpit

/-- However a tarpit is started and stopped, its entry stays in the tarpit map, and the stop takes
the block of the address out of the blacklist and its host out of the set. -/
theorem tarpitStop_never_undoes (auth : IpcAuth) (daemon : Daemon) (ip : Bytes)
    (plen prob stopProb : UInt8) (startToken stopToken : UInt64)
    (startPeer stopPeer : Option (UInt32 × UInt32)) {clamped : ℕ} {address : BitVec 32}
    (accepted : ipcValidateBanIpv4 ip plen.toNat = some clamped)
    (parsed : inetPton4 ip = some address)
    (startValid : auth.validateMessage startToken = true)
    (stopValid : auth.validateMessage stopToken = true)
    (tarpitLoaded : daemon.tarpitV4Loaded = true)
    (takes : (tarpitUpdate (lpmKey clamped address) prob daemon.tarpitV4).1 = true)
    (mapLoaded : daemon.world.env.daemonV4 = true)
    (ipsetUsable : daemon.world.env.daemonIpset = true) :
    let started := clientStep auth daemon (addressClient .tarpitStart ip plen prob startToken startPeer)
    let after := clientStep auth started (addressClient .tarpitStop ip plen stopProb stopToken stopPeer)
    ¬TarpitUndone (lpmKey clamped address) daemon after ∧
      (after.entries .blacklist = daemon.entries .blacklist ↔
        lpmKey clamped address ∉ daemon.entries .blacklist) ∧
      (after.entries .ipset = daemon.entries .ipset ↔
        .v4 address 32 ∉ daemon.entries .ipset) := by
  intro started after
  rcases tarpitStart_result accepted parsed startValid tarpitLoaded with ⟨world, tarpit⟩
  rcases tarpitStop_result accepted parsed stopValid (world ▸ mapLoaded) (world ▸ ipsetUsable) with
    ⟨tarpitAfter, maps, members⟩
  refine ⟨?_, ?_, ?_⟩
  · intro undone
    apply undone.1
    show _ ∈ after.tarpitV4.map Prod.fst
    rw [tarpitAfter, tarpit]
    exact mem_tarpitUpdate_self takes
  · show after.world.daemonMaps = daemon.world.daemonMaps ↔ _ ∉ daemon.world.daemonMaps
    rw [maps, world, CoverStore.delete_eq_self_iff]
  · show after.world.ipset = daemon.world.ipset ↔ _ ∉ daemon.world.ipset
    rw [members, world, CoverStore.delete_eq_self_iff]

/-- A tarpit for an address that is banned as well: after the stop it is still in the tarpit, and
the ban is gone. -/
theorem tarpitStop_lifts_ban :
    let host : Block := .v4 0xcb007109 32
    let daemon : Daemon := { world := { daemonMaps := [host], ipset := [host] } }
    let started := clientStep sampleAuth daemon
      (addressClient .tarpitStart (ascii "203.0.113.9") 32 50 7 (some (0, 0)))
    let after := clientStep sampleAuth started
      (addressClient .tarpitStop (ascii "203.0.113.9") 32 0 7 (some (0, 0)))
    after.tarpitV4 = [(host, 50)] ∧ after.world.daemonMaps = [] ∧ after.world.ipset = [] ∧
      ¬TarpitUndone host daemon after := by
  intro host daemon started after
  refine ⟨by decide +kernel, by decide +kernel, by decide +kernel, ?_⟩
  intro undone
  exact undone.1 (by decide +kernel)

theorem tarpitStop_never_undoes_sample :
    let ip := ascii "203.0.113.9"
    let key := lpmKey 24 0xcb007109
    let started := clientStep sampleAuth {} (addressClient .tarpitStart ip 24 50 7 none)
    let after := clientStep sampleAuth started (addressClient .tarpitStop ip 24 0 7 none)
    ipcValidateBanIpv4 ip 24 = some 24 ∧ sampleAuth.validateMessage 7 = true ∧
      ¬TarpitUndone key {} after ∧ after.entries .blacklist = [] := by
  intro ip key started after
  have accepted : ipcValidateBanIpv4 ip (24 : UInt8).toNat = some 24 := by
    decide +kernel
  have parsed : inetPton4 ip = some 0xcb007109 := by
    decide +kernel
  have valid : sampleAuth.validateMessage 7 = true := by
    decide +kernel
  have result := tarpitStop_never_undoes sampleAuth {} ip 24 50 0 7 7 none none accepted parsed valid
    valid rfl (by decide +kernel) rfl rfl
  exact ⟨accepted, valid, result.1, result.2.1.mpr (by decide)⟩

end Daemon

end LogGuardian
