import LogGuardian.Ban.Reserved

/-!
# The trie and the set
-/

namespace LogGuardian

/-- An IPC message with `IPC_CMD_BAN_V4` or `IPC_CMD_UNBAN_V4`. -/
structure V4Message where
  unban : Bool
  ip : Bytes
  plen : ℕ
  deriving DecidableEq, Repr

def V4Message.toIpc (message : V4Message) : IpcMessage where
  cmd := if message.unban then .unbanV4 else .banV4
  plen := message.plen
  ip := message.ip

def v4Step (world : World) (message : V4Message) : World := (handleClient message.toIpc world).2

def V4Message.target (message : V4Message) : Option (Block × BitVec 32) :=
  match ipcValidateBanIpv4 message.ip message.plen, inetPton4 message.ip with
  | some plen, some address => some (lpmKey plen address, address)
  | _, _ => none

/-- The daemon runs with its map and its set, and both take what a ban adds. -/
def BackendsSucceed (world : World) (message : V4Message) : Prop :=
  (world.env.daemonUp = true ∧ world.env.authorized = true ∧ world.env.daemonV4 = true ∧
    world.env.daemonIpset = true) ∧
    (message.unban = false → ∀ target ∈ message.target,
      (CoverStore.update (xdpMapFull false) target.1 world.daemonMaps).1 = true ∧
        (CoverStore.update (ipsetFull false) (.v4 target.2 32) world.ipset).1 = true)

instance (world : World) (message : V4Message) : Decidable (BackendsSucceed world message) := by
  unfold BackendsSucceed
  infer_instance

def World.DroppedByXdp (world : World) (bits : BitVec 32) : Prop :=
  CoverStore.Covered Block.Contains world.daemonMaps (.v4 bits)

def World.MatchedByIpset (world : World) (bits : BitVec 32) : Prop :=
  CoverStore.Covered Block.Contains world.ipset (.v4 bits)

def StoresAgree (world : World) : Prop :=
  ∀ bits, world.DroppedByXdp bits ↔ world.MatchedByIpset bits

/-- IPv4 members of the set are single addresses. -/
def HostMembers (world : World) : Prop :=
  ∀ network plen, .v4 network plen ∈ world.ipset → plen = 32

/-- What a message has to meet. -/
def KeepsAgreement (world : World) (message : V4Message) : Prop :=
  ∀ key address, message.target = some (key, address) →
    if message.unban then
      (∀ other ∈ world.daemonMaps, other.Contains (.v4 address) → other = key) ∧
        (key ∈ world.daemonMaps → ∀ bits, key.Contains (.v4 bits) → bits ≠ address →
          ∃ other ∈ world.daemonMaps, other ≠ key ∧ other.Contains (.v4 bits))
    else ∀ bits, key.Contains (.v4 bits) → bits = address ∨ world.MatchedByIpset bits

/-- The stores after a message, by membership. -/
inductive V4Effect (world : World) (message : V4Message) (after : World) : Prop
  | refused (noTarget : message.target = none) (same : after = world)
  | banned (key : Block) (address : BitVec 32) (target : message.target = some (key, address))
      (ban : message.unban = false)
      (maps : ∀ block, block ∈ after.daemonMaps ↔ block = key ∨ block ∈ world.daemonMaps)
      (members : ∀ block, block ∈ after.ipset ↔ block = .v4 address 32 ∨ block ∈ world.ipset)
  | unbanned (key : Block) (address : BitVec 32) (target : message.target = some (key, address))
      (unban : message.unban = true)
      (maps : ∀ block, block ∈ after.daemonMaps ↔ block ∈ world.daemonMaps ∧ block ≠ key)
      (members : ∀ block, block ∈ after.ipset ↔ block ∈ world.ipset ∧ block ≠ .v4 address 32)

variable {world : World} {message : V4Message} {key : Block} {address : BitVec 32}

theorem v4Step_effect (succeed : BackendsSucceed world message) :
    V4Effect world message (v4Step world message) := by
  rcases succeed with ⟨⟨up, authorized, map, set⟩, room⟩
  have handled : v4Step world message = (handleCommand message.toIpc world).2 := by
    simp [v4Step, handleClient, up, authorized]
  rw [handled]
  rcases accepted : ipcValidateBanIpv4 message.ip message.plen with _ | plen
  · apply V4Effect.refused
    · simp [V4Message.target, accepted]
    · rcases action : message.unban with _ | _ <;>
        simp [handleCommand, V4Message.toIpc, action, accepted]
  rcases parsed : inetPton4 message.ip with _ | address
  · simp [ipcValidateBanIpv4, parsed] at accepted
  have target : message.target = some (lpmKey plen address, address) := by
    simp [V4Message.target, accepted, parsed]
  rcases action : message.unban with _ | _
  · rcases room action _ target with ⟨mapTakes, setTakes⟩
    apply V4Effect.banned _ _ target action
    · intro block
      rw [← CoverStore.mem_update_of_succeeds mapTakes]
      simp [handleCommand, V4Message.toIpc, action, accepted, doBanV4, doBan, parsed,
        Environment.daemonLoaded, map]
    · intro block
      rw [← CoverStore.mem_update_of_succeeds setTakes]
      simp [handleCommand, V4Message.toIpc, action, accepted, doBanV4, doBan, parsed,
        Environment.daemonLoaded, map, set, runIpsetIp, familyHost]
  · apply V4Effect.unbanned _ _ target action
    · intro block
      rw [← CoverStore.mem_delete]
      simp [handleCommand, V4Message.toIpc, action, accepted, doUnbanV4, doUnban, parsed,
        Environment.daemonLoaded, map]
    · intro block
      rw [← CoverStore.mem_delete]
      simp [handleCommand, V4Message.toIpc, action, accepted, doUnbanV4, doUnban, parsed, set,
        runIpsetIp, familyHost]

theorem target_eq_some (target : message.target = some (key, address)) :
    key = lpmKey (ipcClampV4Prefix message.plen) address := by
  unfold V4Message.target at target
  split at target
  · rename_i plen other accepted parsed
    rw [(ipcValidateBanIpv4_eq_some accepted).2] at target
    rw [Option.some.injEq, Prod.mk.injEq] at target
    rw [← target.1, target.2]
  · cases target

theorem target_contains (target : message.target = some (key, address)) :
    key.Contains (.v4 address) := by
  rw [target_eq_some target, contains_lpmKey]

section Effect

variable {world after : World} {message : V4Message}

theorem V4Effect.hostMembers (effect : V4Effect world message after) (hosts : HostMembers world) :
    HostMembers after := by
  intro network plen mem
  cases effect with
  | refused noTarget same =>
    rw [same] at mem
    exact hosts network plen mem
  | banned key address target ban maps members =>
    rcases (members _).mp mem with added | kept
    · rw [Block.v4.injEq] at added
      exact added.2
    · exact hosts network plen kept
  | unbanned key address target unban maps members =>
    exact hosts network plen ((members _).mp mem).1

theorem matchedByIpset_iff (hosts : HostMembers world) (bits : BitVec 32) :
    world.MatchedByIpset bits ↔ .v4 bits 32 ∈ world.ipset := by
  constructor
  · rintro ⟨block, mem, contains⟩
    cases block with
    | v4 network plen =>
      have host := hosts network plen mem
      subst host
      rw [contains_v4_host.mp contains]
      exact mem
    | v6 bytes => exact absurd contains id
  · intro mem
    exact ⟨_, mem, contains_v4_host.mpr rfl⟩

variable {key : Block} {address : BitVec 32}

theorem keepsAgreement_iff (target : message.target = some (key, address)) :
    KeepsAgreement world message ↔
      if message.unban then
        (∀ other ∈ world.daemonMaps, other.Contains (.v4 address) → other = key) ∧
          (key ∈ world.daemonMaps → ∀ bits, key.Contains (.v4 bits) → bits ≠ address →
            ∃ other ∈ world.daemonMaps, other ≠ key ∧ other.Contains (.v4 bits))
      else ∀ bits, key.Contains (.v4 bits) → bits = address ∨ world.MatchedByIpset bits := by
  constructor
  · intro keeps
    exact keeps key address target
  · intro holds other host named
    rw [target, Option.some.injEq] at named
    rcases named with ⟨rfl, rfl⟩
    exact holds

theorem agree_after_ban_iff (host : key.Contains (.v4 address))
    (dropped : ∀ bits, after.DroppedByXdp bits ↔
      key.Contains (.v4 bits) ∨ world.MatchedByIpset bits)
    (matched : ∀ bits, after.MatchedByIpset bits ↔ bits = address ∨ world.MatchedByIpset bits) :
    StoresAgree after ↔
      ∀ bits, key.Contains (.v4 bits) → bits = address ∨ world.MatchedByIpset bits := by
  constructor
  · intro agreeAfter bits inside
    rw [← matched, ← agreeAfter bits, dropped]
    exact Or.inl inside
  · intro covers bits
    rw [dropped, matched]
    constructor
    · rintro (inside | before)
      · exact covers bits inside
      · exact Or.inr before
    · rintro (rfl | before)
      · exact Or.inl host
      · exact Or.inr before

theorem agree_after_unban_iff (dropped : ∀ bits, after.DroppedByXdp bits ↔
      ∃ other ∈ world.daemonMaps, other ≠ key ∧ other.Contains (.v4 bits))
    (matched : ∀ bits, after.MatchedByIpset bits ↔ world.DroppedByXdp bits ∧ bits ≠ address) :
    StoresAgree after ↔
      (∀ other ∈ world.daemonMaps, other.Contains (.v4 address) → other = key) ∧
        (key ∈ world.daemonMaps → ∀ bits, key.Contains (.v4 bits) → bits ≠ address →
          ∃ other ∈ world.daemonMaps, other ≠ key ∧ other.Contains (.v4 bits)) := by
  constructor
  · intro agreeAfter
    constructor
    · intro other stored inside
      by_contra different
      have still := (dropped address).mpr ⟨other, stored, different, inside⟩
      exact ((matched address).mp ((agreeAfter address).mp still)).2 rfl
    · intro stored bits inside different
      rw [← dropped, agreeAfter bits, matched]
      exact ⟨⟨key, stored, inside⟩, different⟩
  · rintro ⟨alone, backed⟩ bits
    rw [dropped, matched]
    constructor
    · rintro ⟨other, stored, different, inside⟩
      refine ⟨⟨other, stored, inside⟩, ?_⟩
      rintro rfl
      exact different (alone other stored inside)
    · rintro ⟨⟨other, stored, inside⟩, different⟩
      by_cases same : other = key
      · subst same
        exact backed stored bits inside different
      · exact ⟨other, stored, same, inside⟩

theorem V4Effect.agree_iff (effect : V4Effect world message after) (hosts : HostMembers world)
    (agree : StoresAgree world) : StoresAgree after ↔ KeepsAgreement world message := by
  have hostsAfter := effect.hostMembers hosts
  cases effect with
  | refused noTarget same =>
    rw [same]
    refine ⟨fun _ key address target => ?_, fun _ => agree⟩
    rw [noTarget] at target
    cases target
  | banned key address target ban maps members =>
    rw [keepsAgreement_iff target, ban]
    apply agree_after_ban_iff (target_contains target)
    · intro bits
      rw [← agree bits]
      simp [World.DroppedByXdp, CoverStore.Covered, maps]
    · intro bits
      rw [matchedByIpset_iff hostsAfter, matchedByIpset_iff hosts, members]
      simp
  | unbanned key address target unban maps members =>
    rw [keepsAgreement_iff target, if_pos unban]
    apply agree_after_unban_iff
    · intro bits
      simp [World.DroppedByXdp, CoverStore.Covered, maps, and_assoc]
    · intro bits
      rw [agree bits, matchedByIpset_iff hostsAfter, matchedByIpset_iff hosts, members]
      simp

end Effect

/-- IPv4 keys of the daemon's trie are single addresses. -/
def HostKeys (world : World) : Prop :=
  ∀ network plen, .v4 network plen ∈ world.daemonMaps → plen = 32

theorem V4Effect.hostKeys {after : World} (effect : V4Effect world message after)
    (host : ipcClampV4Prefix message.plen = 32) (keys : HostKeys world) : HostKeys after := by
  intro network plen mem
  cases effect with
  | refused noTarget same =>
    rw [same] at mem
    exact keys network plen mem
  | banned key address target ban maps members =>
    rcases (maps _).mp mem with added | kept
    · rw [target_eq_some target, host, lpmKey, Block.v4.injEq] at added
      exact added.2
    · exact keys network plen kept
  | unbanned key address target unban maps members =>
    exact keys network plen ((maps _).mp mem).1

theorem contains_host_target {bits : BitVec 32} (host : ipcClampV4Prefix message.plen = 32)
    (target : message.target = some (key, address)) (inside : key.Contains (.v4 bits)) :
    bits = address := by
  rw [target_eq_some target, host, contains_lpmKey, netmask_host, BitVec.and_allOnes,
    BitVec.and_allOnes] at inside
  exact inside

theorem keepsAgreement_of_host (host : ipcClampV4Prefix message.plen = 32) (keys : HostKeys world) :
    KeepsAgreement world message := by
  intro key address target
  split
  · constructor
    · intro other stored inside
      cases other with
      | v4 network plen =>
        have full := keys network plen stored
        subst full
        rw [target_eq_some target, host, contains_v4_host.mp inside, lpmKey, netmask_host,
          BitVec.and_allOnes]
      | v6 bytes => exact absurd inside id
    · intro _ bits inside different
      exact absurd (contains_host_target host target inside) different
  · intro bits inside
    exact Or.inl (contains_host_target host target inside)

theorem guarded_of_host_messages {start : World} {messages : List V4Message}
    (keys : HostKeys start)
    (succeed : Machine.Guarded v4Step BackendsSucceed start messages)
    (hosts : ∀ message ∈ messages, ipcClampV4Prefix message.plen = 32) :
    Machine.Guarded v4Step KeepsAgreement start messages := by
  induction messages generalizing start with
  | nil => trivial
  | cons message rest ih =>
    rcases succeed with ⟨works, worksLater⟩
    have host := hosts message (by simp)
    refine ⟨keepsAgreement_of_host host keys, ?_⟩
    apply ih ((v4Step_effect works).hostKeys host keys) worksLater
    intro later mem
    exact hosts later (by simp [mem])

theorem stores_agree_iff {start : World} {messages : List V4Message}
    (hosts : HostMembers start) (agree : StoresAgree start)
    (succeed : Machine.Guarded v4Step BackendsSucceed start messages) :
    (∀ before, before <+: messages → StoresAgree (Machine.run v4Step start before)) ↔
      Machine.Guarded v4Step KeepsAgreement start messages := by
  rw [← Machine.forall_prefix_iff_guarded_of_guarded
    (fun world => HostMembers world ∧ StoresAgree world) ?_ ⟨hosts, agree⟩ succeed]
  · apply forall_congr'
    intro before
    apply imp_congr_right
    intro initially
    rw [iff_and_self]
    intro _
    rcases initially with ⟨rest, rfl⟩
    apply Machine.run_invariant_of_guarded HostMembers _ hosts
      ((Machine.guarded_append _ _ _).mp succeed).1
    intro world message works
    exact (v4Step_effect works).hostMembers
  · rintro world message works ⟨hosts, agree⟩
    rw [← (v4Step_effect works).agree_iff hosts agree]
    exact and_iff_right ((v4Step_effect works).hostMembers hosts)

def hostMessages : List V4Message :=
  [⟨false, ascii "198.51.100.7", 0⟩, ⟨false, ascii "203.0.113.9", 32⟩,
    ⟨true, ascii "198.51.100.7", 32⟩]

theorem stores_agree_for_hosts :
    Machine.Guarded v4Step BackendsSucceed {} hostMessages ∧
      ∀ before, before <+: hostMessages → StoresAgree (Machine.run v4Step {} before) := by
  have succeed : Machine.Guarded v4Step BackendsSucceed {} hostMessages := by
    decide +kernel
  have keys : HostKeys {} := fun network plen mem => absurd mem List.not_mem_nil
  have hosts : HostMembers {} := fun network plen mem => absurd mem List.not_mem_nil
  have agree : StoresAgree {} := fun bits => Iff.rfl
  refine ⟨succeed, (stores_agree_iff hosts agree succeed).mpr ?_⟩
  exact guarded_of_host_messages keys succeed (by decide)

/-- After a ban of `198.51.100.7/24` the trie drops `198.51.100.8` and the set does not. -/
theorem stores_disagree_after_block :
    Machine.Guarded v4Step BackendsSucceed {} [⟨false, ascii "198.51.100.7", 24⟩] ∧
      ¬StoresAgree (Machine.run v4Step {} [⟨false, ascii "198.51.100.7", 24⟩]) := by
  refine ⟨by decide +kernel, fun agree => ?_⟩
  have disagree : ¬((Machine.run v4Step {} [⟨false, ascii "198.51.100.7", 24⟩]).DroppedByXdp
      0xc6336408 ↔ (Machine.run v4Step {} [⟨false, ascii "198.51.100.7", 24⟩]).MatchedByIpset
        0xc6336408) := by
    unfold World.DroppedByXdp World.MatchedByIpset
    decide +kernel
  exact disagree (agree _)

end LogGuardian
