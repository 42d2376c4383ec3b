import LogGuardian.Fleet.Server

/-!
# Delivery of commands

A command has one status for all agents it is meant for.
-/

namespace LogGuardian

variable {mac : Mac} {env : FleetEnv}

/-- The step does not take the command out of the queue. -/
def SparesCommand (id : Bytes) (server : FleetServer) (event : FleetEvent) : Prop :=
  match server.writes event with
  | some (.deliver ids) => id ∉ ids
  | some (.ack acked _ _) => acked ≠ id
  | some (.complete done) => done ≠ id
  | _ => True

theorem PendingWrite.apply_pending {write : PendingWrite} {command : AgentCommand}
    (still : (write.apply command).status = .pending) :
    command.status = .pending ∧ (write.apply command = command ∨
      ∃ signature more, write = .sign command.id signature more ∧
        write.apply command = { command with signature := some signature }) := by
  cases write with
  | sign id signature more =>
    simp only [PendingWrite.apply] at still ⊢
    split_ifs at still ⊢ with isId
    · exact ⟨still, Or.inr ⟨signature, more, by rw [isId], rfl⟩⟩
    · exact ⟨still, Or.inl rfl⟩
  | complete id =>
    simp only [PendingWrite.apply] at still ⊢
    split_ifs at still ⊢
    exact ⟨still, Or.inl rfl⟩
  | deliver ids =>
    simp only [PendingWrite.apply] at still ⊢
    split_ifs at still ⊢
    exact ⟨still, Or.inl rfl⟩
  | ack id status payload =>
    simp only [PendingWrite.apply] at still ⊢
    split_ifs at still ⊢
    · cases status <;> cases still
    · exact ⟨still, Or.inl rfl⟩

theorem FleetServer.stepRow_pending_iff (server : FleetServer) (event : FleetEvent)
    (command : AgentCommand) :
    (server.stepRow event command).status = .pending ↔
      command.status = .pending ∧ SparesCommand command.id server event := by
  unfold FleetServer.stepRow SparesCommand
  rcases server.writes event with _ | write
  · simp
  · constructor
    · intro still
      have before := (PendingWrite.apply_pending still).1
      refine ⟨before, ?_⟩
      cases write with
      | sign => trivial
      | complete id =>
        rintro rfl
        simp [PendingWrite.apply] at still
      | deliver ids =>
        intro mem
        simp [PendingWrite.apply, mem, before] at still
      | ack id status payload =>
        rintro rfl
        cases status <;> simp [PendingWrite.apply, AckStatus.toStatus] at still
    · rintro ⟨before, spared⟩
      cases write with
      | sign id signature more =>
        simp only [PendingWrite.apply]
        split <;> exact before
      | complete id => simpa [PendingWrite.apply, Ne.symm spared] using before
      | deliver ids => simpa [PendingWrite.apply, spared] using before
      | ack id status payload => simpa [PendingWrite.apply, Ne.symm spared] using before

variable (mac env) in
theorem runRow_pending_iff (server : FleetServer) (events : List FleetEvent)
    (command : AgentCommand) :
    (runRow mac env server events command).status = .pending ↔
      command.status = .pending ∧
        Machine.Guarded (fleetStep mac env) (SparesCommand command.id) server events := by
  induction events generalizing server command with
  | nil => simp [runRow, Machine.Guarded]
  | cons event rest ih =>
    rw [runRow, ih, FleetServer.stepRow_pending_iff, FleetServer.stepRow_id, Machine.Guarded,
      and_assoc]

theorem PendingWrite.apply_address (write : PendingWrite) (command : AgentCommand) :
    (write.apply command).tenantId = command.tenantId ∧
      (write.apply command).targetAgentId = command.targetAgentId := by
  cases write <;> simp only [PendingWrite.apply] <;> split <;> exact ⟨rfl, rfl⟩

variable (mac env) in
theorem runRow_address (server : FleetServer) (events : List FleetEvent) (command : AgentCommand) :
    (runRow mac env server events command).tenantId = command.tenantId ∧
      (runRow mac env server events command).targetAgentId = command.targetAgentId := by
  induction events generalizing server command with
  | nil => exact ⟨rfl, rfl⟩
  | cons event rest ih =>
    have step : (server.stepRow event command).tenantId = command.tenantId ∧
        (server.stepRow event command).targetAgentId = command.targetAgentId := by
      unfold FleetServer.stepRow
      split
      · exact PendingWrite.apply_address _ _
      · exact ⟨rfl, rfl⟩
    rw [runRow, ← step.1, ← step.2]
    exact ih _ _

/-- A signature in flight is that of the row it is for, as long as the row is pending. -/
def SignsPending (mac : Mac) (env : FleetEnv) : PendingWrite → AgentCommand → Prop
  | .sign _ signature _, command =>
    command.status = .pending → command.sign mac env = some signature
  | _, _ => True

/-- A pending row is not executed, and its signature is that of its fields once it is written. -/
structure FleetServer.Sound (mac : Mac) (env : FleetEnv) (server : FleetServer) : Prop where
  rows : ∀ command ∈ server.commands.rows, command.status = .pending →
    command.executed = false ∧
      (command.signature = none ∨ command.signature = command.sign mac env)
  signing : server.Backed (SignsPending mac env)

theorem CommandData.sign_of_mem_writes {data : CommandData} {newId id signature : Bytes}
    {banned more : Bool}
    (mem : PendingWrite.sign id signature more ∈ data.writes mac env newId banned) :
    (data.row newId).sign mac env = some signature := by
  unfold CommandData.writes at mem
  split at mem
  · rename_i calculated signed
    simp only [List.mem_singleton, PendingWrite.sign.injEq] at mem
    rw [signed, mem.2.1]
  · split at mem <;> simp at mem

theorem sign_apply_of_pending {write : PendingWrite} {command : AgentCommand}
    (still : (write.apply command).status = .pending) :
    (write.apply command).sign mac env = command.sign mac env := by
  rcases (PendingWrite.apply_pending still).2 with same | ⟨signature, more, -, signed⟩
  · rw [same]
  · rw [signed]
    rfl

theorem FleetEffect.sound {server after : FleetServer} {event : FleetEvent}
    (effect : FleetEffect mac env server event after) (sound : server.Sound mac env) :
    after.Sound mac env := by
  constructor
  · intro command mem pending
    rcases effect.mem_cases mem with ⟨before, old, rfl⟩ | ⟨id, data, rfl, -⟩
    · rcases writes : server.writes event with _ | write
      · rw [FleetServer.stepRow_of_quiet writes] at pending ⊢
        exact sound.rows before old pending
      · have waits := server.mem_inFlight_of_writes writes
        rw [FleetServer.stepRow_of_writes writes] at pending ⊢
        rcases PendingWrite.apply_pending pending with
          ⟨before_pending, same | ⟨signature, more, rfl, signed⟩⟩
        · rw [same]
          exact sound.rows before old before_pending
        · rw [signed]
          refine ⟨(sound.rows before old before_pending).1, Or.inr ?_⟩
          exact ((sound.signing _ waits _ rfl).2 before old rfl before_pending).symm
    · exact ⟨rfl, Or.inl rfl⟩
  · apply effect.backed sound.signing
    · intro id data banned write mem
      cases write with
      | sign signed signature more =>
        intro _
        exact CommandData.sign_of_mem_writes mem
      | complete => trivial
      | deliver => trivial
      | ack => trivial
    · intros
      trivial
    · intros
      trivial
    · intro write waiting command _ _ _ agrees
      cases waiting with
      | sign id signature more =>
        intro still
        rw [sign_apply_of_pending still]
        exact agrees (PendingWrite.apply_pending still).1
      | complete => trivial
      | deliver => trivial
      | ack => trivial

variable (mac env) in
theorem sound_run (events : List FleetEvent) :
    (Machine.run (fleetStep mac env) .initial events).Sound mac env := by
  apply Machine.run_invariant (FleetServer.Sound mac env)
  · intro server event sound
    exact (fleetStep_effect mac env server event).sound sound
  · constructor
    · intro command mem
      cases mem
    · intro write waits
      cases waits

theorem not_space_of_hex : ∀ byte : UInt8, (hexDigit byte).isSome = true →
    ∀ space ∈ jsWhitespace, space.head? ≠ some byte ∧ space.reverse.head? ≠ some byte := by
  decide +kernel

theorem stripSpaces_of_hex {spaces : List Bytes} {text : Bytes} (fuel : ℕ)
    (noSpace : ∀ byte ∈ text, ∀ space ∈ spaces, space.head? ≠ some byte)
    (nonempty : ∀ space ∈ spaces, space ≠ []) (notEmpty : text ≠ []) :
    stripSpaces spaces fuel text = text := by
  rcases fuel with _ | fuel
  · rfl
  · have none : spaces.find? (fun space => decide (space <+: text)) = none := by
      rw [List.find?_eq_none]
      intro space mem isPrefix
      rcases text with _ | ⟨first, text⟩
      · exact notEmpty rfl
      rcases space with _ | ⟨head, space⟩
      · exact nonempty _ mem rfl
      rw [decide_eq_true_eq, List.cons_prefix_cons] at isPrefix
      apply noSpace first (by simp) _ mem
      rw [isPrefix.1]
      rfl
    rw [stripSpaces, none]

theorem jsTrim_of_hex {text : Bytes} (hex : ∀ byte ∈ text, (hexDigit byte).isSome = true)
    (notEmpty : text ≠ []) : jsTrim text = text := by
  have forward := fun byte mem space isSpace => (not_space_of_hex byte (hex byte mem) space isSpace).1
  have start : stripSpaces jsWhitespace text.length text = text :=
    stripSpaces_of_hex _ forward (by decide) notEmpty
  have finish : stripSpaces (jsWhitespace.map List.reverse) text.length text.reverse =
      text.reverse := by
    apply stripSpaces_of_hex
    · intro byte mem space isSpace
      rcases List.mem_map.mp isSpace with ⟨original, isOriginal, rfl⟩
      exact (not_space_of_hex byte (hex byte (List.mem_reverse.mp mem)) original isOriginal).2
    · decide
    · simpa using notEmpty
  simp [jsTrim, start, finish]

theorem verify_of_signed {command : AgentCommand} (signed : command.signature ≠ none)
    (same : command.signature = command.sign mac env) :
    verifyFleetCommandSignature mac env command = true := by
  rcases calculated : command.sign mac env with _ | signature
  · exact absurd (same.trans calculated) signed
  · have hex : signature.length = 64 ∧ ∀ byte ∈ signature, (hexDigit byte).isSome = true := by
      rcases Option.map_eq_some_iff.mp calculated with ⟨key, -, rfl⟩
      exact mac.isHex _ _
    have notEmpty : signature ≠ [] := by
      rintro rfl
      simp at hex
    simp [verifyFleetCommandSignature, same, calculated, jsTrim_of_hex hex.2 notEmpty, notEmpty]

theorem verify_of_unsigned {command : AgentCommand} (unsigned : command.signature = none) :
    verifyFleetCommandSignature mac env command = !fleetRequireSig env := by
  have empty : jsTrim [] = [] := by decide
  simp [verifyFleetCommandSignature, unsigned, empty]

theorem FleetServer.Sound.verify_iff {server : FleetServer} (sound : server.Sound mac env)
    {command : AgentCommand} (mem : command ∈ server.commands.rows)
    (pending : command.status = .pending) :
    verifyFleetCommandSignature mac env command = true ↔
      (fleetRequireSig env = true → command.signature ≠ none) := by
  rcases Decidable.eq_or_ne command.signature none with unsigned | signed
  · rw [verify_of_unsigned unsigned]
    simp [unsigned]
  · rcases (sound.rows command mem pending).2 with unsigned | same
    · exact absurd unsigned signed
    · simp [verify_of_signed signed same, signed]

/-- The response to a poll holds a command. -/
def Receives (mac : Mac) (env : FleetEnv) (server : FleetServer) (tenantId agentId id : Bytes) :
    Prop :=
  ∃ answer, getCommands mac env server tenantId agentId = .ok answer ∧
    ∃ sent ∈ answer, sent.id = id

/-- The command is meant for an agent of a tenant. -/
def AgentCommand.IsFor (command : AgentCommand) (tenantId agentId : Bytes) : Prop :=
  command.tenantId = tenantId ∧
    (command.targetAgentId = none ∨ command.targetAgentId = some agentId)

theorem receives_iff {server : FleetServer} {tenantId agentId : Bytes} {command : AgentCommand}
    (mem : command ∈ server.commands.rows) :
    Receives mac env server tenantId agentId command.id ↔
      agentId ≠ [] ∧ isVpsFleetShadowAgent agentId = false ∧ command.IsFor tenantId agentId ∧
        command.executed = false ∧ command.status = .pending ∧
        verifyFleetCommandSignature mac env command = true := by
  have response : (∃ sent ∈ (findCommands server tenantId agentId).filter
      (verifyFleetCommandSignature mac env), sent.id = command.id) ↔
      command.IsFor tenantId agentId ∧ command.executed = false ∧ command.status = .pending ∧
        verifyFleetCommandSignature mac env command = true := by
    constructor
    · rintro ⟨sent, found, sameId⟩
      rcases List.mem_filter.mp found with ⟨selected, verified⟩
      rcases List.mem_filter.mp selected with ⟨inRows, due⟩
      rw [KeyedTable.eq_of_key_eq inRows mem sameId] at due verified
      simp only [Bool.and_eq_true, Bool.or_eq_true, decide_eq_true_eq, Bool.not_eq_true'] at due
      exact ⟨⟨due.1.1.1, due.2.symm⟩, due.1.1.2, due.1.2, verified⟩
    · rintro ⟨⟨tenant, target⟩, notExecuted, pending, verified⟩
      refine ⟨command, List.mem_filter.mpr ⟨List.mem_filter.mpr ⟨mem, ?_⟩, verified⟩, rfl⟩
      simp [tenant, notExecuted, pending, target.symm]
  unfold Receives getCommands
  by_cases unnamed : agentId = []
  · simp [unnamed]
  · cases shadow : isVpsFleetShadowAgent agentId
    · simpa [unnamed] using response
    · simp [unnamed]

/-- What an agent needs to be sent a command that was pending in `server`, after more events. -/
structure StillOffered (mac : Mac) (env : FleetEnv) (server : FleetServer)
    (events : List FleetEvent) (agentId id : Bytes) : Prop where
  named : agentId ≠ []
  notShadow : isVpsFleetShadowAgent agentId = false
  untaken : Machine.Guarded (fleetStep mac env) (SparesCommand id) server events
  signed : fleetRequireSig env = true →
    ∃ now ∈ (Machine.run (fleetStep mac env) server events).commands.rows,
      now.id = id ∧ now.signature ≠ none

theorem receives_run_iff (history events : List FleetEvent) {command : AgentCommand}
    (mem : command ∈ (Machine.run (fleetStep mac env) .initial history).commands.rows)
    (pending : command.status = .pending) (tenantId agentId : Bytes) :
    Receives mac env (Machine.run (fleetStep mac env) .initial (history ++ events))
        tenantId agentId command.id ↔
      command.IsFor tenantId agentId ∧
        StillOffered mac env (Machine.run (fleetStep mac env) .initial history) events agentId
          command.id := by
  have sound := sound_run mac env (history ++ events)
  rw [Machine.run_append] at sound ⊢
  generalize Machine.run (fleetStep mac env) .initial history = server at mem sound ⊢
  have nowMem : runRow mac env server events command ∈
      (Machine.run (fleetStep mac env) server events).commands.rows := runRow_mem mem events
  have stays := runRow_pending_iff mac env server events command
  have address := runRow_address mac env server events command
  have sameId := runRow_id mac env server events command
  generalize runRow mac env server events command = now at nowMem stays address sameId
  have isFor : now.IsFor tenantId agentId ↔ command.IsFor tenantId agentId := by
    rw [AgentCommand.IsFor, AgentCommand.IsFor, address.1, address.2]
  rw [← sameId, receives_iff nowMem, isFor]
  constructor
  · rintro ⟨named, notShadow, due, -, nowPending, verified⟩
    refine ⟨due, named, notShadow, ?_, ?_⟩
    · rw [sameId]
      exact (stays.mp nowPending).2
    · intro required
      exact ⟨now, nowMem, rfl, (sound.verify_iff nowMem nowPending).mp verified required⟩
  · rintro ⟨due, offered⟩
    have nowPending : now.status = .pending := by
      apply stays.mpr ⟨pending, ?_⟩
      rw [← sameId]
      exact offered.untaken
    refine ⟨offered.named, offered.notShadow, due, (sound.rows now nowMem nowPending).1,
      nowPending, (sound.verify_iff nowMem nowPending).mpr ?_⟩
    intro required
    rcases offered.signed required with ⟨other, otherMem, otherId, signed⟩
    rw [KeyedTable.eq_of_key_eq nowMem otherMem otherId.symm]
    exact signed

/-- The response to a poll holds a command that was pending if and only if the command is meant
for the agent, exactly when nothing took it away before. -/
theorem delivery_iff_still_offered (mac : Mac) (env : FleetEnv) (history events : List FleetEvent)
    (command : AgentCommand)
    (mem : command ∈ (Machine.run (fleetStep mac env) .initial history).commands.rows)
    (pending : command.status = .pending) (tenantId agentId : Bytes) :
    (Receives mac env (Machine.run (fleetStep mac env) .initial (history ++ events))
        tenantId agentId command.id ↔ command.IsFor tenantId agentId) ↔
      (command.IsFor tenantId agentId →
        StillOffered mac env (Machine.run (fleetStep mac env) .initial history) events agentId
          command.id) := by
  rw [receives_run_iff history events mem pending]
  tauto

def tenantCommand : CommandData := ⟨ascii "t1", none, ascii "BAN_IP", ascii "203.0.113.9"⟩

def tenantHistory : List FleetEvent := [.create (ascii "c1") tenantCommand, .resume 0]

def tenantCommandSigned : AgentCommand :=
  { tenantCommand.row (ascii "c1") with
    signature := (tenantCommand.row (ascii "c1")).sign checksumMac ⟨none, none⟩ }

/-- A poll that has not updated the row yet does not keep it from another agent. -/
theorem delivery_while_other_poll_waits :
    Receives checksumMac ⟨none, none⟩ (Machine.run (fleetStep checksumMac ⟨none, none⟩) .initial
        (tenantHistory ++ [.poll (ascii "t1") (ascii "agent-a")])) (ascii "t1") (ascii "agent-b")
        tenantCommandSigned.id ↔
      tenantCommandSigned.IsFor (ascii "t1") (ascii "agent-b") := by
  have created : tenantCommandSigned ∈ (Machine.run (fleetStep checksumMac ⟨none, none⟩) .initial
      tenantHistory).commands.rows := by decide +kernel
  have kept : tenantCommandSigned ∈ (Machine.run (fleetStep checksumMac ⟨none, none⟩)
      (Machine.run (fleetStep checksumMac ⟨none, none⟩) .initial tenantHistory)
      [.poll (ascii "t1") (ascii "agent-a")]).commands.rows := by decide +kernel
  apply (delivery_iff_still_offered checksumMac ⟨none, none⟩ tenantHistory
    [.poll (ascii "t1") (ascii "agent-a")] tenantCommandSigned created rfl _ _).mpr
  intro _
  refine ⟨by decide, by decide, ⟨trivial, trivial⟩, ?_⟩
  intro _
  exact ⟨tenantCommandSigned, kept, rfl, by decide +kernel⟩

/-- After the poll of one agent has updated the row, the other agent is not sent it. -/
theorem tenant_command_lost_for_second_agent :
    getCommands checksumMac ⟨none, none⟩ (Machine.run (fleetStep checksumMac ⟨none, none⟩) .initial
        tenantHistory) (ascii "t1") (ascii "agent-b") = .ok [tenantCommandSigned] ∧
      getCommands checksumMac ⟨none, none⟩ (Machine.run (fleetStep checksumMac ⟨none, none⟩)
        .initial (tenantHistory ++ [.poll (ascii "t1") (ascii "agent-a"), .resume 0]))
        (ascii "t1") (ascii "agent-b") = .ok [] := by
  decide +kernel

end LogGuardian
