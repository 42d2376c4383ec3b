import LogGuardian.Lib.KeyedTable
import LogGuardian.Lib.Machine
import LogGuardian.Fleet.Command

/-!
# The command queue of the dashboard
-/

namespace LogGuardian

inductive CommandStatus where
  | pending | delivered | executed | failed | completed
  deriving DecidableEq, Repr

inductive AckStatus where
  | delivered | executed | failed
  deriving DecidableEq, Repr

def AckStatus.toStatus : AckStatus → CommandStatus
  | .delivered => .delivered
  | .executed => .executed
  | .failed => .failed

structure AgentCommand where
  id : Bytes
  tenantId : Bytes
  targetAgentId : Option Bytes
  commandType : Bytes
  payload : Bytes
  executed : Bool
  status : CommandStatus
  signature : Option Bytes
  deriving DecidableEq, Repr

/-- The variables `FLEET_COMMAND_HMAC_KEY` and `FLEET_COMMAND_REQUIRE_SIG`. -/
structure FleetEnv where
  hmacKey : Option Bytes
  requireSig : Option Bytes

def devFleetHmacKey : Bytes := ascii "log-guardian-fleet-command-dev-key"

def fleetSignKey (env : FleetEnv) : Option Bytes :=
  let key := jsTrim (match env.hmacKey with
    | none | some [] => devFleetHmacKey
    | some value => value)
  if key = [] ∨ utf16Length key < 16 then none else some key

def fleetRequireSig (env : FleetEnv) : Bool := env.requireSig.getD (ascii "1") ≠ ascii "0"

section Server

variable (mac : Mac) (env : FleetEnv)

/-- `signFleetCommand` on a row. -/
def AgentCommand.sign (command : AgentCommand) : Option Bytes :=
  (fleetSignKey env).map fun key =>
    mac.hmacHex key (buildFleetCommandDigest command.id command.tenantId command.commandType
      command.payload (command.targetAgentId.getD []))

def verifyFleetCommandSignature (command : AgentCommand) : Bool :=
  let expected := jsTrim (command.signature.getD [])
  if expected = [] then !fleetRequireSig env
  else
    match command.sign mac env with
    | none => false
    | some calculated =>
      utf16Length calculated = utf16Length expected && calculated = expected

inductive PendingWrite where
  | sign (id signature : Bytes) (thenComplete : Bool)
  | complete (id : Bytes)
  | deliver (ids : List Bytes)
  | ack (id : Bytes) (status : AckStatus) (payload : Bytes)
  deriving DecidableEq, Repr

def PendingWrite.apply (write : PendingWrite) (command : AgentCommand) : AgentCommand :=
  match write with
  | .sign id signature _ =>
    if command.id = id then { command with signature := some signature } else command
  | .complete id =>
    if command.id = id then { command with executed := true, status := .completed } else command
  | .deliver ids =>
    if command.id ∈ ids ∧ command.status = .pending then { command with status := .delivered }
    else command
  | .ack id status payload =>
    if command.id = id then
      { command with
        status := status.toStatus
        executed := status = .executed || status = .failed
        payload := payload }
    else command

theorem PendingWrite.apply_id (write : PendingWrite) (command : AgentCommand) :
    (write.apply command).id = command.id := by
  cases write <;> simp only [PendingWrite.apply] <;> split <;> rfl

structure FleetServer where
  commands : KeyedTable AgentCommand.id
  inFlight : List PendingWrite

def FleetServer.initial : FleetServer := ⟨KeyedTable.empty, []⟩

structure CommandData where
  tenantId : Bytes
  targetAgentId : Option Bytes
  commandType : Bytes
  payload : Bytes

def CommandData.row (data : CommandData) (id : Bytes) : AgentCommand :=
  ⟨id, data.tenantId, data.targetAgentId, data.commandType, data.payload, false, .pending, none⟩

structure PostBody where
  admin : Bool
  userTenant : Bytes
  commandType : Bytes
  payload : Bytes
  targetAgentId : Option Bytes
  targetTenantId : Bytes

def postCommand (body : PostBody) : Except Bytes CommandData :=
  match validateFleetCommand body.commandType body.payload body.targetAgentId with
  | some error => .error error
  | none =>
    let finalTenantId :=
      if body.admin && body.targetTenantId ≠ [] then body.targetTenantId else body.userTenant
    .ok ⟨finalTenantId, if body.targetAgentId = some [] then none else body.targetAgentId,
      body.commandType, body.payload⟩

def CommandData.writes (data : CommandData) (id : Bytes) (banned : Bool) : List PendingWrite :=
  match (data.row id).sign mac env with
  | some signature => [.sign id signature banned]
  | none => if banned then [.complete id] else []

def createSignedFleetCommand (server : FleetServer) (id : Bytes) (data : CommandData)
    (banned : Bool) : FleetServer :=
  if id ∈ server.commands.rows.map AgentCommand.id then server
  else ⟨server.commands.insert (data.row id), server.inFlight ++ data.writes mac env id banned⟩

def findCommands (server : FleetServer) (tenantId agentId : Bytes) : List AgentCommand :=
  server.commands.rows.filter fun command =>
    command.tenantId = tenantId && !command.executed && command.status = .pending &&
      (command.targetAgentId = some agentId || command.targetAgentId = none)

def getCommands (server : FleetServer) (tenantId agentId : Bytes) :
    Except Bytes (List AgentCommand) :=
  if agentId = [] then .error (ascii "Missing agent_id")
  else if isVpsFleetShadowAgent agentId then .ok []
  else .ok ((findCommands server tenantId agentId).filter (verifyFleetCommandSignature mac env))

structure AckBody where
  id : Bytes
  status : Bytes
  detail : Bytes
  agentId : Option Bytes

def AckBody.newStatus (body : AckBody) : AckStatus :=
  if body.status = ascii "failed" then .failed
  else if body.status = ascii "delivered" then .delivered
  else .executed

def AckBody.newPayload (body : AckBody) (payload : Bytes) : Bytes :=
  if body.detail ≠ [] then
    payload ++ ascii " | ack:" ++ body.agentId.getD (ascii "?") ++ ascii ":" ++ body.detail
  else payload

def ackCommand (server : FleetServer) (tenantId : Bytes) (body : AckBody) :
    Except Bytes PendingWrite :=
  if body.id = [] then .error (ascii "Missing id")
  else
    match server.commands.rows.find? fun command =>
        command.id = body.id && command.tenantId = tenantId with
    | none => .error (ascii "Command not found")
    | some command => .ok (.ack body.id body.newStatus (body.newPayload command.payload))

inductive FleetEvent where
  | post (id : Bytes) (body : PostBody) (banOk : Bool)
  | create (id : Bytes) (data : CommandData)
  | poll (tenantId agentId : Bytes)
  | ack (tenantId : Bytes) (body : AckBody)
  | resume (index : ℕ)

def isBanCommand (commandType : Bytes) : Bool :=
  commandType = ascii "BAN_IP" || commandType = ascii "UNBAN_IP"

def PendingWrite.next : PendingWrite → List PendingWrite
  | .sign id _ thenComplete => if thenComplete then [.complete id] else []
  | _ => []

def FleetServer.write (server : FleetServer) (write : PendingWrite) : FleetServer :=
  ⟨server.commands.modify write.apply write.apply_id, server.inFlight ++ write.next⟩

def fleetStep (server : FleetServer) : FleetEvent → FleetServer
  | .post id body banOk =>
    match postCommand body with
    | .error _ => server
    | .ok data =>
      createSignedFleetCommand mac env server id data
        (body.admin && isBanCommand data.commandType && banOk)
  | .create id data => createSignedFleetCommand mac env server id data false
  | .poll tenantId agentId =>
    match getCommands mac env server tenantId agentId with
    | .ok (first :: others) =>
      { server with
        inFlight := server.inFlight ++ [.deliver ((first :: others).map AgentCommand.id)] }
    | _ => server
  | .ack tenantId body =>
    match ackCommand server tenantId body with
    | .error _ => server
    | .ok write => { server with inFlight := server.inFlight ++ [write] }
  | .resume index =>
    match server.inFlight[index]? with
    | none => server
    | some write => { server with inFlight := server.inFlight.eraseIdx index }.write write

def FleetServer.writes (server : FleetServer) : FleetEvent → Option PendingWrite
  | .resume index => server.inFlight[index]?
  | _ => none

/-- The effects of an event. -/
inductive FleetEffect (server : FleetServer) : FleetEvent → FleetServer → Prop where
  | created {event : FleetEvent} (id : Bytes) (data : CommandData) (banned : Bool)
      (quiet : server.writes event = none)
      (fresh : id ∉ server.commands.rows.map AgentCommand.id) :
      FleetEffect server event
        ⟨server.commands.insert (data.row id), server.inFlight ++ data.writes mac env id banned⟩
  | found (tenantId agentId : Bytes) (commands : List AgentCommand)
      (answer : getCommands mac env server tenantId agentId = .ok commands) :
      FleetEffect server (.poll tenantId agentId)
        ⟨server.commands, server.inFlight ++ [.deliver (commands.map AgentCommand.id)]⟩
  | acknowledged (tenantId : Bytes) (body : AckBody) (command : AgentCommand)
      (mem : command ∈ server.commands.rows) (isId : command.id = body.id) :
      FleetEffect server (.ack tenantId body)
        ⟨server.commands, server.inFlight ++
          [.ack body.id body.newStatus (body.newPayload command.payload)]⟩
  | wrote (index : ℕ) (write : PendingWrite) (waiting : server.inFlight[index]? = some write) :
      FleetEffect server (.resume index)
        ⟨server.commands.modify write.apply write.apply_id,
          server.inFlight.eraseIdx index ++ write.next⟩
  | idle {event : FleetEvent} (quiet : server.writes event = none) : FleetEffect server event server

variable {event : FleetEvent} {write : PendingWrite} {after : FleetServer} {id : Bytes}

theorem createSigned_effect (server : FleetServer) (quiet : server.writes event = none) (id : Bytes)
    (data : CommandData) (banned : Bool) :
    FleetEffect mac env server event (createSignedFleetCommand mac env server id data banned) := by
  unfold createSignedFleetCommand
  split
  · exact .idle quiet
  · rename_i fresh
    exact .created id data banned quiet fresh

theorem ackCommand_eq_ok {server : FleetServer} {tenantId : Bytes} {body : AckBody}
    (answer : ackCommand server tenantId body = .ok write) :
    ∃ command ∈ server.commands.rows, command.id = body.id ∧
      write = .ack body.id body.newStatus (body.newPayload command.payload) := by
  unfold ackCommand at answer
  split_ifs at answer
  split at answer
  · cases answer
  · rename_i command found
    have isId := List.find?_some found
    simp only [Bool.and_eq_true, decide_eq_true_eq] at isId
    cases answer
    exact ⟨command, List.mem_of_find?_eq_some found, isId.1, rfl⟩

theorem fleetStep_effect (server : FleetServer) (event : FleetEvent) :
    FleetEffect mac env server event (fleetStep mac env server event) := by
  cases event with
  | post id body banOk =>
    simp only [fleetStep]
    split
    · exact .idle rfl
    · exact createSigned_effect mac env server rfl _ _ _
  | create id data => exact createSigned_effect mac env server rfl id data false
  | poll tenantId agentId =>
    simp only [fleetStep]
    split
    · rename_i answer
      exact .found tenantId agentId _ answer
    · exact .idle rfl
  | ack tenantId body =>
    simp only [fleetStep]
    split
    · exact .idle rfl
    · rename_i write answer
      rcases ackCommand_eq_ok answer with ⟨command, mem, isId, rfl⟩
      exact .acknowledged tenantId body command mem isId
  | resume index =>
    simp only [fleetStep]
    split
    · rename_i nothing
      exact .idle nothing
    · rename_i write waiting
      exact .wrote index write waiting

def FleetServer.stepRow (server : FleetServer) (event : FleetEvent) (command : AgentCommand) :
    AgentCommand :=
  match server.writes event with
  | some write => write.apply command
  | none => command

theorem FleetServer.stepRow_id (server : FleetServer) (event : FleetEvent)
    (command : AgentCommand) : (server.stepRow event command).id = command.id := by
  unfold FleetServer.stepRow
  split
  · exact PendingWrite.apply_id _ _
  · rfl

theorem FleetServer.stepRow_of_quiet {server : FleetServer} (quiet : server.writes event = none)
    (command : AgentCommand) :
    server.stepRow event command = command := by
  rw [FleetServer.stepRow, quiet]

theorem FleetServer.stepRow_of_writes {server : FleetServer}
    (writes : server.writes event = some write) (command : AgentCommand) :
    server.stepRow event command = write.apply command := by
  rw [FleetServer.stepRow, writes]

theorem FleetServer.mem_inFlight_of_writes (server : FleetServer)
    (writes : server.writes event = some write) :
    write ∈ server.inFlight := by
  cases event with
  | resume index => exact List.mem_of_getElem? writes
  | post => cases writes
  | create => cases writes
  | poll => cases writes
  | ack => cases writes

variable {mac env}

theorem FleetEffect.stepRow_mem {server : FleetServer}
    (effect : FleetEffect mac env server event after) {command : AgentCommand}
    (mem : command ∈ server.commands.rows) :
    server.stepRow event command ∈ after.commands.rows := by
  cases effect with
  | created id data banned quiet fresh =>
    rw [FleetServer.stepRow_of_quiet quiet]
    exact KeyedTable.mem_insert_of_mem mem
  | found => exact mem
  | acknowledged => exact mem
  | wrote index write waiting =>
    rw [FleetServer.stepRow, FleetServer.writes, waiting]
    exact List.mem_map_of_mem mem
  | idle quiet =>
    rw [FleetServer.stepRow_of_quiet quiet]
    exact mem

theorem FleetEffect.mem_cases {server : FleetServer}
    (effect : FleetEffect mac env server event after) {command : AgentCommand}
    (mem : command ∈ after.commands.rows) :
    (∃ before ∈ server.commands.rows, command = server.stepRow event before) ∨
      ∃ id data, command = CommandData.row data id ∧
        id ∉ server.commands.rows.map AgentCommand.id := by
  cases effect with
  | created id data banned quiet fresh =>
    rcases KeyedTable.mem_of_mem_insert mem with old | ⟨new, -⟩
    · exact Or.inl ⟨command, old, (FleetServer.stepRow_of_quiet quiet _).symm⟩
    · exact Or.inr ⟨id, data, new, fresh⟩
  | found => exact Or.inl ⟨command, mem, rfl⟩
  | acknowledged => exact Or.inl ⟨command, mem, rfl⟩
  | wrote index write waiting =>
    rcases List.mem_map.mp mem with ⟨before, old, rfl⟩
    refine Or.inl ⟨before, old, ?_⟩
    rw [FleetServer.stepRow, FleetServer.writes, waiting]
  | idle quiet => exact Or.inl ⟨command, mem, (FleetServer.stepRow_of_quiet quiet _).symm⟩

def PendingWrite.target : PendingWrite → Option Bytes
  | .sign id _ _ => some id
  | .complete id => some id
  | .deliver _ => none
  | .ack id _ _ => some id

/-- Every write in flight has its row, and agrees with it. -/
def FleetServer.Backed (Agrees : PendingWrite → AgentCommand → Prop) (server : FleetServer) : Prop :=
  ∀ write ∈ server.inFlight, ∀ id ∈ write.target,
    (∃ command ∈ server.commands.rows, command.id = id) ∧
      ∀ command ∈ server.commands.rows, command.id = id → Agrees write command

theorem CommandData.target_of_mem_writes {data : CommandData} {newId : Bytes} {banned : Bool}
    (mem : write ∈ data.writes mac env newId banned) (about : id ∈ write.target) : id = newId := by
  unfold CommandData.writes at mem
  split at mem
  · rw [List.mem_singleton.mp mem] at about
    exact (Option.some.inj about).symm
  · split at mem
    · rw [List.mem_singleton.mp mem] at about
      exact (Option.some.inj about).symm
    · cases mem

theorem PendingWrite.target_of_mem_next {next : PendingWrite} (mem : next ∈ write.next)
    (about : id ∈ next.target) :
    id ∈ write.target ∧ next = .complete id := by
  cases write with
  | sign signed signature more =>
    simp only [PendingWrite.next] at mem
    split at mem
    · rw [List.mem_singleton.mp mem] at about ⊢
      cases about
      exact ⟨rfl, rfl⟩
    · cases mem
  | complete => cases mem
  | deliver => cases mem
  | ack => cases mem

theorem FleetEffect.backed {server : FleetServer} (effect : FleetEffect mac env server event after)
    {Agrees : PendingWrite → AgentCommand → Prop} (backed : server.Backed Agrees)
    (creates : ∀ id data banned, ∀ write ∈ CommandData.writes mac env data id banned,
      Agrees write (data.row id)) (acks : ∀ tenantId body command, event = .ack tenantId body →
      command ∈ server.commands.rows → command.id = body.id →
        Agrees (.ack body.id body.newStatus (body.newPayload command.payload)) command)
    (completes : ∀ id command, Agrees (.complete id) command)
    (stays : ∀ write waiting command, server.writes event = some write →
      write ∈ server.inFlight → command ∈ server.commands.rows →
        Agrees waiting command → Agrees waiting (write.apply command)) :
    after.Backed Agrees := by
  cases effect with
  | created newId data banned quiet fresh =>
    have inserted : data.row newId ∈ (server.commands.insert (data.row newId)).rows :=
      KeyedTable.mem_insert_self fresh
    intro write waits id about
    rcases List.mem_append.mp waits with waited | added
    · rcases backed write waited id about with ⟨⟨known, memKnown, isId⟩, every⟩
      refine ⟨⟨known, KeyedTable.mem_insert_of_mem memKnown, isId⟩, ?_⟩
      intro command mem sameId
      rcases KeyedTable.mem_of_mem_insert mem with old | ⟨rfl, -⟩
      · exact every command old sameId
      · exact absurd (List.mem_map.mpr ⟨known, memKnown, isId.trans sameId.symm⟩) fresh
    · have isNew := CommandData.target_of_mem_writes added about
      refine ⟨⟨_, inserted, isNew.symm⟩, ?_⟩
      intro command mem sameId
      rw [KeyedTable.eq_of_key_eq mem inserted (sameId.trans isNew)]
      exact creates newId data banned write added
  | found tenantId agentId commands answer =>
    intro write waits id about
    rcases List.mem_append.mp waits with waited | added
    · exact backed write waited id about
    · rw [List.mem_singleton.mp added] at about
      cases about
  | acknowledged tenantId body command mem isId =>
    intro write waits id about
    rcases List.mem_append.mp waits with waited | added
    · exact backed write waited id about
    · rw [List.mem_singleton.mp added] at about ⊢
      cases about
      refine ⟨⟨command, mem, isId⟩, ?_⟩
      intro other otherMem sameId
      rw [KeyedTable.eq_of_key_eq otherMem mem (sameId.trans isId.symm)]
      exact acks tenantId body command rfl mem isId
  | wrote index write waiting =>
    have inFlight := List.mem_of_getElem? waiting
    intro later waits id about
    rcases List.mem_append.mp waits with waited | next
    · rcases backed later (List.mem_of_mem_eraseIdx waited) id about with
        ⟨⟨known, memKnown, isId⟩, every⟩
      refine ⟨⟨_, List.mem_map_of_mem memKnown, (write.apply_id known).trans isId⟩, ?_⟩
      intro command mem sameId
      rcases List.mem_map.mp mem with ⟨before, old, rfl⟩
      apply stays write later before waiting inFlight old
      exact every before old ((write.apply_id before).symm.trans sameId)
    · rcases PendingWrite.target_of_mem_next next about with ⟨aboutWrite, rfl⟩
      rcases backed write inFlight id aboutWrite with ⟨⟨known, memKnown, isId⟩, -⟩
      refine ⟨⟨_, List.mem_map_of_mem memKnown, (write.apply_id known).trans isId⟩, ?_⟩
      intro command _ _
      exact completes id command
  | idle => exact backed

variable (mac env)

def runRow : FleetServer → List FleetEvent → AgentCommand → AgentCommand
  | _, [], command => command
  | server, event :: rest, command =>
    runRow (fleetStep mac env server event) rest (server.stepRow event command)

theorem runRow_id (server : FleetServer) (events : List FleetEvent) (command : AgentCommand) :
    (runRow mac env server events command).id = command.id := by
  induction events generalizing server command with
  | nil => rfl
  | cons event rest ih =>
    rw [runRow, ih]
    exact server.stepRow_id event command

variable {mac env} in
theorem runRow_mem {server : FleetServer} {command : AgentCommand}
    (mem : command ∈ server.commands.rows) (events : List FleetEvent) :
    runRow mac env server events command ∈
      (Machine.run (fleetStep mac env) server events).commands.rows := by
  induction events generalizing server command with
  | nil => exact mem
  | cons event rest ih =>
    apply ih
    exact (fleetStep_effect mac env server event).stepRow_mem mem

end Server

end LogGuardian
