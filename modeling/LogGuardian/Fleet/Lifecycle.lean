import LogGuardian.Fleet.Delivery

/-!
# The life of a command
-/

namespace LogGuardian

variable {mac : Mac} {env : FleetEnv}

def CommandStatus.stage : CommandStatus → ℕ
  | .pending => 0
  | .delivered => 1
  | .executed | .failed | .completed => 2

theorem CommandStatus.stage_le (status : CommandStatus) : status.stage ≤ 2 := by
  cases status <;> decide

/-- The command went on from `before` to `after`, not back. -/
structure AgentCommand.Advances (mac : Mac) (env : FleetEnv) (before after : AgentCommand) :
    Prop where
  executed : before.executed = true → after.executed = true
  stage : before.status.stage ≤ after.status.stage
  verifies : verifyFleetCommandSignature mac env before = true →
    verifyFleetCommandSignature mac env after = true

theorem AgentCommand.Advances.refl (command : AgentCommand) :
    command.Advances mac env command :=
  ⟨fun executed => executed, le_rfl, fun verified => verified⟩

variable {first second command : AgentCommand} {write : PendingWrite} {server : FleetServer}
  {event : FleetEvent}

theorem AgentCommand.Advances.trans {third : AgentCommand} (early : first.Advances mac env second)
    (late : second.Advances mac env third) :
    first.Advances mac env third :=
  ⟨fun executed => late.executed (early.executed executed), early.stage.trans late.stage,
    fun verified => late.verifies (early.verifies verified)⟩

/-- Acknowledgements bring no detail, and none is written that calls an executed command
delivered. -/
def GentleAcks (server : FleetServer) (event : FleetEvent) : Prop :=
  match event, server.writes event with
  | .ack _ body, _ => body.detail = []
  | _, some (.ack id .delivered _) =>
    ∀ command ∈ server.commands.rows, command.id = id → command.executed = false
  | _, _ => True

instance (server : FleetServer) (event : FleetEvent) : Decidable (GentleAcks server event) := by
  unfold GentleAcks
  split <;> infer_instance

/-- A write in flight fits the fields of its row. -/
def FitsRow (mac : Mac) (env : FleetEnv) : PendingWrite → AgentCommand → Prop
  | .sign _ signature _, command => command.sign mac env = some signature
  | .ack _ _ payload, command => command.payload = payload
  | _, _ => True

structure FleetServer.Orderly (mac : Mac) (env : FleetEnv) (server : FleetServer) : Prop where
  unfinished : ∀ command ∈ server.commands.rows, command.executed = false →
    command.status.stage ≤ 1
  waiting : server.Backed (FitsRow mac env)

theorem sign_apply_of_fits (fits : write.target = some command.id → FitsRow mac env write command) :
    (write.apply command).payload = command.payload ∧
      (write.apply command).sign mac env = command.sign mac env := by
  cases write with
  | sign id signature more =>
    simp only [PendingWrite.apply]
    split <;> exact ⟨rfl, rfl⟩
  | complete id =>
    simp only [PendingWrite.apply]
    split <;> exact ⟨rfl, rfl⟩
  | deliver ids =>
    simp only [PendingWrite.apply]
    split <;> exact ⟨rfl, rfl⟩
  | ack id status payload =>
    simp only [PendingWrite.apply]
    split
    · rename_i isId
      have same : command.payload = payload := fits (by rw [isId]; rfl)
      rw [← same]
      exact ⟨rfl, rfl⟩
    · exact ⟨rfl, rfl⟩

theorem verify_congr (signature : first.signature = second.signature)
    (signs : first.sign mac env = second.sign mac env) :
    verifyFleetCommandSignature mac env first = verifyFleetCommandSignature mac env second := by
  unfold verifyFleetCommandSignature
  rw [signature, signs]

theorem FleetServer.Orderly.apply_advances (orderly : server.Orderly mac env)
    (waits : write ∈ server.inFlight) (mem : command ∈ server.commands.rows)
    (gentle : ∀ payload, write = .ack command.id .delivered payload → command.executed = false) :
    command.Advances mac env (write.apply command) := by
  have fits : write.target = some command.id → FitsRow mac env write command :=
    fun about => (orderly.waiting write waits _ about).2 command mem rfl
  have signs := (sign_apply_of_fits fits).2
  cases write with
  | sign id signature more =>
    simp only [PendingWrite.apply]
    split
    · rename_i isId
      have signed : command.sign mac env = some signature := fits (by rw [isId]; rfl)
      refine ⟨fun executed => executed, le_rfl, ?_⟩
      intro _
      exact verify_of_signed (by simp) signed.symm
    · exact AgentCommand.Advances.refl command
  | complete id =>
    simp only [PendingWrite.apply] at signs ⊢
    split
    · refine ⟨fun _ => rfl, command.status.stage_le, ?_⟩
      intro verified
      rw [← verified]
      exact verify_congr rfl rfl
    · exact AgentCommand.Advances.refl command
  | deliver ids =>
    simp only [PendingWrite.apply] at signs ⊢
    split
    · rename_i waiting
      refine ⟨fun executed => executed, ?_, ?_⟩
      · rw [waiting.2]
        exact Nat.zero_le _
      · intro verified
        rw [← verified]
        exact verify_congr rfl rfl
    · exact AgentCommand.Advances.refl command
  | ack id status payload =>
    simp only [PendingWrite.apply] at signs ⊢
    split
    · rename_i isId
      rw [if_pos isId] at signs
      have verifies : verifyFleetCommandSignature mac env command = true →
          verifyFleetCommandSignature mac env { command with
            status := status.toStatus
            executed := status = .executed || status = .failed
            payload := payload } = true := by
        intro verified
        rw [← verified]
        exact verify_congr rfl signs
      cases status with
      | delivered =>
        have unexecuted := gentle payload (by rw [isId])
        refine ⟨?_, orderly.unfinished command mem unexecuted, verifies⟩
        intro executed
        rw [unexecuted] at executed
        cases executed
      | executed => exact ⟨fun _ => rfl, command.status.stage_le, verifies⟩
      | failed => exact ⟨fun _ => rfl, command.status.stage_le, verifies⟩
    · exact AgentCommand.Advances.refl command

theorem GentleAcks.unexecuted (gentle : GentleAcks server event)
    (writes : server.writes event = some write) (mem : command ∈ server.commands.rows)
    {payload : Bytes} (isAck : write = .ack command.id .delivered payload) :
    command.executed = false := by
  cases event with
  | resume index =>
    unfold GentleAcks at gentle
    rw [writes, isAck] at gentle
    exact gentle command mem rfl
  | post => cases writes
  | create => cases writes
  | poll => cases writes
  | ack => cases writes

theorem FleetServer.Orderly.stepRow_advances (orderly : server.Orderly mac env)
    (gentle : GentleAcks server event) (mem : command ∈ server.commands.rows) :
    command.Advances mac env (server.stepRow event command) := by
  rcases writes : server.writes event with _ | write
  · rw [FleetServer.stepRow_of_quiet writes]
    exact AgentCommand.Advances.refl command
  · rw [FleetServer.stepRow_of_writes writes]
    apply orderly.apply_advances (server.mem_inFlight_of_writes writes) mem
    intro payload isAck
    exact gentle.unexecuted writes mem isAck

theorem PendingWrite.apply_unfinished (write : PendingWrite)
    (unfinished : command.executed = false → command.status.stage ≤ 1) :
    (write.apply command).executed = false → (write.apply command).status.stage ≤ 1 := by
  cases write with
  | sign id signature more =>
    simp only [PendingWrite.apply]
    split <;> exact unfinished
  | complete id =>
    simp only [PendingWrite.apply]
    split
    · intro unexecuted
      cases unexecuted
    · exact unfinished
  | deliver ids =>
    simp only [PendingWrite.apply]
    split
    · intro _
      exact le_rfl
    · exact unfinished
  | ack id status payload =>
    simp only [PendingWrite.apply]
    split
    · cases status <;> simp [AckStatus.toStatus, CommandStatus.stage]
    · exact unfinished

theorem FleetEffect.orderly {after : FleetServer} (effect : FleetEffect mac env server event after)
    (gentle : GentleAcks server event) (orderly : server.Orderly mac env) :
    after.Orderly mac env := by
  constructor
  · intro command mem
    rcases effect.mem_cases mem with ⟨before, old, rfl⟩ | ⟨id, data, rfl, -⟩
    · have unfinished := orderly.unfinished before old
      unfold FleetServer.stepRow
      split
      · exact PendingWrite.apply_unfinished _ unfinished
      · exact unfinished
    · intro _
      exact Nat.zero_le _
  · apply effect.backed orderly.waiting
    · intro id data banned write mem
      cases write with
      | sign signed signature more => exact CommandData.sign_of_mem_writes mem
      | complete => trivial
      | deliver => trivial
      | ack acked status payload =>
        unfold CommandData.writes at mem
        split at mem
        · simp at mem
        · split at mem <;> simp at mem
    · intro tenantId body command isAck _ _
      have noDetail : body.detail = [] := by
        rw [isAck] at gentle
        exact gentle
      simp [FitsRow, AckBody.newPayload, noDetail]
    · intros
      trivial
    · intro write waiting command _ waits mem fits
      have same := sign_apply_of_fits fun about =>
        (orderly.waiting write waits _ about).2 command mem rfl
      cases waiting with
      | sign id signature more => exact same.2.trans fits
      | complete => trivial
      | deliver => trivial
      | ack id status payload => exact same.1.trans fits

theorem FleetServer.Orderly.runRow_advances (orderly : server.Orderly mac env)
    {events : List FleetEvent}
    (gentle : Machine.Guarded (fleetStep mac env) GentleAcks server events)
    (mem : command ∈ server.commands.rows) :
    command.Advances mac env (runRow mac env server events command) := by
  induction events generalizing server command with
  | nil => exact AgentCommand.Advances.refl command
  | cons event rest ih =>
    rcases gentle with ⟨now, later⟩
    have effect := fleetStep_effect mac env server event
    apply (orderly.stepRow_advances now mem).trans
    exact ih (effect.orderly now orderly) later (effect.stepRow_mem mem)

variable (mac env) in
theorem orderly_initial : FleetServer.initial.Orderly mac env := by
  constructor
  · intro command mem
    cases mem
  · intro write waits
    cases waits

/-- In every run whose acknowledgements are gentle, every command only advances. -/
theorem lifecycle_one_way (mac : Mac) (env : FleetEnv) (history events : List FleetEvent)
    (gentle : Machine.Guarded (fleetStep mac env) GentleAcks .initial (history ++ events))
    (command : AgentCommand)
    (mem : command ∈ (Machine.run (fleetStep mac env) .initial history).commands.rows) :
    ∃ now ∈ (Machine.run (fleetStep mac env) .initial (history ++ events)).commands.rows,
      now.id = command.id ∧ command.Advances mac env now := by
  rcases (Machine.guarded_append _ history events).mp gentle with ⟨early, late⟩
  have orderly : (Machine.run (fleetStep mac env) .initial history).Orderly mac env := by
    apply Machine.run_invariant_of_guarded _ _ (orderly_initial mac env) early
    intro server event now before
    exact (fleetStep_effect mac env server event).orderly now before
  rw [Machine.run_append]
  exact ⟨_, runRow_mem mem events, runRow_id mac env _ events command,
    orderly.runRow_advances late mem⟩

def plainAck (status detail : Bytes) : AckBody := ⟨ascii "c1", status, detail, some (ascii "agent-a")⟩

/-- A command is polled, acknowledged as executed and acknowledged again. -/
theorem lifecycle_one_way_for_repeated_ack :
    ∃ now ∈ (Machine.run (fleetStep checksumMac ⟨none, none⟩) .initial
        (tenantHistory ++ [.poll (ascii "t1") (ascii "agent-a"), .resume 0,
          .ack (ascii "t1") (plainAck (ascii "executed") []), .resume 0,
          .ack (ascii "t1") (plainAck (ascii "executed") []), .resume 0])).commands.rows,
      now.id = tenantCommandSigned.id ∧
        tenantCommandSigned.Advances checksumMac ⟨none, none⟩ now := by
  apply lifecycle_one_way
  · decide +kernel
  · decide +kernel

/-- An acknowledgement with a detail ends the command but changes the signed payload, and one
that says `delivered` takes an executed command back. -/
theorem ack_breaks_signature_and_order :
    (∃ now ∈ (Machine.run (fleetStep checksumMac ⟨none, none⟩) .initial
        (tenantHistory ++ [.ack (ascii "t1") (plainAck (ascii "executed") (ascii "ok")),
          .resume 0])).commands.rows,
      now.id = tenantCommandSigned.id ∧
        verifyFleetCommandSignature checksumMac ⟨none, none⟩ tenantCommandSigned = true ∧
        verifyFleetCommandSignature checksumMac ⟨none, none⟩ now = false ∧ now.executed = true) ∧
    (∃ now ∈ (Machine.run (fleetStep checksumMac ⟨none, none⟩) .initial
        (tenantHistory ++ [.ack (ascii "t1") (plainAck (ascii "executed") []), .resume 0,
          .ack (ascii "t1") (plainAck (ascii "delivered") []), .resume 0])).commands.rows,
      now.id = tenantCommandSigned.id ∧ now.executed = false ∧ now.status = .delivered) := by
  decide +kernel

end LogGuardian
