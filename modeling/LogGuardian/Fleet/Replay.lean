import LogGuardian.Fleet.Agreement

/-!
# Replayed and misdirected commands
-/

namespace LogGuardian

open List

section Poll

variable (mac : Mac) (key : Bytes)

def executions : List FleetCommand → List (FleetCommand × FleetRun)
  | [] => []
  | command :: rest =>
    (((agentRun mac key true command rest).filter (·.kind.isSome)).map (command, ·)).toList ++
      executions rest

def pollExecutions (responses : List (List FleetCommand)) : List (FleetCommand × FleetRun) :=
  responses.flatMap (executions mac key)

/-- What `process_commands` runs on the texts of the responses, with signature checking on. -/
def pollRuns (responses : List (List FleetCommand)) : List FleetRun :=
  responses.flatMap fun commands =>
    (processCommands mac ⟨key, true⟩ (jsonCommands mac key commands)).filter (·.kind.isSome)

end Poll

/-- No command id is executed twice, and no command for another agent at all. -/
structure NotReplayed (agentId : Bytes) (executed : List (FleetCommand × FleetRun)) : Prop where
  once : (executed.map fun entry => entry.1.id).Nodup
  addressed : ∀ entry ∈ executed, ∀ target ∈ entry.1.targetAgentId, target = agentId

/-- No id is sent twice, and no command for another agent. -/
structure SentOnce (agentId : Bytes) (responses : List (List FleetCommand)) : Prop where
  once : (responses.flatten.map FleetCommand.id).Nodup
  addressed : ∀ command ∈ responses.flatten, ∀ target ∈ command.targetAgentId, target = agentId

variable {mac : Mac} {key : Bytes}

theorem map_snd_executions (commands : List FleetCommand) :
    (executions mac key commands).map Prod.snd =
      (agentRuns mac key true commands).filter (·.kind.isSome) := by
  induction commands with
  | nil => rfl
  | cons command rest ih =>
    rw [executions, agentRuns, map_append, filter_append]
    congr 1
    rcases agentRun mac key true command rest with _ | run
    · rfl
    · rcases isKind : run.kind with _ | kind <;> simp [isKind]

theorem map_snd_pollExecutions (responses : List (List FleetCommand)) :
    (pollExecutions mac key responses).map Prod.snd = pollRuns mac key responses := by
  rw [pollExecutions, map_flatMap]
  apply flatMap_congr
  intro commands _
  rw [map_snd_executions, processCommands_jsonCommands]

theorem map_fst_executions (commands : List FleetCommand) :
    ((executions mac key commands).map Prod.fst).Sublist commands := by
  induction commands with
  | nil => exact List.Sublist.slnil
  | cons command rest ih =>
    rw [executions, map_append]
    generalize Option.filter _ (agentRun mac key true command rest) = runs
    rcases runs with _ | run
    · exact ih.cons command
    · exact ih.cons_cons command

theorem map_fst_pollExecutions (responses : List (List FleetCommand)) :
    ((pollExecutions mac key responses).map Prod.fst).Sublist responses.flatten := by
  induction responses with
  | nil => exact List.Sublist.slnil
  | cons commands responses ih =>
    rw [pollExecutions, flatMap_cons, map_append]
    exact (map_fst_executions commands).append ih

theorem map_fst_executions_of_reads (nonempty : key ≠ []) {commands : List FleetCommand}
    (reads : AgentReadsAll commands) : (executions mac key commands).map Prod.fst = commands := by
  induction commands with
  | nil => rfl
  | cons command rest ih =>
    rcases (agentRun_eq_signedRun_iff mac key true command nonempty rest).mpr reads.1 with
      ⟨runs, known⟩
    rw [executions, map_append, ih reads.2, runs, Option.filter_some,
      if_pos (Option.isSome_iff_ne_none.mpr known)]
    rfl

theorem map_fst_pollExecutions_of_reads (nonempty : key ≠ []) {responses : List (List FleetCommand)}
    (reads : ∀ commands ∈ responses, AgentReadsAll commands) :
    (pollExecutions mac key responses).map Prod.fst = responses.flatten := by
  induction responses with
  | nil => rfl
  | cons commands responses ih =>
    rw [forall_mem_cons] at reads
    rw [pollExecutions, flatMap_cons, map_append, flatten_cons,
      map_fst_executions_of_reads nonempty reads.1, ← pollExecutions, ih reads.2]

theorem notReplayed_iff {agentId : Bytes} {executed : List (FleetCommand × FleetRun)} :
    NotReplayed agentId executed ↔ ((executed.map Prod.fst).map FleetCommand.id).Nodup ∧
      ∀ command ∈ executed.map Prod.fst, ∀ target ∈ command.targetAgentId, target = agentId := by
  rw [map_map, forall_mem_map]
  exact ⟨fun safe => ⟨safe.once, safe.addressed⟩, fun safe => ⟨safe.1, safe.2⟩⟩

/-- What the agent executes is what was sent to it: nothing is replayed or misdirected if nothing
is sent twice or to the wrong agent, and only then if the agent reads all that is sent. -/
theorem notReplayed_of_sentOnce (mac : Mac) {key : Bytes} (nonempty : key ≠ []) (agentId : Bytes)
    (responses : List (List FleetCommand)) :
    (pollExecutions mac key responses).map Prod.snd = pollRuns mac key responses ∧
      (SentOnce agentId responses → NotReplayed agentId (pollExecutions mac key responses)) ∧
      ((∀ commands ∈ responses, AgentReadsAll commands) →
        NotReplayed agentId (pollExecutions mac key responses) → SentOnce agentId responses) := by
  refine ⟨map_snd_pollExecutions responses, ?_, ?_⟩
  · intro sent
    rw [notReplayed_iff]
    have part := @map_fst_pollExecutions mac key responses
    exact ⟨sent.once.sublist (part.map _), fun command mem => sent.addressed command (part.mem mem)⟩
  · intro reads safe
    rw [notReplayed_iff, map_fst_pollExecutions_of_reads nonempty reads] at safe
    exact ⟨safe.1, safe.2⟩

theorem agentReadsAll_targetedBan : AgentReadsAll [targetedBan] :=
  ⟨⟨by decide, by decide +kernel, by decide +kernel, by decide +kernel, by decide, by decide⟩,
    trivial⟩

/-- The agent that the first command is for, and two responses. -/
theorem notReplayed_of_two_responses :
    ascii "0123456789abcdef" ≠ [] ∧
      NotReplayed (ascii "agent-b")
        (pollExecutions checksumMac (ascii "0123456789abcdef") [[targetedBan], [broadcastBan]]) := by
  refine ⟨by decide, ?_⟩
  apply (notReplayed_of_sentOnce checksumMac (by decide) (ascii "agent-b")
    [[targetedBan], [broadcastBan]]).2.1
  exact ⟨by decide +kernel, by decide +kernel⟩

/-- A command is executed in every response that has it, and by an agent that it is not for. -/
theorem targeted_ban_replayed :
    pollRuns checksumMac (ascii "0123456789abcdef") [[targetedBan], [targetedBan]] =
        [targetedBan.signedRun, targetedBan.signedRun] ∧
      ¬NotReplayed (ascii "agent-b")
        (pollExecutions checksumMac (ascii "0123456789abcdef") [[targetedBan], [targetedBan]]) ∧
      ¬NotReplayed (ascii "agent-a")
        (pollExecutions checksumMac (ascii "0123456789abcdef") [[targetedBan]]) := by
  have nonempty : ascii "0123456789abcdef" ≠ [] := by decide
  have reads := agentReadsAll_targetedBan
  refine ⟨by decide +kernel, ?_, ?_⟩
  · rw [notReplayed_iff, map_fst_pollExecutions_of_reads nonempty (by simpa using reads)]
    simp
  · rw [notReplayed_iff, map_fst_pollExecutions_of_reads nonempty (by simpa using reads)]
    intro safe
    have same := safe.2 targetedBan mem_cons_self (ascii "agent-b") rfl
    exact absurd same (by decide)

end LogGuardian
