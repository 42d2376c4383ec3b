import LogGuardian.Lib.Machine

/-!
# The match data of the PCRE engine
-/

namespace LogGuardian

universe u

/-- `TlsMatchData`: the patterns that the entries of `mdata_array` were created from, in order; the
entries behind them are null. -/
structure TlsMatchData where
  created : List ℕ
  generation : ℕ
  deriving DecidableEq, Repr

/-- Where a thread stands in `pcre_engine_match`: outside, behind the read lock, behind the first
test, creating match data, or before the test of the loop with index `i`. -/
inductive MatchPhase where
  | outside
  | locked
  | tested
  | creating (data : TlsMatchData)
  | trying (i : ℕ)
  deriving DecidableEq, Repr

structure MatchThread where
  tls : Option TlsMatchData := none
  phase : MatchPhase := .outside
  deriving DecidableEq, Repr

structure PcreState (Thread : Type u) where
  table : List ℕ := []
  compiled : ℕ := 0
  generation : ℕ := 0
  writer : Option Thread := none
  threads : Thread → MatchThread := fun _ => {}

/-- `clear` and `add` are the steps of `pcre_engine_init` and `pcre_engine_load_crs`; those of
`pcre_engine_reload` stand between `lock` and `publish`. -/
inductive PcreEvent (Thread : Type u) where
  | clear
  | add
  | enter (thread : Thread)
  | test (thread : Thread) (emptyUrl : Bool)
  | compare (thread : Thread)
  | create (thread : Thread)
  | tryPattern (thread : Thread) (matched : Bool)
  | lock (thread : Thread)
  | reloadClear (thread : Thread)
  | reloadAdd (thread : Thread)
  | publish (thread : Thread)
  deriving DecidableEq, Repr

namespace PcreState

variable {Thread : Type u} [DecidableEq Thread]

/-- `compile_and_add_pattern` with a pattern that compiles. -/
def addPattern (state : PcreState Thread) : PcreState Thread :=
  if state.table.length < 384 then
    { state with table := state.table ++ [state.compiled], compiled := state.compiled + 1 }
  else state

def setThread (state : PcreState Thread) (thread : Thread) (now : MatchThread) : PcreState Thread :=
  { state with threads := Function.update state.threads thread now }

def setPhase (state : PcreState Thread) (thread : Thread) (phase : MatchPhase) : PcreState Thread :=
  state.setThread thread { state.threads thread with phase := phase }

def step [Fintype Thread] (state : PcreState Thread) : PcreEvent Thread → PcreState Thread
  | .clear => { state with table := [] }
  | .add => state.addPattern
  | .enter thread =>
    if state.writer = none ∧ (state.threads thread).phase = .outside then
      state.setPhase thread .locked
    else state
  | .test thread emptyUrl =>
    if (state.threads thread).phase = .locked then
      state.setPhase thread (if emptyUrl ∨ state.table = [] then .outside else .tested)
    else state
  | .compare thread =>
    if (state.threads thread).phase = .tested then
      if (state.threads thread).tls.map TlsMatchData.generation = some state.generation then
        state.setPhase thread (.trying 0)
      else state.setThread thread ⟨none, .creating ⟨[], state.generation⟩⟩
    else state
  | .create thread =>
    match (state.threads thread).phase with
    | .creating data =>
      match state.table[data.created.length]? with
      | some pattern =>
        state.setPhase thread (.creating { data with created := data.created ++ [pattern] })
      | none => state.setThread thread ⟨some data, .trying 0⟩
    | _ => state
  | .tryPattern thread matched =>
    match (state.threads thread).phase with
    | .trying i =>
      state.setPhase thread
        (if i < state.table.length ∧ matched = false then .trying (i + 1) else .outside)
    | _ => state
  | .lock thread =>
    if state.writer = none ∧ ∀ other, (state.threads other).phase = .outside then
      { state with writer := some thread }
    else state
  | .reloadClear thread =>
    if state.writer = some thread then { state with table := [] } else state
  | .reloadAdd thread => if state.writer = some thread then state.addPattern else state
  | .publish thread =>
    if state.writer = some thread then
      { state with generation := (state.generation + 1) % 2 ^ 32, writer := none }
    else state

omit [DecidableEq Thread] in
/-- Where a thread is about to run a pattern, its entry is there and was created from it. -/
def MatchDataCurrent (state : PcreState Thread) : Prop :=
  ∀ thread i pattern, (state.threads thread).phase = .trying i → state.table[i]? = some pattern →
    ∃ data, (state.threads thread).tls = some data ∧ data.created[i]? = some pattern

/-- The table is changed without the lock only while no thread is matching and none has match data
of the current generation, and the counter does not come back to the generation of match data that
a thread still has. -/
def Orderly (state : PcreState Thread) : PcreEvent Thread → Prop
  | .clear | .add => ∀ thread, (state.threads thread).phase = .outside ∧
      ∀ data ∈ (state.threads thread).tls, data.generation ≠ state.generation
  | .publish _ => ∀ thread, ∀ data ∈ (state.threads thread).tls,
      data.generation ≠ (state.generation + 1) % 2 ^ 32
  | _ => True

/-- What couples the match data of all threads with the table. -/
structure Coherent (state : PcreState Thread) : Prop where
  noReader : state.writer ≠ none → ∀ thread, (state.threads thread).phase = .outside
  cached : state.writer = none → ∀ thread data, (state.threads thread).tls = some data →
    data.generation = state.generation → data.created = state.table
  creating : ∀ thread data, (state.threads thread).phase = .creating data →
    data.generation = state.generation ∧ data.created <+: state.table
  trying : ∀ thread i, (state.threads thread).phase = .trying i →
    ∃ data, (state.threads thread).tls = some data ∧ data.generation = state.generation

variable {state : PcreState Thread}

omit [DecidableEq Thread] in
theorem coherent_initial : Coherent ({} : PcreState Thread) where
  noReader _ _ := rfl
  cached _ _ _ none := by cases none
  creating _ _ phase := by cases phase
  trying _ _ phase := by cases phase

omit [DecidableEq Thread] in
theorem Coherent.free_of_phase (coherent : state.Coherent) {thread : Thread} {phase : MatchPhase}
    (isPhase : (state.threads thread).phase = phase) (inside : phase ≠ .outside) :
    state.writer = none := by
  by_contra held
  rw [coherent.noReader held thread] at isPhase
  exact inside isPhase.symm

omit [DecidableEq Thread] in
theorem Coherent.current (coherent : state.Coherent) : state.MatchDataCurrent := by
  intro thread i pattern phase stored
  rcases coherent.trying thread i phase with ⟨data, isData, generation⟩
  have free := coherent.free_of_phase phase (by simp)
  refine ⟨data, isData, ?_⟩
  rw [coherent.cached free thread data isData generation]
  exact stored

theorem Coherent.setThread (coherent : state.Coherent) (free : state.writer = none) {thread : Thread}
    {now : MatchThread}
    (cached : ∀ data, now.tls = some data → data.generation = state.generation →
      data.created = state.table)
    (creating : ∀ data, now.phase = .creating data →
      data.generation = state.generation ∧ data.created <+: state.table)
    (trying : ∀ i, now.phase = .trying i →
      ∃ data, now.tls = some data ∧ data.generation = state.generation) :
    (state.setThread thread now).Coherent := by
  have others : ∀ other ≠ thread, (state.setThread thread now).threads other = state.threads other :=
    fun other different => Function.update_of_ne different _ _
  have own : (state.setThread thread now).threads thread = now := Function.update_self _ _ _
  refine ⟨fun held => absurd free held, ?_, ?_, ?_⟩
  · intro _ other
    by_cases same : other = thread
    · rw [same, own]
      exact cached
    · rw [others other same]
      exact coherent.cached free other
  · intro other
    by_cases same : other = thread
    · rw [same, own]
      exact creating
    · rw [others other same]
      exact coherent.creating other
  · intro other
    by_cases same : other = thread
    · rw [same, own]
      exact trying
    · rw [others other same]
      exact coherent.trying other

theorem Coherent.setPhase (coherent : state.Coherent) (free : state.writer = none) {thread : Thread}
    {phase : MatchPhase}
    (creating : ∀ data, phase = .creating data →
      data.generation = state.generation ∧ data.created <+: state.table)
    (trying : ∀ i, phase = .trying i →
      ∃ data, (state.threads thread).tls = some data ∧ data.generation = state.generation) :
    (state.setPhase thread phase).Coherent :=
  coherent.setThread free (coherent.cached free thread) creating trying

omit [DecidableEq Thread] in
theorem coherent_of_idle (outside : ∀ thread, (state.threads thread).phase = .outside)
    (old : state.writer = none → ∀ thread, ∀ data ∈ (state.threads thread).tls,
      data.generation ≠ state.generation) : state.Coherent where
  noReader _ := outside
  cached free thread data isData same := absurd same (old free thread data isData)
  creating thread data phase := by
    rw [outside thread] at phase
    cases phase
  trying thread i phase := by
    rw [outside thread] at phase
    cases phase

omit [DecidableEq Thread] in
theorem addPattern_rest (state : PcreState Thread) :
    state.addPattern.threads = state.threads ∧ state.addPattern.writer = state.writer ∧
      state.addPattern.generation = state.generation := by
  unfold addPattern
  split <;> exact ⟨rfl, rfl, rfl⟩

variable [Fintype Thread]

theorem Coherent.step (coherent : state.Coherent) {event : PcreEvent Thread}
    (orderly : state.Orderly event) : (state.step event).Coherent := by
  cases event with
  | clear => exact coherent_of_idle (fun thread => (orderly thread).1) fun _ thread => (orderly thread).2
  | add =>
    rcases state.addPattern_rest with ⟨threads, writer, generation⟩
    apply coherent_of_idle
    · intro thread
      rw [PcreState.step, threads]
      exact (orderly thread).1
    · intro _ thread
      rw [PcreState.step, threads, generation]
      exact (orderly thread).2
  | enter thread =>
    simp only [PcreState.step]
    split
    · rename_i may
      exact coherent.setPhase may.1 (by simp) (by simp)
    · exact coherent
  | test thread emptyUrl =>
    simp only [PcreState.step]
    split
    · rename_i locked
      apply coherent.setPhase (coherent.free_of_phase locked (by simp))
      · intro data
        split <;> simp
      · intro i
        split <;> simp
    · exact coherent
  | compare thread =>
    simp only [PcreState.step]
    split
    · rename_i tested
      have free := coherent.free_of_phase tested (by simp)
      split
      · rename_i same
        apply coherent.setPhase free (by simp)
        intro i _
        exact Option.map_eq_some_iff.mp same
      · apply coherent.setThread free (by simp) _ (by simp)
        intro data creating
        rw [← MatchPhase.creating.inj creating]
        exact ⟨rfl, List.nil_prefix⟩
    · exact coherent
  | create thread =>
    simp only [PcreState.step]
    split
    · rename_i data creating
      have free := coherent.free_of_phase creating (by simp)
      rcases coherent.creating thread data creating with ⟨generation, part⟩
      split
      · rename_i pattern next
        apply coherent.setPhase free _ (by simp)
        intro later isLater
        rw [← MatchPhase.creating.inj isLater]
        refine ⟨generation, ?_⟩
        rcases part with ⟨rest, whole⟩
        rw [← whole, List.getElem?_append_right le_rfl, Nat.sub_self] at next
        rcases rest with _ | ⟨first, rest⟩
        · cases next
        · rw [← Option.some.inj next]
          exact ⟨rest, by simpa using whole⟩
      · rename_i whole
        have full : data.created = state.table := by
          rw [List.getElem?_eq_none_iff] at whole
          exact part.eq_of_length_le whole
        apply coherent.setThread free
        · intro made isMade _
          rw [← Option.some.inj isMade]
          exact full
        · simp
        · intro i _
          exact ⟨data, rfl, generation⟩
    · exact coherent
  | tryPattern thread matched =>
    simp only [PcreState.step]
    split
    · rename_i i trying
      have free := coherent.free_of_phase trying (by simp)
      apply coherent.setPhase free
      · intro data
        split <;> simp
      · intro next _
        exact coherent.trying thread i trying
    · exact coherent
  | lock thread =>
    simp only [PcreState.step]
    split
    · rename_i may
      exact ⟨fun _ => may.2, fun free => absurd free (by simp), coherent.creating, coherent.trying⟩
    · exact coherent
  | reloadClear thread =>
    simp only [PcreState.step]
    split
    · rename_i held
      have outside := coherent.noReader (by simp [held])
      exact coherent_of_idle outside fun free => absurd free (by simp [held])
    · exact coherent
  | reloadAdd thread =>
    simp only [PcreState.step]
    split
    · rename_i held
      rcases state.addPattern_rest with ⟨threads, writer, -⟩
      have outside := coherent.noReader (by simp [held])
      apply coherent_of_idle
      · rw [threads]
        exact outside
      · rw [writer]
        exact fun free => absurd free (by simp [held])
    · exact coherent
  | publish thread =>
    simp only [PcreState.step]
    split
    · rename_i held
      have outside := coherent.noReader (by simp [held])
      exact coherent_of_idle outside fun _ => orderly
    · exact coherent

/-- In every run whose steps are orderly, each pattern is run with match data of its own. -/
theorem matchDataCurrent_run {events : List (PcreEvent Thread)}
    (orderly : Machine.Guarded PcreState.step Orderly {} events) :
    (Machine.run PcreState.step {} events).MatchDataCurrent := by
  apply Coherent.current
  apply Machine.run_invariant_of_guarded Coherent _ coherent_initial orderly
  intro state event now coherent
  exact coherent.step now

def reloadedRun : List (PcreEvent Unit) :=
  [.clear, .add, .enter (), .test () false, .compare (), .create (), .create (), .tryPattern () true,
    .lock (), .reloadClear (), .reloadAdd (), .reloadAdd (), .publish (),
    .enter (), .test () false, .compare (), .create (), .create (), .create (), .tryPattern () false]

theorem matchDataCurrent_reloadedRun : Machine.Guarded PcreState.step Orderly {} reloadedRun ∧
    (Machine.run PcreState.step {} reloadedRun).MatchDataCurrent := by
  have orderly : Machine.Guarded PcreState.step Orderly {} reloadedRun := by
    simp only [reloadedRun, Machine.Guarded, Orderly]
    decide
  exact ⟨orderly, matchDataCurrent_run orderly⟩

def matchedOnce : List (PcreEvent Unit) :=
  [.clear, .add, .enter (), .test () false, .compare (), .create (), .create (), .tryPattern () true]

/-- After `pcre_engine_load_crs` the thread runs a pattern without match data, and after
`pcre_engine_init` one with the match data of another pattern. -/
theorem match_data_missing_or_stale :
    ¬(Machine.run PcreState.step {} (matchedOnce ++ [.add, .enter (), .test () false, .compare (),
        .tryPattern () false])).MatchDataCurrent ∧
      ¬(Machine.run PcreState.step {} (matchedOnce ++ [.clear, .add, .enter (), .test () false,
        .compare ()])).MatchDataCurrent := by
  constructor
  · intro current
    rcases current () 1 1 (by decide) (by decide) with ⟨data, isData, created⟩
    have missing : (Machine.run PcreState.step {} (matchedOnce ++ [.add, .enter (), .test () false,
        .compare (), .tryPattern () false])).threads () = ⟨some ⟨[0], 0⟩, .trying 1⟩ := by
      decide
    rw [missing] at isData
    rw [← Option.some.inj isData] at created
    cases created
  · intro current
    rcases current () 0 1 (by decide) (by decide) with ⟨data, isData, created⟩
    have stale : (Machine.run PcreState.step {} (matchedOnce ++ [.clear, .add, .enter (),
        .test () false, .compare ()])).threads () = ⟨some ⟨[0], 0⟩, .trying 0⟩ := by
      decide
    rw [stale] at isData
    rw [← Option.some.inj isData] at created
    cases created

end PcreState

end LogGuardian
