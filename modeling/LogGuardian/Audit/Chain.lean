import LogGuardian.Ban.Recorded
import LogGuardian.Fleet.Command
import LogGuardian.Lib.HashChain
import LogGuardian.Rules.Conf

/-!
# The audit chain of ban decisions

`ban_policy.c` appends one JSON record for each ban decision to the audit file and keeps the hash
of the last one in a global. A run is a list of events over files that any path may name; the trail
of a run is what its events alone say about the global: which file it was taken from.
-/

namespace LogGuardian

open List

universe u

/-- `sha256_hex`. -/
structure Sha where
  hex : Bytes → Bytes
  isHex : ∀ text, (hex text).length = 64 ∧ ∀ byte ∈ hex text, (hexDigit byte).isSome = true

theorem quote_not_mem_hex (sha : Sha) (text : Bytes) : chr '"' ∉ sha.hex text := by
  intro mem
  have digit := (sha.isHex text).2 _ mem
  revert digit
  decide

def genesis : Bytes := ascii "genesis"

structure AuditAlert extends Alert where
  incidentId : Bytes
  deriving DecidableEq, Repr

/-- The number of an `AlertLevel`. -/
def AlertLevel.number : AlertLevel → ℕ
  | .info => 1
  | .warn => 2
  | .crit => 3

/-- `BanPolicyVerdict`, its scores in tenths as `%.1f` prints them. -/
structure BanPolicyVerdict where
  riskScore : ℕ
  minRisk : ℕ
  decision : Bytes
  deriving DecidableEq, Repr

def printTenths (tenths : ℕ) : Bytes :=
  ascii (toString (tenths / 10)) ++ chr '.' :: ascii (toString (tenths % 10))

/-- The loop that fills `msg_esc`, with `j` bytes written so far. -/
def messageEscape : ℕ → Bytes → Bytes
  | _, [] => []
  | j, byte :: rest =>
    if j + 2 < 512 then
      let escape := if byte = chr '"' ∨ byte = chr '\\' then [chr '\\'] else []
      let shown := if byte = chr '\n' ∨ byte = chr '\r' then chr ' ' else byte
      escape ++ shown :: messageEscape (j + escape.length + 1) rest
    else []

/-- A call of `ban_policy_audit`, with the time and whether the file can be opened. -/
structure AuditCall where
  ip : Option Bytes
  alert : Option AuditAlert
  verdict : Option BanPolicyVerdict
  banned : Bool
  now : ℕ
  opens : Bool
  deriving DecidableEq, Repr

/-- The fields of a record before `chain_prev`. -/
def auditFields (tenantId ip : Bytes) (verdict : BanPolicyVerdict) (call : AuditCall) : Bytes :=
  ascii "\x7b\"ts\":" ++ ascii (toString call.now) ++ ascii ",\"tenant_id\":\"" ++ tenantId ++
    ascii "\",\"ip\":\"" ++ ip ++ ascii "\",\"risk_score\":" ++ printTenths verdict.riskScore ++
    ascii ",\"min_risk\":" ++ printTenths verdict.minRisk ++ ascii ",\"decision\":\"" ++
    verdict.decision ++ ascii "\",\"banned\":" ++
    (if call.banned then ascii "true" else ascii "false") ++ ascii ",\"alert_level\":" ++
    ascii (toString (call.alert.elim 0 fun alert => alert.level.number)) ++
    ascii ",\"incident_id\":\"" ++ call.alert.elim [] AuditAlert.incidentId ++
    ascii "\",\"message\":\"" ++ messageEscape 0 (call.alert.elim [] fun alert => alert.message)

def chainField (tag : Bytes) : Bytes := ascii "\",\"chain_prev\":\"" ++ tag ++ ascii "\"\x7d"

def Carries (line tag : Bytes) : Prop := chainField tag <:+ line

instance (line tag : Bytes) : Decidable (Carries line tag) :=
  inferInstanceAs (Decidable (chainField tag <:+ line))

theorem carries_append_chainField {tag held : Bytes} (plain : chr '"' ∉ tag)
    (heldPlain : chr '"' ∉ held) (fields : Bytes) :
    Carries (fields ++ chainField held) tag ↔ held = tag := by
  have opened : ∀ text : Bytes, chainField text =
      ascii "\",\"chain_prev\":" ++ chr '"' :: text ++ ascii "\"\x7d" := by
    intro text
    rfl
  constructor
  · rintro ⟨before, same⟩
    rw [opened, opened, ← append_assoc, ← append_assoc, ← append_assoc,
      ← append_assoc, append_cancel_right_eq] at same
    exact (Lines.eq_of_append_cons_eq plain heldPlain same).symm
  · rintro rfl
    exact suffix_append fields _

/-- The file is a chain from `genesis` on. -/
def ChainFile (sha : Sha) (content : Bytes) : Prop :=
  ∃ records : List Bytes, content = Lines.text 10 records ∧ (∀ record ∈ records, 10 ∉ record) ∧
    HashChain.Valid Carries sha.hex genesis records

def chainHead (sha : Sha) (content : Bytes) : Bytes :=
  HashChain.tip sha.hex genesis (Lines.terminated 10 content)

theorem quote_not_mem_chainHead (sha : Sha) (content : Bytes) : chr '"' ∉ chainHead sha content := by
  unfold chainHead
  rcases eq_nil_or_concat (Lines.terminated 10 content) with empty | ⟨records, record, some⟩
  · rw [empty, HashChain.tip_nil]
    decide
  · rw [some, concat_eq_append, HashChain.tip_append_singleton]
    apply quote_not_mem_hex

theorem chainFile_append_line (sha : Sha) {content line : Bytes} (chain : ChainFile sha content)
    (plain : 10 ∉ line) :
    ChainFile sha (content ++ line ++ [10]) ↔ Carries line (chainHead sha content) := by
  rcases chain with ⟨records, rfl, recordsPlain, valid⟩
  have allPlain : ∀ record ∈ records ++ [line], 10 ∉ record := by
    intro record mem
    rcases List.mem_append.mp mem with old | new
    · exact recordsPlain record old
    · rwa [List.mem_singleton.mp new]
  have grown : Lines.text 10 records ++ line ++ [10] = Lines.text 10 (records ++ [line]) := by
    simp
  have head : chainHead sha (Lines.text 10 records) = HashChain.tip sha.hex genesis records := by
    unfold chainHead
    rw [Lines.terminated_text recordsPlain]
  rw [grown, head]
  constructor
  · rintro ⟨others, same, othersPlain, othersValid⟩
    have unique := congrArg (Lines.terminated 10) same
    rw [Lines.terminated_text allPlain, Lines.terminated_text othersPlain] at unique
    rw [← unique, HashChain.valid_append_singleton] at othersValid
    exact othersValid.2
  · intro carried
    exact ⟨_, rfl, allPlain, (HashChain.valid_append_singleton records line).mpr ⟨valid, carried⟩⟩

/-- `line[strlen(line) - 1] == '\n'` and its removal. -/
def chomp (line : Bytes) : Bytes := if line.getLast? = some 10 then line.dropLast else line

/-- What `last` holds at the end of the file. -/
def lastRecord (content : Bytes) : Bytes :=
  (fgetsLines 2048 content).foldl
    (fun last line => if chomp line = [] then last else copyInto 2048 (chomp line)) []

/-- The variables of `ban_policy.c` that an audit reads, and the files. -/
structure AuditState (File : Type u) where
  auditPath : Bytes := ascii "data/ban-policy-audit.jsonl"
  tenantId : Bytes := ascii "default"
  chainPrev : Bytes := genesis
  chainPlain : chr '"' ∉ chainPrev := by decide
  files : File → Bytes

section Steps

variable {File : Type u} (sha : Sha) (disk : Bytes → Option File)

/-- `ban_policy_load_chain_head`. -/
def banPolicyLoadChainHead (opens : Bool) (state : AuditState File) : AuditState File :=
  if state.auditPath = [] ∨ opens = false then state
  else
    match disk state.auditPath with
    | none => state
    | some file =>
      let last := lastRecord (state.files file)
      if last = [] then state
      else { state with chainPrev := sha.hex last, chainPlain := quote_not_mem_hex sha last }

/-- `ban_policy_config` with its audit path, `none` for a null pointer. -/
def banPolicyConfig (auditPath : Option Bytes) (opens : Bool) (state : AuditState File) :
    AuditState File :=
  let path := if auditPath.getD [] = [] then state.auditPath else copyInto 512 (auditPath.getD [])
  banPolicyLoadChainHead sha disk opens { state with auditPath := path }

def banPolicySetTenant (tenantId : Option Bytes) (state : AuditState File) : AuditState File :=
  match tenantId with
  | none => state
  | some name => { state with tenantId := copyInto 128 name }

@[simp] theorem files_banPolicyLoadChainHead (opens : Bool) (state : AuditState File) :
    (banPolicyLoadChainHead sha disk opens state).files = state.files := by
  unfold banPolicyLoadChainHead
  split
  · rfl
  · split
    · rfl
    · dsimp only
      split <;> rfl

@[simp] theorem files_banPolicyConfig (auditPath : Option Bytes) (opens : Bool)
    (state : AuditState File) :
    (banPolicyConfig sha disk auditPath opens state).files = state.files := by
  unfold banPolicyConfig
  rw [files_banPolicyLoadChainHead]

@[simp] theorem files_banPolicySetTenant (tenantId : Option Bytes) (state : AuditState File) :
    (banPolicySetTenant tenantId state).files = state.files := by
  rcases tenantId with _ | name <;> rfl

def auditTarget (state : AuditState File) (call : AuditCall) : Option (File × Bytes) :=
  match call.ip, call.verdict with
  | some ip, some verdict =>
    if state.auditPath = [] ∨ call.opens = false then none
    else
      (disk state.auditPath).map fun file => (file, auditFields state.tenantId ip verdict call)
  | _, _ => none

variable [DecidableEq File]

/-- `ban_policy_audit`: `line` has 1536 bytes. -/
def banPolicyAudit (call : AuditCall) (state : AuditState File) : AuditState File :=
  match auditTarget disk state call with
  | none => state
  | some (file, fields) =>
    let line := copyInto 1536 (fields ++ chainField state.chainPrev)
    { state with
      chainPrev := sha.hex line
      chainPlain := quote_not_mem_hex sha line
      files := Function.update state.files file (state.files file ++ line ++ [10]) }

inductive AuditEvent where
  | config (auditPath : Option Bytes) (opens : Bool)
  | setTenant (tenantId : Option Bytes)
  | audit (call : AuditCall)
  | restart
  deriving DecidableEq, Repr

def auditStep (state : AuditState File) : AuditEvent → AuditState File
  | .config auditPath opens => banPolicyConfig sha disk auditPath opens state
  | .setTenant tenantId => banPolicySetTenant tenantId state
  | .audit call => banPolicyAudit sha disk call state
  | .restart => { files := state.files }

theorem files_banPolicyAudit (call : AuditCall) (state : AuditState File) :
    (banPolicyAudit sha disk call state).files =
      (auditTarget disk state call).elim state.files fun target =>
        Function.update state.files target.1
          (state.files target.1 ++ copyInto 1536 (target.2 ++ chainField state.chainPrev) ++ [10]) := by
  unfold banPolicyAudit
  rcases auditTarget disk state call with _ | ⟨file, fields⟩ <;> rfl

/-- The record fits its buffer and is one line of a C string. -/
def WritesLine (state : AuditState File) : AuditEvent → Prop
  | .audit call =>
    ∀ target ∈ auditTarget disk state call,
      (target.2 ++ chainField state.chainPrev).length < 1536 ∧
        10 ∉ target.2 ++ chainField state.chainPrev ∧ 0 ∉ target.2 ++ chainField state.chainPrev
  | _ => True

/-- The process holds the head of the file it appends to, where that file started empty. -/
def HoldsHead (fresh : File → Prop) (state : AuditState File) : AuditEvent → Prop
  | .audit call =>
    ∀ target ∈ auditTarget disk state call,
      fresh target.1 → state.chainPrev = chainHead sha (state.files target.1)
  | _ => True

instance (state : AuditState File) : ∀ event, Decidable (WritesLine disk state event)
  | .audit call =>
    inferInstanceAs (Decidable (∀ target ∈ auditTarget disk state call,
      (target.2 ++ chainField state.chainPrev).length < 1536 ∧
        10 ∉ target.2 ++ chainField state.chainPrev ∧
        0 ∉ target.2 ++ chainField state.chainPrev))
  | .config _ _ => isTrue trivial
  | .setTenant _ => isTrue trivial
  | .restart => isTrue trivial

variable {sha}

theorem chainFiles_auditStep_iff {fresh : File → Prop} {state : AuditState File}
    {event : AuditEvent} (writes : WritesLine disk state event)
    (chains : ∀ file, fresh file → ChainFile sha (state.files file)) :
    (∀ file, fresh file → ChainFile sha ((auditStep sha disk state event).files file)) ↔
      HoldsHead sha disk fresh state event := by
  cases event with
  | config auditPath opens => simpa [auditStep, HoldsHead] using chains
  | setTenant tenantId => simpa [auditStep, HoldsHead] using chains
  | restart => simpa [auditStep, HoldsHead] using chains
  | audit call =>
    simp only [auditStep, HoldsHead, files_banPolicyAudit] at writes ⊢
    rcases targeted : auditTarget disk state call with _ | ⟨file, fields⟩
    · simpa using chains
    rcases writes (file, fields) targeted with ⟨fits, plain, -⟩
    simp only [Option.elim_some, Option.mem_def, Option.some.injEq, forall_eq',
      copyInto_of_length_lt fits]
    have here : fresh file → (ChainFile sha
        (state.files file ++ (fields ++ chainField state.chainPrev) ++ [10]) ↔
          state.chainPrev = chainHead sha (state.files file)) := by
      intro isFresh
      rw [chainFile_append_line sha (chains file isFresh) plain]
      exact carries_append_chainField (quote_not_mem_chainHead sha _) state.chainPlain fields
    constructor
    · intro after isFresh
      apply (here isFresh).mp
      simpa using after file isFresh
    · intro held other isFresh
      rcases eq_or_ne other file with rfl | different
      · rw [Function.update_self]
        exact (here isFresh).mpr (held isFresh)
      · rw [Function.update_of_ne different]
        exact chains other isFresh

/-- The file that an audit appends to. -/
def appendsTo (path : Bytes) (call : AuditCall) : Option File :=
  if call.ip = none ∨ call.verdict = none ∨ path = [] ∨ call.opens = false then none else disk path

omit [DecidableEq File] in
theorem map_auditTarget (state : AuditState File) (call : AuditCall) :
    (auditTarget disk state call).map Prod.fst = appendsTo disk state.auditPath call := by
  rcases call with ⟨_ | ip, alert, _ | verdict, banned, now, opens⟩ <;> simp [auditTarget, appendsTo]
  split_ifs
  · rfl
  · rw [Option.map_map]
    exact Option.map_id'

/-- What the events say of a process: its path, the file that its head was taken from (`none` from
its start on), and the files that have records. -/
structure AuditTrail (File : Type u) where
  path : Bytes := ascii "data/ban-policy-audit.jsonl"
  holder : Option File := none
  used : File → Bool

/-- A config takes the head of a file that can be read and has records; an audit leaves the head of
the file it appends to; a new process has none. -/
def trailStep (trail : AuditTrail File) : AuditEvent → AuditTrail File
  | .config auditPath opens =>
    let path := if auditPath.getD [] = [] then trail.path else copyInto 512 (auditPath.getD [])
    let read := if path = [] ∨ opens = false then none else disk path
    { trail with path := path, holder := (read.filter trail.used).or trail.holder }
  | .setTenant _ => trail
  | .audit call => (appendsTo disk trail.path call).elim trail fun file =>
    { trail with holder := some file, used := Function.update trail.used file true }
  | .restart => { used := trail.used }

/-- An audit that appends to a file with records follows its head; one that begins a file is made by
a process that has taken no head since its start. -/
def FollowsTrail (fresh : File → Prop) (trail : AuditTrail File) : AuditEvent → Prop
  | .audit call => ∀ file ∈ appendsTo disk trail.path call, fresh file →
      trail.holder = if trail.used file then some file else none
  | _ => True

instance (fresh : File → Prop) [DecidablePred fresh] (trail : AuditTrail File) :
    ∀ event, Decidable (FollowsTrail disk fresh trail event)
  | .audit call => inferInstanceAs (Decidable (∀ file ∈ appendsTo disk trail.path call,
      fresh file → trail.holder = if trail.used file then some file else none))
  | .config _ _ => isTrue trivial
  | .setTenant _ => isTrue trivial
  | .restart => isTrue trivial

/-- A line that `ban_policy_load_chain_head` reads back whole. -/
def IsRecord (record : Bytes) : Prop := record ≠ [] ∧ 10 ∉ record ∧ 0 ∉ record ∧ record.length < 1536

theorem chainHead_text {records : List Bytes} (areRecords : ∀ record ∈ records, IsRecord record) :
    chainHead sha (Lines.text 10 records) = HashChain.tip sha.hex genesis records := by
  rw [chainHead, Lines.terminated_text fun record mem => (areRecords record mem).2.1]

theorem lastRecord_text {records : List Bytes} (areRecords : ∀ record ∈ records, IsRecord record) :
    lastRecord (Lines.text 10 records) = records.getLastD [] := by
  rw [lastRecord, fgetsLines_text fun record mem => ⟨(areRecords record mem).2.1,
    (areRecords record mem).2.2.1, by have := (areRecords record mem).2.2.2; omega⟩, foldl_map]
  rcases eq_nil_or_concat records with rfl | ⟨front, last, rfl⟩
  · rfl
  · rw [concat_eq_append] at areRecords
    rcases areRecords last (by simp) with ⟨nonempty, -, -, short⟩
    have chomped : chomp (last ++ [10]) = last := by simp [chomp]
    rw [concat_eq_append, foldl_append, foldl_cons, foldl_nil, chomped, if_neg nonempty,
      copyInto_of_length_lt (by omega)]
    simp

/-- The trail says where the head of the process comes from. -/
structure OnTrail (sha : Sha) (fresh : File → Prop) (trail : AuditTrail File)
    (state : AuditState File) : Prop where
  path : trail.path = state.auditPath
  old : ∀ file, ¬fresh file → trail.used file = true
  records : ∀ file, fresh file → ∃ records, state.files file = Lines.text 10 records ∧
    (∀ record ∈ records, IsRecord record) ∧ (trail.used file = true ↔ records ≠ [])
  start : trail.holder = none → state.chainPrev = genesis
  head : ∀ file, fresh file → trail.holder = some file →
    state.chainPrev = chainHead sha (state.files file)

variable {fresh : File → Prop} {trail : AuditTrail File} {state : AuditState File}

omit [DecidableEq File] in
theorem OnTrail.loadChainHead {disk : Bytes → Option File} (onTrail : OnTrail sha fresh trail state)
    (opens : Bool) :
    OnTrail sha fresh
      { trail with holder := ((if state.auditPath = [] ∨ opens = false then none
          else disk state.auditPath).filter trail.used).or trail.holder }
      (banPolicyLoadChainHead sha disk opens state) := by
  unfold banPolicyLoadChainHead
  split_ifs with unread
  · exact onTrail
  rcases disk state.auditPath with _ | file
  · exact onTrail
  by_cases isFresh : fresh file
  · rcases onTrail.records file isFresh with ⟨records, content, areRecords, hasRecords⟩
    have last : lastRecord (state.files file) = records.getLastD [] := by
      rw [content, lastRecord_text areRecords]
    rcases eq_nil_or_concat records with rfl | ⟨front, record, rfl⟩
    · have unused : ¬trail.used file = true := by simp [hasRecords]
      dsimp only
      rw [getLastD_nil] at last
      rw [if_pos last, Option.filter_some, if_neg unused, Option.none_or]
      exact onTrail
    · rw [concat_eq_append] at last content areRecords
      rw [getLastD_concat] at last
      have used : trail.used file = true := hasRecords.mpr (by simp)
      have nonempty : lastRecord (state.files file) ≠ [] := by
        rw [last]
        exact (areRecords record (by simp)).1
      dsimp only
      rw [if_neg nonempty, Option.filter_some, if_pos used, Option.some_or]
      refine ⟨onTrail.path, onTrail.old, onTrail.records, fun none => by simp at none, ?_⟩
      rintro other - ⟨⟩
      dsimp only
      rw [last, content, chainHead_text areRecords, HashChain.tip_append_singleton]
  · rw [Option.filter_some, if_pos (onTrail.old file isFresh), Option.some_or]
    have outside : ∀ other, fresh other → some file ≠ some other :=
      fun other otherFresh same => isFresh (Option.some.inj same ▸ otherFresh)
    dsimp only
    split_ifs
    all_goals exact ⟨onTrail.path, onTrail.old, onTrail.records, fun none => by simp at none,
      fun other otherFresh same => absurd same (outside other otherFresh)⟩

theorem OnTrail.audit {disk : Bytes → Option File} (onTrail : OnTrail sha fresh trail state)
    {call : AuditCall} (writes : WritesLine disk state (.audit call)) :
    OnTrail sha fresh (trailStep disk trail (.audit call)) (banPolicyAudit sha disk call state) := by
  have same := map_auditTarget disk state call
  rw [← onTrail.path] at same
  unfold banPolicyAudit
  rw [trailStep, ← same]
  rcases targeted : auditTarget disk state call with _ | ⟨file, fields⟩
  · exact onTrail
  rcases writes (file, fields) targeted with ⟨fits, plain, noNul⟩
  have isRecord : IsRecord (fields ++ chainField state.chainPrev) :=
    ⟨by simp [chainField, ascii], plain, noNul, fits⟩
  simp only [Option.map_some, Option.elim_some, copyInto_of_length_lt fits]
  refine ⟨onTrail.path, ?_, ?_, fun none => by simp at none, ?_⟩
  · intro other notFresh
    rcases eq_or_ne other file with rfl | different
    · simp
    · simpa [different] using onTrail.old other notFresh
  · intro other isFresh
    rcases onTrail.records other isFresh with ⟨records, content, areRecords, hasRecords⟩
    rcases eq_or_ne other file with rfl | different
    · refine ⟨records ++ [fields ++ chainField state.chainPrev], ?_, ?_, by simp⟩
      · simp [content]
      · rw [forall_mem_append, forall_mem_singleton]
        exact ⟨areRecords, isRecord⟩
    · exact ⟨records, by simpa [different] using content, areRecords,
        by simpa [different] using hasRecords⟩
  · rintro other isFresh ⟨⟩
    rcases onTrail.records file isFresh with ⟨records, content, areRecords, -⟩
    have grown : Lines.text 10 records ++ (fields ++ chainField state.chainPrev) ++ [10] =
        Lines.text 10 (records ++ [fields ++ chainField state.chainPrev]) := by simp
    dsimp only
    rw [Function.update_self, content, grown, chainHead_text, HashChain.tip_append_singleton]
    rw [forall_mem_append, forall_mem_singleton]
    exact ⟨areRecords, isRecord⟩

theorem OnTrail.step {disk : Bytes → Option File} (onTrail : OnTrail sha fresh trail state)
    {event : AuditEvent} (writes : WritesLine disk state event) :
    OnTrail sha fresh (trailStep disk trail event) (auditStep sha disk state event) := by
  cases event with
  | config auditPath opens =>
    rw [trailStep, onTrail.path, auditStep, banPolicyConfig]
    generalize (if auditPath.getD [] = [] then state.auditPath
      else copyInto 512 (auditPath.getD [])) = path
    have moved : OnTrail sha fresh { trail with path := path } { state with auditPath := path } :=
      ⟨rfl, onTrail.old, onTrail.records, onTrail.start, onTrail.head⟩
    exact moved.loadChainHead opens
  | setTenant tenantId =>
    rcases tenantId with _ | name
    · exact onTrail
    · exact ⟨onTrail.path, onTrail.old, onTrail.records, onTrail.start, onTrail.head⟩
  | audit call => exact onTrail.audit writes
  | restart =>
    exact ⟨rfl, onTrail.old, onTrail.records, fun _ => rfl, fun file _ held => by simp [trailStep] at held⟩

omit [DecidableEq File] in
theorem OnTrail.holdsHead {disk : Bytes → Option File} (onTrail : OnTrail sha fresh trail state)
    {event : AuditEvent} (follows : FollowsTrail disk fresh trail event) :
    HoldsHead sha disk fresh state event := by
  cases event with
  | audit call =>
    intro target targeted isFresh
    have same := map_auditTarget disk state call
    rw [← onTrail.path, targeted, Option.map_some] at same
    have held := follows target.1 same.symm isFresh
    rcases onTrail.records target.1 isFresh with ⟨records, content, areRecords, hasRecords⟩
    split_ifs at held with used
    · exact onTrail.head target.1 isFresh held
    · have empty : records = [] := by simpa using (not_congr hasRecords).mp used
      rw [onTrail.start held, content, empty]
      rfl
  | _ => trivial

theorem OnTrail.guarded {disk : Bytes → Option File} {events : List AuditEvent}
    (onTrail : OnTrail sha fresh trail state)
    (writes : Machine.Guarded (auditStep sha disk) (WritesLine disk) state events)
    (follows : Machine.Guarded (trailStep disk) (FollowsTrail disk fresh) trail events) :
    Machine.Guarded (auditStep sha disk) (HoldsHead sha disk fresh) state events := by
  induction events generalizing trail state with
  | nil => trivial
  | cons event rest ih =>
    exact ⟨onTrail.holdsHead follows.1, ih (onTrail.step writes.1) writes.2 follows.2⟩

/-- At every point of a run, every file that started empty is a valid chain: if every audit follows
the trail of the events, and exactly when every audit is made while the process holds the head of
its file. -/
theorem audit_files_chained (sha : Sha) (disk : Bytes → Option File) (files : File → Bytes)
    (events : List AuditEvent)
    (writes : Machine.Guarded (auditStep sha disk) (WritesLine disk) { files := files } events) :
    (Machine.Guarded (trailStep disk) (FollowsTrail disk fun file => files file = [])
        { used := fun file => files file ≠ [] } events →
      ∀ before, before <+: events → ∀ file, files file = [] →
        ChainFile sha ((Machine.run (auditStep sha disk) { files := files } before).files file)) ∧
    ((∀ before, before <+: events → ∀ file, files file = [] →
        ChainFile sha ((Machine.run (auditStep sha disk) { files := files } before).files file)) ↔
      Machine.Guarded (auditStep sha disk)
        (HoldsHead sha disk fun file => files file = []) { files := files } events) := by
  have chained : (∀ before, before <+: events → ∀ file, files file = [] →
        ChainFile sha ((Machine.run (auditStep sha disk) { files := files } before).files file)) ↔
      Machine.Guarded (auditStep sha disk)
        (HoldsHead sha disk fun file => files file = []) { files := files } events := by
    apply Machine.forall_prefix_iff_guarded_of_guarded
      (fun state => ∀ file, files file = [] → ChainFile sha (state.files file)) _ _ writes
    · intro state event writesLine chains
      exact chainFiles_auditStep_iff disk writesLine chains
    · intro file empty
      change ChainFile sha (files file)
      rw [empty]
      exact ⟨[], rfl, by simp, trivial⟩
  refine ⟨fun follows => chained.mpr (OnTrail.guarded ?_ writes follows), chained⟩
  refine ⟨rfl, fun file filled => by simpa using filled, fun file empty => ?_, fun _ => rfl,
    fun file _ held => by simp at held⟩
  exact ⟨[], empty, by simp, by simp [empty]⟩

end Steps

def checksumSha : Sha where
  hex := checksumMac.hmacHex []
  isHex := checksumMac.isHex []

def twoFiles (path : Bytes) : Option Bool :=
  if path = ascii "a.jsonl" then some false else if path = ascii "b.jsonl" then some true else none

def sampleCall : AuditCall where
  ip := some (ascii "203.0.113.7")
  alert := some { level := .crit, message := ascii "say \"hi\"", incidentId := [] }
  verdict := some { riskScore := 850, minRisk := 600, decision := ascii "ban" }
  banned := true
  now := 1700000000
  opens := true

/-- Two processes that append to one file, and a third that begins another. -/
theorem audit_files_chained_over_restarts :
    let files : Bool → Bytes := fun _ => []
    let events : List AuditEvent := [.config (some (ascii "a.jsonl")) true, .audit sampleCall,
      .restart, .config (some (ascii "a.jsonl")) true, .audit sampleCall, .audit sampleCall,
      .restart, .config (some (ascii "b.jsonl")) true, .audit sampleCall]
    Machine.Guarded (auditStep checksumSha twoFiles) (WritesLine twoFiles) { files := files }
        events ∧
      ∀ before, before <+: events → ∀ file, files file = [] → ChainFile checksumSha
        ((Machine.run (auditStep checksumSha twoFiles) { files := files } before).files file) := by
  intro files events
  have writes : Machine.Guarded (auditStep checksumSha twoFiles) (WritesLine twoFiles)
      { files := files } events := by
    decide +kernel
  refine ⟨writes, (audit_files_chained checksumSha twoFiles files events writes).1 ?_⟩
  decide +kernel

/-- One process that is given a second file: the first record there carries the hash of a record
of the first file. -/
theorem second_audit_file_not_chained :
    let initial : AuditState Bool := { files := fun _ => [] }
    let events : List AuditEvent := [.config (some (ascii "a.jsonl")) true, .audit sampleCall,
      .config (some (ascii "b.jsonl")) true, .audit sampleCall]
    let files := (Machine.run (auditStep checksumSha twoFiles) initial events).files
    initial.files true = [] ∧
      Carries ((Lines.terminated 10 (files true)).headD [])
        (checksumSha.hex ((Lines.terminated 10 (files false)).headD [])) ∧
      ¬ChainFile checksumSha (files true) := by
  intro initial events files
  refine ⟨rfl, by decide +kernel, ?_⟩
  have empty : ChainFile checksumSha [] := ⟨[], rfl, by simp, trivial⟩
  have content : files true = [] ++ (files true).dropLast ++ [10] := by
    decide +kernel
  rw [content, chainFile_append_line checksumSha empty (by decide +kernel)]
  decide +kernel

end LogGuardian
