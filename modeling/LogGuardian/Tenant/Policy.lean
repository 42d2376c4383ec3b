import LogGuardian.Bytes

/-!
# Tenant storage
-/

namespace LogGuardian

open List

/-- The bytes that `sanitize_copy` keeps: `isalnum` of the C locale, `_` and `-`. -/
def isTenantByte (byte : UInt8) : Bool :=
  isDigit byte || (65 ≤ byte && byte ≤ 90) || (97 ≤ byte && byte ≤ 122) ||
    byte == chr '_' || byte == chr '-'

/-- `sanitize_copy` and `sanitize_tenant` into a buffer of `size` bytes. -/
def sanitizeCopy (size : ℕ) (text : Bytes) : Bytes :=
  let kept := (text.filter isTenantByte).take (size - 1)
  if kept = [] then copyInto size (ascii "default") else kept

/-- A `char` array of the caller with its size and the string in it. -/
structure DbBuffer where
  size : ℕ
  content : Bytes
  deriving DecidableEq, Repr

structure TenantIsolationInfo where
  tenantId : Bytes
  safeId : Bytes
  multiTenant : Bool
  dataDir : Bytes
  banAuditPath : Bytes
  threatAuditPath : Bytes
  fpStorePath : Bytes
  dbPath : Bytes
  deriving DecidableEq, Repr

def databaseFront (rulesDir : Option Bytes) : Bytes :=
  if rulesDir.getD [] = [] then ascii "events-" else rulesDir.getD [] ++ ascii "/events-"

/-- `tenant_db_apply_path`: the new content of the buffer, or `none` for the return value 0. -/
def tenantDbApplyPath (tenantId : Option Bytes) (multiTenant : Bool) (buffer : Option DbBuffer)
    (rulesDirHint : Option Bytes) : Option DbBuffer :=
  match tenantId, buffer with
  | some id, some buffer =>
    if multiTenant = false ∨ buffer.size < 16 then none
    else
      some { buffer with
        content := copyInto buffer.size
          (databaseFront rulesDirHint ++ sanitizeCopy 64 id ++ ascii ".db") }
  | _, _ => none

/-- The `db_path` of a tenant and the buffer of the caller, with multi-tenancy on. -/
def tenantDatabase (id safeId : Bytes) (rulesDir : Option Bytes) (buffer : Option DbBuffer)
    (dbPathCliSet : Bool) : Bytes × Option DbBuffer :=
  match buffer with
  | none => ([], none)
  | some given =>
    if dbPathCliSet = false ∧ given.size ≠ 0 then
      match tenantDbApplyPath (some id) true buffer rulesDir with
      | some filled => (copyInto 256 filled.content, some filled)
      | none =>
        let path := copyInto 256 (ascii "events-" ++ safeId ++ ascii ".db")
        if path.length + 1 ≤ given.size then
          (path, some { given with content := copyInto given.size path })
        else (path, buffer)
    else (copyInto 256 given.content, buffer)

/-- `if (!tenant_id || !tenant_id[0]) tenant_id = "default"`. -/
def givenTenantId (tenantId : Option Bytes) : Bytes :=
  if tenantId.getD [] = [] then ascii "default" else tenantId.getD []

/-- The `safe_id` of a tenant. -/
def tenantSafeId (tenantId : Option Bytes) : Bytes := sanitizeCopy 64 (givenTenantId tenantId)

/-- `tenant_policy_apply`: `g_info` and the buffer of the caller. -/
def tenantPolicyApply (tenantId : Option Bytes) (multiTenant : Bool) (rulesDir : Option Bytes)
    (buffer : Option DbBuffer) (dbPathCliSet : Bool) : TenantIsolationInfo × Option DbBuffer :=
  let id := givenTenantId tenantId
  let safeId := tenantSafeId tenantId
  if multiTenant = false then
    let content := (buffer.elim [] DbBuffer.content)
    ({ tenantId := copyInto 128 id
       safeId := safeId
       multiTenant := false
       dataDir := ascii "data"
       banAuditPath := ascii "data/ban-policy-audit.jsonl"
       threatAuditPath := ascii "data/threat-feed-audit.jsonl"
       fpStorePath := ascii "data/fp-trust.lst"
       dbPath :=
        if buffer.elim 0 DbBuffer.size = 0 then []
        else copyInto 256 (if content = [] then ascii "events.db" else content) }, buffer)
  else
    let dataDir := copyInto 256 (ascii "data/tenants/" ++ safeId)
    let database := tenantDatabase id safeId rulesDir buffer dbPathCliSet
    ({ tenantId := copyInto 128 id
       safeId := safeId
       multiTenant := true
       dataDir := dataDir
       banAuditPath := copyInto 512 (dataDir ++ ascii "/ban-policy-audit.jsonl")
       threatAuditPath := copyInto 512 (dataDir ++ ascii "/threat-feed-audit.jsonl")
       fpStorePath := copyInto 512 (dataDir ++ ascii "/fp-trust.lst")
       dbPath := database.1 }, database.2)

theorem length_sanitizeCopy (text : Bytes) : (sanitizeCopy 64 text).length ≤ 63 := by
  unfold sanitizeCopy
  dsimp only
  split
  · decide
  · exact length_take_le 63 _

/-- What two tenants must not share. -/
def Isolated (dbPathCliSet : Bool) (first second : TenantIsolationInfo) : Prop :=
  first.dataDir ≠ second.dataDir ∧ first.banAuditPath ≠ second.banAuditPath ∧
    first.threatAuditPath ≠ second.threatAuditPath ∧ first.fpStorePath ≠ second.fpStorePath ∧
    (dbPathCliSet = false → first.dbPath ≠ second.dbPath)

def databaseRoom (rulesDir : Option Bytes) : Option DbBuffer → ℕ
  | none => 0
  | some buffer =>
    if buffer.size = 0 then 0
    else if buffer.size < 16 then 248
    else min (buffer.size - 1) 255 - (databaseFront rulesDir).length

def databaseName (rulesDir : Option Bytes) (buffer : Option DbBuffer) (tenantId : Option Bytes) :
    Bytes :=
  (tenantSafeId tenantId ++ ascii ".db").take (databaseRoom rulesDir buffer)

theorem take_append_inj {front first second : Bytes} (count : ℕ) :
    (front ++ first).take count = (front ++ second).take count ↔
      first.take (count - front.length) = second.take (count - front.length) := by
  rw [take_append, take_append, append_right_inj]

theorem copyInto_dataDir {safeId : Bytes} (short : safeId.length ≤ 63) :
    copyInto 256 (ascii "data/tenants/" ++ safeId) = ascii "data/tenants/" ++ safeId := by
  apply copyInto_of_length_lt
  rw [length_append, show (ascii "data/tenants/").length = 13 from rfl]
  omega

theorem copyInto_dataFile_inj {firstId secondId : Bytes} (firstShort : firstId.length ≤ 63)
    (secondShort : secondId.length ≤ 63) {file : Bytes} (fileShort : file.length ≤ 30) :
    copyInto 512 (copyInto 256 (ascii "data/tenants/" ++ firstId) ++ file) =
        copyInto 512 (copyInto 256 (ascii "data/tenants/" ++ secondId) ++ file) ↔
      firstId = secondId := by
  have whole : ∀ safeId : Bytes, safeId.length ≤ 63 →
      copyInto 512 (ascii "data/tenants/" ++ safeId ++ file) =
        ascii "data/tenants/" ++ safeId ++ file := by
    intro safeId short
    apply copyInto_of_length_lt
    rw [length_append, length_append, show (ascii "data/tenants/").length = 13 from rfl]
    omega
  rw [copyInto_dataDir firstShort, copyInto_dataDir secondShort, whole _ firstShort,
    whole _ secondShort, append_left_inj, append_right_inj]

theorem dbPath_of_tiny {size : ℕ} (given : size ≠ 0) (tiny : size < 16) (id safeId content : Bytes)
    (rulesDir : Option Bytes) :
    (tenantDatabase id safeId rulesDir (some ⟨size, content⟩) false).1 =
      (ascii "events-" ++ (safeId ++ ascii ".db")).take 255 := by
  unfold tenantDatabase tenantDbApplyPath
  dsimp only
  rw [if_pos ⟨rfl, given⟩, if_pos (Or.inr tiny)]
  dsimp only
  split <;> simp [copyInto]

theorem dbPath_of_filled {size : ℕ} (large : ¬size < 16) (id safeId content : Bytes)
    (rulesDir : Option Bytes) :
    (tenantDatabase id safeId rulesDir (some ⟨size, content⟩) false).1 =
      (databaseFront rulesDir ++ (sanitizeCopy 64 id ++ ascii ".db")).take (min (size - 1) 255) := by
  have given : size ≠ 0 := by
    omega
  unfold tenantDatabase tenantDbApplyPath
  dsimp only
  rw [if_pos ⟨rfl, given⟩, if_neg (by simpa using large)]
  simp [copyInto, take_take, Nat.min_comm]

theorem tenantDatabase_eq_iff (first second : Option Bytes) (rulesDir : Option Bytes)
    (buffer : Option DbBuffer) :
    (tenantDatabase (givenTenantId first) (tenantSafeId first) rulesDir buffer false).1 =
        (tenantDatabase (givenTenantId second) (tenantSafeId second) rulesDir buffer false).1 ↔
      databaseName rulesDir buffer first = databaseName rulesDir buffer second := by
  unfold databaseName databaseRoom
  rcases buffer with _ | ⟨size, content⟩
  · simp [tenantDatabase]
  by_cases absent : size = 0
  · simp [tenantDatabase, absent]
  dsimp only
  by_cases tiny : size < 16
  · rw [dbPath_of_tiny absent tiny, dbPath_of_tiny absent tiny, if_neg absent, if_pos tiny]
    exact take_append_inj 255
  · rw [dbPath_of_filled tiny, dbPath_of_filled tiny, if_neg absent, if_neg tiny]
    exact take_append_inj (min (size - 1) 255)

/-- With multi-tenancy on two tenants share no path exactly when their sanitized ids differ, and
differ within the room for the database name. -/
theorem isolated_tenantPolicyApply_iff (first second : Option Bytes) (rulesDir : Option Bytes)
    (buffer : Option DbBuffer) (dbPathCliSet : Bool) :
    Isolated dbPathCliSet (tenantPolicyApply first true rulesDir buffer dbPathCliSet).1
        (tenantPolicyApply second true rulesDir buffer dbPathCliSet).1 ↔
      tenantSafeId first ≠ tenantSafeId second ∧
        (dbPathCliSet = false →
          databaseName rulesDir buffer first ≠ databaseName rulesDir buffer second) := by
  have firstShort : (tenantSafeId first).length ≤ 63 := length_sanitizeCopy _
  have secondShort : (tenantSafeId second).length ≤ 63 := length_sanitizeCopy _
  unfold Isolated
  simp only [tenantPolicyApply, Bool.true_eq_false, if_false, ne_eq]
  rw [copyInto_dataFile_inj firstShort secondShort (by decide),
    copyInto_dataFile_inj firstShort secondShort (by decide),
    copyInto_dataFile_inj firstShort secondShort (by decide), copyInto_dataDir firstShort,
    copyInto_dataDir secondShort, append_right_inj]
  cases dbPathCliSet with
  | true => simp
  | false =>
    rw [tenantDatabase_eq_iff]
    tauto

/-- Two different ids with one sanitized form share everything. -/
theorem acme_tenants_share_paths :
    let buffer : Option DbBuffer := some ⟨256, []⟩
    let first := tenantPolicyApply (some (ascii "acme.corp")) true (some (ascii "rules")) buffer false
    let second := tenantPolicyApply (some (ascii "acmecorp")) true (some (ascii "rules")) buffer false
    ascii "acme.corp" ≠ ascii "acmecorp" ∧ first.1.dataDir = second.1.dataDir ∧
      first.1.banAuditPath = second.1.banAuditPath ∧
      first.1.threatAuditPath = second.1.threatAuditPath ∧
      first.1.fpStorePath = second.1.fpStorePath ∧ first.1.dbPath = second.1.dbPath ∧
      ¬Isolated false first.1 second.1 := by
  intro buffer first second
  have dirs : first.1.dataDir = second.1.dataDir := by
    decide
  refine ⟨by decide, dirs, by decide, by decide, by decide, by decide, ?_⟩
  intro isolated
  exact isolated.1 dirs

end LogGuardian
