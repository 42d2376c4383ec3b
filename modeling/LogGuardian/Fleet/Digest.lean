import LogGuardian.Lib.Delimited
import LogGuardian.Fleet.Agent

/-!
# The message of a signature
-/

namespace LogGuardian

structure SignedFields where
  id : Bytes
  tenantId : Bytes
  commandType : Bytes
  payload : Bytes
  target : Bytes
  deriving DecidableEq, Repr

namespace SignedFields

def digest (fields : SignedFields) : Bytes :=
  buildFleetCommandDigest fields.id fields.tenantId fields.commandType fields.payload fields.target

/-- `msg` of `fleet_verify_command_sig`. -/
def message (fields : SignedFields) : Bytes := copyInto 4608 fields.digest

def texts (fields : SignedFields) : List Bytes :=
  [fields.id, fields.tenantId, fields.commandType, fields.payload, fields.target]

/-- No field holds the separator. -/
def BarFree (fields : SignedFields) : Prop := ∀ text ∈ fields.texts, chr '|' ∉ text

theorem digest_eq (fields : SignedFields) :
    fields.digest = [chr '|'].intercalate fields.texts := by
  have bar : ascii "|" = [chr '|'] := by decide
  simp [digest, texts, buildFleetCommandDigest, bar]

theorem texts_injective {first second : SignedFields} (same : first.texts = second.texts) :
    first = second := by
  rcases first with ⟨id, tenantId, commandType, payload, target⟩
  rcases second with ⟨id', tenantId', commandType', payload', target'⟩
  simpa [texts] using same

theorem exists_texts {texts : List Bytes} (five : texts.length = 5) :
    ∃ fields : SignedFields, fields.texts = texts := by
  rcases texts with _ | ⟨id, _ | ⟨tenantId, _ | ⟨commandType, _ | ⟨payload, _ | ⟨target, more⟩⟩⟩⟩⟩
  all_goals simp only [List.length_cons, List.length_nil] at five
  all_goals try omega
  rw [List.length_eq_zero_iff.mp (by omega : more.length = 0)]
  exact ⟨⟨id, tenantId, commandType, payload, target⟩, rfl⟩

theorem digest_unique_iff (fields : SignedFields) :
    (∀ other : SignedFields, other.digest = fields.digest → other = fields) ↔ fields.BarFree := by
  constructor
  · intro unique text mem inside
    rcases Delimited.exists_resplit (by simp [texts]) mem inside with
      ⟨others, length, joined, differs⟩
    rcases exists_texts (length.trans (by simp [texts])) with ⟨other, rfl⟩
    apply differs
    rw [unique other]
    rw [digest_eq, joined, digest_eq]
  · intro barFree other same
    rw [digest_eq, digest_eq] at same
    apply texts_injective
    exact Delimited.eq_of_intercalate_eq rfl (by simp [texts]) barFree same

theorem digest_append_target (fields : SignedFields) (more : Bytes) :
    { fields with target := fields.target ++ more }.digest = fields.digest ++ more := by
  simp [digest, buildFleetCommandDigest]

theorem message_append_target {fields : SignedFields} (full : 4607 ≤ fields.digest.length)
    (more : Bytes) : { fields with target := fields.target ++ more }.message = fields.message := by
  rw [message, digest_append_target, message, copyInto, copyInto, List.take_append_of_le_length full]

theorem message_unique_iff (fields : SignedFields) :
    (∀ other : SignedFields, other.message = fields.message → other = fields) ↔
      fields.BarFree ∧ fields.digest.length < 4607 := by
  constructor
  · intro unique
    refine ⟨(digest_unique_iff fields).mp ?_, ?_⟩
    · intro other same
      apply unique
      rw [message, same, message]
    · by_contra full
      have longer := unique _ (message_append_target (by omega) [chr 'x'])
      have lengths := congrArg (fun fields => fields.target.length) longer
      simp at lengths
  · rintro ⟨barFree, fits⟩ other same
    apply (digest_unique_iff fields).mpr barFree
    rw [message, message, copyInto_of_length_lt (by omega : fields.digest.length < 4608),
      copyInto] at same
    rw [← same, List.take_of_length_le]
    have lengths := congrArg List.length same
    rw [List.length_take] at lengths
    omega

end SignedFields

/-- A command cannot be split again into another one with the same message, on the dashboard and
on the agent, if and only if no field holds a bar and, on the agent, the message fits. -/
theorem resplit_free_iff (fields : SignedFields) :
    ((∀ other : SignedFields, other.digest = fields.digest → other = fields) ↔ fields.BarFree) ∧
      ((∀ other : SignedFields, other.message = fields.message → other = fields) ↔
        fields.BarFree ∧ fields.digest.length < 4607) :=
  ⟨SignedFields.digest_unique_iff fields, SignedFields.message_unique_iff fields⟩

/-- A configuration push whose payload holds a bar has the message of a ban. -/
theorem config_push_signs_ban :
    (⟨ascii "c1", ascii "t1", ascii "PUSH_CONFIG", ascii "BAN_IP|198.51.100.7", []⟩ :
        SignedFields).message =
      (⟨ascii "c1|t1", ascii "PUSH_CONFIG", ascii "BAN_IP", ascii "198.51.100.7", []⟩ :
        SignedFields).message ∧
    (⟨ascii "c1", ascii "t1", ascii "PUSH_CONFIG", ascii "BAN_IP|198.51.100.7", []⟩ :
        SignedFields) ≠
      ⟨ascii "c1|t1", ascii "PUSH_CONFIG", ascii "BAN_IP", ascii "198.51.100.7", []⟩ := by
  decide +kernel

end LogGuardian
