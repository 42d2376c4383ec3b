import LogGuardian.Fleet.Reading

/-!
# Signer and agent

When the agent reads a list of signed commands as they were signed.
-/

namespace LogGuardian

open List

/-- The length of an object from `commandType` on. -/
def FleetCommand.tailLength (command : FleetCommand) : ℕ :=
  178 + (jsonEscape command.commandType).length + (jsonEscape command.payload).length +
    command.createdAt.length

/-- How far behind a command the first target of those that follow it begins. -/
def targetOffset : List FleetCommand → Option ℕ
  | [] => none
  | command :: rest =>
    match command.targetAgentId with
    | some _ => some (77 + command.tenantId.length)
    | none => (targetOffset rest).map (· + (81 + command.tenantId.length + command.tailLength))

/-- What the agent needs of a command and of those that follow it in the response. -/
structure AgentReads (command : FleetCommand) (rest : List FleetCommand) : Prop where
  tenantFits : command.tenantId.length ≤ 63
  knownType : command.commandType ∈ allowedTypes
  plainPayload : ∀ byte ∈ command.payload, PlainByte byte
  inWindow : command.commandType.length + command.payload.length ≤ 3039
  targetFits : ∀ agentId ∈ command.targetAgentId, agentId.length ≤ 127
  noOtherTarget : command.targetAgentId = none →
    ∀ offset ∈ targetOffset rest, 3200 ≤ command.tailLength + offset

def AgentReadsAll : List FleetCommand → Prop
  | [] => True
  | command :: rest => AgentReads command rest ∧ AgentReadsAll rest

def FleetCommand.signedRun (command : FleetCommand) : FleetRun :=
  ⟨command.id, command.tenantId, command.commandType, command.payload,
    command.targetAgentId.getD [], fleetKind command.commandType, true⟩

section Head

variable (command : FleetCommand) (text : Bytes)

theorem extractStr_jsonHead_id :
    extractStr (command.jsonHead ++ text) (ascii "id") 64 = command.id := by
  have idPlain := fun byte mem => (command.idUuid.plain byte mem).1
  have noQuote : chr '"' ∉ command.id := fun mem => (idPlain _ mem).1 rfl
  have brace : Search.Clashes (quotedKey (ascii "id")) [chr '\x7b'] := by decide
  rw [FleetCommand.jsonHead, ← singleton_append, append_assoc, append_assoc,
    extractStr_jsonMember (Search.passes_of_clashes brace), jsonEscape_of_plain idPlain,
    takeWhile_quote noQuote]
  apply copyInto_of_length_lt
  rw [command.idUuid.1]
  omega

theorem extractStr_jsonHead_tenantId (fits : command.tenantId.length ≤ 63) :
    extractStr (command.jsonHead ++ text) (ascii "tenantId") 64 = command.tenantId := by
  have tenantPlain := fun byte mem => (command.tenantPlain byte mem).1
  have noQuote : chr '"' ∉ command.tenantId := fun mem => (tenantPlain _ mem).1 rfl
  have passes : ∀ more, Search.Passes (quotedKey (ascii "tenantId"))
      ([chr '\x7b'] ++ jsonMember (ascii "id") command.id (chr ',')) more := by
    intro more
    apply Search.passes_append
    · exact Search.passes_of_clashes (by decide) _
    · exact passes_jsonMember (by decide) (by decide) _ _ (Or.inl rfl)
  have regroup : command.jsonHead ++ text =
      [chr '\x7b'] ++ jsonMember (ascii "id") command.id (chr ',') ++
        (jsonMember (ascii "tenantId") command.tenantId (chr ',') ++
          (command.jsonTarget ++ text)) := by
    simp [FleetCommand.jsonHead]
  rw [regroup, extractStr_jsonMember passes, jsonEscape_of_plain tenantPlain,
    takeWhile_quote noQuote]
  apply copyInto_of_length_lt
  omega

/-- The object up to `targetAgentId`. -/
def FleetCommand.jsonIds : Bytes :=
  [chr '\x7b'] ++ (jsonMember (ascii "id") command.id (chr ',') ++
    jsonMember (ascii "tenantId") command.tenantId (chr ','))

theorem length_jsonIds : command.jsonIds.length = 59 + command.tenantId.length := by
  have idKey : (ascii "id").length = 2 := by decide
  have tenantKey : (ascii "tenantId").length = 8 := by decide
  rw [FleetCommand.jsonIds, singleton_append, length_cons, length_append,
    length_jsonMember, length_jsonMember, command.idUuid.length_jsonEscape,
    length_jsonEscape_tenantId, idKey, tenantKey]
  omega

theorem passes_jsonIds (more : Bytes) :
    Search.Passes (quotedKey (ascii "targetAgentId")) command.jsonIds more := by
  apply Search.passes_append (Search.passes_of_clashes (by decide) _)
  apply Search.passes_append (passes_jsonMember (by decide) (by decide) _ _ (Or.inl rfl))
  exact passes_jsonMember (by decide) (by decide) _ _ (Or.inl rfl)

variable {command}

theorem jsonHead_append_of_target {agentId : Bytes} (target : command.targetAgentId = some agentId) :
    command.jsonHead ++ text = command.jsonIds ++ (quotedKey (ascii "targetAgentId") ++
      (agentId ++ chr '"' :: chr ',' :: text)) := by
  have plain := (target_of_accepted target).2.2
  have escape := jsonEscape_of_plain fun byte mem => (plain byte mem).1
  simp [FleetCommand.jsonHead, FleetCommand.jsonTarget, FleetCommand.jsonIds, target, jsonMember,
    jsonString, quotedKey_eq, escape]

theorem quote_not_mem_target {agentId : Bytes} (target : command.targetAgentId = some agentId) :
    chr '"' ∉ agentId := by
  intro mem
  exact ((target_of_accepted target).2.2 _ mem).1.1 rfl

theorem extractStr_jsonHead_target {agentId : Bytes} (target : command.targetAgentId = some agentId) :
    extractStr (command.jsonHead ++ text) (ascii "targetAgentId") 128 = copyInto 128 agentId := by
  rw [jsonHead_append_of_target text target, extractStr_append (passes_jsonIds command _),
    takeWhile_quote (quote_not_mem_target target)]

theorem passes_jsonHead_of_null (target : command.targetAgentId = none) (more : Bytes) :
    Search.Passes (quotedKey (ascii "targetAgentId")) command.jsonHead more := by
  apply passes_jsonHead command (by decide) (by decide) (by decide) (by decide)
  intro rest
  have null : command.jsonTarget = ascii "\"targetAgentId\":null," := by
    simp [FleetCommand.jsonTarget, target]
  rw [null]
  exact Search.passes_of_clashes (by decide) rest

theorem length_jsonHead_of_null (target : command.targetAgentId = none) :
    command.jsonHead.length = 80 + command.tenantId.length := by
  have null : command.jsonTarget = ascii "\"targetAgentId\":null," := by
    simp [FleetCommand.jsonTarget, target]
  have nullLength : (ascii "\"targetAgentId\":null,").length = 21 := by decide
  rw [length_jsonHead, null, nullLength]
  omega

end Head

section Tail

variable (mac : Mac) (key : Bytes) (command : FleetCommand)

/-- The object from `commandType` on. -/
def FleetCommand.jsonTail : Bytes :=
  jsonMember (ascii "commandType") command.commandType (chr ',') ++ command.jsonPayloadOn mac key

theorem length_jsonTail : (command.jsonTail mac key).length = command.tailLength := by
  have signature := jsonEscape_of_plain (signature_plain mac key command).2
  have created := jsonEscape_of_plain command.createdPlain
  simp only [FleetCommand.jsonTail, FleetCommand.jsonPayloadOn, FleetCommand.tailLength,
    length_append, length_jsonMember, signature, created, (signature_plain mac key command).1]
  have keys : (ascii "commandType").length = 11 ∧ (ascii "payload").length = 7 ∧
      (ascii "signature").length = 9 ∧ (ascii "createdAt").length = 9 ∧
      (ascii "\"executed\":false,\"status\":\"pending\",\"executedAt\":null,").length = 54 := by
    decide
  omega

theorem passes_jsonTail (more : Bytes) :
    Search.Passes (quotedKey (ascii "targetAgentId")) (command.jsonTail mac key) more := by
  apply Search.passes_append (passes_jsonMember (by decide) (by decide) _ _ (Or.inl rfl))
  exact passes_jsonPayloadOn mac key command (by decide) more

theorem jsonRest_cons (rest : List FleetCommand) :
    jsonRest mac key (command :: rest) =
      [chr ','] ++ (command.jsonHead ++ (command.jsonTail mac key ++ jsonRest mac key rest)) := by
  rw [jsonRest, jsonSigned_append, FleetCommand.jsonTail, append_assoc]
  rfl

theorem extractStr_target_eq_nil_iff (rest : List FleetCommand) (count : ℕ) :
    extractStr ((jsonRest mac key rest).take count) (ascii "targetAgentId") 128 = [] ↔
      ∀ offset ∈ targetOffset rest, count ≤ offset := by
  have comma : ∀ more, Search.Passes (quotedKey (ascii "targetAgentId")) [chr ','] more :=
    Search.passes_of_clashes (by decide)
  induction rest generalizing count with
  | nil =>
    have absent : Search.find (quotedKey (ascii "targetAgentId")) (jsonRest mac key []) = none := by
      rw [jsonRest]
      decide
    have nonempty : quotedKey (ascii "targetAgentId") ≠ [] := by decide
    simp [extractStr, Search.after, Search.find_take nonempty, absent, targetOffset]
  | cons next rest ih =>
    rw [jsonRest_cons, extractStr_take_skip comma]
    rcases target : next.targetAgentId with _ | agentId
    · rw [extractStr_take_skip (passes_jsonHead_of_null target),
        extractStr_take_skip (passes_jsonTail mac key next), length_jsonHead_of_null target,
        length_jsonTail]
      refine (ih _).trans ?_
      simp only [targetOffset, target, Option.mem_def, Option.map_eq_some_iff,
        length_singleton]
      constructor
      · rintro far _ ⟨offset, found, rfl⟩
        have bound := far offset found
        omega
      · intro far offset found
        have bound := far _ ⟨offset, found, rfl⟩
        omega
    · have nonempty := List.length_pos_iff.mpr (target_of_accepted target).1
      have keyLength : (quotedKey (ascii "targetAgentId")).length = 17 := by decide
      rw [jsonHead_append_of_target _ target,
        extractStr_take _ (passes_jsonIds next) (quote_not_mem_target target), length_jsonIds,
        ← length_eq_zero_iff, copyInto, length_take, length_take]
      simp only [targetOffset, target, Option.mem_def, Option.some.injEq, forall_eq',
        length_singleton]
      omega

/-- The object from `commandType` to the signature. -/
def FleetCommand.jsonUnsigned : Bytes :=
  jsonMember (ascii "commandType") command.commandType (chr ',') ++
    (jsonMember (ascii "payload") command.payload (chr ',') ++
      ascii "\"executed\":false,\"status\":\"pending\",\"executedAt\":null,")

theorem length_jsonUnsigned :
    command.jsonUnsigned.length =
      84 + (jsonEscape command.commandType).length + (jsonEscape command.payload).length := by
  have keys : (ascii "commandType").length = 11 ∧ (ascii "payload").length = 7 ∧
      (ascii "\"executed\":false,\"status\":\"pending\",\"executedAt\":null,").length = 54 := by
    decide
  rw [FleetCommand.jsonUnsigned, length_append, length_append, length_jsonMember,
    length_jsonMember]
  omega

theorem passes_jsonUnsigned (more : Bytes) :
    Search.Passes (quotedKey (ascii "signature")) command.jsonUnsigned more := by
  apply Search.passes_append (passes_jsonMember (by decide) (by decide) _ _ (Or.inl rfl))
  apply Search.passes_append (passes_jsonMember (by decide) (by decide) _ _ (Or.inl rfl))
  exact Search.passes_of_clashes (by decide) more

theorem extractStr_jsonTail_signature (more : Bytes) :
    extractStr ((command.jsonTail mac key ++ more).take 3200) (ascii "signature") 128 =
      (signFleetCommand mac key command).take (3200 - (command.jsonUnsigned.length + 13)) := by
  rcases signature_plain mac key command with ⟨length, plain⟩
  have noQuote : chr '"' ∉ signFleetCommand mac key command := fun mem => (plain _ mem).1 rfl
  have regroup : command.jsonTail mac key ++ more =
      command.jsonUnsigned ++ (quotedKey (ascii "signature") ++ (signFleetCommand mac key command ++
        chr '"' :: (chr ',' :: (jsonMember (ascii "createdAt") command.createdAt (chr '\x7d') ++
          more)))) := by
    rw [FleetCommand.jsonTail, FleetCommand.jsonPayloadOn, FleetCommand.jsonUnsigned,
      jsonMember_of_plain plain, quotedKey_eq]
    simp
  have keyLength : (quotedKey (ascii "signature")).length = 13 := by decide
  rw [regroup, extractStr_take 3200 (passes_jsonUnsigned command) noQuote]
  apply copyInto_of_length_lt
  rw [length_take]
  omega

theorem extractStr_jsonTail_payload (more : Bytes)
    (inWindow : command.jsonUnsigned.length ≤ 3200) :
    ∃ after, extractStr ((command.jsonTail mac key ++ more).take 3200) (ascii "payload") 4096 =
      copyInto 4096 ((jsonEscape command.payload ++ chr '"' :: after).takeWhile (· ≠ chr '"')) := by
  have commandTypePasses : ∀ more, Search.Passes (quotedKey (ascii "payload"))
      (jsonMember (ascii "commandType") command.commandType (chr ',')) more :=
    fun more => passes_jsonMember (by decide) (by decide) _ more (Or.inl rfl)
  have regroup : command.jsonTail mac key ++ more = command.jsonUnsigned ++
      (jsonMember (ascii "signature") (signFleetCommand mac key command) (chr ',') ++
        (jsonMember (ascii "createdAt") command.createdAt (chr '\x7d') ++ more)) := by
    simp [FleetCommand.jsonTail, FleetCommand.jsonPayloadOn, FleetCommand.jsonUnsigned]
  obtain ⟨left, enough⟩ := Nat.exists_eq_add_of_le inWindow
  rw [regroup, enough, take_length_add_append, FleetCommand.jsonUnsigned, append_assoc,
    append_assoc, extractStr_jsonMember commandTypePasses]
  exact ⟨_, rfl⟩

theorem payload_read_iff {payload : Bytes} (after : Bytes) (fits : (jsonEscape payload).length < 4096) :
    copyInto 4096 ((jsonEscape payload ++ chr '"' :: after).takeWhile (· ≠ chr '"')) = payload ↔
      ∀ byte ∈ payload, PlainByte byte := by
  constructor
  · intro same
    have noQuote : chr '"' ∉ payload := by
      intro mem
      rw [← same] at mem
      have inside := mem_takeWhile_imp (mem_of_mem_take mem)
      simp at inside
    rw [takeWhile_quote (quote_not_mem_jsonEscape noQuote), copyInto_of_length_lt fits] at same
    exact plain_of_jsonEscape_eq same
  · intro plain
    have noQuote : chr '"' ∉ payload := fun mem => (plain _ mem).1 rfl
    rw [takeWhile_quote (quote_not_mem_jsonEscape noQuote), copyInto_of_length_lt fits,
      jsonEscape_of_plain plain]

theorem plain_of_known {commandType : Bytes} (known : commandType ∈ allowedTypes) :
    commandType.length < 64 ∧ ∀ byte ∈ commandType, PlainByte byte := by
  have plainTypes : ∀ commandType ∈ allowedTypes, commandType.length < 64 ∧
      ∀ byte ∈ commandType, PlainByte byte := by
    decide +kernel
  exact plainTypes _ known

theorem commandType_read (more : Bytes) (known : command.commandType ∈ allowedTypes) :
    copyInto 64 (((command.jsonTail mac key ++ more).drop 15).takeWhile (· ≠ chr '"')) =
      command.commandType := by
  rcases plain_of_known known with ⟨short, plain⟩
  have noQuote : chr '"' ∉ command.commandType := fun mem => (plain _ mem).1 rfl
  have keyLength : (quotedKey (ascii "commandType")).length = 15 := by decide
  have regroup : command.jsonTail mac key ++ more =
      quotedKey (ascii "commandType") ++ (command.commandType ++
        chr '"' :: (chr ',' :: (command.jsonPayloadOn mac key ++ more))) := by
    rw [FleetCommand.jsonTail, jsonMember_of_plain plain, quotedKey_eq]
    simp
  rw [regroup, ← keyLength, drop_left, takeWhile_quote noQuote, copyInto_of_length_lt short]

end Tail

theorem fleetKind_eq_none_iff {commandType : Bytes} :
    fleetKind commandType = none ↔ commandType ∉ allowedTypes := by
  unfold fleetKind
  simp only [allowedTypes]
  split_ifs <;> simp_all

theorem secureEquals_iff {a b : Bytes} (full : a.length = 64) (short : b.length ≤ 64) :
    secureEquals a b = true ↔ b = a := by
  have lengths : ∀ n ≤ 64, (64 ^^^ n) % 256 = 0 → n = 64 := by decide
  unfold secureEquals
  rw [Bool.and_eq_true, decide_eq_true_eq, full, all_eq_true]
  constructor
  · rintro ⟨sameLength, sameBytes⟩
    have length := lengths _ short sameLength
    apply ext_getElem (by omega)
    intro i inB inA
    have same := sameBytes i (by rw [mem_range]; omega)
    rw [decide_eq_true_eq] at same
    simpa [byteAt, inA, inB] using same.symm
  · rintro rfl
    simp [full]

theorem fleetVerifyCommandSig_eq_verified_iff {mac : Mac} {config : AgentConfig}
    {id tenantId cmdType payload targetAgent sigHex : Bytes} (nonempty : config.hmacKey ≠ [])
    (fits : (buildFleetCommandDigest id tenantId cmdType payload targetAgent).length < 4608)
    (short : sigHex.length ≤ 64) :
    fleetVerifyCommandSig mac config id tenantId cmdType payload targetAgent sigHex = .verified ↔
      sigHex = mac.hmacHex config.hmacKey
        (buildFleetCommandDigest id tenantId cmdType payload targetAgent) := by
  have full := (mac.isHex config.hmacKey
    (buildFleetCommandDigest id tenantId cmdType payload targetAgent)).1
  have equal := secureEquals_iff full short
  unfold fleetVerifyCommandSig
  rcases Decidable.eq_or_ne sigHex [] with empty | present
  · simp only [empty, or_true]
    constructor
    · intro verified
      split_ifs at verified
    · intro same
      rw [← same] at full
      simp at full
  · simp only [nonempty, present]
    rw [copyInto_of_length_lt fits, ← equal]
    constructor
    · intro verified
      by_contra differs
      simp [differs] at verified
    · intro same
      simp [same]

section Run

variable (mac : Mac) (key : Bytes) (requireSig : Bool)

def agentRun (command : FleetCommand) (rest : List FleetCommand) : Option FleetRun :=
  processCommand mac ⟨key, requireSig⟩ command.jsonHead
    (command.jsonTail mac key ++ jsonRest mac key rest)

variable (command : FleetCommand)

theorem length_target_le : (command.targetAgentId.getD []).length ≤ 128 := by
  rcases target : command.targetAgentId with _ | agentId
  · simp
  · exact (target_of_accepted target).2.1

theorem length_digest_lt (tenantFits : command.tenantId.length ≤ 63) (known : command.commandType ∈ allowedTypes)
    (short : command.payload.length ≤ 4095) :
    (buildFleetCommandDigest command.id command.tenantId command.commandType command.payload
      (command.targetAgentId.getD [])).length < 4608 := by
  have typeShort := (plain_of_known known).1
  have targetShort := length_target_le command
  have bar : (ascii "|").length = 1 := by decide
  simp only [buildFleetCommandDigest, length_append, command.idUuid.1]
  omega

theorem target_read_iff (rest : List FleetCommand) :
    extractStr (command.jsonHead ++
        (command.jsonTail mac key ++ jsonRest mac key rest).take 3200) (ascii "targetAgentId") 128 =
      command.targetAgentId.getD [] ↔
    (∀ agentId ∈ command.targetAgentId, agentId.length ≤ 127) ∧
      (command.targetAgentId = none →
        ∀ offset ∈ targetOffset rest, 3200 ≤ command.tailLength + offset) := by
  rcases target : command.targetAgentId with _ | agentId
  · rw [extractStr_skip (passes_jsonHead_of_null target),
      extractStr_take_skip (passes_jsonTail mac key command), length_jsonTail]
    refine (extractStr_target_eq_nil_iff mac key rest _).trans ?_
    simp only [Option.mem_def, reduceCtorEq, false_implies, true_and, forall_const,
      Nat.sub_le_iff_le_add']
  · rw [extractStr_jsonHead_target _ target]
    simp only [Option.getD_some, copyInto, take_eq_self_iff, Option.mem_def, Option.some.injEq,
      forall_eq', reduceCtorEq, false_implies, and_true]

theorem commandWindow_of_fits (fits : command.tenantId.length ≤ 63) (here : Bytes) :
    commandWindow command.jsonHead here = command.jsonHead ++ here.take 3200 := by
  have window := commandWindow_jsonHead [] here command
  have targetShort := (jsonTarget_spec command).2
  rw [nil_append, show command.jsonHead.length - 1200 = 0 by rw [length_jsonHead]; omega,
    drop_zero] at window
  exact window

theorem agentRun_eq_signedRun_iff (nonempty : key ≠ []) (rest : List FleetCommand) :
    agentRun mac key requireSig command rest = some command.signedRun ∧
        command.signedRun.kind ≠ none ↔ AgentReads command rest := by
  have readWindow (fits : command.tenantId.length ≤ 63) := commandWindow_of_fits command fits
    (command.jsonTail mac key ++ jsonRest mac key rest)
  have signatureLength := (signature_plain mac key command).1
  have unsignedLength := length_jsonUnsigned command
  unfold agentRun processCommand
  dsimp only
  constructor
  · rintro ⟨ran, kind⟩
    -- A tenant id that was read is in its buffer, so the window has the whole head of the object.
    have tenantFits : command.tenantId.length ≤ 63 := by
      have short := length_extractStr_le (commandWindow command.jsonHead
        (command.jsonTail mac key ++ jsonRest mac key rest)) (ascii "tenantId") 64
      split at ran
      · simp at ran
      · simp [FleetCommand.signedRun] at ran
      · simp only [FleetCommand.signedRun, Option.some.injEq, FleetRun.mk.injEq] at ran
        exact ran.2.1 ▸ short
    rw [readWindow tenantFits, extractStr_jsonHead_id, extractStr_jsonHead_tenantId _ _ tenantFits,
      extractStr_skip (passes_jsonHead_of_later command (by decide : ascii "payload" ∈ laterKeys)),
      extractStr_skip (passes_jsonHead_of_later command (by decide : ascii "signature" ∈ laterKeys)),
      extractStr_jsonTail_signature] at ran
    have known : command.commandType ∈ allowedTypes := by
      by_contra unknown
      exact kind (fleetKind_eq_none_iff.mpr unknown)
    rw [commandType_read mac key command _ known] at ran
    split at ran
    · simp at ran
    · simp [FleetCommand.signedRun] at ran
    · rename_i verified
      simp only [FleetCommand.signedRun, Option.some.injEq, FleetRun.mk.injEq, true_and,
        and_true] at ran
      rcases ran with ⟨payloadRead, targetRead⟩
      have short := length_extractStr_le
        ((command.jsonTail mac key ++ jsonRest mac key rest).take 3200) (ascii "payload") 4096
      rw [payloadRead, targetRead, fleetVerifyCommandSig_eq_verified_iff nonempty
        (length_digest_lt command tenantFits known (payloadRead ▸ short)) (by rw [length_take]; omega)]
        at verified
      have whole := congrArg length verified
      rw [length_take, (mac.isHex _ _).1] at whole
      rcases extractStr_jsonTail_payload mac key command (jsonRest mac key rest) (by omega) with
        ⟨after, payloadText⟩
      rw [payloadText] at payloadRead
      have plainPayload := (payload_read_iff after (by omega)).mp payloadRead
      rw [jsonEscape_of_plain plainPayload, jsonEscape_of_plain (plain_of_known known).2]
        at unsignedLength
      rcases (target_read_iff mac key command rest).mp targetRead with ⟨targetFits, noOtherTarget⟩
      exact ⟨tenantFits, known, plainPayload, by omega, targetFits, noOtherTarget⟩
  · intro reads
    have inWindow := reads.inWindow
    rw [readWindow reads.tenantFits, extractStr_jsonHead_id,
      extractStr_jsonHead_tenantId _ _ reads.tenantFits,
      extractStr_skip (passes_jsonHead_of_later command (by decide : ascii "payload" ∈ laterKeys)),
      extractStr_skip (passes_jsonHead_of_later command (by decide : ascii "signature" ∈ laterKeys)),
      extractStr_jsonTail_signature]
    rw [jsonEscape_of_plain reads.plainPayload,
      jsonEscape_of_plain (plain_of_known reads.knownType).2] at unsignedLength
    rcases extractStr_jsonTail_payload mac key command (jsonRest mac key rest) (by omega) with
      ⟨after, payloadText⟩
    have escapedLength : (jsonEscape command.payload).length < 4096 := by
      rw [jsonEscape_of_plain reads.plainPayload]
      omega
    have payloadRead := (payload_read_iff after escapedLength).mpr reads.plainPayload
    have targetRead := (target_read_iff mac key command rest).mpr
      ⟨reads.targetFits, reads.noOtherTarget⟩
    have verified : fleetVerifyCommandSig mac ⟨key, requireSig⟩ command.id command.tenantId
        command.commandType command.payload (command.targetAgentId.getD [])
        (signFleetCommand mac key command) = .verified := by
      apply (fleetVerifyCommandSig_eq_verified_iff nonempty _ _).mpr rfl
      · exact length_digest_lt command reads.tenantFits reads.knownType (by omega)
      · exact signatureLength.le
    rw [commandType_read mac key command _ reads.knownType, payloadText, payloadRead, targetRead,
      take_of_length_le (by omega), verified]
    refine ⟨rfl, ?_⟩
    intro unknown
    exact fleetKind_eq_none_iff.mp unknown reads.knownType

theorem processCommand_append (config : AgentConfig) (earlier here : Bytes) :
    processCommand mac config (earlier ++ command.jsonHead) here =
      processCommand mac config command.jsonHead here := by
  have alone := commandWindow_jsonHead [] here command
  rw [nil_append] at alone
  unfold processCommand
  rw [commandWindow_jsonHead, alone]

/-- The text of an object behind the `commandType` key. -/
def FleetCommand.jsonTyped : Bytes :=
  jsonEscape command.commandType ++ [chr '"'] ++ ([chr ','] ++ command.jsonPayloadOn mac key)

theorem jsonTail_eq : command.jsonTail mac key =
    quotedKey (ascii "commandType") ++ command.jsonTyped mac key := by
  simp [FleetCommand.jsonTail, FleetCommand.jsonTyped, jsonMember, jsonString, quotedKey_eq]

theorem passes_jsonTyped (more : Bytes) :
    Search.Passes (quotedKey (ascii "commandType")) (command.jsonTyped mac key) more := by
  apply Search.passes_append
  · exact Search.passes_inside (by decide) (by decide) (by decide) (by decide)
      (escaped_jsonEscape command.commandType) (by decide) (by decide)
  · apply Search.passes_append (Search.passes_of_clashes (by decide) _)
    exact passes_jsonPayloadOn mac key command (by decide) more

theorem processFrom_object {config : AgentConfig} (fuel : ℕ) (before : Bytes) {skipped : Bytes}
    (passes : ∀ more, Search.Passes (quotedKey (ascii "commandType")) skipped more) (rest : Bytes) :
    ∃ passed, processFrom mac config (fuel + 1) before
        (skipped ++ (command.jsonHead ++ (command.jsonTail mac key ++ rest))) =
      (processCommand mac config command.jsonHead (command.jsonTail mac key ++ rest)).toList ++
        processFrom mac config fuel passed (command.jsonTyped mac key ++ rest) := by
  have headPasses := passes_jsonHead_of_later command (by decide : ascii "commandType" ∈ laterKeys)
  have stands : quotedKey (ascii "commandType") <+: command.jsonTail mac key ++ rest := by
    exact prefix_append _ _
  have keyLength : (quotedKey (ascii "commandType")).length = 15 := by decide
  have found : Search.find (quotedKey (ascii "commandType"))
      (skipped ++ command.jsonHead ++ (command.jsonTail mac key ++ rest)) =
        some (skipped ++ command.jsonHead).length :=
    Search.find_append_of_isPrefix (Search.passes_append (passes _) (headPasses _)) stands
  have behind : (command.jsonTail mac key ++ rest).drop 15 = command.jsonTyped mac key ++ rest := by
    rw [jsonTail_eq, append_assoc, ← keyLength, drop_left]
  rw [← append_assoc, processFrom, found]
  dsimp only
  rw [take_left, drop_left, behind, ← append_assoc before, processCommand_append]
  exact ⟨_, rfl⟩

def agentRuns : List FleetCommand → List FleetRun
  | [] => []
  | command :: rest => (agentRun mac key requireSig command rest).toList ++ agentRuns rest

theorem processFrom_jsonRest (commands : List FleetCommand) {fuel : ℕ} (before : Bytes)
    {skipped : Bytes} (enough : commands.length ≤ fuel)
    (passes : ∀ more, Search.Passes (quotedKey (ascii "commandType")) skipped more) :
    processFrom mac ⟨key, requireSig⟩ fuel before (skipped ++ jsonRest mac key commands) =
      agentRuns mac key requireSig commands := by
  induction commands generalizing fuel before skipped with
  | nil =>
    have none : Search.find (quotedKey (ascii "commandType")) (jsonRest mac key []) = none := by
      rw [jsonRest]
      decide
    rcases fuel with _ | fuel
    · rfl
    · rw [processFrom, Search.find_append (passes _)]
      rfl
  | cons command rest ih =>
    rcases fuel with _ | fuel
    · simp at enough
    have comma : ∀ more, Search.Passes (quotedKey (ascii "commandType")) (skipped ++ [chr ','])
        more := by
      intro more
      exact Search.passes_append (passes _) (Search.passes_of_clashes (by decide) _)
    rcases processFrom_object mac key command fuel before comma (jsonRest mac key rest) with
      ⟨passed, round⟩
    rw [jsonRest_cons, ← append_assoc, round,
      ih passed (by simpa using enough) (passes_jsonTyped mac key command)]
    rfl

theorem length_le_length_jsonRest (commands : List FleetCommand) :
    commands.length ≤ (jsonRest mac key commands).length := by
  induction commands with
  | nil => simp
  | cons command rest ih =>
    rw [jsonRest_cons]
    simp only [length_append, length_cons]
    omega

theorem processCommands_jsonCommands (commands : List FleetCommand) :
    processCommands mac ⟨key, requireSig⟩ (jsonCommands mac key commands) =
      agentRuns mac key requireSig commands := by
  rcases commands with _ | ⟨command, rest⟩
  · rfl
  · have bracket : ∀ more, Search.Passes (quotedKey (ascii "commandType")) [chr '['] more :=
      Search.passes_of_clashes (by decide)
    have regroup : jsonCommands mac key (command :: rest) =
        [chr '['] ++ (command.jsonHead ++ (command.jsonTail mac key ++ jsonRest mac key rest)) := by
      rw [jsonCommands, jsonSigned_append, FleetCommand.jsonTail, append_assoc]
      rfl
    have restFits := length_le_length_jsonRest mac key rest
    obtain ⟨fuel, length, enough⟩ : ∃ fuel, (jsonCommands mac key (command :: rest)).length =
        fuel + 1 ∧ rest.length ≤ fuel := by
      refine ⟨_, rfl, ?_⟩
      simp only [length_append]
      omega
    unfold processCommands
    rw [length, regroup]
    rcases processFrom_object mac key command fuel [] bracket (jsonRest mac key rest) with
      ⟨passed, round⟩
    rw [round, processFrom_jsonRest mac key requireSig rest passed enough
      (passes_jsonTyped mac key command)]
    rfl

theorem length_agentRuns_le (commands : List FleetCommand) :
    (agentRuns mac key requireSig commands).length ≤ commands.length := by
  induction commands with
  | nil => simp [agentRuns]
  | cons command rest ih =>
    rw [agentRuns, length_append, length_cons]
    have one : (agentRun mac key requireSig command rest).toList.length ≤ 1 := by
      cases agentRun mac key requireSig command rest <;> simp
    omega

theorem agentRuns_cons_eq_iff (rest : List FleetCommand) :
    agentRuns mac key requireSig (command :: rest) =
        command.signedRun :: rest.map FleetCommand.signedRun ↔
      agentRun mac key requireSig command rest = some command.signedRun ∧
        agentRuns mac key requireSig rest = rest.map FleetCommand.signedRun := by
  rw [agentRuns]
  rcases agentRun mac key requireSig command rest with _ | run
  · constructor
    · intro same
      have lengths := congrArg length same
      have bound := length_agentRuns_le mac key requireSig rest
      simp only [Option.toList_none, nil_append, length_cons, length_map] at lengths
      omega
    · rintro ⟨lost, -⟩
      cases lost
  · simp

theorem agentRuns_eq_iff (nonempty : key ≠ []) (commands : List FleetCommand) :
    agentRuns mac key requireSig commands = commands.map FleetCommand.signedRun ∧
        (∀ command ∈ commands, command.signedRun.kind ≠ none) ↔ AgentReadsAll commands := by
  induction commands with
  | nil => simp [agentRuns, AgentReadsAll]
  | cons command rest ih =>
    rw [AgentReadsAll, ← agentRun_eq_signedRun_iff mac key requireSig command nonempty, map_cons,
      agentRuns_cons_eq_iff, forall_mem_cons]
    tauto

/-- The agent runs every command of a response once, verified and with the fields that were
signed, if and only if it can read all of them. -/
theorem fleet_agreement_iff (nonempty : key ≠ []) (commands : List FleetCommand) :
    (processCommands mac ⟨key, requireSig⟩ (jsonCommands mac key commands) =
        commands.map FleetCommand.signedRun ∧
      ∀ run ∈ commands.map FleetCommand.signedRun, run.kind ≠ none) ↔ AgentReadsAll commands := by
  rw [processCommands_jsonCommands, forall_mem_map]
  exact agentRuns_eq_iff mac key requireSig nonempty commands

end Run

def banFor (id : Bytes) (target : Option Bytes) (uuid : IsUuid id)
    (accepted : validateFleetCommand (ascii "BAN_IP") (ascii "203.0.113.9") target = none)
    (targetNonempty : target ≠ some []) : FleetCommand where
  id := id
  tenantId := ascii "default"
  targetAgentId := target
  commandType := ascii "BAN_IP"
  payload := ascii "203.0.113.9"
  createdAt := ascii "2026-05-01T12:00:00.000Z"
  idUuid := uuid
  tenantPlain := by decide
  accepted := accepted
  targetNonempty := targetNonempty
  createdPlain := by decide +kernel

def broadcastBan : FleetCommand :=
  banFor (ascii "11111111-1111-4111-8111-111111111111") none (by decide +kernel)
    (by decide +kernel) (by decide)

def targetedBan : FleetCommand :=
  banFor (ascii "22222222-2222-4222-8222-222222222222") (some (ascii "agent-b"))
    (by decide +kernel) (by decide +kernel) (by decide)

theorem fleet_agreement_of_targeted_first :
    processCommands checksumMac ⟨ascii "0123456789abcdef", true⟩
        (jsonCommands checksumMac (ascii "0123456789abcdef") [targetedBan, broadcastBan]) =
      [targetedBan.signedRun, broadcastBan.signedRun] := by
  have targetedReads : AgentReads targetedBan [broadcastBan] :=
    ⟨by decide, by decide +kernel, by decide +kernel, by decide +kernel, by decide, by decide⟩
  have broadcastReads : AgentReads broadcastBan [] :=
    ⟨by decide, by decide +kernel, by decide +kernel, by decide +kernel, by decide, by decide⟩
  exact ((fleet_agreement_iff checksumMac _ true (by decide) [targetedBan, broadcastBan]).mpr
    ⟨targetedReads, broadcastReads, trivial⟩).1

/-- In the other order the target of the second command is taken for that of the first, whose
signature then does not verify. -/
theorem broadcast_lost_before_target :
    processCommands checksumMac ⟨ascii "0123456789abcdef", true⟩
        (jsonCommands checksumMac (ascii "0123456789abcdef") [broadcastBan, targetedBan]) =
      [targetedBan.signedRun] := by
  decide +kernel

end LogGuardian
