import LogGuardian.Fleet.Agent

/-!
# What the agent reads of a JSON text
-/

namespace LogGuardian

open List

/-- A byte that stands for itself in a JSON string. -/
def PlainByte (byte : UInt8) : Prop := byte ≠ chr '"' ∧ byte ≠ chr '\\' ∧ 32 ≤ byte

instance (byte : UInt8) : Decidable (PlainByte byte) := by
  unfold PlainByte
  infer_instance

theorem jsonEscapeByte_of_plain : ∀ byte : UInt8, PlainByte byte → jsonEscapeByte byte = [byte] := by
  decide +kernel

theorem quote_not_mem_jsonEscapeByte :
    ∀ byte : UInt8, byte ≠ chr '"' → chr '"' ∉ jsonEscapeByte byte := by
  decide +kernel

theorem plain_of_length_jsonEscapeByte :
    ∀ byte : UInt8, 1 ≤ (jsonEscapeByte byte).length ∧
      ((jsonEscapeByte byte).length = 1 → PlainByte byte) := by
  decide +kernel

theorem jsonEscape_cons (byte : UInt8) (rest : Bytes) :
    jsonEscape (byte :: rest) = jsonEscapeByte byte ++ jsonEscape rest :=
  flatMap_cons

variable {text key part value rest : Bytes} {next : UInt8} {dsz : ℕ}

theorem jsonEscape_of_plain (plain : ∀ byte ∈ text, PlainByte byte) :
    jsonEscape text = text := by
  induction text with
  | nil => rfl
  | cons byte rest ih =>
    rw [jsonEscape_cons, jsonEscapeByte_of_plain byte (plain byte (by simp)),
      ih fun other mem => plain other (by simp [mem])]
    rfl

theorem escaped_jsonEscape (text : Bytes) :
    Search.Escaped (chr '"') (chr '\\') (jsonEscape text) := by
  induction text with
  | nil => exact Search.escaped_of_not_mem (by simp [jsonEscape])
  | cons byte rest ih =>
    apply Search.escaped_append _ ih
    by_cases quote : byte = chr '"'
    · rw [quote]
      intro before after split
      have shape : jsonEscapeByte (chr '"') = [chr '\\'] ++ chr '"' :: [] := by decide
      rw [shape] at split
      rcases before with _ | ⟨first, before⟩
      · exact absurd (List.cons.inj split).1 (by decide)
      · rcases before with _ | ⟨second, before⟩
        · exact ⟨[], by rw [← (List.cons.inj split).1]; rfl⟩
        · have lengths := congrArg length split
          simp at lengths
    · exact Search.escaped_of_not_mem (quote_not_mem_jsonEscapeByte byte quote)

theorem quote_not_mem_jsonEscape (plain : chr '"' ∉ text) :
    chr '"' ∉ jsonEscape text := by
  intro mem
  rcases List.mem_flatMap.mp mem with ⟨byte, inside, quote⟩
  have notQuote : byte ≠ chr '"' := fun same => plain (same ▸ inside)
  exact quote_not_mem_jsonEscapeByte byte notQuote quote

theorem plain_of_jsonEscape_eq (same : jsonEscape text = text) :
    ∀ byte ∈ text, PlainByte byte := by
  have lengths : ∀ text : Bytes, text.length ≤ (jsonEscape text).length := by
    intro text
    induction text with
    | nil => simp
    | cons byte rest ih =>
      rw [jsonEscape_cons, length_append, length_cons]
      have one := (plain_of_length_jsonEscapeByte byte).1
      omega
  induction text with
  | nil => simp
  | cons byte rest ih =>
    have total := congrArg length same
    rw [jsonEscape_cons, length_append, length_cons] at total
    have restLonger := lengths rest
    have one := plain_of_length_jsonEscapeByte byte
    have plain : PlainByte byte := one.2 (by omega)
    rw [jsonEscape_cons, jsonEscapeByte_of_plain byte plain] at same
    intro other mem
    rcases List.mem_cons.mp mem with rfl | later
    · exact plain
    · exact ih (List.cons.inj same).2 other later

def fleetKeys : List Bytes :=
  ["commandType", "payload", "id", "tenantId", "targetAgentId", "signature"].map ascii

theorem quotedKey_eq (key : Bytes) : quotedKey key = jsonKey key ++ [chr '"'] := by
  simp [quotedKey, Search.keyPattern, jsonKey]

theorem passes_jsonMember {other : Bytes} (isKey : key ∈ fleetKeys)
    (different : Search.Clashes (quotedKey key) (jsonKey other)) (text rest : Bytes)
    (ends : next = chr ',' ∨ next = chr '\x7d') :
    Search.Passes (quotedKey key) (jsonMember other text next) rest := by
  have shape : ∀ key ∈ fleetKeys, key ≠ [] ∧ chr '"' ∉ key ∧ chr '\\' ∉ key ∧ chr ',' ∉ key ∧
      chr '\x7d' ∉ key := by decide
  rcases shape key isKey with ⟨nonempty, noQuote, noEscape, noComma, noBrace⟩
  have notSeparator : next ≠ chr ':' := by rcases ends with rfl | rfl <;> decide
  have notKey : next ∉ key := by
    rcases ends with rfl | rfl
    · exact noComma
    · exact noBrace
  have notQuote : next ≠ chr '"' := by rcases ends with rfl | rfl <;> decide
  apply Search.passes_append
  · exact Search.passes_of_clashes different _
  · apply Search.passes_append
    · exact Search.passes_quoted nonempty noQuote noEscape (by decide) (escaped_jsonEscape text)
        notSeparator notKey
    · intro offset inside stands
      have zero : offset = 0 := by simpa using inside
      rw [zero] at stands
      exact notQuote (List.cons_prefix_cons.mp stands).1.symm

theorem extractStr_append (passes : Search.Passes (quotedKey key) part (quotedKey key ++ value)) :
    extractStr (part ++ (quotedKey key ++ value)) key dsz =
      copyInto dsz (value.takeWhile (· ≠ chr '"')) := by
  have found := Search.find_append_of_isPrefix passes (prefix_append _ _)
  have after : Search.after (quotedKey key) (part ++ (quotedKey key ++ value)) = some value := by
    rw [Search.after, found, Option.map_some, ← append_assoc, ← length_append,
      drop_left]
  rw [extractStr, after]

theorem takeWhile_quote (plain : chr '"' ∉ value) :
    (value ++ chr '"' :: rest).takeWhile (· ≠ chr '"') = value := by
  have pass : ∀ byte ∈ value, (decide (byte ≠ chr '"')) = true := by
    intro byte mem
    simpa using fun same : byte = chr '"' => plain (same ▸ mem)
  rw [takeWhile_append_of_pos pass]
  simp

theorem extractStr_jsonMember (passes : ∀ more, Search.Passes (quotedKey key) part more) :
    extractStr (part ++ (jsonMember key text next ++ rest)) key dsz =
      copyInto dsz ((jsonEscape text ++ chr '"' :: next :: rest).takeWhile (· ≠ chr '"')) := by
  have regroup : jsonMember key text next ++ rest =
      quotedKey key ++ (jsonEscape text ++ chr '"' :: next :: rest) := by
    simp [jsonMember, jsonString, quotedKey_eq]
  rw [regroup, extractStr_append (passes _)]

section Command

variable {command : FleetCommand}

theorem plain_of_uuidByte : ∀ byte : UInt8, (hexDigit byte).isSome = true ∨ byte = chr '-' →
    PlainByte byte ∧ byte ≠ chr '\x7b' := by
  decide +kernel

theorem plain_of_targetByte : ∀ byte : UInt8,
    (isWordByte byte || byte = chr '.' || byte = chr '-') = true →
      PlainByte byte ∧ byte ≠ chr '\x7b' ∧ byte < 0x80 := by
  decide +kernel

variable {text key : Bytes} {next : UInt8}

theorem IsUuid.plain (uuid : IsUuid text) :
    ∀ byte ∈ text, PlainByte byte ∧ byte ≠ chr '\x7b' :=
  fun byte mem => plain_of_uuidByte byte (uuid.2 byte mem)

theorem utf16Length_of_ascii (small : ∀ byte ∈ text, byte < 0x80) :
    utf16Length text = text.length := by
  induction text with
  | nil => rfl
  | cons byte rest ih =>
    have later := ih fun other mem => small other (by simp [mem])
    have here : byte < 0x80 := small byte (by simp)
    simp only [utf16Length, map_cons, sum_cons, if_pos here, length_cons] at later ⊢
    omega

theorem target_of_accepted {agentId : Bytes} (target : command.targetAgentId = some agentId) :
    agentId ≠ [] ∧ agentId.length ≤ 128 ∧ ∀ byte ∈ agentId, PlainByte byte ∧ byte ≠ chr '\x7b' := by
  have accepted := command.accepted
  have nonempty := command.targetNonempty
  rw [target] at accepted nonempty
  rcases agentId with _ | ⟨first, others⟩
  · simp at nonempty
  unfold validateFleetCommand at accepted
  dsimp only at accepted
  split_ifs at accepted with _ _ _ _ bounded
  simp only [Bool.or_eq_true, decide_eq_true_eq, not_or, Bool.not_eq_true', Bool.not_eq_false,
    all_eq_true] at bounded
  have bytes := fun byte mem => plain_of_targetByte byte (by simpa using bounded.2 byte mem)
  refine ⟨by simp, ?_, fun byte mem => ⟨(bytes byte mem).1, (bytes byte mem).2.1⟩⟩
  rw [← utf16Length_of_ascii fun byte mem => (bytes byte mem).2.2]
  omega

theorem signature_plain (mac : Mac) (key : Bytes) (command : FleetCommand) :
    (signFleetCommand mac key command).length = 64 ∧
      ∀ byte ∈ signFleetCommand mac key command, PlainByte byte := by
  have hex := mac.isHex key (buildFleetCommandDigest command.id command.tenantId
    command.commandType command.payload (command.targetAgentId.getD []))
  exact ⟨hex.1, fun byte mem => (plain_of_uuidByte byte (Or.inl (hex.2 byte mem))).1⟩

theorem jsonMember_of_plain (plain : ∀ byte ∈ text, PlainByte byte) :
    jsonMember key text next = jsonKey key ++ (chr '"' :: (text ++ [chr '"', next])) := by
  simp [jsonMember, jsonString, jsonEscape_of_plain plain]

theorem length_jsonMember (key text : Bytes) (next : UInt8) :
    (jsonMember key text next).length = key.length + (jsonEscape text).length + 6 := by
  simp [jsonMember, jsonKey, jsonString]
  omega

theorem brace_not_mem_jsonMember (noKey : chr '\x7b' ∉ key)
    (plain : ∀ byte ∈ text, PlainByte byte ∧ byte ≠ chr '\x7b') (notNext : chr '\x7b' ≠ next) :
    chr '\x7b' ∉ jsonMember key text next := by
  rw [jsonMember_of_plain fun byte mem => (plain byte mem).1]
  have notText : chr '\x7b' ∉ text := fun mem => (plain _ mem).2 rfl
  have notQuote : chr '\x7b' ≠ chr '"' := by decide
  have notColon : chr '\x7b' ≠ chr ':' := by decide
  simp [jsonKey, noKey, notText, notNext, notQuote, notColon]

theorem jsonTarget_spec (command : FleetCommand) :
    chr '\x7b' ∉ command.jsonTarget ∧ command.jsonTarget.length ≤ 147 := by
  unfold FleetCommand.jsonTarget
  rcases target : command.targetAgentId with _ | agentId
  · decide
  · rcases target_of_accepted target with ⟨-, short, plain⟩
    refine ⟨brace_not_mem_jsonMember (by decide) plain (by decide), ?_⟩
    rw [length_jsonMember, jsonEscape_of_plain fun byte mem => (plain byte mem).1]
    have targetKey : (ascii "targetAgentId").length = 13 := by decide
    omega

theorem IsUuid.length_jsonEscape (uuid : IsUuid text) :
    (jsonEscape text).length = 36 := by
  rw [jsonEscape_of_plain fun byte mem => (uuid.plain byte mem).1, uuid.1]

theorem length_jsonEscape_tenantId (command : FleetCommand) :
    (jsonEscape command.tenantId).length = command.tenantId.length := by
  rw [jsonEscape_of_plain fun byte mem => (command.tenantPlain byte mem).1]

theorem length_jsonHead (command : FleetCommand) :
    command.jsonHead.length = 59 + command.tenantId.length + command.jsonTarget.length := by
  have idKey : (ascii "id").length = 2 := by decide
  have tenantKey : (ascii "tenantId").length = 8 := by decide
  simp only [FleetCommand.jsonHead, length_cons, length_append, length_jsonMember,
    command.idUuid.length_jsonEscape, length_jsonEscape_tenantId]
  omega

theorem jsonHead_eq (command : FleetCommand) :
    ∃ inner, command.jsonHead = chr '\x7b' :: inner ∧ chr '\x7b' ∉ inner := by
  refine ⟨_, rfl, ?_⟩
  simp only [mem_append, not_or]
  exact ⟨brace_not_mem_jsonMember (by decide) command.idUuid.plain (by decide),
    brace_not_mem_jsonMember (by decide) command.tenantPlain (by decide),
    (jsonTarget_spec command).1⟩

theorem commandWindow_jsonHead (earlier here : Bytes) (command : FleetCommand) :
    commandWindow (earlier ++ command.jsonHead) here =
      command.jsonHead.drop (command.jsonHead.length - 1200) ++ here.take 3200 := by
  rcases jsonHead_eq command with ⟨inner, head, noBrace⟩
  have toBrace : ((earlier ++ command.jsonHead).reverse.takeWhile (· ≠ chr '\x7b')).length + 1 =
      command.jsonHead.length := by
    have pass : ∀ byte ∈ inner.reverse, (decide (byte ≠ chr '\x7b')) = true := by
      intro byte mem
      simpa using fun same : byte = chr '\x7b' => noBrace (same ▸ List.mem_reverse.mp mem)
    rw [head, reverse_append, reverse_cons, append_assoc,
      takeWhile_append_of_pos pass]
    simp
  unfold commandWindow
  dsimp only
  rw [toBrace, length_append]
  have back : earlier.length + command.jsonHead.length -
      min 1200 (min (earlier.length + command.jsonHead.length) command.jsonHead.length) =
        earlier.length + (command.jsonHead.length - 1200) := by omega
  rw [back, drop_length_add_append]
  apply copyInto_of_length_lt
  simp only [length_append, length_drop, length_take]
  omega

end Command

section Keys

variable (mac : Mac) (key : Bytes) (command : FleetCommand)

/-- The object from `payload` on. -/
def FleetCommand.jsonPayloadOn : Bytes :=
  jsonMember (ascii "payload") command.payload (chr ',') ++
    (ascii "\"executed\":false,\"status\":\"pending\",\"executedAt\":null," ++
      (jsonMember (ascii "signature") (signFleetCommand mac key command) (chr ',') ++
        jsonMember (ascii "createdAt") command.createdAt (chr '\x7d')))

theorem jsonSigned_append (rest : Bytes) :
    command.jsonSigned mac key ++ (command.jsonEnd ++ rest) =
      jsonMember (ascii "commandType") command.commandType (chr ',') ++
        (command.jsonPayloadOn mac key ++ rest) := by
  have plain := jsonEscape_of_plain (signature_plain mac key command).2
  have signature : ∀ more : Bytes,
      jsonKey (ascii "signature") ++ chr '"' :: signFleetCommand mac key command ++
          (chr '"' :: chr ',' :: more) =
        jsonMember (ascii "signature") (signFleetCommand mac key command) (chr ',') ++ more := by
    intro more
    simp [jsonMember, jsonString, plain]
  simp only [FleetCommand.jsonSigned, FleetCommand.jsonEnd, FleetCommand.jsonPayloadOn,
    append_assoc, cons_append]
  have here := signature (jsonMember (ascii "createdAt") command.createdAt (chr '\x7d') ++ rest)
  simp only [append_assoc, cons_append] at here
  rw [here]

def laterKeys : List Bytes := ["commandType", "payload", "signature"].map ascii

variable {searched : Bytes}

theorem passes_jsonTarget (isKey : searched ∈ fleetKeys)
    (member : Search.Clashes (quotedKey searched) (jsonKey (ascii "targetAgentId")))
    (null : Search.Clashes (quotedKey searched) (ascii "\"targetAgentId\":null,")) (rest : Bytes) :
    Search.Passes (quotedKey searched) command.jsonTarget rest := by
  unfold FleetCommand.jsonTarget
  split
  · exact passes_jsonMember isKey member _ _ (Or.inl rfl)
  · exact Search.passes_of_clashes null rest

theorem passes_jsonHead (isKey : searched ∈ fleetKeys)
    (brace : Search.Clashes (quotedKey searched) [chr '\x7b'])
    (id : Search.Clashes (quotedKey searched) (jsonKey (ascii "id")))
    (tenant : Search.Clashes (quotedKey searched) (jsonKey (ascii "tenantId")))
    (target : ∀ rest, Search.Passes (quotedKey searched) command.jsonTarget rest) (rest : Bytes) :
    Search.Passes (quotedKey searched) command.jsonHead rest := by
  apply Search.passes_append (Search.passes_of_clashes brace _)
  apply Search.passes_append (passes_jsonMember isKey id _ _ (Or.inl rfl))
  apply Search.passes_append (passes_jsonMember isKey tenant _ _ (Or.inl rfl))
  exact target rest

theorem passes_jsonHead_of_later (later : searched ∈ laterKeys) (rest : Bytes) :
    Search.Passes (quotedKey searched) command.jsonHead rest := by
  have clashes : ∀ searched ∈ laterKeys, searched ∈ fleetKeys ∧
      Search.Clashes (quotedKey searched) [chr '\x7b'] ∧
      Search.Clashes (quotedKey searched) (jsonKey (ascii "id")) ∧
      Search.Clashes (quotedKey searched) (jsonKey (ascii "tenantId")) ∧
      Search.Clashes (quotedKey searched) (jsonKey (ascii "targetAgentId")) ∧
      Search.Clashes (quotedKey searched) (ascii "\"targetAgentId\":null,") := by
    decide +kernel
  rcases clashes searched later with ⟨isKey, brace, id, tenant, member, null⟩
  exact passes_jsonHead command isKey brace id tenant
    (passes_jsonTarget command isKey member null) rest

/-- Keys that do not stand behind `commandType` in an object. -/
def earlierKeys : List Bytes := ["commandType", "targetAgentId"].map ascii

theorem passes_jsonPayloadOn (earlier : searched ∈ earlierKeys) (rest : Bytes) :
    Search.Passes (quotedKey searched) (command.jsonPayloadOn mac key) rest := by
  have clashes : ∀ searched ∈ earlierKeys, searched ∈ fleetKeys ∧
      Search.Clashes (quotedKey searched) (jsonKey (ascii "payload")) ∧
      Search.Clashes (quotedKey searched)
        (ascii "\"executed\":false,\"status\":\"pending\",\"executedAt\":null,") ∧
      Search.Clashes (quotedKey searched) (jsonKey (ascii "signature")) ∧
      Search.Clashes (quotedKey searched) (jsonKey (ascii "createdAt")) := by
    decide +kernel
  rcases clashes searched earlier with ⟨isKey, payload, fixed, signature, created⟩
  apply Search.passes_append (passes_jsonMember isKey payload _ _ (Or.inl rfl))
  apply Search.passes_append (Search.passes_of_clashes fixed _)
  apply Search.passes_append (passes_jsonMember isKey signature _ _ (Or.inl rfl))
  exact passes_jsonMember isKey created _ _ (Or.inr rfl)

end Keys

theorem extractStr_skip (passes : ∀ more, Search.Passes (quotedKey key) part more) (text : Bytes) :
    extractStr (part ++ text) key dsz = extractStr text key dsz := by
  have shift : ∀ offset, (part ++ text).drop (offset + part.length + (quotedKey key).length) =
      text.drop (offset + (quotedKey key).length) := by
    intro offset
    rw [show offset + part.length + (quotedKey key).length =
      part.length + (offset + (quotedKey key).length) by omega, drop_append]
    simp
  unfold extractStr Search.after
  rw [Search.find_append (passes text)]
  rcases Search.find (quotedKey key) text with _ | offset
  · rfl
  · simp [shift]

theorem extractStr_take_skip (passes : ∀ more, Search.Passes (quotedKey key) part more)
    (text : Bytes) (count : ℕ) :
    extractStr ((part ++ text).take count) key dsz =
      extractStr (text.take (count - part.length)) key dsz := by
  have nonempty : quotedKey key ≠ [] := by simp [quotedKey_eq]
  have positive := List.length_pos_iff.mpr nonempty
  unfold extractStr Search.after
  rw [Search.find_take nonempty, Search.find_take nonempty, Search.find_append (passes text)]
  rcases Search.find (quotedKey key) text with _ | offset
  · rfl
  · rw [Option.map_some, Option.filter_some, Option.filter_some]
    by_cases inside : offset + (quotedKey key).length ≤ count - part.length
    · have insideWhole : offset + part.length + (quotedKey key).length ≤ count := by omega
      simp only [inside, insideWhole, decide_true, if_true, Option.map_some]
      rw [take_append, drop_append, drop_of_length_le, nil_append,
        length_take, Nat.min_eq_right (by omega)]
      · rw [show offset + part.length + (quotedKey key).length - part.length =
          offset + (quotedKey key).length by omega]
      · rw [length_take]
        omega
    · have outside : ¬offset + part.length + (quotedKey key).length ≤ count := by omega
      simp [inside, outside]

theorem extractStr_take {more : Bytes} (count : ℕ)
    (passes : ∀ more, Search.Passes (quotedKey key) part more) (plain : chr '"' ∉ value) :
    extractStr ((part ++ (quotedKey key ++ (value ++ chr '"' :: more))).take count) key dsz =
      copyInto dsz (value.take (count - (part.length + (quotedKey key).length))) := by
  have nonempty : quotedKey key ≠ [] := by simp [quotedKey_eq]
  have found : Search.find (quotedKey key) (quotedKey key ++ (value ++ chr '"' :: more)) = some 0 :=
    Search.find_append_of_isPrefix Search.passes_nil (prefix_append _ _)
  rw [extractStr_take_skip passes, Nat.sub_add_eq]
  generalize count - part.length = count
  unfold extractStr Search.after
  rw [Search.find_take nonempty, found, Option.filter_some]
  by_cases inside : (quotedKey key).length ≤ count
  · obtain ⟨left, rfl⟩ := Nat.exists_eq_add_of_le inside
    simp only [inside, decide_true, if_true, Option.map_some, Nat.zero_add,
      Nat.add_sub_cancel_left, take_length_add_append, drop_left]
    congr 1
    rcases Nat.lt_or_ge value.length left with long | short
    · obtain ⟨extra, rfl⟩ := Nat.exists_eq_add_of_lt long
      rw [Nat.add_assoc, take_length_add_append, take_succ_cons, takeWhile_quote plain,
        take_of_length_le (by omega)]
    · rw [take_append_of_le_length short]
      apply List.takeWhile_eq_self_iff.mpr
      intro byte mem
      simpa using fun same : byte = chr '"' => plain (same ▸ mem_of_mem_take mem)
  · have cut : count - (quotedKey key).length = 0 := by omega
    simp [inside, cut, copyInto]

theorem length_extractStr_le (src key : Bytes) (dsz : ℕ) :
    (extractStr src key dsz).length ≤ dsz - 1 := by
  unfold extractStr
  split
  · exact length_take_le _ _
  · simp

end LogGuardian
