import LogGuardian.Lib.QuotedSearch
import LogGuardian.Schema.Request

/-!
# What a request that passes the schema is like

A pass is sound if the members of the body are as the declared fields want them. When it is, is said
on the text alone: where a name first stands in quotes, and what the bytes behind it look like.
-/

namespace LogGuardian

open List

def kindFits : Json.Kind → SchemaFieldType → Bool
  | _, .any => true
  | .string, .string => true
  | .integer, .integer => true
  | .integer, .number => true
  | .fraction, .number => true
  | .boolean, .boolean => true
  | .object, .object => true
  | .array, .array => true
  | _, _ => false

def HasType (value : Bytes) (type : SchemaFieldType) : Prop :=
  ∃ kind, Json.IsValue kind value ∧ kindFits kind type = true

/-- The members of a body are as the fields want them. -/
structure FieldsSound (fields : List SchemaField) (members : List Json.Member) : Prop where
  required : ∀ field ∈ fields, field.required = true →
    ∃ member ∈ members, member.name = field.name
  typed : ∀ field ∈ fields, ∀ member ∈ members, member.name = field.name →
    HasType member.value field.type

/-- No byte that begins a string, an object, an array or a literal. -/
def NumberLike (text : Bytes) : Prop := ∀ byte ∈ text.head?, byte ∉ ascii "\"\x7b[tfn"

/-- What the first bytes of a text look like. -/
def LooksLike (text : Bytes) : SchemaFieldType → Prop
  | .any => False
  | .string => text.head? = some (chr '"')
  | .object => text.head? = some (chr '\x7b')
  | .array => text.head? = some (chr '[')
  | .boolean => text.head? = some (chr 't') ∨ text.head? = some (chr 'f')
  | .number => NumberLike text
  | .integer => NumberLike text ∧
      ∀ byte ∈ ((text.drop (if text.head? = some (chr '-') then 1 else 0)).dropWhile isDigit).head?,
        byte ∉ ascii ".eE"

/-- Behind the first place where a name stands in quotes, not at the very end, and behind the spaces
and colons that follow, `seen` begins. -/
def SeenBehind (body name seen : Bytes) : Prop :=
  ∃ front gap, body = front ++ (Json.quoted name ++ (gap ++ seen)) ∧ gap ++ seen ≠ [] ∧
    (∀ byte ∈ gap, byte = 32 ∨ byte = chr ':') ∧
    (∀ byte ∈ seen.head?, ¬(byte = 32 ∨ byte = chr ':')) ∧
    ∀ i < front.length, ¬Json.quoted name <+: body.drop i

/-- A name that stands in quotes is a key of the body, whose values are what the bytes behind the
first such place look like; a name that does not is no key. -/
structure Faithful (body : Bytes) (members : List Json.Member) (name : Bytes) : Prop where
  present : ∀ seen, SeenBehind body name seen → (∃ member ∈ members, member.name = name) ∧
    ∀ type, LooksLike seen type → ∀ member ∈ members, member.name = name → HasType member.value type
  absent : (∀ seen, ¬SeenBehind body name seen) → ∀ member ∈ members, member.name ≠ name

/-- The first place where a name stands in quotes is its key, of which there is one, with only
spaces and the colon before the value; or there is no such place and no such key. -/
def PlainName (body : Bytes) (members : List Json.Member) (name : Bytes) : Prop :=
  (¬Json.quoted name <:+: body ∧ ∀ member ∈ members, member.name ≠ name) ∨
    ∃ member ∈ members, member.name = name ∧
      (∀ other ∈ members, other.name = name → other = member) ∧
      (∀ byte ∈ member.afterKey ++ member.beforeValue, byte = 32) ∧
      ∃ front more, body = front ++ (Json.quoted name ++ (member.afterKey ++ 0x3a ::
          (member.beforeValue ++ (member.value ++ more)))) ∧
        ∀ i < front.length, ¬Json.quoted name <+: body.drop i

variable {body value : Bytes} {res : SchemaValidationResult} {endpoint : SchemaEndpoint}
  {request : SchemaRequest} {world : SchemaWorld} {members : List Json.Member}
  {fields before after others : List SchemaField} {typed : SchemaField}

theorem special_iff {byte : UInt8} : byte ∈ ascii "\"\x7b[tfn" ↔ byte = chr '"' ∨
    byte = chr '\x7b' ∨ byte = chr '[' ∨ byte = chr 't' ∨ byte = chr 'f' ∨ byte = chr 'n' := by
  rw [show ascii "\"\x7b[tfn" = [chr '"', chr '\x7b', chr '[', chr 't', chr 'f', chr 'n'] by decide]
  simp only [mem_cons, not_mem_nil, or_false]

theorem accepts_detectValueType {type : SchemaFieldType} (typed : type ≠ .any) (seen : Bytes) :
    accepts type (detectValueType seen) = true ↔ LooksLike seen type := by
  rcases seen with _ | ⟨first, rest⟩
  · cases type <;> simp [accepts, LooksLike, NumberLike, show detectValueType [] = .integer from rfl]
      at typed ⊢
  by_cases special : first ∈ ascii "\"\x7b[tfn"
  · rw [special_iff] at special
    rcases special with rfl | rfl | rfl | rfl | rfl | rfl
    all_goals
      cases type
      all_goals first
        | exact absurd rfl typed
        | exact iff_of_true rfl (by simp [LooksLike])
        | exact iff_of_false (by simp [accepts, detectValueType, byteAt, chr])
            (by simp [LooksLike, NumberLike, special_iff, chr])
  · have behind := special
    rw [special_iff] at special
    push Not at special
    rcases special with ⟨notQuote, notBrace, notBracket, notT, notF, notN⟩
    have isNumber : NumberLike (first :: rest) := by
      rintro byte ⟨⟩
      exact behind
    have point : ∀ byte, byte ∈ ascii ".eE" ↔ byte = chr '.' ∨ byte = chr 'e' ∨ byte = chr 'E' := by
      intro byte
      rw [show ascii ".eE" = [chr '.', chr 'e', chr 'E'] by decide]
      simp only [mem_cons, not_mem_nil, or_false]
    have digits : (if byteAt (first :: rest) 0 = chr '-' then (first :: rest).drop 1
        else first :: rest) =
        (first :: rest).drop (if (first :: rest).head? = some (chr '-') then 1 else 0) := by
      by_cases minus : first = chr '-' <;> simp [byteAt, minus]
    have detected : detectValueType (first :: rest) =
        if ∃ byte ∈ (((first :: rest).drop (if (first :: rest).head? = some (chr '-') then 1
          else 0)).dropWhile isDigit).head?, byte ∈ ascii ".eE" then .number else .integer := by
      unfold detectValueType
      dsimp only
      rw [digits]
      generalize ((first :: rest).drop (if (first :: rest).head? = some (chr '-') then 1
        else 0)).dropWhile isDigit = after
      simp only [byteAt, getD_cons_zero, notQuote, notBrace, notBracket, notT, notF, notN, or_self,
        if_false, point]
      rcases after with _ | ⟨next, others⟩
      · simp [chr]
      · simp
    rw [detected]
    cases type with
    | any => exact absurd rfl typed
    | string => exact iff_of_false (by split_ifs <;> decide) (by simpa [LooksLike] using notQuote)
    | object => exact iff_of_false (by split_ifs <;> decide) (by simpa [LooksLike] using notBrace)
    | array => exact iff_of_false (by split_ifs <;> decide) (by simpa [LooksLike] using notBracket)
    | boolean => exact iff_of_false (by split_ifs <;> decide) (by simp [LooksLike, notT, notF])
    | number => exact iff_of_true (by split_ifs <;> decide) isNumber
    | integer =>
      rw [LooksLike, and_iff_right isNumber]
      generalize (((first :: rest).drop (if (first :: rest).head? = some (chr '-') then 1
        else 0)).dropWhile isDigit).head? = next
      split_ifs with pointed
      · refine iff_of_false (by decide) fun plain => ?_
        rcases pointed with ⟨byte, isNext, isPoint⟩
        exact plain byte isNext isPoint
      · exact iff_of_true (by decide) fun byte isNext isPoint => pointed ⟨byte, isNext, isPoint⟩


theorem jsonFindKey_eq_some_iff {name seen : Bytes} :
    jsonFindKey body name = some seen ↔ SeenBehind body name seen := by
  have nonempty : Json.quoted name ≠ [] := cons_ne_nil _ _
  unfold jsonFindKey
  rw [dropLast_eq_take, Search.find_take nonempty]
  simp only [Option.map_eq_some_iff, Option.filter_eq_some_iff, decide_eq_true_eq]
  constructor
  · rintro ⟨position, ⟨found, inside⟩, rfl⟩
    rcases Search.prefix_drop_of_find found with ⟨after, split⟩
    have length := congrArg length split
    rw [length_append, length_drop] at length
    have behind : body.drop (position + (Json.quoted name).length) = after := by
      rw [← drop_drop, ← split, drop_left]
    have first := fun i before => @Search.not_prefix_drop_of_lt_find _ _ _ _ _ i found before
    rw [behind]
    refine ⟨body.take position, after.takeWhile fun byte => byte = 32 ∨ byte = chr ':', ?_, ?_, ?_, ?_,
      ?_⟩
    · rw [behindLabel, takeWhile_append_dropWhile, split, take_append_drop]
    · rw [behindLabel, takeWhile_append_dropWhile]
      rintro rfl
      have positive := List.length_pos_iff.mpr nonempty
      rw [length_nil] at length
      omega
    · intro byte mem
      simpa using mem_takeWhile_imp mem
    · intro byte isFirst
      have stops := head?_dropWhile_not (fun byte => decide (byte = 32 ∨ byte = chr ':')) after
      rw [← behindLabel, isFirst] at stops
      simpa using stops
    · intro i before
      rw [length_take] at before
      exact first i (by omega)
  · rintro ⟨front, gap, rfl, someByte, blanks, stops, first⟩
    have positive := List.length_pos_iff.mpr someByte
    refine ⟨front.length, ⟨Search.find_eq_some_of_first ?_ ?_ first, ?_⟩, ?_⟩
    · simp
    · rw [drop_left]
      exact prefix_append _ _
    · simp only [length_append] at positive ⊢
      omega
    · rw [← drop_drop, drop_left, drop_left, behindLabel, dropWhile_append_of_pos]
      · rcases seen with _ | ⟨byte, rest⟩
        · rfl
        · rw [dropWhile_cons_of_neg]
          simpa using stops byte rfl
      · intro byte mem
        simpa using blanks byte mem

theorem faithful_of_found {name seen : Bytes} (found : jsonFindKey body name = some seen) :
    Faithful body members name ↔ (∃ member ∈ members, member.name = name) ∧
      ∀ type, type ≠ .any → accepts type (detectValueType seen) = true →
        ∀ member ∈ members, member.name = name → HasType member.value type := by
  have isSeen := jsonFindKey_eq_some_iff.mp found
  constructor
  · intro faithful
    refine ⟨(faithful.present seen isSeen).1, fun type typed accepted => ?_⟩
    exact (faithful.present seen isSeen).2 type ((accepts_detectValueType typed seen).mp accepted)
  · rintro ⟨isKey, types⟩
    refine ⟨fun other isOther => ?_, fun never => absurd isSeen (never seen)⟩
    rw [← jsonFindKey_eq_some_iff, found, Option.some.injEq] at isOther
    subst isOther
    refine ⟨isKey, fun type looks => ?_⟩
    have typed : type ≠ .any := by
      rintro rfl
      exact looks
    exact types type typed ((accepts_detectValueType typed seen).mpr looks)

theorem faithful_of_not_found {name : Bytes} (missing : jsonFindKey body name = none) :
    Faithful body members name ↔ ∀ member ∈ members, member.name ≠ name := by
  have never : ∀ seen, ¬SeenBehind body name seen := by
    intro seen isSeen
    rw [← jsonFindKey_eq_some_iff, missing] at isSeen
    cases isSeen
  exact ⟨fun faithful => faithful.absent never,
    fun noKey => ⟨fun seen isSeen => absurd isSeen (never seen), fun _ => noKey⟩⟩

theorem head_behind_of_fraction {state last : Json.NumberState} {text : Bytes}
    (whole : state = .zero ∨ state = .digits) (reads : Json.readNumber state text = some last)
    (isFraction : last.kind = some .fraction) (more : Bytes) :
    ∃ byte ∈ ((text ++ more).dropWhile isDigit).head?, byte ∈ ascii ".eE" := by
  induction text generalizing state with
  | nil =>
    cases Option.some.inj reads
    rcases whole with rfl | rfl <;> cases isFraction
  | cons byte rest ih =>
    rcases Option.bind_eq_some_iff.mp reads with ⟨next, steps, readsRest⟩
    have stop (notDigit : isDigit byte = false) (isPoint : byte ∈ ascii ".eE") :
        ∃ byte' ∈ ((byte :: rest ++ more).dropWhile isDigit).head?, byte' ∈ ascii ".eE" := by
      rw [cons_append, dropWhile_cons_of_neg (by simp [notDigit])]
      exact ⟨byte, rfl, isPoint⟩
    rcases whole with rfl | rfl
    · simp only [Json.NumberState.next] at steps
      split_ifs at steps with point mark
      · exact stop (by rw [point]; decide) (by rw [point]; decide)
      · rcases mark with rfl | rfl <;> exact stop (by decide) (by decide)
    · simp only [Json.NumberState.next] at steps
      split_ifs at steps with digit point mark
      · rw [cons_append, dropWhile_cons_of_pos (show isDigit byte = true from digit)]
        exact ih (Or.inr (Option.some.inj steps).symm) readsRest
      · exact stop (by rw [point]; decide) (by rw [point]; decide)
      · rcases mark with rfl | rfl <;> exact stop (by decide) (by decide)

theorem not_looksLike_integer {text : Bytes} (isNumber : Json.numberKind text = some .fraction)
    (more : Bytes) : ¬LooksLike (text ++ more) .integer := by
  rcases Option.bind_eq_some_iff.mp isNumber with ⟨last, reads, isFraction⟩
  rintro ⟨-, plain⟩
  rcases text with _ | ⟨first, rest⟩
  · cases Option.some.inj reads
    cases isFraction
  rcases Option.bind_eq_some_iff.mp reads with ⟨next, steps, readsRest⟩
  -- Behind a sign the whole part begins; without one it has begun already.
  simp only [Json.NumberState.next] at steps
  split_ifs at steps with minus zero digit
  · subst minus
    rcases rest with _ | ⟨second, rest⟩
    · cases Option.some.inj steps
      cases Option.some.inj readsRest
      cases isFraction
    cases Option.some.inj steps
    rcases Option.bind_eq_some_iff.mp readsRest with ⟨whole, steps, readsRest⟩
    have digit : isDigit second = true ∧ (whole = .zero ∨ whole = .digits) := by
      simp only [Json.NumberState.next] at steps
      split_ifs at steps with zero digit
      · exact ⟨by rw [zero]; decide, Or.inl (Option.some.inj steps).symm⟩
      · exact ⟨digit, Or.inr (Option.some.inj steps).symm⟩
    rcases head_behind_of_fraction digit.2 readsRest isFraction more with ⟨byte, isNext, isPoint⟩
    refine plain byte ?_ isPoint
    simpa [chr, dropWhile_cons_of_pos digit.1] using isNext
  · subst zero
    cases Option.some.inj steps
    rcases head_behind_of_fraction (Or.inl rfl) readsRest isFraction more with ⟨byte, isNext, isPoint⟩
    refine plain byte ?_ isPoint
    simpa [chr, dropWhile_cons_of_pos (show isDigit 48 = true by decide)] using isNext
  · cases Option.some.inj steps
    rcases head_behind_of_fraction (Or.inr rfl) readsRest isFraction more with ⟨byte, isNext, isPoint⟩
    refine plain byte ?_ isPoint
    have notMinus : ¬first = chr '-' := minus
    simpa [notMinus, dropWhile_cons_of_pos (show isDigit first = true from digit)] using isNext

theorem number_kind {text : Bytes} {kind : Json.Kind} (isNumber : Json.numberKind text = some kind) :
    kind = .integer ∨ kind = .fraction := by
  rcases Option.bind_eq_some_iff.mp isNumber with ⟨state, -, isKind⟩
  cases state with
  | zero => exact Or.inl (Option.some.inj isKind).symm
  | digits => exact Or.inl (Option.some.inj isKind).symm
  | fraction => exact Or.inr (Option.some.inj isKind).symm
  | exponent => exact Or.inr (Option.some.inj isKind).symm
  | _ => cases isKind

theorem kindFits_of_looksLike {kind : Json.Kind} {type : SchemaFieldType} {more : Bytes}
    (isValue : Json.IsValue kind value) (looks : LooksLike (value ++ more) type) :
    kindFits kind type = true := by
  have fixed {first : UInt8} {rest : Bytes} (shape : value = first :: rest)
      (special : first ∈ ascii "\"\x7b[tfn") :
      (type = .string ∧ first = chr '"') ∨ (type = .object ∧ first = chr '\x7b') ∨
        (type = .array ∧ first = chr '[') ∨ (type = .boolean ∧ (first = chr 't' ∨ first = chr 'f')) := by
    subst shape
    cases type with
    | any => exact absurd looks id
    | number => exact absurd special (looks first rfl)
    | integer => exact absurd special (looks.1 first rfl)
    | _ => simpa [LooksLike] using looks
  cases isValue with
  | number isNumber =>
    rcases value with _ | ⟨first, rest⟩
    · exact absurd rfl (Json.number_ne_nil isNumber)
    have other {byte : UInt8} (stuck : ∀ state, Json.NumberState.next state byte = none) :
        first ≠ byte := Json.ne_of_mem_number isNumber mem_cons_self stuck
    cases type with
    | any => exact absurd looks id
    | number => rcases number_kind isNumber with rfl | rfl <;> rfl
    | integer =>
      rcases number_kind isNumber with rfl | rfl
      · rfl
      · exact absurd looks (not_looksLike_integer isNumber more)
    | boolean =>
      rcases looks with isT | isF
      · exact absurd (Option.some.inj isT) (other (by intro state; cases state <;> rfl))
      · exact absurd (Option.some.inj isF) (other (by intro state; cases state <;> rfl))
    | _ => exact absurd (Option.some.inj looks) (other (by intro state; cases state <;> rfl))
  | string content =>
    rcases fixed rfl (by decide) with ⟨rfl, same⟩ | ⟨rfl, same⟩ | ⟨rfl, same⟩ | ⟨rfl, same⟩
    all_goals first | rfl | exact absurd same (by decide)
  | _ =>
    rcases fixed rfl (by decide) with ⟨rfl, same⟩ | ⟨rfl, same⟩ | ⟨rfl, same⟩ | ⟨rfl, same⟩
    all_goals first | rfl | exact absurd same (by decide)

theorem head_value {kind : Json.Kind} (isValue : Json.IsValue kind value) (more : Bytes) :
    ∀ byte ∈ (value ++ more).head?, ¬(byte = 32 ∨ byte = chr ':') := by
  cases isValue with
  | number isNumber =>
    rcases value with _ | ⟨first, rest⟩
    · exact absurd rfl (Json.number_ne_nil isNumber)
    have other {byte : UInt8} (stuck : ∀ state, Json.NumberState.next state byte = none) :
        first ≠ byte := Json.ne_of_mem_number isNumber mem_cons_self stuck
    rintro byte ⟨⟩
    exact not_or.mpr ⟨other (by intro state; cases state <;> rfl),
      other (by intro state; cases state <;> rfl)⟩
  | _ =>
    rintro byte ⟨⟩
    decide

theorem faithful_of_plainName {name : Bytes} (valid : ∀ member ∈ members, member.Valid)
    (plain : PlainName body members name) : Faithful body members name := by
  rcases plain with ⟨nowhere, noKey⟩ | ⟨member, mem, isName, one, spaces, front, more, split, first⟩
  · refine ⟨fun seen isSeen => ?_, fun _ => noKey⟩
    rcases isSeen with ⟨front, gap, rfl, -⟩
    exact absurd ⟨front, gap ++ seen, by simp⟩ nowhere
  · rcases (valid member mem).2 with ⟨kind, isValue⟩
    have isSeen : SeenBehind body name (member.value ++ more) := by
      refine ⟨front, member.afterKey ++ 0x3a :: member.beforeValue, by simp [split], by simp, ?_, ?_,
        first⟩
      · intro byte inGap
        rw [mem_append, mem_cons] at inGap
        rcases inGap with behindKey | rfl | beforeValue
        · exact Or.inl (spaces byte (mem_append_left _ behindKey))
        · exact Or.inr rfl
        · exact Or.inl (spaces byte (mem_append_right _ beforeValue))
      · exact head_value isValue more
    rw [faithful_of_found (jsonFindKey_eq_some_iff.mpr isSeen)]
    refine ⟨⟨member, mem, isName⟩, fun type typed accepted other isOther sameName => ?_⟩
    rw [one other isOther sameName]
    exact ⟨kind, isValue,
      kindFits_of_looksLike isValue ((accepts_detectValueType typed _).mp accepted)⟩

theorem status_fieldViolation {field : SchemaField}
    (violates : fieldViolation body field = some res) : res.status = .block := by
  unfold fieldViolation at violates
  split at violates
  · split_ifs at violates
    cases Option.some.inj violates
    rfl
  · split_ifs at violates
    cases Option.some.inj violates
    rfl

theorem status_parameterViolation {param : SchemaParameter}
    (violates : parameterViolation endpoint request param = some res) : res.status = .block := by
  unfold parameterViolation at violates
  split at violates
  · split_ifs at violates
    cases Option.some.inj violates
    rfl
  · split_ifs at violates
    cases Option.some.inj violates
    rfl

theorem fields_of_validateBody (isStrict : endpoint.strict = true) (body : request.body ≠ [])
    (passes : (validateBody endpoint request world).1.status = .pass) :
    validateUnknownBodyFields endpoint.fields true request.body = 0 ∧
      ∀ field ∈ endpoint.fields, fieldViolation request.body field = none := by
  unfold validateBody at passes
  rw [if_neg body, isStrict] at passes
  split_ifs at passes with unknown
  · cases (show SchemaStatus.block = .pass from passes)
  · refine ⟨not_not.mp unknown, ?_⟩
    rcases fields : endpoint.fields.findSome? (fieldViolation request.body) with _ | res
    · exact List.findSome?_eq_none_iff.mp fields
    · rw [fields] at passes
      rcases List.exists_of_findSome?_eq_some fields with ⟨field, -, violates⟩
      change res.status = .pass at passes
      rw [status_fieldViolation violates] at passes
      cases passes

theorem fields_of_pass {registry : SchemaRegistry} (loaded : world.registry = some registry)
    (found : findEndpoint registry request = some endpoint) (body : request.body ≠ [])
    (passes : (schemaValidateRequestV2 world request).1.status = .pass) :
    validateUnknownBodyFields endpoint.fields true request.body = 0 ∧
      ∀ field ∈ endpoint.fields, fieldViolation request.body field = none := by
  have isStrict : endpoint.strict = true :=
    registry.strict endpoint (List.mem_of_find?_eq_some found)
  unfold schemaValidateRequestV2 at passes
  simp only [loaded, found] at passes
  unfold validateEndpoint at passes
  dsimp only at passes
  split_ifs at passes with exceeded
  · cases (show SchemaStatus.block = .pass from passes)
  rcases params : endpoint.params.findSome? (parameterViolation endpoint request) with _ | res
  · rw [params] at passes
    exact fields_of_validateBody isStrict body passes
  · rw [params] at passes
    rcases List.exists_of_findSome?_eq_some params with ⟨param, -, violates⟩
    change res.status = .pass at passes
    rw [status_parameterViolation violates] at passes
    cases passes

theorem fieldsSound_of_faithful (faithful : ∀ field ∈ fields, Faithful body members field.name)
    (checked : ∀ field ∈ fields, fieldViolation body field = none)
    (valid : ∀ member ∈ members, member.Valid) : FieldsSound fields members := by
  have anyType : ∀ member ∈ members, HasType member.value .any := by
    intro member mem
    rcases (valid member mem).2 with ⟨kind, isValue⟩
    exact ⟨kind, isValue, by cases kind <;> rfl⟩
  constructor
  · intro field mem isRequired
    have isFaithful := faithful field mem
    have noViolation := checked field mem
    unfold fieldViolation at noViolation
    rcases seen : jsonFindKey body field.name with _ | value
    · rw [seen] at noViolation
      rw [if_pos isRequired] at noViolation
      cases noViolation
    · exact ((faithful_of_found seen).mp isFaithful).1
  · intro field mem member isMember sameName
    have isFaithful := faithful field mem
    have noViolation := checked field mem
    unfold fieldViolation at noViolation
    rcases seen : jsonFindKey body field.name with _ | value
    · exact absurd sameName ((faithful_of_not_found seen).mp isFaithful member isMember)
    · rw [faithful_of_found seen] at isFaithful
      rw [seen] at noViolation
      dsimp only at noViolation
      by_cases isAny : field.type = .any
      · rw [isAny]
        exact anyType member isMember
      · have accepted : accepts field.type (detectValueType value) = true := by
          by_contra refused
          rw [if_pos ⟨isAny, by simpa using refused⟩] at noViolation
          cases noViolation
        exact isFaithful.2 field.type isAny accepted member isMember sameName

def untyped (field : SchemaField) : SchemaField := { field with type := .any, required := false }

def bareEndpoint (fields : List SchemaField) (few : fields.length ≤ 32) : SchemaEndpoint :=
  ⟨ascii "/", ascii "POST", fields, [], 0, true, few⟩

def bareWorld (endpoint : SchemaEndpoint) (isStrict : endpoint.strict = true) : SchemaWorld where
  registry := some ⟨[endpoint], by
    intro other mem
    rw [List.mem_singleton.mp mem]
    exact isStrict⟩
  strictGlobal := false
  rateBuckets _ := ⟨[], 0, 0⟩
  idorTrack _ := ⟨[], List.replicate 16 0, 0, 0⟩
  stats := ⟨0, 0, 0, 0, 0⟩

def bareRequest (body : Bytes) : SchemaRequest := ⟨ascii "POST", ascii "/", body, none, none, 0⟩

theorem res_idorApplyScore {trackKey : Bytes} {idVal : ℤ}
    (fresh : ∀ index, world.idorTrack index = ⟨[], List.replicate 16 0, 0, 0⟩) :
    (idorApplyScore trackKey idVal (world, passedResult)).2 = passedResult := by
  have pushed : ((world.idorTrack (tableHash trackKey % 256)).push trackKey idVal).count = 1 := by
    rw [fresh]
    unfold IdorTrack.push
    by_cases noKey : [] = trackKey
    · simp [noKey]
    · simp [noKey]
  unfold idorApplyScore
  dsimp only
  rw [pushed, if_pos (show 1 < 4 by decide)]
  split_ifs
  · rfl
  · rfl

theorem filterMap_untyped (body : Bytes) (fields : List SchemaField) :
    (fields.map untyped).filterMap (bodyId body) = [] := by
  rw [filterMap_eq_nil_iff]
  intro field mem
  rcases List.mem_map.mp mem with ⟨original, -, rfl⟩
  exact if_neg (show ¬SchemaFieldType.any = .integer by decide)

theorem finishRequest_bare (few : fields.length ≤ 32)
    (shape : fields = before.map untyped ++ typed :: after.map untyped) (nonempty : body ≠ [])
    (fresh : ∀ index, world.idorTrack index = ⟨[], List.replicate 16 0, 0, 0⟩) :
    (finishRequest (bareEndpoint fields few) (bareRequest body) world).1.status = .pass := by
  have result : (idorCheckPathAndBodyParams (bareEndpoint fields few) (bareRequest body)
      (world, passedResult)).2 = passedResult := by
    have ids : fields.filterMap (bodyId body) = (bodyId body typed).toList := by
      rw [shape, filterMap_append, filterMap_cons, filterMap_untyped, filterMap_untyped]
      rcases bodyId body typed with _ | idVal
      · rfl
      · rfl
    unfold idorCheckPathAndBodyParams
    rw [if_neg (show (bareRequest body).body ≠ [] from nonempty)]
    change ((fields.filterMap (bodyId body)).foldl _ (world, passedResult)).2 = passedResult
    rw [ids]
    rcases bodyId body typed with _ | idVal
    · rfl
    · exact res_idorApplyScore fresh
  unfold finishRequest
  generalize idorCheckPathAndBodyParams (bareEndpoint fields few) (bareRequest body)
    (world, passedResult) = checked at result
  rcases checked with ⟨after, res⟩
  subst result
  rfl

theorem fieldViolation_untyped (body : Bytes) (field : SchemaField) :
    fieldViolation body (untyped field) = none := by
  unfold fieldViolation
  split
  · exact if_neg (show ¬false = true by decide)
  · exact if_neg fun both => both.1 rfl

theorem pass_of_checked (few : fields.length ≤ 32)
    (shape : fields = before.map untyped ++ typed :: after.map untyped) (nonempty : body ≠ [])
    (known : validateUnknownBodyFields fields true body = 0)
    (checked : fieldViolation body typed = none) :
    (schemaValidateRequestV2 (bareWorld (bareEndpoint fields few) rfl)
      (bareRequest body)).1.status = .pass := by
  have noViolation : fields.findSome? (fieldViolation body) = none := by
    rw [List.findSome?_eq_none_iff, shape]
    intro field mem
    rcases List.mem_append.mp mem with inBefore | inRest
    · rcases List.mem_map.mp inBefore with ⟨original, -, rfl⟩
      exact fieldViolation_untyped body original
    · rcases List.mem_cons.mp inRest with rfl | inAfter
      · exact checked
      · rcases List.mem_map.mp inAfter with ⟨original, -, rfl⟩
        exact fieldViolation_untyped body original
  have found : ∀ registry, registry.endpoints = [bareEndpoint fields few] →
      findEndpoint registry (bareRequest body) = some (bareEndpoint fields few) := by
    intro registry isOne
    unfold findEndpoint
    rw [isOne, List.find?_cons_of_pos]
    rfl
  have notEmpty : (bareRequest body).body ≠ [] := nonempty
  have isKnown : validateUnknownBodyFields (bareEndpoint fields few).fields
      ((bareEndpoint fields few).strict || false) (bareRequest body).body = 0 := known
  unfold schemaValidateRequestV2 bareWorld
  dsimp only
  unfold validateEndpoint rateLimitExceeded
  dsimp only [bareRequest]
  change (validateBody (bareEndpoint fields few) (bareRequest body) _).1.status = .pass
  unfold validateBody
  rw [if_neg notEmpty, if_neg (not_not.mpr isKnown)]
  have isPassed : (bareEndpoint fields few).fields.findSome?
      (fieldViolation (bareRequest body).body) = none := noViolation
  rw [isPassed]
  exact finishRequest_bare few shape nonempty fun _ => rfl

theorem scanFields_congr (sameNames : fields.map SchemaField.name = others.map SchemaField.name)
    (fuel : ℕ) (text : Bytes) : scanFields fields fuel text = scanFields others fuel text := by
  induction fuel generalizing text with
  | zero => rfl
  | succ fuel ih =>
    rw [scanFields, scanFields, sameNames]
    rcases jtReadString 64 text with _ | ⟨fname, behind⟩
    · rfl
    · dsimp only
      rw [ih]

theorem validateUnknownBodyFields_congr
    (sameNames : fields.map SchemaField.name = others.map SchemaField.name) (strict : Bool)
    (body : Bytes) : validateUnknownBodyFields fields strict body =
      validateUnknownBodyFields others strict body := by
  have sameEmpty : fields = [] ↔ others = [] := by
    rw [← @map_eq_nil_iff _ _ SchemaField.name, sameNames, map_eq_nil_iff]
  unfold validateUnknownBodyFields
  simp [sameEmpty, scanFields_congr sameNames]

theorem head_of_hasType_string (hasType : HasType value .string) :
    value.head? = some 0x22 := by
  rcases hasType with ⟨kind, isValue, fits⟩
  cases isValue with
  | string content => rfl
  | number isNumber => rcases number_kind isNumber with rfl | rfl <;> cases fits
  | _ => cases fits

theorem head_of_hasType_array (hasType : HasType value .array) :
    value.head? = some 0x5b := by
  rcases hasType with ⟨kind, isValue, fits⟩
  cases isValue with
  | number isNumber => rcases number_kind isNumber with rfl | rfl <;> cases fits
  | emptyArray _ => rfl
  | array _ => rfl
  | _ => cases fits

theorem exists_not_hasType (value : Bytes) :
    ∃ type, type ≠ SchemaFieldType.any ∧ ¬HasType value type := by
  by_cases isString : HasType value .string
  · refine ⟨.array, by decide, ?_⟩
    intro isArray
    have head := head_of_hasType_string isString
    rw [head_of_hasType_array isArray] at head
    exact absurd (Option.some.inj head) (by decide)
  · exact ⟨.string, by decide, isString⟩

theorem exists_unsound_field {name : Bytes} (unfaithful : ¬Faithful body members name) :
    ∃ type required, ∀ field : SchemaField, field.name = name → field.type = type →
      field.required = required → fieldViolation body field = none ∧
        ∀ fields, field ∈ fields → ¬FieldsSound fields members := by
  rcases seen : jsonFindKey body name with _ | value
  · rw [faithful_of_not_found seen] at unfaithful
    push Not at unfaithful
    rcases unfaithful with ⟨member, mem, sameName⟩
    rcases exists_not_hasType member.value with ⟨type, -, wrong⟩
    refine ⟨type, false, ?_⟩
    rintro field rfl rfl notRequired
    constructor
    · unfold fieldViolation
      rw [seen, notRequired]
      rfl
    · intro fields isField sound
      exact wrong (sound.typed field isField member mem sameName)
  · rw [faithful_of_found seen, not_and_or] at unfaithful
    rcases unfaithful with missing | mistyped
    · refine ⟨.any, true, ?_⟩
      rintro field rfl isAny isRequired
      constructor
      · unfold fieldViolation
        rw [seen]
        exact if_neg fun both => both.1 isAny
      · intro fields isField sound
        exact missing (sound.required field isField isRequired)
    · push Not at mistyped
      rcases mistyped with ⟨type, -, accepted, member, mem, sameName, wrong⟩
      refine ⟨type, false, ?_⟩
      rintro field rfl rfl notRequired
      constructor
      · unfold fieldViolation
        rw [seen]
        exact if_neg fun both => by simp [accepted] at both
      · intro fields isField sound
        exact wrong (sound.typed field isField member mem sameName)

/-- Whatever the types and flags of fields with these names, a request that passes an endpoint with
such fields is as they want it. -/
def PassSound (template : SchemaEndpoint) (body : Bytes) (members : List Json.Member) : Prop :=
  ∀ (world : SchemaWorld) (request : SchemaRequest) (registry : SchemaRegistry)
      (endpoint : SchemaEndpoint), world.registry = some registry →
    findEndpoint registry request = some endpoint →
    endpoint.fields.map SchemaField.name = template.fields.map SchemaField.name →
    request.body = body → (schemaValidateRequestV2 world request).1.status = .pass →
      FieldsSound endpoint.fields members

theorem passSound_iff (template : SchemaEndpoint) (isObject : Json.IsObject body members) :
    PassSound template body members ↔ validateUnknownBodyFields template.fields true body ≠ 0 ∨
      ∀ field ∈ template.fields, Faithful body members field.name := by
  have valid : ∀ member ∈ members, member.Valid := by
    rcases isObject with ⟨_, _, _, -, -, -, valid, -⟩
    exact valid
  have nonempty : body ≠ [] := by
    rcases isObject with ⟨_, _, _, -, -, -, -, rfl⟩
    simp
  constructor
  · intro sound
    by_contra neither
    rw [not_or, not_not] at neither
    rcases neither with ⟨known, misleads⟩
    push Not at misleads
    rcases misleads with ⟨field, mem, unfaithful⟩
    rcases exists_unsound_field unfaithful with ⟨type, required, unsound⟩
    rcases append_of_mem mem with ⟨before, after, split⟩
    let typed : SchemaField := { field with type := type, required := required }
    rcases unsound typed rfl rfl rfl with ⟨checked, wrong⟩
    let fields := before.map untyped ++ typed :: after.map untyped
    have names : fields.map SchemaField.name = template.fields.map SchemaField.name := by
      rw [split]
      simp [fields, typed, untyped, Function.comp_def]
    have few : fields.length ≤ 32 := by
      have bound := template.length_fields
      rw [← length_map SchemaField.name, ← names, length_map] at bound
      exact bound
    have isKnown : validateUnknownBodyFields fields true body = 0 := by
      rw [validateUnknownBodyFields_congr names]
      exact known
    have passes := pass_of_checked few rfl nonempty isKnown checked
    apply wrong fields (mem_append_right _ mem_cons_self)
    exact sound _ (bareRequest body) _ (bareEndpoint fields few) rfl (by
      unfold findEndpoint
      rfl) names rfl passes
  · rintro condition world request registry endpoint loaded found names rfl passes
    rcases fields_of_pass loaded found nonempty passes with ⟨known, checked⟩
    rw [validateUnknownBodyFields_congr names] at known
    rcases condition with rejected | faithful
    · exact absurd known rejected
    · apply fieldsSound_of_faithful _ checked valid
      intro field mem
      have isName : field.name ∈ template.fields.map SchemaField.name := by
        rw [← names]
        exact mem_map_of_mem mem
      rcases List.mem_map.mp isName with ⟨other, isOther, sameName⟩
      rw [← sameName]
      exact faithful other isOther

/-- A pass is sound if every declared name stands in quotes first as its own key, with only spaces and
a colon before the value, and exactly if the body has an unknown field or no name misleads. -/
theorem schema_pass_sound_iff (template : SchemaEndpoint) {body : Bytes}
    {members : List Json.Member} (isObject : Json.IsObject body members) :
    ((∀ field ∈ template.fields, PlainName body members field.name) →
        PassSound template body members) ∧
      (PassSound template body members ↔
        validateUnknownBodyFields template.fields true body ≠ 0 ∨
          ∀ field ∈ template.fields, Faithful body members field.name) := by
  refine ⟨fun plain => (passSound_iff template isObject).mpr (Or.inr ?_),
    passSound_iff template isObject⟩
  have valid : ∀ member ∈ members, member.Valid := by
    rcases isObject with ⟨_, _, _, -, -, -, valid, -⟩
    exact valid
  exact fun field mem => faithful_of_plainName valid (plain field mem)

/-- The fields of `userMembers` with their types. -/
def typedUserFields : List SchemaField :=
  List.zipWith (fun field typed => { field with type := typed.1, required := typed.2 }) userFields
    [(.string, true), (.array, false)]

theorem plainName_userMembers : ∀ field ∈ typedUserFields,
    PlainName (compactBody userMembers) userMembers field.name := by
  have names : ∀ field ∈ typedUserFields, field.name = ascii "name" ∨ field.name = ascii "tags" := by
    decide
  intro field mem
  rcases names field mem with isName | isName
  · rw [isName]
    exact Or.inr ⟨compactMember (ascii "name") (ascii "\"ada\""), by decide +kernel,
      by decide +kernel, by decide +kernel, by decide +kernel, ascii "\x7b",
      ascii ",\"tags\":[\"x\"]\x7d", by decide +kernel, by decide +kernel⟩
  · rw [isName]
    exact Or.inr ⟨compactMember (ascii "tags") (ascii "[\"x\"]"), by decide +kernel,
      by decide +kernel, by decide +kernel, by decide +kernel, ascii "\x7b\"name\":\"ada\",",
      ascii "\x7d", by decide +kernel, by decide +kernel⟩

theorem schema_pass_sound_user :
    Json.IsObject (compactBody userMembers) userMembers ∧
      FieldsSound typedUserFields userMembers := by
  have isObject := isObject_compactBody (cons_ne_nil _ _) valid_userMembers
  refine ⟨isObject, ?_⟩
  let endpoint := bareEndpoint typedUserFields (by decide)
  exact (schema_pass_sound_iff endpoint isObject).1 plainName_userMembers
    (bareWorld endpoint rfl) (bareRequest (compactBody userMembers)) _ endpoint rfl rfl rfl rfl
    (by decide +kernel)

/-- A body whose only `age` is a field of another object. -/
def nestedMembers : List Json.Member :=
  [compactMember (ascii "a") (ascii "\x7b\"age\":5\x7d")]

def nestedFields : List SchemaField :=
  [⟨ascii "a", .object, true, by decide, by decide⟩,
    ⟨ascii "age", .integer, true, by decide, by decide⟩]

theorem schema_pass_unsound :
    Json.IsObject (compactBody nestedMembers) nestedMembers ∧
      (schemaValidateRequestV2 (bareWorld (bareEndpoint nestedFields (by decide)) rfl)
        (bareRequest (compactBody nestedMembers))).1.status = .pass ∧
      ¬FieldsSound nestedFields nestedMembers := by
  refine ⟨?_, by decide +kernel, ?_⟩
  · apply isObject_compactBody (cons_ne_nil _ _)
    intro member mem
    rw [List.mem_singleton.mp mem]
    have inner : Json.IsValue .object (ascii "\x7b\"age\":5\x7d") := by
      apply @Json.isValue_fields [(ascii "age", ascii "5")] (cons_ne_nil _ _)
      intro entry isEntry
      rw [List.mem_singleton.mp isEntry]
      exact ⟨by decide, .integer, .number rfl⟩
    exact valid_compactMember (by decide) inner
  · intro sound
    rcases sound.required _ (mem_cons_of_mem _ (mem_singleton_self _)) rfl with
      ⟨member, mem, sameName⟩
    rw [List.mem_singleton.mp mem] at sameName
    exact absurd sameName (by decide +kernel)

end LogGuardian
