import LogGuardian.Firewall.Targets
import LogGuardian.Lib.JsonObject

/-!
# The fields of a request body

The walk of `validate_unknown_body_fields` over a body, beside the members that the JSON grammar
gives it. One lemma says what a turn of the walk does with a member, the walk follows by induction.
-/

namespace LogGuardian

open List

/-- `jt_skip_ws`. -/
def jtSkipWs (text : Bytes) : Bytes := text.dropWhile isSpace

/-- The loop of `jt_read_string` behind the first quote: the bytes that it copies and what it
leaves behind the closing quote. -/
def jtReadRest : Bytes → Bytes × Bytes
  | [] => ([], [])
  | byte :: rest =>
    if byte = chr '"' then ([], rest)
    else if byte = chr '\\' then
      match rest with
      | [] => ([], [])
      | escaped :: rest => (escaped :: (jtReadRest rest).1, (jtReadRest rest).2)
    else (byte :: (jtReadRest rest).1, (jtReadRest rest).2)

/-- `jt_read_string` into a buffer of `size` bytes. -/
def jtReadString (size : ℕ) (text : Bytes) : Option (Bytes × Bytes) :=
  match jtSkipWs text with
  | [] => none
  | byte :: rest =>
    if byte = chr '"' then some (copyInto size (jtReadRest rest).1, (jtReadRest rest).2) else none

def jtConsume (byte : UInt8) (text : Bytes) : Bytes :=
  let text := jtSkipWs text
  if text.head? = some byte then text.drop 1 else text

def skipNested (opening closing : UInt8) : ℤ → Bytes → Bytes
  | _, [] => []
  | depth, byte :: rest =>
    let depth :=
      if byte = opening then depth + 1 else if byte = closing then depth - 1 else depth
    if 0 < depth then skipNested opening closing depth rest else rest

def skipValue (text : Bytes) : Bytes :=
  let text := jtSkipWs text
  let behind :=
    match text with
    | [] => []
    | byte :: rest =>
      if byte = chr '"' then (jtReadRest rest).2
      else if byte = chr '\x7b' then skipNested byte (chr '\x7d') 0 text
      else if byte = chr '[' then skipNested byte (chr ']') 0 text
      else text.dropWhile fun byte => byte ≠ chr ',' ∧ byte ≠ chr '\x7d'
  jtConsume (chr ',') behind

inductive SchemaFieldType where
  | any | string | integer | number | boolean | object | array
  deriving DecidableEq, Repr

structure SchemaField where
  name : Bytes
  type : SchemaFieldType
  required : Bool
  length_name : name.length ≤ 63
  nul_name : 0 ∉ name
  deriving DecidableEq, Repr

/-- The walk over the members. -/
def scanFields (fields : List SchemaField) : ℕ → Bytes → ℤ
  | 0, _ => 0
  | fuel + 1, text =>
    if (jtSkipWs text).head? = some (chr '\x7d') then 0
    else
      match jtReadString 64 text with
      | none => 0
      | some (fname, behind) =>
        if (fields.map SchemaField.name).contains (fname.takeWhile (· ≠ 0)) then
          scanFields fields fuel (skipValue (jtConsume (chr ':') behind))
        else -1

/-- `validate_unknown_body_fields`. -/
def validateUnknownBodyFields (fields : List SchemaField) (strict : Bool) (body : Bytes) : ℤ :=
  if body = [] ∨ fields = [] then 0
  else if !strict then 0
  else
    match jtSkipWs body with
    | [] => 0
    | byte :: rest => if byte = chr '\x7b' then scanFields fields body.length rest else 0

variable {text value : Bytes} {fuel : ℕ} {byte opening closing : UInt8} {members : List Json.Member}

def stripSlashes : Bytes → Bytes
  | [] => []
  | byte :: rest =>
    if byte = chr '\\' then
      match rest with
      | [] => []
      | escaped :: rest => escaped :: stripSlashes rest
    else byte :: stripSlashes rest

def openCount (opening closing : UInt8) (text : Bytes) : ℤ :=
  (text.count opening : ℤ) - text.count closing

/-- Counting one kind of bracket finds the end of the value and not an earlier place. -/
def Balanced (opening closing : UInt8) (value : Bytes) : Prop :=
  (∀ k < value.length, 0 < k → 0 < openCount opening closing (value.take k)) ∧
    openCount opening closing value = 0

instance (opening closing : UInt8) (value : Bytes) : Decidable (Balanced opening closing value) :=
  inferInstanceAs (Decidable (_ ∧ _))

/-- The walk skips the value that is there. -/
structure Skippable (member : Json.Member) : Prop where
  object : member.value.head? = some (chr '\x7b') →
    Balanced (chr '\x7b') (chr '\x7d') member.value
  array : member.value.head? = some (chr '[') → Balanced (chr '[') (chr ']') member.value

def declares (fields : List SchemaField) (name : Bytes) : Bool :=
  (fields.map SchemaField.name).contains name

/-- Up to the first key that is not declared, the keys are taken for declared ones exactly if they
are, and the values in between can be skipped. -/
def ReadableTo (fields : List SchemaField) : List Json.Member → Prop
  | [] => True
  | member :: rest =>
    declares fields (copyInto 64 (stripSlashes member.key)) = declares fields member.name ∧
      (declares fields member.name = true → Skippable member ∧ ReadableTo fields rest)

theorem jtSkipWs_spaces {gap : Bytes} (spaces : Json.Spaces gap) :
    jtSkipWs (gap ++ text) = jtSkipWs text := by
  unfold jtSkipWs
  rw [dropWhile_append_of_pos]
  intro byte mem
  have space := spaces byte mem
  simp only [Json.isSpace, Bool.or_eq_true, decide_eq_true_eq] at space
  rcases space with ((rfl | rfl) | rfl) | rfl
  all_goals rfl

theorem jtSkipWs_cons (notSpace : isSpace byte = false) :
    jtSkipWs (byte :: text) = byte :: text := by
  unfold jtSkipWs
  rw [dropWhile_cons, notSpace]
  rfl

theorem jtReadRest_quote (rest : Bytes) : jtReadRest (0x22 :: rest) = ([], rest) := by
  rw [jtReadRest.eq_def]
  exact if_pos rfl

theorem jtReadRest_slash (byte : UInt8) (rest : Bytes) : jtReadRest (0x5c :: byte :: rest) =
    (byte :: (jtReadRest rest).1, (jtReadRest rest).2) := by
  exact (if_neg (by decide)).trans (if_pos rfl)

theorem jtReadRest_plain (notQuote : byte ≠ 0x22) (notSlash : byte ≠ 0x5c) (rest : Bytes) :
    jtReadRest (byte :: rest) = (byte :: (jtReadRest rest).1, (jtReadRest rest).2) := by
  rw [jtReadRest.eq_def]
  exact (if_neg notQuote).trans (if_neg notSlash)

theorem stripSlashes_slash (byte : UInt8) (rest : Bytes) :
    stripSlashes (0x5c :: byte :: rest) = byte :: stripSlashes rest := by
  exact if_pos rfl

theorem stripSlashes_plain (notSlash : byte ≠ 0x5c) (rest : Bytes) :
    stripSlashes (byte :: rest) = byte :: stripSlashes rest := by
  rw [stripSlashes.eq_def]
  exact if_neg notSlash

theorem jtReadRest_of_read {text rest : Bytes} {state : Json.CharState}
    (notEscape : state ≠ .escape) (reads : Json.read state text = some .plain) :
    jtReadRest (text ++ 0x22 :: rest) = (stripSlashes text, rest) := by
  rcases Json.read_cases notEscape reads with rfl | ⟨byte, behind, next, rfl, notNext, readsBehind⟩ |
    ⟨byte, behind, next, rfl, notQuote, notSlash, notNext, readsBehind⟩
  · exact jtReadRest_quote rest
  · have ih := @jtReadRest_of_read behind rest next notNext readsBehind
    rw [cons_append, cons_append, jtReadRest_slash, ih, stripSlashes_slash]
  · have ih := @jtReadRest_of_read behind rest next notNext readsBehind
    rw [cons_append, jtReadRest_plain notQuote notSlash, ih, stripSlashes_plain notSlash]
  termination_by text.length

theorem openCount_cons (different : opening ≠ closing) (byte : UInt8) (text : Bytes) :
    openCount opening closing (byte :: text) =
      (if byte = opening then 1 else if byte = closing then -1 else 0) +
        openCount opening closing text := by
  unfold openCount
  rw [count_cons, count_cons]
  by_cases isOpening : byte = opening
  · subst isOpening
    rw [if_pos rfl, if_pos (beq_self_eq_true byte), if_neg (by simpa using different)]
    push_cast
    ring
  · by_cases isClosing : byte = closing
    · subst isClosing
      rw [if_neg isOpening, if_pos rfl, if_neg (by simpa using isOpening),
        if_pos (beq_self_eq_true byte)]
      push_cast
      ring
    · rw [if_neg isOpening, if_neg isClosing, if_neg (by simpa using isOpening),
        if_neg (by simpa using isClosing)]
      push_cast
      ring

theorem skipNested_spec (different : opening ≠ closing) {rest : Bytes} {depth : ℤ}
    (nonempty : value ≠ []) (inside : ∀ k < value.length, 0 < k →
      0 < depth + openCount opening closing (value.take k))
    (ends : depth + openCount opening closing value = 0) :
    skipNested opening closing depth (value ++ rest) = rest := by
  induction value generalizing depth with
  | nil => exact absurd rfl nonempty
  | cons byte value ih =>
    have depthNow : (if byte = opening then depth + 1 else
        if byte = closing then depth - 1 else depth) = depth + openCount opening closing [byte] := by
      rw [openCount_cons different, show openCount opening closing [] = 0 from rfl]
      split_ifs <;> ring
    have more : ∀ text, openCount opening closing (byte :: text) =
        openCount opening closing [byte] + openCount opening closing text := by
      intro text
      rw [openCount_cons different, openCount_cons different byte [],
        show openCount opening closing [] = 0 from rfl, add_zero]
    rw [cons_append, skipNested, depthNow]
    rcases value with _ | ⟨second, value⟩
    · rw [ends]
      exact if_neg (lt_irrefl 0)
    · have positive : 0 < depth + openCount opening closing [byte] := inside 1 (by simp) one_pos
      rw [if_pos positive]
      apply ih (cons_ne_nil _ _)
      · intro k lt pos
        have at_succ := inside (k + 1) (by rw [length_cons]; omega) (Nat.succ_pos k)
        rw [take_succ_cons, more] at at_succ
        omega
      · rw [more] at ends
        omega

theorem cases_of_isSpace (space : isSpace byte = true) :
    byte = 32 ∨ byte = 9 ∨ byte = 10 ∨ byte = 11 ∨ byte = 12 ∨ byte = 13 := by
  simp only [isSpace, Bool.or_eq_true, Bool.and_eq_true, decide_eq_true_eq] at space
  rcases space with rfl | ⟨low, high⟩
  · exact Or.inl rfl
  · right
    have atLeast : 9 ≤ byte.toNat := UInt8.le_iff_toNat_le.mp low
    have atMost : byte.toNat ≤ 13 := UInt8.le_iff_toNat_le.mp high
    rw [← UInt8.toNat_inj, ← UInt8.toNat_inj, ← UInt8.toNat_inj, ← UInt8.toNat_inj,
      ← UInt8.toNat_inj]
    change byte.toNat = 9 ∨ byte.toNat = 10 ∨ byte.toNat = 11 ∨ byte.toNat = 12 ∨ byte.toNat = 13
    omega

def isEnd (byte : UInt8) : Bool := byte = chr ',' || byte = chr '\x7d'

def behindEnd (byte : UInt8) (text : Bytes) : Bytes :=
  if byte = chr ',' then text else byte :: text

section Members

variable {before value after tail : Bytes} {byte : UInt8}

theorem isSpace_of_isEnd (ends : isEnd byte = true) : isSpace byte = false := by
  simp only [isEnd, Bool.or_eq_true, decide_eq_true_eq] at ends
  rcases ends with rfl | rfl
  · rfl
  · rfl

theorem jtConsume_end (spaces : Json.Spaces after) (ends : isEnd byte = true) :
    jtConsume (chr ',') (after ++ byte :: tail) = behindEnd byte tail := by
  unfold jtConsume behindEnd
  rw [jtSkipWs_spaces spaces, jtSkipWs_cons (isSpace_of_isEnd ends)]
  simp

theorem skipValue_scalar (spacesBefore : Json.Spaces before) (spacesAfter : Json.Spaces after)
    (ends : isEnd byte = true) {first : UInt8} {rest : Bytes} (isValue : value = first :: rest)
    (notSpace : isSpace first = false)
    (isScalar : first ≠ chr '"' ∧ first ≠ chr '\x7b' ∧ first ≠ chr '[')
    (noEnd : ∀ other ∈ value, isEnd other = false) :
    skipValue (before ++ (value ++ (after ++ byte :: tail))) = behindEnd byte tail := by
  have dropped : (value ++ (after ++ byte :: tail)).dropWhile
      (fun byte => decide (byte ≠ chr ',' ∧ byte ≠ chr '\x7d')) = byte :: tail := by
    rw [← append_assoc, dropWhile_append_of_pos]
    · simpa [isEnd, or_iff_not_imp_left] using ends
    · intro other mem
      rcases List.mem_append.mp mem with inValue | inAfter
      · simpa [isEnd] using noEnd other inValue
      · have space := spacesAfter other inAfter
        simp only [Json.isSpace, Bool.or_eq_true, decide_eq_true_eq] at space
        rcases space with ((rfl | rfl) | rfl) | rfl
        all_goals rfl
  subst isValue
  unfold skipValue
  rw [jtSkipWs_spaces spacesBefore, cons_append, jtSkipWs_cons notSpace]
  dsimp only
  rw [if_neg isScalar.1, if_neg isScalar.2.1, if_neg isScalar.2.2]
  rw [cons_append] at dropped
  rw [dropped]
  exact @jtConsume_end [] tail byte (fun _ mem => absurd mem not_mem_nil) ends

theorem skipValue_number {kind : Json.Kind} (isNumber : Json.numberKind value = some kind)
    (spacesBefore : Json.Spaces before) (spacesAfter : Json.Spaces after)
    (ends : isEnd byte = true) :
    skipValue (before ++ (value ++ (after ++ byte :: tail))) = behindEnd byte tail := by
  rcases isValue : value with _ | ⟨first, rest⟩
  · exact absurd isValue (Json.number_ne_nil isNumber)
  · have mem : first ∈ value := by
      rw [isValue]
      exact mem_cons_self
    rw [← isValue]
    apply skipValue_scalar spacesBefore spacesAfter ends isValue
    · by_contra space
      rw [Bool.not_eq_false] at space
      apply Json.ne_of_mem_number isNumber mem _ rfl
      intro state
      rcases cases_of_isSpace space with rfl | rfl | rfl | rfl | rfl | rfl
      all_goals cases state <;> rfl
    · refine ⟨?_, ?_, ?_⟩
      all_goals
        apply Json.ne_of_mem_number isNumber mem
        intro state
        cases state <;> rfl
    · intro other inValue
      have notComma : other ≠ chr ',' := Json.ne_of_mem_number isNumber inValue (by
        intro state
        cases state <;> rfl)
      have notBracket : other ≠ chr '\x7d' := Json.ne_of_mem_number isNumber inValue (by
        intro state
        cases state <;> rfl)
      simp [isEnd, notComma, notBracket]

theorem skipValue_string (spacesBefore : Json.Spaces before) (rest : Bytes) :
    skipValue (before ++ 0x22 :: rest) = jtConsume (chr ',') (jtReadRest rest).2 := by
  unfold skipValue
  rw [jtSkipWs_spaces spacesBefore, jtSkipWs_cons rfl]
  rfl

theorem skipValue_object (spacesBefore : Json.Spaces before) (rest : Bytes) :
    skipValue (before ++ 0x7b :: rest) =
      jtConsume (chr ',') (skipNested (chr '\x7b') (chr '\x7d') 0 (0x7b :: rest)) := by
  unfold skipValue
  rw [jtSkipWs_spaces spacesBefore, jtSkipWs_cons rfl]
  rfl

theorem skipValue_array (spacesBefore : Json.Spaces before) (rest : Bytes) :
    skipValue (before ++ 0x5b :: rest) =
      jtConsume (chr ',') (skipNested (chr '[') (chr ']') 0 (0x5b :: rest)) := by
  unfold skipValue
  rw [jtSkipWs_spaces spacesBefore, jtSkipWs_cons rfl]
  rfl

theorem skipNested_balanced {opening closing : UInt8} (different : opening ≠ closing)
    (nonempty : value ≠ []) (balanced : Balanced opening closing value) (rest : Bytes) :
    skipNested opening closing 0 (value ++ rest) = rest := by
  apply skipNested_spec different nonempty
  · intro k lt pos
    rw [zero_add]
    exact balanced.1 k lt pos
  · rw [zero_add]
    exact balanced.2

theorem skipValue_value {kind : Json.Kind} (isValue : Json.IsValue kind value)
    (object : value.head? = some (chr '\x7b') → Balanced (chr '\x7b') (chr '\x7d') value)
    (array : value.head? = some (chr '[') → Balanced (chr '[') (chr ']') value)
    (spacesBefore : Json.Spaces before) (spacesAfter : Json.Spaces after)
    (ends : isEnd byte = true) :
    skipValue (before ++ (value ++ (after ++ byte :: tail))) = behindEnd byte tail := by
  have literal : ∀ first rest, value = first :: rest → isSpace first = false →
      (first ≠ chr '"' ∧ first ≠ chr '\x7b' ∧ first ≠ chr '[') →
      value.all (fun other => !isEnd other) →
      skipValue (before ++ (value ++ (after ++ byte :: tail))) = behindEnd byte tail := by
    intro first rest shape notSpace isScalar noEnd
    apply skipValue_scalar spacesBefore spacesAfter ends shape notSpace isScalar
    intro other mem
    simpa using List.all_eq_true.mp noEnd other mem
  have braces : ∀ rest, value = 0x7b :: rest →
      skipValue (before ++ (value ++ (after ++ byte :: tail))) = behindEnd byte tail := by
    rintro rest rfl
    have balanced := object rfl
    rw [cons_append, skipValue_object spacesBefore, ← cons_append,
      skipNested_balanced (by decide) (cons_ne_nil _ _) balanced]
    exact jtConsume_end spacesAfter ends
  have brackets : ∀ rest, value = 0x5b :: rest →
      skipValue (before ++ (value ++ (after ++ byte :: tail))) = behindEnd byte tail := by
    rintro rest rfl
    have balanced := array rfl
    rw [cons_append, skipValue_array spacesBefore, ← cons_append,
      skipNested_balanced (by decide) (cons_ne_nil _ _) balanced]
    exact jtConsume_end spacesAfter ends
  cases isValue with
  | string content =>
    rw [cons_append, skipValue_string spacesBefore, append_assoc,
      singleton_append, jtReadRest_of_read (by decide) content]
    exact jtConsume_end spacesAfter ends
  | number isNumber => exact skipValue_number isNumber spacesBefore spacesAfter ends
  | isTrue => exact literal _ _ rfl rfl (by decide) rfl
  | isFalse => exact literal _ _ rfl rfl (by decide) rfl
  | null => exact literal _ _ rfl rfl (by decide) rfl
  | emptyObject _ => exact braces _ rfl
  | object _ => exact braces _ rfl
  | emptyArray _ => exact brackets _ rfl
  | array _ => exact brackets _ rfl

theorem stripSlashes_subset (text : Bytes) : stripSlashes text ⊆ text := by
  fun_induction stripSlashes text with
  | case1 => exact List.Subset.refl _
  | case2 => exact nil_subset _
  | case3 escaped rest ih =>
    apply subset_cons_of_subset
    exact cons_subset_cons escaped ih
  | case4 byte rest _ ih => exact cons_subset_cons byte ih

theorem scanFields_member (fields : List SchemaField) (fuel : ℕ) {member : Json.Member}
    (valid : member.Valid)
    (readsKey : declares fields (copyInto 64 (stripSlashes member.key)) =
      declares fields member.name)
    (skips : declares fields member.name = true → Skippable member) (ends : isEnd byte = true) :
    scanFields fields (fuel + 1) (member.text ++ byte :: tail) =
      if declares fields member.name then scanFields fields fuel (behindEnd byte tail)
      else -1 := by
  rcases valid with ⟨framed, kind, isValue⟩
  have shape : member.text ++ byte :: tail = member.before ++ 0x22 :: (member.key ++ 0x22 ::
      (member.afterKey ++ 0x3a :: (member.beforeValue ++ (member.value ++
        (member.after ++ byte :: tail))))) := by
    simp [Json.Member.text]
  have started : ∀ rest, jtSkipWs (member.before ++ 0x22 :: rest) = 0x22 :: rest := by
    intro rest
    rw [jtSkipWs_spaces framed.before, jtSkipWs_cons rfl]
  have colon : ∀ rest, jtConsume (chr ':') (member.afterKey ++ 0x3a :: rest) = rest := by
    intro rest
    unfold jtConsume
    rw [jtSkipWs_spaces framed.afterKey, jtSkipWs_cons rfl]
    rfl
  have isRead : (copyInto 64 (stripSlashes member.key)).takeWhile (· ≠ 0) =
      copyInto 64 (stripSlashes member.key) := by
    rw [takeWhile_eq_self_iff]
    intro other mem
    rw [decide_eq_true_eq]
    rintro rfl
    exact Json.nul_not_mem_of_read framed.key (stripSlashes_subset _ (mem_of_mem_take mem))
  have reads : jtReadString 64 (member.text ++ byte :: tail) =
      some (copyInto 64 (stripSlashes member.key), member.afterKey ++ 0x3a ::
        (member.beforeValue ++ (member.value ++ (member.after ++ byte :: tail)))) := by
    unfold jtReadString
    rw [shape, started]
    dsimp only
    rw [jtReadRest_of_read (by decide) framed.key]
    rfl
  rw [scanFields, reads]
  dsimp only
  rw [if_neg, isRead, colon, ← declares, readsKey]
  · split_ifs with declared
    · rw [skipValue_value isValue (skips declared).object (skips declared).array
        framed.beforeValue framed.after ends]
    · rfl
  · rw [shape, started]
    exact fun isBracket => absurd (Option.some.inj isBracket) (by decide)

end Members

theorem scanFields_bracket (fields : List SchemaField) (fuel : ℕ) (text : Bytes) :
    scanFields fields fuel (chr '\x7d' :: text) = 0 := by
  cases fuel with
  | zero => rfl
  | succ fuel =>
    exact if_pos rfl

theorem scanFields_members (fields : List SchemaField) (nonempty : members ≠ [])
    (valid : ∀ member ∈ members, member.Valid) (readable : ReadableTo fields members)
    (enough : members.length ≤ fuel) (after : Bytes) :
    scanFields fields fuel (Json.commas (members.map Json.Member.text) ++ chr '\x7d' :: after) =
      if ∀ member ∈ members, declares fields member.name = true then 0 else -1 := by
  induction members generalizing fuel with
  | nil => exact absurd rfl nonempty
  | cons member rest ih =>
    rw [forall_mem_cons] at valid
    rcases readable with ⟨readsKey, later⟩
    rcases fuel with _ | fuel
    · exact absurd enough (Nat.not_succ_le_zero _)
    rw [length_cons, Nat.succ_le_succ_iff] at enough
    have turn : ∀ {byte : UInt8} {tail : Bytes}, isEnd byte = true →
        scanFields fields (fuel + 1) (member.text ++ byte :: tail) =
          if declares fields member.name then scanFields fields fuel (behindEnd byte tail)
          else -1 :=
      scanFields_member fields fuel valid.1 readsKey fun declared => (later declared).1
    simp only [forall_mem_cons]
    rcases rest with _ | ⟨second, rest⟩
    · have single : Json.commas ([member].map Json.Member.text) ++ chr '\x7d' :: after =
          member.text ++ chr '\x7d' :: after := by
        simp [Json.commas]
      rw [single, turn (by decide)]
      change (if declares fields member.name = true then
        scanFields fields fuel (chr '\x7d' :: after) else -1) = _
      rw [scanFields_bracket]
      simp
    · have split : Json.commas ((member :: second :: rest).map Json.Member.text) ++
          chr '\x7d' :: after = member.text ++ chr ',' ::
            (Json.commas ((second :: rest).map Json.Member.text) ++ chr '\x7d' :: after) := by
        simp [Json.commas, chr]
      rw [split, turn (by decide)]
      change (if declares fields member.name = true then scanFields fields fuel
        (Json.commas ((second :: rest).map Json.Member.text) ++ chr '\x7d' :: after) else -1) = _
      by_cases declared : declares fields member.name = true
      · rw [ih (cons_ne_nil _ _) valid.2 (later declared).2 enough]
        simp [declared]
      · rw [if_neg declared, if_neg fun both => declared both.1]

theorem length_commas_ge (members : List Json.Member) :
    members.length ≤ (Json.commas (members.map Json.Member.text)).length := by
  rw [← length_map Json.Member.text]
  apply Json.length_le_commas
  intro text mem
  rcases List.mem_map.mp mem with ⟨member, -, rfl⟩
  simp [Json.Member.text]

/-- If an endpoint is strict and the walk can read a body up to its first unknown key, the body is let
through exactly when all of its keys are declared. -/
theorem validateUnknownBodyFields_eq_zero_iff (fields : List SchemaField) (strict : Bool)
    {body : Bytes} {members : List Json.Member} (isObject : Json.IsObject body members)
    (nonempty : fields ≠ []) (isStrict : strict = true)
    (readable : ReadableTo fields members) :
    validateUnknownBodyFields fields strict body = 0 ↔
      ∀ member ∈ members, ∃ field ∈ fields, field.name = member.name := by
  rcases isObject with ⟨before, inner, after, spacesBefore, -, holds, valid, rfl⟩
  have started : jtSkipWs (before ++ 0x7b :: (inner ++ 0x7d :: after)) =
      0x7b :: (inner ++ 0x7d :: after) := by
    rw [jtSkipWs_spaces spacesBefore, jtSkipWs_cons rfl]
  have walk : validateUnknownBodyFields fields strict (before ++ 0x7b :: (inner ++ 0x7d :: after)) =
      scanFields fields (before ++ 0x7b :: (inner ++ 0x7d :: after)).length
        (inner ++ 0x7d :: after) := by
    unfold validateUnknownBodyFields
    rw [if_neg (by simp [nonempty]), isStrict, started]
    rfl
  have declared : ∀ member : Json.Member, declares fields member.name = true ↔
      ∃ field ∈ fields, field.name = member.name := by
    intro member
    simp [declares]
  rw [walk]
  rcases holds with ⟨rfl, spaces⟩ | ⟨someMember, rfl⟩
  · have empty : scanFields fields (before ++ 0x7b :: (inner ++ 0x7d :: after)).length
        (inner ++ 0x7d :: after) = 0 := by
      generalize (before ++ 0x7b :: (inner ++ 0x7d :: after)).length = fuel
      cases fuel with
      | zero => rfl
      | succ fuel =>
        rw [scanFields, jtSkipWs_spaces spaces]
        exact if_pos rfl
    rw [empty]
    simp
  · have enough : members.length ≤ (before ++ 0x7b :: (Json.commas (members.map Json.Member.text) ++
        0x7d :: after)).length := by
      have length := length_commas_ge members
      simp only [length_append, length_cons]
      omega
    have whole := scanFields_members fields someMember valid readable enough after
    change scanFields fields _ (Json.commas (members.map Json.Member.text) ++
      chr '\x7d' :: after) = 0 ↔ _
    rw [whole]
    simp only [declared]
    split_ifs with all
    · exact iff_of_true rfl all
    · exact iff_of_false (by decide) all

def anyField (name : Bytes) (fits : name.length ≤ 63) (text : 0 ∉ name) : SchemaField :=
  ⟨name, .any, false, fits, text⟩

def compactMember (key value : Bytes) : Json.Member := ⟨[], key, [], [], value, []⟩

def compactBody (members : List Json.Member) : Bytes :=
  0x7b :: (Json.commas (members.map Json.Member.text) ++ [0x7d])

theorem isObject_compactBody (nonempty : members ≠ []) (valid : ∀ member ∈ members, member.Valid) :
    Json.IsObject (compactBody members) members :=
  Json.isObject_compact nonempty valid

theorem valid_compactMember {key : Bytes} {kind : Json.Kind} (content : Json.IsContent key)
    (isValue : Json.IsValue kind value) : (compactMember key value).Valid :=
  ⟨Json.framed_compact content, kind, isValue⟩

def userMembers : List Json.Member :=
  [compactMember (ascii "name") (ascii "\"ada\""), compactMember (ascii "tags") (ascii "[\"x\"]")]

theorem valid_userMembers : ∀ member ∈ userMembers, member.Valid := by
  have name : Json.IsValue .string (ascii "\"ada\"") :=
    Json.IsValue.string (show Json.IsContent (ascii "ada") by decide)
  have tag : Json.IsValue .string (ascii "\"x\"") :=
    Json.IsValue.string (show Json.IsContent (ascii "x") by decide)
  have tags : Json.IsValue .array (ascii "[\"x\"]") := by
    apply @Json.isValue_array .string [ascii "\"x\""]
    intro value mem
    rw [List.mem_singleton.mp mem]
    exact tag
  unfold userMembers
  simp only [forall_mem_cons, not_mem_nil, false_imp_iff, implies_true, and_true]
  exact ⟨valid_compactMember (by decide) name, valid_compactMember (by decide) tags⟩

def userFields : List SchemaField :=
  [anyField (ascii "name") (by decide) (by decide), anyField (ascii "tags") (by decide) (by decide)]

/-- A body with the declared keys only, and the same body with a third key. -/
theorem validateUnknownBodyFields_user :
    (ReadableTo userFields userMembers ∧
      validateUnknownBodyFields userFields true (compactBody userMembers) = 0) ∧
      ReadableTo [anyField (ascii "name") (by decide) (by decide)] userMembers ∧
      validateUnknownBodyFields [anyField (ascii "name") (by decide) (by decide)] true
        (compactBody userMembers) ≠ 0 := by
  have isObject : Json.IsObject (compactBody userMembers) userMembers :=
    isObject_compactBody (cons_ne_nil _ _) valid_userMembers
  have readable : ReadableTo userFields userMembers :=
    ⟨by decide +kernel, fun _ => ⟨⟨by decide +kernel, by decide +kernel⟩, by decide +kernel,
      fun _ => ⟨⟨by decide +kernel, by decide +kernel⟩, trivial⟩⟩⟩
  have readableTo : ReadableTo [anyField (ascii "name") (by decide) (by decide)] userMembers :=
    ⟨by decide +kernel, fun _ => ⟨⟨by decide +kernel, by decide +kernel⟩, by decide +kernel,
      fun declared => absurd declared (by decide +kernel)⟩⟩
  refine ⟨⟨readable, ?_⟩, readableTo, ?_⟩
  · rw [validateUnknownBodyFields_eq_zero_iff userFields true isObject (cons_ne_nil _ _) rfl readable]
    decide +kernel
  · rw [ne_eq, validateUnknownBodyFields_eq_zero_iff _ true isObject (cons_ne_nil _ _) rfl readableTo]
    intro allDeclared
    exact absurd (allDeclared (compactMember (ascii "tags") (ascii "[\"x\"]")) (by decide +kernel))
      (by decide +kernel)

def smuggledMembers : List Json.Member :=
  [compactMember (ascii "a") (ascii "\x7b\"x\":\"\x7b\"\x7d"), compactMember (ascii "evil") (ascii "1")]

theorem validateUnknownBodyFields_smuggled :
    Json.IsObject (compactBody smuggledMembers) smuggledMembers ∧
      validateUnknownBodyFields [anyField (ascii "a") (by decide) (by decide)] true
        (compactBody smuggledMembers) = 0 ∧
      ∃ member ∈ smuggledMembers, member.name = ascii "evil" ∧ member.name ≠ ascii "a" := by
  refine ⟨?_, by decide +kernel, ?_⟩
  · apply isObject_compactBody (cons_ne_nil _ _)
    have inner : Json.IsValue .object (ascii "\x7b\"x\":\"\x7b\"\x7d") := by
      apply @Json.isValue_fields [(ascii "x", ascii "\"\x7b\"")] (cons_ne_nil _ _)
      intro entry mem
      rw [List.mem_singleton.mp mem]
      exact ⟨by decide, .string, Json.IsValue.string (show Json.IsContent (ascii "\x7b") by decide)⟩
    have one : Json.IsValue .integer (ascii "1") := .number rfl
    simp only [forall_mem_cons, not_mem_nil, false_imp_iff, implies_true, and_true]
    exact ⟨valid_compactMember (by decide) inner, valid_compactMember (by decide) one⟩
  · exact ⟨compactMember (ascii "evil") (ascii "1"),
      mem_cons_of_mem _ (mem_singleton_self _), by decide +kernel, by decide +kernel⟩

end LogGuardian
