import Mathlib

/-!
# JSON texts

The grammar of RFC 8259 over UTF-8 bytes.
-/

namespace Json

open List

abbrev Text := List UInt8

def isSpace (byte : UInt8) : Bool := byte = 0x20 || byte = 0x09 || byte = 0x0a || byte = 0x0d

def Spaces (text : Text) : Prop := ∀ byte ∈ text, isSpace byte = true

/-- Where a reader stands inside a string: between characters, behind a backslash, inside the four
digits of `\u`, or inside a character of several bytes. -/
inductive CharState where
  | plain
  | escape
  | hex (left : ℕ)
  | tail (low high : UInt8) (left : ℕ)
  deriving DecidableEq, Repr

def isHex (byte : UInt8) : Bool :=
  (0x30 ≤ byte && byte ≤ 0x39) || (0x41 ≤ byte && byte ≤ 0x46) || (0x61 ≤ byte && byte ≤ 0x66)

def shortEscapes : Text := [0x22, 0x5c, 0x2f, 0x62, 0x66, 0x6e, 0x72, 0x74]

/-- The first byte of a character outside of ASCII. -/
def lead (byte : UInt8) : Option CharState :=
  if 0xc2 ≤ byte ∧ byte ≤ 0xdf then some (.tail 0x80 0xbf 0)
  else if byte = 0xe0 then some (.tail 0xa0 0xbf 1)
  else if byte = 0xed then some (.tail 0x80 0x9f 1)
  else if 0xe1 ≤ byte ∧ byte ≤ 0xef then some (.tail 0x80 0xbf 1)
  else if byte = 0xf0 then some (.tail 0x90 0xbf 2)
  else if 0xf1 ≤ byte ∧ byte ≤ 0xf3 then some (.tail 0x80 0xbf 2)
  else if byte = 0xf4 then some (.tail 0x80 0x8f 2)
  else none

def CharState.next : CharState → UInt8 → Option CharState
  | plain, byte =>
    if byte = 0x5c then some escape
    else if byte = 0x22 then none
    else if 0x20 ≤ byte ∧ byte < 0x80 then some plain
    else lead byte
  | escape, byte =>
    if byte = 0x75 then some (hex 3) else if byte ∈ shortEscapes then some plain else none
  | hex left, byte =>
    if isHex byte then some (if left = 0 then plain else hex (left - 1)) else none
  | tail low high left, byte =>
    if low ≤ byte ∧ byte ≤ high ∧ 0x80 ≤ byte then
      some (if left = 0 then plain else tail 0x80 0xbf (left - 1))
    else none

def read : CharState → Text → Option CharState
  | state, [] => some state
  | state, byte :: rest => (state.next byte).bind fun next => read next rest

/-- What may stand between the quotes of a string. -/
def IsContent (text : Text) : Prop := read .plain text = some .plain

instance (text : Text) : Decidable (IsContent text) :=
  inferInstanceAs (Decidable (read .plain text = some .plain))

theorem read_append (state : CharState) (first second : Text) :
    read state (first ++ second) = (read state first).bind fun next => read next second := by
  induction first generalizing state with
  | nil => rfl
  | cons byte rest ih =>
    rw [cons_append, read, read, Option.bind_assoc]
    apply congrArg
    funext next
    exact ih next

variable {first second : Text} {state : CharState} {byte : UInt8} {texts : List Text}

theorem IsContent.append (isFirst : IsContent first) (isSecond : IsContent second) :
    IsContent (first ++ second) := by
  unfold IsContent
  rw [read_append, isFirst]
  exact isSecond

inductive NumberState where
  | start | minus | zero | digits | point | fraction | mark | sign | exponent
  deriving DecidableEq, Repr

def isDigit (byte : UInt8) : Bool := 0x30 ≤ byte && byte ≤ 0x39

def NumberState.next : NumberState → UInt8 → Option NumberState
  | start, byte =>
    if byte = 0x2d then some minus
    else if byte = 0x30 then some zero
    else if isDigit byte then some digits
    else none
  | minus, byte =>
    if byte = 0x30 then some zero else if isDigit byte then some digits else none
  | zero, byte =>
    if byte = 0x2e then some point
    else if byte = 0x65 ∨ byte = 0x45 then some mark
    else none
  | digits, byte =>
    if isDigit byte then some digits
    else if byte = 0x2e then some point
    else if byte = 0x65 ∨ byte = 0x45 then some mark
    else none
  | point, byte => if isDigit byte then some fraction else none
  | fraction, byte =>
    if isDigit byte then some fraction
    else if byte = 0x65 ∨ byte = 0x45 then some mark
    else none
  | mark, byte =>
    if byte = 0x2b ∨ byte = 0x2d then some sign
    else if isDigit byte then some exponent
    else none
  | sign, byte => if isDigit byte then some exponent else none
  | exponent, byte => if isDigit byte then some exponent else none

def readNumber : NumberState → Text → Option NumberState
  | state, [] => some state
  | state, byte :: rest => (state.next byte).bind fun next => readNumber next rest

theorem readNumber_append (state : NumberState) (first second : Text) :
    readNumber state (first ++ second) =
      (readNumber state first).bind fun next => readNumber next second := by
  induction first generalizing state with
  | nil => rfl
  | cons byte rest ih =>
    rw [cons_append, readNumber, readNumber, Option.bind_assoc]
    apply congrArg
    funext next
    exact ih next

inductive Kind where
  | string | integer | fraction | boolean | null | object | array
  deriving DecidableEq, Repr

def NumberState.kind : NumberState → Option Kind
  | zero => some .integer
  | digits => some .integer
  | fraction => some .fraction
  | exponent => some .fraction
  | _ => none

/-- The kind of a number, `none` when the text is none. -/
def numberKind (text : Text) : Option Kind := (readNumber .start text).bind NumberState.kind

def trueText : Text := [0x74, 0x72, 0x75, 0x65]

def falseText : Text := [0x66, 0x61, 0x6c, 0x73, 0x65]

def nullText : Text := [0x6e, 0x75, 0x6c, 0x6c]

/-- A member of an object with the spaces around its parts. -/
structure Member where
  before : Text
  key : Text
  afterKey : Text
  beforeValue : Text
  value : Text
  after : Text
  deriving DecidableEq, Repr

namespace Member

def text (member : Member) : Text :=
  member.before ++ 0x22 :: (member.key ++ 0x22 :: (member.afterKey ++ 0x3a ::
    (member.beforeValue ++ (member.value ++ member.after))))

/-- Everything but the value is as the grammar wants it. -/
structure Framed (member : Member) : Prop where
  before : Spaces member.before
  key : IsContent member.key
  afterKey : Spaces member.afterKey
  beforeValue : Spaces member.beforeValue
  after : Spaces member.after

end Member

mutual

inductive IsValue : Kind → Text → Prop where
  | string {text : Text} (content : IsContent text) : IsValue .string (0x22 :: (text ++ [0x22]))
  | number {kind : Kind} {text : Text} (isNumber : numberKind text = some kind) : IsValue kind text
  | isTrue : IsValue .boolean trueText
  | isFalse : IsValue .boolean falseText
  | null : IsValue .null nullText
  | emptyObject {gap : Text} (spaces : Spaces gap) : IsValue .object (0x7b :: (gap ++ [0x7d]))
  | object {text : Text} (members : IsMembers text) : IsValue .object (0x7b :: (text ++ [0x7d]))
  | emptyArray {gap : Text} (spaces : Spaces gap) : IsValue .array (0x5b :: (gap ++ [0x5d]))
  | array {text : Text} (elements : IsElements text) : IsValue .array (0x5b :: (text ++ [0x5d]))

inductive IsMembers : Text → Prop where
  | last {member : Member} {kind : Kind} (framed : member.Framed)
      (value : IsValue kind member.value) : IsMembers member.text
  | cons {member : Member} {kind : Kind} {rest : Text} (framed : member.Framed)
      (value : IsValue kind member.value) (members : IsMembers rest) :
      IsMembers (member.text ++ 0x2c :: rest)

inductive IsElements : Text → Prop where
  | last {before value after : Text} {kind : Kind} (spacesBefore : Spaces before)
      (isValue : IsValue kind value) (spacesAfter : Spaces after) :
      IsElements (before ++ (value ++ after))
  | cons {before value after rest : Text} {kind : Kind} (spacesBefore : Spaces before)
      (isValue : IsValue kind value) (spacesAfter : Spaces after) (elements : IsElements rest) :
      IsElements (before ++ (value ++ (after ++ 0x2c :: rest)))

end

/-- A JSON text: a value with spaces around it. -/
def IsText (text : Text) : Prop :=
  ∃ before kind value after, Spaces before ∧ IsValue kind value ∧ Spaces after ∧
    text = before ++ (value ++ after)

def isOpen (byte : UInt8) : Bool := byte = 0x7b || byte = 0x5b

def isClose (byte : UInt8) : Bool := byte = 0x7d || byte = 0x5d

/-- A byte that is neither a quote nor a bracket nor NUL. -/
def isFlat (byte : UInt8) : Bool := byte != 0 && byte != 0x22 && !isOpen byte && !isClose byte

/-- A property that the ways of building texts preserve. -/
structure Closed (property : Text → Prop) : Prop where
  append : ∀ {first second}, property first → property second → property (first ++ second)
  flat : ∀ {text}, text.all isFlat = true → property text
  string : ∀ {text}, IsContent text → property (0x22 :: (text ++ [0x22]))
  bracket : ∀ {opening closing inner}, isOpen opening = true → isClose closing = true →
    property inner → property (opening :: (inner ++ [closing]))

theorem isFlat_of_next {state next : NumberState} (steps : state.next byte = some next) :
    isFlat byte = true := by
  by_contra notFlat
  have marked : byte = 0 ∨ byte = 0x22 ∨ (byte = 0x7b ∨ byte = 0x5b) ∨ byte = 0x7d ∨ byte = 0x5d := by
    simp only [isFlat, isOpen, isClose, Bool.and_eq_true, bne_iff_ne, Bool.not_eq_true',
      Bool.or_eq_false_iff, decide_eq_false_iff_not] at notFlat
    tauto
  have stuck : state.next byte = none := by
    rcases marked with rfl | rfl | (rfl | rfl) | rfl | rfl
    all_goals cases state <;> rfl
  rw [stuck] at steps
  cases steps

theorem flat_of_readNumber {state next : NumberState} {text : Text}
    (reads : readNumber state text = some next) : text.all isFlat = true := by
  induction text generalizing state with
  | nil => rfl
  | cons byte rest ih =>
    rcases Option.bind_eq_some_iff.mp reads with ⟨middle, steps, readsRest⟩
    rw [all_cons, isFlat_of_next steps, ih readsRest]
    rfl

namespace Closed

variable {property : Text → Prop} (closed : Closed property)

include closed

theorem spaces {gap : Text} (spaces : Spaces gap) : property gap := by
  apply closed.flat
  rw [all_eq_true]
  intro byte mem
  have space := spaces byte mem
  simp only [isSpace, Bool.or_eq_true, decide_eq_true_eq] at space
  rcases space with ((rfl | rfl) | rfl) | rfl
  all_goals rfl

theorem number {text : Text} {kind : Kind} (isNumber : numberKind text = some kind) :
    property text := by
  rcases Option.bind_eq_some_iff.mp isNumber with ⟨state, reads, -⟩
  exact closed.flat (flat_of_readNumber reads)

theorem member {member : Member} (framed : member.Framed) (value : property member.value) :
    property member.text := by
  have colon : property [0x3a] := closed.flat rfl
  have behindKey := closed.append (closed.spaces framed.afterKey) (closed.append colon
    (closed.append (closed.spaces framed.beforeValue)
      (closed.append value (closed.spaces framed.after))))
  have parts := closed.append (closed.spaces framed.before)
    (closed.append (closed.string framed.key) behindKey)
  simpa [Member.text] using parts

theorem comma {first second : Text} (isFirst : property first) (isSecond : property second) :
    property (first ++ 0x2c :: second) :=
  closed.append isFirst (closed.append (closed.flat (show List.all [0x2c] isFlat = true from rfl))
    isSecond)

mutual

theorem isValue {kind : Kind} {text : Text} : IsValue kind text → property text
  | .string content => closed.string content
  | .number isNumber => closed.number isNumber
  | .isTrue => closed.flat rfl
  | .isFalse => closed.flat rfl
  | .null => closed.flat rfl
  | .emptyObject spaces => closed.bracket rfl rfl (closed.spaces spaces)
  | .object members => closed.bracket rfl rfl (isMembers members)
  | .emptyArray spaces => closed.bracket rfl rfl (closed.spaces spaces)
  | .array elements => closed.bracket rfl rfl (isElements elements)

theorem isMembers {text : Text} : IsMembers text → property text
  | .last framed value => closed.member framed (isValue value)
  | .cons framed value members =>
    closed.comma (closed.member framed (isValue value)) (isMembers members)

theorem isElements {text : Text} : IsElements text → property text
  | .last spacesBefore value spacesAfter =>
    closed.append (closed.spaces spacesBefore)
      (closed.append (isValue value) (closed.spaces spacesAfter))
  | .cons spacesBefore value spacesAfter elements =>
    closed.append (closed.spaces spacesBefore)
      (closed.append (isValue value)
        (closed.comma (closed.spaces spacesAfter) (isElements elements)))

end

theorem isText {text : Text} (isText : IsText text) : property text := by
  rcases isText with ⟨before, kind, value, after, spacesBefore, isValue, spacesAfter, rfl⟩
  exact closed.append (closed.spaces spacesBefore)
    (closed.append (closed.isValue isValue) (closed.spaces spacesAfter))

end Closed

theorem next_control (state : CharState) (control : byte < 0x20) :
    state.next byte = none := by
  have low : ∀ byte : UInt8, byte < 0x20 → CharState.next .plain byte = none ∧
      CharState.next .escape byte = none ∧ isHex byte = false ∧ ¬0x80 ≤ byte := by
    decide +kernel
  rcases low byte control with ⟨plain, escape, notHex, notTail⟩
  cases state with
  | plain => exact plain
  | escape => exact escape
  | hex left => rw [CharState.next, notHex, if_neg Bool.false_ne_true]
  | tail low high left => rw [CharState.next, if_neg (fun inside => notTail inside.2.2)]

theorem control_not_mem_of_read {text : Text} {next : CharState}
    (reads : read state text = some next) (control : byte < 0x20) : byte ∉ text := by
  induction text generalizing state with
  | nil => exact not_mem_nil
  | cons first rest ih =>
    rcases Option.bind_eq_some_iff.mp reads with ⟨middle, steps, readsRest⟩
    intro mem
    rcases List.mem_cons.mp mem with rfl | mem
    · rw [next_control state control] at steps
      cases steps
    · exact ih readsRest mem

theorem nul_not_mem_of_read {text : Text} {next : CharState} (reads : read state text = some next) :
    0 ∉ text :=
  control_not_mem_of_read reads (by decide)

theorem closed_nul_not_mem : Closed fun text => 0 ∉ text where
  append noFirst noSecond mem := (List.mem_append.mp mem).elim noFirst noSecond
  flat flat mem := absurd (List.all_eq_true.mp flat 0 mem) (by decide)
  string content mem := by
    rcases List.mem_cons.mp mem with isQuote | mem
    · cases isQuote
    · rcases List.mem_append.mp mem with mem | mem
      · exact nul_not_mem_of_read content mem
      · cases List.mem_singleton.mp mem
  bracket := by
    intro opening closing inner isOpening isClosing noInner mem
    rcases List.mem_cons.mp mem with rfl | mem
    · exact absurd isOpening (by decide)
    · rcases List.mem_append.mp mem with mem | mem
      · exact noInner mem
      · rw [← List.mem_singleton.mp mem] at isClosing
        exact absurd isClosing (by decide)

/-- Where a lexer stands: outside of strings, or inside of one. -/
inductive Lexer where
  | outside
  | inside (state : CharState)
  deriving DecidableEq, Repr

def Lexer.next : Lexer → UInt8 → Option Lexer
  | outside, byte => some (if byte = 0x22 then inside .plain else outside)
  | inside state, byte =>
    if byte = 0x22 ∧ state = .plain then some outside else (state.next byte).map inside

def lex : Lexer → Text → Option Lexer
  | lexer, [] => some lexer
  | lexer, byte :: rest => (lexer.next byte).bind fun next => lex next rest

theorem lex_append (lexer : Lexer) (first second : Text) :
    lex lexer (first ++ second) = (lex lexer first).bind fun next => lex next second := by
  induction first generalizing lexer with
  | nil => rfl
  | cons byte rest ih =>
    rw [cons_append, lex, lex, Option.bind_assoc]
    apply congrArg
    funext next
    exact ih next

/-- The lexer reads the text and stands outside of strings again. -/
def Lexes (text : Text) : Prop := lex .outside text = some .outside

theorem Lexes.append (lexesFirst : Lexes first) (lexesSecond : Lexes second) :
    Lexes (first ++ second) := by
  unfold Lexes
  rw [lex_append, lexesFirst]
  exact lexesSecond

theorem lexes_of_no_quote {text : Text} (noQuote : ∀ byte ∈ text, byte ≠ 0x22) : Lexes text := by
  induction text with
  | nil => rfl
  | cons byte rest ih =>
    rw [forall_mem_cons] at noQuote
    unfold Lexes
    rw [lex, Lexer.next, if_neg noQuote.1]
    exact ih noQuote.2

theorem lex_inside {text : Text} (noEnd : ∀ before after,
    text = before ++ 0x22 :: after → read state before ≠ some .plain) :
    lex (.inside state) text = (read state text).map .inside := by
  induction text generalizing state with
  | nil => rfl
  | cons byte rest ih =>
    have notEnd : ¬(byte = 0x22 ∧ state = .plain) := by
      rintro ⟨rfl, rfl⟩
      exact noEnd [] rest rfl rfl
    rw [lex, Lexer.next, if_neg notEnd, read]
    rcases steps : state.next byte with _ | next
    · rfl
    · apply ih
      rintro before after rfl
      have reads := noEnd (byte :: before) after rfl
      rw [read, steps] at reads
      exact reads

theorem read_quote_ne_plain {before after : Text}
    (reads : read .plain (before ++ 0x22 :: after) = some state) :
    read .plain before ≠ some .plain := by
  intro isPlain
  rw [read_append, isPlain] at reads
  cases reads

theorem lex_content {text : Text} (content : IsContent text) :
    lex (.inside .plain) text = some (.inside .plain) := by
  rw [lex_inside, content]
  · rfl
  · rintro before after rfl
    exact read_quote_ne_plain content

theorem lexes_string {text : Text} (content : IsContent text) : Lexes (0x22 :: (text ++ [0x22])) := by
  change lex (.inside .plain) (text ++ [0x22]) = _
  rw [lex_append, lex_content content]
  rfl

theorem closed_lexes : Closed Lexes where
  append := Lexes.append
  flat flat := by
    apply lexes_of_no_quote
    intro byte mem
    have isFlatByte := List.all_eq_true.mp flat byte mem
    simp only [isFlat, Bool.and_eq_true, bne_iff_ne] at isFlatByte
    exact isFlatByte.1.1.2
  string := lexes_string
  bracket := by
    intro opening closing inner isOpening isClosing lexes
    have first : Lexes [opening] := lexes_of_no_quote (by
      intro byte mem
      rw [List.mem_singleton.mp mem]
      rintro rfl
      exact absurd isOpening (by decide))
    have last : Lexes [closing] := lexes_of_no_quote (by
      intro byte mem
      rw [List.mem_singleton.mp mem]
      rintro rfl
      exact absurd isClosing (by decide))
    exact first.append (lexes.append last)

def commas : List Text → Text
  | [] => []
  | first :: rest => first ++ rest.flatMap fun text => 0x2c :: text

theorem length_le_commas (nonempty : ∀ text ∈ texts, text ≠ []) :
    texts.length ≤ (commas texts).length := by
  have each : ∀ texts : List Text,
      texts.length ≤ (texts.flatMap fun text => 0x2c :: text).length := by
    intro texts
    induction texts with
    | nil => exact le_rfl
    | cons text texts ih =>
      rw [flatMap_cons, length_append, length_cons, length_cons]
      omega
  rcases texts with _ | ⟨text, texts⟩
  · exact le_rfl
  · have positive := List.length_pos_iff.mpr (nonempty text mem_cons_self)
    have rest := each texts
    rw [commas, length_append, length_cons]
    omega

theorem Closed.commas {property : Text → Prop} (closed : Closed property)
    (all : ∀ text ∈ texts, property text) : property (Json.commas texts) := by
  rcases texts with _ | ⟨first, rest⟩
  · exact closed.flat rfl
  · rw [forall_mem_cons] at all
    rcases all with ⟨isFirst, areRest⟩
    rw [Json.commas]
    induction rest generalizing first with
    | nil =>
      rw [flatMap_nil, append_nil]
      exact isFirst
    | cons second rest ih =>
      rw [forall_mem_cons] at areRest
      rw [flatMap_cons, ← append_assoc]
      exact ih (first ++ 0x2c :: second) (closed.comma isFirst areRest.1) areRest.2

def quoted (text : Text) : Text := 0x22 :: (text ++ [0x22])

/-- A member without spaces. -/
def field (key value : Text) : Text := quoted key ++ 0x3a :: value

theorem text_compact (key value : Text) :
    Member.text ⟨[], key, [], [], value, []⟩ = field key value := by
  simp [Member.text, field, quoted]

theorem framed_compact {key value : Text} (content : IsContent key) :
    Member.Framed ⟨[], key, [], [], value, []⟩ := by
  refine ⟨?_, content, ?_, ?_, ?_⟩
  all_goals exact fun _ mem => absurd mem not_mem_nil

theorem isMembers_fields {fields : List (Text × Text)} (nonempty : fields ≠ [])
    (valid : ∀ entry ∈ fields, IsContent entry.1 ∧ ∃ kind, IsValue kind entry.2) :
    IsMembers (commas (fields.map fun entry => field entry.1 entry.2)) := by
  induction fields with
  | nil => exact absurd rfl nonempty
  | cons entry rest ih =>
    rw [forall_mem_cons] at valid
    rcases valid with ⟨⟨content, kind, isValue⟩, validRest⟩
    rcases rest with _ | ⟨second, rest⟩
    · have single := IsMembers.last (framed_compact content) isValue
      rw [text_compact] at single
      simpa [commas] using single
    · have more := IsMembers.cons (framed_compact content) isValue
        (ih (cons_ne_nil _ _) validRest)
      rw [text_compact] at more
      exact more

theorem isValue_fields {fields : List (Text × Text)} (nonempty : fields ≠ [])
    (valid : ∀ entry ∈ fields, IsContent entry.1 ∧ ∃ kind, IsValue kind entry.2) :
    IsValue .object (0x7b :: (commas (fields.map fun entry => field entry.1 entry.2) ++ [0x7d])) :=
  .object (isMembers_fields nonempty valid)

theorem isElements_commas {kind : Kind} {values : List Text} (nonempty : values ≠ [])
    (valid : ∀ value ∈ values, IsValue kind value) : IsElements (commas values) := by
  have noSpaces : Spaces [] := fun _ mem => absurd mem not_mem_nil
  induction values with
  | nil => exact absurd rfl nonempty
  | cons value rest ih =>
    rw [forall_mem_cons] at valid
    rcases rest with _ | ⟨second, rest⟩
    · have single := IsElements.last noSpaces valid.1 noSpaces
      simpa [commas] using single
    · exact IsElements.cons noSpaces valid.1 noSpaces (ih (cons_ne_nil _ _) valid.2)

theorem isValue_array {kind : Kind} {values : List Text}
    (valid : ∀ value ∈ values, IsValue kind value) :
    IsValue .array (0x5b :: (commas values ++ [0x5d])) := by
  rcases values with _ | ⟨value, rest⟩
  · exact .emptyArray fun _ mem => absurd mem not_mem_nil
  · exact .array (isElements_commas (cons_ne_nil _ _) valid)

theorem isText_of_isValue {kind : Kind} {text : Text} (isValue : IsValue kind text) :
    IsText text := by
  refine ⟨[], kind, text, [], ?_, isValue, ?_, ?_⟩
  · exact fun _ mem => absurd mem not_mem_nil
  · exact fun _ mem => absurd mem not_mem_nil
  · rw [nil_append, append_nil]

end Json
