import LogGuardian.Lib.Json

/-!
# JSON objects

The members of an object text, and the names that their keys denote.
-/

namespace Json

open List

/-- A part of the content of a string: a byte that stands for itself, or a code unit. -/
inductive Piece where
  | byte (value : UInt8)
  | unit (value : ℕ)
  deriving DecidableEq, Repr

def hexValue (byte : UInt8) : ℕ :=
  if byte ≤ 0x39 then byte.toNat - 0x30
  else if byte ≤ 0x46 then byte.toNat - 0x41 + 10
  else byte.toNat - 0x61 + 10

def hexUnit (first second third fourth : UInt8) : ℕ :=
  hexValue first * 4096 + hexValue second * 256 + hexValue third * 16 + hexValue fourth

/-- The byte of a short escape. -/
def shortEscape (byte : UInt8) : UInt8 :=
  if byte = 0x62 then 0x08
  else if byte = 0x66 then 0x0c
  else if byte = 0x6e then 0x0a
  else if byte = 0x72 then 0x0d
  else if byte = 0x74 then 0x09
  else byte

def pieces : Text → List Piece
  | 0x5c :: 0x75 :: first :: second :: third :: fourth :: rest =>
    .unit (hexUnit first second third fourth) :: pieces rest
  | 0x5c :: byte :: rest => .byte (shortEscape byte) :: pieces rest
  | byte :: rest => .byte byte :: pieces rest
  | [] => []

/-- A code point in UTF-8. -/
def utf8 (code : ℕ) : Text :=
  if code < 0x80 then [code.toUInt8]
  else if code < 0x800 then [(0xc0 + code / 0x40).toUInt8, (0x80 + code % 0x40).toUInt8]
  else if code < 0x10000 then
    [(0xe0 + code / 0x1000).toUInt8, (0x80 + code / 0x40 % 0x40).toUInt8,
      (0x80 + code % 0x40).toUInt8]
  else
    [(0xf0 + code / 0x40000).toUInt8, (0x80 + code / 0x1000 % 0x40).toUInt8,
      (0x80 + code / 0x40 % 0x40).toUInt8, (0x80 + code % 0x40).toUInt8]

def join : List Piece → Text
  | .unit high :: .unit low :: rest =>
    if (0xd800 ≤ high ∧ high < 0xdc00) ∧ 0xdc00 ≤ low ∧ low < 0xe000 then
      utf8 (0x10000 + (high - 0xd800) * 0x400 + (low - 0xdc00)) ++ join rest
    else utf8 high ++ join (.unit low :: rest)
  | .unit code :: rest => utf8 code ++ join rest
  | .byte value :: rest => value :: join rest
  | [] => []

/-- The text that the content of a string denotes. -/
def decode (text : Text) : Text := join (pieces text)

variable {byte : UInt8} {state next : CharState} {text : Text} {kind : Kind} {members : List Member}

theorem pieces_cons_of_ne (notSlash : byte ≠ 0x5c) (rest : Text) :
    pieces (byte :: rest) = .byte byte :: pieces rest := by
  rw [pieces]
  · rintro _ _ _ _ _ rfl
    exact absurd rfl notSlash
  · rintro _ _ rfl
    exact absurd rfl notSlash

theorem join_map_byte (text : Text) : join (text.map .byte) = text := by
  induction text with
  | nil => rfl
  | cons byte rest ih => rw [map_cons, join, ih]

/-- The text with a backslash before each quote and each backslash. -/
def escaped (text : Text) : Text :=
  text.flatMap fun byte => if byte = 0x22 ∨ byte = 0x5c then [0x5c, byte] else [byte]

def readRaw : CharState → Text → Option CharState
  | state, [] => some state
  | state, byte :: rest =>
    (if state = .plain ∧ (byte = 0x22 ∨ byte = 0x5c) then some .plain else state.next byte).bind
      fun next => readRaw next rest

/-- UTF-8 without control characters: what a string can hold once it is escaped. -/
def IsRaw (text : Text) : Prop := readRaw .plain text = some .plain

instance (text : Text) : Decidable (IsRaw text) :=
  inferInstanceAs (Decidable (readRaw .plain text = some .plain))

theorem escaped_cons_of_special (special : byte = 0x22 ∨ byte = 0x5c) (rest : Text) :
    escaped (byte :: rest) = 0x5c :: byte :: escaped rest := by
  simp [escaped, special]

theorem escaped_cons_of_plain (plain : ¬(byte = 0x22 ∨ byte = 0x5c)) (rest : Text) :
    escaped (byte :: rest) = byte :: escaped rest := by
  simp [escaped, plain]

theorem pieces_escaped (text : Text) : pieces (escaped text) = text.map .byte := by
  induction text with
  | nil => rfl
  | cons byte rest ih =>
    by_cases special : byte = 0x22 ∨ byte = 0x5c
    · rw [map_cons, ← ih]
      rcases special with rfl | rfl
      · rfl
      · rfl
    · have notSlash : byte ≠ 0x5c := fun isSlash => special (.inr isSlash)
      rw [escaped_cons_of_plain special, pieces_cons_of_ne notSlash, map_cons, ih]

theorem decode_escaped (text : Text) : decode (escaped text) = text := by
  unfold decode
  rw [pieces_escaped, join_map_byte]

/-! How backslashes and quotes move a reader. -/

theorem lead_ne_escape : lead byte ≠ some .escape := by
  unfold lead
  split_ifs <;> simp

theorem next_of_ne_escape (notEscape : state ≠ .escape) (steps : state.next byte = some next) :
    byte ≠ 0x22 ∧ (byte = 0x5c ↔ next = .escape) := by
  cases state with
  | escape => exact absurd rfl notEscape
  | plain =>
    rw [CharState.next] at steps
    split_ifs at steps with isSlash isQuote isAscii
    · subst isSlash
      cases Option.some.inj steps
      exact ⟨by decide, by simp⟩
    · cases Option.some.inj steps
      exact ⟨isQuote, by simp [isSlash]⟩
    · refine ⟨isQuote, iff_of_false isSlash ?_⟩
      rintro rfl
      exact lead_ne_escape steps
  | hex left =>
    rw [CharState.next] at steps
    split_ifs at steps with isDigit isLast
    all_goals
      cases Option.some.inj steps
      refine ⟨?_, iff_of_false ?_ (fun isEscape => by cases isEscape)⟩
      all_goals
        rintro rfl
        exact absurd isDigit (by decide)
  | tail low high left =>
    rw [CharState.next] at steps
    split_ifs at steps with inRange isLast
    all_goals
      cases Option.some.inj steps
      refine ⟨?_, iff_of_false ?_ (fun isEscape => by cases isEscape)⟩
      all_goals
        rintro rfl
        exact absurd inRange.2.2 (by decide)

theorem next_escape_ne_escape (steps : CharState.next .escape byte = some next) :
    next ≠ .escape := by
  rw [CharState.next] at steps
  split_ifs at steps
  all_goals
    cases Option.some.inj steps
    exact fun isEscape => by cases isEscape

theorem IsContent.getLast?_of_quote {before after : Text}
    (content : IsContent (before ++ 0x22 :: after)) : before.getLast? = some 0x5c := by
  rw [IsContent, read_append] at content
  rcases Option.bind_eq_some_iff.mp content with ⟨state, reads, readsQuote⟩
  rcases Option.bind_eq_some_iff.mp readsQuote with ⟨next, steps, -⟩
  have isEscape : state = .escape := by
    by_contra notEscape
    exact (next_of_ne_escape notEscape steps).1 rfl
  rw [isEscape] at reads
  rcases eq_nil_or_concat before with rfl | ⟨init, last, rfl⟩
  · cases reads
  · rw [concat_eq_append, read_append] at reads
    rcases Option.bind_eq_some_iff.mp reads with ⟨earlier, -, stepsLast⟩
    rcases Option.bind_eq_some_iff.mp stepsLast with ⟨final, stepsFinal, isFinal⟩
    cases isFinal
    have notEscape : earlier ≠ .escape := by
      rintro rfl
      exact next_escape_ne_escape stepsFinal rfl
    have isSlash := (next_of_ne_escape notEscape stepsFinal).2.mpr rfl
    rw [concat_eq_append, getLast?_concat, isSlash]

theorem read_cases (notEscape : state ≠ .escape) (reads : read state text = some .plain) :
    text = [] ∨
      (∃ byte rest next, text = 0x5c :: byte :: rest ∧ next ≠ .escape ∧
        read next rest = some .plain) ∨
      ∃ byte rest next, text = byte :: rest ∧ byte ≠ 0x22 ∧ byte ≠ 0x5c ∧ next ≠ .escape ∧
        read next rest = some .plain := by
  rcases text with _ | ⟨byte, rest⟩
  · exact Or.inl rfl
  · right
    rcases Option.bind_eq_some_iff.mp reads with ⟨next, steps, readsRest⟩
    rcases next_of_ne_escape notEscape steps with ⟨notQuote, isSlash⟩
    by_cases slash : byte = 0x5c
    · left
      rw [isSlash.mp slash] at readsRest
      rcases rest with _ | ⟨escaped, rest⟩
      · cases Option.some.inj readsRest
      · rcases Option.bind_eq_some_iff.mp readsRest with ⟨behind, stepsEscape, readsBehind⟩
        exact ⟨escaped, rest, behind, by rw [slash], next_escape_ne_escape stepsEscape, readsBehind⟩
    · right
      exact ⟨byte, rest, next, rfl, notQuote, slash, fun isEscape => slash (isSlash.mpr isEscape),
        readsRest⟩

/-! The bytes of a number. -/

theorem exists_next_of_readNumber {state next : NumberState}
    (reads : readNumber state text = some next) (mem : byte ∈ text) :
    ∃ before after, NumberState.next before byte = some after := by
  induction text generalizing state with
  | nil => exact absurd mem not_mem_nil
  | cons head rest ih =>
    rcases Option.bind_eq_some_iff.mp reads with ⟨middle, steps, readsRest⟩
    rcases List.mem_cons.mp mem with rfl | inRest
    · exact ⟨state, middle, steps⟩
    · exact ih readsRest inRest

theorem ne_of_mem_number (isNumber : numberKind text = some kind) (mem : byte ∈ text)
    {other : UInt8} (stuck : ∀ state, NumberState.next state other = none) : byte ≠ other := by
  rintro rfl
  rcases Option.bind_eq_some_iff.mp isNumber with ⟨state, reads, -⟩
  rcases exists_next_of_readNumber reads mem with ⟨before, after, steps⟩
  rw [stuck] at steps
  cases steps

theorem number_ne_nil (isNumber : numberKind text = some kind) :
    text ≠ [] := by
  rintro rfl
  cases isNumber

namespace Member

def name (member : Member) : Text := decode member.key

/-- The member is one of a JSON text. -/
def Valid (member : Member) : Prop := member.Framed ∧ ∃ kind, IsValue kind member.value

end Member

/-- What stands between the brackets of an object. -/
def Holds (members : List Member) (inner : Text) : Prop :=
  (members = [] ∧ Spaces inner) ∨ (members ≠ [] ∧ inner = commas (members.map Member.text))

/-- The text is an object with these members. -/
def IsObject (text : Text) (members : List Member) : Prop :=
  ∃ before inner after, Spaces before ∧ Spaces after ∧ Holds members inner ∧
    (∀ member ∈ members, member.Valid) ∧ text = before ++ 0x7b :: (inner ++ 0x7d :: after)

theorem isObject_compact (nonempty : members ≠ []) (valid : ∀ member ∈ members, member.Valid) :
    IsObject (0x7b :: (commas (members.map Member.text) ++ [0x7d])) members := by
  have noSpaces : Spaces [] := fun _ mem => absurd mem not_mem_nil
  exact ⟨[], _, [], noSpaces, noSpaces, .inr ⟨nonempty, rfl⟩, valid, rfl⟩

theorem Closed.isObject {property : Text → Prop} (closed : Closed property)
    (isObject : IsObject text members) : property text := by
  rcases isObject with ⟨before, inner, after, spacesBefore, spacesAfter, holds, valid, rfl⟩
  have isInner : property inner := by
    rcases holds with ⟨-, spaces⟩ | ⟨-, rfl⟩
    · exact closed.spaces spaces
    · apply closed.commas
      intro text mem
      rcases List.mem_map.mp mem with ⟨member, isMember, rfl⟩
      rcases valid member isMember with ⟨framed, kind, isValue⟩
      exact closed.member framed (closed.isValue isValue)
  have brackets := closed.bracket (show isOpen 0x7b = true from rfl) (show isClose 0x7d = true from rfl)
    isInner
  have parts := closed.append (closed.spaces spacesBefore)
    (closed.append brackets (closed.spaces spacesAfter))
  simpa using parts

end Json
