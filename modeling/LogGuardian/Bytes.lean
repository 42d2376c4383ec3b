import LogGuardian.Lib.Search

/-!
# Byte strings

C strings and buffers are lists of bytes without their terminating NUL.
-/

namespace LogGuardian

abbrev Bytes := List UInt8

instance : LawfulBEq Bytes := inferInstance

/-! A property of the members of a list is decided on the list, also where the type is finite and
all its values could be tried. -/

scoped instance (priority := high) decidableForallMem {α : Type*} (p : α → Prop) [DecidablePred p]
    (list : List α) : Decidable (∀ x ∈ list, p x) :=
  List.decidableBAll p list

scoped instance (priority := high) decidableExistsMem {α : Type*} (p : α → Prop) [DecidablePred p]
    (list : List α) : Decidable (∃ x ∈ list, p x) :=
  List.decidableBEx p list

def ascii (text : String) : Bytes := text.toList.map fun character => character.toNat.toUInt8

def chr (character : Char) : UInt8 := character.toNat.toUInt8

/-- `IS_DIGIT` of `parser.c`. -/
def isDigit (byte : UInt8) : Bool := 48 ≤ byte && byte ≤ 57

def digitValue (byte : UInt8) : ℕ := byte.toNat - 48

/-- `tolower` in the C locale. -/
def toLower (byte : UInt8) : UInt8 := if 65 ≤ byte && byte ≤ 90 then byte + 32 else byte

/-- `find_lit`: the text from the first occurrence of `literal` on. -/
def findLit (line literal : Bytes) : Option Bytes :=
  (Search.find literal line).map line.drop

/-- `find_lit` used as a test. -/
def hasLit (line literal : Bytes) : Bool := (Search.find literal line).isSome

/-- `strchr`: the text from the first occurrence of `byte` on. -/
def strchr (text : Bytes) (byte : UInt8) : Option Bytes :=
  if byte ∈ text then some (text.dropWhile (· ≠ byte)) else none

/-- The byte at a position, and NUL past the end: `(p < end) ? *p : '\0'`. -/
def byteAt (text : Bytes) (position : ℕ) : UInt8 := text.getD position 0

/-- `strncpy`, `memcpy` or `snprintf` into a buffer of `capacity` bytes with its NUL. -/
def copyInto (capacity : ℕ) (text : Bytes) : Bytes := text.take (capacity - 1)

theorem copyInto_of_length_lt {capacity : ℕ} {text : Bytes} (fits : text.length < capacity) :
    copyInto capacity text = text := by
  exact List.take_of_length_le (by omega)

end LogGuardian
