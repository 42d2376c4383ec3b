import LogGuardian.Lib.Lines

/-!
# CEF records
-/

namespace Cef

open List

abbrev Text := List UInt8

def cut : Bool → Text → Option (Text × Text)
  | _, [] => none
  | behind, byte :: rest =>
    if byte = 0x7c ∧ behind = false then some ([], rest)
    else (cut (byte = 0x5c && !behind) rest).map fun parts => (byte :: parts.1, parts.2)

def header : ℕ → Text → Option (List Text × Text)
  | 0, text => some ([], text)
  | count + 1, text =>
    (cut false text).bind fun parts =>
      (header count parts.2).map fun fields => (parts.1 :: fields.1, fields.2)

def isKeyByte (byte : UInt8) : Bool :=
  (0x30 ≤ byte && byte ≤ 0x39) || (0x41 ≤ byte && byte ≤ 0x5a) || (0x61 ≤ byte && byte ≤ 0x7a)

/-- A word starts a field with this key. -/
def keyOf (word : Text) : Option Text :=
  if word.takeWhile isKeyByte ≠ [] ∧ (word.dropWhile isKeyByte).head? = some 0x3d then
    some (word.takeWhile isKeyByte)
  else none

/-- The keys of an extension. -/
def keys (extension : Text) : List Text := (extension.splitOn 0x20).filterMap keyOf

/-- A text that neither ends a header field nor escapes anything. -/
def Plain (text : Text) : Prop := ∀ byte ∈ text, byte ≠ 0x7c ∧ byte ≠ 0x5c

instance (text : Text) : Decidable (Plain text) :=
  inferInstanceAs (Decidable (∀ byte ∈ text, byte ≠ 0x7c ∧ byte ≠ 0x5c))

theorem cut_of_plain {field : Text} (plain : Plain field) (rest : Text) :
    cut false (field ++ 0x7c :: rest) = some (field, rest) := by
  induction field with
  | nil => rfl
  | cons byte field ih =>
    rcases List.forall_mem_cons.mp plain with ⟨⟨notBar, notSlash⟩, plainField⟩
    have notBehind : (decide (byte = 0x5c) && !false) = false := by simp [notSlash]
    rw [cons_append, cut, if_neg (fun isBar => notBar isBar.1), notBehind, ih plainField]
    rfl

theorem header_of_plain {fields : List Text} (plain : ∀ field ∈ fields, Plain field) (rest : Text) :
    header fields.length (fields.flatMap (· ++ [0x7c]) ++ rest) = some (fields, rest) := by
  induction fields with
  | nil => rfl
  | cons field fields ih =>
    rcases List.forall_mem_cons.mp plain with ⟨plainField, plainFields⟩
    have first := cut_of_plain plainField (fields.flatMap (· ++ [0x7c]) ++ rest)
    simp only [flatMap_cons, append_assoc, cons_append, nil_append,
      length_cons, header, first, Option.bind_some, ih plainFields, Option.map_some]

theorem keyOf_of_key {key : Text} (nonempty : key ≠ []) (plain : ∀ byte ∈ key, isKeyByte byte = true)
    (value : Text) : keyOf (key ++ 0x3d :: value) = some key := by
  have taken : (key ++ 0x3d :: value).takeWhile isKeyByte = key := by
    rw [takeWhile_append_of_pos plain]
    simp [isKeyByte]
  have left : (key ++ 0x3d :: value).dropWhile isKeyByte = 0x3d :: value := by
    rw [dropWhile_append_of_pos plain]
    simp [isKeyByte]
  rw [keyOf, taken, left, if_pos ⟨nonempty, rfl⟩]

section Words

universe u

variable {α : Type u} [DecidableEq α] {space : α}

theorem splitOn_append {front : List α} (plain : space ∉ front) (text : List α) :
    (front ++ text).splitOn space = (text.splitOn space).modifyHead (front ++ ·) := by
  induction front with
  | nil =>
    rcases words : text.splitOn space with _ | ⟨word, rest⟩
    · exact absurd words (splitOn_ne_nil space text)
    · exact words
  | cons symbol front ih =>
    rw [mem_cons, not_or] at plain
    have other : (symbol == space) ≠ true := by simpa using Ne.symm plain.1
    rw [cons_append, splitOn_cons_eq_if_modifyHead, if_neg other, ih plain.2,
      modifyHead_modifyHead]
    rfl

theorem splitOn_flatMap {replace : α → List α} (keeps : replace space = [space])
    (avoids : ∀ symbol, symbol ≠ space → space ∉ replace symbol) (text : List α) :
    (text.flatMap replace).splitOn space = (text.splitOn space).map (·.flatMap replace) := by
  induction text with
  | nil => simp
  | cons symbol rest ih =>
    rw [flatMap_cons, splitOn_cons_eq_if_modifyHead]
    by_cases isSpace : symbol = space
    · rw [if_pos (by simpa using isSpace), isSpace, keeps, singleton_append,
        splitOn_cons_eq_if_modifyHead, if_pos (by simp), ih]
      rfl
    · rw [if_neg (by simpa using isSpace), splitOn_append (avoids symbol isSpace), ih]
      rcases words : rest.splitOn space with _ | ⟨word, others⟩
      · exact absurd words (splitOn_ne_nil space rest)
      · simp

end Words

end Cef
