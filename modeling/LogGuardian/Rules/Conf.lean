import LogGuardian.Firewall.Targets
import LogGuardian.Lib.Lines

/-!
# Configuration files
-/

namespace LogGuardian

open List

/-- `fgets` until the end of the file, into a buffer of `size` bytes. -/
def fgetsFrom (size : ℕ) : Bytes → Bytes → List Bytes
  | [], line => if line = [] then [] else [line]
  | byte :: rest, line =>
    if byte = chr '\n' ∨ line.length + 2 = size then (line ++ [byte]) :: fgetsFrom size rest []
    else fgetsFrom size rest (line ++ [byte])

/-- The C strings that `fgets` leaves in the buffer. -/
def fgetsLines (size : ℕ) (content : Bytes) : List Bytes :=
  (fgetsFrom size content []).map fun line => line.takeWhile (· ≠ 0)

theorem fgetsFrom_append_newline {size : ℕ} {line held : Bytes} (plain : 10 ∉ line)
    (fits : held.length + line.length + 2 ≤ size) (rest : Bytes) :
    fgetsFrom size (line ++ 10 :: rest) held = (held ++ line ++ [10]) :: fgetsFrom size rest [] := by
  induction line generalizing held with
  | nil =>
    rw [nil_append, fgetsFrom, if_pos (Or.inl (by decide)), append_nil]
  | cons byte line ih =>
    rw [mem_cons, not_or] at plain
    rw [length_cons] at fits
    have other : byte ≠ chr '\n' := fun same => plain.1 same.symm
    have room : held.length + 2 ≠ size := by
      omega
    rw [cons_append, fgetsFrom, if_neg (not_or.mpr ⟨other, room⟩), ih plain.2]
    · simp
    · rw [length_append, length_singleton]
      omega

theorem fgetsLines_text {size : ℕ} {lines : List Bytes}
    (fit : ∀ line ∈ lines, 10 ∉ line ∧ 0 ∉ line ∧ line.length + 2 ≤ size) :
    fgetsLines size (Lines.text 10 lines) = lines.map (· ++ [10]) := by
  unfold fgetsLines
  induction lines with
  | nil => rfl
  | cons line lines ih =>
    rcases fit line (by simp) with ⟨plain, noNul, short⟩
    have whole : (line ++ [10]).takeWhile (· ≠ 0) = line ++ [10] := by
      rw [takeWhile_eq_self_iff]
      intro byte mem
      have other : byte ≠ 0 := by
        rintro rfl
        rcases List.mem_append.mp mem with inside | newline
        · exact noNul inside
        · exact absurd newline (by decide)
      simpa using other
    have first : fgetsFrom size (line ++ 10 :: Lines.text 10 lines) [] =
        (line ++ [10]) :: fgetsFrom size (Lines.text 10 lines) [] := by
      apply fgetsFrom_append_newline plain
      simpa using short
    rw [Lines.text_cons, first, map_cons, map_cons, whole, ih]
    intro later mem
    exact fit later (by simp [mem])

def trimWs (text : Bytes) : Bytes := ((text.dropWhile isSpace).reverse.dropWhile isSpace).reverse

def ruleLine (line : Bytes) : Option (Bytes × Bytes) :=
  let text := trimWs line
  match text with
  | [] => none
  | first :: _ =>
    if first = chr '#' ∨ chr '=' ∉ text then none
    else
      let key := trimWs (text.takeWhile (· ≠ chr '='))
      let val := trimWs ((text.dropWhile (· ≠ chr '=')).drop 1)
      if key = [] ∨ val = [] then none else some (key, val)

def rulesEntries (content : Bytes) : List (Bytes × Bytes) :=
  (fgetsLines 512 content).filterMap ruleLine

/-- The digits that `strtol` reads and the text behind them, if there are any. -/
def strtolSplit (text : Bytes) : Option (Bytes × Bytes) :=
  let trimmed := text.dropWhile isSpace
  let signed := trimmed.head? = some (chr '-') ∨ trimmed.head? = some (chr '+')
  let digits := if signed then trimmed.drop 1 else trimmed
  if digits.takeWhile isDigit = [] then none
  else some (digits.takeWhile isDigit, digits.dropWhile isDigit)

/-- `parsed` where `is_number` holds: digits to the end, without an overflow. -/
def ruleNumber (val : Bytes) : Option ℤ :=
  match strtolSplit val with
  | none => none
  | some (digits, rest) =>
    let magnitude : ℤ := decimalValue digits
    let negative := (val.dropWhile isSpace).head? = some (chr '-')
    let overflows := if negative then 2 ^ 63 < magnitude else 2 ^ 63 ≤ magnitude
    if overflows ∨ trimWs rest ≠ [] then none else some (strtol val)

example : rulesEntries (ascii " A = 1 \n#B=2\nC=x=y\n") =
    [(ascii "A", ascii "1"), (ascii "C", ascii "x=y")] := by decide
example : ruleNumber (ascii "-12 ") = some (-12) ∧ ruleNumber (ascii "12a") = none := by decide

end LogGuardian
