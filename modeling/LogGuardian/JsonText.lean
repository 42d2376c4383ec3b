import LogGuardian.Lib.Json
import LogGuardian.Parser.RoundTrip
import LogGuardian.Waf.Headers

/-!
# Printed JSON

Numbers and escaped texts as the daemon prints them, and what a text in which they stand says about
them.
-/

namespace LogGuardian

open List

/-- `%d` and `%ld`. -/
def printInt (value : ℤ) : Bytes :=
  if value < 0 then chr '-' :: numeral value.natAbs else numeral value.natAbs

theorem readNumber_numeral {state : Json.NumberState} (isStart : state = .start ∨ state = .minus)
    (number : ℕ) : Json.readNumber state (numeral number) =
      some (if number = 0 then .zero else .digits) := by
  have digit : ∀ value < 10, Json.isDigit (UInt8.ofNat (48 + value)) = true := by decide
  have first : ∀ value < 10, Json.readNumber state [UInt8.ofNat (48 + value)] =
      some (if value = 0 then .zero else .digits) := by
    rcases isStart with rfl | rfl
    · decide
    · decide
  induction number using Nat.strong_induction_on with
  | _ number ih =>
    rw [numeral_eq]
    split_ifs with small isZero isZero
    · rw [first number small, if_pos isZero]
    · rw [first number small, if_neg isZero]
    · omega
    · rw [Json.readNumber_append, ih (number / 10) (by omega), if_neg (by omega)]
      change (Json.NumberState.next .digits (UInt8.ofNat (48 + number % 10))).bind _ = _
      rw [Json.NumberState.next, if_pos (digit _ (Nat.mod_lt _ (by omega)))]
      rfl

theorem isValue_printInt (value : ℤ) : Json.IsValue .integer (printInt value) := by
  apply Json.IsValue.number
  unfold printInt Json.numberKind
  split_ifs
  · change ((Json.readNumber .minus (numeral value.natAbs)).bind _) = _
    rw [readNumber_numeral (Or.inr rfl)]
    split_ifs <;> rfl
  · rw [readNumber_numeral (Or.inl rfl)]
    split_ifs <;> rfl

variable {byte : UInt8} {before after : Bytes}

theorem mem_printInt {value : ℤ} (shown : byte ∈ printInt value) :
    isDigit byte = true ∨ byte = chr '-' := by
  unfold printInt at shown
  split at shown
  · rcases List.mem_cons.mp shown with isMinus | inNumeral
    · exact .inr isMinus
    · exact .inl (isDigit_of_mem_numeral inNumeral)
  · exact .inl (isDigit_of_mem_numeral shown)

theorem isValue_tenths (units : ℕ) {tenths : ℕ} (small : tenths < 10) :
    Json.IsValue .fraction (numeral units ++ ascii "." ++ numeral tenths) := by
  apply Json.IsValue.number
  unfold Json.numberKind
  rw [Json.readNumber_append, Json.readNumber_append, readNumber_numeral (Or.inl rfl)]
  split_ifs
  all_goals interval_cases tenths <;> decide

def isBetween : Json.CharState → Bool
  | .plain => true
  | .tail _ _ _ => true
  | _ => false

theorem isBetween_next {state next : Json.CharState} (between : isBetween state = true)
    (notSlash : byte ≠ 0x5c) (steps : state.next byte = some next) : isBetween next = true := by
  cases state with
  | plain =>
    rw [Json.CharState.next, if_neg notSlash] at steps
    unfold Json.lead at steps
    split_ifs at steps
    all_goals
      cases Option.some.inj steps
      rfl
  | tail low high left =>
    rw [Json.CharState.next] at steps
    split_ifs at steps
    all_goals
      cases Option.some.inj steps
      rfl
  | _ => cases between

theorem lex_escapeText {text : Bytes} {state : Json.CharState} (between : isBetween state = true) :
    Json.lex (.inside state) (escapeText text) = (Json.read state (escapeText text)).map .inside ∧
      ∀ next, Json.read state (escapeText text) = some next → isBetween next = true := by
  induction text generalizing state with
  | nil =>
    refine ⟨rfl, ?_⟩
    intro next reads
    cases Option.some.inj reads
    exact between
  | cons byte rest ih =>
    rw [escapeText_cons]
    by_cases escaped : mustEscape byte = true
    · have escape : escapeOf byte = [0x5c, byte] := if_pos escaped
      have special : byte = 0x22 ∨ byte = 0x5c := by
        simpa [mustEscape, chr] using escaped
      rw [escape]
      cases state with
      | plain =>
        have closed := @ih .plain rfl
        rcases special with rfl | rfl
        · exact closed
        · exact closed
      | tail low high left =>
        have stuck : Json.CharState.next (.tail low high left) 0x5c = none := by
          rw [Json.CharState.next, if_neg]
          rintro ⟨-, -, high⟩
          exact absurd high (by decide)
        have notRead : Json.read (.tail low high left) ([0x5c, byte] ++ escapeText rest) = none := by
          rw [cons_append, Json.read, stuck]
          rfl
        rw [notRead, cons_append, Json.lex, Json.Lexer.next, stuck]
        exact ⟨rfl, fun _ isNone => by cases isNone⟩
      | _ => cases between
    · have plainByte : escapeOf byte = [byte] := if_neg escaped
      have notQuote : byte ≠ 0x22 := by
        rintro rfl
        exact escaped rfl
      have notSlash : byte ≠ 0x5c := by
        rintro rfl
        exact escaped rfl
      rw [plainByte, singleton_append, Json.lex, Json.read, Json.Lexer.next,
        if_neg (fun both => notQuote both.1)]
      rcases steps : state.next byte with _ | next
      · exact ⟨rfl, fun _ isNone => by cases isNone⟩
      · exact ih (isBetween_next between notSlash steps)

theorem isContent_of_lex (lexes : Json.Lexes before)
    (through : Json.lex .outside (before ++ 0x22 :: (escapeText text ++ 0x22 :: after)) ≠ none) :
    Json.IsContent (escapeText text) := by
  have escaped := @lex_escapeText text .plain rfl
  rw [Json.lex_append, lexes] at through
  change Json.lex (.inside .plain) (escapeText text ++ 0x22 :: after) ≠ none at through
  rw [Json.lex_append, escaped.1] at through
  rcases reads : Json.read .plain (escapeText text) with _ | next
  · rw [reads] at through
    exact absurd rfl through
  · rw [reads] at through
    have between := escaped.2 next reads
    cases next with
    | plain => exact reads
    | tail low high left =>
      have stuck : Json.CharState.next (.tail low high left) 0x22 = none := by
        rw [Json.CharState.next, if_neg]
        rintro ⟨-, -, high⟩
        exact absurd high (by decide)
      apply absurd _ through
      change (Json.Lexer.next (.inside (.tail low high left)) 0x22).bind _ = none
      rw [Json.Lexer.next, stuck]
      rfl
    | _ => cases between

end LogGuardian
