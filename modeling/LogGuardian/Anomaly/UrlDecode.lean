import LogGuardian.Api.Query

/-!
# URL decoding

`url_decode` and the decoding of `application/x-www-form-urlencoded`.
-/

namespace LogGuardian

open List

def isHexByte (byte : UInt8) : Bool :=
  isDigit byte || (97 ≤ byte && byte ≤ 102) || (65 ≤ byte && byte ≤ 70)

def hexByteValue (byte : UInt8) : ℕ := (ascii "0123456789abcdef").idxOf (toLower byte)

def formDecode : Bytes → Bytes
  | first :: high :: low :: rest =>
    if first = chr '%' ∧ isHexByte high ∧ isHexByte low then
      (hexByteValue high * 16 + hexByteValue low).toUInt8 :: formDecode rest
    else plusToSpace first :: formDecode (high :: low :: rest)
  | text => text.map plusToSpace

def upperHexDigit (value : UInt8) : UInt8 := if value < 10 then 48 + value else 55 + value

def percentEncode (keep : UInt8 → Bool) (text : Bytes) : Bytes :=
  text.flatMap fun byte =>
    if keep byte then [byte] else [chr '%', upperHexDigit (byte / 16), upperHexDigit (byte % 16)]

def CompleteEscapes : Bytes → Prop
  | first :: high :: low :: rest =>
    if first = chr '%' then isHexByte high ∧ isHexByte low ∧ CompleteEscapes rest
    else CompleteEscapes (high :: low :: rest)
  | _ => True

structure DecodesForm (text : Bytes) : Prop where
  decoded : urlDecode text = formDecode text
  short : (urlDecode text).length ≤ text.length
  encoded : ∀ keep : UInt8 → Bool, keep (chr '%') = false → keep (chr '+') = false →
    urlDecode (percentEncode keep text) = text

theorem fromHex_lt : ∀ byte, fromHex byte < 16 := by decide +kernel

theorem fromHex_of_isHexByte : ∀ byte, isHexByte byte = true → fromHex byte = hexByteValue byte := by
  decide +kernel

theorem fromHex_of_not_isHexByte : ∀ byte, isHexByte byte = false → fromHex byte = 0 := by
  decide +kernel

theorem fromHex_upperHexDigit : ∀ byte : UInt8,
    (fromHex (upperHexDigit (byte / 16)) * 16 + fromHex (upperHexDigit (byte % 16))).toUInt8 =
      byte := by
  decide +kernel

theorem escape_ne_percent {high low : UInt8} (incomplete : ¬(isHexByte high ∧ isHexByte low)) :
    (fromHex high * 16 + fromHex low).toUInt8 ≠ chr '%' := by
  have highLt := fromHex_lt high
  have lowLt := fromHex_lt low
  intro same
  have value := congrArg UInt8.toNat same
  rw [UInt8.toNat_ofNat', Nat.mod_eq_of_lt (by omega)] at value
  change fromHex high * 16 + fromHex low = 37 at value
  rw [not_and_or, Bool.not_eq_true, Bool.not_eq_true] at incomplete
  rcases incomplete with notHex | notHex
  · have zero := fromHex_of_not_isHexByte high notHex
    omega
  · have zero := fromHex_of_not_isHexByte low notHex
    omega

theorem urlDecode_cons_of_ne {first : UInt8} (plain : first ≠ chr '%') (rest : Bytes) :
    urlDecode (first :: rest) = plusToSpace first :: urlDecode rest := by
  rcases rest with _ | ⟨high, _ | ⟨low, rest⟩⟩
  · rfl
  · rfl
  · rw [urlDecode, if_neg plain]

theorem urlDecode_percentEncode {keep : UInt8 → Bool} (percent : keep (chr '%') = false)
    (plus : keep (chr '+') = false) (text : Bytes) :
    urlDecode (percentEncode keep text) = text := by
  induction text with
  | nil => rfl
  | cons byte rest ih =>
    rw [percentEncode, flatMap_cons]
    change urlDecode (_ ++ percentEncode keep rest) = _
    split
    · rename_i kept
      have notPercent : byte ≠ chr '%' := by
        rintro rfl
        simp [percent] at kept
      have notPlus : byte ≠ chr '+' := by
        rintro rfl
        simp [plus] at kept
      rw [singleton_append, urlDecode_cons_of_ne notPercent, ih, plusToSpace, if_neg notPlus]
    · simp only [cons_append, nil_append, urlDecode, if_pos, fromHex_upperHexDigit, ih]

theorem length_urlDecode_le (text : Bytes) : (urlDecode text).length ≤ text.length := by
  fun_induction urlDecode text with
  | case1 high low rest ih =>
    simp only [length_cons]
    omega
  | case2 first high low rest plain ih =>
    simp only [length_cons] at ih ⊢
    omega
  | case3 text => simp

theorem urlDecode_eq_formDecode_iff (text : Bytes) :
    urlDecode text = formDecode text ↔ CompleteEscapes text := by
  fun_induction urlDecode text with
  | case1 high low rest ih =>
    rw [formDecode, CompleteEscapes]
    split
    · rename_i complete
      rw [fromHex_of_isHexByte high complete.2.1, fromHex_of_isHexByte low complete.2.2,
        cons_inj_right, ih]
      simp [complete.2]
    · rename_i incomplete
      have notHex : ¬(isHexByte high ∧ isHexByte low) := fun hex => incomplete ⟨rfl, hex⟩
      apply iff_of_false
      · intro same
        exact escape_ne_percent notHex (List.cons.inj same).1
      · exact fun complete => notHex ⟨complete.1, complete.2.1⟩
  | case2 first high low rest plain ih =>
    rw [formDecode, CompleteEscapes, if_neg plain, if_neg (fun escape => plain escape.1),
      cons_inj_right, ih]
  | case3 text short =>
    rcases text with _ | ⟨first, _ | ⟨second, _ | ⟨third, rest⟩⟩⟩
    · simp [formDecode, CompleteEscapes]
    · simp [formDecode, CompleteEscapes]
    · simp [formDecode, CompleteEscapes]
    · exact absurd rfl (short first second third rest)

/-- `url_decode` is the decoding of the standard on the texts whose escapes are complete. -/
theorem decodesForm_iff_completeEscapes (text : Bytes) :
    DecodesForm text ↔ CompleteEscapes text := by
  rw [← urlDecode_eq_formDecode_iff]
  constructor
  · exact DecodesForm.decoded
  · intro decoded
    exact ⟨decoded, length_urlDecode_le text, fun _ percent plus =>
      urlDecode_percentEncode percent plus text⟩

/-- The percent sign of `%zz` is lost, and a zero byte stands for it. -/
theorem incomplete_escape_decoded :
    urlDecode (ascii "%zz") = [0] ∧ formDecode (ascii "%zz") = ascii "%zz" ∧
      ¬DecodesForm (ascii "%zz") := by
  have decoded : urlDecode (ascii "%zz") = [0] := by decide
  have standard : formDecode (ascii "%zz") = ascii "%zz" := by decide
  refine ⟨decoded, standard, ?_⟩
  intro decodes
  exact absurd (decodes.decoded.symm.trans decoded) (by rw [standard]; decide)

end LogGuardian
