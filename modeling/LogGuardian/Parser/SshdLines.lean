import LogGuardian.Lib.QuotedSearch
import LogGuardian.Parser.Forwarded

/-!
# The address of an sshd line

`extract_sshd_client_ip` works on positions of the line; here it is first the same search on texts,
and then on the text that begins with the user name. Which names leave an address alone is said on
the bytes of the name.
-/

namespace LogGuardian

open List

/-- The token at the beginning of a text, as `ipTokenAt` cuts it. -/
def ipToken (text : Bytes) : Bytes :=
  if text.head? = some (chr '[') then (text.drop 1).takeWhile (· ≠ chr ']')
  else text.takeWhile fun byte => byte ≠ 32 && byte ≠ 9 && byte ≠ chr ':'

def leadingAddress (text : Bytes) : Option Bytes :=
  let token := ipToken text
  if token = [] ∨ ipStrLen ≤ token.length then none
  else if isValidIp (unbracket token) then some (unbracket token) else none

def fromIpToken (text : Bytes) : Bytes :=
  text.dropWhile fun byte => !(isDigit byte || byte = chr '[')

def addressAfter (text marker : Bytes) : Option Bytes :=
  (Search.after marker text).bind fun rest =>
    leadingAddress
      (if marker = ascii "Disconnected from " then fromIpToken (rest.dropWhile (· = 32))
      else rest.dropWhile (· = 32))

section Positions

variable (line : Bytes)

theorem drop_skipWhile (skip : UInt8 → Bool) (position : ℕ) :
    line.drop (skipWhile skip line position) = (line.drop position).dropWhile skip := by
  unfold skipWhile
  rw [← drop_drop]
  generalize line.drop position = text
  have whole : text.takeWhile skip ++ text.dropWhile skip = text := takeWhile_append_dropWhile
  nth_rewrite 2 [← whole]
  rw [drop_left]

theorem byteAt_eq_head (position : ℕ) : byteAt line position = (line.drop position).head?.getD 0 := by
  rw [head?_drop]
  rfl

theorem take_length_takeWhile (skip : UInt8 → Bool) (text : Bytes) :
    text.take (text.takeWhile skip).length = text.takeWhile skip :=
  (List.prefix_iff_eq_take.mp ( takeWhile_prefix _)).symm

theorem take_ipTokenAt (position : ℕ) :
    (ipTokenAt line position).2 = (ipToken (line.drop position)).length ∧
      (line.drop (ipTokenAt line position).1).take (ipTokenAt line position).2 =
        ipToken (line.drop position) := by
  unfold ipTokenAt ipToken
  rw [byteAt_eq_head]
  rcases shape : line.drop position with _ | ⟨byte, rest⟩
  · rw [if_neg (by decide), if_neg (by simp)]
    exact ⟨rfl, by simp⟩
  · by_cases opening : byte = chr '['
    · have next : line.drop (position + 1) = rest := by
        rw [← drop_drop, shape, drop_one, tail_cons]
      have inside : byte ≠ chr ']' := by
        rw [opening]
        decide
      have skipped : skipWhile (· ≠ chr ']') line position - (position + 1) =
          (rest.takeWhile (· ≠ chr ']')).length := by
        simp only [skipWhile, shape, takeWhile_cons, inside, ne_eq, not_false_eq_true,
          decide_true, if_true, length_cons]
        omega
      rw [if_pos (by simpa using opening), if_pos (by simpa using opening)]
      rw [skipped, next]
      exact ⟨rfl, take_length_takeWhile _ _⟩
    · rw [if_neg (by simpa using opening), if_neg (by simpa using opening)]
      rw [shape]
      exact ⟨rfl, take_length_takeWhile _ _⟩

theorem length_unbracket_le (token : Bytes) : (unbracket token).length ≤ token.length := by
  unfold unbracket
  split_ifs
  · simp
  · exact le_rfl

theorem map_bytes_token (position : ℕ) :
    (if (ipTokenAt line position).2 = 0 ∨ ipStrLen ≤ (ipTokenAt line position).2 then none
      else if validToken line
          (stripIpv6Brackets line (ipTokenAt line position).1 (ipTokenAt line position).2) then
        some (stripIpv6Brackets line (ipTokenAt line position).1 (ipTokenAt line position).2)
      else none).map (·.bytes line) = leadingAddress (line.drop position) := by
  rcases take_ipTokenAt line position with ⟨length, token⟩
  unfold leadingAddress
  generalize ipTokenAt line position = cut at length token
  generalize ipToken (line.drop position) = text at length token
  by_cases refused : text = [] ∨ ipStrLen ≤ text.length
  · rw [if_pos (by rwa [length, List.length_eq_zero_iff]), if_pos refused]
    rfl
  · rw [if_neg (by rwa [length, List.length_eq_zero_iff]), if_neg refused]
    rcases not_or.mp refused with ⟨given, short⟩
    have bound : cut.1 + cut.2 ≤ line.length := by
      have cutLength := congrArg List.length token
      have positive := List.length_pos_iff.mpr given
      rw [List.length_take, List.length_drop] at cutLength
      omega
    have stripped := bytes_stripIpv6Brackets bound
    rw [token] at stripped
    have fits : copyInto ipStrLen (unbracket text) = unbracket text := by
      apply copyInto_of_length_lt
      have shorter := length_unbracket_le text
      omega
    unfold validToken
    rw [stripped, fits]
    split_ifs
    · exact congrArg some stripped
    · rfl

theorem map_bytes_sshdMarkerIp (marker : Bytes) :
    (sshdMarkerIp line marker).map (·.bytes line) = addressAfter line marker := by
  unfold sshdMarkerIp addressAfter Search.after
  rcases Search.find marker line with _ | hit
  · rfl
  · simp only [Option.bind_eq_bind, Option.bind_some, Option.map_some]
    rw [← drop_skipWhile]
    by_cases last : marker = ascii "Disconnected from "
    · unfold skipToIpToken fromIpToken
      rw [← drop_skipWhile]
      dsimp only
      split_ifs with found
      · exact map_bytes_token line _
      · rw [drop_eq_nil_of_le (by omega)]
        rfl
    · rw [if_neg last, if_neg last]
      exact map_bytes_token line _

theorem map_bytes_extractSshdClientIp :
    (extractSshdClientIp line).map (·.bytes line) = sshdMarkers.findSome? (addressAfter line) := by
  unfold extractSshdClientIp
  rw [List.map_findSome?]
  apply congrArg (List.findSome? · _)
  funext marker
  exact map_bytes_sshdMarkerIp line marker

end Positions

inductive SshdForm where
  | failedPassword
  | failedInvalidUser
  | disconnected
  deriving DecidableEq, Repr

namespace SshdForm

def opening : SshdForm → Bytes
  | failedPassword => ascii " Failed password for"
  | failedInvalidUser => ascii " Failed password for invalid user"
  | disconnected => ascii " Disconnected from authenticating user"

def middle : SshdForm → Bytes
  | failedPassword => ascii " from "
  | failedInvalidUser => ascii " from "
  | disconnected => ascii " "

def ending : SshdForm → Bytes
  | failedPassword => ascii " ssh2"
  | failedInvalidUser => ascii " ssh2"
  | disconnected => ascii " [preauth]"

end SshdForm

structure SshdLine where
  head : Bytes
  form : SshdForm
  user : Bytes
  address : Bytes
  port : ℕ

namespace SshdLine

variable (message : SshdLine)

def claim : Bytes :=
  ascii " " ++ message.user ++ message.form.middle ++ message.address ++ ascii " port " ++
    numeral message.port ++ message.form.ending

def render : Bytes := message.head ++ ascii ":" ++ message.form.opening ++ message.claim

/-- An sshd line for an address. -/
structure WellFormed : Prop where
  sshd : hasLit message.head (ascii "sshd[") = true
  quiet : ∀ marker ∈ sshdMarkers, ¬marker <:+: message.head
  headClean : ∀ byte ∈ message.head, byte ≠ 0 ∧ byte ≠ 13 ∧ byte ≠ 0x1b
  userClean : ∀ byte ∈ message.user, byte ≠ 10 ∧ byte ≠ 0 ∧ byte ≠ 13 ∧ byte ≠ 0x1b
  valid : isValidIp message.address = true

def named : Option Bytes :=
  match message.form with
  | .disconnected =>
    (addressAfter message.claim (ascii "Connection closed by ")).or
      ((addressAfter message.claim (ascii "Received disconnect from ")).or
        (leadingAddress (fromIpToken message.claim)))
  | _ => sshdMarkers.findSome? (addressAfter message.claim)

/-- The line is accepted by way of the sshd path and goes to the address. -/
def Attributed (env : ParserEnv) : Prop :=
  ∃ entry, parseAuthSshdLine env message.render = some entry ∧
    parseLogLine env message.render = .ok entry ∧ entry.ip.bytes message.render = message.address

end SshdLine

theorem addressAfter_append {marker part rest : Bytes} (passes : Search.Passes marker part rest) :
    addressAfter (part ++ rest) marker = addressAfter rest marker := by
  unfold addressAfter
  rw [Search.after_append passes]

theorem findSome?_congr_mem {α β : Type} {items : List α} {left right : α → Option β}
    (same : ∀ item ∈ items, left item = right item) :
    items.findSome? left = items.findSome? right := by
  induction items with
  | nil => rfl
  | cons item items ih =>
    rw [List.findSome?_cons, List.findSome?_cons, same item mem_cons_self,
      ih fun other mem => same other (mem_cons_of_mem item mem)]

theorem dropWhile_word {word rest : Bytes} (given : word ≠ []) (head : word.head? ≠ some 32) :
    (word ++ rest).dropWhile (· = 32) = word ++ rest := by
  rcases word with _ | ⟨byte, word⟩
  · exact absurd rfl given
  · have other : byte ≠ 32 := by simpa using head
    simp [other]

theorem ipToken_append {word rest : Bytes}
    (plain : ∀ byte ∈ word, byte ≠ 32 ∧ byte ≠ 9 ∧ byte ≠ chr ':')
    (unbracketed : word.head? ≠ some (chr '[')) : ipToken (word ++ 32 :: rest) = word := by
  unfold ipToken
  have head : (word ++ 32 :: rest).head? ≠ some (chr '[') := by
    rcases word with _ | ⟨byte, word⟩
    · change some 32 ≠ some (chr '[')
      decide
    · simpa using unbracketed
  rw [if_neg head, takeWhile_append_of_pos]
  · simp
  · intro byte mem
    simp [plain byte mem]

theorem logLineIsTampered_append (first second : Bytes) :
    logLineIsTampered (first ++ second) = (logLineIsTampered first || logLineIsTampered second) :=
  any_append

theorem untampered_of_mem {text : Bytes} (clean : ∀ byte ∈ text, byte ≠ 0 ∧ byte ≠ 13 ∧ byte ≠ 0x1b) :
    logLineIsTampered text = false := by
  unfold logLineIsTampered
  rw [any_eq_false]
  intro byte mem
  simp [clean byte mem]

namespace SshdLine

variable {message : SshdLine}

theorem colon_not_mem_of_marker {marker : Bytes} (mem : marker ∈ sshdMarkers) : chr ':' ∉ marker := by
  revert marker
  decide

theorem addressAfter_render (wellFormed : message.WellFormed) {marker : Bytes}
    (mem : marker ∈ sshdMarkers) :
    addressAfter message.render marker =
      addressAfter (message.form.opening ++ message.claim) marker := by
  unfold render
  rw [append_assoc]
  apply addressAfter_append
  exact Search.passes_of_stop (colon_not_mem_of_marker mem) (wellFormed.quiet marker mem)

theorem addressAfter_opening {marker : Bytes} (clashes : Search.Clashes marker message.form.opening) :
    addressAfter (message.form.opening ++ message.claim) marker =
      addressAfter message.claim marker :=
  addressAfter_append (Search.passes_of_clashes clashes _)

theorem addressAfter_from_disconnected (rest : Bytes) :
    addressAfter (ascii " Disconnected from authenticating user" ++ rest) (ascii " from ") = none := by
  have phrase : ascii " Disconnected from authenticating user" = ascii " Disconnected" ++
      (ascii " from " ++ (ascii "authenticating" ++ 32 :: ascii "user")) := by
    decide
  have passes := Search.passes_of_clashes
    (show Search.Clashes (ascii " from ") (ascii " Disconnected") by decide)
  have noSpaces := @dropWhile_word (ascii "authenticating") (32 :: (ascii "user" ++ rest))
    (by decide) (by decide)
  have token := @ipToken_append (ascii "authenticating") (ascii "user" ++ rest)
    (by decide +kernel) (by decide)
  unfold addressAfter
  rw [phrase]
  simp only [append_assoc, cons_append]
  rw [Search.after_pattern (passes _), Option.bind_some, if_neg (by decide), noSpaces]
  unfold leadingAddress
  rw [token]
  decide

theorem addressAfter_disconnected (rest : Bytes) :
    addressAfter (ascii " Disconnected from authenticating user" ++ rest)
      (ascii "Disconnected from ") = leadingAddress (fromIpToken rest) := by
  have phrase : ascii " Disconnected from authenticating user" =
      ascii " " ++ (ascii "Disconnected from " ++ ascii "authenticating user") := by
    decide
  have passes : ∀ text : Bytes, Search.Passes (ascii "Disconnected from ") (ascii " ") text :=
    Search.passes_of_clashes (by decide)
  have noSpaces := @dropWhile_word (ascii "authenticating user") rest (by decide) (by decide)
  have noDigits : ∀ byte ∈ ascii "authenticating user",
      (!(isDigit byte || byte = chr '[')) = true := by
    decide +kernel
  unfold addressAfter
  rw [phrase]
  simp only [append_assoc]
  rw [Search.after_pattern (passes _), Option.bind_some, if_pos trivial, noSpaces]
  unfold fromIpToken
  rw [dropWhile_append_of_pos noDigits]

theorem map_bytes_extract (wellFormed : message.WellFormed) :
    (extractSshdClientIp message.render).map (·.bytes message.render) = message.named := by
  rw [map_bytes_extractSshdClientIp]
  have reads : sshdMarkers.findSome? (addressAfter message.render) =
      sshdMarkers.findSome? (addressAfter (message.form.opening ++ message.claim)) :=
    findSome?_congr_mem fun marker mem => addressAfter_render wellFormed mem
  rw [reads]
  unfold named
  rcases form : message.form with _ | _ | _
  · apply findSome?_congr_mem
    intro marker mem
    rw [← form]
    apply addressAfter_opening
    rw [form]
    revert marker
    decide
  · apply findSome?_congr_mem
    intro marker mem
    rw [← form]
    apply addressAfter_opening
    rw [form]
    revert marker
    decide
  · rw [form] at reads
    have phrase := @addressAfter_opening message
    rw [form] at phrase
    have second := @phrase (ascii "Connection closed by ") (by decide)
    have third := @phrase (ascii "Received disconnect from ") (by decide)
    unfold sshdMarkers
    simp only [List.findSome?_cons, List.findSome?_nil, second, third]
    unfold SshdForm.opening
    rw [addressAfter_from_disconnected, addressAfter_disconnected]
    rcases addressAfter message.claim (ascii "Connection closed by ") with _ | found
    · rcases addressAfter message.claim (ascii "Received disconnect from ") with _ | found
      · rcases leadingAddress (fromIpToken message.claim) with _ | found
        · rfl
        · rfl
      · rfl
    · rfl

theorem untampered_render (wellFormed : message.WellFormed) :
    logLineIsTampered message.render = false := by
  have opening : logLineIsTampered message.form.opening = false := by
    cases message.form <;> decide
  have middle : logLineIsTampered message.form.middle = false := by
    cases message.form <;> decide
  have ending : logLineIsTampered message.form.ending = false := by
    cases message.form <;> decide
  have user : logLineIsTampered message.user = false :=
    untampered_of_mem fun byte mem => (wellFormed.userClean byte mem).2
  have address : logLineIsTampered message.address = false := by
    apply untampered_of_mem
    intro byte mem
    have valid := isAddressByte_of_isValidIp wellFormed.valid mem
    exact ⟨ne_of_isAddressByte valid (by decide), ne_of_isAddressByte valid (by decide),
      ne_of_isAddressByte valid (by decide)⟩
  have port : logLineIsTampered (numeral message.port) = false := by
    apply untampered_of_mem
    intro byte mem
    have digit := isDigit_of_mem_numeral mem
    exact ⟨ne_of_isDigit digit (by decide), ne_of_isDigit digit (by decide),
      ne_of_isDigit digit (by decide)⟩
  have colon : logLineIsTampered (ascii ":") = false := by decide
  have space : logLineIsTampered (ascii " ") = false := by decide
  have portWord : logLineIsTampered (ascii " port ") = false := by decide
  unfold render claim
  simp only [logLineIsTampered_append, untampered_of_mem wellFormed.headClean, opening, middle,
    ending, user, address, port, colon, space, portWord, Bool.or_false]

/-- Nothing in the user name is taken for the address, which is an IPv4 one: the line's own ` from `
is the first, or the address has the first digit and no other marker stands before it. -/
structure LeavesAddress (message : SshdLine) : Prop where
  ipv4 : chr ':' ∉ message.address
  failed : message.form ≠ .disconnected →
    ¬ascii " from " <:+: ascii " " ++ message.user ++ ascii " from"
  digits : message.form = .disconnected →
    ∀ byte ∈ message.user, isDigit byte = false ∧ byte ≠ chr '['
  markers : message.form = .disconnected →
    ∀ marker ∈ [ascii "Connection closed by ", ascii "Received disconnect from "],
      ¬marker <:+: ascii " " ++ message.user ++ ascii " "

theorem isDigit_head_of_ipv4 {ip : Bytes} (valid : isValidIp ip = true) (noColon : chr ':' ∉ ip) :
    ∃ byte rest, ip = byte :: rest ∧ isDigit byte = true := by
  rcases inetPton4_of_valid valid (by simpa [isIpv6Addr] using noColon) with ⟨address, parsed⟩
  rcases ip with _ | ⟨byte, rest⟩
  · cases parsed
  rcases mem_of_inetPton4 parsed mem_cons_self with digit | rfl
  · exact ⟨byte, rest, rfl, digit⟩
  · rcases inetPton4_eq_some parsed with ⟨w, x, y, z, a, b, c, d, split, octet, -⟩
    have first : w = [] := by
      rw [List.splitOn_cons_eq_if_modifyHead] at split
      simpa using (List.cons.inj split).1.symm
    rw [first] at octet
    cases octet

theorem leadingAddress_ipv4 {ip : Bytes} (valid : isValidIp ip = true) (noColon : chr ':' ∉ ip)
    (rest : Bytes) : leadingAddress (ip ++ 32 :: rest) = some ip := by
  rcases isDigit_head_of_ipv4 valid noColon with ⟨byte, others, shape, digit⟩
  have notBracket : ip.head? ≠ some (chr '[') := by
    rw [shape, head?_cons, ne_eq, Option.some.injEq]
    exact ne_of_isDigit digit (by decide)
  have plain : ∀ byte ∈ ip, byte ≠ 32 ∧ byte ≠ 9 ∧ byte ≠ chr ':' := by
    intro byte mem
    have isByte := isAddressByte_of_isValidIp valid mem
    exact ⟨ne_of_isAddressByte isByte (by decide), ne_of_isAddressByte isByte (by decide),
      fun colon => noColon (colon ▸ mem)⟩
  have short := length_le_of_isValidIp valid
  have bare : unbracket ip = ip := if_neg fun both => notBracket both.2.2.1
  have given : ¬(ip = [] ∨ ipStrLen ≤ ip.length) := by
    rw [not_or, not_le]
    exact ⟨by simp [shape], lt_of_le_of_lt short (by decide)⟩
  unfold leadingAddress
  rw [ipToken_append plain notBracket, if_neg given, bare, if_pos valid]

theorem addressAfter_from (wellFormed : message.WellFormed) (leaves : message.LeavesAddress)
    (failed : message.form ≠ .disconnected) :
    addressAfter message.claim (ascii " from ") = some message.address := by
  have own : message.form.middle = ascii " from " := by
    rcases form : message.form
    · rfl
    · rfl
    · exact absurd form failed
  have regroup : message.claim = (ascii " " ++ message.user) ++ (ascii " from " ++
      (message.address ++ 32 :: (ascii "port " ++ numeral message.port ++ message.form.ending))) := by
    have word : ascii " port " = 32 :: ascii "port " := by decide
    simp [claim, own, word]
  have passes : Search.Passes (ascii " from ") (ascii " " ++ message.user) (ascii " from " ++
      (message.address ++ 32 :: (ascii "port " ++ numeral message.port ++ message.form.ending))) := by
    intro offset inside stands
    apply leaves.failed failed
    have size : (ascii " from ").length = 6 := by decide
    have word : ascii " from " = ascii " from" ++ [32] := by decide
    have cut : ascii " from " <+: ((ascii " " ++ message.user ++ ascii " from").drop offset) := by
      nth_rewrite 2 [word] at stands
      rw [append_assoc (ascii " from"), ← append_assoc, drop_append_of_le_length (by
        rw [length_append]; omega)] at stands
      apply List.prefix_of_prefix_length_le stands (prefix_append _ _)
      have five : (ascii " from").length = 5 := by decide
      rw [length_drop, length_append, size, five]
      omega
    exact cut.isInfix.trans (drop_suffix _ _).isInfix
  rcases isDigit_head_of_ipv4 wellFormed.valid leaves.ipv4 with ⟨byte, others, shape, digit⟩
  have noSpaces := @dropWhile_word message.address
    (32 :: (ascii "port " ++ numeral message.port ++ message.form.ending)) (by simp [shape]) (by
      rw [shape, head?_cons, ne_eq, Option.some.injEq]
      exact ne_of_isDigit digit (by decide))
  unfold addressAfter
  rw [regroup, Search.after_pattern passes, Option.bind_some, if_neg (by decide), noSpaces,
    leadingAddress_ipv4 wellFormed.valid leaves.ipv4]

theorem named_disconnected (wellFormed : message.WellFormed) (leaves : message.LeavesAddress)
    (form : message.form = .disconnected) : message.named = some message.address := by
  rcases isDigit_head_of_ipv4 wellFormed.valid leaves.ipv4 with ⟨byte, others, shape, digit⟩
  have regroup : message.claim = (ascii " " ++ message.user ++ ascii " ") ++
      (message.address ++ 32 :: (ascii "port " ++ numeral message.port ++ ascii " [preauth]")) := by
    have word : ascii " port " = 32 :: ascii "port " := by decide
    simp [claim, form, SshdForm.middle, SshdForm.ending, word]
  -- A marker has no digit, so it cannot reach into the address, and no byte behind begins one.
  have nowhere : ∀ marker ∈ [ascii "Connection closed by ", ascii "Received disconnect from "],
      addressAfter message.claim marker = none := by
    intro marker isMarker
    have letters : ∀ marker ∈ [ascii "Connection closed by ", ascii "Received disconnect from "],
        (∀ byte ∈ marker, isDigit byte = false) ∧ (chr 'C' ∈ marker ∨ chr 'R' ∈ marker) := by
      decide +kernel
    have foreign : byte ∉ marker := by
      intro mem
      rw [(letters marker isMarker).1 byte mem] at digit
      cases digit
    have passes : Search.Passes marker (ascii " " ++ message.user ++ ascii " " ++ [byte])
        (others ++ 32 :: (ascii "port " ++ numeral message.port ++ ascii " [preauth]")) :=
      Search.passes_of_stop foreign (leaves.markers form marker isMarker)
    have split : message.claim = (ascii " " ++ message.user ++ ascii " " ++ [byte]) ++
        (others ++ 32 :: (ascii "port " ++ numeral message.port ++ ascii " [preauth]")) := by
      rw [regroup, shape]
      simp
    rw [split, addressAfter_append passes]
    have absent : Search.find marker (others ++ 32 :: (ascii "port " ++ numeral message.port ++
        ascii " [preauth]")) = none := by
      rw [Search.find_eq_none_iff]
      intro stands
      have inTail : ∀ letter, letter = chr 'C' ∨ letter = chr 'R' → letter ∉ others ++
          32 :: (ascii "port " ++ numeral message.port ++ ascii " [preauth]") := by
        intro letter isLetter mem
        have notDigit : isDigit letter = false := by rcases isLetter with rfl | rfl <;> decide
        have other : letter ≠ chr '.' ∧ letter ∉ 32 :: ascii "port " ∧
            letter ∉ ascii " [preauth]" := by
          rcases isLetter with rfl | rfl <;> decide
        simp only [mem_append, mem_cons] at mem
        rcases mem with inAddress | rfl | (inWord | inPort) | inEnd
        · rcases inetPton4_of_valid wellFormed.valid (by simpa [isIpv6Addr] using leaves.ipv4) with
            ⟨address, parsed⟩
          rcases mem_of_inetPton4 parsed (shape ▸ mem_cons_of_mem byte inAddress) with isDigit | dot
          · exact Bool.noConfusion (isDigit.symm.trans notDigit)
          · exact other.1 dot
        · exact other.2.1 mem_cons_self
        · exact other.2.1 (mem_cons_of_mem _ inWord)
        · exact Bool.noConfusion ((isDigit_of_mem_numeral inPort).symm.trans notDigit)
        · exact other.2.2 inEnd
      rcases (letters marker isMarker).2 with inMarker | inMarker
      · exact inTail _ (Or.inl rfl) (stands.subset inMarker)
      · exact inTail _ (Or.inr rfl) (stands.subset inMarker)
    rw [addressAfter, Search.after, absent]
    rfl
  have noDigits : ∀ byte ∈ ascii " " ++ message.user ++ ascii " ",
      (!(isDigit byte || byte = chr '[')) = true := by
    intro other mem
    rw [mem_append, mem_append] at mem
    have space : ∀ byte ∈ ascii " ", (!(isDigit byte || byte = chr '[')) = true := by decide
    rcases mem with (first | inUser) | last
    · exact space other first
    · simp [leaves.digits form other inUser]
    · exact space other last
  have token : fromIpToken message.claim = message.address ++
      32 :: (ascii "port " ++ numeral message.port ++ ascii " [preauth]") := by
    rw [regroup, fromIpToken, dropWhile_append_of_pos noDigits, shape, cons_append,
      dropWhile_cons_of_neg (by simp [digit])]
  unfold named
  rw [form]
  dsimp only
  rw [nowhere _ (by simp), nowhere _ (by simp), Option.none_or, Option.none_or, token,
    leadingAddress_ipv4 wellFormed.valid leaves.ipv4]

theorem named_of_leavesAddress (wellFormed : message.WellFormed) (leaves : message.LeavesAddress) :
    message.named = some message.address := by
  rcases form : message.form with _ | _ | _
  · have found := addressAfter_from wellFormed leaves (by simp [form])
    simp [named, form, sshdMarkers, found]
  · have found := addressAfter_from wellFormed leaves (by simp [form])
    simp [named, form, sshdMarkers, found]
  · exact named_disconnected wellFormed leaves form

theorem attributed_iff_named (env : ParserEnv) (wellFormed : message.WellFormed) :
    message.Attributed env ↔ message.named = some message.address := by
  rw [← map_bytes_extract wellFormed]
  have headFirst : message.head <+: message.render := by
    unfold render
    rw [append_assoc, append_assoc]
    exact prefix_append _ _
  have sshd : hasLit message.render (ascii "sshd[") = true := by
    apply Search.find_isSome_iff.mpr
    exact (Search.find_isSome_iff.mp wellFormed.sshd).trans headFirst.isInfix
  have given : message.render ≠ [] := by
    intro empty
    rw [empty] at sshd
    exact absurd sshd (by decide)
  unfold Attributed parseLogLine parseAuthSshdLine
  rw [if_neg given, untampered_render wellFormed, if_pos sshd]
  rcases extractSshdClientIp message.render with _ | view
  · simp
  · simp

end SshdLine

def failedLogin (user : Bytes) : SshdLine where
  head := ascii "Jun 15 10:00:00 web sshd[812]"
  form := .failedPassword
  user := user
  address := ascii "203.0.113.7"
  port := 50514

end LogGuardian
