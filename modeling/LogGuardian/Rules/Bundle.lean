import LogGuardian.Api.Query
import LogGuardian.Crypto.Sha256
import LogGuardian.Firewall.Targets
import LogGuardian.Fleet.Agent
import LogGuardian.Lib.JsonObject

/-!
# The manifest of the rules

`rules_bundle_verify.c` takes the manifest for a text in which it searches names; here the text is a
JSON object with members, and a verified file is one that a member lists.
-/

namespace LogGuardian

open List

def isXdigit (byte : UInt8) : Bool :=
  isDigit byte || (65 ≤ byte && byte ≤ 70) || (97 ≤ byte && byte ≤ 102)

/-- `sha256_file_hex` of a file that `fread` returns in chunks. -/
def sha256FileHex (chunks : List Bytes) : Bytes :=
  hexText (sha256Final (chunks.foldl sha256Update sha256Init))

def basenameOnly (path : Bytes) : Bytes := (path.reverse.takeWhile (· ≠ chr '/')).reverse

def bundleNeedle (name : Bytes) : Bytes := copyInto 512 (Json.quoted name)

def findEntry (json key : Bytes) : Option Bytes :=
  (findLit json (bundleNeedle key)).or
    ((findLit json (bundleNeedle (basenameOnly key))).or
      (findLit json (bundleNeedle (ascii "rules/" ++ basenameOnly key))))

/-- The digits of `extract_sha_for_key` behind the colon, into 65 bytes. -/
def readDigits (text : Bytes) : Option Bytes :=
  let value := text.dropWhile isSpace
  if value.head? ≠ some (chr '"') then none
  else
    let digits := ((value.drop 1).takeWhile (· ≠ chr '"')).take 64
    if digits.all isXdigit ∧ digits.length = 64 then some (digits.map toLower) else none

def readSha (p : Bytes) : Option Bytes :=
  (strchr p (chr ':')).bind fun colon => readDigits (colon.drop 1)

def extractShaForKey (json key : Bytes) : Option Bytes := (findEntry json key).bind readSha

structure BundleFiles where
  manifest : Option Bytes
  rules : Option (List Bytes)

def rulesBundleVerifyFile (files : BundleFiles) (rulesPath manifestPath : Bytes) : ℤ :=
  if rulesPath = [] ∨ manifestPath = [] then 0
  else
    match files.manifest with
    | none => 0
    | some json =>
      if json.length = 0 ∨ json.length > 65536 then -1
      else
        match (extractShaForKey json rulesPath).or
            (extractShaForKey json (basenameOnly rulesPath)) with
        | none => -1
        | some expect =>
          match files.rules with
          | none => -1
          | some chunks => if secureEquals expect (sha256FileHex chunks) then 0 else -1

def bundleNames (path : Bytes) : List Bytes :=
  [path, basenameOnly path, ascii "rules/" ++ basenameOnly path]

/-- 64 hexadecimal digits. -/
def IsDigest (digits : Bytes) : Prop := digits.length = 64 ∧ ∀ byte ∈ digits, isXdigit byte = true

/-- A string value of 64 hexadecimal digits that is the hash of the file. -/
def IsHashOf (value file : Bytes) : Prop :=
  ∃ digits, value = Json.quoted digits ∧ IsDigest digits ∧
    digits.map toLower = hexText (Sha256.digest file)

/-- The manifest lists the file with its hash. -/
def ListsHash (members : List Json.Member) (path file : Bytes) : Prop :=
  ∃ member ∈ members, member.name ∈ bundleNames path ∧ IsHashOf member.value file

def fromKey (member : Json.Member) (rest : Bytes) : Bytes :=
  Json.quoted member.key ++ (member.afterKey ++ chr ':' :: (member.beforeValue ++ (member.value ++ rest)))

/-- The first place where the quoted name stands is the key of a member with that name, and its
value is no string of more than 64 bytes. -/
def FoundAtKey (json : Bytes) (members : List Json.Member) (name : Bytes) : Prop :=
  ∀ p, findLit json (Json.quoted name) = some p →
    ∃ member ∈ members, member.name = name ∧ (∃ rest, p = fromKey member rest) ∧
      ∀ content, member.value = Json.quoted content → content.length ≤ 64

/-- The first of some names that stands in quotes in the manifest. -/
def firstStanding (json : Bytes) (names : List Bytes) : Option Bytes :=
  names.find? fun name => Json.quoted name <:+: json

/-- The names that are searched are found at their entries: the first of the three that stands in the
manifest and, if its entry has no digest or its key a colon, the first of the last two. -/
structure PlainManifest (json : Bytes) (members : List Json.Member) (path : Bytes) : Prop where
  named : path ≠ []
  short : path.length ≤ 509 ∧ (basenameOnly path).length ≤ 503
  first : ∀ name ∈ firstStanding json (bundleNames path), FoundAtKey json members name
  second : (∀ name ∈ firstStanding json (bundleNames path), ∃ member ∈ members,
      member.name = name ∧ (chr ':' ∈ member.key ∨
        ∀ digits, member.value = Json.quoted digits → ¬IsDigest digits)) →
    ∀ name ∈ firstStanding json (bundleNames path).tail, FoundAtKey json members name

theorem basenameOnly_idem (path : Bytes) : basenameOnly (basenameOnly path) = basenameOnly path := by
  rw [basenameOnly, basenameOnly, reverse_reverse, takeWhile_takeWhile]
  simp

theorem bundleNeedle_of_short {name : Bytes} (short : name.length ≤ 509) :
    bundleNeedle name = Json.quoted name := by
  rw [bundleNeedle, copyInto_of_length_lt]
  simp only [Json.quoted, length_cons, length_append, length_nil]
  omega

variable {gap rest key content found : Bytes} {byte : UInt8}

theorem isSpace_of_spaces (spaces : Json.Spaces gap) :
    ∀ byte ∈ gap, isSpace byte = true := by
  intro byte mem
  have space := spaces byte mem
  simp only [Json.isSpace, Bool.or_eq_true, decide_eq_true_eq] at space
  rcases space with ((rfl | rfl) | rfl) | rfl <;> decide

theorem dropWhile_gap (spaces : Json.Spaces gap) (solid : isSpace byte = false) :
    (gap ++ byte :: rest).dropWhile isSpace = byte :: rest := by
  rw [dropWhile_append_of_pos (isSpace_of_spaces spaces),
    dropWhile_cons_of_neg (by simp [solid])]

theorem next_of_isSpace (space : isSpace byte = true) (state : Json.NumberState) :
    Json.NumberState.next state byte = none := by
  have cases : byte = 32 ∨ byte = 9 ∨ byte = 10 ∨ byte = 11 ∨ byte = 12 ∨ byte = 13 := by
    simp only [isSpace, Bool.or_eq_true, Bool.and_eq_true, decide_eq_true_eq] at space
    rcases space with rfl | ⟨low, high⟩
    · exact .inl rfl
    · simp only [← UInt8.toNat_inj]
      have bounds : 9 ≤ byte.toNat ∧ byte.toNat ≤ 13 := ⟨low, high⟩
      right
      change byte.toNat = 9 ∨ byte.toNat = 10 ∨ byte.toNat = 11 ∨ byte.toNat = 12 ∨ byte.toNat = 13
      omega
  rcases cases with rfl | rfl | rfl | rfl | rfl | rfl <;> cases state <;> rfl

theorem head_of_isValue {kind : Json.Kind} {value : Bytes} (isValue : Json.IsValue kind value) :
    ∃ byte tail, value = byte :: tail ∧ isSpace byte = false ∧
      (byte = chr '"' → ∃ content, value = Json.quoted content) := by
  cases isValue with
  | @string text content => exact ⟨_, _, rfl, by decide, fun _ => ⟨text, rfl⟩⟩
  | number isNumber =>
    rcases value with _ | ⟨byte, tail⟩
    · exact absurd rfl (Json.number_ne_nil isNumber)
    · refine ⟨byte, tail, rfl, ?_, ?_⟩
      · by_contra space
        rw [Bool.not_eq_false] at space
        exact Json.ne_of_mem_number isNumber mem_cons_self (next_of_isSpace space) rfl
      · intro quote
        have stuck : ∀ state, Json.NumberState.next state (chr '"') = none := by
          intro state
          cases state <;> rfl
        exact absurd quote (Json.ne_of_mem_number isNumber mem_cons_self stuck)
  | isTrue => exact ⟨_, _, rfl, by decide, fun quote => absurd quote (by decide)⟩
  | isFalse => exact ⟨_, _, rfl, by decide, fun quote => absurd quote (by decide)⟩
  | null => exact ⟨_, _, rfl, by decide, fun quote => absurd quote (by decide)⟩
  | emptyObject => exact ⟨_, _, rfl, by decide, fun quote => absurd quote (by decide)⟩
  | object => exact ⟨_, _, rfl, by decide, fun quote => absurd quote (by decide)⟩
  | emptyArray => exact ⟨_, _, rfl, by decide, fun quote => absurd quote (by decide)⟩
  | array => exact ⟨_, _, rfl, by decide, fun quote => absurd quote (by decide)⟩

theorem readSha_of_colon {before after : Bytes} (first : chr ':' ∉ before) :
    readSha (before ++ chr ':' :: after) = readDigits after := by
  rw [readSha, strchr_append first]
  rfl

theorem readDigits_inside_key {front back : Bytes} (content : Json.IsContent key)
    (colon : key = front ++ chr ':' :: back) (other : byte ≠ chr '"')
    (noDigit : isXdigit byte = false) :
    readDigits (back ++ chr '"' :: (byte :: rest)) = none := by
  rw [readDigits, dropWhile_append]
  by_cases blank : (back.dropWhile isSpace).isEmpty = true
  · rw [if_pos blank, dropWhile_cons_of_neg (by decide)]
    rw [drop_one, tail_cons, takeWhile_cons_of_pos (by simpa using other)]
    simp [noDigit]
  · rw [if_neg blank]
    rcases split : back.dropWhile isSpace with _ | ⟨head, tail⟩
    · simp [split] at blank
    · rw [cons_append, if_pos]
      intro isQuote
      have whole : key = (front ++ chr ':' :: back.takeWhile isSpace) ++ 0x22 :: tail := by
        have headQuote : head = 0x22 := Option.some.inj isQuote
        rw [← headQuote, append_assoc, cons_append, ← split, takeWhile_append_dropWhile]
        exact colon
      rw [whole] at content
      have slash := content.getLast?_of_quote
      rw [getLast?_append, getLast?_cons] at slash
      rcases eq_nil_or_concat (back.takeWhile isSpace) with none | ⟨init, last, some⟩
      · rw [none] at slash
        have isSlash : chr ':' = 0x5c := by simpa using slash
        exact absurd isSlash (by decide)
      · have space : isSpace last = true := by
          apply mem_takeWhile_imp (l := back)
          rw [some]
          simp
        rw [some] at slash
        simp at slash
        rw [slash] at space
        exact absurd space (by decide)

theorem readDigits_string (spaces : Json.Spaces gap) (short : content.length ≤ 64)
    (read : readDigits (gap ++ (Json.quoted content ++ rest)) = some found) :
    IsDigest content ∧ found = content.map toLower := by
  have value : (gap ++ (Json.quoted content ++ rest)).dropWhile isSpace =
      chr '"' :: (content ++ chr '"' :: rest) := by
    rw [Json.quoted, cons_append, dropWhile_gap spaces (by decide), append_assoc]
    rfl
  rw [readDigits, value] at read
  simp only [head?_cons, ne_eq, not_true_eq_false, if_false, drop_one, tail_cons] at read
  split at read
  · rename_i digits
    have whole : (content ++ chr '"' :: rest).takeWhile (· ≠ chr '"') = content := by
      by_contra cut
      have quote : chr '"' ∈ content := by
        by_contra noQuote
        apply cut
        rw [takeWhile_append_of_pos, takeWhile_cons_of_neg (by simp), append_nil]
        intro byte mem
        simpa using fun same : byte = chr '"' => noQuote (same ▸ mem)
      rcases eq_append_cons_of_mem quote with ⟨before, after, rfl, absent⟩
      have stops : ((before ++ chr '"' :: after) ++ chr '"' :: rest).takeWhile (· ≠ chr '"') = before := by
        rw [append_assoc, cons_append, takeWhile_append_of_pos,
          takeWhile_cons_of_neg (by simp), append_nil]
        intro byte mem
        simpa using fun same : byte = chr '"' => absent (same ▸ mem)
      have length := digits.2
      rw [stops, length_take] at length
      simp only [length_append, length_cons] at short
      omega
    rw [whole, take_of_length_le short] at digits read
    exact ⟨⟨digits.2, List.all_eq_true.mp digits.1⟩, (Option.some.inj read).symm⟩
  · cases read

theorem readDigits_of_isDigest (spaces : Json.Spaces gap) (digest : IsDigest content) (rest : Bytes) :
    readDigits (gap ++ (Json.quoted content ++ rest)) = some (content.map toLower) := by
  have value : (gap ++ (Json.quoted content ++ rest)).dropWhile isSpace =
      chr '"' :: (content ++ chr '"' :: rest) := by
    rw [Json.quoted, cons_append, dropWhile_gap spaces (by decide), append_assoc]
    rfl
  have whole : (content ++ chr '"' :: rest).takeWhile (· ≠ chr '"') = content := by
    rw [takeWhile_append_of_pos, takeWhile_cons_of_neg (by simp), append_nil]
    intro byte mem
    have digit := digest.2 byte mem
    have other : byte ≠ chr '"' := by
      rintro rfl
      exact absurd digit (by decide)
    simpa using other
  rw [readDigits, value]
  simp only [head?_cons, ne_eq, not_true_eq_false, if_false, drop_one, tail_cons, whole]
  rw [take_of_length_le digest.1.le, if_pos ⟨List.all_eq_true.mpr digest.2, digest.1⟩]

theorem readSha_fromKey_of_not_mem {member : Json.Member} (framed : member.Framed)
    (noColon : chr ':' ∉ member.key) :
    readSha (fromKey member rest) = readDigits (member.beforeValue ++ (member.value ++ rest)) := by
  have gap : chr ':' ∉ member.afterKey := fun mem => absurd (framed.afterKey _ mem) (by decide)
  have regroup : fromKey member rest = (chr '"' :: (member.key ++ chr '"' :: member.afterKey)) ++
      chr ':' :: (member.beforeValue ++ (member.value ++ rest)) := by
    rw [fromKey, Json.quoted]
    simp only [cons_append, append_assoc]
    rfl
  rw [regroup, readSha_of_colon]
  simp only [mem_cons, mem_append, not_or]
  exact ⟨by decide, noColon, by decide, gap⟩

theorem readSha_fromKey {member : Json.Member} (valid : member.Valid)
    (short : ∀ content, member.value = Json.quoted content → content.length ≤ 64)
    (read : readSha (fromKey member rest) = some found) :
    ∃ digits, member.value = Json.quoted digits ∧ IsDigest digits ∧
      found = digits.map toLower := by
  rcases valid with ⟨framed, kind, isValue⟩
  by_cases colon : chr ':' ∈ member.key
  · -- The first colon is the one in the key.
    rcases eq_append_cons_of_mem colon with ⟨front, back, split, absent⟩
    have regroup : fromKey member rest = (chr '"' :: front) ++ chr ':' :: (back ++ chr '"' ::
        (member.afterKey ++ chr ':' :: (member.beforeValue ++ (member.value ++ rest)))) := by
      rw [fromKey, Json.quoted, split]
      simp only [cons_append, append_assoc]
      rfl
    rw [regroup, readSha_of_colon (by simp [absent]; decide)] at read
    rcases gap : member.afterKey with _ | ⟨space, more⟩
    · rw [gap, nil_append,
        readDigits_inside_key framed.key split (by decide) (by decide)] at read
      cases read
    · have isGap : Json.isSpace space = true := framed.afterKey space (by rw [gap]; exact mem_cons_self)
      have cases : space = 0x20 ∨ space = 0x09 ∨ space = 0x0a ∨ space = 0x0d := by
        simp only [Json.isSpace, Bool.or_eq_true, decide_eq_true_eq] at isGap
        tauto
      rw [gap, cons_append, readDigits_inside_key framed.key split] at read
      · cases read
      · rcases cases with rfl | rfl | rfl | rfl <;> decide
      · rcases cases with rfl | rfl | rfl | rfl <;> decide
  · rw [readSha_fromKey_of_not_mem framed colon] at read
    rcases head_of_isValue isValue with ⟨byte, tail, split, solid, string⟩
    by_cases quote : byte = chr '"'
    · rcases string quote with ⟨content, isQuoted⟩
      rw [isQuoted] at read
      exact ⟨content, isQuoted, readDigits_string framed.beforeValue (short content isQuoted) read⟩
    · rw [split, cons_append, readDigits, dropWhile_gap framed.beforeValue solid] at read
      simp [quote] at read

theorem nul_not_mem_hexText (bytes : Bytes) : 0 ∉ hexText bytes := fun mem =>
  absurd (mem_hexText mem) (by decide)

theorem nul_not_mem_map_toLower {digits : Bytes} (hex : ∀ byte ∈ digits, isXdigit byte = true) :
    0 ∉ digits.map toLower := by
  intro mem
  rcases List.mem_map.mp mem with ⟨byte, isDigit, lower⟩
  have low : byte = 0 := by
    by_contra nonzero
    have letter := hex byte isDigit
    rw [toLower] at lower
    split at lower
    · rename_i upper
      simp only [Bool.and_eq_true, decide_eq_true_eq] at upper
      have sum : (byte + 32).toNat = 0 := by rw [lower]; rfl
      have bounds : 65 ≤ byte.toNat ∧ byte.toNat ≤ 90 := upper
      have sum' : (byte.toNat + 32) % 256 = 0 := sum
      omega
    · exact nonzero lower
  have letter := hex byte isDigit
  rw [low] at letter
  exact absurd letter (by decide)

theorem sha256FileHex_eq (chunks : List Bytes) :
    sha256FileHex chunks = hexText (Sha256.digest chunks.flatten) := by
  rw [sha256FileHex, foldl_sha256Update, sha256Final_sha256Update]

section Verify

variable {json path : Bytes} {members : List Json.Member}

theorem findLit_first (names : List Bytes) :
    (∀ name ∈ firstStanding json names, (names.findSome? fun name => findLit json (Json.quoted name)) =
        findLit json (Json.quoted name)) ∧
      (firstStanding json names = none →
        (names.findSome? fun name => findLit json (Json.quoted name)) = none) := by
  induction names with
  | nil => simp [firstStanding]
  | cons name names ih =>
    have standing : Json.quoted name <:+: json ↔ (findLit json (Json.quoted name)).isSome := by
      rw [← Search.find_isSome_iff, findLit, Option.isSome_map]
    by_cases stands : Json.quoted name <:+: json
    · rcases Option.isSome_iff_exists.mp (standing.mp stands) with ⟨p, found⟩
      simp [firstStanding, stands, found]
    · have missing := Option.not_isSome_iff_eq_none.mp (fun isSome => stands (standing.mpr isSome))
      simpa [firstStanding, stands, missing] using ih

theorem findEntry_eq (short : path.length ≤ 509 ∧ (basenameOnly path).length ≤ 503) :
    findEntry json path =
        (bundleNames path).findSome? (fun name => findLit json (Json.quoted name)) ∧
      findEntry json (basenameOnly path) =
        (bundleNames path).tail.findSome? fun name => findLit json (Json.quoted name) := by
  have shortRules : (ascii "rules/" ++ basenameOnly path).length ≤ 509 := by
    rw [length_append, show (ascii "rules/").length = 6 by decide]
    omega
  unfold findEntry bundleNames
  rw [basenameOnly_idem, bundleNeedle_of_short short.1, bundleNeedle_of_short (by omega),
    bundleNeedle_of_short shortRules]
  simp only [tail_cons, findSome?_cons, findSome?_nil]
  rcases findLit json (Json.quoted path) <;> rcases findLit json (Json.quoted (basenameOnly path)) <;>
    rcases findLit json (Json.quoted (ascii "rules/" ++ basenameOnly path)) <;> simp

/-- What is read at the first name that stands in the manifest is read at an entry with that name. -/
theorem read_first {names : List Bytes} (allValid : ∀ member ∈ members, member.Valid)
    (found : ∀ name ∈ firstStanding json names, FoundAtKey json members name) {sha : Option Bytes}
    (read : (names.findSome? fun name => findLit json (Json.quoted name)).bind readSha = sha) :
    (∀ digest ∈ sha, ∃ member ∈ members, member.name ∈ names ∧
      ∃ digits, member.value = Json.quoted digits ∧ IsDigest digits ∧ digest = digits.map toLower) ∧
    (sha = none → ∀ name ∈ firstStanding json names, ∃ member ∈ members, member.name = name ∧
      (chr ':' ∈ member.key ∨ ∀ digits, member.value = Json.quoted digits → ¬IsDigest digits)) := by
  rcases first : firstStanding json names with _ | name
  · rw [(findLit_first names).2 first, Option.bind_none] at read
    simp [← read]
  have isName := mem_of_find?_eq_some first
  rw [(findLit_first names).1 name first] at read
  have stands : Json.quoted name <:+: json := by simpa using find?_some first
  rw [← Search.find_isSome_iff, Option.isSome_iff_exists] at stands
  rcases stands with ⟨position, isPosition⟩
  have place : findLit json (Json.quoted name) = some (json.drop position) := by
    rw [findLit, isPosition, Option.map_some]
  rcases found name first _ place with ⟨member, isMember, named, ⟨rest, isPlace⟩, short⟩
  have valid := allValid member isMember
  rw [place, Option.bind_some, isPlace] at read
  constructor
  · intro digest isDigest
    rw [isDigest] at read
    exact ⟨member, isMember, named ▸ isName, readSha_fromKey valid short read⟩
  · rintro nothing other ⟨⟩
    refine ⟨member, isMember, named, ?_⟩
    by_contra both
    push Not at both
    rcases both with ⟨noColon, digits, isValue, digest⟩
    rw [readSha_fromKey_of_not_mem valid.1 noColon, isValue,
      readDigits_of_isDigest valid.1.beforeValue digest, nothing] at read
    cases read

end Verify

def stringMember (key content : Bytes) : Json.Member := ⟨[], key, [], [], Json.quoted content, []⟩

def manifestText (members : List Json.Member) : Bytes :=
  0x7b :: (Json.commas (members.map Json.Member.text) ++ [0x7d])

theorem valid_stringMember (isKey : Json.IsContent key) (isContent : Json.IsContent content) :
    (stringMember key content).Valid := by
  have noSpaces : Json.Spaces [] := fun _ mem => absurd mem not_mem_nil
  exact ⟨⟨noSpaces, isKey, noSpaces, noSpaces, noSpaces⟩, .string, .string isContent⟩

theorem isObject_manifestText {members : List Json.Member} (nonempty : members ≠ [])
    (valid : ∀ member ∈ members, member.Valid) : Json.IsObject (manifestText members) members :=
  Json.isObject_compact nonempty valid

def emptyHash : Bytes := ascii "e3b0c44298fc1c149afbf4c8996fb92427ae41e4649b934ca495991b7852b855"

def rulesText : Bytes := ascii "WAF_LFI=1\n"

def rulesHash : Bytes := ascii "5a97a441c9287031a538ecb84f70c38d0b05c45afae59e5a91322beecb970c00"

/-- The file is listed under its name, and another entry only mentions it. -/
def listedMembers : List Json.Member :=
  [stringMember (ascii "r.conf") rulesHash, stringMember (ascii "note") (ascii "rules/r.conf")]

theorem plainManifest_listed :
    PlainManifest (manifestText listedMembers) listedMembers (ascii "r.conf") := by
  have first : firstStanding (manifestText listedMembers) (bundleNames (ascii "r.conf")) =
      some (ascii "r.conf") := by decide +kernel
  have second : firstStanding (manifestText listedMembers) (bundleNames (ascii "r.conf")).tail =
      some (ascii "r.conf") := by decide +kernel
  have found : FoundAtKey (manifestText listedMembers) listedMembers (ascii "r.conf") := by
    intro p isFound
    have place : findLit (manifestText listedMembers) (Json.quoted (ascii "r.conf")) =
        some (fromKey (stringMember (ascii "r.conf") rulesHash)
          (ascii ",\"note\":\"rules/r.conf\"\x7d")) := by decide +kernel
    refine ⟨_, mem_cons_self, by decide, ⟨_, Option.some.inj (isFound.symm.trans place)⟩, ?_⟩
    intro content isValue
    have same : rulesHash ++ [0x22] = content ++ [0x22] := (List.cons.inj isValue).2
    rw [← append_cancel_right same]
    decide
  refine ⟨by decide, by decide, ?_, fun _ => ?_⟩
  · rintro name isName
    rw [first] at isName
    cases isName
    exact found
  · rintro name isName
    rw [second] at isName
    cases isName
    exact found

def mentionedMembers : List Json.Member :=
  [stringMember (ascii "note") (ascii "r.conf"), stringMember (ascii "x") emptyHash]

end LogGuardian
