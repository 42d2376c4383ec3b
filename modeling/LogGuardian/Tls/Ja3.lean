import LogGuardian.Parser.RoundTrip
import LogGuardian.Waf.Headers
import LogGuardian.Tls.Md5
import LogGuardian.Tls.Record

/-!
# The JA3 fingerprint
-/

namespace LogGuardian

open List

/-- `snprintf(ja3_str+pos, sizeof(ja3_str)-pos, i?"-":"" "%u", value)` for the entries of a
list from index `i` on. -/
def printEntries : ℕ → List ℕ → OutCursor → OutCursor
  | _, [], out => out
  | i, value :: rest, out =>
    printEntries (i + 1) rest (printTo 2048 (if i ≠ 0 then ascii "-" else numeral value) out)

/-- The text in `ja3_str`, which is not initialised. -/
def buildJa3 (memory : ℕ → UInt8) (parsed : ParsedHello) : OutCursor :=
  let out := printTo 2048 (numeral parsed.tlsVersion ++ ascii ",") (Buffer.start memory)
  let out := printTo 2048 (ascii ",") (printEntries 0 parsed.ciphers.items out)
  let out := printTo 2048 (ascii ",") (printEntries 0 parsed.extensions.items out)
  let out := printTo 2048 (ascii ",") (printEntries 0 parsed.ellipticCurves.items out)
  printEntries 0 parsed.ecPointFormats.items out

/-- `ja3_hash` of `ja3_parse_client_hello`. -/
def ja3Hash (memory : ℕ → UInt8) (d : Bytes) : Access Bytes := do
  let parsed ← parseClientHello d
  .done (md5Hex (buildJa3 memory parsed).text)

def ja3Fields (list : List ℕ → Bytes) (version : ℕ) (ciphers extensions curves formats : List ℕ) :
    Bytes :=
  (ascii ",").intercalate
    [numeral version, list ciphers, list extensions, list curves, list formats]

def dashed (values : List ℕ) : Bytes := (ascii "-").intercalate (values.map numeral)

def leading : List ℕ → Bytes
  | [] => []
  | value :: rest => numeral value ++ List.replicate rest.length (chr '-')

namespace ClientHello

variable (hello : ClientHello)

def ja3Text : Bytes :=
  ja3Fields dashed hello.version.toNat hello.ciphers hello.kinds hello.curves hello.formats

def leadingText : Bytes :=
  ja3Fields leading hello.version.toNat hello.ciphers hello.kinds hello.curves hello.formats

/-- No list has two entries. -/
structure SingleEntries : Prop where
  ciphers : hello.ciphers.length ≤ 1
  kinds : hello.kinds.length ≤ 1
  curves : hello.curves.length ≤ 1
  formats : hello.formats.length ≤ 1

def TextsCollide : Prop :=
  hello.leadingText ≠ hello.ja3Text ∧
    md5Digits (Md5.digest hello.leadingText) = md5Digits (Md5.digest hello.ja3Text)

end ClientHello

theorem ja3Fields_eq (list : List ℕ → Bytes) (version : ℕ)
    (ciphers extensions curves formats : List ℕ) :
    ja3Fields list version ciphers extensions curves formats =
      (numeral version ++ ascii ",") ++ (list ciphers ++ ascii ",") ++
        (list extensions ++ ascii ",") ++ (list curves ++ ascii ",") ++ list formats := by
  simp [ja3Fields]

/-- The cursor went on by a text. -/
structure Appends (added : Bytes) (out after : OutCursor) : Prop where
  text : after.text = out.text ++ added
  n : after.n = out.n + added.length

variable {out : OutCursor} {values : List ℕ}

theorem Appends.trans {first second : Bytes} {between after : OutCursor}
    (begins : Appends first out between) (ends : Appends second between after) :
    Appends (first ++ second) out after := by
  refine ⟨?_, ?_⟩
  · rw [ends.text, begins.text, append_assoc]
  · rw [ends.n, begins.n, length_append, Nat.add_assoc]

theorem appends_printTo {text : Bytes} (fits : out.n + text.length < 2048) :
    Appends text out (printTo 2048 text out) :=
  ⟨Buffer.text_print (by decide) fits, rfl⟩

theorem appends_printEntries_succ (values : List ℕ) {i : ℕ} (later : i ≠ 0)
    (fits : out.n + values.length < 2048) :
    Appends (List.replicate values.length (chr '-')) out (printEntries i values out) := by
  induction values generalizing i out with
  | nil => exact ⟨(append_nil _).symm, rfl⟩
  | cons value rest ih =>
    have dash : (ascii "-").length = 1 := rfl
    rw [length_cons] at fits
    have printed : Appends (ascii "-") out (printTo 2048 (ascii "-") out) :=
      appends_printTo (by omega)
    rw [printEntries, if_pos later]
    have room : (printTo 2048 (ascii "-") out).n + rest.length < 2048 := by
      rw [printed.n]
      omega
    exact printed.trans (ih (Nat.succ_ne_zero i) room)

theorem appends_printEntries (values : List ℕ) (fits : out.n + (leading values).length < 2048) :
    Appends (leading values) out (printEntries 0 values out) := by
  rcases values with _ | ⟨value, rest⟩
  · exact ⟨(append_nil _).symm, rfl⟩
  · rw [leading, length_append, length_replicate] at fits
    have printed : Appends (numeral value) out (printTo 2048 (numeral value) out) :=
      appends_printTo (by omega)
    have room : (printTo 2048 (numeral value) out).n + rest.length < 2048 := by
      rw [printed.n]
      omega
    exact printed.trans (appends_printEntries_succ rest (by decide) room)

theorem appends_printField (values : List ℕ) (fits : out.n + (leading values).length + 1 < 2048) :
    Appends (leading values ++ ascii ",") out
      (printTo 2048 (ascii ",") (printEntries 0 values out)) := by
  have comma : (ascii ",").length = 1 := rfl
  have entries := appends_printEntries values (show out.n + (leading values).length < 2048 by omega)
  apply entries.trans
  apply appends_printTo
  rw [entries.n]
  omega

theorem length_leading_le (small : ∀ value ∈ values, value < 65536) :
    (leading values).length ≤ 5 + values.length := by
  rcases values with _ | ⟨value, rest⟩
  · exact Nat.zero_le _
  · have fits : value < 10 ^ 5 := lt_trans (small value mem_cons_self) (by norm_num)
    have digits : (numeral value).length ≤ 5 := length_numeral_le (by decide) fits
    rw [leading, length_append, length_replicate, length_cons]
    omega

theorem text_buildJa3 (memory : ℕ → UInt8) (parsed : ParsedHello)
    (version : parsed.tlsVersion < 65536)
    (ciphers : ∀ value ∈ parsed.ciphers.items, value < 65536)
    (extensions : ∀ value ∈ parsed.extensions.items, value < 65536)
    (curves : ∀ value ∈ parsed.ellipticCurves.items, value < 65536)
    (formats : ∀ value ∈ parsed.ecPointFormats.items, value < 65536) :
    (buildJa3 memory parsed).text =
      ja3Fields leading parsed.tlsVersion parsed.ciphers.items parsed.extensions.items
        parsed.ellipticCurves.items parsed.ecPointFormats.items := by
  have digits : (numeral parsed.tlsVersion).length ≤ 5 :=
    length_numeral_le (by decide) (version.trans (by decide))
  have cipherLength := (length_leading_le ciphers).trans (Nat.add_le_add_left parsed.ciphers.fits 5)
  have extensionLength :=
    (length_leading_le extensions).trans (Nat.add_le_add_left parsed.extensions.fits 5)
  have curveLength :=
    (length_leading_le curves).trans (Nat.add_le_add_left parsed.ellipticCurves.fits 5)
  have formatLength :=
    (length_leading_le formats).trans (Nat.add_le_add_left parsed.ecPointFormats.fits 5)
  have comma : (ascii ",").length = 1 := rfl
  have start : (Buffer.start memory).n = 0 := rfl
  let afterVersion := printTo 2048 (numeral parsed.tlsVersion ++ ascii ",") (Buffer.start memory)
  have versionText : Appends (numeral parsed.tlsVersion ++ ascii ",") (Buffer.start memory)
      afterVersion := by
    apply appends_printTo
    rw [length_append]
    omega
  have versionEnd := versionText.n
  rw [length_append] at versionEnd
  have cipherText := appends_printField parsed.ciphers.items
    (show afterVersion.n + _ + 1 < 2048 by omega)
  have cipherEnd := cipherText.n
  rw [length_append] at cipherEnd
  have extensionText := appends_printField parsed.extensions.items
    (show Buffer.Cursor.n _ + _ + 1 < 2048 by rw [cipherEnd]; omega)
  have extensionEnd := extensionText.n
  rw [length_append] at extensionEnd
  have curveText := appends_printField parsed.ellipticCurves.items
    (show Buffer.Cursor.n _ + _ + 1 < 2048 by rw [extensionEnd, cipherEnd]; omega)
  have curveEnd := curveText.n
  rw [length_append] at curveEnd
  have formatText := appends_printEntries parsed.ecPointFormats.items
    (show Buffer.Cursor.n _ + _ < 2048 by rw [curveEnd, extensionEnd, cipherEnd]; omega)
  have whole := (((versionText.trans cipherText).trans extensionText).trans curveText).trans formatText
  have empty : (Buffer.start memory).text = [] := rfl
  have text := whole.text
  rw [empty, nil_append] at text
  rw [ja3Fields_eq]
  exact text

theorem dashed_cons_cons (first second : ℕ) (rest : List ℕ) :
    dashed (first :: second :: rest) = numeral first ++ chr '-' :: dashed (second :: rest) := by
  unfold dashed
  simp [ascii, chr]

theorem leading_eq_dashed (single : values.length ≤ 1) :
    leading values = dashed values := by
  rcases values with _ | ⟨value, _ | ⟨second, rest⟩⟩
  · rfl
  · simp [leading, dashed]
  · simp only [length_cons] at single
    omega

theorem length_le_length_dashed (values : List ℕ) : values.length ≤ (dashed values).length := by
  induction values with
  | nil => exact Nat.zero_le _
  | cons value rest ih =>
    have digit : 0 < (numeral value).length := length_pos_of_ne_nil (numeral_ne_nil value)
    rcases rest with _ | ⟨second, rest⟩
    · simpa [dashed] using Nat.succ_le_of_lt digit
    · rw [dashed_cons_cons, length_append]
      simp only [length_cons] at ih ⊢
      omega

theorem length_leading_lt (several : 1 < values.length) :
    (leading values).length < (dashed values).length := by
  rcases values with _ | ⟨first, _ | ⟨second, rest⟩⟩
  · exact absurd several (by decide)
  · exact absurd several (by simp)
  · have later := length_le_length_dashed (second :: rest)
    rw [length_cons] at later
    rw [dashed_cons_cons, leading, length_append, length_append, length_replicate,
      length_cons, length_cons]
    omega

theorem length_leading_le_dashed (values : List ℕ) :
    (leading values).length ≤ (dashed values).length := by
  rcases Nat.lt_or_ge 1 values.length with several | single
  · exact (length_leading_lt several).le
  · rw [leading_eq_dashed single]

theorem length_ja3Fields (list : List ℕ → Bytes) (version : ℕ)
    (ciphers extensions curves formats : List ℕ) :
    (ja3Fields list version ciphers extensions curves formats).length =
      (numeral version).length + (list ciphers).length + (list extensions).length +
        (list curves).length + (list formats).length + 4 := by
  rw [ja3Fields_eq]
  simp only [length_append, show (ascii ",").length = 1 from rfl]
  omega

namespace ClientHello

variable (hello : ClientHello)

theorem leadingText_eq_iff : hello.leadingText = hello.ja3Text ↔ hello.SingleEntries := by
  constructor
  · intro same
    have lengths := congrArg length same
    unfold leadingText ja3Text at lengths
    rw [length_ja3Fields, length_ja3Fields] at lengths
    have ciphers := length_leading_le_dashed hello.ciphers
    have kinds := length_leading_le_dashed hello.kinds
    have curves := length_leading_le_dashed hello.curves
    have formats := length_leading_le_dashed hello.formats
    refine ⟨?_, ?_, ?_, ?_⟩
    · by_contra several
      have shorter := length_leading_lt (Nat.not_le.mp several)
      omega
    · by_contra several
      have shorter := length_leading_lt (Nat.not_le.mp several)
      omega
    · by_contra several
      have shorter := length_leading_lt (Nat.not_le.mp several)
      omega
    · by_contra several
      have shorter := length_leading_lt (Nat.not_le.mp several)
      omega
  · intro single
    unfold leadingText ja3Text ja3Fields
    rw [leading_eq_dashed single.ciphers, leading_eq_dashed single.kinds,
      leading_eq_dashed single.curves, leading_eq_dashed single.formats]

theorem values_small :
    (∀ value ∈ hello.ciphers, value < 65536) ∧ (∀ value ∈ hello.kinds, value < 65536) ∧
      (∀ value ∈ hello.curves, value < 65536) ∧ (∀ value ∈ hello.formats, value < 65536) := by
  refine ⟨?_, ?_, ?_, ?_⟩
  · intro value mem
    rcases List.mem_map.mp (mem_of_mem_filter mem) with ⟨suite, -, rfl⟩
    exact suite.toNat_lt
  · intro value mem
    rcases List.mem_map.mp (mem_of_mem_filter mem) with ⟨extension, -, rfl⟩
    exact extension.kind_lt
  · intro value mem
    rcases List.mem_flatMap.mp (mem_of_mem_filter mem) with ⟨extension, -, inList⟩
    cases extension with
    | supportedGroups groups =>
      rcases List.mem_map.mp inList with ⟨group, -, rfl⟩
      exact group.toNat_lt
    | ecPointFormats formats => exact absurd inList not_mem_nil
    | other kind body => exact absurd inList not_mem_nil
  · intro value mem
    rcases List.mem_flatMap.mp mem with ⟨extension, -, inList⟩
    cases extension with
    | supportedGroups groups => exact absurd inList not_mem_nil
    | ecPointFormats formats =>
      rcases List.mem_map.mp inList with ⟨format, -, rfl⟩
      exact format.toNat_lt.trans (by decide)
    | other kind body => exact absurd inList not_mem_nil

theorem ja3Hash_record (memory : ℕ → UInt8) (limits : hello.WithinLimits) :
    ja3Hash memory hello.record = .done (md5Digits (Md5.digest hello.leadingText)) := by
  rcases hello.parseClientHello_record limits with
    ⟨parsed, done, version, ciphers, extensions, curves, formats⟩
  rcases hello.values_small with ⟨cipherSmall, kindSmall, curveSmall, formatSmall⟩
  have text := text_buildJa3 memory parsed (by rw [version]; exact hello.version.toNat_lt)
    (by rw [ciphers]; exact cipherSmall) (by rw [extensions]; exact kindSmall)
    (by rw [curves]; exact curveSmall) (by rw [formats]; exact formatSmall)
  rw [version, ciphers, extensions, curves, formats] at text
  rw [ja3Hash, done, Access.done_bind, md5Hex_eq, text]
  rfl

/-- The fingerprint of a well-formed ClientHello is the one of the JA3 specification exactly if
no list has two entries, unless the text that is hashed instead has the same digest. -/
theorem ja3Hash_eq_specified_iff (memory : ℕ → UInt8) (limits : hello.WithinLimits) :
    ja3Hash memory hello.record = .done (md5Digits (Md5.digest hello.ja3Text)) ↔
      hello.SingleEntries ∨ hello.TextsCollide := by
  rw [hello.ja3Hash_record memory limits]
  constructor
  · intro same
    by_cases single : hello.SingleEntries
    · exact Or.inl single
    · right
      exact ⟨fun texts => single (hello.leadingText_eq_iff.mp texts), Access.done.inj same⟩
  · rintro (single | collide)
    · rw [hello.leadingText_eq_iff.mpr single]
    · rw [collide.2]

end ClientHello

theorem length_noSession : ([] : Bytes).length < 256 := by decide

theorem length_noCompression : ([0] : Bytes).length < 256 := by decide

theorem valid_oneGroup : ∀ list ∈ some [HelloExtension.supportedGroups [0x001d]], ∀ extension ∈ list,
    extension.Valid := by
  simp [HelloExtension.Valid]

theorem length_sampleRecord (suites : List UInt16) (few : suites.length ≤ 100) :
    (HelloFields.record ⟨0x0301, 0x0303, List.replicate 32 7, [], suites, [0],
      some [.supportedGroups [0x001d]]⟩).length < 65536 := by
  simp only [HelloFields.record, HelloFields.message, HelloFields.block, List.length_cons,
    List.length_append, length_wordBytes, length_wordListBytes, List.length_replicate]
  simp only [List.flatMap_cons, List.flatMap_nil, List.append_nil, HelloExtension.length_bytes,
    length_groups_body, List.length_nil, List.length_cons]
  omega

def sampleHello (suites : List UInt16) (few : suites.length ≤ 100) : ClientHello where
  recordVersion := 0x0301
  version := 0x0303
  random := List.replicate 32 7
  sessionId := []
  cipherSuites := suites
  compressionMethods := [0]
  extensions := some [.supportedGroups [0x001d]]
  random_length := List.length_replicate
  sessionId_length := length_noSession
  compressionMethods_length := length_noCompression
  extensions_valid := valid_oneGroup
  record_length := length_sampleRecord suites few

theorem sampleHello_withinLimits (suites : List UInt16) (few : suites.length ≤ 64) :
    (sampleHello suites (few.trans (by decide))).WithinLimits := by
  refine ⟨?_, ?_, ?_, Nat.zero_le 16⟩
  · exact (length_filter_le _ _).trans ((length_map _).trans_le few)
  · exact show (ClientHello.withoutGrease [0x000a]).length ≤ 32 by decide
  · exact show (ClientHello.withoutGrease [0x001d]).length ≤ 32 by decide

theorem ja3Hash_specified_oneCipher :
    (sampleHello [0x1301] (by decide)).WithinLimits ∧
      ja3Hash (fun _ => 0) (sampleHello [0x1301] (by decide)).record =
        .done (md5Digits (Md5.digest (sampleHello [0x1301] (by decide)).ja3Text)) :=
  ⟨sampleHello_withinLimits [0x1301] (by decide),
    (ClientHello.ja3Hash_eq_specified_iff _ _
      (sampleHello_withinLimits [0x1301] (by decide))).mpr
      (Or.inl ⟨by decide, by decide, by decide, by decide⟩)⟩

/-- Two cipher suites are hashed as `771,4865-,10,29,` and not as `771,4865-4866,10,29,`. -/
theorem ja3Hash_twoCiphers_ne_specified :
    (sampleHello [0x1301, 0x1302] (by decide)).leadingText = ascii "771,4865-,10,29," ∧
      (sampleHello [0x1301, 0x1302] (by decide)).ja3Text = ascii "771,4865-4866,10,29," ∧
      ja3Hash (fun _ => 0) (sampleHello [0x1301, 0x1302] (by decide)).record ≠
        .done (md5Digits (Md5.digest (sampleHello [0x1301, 0x1302] (by decide)).ja3Text)) := by
  refine ⟨by decide, by decide, ?_⟩
  intro same
  exact absurd (Access.done.inj same) (by decide +kernel)

end LogGuardian
