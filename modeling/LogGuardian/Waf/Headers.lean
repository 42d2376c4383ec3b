import LogGuardian.Bytes
import LogGuardian.Lib.Buffer

/-!
# The header JSON of a request
-/

namespace LogGuardian

open List

abbrev OutCursor := Buffer.Cursor UInt8

/-- `n += snprintf(out + n, out_sz - n, ...)` with a 64-bit `size_t`. -/
def printTo (size : ℕ) (text : Bytes) (out : OutCursor) : OutCursor :=
  Buffer.print 0 (2 ^ 64) size text out

def mustEscape (byte : UInt8) : Bool := byte = chr '"' || byte = chr '\\'

def escapeInto (guarded : Bool) (size : ℕ) : Bytes → OutCursor → OutCursor
  | [], out => out
  | byte :: rest, out =>
    if out.n + 2 < size then
      let escaped := if mustEscape byte then Buffer.put (chr '\\') out else out
      escapeInto guarded size rest
        (if !guarded || escaped.n + 1 < size then Buffer.put byte escaped else escaped)
    else out

structure HeaderField where
  guarded : Bool
  name : Bytes
  value : Bytes
  deriving DecidableEq, Repr

namespace HeaderField

def label (field : HeaderField) : Bytes := ascii "\"" ++ field.name ++ ascii "\":\""

end HeaderField

/-- A section of the builder, with the flag `first`. -/
def putField (size : ℕ) (state : Bool × OutCursor) (field : HeaderField) : Bool × OutCursor :=
  let out :=
    if !state.1 && state.2.n + 1 < size then Buffer.put (chr ',') state.2 else state.2
  let out := printTo size field.label out
  let out := escapeInto field.guarded size field.value out
  (false, if out.n + 1 < size then Buffer.put (chr '"') out else out)

/-- The tokens of `strtok(buf, ";")` on the cookie in its buffer of 512 bytes. -/
def cookieTokens (cookie : Bytes) : List Bytes :=
  (((copyInto 512 cookie).takeWhile (· ≠ 0)).splitOn (chr ';')).filter (· ≠ [])

def cookieField (token : Bytes) : Option HeaderField :=
  let text := token.dropWhile (· = 32)
  if chr '=' ∈ text then
    let key := (text.takeWhile (· ≠ chr '=')).dropWhile (· = 32)
    if key = [] then none else some ⟨false, key, (text.dropWhile (· ≠ chr '=')).drop 1⟩
  else none

def headerFields (userAgent host cookie : Bytes) : List HeaderField :=
  (if userAgent = [] then [] else [⟨true, ascii "User-Agent", userAgent⟩]) ++
    (if host = [] then [] else [⟨true, ascii "Host", host⟩]) ++
    (cookieTokens cookie).filterMap cookieField

/-- `build_headers_json` into a buffer of `size` bytes of any content. -/
def buildHeadersJson (userAgent host cookie : Bytes) (size : ℕ) (memory : ℕ → UInt8) : OutCursor :=
  if size < 4 then Buffer.start memory
  else
    let opened := Buffer.put (chr '\x7b') (Buffer.start memory)
    let out := ((headerFields userAgent host cookie).foldl (putField size) (true, opened)).2
    let out := if out.n + 1 < size then Buffer.put (chr '\x7d') out else out
    Buffer.terminate 0 out

def escapeOf (byte : UInt8) : Bytes := if mustEscape byte then [chr '\\', byte] else [byte]

def escapeText (value : Bytes) : Bytes := value.flatMap escapeOf

section Sections

variable {size : ℕ} {out : OutCursor}

theorem escapeText_cons (byte : UInt8) (rest : Bytes) :
    escapeText (byte :: rest) = escapeOf byte ++ escapeText rest := rfl

theorem one_le_length_escapeOf (byte : UInt8) : 1 ≤ (escapeOf byte).length := by
  unfold escapeOf
  split_ifs <;> simp

def escapeByte (byte : UInt8) (out : OutCursor) : OutCursor :=
  Buffer.put byte (if mustEscape byte then Buffer.put (chr '\\') out else out)

theorem n_escapeByte (byte : UInt8) (out : OutCursor) :
    (escapeByte byte out).n = out.n + (escapeOf byte).length := by
  unfold escapeByte escapeOf
  split_ifs <;> rfl

theorem inside_escapeByte (byte : UInt8) (inside : out.Inside size) (room : out.n + 2 < size) :
    (escapeByte byte out).Inside size := by
  unfold escapeByte
  split_ifs
  · exact Buffer.inside_put (Buffer.inside_put inside (by omega)) room
  · exact Buffer.inside_put inside (by omega)

theorem escapeInto_cons (guarded : Bool) (byte : UInt8) (rest : Bytes) (room : out.n + 2 < size) :
    escapeInto guarded size (byte :: rest) out =
      escapeInto guarded size rest (escapeByte byte out) := by
  rw [escapeInto, if_pos room]
  unfold escapeByte
  have second : ((if mustEscape byte then Buffer.put (chr '\\') out else out).n + 1 < size) := by
    split_ifs
    · exact room
    · exact Nat.lt_of_succ_lt room
  dsimp only
  rw [if_pos (by simp [second])]

theorem escapeInto_spec (guarded : Bool) (value : Bytes) (inside : out.Inside size) :
    (escapeInto guarded size value out).Inside size ∧
      ((escapeInto guarded size value out).n = out.n + (escapeText value).length ∨
        size ≤ (escapeInto guarded size value out).n + 2 ∧
          size ≤ out.n + (escapeText value).length + 1) := by
  induction value generalizing out with
  | nil => exact ⟨inside, Or.inl rfl⟩
  | cons byte rest ih =>
    have length : (escapeText (byte :: rest)).length =
        (escapeOf byte).length + (escapeText rest).length := by
      rw [escapeText_cons, length_append]
    by_cases room : out.n + 2 < size
    · have moved := n_escapeByte byte out
      rcases ih (inside_escapeByte byte inside room) with ⟨staysInside, ends⟩
      rw [escapeInto_cons guarded byte rest room]
      refine ⟨staysInside, ?_⟩
      rcases ends with whole | ⟨stopped, long⟩
      · left
        omega
      · right
        omega
    · have positive := one_le_length_escapeOf byte
      rw [escapeInto, if_neg room]
      refine ⟨inside, Or.inr ?_⟩
      omega

theorem n_le_escapeInto (guarded : Bool) (size : ℕ) (value : Bytes) (out : OutCursor) :
    out.n ≤ (escapeInto guarded size value out).n := by
  induction value generalizing out with
  | nil => exact le_rfl
  | cons byte rest ih =>
    by_cases room : out.n + 2 < size
    · have moved := n_escapeByte byte out
      rw [escapeInto_cons guarded byte rest room]
      exact Nat.le_trans (by omega) (ih _)
    · rw [escapeInto, if_neg room]

def comma (first : Bool) : Bytes := if first then [] else [chr ',']

def HeaderField.text (field : HeaderField) : Bytes :=
  field.label ++ escapeText field.value ++ ascii "\""

def textToLastLabel : Bool → List HeaderField → Bytes
  | _, [] => []
  | first, [field] => comma first ++ field.label
  | first, field :: next :: rest =>
    comma first ++ field.text ++ textToLastLabel false (next :: rest)

variable {field : HeaderField} {first : Bool}

theorem five_le_length_label (named : field.name ≠ []) :
    5 ≤ field.label.length := by
  have name := List.length_pos_iff.mpr named
  have quote : (ascii "\"").length = 1 := by decide
  have ending : (ascii "\":\"").length = 3 := by decide
  unfold HeaderField.label
  rw [length_append, length_append]
  omega

def putComma (size : ℕ) (first : Bool) (out : OutCursor) : OutCursor :=
  if !first && out.n + 1 < size then Buffer.put (chr ',') out else out

theorem putField_eq (first : Bool) (field : HeaderField) :
    (putField size (first, out) field).2 =
      let written := escapeInto field.guarded size field.value
        (printTo size field.label (putComma size first out))
      if written.n + 1 < size then Buffer.put (chr '"') written else written := rfl

theorem n_putComma (room : out.n + (comma first).length < size) :
    (putComma size first out).n = out.n + (comma first).length := by
  cases first with
  | true => rfl
  | false =>
    unfold putComma
    rw [if_pos (by simpa [comma] using room)]
    rfl

theorem inside_putComma (first : Bool) (inside : out.Inside size) :
    (putComma size first out).Inside size := by
  unfold putComma
  split_ifs with room
  · apply Buffer.inside_put inside
    simp only [Bool.and_eq_true, decide_eq_true_eq] at room
    exact room.2
  · exact inside

theorem n_le_putComma (size : ℕ) (first : Bool) (out : OutCursor) :
    out.n ≤ (putComma size first out).n := by
  unfold putComma
  split_ifs
  · exact Nat.le_succ _
  · exact le_rfl

theorem putField_of_fits (small : size < 2 ^ 64) (inside : out.Inside size)
    (fits : out.n + (comma first).length + field.label.length < size) :
    (putField size (first, out) field).2.Inside size ∧
      ((putField size (first, out) field).2.n =
          out.n + (comma first).length + field.text.length ∨
        (putField size (first, out) field).2.n + 1 = size ∧
          size ≤ out.n + (comma first).length + field.text.length) := by
  have position : (putComma size first out).n = out.n + (comma first).length :=
    n_putComma (by omega)
  have labelled : (printTo size field.label (putComma size first out)).Inside size :=
    Buffer.inside_print small (inside_putComma first inside) (by omega)
  have labelEnd : (printTo size field.label (putComma size first out)).n =
      out.n + (comma first).length + field.label.length := by
    rw [← position]
    rfl
  have length : field.text.length = field.label.length + (escapeText field.value).length + 1 := by
    unfold HeaderField.text
    rw [length_append, length_append]
    rfl
  rw [putField_eq]
  rcases escapeInto_spec field.guarded field.value labelled with ⟨written, ends⟩
  generalize escapeInto field.guarded size field.value
    (printTo size field.label (putComma size first out)) = value at written ends
  dsimp only
  have bound := written.position
  split_ifs with room
  · refine ⟨Buffer.inside_put written room, ?_⟩
    have moved : (Buffer.put (chr '"') value).n = value.n + 1 := rfl
    rcases ends with whole | stopped
    · left
      omega
    · right
      omega
  · refine ⟨written, Or.inr ?_⟩
    rcases ends with whole | stopped
    · omega
    · omega

theorem putField_of_not_fits (named : field.name ≠ [])
    (long : size ≤ out.n + (comma first).length + field.label.length) :
    size ≤ (putField size (first, out) field).2.n := by
  have label := five_le_length_label named
  have short : (comma first).length ≤ 1 := by
    cases first <;> decide
  have labelEnd : size ≤ (printTo size field.label (putComma size first out)).n := by
    have start := n_le_putComma size first out
    have moved : (printTo size field.label (putComma size first out)).n =
      (putComma size first out).n + field.label.length := rfl
    by_cases room : out.n + (comma first).length < size
    · rw [moved, n_putComma room]
      exact long
    · omega
  rw [putField_eq]
  have written := n_le_escapeInto field.guarded size field.value
    (printTo size field.label (putComma size first out))
  dsimp only
  split_ifs
  · exact Nat.le_succ_of_le (labelEnd.trans written)
  · exact labelEnd.trans written

theorem n_le_putField (size : ℕ) (state : Bool × OutCursor) (field : HeaderField) :
    state.2.n ≤ (putField size state field).2.n := by
  have start := n_le_putComma size state.1 state.2
  have moved : (printTo size field.label (putComma size state.1 state.2)).n =
    (putComma size state.1 state.2).n + field.label.length := rfl
  have written := n_le_escapeInto field.guarded size field.value
    (printTo size field.label (putComma size state.1 state.2))
  rw [putField_eq]
  dsimp only
  split_ifs
  · exact Nat.le_succ_of_le (by omega)
  · omega

theorem n_le_foldl_putField (size : ℕ) (fields : List HeaderField) (state : Bool × OutCursor) :
    state.2.n ≤ (fields.foldl (putField size) state).2.n := by
  induction fields generalizing state with
  | nil => exact le_rfl
  | cons field rest ih => exact (n_le_putField size state field).trans (ih _)

theorem foldl_putField_spec {fields : List HeaderField} (small : size < 2 ^ 64)
    (named : ∀ field ∈ fields, field.name ≠ []) (first : Bool) (inside : out.Inside size) :
    (out.n + (textToLastLabel first fields).length < size →
        (fields.foldl (putField size) (first, out)).2.Inside size) ∧
      (size ≤ out.n + (textToLastLabel first fields).length →
        size ≤ (fields.foldl (putField size) (first, out)).2.n) := by
  induction fields generalizing first out with
  | nil =>
    have position := inside.position
    refine ⟨fun _ => inside, fun long => ?_⟩
    simp only [textToLastLabel, length_nil] at long
    omega
  | cons field rest ih =>
    have namedField := named field mem_cons_self
    have namedRest : ∀ other ∈ rest, other.name ≠ [] :=
      fun other mem => named other (mem_cons_of_mem field mem)
    have labelInText : field.label.length ≤ field.text.length := by
      unfold HeaderField.text
      rw [append_assoc, length_append]
      omega
    have next : putField size (first, out) field =
        (false, (putField size (first, out) field).2) := rfl
    rw [foldl_cons, next]
    by_cases fits : out.n + (comma first).length + field.label.length < size
    · rcases putField_of_fits small inside fits with ⟨insideField, ends⟩
      have later := ih namedRest false insideField
      cases rest with
      | nil =>
        refine ⟨fun _ => insideField, fun long => ?_⟩
        simp only [textToLastLabel, length_append] at long
        omega
      | cons other more =>
        have longLabel : 5 ≤ (textToLastLabel false (other :: more)).length := by
          have label := five_le_length_label (namedRest other mem_cons_self)
          cases more with
          | nil =>
            simp only [textToLastLabel, length_append]
            omega
          | cons =>
            simp only [textToLastLabel, HeaderField.text, length_append]
            omega
        have whole : (textToLastLabel first (field :: other :: more)).length =
            (comma first).length + field.text.length +
              (textToLastLabel false (other :: more)).length := by
          rw [textToLastLabel, length_append, length_append]
        rcases ends with written | ⟨stopped, long⟩
        · exact ⟨fun short => later.1 (by omega), fun longer => later.2 (by omega)⟩
        · refine ⟨fun short => ?_, fun _ => later.2 (by omega)⟩
          exfalso
          omega
    · have outside := putField_of_not_fits namedField (Nat.le_of_not_lt fits)
      have monotone := n_le_foldl_putField size rest (false, (putField size (first, out) field).2)
      refine ⟨fun short => ?_, fun _ => outside.trans monotone⟩
      exfalso
      cases rest with
      | nil =>
        simp only [textToLastLabel, length_append] at short
        omega
      | cons other more =>
        simp only [textToLastLabel, length_append] at short
        omega

end Sections

/-- What the caller of `build_headers_json` relies on. -/
structure HeadersSafe (size : ℕ) (out : OutCursor) : Prop where
  touched : ∀ index ∈ out.touched, index < size
  position : out.n ≤ size
  terminated : ∃ index < size, out.cells index = 0

theorem named_headerFields (userAgent host cookie : Bytes) :
    ∀ field ∈ headerFields userAgent host cookie, field.name ≠ [] := by
  intro field mem
  simp only [headerFields, mem_append, mem_filterMap] at mem
  rcases mem with (inAgent | inHost) | ⟨token, -, named⟩
  · split_ifs at inAgent
    · simp at inAgent
    · rw [List.mem_singleton.mp inAgent]
      change ascii "User-Agent" ≠ []
      decide
  · split_ifs at inHost
    · simp at inHost
    · rw [List.mem_singleton.mp inHost]
      change ascii "Host" ≠ []
      decide
  · unfold cookieField at named
    dsimp only at named
    split_ifs at named with assigned empty
    rw [← Option.some.inj named]
    exact empty

section Build

variable (userAgent host cookie : Bytes) (memory : ℕ → UInt8) {size : ℕ}

def headerSections (size : ℕ) : OutCursor :=
  ((headerFields userAgent host cookie).foldl (putField size)
    (true, Buffer.put (chr '\x7b') (Buffer.start memory))).2

theorem buildHeadersJson_eq (large : 4 ≤ size) :
    buildHeadersJson userAgent host cookie size memory =
      let out := headerSections userAgent host cookie memory size
      Buffer.terminate 0 (if out.n + 1 < size then Buffer.put (chr '\x7d') out else out) := by
  unfold buildHeadersJson
  rw [if_neg (by omega)]
  rfl

theorem headerSections_spec (large : 4 ≤ size) (small : size < 2 ^ 64) :
    (1 + (textToLastLabel true (headerFields userAgent host cookie)).length < size →
        (headerSections userAgent host cookie memory size).Inside size) ∧
      (size ≤ 1 + (textToLastLabel true (headerFields userAgent host cookie)).length →
        size ≤ (headerSections userAgent host cookie memory size).n) := by
  have opened : (Buffer.put (chr '\x7b') (Buffer.start memory)).Inside size :=
    Buffer.inside_put (Buffer.inside_start memory (by omega)) (by simp [Buffer.start]; omega)
  exact foldl_putField_spec small (named_headerFields userAgent host cookie) true opened

theorem headersSafe_of_fits (large : 4 ≤ size) (small : size < 2 ^ 64)
    (fits : 1 + (textToLastLabel true (headerFields userAgent host cookie)).length < size) :
    HeadersSafe size (buildHeadersJson userAgent host cookie size memory) := by
  have inside := (headerSections_spec userAgent host cookie memory large small).1 fits
  rw [buildHeadersJson_eq userAgent host cookie memory large]
  generalize headerSections userAgent host cookie memory size = out at inside
  dsimp only
  have closed : (if out.n + 1 < size then Buffer.put (chr '\x7d') out else out).Inside size := by
    split_ifs with room
    · exact Buffer.inside_put inside room
    · exact inside
  generalize (if out.n + 1 < size then Buffer.put (chr '\x7d') out else out) = done at closed
  have terminated : (Buffer.terminate 0 done).Inside size := Buffer.inside_terminate closed
  exact ⟨terminated.touched, terminated.position.le, done.n, closed.position,
    Buffer.cells_terminate 0 done⟩

theorem not_headersSafe_of_long (large : 4 ≤ size) (small : size < 2 ^ 64)
    (long : size ≤ 1 + (textToLastLabel true (headerFields userAgent host cookie)).length) :
    ¬HeadersSafe size (buildHeadersJson userAgent host cookie size memory) := by
  have outside := (headerSections_spec userAgent host cookie memory large small).2 long
  rw [buildHeadersJson_eq userAgent host cookie memory large]
  generalize headerSections userAgent host cookie memory size = out at outside
  dsimp only
  rw [if_neg (by omega)]
  intro safe
  have terminator := safe.touched _ (Buffer.mem_touched_terminate 0 out)
  omega

/-- All writes are inside, and the text is terminated, exactly when the buffer holds the text up
to the label of the last member. -/
theorem buildHeadersJson_safe_iff (large : 4 ≤ size) (small : size < 2 ^ 64) :
    HeadersSafe size (buildHeadersJson userAgent host cookie size memory) ↔
      1 + (textToLastLabel true (headerFields userAgent host cookie)).length < size := by
  constructor
  · intro safe
    by_contra long
    exact not_headersSafe_of_long userAgent host cookie memory large small (by omega) safe
  · exact headersSafe_of_fits userAgent host cookie memory large small

end Build

theorem buildHeadersJson_safe_browser :
    4 ≤ 1024 ∧ 1024 < 2 ^ 64 ∧
      HeadersSafe 1024 (buildHeadersJson (ascii "Mozilla/5.0 \"x\"") (ascii "example.org")
        (ascii "sid=1; theme=dark") 1024 fun _ => 0xff) := by
  refine ⟨by decide, by decide, ?_⟩
  apply (buildHeadersJson_safe_iff _ _ _ _ (by decide) (by decide)).mpr
  decide +kernel

/-- A user agent that fills the buffer of `waf_analyze_full` leaves no room for the label of the
host. -/
theorem buildHeadersJson_overruns :
    ¬HeadersSafe 1024 (buildHeadersJson (List.replicate 1010 (chr 'A')) (ascii "example.org") []
      1024 fun _ => 0xff) := by
  apply not_headersSafe_of_long _ _ _ _ (by decide) (by decide)
  decide +kernel

end LogGuardian
