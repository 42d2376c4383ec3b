import LogGuardian.Bytes

/-!
# Query parameters
-/

namespace LogGuardian

open List

def endsValue (byte : UInt8) : Bool := byte = chr '&' || byte = 32

/-- `pattern`, a buffer of 64 bytes. -/
def queryPattern (key : Bytes) : Bytes := copyInto 64 (key ++ [chr '='])

def searchQuery (req key : Bytes) : Option Bytes :=
  (strchr req (chr '?')).bind (Search.after (queryPattern key))

/-- `parse_query_param`: what it writes to `out`. -/
def parseQueryParam (req key : Bytes) (outsz : ℕ) : Option Bytes :=
  if outsz < 2 then none
  else (searchQuery req key).map fun p => copyInto outsz (p.takeWhile (!endsValue ·))

def queryParamValue (req key : Bytes) (outsz : ℕ) : Option Bytes :=
  (parseQueryParam req key outsz).filter (· ≠ [])

def fromHex (byte : UInt8) : ℕ :=
  if isDigit byte then digitValue byte
  else if chr 'a' ≤ byte ∧ byte ≤ chr 'f' then byte.toNat - 97 + 10
  else if chr 'A' ≤ byte ∧ byte ≤ chr 'F' then byte.toNat - 65 + 10
  else 0

def plusToSpace (byte : UInt8) : UInt8 := if byte = chr '+' then 32 else byte

def urlDecode : Bytes → Bytes
  | first :: high :: low :: rest =>
    if first = chr '%' then (fromHex high * 16 + fromHex low).toUInt8 :: urlDecode rest
    else plusToSpace first :: urlDecode (high :: low :: rest)
  | text => text.map plusToSpace

/-- `decode_query_field`: the C string in `out`. -/
def decodeQueryField (raw : Bytes) (outsz : ℕ) : Bytes :=
  (urlDecode (copyInto outsz raw)).takeWhile (· ≠ 0)

def endsLine (byte : UInt8) : Bool := byte = 13 || byte = 10

def requestLine (req : Bytes) : Bytes := req.takeWhile (!endsLine ·)

def queryString (req : Bytes) : Option Bytes :=
  (strchr (requestLine req) (chr '?')).map fun q => (q.drop 1).takeWhile (· ≠ 32)

def itemName (item : Bytes) : Bytes := item.takeWhile (· ≠ chr '=')

def itemValue (item : Bytes) : Bytes := (item.dropWhile (· ≠ chr '=')).drop 1

def namedParam (req key : Bytes) : Option Bytes := do
  let query ← queryString req
  let item ← (query.splitOn (chr '&')).find? fun item =>
    decide (chr '=' ∈ item) && decide (itemName item = key)
  return itemValue item

/-- The text starts with a byte that satisfies the predicate, or is empty. -/
def Stops (stop : UInt8 → Bool) (text : Bytes) : Prop := ∀ byte ∈ text.head?, stop byte = true

/-- The first occurrence of the pattern is the parameter `key` of the query string, with this
value; `rest` is what follows the value in the buffer. -/
structure ParameterFirst (req key before value rest : Bytes) : Prop where
  request : strchr req (chr '?') =
    some (chr '?' :: (before ++ (key ++ chr '=' :: (value ++ rest))))
  onRequestLine : chr '?' ∈ requestLine req
  aligned : before = [] ∨ ∃ items, before = items ++ [chr '&']
  inQuery : ∀ byte ∈ before ++ key ++ value, byte ≠ 32 ∧ endsLine byte = false
  plainKey : chr '&' ∉ key ∧ chr '=' ∉ key
  plainValue : chr '&' ∉ value
  ended : Stops (fun byte => endsValue byte || endsLine byte) rest
  first : Search.find (queryPattern key)
    (chr '?' :: (before ++ (key ++ chr '=' :: (value ++ rest)))) = some (before.length + 1)
  short : key.length ≤ 62

/-- A value that comes out of the buffer whole: it is not empty and is cut neither too early, by
the size of the buffer, nor too late. -/
def Fits (outsz : ℕ) (value rest : Bytes) : Prop :=
  value ≠ [] ∧ (value.length + 1 = outsz ∨ value.length + 1 < outsz ∧ Stops endsValue rest)

/-- The text after an occurrence that is not the parameter happens to spell its value, or nothing
if there is no such parameter. -/
def Coincides (outsz : ℕ) (after : Bytes) : Option Bytes → Prop
  | none => Stops endsValue after
  | some value => ∃ rest, after = value ++ rest ∧ Fits outsz value rest

/-- The condition on a request under which a parameter is read as it stands. -/
def ReadsParameter (req key : Bytes) (outsz : ℕ) : Prop :=
  searchQuery req key = none ∨
    (∃ before value rest, ParameterFirst req key before value rest ∧ Fits outsz value rest) ∨
      ((¬∃ before value rest, ParameterFirst req key before value rest) ∧
        ∃ after, searchQuery req key = some after ∧
          Coincides outsz after (namedParam req key))

def inQueryString (byte : UInt8) : Bool := byte ≠ 32 && !endsLine byte

variable {text value after before req key : Bytes} {outsz : ℕ} {byte : UInt8}

theorem takeWhile_eq_nil_iff_stops {stop : UInt8 → Bool} :
    text.takeWhile (!stop ·) = [] ↔ Stops stop text := by
  rcases text with _ | ⟨first, rest⟩
  · simp [Stops]
  · rcases stops : stop first with _ | _ <;> simp [Stops]

theorem filter_cut_eq_some_iff {rest : Bytes} (room : 2 ≤ outsz)
    (plain : ∀ byte ∈ value, endsValue byte = false) :
    (some (copyInto outsz ((value ++ rest).takeWhile (!endsValue ·)))).filter (· ≠ []) = some value ↔
      Fits outsz value rest := by
  have whole : (value ++ rest).takeWhile (!endsValue ·) =
      value ++ rest.takeWhile (!endsValue ·) := by
    apply takeWhile_append_of_pos
    intro byte mem
    simp [plain byte mem]
  rw [whole, Option.filter_eq_some_iff, Option.some.injEq, Fits, ← takeWhile_eq_nil_iff_stops]
  generalize rest.takeWhile (!endsValue ·) = tail
  unfold copyInto
  rcases lt_trichotomy (value.length + 1) outsz with longer | equal | shorter
  · have split : (value ++ tail).take (outsz - 1) =
        value ++ tail.take (outsz - 1 - value.length) := by
      rw [take_append, take_of_length_le (by omega)]
    have positive : outsz - 1 - value.length ≠ 0 := by omega
    rw [split]
    simp [longer, longer.ne, positive, and_comm]
  · have split : (value ++ tail).take (outsz - 1) = value := by
      rw [← equal]
      simp
    simp [split, equal]
  · have tooLong : (value ++ tail).take (outsz - 1) ≠ value := by
      intro same
      have lengths := congrArg length same
      simp only [length_take] at lengths
      omega
    simp only [tooLong, false_and, false_iff]
    intro _
    omega

theorem filter_cut_eq_none_iff (room : 2 ≤ outsz) :
    (some (copyInto outsz (after.takeWhile (!endsValue ·)))).filter (· ≠ []) = none ↔
      Stops endsValue after := by
  rw [← takeWhile_eq_nil_iff_stops]
  have positive : outsz - 1 ≠ 0 := by omega
  simp [copyInto, positive]

theorem strchr_append (absent : byte ∉ before) :
    strchr (before ++ byte :: after) byte = some (byte :: after) := by
  have skipped : ∀ other ∈ before, (decide (other ≠ byte)) = true := by
    intro other mem
    simpa using fun same : other = byte => absent (same ▸ mem)
  simp only [strchr]
  rw [dropWhile_append_of_pos skipped]
  simp

theorem strchr_eq_some {found : Bytes} (hit : strchr text byte = some found) :
    ∃ before after, text = before ++ byte :: after ∧ byte ∉ before ∧ found = byte :: after := by
  have mem : byte ∈ text := by
    by_contra absent
    simp [strchr, absent] at hit
  rcases eq_append_cons_of_mem mem with ⟨before, after, rfl, absent⟩
  rw [strchr_append absent] at hit
  exact ⟨before, after, rfl, absent, (Option.some.inj hit).symm⟩

theorem queryString_eq (absent : chr '?' ∉ before) (onLine : ∀ byte ∈ before, endsLine byte = false) :
    queryString (before ++ chr '?' :: after) =
      some (after.takeWhile inQueryString) := by
  have mark : endsLine (chr '?') = false := by decide
  have line : requestLine (before ++ chr '?' :: after) =
      before ++ chr '?' :: after.takeWhile (!endsLine ·) := by
    unfold requestLine
    rw [takeWhile_append_of_pos (by simpa using onLine)]
    simp [mark]
  rw [queryString, line, strchr_append absent, Option.map_some, drop_one, tail_cons,
    takeWhile_takeWhile]
  congr 2
  funext byte
  simp [inQueryString]

theorem queryString_eq_some {query : Bytes} (found : queryString req = some query) :
    ∃ before after, req = before ++ chr '?' :: after ∧ chr '?' ∉ before ∧
      query = after.takeWhile inQueryString := by
  rcases Option.map_eq_some_iff.mp found with ⟨q, hit, -⟩
  rcases strchr_eq_some hit with ⟨before, onLine, line, absent, -⟩
  have whole : req = before ++ chr '?' :: (onLine ++ req.dropWhile (!endsLine ·)) := by
    calc req = requestLine req ++ req.dropWhile (!endsLine ·) := List.takeWhile_append_dropWhile.symm
      _ = before ++ chr '?' :: (onLine ++ req.dropWhile (!endsLine ·)) := by simp [line]
  have inLine : ∀ byte ∈ before, endsLine byte = false := by
    intro byte mem
    have onRequestLine : byte ∈ requestLine req := by simp [line, mem]
    simpa using mem_takeWhile_imp onRequestLine
  refine ⟨before, onLine ++ req.dropWhile (!endsLine ·), whole, absent, ?_⟩
  rw [whole, queryString_eq absent inLine] at found
  exact (Option.some.inj found).symm

theorem item_eq {item : Bytes} (equals : chr '=' ∈ item) (named : itemName item = key) :
    item = key ++ chr '=' :: itemValue item ∧ chr '=' ∉ key := by
  rcases eq_append_cons_of_mem equals with ⟨before, after, rfl, absent⟩
  have skipped : ∀ byte ∈ before, (decide (byte ≠ chr '=')) = true := by
    intro byte mem
    simpa using fun same : byte = chr '=' => absent (same ▸ mem)
  have name : itemName (before ++ chr '=' :: after) = before := by
    rw [itemName, takeWhile_append_of_pos skipped]
    simp
  have value : itemValue (before ++ chr '=' :: after) = after := by
    rw [itemValue, dropWhile_append_of_pos skipped]
    simp
  rw [value, ← named, name]
  exact ⟨rfl, absent⟩

theorem namedParam_eq_some (named : namedParam req key = some value) :
    ∃ query, queryString req = some query ∧
      key ++ chr '=' :: value ∈ query.splitOn (chr '&') := by
  unfold namedParam at named
  rcases found : queryString req with _ | query
  · simp [found] at named
  simp only [found, Option.bind_eq_bind, Option.bind_some] at named
  rcases hit : (query.splitOn (chr '&')).find? fun item =>
      decide (chr '=' ∈ item) && decide (itemName item = key) with _ | item
  · simp [hit] at named
  rw [hit] at named
  have matched := List.find?_some hit
  simp only [Bool.and_eq_true, decide_eq_true_eq] at matched
  rcases item_eq matched.1 matched.2 with ⟨whole, -⟩
  refine ⟨query, rfl, ?_⟩
  have same : itemValue item = value := by simpa using named
  rw [← same, ← whole]
  exact List.mem_of_find?_eq_some hit

theorem infix_of_namedParam (named : namedParam req key = some value) :
    (∃ q, strchr req (chr '?') = some q ∧ key ++ chr '=' :: value <:+: q) ∧
      ∀ byte ∈ value, endsValue byte = false := by
  rcases namedParam_eq_some named with ⟨query, found, mem⟩
  rcases queryString_eq_some found with ⟨before, after, rfl, absent, rfl⟩
  have inQuery := Search.infix_of_mem_splitOn mem
  constructor
  · refine ⟨chr '?' :: after, strchr_append absent, inQuery.trans ?_⟩
    exact ( takeWhile_prefix _).isInfix.trans ⟨[chr '?'], [], by simp⟩
  · intro byte inValue
    have inItem : byte ∈ key ++ chr '=' :: value := by simp [inValue]
    have notSpace := mem_takeWhile_imp (inQuery.subset inItem)
    have notAmp : byte ≠ chr '&' := by
      rintro rfl
      exact Search.not_mem_of_mem_splitOn mem inItem
    simp only [inQueryString, Bool.and_eq_true, decide_eq_true_eq] at notSpace
    simp [endsValue, notAmp, notSpace.1]

theorem namedParam_eq_none (searched : searchQuery req key = none) :
    namedParam req key = none := by
  by_contra present
  rcases Option.ne_none_iff_exists'.mp present with ⟨value, named⟩
  rcases infix_of_namedParam named with ⟨⟨q, hit, inside⟩, -⟩
  have pattern : queryPattern key <:+: q := by
    have cut : queryPattern key <+: key ++ chr '=' :: value := by
      refine ( take_prefix _ _).trans ⟨value, by simp⟩
    exact cut.isInfix.trans inside
  rw [searchQuery, hit, Option.bind_some, Search.after, Option.map_eq_none_iff,
    Search.find_eq_none_iff] at searched
  exact searched pattern

theorem queryPattern_of_short (short : key.length ≤ 62) :
    queryPattern key = key ++ [chr '='] := by
  apply copyInto_of_length_lt
  simp only [length_append, length_singleton]
  omega

section ParameterFirst

variable {req key before value rest : Bytes}

theorem searchQuery_of_parameterFirst (param : ParameterFirst req key before value rest) :
    searchQuery req key = some (value ++ rest) := by
  rw [searchQuery, param.request, Option.bind_some, Search.after, param.first, Option.map_some,
    queryPattern_of_short param.short]
  have whole : chr '?' :: (before ++ (key ++ chr '=' :: (value ++ rest))) =
      (chr '?' :: before ++ (key ++ [chr '='])) ++ (value ++ rest) := by simp
  rw [whole, drop_left']
  simp
  omega

theorem endsLine_of_mem_before {front after : Bytes} {byte : UInt8} (absent : chr '?' ∉ front)
    (onLine : chr '?' ∈ requestLine (front ++ chr '?' :: after)) (mem : byte ∈ front) :
    endsLine byte = false := by
  rw [requestLine, takeWhile_append] at onLine
  split at onLine
  · rename_i whole
    have all : front.takeWhile (!endsLine ·) = front :=
      ( takeWhile_prefix _).eq_of_length whole
    rw [← all] at mem
    simpa using mem_takeWhile_imp mem
  · exact absurd (( takeWhile_prefix _).subset onLine) absent

theorem queryString_of_parameterFirst (param : ParameterFirst req key before value rest) :
    ∃ others, queryString req = some (before ++ (key ++ chr '=' :: (value ++ others))) ∧
      (others = [] ∨ ∃ more, others = chr '&' :: more) := by
  rcases strchr_eq_some param.request with ⟨front, after, rfl, absent, tail⟩
  simp only [List.cons.injEq, true_and] at tail
  subst tail
  have line : ∀ byte ∈ front, endsLine byte = false := by
    intro byte mem
    exact endsLine_of_mem_before absent param.onRequestLine mem
  have inQuery : ∀ byte ∈ before ++ (key ++ chr '=' :: value), inQueryString byte = true := by
    intro byte mem
    have parts : byte ∈ before ++ key ++ value ∨ byte = chr '=' := by
      simp only [mem_append, mem_cons] at mem ⊢
      tauto
    rcases parts with inside | rfl
    · have fine := param.inQuery byte inside
      simp [inQueryString, fine.1, fine.2]
    · decide
  refine ⟨rest.takeWhile inQueryString, ?_, ?_⟩
  · have regroup : before ++ (key ++ chr '=' :: (value ++ rest)) =
        before ++ (key ++ chr '=' :: value) ++ rest := by simp
    rw [queryString_eq absent line, regroup, takeWhile_append_of_pos inQuery]
    simp
  · rcases rest with _ | ⟨next, others⟩
    · simp
    · have stops := param.ended next rfl
      by_cases goesOn : inQueryString next = true
      · right
        have amp : next = chr '&' := by
          simp only [inQueryString, Bool.and_eq_true, decide_eq_true_eq, Bool.not_eq_true'] at goesOn
          simpa [endsValue, goesOn.1, goesOn.2] using stops
        rw [takeWhile_cons_of_pos goesOn, amp]
        exact ⟨others.takeWhile inQueryString, rfl⟩
      · left
        rw [takeWhile_cons_of_neg goesOn]

theorem find?_earlier (param : ParameterFirst req key before value rest) {items : Bytes}
    (earlier : before = items ++ [chr '&']) :
    (items.splitOn (chr '&')).find? (fun item =>
      decide (chr '=' ∈ item) && decide (itemName item = key)) = none := by
  rw [List.find?_eq_none]
  intro item mem matched
  simp only [Bool.and_eq_true, decide_eq_true_eq] at matched
  rcases item_eq matched.1 matched.2 with ⟨whole, -⟩
  rcases Search.infix_of_mem_splitOn mem with ⟨left, right, split⟩
  have stands : queryPattern key <+:
      (chr '?' :: (before ++ (key ++ chr '=' :: (value ++ rest)))).drop (left.length + 1) := by
    rw [earlier, ← split, whole, queryPattern_of_short param.short]
    simp
  have before' : left.length + 1 < before.length + 1 := by
    rw [earlier, ← split]
    simp
    omega
  exact Search.not_prefix_drop_of_lt_find param.first before' stands

theorem namedParam_of_parameterFirst (param : ParameterFirst req key before value rest) :
    namedParam req key = some value := by
  rcases queryString_of_parameterFirst param with ⟨others, query, continued⟩
  have plain : chr '&' ∉ key ++ chr '=' :: value := by
    have different : chr '&' ≠ chr '=' := by decide
    simp [param.plainKey.1, param.plainValue, different]
  have skipped : ∀ byte ∈ key, (decide (byte ≠ chr '=')) = true := by
    intro byte mem
    simpa using fun same : byte = chr '=' => param.plainKey.2 (same ▸ mem)
  have name : itemName (key ++ chr '=' :: value) = key := by
    rw [itemName, takeWhile_append_of_pos skipped]
    simp
  have itsValue : itemValue (key ++ chr '=' :: value) = value := by
    rw [itemValue, dropWhile_append_of_pos skipped]
    simp
  have fromItem : ∃ more, (key ++ chr '=' :: (value ++ others)).splitOn (chr '&') =
      (key ++ chr '=' :: value) :: more := by
    rcases continued with rfl | ⟨more, rfl⟩
    · exact ⟨[], by rw [append_nil, splitOn_eq_singleton plain]⟩
    · have regroup : key ++ chr '=' :: (value ++ chr '&' :: more) =
          (key ++ chr '=' :: value) ++ chr '&' :: more := by simp
      rw [regroup, splitOn_append_cons_self, splitOn_eq_singleton plain]
      exact ⟨_, rfl⟩
  rcases fromItem with ⟨more, split⟩
  have found : ((before ++ (key ++ chr '=' :: (value ++ others))).splitOn (chr '&')).find? (fun item =>
      decide (chr '=' ∈ item) && decide (itemName item = key)) = some (key ++ chr '=' :: value) := by
    rcases param.aligned with rfl | ⟨items, earlier⟩
    · rw [nil_append, split]
      simp [name]
    · have none := find?_earlier param earlier
      rw [earlier, append_assoc, singleton_append, splitOn_append_cons_self, split,
        List.find?_append, none]
      simp [name]
  rw [namedParam, query, Option.bind_eq_bind, Option.bind_some, found]
  simp [itsValue]

end ParameterFirst

theorem queryParamValue_eq_iff (room : 2 ≤ outsz) :
    queryParamValue req key outsz = namedParam req key ↔ ReadsParameter req key outsz := by
  have small : ¬outsz < 2 := by omega
  unfold queryParamValue parseQueryParam ReadsParameter
  rw [if_neg small]
  rcases searched : searchQuery req key with _ | after
  · simp [namedParam_eq_none searched]
  rw [Option.map_some]
  by_cases present : ∃ before value rest, ParameterFirst req key before value rest
  · rcases present with ⟨before, value, rest, param⟩
    have named := namedParam_of_parameterFirst param
    have afterIs := searchQuery_of_parameterFirst param
    rw [searched, Option.some.injEq] at afterIs
    rw [named, afterIs, filter_cut_eq_some_iff room (infix_of_namedParam named).2]
    constructor
    · intro fits
      exact Or.inr (Or.inl ⟨before, value, rest, param, fits⟩)
    · rintro (nothing | ⟨before', value', rest', param', fits⟩ | ⟨elsewhere, -⟩)
      · simp at nothing
      · have sameValue := namedParam_of_parameterFirst param'
        have sameAfter := searchQuery_of_parameterFirst param'
        rw [named, Option.some.injEq] at sameValue
        rw [searched, afterIs, sameValue, Option.some.injEq, append_cancel_left_eq] at sameAfter
        rw [sameValue, sameAfter]
        exact fits
      · exact absurd ⟨before, value, rest, param⟩ elsewhere
  · have absent : ¬∃ before value rest, ParameterFirst req key before value rest ∧
        Fits outsz value rest := by
      rintro ⟨before, value, rest, param, -⟩
      exact present ⟨before, value, rest, param⟩
    simp only [absent, present, not_false_eq_true, true_and, false_or, reduceCtorEq,
      Option.some.injEq, exists_eq_left']
    rcases named : namedParam req key with _ | value
    · exact filter_cut_eq_none_iff room
    · constructor
      · intro read
        rcases Option.filter_eq_some_iff.mp read with ⟨cut, -⟩
        have starts : value <+: after := by
          rw [← Option.some.inj cut]
          exact ( take_prefix _ _).trans ( takeWhile_prefix _)
        rcases starts with ⟨rest, rfl⟩
        refine ⟨rest, rfl, ?_⟩
        exact (filter_cut_eq_some_iff room (infix_of_namedParam named).2).mp read
      · rintro ⟨rest, rfl, fits⟩
        exact (filter_cut_eq_some_iff room (infix_of_namedParam named).2).mpr fits

end LogGuardian
