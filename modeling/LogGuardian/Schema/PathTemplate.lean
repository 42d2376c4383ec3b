import LogGuardian.Lib.Delimited
import LogGuardian.Lib.Tokens
import LogGuardian.Schema.Request

/-!
# Path templates
-/

namespace LogGuardian

open List

inductive TemplateSegment where
  | literal (text : Bytes)
  | param (name : Bytes)
  deriving DecidableEq, Repr

namespace TemplateSegment

def text : TemplateSegment → Bytes
  | literal text => text
  | param name => chr '\x7b' :: (name ++ [chr '\x7d'])

def name? : TemplateSegment → Option Bytes
  | literal _ => none
  | param name => some name

def WellFormed : TemplateSegment → Prop
  | literal text => chr '/' ∉ text ∧ chr '\x7b' ∉ text
  | param name => chr '/' ∉ name ∧ chr '\x7d' ∉ name

instance : (segment : TemplateSegment) → Decidable segment.WellFormed
  | literal _ => inferInstanceAs (Decidable (_ ∧ _))
  | param _ => inferInstanceAs (Decidable (_ ∧ _))

def Fits : TemplateSegment → Bytes → Prop
  | literal text, piece => piece = text
  | param _, piece => piece ≠ []

end TemplateSegment

structure PathTemplate where
  segments : List TemplateSegment
  nonempty : segments ≠ []
  wellFormed : ∀ segment ∈ segments, segment.WellFormed

def pathPieces (path : Bytes) : List Bytes := path.splitOn (chr '/')

def beforeQuery (path : Bytes) : Bytes :=
  path.takeWhile fun byte => byte ≠ chr '?' ∧ byte ≠ chr '#'

def paramPieces (segments : List TemplateSegment) (pieces : List Bytes) : List (Bytes × Bytes) :=
  (segments.zip pieces).filterMap fun
    | (.param name, piece) => some (name, piece)
    | (.literal _, _) => none

/-- A positive decimal that fits in a `long`. -/
structure PositiveLong (piece : Bytes) : Prop where
  digits : ∀ byte ∈ piece, isDigit byte = true
  positive : 0 < decimalValue piece
  fits : decimalValue piece < 2 ^ 63

namespace PathTemplate

def text (template : PathTemplate) : Bytes :=
  [chr '/'].intercalate (template.segments.map TemplateSegment.text)

/-- The path has the segments that the template asks for. -/
def Accepts (template : PathTemplate) (path : Bytes) : Prop :=
  List.Forall₂ TemplateSegment.Fits template.segments (pathPieces (beforeQuery path))

/-- The two functions do on a path what the template says. -/
structure Respected (template : PathTemplate) (path : Bytes) : Prop where
  accepts : pathMatch template.text path = true ↔ template.Accepts path
  numbers : pathMatch template.text path = true →
    ∀ entry ∈ paramPieces template.segments (pathPieces (beforeQuery path)),
      PositiveLong entry.2 →
        pathParamLong template.text path entry.1 = some (decimalValue entry.2 : ℤ)

end PathTemplate

/-- What `path_match` asks for: a parameter may be empty if it is not the last segment. -/
def FitsLoosely : List TemplateSegment → List Bytes → Prop
  | [], [] => True
  | .literal text :: segments, piece :: pieces => piece = text ∧ FitsLoosely segments pieces
  | .param _ :: segments, piece :: pieces =>
    (piece ≠ [] ∨ pieces ≠ []) ∧ FitsLoosely segments pieces
  | _, _ => False

/-- The number that `path_param_long` takes from the text of a segment. -/
def segmentNumber (seg : Bytes) : Option ℤ :=
  if startsWithNumber seg ∧ 0 < strtol seg then some (strtol seg) else none

/-- The first 127 bytes fit the template loosely exactly if the whole path fits it, and every
parameter with a number has the name of the first one and reads as the same number. -/
structure PathTemplate.InReach (template : PathTemplate) (path : Bytes) : Prop where
  kept : FitsLoosely template.segments (pathPieces ((beforeQuery path).take 127)) ↔
    template.Accepts path
  numbers : FitsLoosely template.segments (pathPieces ((beforeQuery path).take 127)) →
    ∀ entry ∈ paramPieces template.segments (pathPieces (beforeQuery path)),
      PositiveLong entry.2 →
        ∃ first ∈ (paramPieces template.segments
            (pathPieces ((beforeQuery path).take 127))).head?,
          first.1.take 63 = entry.1 ∧
            segmentNumber (first.2.take 31) = some (decimalValue entry.2 : ℤ)

def behindSlash (pieces : List Bytes) : Bytes := pieces.flatMap (chr '/' :: ·)

@[simp] theorem behindSlash_nil : behindSlash [] = [] := rfl

@[simp] theorem behindSlash_cons (piece : Bytes) (pieces : List Bytes) :
    behindSlash (piece :: pieces) = chr '/' :: (piece ++ behindSlash pieces) := rfl

variable {pieces : List Bytes} {text piece name : Bytes} {segment : TemplateSegment}
  {segments : List TemplateSegment}

@[simp] theorem behindSlash_eq_nil_iff :
    behindSlash pieces = [] ↔ pieces = [] := by
  rcases pieces with _ | ⟨piece, pieces⟩
  · simp
  · simp

section Piece

variable {piece : Bytes} (plain : chr '/' ∉ piece) (pieces : List Bytes)

include plain

theorem dropWhile_piece :
    (piece ++ behindSlash pieces).dropWhile (· ≠ chr '/') = behindSlash pieces := by
  rw [dropWhile_append_of_pos]
  · rcases pieces with _ | ⟨next, pieces⟩
    · rfl
    · simp
  · intro byte mem
    simpa using ne_of_mem_of_not_mem mem plain

theorem takeWhile_piece :
    (piece ++ behindSlash pieces).takeWhile (· ≠ chr '/') = piece := by
  rw [takeWhile_append_of_pos]
  · rcases pieces with _ | ⟨next, pieces⟩
    · simp
    · simp
  · intro byte mem
    simpa using ne_of_mem_of_not_mem mem plain

end Piece

theorem pathLoop_literal (noSlash : chr '/' ∉ text) (noBrace : chr '\x7b' ∉ text)
    (plain : chr '/' ∉ piece) (texts pieces : List Bytes) :
    pathLoop false (text ++ behindSlash texts) (piece ++ behindSlash pieces) = true ↔
      piece = text ∧ pathLoop false (behindSlash texts) (behindSlash pieces) = true := by
  induction text generalizing piece with
  | nil =>
    rcases piece with _ | ⟨head, piece⟩
    · simp
    · have other : chr '/' ≠ head := fun same => plain (by simp [same])
      rcases texts with _ | ⟨next, texts⟩
      · simp [pathLoop]
      · have noParam : chr '/' ≠ chr '\x7b' := by decide
        simp [pathLoop, other, noParam]
  | cons byte text ih =>
    have notSlash : byte ≠ chr '/' := fun same => noSlash (by simp [same])
    have notBrace : byte ≠ chr '\x7b' := fun same => noBrace (by simp [same])
    rcases piece with _ | ⟨head, piece⟩
    · rcases pieces with _ | ⟨next, pieces⟩
      · simp [pathLoop]
      · simp [pathLoop, notSlash, notBrace]
    · have rest := ih (fun mem => noSlash (by simp [mem])) (fun mem => noBrace (by simp [mem]))
        (fun mem => plain (by simp [mem]) : chr '/' ∉ piece)
      by_cases same : byte = head
      · subst same
        simp [pathLoop, notBrace, rest]
      · simp [pathLoop, notBrace, same, Ne.symm same]

theorem pathLoop_inside (noBrace : chr '\x7d' ∉ name) (templ actual : Bytes) :
    pathLoop true (name ++ chr '\x7d' :: templ) actual = pathLoop false templ actual := by
  induction name with
  | nil => simp [pathLoop]
  | cons byte name ih =>
    have open' : byte ≠ chr '\x7d' := fun same => noBrace (by simp [same])
    have rest := ih fun mem => noBrace (by simp [mem])
    simp [pathLoop, open', rest]

theorem pathLoop_param (noBrace : chr '\x7d' ∉ name) (plain : chr '/' ∉ piece) (templ : Bytes)
    (pieces : List Bytes) :
    pathLoop false (chr '\x7b' :: (name ++ chr '\x7d' :: templ)) (piece ++ behindSlash pieces) =
        true ↔
      (piece ≠ [] ∨ pieces ≠ []) ∧ pathLoop false templ (behindSlash pieces) = true := by
  rcases actual : piece ++ behindSlash pieces with _ | ⟨head, rest⟩
  · have none : piece = [] ∧ pieces = [] := by simpa using actual
    simp [pathLoop, none]
  · have some : piece ≠ [] ∨ pieces ≠ [] := by
      by_contra none
      simp_all
    rw [pathLoop, ← actual, dropWhile_piece plain, pathLoop_inside noBrace]
    simp [some]

theorem pathLoop_segment (formed : segment.WellFormed) (plain : chr '/' ∉ piece)
    (segments : List TemplateSegment) (pieces : List Bytes)
    (later : pathLoop false (behindSlash (segments.map TemplateSegment.text))
        (behindSlash pieces) = true ↔ FitsLoosely segments pieces) :
    pathLoop false (segment.text ++ behindSlash (segments.map TemplateSegment.text))
        (piece ++ behindSlash pieces) = true ↔
      FitsLoosely (segment :: segments) (piece :: pieces) := by
  rcases segment with text | name
  · rw [TemplateSegment.text, pathLoop_literal formed.1 formed.2 plain, later]
    rfl
  · have shape : (TemplateSegment.param name).text ++
        behindSlash (segments.map TemplateSegment.text) =
          chr '\x7b' :: (name ++ chr '\x7d' :: behindSlash (segments.map TemplateSegment.text)) := by
      simp [TemplateSegment.text]
    rw [shape, pathLoop_param formed.2 plain, later]
    rfl

theorem pathLoop_behindSlash (formed : ∀ segment ∈ segments, segment.WellFormed)
    (plain : ∀ piece ∈ pieces, chr '/' ∉ piece) :
    pathLoop false (behindSlash (segments.map TemplateSegment.text)) (behindSlash pieces) = true ↔
      FitsLoosely segments pieces := by
  induction segments generalizing pieces with
  | nil =>
    rcases pieces with _ | ⟨piece, pieces⟩
    · simp [pathLoop, FitsLoosely]
    · simp [pathLoop, FitsLoosely]
  | cons segment segments ih =>
    rcases pieces with _ | ⟨piece, pieces⟩
    · rcases segment with text | name
      · simp [pathLoop, FitsLoosely]
      · simp [pathLoop, FitsLoosely]
    · have noParam : chr '/' ≠ chr '\x7b' := by decide
      apply pathLoop_segment (formed segment (by simp)) (plain piece (by simp))
      apply ih
      · intro other mem
        exact formed other (by simp [mem])
      · intro other mem
        exact plain other (by simp [mem])

theorem paramPieces_param (name piece : Bytes) (segments : List TemplateSegment)
    (pieces : List Bytes) :
    paramPieces (.param name :: segments) (piece :: pieces) =
      (name, piece) :: paramPieces segments pieces := rfl

theorem paramLoop_same (name : Bytes) (noBrace : chr '\x7b' ∉ text) (fuel : ℕ)
    (templ actual : Bytes) :
    paramLoop name (text.length + fuel) (text ++ templ) (text ++ actual) =
      paramLoop name fuel templ actual := by
  induction text with
  | nil => simp
  | cons byte text ih =>
    have notBrace : byte ≠ chr '\x7b' := fun same => noBrace (by simp [same])
    have length : (byte :: text).length + fuel = text.length + fuel + 1 := by
      simp only [length_cons]
      omega
    rw [length, cons_append, cons_append, paramLoop, if_neg notBrace, if_pos rfl]
    exact ih fun mem => noBrace (by simp [mem])

section Param

variable {first piece : Bytes} (noBrace : chr '\x7d' ∉ first) (plain : chr '/' ∉ piece)
  {pieces : List Bytes} (some : piece ≠ [] ∨ pieces ≠ []) (fuel : ℕ) (templ : Bytes)

include noBrace plain some

theorem paramLoop_param (name : Bytes) :
    paramLoop name (fuel + 1) (chr '\x7b' :: (first ++ chr '\x7d' :: templ))
        (piece ++ behindSlash pieces) =
      if first.take 63 = name then segmentNumber (piece.take 31)
      else
        let templ := (first ++ chr '\x7d' :: templ).drop (first.take 63).length
        let actual := (piece ++ behindSlash pieces).drop (piece.take 31).length
        paramLoop name fuel (if templ.head? = Option.some (chr '\x7d') then templ.drop 1 else templ)
          (if actual.head? = Option.some (chr '/') then actual.drop 1 else actual) := by
  have closes : (first ++ chr '\x7d' :: templ).takeWhile (· ≠ chr '\x7d') = first := by
    rw [takeWhile_append_of_pos]
    · simp
    · intro byte mem
      simpa using ne_of_mem_of_not_mem mem noBrace
  have ends := takeWhile_piece plain pieces
  rcases actual : piece ++ behindSlash pieces with _ | ⟨head, rest⟩
  · have none : piece = [] ∧ pieces = [] := by simpa using actual
    simp [none] at some
  · rw [actual] at ends
    rw [paramLoop, if_pos rfl]
    simp only [closes, ends]
    rfl

theorem paramLoop_behind_param (short : first.length ≤ 63) {name : Bytes} (other : name ≠ first)
    (late : ∀ fuel, paramLoop name fuel templ (behindSlash pieces).tail = none)
    (apart : ∀ fuel head rest, head ≠ chr '/' →
      paramLoop name fuel templ (head :: rest) = none) :
    paramLoop name (fuel + 1) (chr '\x7b' :: (first ++ chr '\x7d' :: templ))
      (piece ++ behindSlash pieces) = none := by
  rw [paramLoop_param noBrace plain some, take_of_length_le short, if_neg other.symm]
  dsimp only
  rw [drop_left, head?_cons, if_pos rfl, drop_one]
  by_cases fits : piece.length ≤ 31
  · rw [take_of_length_le fits, drop_left]
    rcases pieces with _ | ⟨next, pieces⟩
    · exact late fuel
    · exact late fuel
  · have long : (piece.take 31).length = 31 := by
      simp only [length_take]
      omega
    rw [long, drop_append_of_le_length (by omega)]
    rcases rest : piece.drop 31 with _ | ⟨head, rest'⟩
    · have := congrArg length rest
      simp only [length_drop, length_nil] at this
      omega
    · have inside : head ∈ piece := mem_of_mem_drop (by rw [rest]; simp : head ∈ piece.drop 31)
      have notSlash : head ≠ chr '/' := ne_of_mem_of_not_mem inside plain
      rw [cons_append, if_neg (by simpa using notSlash)]
      exact apart fuel head _ notSlash

end Param

theorem paramLoop_apart (name : Bytes) (texts : List Bytes) (fuel : ℕ) (head : UInt8) (rest : Bytes)
    (notSlash : head ≠ chr '/') :
    paramLoop name fuel (behindSlash texts) (head :: rest) = none := by
  have noParam : chr '/' ≠ chr '\x7b' := by decide
  rcases fuel with _ | fuel
  · rfl
  rcases texts with _ | ⟨text, texts⟩
  · rfl
  · simp [paramLoop, noParam, notSlash.symm]

theorem paramLoop_late (name : Bytes) (fits : List.Forall₂ TemplateSegment.Fits segments pieces)
    (plain : ∀ piece ∈ pieces, chr '/' ∉ piece) (fuel : ℕ) :
    paramLoop name fuel (behindSlash (segments.map TemplateSegment.text))
      (behindSlash pieces).tail = none := by
  induction fits generalizing fuel with
  | nil => rcases fuel with _ | fuel <;> rfl
  | @cons segment piece segments pieces fit rest ih =>
    rw [behindSlash_cons, tail_cons]
    rcases piece with _ | ⟨head, piece⟩
    · rcases segment with text | param
      · have empty : text = [] := Eq.symm fit
        have noParam : chr '/' ≠ chr '\x7b' := by decide
        rcases fuel with _ | fuel
        · rfl
        rcases pieces with _ | ⟨next, pieces⟩
        · rfl
        · rw [map_cons, behindSlash_cons, behindSlash_cons, TemplateSegment.text, empty,
            nil_append, nil_append, paramLoop]
          exact ih (fun other mem => plain other (by simp [mem])) fuel
      · exact absurd rfl fit
    · exact paramLoop_apart name _ fuel head _
        (ne_of_mem_of_not_mem (by simp) (plain (head :: piece) (by simp)))

/-- What the walk makes of the first parameter and of the others, from its place on. -/
structure FoundAt (name : Bytes) (first : Bytes × Bytes) (fits : Prop) (found : Option ℤ) :
    Prop where
  own : first.1.take 63 = name → found = segmentNumber (first.2.take 31)
  other : first.1.length ≤ 63 → name ≠ first.1 → fits → found = none

theorem foundAt_param (name : Bytes) {first : Bytes} (noBrace : chr '\x7d' ∉ first)
    (plain : ∀ other ∈ piece :: pieces, chr '/' ∉ other) (some : piece ≠ [] ∨ pieces ≠ []) :
    let templ := (TemplateSegment.param first).text ++
      behindSlash (segments.map TemplateSegment.text)
    FoundAt name (first, piece)
      (List.Forall₂ TemplateSegment.Fits (.param first :: segments) (piece :: pieces))
      (paramLoop name templ.length templ (piece ++ behindSlash pieces)) := by
  have shape : (TemplateSegment.param first).text ++
      behindSlash (segments.map TemplateSegment.text) =
        chr '\x7b' :: (first ++ chr '\x7d' :: behindSlash (segments.map TemplateSegment.text)) := by
    simp [TemplateSegment.text]
  have here : chr '/' ∉ piece := plain piece (by simp)
  dsimp only
  rw [shape, length_cons]
  constructor
  · intro own
    rw [paramLoop_param noBrace here some, if_pos own]
  · intro short other fits
    apply paramLoop_behind_param noBrace here some _ _ short other
    · apply paramLoop_late name (List.forall₂_cons.mp fits).2
      intro later mem
      exact plain later (by simp [mem])
    · exact paramLoop_apart name _

theorem foundAt_segments (name : Bytes) (formed : ∀ other ∈ segment :: segments, other.WellFormed)
    (plain : ∀ other ∈ piece :: pieces, chr '/' ∉ other)
    (loosely : FitsLoosely (segment :: segments) (piece :: pieces)) {first : Bytes × Bytes}
    (params : (paramPieces (segment :: segments) (piece :: pieces)).head? = some first) :
    let templ := segment.text ++ behindSlash (segments.map TemplateSegment.text)
    FoundAt name first
      (List.Forall₂ TemplateSegment.Fits (segment :: segments) (piece :: pieces))
      (paramLoop name templ.length templ (piece ++ behindSlash pieces)) := by
  induction segments generalizing segment piece pieces with
  | nil =>
    rcases segment with text | param
    · simp [paramPieces] at params
    · rw [paramPieces_param, head?_cons, Option.some.injEq] at params
      subst params
      exact foundAt_param name (formed (.param param) (by simp)).2 plain loosely.1
  | cons next segments ih =>
    rcases segment with text | param
    · rcases loosely with ⟨rfl, later⟩
      rcases pieces with _ | ⟨nextPiece, pieces⟩
      · rcases next <;> exact later.elim
      have noParam : chr '/' ≠ chr '\x7b' := by decide
      have rest := ih (fun other mem => formed other (by simp [mem]))
        (fun other mem => plain other (by simp [mem])) later params
      dsimp only at rest ⊢
      rw [TemplateSegment.text, length_append,
        paramLoop_same name (formed (.literal _) (by simp)).2, map_cons, behindSlash_cons,
        behindSlash_cons, length_cons, paramLoop]
      refine ⟨rest.own, fun short other fits => rest.other short other ?_⟩
      exact (List.forall₂_cons.mp fits).2
    · rw [paramPieces_param, head?_cons, Option.some.injEq] at params
      subst params
      exact foundAt_param name (formed (.param param) (by simp)).2 plain loosely.1

theorem fits_of_cut {front : List Bytes} {last whole : Bytes}
    (fits : List.Forall₂ TemplateSegment.Fits segments (front ++ [whole]))
    (loosely : FitsLoosely segments (front ++ [last])) :
    List.Forall₂ TemplateSegment.Fits segments (front ++ [last]) := by
  induction front generalizing segments with
  | nil =>
    rcases segments with _ | ⟨segment, segments⟩
    · exact loosely.elim
    · rcases List.forall₂_cons.mp fits with ⟨-, none⟩
      rw [List.forall₂_nil_right_iff.mp none] at loosely ⊢
      rcases segment with text | name
      · exact .cons loosely.1 .nil
      · exact .cons (loosely.1.resolve_right (by simp)) .nil
  | cons piece front ih =>
    rcases segments with _ | ⟨segment, segments⟩
    · exact loosely.elim
    · rcases List.forall₂_cons.mp fits with ⟨fit, rest⟩
      rcases segment with text | name
      · exact .cons fit (ih rest loosely.2)
      · exact .cons fit (ih rest loosely.2)

theorem length_eq_of_fitsLoosely (loosely : FitsLoosely segments pieces) :
    segments.length = pieces.length := by
  induction segments generalizing pieces with
  | nil =>
    rcases pieces with _ | ⟨piece, pieces⟩
    · rfl
    · exact loosely.elim
  | cons segment segments ih =>
    rcases pieces with _ | ⟨piece, pieces⟩
    · rcases segment <;> exact loosely.elim
    · rcases segment with text | name
      · simp [ih loosely.2]
      · simp [ih loosely.2]

theorem fits_take {path : Bytes} {count : ℕ}
    (fits : List.Forall₂ TemplateSegment.Fits segments (pathPieces path))
    (loosely : FitsLoosely segments (pathPieces (path.take count))) :
    List.Forall₂ TemplateSegment.Fits segments (pathPieces (path.take count)) := by
  have lengths : (pathPieces path).length = (pathPieces (path.take count)).length :=
    fits.length_eq.symm.trans (length_eq_of_fitsLoosely loosely)
  have cut : pathPieces (path.take count) =
      Tokens.ended (· == chr '/') (path.take count) ++
        [Tokens.unfinished (· == chr '/') (path.take count)] := Tokens.splitOnP_eq_ended _
  have whole : pathPieces path = Tokens.ended (· == chr '/') (path.take count) ++
      ((path.drop count).splitOnP (· == chr '/')).modifyHead
        (Tokens.unfinished (· == chr '/') (path.take count) ++ ·) := by
    rw [← Tokens.splitOnP_append, take_append_drop]
    rfl
  rw [cut, whole, length_append, length_append, Nat.add_left_cancel_iff] at lengths
  rcases List.length_eq_one_iff.mp lengths with ⟨rest, only⟩
  rw [whole, only] at fits
  rw [cut] at loosely ⊢
  exact fits_of_cut fits loosely

namespace PathTemplate

variable (template : PathTemplate) (path : Bytes)

theorem cleanPath_eq : cleanPath path = (beforeQuery path).take 127 := rfl

theorem exists_pieces (text : Bytes) :
    ∃ piece pieces, pathPieces text = piece :: pieces ∧ text = piece ++ behindSlash pieces ∧
      ∀ other ∈ piece :: pieces, chr '/' ∉ other := by
  rcases split : pathPieces text with _ | ⟨piece, pieces⟩
  · exact absurd split (splitOn_ne_nil _ _)
  · refine ⟨piece, pieces, rfl, ?_, ?_⟩
    · have joined : [chr '/'].intercalate (pathPieces text) = text :=
        intercalate_splitOn (chr '/')
      rw [← joined, split, Delimited.intercalate_cons_eq_append_flatMap]
      rfl
    · intro other mem
      rw [← split] at mem
      exact Search.not_mem_of_mem_splitOn mem

theorem exists_segments :
    ∃ segment segments, template.segments = segment :: segments ∧
      template.text = segment.text ++ behindSlash (segments.map TemplateSegment.text) := by
  rcases split : template.segments with _ | ⟨segment, segments⟩
  · exact absurd split template.nonempty
  · refine ⟨segment, segments, rfl, ?_⟩
    rw [text, split, map_cons, Delimited.intercalate_cons_eq_append_flatMap]
    rfl

theorem pathMatch_iff :
    pathMatch template.text path = true ↔
      FitsLoosely template.segments (pathPieces ((beforeQuery path).take 127)) := by
  rcases exists_pieces ((beforeQuery path).take 127) with ⟨piece, pieces, split, joined, plain⟩
  rcases template.exists_segments with ⟨segment, segments, isTemplate, isText⟩
  have formed := template.wellFormed
  rw [isTemplate] at formed
  rw [pathMatch, cleanPath_eq, isTemplate, isText, split, joined]
  apply pathLoop_segment (formed segment (by simp)) (plain piece (by simp))
  apply pathLoop_behindSlash
  · intro other mem
    exact formed other (by simp [mem])
  · intro other mem
    exact plain other (by simp [mem])

theorem foundAt_pathParamLong (name : Bytes)
    (loosely : FitsLoosely template.segments (pathPieces ((beforeQuery path).take 127)))
    {first : Bytes × Bytes}
    (params : (paramPieces template.segments
      (pathPieces ((beforeQuery path).take 127))).head? = some first) :
    FoundAt name first
      (List.Forall₂ TemplateSegment.Fits template.segments
        (pathPieces ((beforeQuery path).take 127)))
      (pathParamLong template.text path name) := by
  rcases exists_pieces ((beforeQuery path).take 127) with ⟨piece, pieces, split, joined, plain⟩
  rcases template.exists_segments with ⟨segment, segments, isTemplate, isText⟩
  have formed := template.wellFormed
  rw [isTemplate] at formed
  rw [isTemplate, split] at loosely params ⊢
  rw [pathParamLong, cleanPath_eq, isText, joined]
  exact foundAt_segments name formed plain loosely params

theorem map_fst_paramPieces {segments : List TemplateSegment} {pieces : List Bytes}
    (length : segments.length = pieces.length) :
    (paramPieces segments pieces).map Prod.fst = segments.filterMap TemplateSegment.name? := by
  induction segments generalizing pieces with
  | nil => rfl
  | cons segment segments ih =>
    rcases pieces with _ | ⟨piece, pieces⟩
    · simp at length
    · have rest := ih (Nat.succ.inj length)
      rcases segment with text | name
      · exact rest
      · rw [paramPieces_param, map_cons, rest]
        rfl

variable {template path}

theorem InReach.respected (inReach : template.InReach path) : template.Respected path where
  accepts := (template.pathMatch_iff path).trans inReach.kept
  numbers := by
    intro matched entry mem positive
    have loosely := (template.pathMatch_iff path).mp matched
    rcases inReach.numbers loosely entry mem positive with ⟨first, isFirst, named, number⟩
    rw [(template.foundAt_pathParamLong path entry.1 loosely isFirst).own named, number]

theorem Respected.inReach (respected : template.Respected path)
    (nameFits : ∀ name ∈ (template.segments.filterMap TemplateSegment.name?).head?,
      name.length ≤ 63) : template.InReach path where
  kept := (template.pathMatch_iff path).symm.trans respected.accepts
  numbers := by
    intro loosely entry mem positive
    have matched := (template.pathMatch_iff path).mpr loosely
    have accepted := respected.accepts.mp matched
    have value := respected.numbers matched entry mem positive
    have names := map_fst_paramPieces (length_eq_of_fitsLoosely loosely)
    have sameNames := map_fst_paramPieces accepted.length_eq
    rcases params : paramPieces template.segments (pathPieces ((beforeQuery path).take 127))
      with _ | ⟨first, others⟩
    · rw [params] at names
      rw [← names, map_nil, map_eq_nil_iff] at sameNames
      rw [sameNames] at mem
      exact absurd mem not_mem_nil
    · have found := template.foundAt_pathParamLong path entry.1 loosely (by rw [params]; rfl)
      have short : first.1.length ≤ 63 := by
        apply nameFits
        rw [← names, params]
        rfl
      refine ⟨first, rfl, ?_⟩
      by_cases named : entry.1 = first.1
      · have own : first.1.take 63 = entry.1 := by
          rw [take_of_length_le short, named]
        exact ⟨own, (found.own own).symm.trans value⟩
      · rw [found.other short named (fits_take accepted loosely)] at value
        cases value

variable (template path)

/-- The two functions respect a template on every path that is in their reach, and only there if
the name of the first parameter fits into its buffer. -/
theorem respected_iff_inReach :
    (template.InReach path → template.Respected path) ∧
      ((∀ name ∈ (template.segments.filterMap TemplateSegment.name?).head?, name.length ≤ 63) →
        template.Respected path → template.InReach path) :=
  ⟨InReach.respected, fun nameFits respected => respected.inReach nameFits⟩

end PathTemplate

def postTemplate : PathTemplate where
  segments := [.literal [], .literal (ascii "users"), .param (ascii "uid"),
    .literal (ascii "posts"), .param (ascii "pid")]
  nonempty := by decide
  wellFormed := by decide +kernel

/-- The second parameter of a path is not read, and an empty parameter is let through. -/
theorem postTemplate_not_respected :
    ¬postTemplate.Respected (ascii "/users/7/posts/42") ∧
      ¬postTemplate.Respected (ascii "/users//posts/42") := by
  constructor
  · intro respected
    have number := respected.numbers (by decide +kernel) (ascii "pid", ascii "42")
      (by decide +kernel) ⟨by decide +kernel, by decide +kernel, by decide +kernel⟩
    have unread : pathParamLong postTemplate.text (ascii "/users/7/posts/42") (ascii "pid") =
        none := by
      decide +kernel
    cases number
  · intro respected
    have accepted := respected.accepts.mp (by decide +kernel)
    have pieces : pathPieces (beforeQuery (ascii "/users//posts/42")) =
        [[], ascii "users", [], ascii "posts", ascii "42"] := by
      decide +kernel
    simp [PathTemplate.Accepts, pieces, postTemplate, TemplateSegment.Fits] at accepted

end LogGuardian
