import LogGuardian.Lib.Lines

/-!
# URLs and paths
-/

namespace Url

open List

abbrev Text := List UInt8

section Words

universe u

variable {α : Type u}

theorem takeWhile_eq_iff {goes : α → Bool} {text word : List α} :
    text.takeWhile goes = word ↔ (∀ symbol ∈ word, goes symbol = true) ∧
      ∃ rest, text = word ++ rest ∧ ∀ symbol ∈ rest.head?, goes symbol = false := by
  constructor
  · rintro rfl
    refine ⟨fun symbol mem => mem_takeWhile_imp mem, text.dropWhile goes,
      (takeWhile_append_dropWhile).symm, ?_⟩
    intro symbol isHead
    have stops := head?_dropWhile_not goes text
    rw [Option.mem_def.mp isHead] at stops
    simpa using stops
  · rintro ⟨goesOn, rest, rfl, stops⟩
    rw [takeWhile_append_of_pos goesOn]
    rcases rest with _ | ⟨symbol, rest⟩
    · simp
    · have stop := stops symbol rfl
      simp [stop]

end Words

/-- A byte that ends an authority. -/
def isDelimiter (byte : UInt8) : Bool := byte = 0x2f || byte = 0x3f || byte = 0x23

/-- The text up to the path, the query or the fragment. -/
def authorityText (rest : Text) : Text := rest.takeWhile fun byte => !isDelimiter byte

/-- The scheme of a URL. -/
def scheme (url : Text) : Option Text :=
  let name := url.takeWhile fun byte => !isDelimiter byte && byte != 0x3a
  if name ≠ [] ∧ (url.drop name.length).head? = some 0x3a then some name else none

/-- The authority of a URL, behind the two slashes. -/
def authority (url : Text) : Option Text :=
  (scheme url).bind fun name =>
    let rest := url.drop (name.length + 1)
    if [0x2f, 0x2f] <+: rest then some (authorityText (rest.drop 2)) else none

/-- The authority without its user information. -/
def hostPort (authority : Text) : Text :=
  (authority.reverse.takeWhile fun byte => byte != 0x40).reverse

/-- The host: an address in brackets, or everything up to the port. -/
def host (authority : Text) : Text :=
  if (hostPort authority).head? = some 0x5b then
    ((hostPort authority).takeWhile fun byte => byte != 0x5d) ++
      ((hostPort authority).dropWhile fun byte => byte != 0x5d).take 1
  else (hostPort authority).takeWhile fun byte => byte != 0x3a

section Split

variable {name : Text} (nonempty : name ≠ [])
  (plain : ∀ byte ∈ name, (!isDelimiter byte && byte != 0x3a) = true) (rest : Text)

include nonempty plain

theorem scheme_of_split : scheme (name ++ 0x3a :: 0x2f :: 0x2f :: rest) = some name := by
  have isName : (name ++ 0x3a :: 0x2f :: 0x2f :: rest).takeWhile
      (fun byte => !isDelimiter byte && byte != 0x3a) = name :=
    takeWhile_eq_iff.mpr ⟨plain, _, rfl, by simp⟩
  simp [scheme, isName, nonempty]

theorem authority_of_split : authority (name ++ 0x3a :: 0x2f :: 0x2f :: rest) =
    some (authorityText rest) := by
  have behind : (name ++ 0x3a :: 0x2f :: 0x2f :: rest).drop (name.length + 1) =
      0x2f :: 0x2f :: rest := by
    rw [← drop_drop, drop_left]
    rfl
  rw [authority, scheme_of_split nonempty plain, Option.bind_some]
  simp only [behind]
  exact if_pos (prefix_append [0x2f, 0x2f] rest)

end Split

theorem split_of_authority {url name parsed : Text} (isScheme : scheme url = some name)
    (isAuthority : authority url = some parsed) :
    ∃ rest, url = name ++ 0x3a :: 0x2f :: 0x2f :: rest := by
  have isName : url.takeWhile (fun byte => !isDelimiter byte && byte != 0x3a) = name ∧
      (url.drop name.length).head? = some 0x3a := by
    rw [scheme] at isScheme
    split at isScheme
    · rename_i named
      cases Option.some.inj isScheme
      exact ⟨rfl, named.2⟩
    · cases isScheme
  rcases takeWhile_eq_iff.mp isName.1 with ⟨-, tail, isTail, -⟩
  have behind : url.drop name.length = tail := by rw [isTail, drop_left]
  rw [behind] at isName
  rcases tail with _ | ⟨colon, tail⟩
  · cases isName.2
  · have isColon : colon = 0x3a := Option.some.inj isName.2
    have next : url.drop (name.length + 1) = tail := by
      rw [← drop_drop, behind]
      rfl
    rw [authority, isScheme, Option.bind_some] at isAuthority
    simp only [next] at isAuthority
    split at isAuthority
    · rename_i slashes
      rcases slashes with ⟨rest, isRest⟩
      refine ⟨rest, ?_⟩
      rw [isTail, isColon, ← isRest]
      rfl
    · cases isAuthority

theorem authorityText_append {word : Text} (plain : word.all (fun byte => !isDelimiter byte) = true)
    (tail : Text) : authorityText (word ++ tail) = word ++ authorityText tail :=
  takeWhile_append_of_pos (List.all_eq_true.mp plain)

theorem authorityText_of_delimiter {byte : UInt8} (delimits : isDelimiter byte = true) (tail : Text) :
    authorityText (byte :: tail) = [] := by
  simp [authorityText, delimits]

theorem hostPort_append (front : Text) {authority : Text} (user : 0x40 ∈ authority) :
    hostPort (front ++ authority) = hostPort authority := by
  have stops : ¬∀ byte ∈ authority.reverse, (byte != 0x40) = true := by
    intro goes
    exact absurd (goes 0x40 (List.mem_reverse.mpr user)) (by decide)
  have short : (authority.reverse.takeWhile fun byte => byte != 0x40).length ≠
      authority.reverse.length := by
    intro whole
    apply stops
    rw [← takeWhile_eq_self_iff]
    exact ( takeWhile_prefix _).eq_of_length whole
  rw [hostPort, reverse_append, takeWhile_append, if_neg short, hostPort]

theorem hostPort_of_not_mem {authority : Text} (plain : 0x40 ∉ authority) :
    hostPort authority = authority := by
  have goes : ∀ byte ∈ authority.reverse, (byte != 0x40) = true := by
    intro byte mem
    rw [mem_reverse] at mem
    have notAt : byte ≠ 0x40 := fun isAt => plain (isAt ▸ mem)
    simpa using notAt
  rw [hostPort, List.takeWhile_eq_self_iff.mpr goes, reverse_reverse]

def up : Text := [0x2e, 0x2e]

/-- A segment that leads nowhere. -/
def isIdle (segment : Text) : Bool := segment = [] || segment = [0x2e]

/-- One segment from a directory, which is given by its names from the last one on. -/
def enter (directory : List Text) (segment : Text) : List Text :=
  if isIdle segment then directory
  else if segment = up then directory.tail
  else segment :: directory

def walk (directory : List Text) (segments : List Text) : List Text := segments.foldl enter directory

theorem walk_append (directory first second : List Text) :
    walk directory (first ++ second) = walk (walk directory first) second :=
  foldl_append

/-- How far a relative path climbs, and the names that it then goes down, from the last one on. -/
structure Climb where
  levels : ℕ
  names : List Text
  deriving DecidableEq, Repr

def Climb.enter (climb : Climb) (segment : Text) : Climb :=
  if isIdle segment then climb
  else if segment = up then
    match climb.names with
    | [] => ⟨climb.levels + 1, []⟩
    | _ :: names => ⟨climb.levels, names⟩
  else ⟨climb.levels, segment :: climb.names⟩

def climb (segments : List Text) : Climb := segments.foldl Climb.enter ⟨0, []⟩

theorem enter_append_drop (directory : List Text) (climb : Climb) (segment : Text) :
    enter (climb.names ++ directory.drop climb.levels) segment =
      (climb.enter segment).names ++ directory.drop (climb.enter segment).levels := by
  unfold enter Climb.enter
  split
  · rfl
  · split
    · rcases climb with ⟨levels, _ | ⟨name, names⟩⟩
      · simp
      · rfl
    · rfl

theorem walk_eq_climb (directory segments : List Text) :
    walk directory segments = (climb segments).names ++ directory.drop (climb segments).levels := by
  induction segments using reverseRecOn with
  | nil => rfl
  | append_singleton segments segment ih =>
    rw [walk, foldl_append, climb, foldl_append]
    change enter (walk directory segments) segment = _
    rw [ih, enter_append_drop]
    rfl

theorem climb_of_no_up {segments : List Text} (noUp : up ∉ segments) :
    climb segments = ⟨0, (segments.filter fun segment => !isIdle segment).reverse⟩ := by
  induction segments using reverseRecOn with
  | nil => rfl
  | append_singleton segments segment ih =>
    rw [mem_append, mem_singleton, not_or] at noUp
    rw [climb, foldl_append, ← climb, ih noUp.1]
    by_cases idle : isIdle segment = true
    · simp [Climb.enter, idle]
    · simp [Climb.enter, idle, Ne.symm noUp.2]

end Url
