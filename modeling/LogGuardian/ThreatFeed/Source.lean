import LogGuardian.Bytes
import LogGuardian.Lib.Url

/-!
# Sources of threat feeds

The allow list of `threat_feed.c`.
-/

namespace LogGuardian

open List

def threatFeedLocalFileAllowed (path : Bytes) : Bool :=
  if path = [] then false
  else if ascii "/etc/log-guardian/data/" <+: path then true
  else if ascii "data/" <+: path ∧ hasLit path (ascii "..") = false then true
  else false

def threatFeedUrlAllowed (url : Bytes) : Bool :=
  if url = [] then false
  else if ascii "https://" <+: url then true
  else if ascii "http://127.0.0.1" <+: url then true
  else if ascii "http://localhost" <+: url then true
  else if ascii "file://" <+: url then threatFeedLocalFileAllowed (url.drop 7)
  else false

def feedHosts : List Bytes := [ascii "127.0.0.1", ascii "localhost"]

/-- `/etc/log-guardian/data`, from its last name on. -/
def dataDirectory : List Bytes := [ascii "data", ascii "log-guardian", ascii "etc"]

def segments (path : Bytes) : List Bytes := path.splitOn (chr '/')

/-- The path leads into the data directory, or a relative one into `data`. -/
def UnderData (path : Bytes) : Prop :=
  if path.head? = some (chr '/') then dataDirectory <:+ Url.walk [] (segments path)
  else (Url.climb (segments path)).levels = 0 ∧ [ascii "data"] <:+ (Url.climb (segments path)).names

inductive SafeSource (url : Bytes) : Prop
  | https (isScheme : Url.scheme url = some (ascii "https"))
  | loopback {authority : Bytes} (isScheme : Url.scheme url = some (ascii "http"))
      (isAuthority : Url.authority url = some authority) (isHost : Url.host authority ∈ feedHosts)
  | file {path : Bytes} (isFile : url = ascii "file://" ++ path) (under : UnderData path)

/-- What may follow the name of the host: the end of the authority or a port, or else user
information ends there and such a name follows. -/
def EndsHost (rest : Bytes) : Prop :=
  if chr '@' ∈ Url.authorityText rest then Url.host (Url.authorityText rest) ∈ feedHosts
  else ∀ byte ∈ rest.head?, Url.isDelimiter byte = true ∨ byte = chr ':'

/-- The path goes back down the names of the data directory that it climbs above. -/
def ComesBack (rest : Bytes) : Prop :=
  dataDirectory.take (Url.climb (segments rest)).levels <:+ (Url.climb (segments rest)).names

theorem walk_dataDirectory (rest : Bytes) :
    Url.walk [] (segments (ascii "/etc/log-guardian/data/" ++ rest)) =
      Url.walk dataDirectory (segments rest) := by
  have split : segments (ascii "/etc/log-guardian/data/" ++ rest) =
      segments (ascii "/etc/log-guardian/data") ++ segments rest := by
    have slash : ascii "/etc/log-guardian/data/" = ascii "/etc/log-guardian/data" ++ [chr '/'] := by
      decide +kernel
    rw [slash, append_assoc]
    exact Lines.splitOn_append_cons _ _
  have names : Url.walk [] (segments (ascii "/etc/log-guardian/data")) = dataDirectory := by
    decide +kernel
  rw [split, Url.walk_append, names]

theorem underData_iff_comesBack (rest : Bytes) :
    UnderData (ascii "/etc/log-guardian/data/" ++ rest) ↔ ComesBack rest := by
  have absolute : (ascii "/etc/log-guardian/data/" ++ rest).head? = some (chr '/') := rfl
  rw [UnderData, if_pos absolute, walk_dataDirectory, Url.walk_eq_climb, ComesBack]
  generalize Url.climb (segments rest) = climb
  constructor
  · rintro ⟨above, isPath⟩
    refine ⟨above, ?_⟩
    have isNames : (above ++ dataDirectory.take climb.levels) ++ dataDirectory.drop climb.levels =
        climb.names ++ dataDirectory.drop climb.levels := by
      rw [append_assoc, take_append_drop]
      exact isPath
    exact append_cancel_right isNames
  · rintro ⟨above, isNames⟩
    refine ⟨above, ?_⟩
    rw [← isNames, append_assoc, take_append_drop]

theorem underData_of_relative {path : Bytes} (starts : ascii "data/" <+: path)
    (noDots : hasLit path (ascii "..") = false) : UnderData path := by
  rcases starts with ⟨rest, rfl⟩
  have noUp : Url.up ∉ segments (ascii "data/" ++ rest) := by
    intro mem
    have found : hasLit (ascii "data/" ++ rest) (ascii "..") = true := by
      apply Search.find_isSome_iff.mpr
      exact Search.infix_of_mem_splitOn mem
    rw [noDots] at found
    cases found
  have split : segments (ascii "data/" ++ rest) = [ascii "data"] ++ segments rest :=
    Lines.splitOn_append_cons (ascii "data") rest
  have relative : (ascii "data/" ++ rest).head? ≠ some (chr '/') := by
    change some (chr 'd') ≠ some (chr '/')
    decide
  rw [UnderData, Url.climb_of_no_up noUp, split]
  refine ⟨rfl, ?_⟩
  rw [filter_append, reverse_append]
  exact suffix_append _ _

section Http

variable {name rest : Bytes} (isName : name ∈ feedHosts)

/-- `http://` and a name of the machine itself, as the URL starts. -/
def httpUrl (name rest : Bytes) : Bytes := ascii "http://" ++ (name ++ rest)

theorem httpUrl_four (rest : Bytes) : ascii "http://127.0.0.1" ++ rest = httpUrl (ascii "127.0.0.1") rest := by
  have split : ascii "http://127.0.0.1" = ascii "http://" ++ ascii "127.0.0.1" := by decide +kernel
  rw [split, append_assoc, httpUrl]

theorem httpUrl_localhost (rest : Bytes) :
    ascii "http://localhost" ++ rest = httpUrl (ascii "localhost") rest := by
  have split : ascii "http://localhost" = ascii "http://" ++ ascii "localhost" := by decide +kernel
  rw [split, append_assoc, httpUrl]

theorem parts_httpUrl (name rest : Bytes) :
    Url.scheme (httpUrl name rest) = some (ascii "http") ∧
      Url.authority (httpUrl name rest) = some (Url.authorityText (name ++ rest)) := by
  have plain : ∀ byte ∈ ascii "http", (!Url.isDelimiter byte && byte != 0x3a) = true := by
    decide +kernel
  have nonempty : ascii "http" ≠ [] := by decide
  exact ⟨Url.scheme_of_split nonempty plain (name ++ rest),
    Url.authority_of_split nonempty plain (name ++ rest)⟩

include isName

theorem authorityText_feedHost :
    Url.authorityText (name ++ rest) = name ++ Url.authorityText rest := by
  have plain : ∀ name ∈ feedHosts, name.all (fun byte => !Url.isDelimiter byte) = true := by decide
  exact Url.authorityText_append (plain name isName) rest

theorem append_mem_feedHosts_iff (more : Bytes) : name ++ more ∈ feedHosts ↔ more = [] := by
  have lengths : ∀ name ∈ feedHosts, name.length = 9 := by decide
  constructor
  · intro mem
    have long := lengths _ mem
    rw [length_append, lengths name isName] at long
    exact List.length_eq_zero_iff.mp (by omega)
  · rintro rfl
    rwa [append_nil]

theorem host_iff_endsHost : Url.host (Url.authorityText (name ++ rest)) ∈ feedHosts ↔ EndsHost rest := by
  have facts : ∀ name ∈ feedHosts, name.head? ≠ some 0x5b ∧ name ≠ [] ∧ chr '@' ∉ name ∧
      ∀ byte ∈ name, (byte != 0x3a) = true := by decide +kernel
  rcases facts name isName with ⟨noBracket, nonempty, noAt, noColon⟩
  rw [authorityText_feedHost isName, EndsHost]
  by_cases user : chr '@' ∈ Url.authorityText rest
  · have behind : Url.host (name ++ Url.authorityText rest) = Url.host (Url.authorityText rest) := by
      rw [Url.host, Url.hostPort_append name user, Url.host]
    rw [if_pos user, behind]
  · have noUser : chr '@' ∉ name ++ Url.authorityText rest := by
      rw [mem_append, not_or]
      exact ⟨noAt, user⟩
    have head : (name ++ Url.authorityText rest).head? ≠ some 0x5b := by
      rw [List.head?_append_of_ne_nil _ nonempty]
      exact noBracket
    rw [if_neg user, Url.host, Url.hostPort_of_not_mem noUser, if_neg head,
      takeWhile_append_of_pos noColon, append_mem_feedHosts_iff isName]
    rcases rest with _ | ⟨byte, rest⟩
    · simp [Url.authorityText]
    · by_cases delimits : Url.isDelimiter byte = true
      · simp [Url.authorityText_of_delimiter delimits, delimits]
      · simp [Url.authorityText, delimits, chr]

end Http

theorem host_of_safe {name rest : Bytes} (safe : SafeSource (httpUrl name rest)) :
    Url.host (Url.authorityText (name ++ rest)) ∈ feedHosts := by
  rcases parts_httpUrl name rest with ⟨isHttp, isHttpAuthority⟩
  cases safe with
  | https isScheme =>
    rw [isHttp] at isScheme
    exact absurd isScheme (by decide)
  | loopback isScheme isAuthority isHost =>
    rw [isHttpAuthority] at isAuthority
    rwa [Option.some.inj isAuthority]
  | file isFile under =>
    have first : some (chr 'h') = some (chr 'f') := congrArg head? isFile
    exact absurd first (by decide)

theorem underData_of_safe {path : Bytes} (safe : SafeSource (ascii "file://" ++ path)) :
    UnderData path := by
  have plain : ∀ byte ∈ ascii "file", (!Url.isDelimiter byte && byte != 0x3a) = true := by
    decide +kernel
  have isFileScheme : Url.scheme (ascii "file://" ++ path) = some (ascii "file") :=
    Url.scheme_of_split (show ascii "file" ≠ [] by decide) plain path
  cases safe with
  | https isScheme =>
    rw [isFileScheme] at isScheme
    exact absurd isScheme (by decide)
  | loopback isScheme isAuthority isHost =>
    rw [isFileScheme] at isScheme
    exact absurd isScheme (by decide)
  | file isFile under => rwa [append_cancel_left isFile]

theorem allowed_httpUrl {name : Bytes} (isName : name ∈ feedHosts) (rest : Bytes) :
    threatFeedUrlAllowed (httpUrl name rest) = true := by
  have notHttps : ¬ascii "https://" <+: httpUrl name rest := by
    rintro ⟨tail, same⟩
    have fifth : some (chr 's') = some (chr ':') := congrArg (·[4]?) same
    exact absurd fifth (by decide)
  have nonempty : httpUrl name rest ≠ [] := cons_ne_nil _ _
  unfold threatFeedUrlAllowed
  rw [if_neg nonempty, if_neg notHttps]
  simp only [feedHosts, mem_cons, not_mem_nil, or_false] at isName
  rcases isName with rfl | rfl
  · exact if_pos ⟨rest, httpUrl_four rest⟩
  · split
    · rfl
    · exact if_pos ⟨rest, httpUrl_localhost rest⟩

theorem allowed_file (rest : Bytes) :
    threatFeedUrlAllowed (ascii "file://" ++ (ascii "/etc/log-guardian/data/" ++ rest)) = true := by
  have first : ∀ front : Bytes, front.head? = some (chr 'h') →
      ¬front <+: ascii "file://" ++ (ascii "/etc/log-guardian/data/" ++ rest) := by
    rintro front head ⟨tail, same⟩
    rcases front with _ | ⟨byte, front⟩
    · cases head
    · have isFirst : some byte = some (chr 'f') := congrArg head? same
      rw [head?_cons, isFirst] at head
      exact absurd head (by decide)
  have path : (ascii "file://" ++ (ascii "/etc/log-guardian/data/" ++ rest)).drop 7 =
      ascii "/etc/log-guardian/data/" ++ rest := rfl
  have nonempty : ascii "file://" ++ (ascii "/etc/log-guardian/data/" ++ rest) ≠ [] :=
    cons_ne_nil _ _
  have pathNonempty : ascii "/etc/log-guardian/data/" ++ rest ≠ [] := cons_ne_nil _ _
  rw [threatFeedUrlAllowed, if_neg nonempty, if_neg (first _ rfl), if_neg (first _ rfl),
    if_neg (first _ rfl), if_pos (prefix_append _ _), path, threatFeedLocalFileAllowed,
    if_neg pathNonempty, if_pos (prefix_append _ _)]

theorem safe_of_https {url : Bytes} (starts : ascii "https://" <+: url) : SafeSource url := by
  rcases starts with ⟨rest, rfl⟩
  have plain : ∀ byte ∈ ascii "https", (!Url.isDelimiter byte && byte != 0x3a) = true := by
    decide +kernel
  exact .https (Url.scheme_of_split (show ascii "https" ≠ [] by decide) plain rest)

theorem safe_httpUrl {name rest : Bytes} (isName : name ∈ feedHosts) (ends : EndsHost rest) :
    SafeSource (httpUrl name rest) := by
  rcases parts_httpUrl name rest with ⟨isScheme, isAuthority⟩
  exact .loopback isScheme isAuthority ((host_iff_endsHost isName).mpr ends)

/-- A URL that is allowed is safe exactly if what follows the tested start of it ends the host, or
comes back to the data directory. -/
theorem allowed_safe_iff (url : Bytes) :
    (threatFeedUrlAllowed url = true → SafeSource url) ↔
      (∀ name ∈ feedHosts, ∀ rest, url = httpUrl name rest → EndsHost rest) ∧
      ∀ rest, url = ascii "file://" ++ (ascii "/etc/log-guardian/data/" ++ rest) → ComesBack rest := by
  constructor
  · intro safe
    constructor
    · rintro name isName rest rfl
      exact (host_iff_endsHost isName).mp (host_of_safe (safe (allowed_httpUrl isName rest)))
    · rintro rest rfl
      exact (underData_iff_comesBack rest).mp (underData_of_safe (safe (allowed_file rest)))
  · rintro ⟨endsHost, comesBack⟩ allowed
    unfold threatFeedUrlAllowed at allowed
    split_ifs at allowed with empty https local4 localName file
    · exact safe_of_https https
    · rcases local4 with ⟨rest, isUrl⟩
      rw [httpUrl_four] at isUrl
      have isName : ascii "127.0.0.1" ∈ feedHosts := mem_cons_self
      rw [← isUrl]
      exact safe_httpUrl isName (endsHost _ isName rest isUrl.symm)
    · rcases localName with ⟨rest, isUrl⟩
      rw [httpUrl_localhost] at isUrl
      have isName : ascii "localhost" ∈ feedHosts := mem_cons_of_mem _ mem_cons_self
      rw [← isUrl]
      exact safe_httpUrl isName (endsHost _ isName rest isUrl.symm)
    · rcases file with ⟨path, rfl⟩
      apply SafeSource.file rfl
      change threatFeedLocalFileAllowed path = true at allowed
      unfold threatFeedLocalFileAllowed at allowed
      split_ifs at allowed with noPath absolute relative
      · rcases absolute with ⟨rest, rfl⟩
        exact (underData_iff_comesBack rest).mpr (comesBack rest rfl)
      · exact underData_of_relative relative.1 relative.2

/-- A longer host name, and a path that leaves its directory. -/
theorem allowed_unsafe :
    threatFeedUrlAllowed (ascii "http://127.0.0.1.evil.example/") = true ∧
      ¬SafeSource (ascii "http://127.0.0.1.evil.example/") ∧
      threatFeedUrlAllowed (ascii "file:///etc/log-guardian/data/../../shadow") = true ∧
      ¬SafeSource (ascii "file:///etc/log-guardian/data/../../shadow") := by
  have longer : Url.host (Url.authorityText (ascii "127.0.0.1" ++ ascii ".evil.example/")) ∉ feedHosts := by
    decide +kernel
  have leaves : Url.walk [] (segments (ascii "/etc/log-guardian/data/../../shadow")) =
      [ascii "shadow", ascii "etc"] := by decide +kernel
  refine ⟨by decide +kernel, ?_, by decide +kernel, ?_⟩
  · intro safe
    exact longer (@host_of_safe (ascii "127.0.0.1") (ascii ".evil.example/") safe)
  · intro safe
    have under := @underData_of_safe (ascii "/etc/log-guardian/data/../../shadow") safe
    rw [UnderData, if_pos (by decide), leaves] at under
    exact absurd under (by decide)

end LogGuardian
