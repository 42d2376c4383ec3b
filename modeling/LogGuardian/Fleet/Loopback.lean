import LogGuardian.Bytes
import LogGuardian.Lib.Url

/-!
# TLS to loopback servers
-/

namespace LogGuardian

open List

def stripBrackets (host : Bytes) : Bytes :=
  if 2 ≤ host.length ∧ host.head? = some (chr '[') ∧ host.getLast? = some (chr ']') then
    host.tail.dropLast
  else host

def urlHostIsLoopback (url : Bytes) : Bool :=
  if ascii "https://" <+: url then
    let upToSlash := (url.drop 8).takeWhile (· ≠ chr '/')
    let host := stripBrackets (upToSlash.takeWhile (· ≠ chr ':'))
    host = ascii "localhost" || host = ascii "127.0.0.1" || host = ascii "::1"
  else false

/-- `CURLOPT_SSL_VERIFYPEER` and `CURLOPT_SSL_VERIFYHOST`. -/
structure CurlTls where
  verifyPeer : Bool
  verifyHost : Bool
  deriving DecidableEq, Repr

def applyCurlTlsForUrl (tls : CurlTls) (url : Bytes) : CurlTls :=
  if urlHostIsLoopback url then ⟨false, false⟩ else tls

def loopbackHosts : List Bytes := [ascii "localhost", ascii "127.0.0.1", ascii "[::1]"]

/-- An `https` URL whose host is the machine itself. -/
def IsLoopback (url : Bytes) : Prop :=
  Url.scheme url = some (ascii "https") ∧
    ∃ authority, Url.authority url = some authority ∧ Url.host authority ∈ loopbackHosts

/-- The verification is given up for the loopback hosts and for no others. -/
structure RelaxedForLoopback (url : Bytes) : Prop where
  returned : urlHostIsLoopback url = true ↔ IsLoopback url
  relaxed : applyCurlTlsForUrl ⟨true, true⟩ url ≠ ⟨true, true⟩ ↔ IsLoopback url

def loopbackNames : List Bytes := [ascii "localhost", ascii "127.0.0.1"]

def bracketed (name : Bytes) : Bytes := chr '[' :: (name ++ [chr ']'])

/-- The text behind a word is empty or starts with a slash or a colon. -/
def EndsWord (tail : Bytes) : Prop := ∀ byte ∈ tail.head?, byte = chr '/' ∨ byte = chr ':'

/-- The texts behind `https://` that the check takes apart rightly. -/
def PlainHost (rest : Bytes) : Prop :=
  if chr '@' ∈ Url.authorityText rest then
    (∃ name ∈ loopbackNames, name ++ [chr ':'] <+: rest ∨ bracketed name ++ [chr ':'] <+: rest) ↔
      Url.host (Url.authorityText rest) ∈ loopbackHosts
  else
    Url.host (Url.authorityText rest) ≠ ascii "[::1]" ∧ ∀ name ∈ loopbackNames,
      (∀ tail, rest = bracketed name ++ tail → ¬EndsWord tail) ∧
      ¬name ++ [chr '?'] <+: rest ∧ ¬name ++ [chr '#'] <+: rest

def isHostByte (byte : UInt8) : Bool := byte ≠ chr '/' && byte ≠ chr ':'

def acceptedWords : List Bytes := loopbackNames ++ loopbackNames.map bracketed

theorem takeWhile_isHostByte_eq_iff {rest word : Bytes} (plain : word.all isHostByte = true) :
    rest.takeWhile isHostByte = word ↔ ∃ tail, rest = word ++ tail ∧ EndsWord tail := by
  have ends : ∀ byte, isHostByte byte = false ↔ byte = chr '/' ∨ byte = chr ':' := by
    intro byte
    simp only [isHostByte, Bool.and_eq_false_iff, decide_eq_false_iff_not, not_not]
  rw [Url.takeWhile_eq_iff]
  simp only [ends]
  constructor
  · rintro ⟨-, found⟩
    exact found
  · intro found
    exact ⟨List.all_eq_true.mp plain, found⟩

theorem all_isHostByte_of_accepted : ∀ word ∈ acceptedWords, word.all isHostByte = true := by
  decide

theorem mem_acceptedWords {host : Bytes} : host ∈ acceptedWords ↔
    host ∈ loopbackNames ∨ ∃ name ∈ loopbackNames, host = bracketed name := by
  simp [acceptedWords, eq_comm]

theorem bracketed_injective : Function.Injective bracketed := by
  intro first second same
  exact append_cancel_right (tail_eq_of_cons_eq same)

theorem eq_bracketed {host : Bytes} (long : 2 ≤ host.length) (opens : host.head? = some (chr '['))
    (closes : host.getLast? = some (chr ']')) : host = bracketed host.tail.dropLast := by
  rcases host with _ | ⟨first, rest⟩
  · cases opens
  · have nonempty : rest ≠ [] := by
      rintro rfl
      exact absurd long (Nat.lt_irrefl 1)
    have isFirst : first = chr '[' := Option.some.inj opens
    have isLast : rest.getLast nonempty = chr ']' := by
      rw [getLast?_cons, getLast?_eq_some_getLast nonempty] at closes
      exact Option.some.inj closes
    rw [bracketed, isFirst, tail_cons, ← isLast, dropLast_append_getLast nonempty]

theorem accepted_iff {host : Bytes} (noColon : chr ':' ∉ host) :
    (stripBrackets host = ascii "localhost" || stripBrackets host = ascii "127.0.0.1" ||
      stripBrackets host = ascii "::1") = true ↔ host ∈ acceptedWords := by
  have noAddress : ∀ name : Bytes, name ⊆ host →
      ((name = ascii "localhost" || name = ascii "127.0.0.1" || name = ascii "::1") = true ↔
        name ∈ loopbackNames) := by
    intro name within
    have notAddress : name ≠ ascii "::1" := by
      rintro rfl
      exact noColon (within (by decide))
    simp [loopbackNames, notAddress]
  rw [mem_acceptedWords]
  by_cases brackets : 2 ≤ host.length ∧ host.head? = some (chr '[') ∧ host.getLast? = some (chr ']')
  · have isBracketed := eq_bracketed brackets.1 brackets.2.1 brackets.2.2
    have notName : host ∉ loopbackNames := by
      intro isName
      have heads : ∀ name ∈ loopbackNames, name.head? ≠ some (chr '[') := by decide
      exact heads host isName brackets.2.1
    have inner : host.tail.dropLast ⊆ host :=
      List.Subset.trans (dropLast_subset _) (tail_subset host)
    rw [stripBrackets, if_pos brackets, noAddress _ inner]
    constructor
    · intro isName
      exact .inr ⟨_, isName, isBracketed⟩
    · rintro (isName | ⟨name, isName, isHost⟩)
      · exact absurd isName notName
      · rw [isBracketed] at isHost
        rwa [bracketed_injective isHost]
  · rw [stripBrackets, if_neg brackets, noAddress _ (List.Subset.refl _)]
    constructor
    · exact .inl
    · rintro (isName | ⟨name, isName, rfl⟩)
      · exact isName
      · have hasBrackets : ∀ name ∈ loopbackNames, 2 ≤ (bracketed name).length ∧
            (bracketed name).head? = some (chr '[') ∧
            (bracketed name).getLast? = some (chr ']') := by decide
        exact absurd (hasBrackets name isName) brackets

theorem urlHostIsLoopback_iff (rest : Bytes) : urlHostIsLoopback (ascii "https://" ++ rest) = true ↔
    rest.takeWhile isHostByte ∈ acceptedWords := by
  have word : (rest.takeWhile (· ≠ chr '/')).takeWhile (· ≠ chr ':') = rest.takeWhile isHostByte := by
    rw [takeWhile_takeWhile]
    congr 1
    funext byte
    simp [isHostByte, Bool.and_comm]
  have noColon : chr ':' ∉ rest.takeWhile isHostByte := by
    intro mem
    have goes := mem_takeWhile_imp mem
    exact absurd goes (by decide)
  have behind : (ascii "https://" ++ rest).drop 8 = rest := rfl
  unfold urlHostIsLoopback
  rw [if_pos (prefix_append _ _), behind]
  dsimp only
  rw [word]
  exact accepted_iff noColon

section Host

variable {rest : Bytes}

theorem isLoopback_iff (rest : Bytes) :
    IsLoopback (ascii "https://" ++ rest) ↔ Url.host (Url.authorityText rest) ∈ loopbackHosts := by
  have plain : ∀ byte ∈ ascii "https", (!Url.isDelimiter byte && byte != 0x3a) = true := by
    decide +kernel
  have nonempty : ascii "https" ≠ [] := by decide
  have isScheme := Url.scheme_of_split nonempty plain rest
  have isAuthority := Url.authority_of_split nonempty plain rest
  change (Url.scheme (ascii "https" ++ 0x3a :: 0x2f :: 0x2f :: rest) = _ ∧ ∃ authority,
    Url.authority (ascii "https" ++ 0x3a :: 0x2f :: 0x2f :: rest) = some authority ∧ _) ↔ _
  rw [isScheme, isAuthority]
  constructor
  · rintro ⟨-, authority, same, isHost⟩
    rw [Option.some.inj same]
    exact isHost
  · intro isHost
    exact ⟨rfl, _, rfl, isHost⟩

theorem all_not_isDelimiter_of_accepted :
    ∀ word ∈ acceptedWords, word.all (fun byte => !Url.isDelimiter byte) = true := by
  decide

theorem authorityText_of_endsWord {tail : Bytes} (ends : EndsWord tail) :
    Url.authorityText tail = [] ∨ ∃ port, tail = chr ':' :: port := by
  rcases tail with _ | ⟨byte, tail⟩
  · exact .inl rfl
  · rcases ends byte rfl with rfl | rfl
    · exact .inl (Url.authorityText_of_delimiter (by decide) tail)
    · exact .inr ⟨tail, rfl⟩

section NoUserInfo

variable (noUser : chr '@' ∉ Url.authorityText rest)

include noUser

variable {name tail : Bytes}

theorem host_of_name (isName : name ∈ loopbackNames) (isRest : rest = name ++ tail)
    (ends : Url.authorityText tail = [] ∨ ∃ port, tail = chr ':' :: port) :
    Url.host (Url.authorityText rest) = name := by
  have facts : ∀ name ∈ loopbackNames, name.head? ≠ some (chr '[') ∧ name ≠ [] ∧
      ∀ byte ∈ name, (byte != 0x3a) = true := by decide +kernel
  rcases facts name isName with ⟨noBracket, nonempty, noColon⟩
  have accepted : name ∈ acceptedWords := mem_append_left _ isName
  have isAuthority : Url.authorityText rest = name ++ Url.authorityText tail := by
    rw [isRest, Url.authorityText_append (all_not_isDelimiter_of_accepted name accepted)]
  have head : (Url.authorityText rest).head? ≠ some 0x5b := by
    rw [isAuthority, head?_append_of_ne_nil _ nonempty]
    exact noBracket
  rw [Url.host, Url.hostPort_of_not_mem noUser, if_neg head, isAuthority]
  apply Url.takeWhile_eq_iff.mpr
  refine ⟨noColon, Url.authorityText tail, rfl, ?_⟩
  intro byte isHead
  rcases ends with empty | ⟨port, rfl⟩
  · rw [empty] at isHead
    cases isHead
  · have isColon : some (chr ':') = some byte := isHead
    cases Option.some.inj isColon
    rfl

theorem host_of_bracketed (isName : name ∈ loopbackNames) (isRest : rest = bracketed name ++ tail) :
    Url.host (Url.authorityText rest) = bracketed name := by
  have facts : ∀ name ∈ loopbackNames, ∀ byte ∈ chr '[' :: name, (byte != 0x5d) = true := by
    decide +kernel
  have accepted : bracketed name ∈ acceptedWords :=
    mem_append_right _ (mem_map_of_mem isName)
  have isAuthority : Url.authorityText rest = (chr '[' :: name) ++ 0x5d :: Url.authorityText tail := by
    rw [isRest, Url.authorityText_append (all_not_isDelimiter_of_accepted _ accepted), bracketed]
    simp [chr]
  have head : (Url.authorityText rest).head? = some 0x5b := by
    rw [isAuthority]
    rfl
  rw [Url.host, Url.hostPort_of_not_mem noUser, isAuthority,
    takeWhile_append_of_pos (facts name isName), dropWhile_append_of_pos (facts name isName)]
  simp [bracketed, chr]

theorem exists_tail_of_host (isName : name ∈ loopbackNames)
    (isHost : Url.host (Url.authorityText rest) = name) : ∃ tail, rest = name ++ tail ∧
      (EndsWord tail ∨ (∃ after, tail = chr '?' :: after) ∨ ∃ after, tail = chr '#' :: after) := by
  have noBracket : (Url.authorityText rest).head? ≠ some 0x5b := by
    intro opens
    rw [Url.host, Url.hostPort_of_not_mem noUser] at isHost
    have heads : ∀ name ∈ loopbackNames, name.head? ≠ some 0x5b := by decide
    apply heads name isName
    rw [← isHost]
    rcases text : Url.authorityText rest with _ | ⟨byte, bytes⟩
    · rw [text] at opens
      cases opens
    · rw [text] at opens
      cases Option.some.inj opens
      rfl
  rw [Url.host, Url.hostPort_of_not_mem noUser, if_neg noBracket] at isHost
  rcases Url.takeWhile_eq_iff.mp isHost with ⟨-, port, isAuthority, ends⟩
  rcases Url.takeWhile_eq_iff.mp isAuthority with ⟨-, behind, isRest, delimits⟩
  refine ⟨port ++ behind, by rw [isRest, append_assoc], ?_⟩
  rcases port with _ | ⟨byte, port⟩
  · rcases behind with _ | ⟨byte, behind⟩
    · exact .inl (fun byte isHead => by cases isHead)
    · have delimiter : Url.isDelimiter byte = true := by simpa using delimits byte rfl
      simp only [Url.isDelimiter, Bool.or_eq_true, decide_eq_true_eq] at delimiter
      rcases delimiter with (rfl | rfl) | rfl
      · left
        intro byte isHead
        exact .inl (Option.some.inj isHead).symm
      · exact .inr (.inl ⟨behind, rfl⟩)
      · exact .inr (.inr ⟨behind, rfl⟩)
  · left
    intro first isHead
    have isColon : byte = 0x3a := by simpa using ends byte rfl
    cases Option.some.inj isHead
    exact .inr isColon

theorem takeWhile_of_address (isHost : Url.host (Url.authorityText rest) = ascii "[::1]") :
    rest.takeWhile isHostByte = [chr '['] := by
  have opens : (Url.authorityText rest).head? = some 0x5b := by
    by_contra noBracket
    rw [Url.host, Url.hostPort_of_not_mem noUser, if_neg noBracket] at isHost
    have goes := (Url.takeWhile_eq_iff.mp isHost).1
    exact absurd (goes 0x3a (by decide)) (by decide)
  rw [Url.host, Url.hostPort_of_not_mem noUser, if_pos opens] at isHost
  have isAuthority : Url.authorityText rest = ascii "[::1]" ++
      ((Url.authorityText rest).dropWhile fun byte => byte != 0x5d).drop 1 := by
    rw [← isHost, append_assoc, take_append_drop, takeWhile_append_dropWhile]
  rcases Url.takeWhile_eq_iff.mp isAuthority with ⟨-, behind, isRest, -⟩
  rw [isRest]
  rfl

end NoUserInfo

end Host

section Exact

variable {rest : Bytes}

theorem not_accepted_of_mark {name : Bytes} (isName : name ∈ loopbackNames) {mark : UInt8}
    (isMark : mark = chr '?' ∨ mark = chr '#') (marked : name ++ [mark] <+: rest) :
    rest.takeWhile isHostByte ∉ acceptedWords := by
  have plain : ∀ word ∈ acceptedWords, chr '?' ∉ word ∧ chr '#' ∉ word := by decide
  have goes : ∀ byte ∈ name ++ [mark], isHostByte byte = true := by
    intro byte mem
    rcases List.mem_append.mp mem with mem | mem
    · exact List.all_eq_true.mp (all_isHostByte_of_accepted name (mem_append_left _ isName)) byte mem
    · rw [List.mem_singleton.mp mem]
      rcases isMark with rfl | rfl <;> decide
  rcases marked with ⟨tail, rfl⟩
  intro accepted
  rw [takeWhile_append_of_pos goes] at accepted
  have inside : mark ∈ name ++ [mark] ++ tail.takeWhile isHostByte := by simp
  rcases isMark with rfl | rfl
  · exact (plain _ accepted).1 inside
  · exact (plain _ accepted).2 inside

theorem host_of_mark {name : Bytes} (noUser : chr '@' ∉ Url.authorityText rest)
    (isName : name ∈ loopbackNames) {mark : UInt8} (isMark : mark = chr '?' ∨ mark = chr '#')
    (marked : name ++ [mark] <+: rest) : Url.host (Url.authorityText rest) = name := by
  rcases marked with ⟨tail, isRest⟩
  have split : rest = name ++ mark :: tail := by
    rw [← isRest, append_assoc]
    rfl
  apply host_of_name noUser isName split
  left
  apply Url.authorityText_of_delimiter
  rcases isMark with rfl | rfl <;> decide

theorem mem_loopbackHosts_of_name : ∀ name ∈ loopbackNames, name ∈ loopbackHosts := by decide

theorem bracketed_not_mem_loopbackHosts : ∀ name ∈ loopbackNames, bracketed name ∉ loopbackHosts := by
  decide

theorem accepted_iff_host_iff_of_noUser (noUser : chr '@' ∉ Url.authorityText rest) :
    (rest.takeWhile isHostByte ∈ acceptedWords ↔ Url.host (Url.authorityText rest) ∈ loopbackHosts) ↔
      PlainHost rest := by
  have plainName : ∀ name ∈ loopbackNames, name.all isHostByte = true := fun name isName =>
    all_isHostByte_of_accepted name (mem_append_left _ isName)
  have plainBracketed : ∀ name ∈ loopbackNames, (bracketed name).all isHostByte = true :=
    fun name isName => all_isHostByte_of_accepted _ (mem_append_right _ (mem_map_of_mem isName))
  rw [PlainHost, if_neg noUser]
  constructor
  · intro agree
    refine ⟨?_, fun name isName => ⟨?_, ?_, ?_⟩⟩
    · intro isHost
      have accepted := agree.mpr (by rw [isHost]; decide)
      rw [takeWhile_of_address noUser isHost] at accepted
      exact absurd accepted (by decide)
    · intro tail isRest ends
      have word := (takeWhile_isHostByte_eq_iff (plainBracketed name isName)).mpr ⟨tail, isRest, ends⟩
      have accepted : rest.takeWhile isHostByte ∈ acceptedWords := by
        rw [word]
        exact mem_append_right _ (mem_map_of_mem isName)
      have isHost := agree.mp accepted
      rw [host_of_bracketed noUser isName isRest] at isHost
      exact bracketed_not_mem_loopbackHosts name isName isHost
    · intro marked
      apply not_accepted_of_mark isName (.inl rfl) marked
      apply agree.mpr
      rw [host_of_mark noUser isName (.inl rfl) marked]
      exact mem_loopbackHosts_of_name name isName
    · intro marked
      apply not_accepted_of_mark isName (.inr rfl) marked
      apply agree.mpr
      rw [host_of_mark noUser isName (.inr rfl) marked]
      exact mem_loopbackHosts_of_name name isName
  · rintro ⟨noAddress, plain⟩
    constructor
    · intro accepted
      rcases mem_acceptedWords.mp accepted with isName | ⟨name, isName, isWord⟩
      · rcases (takeWhile_isHostByte_eq_iff (plainName _ isName)).mp rfl with ⟨tail, isRest, ends⟩
        rw [host_of_name noUser isName isRest (authorityText_of_endsWord ends)]
        exact mem_loopbackHosts_of_name _ isName
      · rcases (takeWhile_isHostByte_eq_iff (plainBracketed name isName)).mp isWord with
          ⟨tail, isRest, ends⟩
        exact absurd ends ((plain name isName).1 tail isRest)
    · intro isHost
      have isName : Url.host (Url.authorityText rest) ∈ loopbackNames := by
        simp only [loopbackHosts, mem_cons, not_mem_nil, or_false] at isHost
        rcases isHost with isHost | isHost | isHost
        · rw [isHost]
          decide
        · rw [isHost]
          decide
        · exact absurd isHost noAddress
      rcases exists_tail_of_host noUser isName rfl with ⟨tail, isRest, ends | ⟨after, rfl⟩ | ⟨after, rfl⟩⟩
      · rw [(takeWhile_isHostByte_eq_iff (plainName _ isName)).mpr ⟨tail, isRest, ends⟩]
        exact mem_append_left _ isName
      · apply absurd _ (plain _ isName).2.1
        exact ⟨after, by rw [append_assoc]; exact isRest.symm⟩
      · apply absurd _ (plain _ isName).2.2
        exact ⟨after, by rw [append_assoc]; exact isRest.symm⟩

theorem accepted_iff_of_user (user : chr '@' ∈ Url.authorityText rest) :
    rest.takeWhile isHostByte ∈ acceptedWords ↔ ∃ name ∈ loopbackNames,
      name ++ [chr ':'] <+: rest ∨ bracketed name ++ [chr ':'] <+: rest := by
  have colon : ∀ word ∈ acceptedWords,
      (rest.takeWhile isHostByte = word ↔ word ++ [chr ':'] <+: rest) := by
    intro word accepted
    have noAt : ∀ word ∈ acceptedWords, chr '@' ∉ word := by decide
    rw [takeWhile_isHostByte_eq_iff (all_isHostByte_of_accepted word accepted)]
    constructor
    · rintro ⟨tail, isRest, ends⟩
      rcases authorityText_of_endsWord ends with empty | ⟨port, rfl⟩
      · rw [isRest, Url.authorityText_append (all_not_isDelimiter_of_accepted word accepted), empty,
          append_nil] at user
        exact absurd user (noAt word accepted)
      · exact ⟨port, by rw [isRest, append_assoc]; rfl⟩
    · rintro ⟨port, isRest⟩
      refine ⟨chr ':' :: port, by rw [← isRest, append_assoc]; rfl, ?_⟩
      intro byte isHead
      exact .inr (Option.some.inj isHead).symm
  rw [mem_acceptedWords]
  constructor
  · rintro (isName | ⟨name, isName, isWord⟩)
    · exact ⟨_, isName, .inl ((colon _ (mem_append_left _ isName)).mp rfl)⟩
    · refine ⟨name, isName, .inr ((colon _ ?_).mp isWord)⟩
      exact mem_append_right _ (mem_map_of_mem isName)
  · rintro ⟨name, isName, starts | starts⟩
    · rw [(colon name (mem_append_left _ isName)).mpr starts]
      exact .inl isName
    · right
      refine ⟨name, isName, (colon _ ?_).mpr starts⟩
      exact mem_append_right _ (mem_map_of_mem isName)

end Exact

theorem accepted_iff_host_iff (rest : Bytes) :
    (rest.takeWhile isHostByte ∈ acceptedWords ↔ Url.host (Url.authorityText rest) ∈ loopbackHosts) ↔
      PlainHost rest := by
  by_cases user : chr '@' ∈ Url.authorityText rest
  · rw [accepted_iff_of_user user, PlainHost, if_pos user]
  · exact accepted_iff_host_iff_of_noUser user

theorem relaxed_iff (url : Bytes) :
    applyCurlTlsForUrl ⟨true, true⟩ url ≠ ⟨true, true⟩ ↔ urlHostIsLoopback url = true := by
  unfold applyCurlTlsForUrl
  split
  · rename_i isLoopback
    simp [isLoopback]
  · rename_i notLoopback
    simp [notLoopback]

/-- The verification is relaxed for exactly the loopback hosts if the URL is not `https` or its text
is plain. -/
theorem relaxedForLoopback_iff (url : Bytes) :
    RelaxedForLoopback url ↔ ∀ rest, url = ascii "https://" ++ rest → PlainHost rest := by
  constructor
  · rintro ⟨returned, -⟩ rest rfl
    rw [urlHostIsLoopback_iff, isLoopback_iff] at returned
    exact (accepted_iff_host_iff rest).mp returned
  · intro plain
    have returned : urlHostIsLoopback url = true ↔ IsLoopback url := by
      by_cases https : ascii "https://" <+: url
      · rcases https with ⟨rest, rfl⟩
        rw [urlHostIsLoopback_iff, isLoopback_iff]
        exact (accepted_iff_host_iff rest).mpr (plain rest rfl)
      · constructor
        · intro accepted
          rw [urlHostIsLoopback, if_neg https] at accepted
          cases accepted
        · rintro ⟨isScheme, authority, isAuthority, -⟩
          rcases Url.split_of_authority isScheme isAuthority with ⟨rest, rfl⟩
          exact absurd ⟨rest, rfl⟩ https
    exact ⟨returned, (relaxed_iff url).trans returned⟩

/-- The password of the user information follows a name of the machine itself. -/
theorem relaxed_for_other_host :
    urlHostIsLoopback (ascii "https://localhost:x@evil.example/") = true ∧
      Url.authority (ascii "https://localhost:x@evil.example/") = some (ascii "localhost:x@evil.example") ∧
      Url.host (ascii "localhost:x@evil.example") = ascii "evil.example" ∧
      ¬RelaxedForLoopback (ascii "https://localhost:x@evil.example/") := by
  have accepted : urlHostIsLoopback (ascii "https://localhost:x@evil.example/") = true := by
    decide +kernel
  have isAuthority : Url.authority (ascii "https://localhost:x@evil.example/") =
      some (ascii "localhost:x@evil.example") := by decide +kernel
  have isHost : Url.host (ascii "localhost:x@evil.example") = ascii "evil.example" := by
    decide +kernel
  refine ⟨accepted, isAuthority, isHost, ?_⟩
  rintro ⟨returned, -⟩
  rcases returned.mp accepted with ⟨-, authority, same, isLoopback⟩
  rw [isAuthority] at same
  rw [← Option.some.inj same, isHost] at isLoopback
  exact absurd isLoopback (by decide)

end LogGuardian
