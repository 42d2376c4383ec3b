import LogGuardian.Ban.Reserved
import LogGuardian.Parser.RoundTrip

/-!
# CIDR texts

What `ip_matches_cidr` makes of any text.
-/

namespace LogGuardian

open List

variable {plen : ℕ} {address text ip length cidr : Bytes} {bits net : BitVec 32}

theorem and_netmask_eq_iff {left right : BitVec 32} (bounded : plen ≤ 32) :
    left &&& netmask plen = right &&& netmask plen ↔
      ∀ i < plen, left.getMsbD i = right.getMsbD i := by
  have mask : ∀ i, (netmask plen).getMsbD i = decide (i < plen) := by
    have all : ∀ plen ≤ 32, ∀ i < 32, (netmask plen).getMsbD i = decide (i < plen) := by
      decide +kernel
    intro i
    rcases Nat.lt_or_ge i 32 with inside | outside
    · exact all plen bounded i inside
    · rw [BitVec.getMsbD_of_ge _ _ outside, Eq.comm, decide_eq_false_iff_not]
      omega
  constructor
  · intro same i inside
    have bit := congrArg (BitVec.getMsbD · i) same
    simpa [mask, inside] using bit
  · intro agree
    apply BitVec.eq_of_getMsbD_eq
    intro i _
    rw [BitVec.getMsbD_and, BitVec.getMsbD_and, mask]
    by_cases inside : i < plen
    · rw [agree i inside]
    · simp [inside]

theorem exists_agreeing (net : BitVec 32) {short : ℕ} (inside : short < 32) :
    ∃ bits : BitVec 32, (∀ i < short, bits.getMsbD i = net.getMsbD i) ∧
      bits.getMsbD short ≠ net.getMsbD short := by
  refine ⟨net ^^^ BitVec.twoPow 32 (31 - short), ?_, ?_⟩
  · intro i before
    have other : ¬31 - short = 31 - i := by omega
    simp [BitVec.getMsbD_eq_getLsbD, other]
  · have low : 31 - short < 32 := by omega
    simp [BitVec.getMsbD_eq_getLsbD, inside, low]

theorem agree_iff_agree {net : BitVec 32} {short long : ℕ} (le : short ≤ long) (bounded : long ≤ 32) :
    (∀ bits : BitVec 32, (∀ i < short, bits.getMsbD i = net.getMsbD i) ↔
      ∀ i < long, bits.getMsbD i = net.getMsbD i) ↔ short = long := by
  constructor
  · intro same
    by_contra different
    rcases exists_agreeing net (show short < 32 by omega) with ⟨bits, agree, differ⟩
    exact differ ((same bits).mp agree short (by omega))
  · rintro rfl bits
    exact Iff.rfl

theorem exists_inetPton4 (address : BitVec 32) : ∃ text, inetPton4 text = some address := by
  have octet : ∀ octet < 256, parseOctet (numeral octet) = some octet ∧ chr '.' ∉ numeral octet := by
    decide +kernel
  have a := octet (address.toNat / 2 ^ 24) (by omega)
  have b := octet (address.toNat / 2 ^ 16 % 256) (by omega)
  have c := octet (address.toNat / 2 ^ 8 % 256) (by omega)
  have d := octet (address.toNat % 256) (by omega)
  refine ⟨[chr '.'].intercalate [numeral (address.toNat / 2 ^ 24),
    numeral (address.toNat / 2 ^ 16 % 256), numeral (address.toNat / 2 ^ 8 % 256),
    numeral (address.toNat % 256)], ?_⟩
  have plain : ∀ part ∈ [numeral (address.toNat / 2 ^ 24), numeral (address.toNat / 2 ^ 16 % 256),
      numeral (address.toNat / 2 ^ 8 % 256), numeral (address.toNat % 256)], chr '.' ∉ part := by
    simp only [forall_mem_cons]
    exact ⟨a.2, b.2, c.2, d.2, by simp⟩
  rw [inetPton4, splitOn_intercalate _ plain (cons_ne_nil _ _)]
  simp only [a.1, b.1, c.1, d.1, Option.bind_eq_bind, Option.bind_some, Option.pure_def,
    Option.some.injEq]
  apply BitVec.eq_of_toNat_eq
  rw [BitVec.toNat_ofNat]
  omega

def cidrAddress (cidr : Bytes) : Bytes := cidr.takeWhile (· ≠ chr '/')

def cidrLength (cidr : Bytes) : Option Bytes :=
  if chr '/' ∈ cidr then some (cidr.drop ((cidrAddress cidr).length + 1)) else none

/-- The part of the text behind the slash that `atoi` is given. -/
def readLength (address length : Bytes) : Bytes := length.take (78 - address.length)

def IsDecimal (text : Bytes) : Prop := text ≠ [] ∧ ∀ byte ∈ text, isDigit byte = true

theorem cidrAddress_append (plain : chr '/' ∉ address) (length : Bytes) :
    cidrAddress (address ++ chr '/' :: length) = address := by
  rw [cidrAddress, takeWhile_append_of_pos, takeWhile_cons_of_neg (by simp),
    append_nil]
  intro byte mem
  simpa using fun same : byte = chr '/' => plain (same ▸ mem)

theorem cidr_parts (cidr : Bytes) :
    (chr '/' ∉ cidr ∧ cidrLength cidr = none ∧ cidrAddress cidr = cidr) ∨
      ∃ address length, chr '/' ∉ address ∧ cidr = address ++ chr '/' :: length ∧
        cidrLength cidr = some length ∧ cidrAddress cidr = address := by
  by_cases slash : chr '/' ∈ cidr
  · right
    rcases eq_append_cons_of_mem slash with ⟨address, length, rfl, plain⟩
    refine ⟨address, length, plain, rfl, ?_, cidrAddress_append plain length⟩
    rw [cidrLength, if_pos slash, cidrAddress_append plain, drop_length_add_append]
    rfl
  · left
    refine ⟨slash, if_neg slash, ?_⟩
    rw [cidrAddress, takeWhile_eq_self_iff]
    intro byte mem
    simpa using fun same : byte = chr '/' => slash (same ▸ mem)

theorem copyInto_slash {address length : Bytes} (plain : chr '/' ∉ address)
    (short : address.length ≤ 78) :
    let buf := copyInto 80 (address ++ chr '/' :: length)
    buf.takeWhile (· ≠ chr '/') = address ∧ chr '/' ∈ buf ∧
      buf.drop (address.length + 1) = readLength address length := by
  have cut : copyInto 80 (address ++ chr '/' :: length) =
      address ++ chr '/' :: readLength address length := by
    rw [copyInto, take_append, take_of_length_le (by omega),
      show 80 - 1 - address.length = 78 - address.length + 1 by omega]
    rfl
  rw [cut]
  refine ⟨?_, by simp, ?_⟩
  · exact cidrAddress_append plain _
  · rw [drop_length_add_append]
    rfl

theorem decimalValue_append (front back : Bytes) :
    decimalValue (front ++ back) = decimalValue front * 10 ^ back.length + decimalValue back := by
  induction back using reverseRecOn with
  | nil => simp [decimalValue]
  | append_singleton back byte ih =>
    have snoc : ∀ text : Bytes,
        decimalValue (text ++ [byte]) = 10 * decimalValue text + digitValue byte := by
      intro text
      rw [decimalValue, foldl_append]
      rfl
    rw [← append_assoc, snoc, snoc, ih, length_append, length_singleton]
    ring

theorem atoi_of_digits (digits : ∀ byte ∈ text, isDigit byte = true)
    (small : decimalValue text ≤ 32) : atoi text = decimalValue text := by
  have table : ∀ byte : UInt8, isDigit byte = true →
      isSpace byte = false ∧ byte ≠ chr '-' ∧ byte ≠ chr '+' := by
    decide +kernel
  have trimmed : text.dropWhile isSpace = text := by
    rcases text with _ | ⟨byte, rest⟩
    · rfl
    · simp [table byte (digits byte mem_cons_self)]
  have unsigned : text.head? ≠ some (chr '-') ∧ text.head? ≠ some (chr '+') := by
    rcases text with _ | ⟨byte, rest⟩
    · simp
    · have facts := table byte (digits byte mem_cons_self)
      simp [facts]
  unfold atoi strtol
  simp only [trimmed, unsigned, or_self, if_false, List.takeWhile_eq_self_iff.mpr digits]
  unfold toCInt
  rw [min_eq_left (by omega), Int.bmod_eq_of_le (by omega) (by omega)]

theorem decimalValue_take_eq_iff {count : ℕ} :
    decimalValue (text.take count) = decimalValue text ↔
      text.length ≤ count ∨ decimalValue text = 0 := by
  have parts := decimalValue_append (text.take count) (text.drop count)
  rw [take_append_drop, length_drop] at parts
  constructor
  · intro same
    by_contra cut
    rw [not_or, not_le] at cut
    have factor : 10 ≤ 10 ^ (text.length - count) :=
      le_self_pow₀ (by decide) (by omega)
    nlinarith [Nat.pos_of_ne_zero cut.2]
  · rintro (whole | zero)
    · rw [take_of_length_le whole]
    · have positive : 0 < 10 ^ (text.length - count) := by positivity
      nlinarith

theorem decimalValue_take_le (text : Bytes) (count : ℕ) :
    decimalValue (text.take count) ≤ decimalValue text := by
  have parts := decimalValue_append (text.take count) (text.drop count)
  rw [take_append_drop, length_drop] at parts
  have positive : 1 ≤ 10 ^ (text.length - count) := Nat.one_le_pow _ _ (by decide)
  nlinarith

/-- An IPv4 network with a decimal prefix length, or without one. -/
def CidrOf (cidr : Bytes) (net : BitVec 32) (plen : ℕ) : Prop :=
  inetPton4 (cidrAddress cidr) = some net ∧
    match cidrLength cidr with
    | none => plen = 32
    | some length => IsDecimal length ∧ decimalValue length = plen ∧ plen ≤ 32

/-- The text behind the slash is empty, no decimal number, or too large for the address. -/
def BadLength (cidr : Bytes) : Prop :=
  ∃ length, cidrLength cidr = some length ∧
    ¬(IsDecimal length ∧
      decimalValue length ≤ if cidrAddress cidr = ascii "::1" then 128 else 32)

structure MatchesAsWritten (cidr : Bytes) : Prop where
  block : ∀ net plen, CidrOf cidr net plen → ∀ ip bits, inetPton4 ip = some bits →
    (ipMatchesCidr ip cidr = true ↔ ∀ i < plen, bits.getMsbD i = net.getMsbD i)
  loopback : cidr = ascii "::1/128" → ipMatchesCidr (ascii "::1") cidr = true
  bad : BadLength cidr → ∀ ip, ipMatchesCidr ip cidr = false

/-- The texts that are read as they are written: a decimal length is not cut, or is zero; it is
not the IPv6 loopback; and `atoi` makes no usable length of a bad one. -/
structure ReadAsWritten (cidr : Bytes) : Prop where
  block : ∀ net plen, CidrOf cidr net plen → cidr.length < 80 ∨ plen = 0
  loopback : cidr ≠ ascii "::1/128"
  bad : BadLength cidr → ∀ length, cidrLength cidr = some length →
    ((inetPton4 (cidrAddress cidr)).isSome →
      ¬(0 ≤ atoi (readLength (cidrAddress cidr) length) ∧
        atoi (readLength (cidrAddress cidr) length) ≤ 32)) ∧
      (cidrAddress cidr = ascii "::1" → atoi (readLength (cidrAddress cidr) length) ≠ 0)

theorem ne_nil_of_inetPton4 (parsed : inetPton4 ip = some bits) :
    ip ≠ [] := by
  rintro rfl
  cases parsed

theorem ipMatchesCidr_slash (plain : chr '/' ∉ address) (network : inetPton4 address = some net)
    (parsed : inetPton4 ip = some bits) :
    ipMatchesCidr ip (address ++ chr '/' :: length) = true ↔
      (0 ≤ atoi (readLength address length) ∧ atoi (readLength address length) ≤ 32) ∧
        bits &&& netmask (atoi (readLength address length)).toNat =
          net &&& netmask (atoi (readLength address length)).toNat := by
  have short := length_le_of_inetPton4 network
  rcases @copyInto_slash address length plain (by omega) with ⟨front, slash, behind⟩
  rw [ipMatchesCidr_iff parsed (by simp), cidrNetwork]
  rw [front, if_pos slash, behind, network]
  generalize atoi (readLength address length) = plen
  by_cases outside : plen < 0 ∨ 32 < plen
  · rw [if_pos outside]
    simp only [Option.mem_def, reduceCtorEq, false_and, exists_false, false_iff]
    omega
  · have inside : 0 ≤ plen ∧ plen ≤ 32 := by omega
    simp [inside]

theorem ipMatchesCidr_host (plain : chr '/' ∉ address) (network : inetPton4 address = some net)
    (parsed : inetPton4 ip = some bits) :
    ipMatchesCidr ip address = true ↔ bits &&& netmask 32 = net &&& netmask 32 := by
  have short := length_le_of_inetPton4 network
  have whole : address.takeWhile (· ≠ chr '/') = address := by
    rcases cidr_parts address with ⟨-, -, same⟩ | ⟨front, behind, -, slash, -⟩
    · exact same
    · rw [slash] at plain
      simp at plain
  rw [ipMatchesCidr_iff parsed (ne_nil_of_inetPton4 network), cidrNetwork]
  rw [copyInto_of_length_lt (by omega), whole, if_neg plain, network]
  simp

theorem block_iff (isCidr : CidrOf cidr net plen) :
    (∀ ip bits, inetPton4 ip = some bits →
      (ipMatchesCidr ip cidr = true ↔ ∀ i < plen, bits.getMsbD i = net.getMsbD i)) ↔
      cidr.length < 80 ∨ plen = 0 := by
  rcases isCidr with ⟨network, prefixed⟩
  rcases cidr_parts cidr with
    ⟨plain, noSlash, same⟩ | ⟨address, length, plain, shape, hasSlash, front⟩
  · rw [noSlash] at prefixed
    rw [same] at network
    have short := length_le_of_inetPton4 network
    simp only [prefixed]
    apply iff_of_true
    · intro ip bits parsed
      rw [ipMatchesCidr_host plain network parsed, and_netmask_eq_iff le_rfl]
    · left
      omega
  · rw [hasSlash] at prefixed
    rw [front] at network
    rcases prefixed with ⟨decimal, value, bounded⟩
    have below := decimalValue_take_le length (78 - address.length)
    have read : atoi (readLength address length) = (decimalValue (readLength address length) : ℤ) :=
      atoi_of_digits (fun byte mem => decimal.2 byte (mem_of_mem_take mem))
        (by rw [readLength]; omega)
    have hits : ∀ ip bits, inetPton4 ip = some bits → (ipMatchesCidr ip cidr = true ↔
        ∀ i < decimalValue (readLength address length), bits.getMsbD i = net.getMsbD i) := by
      intro ip bits parsed
      rw [shape, ipMatchesCidr_slash plain network parsed, read,
        and_netmask_eq_iff (by rw [readLength]; omega)]
      apply and_iff_right
      rw [readLength]
      omega
    have cut : decimalValue (readLength address length) = plen ↔ cidr.length < 80 ∨ plen = 0 := by
      have short := length_le_of_inetPton4 network
      rw [readLength, ← value, decimalValue_take_eq_iff, shape, length_append,
        length_cons]
      apply or_congr_left
      omega
    rw [← cut, ← @agree_iff_agree net _ _ (by rw [readLength]; omega) bounded]
    constructor
    · intro every bits
      rcases exists_inetPton4 bits with ⟨ip, parsed⟩
      rw [← hits ip bits parsed, every ip bits parsed]
    · intro every ip bits parsed
      rw [hits ip bits parsed, every bits]

theorem of_ipMatchesCidr (hit : ipMatchesCidr ip cidr = true) :
    let buf := copyInto 80 cidr
    let network := buf.takeWhile (· ≠ chr '/')
    let plen := if chr '/' ∈ buf then atoi (buf.drop (network.length + 1)) else 32
    (0 ≤ plen ∧ plen ≤ 32) ∧
      (network = ascii "::1" ∧ plen = 0 ∨ (inetPton4 network).isSome = true) := by
  simp only [ipMatchesCidr] at hit
  dsimp only
  generalize (copyInto 80 cidr).takeWhile (· ≠ chr '/') = network at hit ⊢
  generalize (if chr '/' ∈ copyInto 80 cidr then
    atoi ((copyInto 80 cidr).drop (network.length + 1)) else 32) = plen at hit ⊢
  split_ifs at hit with empty outside loopback
  · refine ⟨by omega, Or.inl ⟨loopback.1, ?_⟩⟩
    have bound := of_decide_eq_true hit
    omega
  · refine ⟨by omega, Or.inr ?_⟩
    split at hit
    next parsed => rw [parsed]; rfl
    next => cases hit

theorem length_le_of_ipMatchesCidr (hit : ipMatchesCidr ip cidr = true) :
    ((copyInto 80 cidr).takeWhile (· ≠ chr '/')).length ≤ 15 := by
  rcases (of_ipMatchesCidr hit).2 with ⟨loopback, -⟩ | parsed
  · rw [loopback]
    decide
  · rcases Option.isSome_iff_exists.mp parsed with ⟨bits, network⟩
    exact length_le_of_inetPton4 network

theorem bad_iff (slash : cidrLength cidr = some length) :
    (∀ ip, ipMatchesCidr ip cidr = false) ↔
      ((inetPton4 (cidrAddress cidr)).isSome →
        ¬(0 ≤ atoi (readLength (cidrAddress cidr) length) ∧
          atoi (readLength (cidrAddress cidr) length) ≤ 32)) ∧
        (cidrAddress cidr = ascii "::1" → atoi (readLength (cidrAddress cidr) length) ≠ 0) := by
  rcases cidr_parts cidr with ⟨-, noSlash, -⟩ | ⟨address, behind, plain, shape, hasSlash, front⟩
  · rw [noSlash] at slash
    cases slash
  rw [hasSlash] at slash
  cases slash
  rw [front, shape]
  constructor
  · intro never
    constructor
    · intro parsed inside
      rcases Option.isSome_iff_exists.mp parsed with ⟨net, network⟩
      have hit := (ipMatchesCidr_slash plain network network).mpr ⟨inside, rfl⟩
      rw [never address] at hit
      cases hit
    · rintro rfl zero
      rcases @copyInto_slash (ascii "::1") length plain (by decide) with ⟨network, mem, rest⟩
      have nonempty : ascii "::1" ≠ [] := by decide
      have hit : ipMatchesCidr (ascii "::1") (ascii "::1" ++ chr '/' :: length) = true := by
        simp only [ipMatchesCidr, network, mem, rest, zero]
        simp [nonempty]
      rw [never] at hit
      cases hit
  · rintro ⟨noBlock, noLoopback⟩ ip
    by_contra hit
    rw [Bool.not_eq_false] at hit
    have short : address.length ≤ 78 := by
      by_contra long
      have bound := length_le_of_ipMatchesCidr hit
      rw [copyInto, take_append_of_le_length (by omega), List.takeWhile_eq_self_iff.mpr,
        length_take] at bound
      · omega
      · intro byte mem
        simpa using fun same : byte = chr '/' => plain (same ▸ mem_of_mem_take mem)
    rcases @copyInto_slash address length plain short with ⟨network, mem, rest⟩
    have read := of_ipMatchesCidr hit
    dsimp only at read
    rw [network, if_pos mem, rest] at read
    rcases read with ⟨inside, ⟨loopback, zero⟩ | parsed⟩
    · exact noLoopback loopback zero
    · exact noBlock parsed inside

theorem readAsWritten_of_matchesAsWritten (written : MatchesAsWritten cidr) :
    ReadAsWritten cidr where
  block net plen isCidr := (block_iff isCidr).mp (written.block net plen isCidr)
  loopback loopback := by
    have refused : ipMatchesCidr (ascii "::1") (ascii "::1/128") = false := by decide
    have hit := written.loopback loopback
    rw [loopback, refused] at hit
    cases hit
  bad bad _ slash := (bad_iff slash).mp (written.bad bad)

theorem matchesAsWritten_of_readAsWritten (read : ReadAsWritten cidr) :
    MatchesAsWritten cidr where
  block net plen isCidr := (block_iff isCidr).mpr (read.block net plen isCidr)
  loopback loopback := absurd loopback read.loopback
  bad bad := by
    rcases bad with ⟨length, slash, wrong⟩
    exact (bad_iff slash).mpr (read.bad ⟨length, slash, wrong⟩ length slash)

/-- A text is matched as it is written exactly if it is read as it is written; and a list of such
texts trusts a peer only for an entry that is well formed. -/
theorem matchesAsWritten_iff (text : Bytes) (cidrs : List Bytes) :
    (MatchesAsWritten text ↔ ReadAsWritten text) ∧
      ((∀ cidr ∈ cidrs, ReadAsWritten cidr) → ∀ ip, ipMatchesCidrList ip cidrs = true →
        ∃ cidr ∈ cidrs, ¬BadLength cidr ∧ ipMatchesCidr ip cidr = true) := by
  refine ⟨⟨readAsWritten_of_matchesAsWritten, matchesAsWritten_of_readAsWritten⟩, ?_⟩
  intro read ip trusted
  simp only [ipMatchesCidrList, any_eq_true, Bool.and_eq_true] at trusted
  rcases trusted with ⟨cidr, listed, -, hit⟩
  refine ⟨cidr, listed, ?_, hit⟩
  intro bad
  rw [(matchesAsWritten_of_readAsWritten (read cidr listed)).bad bad ip] at hit
  cases hit

/-- An entry without a length trusts every peer, as does a length of 2 to the power of 32; the
loopback is not matched. -/
theorem cidrs_not_matched_as_written :
    ipMatchesCidrList (ascii "203.0.113.9") [ascii "10.0.0.0/"] = true ∧
      ¬MatchesAsWritten (ascii "10.0.0.0/") ∧
      ipMatchesCidrList (ascii "203.0.113.9") [ascii "10.0.0.0/4294967296"] = true ∧
      ¬MatchesAsWritten (ascii "10.0.0.0/4294967296") ∧ ¬MatchesAsWritten (ascii "::1/128") := by
  have emptyHit : ipMatchesCidr (ascii "203.0.113.9") (ascii "10.0.0.0/") = true := by
    decide +kernel
  have largeHit : ipMatchesCidr (ascii "203.0.113.9") (ascii "10.0.0.0/4294967296") = true := by
    decide +kernel
  refine ⟨by decide +kernel, ?_, by decide +kernel, ?_, ?_⟩
  · intro written
    have bad : BadLength (ascii "10.0.0.0/") :=
      ⟨[], by decide +kernel, fun decimal => decimal.1.1 rfl⟩
    rw [written.bad bad] at emptyHit
    cases emptyHit
  · intro written
    have bad : BadLength (ascii "10.0.0.0/4294967296") :=
      ⟨ascii "4294967296", by decide +kernel, fun decimal => absurd decimal.2 (by decide +kernel)⟩
    rw [written.bad bad] at largeHit
    cases largeHit
  · intro written
    exact absurd (written.loopback rfl) (by decide +kernel)

end LogGuardian
