import LogGuardian.Ban.Reserved

/-!
# Spellings of an address
-/

namespace LogGuardian

open List

variable {text address front group ip : Bytes} {state final flushed : Pton6}
  {left right : BitVec 32}

theorem pton6Loop_invariant {Invariant : Pton6 → Prop}
    (digit : ∀ state value seen, Invariant state →
      Invariant { state with value := value, xdigitsSeen := seen })
    (colon : ∀ state rest, state.colonp = none → Invariant state →
      Invariant { state with colonp := some state.written.length, curtok := rest })
    (group : ∀ state flushed rest, state.flushGroup = some flushed → Invariant state →
      Invariant { flushed with curtok := rest })
    (tail : ∀ state address, state.written.length + 4 ≤ 16 → Invariant state →
      Invariant { state with written := state.written ++ octets address, xdigitsSeen := 0 })
    (parsed : pton6Loop text state = some final) (start : Invariant state) : Invariant final := by
  induction text generalizing state with
  | nil =>
    cases parsed
    exact start
  | cons byte rest ih =>
    rw [pton6Loop] at parsed
    rcases hex : hexDigit byte with _ | value
    · rw [hex] at parsed
      dsimp only at parsed
      split_ifs at parsed with isColon fresh again last isTail
      · apply ih parsed
        exact colon state rest (Option.not_isSome_iff_eq_none.mp again) start
      · rcases flush : state.flushGroup with _ | flushed
        · rw [flush] at parsed
          cases parsed
        · rw [flush] at parsed
          exact ih parsed (group state flushed rest flush start)
      · rcases Option.map_eq_some_iff.mp parsed with ⟨address, -, rfl⟩
        exact tail state address isTail.2 start
    · rw [hex] at parsed
      dsimp only at parsed
      split_ifs at parsed
      exact ih parsed (digit state _ _ start)

theorem pton6Finish_cases (finished : pton6Finish state = some address) :
    ∃ flushed, (state = flushed ∨ state.flushGroup = some flushed) ∧
      (flushed.colonp = none ∧ address = flushed.written ∨
        ∃ colon, flushed.colonp = some colon ∧ flushed.written.length ≠ 16 ∧
          address = flushed.written.take colon ++ (List.replicate (16 - flushed.written.length) 0 ++
            flushed.written.drop colon)) := by
  have counted : ∃ flushed, (state = flushed ∨ state.flushGroup = some flushed) ∧
      pton6Finish { flushed with xdigitsSeen := 0 } = some address := by
    rw [pton6Finish] at finished
    split_ifs at finished
    · rcases Option.bind_eq_some_iff.mp finished with ⟨flushed, flush, ends⟩
      exact ⟨flushed, Or.inr flush, ends⟩
    · exact ⟨state, Or.inl rfl, finished⟩
  rcases counted with ⟨flushed, reached, ends⟩
  simp only [pton6Finish, gt_iff_lt, lt_irrefl, if_false, Option.bind_eq_bind, Option.bind_some]
    at ends
  refine ⟨flushed, reached, ?_⟩
  rcases colonp : flushed.colonp with _ | colon
  · rw [colonp] at ends
    split_ifs at ends
    exact Or.inl ⟨rfl, (Option.some.inj ends).symm⟩
  · rw [colonp] at ends
    split_ifs at ends with full
    refine Or.inr ⟨colon, rfl, full, ?_⟩
    rw [← append_assoc]
    exact (Option.some.inj ends).symm

/-- The bytes in front are written and stay in front. -/
def Pton6.Fronted (front : Bytes) (state : Pton6) : Prop :=
  front <+: state.written ∧ ∀ colon, state.colonp = some colon → front.length ≤ colon

theorem Pton6.Fronted.flush (fronted : state.Fronted front)
    (flush : state.flushGroup = some flushed) :
    flushed.Fronted front := by
  rw [Pton6.flushGroup] at flush
  split_ifs at flush
  cases flush
  exact ⟨fronted.1.trans (prefix_append _ _), fronted.2⟩

theorem fronted_pton6Loop (fronted : state.Fronted front)
    (parsed : pton6Loop text state = some final) :
    final.Fronted front := by
  apply pton6Loop_invariant _ _ _ _ parsed fronted
  · exact fun _ _ _ before => before
  · intro state rest _ before
    refine ⟨before.1, ?_⟩
    rintro _ ⟨⟩
    exact before.1.length_le
  · intro state flushed rest flush before
    have after := before.flush flush
    exact after
  · exact fun _ _ _ before => ⟨before.1.trans (prefix_append _ _), before.2⟩

theorem prefix_of_pton6Finish (fronted : state.Fronted front)
    (finished : pton6Finish state = some address) :
    front <+: address := by
  rcases pton6Finish_cases finished with ⟨flushed, flush, ends⟩
  have before : flushed.Fronted front := by
    rcases flush with rfl | flush
    · exact fronted
    · exact fronted.flush flush
  rcases ends with ⟨-, rfl⟩ | ⟨colon, colonp, -, rfl⟩
  · exact before.1
  · exact (List.prefix_take_iff.mpr ⟨before.1, before.2 colon colonp⟩).trans
      (prefix_append _ _)

/-- The text began with `::`, and whole groups are written behind it. -/
def Pton6.Compressed (state : Pton6) : Prop :=
  state.colonp = some 0 ∧ state.written.length % 2 = 0 ∧ state.written.length ≤ 16

theorem Pton6.Compressed.flush (compressed : state.Compressed)
    (flush : state.flushGroup = some flushed) : flushed.Compressed := by
  rcases flushGroup_eq_some flush with ⟨room, length, -, colon⟩
  refine ⟨colon.trans compressed.1, ?_, ?_⟩
  · have even := compressed.2.1
    omega
  · omega

theorem compressed_pton6Loop (compressed : state.Compressed)
    (parsed : pton6Loop text state = some final) : final.Compressed := by
  apply pton6Loop_invariant _ _ _ _ parsed compressed
  · exact fun _ _ _ before => before
  · intro state rest none before
    rw [before.1] at none
    cases none
  · intro state flushed rest flush before
    have after := before.flush flush
    exact after
  · intro state address room before
    have even := before.2.1
    refine ⟨before.1, ?_, ?_⟩ <;> simp [octets] <;> omega

theorem zeros_of_pton6Finish (compressed : state.Compressed)
    (finished : pton6Finish state = some address) : [0, 0] <+: address := by
  rcases pton6Finish_cases finished with ⟨flushed, flush, ends⟩
  have before : flushed.Compressed := by
    rcases flush with rfl | flush
    · exact compressed
    · exact compressed.flush flush
  rcases ends with ⟨none, -⟩ | ⟨colon, colonp, notFull, rfl⟩
  · rw [before.1] at none
    cases none
  · have even := before.2.1
    have bound := before.2.2
    have zeros : 16 - flushed.written.length = 14 - flushed.written.length + 1 + 1 := by omega
    cases before.1.symm.trans colonp
    rw [take_zero, zeros]
    exact prefix_append [0, 0] _

def firstGroup (ip : Bytes) : Bytes := ip.takeWhile fun byte => (hexDigit byte).isSome

theorem digits_firstGroup (ip : Bytes) : ∀ byte ∈ firstGroup ip, (hexDigit byte).isSome = true := by
  intro byte mem
  simpa using mem_takeWhile_imp mem

def groupValue (value : ℕ) (group : Bytes) : ℕ :=
  group.foldl (fun value byte => value * 16 + (hexDigit byte).getD 0) value

theorem pton6Loop_group {rest : Bytes} (digits : ∀ byte ∈ group, (hexDigit byte).isSome = true)
    (parsed : pton6Loop (group ++ rest) state = some final) (room : state.xdigitsSeen ≤ 4) :
    state.xdigitsSeen + group.length ≤ 4 ∧
      pton6Loop rest { state with
        value := groupValue state.value group
        xdigitsSeen := state.xdigitsSeen + group.length } = some final := by
  induction group generalizing state with
  | nil => exact ⟨room, parsed⟩
  | cons byte group ih =>
    rw [forall_mem_cons] at digits
    rcases Option.isSome_iff_exists.mp digits.1 with ⟨value, hex⟩
    rw [cons_append, pton6Loop, hex] at parsed
    dsimp only at parsed
    split_ifs at parsed with full
    rcases ih digits.2 parsed (by dsimp only; omega) with ⟨length, later⟩
    dsimp only at length later
    refine ⟨by rw [length_cons]; omega, ?_⟩
    rw [groupValue, foldl_cons, hex, length_cons,
      show state.xdigitsSeen + (group.length + 1) = state.xdigitsSeen + 1 + group.length by omega]
    exact later

def groupBytes (group : Bytes) : Bytes :=
  [(groupValue 0 group / 256).toUInt8, (groupValue 0 group % 256).toUInt8]

theorem inetPton6_start (parsed : inetPton6 ip = some address) :
    (∃ rest, ip = chr ':' :: chr ':' :: rest ∧ [0, 0] <+: address) ∨
      ∃ rest, ip = firstGroup ip ++ chr ':' :: rest ∧ firstGroup ip ≠ [] ∧
        (firstGroup ip).length ≤ 4 ∧ groupBytes (firstGroup ip) <+: address := by
  rcases ip with _ | ⟨first, rest⟩
  · cases parsed
  rw [inetPton6] at parsed
  split_ifs at parsed with isColon single
  · left
    rw [ne_eq, not_not] at single
    rcases rest with _ | ⟨second, rest⟩
    · cases single
    · cases single
      subst isColon
      refine ⟨rest, rfl, ?_⟩
      rcases Option.bind_eq_some_iff.mp parsed with ⟨final, loop, finished⟩
      have notHex : hexDigit (chr ':') = none := by decide
      rw [pton6Loop, notHex] at loop
      exact zeros_of_pton6Finish (compressed_pton6Loop ⟨rfl, rfl, by simp⟩ loop) finished
  · right
    rcases Option.bind_eq_some_iff.mp parsed with ⟨final, loop, finished⟩
    generalize whole : first :: rest = ip at loop ⊢
    have parts : ip = firstGroup ip ++ ip.dropWhile fun byte => (hexDigit byte).isSome :=
      List.takeWhile_append_dropWhile.symm
    have digits := digits_firstGroup ip
    have unfinished : ∀ state : Pton6, state.colonp = none → state.written.length ≤ 4 →
        pton6Finish state ≠ some address := by
      intro state none short finished
      have full := (pton6Finish_eq_some finished).2.mp none
      split at full <;> omega
    rw [parts] at loop
    rcases pton6Loop_group digits loop (Nat.zero_le 4) with ⟨length, loop⟩
    rw [Nat.zero_add] at length
    rcases behind : ip.dropWhile (fun byte => (hexDigit byte).isSome) with _ | ⟨byte, tail⟩
    · rw [behind] at loop
      cases loop
      exact absurd finished (unfinished _ rfl (by simp))
    · have notHex : hexDigit byte = none := by
        have stop := head?_dropWhile_not (fun byte => (hexDigit byte).isSome) ip
        rw [behind] at stop
        simpa using stop
      rw [behind] at loop parts
      rw [pton6Loop, notHex] at loop
      dsimp only at loop
      split_ifs at loop with isColon' fresh again last isTail
      · rw [Nat.zero_add, length_eq_zero_iff] at fresh
        rw [fresh, isColon', ← whole] at parts
        exact absurd (List.cons.inj parts).1 isColon
      · subst isColon'
        refine ⟨tail, parts, ?_, length, ?_⟩
        · intro empty
          rw [empty] at fresh
          exact fresh rfl
        · apply prefix_of_pton6Finish _ finished
          apply fronted_pton6Loop _ loop
          exact ⟨prefix_rfl, by simp⟩
      · rcases Option.map_eq_some_iff.mp loop with ⟨bits, -, rfl⟩
        exact absurd finished (unfinished _ rfl (by simp [octets]))

/-- The sixteen bytes of `::ffff:a.b.c.d`. -/
def mappedAddress (bits : BitVec 32) : Bytes := List.replicate 10 0 ++ 0xff :: 0xff :: octets bits

def targetBytes (ip : Bytes) : Option Bytes :=
  if isIpv6Addr ip then inetPton6 ip else (inetPton4 ip).map mappedAddress

/-- `fe80::/10`. -/
def LinkLocal (address : Bytes) : Prop := address.getD 0 0 = 0xfe ∧ address.getD 1 0 &&& 0xc0 = 0x80

/-- `fc00::/7`. -/
def UniqueLocal (address : Bytes) : Prop := address.getD 0 0 &&& 0xfe = 0xfc

/-- `ff00::/8`. -/
def Multicast (address : Bytes) : Prop := address.getD 0 0 = 0xff

/-- `::1`. -/
def loopbackAddress : Bytes := List.replicate 15 0 ++ [1]

def reservedV4 (bits : BitVec 32) : Prop :=
  ∃ network ∈ reservedNetworks, bits &&& netmask network.2 = network.1 &&& netmask network.2

def ReservedTarget (address : Bytes) : Prop :=
  LinkLocal address ∨ UniqueLocal address ∨ Multicast address ∨ address = loopbackAddress ∨
    ∃ bits, address = mappedAddress bits ∧ reservedV4 bits

/-- All letters are small, or all are capital. -/
def OneCase (letters : Bytes) : Prop :=
  (∀ letter ∈ letters, chr 'a' ≤ letter) ∨ ∀ letter ∈ letters, letter < chr 'a'

/-- The tests of `is_reserved_ban_target` that end inside the first group. -/
def openPrefixes : List Bytes :=
  [ascii "fc", ascii "fd", ascii "FC", ascii "FD", ascii "ff", ascii "FF"]

/-- The spellings that `is_reserved_ban_target` sees through. -/
structure SpelledPlainly (ip address : Bytes) : Prop where
  linkLocal : LinkLocal address → firstGroup ip = ascii "fe80" ∨ firstGroup ip = ascii "FE80"
  oneCase : UniqueLocal address ∨ Multicast address → OneCase (ip.take 2)
  loopback : address = loopbackAddress → ip = ascii "::1"
  mapped : ∀ bits, address = mappedAddress bits → ¬reservedV4 bits
  short : ¬ReservedTarget address → ∀ front ∈ openPrefixes, ¬front <+: ip

theorem isReservedBanTarget_v6 (colon : isIpv6Addr ip = true) (parsed : inetPton6 ip = some address) :
    isReservedBanTarget ip = true ↔
      ip = ascii "::1" ∨ (ascii "fe80:" <+: ip ∨ ascii "FE80:" <+: ip) ∨
        ∃ front ∈ openPrefixes, front <+: ip := by
  have valid : isValidIp ip = true := by simp [isValidIp, parsed]
  have listed : v6ReservedPrefixes = ascii "fe80:" :: ascii "FE80:" :: openPrefixes := rfl
  simp [isReservedBanTarget, valid, colon, listed, or_assoc]

theorem hexDigit_facts : ∀ byte : UInt8, (hexDigit byte).isSome = true →
    (hexDigit byte).getD 0 < 16 ∧
      ((hexDigit byte).getD 0 = 15 ↔ byte = chr 'f' ∨ byte = chr 'F') ∧
      ((hexDigit byte).getD 0 = 14 ↔ byte = chr 'e' ∨ byte = chr 'E') ∧
      ((hexDigit byte).getD 0 = 13 ↔ byte = chr 'd' ∨ byte = chr 'D') ∧
      ((hexDigit byte).getD 0 = 12 ↔ byte = chr 'c' ∨ byte = chr 'C') := by
  decide +kernel

theorem getD_of_groupBytes (front : groupBytes group <+: address) :
    address.getD 0 0 = (groupValue 0 group / 256).toUInt8 ∧
      address.getD 1 0 = (groupValue 0 group % 256).toUInt8 := by
  rcases front with ⟨rest, rfl⟩
  exact ⟨rfl, rfl⟩

theorem group_of_high (digits : ∀ byte ∈ group, (hexDigit byte).isSome = true)
    (length : group.length ≤ 4) (high : 240 ≤ groupValue 0 group / 256) :
    ∃ a b c d, group = [a, b, c, d] ∧ (hexDigit a).getD 0 = 15 ∧
      (hexDigit b).getD 0 = groupValue 0 group / 256 - 240 ∧ groupValue 0 group / 256 < 256 := by
  rcases group with _ | ⟨a, _ | ⟨b, _ | ⟨c, _ | ⟨d, _ | ⟨e, group⟩⟩⟩⟩⟩
  all_goals simp only [forall_mem_cons, length_cons, groupValue, foldl_cons,
    foldl_nil] at digits length high
  · omega
  · have first := (hexDigit_facts a digits.1).1
    omega
  · have first := (hexDigit_facts a digits.1).1
    have second := (hexDigit_facts b digits.2.1).1
    omega
  · have first := (hexDigit_facts a digits.1).1
    have second := (hexDigit_facts b digits.2.1).1
    have third := (hexDigit_facts c digits.2.2.1).1
    omega
  · have first := (hexDigit_facts a digits.1).1
    have second := (hexDigit_facts b digits.2.1).1
    have third := (hexDigit_facts c digits.2.2.1).1
    have fourth := (hexDigit_facts d digits.2.2.2.1).1
    refine ⟨a, b, c, d, rfl, by omega, ?_, ?_⟩ <;>
      simp only [groupValue, foldl_cons, foldl_nil] <;> omega
  · omega

theorem openPrefixes_eq :
    openPrefixes = [[102, 99], [102, 100], [70, 67], [70, 68], [102, 102], [70, 70]] := by
  decide +kernel

theorem text_of_high (parsed : inetPton6 ip = some address) (high : 240 ≤ (address.getD 0 0).toNat) :
    ∃ a b c d rest, ip = a :: b :: c :: d :: chr ':' :: rest ∧ firstGroup ip = [a, b, c, d] ∧
      (a = chr 'f' ∨ a = chr 'F') ∧ (hexDigit b).isSome = true ∧
      (hexDigit b).getD 0 = (address.getD 0 0).toNat - 240 := by
  rcases inetPton6_start parsed with ⟨rest, -, ⟨tail, rfl⟩⟩ | ⟨rest, shape, -, length, front⟩
  · have zero : (([0, 0] ++ tail).getD 0 0).toNat = 0 := rfl
    omega
  · have digits := digits_firstGroup ip
    have first := (getD_of_groupBytes front).1
    have bound : groupValue 0 (firstGroup ip) / 256 % 256 = (address.getD 0 0).toNat := by
      rw [first]
      rfl
    have large : 240 ≤ groupValue 0 (firstGroup ip) / 256 := by omega
    rcases group_of_high digits length large with ⟨a, b, c, d, group, firstDigit, second, small⟩
    rw [group] at shape digits
    simp only [forall_mem_cons] at digits
    refine ⟨a, b, c, d, rest, shape, group, ?_, digits.2.1, by omega⟩
    exact ((hexDigit_facts a digits.1).2.1).mp firstDigit

theorem linkLocal_of_prefix (parsed : inetPton6 ip = some address)
    (spelled : ascii "fe80:" <+: ip ∨ ascii "FE80:" <+: ip) : LinkLocal address := by
  have group : firstGroup ip = ascii "fe80" ∨ firstGroup ip = ascii "FE80" := by
    rcases spelled with ⟨rest, rfl⟩ | ⟨rest, rfl⟩
    · left
      rfl
    · right
      rfl
  rcases inetPton6_start parsed with ⟨rest, rfl, -⟩ | ⟨rest, -, -, -, front⟩
  · rcases spelled with ⟨tail, clash⟩ | ⟨tail, clash⟩
    · cases clash
    · cases clash
  · have bytes := getD_of_groupBytes front
    rw [LinkLocal, bytes.1, bytes.2]
    rcases group with lower | upper
    · rw [lower]
      decide +kernel
    · rw [upper]
      decide +kernel

theorem prefix_iff_of_linkLocal (parsed : inetPton6 ip = some address)
    (linkLocal : LinkLocal address) :
    ((ascii "fe80:" <+: ip ∨ ascii "FE80:" <+: ip) ↔
      firstGroup ip = ascii "fe80" ∨ firstGroup ip = ascii "FE80") ∧
      ∀ front ∈ openPrefixes, ¬front <+: ip := by
  have lower : ascii "fe80:" = [102, 101, 56, 48, 58] := by decide +kernel
  have upper : ascii "FE80:" = [70, 69, 56, 48, 58] := by decide +kernel
  have lowerGroup : ascii "fe80" = [102, 101, 56, 48] := by decide +kernel
  have upperGroup : ascii "FE80" = [70, 69, 56, 48] := by decide +kernel
  rcases text_of_high parsed (by rw [linkLocal.1]; decide) with
    ⟨a, b, c, d, rest, rfl, group, -, isHex, second⟩
  rw [linkLocal.1] at second
  have letter := ((hexDigit_facts b isHex).2.2.1).mp second
  constructor
  · rw [group, lower, upper, lowerGroup, upperGroup]
    simp [chr, eq_comm]
  · rw [openPrefixes_eq]
    rcases letter with rfl | rfl
    · simp [chr]
    · simp [chr]

theorem prefix_iff_of_oneCase (parsed : inetPton6 ip = some address)
    (reserved : UniqueLocal address ∨ Multicast address) :
    (∃ front ∈ openPrefixes, front <+: ip) ↔ OneCase (ip.take 2) := by
  have first : address.getD 0 0 = 0xfc ∨ address.getD 0 0 = 0xfd ∨ address.getD 0 0 = 0xff := by
    have table : ∀ byte : UInt8, byte &&& 0xfe = 0xfc → byte = 0xfc ∨ byte = 0xfd := by
      decide +kernel
    rcases reserved with unique | multicast
    · rcases table _ unique with low | high
      · exact Or.inl low
      · exact Or.inr (Or.inl high)
    · exact Or.inr (Or.inr multicast)
  have high : 240 ≤ (address.getD 0 0).toNat := by
    rcases first with same | same | same <;> rw [same] <;> decide
  rcases text_of_high parsed high with ⟨a, b, c, d, rest, rfl, -, letter, isHex, second⟩
  have facts := hexDigit_facts b isHex
  have next : (b = chr 'c' ∨ b = chr 'C') ∨ (b = chr 'd' ∨ b = chr 'D') ∨
      (b = chr 'f' ∨ b = chr 'F') := by
    rcases first with same | same | same <;> rw [same] at second
    · exact Or.inl (facts.2.2.2.2.mp second)
    · exact Or.inr (Or.inl (facts.2.2.2.1.mp second))
    · exact Or.inr (Or.inr (facts.2.1.mp second))
  rw [openPrefixes_eq]
  rcases letter with rfl | rfl <;> rcases next with (rfl | rfl) | (rfl | rfl) | (rfl | rfl) <;>
    simp [chr, OneCase]

theorem groupValue_bounds (digits : ∀ byte ∈ group, (hexDigit byte).isSome = true) (value : ℕ) :
    value ≤ groupValue value group ∧ groupValue value group < (value + 1) * 16 ^ group.length := by
  induction group generalizing value with
  | nil => simp [groupValue]
  | cons byte group ih =>
    rw [forall_mem_cons] at digits
    have digit := (hexDigit_facts byte digits.1).1
    have rest := ih digits.2 (value * 16 + (hexDigit byte).getD 0)
    rw [groupValue, foldl_cons, length_cons, pow_succ]
    rw [groupValue] at rest
    refine ⟨by omega, lt_of_lt_of_le rest.2 ?_⟩
    rw [mul_comm (16 ^ group.length), ← mul_assoc]
    exact Nat.mul_le_mul_right _ (by omega)

theorem no_prefix_of_zeros (parsed : inetPton6 ip = some address) (zeros : [0, 0] <+: address) :
    ∀ front ∈ openPrefixes, ¬front <+: ip := by
  intro front listed spelled
  have letter : ∃ byte rest, ip = byte :: rest ∧ (byte = chr 'f' ∨ byte = chr 'F') := by
    have heads : ∀ front ∈ openPrefixes, ∃ byte ∈ [chr 'f', chr 'F'], ∃ rest ∈ front.tails,
        front = byte :: rest := by
      decide +kernel
    rcases heads front listed with ⟨byte, isLetter, rest, -, rfl⟩
    rcases spelled with ⟨tail, rfl⟩
    exact ⟨byte, rest ++ tail, rfl, by simpa using isLetter⟩
  rcases letter with ⟨byte, rest, shape, isLetter⟩
  rcases inetPton6_start parsed with ⟨tail, other, -⟩ | ⟨tail, whole, nonempty, length, bytes⟩
  · rw [shape] at other
    rcases isLetter with rfl | rfl
    · cases other
    · cases other
  · rcases group : firstGroup ip with _ | ⟨head, others⟩
    · exact nonempty group
    have digits := digits_firstGroup ip
    rw [group] at whole digits length bytes
    rw [forall_mem_cons] at digits
    rw [shape, cons_append] at whole
    cases (List.cons.inj whole).1
    have digit := (hexDigit_facts byte digits.1).2.1.mpr isLetter
    have bounds := groupValue_bounds digits.2 (0 * 16 + (hexDigit byte).getD 0)
    have value : groupValue 0 (byte :: others) = groupValue (0 * 16 + (hexDigit byte).getD 0) others :=
      rfl
    have high := (getD_of_groupBytes bytes).1
    have low := (getD_of_groupBytes bytes).2
    rcases zeros with ⟨_, rfl⟩
    have highZero : groupValue 0 (byte :: others) / 256 % 256 = 0 := congrArg UInt8.toNat high.symm
    have lowZero : groupValue 0 (byte :: others) % 256 % 256 = 0 := congrArg UInt8.toNat low.symm
    have small : (0 * 16 + (hexDigit byte).getD 0 + 1) * 16 ^ others.length ≤ 16 * 16 ^ 3 := by
      rw [digit]
      exact Nat.mul_le_mul le_rfl (Nat.pow_le_pow_right (by decide)
        (by rw [length_cons] at length; omega))
    omega

theorem octets_injective (same : octets left = octets right) :
    left = right := by
  simp only [octets, map_cons, map_nil, List.cons.injEq, and_true] at same
  have first : left.toNat / 2 ^ 24 % 256 % 256 = right.toNat / 2 ^ 24 % 256 % 256 :=
    congrArg UInt8.toNat same.1
  have second : left.toNat / 2 ^ 16 % 256 % 256 = right.toNat / 2 ^ 16 % 256 % 256 :=
    congrArg UInt8.toNat same.2.1
  have third : left.toNat / 2 ^ 8 % 256 % 256 = right.toNat / 2 ^ 8 % 256 % 256 :=
    congrArg UInt8.toNat same.2.2.1
  have fourth : left.toNat / 2 ^ 0 % 256 % 256 = right.toNat / 2 ^ 0 % 256 % 256 :=
    congrArg UInt8.toNat same.2.2.2
  apply BitVec.eq_of_toNat_eq
  omega

theorem mappedAddress_injective (same : mappedAddress left = mappedAddress right) :
    left = right := by
  have tails := append_cancel_left same
  exact octets_injective (List.cons.inj (List.cons.inj tails).2).2

theorem zeros_mappedAddress (bits : BitVec 32) : [0, 0] <+: mappedAddress bits := ⟨_, rfl⟩

theorem zeros_loopbackAddress : [0, 0] <+: loopbackAddress := ⟨_, rfl⟩

theorem loopbackAddress_ne_mappedAddress (bits : BitVec 32) :
    loopbackAddress ≠ mappedAddress bits := by
  intro same
  have byte : (0 : UInt8) = 0xff := congrArg (getD · 10 0) same
  exact absurd byte (by decide)

theorem not_block_of_zeros (zeros : [0, 0] <+: address) :
    ¬LinkLocal address ∧ ¬(UniqueLocal address ∨ Multicast address) := by
  rcases zeros with ⟨rest, rfl⟩
  constructor
  · rintro ⟨first, -⟩
    have byte : (0 : UInt8) = 0xfe := first
    exact absurd byte (by decide)
  · rintro (first | first)
    · have byte : (0 : UInt8) &&& 0xfe = 0xfc := first
      exact absurd byte (by decide)
    · have byte : (0 : UInt8) = 0xff := first
      exact absurd byte (by decide)

theorem reservedTarget_mappedAddress (bits : BitVec 32) :
    ReservedTarget (mappedAddress bits) ↔ reservedV4 bits := by
  have blocks := not_block_of_zeros (zeros_mappedAddress bits)
  constructor
  · rintro (block | block | block | same | ⟨other, same, reserved⟩)
    · exact absurd block blocks.1
    · exact absurd (Or.inl block) blocks.2
    · exact absurd (Or.inr block) blocks.2
    · exact absurd same.symm (loopbackAddress_ne_mappedAddress bits)
    · rwa [mappedAddress_injective same]
  · intro reserved
    exact Or.inr (Or.inr (Or.inr (Or.inr ⟨bits, rfl, reserved⟩)))

section Answer

variable {ip address : Bytes} (colon : isIpv6Addr ip = true) (parsed : inetPton6 ip = some address)

include parsed in
theorem eq_loopbackAddress (loopback : ip = ascii "::1") : address = loopbackAddress := by
  have known : inetPton6 (ascii "::1") = some loopbackAddress := by decide
  rw [loopback, known] at parsed
  exact (Option.some.inj parsed).symm

include colon parsed in
theorem answer_linkLocal (linkLocal : LinkLocal address) :
    isReservedBanTarget ip = true ↔ SpelledPlainly ip address := by
  have notZero : ¬[0, 0] <+: address := fun zeros => (not_block_of_zeros zeros).1 linkLocal
  have notLoopback : ip ≠ ascii "::1" := by
    intro loopback
    rw [eq_loopbackAddress parsed loopback] at notZero
    exact notZero zeros_loopbackAddress
  rcases prefix_iff_of_linkLocal parsed linkLocal with ⟨spelled, noOpen⟩
  have none : ¬∃ front ∈ openPrefixes, front <+: ip := by
    rintro ⟨front, listed, there⟩
    exact noOpen front listed there
  rw [isReservedBanTarget_v6 colon parsed, or_iff_right notLoopback, or_iff_left none, spelled]
  constructor
  · intro group
    refine ⟨fun _ => group, ?_, ?_, ?_, ?_⟩
    · rintro (unique | multicast)
      · rw [UniqueLocal, linkLocal.1] at unique
        exact absurd unique (by decide)
      · rw [Multicast, linkLocal.1] at multicast
        exact absurd multicast (by decide)
    · rintro rfl
      exact absurd zeros_loopbackAddress notZero
    · rintro bits rfl
      exact absurd (zeros_mappedAddress bits) notZero
    · intro free
      exact absurd (Or.inl linkLocal) free
  · intro plain
    exact plain.linkLocal linkLocal

include colon parsed in
theorem answer_oneCase (block : UniqueLocal address ∨ Multicast address) :
    isReservedBanTarget ip = true ↔ SpelledPlainly ip address := by
  have notZero : ¬[0, 0] <+: address := fun zeros => (not_block_of_zeros zeros).2 block
  have notLinkLocal : ¬LinkLocal address := by
    rintro ⟨first, -⟩
    rw [UniqueLocal, Multicast, first] at block
    exact absurd block (by decide)
  have notLoopback : ip ≠ ascii "::1" := by
    intro loopback
    rw [eq_loopbackAddress parsed loopback] at notZero
    exact notZero zeros_loopbackAddress
  have notFe80 : ¬(ascii "fe80:" <+: ip ∨ ascii "FE80:" <+: ip) := fun spelled =>
    notLinkLocal ( linkLocal_of_prefix parsed spelled)
  rw [isReservedBanTarget_v6 colon parsed, or_iff_right notLoopback, or_iff_right notFe80,
    prefix_iff_of_oneCase parsed block]
  constructor
  · intro oneCase
    refine ⟨fun linkLocal => absurd linkLocal notLinkLocal, fun _ => oneCase, ?_, ?_, ?_⟩
    · rintro rfl
      exact absurd zeros_loopbackAddress notZero
    · rintro bits rfl
      exact absurd (zeros_mappedAddress bits) notZero
    · intro free
      exact absurd (block.elim (fun unique => Or.inr (Or.inl unique))
        fun multicast => Or.inr (Or.inr (Or.inl multicast))) free
  · intro plain
    exact plain.oneCase block

include colon parsed in
theorem answer_zeros (zeros : [0, 0] <+: address) :
    isReservedBanTarget ip = true ↔ ip = ascii "::1" := by
  have noOpen := no_prefix_of_zeros parsed zeros
  have none : ¬∃ front ∈ openPrefixes, front <+: ip := by
    rintro ⟨front, listed, there⟩
    exact noOpen front listed there
  have notFe80 : ¬(ascii "fe80:" <+: ip ∨ ascii "FE80:" <+: ip) := fun spelled =>
    (not_block_of_zeros zeros).1 ( linkLocal_of_prefix parsed spelled)
  rw [isReservedBanTarget_v6 colon parsed, or_iff_left]
  rintro (fe80 | open')
  · exact notFe80 fe80
  · exact none open'

include colon parsed in
theorem answer_loopback (loopback : address = loopbackAddress) :
    isReservedBanTarget ip = true ↔ SpelledPlainly ip address := by
  have zeros : [0, 0] <+: address := loopback ▸ zeros_loopbackAddress
  have blocks := not_block_of_zeros zeros
  rw [answer_zeros colon parsed zeros]
  constructor
  · intro text
    refine ⟨fun block => absurd block blocks.1, fun block => absurd block blocks.2, fun _ => text,
      ?_, ?_⟩
    · intro bits same
      exact absurd (loopback.symm.trans same) (loopbackAddress_ne_mappedAddress bits)
    · intro free
      exact absurd (Or.inr (Or.inr (Or.inr (Or.inl loopback)))) free
  · intro plain
    exact plain.loopback loopback

include colon parsed in
theorem answer_mapped {bits : BitVec 32} (mapped : address = mappedAddress bits) :
    (isReservedBanTarget ip = true ↔ reservedV4 bits) ↔ SpelledPlainly ip address := by
  have zeros : [0, 0] <+: address := mapped ▸ zeros_mappedAddress bits
  have blocks := not_block_of_zeros zeros
  have notLoopback : address ≠ loopbackAddress := fun loopback =>
    loopbackAddress_ne_mappedAddress bits (loopback.symm.trans mapped)
  have refused : ¬isReservedBanTarget ip = true := by
    rw [answer_zeros colon parsed zeros]
    exact fun text => notLoopback (eq_loopbackAddress parsed text)
  rw [iff_false_left refused]
  constructor
  · intro free
    refine ⟨fun block => absurd block blocks.1, fun block => absurd block blocks.2,
      fun loopback => absurd loopback notLoopback, ?_, fun _ => no_prefix_of_zeros parsed zeros⟩
    intro other same
    rwa [mappedAddress_injective (same.symm.trans mapped)]
  · intro plain
    exact plain.mapped bits mapped

include colon parsed in
theorem answer_free (free : ¬ReservedTarget address) :
    isReservedBanTarget ip = false ↔ SpelledPlainly ip address := by
  have notLoopback : ip ≠ ascii "::1" := fun text =>
    free (Or.inr (Or.inr (Or.inr (Or.inl (eq_loopbackAddress parsed text)))))
  have notFe80 : ¬(ascii "fe80:" <+: ip ∨ ascii "FE80:" <+: ip) := fun spelled =>
    free (Or.inl ( linkLocal_of_prefix parsed spelled))
  rw [← Bool.not_eq_true, isReservedBanTarget_v6 colon parsed, or_iff_right notLoopback,
    or_iff_right notFe80]
  constructor
  · intro none
    refine ⟨fun block => absurd (Or.inl block) free, ?_, ?_, ?_, ?_⟩
    · rintro (unique | multicast)
      · exact absurd (Or.inr (Or.inl unique)) free
      · exact absurd (Or.inr (Or.inr (Or.inl multicast))) free
    · intro loopback
      exact absurd (Or.inr (Or.inr (Or.inr (Or.inl loopback)))) free
    · intro bits mapped reserved
      exact free (Or.inr (Or.inr (Or.inr (Or.inr ⟨bits, mapped, reserved⟩))))
    · intro _ front listed spelled
      exact none ⟨front, listed, spelled⟩
  · rintro plain ⟨front, listed, spelled⟩
    exact plain.short free front listed spelled

include colon parsed in
theorem answer_iff_v6 :
    (isReservedBanTarget ip = true ↔ ReservedTarget address) ↔ SpelledPlainly ip address := by
  by_cases reserved : ReservedTarget address
  · have inside := reserved
    rcases reserved with block | block | block | loopback | ⟨bits, mapped, reserved⟩
    · rw [iff_true_right inside, answer_linkLocal colon parsed block]
    · rw [iff_true_right inside, answer_oneCase colon parsed (Or.inl block)]
    · rw [iff_true_right inside, answer_oneCase colon parsed (Or.inr block)]
    · rw [iff_true_right inside, answer_loopback colon parsed loopback]
    · rw [← answer_mapped colon parsed mapped, mapped, reservedTarget_mappedAddress]
  · rw [iff_false_right reserved, Bool.not_eq_true, answer_free colon parsed reserved]

end Answer

/-- Every IPv4 text is plain. -/
def Plain (ip address : Bytes) : Prop := isIpv6Addr ip = true → SpelledPlainly ip address

theorem answer_iff (target : targetBytes ip = some address) :
    (isReservedBanTarget ip = true ↔ ReservedTarget address) ↔ Plain ip address := by
  rw [targetBytes] at target
  split_ifs at target with colon
  · rw [answer_iff_v6 colon target, Plain, imp_iff_right colon]
  · rcases Option.map_eq_some_iff.mp target with ⟨bits, parsed, rfl⟩
    rw [isReservedBanTarget_iff parsed, reservedTarget_mappedAddress]
    exact iff_of_true Iff.rfl fun colon' => absurd colon' colon

/-- Two texts of one address get the same answer exactly if both are spelled plainly or neither is,
and the text of a reserved IPv6 address is reserved exactly if it is spelled plainly. -/
theorem isReservedBanTarget_spelling_iff (ip other address : Bytes) :
    (targetBytes ip = some address → targetBytes other = some address →
      (isReservedBanTarget ip = isReservedBanTarget other ↔
        (Plain ip address ↔ Plain other address))) ∧
      (isIpv6Addr ip = true → inetPton6 ip = some address →
        LinkLocal address ∨ UniqueLocal address ∨ Multicast address ∨
          address = loopbackAddress →
        (isReservedBanTarget ip = true ↔ Plain ip address)) := by
  constructor
  · intro ipTarget otherTarget
    rw [← answer_iff ipTarget, ← answer_iff otherTarget, Bool.eq_iff_iff]
    by_cases reserved : ReservedTarget address
    · rw [iff_true_right reserved, iff_true_right reserved]
    · rw [iff_false_right reserved, iff_false_right reserved, not_iff_not]
  · intro colon parsed reserved
    have target : targetBytes ip = some address := by
      rw [targetBytes, if_pos colon]
      exact parsed
    have inside : ReservedTarget address := by
      rcases reserved with block | block | block | loopback
      · exact Or.inl block
      · exact Or.inr (Or.inl block)
      · exact Or.inr (Or.inr (Or.inl block))
      · exact Or.inr (Or.inr (Or.inr (Or.inl loopback)))
    rw [← answer_iff target, iff_true_right inside]

/-- Spellings of one address with different answers, and a link-local address that is banned. -/
theorem answer_depends_on_spelling :
    (targetBytes (ascii "::ffff:10.0.0.1") = targetBytes (ascii "10.0.0.1") ∧
        isReservedBanTarget (ascii "::ffff:10.0.0.1") = false ∧
        isReservedBanTarget (ascii "10.0.0.1") = true) ∧
      (targetBytes (ascii "Fe80::1") = targetBytes (ascii "fe80::1") ∧
        isReservedBanTarget (ascii "Fe80::1") = false ∧
        isReservedBanTarget (ascii "fe80::1") = true) ∧
      (targetBytes (ascii "0:0::1") = targetBytes (ascii "::1") ∧
        isReservedBanTarget (ascii "0:0::1") = false ∧
        isReservedBanTarget (ascii "::1") = true) ∧
      (targetBytes (ascii "00fc::1") = targetBytes (ascii "fc::1") ∧
        isReservedBanTarget (ascii "00fc::1") = false ∧
        isReservedBanTarget (ascii "fc::1") = true) ∧
      ∃ address, inetPton6 (ascii "fe90::1") = some address ∧ LinkLocal address ∧
        isReservedBanTarget (ascii "fe90::1") = false := by
  refine ⟨by decide +kernel, by decide +kernel, by decide +kernel, by decide +kernel,
    0xfe :: 0x90 :: (replicate 13 0 ++ [1]), by decide +kernel, ⟨rfl, by decide⟩,
    by decide +kernel⟩

end LogGuardian
