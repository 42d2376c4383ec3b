import LogGuardian.Bytes

/-!
# Address texts
-/

namespace LogGuardian

open List

/-- `IP_STR_LEN` of `ip_map.h`: the longest address text and its NUL. -/
def ipStrLen : ℕ := 46

def decimalValue (digits : Bytes) : ℕ :=
  digits.foldl (fun value digit => 10 * value + digitValue digit) 0

def parseOctet (text : Bytes) : Option ℕ :=
  if text ≠ [] ∧ text.all isDigit ∧ (text.length = 1 ∨ text.head? ≠ some (chr '0')) ∧
      text.length ≤ 3 ∧ decimalValue text ≤ 255 then
    some (decimalValue text)
  else none

/-- `inet_pton(AF_INET, …)`, with the address in host order. -/
def inetPton4 (text : Bytes) : Option (BitVec 32) :=
  match text.splitOn (chr '.') with
  | [first, second, third, fourth] => do
      let a ← parseOctet first
      let b ← parseOctet second
      let c ← parseOctet third
      let d ← parseOctet fourth
      return BitVec.ofNat 32 (((a * 256 + b) * 256 + c) * 256 + d)
  | _ => none

def hexDigit (byte : UInt8) : Option ℕ :=
  if 48 ≤ byte ∧ byte ≤ 57 then some (byte.toNat - 48)
  else if 97 ≤ byte ∧ byte ≤ 102 then some (byte.toNat - 87)
  else if 65 ≤ byte ∧ byte ≤ 70 then some (byte.toNat - 55)
  else none

/-- The variables of glibc's IPv6 loop: the bytes written so far (`tp`), where `::` stood
(`colonp`), the group being read and the text at the start of the current token. -/
structure Pton6 where
  written : Bytes
  colonp : Option ℕ
  value : ℕ
  xdigitsSeen : ℕ
  curtok : Bytes

def Pton6.flushGroup (state : Pton6) : Option Pton6 :=
  if 16 < state.written.length + 2 then none
  else some { state with
    written := state.written ++ [(state.value / 256).toUInt8, (state.value % 256).toUInt8]
    value := 0
    xdigitsSeen := 0 }

def octets (address : BitVec 32) : Bytes :=
  [24, 16, 8, 0].map fun shift => (address.toNat / 2 ^ shift % 256).toUInt8

def pton6Loop : Bytes → Pton6 → Option Pton6
  | [], state => some state
  | byte :: rest, state =>
    match hexDigit byte with
    | some digit =>
      if state.xdigitsSeen = 4 then none
      else pton6Loop rest { state with
        value := state.value * 16 + digit, xdigitsSeen := state.xdigitsSeen + 1 }
    | none =>
      if byte = chr ':' then
        if state.xdigitsSeen = 0 then
          if state.colonp.isSome then none
          else pton6Loop rest { state with
            colonp := some state.written.length, curtok := rest }
        else if rest = [] then none
        else
          match state.flushGroup with
          | none => none
          | some flushed => pton6Loop rest { flushed with curtok := rest }
      else if byte = chr '.' ∧ state.written.length + 4 ≤ 16 then
        -- an embedded IPv4 tail ends the text
        (inetPton4 state.curtok).map fun address =>
          { state with written := state.written ++ octets address, xdigitsSeen := 0 }
      else none

/-- Zeros for `::`, and the check that all sixteen bytes are there. -/
def pton6Finish (state : Pton6) : Option Bytes := do
  let flushed ← if state.xdigitsSeen > 0 then state.flushGroup else some state
  match flushed.colonp with
  | none => if flushed.written.length = 16 then some flushed.written else none
  | some colon =>
    if flushed.written.length = 16 then none
    else some (flushed.written.take colon ++
      List.replicate (16 - flushed.written.length) 0 ++ flushed.written.drop colon)

/-- `inet_pton(AF_INET6, …)`. -/
def inetPton6 (text : Bytes) : Option Bytes :=
  match text with
  | [] => none
  | first :: rest =>
    if first = chr ':' then
      if rest.head? ≠ some (chr ':') then none
      else (pton6Loop rest ⟨[], none, 0, 0, rest⟩).bind pton6Finish
    else (pton6Loop text ⟨[], none, 0, 0, text⟩).bind pton6Finish

def isValidIp (ip : Bytes) : Bool := (inetPton4 ip).isSome || (inetPton6 ip).isSome

def isIpv6Addr (ip : Bytes) : Bool := chr ':' ∈ ip

example : inetPton4 (ascii "203.0.113.50") = some 0xcb007132 := by decide
example : inetPton4 (ascii "1.2.3.04") = none := by decide
example : inetPton6 (ascii "::1") = some (List.replicate 15 0 ++ [1]) := by decide
example : (inetPton6 (ascii "2001:db8::ffff:1.2.3.4")).isSome := by decide

variable {byte : UInt8} {text left right ip : Bytes} {value : ℕ} {address : BitVec 32}
  {state final : Pton6}

theorem toNat_of_isDigit (digit : isDigit byte = true) :
    48 ≤ byte.toNat ∧ byte.toNat ≤ 57 := by
  simp only [isDigit, Bool.and_eq_true, decide_eq_true_eq] at digit
  exact digit

theorem parseOctet_eq_some (parsed : parseOctet text = some value) :
    text.all isDigit ∧ (text.length = 1 ∨ text.head? ≠ some (chr '0')) ∧
      0 < text.length ∧ text.length ≤ 3 ∧ decimalValue text = value ∧ value ≤ 255 := by
  unfold parseOctet at parsed
  split at parsed
  · rename_i shape
    rcases shape with ⟨nonempty, digits, canonical, short, small⟩
    simp only [Option.some.injEq] at parsed
    exact ⟨digits, canonical, List.length_pos_iff.mpr nonempty, short, parsed, by omega⟩
  · simp at parsed

theorem parseOctet_injective (parsedLeft : parseOctet left = some value)
    (parsedRight : parseOctet right = some value) :
    left = right := by
  rcases parseOctet_eq_some parsedLeft with
    ⟨digitsLeft, canonicalLeft, posLeft, shortLeft, valueLeft, _⟩
  rcases parseOctet_eq_some parsedRight with
    ⟨digitsRight, canonicalRight, posRight, shortRight, valueRight, _⟩
  have zero : (chr '0').toNat = 48 := by decide
  have boundsLeft : ∀ digit ∈ left, 48 ≤ digit.toNat ∧ digit.toNat ≤ 57 :=
    fun digit mem => toNat_of_isDigit (List.all_eq_true.mp digitsLeft digit mem)
  have boundsRight : ∀ digit ∈ right, 48 ≤ digit.toNat ∧ digit.toNat ≤ 57 :=
    fun digit mem => toNat_of_isDigit (List.all_eq_true.mp digitsRight digit mem)
  -- one to three digits on either side: nine shapes, each a linear fact about the digits
  rcases left with _ | ⟨a, _ | ⟨b, _ | ⟨c, _ | ⟨d, rest⟩⟩⟩⟩ <;>
    rcases right with _ | ⟨a', _ | ⟨b', _ | ⟨c', _ | ⟨d', rest'⟩⟩⟩⟩ <;>
    simp only [length_cons, length_nil] at posLeft shortLeft posRight shortRight <;>
    try omega
  all_goals
    simp only [decimalValue, List.foldl, digitValue] at valueLeft valueRight
    simp only [forall_mem_cons, not_mem_nil, false_imp_iff, implies_true,
      and_true] at boundsLeft boundsRight
    simp [← UInt8.toNat_inj, zero] at canonicalLeft canonicalRight
    simp only [List.cons.injEq, and_true, reduceCtorEq, and_false, ← UInt8.toNat_inj]
    omega

theorem inetPton4_eq_some (parsed : inetPton4 text = some address) :
    ∃ first second third fourth a b c d,
      text.splitOn (chr '.') = [first, second, third, fourth] ∧
        parseOctet first = some a ∧ parseOctet second = some b ∧
        parseOctet third = some c ∧ parseOctet fourth = some d ∧
        address = BitVec.ofNat 32 (((a * 256 + b) * 256 + c) * 256 + d) := by
  unfold inetPton4 at parsed
  split at parsed
  · rename_i first second third fourth split
    simp only [Option.bind_eq_bind, Option.bind_eq_some_iff, Option.pure_def,
      Option.some.injEq] at parsed
    rcases parsed with ⟨a, parsedA, b, parsedB, c, parsedC, d, parsedD, rfl⟩
    exact ⟨first, second, third, fourth, a, b, c, d, split,
      parsedA, parsedB, parsedC, parsedD, rfl⟩
  · simp at parsed

theorem inetPton4_injective (parsedLeft : inetPton4 left = some address)
    (parsedRight : inetPton4 right = some address) :
    left = right := by
  rcases inetPton4_eq_some parsedLeft with
    ⟨w, x, y, z, a, b, c, d, splitLeft, parsedW, parsedX, parsedY, parsedZ, rfl⟩
  rcases inetPton4_eq_some parsedRight with
    ⟨w', x', y', z', a', b', c', d', splitRight, parsedW', parsedX', parsedY', parsedZ', sameAddress⟩
  have boundA := (parseOctet_eq_some parsedW).2.2.2.2.2
  have boundB := (parseOctet_eq_some parsedX).2.2.2.2.2
  have boundC := (parseOctet_eq_some parsedY).2.2.2.2.2
  have boundD := (parseOctet_eq_some parsedZ).2.2.2.2.2
  have boundA' := (parseOctet_eq_some parsedW').2.2.2.2.2
  have boundB' := (parseOctet_eq_some parsedX').2.2.2.2.2
  have boundC' := (parseOctet_eq_some parsedY').2.2.2.2.2
  have boundD' := (parseOctet_eq_some parsedZ').2.2.2.2.2
  have sameNat := congrArg BitVec.toNat sameAddress
  simp only [BitVec.toNat_ofNat] at sameNat
  obtain rfl : a = a' := by omega
  obtain rfl : b = b' := by omega
  obtain rfl : c = c' := by omega
  obtain rfl : d = d' := by omega
  have sameSplit : left.splitOn (chr '.') = right.splitOn (chr '.') := by
    rw [splitLeft, splitRight, parseOctet_injective parsedW parsedW',
      parseOctet_injective parsedX parsedX', parseOctet_injective parsedY parsedY',
      parseOctet_injective parsedZ parsedZ']
  calc left
      = [chr '.'].intercalate (left.splitOn (chr '.')) := (intercalate_splitOn _).symm
    _ = [chr '.'].intercalate (right.splitOn (chr '.')) := by rw [sameSplit]
    _ = right := intercalate_splitOn _

theorem isValidIp_cons_bracket (rest : Bytes) : isValidIp (chr '[' :: rest) = false := by
  have notV4 : inetPton4 (chr '[' :: rest) = none := by
    by_contra accepted
    rcases Option.ne_none_iff_exists'.mp accepted with ⟨address, parsed⟩
    rcases inetPton4_eq_some parsed with ⟨w, x, y, z, a, b, c, d, split, parsedW, -⟩
    have dot : (chr '[' == chr '.') = false := by decide
    rw [splitOn_cons_eq_if_modifyHead, dot] at split
    rcases first : rest.splitOn (chr '.') with _ | ⟨head, tail⟩
    · exact splitOn_ne_nil _ _ first
    · rw [first] at split
      rcases split with ⟨rfl, -⟩
      have digits := (parseOctet_eq_some parsedW).1
      simp only [all_cons, Bool.and_eq_true] at digits
      exact absurd digits.1 (by decide)
  have notV6 : inetPton6 (chr '[' :: rest) = none := by
    have colon : ¬chr '[' = chr ':' := by decide
    have dot : ¬chr '[' = chr '.' := by decide
    have hex : hexDigit (chr '[') = none := by decide
    simp [inetPton6, pton6Loop, colon, dot, hex]
  simp [isValidIp, notV4, notV6]

theorem length_le_of_inetPton4 (parsed : inetPton4 text = some address) : text.length ≤ 15 := by
  rcases inetPton4_eq_some parsed with
    ⟨w, x, y, z, a, b, c, d, split, parsedW, parsedX, parsedY, parsedZ, -⟩
  have shortW := (parseOctet_eq_some parsedW).2.2.2.1
  have shortX := (parseOctet_eq_some parsedX).2.2.2.1
  have shortY := (parseOctet_eq_some parsedY).2.2.2.1
  have shortZ := (parseOctet_eq_some parsedZ).2.2.2.1
  have joined : [chr '.'].intercalate (text.splitOn (chr '.')) = text := intercalate_splitOn _
  rw [← joined, split]
  simp only [intercalate, intersperse, flatten_cons, flatten_nil,
    length_append, length_cons, length_nil]
  omega

theorem mem_of_inetPton4 (parsed : inetPton4 text = some address) (mem : byte ∈ text) :
    isDigit byte = true ∨ byte = chr '.' := by
  rcases inetPton4_eq_some parsed with
    ⟨w, x, y, z, a, b, c, d, split, parsedW, parsedX, parsedY, parsedZ, -⟩
  have joined : [chr '.'].intercalate (text.splitOn (chr '.')) = text := intercalate_splitOn _
  have digits : ∀ {octet value}, parseOctet octet = some value → byte ∈ octet →
      isDigit byte = true :=
    fun parsed mem => List.all_eq_true.mp (parseOctet_eq_some parsed).1 byte mem
  rw [← joined, split] at mem
  simp only [intercalate, intersperse, flatten_cons, flatten_nil,
    mem_append, mem_singleton, append_nil] at mem
  rcases mem with inW | dot | inX | dot | inY | dot | inZ
  · exact Or.inl (digits parsedW inW)
  · exact Or.inr dot
  · exact Or.inl (digits parsedX inX)
  · exact Or.inr dot
  · exact Or.inl (digits parsedY inY)
  · exact Or.inr dot
  · exact Or.inl (digits parsedZ inZ)

theorem isIpv6Addr_of_inetPton4 (parsed : inetPton4 text = some address) :
    isIpv6Addr text = false := by
  simp only [isIpv6Addr, decide_eq_false_iff_not]
  intro colon
  rcases mem_of_inetPton4 parsed colon with digit | dot
  · exact absurd digit (by decide)
  · exact absurd dot (by decide)

/-- The characters behind what has been read: five for a written group, one for each digit of the
current group and one for `::`. -/
def Pton6.charge (state : Pton6) : ℕ :=
  5 * (state.written.length / 2) + state.xdigitsSeen + (if state.colonp.isSome then 1 else 0)

theorem flushGroup_eq_some {flushed : Pton6} (flush : state.flushGroup = some flushed) :
    state.written.length + 2 ≤ 16 ∧ flushed.written.length = state.written.length + 2 ∧
      flushed.xdigitsSeen = 0 ∧ flushed.colonp = state.colonp := by
  unfold Pton6.flushGroup at flush
  split at flush
  · simp at flush
  · simp only [Option.some.injEq] at flush
    subst flush
    exact ⟨by omega, by simp, rfl, rfl⟩

theorem pton6Finish_eq_some {address : Bytes} (finished : pton6Finish state = some address) :
    (0 < state.xdigitsSeen → state.written.length + 2 ≤ 16) ∧
      (state.colonp = none ↔
        state.written.length + (if 0 < state.xdigitsSeen then 2 else 0) = 16) := by
  unfold pton6Finish at finished
  by_cases pending : 0 < state.xdigitsSeen
  · simp only [pending, if_true, Option.bind_eq_bind, Option.bind_eq_some_iff] at finished
    rcases finished with ⟨flushed, flush, finished⟩
    rcases flushGroup_eq_some flush with ⟨room, length, -, colon⟩
    refine ⟨fun _ => room, ?_⟩
    rw [if_pos pending, ← length, ← colon]
    rcases colonp : flushed.colonp with _ | position <;> simp [colonp] at finished ⊢
    · exact finished.1
    · exact finished.1
  · simp only [pending, Option.bind_eq_bind] at finished
    refine ⟨fun positive => absurd positive pending, ?_⟩
    rw [if_neg pending, Nat.add_zero]
    rcases colonp : state.colonp with _ | position <;> simp [colonp] at finished ⊢
    · exact finished.1
    · exact finished.1

theorem length_le_of_pton6Loop {address : Bytes}
    (parsed : (pton6Loop text state).bind pton6Finish = some address)
    (token : state.curtok.length = text.length + state.xdigitsSeen)
    (written : state.written.length ≤ 16) (digits : state.xdigitsSeen ≤ 4) :
    text.length + state.charge ≤ if state.colonp.isSome then 41 else 45 := by
  unfold Pton6.charge
  induction text generalizing state with
  | nil =>
    rcases pton6Finish_eq_some parsed with ⟨room, full⟩
    rcases colonp : state.colonp with _ | position
    · split at full <;> simp <;> omega
    · split at full <;> simp <;> omega
  | cons byte rest ih =>
    unfold pton6Loop at parsed
    rcases hex : hexDigit byte with _ | digit
    · rw [hex] at parsed
      dsimp only at parsed
      by_cases colon : byte = chr ':'
      · rw [if_pos colon] at parsed
        by_cases fresh : state.xdigitsSeen = 0
        · rw [if_pos fresh] at parsed
          rcases colonp : state.colonp with _ | position
          · simp only [colonp, Option.isSome_none, Bool.false_eq_true, if_false] at parsed
            have bound := ih parsed (by simp [fresh]) written (by simp [fresh])
            simp [fresh] at bound ⊢
            omega
          · simp [colonp] at parsed
        · rw [if_neg fresh] at parsed
          by_cases last : rest = []
          · simp [last] at parsed
          · rw [if_neg last] at parsed
            rcases flush : state.flushGroup with _ | flushed
            · simp [flush] at parsed
            · rw [flush] at parsed
              rcases flushGroup_eq_some flush with ⟨room, length, seen, sameColon⟩
              have bound := ih parsed (by simp [seen]) (by simp [length, room]) (by simp [seen])
              simp only [length, seen, sameColon, length_cons] at bound ⊢
              split at bound <;> simp_all <;> omega
      · rw [if_neg colon] at parsed
        by_cases dot : byte = chr '.' ∧ state.written.length + 4 ≤ 16
        · rw [if_pos dot] at parsed
          simp only [Option.bind_eq_some_iff, Option.map_eq_some_iff] at parsed
          rcases parsed with ⟨final, ⟨tail, tailParsed, rfl⟩, finished⟩
          have short := length_le_of_inetPton4 tailParsed
          have full := (pton6Finish_eq_some finished).2
          rcases colonp : state.colonp with _ | position
          · simp [colonp, octets] at full token ⊢
            omega
          · simp [colonp, octets] at full token ⊢
            omega
        · rw [if_neg dot] at parsed
          simp at parsed
    · rw [hex] at parsed
      dsimp only at parsed
      by_cases tooMany : state.xdigitsSeen = 4
      · simp [tooMany] at parsed
      · rw [if_neg tooMany] at parsed
        have bound := ih parsed (by simp only [length_cons] at token; dsimp only; omega)
          written (by dsimp only; omega)
        simp only [length_cons] at bound ⊢
        omega

theorem length_le_of_inetPton6 {address : Bytes} (parsed : inetPton6 text = some address) :
    text.length ≤ 45 := by
  unfold inetPton6 at parsed
  split at parsed
  · simp at parsed
  · rename_i first rest
    split at parsed
    · rcases rest with _ | ⟨second, rest⟩
      · simp at parsed
      · by_cases twice : second = chr ':'
        · subst twice
          have notHex : hexDigit (chr ':') = none := by decide
          simp only [pton6Loop] at parsed
          have bound := length_le_of_pton6Loop parsed rfl (by simp) (by simp)
          simp [Pton6.charge] at bound ⊢
          omega
        · simp [twice] at parsed
    · have bound := length_le_of_pton6Loop parsed rfl (by simp) (by simp)
      simpa [Pton6.charge] using bound

theorem length_le_of_isValidIp (valid : isValidIp ip = true) : ip.length ≤ 45 := by
  simp only [isValidIp, Bool.or_eq_true, Option.isSome_iff_exists] at valid
  rcases valid with ⟨address, parsed⟩ | ⟨address, parsed⟩
  · have short := length_le_of_inetPton4 parsed
    omega
  · exact length_le_of_inetPton6 parsed

theorem pton6Loop_of_no_colon (noColon : chr ':' ∉ text)
    (parsed : pton6Loop text state = some final) :
    final.colonp = state.colonp ∧ final.written.length ≤ state.written.length + 4 := by
  induction text generalizing state with
  | nil =>
    simp only [pton6Loop, Option.some.injEq] at parsed
    subst parsed
    exact ⟨rfl, by omega⟩
  | cons byte rest ih =>
    simp only [mem_cons, not_or] at noColon
    unfold pton6Loop at parsed
    rcases hex : hexDigit byte with _ | digit
    · rw [hex] at parsed
      dsimp only at parsed
      rw [if_neg (Ne.symm noColon.1)] at parsed
      split at parsed
      · simp only [Option.map_eq_some_iff] at parsed
        rcases parsed with ⟨tail, -, rfl⟩
        simp [octets]
      · simp at parsed
    · rw [hex] at parsed
      dsimp only at parsed
      split at parsed
      · simp at parsed
      · have later := ih noColon.2 parsed
        exact later

theorem inetPton6_of_no_colon (noColon : chr ':' ∉ text) : inetPton6 text = none := by
  by_contra accepted
  rcases Option.ne_none_iff_exists'.mp accepted with ⟨address, parsed⟩
  unfold inetPton6 at parsed
  split at parsed
  · simp at parsed
  · simp only [mem_cons, not_or] at noColon
    rw [if_neg (Ne.symm noColon.1), Option.bind_eq_some_iff] at parsed
    rcases parsed with ⟨final, loop, finished⟩
    rcases pton6Loop_of_no_colon (by simp [noColon]) loop with ⟨colon, short⟩
    have full := (pton6Finish_eq_some finished).2.mp colon
    simp only [length_nil] at short
    split at full <;> omega

theorem inetPton4_of_valid (valid : isValidIp ip = true) (noColon : isIpv6Addr ip = false) :
    ∃ address, inetPton4 ip = some address := by
  simp only [isIpv6Addr, decide_eq_false_iff_not] at noColon
  simpa [isValidIp, inetPton6_of_no_colon noColon, Option.isSome_iff_exists] using valid

theorem inetPton6_of_valid (valid : isValidIp ip = true) (colon : isIpv6Addr ip = true) :
    ∃ address, inetPton6 ip = some address := by
  simp only [isIpv6Addr, decide_eq_true_eq] at colon
  rcases parsed : inetPton4 ip with _ | address
  · simpa [isValidIp, parsed, Option.isSome_iff_exists] using valid
  · rcases mem_of_inetPton4 parsed colon with digit | dot
    · exact absurd digit (by decide)
    · exact absurd dot (by decide)

def isAddressByte (byte : UInt8) : Bool :=
  (hexDigit byte).isSome || byte = chr ':' || byte = chr '.'

theorem isAddressByte_of_inetPton4 (parsed : inetPton4 text = some address) (mem : byte ∈ text) :
    isAddressByte byte = true := by
  rcases mem_of_inetPton4 parsed mem with digit | dot
  · simp only [isDigit, Bool.and_eq_true, decide_eq_true_eq] at digit
    simp [isAddressByte, hexDigit, digit]
  · simp [isAddressByte, dot]

theorem isAddressByte_of_pton6Loop (parsed : pton6Loop text state = some final)
    (token : text <:+ state.curtok) (mem : byte ∈ text) : isAddressByte byte = true := by
  induction text generalizing state with
  | nil => simp at mem
  | cons first rest ih =>
    have restToken : rest <:+ state.curtok := (suffix_cons first rest).trans token
    unfold pton6Loop at parsed
    rcases hex : hexDigit first with _ | digit
    · rw [hex] at parsed
      dsimp only at parsed
      by_cases colon : first = chr ':'
      · have later : byte ∈ rest → isAddressByte byte = true := by
          split_ifs at parsed
          · exact ih parsed suffix_rfl
          · rcases flush : state.flushGroup with _ | flushed
            · simp [flush] at parsed
            · rw [flush] at parsed
              exact ih parsed suffix_rfl
        rcases List.mem_cons.mp mem with rfl | inRest
        · simp [isAddressByte, colon]
        · exact later inRest
      · split_ifs at parsed with dot
        rcases Option.map_eq_some_iff.mp parsed with ⟨tail, tailParsed, -⟩
        exact isAddressByte_of_inetPton4 tailParsed (token.subset mem)
    · rw [hex] at parsed
      dsimp only at parsed
      split_ifs at parsed
      rcases List.mem_cons.mp mem with rfl | inRest
      · simp [isAddressByte, hex]
      · exact ih parsed restToken inRest

theorem isAddressByte_of_isValidIp (valid : isValidIp ip = true) (mem : byte ∈ ip) :
    isAddressByte byte = true := by
  simp only [isValidIp, Bool.or_eq_true, Option.isSome_iff_exists] at valid
  rcases valid with ⟨address, parsed⟩ | ⟨address, parsed⟩
  · exact isAddressByte_of_inetPton4 parsed mem
  · unfold inetPton6 at parsed
    split at parsed
    · simp at mem
    · split_ifs at parsed with colon second
      · rcases Option.bind_eq_some_iff.mp parsed with ⟨final, loop, -⟩
        rcases List.mem_cons.mp mem with rfl | inRest
        · simp [isAddressByte, colon]
        · exact isAddressByte_of_pton6Loop loop suffix_rfl inRest
      · rcases Option.bind_eq_some_iff.mp parsed with ⟨final, loop, -⟩
        exact isAddressByte_of_pton6Loop loop suffix_rfl mem

theorem ne_of_isAddressByte {other : UInt8} (address : isAddressByte byte = true)
    (otherwise : isAddressByte other = false) : byte ≠ other := by
  rintro rfl
  rw [address] at otherwise
  exact Bool.noConfusion otherwise

theorem ne_nil_of_isValidIp (valid : isValidIp ip = true) : ip ≠ [] := by
  rintro rfl
  exact absurd valid (by decide)

end LogGuardian
