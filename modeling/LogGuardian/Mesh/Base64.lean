import LogGuardian.Mesh.Watch

/-!
# Base 64 in both directions
-/

namespace LogGuardian

open List

/-- `base64_encode` with `o` bytes written so far. -/
def base64EncodeInto (outsize : ℕ) : Bytes → ℕ → Bytes
  | first :: second :: third :: rest, o =>
    if o + 5 < outsize then
      base64Encode [first, second, third] ++ base64EncodeInto outsize rest (o + 4)
    else []
  | text, o => if o + 5 < outsize then base64Encode text else []

/-- What `base64_decode` returns: the number of bytes as an `int`. -/
def base64DecodeCount (text : Bytes) (outsize : ℕ) : ℤ := toCInt (base64Decode text outsize).length

def bitAt (text : Bytes) (k : ℕ) : ℕ := ((text.getD (k / 8) 0).toNat.testBit (7 - k % 8)).toNat

def sextet (text : Bytes) (i : ℕ) : ℕ :=
  ((List.range 6).map fun j => bitAt text (6 * i + j) * 2 ^ (5 - j)).sum

def rfc4648 (text : Bytes) : Bytes :=
  (List.range ((4 * text.length + 2) / 3)).map (fun i => base64Char (sextet text i)) ++
    List.replicate ((3 - text.length % 3) % 3) (chr '=')

theorem sextet_bytes (text : Bytes) :
    let byte i := (text.getD i 0).toNat
    sextet text 0 = byte 0 / 4 ∧ sextet text 1 = byte 0 % 4 * 16 + byte 1 / 16 ∧
      sextet text 2 = byte 1 % 16 * 4 + byte 2 / 64 ∧ sextet text 3 = byte 2 % 64 := by
  have bits : ∀ byte : UInt8, let bit i := (byte.toNat.testBit i).toNat
      bit 7 * 32 + bit 6 * 16 + bit 5 * 8 + bit 4 * 4 + bit 3 * 2 + bit 2 = byte.toNat / 4 ∧
      bit 1 * 32 + bit 0 * 16 = byte.toNat % 4 * 16 ∧
      bit 7 * 8 + bit 6 * 4 + bit 5 * 2 + bit 4 = byte.toNat / 16 ∧
      bit 3 * 32 + bit 2 * 16 + bit 1 * 8 + bit 0 * 4 = byte.toNat % 16 * 4 ∧
      bit 7 * 2 + bit 6 = byte.toNat / 64 ∧
      bit 5 * 32 + bit 4 * 16 + bit 3 * 8 + bit 2 * 4 + bit 1 * 2 + bit 0 = byte.toNat % 64 := by
    decide +kernel
  have first := bits (text.getD 0 0)
  have second := bits (text.getD 1 0)
  have third := bits (text.getD 2 0)
  simp only [sextet, bitAt, range_succ_eq_map, range_zero, map_cons, map_nil, sum_cons, sum_nil,
    Nat.reduceMul, Nat.reduceAdd, Nat.reduceDiv, Nat.reduceMod, Nat.reduceSub, Nat.succ_eq_add_one] at first second third ⊢
  omega

theorem sextet_shift (first second third : UInt8) (rest : Bytes) (i : ℕ) :
    sextet (first :: second :: third :: rest) (i + 4) = sextet rest i := by
  have shift (j : ℕ) : bitAt (first :: second :: third :: rest) (6 * (i + 4) + j) =
      bitAt rest (6 * i + j) := by
    rw [bitAt, show (6 * (i + 4) + j) / 8 = (6 * i + j) / 8 + 1 + 1 + 1 by omega,
      show (6 * (i + 4) + j) % 8 = (6 * i + j) % 8 by omega]
    rfl
  simp [sextet, shift]

theorem base64Encode_eq_rfc4648 (text : Bytes) : base64Encode text = rfc4648 text := by
  have lt (byte : UInt8) : byte.toNat < 256 := byte.toNat_lt
  fun_induction base64Encode text with
  | case1 => rfl
  | case2 first val =>
    have sextets := sextet_bytes [first]
    have bound := lt first
    simp only [getD_cons_zero, getD_cons_succ, getD_nil, UInt8.toNat_zero] at sextets
    rw [show val / 2 ^ 18 % 64 = sextet [first] 0 by omega,
      show val / 2 ^ 12 % 64 = sextet [first] 1 by omega]
    simp [rfc4648, range_succ]
  | case3 first second val =>
    have sextets := sextet_bytes [first, second]
    have bounds := And.intro (lt first) (lt second)
    simp only [getD_cons_zero, getD_cons_succ, getD_nil, UInt8.toNat_zero] at sextets
    rw [show val / 2 ^ 18 % 64 = sextet [first, second] 0 by omega,
      show val / 2 ^ 12 % 64 = sextet [first, second] 1 by omega,
      show val / 2 ^ 6 % 64 = sextet [first, second] 2 by omega]
    simp [rfc4648, range_succ]
  | case4 first second third rest val ih =>
    have sextets := sextet_bytes (first :: second :: third :: rest)
    have bounds := And.intro (lt first) (And.intro (lt second) (lt third))
    simp only [getD_cons_zero, getD_cons_succ] at sextets
    have groups : (4 * (first :: second :: third :: rest).length + 2) / 3 =
        4 + (4 * rest.length + 2) / 3 := by
      simp only [length_cons]
      omega
    have pads : (first :: second :: third :: rest).length % 3 = rest.length % 3 := by
      simp only [length_cons]
      omega
    rw [ih, rfc4648, rfc4648, groups, pads, range_add, map_append, map_map,
      show val / 2 ^ 18 % 64 = sextet (first :: second :: third :: rest) 0 by omega,
      show val / 2 ^ 12 % 64 = sextet (first :: second :: third :: rest) 1 by omega,
      show val / 2 ^ 6 % 64 = sextet (first :: second :: third :: rest) 2 by omega,
      show val % 64 = sextet (first :: second :: third :: rest) 3 by omega]
    simp only [Function.comp_def, Nat.add_comm 4, sextet_shift]
    rfl

theorem base64EncodeInto_eq {outsize : ℕ} (text : Bytes) {o : ℕ}
    (fits : o + 4 * ((text.length + 2) / 3) + 2 ≤ outsize) :
    base64EncodeInto outsize text o = base64Encode text := by
  fun_induction base64EncodeInto outsize text o with
  | case1 o first second third rest room ih =>
    simp only [length_cons] at fits
    rw [ih (by omega)]
    rfl
  | case2 o first second third rest full =>
    simp only [length_cons] at fits
    omega
  | case3 text o long room => rfl
  | case4 text o long full =>
    rcases text with _ | ⟨byte, rest⟩
    · rfl
    · simp only [length_cons] at fits
      omega

theorem base64Decode_encode (text : Bytes) {room : ℕ} (fits : 3 * ((text.length + 2) / 3) + 1 ≤ room) :
    base64Decode (base64Encode text) room = text := by
  induction text using base64Encode.induct generalizing room with
  | case1 => simp [base64Encode, base64Decode]
  | case2 first => exact base64Decode_single first (by simp at fits; omega)
  | case3 first second => exact base64Decode_pair first second (by simp at fits; omega)
  | case4 first second third rest ih =>
    simp only [length_cons] at fits
    rw [base64Encode, base64Decode_group _ _ _ _ (by omega), ih (by omega)]

theorem base64DecodeCount_eq_iff {text : Bytes} {room : ℕ}
    (roomy : 3 * ((text.length + 2) / 3) + 1 ≤ room) :
    base64DecodeCount (base64Encode text) room = text.length ↔ text.length < 2 ^ 31 := by
  rw [base64DecodeCount, base64Decode_encode text roomy, toCInt, Int.bmod_def]
  constructor <;> intro <;> omega

/-- The encoder's output is that of RFC 4648 and decodes to the input, whose length is returned if
it is an `int`. -/
theorem base64_roundTrip {text : Bytes} {outsize room : ℕ}
    (fits : 4 * ((text.length + 2) / 3) + 2 ≤ outsize) (roomy : 3 * ((text.length + 2) / 3) + 1 ≤ room) :
    base64EncodeInto outsize text 0 = rfc4648 text ∧
      base64Decode (base64EncodeInto outsize text 0) room = text ∧
      (base64DecodeCount (base64EncodeInto outsize text 0) room = text.length ↔
        text.length < 2 ^ 31) := by
  rw [base64EncodeInto_eq text (by omega), base64DecodeCount_eq_iff roomy, base64Decode_encode text roomy]
  exact ⟨base64Encode_eq_rfc4648 text, rfl, Iff.rfl⟩

theorem base64_roundTrip_two_bytes :
    base64EncodeInto 6 [0, 255] 0 = rfc4648 [0, 255] ∧
      base64Decode (base64EncodeInto 6 [0, 255] 0) 4 = [0, 255] ∧
      (base64DecodeCount (base64EncodeInto 6 [0, 255] 0) 4 = 2 ↔ 2 < 2 ^ 31) :=
  @base64_roundTrip [0, 255] 6 4 (by decide) (by decide)

/-- For 2 GiB the count that is returned is negative. -/
theorem base64DecodeCount_wraps :
    base64DecodeCount (base64EncodeInto (2 ^ 33) (List.replicate (2 ^ 31) 0) 0) (2 ^ 33) ≠ 2 ^ 31 := by
  have count := @base64DecodeCount_eq_iff (replicate (2 ^ 31) 0) (2 ^ 33)
  rw [← @base64EncodeInto_eq (2 ^ 33) (replicate (2 ^ 31) 0) 0
    (by rw [length_replicate]; decide), length_replicate] at count
  intro same
  exact absurd ((count (by decide)).mp (by exact_mod_cast same)) (by decide)

end LogGuardian
