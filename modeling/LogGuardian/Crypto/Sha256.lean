import LogGuardian.Bytes
import LogGuardian.Lib.Sha256

/-!
# The shared hash functions
-/

namespace LogGuardian

open List

open Sha256 (Registers)

def rotRight (a b : UInt32) : UInt32 := a >>> b ||| a <<< (32 - b)

def shaCh (x y z : UInt32) : UInt32 := (x &&& y) ^^^ (~~~x &&& z)

def shaMaj (x y z : UInt32) : UInt32 := (x &&& y) ^^^ (x &&& z) ^^^ (y &&& z)

def ep0 (x : UInt32) : UInt32 := rotRight x 2 ^^^ rotRight x 13 ^^^ rotRight x 22

def ep1 (x : UInt32) : UInt32 := rotRight x 6 ^^^ rotRight x 11 ^^^ rotRight x 25

def sig0 (x : UInt32) : UInt32 := rotRight x 7 ^^^ rotRight x 18 ^^^ x >>> 3

def sig1 (x : UInt32) : UInt32 := rotRight x 17 ^^^ rotRight x 19 ^^^ x >>> 10

/-- The word that the first loop reads at `data[j]`. -/
def shaWord (data : Bytes) (j : ℕ) : UInt32 :=
  (byteAt data j).toUInt32 <<< 24 ||| (byteAt data (j + 1)).toUInt32 <<< 16 |||
    (byteAt data (j + 2)).toUInt32 <<< 8 ||| (byteAt data (j + 3)).toUInt32

/-- One turn of the second loop over `m`. -/
def extendWords (m : List UInt32) (i : ℕ) : List UInt32 :=
  m ++ [sig1 (m.getD (i - 2) 0) + m.getD (i - 7) 0 + sig0 (m.getD (i - 15) 0) + m.getD (i - 16) 0]

/-- The array `m` after both loops. -/
def shaWords (data : Bytes) : List UInt32 :=
  (List.range' 16 48).foldl extendWords ((List.range 16).map fun i => shaWord data (4 * i))

def shaRound (k m : List UInt32) (s : Registers) (i : ℕ) : Registers :=
  let t1 := s.h + ep1 s.e + shaCh s.e s.f s.g + k.getD i 0 + m.getD i 0
  let t2 := ep0 s.a + shaMaj s.a s.b s.c
  ⟨t1 + t2, s.a, s.b, s.c, s.d + t1, s.e, s.f, s.g⟩

def shaTransform (k : List UInt32) (s : Registers) (data : Bytes) : Registers :=
  s.add ((List.range 64).foldl (shaRound k (shaWords data)) s)

def kSha256 : List UInt32 :=
  [0x428a2f98, 0x71374491, 0xb5c0fbcf, 0xe9b5dba5, 0x3956c25b, 0x59f111f1, 0x923f82a4, 0xab1c5ed5,
   0xd807aa98, 0x12835b01, 0x243185be, 0x550c7dc3, 0x72be5d74, 0x80deb1fe, 0x9bdc06a7, 0xc19bf174,
   0xe49b69c1, 0xefbe4786, 0x0fc19dc6, 0x240ca1cc, 0x2de92c6f, 0x4a7484aa, 0x5cb0a9dc, 0x76f988da,
   0x983e5152, 0xa831c66d, 0xb00327c8, 0xbf597fc7, 0xc6e00bf3, 0xd5a79147, 0x06ca6351, 0x14292967,
   0x27b70a85, 0x2e1b2138, 0x4d2c6dfc, 0x53380d13, 0x650a7354, 0x766a0abb, 0x81c2c92e, 0x92722c85,
   0xa2bfe8a1, 0xa81a664b, 0xc24b8b70, 0xc76c51a3, 0xd192e819, 0xd6990624, 0xf40e3585, 0x106aa070,
   0x19a4c116, 0x1e376c08, 0x2748774c, 0x34b0bcb5, 0x391c0cb3, 0x4ed8aa4a, 0x5b9cca4f, 0x682e6ff3,
   0x748f82ee, 0x78a5636f, 0x84c87814, 0x8cc70208, 0x90befffa, 0xa4506ceb, 0xbef9a3f7, 0xc67178f2]

def sha256Transform (s : Registers) (data : Bytes) : Registers := shaTransform kSha256 s data

/-- `Sha256Ctx`; `data` are the `datalen` bytes in use. -/
structure Sha256Ctx where
  data : Bytes := []
  bitlen : ℕ := 0
  state : Registers :=
    ⟨0x6a09e667, 0xbb67ae85, 0x3c6ef372, 0xa54ff53a, 0x510e527f, 0x9b05688c, 0x1f83d9ab, 0x5be0cd19⟩

def sha256Init : Sha256Ctx := {}

/-- One turn of the loop of `sha256_update`. -/
def sha256UpdateByte (ctx : Sha256Ctx) (byte : UInt8) : Sha256Ctx :=
  let data := ctx.data ++ [byte]
  if data.length = 64 then
    { data := [], bitlen := (ctx.bitlen + 512) % 2 ^ 64, state := sha256Transform ctx.state data }
  else { ctx with data := data }

def sha256Update (ctx : Sha256Ctx) (data : Bytes) : Sha256Ctx := data.foldl sha256UpdateByte ctx

def bitBytes (bitlen : ℕ) : Bytes := (List.range 8).map fun i => UInt8.ofNat (bitlen >>> (56 - 8 * i))

/-- The state after the padding of `sha256_final`. -/
def sha256Pad (ctx : Sha256Ctx) : Registers :=
  let bitlen := (ctx.bitlen + ctx.data.length * 8) % 2 ^ 64
  if ctx.data.length < 56 then
    sha256Transform ctx.state
      (ctx.data ++ 0x80 :: List.replicate (55 - ctx.data.length) 0 ++ bitBytes bitlen)
  else
    let state := sha256Transform ctx.state (ctx.data ++ 0x80 :: List.replicate (63 - ctx.data.length) 0)
    sha256Transform state (List.replicate 56 0 ++ bitBytes bitlen)

/-- The bytes `hash[i + 4 * j]` that the last loop writes, for the word `j` of the state. -/
def hashBytes (state : Registers) : Bytes :=
  state.toList.flatMap fun word =>
    [(24 : UInt32), 16, 8, 0].map fun shift => (word >>> shift &&& 0xff).toUInt8

def sha256Final (ctx : Sha256Ctx) : Bytes := hashBytes (sha256Pad ctx)

abbrev Memory := ℕ → UInt8

namespace Memory

def load (memory : Memory) (p size : ℕ) : Bytes := (List.range size).map fun i => memory (p + i)

def store (memory : Memory) (p : ℕ) (bytes : Bytes) : Memory := fun q =>
  if p ≤ q ∧ q < p + bytes.length then byteAt bytes (q - p) else memory q

end Memory

/-- `memcpy` of the key into 64 zero bytes, and the loop over them. -/
def keyPad (key : Bytes) (pad : UInt8) : Bytes :=
  (key ++ List.replicate (64 - key.length) 0).map (· ^^^ pad)

def hmacWith {Ctx : Type} (init : Ctx) (update : Ctx → Bytes → Ctx) (final : Ctx → Bytes)
    (key msg : Bytes) : Bytes :=
  let key := if key.length > 64 then final (update init key) else key
  let inner := final (update (update init (keyPad key 0x36)) msg)
  final (update (update init (keyPad key 0x5c)) inner)

/-- The bytes that `hmac_sha256` writes to `out`. -/
def hmacSha256Bytes (key msg : Bytes) : Bytes :=
  hmacWith sha256Init sha256Update sha256Final key msg

/-- `hmac_sha256`. -/
def hmacSha256 (memory : Memory) (key : Bytes) (msg msgLen out : ℕ) : Memory :=
  memory.store out (hmacSha256Bytes key (memory.load msg msgLen))

def hexdig (nibble : UInt8) : UInt8 := (ascii "0123456789abcdef").getD nibble.toNat 0

def hexText (bytes : Bytes) : Bytes :=
  bytes.flatMap fun byte : UInt8 => [hexdig (byte >>> 4 &&& 0x0f), hexdig (byte &&& 0x0f)]

theorem hexdig_mem (byte : UInt8) : hexdig (byte &&& 0x0f) ∈ ascii "0123456789abcdef" := by
  have table : ∀ n < 16, (ascii "0123456789abcdef").getD n 0 ∈ ascii "0123456789abcdef" := by decide
  apply table
  exact Nat.lt_succ_of_le Nat.and_le_right

theorem mem_hexText {bytes : Bytes} {digit : UInt8} (mem : digit ∈ hexText bytes) :
    digit ∈ ascii "0123456789abcdef" := by
  rcases List.mem_flatMap.mp mem with ⟨byte, -, isDigit⟩
  rcases List.mem_cons.mp isDigit with rfl | isLow
  · exact hexdig_mem (byte >>> 4)
  · rw [List.mem_singleton.mp isLow]
    exact hexdig_mem byte

/-- The stack frame of `pbkdf2_sha256_hex`: `u` and behind it `block`. -/
def frameU : ℕ := 0

def frameBlock : ℕ := 32

/-- One turn of the loop. -/
def pbkdf2Turn (password : Bytes) (frame : Memory × Bytes) (_turn : ℕ) : Memory × Bytes :=
  let memory := hmacSha256 frame.1 password frameU 32 frameU
  (memory, List.zipWith (· ^^^ ·) frame.2 (memory.load frameU 32))

def pbkdf2Sha256Hex (memory : Memory) (password salt : Bytes) (iters : ℤ) : Option Bytes :=
  if salt = [] ∨ iters < 10000 then none
  else if salt.length + 4 > 128 then none
  else
    let memory := memory.store frameBlock (salt ++ [0, 0, 0, 1])
    let memory := hmacSha256 memory password frameBlock (salt.length + 4) frameU
    let frame := (List.range (iters - 1).toNat).foldl (pbkdf2Turn password)
      (memory, memory.load frameU 32)
    some (hexText frame.2)

theorem shaWord_eq (data : Bytes) (i : ℕ) : shaWord data (4 * i) = Sha256.word data i := rfl

theorem extendWords_eq {data : Bytes} {count : ℕ} (early : 16 ≤ count) :
    extendWords ((List.range count).map (Sha256.schedule data)) count =
      (List.range (count + 1)).map (Sha256.schedule data) := by
  have entry : ∀ back, 0 < back → back ≤ 16 →
      ((range count).map (Sha256.schedule data)).getD (count - back) 0 =
        Sha256.schedule data (count - back) := by
    intro back positive small
    rw [getD_eq_getElem _ _ (by simp; omega)]
    simp
  rw [extendWords, range_succ, map_append, entry 2 (by omega) (by omega),
    entry 7 (by omega) (by omega), entry 15 (by omega) (by omega), entry 16 (by omega) (by omega),
    map_singleton, Sha256.schedule_of_le early]
  rfl

theorem shaWords_eq (data : Bytes) : shaWords data = (List.range 64).map (Sha256.schedule data) := by
  have start : ((range 16).map fun i => shaWord data (4 * i)) =
      (range 16).map (Sha256.schedule data) := by
    apply map_congr_left
    intro i early
    rw [shaWord_eq, Sha256.schedule_of_lt (List.mem_range.mp early)]
  have extended : ∀ count, (range' 16 count).foldl extendWords
      ((range 16).map (Sha256.schedule data)) =
        (range (16 + count)).map (Sha256.schedule data) := by
    intro count
    induction count with
    | zero => rfl
    | succ count ih =>
      rw [range'_concat, foldl_append, ih, Nat.one_mul]
      exact extendWords_eq (by omega)
  rw [shaWords, start]
  exact extended 48

theorem shaRound_eq {m : List UInt32} {words : ℕ → UInt32} {i : ℕ} (entry : m.getD i 0 = words i)
    (s : Registers) : shaRound Sha256.constants m s i = Sha256.round words s i := by
  rw [shaRound, entry]
  rfl

theorem shaTransform_eq_compress : shaTransform Sha256.constants = Sha256.compress := by
  funext s data
  have rounds : (range 64).foldl (shaRound Sha256.constants (shaWords data)) s =
      (range 64).foldl (Sha256.round (Sha256.schedule data)) s := by
    apply foldl_ext
    intro registers i inside
    apply shaRound_eq
    rw [shaWords_eq, getD_eq_getElem _ _ (by simpa using List.mem_range.mp inside)]
    simp
  rw [shaTransform, rounds, Sha256.compress]

theorem sha256Transform_eq_compress : sha256Transform = Sha256.compress := shaTransform_eq_compress

namespace Sha256Ctx

def stream (ctx : Sha256Ctx) : BlockHash.Stream Registers UInt8 := ⟨ctx.state, ctx.data⟩

def bits (ctx : Sha256Ctx) : ℕ := (ctx.bitlen + ctx.data.length * 8) % 2 ^ 64

end Sha256Ctx

theorem stream_sha256UpdateByte (ctx : Sha256Ctx) (byte : UInt8) :
    (sha256UpdateByte ctx byte).stream = BlockHash.absorb sha256Transform 64 ctx.stream byte := by
  unfold sha256UpdateByte BlockHash.absorb Sha256Ctx.stream
  dsimp only
  split_ifs <;> rfl

theorem stream_sha256Update (ctx : Sha256Ctx) (data : Bytes) :
    (sha256Update ctx data).stream = BlockHash.absorbAll sha256Transform 64 ctx.stream data := by
  induction data generalizing ctx with
  | nil => rfl
  | cons byte rest ih =>
    have step : sha256Update ctx (byte :: rest) = sha256Update (sha256UpdateByte ctx byte) rest := rfl
    rw [step, ih, stream_sha256UpdateByte]
    rfl

theorem bits_sha256UpdateByte (ctx : Sha256Ctx) (byte : UInt8) :
    (sha256UpdateByte ctx byte).bits = (ctx.bits + 8) % 2 ^ 64 := by
  simp only [sha256UpdateByte, Sha256Ctx.bits, length_append, length_singleton]
  split
  · simp only [length_nil]
    omega
  · simp only [length_append, length_singleton]
    omega

theorem bits_sha256Update (ctx : Sha256Ctx) (data : Bytes) :
    (sha256Update ctx data).bits = (ctx.bits + 8 * data.length) % 2 ^ 64 := by
  induction data generalizing ctx with
  | nil => exact (Nat.mod_mod _ _).symm
  | cons byte rest ih =>
    have step : sha256Update ctx (byte :: rest) = sha256Update (sha256UpdateByte ctx byte) rest := rfl
    rw [step, ih, bits_sha256UpdateByte, length_cons]
    omega

theorem length_bitBytes (bitlen : ℕ) : (bitBytes bitlen).length = 8 := rfl

theorem sha256Pad_eq (ctx : Sha256Ctx) (short : ctx.data.length < 64) :
    sha256Pad ctx = BlockHash.hash sha256Transform 64 ctx.state (ctx.data ++
      (0x80 :: List.replicate (BlockHash.fill 64 8 ctx.data.length) 0 ++ bitBytes ctx.bits)) := by
  have eight := length_bitBytes ctx.bits
  rw [sha256Pad]
  by_cases fits : ctx.data.length < 56
  · have whole := @BlockHash.hash_padding_of_fits _ _ sha256Transform 64 ctx.data (bitBytes ctx.bits)
      0x80 0 (by omega) ctx.state
    rw [eight] at whole
    rw [whole, if_pos fits, append_assoc, Sha256Ctx.bits]
  · have whole := @BlockHash.hash_padding_of_not_fits _ _ sha256Transform 64 ctx.data
      (bitBytes ctx.bits) 0x80 0 short (by omega) (by omega) ctx.state
    rw [eight] at whole
    rw [whole, if_neg fits, Sha256Ctx.bits]

theorem bitBytes_eq (length : ℕ) : bitBytes (8 * length % 2 ^ 64) = Sha256.lengthBytes length := by
  apply map_congr_left
  intro i inRange
  have powers : (256 : ℕ) ^ (7 - i) * 256 ∣ 2 ^ 64 := by
    rw [← pow_succ, show (256 : ℕ) = 2 ^ 8 from rfl, ← pow_mul]
    exact pow_dvd_pow 2 (by omega)
  have shift : 2 ^ (56 - 8 * i) = 256 ^ (7 - i) := by
    rw [show (256 : ℕ) = 2 ^ 8 from rfl, ← pow_mul]
    congr 1
    omega
  apply UInt8.toNat_inj.mp
  rw [Nat.shiftRight_eq_div_pow, shift]
  calc 8 * length % 2 ^ 64 / 256 ^ (7 - i) % 256
      = 8 * length % 2 ^ 64 % (256 ^ (7 - i) * 256) / 256 ^ (7 - i) :=
        (Nat.mod_mul_right_div_self _ _ _).symm
    _ = 8 * length % (256 ^ (7 - i) * 256) / 256 ^ (7 - i) := by rw [Nat.mod_mod_of_dvd _ powers]
    _ = 8 * length / 256 ^ (7 - i) % 256 := Nat.mod_mul_right_div_self _ _ _

theorem toUInt8_and_mask (word : UInt32) : (word &&& 0xff).toUInt8 = word.toUInt8 := by
  apply UInt8.toNat_inj.mp
  have mask : (word &&& 0xff).toNat = word.toNat % 2 ^ 8 := Nat.and_two_pow_sub_one_eq_mod word.toNat 8
  rw [UInt32.toNat_toUInt8, UInt32.toNat_toUInt8, mask, Nat.mod_mod]

theorem hashBytes_eq (state : Registers) : hashBytes state = state.toList.flatMap Sha256.bytesOf := by
  have bytes : (fun word : UInt32 =>
      [(24 : UInt32), 16, 8, 0].map fun shift => (word >>> shift &&& 0xff).toUInt8) =
        Sha256.bytesOf := by
    funext word
    simp only [toUInt8_and_mask, map_cons, map_nil, UInt32.shiftRight_zero, Sha256.bytesOf]
  rw [hashBytes, bytes]

section Stream

variable {state : Registers} {pending message : Bytes}
  (stream : ⟨state, pending⟩ = BlockHash.absorbAll Sha256.compress 64 ⟨Sha256.initial, []⟩ message)

include stream

theorem length_pending_of_stream : pending.length = message.length % 64 := by
  have length := @BlockHash.length_pending_absorbAll _ _ Sha256.compress 64 ⟨Sha256.initial, []⟩
    message (show 0 < 64 by decide)
  rw [← stream, length_nil, Nat.zero_add] at length
  exact length

theorem hash_of_stream {bits : ℕ} (count : bits = 8 * message.length % 2 ^ 64) :
    BlockHash.hash Sha256.compress 64 state (pending ++
        (0x80 :: List.replicate (BlockHash.fill 64 8 pending.length) 0 ++ bitBytes bits)) =
      BlockHash.hash Sha256.compress 64 Sha256.initial (message ++ Sha256.padding message.length) := by
  have fill : BlockHash.fill 64 8 pending.length = BlockHash.fill 64 8 message.length := by
    rw [BlockHash.fill, BlockHash.fill, length_pending_of_stream stream, Nat.mod_mod]
  have kept := @BlockHash.hash_absorbAll _ _ Sha256.compress 64 ⟨Sha256.initial, []⟩ message
    (show 0 < 64 by decide) (Sha256.padding message.length)
  rw [← stream] at kept
  rw [count, bitBytes_eq, fill]
  exact kept

end Stream

theorem sha256Final_sha256Update (message : Bytes) :
    sha256Final (sha256Update sha256Init message) = Sha256.digest message := by
  have stream := stream_sha256Update sha256Init message
  have bits := bits_sha256Update sha256Init message
  generalize sha256Update sha256Init message = ctx at stream bits
  rw [sha256Transform_eq_compress] at stream
  have count : ctx.bits = 8 * message.length % 2 ^ 64 := by
    rw [bits]
    exact congrArg (· % 2 ^ 64) (Nat.zero_add _)
  have short : ctx.data.length < 64 := by
    rw [length_pending_of_stream stream]
    exact Nat.mod_lt _ (by decide)
  rw [sha256Final, sha256Pad_eq ctx short, sha256Transform_eq_compress, hash_of_stream stream count,
    hashBytes_eq, Sha256.digest]

example : sha256Final (sha256Update sha256Init (ascii "abc")) =
    [0xba, 0x78, 0x16, 0xbf, 0x8f, 0x01, 0xcf, 0xea, 0x41, 0x41, 0x40, 0xde, 0x5d, 0xae, 0x22, 0x23,
     0xb0, 0x03, 0x61, 0xa3, 0x96, 0x17, 0x7a, 0x9c, 0xb4, 0x10, 0xff, 0x61, 0xf2, 0x00, 0x15, 0xad] := by
  decide +kernel

theorem foldl_sha256Update (ctx : Sha256Ctx) (chunks : List Bytes) :
    chunks.foldl sha256Update ctx = sha256Update ctx chunks.flatten := by
  induction chunks generalizing ctx with
  | nil => rfl
  | cons chunk rest ih =>
    rw [foldl_cons, ih, flatten_cons, sha256Update, sha256Update, sha256Update,
      foldl_append]

theorem hmacWith_eq {Ctx : Type} {init : Ctx} {update : Ctx → Bytes → Ctx} {final : Ctx → Bytes}
    (joins : ∀ first second, update (update init first) second = update init (first ++ second))
    (digests : ∀ message, final (update init message) = Sha256.digest message) (key msg : Bytes) :
    hmacWith init update final key msg = Hmac.hmac Sha256.digest 64 key msg := by
  simp only [hmacWith, joins, digests]
  rfl

theorem hmacSha256Bytes_eq (key msg : Bytes) :
    hmacSha256Bytes key msg = Hmac.hmac Sha256.digest 64 key msg := by
  apply hmacWith_eq
  · intro first second
    rw [sha256Update, sha256Update, sha256Update, foldl_append]
  · exact sha256Final_sha256Update

namespace Memory

theorem load_store (memory : Memory) (p : ℕ) {bytes : Bytes} {size : ℕ} (length : bytes.length = size) :
    (memory.store p bytes).load p size = bytes := by
  apply ext_getElem
  · simp [load, length]
  · intro i inLoaded inBytes
    simp [load, store, byteAt, inBytes]

end Memory

theorem length_hmac (key msg : Bytes) : (Hmac.hmac Sha256.digest 64 key msg).length = 32 :=
  Sha256.length_digest _

theorem load_hmacSha256 (memory : Memory) (key : Bytes) (msg msgLen out : ℕ) :
    (hmacSha256 memory key msg msgLen out).load out 32 =
      Hmac.hmac Sha256.digest 64 key (memory.load msg msgLen) := by
  rw [hmacSha256, hmacSha256Bytes_eq]
  exact Memory.load_store memory out (length_hmac _ _)

section Derivation

variable (password salt : Bytes)

def pbkdf2Value (j : ℕ) : Bytes := Pbkdf2.value (Hmac.hmac Sha256.digest 64) password salt 1 j

theorem foldl_pbkdf2Turn {memory : Memory} (first : memory.load frameU 32 = pbkdf2Value password salt 0)
    (count : ℕ) :
    let frame := (range count).foldl (pbkdf2Turn password) (memory, memory.load frameU 32)
    frame.1.load frameU 32 = pbkdf2Value password salt count ∧
      frame.2 = Pbkdf2.combined (Hmac.hmac Sha256.digest 64) password salt 1 count := by
  induction count with
  | zero => exact ⟨first, first⟩
  | succ count ih =>
    rw [range_succ, foldl_append]
    rcases ih with ⟨current, combined⟩
    have next : ((range count).foldl (pbkdf2Turn password)
        (memory, memory.load frameU 32)).1.load frameU 32 = pbkdf2Value password salt count := current
    have written := load_hmacSha256 ((range count).foldl (pbkdf2Turn password)
      (memory, memory.load frameU 32)).1 password frameU 32 frameU
    rw [next] at written
    refine ⟨written, ?_⟩
    simp only [foldl_cons, pbkdf2Turn]
    rw [written, combined]
    rfl

theorem pbkdf2Sha256Hex_eq (memory : Memory) {iters : ℤ} (nonempty : 1 ≤ salt.length)
    (room : salt.length ≤ 124) (enough : 10000 ≤ iters) :
    pbkdf2Sha256Hex memory password salt iters =
      some (hexText (Pbkdf2.block (Hmac.hmac Sha256.digest 64) password salt 1 iters.toNat)) := by
  have present : ¬(salt = [] ∨ iters < 10000) := by
    rintro (rfl | few)
    · simp at nonempty
    · omega
  have stored : ((memory.store frameBlock (salt ++ [0, 0, 0, 1])).load frameBlock (salt.length + 4)) =
      salt ++ [0, 0, 0, 1] := Memory.load_store memory frameBlock (by simp)
  have first := load_hmacSha256 (memory.store frameBlock (salt ++ [0, 0, 0, 1])) password frameBlock
    (salt.length + 4) frameU
  rw [stored] at first
  have turns := foldl_pbkdf2Turn password salt first (iters - 1).toNat
  have count : (iters - 1).toNat = iters.toNat - 1 := by omega
  rw [pbkdf2Sha256Hex, if_neg present, if_neg (by omega)]
  simp only
  rw [turns.2, count, Pbkdf2.block]

end Derivation

/-- SHA-256 of a message in any pieces, HMAC with the output anywhere, and the first block of
PBKDF2 are those of the standards. -/
theorem crypto_standard :
    (∀ chunks : List Bytes, chunks.flatten.length < 2 ^ 61 →
      sha256Final (chunks.foldl sha256Update sha256Init) = Sha256.digest chunks.flatten) ∧
    (∀ (memory : Memory) (key : Bytes) (msg msgLen out : ℕ),
      (hmacSha256 memory key msg msgLen out).load out 32 =
        Hmac.hmac Sha256.digest 64 key (memory.load msg msgLen)) ∧
    ∀ (memory : Memory) (password salt : Bytes) (iters : ℤ), 1 ≤ salt.length → salt.length ≤ 124 →
      10000 ≤ iters → pbkdf2Sha256Hex memory password salt iters =
        some (hexText (Pbkdf2.block (Hmac.hmac Sha256.digest 64) password salt 1 iters.toNat)) := by
  refine ⟨?_, load_hmacSha256, ?_⟩
  · intro chunks _
    rw [foldl_sha256Update]
    exact sha256Final_sha256Update chunks.flatten
  · intro memory password salt iters nonempty room enough
    exact pbkdf2Sha256Hex_eq password salt memory nonempty room enough

end LogGuardian
