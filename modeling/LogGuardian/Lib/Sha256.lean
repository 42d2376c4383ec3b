import LogGuardian.Lib.BlockHash

/-!
# SHA-256
-/

namespace Sha256

open List

structure Registers where
  a : UInt32
  b : UInt32
  c : UInt32
  d : UInt32
  e : UInt32
  f : UInt32
  g : UInt32
  h : UInt32
  deriving DecidableEq, Repr

def Registers.toList (registers : Registers) : List UInt32 :=
  [registers.a, registers.b, registers.c, registers.d, registers.e, registers.f, registers.g,
    registers.h]

def Registers.add (first second : Registers) : Registers :=
  ⟨first.a + second.a, first.b + second.b, first.c + second.c, first.d + second.d,
    first.e + second.e, first.f + second.f, first.g + second.g, first.h + second.h⟩

def initial : Registers :=
  ⟨0x6a09e667, 0xbb67ae85, 0x3c6ef372, 0xa54ff53a, 0x510e527f, 0x9b05688c, 0x1f83d9ab, 0x5be0cd19⟩

def constants : List UInt32 :=
  [0x428a2f98, 0x71374491, 0xb5c0fbcf, 0xe9b5dba5, 0x3956c25b, 0x59f111f1, 0x923f82a4, 0xab1c5ed5,
   0xd807aa98, 0x12835b01, 0x243185be, 0x550c7dc3, 0x72be5d74, 0x80deb1fe, 0x9bdc06a7, 0xc19bf174,
   0xe49b69c1, 0xefbe4786, 0x0fc19dc6, 0x240ca1cc, 0x2de92c6f, 0x4a7484aa, 0x5cb0a9dc, 0x76f988da,
   0x983e5152, 0xa831c66d, 0xb00327c8, 0xbf597fc7, 0xc6e00bf3, 0xd5a79147, 0x06ca6351, 0x14292967,
   0x27b70a85, 0x2e1b2138, 0x4d2c6dfc, 0x53380d13, 0x650a7354, 0x766a0abb, 0x81c2c92e, 0x92722c85,
   0xa2bfe8a1, 0xa81a664b, 0xc24b8b70, 0xc76c51a3, 0xd192e819, 0xd6990624, 0xf40e3585, 0x106aa070,
   0x19a4c116, 0x1e376c08, 0x2748774c, 0x34b0bcb5, 0x391c0cb3, 0x4ed8aa4a, 0x5b9cca4f, 0x682e6ff3,
   0x748f82ee, 0x78a5636f, 0x84c87814, 0x8cc70208, 0x90befffa, 0xa4506ceb, 0xbef9a3f7, 0xc67178f2]

def primes : List ℕ := (List.range 312).filter fun n => 2 ≤ n ∧ ∀ d ∈ List.range n, 2 ≤ d → ¬d ∣ n

example : primes.length = 64 ∧ ∀ i < 64, ∃ whole < 7,
    (whole * 2 ^ 32 + (constants.getD i 0).toNat) ^ 3 ≤ primes.getD i 0 * 2 ^ 96 ∧
      primes.getD i 0 * 2 ^ 96 < (whole * 2 ^ 32 + (constants.getD i 0).toNat + 1) ^ 3 := by
  decide +kernel

def rotr (amount word : UInt32) : UInt32 := word >>> amount ||| word <<< (32 - amount)

def ch (x y z : UInt32) : UInt32 := (x &&& y) ^^^ (~~~x &&& z)

def maj (x y z : UInt32) : UInt32 := (x &&& y) ^^^ (x &&& z) ^^^ (y &&& z)

def upperSigma0 (x : UInt32) : UInt32 := rotr 2 x ^^^ rotr 13 x ^^^ rotr 22 x

def upperSigma1 (x : UInt32) : UInt32 := rotr 6 x ^^^ rotr 11 x ^^^ rotr 25 x

def lowerSigma0 (x : UInt32) : UInt32 := rotr 7 x ^^^ rotr 18 x ^^^ x >>> 3

def lowerSigma1 (x : UInt32) : UInt32 := rotr 17 x ^^^ rotr 19 x ^^^ x >>> 10

/-- The word of a block at an index, its high-order byte first. -/
def word (block : List UInt8) (index : ℕ) : UInt32 :=
  (block.getD (4 * index) 0).toUInt32 <<< 24 ||| (block.getD (4 * index + 1) 0).toUInt32 <<< 16 |||
    (block.getD (4 * index + 2) 0).toUInt32 <<< 8 ||| (block.getD (4 * index + 3) 0).toUInt32

/-- The word of the schedule for a round. -/
def schedule (block : List UInt8) (t : ℕ) : UInt32 :=
  if t < 16 then word block t
  else
    lowerSigma1 (schedule block (t - 2)) + schedule block (t - 7) +
      lowerSigma0 (schedule block (t - 15)) + schedule block (t - 16)
termination_by t
decreasing_by all_goals omega

theorem schedule_of_lt {block : List UInt8} {t : ℕ} (early : t < 16) :
    schedule block t = word block t := by
  rw [schedule, if_pos early]

theorem schedule_of_le {block : List UInt8} {t : ℕ} (later : 16 ≤ t) :
    schedule block t = lowerSigma1 (schedule block (t - 2)) + schedule block (t - 7) +
      lowerSigma0 (schedule block (t - 15)) + schedule block (t - 16) := by
  rw [schedule, if_neg (by omega)]

def round (words : ℕ → UInt32) (registers : Registers) (t : ℕ) : Registers :=
  let first := registers.h + upperSigma1 registers.e + ch registers.e registers.f registers.g +
    constants.getD t 0 + words t
  let second := upperSigma0 registers.a + maj registers.a registers.b registers.c
  ⟨first + second, registers.a, registers.b, registers.c, registers.d + first, registers.e,
    registers.f, registers.g⟩

def compress (state : Registers) (block : List UInt8) : Registers :=
  state.add ((List.range 64).foldl (round (schedule block)) state)

/-- The bytes of a word, the high-order one first. -/
def bytesOf (word : UInt32) : List UInt8 :=
  [(word >>> 24).toUInt8, (word >>> 16).toUInt8, (word >>> 8).toUInt8, word.toUInt8]

/-- The length of the message in bits, as eight bytes. -/
def lengthBytes (length : ℕ) : List UInt8 :=
  (List.range 8).map fun i => UInt8.ofNat (8 * length / 256 ^ (7 - i))

def padding (length : ℕ) : List UInt8 :=
  0x80 :: List.replicate (BlockHash.fill 64 8 length) 0 ++ lengthBytes length

def digest (message : List UInt8) : List UInt8 :=
  (BlockHash.hash compress 64 initial (message ++ padding message.length)).toList.flatMap bytesOf

theorem length_digest (message : List UInt8) : (digest message).length = 32 := rfl

end Sha256

namespace Hmac

variable (hash : List UInt8 → List UInt8) (width : ℕ)

/-- The key, hashed if it is longer than a block, and filled up with zeros. -/
def blockKey (key : List UInt8) : List UInt8 :=
  let short := if width < key.length then hash key else key
  short ++ List.replicate (width - short.length) 0

def hmac (key text : List UInt8) : List UInt8 :=
  hash ((blockKey hash width key).map (· ^^^ 0x5c) ++
    hash ((blockKey hash width key).map (· ^^^ 0x36) ++ text))

end Hmac

namespace Pbkdf2

variable (prf : List UInt8 → List UInt8 → List UInt8) (password salt : List UInt8) (index : ℕ)

def indexBytes : List UInt8 := (List.range 4).map fun i => UInt8.ofNat (index / 256 ^ (3 - i))

def value : ℕ → List UInt8
  | 0 => prf password (salt ++ indexBytes index)
  | j + 1 => prf password (value j)

/-- A block: the first `count + 1` values combined. -/
def combined : ℕ → List UInt8
  | 0 => value prf password salt index 0
  | count + 1 => List.zipWith (· ^^^ ·) (combined count) (value prf password salt index (count + 1))

/-- The block with an index of a key that is derived with an iteration count. -/
def block (iterations : ℕ) : List UInt8 := combined prf password salt index (iterations - 1)

end Pbkdf2
