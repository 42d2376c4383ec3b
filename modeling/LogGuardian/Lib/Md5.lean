import LogGuardian.Lib.BlockHash

/-!
# MD5
-/

namespace Md5

structure Registers where
  a : UInt32
  b : UInt32
  c : UInt32
  d : UInt32
  deriving DecidableEq, Repr

def Registers.add (first second : Registers) : Registers :=
  ⟨first.a + second.a, first.b + second.b, first.c + second.c, first.d + second.d⟩

def initial : Registers := ⟨0x67452301, 0xefcdab89, 0x98badcfe, 0x10325476⟩

def rotateLeft (word amount : UInt32) : UInt32 := word <<< amount ||| word >>> (32 - amount)

/-- The integer part of 4294967296 times the absolute value of the sine of `i + 1`. -/
def sines : List UInt32 :=
  [0xd76aa478, 0xe8c7b756, 0x242070db, 0xc1bdceee, 0xf57c0faf, 0x4787c62a, 0xa8304613, 0xfd469501,
   0x698098d8, 0x8b44f7af, 0xffff5bb1, 0x895cd7be, 0x6b901122, 0xfd987193, 0xa679438e, 0x49b40821,
   0xf61e2562, 0xc040b340, 0x265e5a51, 0xe9b6c7aa, 0xd62f105d, 0x02441453, 0xd8a1e681, 0xe7d3fbc8,
   0x21e1cde6, 0xc33707d6, 0xf4d50d87, 0x455a14ed, 0xa9e3e905, 0xfcefa3f8, 0x676f02d9, 0x8d2a4c8a,
   0xfffa3942, 0x8771f681, 0x6d9d6122, 0xfde5380c, 0xa4beea44, 0x4bdecfa9, 0xf6bb4b60, 0xbebfbc70,
   0x289b7ec6, 0xeaa127fa, 0xd4ef3085, 0x04881d05, 0xd9d4d039, 0xe6db99e5, 0x1fa27cf8, 0xc4ac5665,
   0xf4292244, 0x432aff97, 0xab9423a7, 0xfc93a039, 0x655b59c3, 0x8f0ccc92, 0xffeff47d, 0x85845dd1,
   0x6fa87e4f, 0xfe2ce6e0, 0xa3014314, 0x4e0811a1, 0xf7537e82, 0xbd3af235, 0x2ad7d2bb, 0xeb86d391]

/-- A round: its function, the words it takes and the shifts it repeats. -/
structure Round where
  mix : UInt32 → UInt32 → UInt32 → UInt32
  first : ℕ
  stride : ℕ
  shifts : List UInt32

def rounds : List Round :=
  [⟨fun x y z => (x &&& y) ||| (~~~x &&& z), 0, 1, [7, 12, 17, 22]⟩,
   ⟨fun x y z => (x &&& z) ||| (y &&& ~~~z), 1, 5, [5, 9, 14, 20]⟩,
   ⟨fun x y z => x ^^^ y ^^^ z, 5, 3, [4, 11, 16, 23]⟩,
   ⟨fun x y z => y ^^^ (x ||| ~~~z), 0, 7, [6, 10, 15, 21]⟩]

/-- The word of a block at an index, its low-order byte first. -/
def word (block : List UInt8) (index : ℕ) : UInt32 :=
  (block.getD (4 * index) 0).toUInt32 ||| (block.getD (4 * index + 1) 0).toUInt32 <<< 8 |||
    (block.getD (4 * index + 2) 0).toUInt32 <<< 16 |||
    (block.getD (4 * index + 3) 0).toUInt32 <<< 24

/-- The operation `[abcd k s i]` of a round, and the renaming of the registers for the next. -/
def operate (block : List UInt8) (sine : ℕ → UInt32) (round : Round) (registers : Registers)
    (index : ℕ) : Registers :=
  let sum := registers.a + round.mix registers.b registers.c registers.d + sine index +
    word block ((round.first + round.stride * index) % 16)
  ⟨registers.d, registers.b + rotateLeft sum (round.shifts.getD (index % 4) 0), registers.b,
    registers.c⟩

def compress (state : Registers) (block : List UInt8) : Registers :=
  state.add (rounds.zipIdx.foldl (fun registers (round, number) =>
    (List.range 16).foldl (operate block (fun index => sines.getD (16 * number + index) 0) round)
      registers) state)

/-- The bytes of a word, the low-order one first. -/
def bytesOf (word : UInt32) : List UInt8 :=
  [word.toUInt8, (word >>> 8).toUInt8, (word >>> 16).toUInt8, (word >>> 24).toUInt8]

def Registers.bytes (registers : Registers) : List UInt8 :=
  bytesOf registers.a ++ bytesOf registers.b ++ bytesOf registers.c ++ bytesOf registers.d

/-- The number of zeros after the first byte of the padding. -/
def zeros (length : ℕ) : ℕ := (119 - length % 64) % 64

/-- The length of the message in bits, as eight bytes. -/
def lengthBytes (length : ℕ) : List UInt8 :=
  (List.range 8).map fun i => UInt8.ofNat (8 * length / 256 ^ i)

def padding (length : ℕ) : List UInt8 :=
  0x80 :: List.replicate (zeros length) 0 ++ lengthBytes length

def digest (message : List UInt8) : List UInt8 :=
  (BlockHash.hash compress 64 initial (message ++ padding message.length)).bytes

example : digest [] = [0xd4, 0x1d, 0x8c, 0xd9, 0x8f, 0x00, 0xb2, 0x04,
    0xe9, 0x80, 0x09, 0x98, 0xec, 0xf8, 0x42, 0x7e] := by decide +kernel

end Md5
