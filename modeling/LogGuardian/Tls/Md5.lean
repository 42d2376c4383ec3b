import LogGuardian.Bytes
import LogGuardian.Lib.Md5

/-!
# MD5 in the fingerprint engine

`md5_hex` of `ja3_engine.c` and the context it streams the text through.
-/

namespace LogGuardian

open List

open Md5 (Registers)

def md5K : List UInt32 :=
  [0xd76aa478, 0xe8c7b756, 0x242070db, 0xc1bdceee, 0xf57c0faf, 0x4787c62a, 0xa8304613, 0xfd469501,
   0x698098d8, 0x8b44f7af, 0xffff5bb1, 0x895cd7be, 0x6b901122, 0xfd987193, 0xa679438e, 0x49b40821,
   0xf61e2562, 0xc040b340, 0x265e5a51, 0xe9b6c7aa, 0xd62f105d, 0x02441453, 0xd8a1e681, 0xe7d3fbc8,
   0x21e1cde6, 0xc33707d6, 0xf4d50d87, 0x455a14ed, 0xa9e3e905, 0xfcefa3f8, 0x676f02d9, 0x8d2a4c8a,
   0xfffa3942, 0x8771f681, 0x6d9d6122, 0xfde5380c, 0xa4beea44, 0x4bdecfa9, 0xf6bb4b60, 0xbebfbc70,
   0x289b7ec6, 0xeaa127fa, 0xd4ef3085, 0x04881d05, 0xd9d4d039, 0xe6db99e5, 0x1fa27cf8, 0xc4ac5665,
   0xf4292244, 0x432aff97, 0xab9423a7, 0xfc93a039, 0x655b59c3, 0x8f0ccc92, 0xffeff47d, 0x85845dd1,
   0x6fa87e4f, 0xfe2ce6e0, 0xa3014314, 0x4e0811a1, 0xf7537e82, 0xbd3af235, 0x2ad7d2bb, 0xeb86d391]

def md5S : List UInt32 :=
  [7, 12, 17, 22, 7, 12, 17, 22, 7, 12, 17, 22, 7, 12, 17, 22,
   5, 9, 14, 20, 5, 9, 14, 20, 5, 9, 14, 20, 5, 9, 14, 20,
   4, 11, 16, 23, 4, 11, 16, 23, 4, 11, 16, 23, 4, 11, 16, 23,
   6, 10, 15, 21, 6, 10, 15, 21, 6, 10, 15, 21, 6, 10, 15, 21]

/-- One turn of the loop of `md5_transform`. -/
def md5Step (m : ℕ → UInt32) (s : Registers) (i : ℕ) : Registers :=
  let (f, g) :=
    if i < 16 then ((s.b &&& s.c) ||| (~~~s.b &&& s.d), i)
    else if i < 32 then ((s.b &&& s.d) ||| (s.c &&& ~~~s.d), (5 * i + 1) % 16)
    else if i < 48 then (s.b ^^^ s.c ^^^ s.d, (3 * i + 5) % 16)
    else (s.c ^^^ (s.b ||| ~~~s.d), (7 * i) % 16)
  let rotated := Md5.rotateLeft (s.a + f + md5K.getD i 0 + m g) (md5S.getD i 0)
  ⟨s.d, s.b + rotated, s.b, s.c⟩

def md5Transform (s : Registers) (block : Bytes) : Registers :=
  s.add ((List.range 64).foldl (md5Step (Md5.word block)) s)

/-- `Md5Ctx`; the buffer is the list of its `n` bytes in use. -/
structure Md5Ctx where
  d : Bytes := []
  s : Registers := ⟨0x67452301, 0xefcdab89, 0x98badcfe, 0x10325476⟩
  bits : ℕ := 0

def md5UpdateByte (ctx : Md5Ctx) (byte : UInt8) : Md5Ctx :=
  let d := ctx.d ++ [byte]
  let bits := (ctx.bits + 8) % 2 ^ 64
  if d.length = 64 then { d := [], s := md5Transform ctx.s d, bits := bits }
  else { d := d, s := ctx.s, bits := bits }

def md5Update (ctx : Md5Ctx) (data : Bytes) : Md5Ctx := data.foldl md5UpdateByte ctx

/-- The state of the context after the padding of `md5_final`. -/
def md5Pad (ctx : Md5Ctx) : Registers :=
  let marked := ctx.d ++ [0x80]
  let lengths := (List.range 8).map fun i => UInt8.ofNat (ctx.bits >>> (8 * i))
  if marked.length > 56 then
    let s := md5Transform ctx.s (marked ++ List.replicate (64 - marked.length) 0)
    md5Transform s (List.replicate 56 0 ++ lengths)
  else md5Transform ctx.s (marked ++ List.replicate (56 - marked.length) 0 ++ lengths)

def md5Final (ctx : Md5Ctx) : Bytes := (md5Pad ctx).bytes

/-- `h[nibble]`. -/
def md5HexDigit (nibble : UInt8) : UInt8 := (ascii "0123456789abcdef").getD nibble.toNat 0

/-- The digits that `md5_hex` prints for the raw digest. -/
def md5Digits (raw : Bytes) : Bytes :=
  raw.flatMap fun byte : UInt8 => [md5HexDigit (byte >>> 4), md5HexDigit (byte &&& 0xf)]

def md5Hex (text : Bytes) : Bytes := md5Digits (md5Final (md5Update {} text))

theorem md5S_eq_shifts : ∀ number < 4, ∀ index < 16, md5S.getD (16 * number + index) 0 =
    ((Md5.rounds[number]?.map Md5.Round.shifts).getD []).getD (index % 4) 0 := by
  decide +kernel

theorem md5Step_eq_operate (block : Bytes) (s : Registers) {number index : ℕ} {round : Md5.Round}
    (isRound : Md5.rounds[number]? = some round) (inRound : index < 16) :
    md5Step (Md5.word block) s (16 * number + index) =
      Md5.operate block (fun index => Md5.sines.getD (16 * number + index) 0) round s index := by
  have four : number < 4 := (List.getElem?_eq_some_iff.mp isRound).1
  have shift : md5S.getD (16 * number + index) 0 = round.shifts.getD (index % 4) 0 := by
    rw [md5S_eq_shifts number four index inRound, isRound]
    rfl
  unfold md5Step Md5.operate
  rw [shift, show md5K = Md5.sines from rfl]
  interval_cases number
  · obtain rfl : _ = round := Option.some.inj isRound
    rw [if_pos (by omega)]
    dsimp only
    rw [show 16 * 0 + index = (0 + 1 * index) % 16 by omega]
  · obtain rfl : _ = round := Option.some.inj isRound
    rw [if_neg (by omega), if_pos (by omega)]
    dsimp only
    rw [show (5 * (16 * 1 + index) + 1) % 16 = (1 + 5 * index) % 16 by omega]
  · obtain rfl : _ = round := Option.some.inj isRound
    rw [if_neg (by omega), if_neg (by omega), if_pos (by omega)]
    rw [show (3 * (16 * 2 + index) + 5) % 16 = (5 + 3 * index) % 16 by omega]
  · obtain rfl : _ = round := Option.some.inj isRound
    rw [if_neg (by omega), if_neg (by omega), if_neg (by omega)]
    rw [show 7 * (16 * 3 + index) % 16 = (0 + 7 * index) % 16 by omega]

theorem foldl_md5Step (block : Bytes) {number : ℕ} {round : Md5.Round}
    (isRound : Md5.rounds[number]? = some round) (s : Registers) :
    (List.range' (16 * number) 16).foldl (md5Step (Md5.word block)) s =
      (List.range 16).foldl
        (Md5.operate block (fun index => Md5.sines.getD (16 * number + index) 0) round) s := by
  rw [range'_eq_map_range, foldl_map]
  apply foldl_ext
  intro registers index inRound
  exact md5Step_eq_operate block registers isRound (List.mem_range.mp inRound)

theorem md5Transform_eq_compress : md5Transform = Md5.compress := by
  funext s block
  have steps : range 64 = range' (16 * 0) 16 ++ (range' (16 * 1) 16 ++
      (range' (16 * 2) 16 ++ range' (16 * 3) 16)) := by decide
  rw [md5Transform, steps, foldl_append, foldl_append, foldl_append,
    foldl_md5Step block rfl, foldl_md5Step block rfl, foldl_md5Step block rfl,
    foldl_md5Step block rfl, Md5.compress, Md5.rounds]
  simp only [zipIdx_cons, zipIdx_nil, foldl_cons, foldl_nil]

def Md5Ctx.stream (ctx : Md5Ctx) : BlockHash.Stream Registers UInt8 := ⟨ctx.s, ctx.d⟩

theorem stream_md5UpdateByte (ctx : Md5Ctx) (byte : UInt8) :
    (md5UpdateByte ctx byte).stream = BlockHash.absorb md5Transform 64 ctx.stream byte := by
  unfold md5UpdateByte BlockHash.absorb Md5Ctx.stream
  dsimp only
  split_ifs <;> rfl

theorem stream_md5Update (ctx : Md5Ctx) (data : Bytes) :
    (md5Update ctx data).stream = BlockHash.absorbAll md5Transform 64 ctx.stream data := by
  induction data generalizing ctx with
  | nil => rfl
  | cons byte rest ih =>
    have step : md5Update ctx (byte :: rest) = md5Update (md5UpdateByte ctx byte) rest := rfl
    rw [step, ih, stream_md5UpdateByte]
    rfl

theorem bits_md5Update (ctx : Md5Ctx) (data : Bytes) (small : ctx.bits < 2 ^ 64) :
    (md5Update ctx data).bits = (ctx.bits + 8 * data.length) % 2 ^ 64 := by
  induction data generalizing ctx with
  | nil => exact (Nat.mod_eq_of_lt small).symm
  | cons byte rest ih =>
    have step : md5Update ctx (byte :: rest) = md5Update (md5UpdateByte ctx byte) rest := rfl
    have bits : (md5UpdateByte ctx byte).bits = (ctx.bits + 8) % 2 ^ 64 := by
      unfold md5UpdateByte
      dsimp only
      split_ifs <;> rfl
    rw [step, ih _ (by rw [bits]; exact Nat.mod_lt _ (by omega)), length_cons]
    omega

theorem md5Pad_eq (ctx : Md5Ctx) (short : ctx.d.length < 64) :
    md5Pad ctx = BlockHash.hash md5Transform 64 ctx.s (ctx.d ++
      ((0x80 : UInt8) :: List.replicate (Md5.zeros ctx.d.length) 0 ++
        (List.range 8).map fun i => UInt8.ofNat (ctx.bits >>> (8 * i)))) := by
  have length : (ctx.d ++ [0x80]).length = ctx.d.length + 1 := by simp
  unfold md5Pad Md5.zeros
  dsimp only
  generalize lengthBytes : (range 8).map (fun i => UInt8.ofNat (ctx.bits >>> (8 * i))) = lengths
  have eight : lengths.length = 8 := by
    rw [← lengthBytes]
    rfl
  split_ifs with long
  · have split : ctx.d ++ ((0x80 : UInt8) :: replicate ((119 - ctx.d.length % 64) % 64) 0 ++ lengths) =
        (ctx.d ++ [0x80] ++ replicate (64 - (ctx.d ++ [0x80]).length) 0) ++
          (replicate 56 0 ++ lengths) := by
      have count : (119 - ctx.d.length % 64) % 64 = 64 - (ctx.d ++ [0x80]).length + 56 := by omega
      rw [count, replicate_add]
      simp
    rw [split, BlockHash.hash_block_append _ (by omega), BlockHash.hash_block _ (by omega)]
    · simp [eight]
    · rw [length_append, length_replicate]
      omega
  · have count : (119 - ctx.d.length % 64) % 64 = 56 - (ctx.d ++ [0x80]).length := by omega
    have split : ctx.d ++ ((0x80 : UInt8) :: replicate (56 - (ctx.d ++ [0x80]).length) 0 ++ lengths) =
        ctx.d ++ [0x80] ++ replicate (56 - (ctx.d ++ [0x80]).length) 0 ++ lengths := by
      simp
    rw [count, split, BlockHash.hash_block _ (by omega)]
    rw [length_append, length_append, length_replicate, eight]
    omega

theorem lengthBytes_eq (length : ℕ) :
    ((List.range 8).map fun i => UInt8.ofNat ((8 * length % 2 ^ 64) >>> (8 * i))) =
      Md5.lengthBytes length := by
  apply map_congr_left
  intro i inRange
  have small : i < 8 := List.mem_range.mp inRange
  have powers : (256 : ℕ) ^ i * 256 ∣ 2 ^ 64 := by
    rw [← pow_succ, show (256 : ℕ) = 2 ^ 8 from rfl, ← pow_mul]
    exact pow_dvd_pow 2 (by omega)
  apply UInt8.toNat_inj.mp
  rw [Nat.shiftRight_eq_div_pow, pow_mul]
  calc 8 * length % 2 ^ 64 / 256 ^ i % 256
      = 8 * length % 2 ^ 64 % (256 ^ i * 256) / 256 ^ i := (Nat.mod_mul_right_div_self _ _ _).symm
    _ = 8 * length % (256 ^ i * 256) / 256 ^ i := by rw [Nat.mod_mod_of_dvd _ powers]
    _ = 8 * length / 256 ^ i % 256 := Nat.mod_mul_right_div_self _ _ _

theorem md5Hex_eq (text : Bytes) : md5Hex text = md5Digits (Md5.digest text) := by
  let ctx := md5Update {} text
  have stream : ctx.stream = BlockHash.absorbAll md5Transform 64 ⟨Md5.initial, []⟩ text :=
    stream_md5Update {} text
  have pending : ctx.d.length = text.length % 64 := by
    change ctx.stream.pending.length = _
    rw [stream, BlockHash.length_pending_absorbAll text (show 0 < 64 by decide)]
    exact congrArg (· % 64) (Nat.zero_add _)
  have bits : ctx.bits = 8 * text.length % 2 ^ 64 := by
    have counted := bits_md5Update {} text (show 0 < 2 ^ 64 by decide)
    rw [Nat.zero_add] at counted
    exact counted
  have zeros : Md5.zeros ctx.d.length = Md5.zeros text.length := by
    unfold Md5.zeros
    rw [pending, Nat.mod_mod]
  have state : md5Pad ctx = BlockHash.hash md5Transform 64 Md5.initial
      (text ++ Md5.padding text.length) := by
    rw [md5Pad_eq ctx (pending.trans_lt (Nat.mod_lt _ (by decide))), bits, lengthBytes_eq, zeros]
    change BlockHash.hash md5Transform 64 ctx.stream.state
      (ctx.stream.pending ++ Md5.padding text.length) = _
    rw [stream]
    exact BlockHash.hash_absorbAll text (show 0 < 64 by decide) (Md5.padding text.length)
  unfold md5Hex md5Final Md5.digest
  rw [state, md5Transform_eq_compress]

def lowerHexPair (byte : UInt8) : Bytes :=
  [byte / 16, byte % 16].map fun nibble => if nibble < 10 then 48 + nibble else 87 + nibble

theorem md5Digits_pair : ∀ byte : UInt8,
    [md5HexDigit (byte >>> 4), md5HexDigit (byte &&& 0xf)] = lowerHexPair byte := by
  decide +kernel

/-- `md5_hex` prints the digest of RFC 1321 in lower-case hexadecimal digits. -/
theorem md5Hex_eq_lowerHexPairs (text : Bytes) :
    md5Hex text = (Md5.digest text).flatMap lowerHexPair := by
  rw [md5Hex_eq, md5Digits]
  simp [md5Digits_pair]

end LogGuardian
