import LogGuardian.Crypto.Sha256

/-!
# The HMAC of the logger

`logger.c` has a SHA-256 of its own for the signatures of alert lines.
-/

namespace LogGuardian

open List

open Sha256 (Registers)

def k256 : List UInt32 :=
  [0x428a2f98, 0x71374491, 0xb5c0fbcf, 0xe9b5dba5, 0x3956c25b, 0x59f111f1, 0x923f82a4, 0xab1c5ed5,
   0xd807aa98, 0x12835b01, 0x243185be, 0x550c7dc3, 0x72be5d74, 0x80deb1fe, 0x9bdc06a7, 0xc19bf174,
   0xe49b69c1, 0xefbe4786, 0x0fc19dc6, 0x240ca1cc, 0x2de92c6f, 0x4a7484aa, 0x5cb0a9dc, 0x76f988da,
   0x983e5152, 0xa831c66d, 0xb00327c8, 0xbf597fc7, 0xc6e00bf3, 0xd5a79147, 0x06ca6351, 0x14292967,
   0x27b70a85, 0x2e1b2138, 0x4d2c6dfc, 0x53380d13, 0x650a7354, 0x766a0abb, 0x81c2c92e, 0x92722c85,
   0xa2bfe8a1, 0xa81a664b, 0xc24b8b70, 0xc76c51a3, 0xd192e819, 0xd6990624, 0xf40e3585, 0x106aa070,
   0x19a4c116, 0x1e376c08, 0x2748774c, 0x34b0bcb5, 0x391c0cb3, 0x4ed8aa4a, 0x5b9cca4f, 0x682e6ff3,
   0x748f82ee, 0x78a5636f, 0x84c87814, 0x8cc70208, 0x90befffa, 0xa4506ceb, 0xbef9a3f7, 0xc67178f2]

def s256Blk (s : Registers) (blk : Bytes) : Registers := shaTransform k256 s blk

/-- `S256`; `d` are the `n` bytes in use. -/
structure S256 where
  d : Bytes := []
  s : Registers :=
    ⟨0x6a09e667, 0xbb67ae85, 0x3c6ef372, 0xa54ff53a, 0x510e527f, 0x9b05688c, 0x1f83d9ab, 0x5be0cd19⟩
  b : ℕ := 0

def s256Init : S256 := {}

/-- One turn of the loop of `s256_upd`. -/
def s256UpdByte (c : S256) (byte : UInt8) : S256 :=
  let d := c.d ++ [byte]
  let b := (c.b + 8) % 2 ^ 64
  if d.length = 64 then { d := [], s := s256Blk c.s d, b := b } else { d := d, s := c.s, b := b }

def s256Upd (c : S256) (data : Bytes) : S256 := data.foldl s256UpdByte c

/-- The state after the padding of `s256_fin`. -/
def s256Pad (c : S256) : Registers :=
  let d := c.d ++ [0x80]
  let (s, d) :=
    if d.length > 56 then (s256Blk c.s (d ++ List.replicate (64 - d.length) 0), []) else (c.s, d)
  s256Blk s (d ++ List.replicate (56 - d.length) 0 ++ bitBytes c.b)

/-- The bytes `o[i + 4 * j]`, for the word `j` of the state. -/
def s256Fin (c : S256) : Bytes :=
  (s256Pad c).toList.flatMap fun word =>
    [(24 : UInt32), 16, 8, 0].map fun shift => (word >>> shift).toUInt8

def hmacS256 (key msg : Bytes) : Bytes := hmacWith s256Init s256Upd s256Fin key msg

theorem s256Blk_eq_compress : s256Blk = Sha256.compress := shaTransform_eq_compress

def S256.stream (c : S256) : BlockHash.Stream Registers UInt8 := ⟨c.s, c.d⟩

theorem stream_s256UpdByte (c : S256) (byte : UInt8) :
    (s256UpdByte c byte).stream = BlockHash.absorb s256Blk 64 c.stream byte := by
  unfold s256UpdByte BlockHash.absorb S256.stream
  dsimp only
  split_ifs <;> rfl

theorem stream_s256Upd (c : S256) (data : Bytes) :
    (s256Upd c data).stream = BlockHash.absorbAll s256Blk 64 c.stream data := by
  induction data generalizing c with
  | nil => rfl
  | cons byte rest ih =>
    have step : s256Upd c (byte :: rest) = s256Upd (s256UpdByte c byte) rest := rfl
    rw [step, ih, stream_s256UpdByte]
    rfl

theorem b_s256UpdByte (c : S256) (byte : UInt8) : (s256UpdByte c byte).b = (c.b + 8) % 2 ^ 64 := by
  unfold s256UpdByte
  dsimp only
  split_ifs <;> rfl

theorem b_s256Upd (c : S256) (data : Bytes) (small : c.b < 2 ^ 64) :
    (s256Upd c data).b = (c.b + 8 * data.length) % 2 ^ 64 := by
  induction data generalizing c with
  | nil => exact (Nat.mod_eq_of_lt small).symm
  | cons byte rest ih =>
    have step : s256Upd c (byte :: rest) = s256Upd (s256UpdByte c byte) rest := rfl
    have count := b_s256UpdByte c byte
    rw [step, ih _ (by rw [count]; exact Nat.mod_lt _ (by decide)), length_cons]
    omega

theorem s256Pad_eq (c : S256) (short : c.d.length < 64) :
    s256Pad c = BlockHash.hash s256Blk 64 c.s (c.d ++
      (0x80 :: List.replicate (BlockHash.fill 64 8 c.d.length) 0 ++ bitBytes c.b)) := by
  have eight := length_bitBytes c.b
  have marked : (c.d ++ [0x80]).length = c.d.length + 1 := by simp
  rw [s256Pad]
  by_cases long : c.d.length + 1 > 56
  · have whole := @BlockHash.hash_padding_of_not_fits _ _ s256Blk 64 c.d (bitBytes c.b) 0x80 0 short
      (by omega) (by omega) c.s
    have zeros : 64 - (c.d.length + 1) = 64 - 1 - c.d.length := by omega
    rw [eight] at whole
    simp only [marked, long, zeros]
    rw [whole, append_assoc]
    rfl
  · have whole := @BlockHash.hash_padding_of_fits _ _ s256Blk 64 c.d (bitBytes c.b) 0x80 0 (by omega) c.s
    have zeros : 56 - (c.d.length + 1) = 64 - 8 - 1 - c.d.length := by omega
    rw [eight] at whole
    simp only [marked, long, if_false, zeros]
    rw [whole]
    simp

theorem s256Fin_s256Upd (message : Bytes) :
    s256Fin (s256Upd s256Init message) = Sha256.digest message := by
  have stream := stream_s256Upd s256Init message
  have bits := b_s256Upd s256Init message (by decide)
  generalize s256Upd s256Init message = c at stream bits
  rw [s256Blk_eq_compress] at stream
  have count : c.b = 8 * message.length % 2 ^ 64 := by
    rw [bits]
    exact congrArg (· % 2 ^ 64) (Nat.zero_add _)
  have short : c.d.length < 64 := by
    rw [length_pending_of_stream stream]
    exact Nat.mod_lt _ (by decide)
  rw [s256Fin, s256Pad_eq c short, s256Blk_eq_compress, hash_of_stream stream count]
  rfl

theorem hmacS256_eq (key msg : Bytes) : hmacS256 key msg = Hmac.hmac Sha256.digest 64 key msg := by
  apply hmacWith_eq
  · intro first second
    rw [s256Upd, s256Upd, s256Upd, foldl_append]
  · exact s256Fin_s256Upd

/-- The logger signs a line with the 32 bytes that the shared library computes for it, wherever
the line and the result lie. -/
theorem hmacS256_eq_hmacSha256 (key message : Bytes) :
    hmacS256 key message = hmacSha256Bytes key message ∧ (hmacS256 key message).length = 32 ∧
      ∀ (memory : Memory) (msg out : ℕ), memory.load msg message.length = message →
        (hmacSha256 memory key msg message.length out).load out 32 = hmacS256 key message := by
  rw [hmacS256_eq]
  refine ⟨(hmacSha256Bytes_eq key message).symm, length_hmac key message, ?_⟩
  intro memory msg out lies
  rw [load_hmacSha256, lies]

end LogGuardian
