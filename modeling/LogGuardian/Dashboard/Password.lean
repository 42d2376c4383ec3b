import LogGuardian.Crypto.Sha256
import LogGuardian.Firewall.Inet

/-!
# Stored passwords

`password.ts`.
-/

namespace LogGuardian

open List

/-- `scryptSync(password, salt, keylen)`. -/
structure Scrypt where
  key : Bytes → Bytes → ℕ → Bytes
  length : ∀ password salt keylen, (key password salt keylen).length = keylen

/-- `Buffer.from(text, 'hex')`: up to the first pair that is not two digits. -/
def bufferFromHex : Bytes → Bytes
  | high :: low :: rest =>
    match hexDigit high, hexDigit low with
    | some h, some l => (h * 16 + l).toUInt8 :: bufferFromHex rest
    | _, _ => []
  | _ => []

def scryptPrefix : Bytes := ascii "scrypt:"

/-- `hashPassword` with the salt that `randomBytes(16)` returned. -/
def hashPassword (scrypt : Scrypt) (salt password : Bytes) : Bytes :=
  scryptPrefix ++ hexText salt ++ chr ':' :: hexText (scrypt.key password salt 64)

def verifyPassword (scrypt : Scrypt) (password stored : Bytes) : Bool :=
  if scryptPrefix <+: stored then
    let rest := stored.drop scryptPrefix.length
    let saltHex := rest.takeWhile (· ≠ chr ':')
    if chr ':' ∉ rest ∨ saltHex = [] then false
    else
      let expected := bufferFromHex (rest.drop (saltHex.length + 1))
      let actual := scrypt.key password (bufferFromHex saltHex) expected.length
      expected.length = actual.length && expected = actual
  else hexText (Sha256.digest password) = stored

def storedSalt (stored : Bytes) : Bytes :=
  (stored.drop scryptPrefix.length).takeWhile (· ≠ chr ':')

def storedHash (stored : Bytes) : Bytes :=
  (stored.drop scryptPrefix.length).drop ((storedSalt stored).length + 1)

/-- Exactly 128 hexadecimal digits. -/
def IsHash (text : Bytes) : Prop := text.length = 128 ∧ ∀ byte ∈ text, (hexDigit byte).isSome = true

/-- There is a salt, with the separator behind it. -/
def HasSalt (stored : Bytes) : Prop :=
  chr ':' ∈ stored.drop scryptPrefix.length ∧ storedSalt stored ≠ []

theorem verifyPassword_eq_true_iff (scrypt : Scrypt) (password : Bytes) {stored : Bytes}
    (starts : scryptPrefix <+: stored) :
    verifyPassword scrypt password stored = true ↔ HasSalt stored ∧
      scrypt.key password (bufferFromHex (storedSalt stored))
        (bufferFromHex (storedHash stored)).length = bufferFromHex (storedHash stored) := by
  rw [verifyPassword, if_pos starts]
  by_cases salted : HasSalt stored
  · have present : ¬(chr ':' ∉ stored.drop scryptPrefix.length ∨ storedSalt stored = []) := by
      rw [not_or, not_not]
      exact salted
    rw [storedSalt] at present
    rw [if_neg present]
    simp only [scrypt.length, salted, true_and, decide_true, Bool.true_and, decide_eq_true_eq]
    exact eq_comm
  · have missing : chr ':' ∉ stored.drop scryptPrefix.length ∨ storedSalt stored = [] := by
      by_contra present
      rw [not_or, not_not] at present
      exact salted present
    rw [storedSalt] at missing
    rw [if_pos missing]
    simp [salted]

theorem bufferFromHex_hexText (bytes : Bytes) : bufferFromHex (hexText bytes) = bytes := by
  have table : ∀ byte : UInt8, (hexDigit (hexdig (byte >>> 4 &&& 0x0f))).bind (fun h =>
      (hexDigit (hexdig (byte &&& 0x0f))).map fun l => (h * 16 + l).toUInt8) = some byte := by
    decide +kernel
  induction bytes with
  | nil => rfl
  | cons byte bytes ih =>
    rcases Option.bind_eq_some_iff.mp (table byte) with ⟨h, high, second⟩
    rcases Option.map_eq_some_iff.mp second with ⟨l, low, value⟩
    have split : hexText (byte :: bytes) =
        hexdig (byte >>> 4 &&& 0x0f) :: hexdig (byte &&& 0x0f) :: hexText bytes := rfl
    rw [split, bufferFromHex, high, low]
    dsimp only
    rw [value, ih]

theorem colon_not_mem_hexText (bytes : Bytes) : chr ':' ∉ hexText bytes := by
  intro mem
  exact absurd (mem_hexText mem) (by decide)

theorem stored_hashPassword (scrypt : Scrypt) (salt password : Bytes) :
    storedSalt (hashPassword scrypt salt password) = hexText salt ∧
      storedHash (hashPassword scrypt salt password) = hexText (scrypt.key password salt 64) := by
  have rest : (hashPassword scrypt salt password).drop scryptPrefix.length =
      hexText salt ++ chr ':' :: hexText (scrypt.key password salt 64) := by
    rw [hashPassword, append_assoc, drop_left]
  have isSalt : storedSalt (hashPassword scrypt salt password) = hexText salt := by
    rw [storedSalt, rest, takeWhile_append_of_pos, takeWhile_cons_of_neg (by simp),
      append_nil]
    intro byte mem
    simpa using fun same : byte = chr ':' => colon_not_mem_hexText salt (same ▸ mem)
  refine ⟨isSalt, ?_⟩
  rw [storedHash, rest, isSalt, drop_length_add_append]
  rfl

theorem verifyPassword_hashPassword (scrypt : Scrypt) {salt : Bytes} (nonempty : salt ≠ [])
    (password : Bytes) : verifyPassword scrypt password (hashPassword scrypt salt password) = true := by
  have starts : scryptPrefix <+: hashPassword scrypt salt password := by
    exact prefix_append _ _
  rcases stored_hashPassword scrypt salt password with ⟨isSalt, isHash⟩
  rw [verifyPassword_eq_true_iff scrypt password starts, isSalt, isHash, bufferFromHex_hexText,
    bufferFromHex_hexText, scrypt.length]
  refine ⟨⟨?_, ?_⟩, rfl⟩
  · rw [hashPassword, append_assoc]
    simp
  · rw [isSalt]
    rcases salt with _ | ⟨byte, salt⟩
    · exact absurd rfl nonempty
    · exact cons_ne_nil _ _

/-- A malformed hash lets no password in exactly if it has no salt, or decodes to some bytes that
no password has as its key; and a hash lets its own password in. -/
theorem malformed_fails_closed_iff (scrypt : Scrypt) :
    (∀ stored, scryptPrefix <+: stored → ¬IsHash (storedHash stored) →
      ((∀ password, verifyPassword scrypt password stored = false) ↔
        ¬HasSalt stored ∨ bufferFromHex (storedHash stored) ≠ [] ∧
          ∀ password, scrypt.key password (bufferFromHex (storedSalt stored))
            (bufferFromHex (storedHash stored)).length ≠ bufferFromHex (storedHash stored))) ∧
      ∀ salt password, salt.length = 16 →
        verifyPassword scrypt password (hashPassword scrypt salt password) = true := by
  constructor
  · intro stored starts _
    have each : ∀ password, verifyPassword scrypt password stored = false ↔
        ¬HasSalt stored ∨ scrypt.key password (bufferFromHex (storedSalt stored))
          (bufferFromHex (storedHash stored)).length ≠ bufferFromHex (storedHash stored) := by
      intro password
      rw [← Bool.not_eq_true, verifyPassword_eq_true_iff scrypt password starts, not_and_or]
    simp only [each, forall_or_left]
    apply or_congr_right
    constructor
    · intro noKey
      refine ⟨?_, noKey⟩
      intro empty
      apply noKey []
      rw [empty]
      exact List.length_eq_zero_iff.mp (scrypt.length _ _ _)
    · exact fun condition => condition.2
  · intro salt password length
    apply verifyPassword_hashPassword scrypt
    rintro rfl
    cases length

def zeroScrypt : Scrypt := ⟨fun _ _ keylen => List.replicate keylen 0, fun _ _ _ => List.length_replicate⟩

/-- An empty hash, and one that is no hexadecimal text, let a password in. -/
theorem malformed_lets_in :
    (¬IsHash (storedHash (ascii "scrypt:00:")) ∧
        verifyPassword zeroScrypt (ascii "anything") (ascii "scrypt:00:") = true) ∧
      ¬IsHash (storedHash (ascii "scrypt:00:not a hash")) ∧
      verifyPassword zeroScrypt (ascii "anything") (ascii "scrypt:00:not a hash") = true := by
  unfold IsHash
  decide +kernel

end LogGuardian
