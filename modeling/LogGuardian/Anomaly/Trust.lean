import LogGuardian.Ban.Recorded

/-!
# Trust in addresses
-/

namespace LogGuardian

abbrev fpPoolSize : ℕ := 65536

/-- `FpTrustSlot`. -/
structure FpTrustSlot where
  ip : Bytes := []
  cleanEma : ℚ := 0
  samples : ℕ := 0
  suppressCount : ℕ := 0
  firstSeen : ℤ := 0
  lastSeen : ℤ := 0
  lastAlert : ℤ := 0
  isPartial : Bool := false
  trusted : Bool := false
  deriving DecidableEq, Repr

structure FpTrust where
  enabled : Bool
  pool : Fin fpPoolSize → FpTrustSlot

def fpHash (ip : Bytes) : Fin fpPoolSize :=
  Fin.ofNat fpPoolSize
    (ip.foldl (fun hash byte => (hash ^^^ byte.toUInt32) * 16777619) (2166136261 : UInt32)).toNat

namespace FpTrust

def keys (trust : FpTrust) (slot : Fin fpPoolSize) : Option Bytes :=
  if (trust.pool slot).ip = [] then none else some (trust.pool slot).ip

/-- `fp_slot`: no slot for an empty address or in a full pool. -/
def slotOf (trust : FpTrust) (ip : Bytes) : Option FpTrustSlot :=
  if ip = [] then none
  else (LinearProbe.probe fpHash fpPoolSize trust.keys ip).map trust.pool

end FpTrust

/-- The needles of `never_suppress_message`. -/
def suppressNeedles : List Bytes :=
  [ascii "SQL INJECTION", ascii "WAF ALARM", ascii "BEACONING", ascii "COVERT CHANNEL",
   ascii "HONEY-TOKEN", ascii "APT ", ascii "JA3", ascii "TLS PLAINTEXT"]

def neverSuppressMessage (message : Bytes) : Bool := suppressNeedles.any (hasLit message)

/-- The `double` next to 0.88. -/
def suppressEma : ℚ := 7926335344172073 / 9007199254740992

/-- The two tests of `fp_trust_should_suppress` on the slot of the address. -/
def slotSuppresses (slot : FpTrustSlot) (alert : AlertRecord) : Bool :=
  match alert.level with
  | .crit =>
    slot.trusted && suppressEma ≤ slot.cleanEma &&
      (alert.mitreId = ascii "T1110" || alert.mitreId = ascii "T1083" ||
        alert.mitreId = ascii "T1499")
  | .info | .warn => slot.isPartial || slot.trusted

def fpTrustShouldSuppress (trust : FpTrust) (ip : Bytes) (alert : AlertRecord) : Bool :=
  trust.enabled && !neverSuppressMessage alert.message &&
    (trust.slotOf ip).any (slotSuppresses · alert)

theorem hasLit_iff {text literal : Bytes} : hasLit text literal = true ↔ literal <:+: text := by
  rw [hasLit, Search.find_isSome_iff]

theorem neverSuppressMessage_of_infix {message needle : Bytes} (known : needle ∈ suppressNeedles)
    (occurs : needle <:+: message) : neverSuppressMessage message = true := by
  rw [neverSuppressMessage, List.any_eq_true]
  exact ⟨needle, known, hasLit_iff.mpr occurs⟩

theorem neverSuppressMessage_eq_false {message : Bytes}
    (misses : ∀ needle ∈ suppressNeedles, ∃ byte ∈ needle, byte ∉ message) :
    neverSuppressMessage message = false := by
  rw [neverSuppressMessage, List.any_eq_false]
  intro needle known occurs
  rcases misses needle known with ⟨byte, inNeedle, absent⟩
  exact absent ((hasLit_iff.mp occurs).subset inNeedle)

theorem infix_copyInto {capacity : ℕ} {start rest : Bytes} (fits : start.length < capacity) :
    start <:+: copyInto capacity (start ++ rest) := by
  unfold copyInto
  rw [List.take_append, List.take_of_length_le (by omega)]
  exact (List.prefix_append _ _).isInfix

end LogGuardian
