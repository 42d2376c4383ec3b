import LogGuardian.Firewall.Targets

/-!
# Addresses and blocks

An address is a number of 32 bits or a string of sixteen bytes.
-/

namespace LogGuardian

inductive Address where
  | v4 (bits : BitVec 32)
  | v6 (bytes : Bytes)
  deriving DecidableEq, Repr

def denotes (text : Bytes) : Option Address :=
  match inetPton4 text with
  | some bits => some (.v4 bits)
  | none => (inetPton6 text).map .v6

inductive Block where
  | v4 (network : BitVec 32) (plen : ℕ)
  | v6 (bytes : Bytes)
  deriving DecidableEq, Repr

def Block.Contains : Block → Address → Prop
  | .v4 network plen, .v4 bits => bits &&& netmask plen = network &&& netmask plen
  | .v6 bytes, .v6 other => other = bytes
  | _, _ => False

instance (block : Block) (address : Address) : Decidable (block.Contains address) := by
  cases block <;> cases address <;> unfold Block.Contains <;> infer_instance

def hostBlock (ip : Bytes) : Option Block :=
  if isIpv6Addr ip then (inetPton6 ip).map .v6 else (inetPton4 ip).map fun bits => .v4 bits 32

theorem netmask_host : netmask 32 = BitVec.allOnes 32 := by decide

theorem contains_v4_host {network bits : BitVec 32} :
    (Block.v4 network 32).Contains (.v4 bits) ↔ bits = network := by
  simp only [Block.Contains]
  rw [netmask_host, BitVec.and_allOnes, BitVec.and_allOnes]

theorem denotes_of_hostBlock {ip : Bytes} {block : Block} {address : Address}
    (valid : isValidIp ip = true) (named : hostBlock ip = some block)
    (contains : block.Contains address) : denotes ip = some address := by
  unfold hostBlock at named
  rcases family : isIpv6Addr ip with _ | _
  · rcases inetPton4_of_valid valid family with ⟨bits, parsed⟩
    simp only [family, parsed, Bool.false_eq_true, if_false, Option.map_some,
      Option.some.injEq] at named
    subst named
    cases address with
    | v4 other => simp [denotes, parsed, contains_v4_host.mp contains]
    | v6 other => exact absurd contains id
  · rcases inetPton6_of_valid valid family with ⟨bytes, parsed⟩
    simp only [family, parsed, if_true, Option.map_some, Option.some.injEq] at named
    subst named
    have notV4 : inetPton4 ip = none := by
      by_contra accepted
      rcases Option.ne_none_iff_exists'.mp accepted with ⟨bits, parsedV4⟩
      rw [isIpv6Addr_of_inetPton4 parsedV4] at family
      cases family
    cases address with
    | v4 other => exact absurd contains id
    | v6 other =>
      have same : other = bytes := contains
      simp [denotes, notV4, parsed, same]

end LogGuardian
