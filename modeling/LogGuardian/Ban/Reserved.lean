import LogGuardian.Ban.World

/-!
# Blocks and reserved addresses
-/

namespace LogGuardian

/-- Network and prefix length of a CIDR text, as `ip_matches_cidr` reads them. -/
def cidrNetwork (cidr : Bytes) : Option (BitVec 32 × ℕ) :=
  let buf := copyInto 80 cidr
  let network := buf.takeWhile (· ≠ chr '/')
  let plen := if chr '/' ∈ buf then atoi (buf.drop (network.length + 1)) else 32
  if plen < 0 ∨ 32 < plen then none else (inetPton4 network).map fun bits => (bits, plen.toNat)

/-- The networks of `v4_reserved`. -/
def reservedNetworks : List (BitVec 32 × ℕ) := v4Reserved.filterMap cidrNetwork

variable {ip : Bytes} {bits : BitVec 32} {short long plen : ℕ}

theorem ipMatchesCidr_iff {cidr : Bytes} (parsed : inetPton4 ip = some bits) (nonempty : cidr ≠ []) :
    ipMatchesCidr ip cidr = true ↔
      ∃ network ∈ cidrNetwork cidr,
        bits &&& netmask network.2 = network.1 &&& netmask network.2 := by
  have notEmpty : ip ≠ [] := by
    rintro rfl
    cases parsed
  have notLoopback : ip ≠ ascii "::1" := by
    rintro rfl
    cases parsed
  simp only [ipMatchesCidr, cidrNetwork, notEmpty, nonempty, notLoopback, parsed]
  generalize (copyInto 80 cidr).takeWhile (· ≠ chr '/') = network
  generalize (if chr '/' ∈ copyInto 80 cidr then
    atoi ((copyInto 80 cidr).drop (network.length + 1)) else 32) = plen
  by_cases outside : plen < 0 ∨ 32 < plen
  · simp [outside]
  · cases inetPton4 network <;> simp

theorem isReservedBanTarget_iff (parsed : inetPton4 ip = some bits) :
    isReservedBanTarget ip = true ↔
      ∃ network ∈ reservedNetworks,
        bits &&& netmask network.2 = network.1 &&& netmask network.2 := by
  have valid : isValidIp ip = true := by simp [isValidIp, parsed]
  have written : ∀ cidr ∈ v4Reserved, cidr ≠ [] := by decide +kernel
  simp only [isReservedBanTarget, valid, isIpv6Addr_of_inetPton4 parsed, Bool.not_true,
    Bool.not_false, Bool.false_eq_true, if_false, if_true, List.any_eq_true, reservedNetworks,
    List.mem_filterMap]
  constructor
  · rintro ⟨cidr, listed, hit⟩
    rcases (ipMatchesCidr_iff parsed (written cidr listed)).mp hit with ⟨network, read, agree⟩
    exact ⟨network, ⟨cidr, listed, read⟩, agree⟩
  · rintro ⟨network, ⟨cidr, listed, read⟩, agree⟩
    exact ⟨cidr, listed, (ipMatchesCidr_iff parsed (written cidr listed)).mpr ⟨network, read, agree⟩⟩

theorem netmask_and_netmask (le : short ≤ long) (bounded : long ≤ 32) :
    netmask long &&& netmask short = netmask short := by
  have all : ∀ long ≤ 32, ∀ short ≤ long, netmask long &&& netmask short = netmask short := by
    decide +kernel
  exact all long bounded short le

theorem and_netmask_of_le {left right : BitVec 32} (le : short ≤ long) (bounded : long ≤ 32)
    (agree : left &&& netmask long = right &&& netmask long) :
    left &&& netmask short = right &&& netmask short := by
  calc left &&& netmask short
      = left &&& netmask long &&& netmask short := by
        rw [BitVec.and_assoc, netmask_and_netmask le bounded]
    _ = right &&& netmask long &&& netmask short := by rw [agree]
    _ = right &&& netmask short := by rw [BitVec.and_assoc, netmask_and_netmask le bounded]

theorem contains_lpmKey {address : BitVec 32} :
    (lpmKey plen address).Contains (.v4 bits) ↔ bits &&& netmask plen = address &&& netmask plen := by
  simp only [lpmKey, Block.Contains]
  rw [BitVec.and_assoc, BitVec.and_self]

theorem ipcClampV4Prefix_le (plen : ℕ) : ipcClampV4Prefix plen ≤ 32 := by
  unfold ipcClampV4Prefix
  split_ifs <;> omega

theorem ipcClampV4Prefix_lt {bound : ℕ} (bounded : bound ≤ 32) :
    ipcClampV4Prefix plen < bound ↔ 0 < plen ∧ plen < bound := by
  unfold ipcClampV4Prefix
  split_ifs <;> omega

theorem ipcValidateBanIpv4_eq_some {clamped : ℕ}
    (accepted : ipcValidateBanIpv4 ip plen = some clamped) :
    isReservedBanTarget ip = false ∧ clamped = ipcClampV4Prefix plen := by
  unfold ipcValidateBanIpv4 at accepted
  split_ifs at accepted with refused
  simp only [Bool.or_eq_true, not_or, Bool.not_eq_true] at refused
  exact ⟨refused.1.2, (Option.some.inj accepted).symm⟩

theorem reservedNetworks_le : ∀ network ∈ reservedNetworks, network.2 ≤ 32 := by decide +kernel

theorem exists_text_of_mem_reservedNetworks :
    ∀ network ∈ reservedNetworks, ∃ text, inetPton4 text = some network.1 := by
  have texts : ∀ network ∈ reservedNetworks,
      ∃ text ∈ v4Reserved.map (·.takeWhile (· ≠ chr '/')), inetPton4 text = some network.1 := by
    decide +kernel
  intro network listed
  rcases texts network listed with ⟨text, -, parsed⟩
  exact ⟨text, parsed⟩

theorem block_spares_reserved_iff {ip : Bytes} {plen clamped : ℕ} {address : BitVec 32}
    (accepted : ipcValidateBanIpv4 ip plen = some clamped) (parsed : inetPton4 ip = some address) :
    (∀ text bits, inetPton4 text = some bits → (lpmKey clamped address).Contains (.v4 bits) →
        isReservedBanTarget text = false) ↔
      ∀ network ∈ reservedNetworks, 0 < plen → plen < network.2 →
        network.1 &&& netmask plen ≠ address &&& netmask plen := by
  rcases ipcValidateBanIpv4_eq_some accepted with ⟨spared, clampedEq⟩
  constructor
  · intro free network listed positive longer inside
    have bounded := reservedNetworks_le network listed
    have unclamped : clamped = plen := by
      rw [clampedEq, ipcClampV4Prefix, if_neg (by omega)]
    rcases exists_text_of_mem_reservedNetworks network listed with ⟨text, textParsed⟩
    have reserved := (isReservedBanTarget_iff textParsed).mpr ⟨network, listed, rfl⟩
    rw [free text network.1 textParsed (contains_lpmKey.mpr (by rw [unclamped, inside]))] at reserved
    cases reserved
  · intro outside text bits textParsed contains
    rw [contains_lpmKey] at contains
    by_contra reserved
    rw [Bool.not_eq_false] at reserved
    rcases (isReservedBanTarget_iff textParsed).mp reserved with ⟨network, listed, agree⟩
    have bounded := reservedNetworks_le network listed
    rcases Nat.lt_or_ge clamped network.2 with longer | shorter
    · -- The reserved network lies inside the block.
      have asked := longer
      rw [clampedEq, ipcClampV4Prefix_lt bounded] at asked
      have unclamped : clamped = plen := by
        rw [clampedEq, ipcClampV4Prefix, if_neg (by omega)]
      apply outside network listed asked.1 asked.2
      rw [← unclamped, ← contains]
      exact (and_netmask_of_le (by omega) bounded agree).symm
    · -- The block lies inside the reserved network, and so does the address that was checked.
      have host : address &&& netmask network.2 = network.1 &&& netmask network.2 := by
        rw [← agree]
        exact (and_netmask_of_le shorter (clampedEq ▸ ipcClampV4Prefix_le plen) contains).symm
      rw [(isReservedBanTarget_iff parsed).mpr ⟨network, listed, host⟩] at spared
      cases spared

/-- A /24 far from the reserved networks. -/
theorem block_spares_reserved_of_small_block :
    ipcValidateBanIpv4 (ascii "203.0.113.7") 24 = some 24 ∧
      inetPton4 (ascii "203.0.113.7") = some 0xcb007107 ∧
      ∀ text bits, inetPton4 text = some bits → (lpmKey 24 0xcb007107).Contains (.v4 bits) →
        isReservedBanTarget text = false := by
  have accepted : ipcValidateBanIpv4 (ascii "203.0.113.7") 24 = some 24 := by decide +kernel
  have parsed : inetPton4 (ascii "203.0.113.7") = some 0xcb007107 := by decide +kernel
  refine ⟨accepted, parsed, (block_spares_reserved_iff accepted parsed).mpr ?_⟩
  decide +kernel

/-- `11.0.0.1/7` is accepted and covers `10.0.0.0/8`. -/
theorem block_covers_private_network :
    ipcValidateBanIpv4 (ascii "11.0.0.1") 7 = some 7 ∧
      inetPton4 (ascii "11.0.0.1") = some 0x0b000001 ∧
      inetPton4 (ascii "10.0.0.1") = some 0x0a000001 ∧
      (lpmKey 7 0x0b000001).Contains (.v4 0x0a000001) ∧
      isReservedBanTarget (ascii "10.0.0.1") = true := by
  decide +kernel

end LogGuardian
