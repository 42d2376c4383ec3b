import LogGuardian.Firewall.Inet

/-!
# CIDR matching and ban targets
-/

namespace LogGuardian

/-- `isspace` in the C locale. -/
def isSpace (byte : UInt8) : Bool := byte = 32 || (9 ≤ byte && byte ≤ 13)

/-- `strtol` in base ten, clamped to a 64-bit `long`. -/
def strtol (text : Bytes) : ℤ :=
  let trimmed := text.dropWhile isSpace
  let negative := trimmed.head? = some (chr '-')
  let digits :=
    if negative ∨ trimmed.head? = some (chr '+') then trimmed.drop 1 else trimmed
  let magnitude : ℤ := decimalValue (digits.takeWhile isDigit)
  if negative then max (-magnitude) (-2 ^ 63) else min magnitude (2 ^ 63 - 1)

/-- The value of a C `int` after a conversion or an overflow. -/
def toCInt (value : ℤ) : ℤ := Int.bmod value (2 ^ 32)

def atoi (text : Bytes) : ℤ := toCInt (strtol text)

def netmask (plen : ℕ) : BitVec 32 :=
  if plen = 0 then 0 else BitVec.allOnes 32 <<< (32 - plen)

def ipMatchesCidr (ip cidr : Bytes) : Bool :=
  if ip = [] ∨ cidr = [] then false
  else
    let buf := copyInto 80 cidr
    let network := buf.takeWhile (· ≠ chr '/')
    let plen := if chr '/' ∈ buf then atoi (buf.drop (network.length + 1)) else 32
    if plen < 0 ∨ 32 < plen then false
    else if network = ascii "::1" ∧ ip = ascii "::1" then 128 ≤ plen ∨ plen = 0
    else
      match inetPton4 ip, inetPton4 network with
      | some address, some net =>
        address &&& netmask plen.toNat = net &&& netmask plen.toNat
      | _, _ => false

def ipMatchesCidrList (ip : Bytes) (cidrs : List Bytes) : Bool :=
  cidrs.any fun cidr => cidr ≠ [] && ipMatchesCidr ip cidr

variable {ip : Bytes} {cidrs : List Bytes}

theorem inetPton4_or_loopback_of_ipMatchesCidrList (hit : ipMatchesCidrList ip cidrs = true) :
    (∃ address, inetPton4 ip = some address) ∨ ip = ascii "::1" := by
  simp only [ipMatchesCidrList, List.any_eq_true, Bool.and_eq_true] at hit
  rcases hit with ⟨cidr, -, -, hitCidr⟩
  rcases parsed : inetPton4 ip with _ | address
  · right
    by_contra other
    simp [ipMatchesCidr, parsed, other] at hitCidr
  · exact Or.inl ⟨address, rfl⟩

theorem length_le_of_ipMatchesCidrList (hit : ipMatchesCidrList ip cidrs = true) :
    ip.length ≤ 15 := by
  rcases inetPton4_or_loopback_of_ipMatchesCidrList hit with ⟨address, parsed⟩ | rfl
  · exact length_le_of_inetPton4 parsed
  · decide

theorem isValidIp_of_ipMatchesCidrList (hit : ipMatchesCidrList ip cidrs = true) :
    isValidIp ip = true := by
  rcases inetPton4_or_loopback_of_ipMatchesCidrList hit with ⟨address, parsed⟩ | rfl
  · simp [isValidIp, parsed]
  · decide

def v4Reserved : List Bytes :=
  [ascii "0.0.0.0/8", ascii "10.0.0.0/8", ascii "127.0.0.0/8", ascii "169.254.0.0/16",
    ascii "172.16.0.0/12", ascii "192.168.0.0/16", ascii "224.0.0.0/4", ascii "240.0.0.0/4"]

/-- The IPv6 prefixes `is_reserved_ban_target` looks for. -/
def v6ReservedPrefixes : List Bytes :=
  [ascii "fe80:", ascii "FE80:", ascii "fc", ascii "fd", ascii "FC", ascii "FD",
    ascii "ff", ascii "FF"]

def isReservedBanTarget (ip : Bytes) : Bool :=
  if !isValidIp ip then true
  else if !isIpv6Addr ip then v4Reserved.any (ipMatchesCidr ip)
  else ip = ascii "::1" || v6ReservedPrefixes.any (·.isPrefixOf ip)

example : isReservedBanTarget (ascii "192.168.1.7") = true := by decide
example : isReservedBanTarget (ascii "8.8.8.8") = false := by decide

def ipcClampV4Prefix (plen : ℕ) : ℕ := if plen = 0 ∨ 32 < plen then 32 else plen

/-- `ipc_validate_ban_ipv4`: the clamped prefix, or a refusal. -/
def ipcValidateBanIpv4 (ip : Bytes) (plen : ℕ) : Option ℕ :=
  if !isValidIp ip || isIpv6Addr ip || isReservedBanTarget ip || (inetPton4 ip).isNone then none
  else some (ipcClampV4Prefix plen)

def ipcValidateBanIpv6 (ip : Bytes) : Bool :=
  isValidIp ip && isIpv6Addr ip && !isReservedBanTarget ip && (inetPton6 ip).isSome

end LogGuardian
