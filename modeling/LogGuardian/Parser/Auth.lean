import LogGuardian.Parser.Entry

/-!
# sshd and sudo lines

The two content-sniffing paths of `parser.c`.
-/

namespace LogGuardian

/-- What the parser reads besides the line: the `TRUST_XFF` settings and
`parse_auth_timestamp`, which depends on the local time zone and the wall clock. -/
structure ParserEnv where
  trustXff : Bool
  proxyCidrs : List Bytes
  authTimestamp : Bytes → ℤ

/-- `strip_ipv6_brackets` on a range of the line, with a buffer of `IP_STR_LEN` bytes. -/
def stripIpv6Brackets (line : Bytes) (start len : ℕ) : StrView :=
  let token := (line.drop start).take len
  if 2 < len ∧ len - 2 < ipStrLen ∧ token.head? = some (chr '[') ∧
      token.getLast? = some (chr ']') then
    .text ((token.drop 1).take (len - 2))
  else .line start len

/-- The position after the bytes from `position` on that satisfy `skip`. -/
def skipWhile (skip : UInt8 → Bool) (line : Bytes) (position : ℕ) : ℕ :=
  position + ((line.drop position).takeWhile skip).length

/-- The token both sniffing paths read at a position: up to `]` after an opening bracket,
otherwise up to a space, tab or colon. -/
def ipTokenAt (line : Bytes) (position : ℕ) : ℕ × ℕ :=
  if byteAt line position = chr '[' then
    (position + 1, skipWhile (· ≠ chr ']') line position - (position + 1))
  else
    (position,
      ((line.drop position).takeWhile fun byte => byte ≠ 32 && byte ≠ 9 && byte ≠ chr ':').length)

def skipToIpToken (line : Bytes) (position : ℕ) : Option ℕ :=
  let found := skipWhile (fun byte => !(isDigit byte || byte = chr '[')) line position
  if found < line.length then some found else none

/-- The test both paths make on the stripped token, in a buffer of `IP_STR_LEN` bytes. -/
def validToken (line : Bytes) (view : StrView) : Bool :=
  isValidIp (copyInto ipStrLen (view.bytes line))

/-- The markers of `extract_sshd_client_ip`. -/
def sshdMarkers : List Bytes :=
  [ascii " from ", ascii "Connection closed by ", ascii "Received disconnect from ",
    ascii "Disconnected from "]

/-- One turn of the marker loop of `extract_sshd_client_ip`. -/
def sshdMarkerIp (line marker : Bytes) : Option StrView := do
  let hit ← Search.find marker line
  let afterSpaces := skipWhile (· = 32) line (hit + marker.length)
  let position ←
    if marker = ascii "Disconnected from " then skipToIpToken line afterSpaces
    else some afterSpaces
  let (start, rawLen) := ipTokenAt line position
  if rawLen = 0 ∨ ipStrLen ≤ rawLen then none
  else
    let clean := stripIpv6Brackets line start rawLen
    if validToken line clean then some clean else none

/-- `extract_sshd_client_ip`: the first marker that yields an address. -/
def extractSshdClientIp (line : Bytes) : Option StrView :=
  sshdMarkers.findSome? (sshdMarkerIp line)

def sshdEvent (line : Bytes) : Bytes × ℤ :=
  if hasLit line (ascii "Failed password") || hasLit line (ascii "Invalid user") ||
      hasLit line (ascii "authentication failure") then
    (ascii "/sshd/failed-password", 401)
  else if hasLit line (ascii "Accepted password") || hasLit line (ascii "Accepted publickey") then
    (ascii "/sshd/accepted", 200)
  else if hasLit line (ascii "Connection closed by") ||
      hasLit line (ascii "Received disconnect from") || hasLit line (ascii "Disconnected from") then
    (ascii "/sshd/disconnect", 401)
  else (ascii "/sshd/event", 403)

def parseAuthSshdLine (env : ParserEnv) (line : Bytes) : Option LogEntry :=
  if hasLit line (ascii "sshd[") then
    (extractSshdClientIp line).map fun ip =>
      { ip := ip
        ts := env.authTimestamp line
        method := .text (ascii "SSH")
        protocol := .text (ascii "SSH/2.0")
        userAgent := .text (ascii "OpenSSH")
        url := .text (sshdEvent line).1
        status := (sshdEvent line).2 }
  else none

/-- The address part of `parse_auth_sudo_line`. -/
def extractSudoRhost (line : Bytes) : Option StrView := do
  let hit ← Search.find (ascii "rhost=") line
  let (start, rawLen) := ipTokenAt line (skipWhile (· = 32) line (hit + 6))
  if rawLen = 0 then none
  else
    let clean := stripIpv6Brackets line start rawLen
    if validToken line clean then some clean else none

def parseAuthSudoLine (env : ParserEnv) (line : Bytes) : Option LogEntry :=
  if hasLit line (ascii "sudo[") then
    (extractSudoRhost line).map fun ip =>
      { ip := ip
        ts := env.authTimestamp line
        method := .text (ascii "AUTH")
        url := .text (ascii "/sudo/auth-failure")
        status := 403 }
  else none

def sniffedAddress (line : Bytes) : Option Bytes :=
  if hasLit line (ascii "sshd[") ∧ (extractSshdClientIp line).isSome then
    (extractSshdClientIp line).map (·.bytes line)
  else if hasLit line (ascii "sudo[") then (extractSudoRhost line).map (·.bytes line)
  else none

end LogGuardian
