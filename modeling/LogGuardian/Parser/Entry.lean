import LogGuardian.Firewall.Targets

/-!
# Log entries
-/

namespace LogGuardian

/-- `StrView`: the null view, a range of the log line, or a literal or buffer of the parser. -/
inductive StrView where
  | null
  | line (start len : ℕ)
  | text (bytes : Bytes)
  deriving DecidableEq, Repr

namespace StrView

/-- The field `len`. -/
def len : StrView → ℕ
  | null => 0
  | line _ length => length
  | text bytes => bytes.length

def bytes (source : Bytes) : StrView → Bytes
  | null => []
  | line start length => (source.drop start).take length
  | text content => content

end StrView

structure LogEntry where
  ip : StrView := .null
  method : StrView := .null
  url : StrView := .null
  protocol : StrView := .null
  status : ℤ := 0
  bytes : ℤ := 0
  responseMs : ℤ := 0
  respBytes : ℤ := 0
  ts : ℤ := 0
  xff : StrView := .null
  body : StrView := .null
  cookie : StrView := .null
  host : StrView := .null
  userAgent : StrView := .null
  deriving DecidableEq, Repr

/-- `struct tm`, as far as the parser fills it. -/
structure Tm where
  mday : ℤ
  mon : ℤ
  year : ℤ
  hour : ℤ
  min : ℤ
  sec : ℤ
  deriving DecidableEq, Repr

/-- Days from 1970-01-01 to the first of a month of a Gregorian year (`mon` in `0..11`). -/
def daysToMonth (year mon : ℤ) : ℤ :=
  let marchYear := if mon < 2 then year - 1 else year
  let marchMonth := (mon + 10) % 12
  365 * marchYear + marchYear / 4 - marchYear / 100 + marchYear / 400 +
    (153 * marchMonth + 2) / 5 - 719468

/-- `timegm`, which normalises fields that are out of range. -/
def timegm (tm : Tm) : ℤ :=
  let year := 1900 + tm.year + tm.mon / 12
  (daysToMonth year (tm.mon % 12) + tm.mday - 1) * 86400 +
    tm.hour * 3600 + tm.min * 60 + tm.sec

/-- `month_names`, in lower case for `strncasecmp`. -/
def monthNames : List Bytes :=
  ["jan", "feb", "mar", "apr", "may", "jun", "jul", "aug", "sep", "oct", "nov", "dec"].map ascii

/-- A loop that accumulates decimal digits into a C `int`; the value and the rest of the text. -/
def scanInt (text : Bytes) : ℤ × Bytes :=
  ((text.takeWhile isDigit).foldl
      (fun value digit => toCInt (value * 10 + digitValue digit)) 0,
    text.dropWhile isDigit)

def expect (byte : UInt8) : Bytes → Option Bytes
  | [] => none
  | head :: rest => if head = byte then some rest else none

/-- The seconds of a zone suffix `+hhmm` or `-hhmm`; other suffixes are ignored. -/
def zoneOffset (text : Bytes) : ℤ :=
  match text.dropWhile (fun byte => byte = 32 || byte = 9) with
  | sign :: h₁ :: h₂ :: m₁ :: m₂ :: _ =>
    if (sign = chr '+' ∨ sign = chr '-') ∧ [h₁, h₂, m₁, m₂].all isDigit then
      let seconds : ℤ := decimalValue [h₁, h₂] * 3600 + decimalValue [m₁, m₂] * 60
      if sign = chr '+' then seconds else -seconds
    else 0
  | _ => 0

/-- `parse_timestamp`; 0 is the failure value of the source. -/
def parseTimestamp (text : Bytes) : ℤ :=
  if text.length < 20 then 0
  else
    (do
      let (mday, afterDay) := scanInt text
      let afterSlash ← expect (chr '/') afterDay
      let month := (afterSlash.take 3).takeWhile fun byte => byte ≠ 0 && byte ≠ chr '/'
      let afterMonth ← expect (chr '/') (afterSlash.drop month.length)
      let mon ← monthNames.findIdx? (· == month.map toLower)
      let (year, afterYear) := scanInt afterMonth
      let afterColon ← expect (chr ':') afterYear
      let (hour, afterHour) := scanInt afterColon
      let minuteText ← expect (chr ':') afterHour
      let (min, afterMin) := scanInt minuteText
      let secondText ← expect (chr ':') afterMin
      let (sec, afterSec) := scanInt secondText
      let utc := timegm ⟨mday, mon, year - 1900, hour, min, sec⟩
      if utc ≤ 0 then none else some (utc - zoneOffset afterSec)).getD 0

example : parseTimestamp (ascii "15/Jun/2026:10:00:00 +0000") = 1781517600 := by decide
example : parseTimestamp (ascii "01/Jan/1970:00:00:01 +0000") = 1 := by decide
example : parseTimestamp (ascii "29/Feb/2024:12:00:00 -0130") = 1709213400 := by decide

end LogGuardian
