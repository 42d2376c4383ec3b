import LogGuardian.Lib.Calendar
import LogGuardian.Parser.Scan

/-!
# Access-log timestamps
-/

namespace LogGuardian

open List

theorem daysToMonth_march (year : ℕ) :
    daysToMonth year 2 = daysToMonth year 1 + Calendar.monthLength year 1 := by
  have february : Calendar.monthLength year 1 = if Calendar.IsLeap year then 29 else 28 := if_pos rfl
  rw [february]
  unfold daysToMonth
  by_cases leap : Calendar.IsLeap year
  · rw [if_pos leap]
    unfold Calendar.IsLeap at leap
    simp only [if_true, if_false]
    omega
  · rw [if_neg leap]
    unfold Calendar.IsLeap at leap
    simp only [if_true, if_false]
    omega

theorem daysToMonth_nextMonth (year month : ℕ) (early : month < 11) :
    daysToMonth year (month + 1 : ℕ) =
      daysToMonth year month + Calendar.monthLength year month := by
  by_cases february : month = 1
  · rw [february]
    exact daysToMonth_march year
  · unfold daysToMonth Calendar.monthLength
    interval_cases month <;> simp at february ⊢ <;> ring

theorem daysToMonth_nextYear (year : ℕ) :
    daysToMonth (year + 1 : ℕ) 0 = daysToMonth year 11 + Calendar.monthLength year 11 := by
  simp [daysToMonth, Calendar.monthLength]
  ring

variable {year month : ℕ} {digits : Bytes} {byte : UInt8} {time : TimeText}

theorem daysToMonth_eq (later : 1970 ≤ year) (valid : month < 12) :
    daysToMonth year month = Calendar.daysBefore 1970 year month := by
  let count : ℕ → ℕ → ℤ := fun year month => daysToMonth year month
  have counts : count year month = Calendar.daysBefore 1970 year month :=
    Calendar.eq_daysBefore (by decide) daysToMonth_nextMonth daysToMonth_nextYear later valid
  exact counts

/-- The month names of `%d/%b/%Y`. -/
def monthTexts : List Bytes :=
  ["Jan", "Feb", "Mar", "Apr", "May", "Jun", "Jul", "Aug", "Sep", "Oct", "Nov", "Dec"].map ascii

def monthText (month : ℕ) : Bytes := monthTexts.getD month []

structure TimeText where
  day : Bytes
  month : ℕ
  year : Bytes
  hour : Bytes
  minute : Bytes
  second : Bytes
  zone : Bytes
  deriving DecidableEq, Repr

namespace TimeText

variable (time : TimeText)

def text : Bytes :=
  time.day ++ chr '/' :: (monthText time.month ++ chr '/' :: (time.year ++ chr ':' ::
    (time.hour ++ chr ':' :: (time.minute ++ chr ':' :: (time.second ++ time.zone)))))

def localSeconds : ℕ :=
  (Calendar.daysBefore 1970 (decimalValue time.year) time.month + (decimalValue time.day - 1)) *
      86400 +
    decimalValue time.hour * 3600 + decimalValue time.minute * 60 + decimalValue time.second

def instant : ℤ := time.localSeconds - zoneOffset time.zone

/-- A valid date and time after the start of 1970, with at least the 20 bytes of
`dd/Mon/yyyy:hh:mm:ss`. -/
structure Valid : Prop where
  digits : ∀ numeral ∈ [time.day, time.year, time.hour, time.minute, time.second],
    ∀ byte ∈ numeral, isDigit byte = true
  month : time.month < 12
  day : 1 ≤ decimalValue time.day ∧
    decimalValue time.day ≤ Calendar.monthLength (decimalValue time.year) time.month
  year : 1970 ≤ decimalValue time.year ∧ decimalValue time.year < 2 ^ 31
  hour : decimalValue time.hour < 24
  minute : decimalValue time.minute < 60
  second : decimalValue time.second ≤ 60
  zone : ∀ byte ∈ time.zone.head?, isDigit byte = false
  length : 20 ≤ time.text.length
  afterEpoch : 0 < time.localSeconds ∧ 0 < time.instant

end TimeText

theorem toCInt_of_lt {value : ℤ} (nonneg : 0 ≤ value) (fits : value < (2 ^ 31 : ℕ)) :
    toCInt value = value := by
  unfold toCInt
  rw [Int.bmod_eq_of_le] <;> omega

theorem scanInt_append {rest : Bytes} (numeral : ∀ byte ∈ digits, isDigit byte = true)
    (stops : ∀ byte ∈ rest.head?, isDigit byte = false) (fits : decimalValue digits < 2 ^ 31) :
    scanInt (digits ++ rest) = ((decimalValue digits : ℤ), rest) := by
  have ends : rest.takeWhile isDigit = [] ∧ rest.dropWhile isDigit = rest := by
    rcases rest with _ | ⟨byte, rest⟩
    · exact ⟨rfl, rfl⟩
    · have stop := stops byte rfl
      simp [stop]
  have taken : (digits ++ rest).takeWhile isDigit = digits := by
    rw [takeWhile_append_of_pos numeral, ends.1, append_nil]
  have dropped : (digits ++ rest).dropWhile isDigit = rest := by
    rw [dropWhile_append_of_pos numeral, ends.2]
  have value : accumulate toCInt digits 0 = decimalValue digits :=
    accumulate_eq (fun _ => toCInt_of_lt) fits
  rw [scanInt, taken, dropped, ← value]
  rfl

theorem expect_cons (byte : UInt8) (rest : Bytes) : expect byte (byte :: rest) = some rest :=
  if_pos rfl

theorem scanInt_cons (numeral : ∀ byte ∈ digits, isDigit byte = true) (stops : isDigit byte = false)
    (fits : decimalValue digits < 2 ^ 31) (rest : Bytes) :
    scanInt (digits ++ byte :: rest) = ((decimalValue digits : ℤ), byte :: rest) := by
  apply scanInt_append numeral _ fits
  rintro head same
  rw [← Option.some.inj same]
  exact stops

theorem month_facts : ∀ month < 12, (monthText month).length = 3 ∧
    (∀ byte ∈ monthText month, (byte ≠ 0 && byte ≠ chr '/') = true) ∧
    monthNames.findIdx? (· == (monthText month).map toLower) = some month := by
  decide +kernel

theorem takeWhile_month (valid : month < 12) (rest : Bytes) :
    ((monthText month ++ rest).take 3).takeWhile (fun byte => byte ≠ 0 && byte ≠ chr '/') =
      monthText month := by
  rcases month_facts month valid with ⟨length, plain, -⟩
  rw [take_append_of_le_length length.ge, take_of_length_le length.le,
    List.takeWhile_eq_self_iff.mpr plain]

theorem timegm_eq {day hour minute second : ℕ} (later : 1970 ≤ year) (valid : month < 12)
    (first : 1 ≤ day) :
    timegm ⟨day, month, year - 1900, hour, minute, second⟩ =
      ((Calendar.daysBefore 1970 year month + (day - 1)) * 86400 + hour * 3600 + minute * 60 +
        second : ℕ) := by
  have months : (month : ℤ) / 12 = 0 := by omega
  have inYear : (month : ℤ) % 12 = month := by omega
  have years : (1900 : ℤ) + (year - 1900) + 0 = year := by omega
  unfold timegm
  simp only [months, inYear, years, daysToMonth_eq later valid]
  push_cast [first]
  ring

theorem monthLength_le (year month : ℕ) : Calendar.monthLength year month ≤ 31 := by
  unfold Calendar.monthLength
  split_ifs <;> omega

/-- The fields that `timegm` is given. -/
def TimeText.tm (time : TimeText) : Tm :=
  ⟨decimalValue time.day, time.month, decimalValue time.year - 1900, decimalValue time.hour,
    decimalValue time.minute, decimalValue time.second⟩

theorem parseTimestamp_fields
    (digits : ∀ numeral ∈ [time.day, time.year, time.hour, time.minute, time.second],
      (∀ byte ∈ numeral, isDigit byte = true) ∧ decimalValue numeral < 2 ^ 31)
    (month : time.month < 12) (zone : ∀ byte ∈ time.zone.head?, isDigit byte = false)
    (length : 20 ≤ time.text.length) :
    parseTimestamp time.text =
      if timegm time.tm ≤ 0 then 0 else timegm time.tm - zoneOffset time.zone := by
  simp only [mem_cons, not_mem_nil, or_false, forall_eq_or_imp, forall_eq] at digits
  rcases digits with ⟨day, year, hour, minute, second⟩
  have scanDay := scanInt_cons day.1 (show isDigit (chr '/') = false by decide) day.2
  have scanYear := scanInt_cons year.1 (show isDigit (chr ':') = false by decide) year.2
  have scanHour := scanInt_cons hour.1 (show isDigit (chr ':') = false by decide) hour.2
  have scanMinute := scanInt_cons minute.1 (show isDigit (chr ':') = false by decide) minute.2
  have scanSecond := scanInt_append second.1 zone second.2
  unfold parseTimestamp
  rw [if_neg (Nat.not_lt.mpr length), TimeText.text]
  simp only [scanDay, expect_cons, Option.bind_eq_bind, Option.bind_some,
    takeWhile_month month, drop_left, (month_facts _ month).2.2, scanYear, scanHour,
    scanMinute, scanSecond]
  by_cases early : timegm time.tm ≤ 0
  · rw [if_pos early]
    exact congrArg (Option.getD · 0) (if_pos early)
  · rw [if_neg early]
    exact congrArg (Option.getD · 0) (if_neg early)

theorem parseTimestamp_text (valid : time.Valid) :
    parseTimestamp time.text = time.instant := by
  have dayFits := valid.day.2.trans (monthLength_le _ _)
  have hourFits := valid.hour
  have minuteFits := valid.minute
  have secondFits := valid.second
  have numerals : ∀ numeral ∈ [time.day, time.year, time.hour, time.minute, time.second],
      (∀ byte ∈ numeral, isDigit byte = true) ∧ decimalValue numeral < 2 ^ 31 := by
    intro numeral listed
    refine ⟨valid.digits numeral listed, ?_⟩
    simp only [mem_cons, not_mem_nil, or_false] at listed
    rcases listed with rfl | rfl | rfl | rfl | rfl
    · omega
    · exact valid.year.2
    · omega
    · omega
    · omega
  have utc : timegm time.tm = time.localSeconds :=
    timegm_eq valid.year.1 valid.month valid.day.1
  have after : ¬(time.localSeconds : ℤ) ≤ 0 := by
    have positive := valid.afterEpoch.1
    omega
  rw [parseTimestamp_fields numerals valid.month valid.zone valid.length, utc, if_neg after,
    TimeText.instant]

theorem digitValue_le (digit : isDigit byte = true) : digitValue byte ≤ 9 := by
  simp only [isDigit, Bool.and_eq_true, decide_eq_true_eq] at digit
  have upper : byte.toNat ≤ 57 := digit.2
  unfold digitValue
  omega

theorem zoneOffset_lt (text : Bytes) : zoneOffset text < 365 * 86400 := by
  unfold zoneOffset
  split
  · split
    · rename_i zone
      have digits := zone.2
      simp only [all_cons, all_nil, Bool.and_true, Bool.and_eq_true] at digits
      have hours := digitValue_le digits.1
      have hours' := digitValue_le digits.2.1
      have minutes := digitValue_le digits.2.2.1
      have minutes' := digitValue_le digits.2.2.2
      have pair : ∀ first second, decimalValue [first, second] =
          10 * digitValue first + digitValue second := by
        intro first second
        simp [decimalValue]
      rw [pair, pair]
      split <;> push_cast <;> omega
    · omega
  · omega

theorem year_le_daysBefore (later : 1970 < year) (month : ℕ) :
    365 ≤ Calendar.daysBefore 1970 year month := by
  have first : Calendar.yearLength 1970 ≤ ∑ index ∈ Finset.Ico 1970 year, Calendar.yearLength index :=
    Finset.single_le_sum (fun _ _ => Nat.zero_le _) (Finset.mem_Ico.mpr ⟨le_rfl, later⟩)
  have length : Calendar.yearLength 1970 = 365 := by decide
  unfold Calendar.daysBefore
  omega

theorem TimeText.afterEpoch_of_year (later : 1970 < decimalValue time.year) :
    0 < time.localSeconds ∧ 0 < time.instant := by
  have days := year_le_daysBefore later time.month
  have zone := zoneOffset_lt time.zone
  have seconds : 365 * 86400 ≤ time.localSeconds := by
    unfold localSeconds
    omega
  unfold instant
  omega

end LogGuardian
