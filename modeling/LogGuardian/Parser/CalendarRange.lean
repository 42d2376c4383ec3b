import LogGuardian.Parser.Timestamp

/-!
# Timestamps out of range

The texts `DD/Mon/YYYY:HH:MM:SS +hhmm` with any digits.
-/

namespace LogGuardian

structure Stamp where
  day : Fin 100
  month : Fin 12
  year : Fin 10000
  hour : Fin 100
  minute : Fin 100
  second : Fin 100
  west : Bool
  zoneHours : Fin 100
  zoneMinutes : Fin 100
  deriving DecidableEq, Repr

def digitPair (value : ℕ) : Bytes := [(48 + value / 10).toUInt8, (48 + value % 10).toUInt8]

namespace Stamp

variable (stamp : Stamp)

def zone : Bytes :=
  chr ' ' :: chr (if stamp.west then '-' else '+') ::
    (digitPair stamp.zoneHours ++ digitPair stamp.zoneMinutes)

def timeText : TimeText where
  day := digitPair stamp.day
  month := stamp.month
  year := digitPair (stamp.year / 100) ++ digitPair (stamp.year % 100)
  hour := digitPair stamp.hour
  minute := digitPair stamp.minute
  second := digitPair stamp.second
  zone := stamp.zone

def text : Bytes := stamp.timeText.text

/-- Every field is in the range of the calendar; a leap second counts. -/
structure InRange : Prop where
  day : 1 ≤ stamp.day.val ∧ stamp.day.val ≤ Calendar.monthLength stamp.year stamp.month
  hour : stamp.hour.val < 24
  minute : stamp.minute.val < 60
  second : stamp.second.val ≤ 60
  zoneHours : stamp.zoneHours.val < 24
  zoneMinutes : stamp.zoneMinutes.val < 60

def localSeconds : ℤ :=
  ((Calendar.daysBefore 0 stamp.year stamp.month : ℤ) - Calendar.daysBefore 0 1970 0 +
      (stamp.day - 1)) * 86400 + stamp.hour * 3600 + stamp.minute * 60 + stamp.second

def offset : ℤ :=
  let seconds : ℤ := stamp.zoneHours * 3600 + stamp.zoneMinutes * 60
  if stamp.west then -seconds else seconds

def utc : ℤ := stamp.localSeconds - stamp.offset

def Converted : Prop :=
  (stamp.InRange → 0 < stamp.utc → parseTimestamp stamp.text = stamp.utc) ∧
    (¬stamp.InRange → parseTimestamp stamp.text = 0)

end Stamp

theorem daysToMonth_eq_civil (year : ℕ) {month : ℕ} (valid : month < 12) :
    daysToMonth year month = Calendar.daysBefore 0 year month - Calendar.daysBefore 0 1970 0 := by
  let count : ℕ → ℕ → ℤ := fun year month => daysToMonth year month - daysToMonth 0 0
  have start : count 0 0 = 0 := sub_self _
  have nextMonth : ∀ year month, month < 11 →
      count year (month + 1) = count year month + Calendar.monthLength year month := by
    intro year month early
    have step := daysToMonth_nextMonth year month early
    dsimp only [count]
    omega
  have nextYear : ∀ year, count (year + 1) 0 = count year 11 + Calendar.monthLength year 11 := by
    intro year
    have step := daysToMonth_nextYear year
    dsimp only [count]
    push_cast at step ⊢
    omega
  have here : count year month = Calendar.daysBefore 0 year month :=
    Calendar.eq_daysBefore start nextMonth nextYear (Nat.zero_le year) valid
  have epoch : count 1970 0 = Calendar.daysBefore 0 1970 0 :=
    Calendar.eq_daysBefore start nextMonth nextYear (Nat.zero_le 1970) (by decide)
  have zero : daysToMonth 1970 0 = 0 := by decide
  dsimp only [count] at here epoch
  push_cast at epoch
  omega

theorem digitPair_facts : ∀ value : Fin 100,
    (∀ byte ∈ digitPair value, isDigit byte = true) ∧ decimalValue (digitPair value) = value := by
  decide +kernel

theorem decimalValue_pair_append (front : Bytes) (value : Fin 100) :
    decimalValue (front ++ digitPair value) = 100 * decimalValue front + value := by
  have last := (digitPair_facts value).2
  simp only [decimalValue, digitPair, List.foldl_append, List.foldl_cons, List.foldl_nil] at last ⊢
  omega

theorem zoneOffset_digits {west : Bool} {h₁ h₂ m₁ m₂ : UInt8}
    (hours : ∀ byte ∈ [h₁, h₂], isDigit byte = true)
    (minutes : ∀ byte ∈ [m₁, m₂], isDigit byte = true) :
    zoneOffset (chr ' ' :: chr (if west then '-' else '+') :: ([h₁, h₂] ++ [m₁, m₂])) =
      let seconds : ℤ := decimalValue [h₁, h₂] * 3600 + decimalValue [m₁, m₂] * 60
      if west then -seconds else seconds := by
  unfold zoneOffset
  cases west with
  | false => simp [hours, minutes, chr]
  | true => simp [hours, minutes, chr]

namespace Stamp

variable (stamp : Stamp)

theorem decimalValue_year : decimalValue stamp.timeText.year = stamp.year := by
  have front := (digitPair_facts ⟨stamp.year / 100, by omega⟩).2
  have whole := decimalValue_pair_append (digitPair (stamp.year / 100))
    ⟨stamp.year % 100, Nat.mod_lt _ (by decide)⟩
  dsimp only at front whole
  rw [timeText, whole]
  omega

theorem timegm_tm : timegm stamp.timeText.tm = stamp.localSeconds := by
  have bound := stamp.month.isLt
  have months : ((stamp.month : ℕ) : ℤ) / 12 = 0 := by omega
  have inYear : ((stamp.month : ℕ) : ℤ) % 12 = (stamp.month : ℕ) := by omega
  have years : (1900 : ℤ) + ((stamp.year : ℕ) - 1900) + 0 = (stamp.year : ℕ) := by omega
  rw [TimeText.tm, decimalValue_year, timeText]
  simp only [(digitPair_facts _).2, timegm, months, inYear, years, daysToMonth_eq_civil _ bound,
    localSeconds]
  ring

theorem zoneOffset_zone : zoneOffset stamp.zone = stamp.offset := by
  have hours := digitPair_facts stamp.zoneHours
  have minutes := digitPair_facts stamp.zoneMinutes
  rw [digitPair] at hours minutes
  rw [zone, digitPair, digitPair, zoneOffset_digits hours.1 minutes.1, hours.2, minutes.2, offset]

theorem parseTimestamp_text :
    parseTimestamp stamp.text = if stamp.localSeconds ≤ 0 then 0 else stamp.utc := by
  have pair : ∀ value : Fin 100, (∀ byte ∈ digitPair value, isDigit byte = true) ∧
      decimalValue (digitPair value) < 2 ^ 31 := by
    intro value
    rw [(digitPair_facts value).2]
    exact ⟨(digitPair_facts value).1, by omega⟩
  have numerals : ∀ numeral ∈ [stamp.timeText.day, stamp.timeText.year, stamp.timeText.hour,
      stamp.timeText.minute, stamp.timeText.second],
        (∀ byte ∈ numeral, isDigit byte = true) ∧ decimalValue numeral < 2 ^ 31 := by
    simp only [List.mem_cons, List.not_mem_nil, or_false, forall_eq_or_imp, forall_eq]
    refine ⟨pair _, ⟨?_, ?_⟩, pair _, pair _, pair _⟩
    · intro byte mem
      rcases List.mem_append.mp mem with front | back
      · exact (digitPair_facts ⟨stamp.year / 100, by omega⟩).1 byte front
      · exact (digitPair_facts ⟨stamp.year % 100, by omega⟩).1 byte back
    · rw [decimalValue_year]
      omega
  have zone : ∀ byte ∈ stamp.timeText.zone.head?, isDigit byte = false := by
    rintro byte ⟨⟩
    rfl
  have length : 20 ≤ stamp.timeText.text.length := by
    have month := (month_facts stamp.month stamp.month.isLt).1
    simp [TimeText.text, timeText, Stamp.zone, digitPair]
  rw [text, parseTimestamp_fields numerals stamp.month.isLt zone length, timegm_tm, utc,
    ← zoneOffset_zone]
  rfl

/-- A text is converted as it should exactly if its excess does not show: in range, the local time
and the instant are not on two sides of the start of 1970; out of range, the local time with
the excess carried over is not after it, or the instant is the start of 1970 itself. -/
theorem converted_iff :
    stamp.Converted ↔ (stamp.InRange → 0 < stamp.utc → 0 < stamp.localSeconds) ∧
      (¬stamp.InRange → stamp.localSeconds ≤ 0 ∨ stamp.utc = 0) := by
  rw [Converted, parseTimestamp_text]
  apply and_congr
  · apply imp_congr_right
    intro _
    apply imp_congr_right
    intro positive
    split
    · omega
    · omega
  · apply imp_congr_right
    intro _
    split
    · omega
    · omega

end Stamp

def dayTooLarge : Stamp := ⟨32, 0, 2024, 0, 0, 0, false, 0, 0⟩

def westOfEpoch : Stamp := ⟨1, 0, 1970, 0, 0, 0, true, 1, 0⟩

/-- The first text is taken for the first of February; the second one, at second 3600, is refused. -/
theorem stamps_not_converted :
    dayTooLarge.text = ascii "32/Jan/2024:00:00:00 +0000" ∧
      parseTimestamp dayTooLarge.text = 1706745600 ∧ ¬dayTooLarge.Converted ∧
      westOfEpoch.text = ascii "01/Jan/1970:00:00:00 -0100" ∧
      parseTimestamp westOfEpoch.text = 0 ∧ ¬westOfEpoch.Converted := by
  have wrong : parseTimestamp dayTooLarge.text = 1706745600 := by decide +kernel
  have refused : parseTimestamp westOfEpoch.text = 0 := by decide +kernel
  refine ⟨by decide +kernel, wrong, ?_, by decide +kernel, refused, ?_⟩
  · intro converted
    have excess : ¬dayTooLarge.InRange := fun inRange => absurd inRange.day.2 (by decide)
    have zero := converted.2 excess
    rw [wrong] at zero
    exact absurd zero (by decide)
  · intro converted
    have inRange : westOfEpoch.InRange := ⟨by decide, by decide, by decide, by decide, by decide,
      by decide⟩
    have instant : westOfEpoch.utc = 3600 := by
      rw [Stamp.utc, ← Stamp.timegm_tm]
      decide +kernel
    have same := converted.1 inRange (by rw [instant]; decide)
    rw [refused, instant] at same
    exact absurd same (by decide)

end LogGuardian
