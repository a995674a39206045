import NexusQuant.Lib.DecimalText

/-!
# The proleptic Gregorian calendar

Days are counted from the first of January 1970 and months from zero, as in a date of the language.
`makeDay` lets a date roll over the end of its month; `month_date_makeDay` says when it does not.
-/

namespace Calendar

def isLeap (y : ℤ) : Bool := y % 4 = 0 && (y % 100 != 0 || y % 400 = 0)

/-- The first day of a year. -/
def dayFromYear (y : ℤ) : ℤ :=
  365 * (y - 1970) + (y - 1969) / 4 - (y - 1901) / 100 + (y - 1601) / 400

/-- The days of a year before a month, those of the whole year for the month after the last. -/
def daysBefore (leap : Bool) (month : ℕ) : ℕ :=
  [0, 31, 59, 90, 120, 151, 181, 212, 243, 273, 304, 334, 365].getD month 365 +
    if leap && 2 ≤ month then 1 else 0

def daysInMonth (y : ℤ) (month : ℕ) : ℕ :=
  daysBefore (isLeap y) (month + 1) - daysBefore (isLeap y) month

/-- The days in `n` years are estimated from the length of the cycle of 400 years; the estimate is off
by at most one year. -/
def yearFromDay (d : ℤ) : ℤ :=
  let y := 1970 + 400 * d / 146097
  if d < dayFromYear y then y - 1 else if dayFromYear (y + 1) ≤ d then y + 1 else y

/-- The number of months that have ended on a day of the year. -/
def monthOfYearDay (leap : Bool) (n : ℕ) : ℕ :=
  ((List.range 11).filter fun month => daysBefore leap (month + 1) ≤ n).length

def dayInYear (d : ℤ) : ℕ := (d - dayFromYear (yearFromDay d)).toNat

/-- `getUTCMonth` of a day. -/
def monthFromDay (d : ℤ) : ℕ := monthOfYearDay (isLeap (yearFromDay d)) (dayInYear d)

/-- `getUTCDate` of a day. -/
def dateFromDay (d : ℤ) : ℕ :=
  dayInYear d - daysBefore (isLeap (yearFromDay d)) (monthFromDay d) + 1

/-- The day of a date, which may lie outside its month. -/
def makeDay (y : ℤ) (month date : ℕ) : ℤ :=
  dayFromYear y + daysBefore (isLeap y) month + date - 1

def msPerDay : ℤ := 86400000

/-- `toISOString`. -/
def isoText (ms : ℤ) : String :=
  let day := ms / msPerDay
  let time := (ms % msPerDay).toNat
  let year := yearFromDay day
  let two (n : ℕ) := String.ofList (DecimalText.padded 2 n)
  let yearText :=
    if 0 ≤ year ∧ year ≤ 9999 then String.ofList (DecimalText.padded 4 year.natAbs)
    else (if year < 0 then "-" else "+") ++ String.ofList (DecimalText.padded 6 year.natAbs)
  yearText ++ "-" ++ two (monthFromDay day + 1) ++ "-" ++ two (dateFromDay day) ++ "T" ++
    two (time / 3600000) ++ ":" ++ two (time / 60000 % 60) ++ ":" ++ two (time / 1000 % 60) ++ "." ++
    String.ofList (DecimalText.padded 3 (time % 1000)) ++ "Z"

/-! ## Years -/

theorem isLeap_iff {y : ℤ} : isLeap y ↔ y % 4 = 0 ∧ (y % 100 ≠ 0 ∨ y % 400 = 0) := by
  simp [isLeap]

theorem dayFromYear_succ (y : ℤ) :
    dayFromYear (y + 1) = dayFromYear y + if isLeap y then 366 else 365 := by
  by_cases h : isLeap y
  · rw [if_pos h]
    rw [isLeap_iff] at h
    unfold dayFromYear
    omega
  · rw [if_neg h]
    rw [isLeap_iff] at h
    unfold dayFromYear
    omega

theorem dayFromYear_lt_succ (y : ℤ) : dayFromYear y < dayFromYear (y + 1) := by
  rw [dayFromYear_succ]
  split <;> omega

/-- Every day lies in its year. -/
theorem yearFromDay_spec (d : ℤ) :
    dayFromYear (yearFromDay d) ≤ d ∧ d < dayFromYear (yearFromDay d + 1) := by
  have hlow : dayFromYear (1970 + 400 * d / 146097 - 1) ≤ d := by
    unfold dayFromYear
    omega
  have hhigh : d < dayFromYear (1970 + 400 * d / 146097 + 1 + 1) := by
    unfold dayFromYear
    omega
  unfold yearFromDay
  dsimp only
  split
  · rename_i h
    rw [sub_add_cancel]
    exact ⟨hlow, h⟩
  · rename_i h
    split
    · rename_i h'
      exact ⟨h', hhigh⟩
    · rename_i h'
      exact ⟨not_lt.mp h, not_le.mp h'⟩

theorem dayInYear_spec (d : ℤ) :
    d = dayFromYear (yearFromDay d) + dayInYear d ∧
      dayInYear d < daysBefore (isLeap (yearFromDay d)) 12 := by
  obtain ⟨hlow, hhigh⟩ := yearFromDay_spec d
  have hsucc := dayFromYear_succ (yearFromDay d)
  have hyear : (daysBefore (isLeap (yearFromDay d)) 12 : ℤ) =
      if isLeap (yearFromDay d) then 366 else 365 := by
    cases isLeap (yearFromDay d) <;> rfl
  unfold dayInYear
  omega

/-! ## Months -/

theorem monthOfYearDay_spec : ∀ leap : Bool, ∀ n < daysBefore leap 12,
    monthOfYearDay leap n < 12 ∧ daysBefore leap (monthOfYearDay leap n) ≤ n ∧
      n < daysBefore leap (monthOfYearDay leap n + 1) := by
  decide +kernel

/-- A day is taken apart into its year, its month and a date within the month. -/
theorem day_eq (d : ℤ) :
    d = makeDay (yearFromDay d) (monthFromDay d) (dateFromDay d) ∧ monthFromDay d < 12 ∧
      1 ≤ dateFromDay d ∧ dateFromDay d ≤ daysInMonth (yearFromDay d) (monthFromDay d) := by
  obtain ⟨heq, hlt⟩ := dayInYear_spec d
  obtain ⟨hmonth, hlow, hhigh⟩ := monthOfYearDay_spec _ _ hlt
  change monthFromDay d < 12 at hmonth
  change daysBefore _ (monthFromDay d) ≤ _ at hlow
  change _ < daysBefore _ (monthFromDay d + 1) at hhigh
  refine ⟨?_, hmonth, ?_, ?_⟩
  · unfold makeDay dateFromDay
    omega
  · unfold dateFromDay
    omega
  · unfold dateFromDay daysInMonth
    omega

theorem daysBefore_lt : ∀ leap : Bool, ∀ m < 12, daysBefore leap m < daysBefore leap (m + 1) := by
  decide

theorem daysBefore_mono : ∀ leap : Bool, ∀ m' ≤ 12, ∀ m ≤ m', daysBefore leap m ≤ daysBefore leap m' := by
  decide

/-- The same date of a month comes later in a later year. -/
theorem makeDay_lt_of_year_lt {y y' : ℤ} (h : y < y') {m : ℕ} (hm : m < 12) (date : ℕ) :
    makeDay y m date < makeDay y' m date := by
  -- From one year to the next the day of a month moves by at least the 364 days of a year without
  -- its leap day on either side.
  have hstep : ∀ z : ℤ, dayFromYear z + daysBefore (isLeap z) m <
      dayFromYear (z + 1) + daysBefore (isLeap (z + 1)) m := by
    intro z
    have hclose : ∀ a b : Bool, ∀ k < 12, daysBefore a k ≤ daysBefore b k + 1 := by decide
    have := hclose (isLeap z) (isLeap (z + 1)) m hm
    have := dayFromYear_succ z
    split at this <;> omega
  have hmono := strictMono_int_of_lt_succ hstep h
  unfold makeDay
  omega

/-- A day has one year. -/
theorem yearFromDay_eq {d y : ℤ} (hlow : dayFromYear y ≤ d) (hhigh : d < dayFromYear (y + 1)) :
    yearFromDay d = y := by
  have hmono := strictMono_int_of_lt_succ dayFromYear_lt_succ
  obtain ⟨hlow', hhigh'⟩ := yearFromDay_spec d
  have h₁ := hmono.lt_iff_lt.mp (hlow.trans_lt hhigh')
  have h₂ := hmono.lt_iff_lt.mp (hlow'.trans_lt hhigh)
  omega

/-- A day of the year has one month. -/
theorem monthOfYearDay_eq {leap : Bool} {n m : ℕ} (hm : m < 12) (hlow : daysBefore leap m ≤ n)
    (hhigh : n < daysBefore leap (m + 1)) : monthOfYearDay leap n = m := by
  have hyear := daysBefore_mono leap 12 le_rfl (m + 1) (by omega)
  obtain ⟨hm', hlow', hhigh'⟩ := monthOfYearDay_spec leap n (by omega)
  rcases lt_trichotomy (monthOfYearDay leap n) m with h | h | h
  · have := daysBefore_mono leap m hm.le (monthOfYearDay leap n + 1) h
    omega
  · exact h
  · have := daysBefore_mono leap (monthOfYearDay leap n) hm'.le (m + 1) h
    omega

theorem yearFromDay_makeDay (y : ℤ) {m date : ℕ} (hm : m < 12) (hone : 1 ≤ date)
    (hlen : date ≤ daysInMonth y m) : yearFromDay (makeDay y m date) = y := by
  have hlt := daysBefore_lt (isLeap y) m hm
  have hyearEnd := daysBefore_mono (isLeap y) 12 le_rfl (m + 1) (by omega)
  have hsucc := dayFromYear_succ y
  have hlength : (daysBefore (isLeap y) 12 : ℤ) = if isLeap y then 366 else 365 := by
    cases isLeap y <;> rfl
  unfold daysInMonth at hlen
  apply yearFromDay_eq
  · unfold makeDay
    omega
  · unfold makeDay
    omega

/-- A date comes back from its day exactly when its month has it. -/
theorem month_date_makeDay (y : ℤ) {m : ℕ} (hm : m < 12) (date : ℕ) :
    (dateFromDay (makeDay y m date) = date ∧ monthFromDay (makeDay y m date) = m) ↔
      1 ≤ date ∧ date ≤ daysInMonth y m := by
  obtain ⟨heq, hmonth, hlow, hhigh⟩ := day_eq (makeDay y m date)
  constructor
  · rintro ⟨hdate, hm'⟩
    rw [hdate, hm'] at heq hhigh
    rw [hdate] at hlow
    -- The year is the same too, the same date of another year being another day.
    have hyear : yearFromDay (makeDay y m date) = y := by
      rcases lt_trichotomy (yearFromDay (makeDay y m date)) y with h | h | h
      · exact absurd heq (makeDay_lt_of_year_lt h hm date).ne'
      · exact h
      · exact absurd heq (makeDay_lt_of_year_lt h hm date).ne
    rw [hyear] at hhigh
    exact ⟨hlow, hhigh⟩
  · rintro ⟨hone, hlen⟩
    have hyear := yearFromDay_makeDay y hm hone hlen
    have hlt := daysBefore_lt (isLeap y) m hm
    unfold daysInMonth at hlen
    have hday : dayInYear (makeDay y m date) = daysBefore (isLeap y) m + date - 1 := by
      unfold dayInYear
      rw [hyear]
      unfold makeDay
      omega
    have hmonth' : monthFromDay (makeDay y m date) = m := by
      unfold monthFromDay
      rw [hyear, hday]
      exact monthOfYearDay_eq hm (by omega) (by omega)
    refine ⟨?_, hmonth'⟩
    unfold dateFromDay
    rw [hmonth', hyear, hday]
    omega

example : isoText 1709164800123 = "2024-02-29T00:00:00.123Z" := by decide +kernel

end Calendar
