import Mathlib.Algebra.BigOperators.Group.List.Basic
import Mathlib.Algebra.GroupWithZero.Nat
import Mathlib.Data.Prod.Lex
import Mathlib.Order.Cover
import SignalFoundry.Library.PyRuntime

/-!
# Calendar dates

`datetime.date`: a proleptic Gregorian date of the years 1 to 9999, ordered by
year, month and day. `isoformat` writes it as `YYYY-MM-DD` and `fromIsoformat`
reads the calendar-date forms `YYYY-MM-DD` and `YYYYMMDD` back; `fromordinal` is the
inverse of `toordinal`. The week-date
forms that the language also reads are left to the runtime; no date is written
in them.
-/

/-- Whether a year of the Gregorian calendar is a leap year. -/
def isLeapYear (year : ℕ) : Bool :=
  year % 4 == 0 && (year % 100 != 0 || year % 400 == 0)

def daysInMonth (year month : ℕ) : ℕ :=
  if month = 2 then if isLeapYear year then 29 else 28
  else if month ∈ [4, 6, 9, 11] then 30
  else 31

theorem daysInMonth_le (year month : ℕ) : daysInMonth year month ≤ 31 := by
  unfold daysInMonth
  split_ifs <;> omega

/-- A calendar date. -/
structure PyDate where
  year : ℕ
  month : ℕ
  day : ℕ
  year_mem : 1 ≤ year ∧ year ≤ 9999
  month_mem : 1 ≤ month ∧ month ≤ 12
  day_mem : 1 ≤ day ∧ day ≤ daysInMonth year month
  deriving DecidableEq, Repr

namespace PyDate

/-- The fields of a date in their order of comparison. -/
def key (d : PyDate) : ℕ ×ₗ ℕ ×ₗ ℕ := toLex (d.year, toLex (d.month, d.day))

theorem key_injective : Function.Injective key := by
  rintro ⟨y, m, d, _, _, _⟩ ⟨y', m', d', _, _, _⟩ h
  simp only [key, EmbeddingLike.apply_eq_iff_eq, Prod.mk.injEq] at h
  obtain ⟨rfl, rfl, rfl⟩ := h
  rfl

instance : LinearOrder PyDate := LinearOrder.lift' key key_injective

/-- `datetime.date(year, month, day)`; `none` is `ValueError`. -/
def ofFields (year month day : ℕ) : Option PyDate :=
  if hy : 1 ≤ year ∧ year ≤ 9999 then
    if hm : 1 ≤ month ∧ month ≤ 12 then
      if hd : 1 ≤ day ∧ day ≤ daysInMonth year month then
        some ⟨year, month, day, hy, hm, hd⟩
      else none
    else none
  else none

@[simp] theorem ofFields_self (d : PyDate) : ofFields d.year d.month d.day = some d := by
  simp [ofFields, d.year_mem, d.month_mem, d.day_mem]

/-- `date.toordinal()`: the days since the end of the year 0. -/
def toordinal (d : PyDate) : ℕ :=
  let years := d.year - 1
  365 * years + years / 4 - years / 100 + years / 400 +
    ((List.range (d.month - 1)).map fun month => daysInMonth d.year (month + 1)).sum + d.day

/-! ## The ISO form -/

/-- A number in decimal, padded with zeros to a width. -/
def padded (width n : ℕ) : List Char :=
  List.replicate (width - (Nat.toDigits 10 n).length) '0' ++ Nat.toDigits 10 n

theorem ofDigitChars_padded (width n : ℕ) :
    Nat.ofDigitChars 10 (padded width n) 0 = n := by
  simp [padded, Nat.ofDigitChars_append, Nat.ofDigitChars_replicate_zero,
    Nat.ofDigitChars_ten_toDigits]

theorem length_padded {width n : ℕ} (hwidth : 0 < width) (h : n < 10 ^ width) :
    (padded width n).length = width := by
  have hle : (Nat.toDigits 10 n).length ≤ width :=
    (Nat.length_toDigits_le_iff (by decide) hwidth).mpr h
  rw [padded, List.length_append, List.length_replicate]
  omega

theorem isDigitAscii_of_mem_padded {width n : ℕ} {c : Char} (h : c ∈ padded width n) :
    PyText.isDigitAscii c = true := by
  rw [padded, List.mem_append] at h
  rcases h with h | h
  · rw [List.eq_of_mem_replicate h]
    decide
  · have hdigit := Nat.isDigit_of_mem_toDigits (by decide) (by decide) h
    simpa [PyText.isDigitAscii, Char.isDigit, Char.le_def] using hdigit

/-- `date.isoformat()`. -/
def isoformat (d : PyDate) : String :=
  String.ofList (padded 4 d.year ++ '-' :: padded 2 d.month ++ '-' :: padded 2 d.day)

/-- The value of a field of ASCII digits. -/
def digitsValue? (field : List Char) : Option ℕ :=
  if field.all PyText.isDigitAscii then some (Nat.ofDigitChars 10 field 0) else none

@[simp] theorem digitsValue?_padded (width n : ℕ) :
    digitsValue? (padded width n) = some n := by
  have hall : (padded width n).all PyText.isDigitAscii = true :=
    List.all_eq_true.mpr fun c hc => isDigitAscii_of_mem_padded hc
  simp [digitsValue?, hall, ofDigitChars_padded]

/-- The date whose three fields are written in decimal. -/
def ofDigits? (year month day : List Char) : Option PyDate := do
  ofFields (← digitsValue? year) (← digitsValue? month) (← digitsValue? day)

section FromIsoformat

variable [PyRuntime]

/-- A date that is written with a week. -/
def ofWeekForm? (text : String) : Option PyDate := do
  let (year, month, day) ← PyRuntime.isoWeekDate text
  ofFields year month day

/-- `date.fromisoformat(text)`; `none` is `ValueError`. -/
def fromIsoformat (text : String) : Option PyDate :=
  match text.toList with
  | [y₁, y₂, y₃, y₄, '-', m₁, m₂, '-', d₁, d₂] => ofDigits? [y₁, y₂, y₃, y₄] [m₁, m₂] [d₁, d₂]
  | [y₁, y₂, y₃, y₄, m₁, m₂, d₁, d₂] =>
      (ofDigits? [y₁, y₂, y₃, y₄] [m₁, m₂] [d₁, d₂]).orElse fun _ => ofWeekForm? text
  | _ => ofWeekForm? text

@[simp] theorem fromIsoformat_isoformat (d : PyDate) : fromIsoformat d.isoformat = some d := by
  have hdays := daysInMonth_le d.year d.month
  have hyear : (padded 4 d.year).length = 4 :=
    length_padded (by decide) (by have := d.year_mem; omega)
  have hmonth : (padded 2 d.month).length = 2 :=
    length_padded (by decide) (by have := d.month_mem; omega)
  have hday : (padded 2 d.day).length = 2 :=
    length_padded (by decide) (by have := d.day_mem; omega)
  obtain ⟨y₁, y₂, y₃, y₄, hy⟩ := List.length_eq_four.mp hyear
  obtain ⟨m₁, m₂, hm⟩ := List.length_eq_two.mp hmonth
  obtain ⟨d₁, d₂, hd⟩ := List.length_eq_two.mp hday
  have htext : d.isoformat.toList = [y₁, y₂, y₃, y₄, '-', m₁, m₂, '-', d₁, d₂] := by
    simp [isoformat, hy, hm, hd]
  have hvalue : ofDigits? [y₁, y₂, y₃, y₄] [m₁, m₂] [d₁, d₂] = some d := by
    rw [← hy, ← hm, ← hd]
    simp [ofDigits?]
  simp only [fromIsoformat, htext, hvalue]

end FromIsoformat

/-! ## Ordinals

`date.fromordinal` as the inverse of `date.toordinal`. Ordinals grow with the dates, and
every number from 1 to the ordinal of the largest date is one, so the date that follows
another is the date of the next ordinal. -/

/-- The days of all years before a year. -/
def daysBeforeYear (year : ℕ) : ℕ :=
  let years := year - 1
  365 * years + years / 4 - years / 100 + years / 400

/-- The days of a year before a month. -/
def daysBeforeMonth (year month : ℕ) : ℕ :=
  ((List.range (month - 1)).map fun month => daysInMonth year (month + 1)).sum

def daysInYear (year : ℕ) : ℕ := if isLeapYear year then 366 else 365

theorem toordinal_eq (d : PyDate) :
    d.toordinal = daysBeforeYear d.year + daysBeforeMonth d.year d.month + d.day := rfl

theorem daysBeforeYear_succ {year : ℕ} (h : 1 ≤ year) :
    daysBeforeYear (year + 1) = daysBeforeYear year + daysInYear year := by
  obtain ⟨k, rfl⟩ := Nat.exists_eq_add_of_le' h
  have hle : k / 100 ≤ k / 4 := Nat.div_le_div_left (by decide) (by decide)
  simp only [daysBeforeYear, Nat.add_sub_cancel, Nat.succ_div, Nat.dvd_iff_mod_eq_zero]
  generalize k / 4 = quads at *
  generalize k / 100 = centuries at *
  generalize k / 400 = eras at *
  by_cases hfour : (k + 1) % 4 = 0
  · by_cases hcentury : (k + 1) % 100 = 0
    · by_cases hera : (k + 1) % 400 = 0
      · have hleap : isLeapYear (k + 1) = true := by simp [isLeapYear, hfour, hera]
        rw [daysInYear, if_pos hleap, if_pos hfour, if_pos hcentury, if_pos hera]
        omega
      · have hleap : isLeapYear (k + 1) = false := by simp [isLeapYear, hcentury, hera]
        rw [daysInYear, hleap, if_pos hfour, if_pos hcentury, if_neg hera]
        simp only [Bool.false_eq_true, if_false]
        omega
    · have hera : (k + 1) % 400 ≠ 0 := by omega
      have hleap : isLeapYear (k + 1) = true := by simp [isLeapYear, hfour, hcentury]
      rw [daysInYear, if_pos hleap, if_pos hfour, if_neg hcentury, if_neg hera]
      omega
  · have hcentury : (k + 1) % 100 ≠ 0 := by omega
    have hera : (k + 1) % 400 ≠ 0 := by omega
    have hleap : isLeapYear (k + 1) = false := by simp [isLeapYear, hfour]
    rw [daysInYear, hleap, if_neg hfour, if_neg hcentury, if_neg hera]
    simp only [Bool.false_eq_true, if_false]
    omega

theorem daysBeforeYear_mono : Monotone daysBeforeYear := by
  refine monotone_nat_of_le_succ fun year => ?_
  rcases Nat.eq_zero_or_pos year with rfl | hyear
  · decide
  · rw [daysBeforeYear_succ hyear]
    exact Nat.le_add_right _ _

theorem daysBeforeMonth_succ {year month : ℕ} (h : 1 ≤ month) :
    daysBeforeMonth year (month + 1) = daysBeforeMonth year month + daysInMonth year month := by
  obtain ⟨k, rfl⟩ := Nat.exists_eq_add_of_le' h
  simp [daysBeforeMonth, List.range_succ]

theorem daysBeforeMonth_mono (year : ℕ) : Monotone (daysBeforeMonth year) := by
  refine monotone_nat_of_le_succ fun month => ?_
  rcases Nat.eq_zero_or_pos month with rfl | hmonth
  · exact le_rfl
  · rw [daysBeforeMonth_succ hmonth]
    exact Nat.le_add_right _ _

/-- Twelve months make a year. -/
theorem daysBeforeMonth_thirteen (year : ℕ) : daysBeforeMonth year 13 = daysInYear year := by
  simp only [daysBeforeMonth, daysInYear, daysInMonth]
  split_ifs <;> decide

theorem padded_injective {width n m : ℕ} (h : padded width n = padded width m) : n = m := by
  rw [← ofDigitChars_padded width n, h, ofDigitChars_padded]

/-! ### Order -/

/-- A date is among the days before the next month. -/
theorem toordinal_le_month (d : PyDate) :
    d.toordinal ≤ daysBeforeYear d.year + daysBeforeMonth d.year (d.month + 1) := by
  rw [toordinal_eq, daysBeforeMonth_succ d.month_mem.1, add_assoc]
  exact Nat.add_le_add_left (Nat.add_le_add_left d.day_mem.2 _) _

/-- A date is among the days before the next year. -/
theorem toordinal_le_year (d : PyDate) : d.toordinal ≤ daysBeforeYear (d.year + 1) := by
  rw [daysBeforeYear_succ d.year_mem.1, ← daysBeforeMonth_thirteen]
  exact d.toordinal_le_month.trans (Nat.add_le_add_left
    (daysBeforeMonth_mono _ (Nat.succ_le_succ d.month_mem.2)) _)

theorem lt_iff {d d' : PyDate} : d < d' ↔ d.year < d'.year ∨ d.year = d'.year ∧
    (d.month < d'.month ∨ d.month = d'.month ∧ d.day < d'.day) := by
  show d.key < d'.key ↔ _
  simp only [key, Prod.Lex.toLex_lt_toLex]

/-- Ordinals grow with the dates. -/
theorem toordinal_strictMono : StrictMono toordinal := by
  intro d d' h
  have hday := d'.day_mem.1
  rcases lt_iff.mp h with hyear | ⟨hyear, hmonth | ⟨hmonth, hlt⟩⟩
  · have hle := d.toordinal_le_year.trans (daysBeforeYear_mono (Nat.succ_le_of_lt hyear))
    rw [d'.toordinal_eq]
    omega
  · have hle := d.toordinal_le_month.trans (Nat.add_le_add_left
      (daysBeforeMonth_mono d.year (Nat.succ_le_of_lt hmonth)) _)
    rw [d'.toordinal_eq, ← hyear]
    omega
  · rw [d.toordinal_eq, d'.toordinal_eq, ← hyear, ← hmonth]
    omega

theorem toordinal_lt_iff {d d' : PyDate} : d.toordinal < d'.toordinal ↔ d < d' :=
  toordinal_strictMono.lt_iff_lt

theorem toordinal_inj {d d' : PyDate} : d.toordinal = d'.toordinal ↔ d = d' :=
  toordinal_strictMono.injective.eq_iff

/-! ### Dates of ordinals -/

/-- The year of an ordinal: the last year of a century and the last of four years take the
day that is left over. -/
def ordinalYear (n : ℕ) : ℕ :=
  let days := n - 1
  let n400 := days / 146097
  let days := days % 146097
  let n100 := min (days / 36524) 3
  let days := days - n100 * 36524
  let n4 := days / 1461
  let n1 := min (days % 1461 / 365) 3
  n400 * 400 + n100 * 100 + n4 * 4 + n1 + 1

/-- The month that a day of a year falls in, with its day there. -/
def splitMonth (year : ℕ) : List ℕ → ℕ → Option (ℕ × ℕ)
  | [], _ => none
  | month :: months, day =>
      if day ≤ daysInMonth year month then some (month, day)
      else splitMonth year months (day - daysInMonth year month)

/-- `date.fromordinal(n)`; `none` is `ValueError`. -/
def ofOrdinal (n : ℕ) : Option PyDate := do
  let year := ordinalYear n
  let (month, day) ← splitMonth year (List.range' 1 12) (n - daysBeforeYear year)
  ofFields year month day

/-- `date.max`. -/
def max : PyDate where
  year := 9999
  month := 12
  day := 31
  year_mem := by decide
  month_mem := by decide
  day_mem := by decide

/-- The date of fields that make one, the largest date otherwise. -/
def date (year month day : ℕ) : PyDate := (ofFields year month day).getD max

theorem le_max (d : PyDate) : d ≤ max := by
  rw [← not_lt, lt_iff]
  have hyear := d.year_mem.2
  have hmonth := d.month_mem.2
  have hday : d.day ≤ 31 := d.day_mem.2.trans (daysInMonth_le _ _)
  show ¬ (9999 < d.year ∨ 9999 = d.year ∧ (12 < d.month ∨ 12 = d.month ∧ 31 < d.day))
  omega

/-- The quotients of a year that is split into eras, centuries, leap cycles and years. -/
theorem div_of_parts {n400 n100 n4 n1 : ℕ} (h100 : n100 ≤ 3) (h4 : n4 ≤ 24) (h1 : n1 ≤ 3) :
    (n400 * 400 + n100 * 100 + n4 * 4 + n1) / 4 = n400 * 100 + n100 * 25 + n4 ∧
      (n400 * 400 + n100 * 100 + n4 * 4 + n1) / 100 = n400 * 4 + n100 ∧
      (n400 * 400 + n100 * 100 + n4 * 4 + n1) / 400 = n400 := by
  refine ⟨?_, ?_, ?_⟩
  · omega
  · omega
  · omega

theorem daysBeforeYear_parts {n400 n100 n4 n1 : ℕ} (h100 : n100 ≤ 3) (h4 : n4 ≤ 24) (h1 : n1 ≤ 3) :
    daysBeforeYear (n400 * 400 + n100 * 100 + n4 * 4 + n1 + 1) =
      n400 * 146097 + n100 * 36524 + n4 * 1461 + n1 * 365 := by
  obtain ⟨hfour, hcentury, hera⟩ := @div_of_parts n400 n100 n4 n1 h100 h4 h1
  rw [daysBeforeYear, Nat.add_sub_cancel, hfour, hcentury, hera]
  omega

/-- The first day after a year is the first of the next year, of the next leap cycle, of the
next century or of the next era. -/
theorem daysBeforeYear_parts_succ {n400 n100 n4 n1 : ℕ} (h100 : n100 ≤ 3) (h4 : n4 ≤ 24)
    (h1 : n1 ≤ 3) :
    n400 * 146097 + n100 * 36524 + n4 * 1461 + (n1 + 1) * 365 +
        (if n1 = 3 ∧ (n4 < 24 ∨ n100 = 3) then 1 else 0) =
      daysBeforeYear (n400 * 400 + n100 * 100 + n4 * 4 + n1 + 1 + 1) := by
  rcases h1.lt_or_eq with h1 | rfl
  · have hnext := @daysBeforeYear_parts n400 n100 n4 (n1 + 1) h100 h4 h1
    rw [if_neg (by omega), Nat.add_zero, Nat.add_assoc _ n1 1, hnext]
  rcases h4.lt_or_eq with h4 | rfl
  · have hnext := @daysBeforeYear_parts n400 n100 (n4 + 1) 0 h100 h4 (by decide)
    rw [if_pos ⟨rfl, .inl h4⟩, show n400 * 400 + n100 * 100 + n4 * 4 + 3 + 1 =
      n400 * 400 + n100 * 100 + (n4 + 1) * 4 + 0 by omega, hnext]
    omega
  rcases h100.lt_or_eq with h100 | rfl
  · have hnext := @daysBeforeYear_parts n400 (n100 + 1) 0 0 h100 (by decide) (by decide)
    rw [if_neg (by omega), show n400 * 400 + n100 * 100 + 24 * 4 + 3 + 1 =
      n400 * 400 + (n100 + 1) * 100 + 0 * 4 + 0 by omega, hnext]
    omega
  · have hnext := @daysBeforeYear_parts (n400 + 1) 0 0 0 (by decide) (by decide) (by decide)
    rw [if_pos ⟨rfl, .inr rfl⟩, show n400 * 400 + 3 * 100 + 24 * 4 + 3 + 1 =
      (n400 + 1) * 400 + 0 * 100 + 0 * 4 + 0 by omega, hnext]
    omega

theorem daysBeforeYear_ordinalYear {n : ℕ} (h : 1 ≤ n) :
    daysBeforeYear (ordinalYear n) < n ∧ n ≤ daysBeforeYear (ordinalYear n + 1) := by
  obtain ⟨days, rfl⟩ := Nat.exists_eq_add_of_le' h
  simp only [ordinalYear, Nat.add_sub_cancel]
  have hera := Nat.div_add_mod days 146097
  have hera_lt := Nat.mod_lt days (show 0 < 146097 by decide)
  generalize days / 146097 = n400 at *
  generalize days % 146097 = rest at *
  obtain ⟨n100, hn100⟩ : ∃ n100, min (rest / 36524) 3 = n100 := ⟨_, rfl⟩
  have hcentury : n100 ≤ 3 ∧ n100 * 36524 ≤ rest ∧ (n100 < 3 → rest < (n100 + 1) * 36524) := by
    clear hera
    omega
  rw [hn100]
  clear hn100
  obtain ⟨rest', hrest'⟩ : ∃ rest', rest - n100 * 36524 = rest' := ⟨_, rfl⟩
  rw [hrest']
  have hfour := Nat.div_add_mod rest' 1461
  have hfour_lt := Nat.mod_lt rest' (show 0 < 1461 by decide)
  generalize rest' / 1461 = n4 at *
  generalize rest' % 1461 = rest'' at *
  obtain ⟨n1, hn1⟩ : ∃ n1, min (rest'' / 365) 3 = n1 := ⟨_, rfl⟩
  have hyear : n1 ≤ 3 ∧ n1 * 365 ≤ rest'' ∧ (n1 < 3 → rest'' < (n1 + 1) * 365) := by
    clear hera hera_lt hcentury hrest' hfour
    omega
  rw [hn1]
  clear hn1
  have hn4 : n4 ≤ 24 := by omega
  rw [daysBeforeYear_parts hcentury.1 hn4 hyear.1,
    ← daysBeforeYear_parts_succ hcentury.1 hn4 hyear.1]
  constructor
  · omega
  -- The last year of four may have the day that the division leaves over.
  · split_ifs with hleap
    · omega
    · omega
/-- A day within the months of a list falls in one of them. -/
theorem splitMonth_range' {year month count day : ℕ} (hmonth : 1 ≤ month) (hday : 1 ≤ day)
    (hle : day + daysBeforeMonth year month ≤ daysBeforeMonth year (month + count)) :
    ∃ month' day', splitMonth year (List.range' month count) day = some (month', day') ∧
      (month ≤ month' ∧ month' < month + count) ∧ (1 ≤ day' ∧ day' ≤ daysInMonth year month') ∧
      daysBeforeMonth year month' + day' = day + daysBeforeMonth year month := by
  induction count generalizing month day with
  | zero =>
      rw [Nat.add_zero] at hle
      omega
  | succ count ih =>
      rw [List.range'_succ, splitMonth]
      by_cases hfits : day ≤ daysInMonth year month
      · exact ⟨month, day, if_pos hfits, ⟨le_rfl, by omega⟩, ⟨hday, hfits⟩, add_comm _ _⟩
      · have hnext := @daysBeforeMonth_succ year month hmonth
        obtain ⟨month', day', hsplit, hmem, hday', hsum⟩ :=
          @ih (month + 1) (day - daysInMonth year month) (by omega) (by omega)
            (by rw [show month + 1 + count = month + (count + 1) by omega]; omega)
        exact ⟨month', day', by rw [if_neg hfits, hsplit], by omega, hday', by omega⟩

/-- Every number up to the ordinal of the largest date is the ordinal of a date. -/
theorem exists_ofOrdinal {n : ℕ} (hpos : 1 ≤ n) (hle : n ≤ max.toordinal) :
    ∃ d, ofOrdinal n = some d ∧ d.toordinal = n := by
  obtain ⟨hbefore, hafter⟩ := daysBeforeYear_ordinalYear hpos
  have hyear : 1 ≤ ordinalYear n := Nat.succ_pos _
  have hlast : ordinalYear n ≤ 9999 := by
    by_contra hlater
    have hmono := daysBeforeYear_mono (show 10000 ≤ ordinalYear n by omega)
    have hmax : max.toordinal = daysBeforeYear 10000 := by decide
    omega
  rw [daysBeforeYear_succ hyear, ← daysBeforeMonth_thirteen] at hafter
  obtain ⟨month, day, hsplit, hmonth, hday, hsum⟩ :=
    @splitMonth_range' (ordinalYear n) 1 12 (n - daysBeforeYear (ordinalYear n)) le_rfl
      (by omega) (by
        show _ + 0 ≤ daysBeforeMonth (ordinalYear n) 13
        omega)
  have hfields : ofFields (ordinalYear n) month day =
      some ⟨ordinalYear n, month, day, ⟨hyear, hlast⟩, by omega, hday⟩ :=
    ofFields_self ⟨ordinalYear n, month, day, ⟨hyear, hlast⟩, by omega, hday⟩
  have hof : ofOrdinal n =
      some ⟨ordinalYear n, month, day, ⟨hyear, hlast⟩, by omega, hday⟩ := by
    rw [ofOrdinal, hsplit]
    exact hfields
  refine ⟨_, hof, ?_⟩
  rw [toordinal_eq]
  show daysBeforeYear (ordinalYear n) + daysBeforeMonth (ordinalYear n) month + day = n
  have hzero : daysBeforeMonth (ordinalYear n) 1 = 0 := rfl
  omega

/-- There is no date after the largest. -/
theorem ofOrdinal_max_succ : ofOrdinal (max.toordinal + 1) = none := by decide

theorem toordinal_pos (d : PyDate) : 1 ≤ d.toordinal := by
  rw [toordinal_eq]
  exact d.day_mem.1.trans (Nat.le_add_left _ _)

/-- The date of the next ordinal, if there is one, is the next date. -/
theorem covBy_of_toordinal {d d' : PyDate} (h : d'.toordinal = d.toordinal + 1) : d ⋖ d' := by
  refine ⟨toordinal_lt_iff.mp (by omega), fun other hlt hlt' => ?_⟩
  have hafter := toordinal_lt_iff.mpr hlt
  have hbefore := toordinal_lt_iff.mpr hlt'
  omega

/-- A date that is not the largest has a next one. -/
theorem exists_next {d : PyDate} (h : d ≠ max) :
    ∃ d', ofOrdinal (d.toordinal + 1) = some d' ∧ d'.toordinal = d.toordinal + 1 :=
  exists_ofOrdinal (Nat.succ_pos _)
    (Nat.succ_le_of_lt (toordinal_lt_iff.mpr (lt_of_le_of_ne d.le_max h)))

/-- What follows a date by its ordinal is the next date. -/
theorem toordinal_of_ofOrdinal {d d' : PyDate} (h : ofOrdinal (d.toordinal + 1) = some d') :
    d'.toordinal = d.toordinal + 1 := by
  by_cases hmax : d = max
  · rw [hmax, ofOrdinal_max_succ] at h
    nomatch h
  · obtain ⟨next, hnext, hsucc⟩ := exists_next hmax
    rw [← Option.some.inj (hnext.symm.trans h), hsucc]

/-- The next date has the next ordinal. -/
theorem toordinal_of_covBy {d d' : PyDate} (h : d ⋖ d') : d'.toordinal = d.toordinal + 1 := by
  have hmax : d ≠ max := fun heq => absurd h.lt (not_lt_of_ge (heq ▸ d'.le_max))
  obtain ⟨next, -, hsucc⟩ := exists_next hmax
  rw [← (covBy_of_toordinal hsucc).unique_right h, hsucc]

end PyDate

/-! ## Aware datetimes

`datetime.datetime` in UTC. `isoformat` writes the microseconds only when there
are some, and `fromIsoformat` reads both forms back; the other forms that the
language reads are left to the runtime. -/

/-- An aware datetime in UTC. -/
structure PyDatetime where
  date : PyDate
  hour : ℕ
  minute : ℕ
  second : ℕ
  microsecond : ℕ
  hour_lt : hour < 24
  minute_lt : minute < 60
  second_lt : second < 60
  microsecond_lt : microsecond < 1000000
  deriving DecidableEq, Repr

/-- The texts of other forms, and of other offsets, that are read as a time in UTC.
Nothing is assumed of them. -/
class DatetimeForms where
  read : String → Option PyDatetime

namespace PyDatetime

/-- `datetime(...)` in UTC; `none` is `ValueError`. -/
def ofFields (date : PyDate) (hour minute second microsecond : ℕ) : Option PyDatetime :=
  if h : hour < 24 ∧ minute < 60 ∧ second < 60 ∧ microsecond < 1000000 then
    some ⟨date, hour, minute, second, microsecond, h.1, h.2.1, h.2.2.1, h.2.2.2⟩
  else none

def clockText (t : PyDatetime) : List Char :=
  PyDate.padded 2 t.hour ++ ':' :: PyDate.padded 2 t.minute ++ ':' :: PyDate.padded 2 t.second

def fractionText (t : PyDatetime) : List Char :=
  if t.microsecond = 0 then [] else '.' :: PyDate.padded 6 t.microsecond

def offsetText : List Char := ['+', '0', '0', ':', '0', '0']

/-- `t.isoformat()`. -/
def isoformat (t : PyDatetime) : String :=
  String.ofList (t.date.isoformat.toList ++ 'T' :: (t.clockText ++ (t.fractionText ++ offsetText)))

/-- The hours, minutes and seconds of a text `HH:MM:SS`. -/
def clock? : List Char → Option (ℕ × ℕ × ℕ)
  | [h₁, h₂, ':', m₁, m₂, ':', s₁, s₂] => do
      return (← PyDate.digitsValue? [h₁, h₂], ← PyDate.digitsValue? [m₁, m₂],
        ← PyDate.digitsValue? [s₁, s₂])
  | _ => none

/-- The microseconds of a text that is empty or has six digits after a point. -/
def fraction? : List Char → Option ℕ
  | [] => some 0
  | '.' :: digits => if digits.length = 6 then PyDate.digitsValue? digits else none
  | _ => none

/-- A text `YYYY-MM-DDTHH:MM:SS[.ffffff]+00:00`. -/
def ofUtcForm? [PyRuntime] (cs : List Char) : Option PyDatetime := do
  let date ← PyDate.fromIsoformat (String.ofList (cs.take 10))
  let time := cs.drop 11
  let body := time.take (time.length - 6)
  if cs[10]? = some 'T' ∧ time.drop (time.length - 6) = offsetText then
    let (hour, minute, second) ← clock? (body.take 8)
    ofFields date hour minute second (← fraction? (body.drop 8))
  else none

/-- `datetime.fromisoformat(text).astimezone(UTC)` of an aware text; `none` is
`ValueError`. -/
def fromIsoformat [PyRuntime] [DatetimeForms] (text : String) : Option PyDatetime :=
  (ofUtcForm? text.toList).orElse fun _ => DatetimeForms.read text

theorem length_padded_two {n : ℕ} (h : n < 60) : (PyDate.padded 2 n).length = 2 :=
  PyDate.length_padded (by decide) (by omega)

theorem length_clockText (t : PyDatetime) : t.clockText.length = 8 := by
  have hhour := length_padded_two (t.hour_lt.trans (by decide : 24 < 60))
  simp [clockText, hhour, length_padded_two t.minute_lt, length_padded_two t.second_lt]

theorem clock?_clockText (t : PyDatetime) :
    clock? t.clockText = some (t.hour, t.minute, t.second) := by
  have hhour := length_padded_two (t.hour_lt.trans (by decide : 24 < 60))
  obtain ⟨h₁, h₂, hh⟩ := List.length_eq_two.mp hhour
  obtain ⟨m₁, m₂, hm⟩ := List.length_eq_two.mp (length_padded_two t.minute_lt)
  obtain ⟨s₁, s₂, hs⟩ := List.length_eq_two.mp (length_padded_two t.second_lt)
  have hvalue := fun n => PyDate.digitsValue?_padded 2 n
  simp only [clockText, hh, hm, hs, List.cons_append, List.nil_append, clock?]
  rw [← hh, ← hm, ← hs, hvalue, hvalue, hvalue]
  rfl

theorem fraction?_fractionText (t : PyDatetime) :
    fraction? t.fractionText = some t.microsecond := by
  unfold fractionText
  split
  · next hzero => simp [fraction?, hzero]
  · have hlength : (PyDate.padded 6 t.microsecond).length = 6 :=
      PyDate.length_padded (by decide) (by have := t.microsecond_lt; omega)
    simp [fraction?, hlength]

theorem length_date (d : PyDate) : d.isoformat.toList.length = 10 := by
  have hyear : (PyDate.padded 4 d.year).length = 4 :=
    PyDate.length_padded (by decide) (by have := d.year_mem; omega)
  have hmonth := length_padded_two (n := d.month) (by have := d.month_mem; omega)
  have hday := length_padded_two (n := d.day) (by
    have hmem := d.day_mem
    unfold daysInMonth at hmem
    split_ifs at hmem <;> omega)
  simp [PyDate.isoformat, hyear, hmonth, hday]

theorem ofFields_self (t : PyDatetime) :
    ofFields t.date t.hour t.minute t.second t.microsecond = some t :=
  dif_pos ⟨t.hour_lt, t.minute_lt, t.second_lt, t.microsecond_lt⟩

theorem ofUtcForm?_isoformat [PyRuntime] (t : PyDatetime) :
    ofUtcForm? t.isoformat.toList = some t := by
  have hdate := length_date t.date
  have hclock := t.length_clockText
  have htext : t.isoformat.toList =
      t.date.isoformat.toList ++ 'T' :: (t.clockText ++ (t.fractionText ++ offsetText)) := by
    simp [isoformat]
  have htake : t.isoformat.toList.take 10 = t.date.isoformat.toList := by
    rw [htext, List.take_append_of_le_length hdate.ge, ← hdate, List.take_length]
  have hseparator : t.isoformat.toList[10]? = some 'T' := by
    rw [htext, List.getElem?_append_right hdate.le, hdate]
    rfl
  have htime : t.isoformat.toList.drop 11 = (t.clockText ++ t.fractionText) ++ offsetText := by
    rw [htext, List.append_assoc, List.drop_append, hdate, List.drop_eq_nil_of_le (by omega)]
    rfl
  have hlength : ((t.clockText ++ t.fractionText) ++ offsetText).length - 6 =
      (t.clockText ++ t.fractionText).length := by
    simp only [List.length_append, offsetText, List.length_cons, List.length_nil]
    omega
  have hbody : (t.clockText ++ t.fractionText).take 8 = t.clockText := by
    rw [← hclock, List.take_left]
  have hrest : (t.clockText ++ t.fractionText).drop 8 = t.fractionText := by
    rw [← hclock, List.drop_left]
  simp only [ofUtcForm?, htake, hseparator, htime, hlength, List.take_left, List.drop_left, hbody,
    hrest, clock?_clockText, fraction?_fractionText, String.ofList_toList,
    PyDate.fromIsoformat_isoformat]
  exact ofFields_self t

@[simp] theorem fromIsoformat_isoformat [PyRuntime] [DatetimeForms] (t : PyDatetime) :
    fromIsoformat t.isoformat = some t := by
  rw [fromIsoformat, ofUtcForm?_isoformat]
  rfl

end PyDatetime
