/-
Dates and times of day, and the text a moment is stored as.

A `DateTime` is a moment between the first of January of the year 1 and the last
microsecond of the year 9999, counted in microseconds from 1970-01-01: what the
interpreter's type of the same name can hold once it is in UTC.  The text of a
moment has every field at a fixed width, and reading that text gives the moment
back.

The year of a day comes out of a division that leaps over the leap days.  The
proof counts the day within its cycle of four hundred years by centuries, blocks
of four years, years and days, and the division finds the same years.
-/
import Evleda.Lib.Text
import Mathlib.Tactic.IntervalCases

namespace Evleda

namespace Text

/-! ### Days and dates -/

def isLeap (year : Int) : Bool := year % 4 == 0 && (year % 100 != 0 || year % 400 == 0)

def daysInMonth (year : Int) (month : Nat) : Nat :=
  if month = 2 then (if isLeap year then 29 else 28)
  else if month = 4 ∨ month = 6 ∨ month = 9 ∨ month = 11 then 30
  else 31

/-- The day, counted from 1970-01-01, of a date in the Gregorian calendar. -/
def daysFromCivil (year : Int) (month day : Nat) : Int :=
  let shifted := if month ≤ 2 then year - 1 else year
  let era := shifted / 400
  let yearOfEra := (shifted % 400).toNat
  let dayOfYear := (153 * (if month ≤ 2 then month + 9 else month - 3) + 2) / 5 + (day - 1)
  era * 146097 + (365 * yearOfEra + yearOfEra / 4 - yearOfEra / 100 + dayOfYear : Nat) - 719468

/-- A day of a cycle of four hundred years, by centuries, blocks of four years, years and days. -/
structure CycleDay (day centuries blocks years days : Nat) : Prop where
  centuries_le : centuries ≤ 3
  blocks_le : blocks ≤ 24
  years_le : years ≤ 3
  days_le : days ≤ 365
  /-- Only the last year of a block has a leap day. -/
  leapDay : days = 365 → years = 3
  /-- Only the last century of a cycle ends with one. -/
  lastDay : 1461 * blocks + 365 * years + days = 36524 → centuries = 3
  sum : day = 36524 * centuries + 1461 * blocks + 365 * years + days

theorem exists_cycleDay {day : Nat} (h : day < 146097) :
    ∃ centuries blocks years days, CycleDay day centuries blocks years days := by
  have hcentury : ∃ c r, c ≤ 3 ∧ r ≤ 36524 ∧ (r = 36524 → c = 3) ∧ day = 36524 * c + r := by
    by_cases hc : day / 36524 ≤ 3
    · exact ⟨day / 36524, day % 36524, hc, by omega, by omega, by omega⟩
    · exact ⟨3, 36524, by omega, by omega, by omega, by omega⟩
  obtain ⟨c, r, hc, hr, hlast, rfl⟩ := hcentury
  have hyear : ∃ t u, t ≤ 3 ∧ u ≤ 365 ∧ (u = 365 → t = 3) ∧ r % 1461 = 365 * t + u := by
    by_cases ht : r % 1461 / 365 ≤ 3
    · exact ⟨r % 1461 / 365, r % 1461 % 365, ht, by omega, by omega, by omega⟩
    · exact ⟨3, 365, by omega, by omega, by omega, by omega⟩
  obtain ⟨t, u, ht, hu, hleap, hsum⟩ := hyear
  exact ⟨c, r / 1461, t, u, hc, by omega, ht, hu, hleap, by omega, by omega⟩

namespace CycleDay

variable {day c q t u : Nat}

theorem year_eq (h : CycleDay day c q t u) :
    (day - day / 1460 + day / 36524 - day / 146096) / 365 = 100 * c + 4 * q + t := by
  obtain ⟨hc, hq, ht, hu, hleap, hlast, hsum⟩ := h
  by_cases hend : day = 146096
  · subst hend
    omega
  · have hcentury : day / 36524 = c := by omega
    have hcycle : day / 146096 = 0 := by omega
    -- one leap day is taken off too many from the end of a block on
    have hblocks : day / 1460 = 25 * c + q + (24 * c + q + 365 * t + u) / 1460 := by omega
    have hdays : day - day / 1460 + c =
          365 * (100 * c + 4 * q + t) + (u - (24 * c + q + 365 * t + u) / 1460) ∧
        u - (24 * c + q + 365 * t + u) / 1460 < 365 := by
      interval_cases t <;> omega
    rw [hcycle, hcentury]
    omega

theorem daysBefore_add (h : CycleDay day c q t u) :
    365 * (100 * c + 4 * q + t) + (100 * c + 4 * q + t) / 4 - (100 * c + 4 * q + t) / 100 + u =
      day := by
  obtain ⟨hc, hq, ht, hu, hleap, hlast, hsum⟩ := h
  have hfour : (100 * c + 4 * q + t) / 4 = 25 * c + q := by omega
  have hcentury : (100 * c + 4 * q + t) / 100 = c := by omega
  rw [hfour, hcentury]
  omega

end CycleDay

theorem month_day {u : Nat} (hu : u ≤ 365) :
    (5 * u + 2) / 153 ≤ 11 ∧ (153 * ((5 * u + 2) / 153) + 2) / 5 ≤ u ∧
      u - (153 * ((5 * u + 2) / 153) + 2) / 5 ≤ 30 := by
  have hmonth : (5 * u + 2) / 153 ≤ 11 := by omega
  refine ⟨hmonth, ?_⟩
  generalize hm : (5 * u + 2) / 153 = m at *
  interval_cases m <;> omega

theorem civilFromDays_eq (days : Int) : ∃ era : Int, ∃ c q t u,
    CycleDay ((days + 719468) % 146097).toNat c q t u ∧ era = (days + 719468) / 146097 ∧
    civilFromDays days =
      (if (5 * u + 2) / 153 < 10 then (100 * c + 4 * q + t : Nat) + era * 400
        else (100 * c + 4 * q + t : Nat) + era * 400 + 1,
        if (5 * u + 2) / 153 < 10 then (5 * u + 2) / 153 + 3 else (5 * u + 2) / 153 - 9,
        u - (153 * ((5 * u + 2) / 153) + 2) / 5 + 1) := by
  have hday : ((days + 719468) % 146097).toNat < 146097 := by omega
  obtain ⟨c, q, t, u, h⟩ := exists_cycleDay hday
  refine ⟨(days + 719468) / 146097, c, q, t, u, h, rfl, ?_⟩
  have hmonth := (month_day h.days_le).1
  unfold civilFromDays
  have hdays := h.daysBefore_add
  have hdayOfYear : ((days + 719468) % 146097).toNat - (365 * (100 * c + 4 * q + t) +
      (100 * c + 4 * q + t) / 4 - (100 * c + 4 * q + t) / 100) = u := by omega
  simp only [h.year_eq, hdayOfYear]
  by_cases hearly : (5 * u + 2) / 153 < 10
  · rw [if_pos hearly, if_pos hearly, if_neg (by omega)]
  · rw [if_neg hearly, if_neg hearly, if_pos (by omega)]

theorem daysFromCivil_civilFromDays (days : Int) :
    daysFromCivil (civilFromDays days).1 (civilFromDays days).2.1 (civilFromDays days).2.2 =
      days := by
  obtain ⟨era, c, q, t, u, h, hera, hcivil⟩ := civilFromDays_eq days
  obtain ⟨hmonth, hbefore, hday⟩ := month_day h.days_le
  have hyear : 100 * c + 4 * q + t < 400 := by
    have := h.centuries_le
    have := h.blocks_le
    have := h.years_le
    omega
  have hdays := h.daysBefore_add
  have hdayOfYear : (153 * ((5 * u + 2) / 153) + 2) / 5 +
      (u - (153 * ((5 * u + 2) / 153) + 2) / 5 + 1 - 1) = u := by omega
  rw [hcivil]
  unfold daysFromCivil
  by_cases hearly : (5 * u + 2) / 153 < 10
  · have hlate : ¬ (5 * u + 2) / 153 + 3 ≤ 2 := by omega
    simp only [if_pos hearly, if_neg hlate]
    have hmod : (((100 * c + 4 * q + t : Nat) + era * 400 : Int) % 400).toNat =
        100 * c + 4 * q + t := by omega
    have hdiv : ((100 * c + 4 * q + t : Nat) + era * 400 : Int) / 400 = era := by omega
    rw [hmod, hdiv]
    have hshift : (5 * u + 2) / 153 + 3 - 3 = (5 * u + 2) / 153 := by omega
    rw [hshift, hdayOfYear, hdays]
    omega
  · have hlate : (5 * u + 2) / 153 - 9 ≤ 2 := by omega
    simp only [if_neg hearly, if_pos hlate]
    have hmod : (((100 * c + 4 * q + t : Nat) + era * 400 + 1 - 1 : Int) % 400).toNat =
        100 * c + 4 * q + t := by omega
    have hdiv : ((100 * c + 4 * q + t : Nat) + era * 400 + 1 - 1 : Int) / 400 = era := by omega
    rw [hmod, hdiv]
    have hshift : (5 * u + 2) / 153 - 9 + 9 = (5 * u + 2) / 153 := by omega
    rw [hshift, hdayOfYear, hdays]
    omega

def IsDate (year : Int) (month day : Nat) : Prop :=
  1 ≤ month ∧ month ≤ 12 ∧ 1 ≤ day ∧ day ≤ daysInMonth year month

instance (year : Int) (month day : Nat) : Decidable (IsDate year month day) :=
  inferInstanceAs (Decidable (_ ∧ _))

theorem daysInMonth_le (year : Int) (month : Nat) : daysInMonth year month ≤ 31 := by
  unfold daysInMonth
  repeat' split
  all_goals omega

theorem civilFromDays_isDate (days : Int) :
    IsDate (civilFromDays days).1 (civilFromDays days).2.1 (civilFromDays days).2.2 := by
  obtain ⟨era, c, q, t, u, h, hera, hcivil⟩ := civilFromDays_eq days
  obtain ⟨hmonth, hbefore, hday⟩ := month_day h.days_le
  have hu := h.days_le
  rw [hcivil]
  unfold IsDate
  dsimp only
  refine ⟨by split <;> omega, by split <;> omega, by omega, ?_⟩
  by_cases hleap : (5 * u + 2) / 153 = 11 ∧ u = 365
  · -- the leap day: the year is the last of its block
    obtain ⟨hfeb, rfl⟩ := hleap
    have ht := h.leapDay rfl
    have hlast := h.lastDay
    have hblocks := h.blocks_le
    rw [hfeb, if_neg (by decide), if_neg (by decide)]
    have hyear : isLeap ((100 * c + 4 * q + t : Nat) + era * 400 + 1) = true := by
      unfold isLeap
      simp only [Bool.and_eq_true, Bool.or_eq_true, beq_iff_eq, bne_iff_ne, ne_eq]
      omega
    unfold daysInMonth
    rw [if_pos rfl, hyear]
    decide
  · generalize hm : (5 * u + 2) / 153 = m at *
    unfold daysInMonth
    interval_cases m
    all_goals simp
    all_goals first | omega | (split <;> omega)

/-! ### Reading the text of a moment -/

/-- `width` decimal digits. -/
def readDigits (width : Nat) (cs : List Char) : Option (Nat × List Char) :=
  if (cs.take width).length = width ∧ (cs.take width).all Char.isDigit then
    some (Nat.ofDigitChars 10 (cs.take width) 0, cs.drop width)
  else none

/-- The sign between two fields. -/
def readMark (mark : Char) : List Char → Option (List Char)
  | [] => none
  | c :: rest => if c = mark then some rest else none

theorem readMark_cons (mark : Char) (rest : List Char) : readMark mark (mark :: rest) = some rest :=
  if_pos rfl

theorem readDigits_padded {width n : Nat} (hwidth : 0 < width) (hn : n < 10 ^ width)
    (rest : List Char) : readDigits width ((padded width n).toList ++ rest) = some (n, rest) := by
  have hlength := length_padded hwidth hn
  have hdigits : (padded width n).toList.all Char.isDigit = true :=
    List.all_eq_true.mpr fun _ => isDigit_of_mem_padded
  have htake : ((padded width n).toList ++ rest).take width = (padded width n).toList := by
    rw [List.take_append_of_le_length (by omega), List.take_of_length_le (by omega)]
  have hdrop : ((padded width n).toList ++ rest).drop width = rest := by
    rw [List.drop_append_of_le_length (by omega), List.drop_of_length_le (by omega),
      List.nil_append]
  rw [readDigits, htake, hdrop, if_pos ⟨hlength, hdigits⟩, ofDigitChars_padded]

/-- 0001-01-01T00:00:00 -/
def firstMoment : Int := -62135596800000000

/-- 9999-12-31T23:59:59.999999 -/
def lastMoment : Int := 253402300799999999

theorem zero_inRange : firstMoment ≤ 0 ∧ 0 ≤ lastMoment := by decide

theorem one_inRange : firstMoment ≤ 1 ∧ 1 ≤ lastMoment := by decide

end Text

/-- A moment of the years 1 to 9999, in microseconds from 1970-01-01. -/
structure DateTime where
  instant : Int
  inRange : Text.firstMoment ≤ instant ∧ instant ≤ Text.lastMoment
  deriving DecidableEq

namespace DateTime

instance : LE DateTime := ⟨fun a b => a.instant ≤ b.instant⟩

instance : LT DateTime := ⟨fun a b => a.instant < b.instant⟩

instance (a b : DateTime) : Decidable (a ≤ b) := inferInstanceAs (Decidable (_ ≤ _))

instance (a b : DateTime) : Decidable (a < b) := inferInstanceAs (Decidable (_ < _))

/-- `t + timedelta(seconds=seconds)`, unless that is no moment. -/
def addSeconds (t : DateTime) (seconds : Int) : Option DateTime :=
  let instant := t.instant + seconds * 1000000
  if h : Text.firstMoment ≤ instant ∧ instant ≤ Text.lastMoment then some ⟨instant, h⟩ else none

/-- `isoformat(timespec="microseconds")` in UTC, without the offset. -/
def isoformat (t : DateTime) : String :=
  Text.dateTime t.instant ++ "." ++ Text.padded 6 (Text.fraction t.instant)

/-- The moment of a date and a time of day. -/
def ofFields (year month day hour minute second microsecond : Nat) : Option DateTime :=
  let instant := ((Text.daysFromCivil year month day * 86400) +
    (hour * 3600 + minute * 60 + second : Nat)) * 1000000 + microsecond
  if h : Text.firstMoment ≤ instant ∧ instant ≤ Text.lastMoment then
    if 1 ≤ year ∧ Text.IsDate year month day ∧ hour < 24 ∧ minute < 60 ∧ second < 60 then
      some ⟨instant, h⟩
    else none
  else none

/-- `fromisoformat` on a text with every field and the offset of UTC.  The shorter forms it reads
too are not what `isoformat` writes. -/
def fromisoformat (text : String) : Option DateTime := do
  let (year, cs) ← Text.readDigits 4 text.toList
  let (month, cs) ← Text.readDigits 2 (← Text.readMark '-' cs)
  let (day, cs) ← Text.readDigits 2 (← Text.readMark '-' cs)
  let (hour, cs) ← Text.readDigits 2 (← Text.readMark 'T' cs)
  let (minute, cs) ← Text.readDigits 2 (← Text.readMark ':' cs)
  let (second, cs) ← Text.readDigits 2 (← Text.readMark ':' cs)
  let (microsecond, cs) ← Text.readDigits 6 (← Text.readMark '.' cs)
  if cs = "+00:00".toList then ofFields year month day hour minute second microsecond else none

theorem year_range (t : DateTime) :
    1 ≤ (Text.civilFromDays (t.instant / 86400000000)).1 ∧
      (Text.civilFromDays (t.instant / 86400000000)).1 ≤ 9999 := by
  obtain ⟨hfirst, hlast⟩ := t.inRange
  have hlow : -719162 ≤ t.instant / 86400000000 := by
    unfold Text.firstMoment at hfirst
    omega
  have hhigh : t.instant / 86400000000 ≤ 2932896 := by
    unfold Text.lastMoment at hlast
    omega
  generalize t.instant / 86400000000 = days at *
  obtain ⟨era, c, q, u, v, h, hera, hcivil⟩ := Text.civilFromDays_eq days
  have hdays := h.daysBefore_add
  have hc := h.centuries_le
  have hq := h.blocks_le
  have hu := h.years_le
  have hv := h.days_le
  have hsum := h.sum
  rw [hcivil]
  dsimp only
  split
  · omega
  · omega

theorem joined_toList (a b c d e f g : String) (rest : List Char) :
    (a ++ "-" ++ b ++ "-" ++ c ++ "T" ++ d ++ ":" ++ e ++ ":" ++ f ++ "." ++ g).toList ++ rest =
      a.toList ++ '-' :: (b.toList ++ '-' :: (c.toList ++ 'T' :: (d.toList ++ ':' ::
        (e.toList ++ ':' :: (f.toList ++ '.' :: (g.toList ++ rest)))))) := by
  simp [String.toList_append]

/-- The fields of the text of a moment, one after the other. -/
theorem isoformat_toList (t : DateTime) (rest : List Char) :
    t.isoformat.toList ++ rest =
      let date := Text.civilFromDays (t.instant / 86400000000)
      let seconds := (t.instant % 86400000000).toNat / 1000000
      (Text.padded 4 date.1.toNat).toList ++ '-' :: ((Text.padded 2 date.2.1).toList ++ '-' ::
        ((Text.padded 2 date.2.2).toList ++ 'T' :: ((Text.padded 2 (seconds / 3600)).toList ++ ':' ::
        ((Text.padded 2 (seconds / 60 % 60)).toList ++ ':' ::
        ((Text.padded 2 (seconds % 60)).toList ++ '.' ::
        ((Text.padded 6 (Text.fraction t.instant)).toList ++ rest)))))) :=
  joined_toList _ _ _ _ _ _ _ rest

theorem ofFields_eq (t : DateTime) :
    let date := Text.civilFromDays (t.instant / 86400000000)
    let seconds := (t.instant % 86400000000).toNat / 1000000
    ofFields date.1.toNat date.2.1 date.2.2 (seconds / 3600) (seconds / 60 % 60) (seconds % 60)
      (Text.fraction t.instant) = some t := by
  intro date seconds
  have hyear : (date.1.toNat : Int) = date.1 := Int.toNat_of_nonneg (by
    have := t.year_range.1
    exact Int.le_trans (by decide) this)
  have hdays : Text.daysFromCivil date.1 date.2.1 date.2.2 = t.instant / 86400000000 :=
    Text.daysFromCivil_civilFromDays _
  have hinstant : ((t.instant / 86400000000 * 86400) +
      (seconds / 3600 * 3600 + seconds / 60 % 60 * 60 + seconds % 60 : Nat)) * 1000000 +
      (Text.fraction t.instant : Nat) = t.instant := by
    unfold Text.fraction
    omega
  have hseconds : seconds < 86400 := by omega
  unfold ofFields
  simp only [hyear, hdays, hinstant]
  rw [dif_pos t.inRange, if_pos]
  have hfirst := t.year_range.1
  refine ⟨?_, Text.civilFromDays_isDate _, by omega, by omega, by omega⟩
  have : (1 : Int) ≤ (date.1.toNat : Int) := hyear ▸ hfirst
  exact_mod_cast this

theorem fromisoformat_fields {ys ms ds hs ns ss fs : List Char}
    {year month day hour minute second microsecond : Nat}
    (hyear : ∀ rest, Text.readDigits 4 (ys ++ rest) = some (year, rest))
    (hmonth : ∀ rest, Text.readDigits 2 (ms ++ rest) = some (month, rest))
    (hday : ∀ rest, Text.readDigits 2 (ds ++ rest) = some (day, rest))
    (hhour : ∀ rest, Text.readDigits 2 (hs ++ rest) = some (hour, rest))
    (hminute : ∀ rest, Text.readDigits 2 (ns ++ rest) = some (minute, rest))
    (hsecond : ∀ rest, Text.readDigits 2 (ss ++ rest) = some (second, rest))
    (hmicrosecond : ∀ rest, Text.readDigits 6 (fs ++ rest) = some (microsecond, rest))
    {text : String} (htext : text.toList = ys ++ '-' :: (ms ++ '-' :: (ds ++ 'T' :: (hs ++ ':' ::
      (ns ++ ':' :: (ss ++ '.' :: (fs ++ "+00:00".toList)))))))
    {t : DateTime} (ht : ofFields year month day hour minute second microsecond = some t) :
    fromisoformat text = some t := by
  unfold fromisoformat
  rw [htext]
  refine Option.bind_eq_some_iff.mpr ⟨_, hyear _, ?_⟩
  refine Option.bind_eq_some_iff.mpr ⟨_, Text.readMark_cons _ _, ?_⟩
  refine Option.bind_eq_some_iff.mpr ⟨_, hmonth _, ?_⟩
  refine Option.bind_eq_some_iff.mpr ⟨_, Text.readMark_cons _ _, ?_⟩
  refine Option.bind_eq_some_iff.mpr ⟨_, hday _, ?_⟩
  refine Option.bind_eq_some_iff.mpr ⟨_, Text.readMark_cons _ _, ?_⟩
  refine Option.bind_eq_some_iff.mpr ⟨_, hhour _, ?_⟩
  refine Option.bind_eq_some_iff.mpr ⟨_, Text.readMark_cons _ _, ?_⟩
  refine Option.bind_eq_some_iff.mpr ⟨_, hminute _, ?_⟩
  refine Option.bind_eq_some_iff.mpr ⟨_, Text.readMark_cons _ _, ?_⟩
  refine Option.bind_eq_some_iff.mpr ⟨_, hsecond _, ?_⟩
  refine Option.bind_eq_some_iff.mpr ⟨_, Text.readMark_cons _ _, ?_⟩
  refine Option.bind_eq_some_iff.mpr ⟨_, hmicrosecond _, ?_⟩
  exact (if_pos rfl).trans ht

/-- **The text of a moment reads as the moment.** -/
theorem fromisoformat_isoformat (t : DateTime) :
    fromisoformat (t.isoformat ++ "+00:00") = some t := by
  have htext := isoformat_toList t "+00:00".toList
  rw [← String.toList_append] at htext
  obtain ⟨hyear, hyear'⟩ := t.year_range
  obtain ⟨hmonth, hmonth', hday, hday'⟩ := Text.civilFromDays_isDate (t.instant / 86400000000)
  have hlength := Text.daysInMonth_le (Text.civilFromDays (t.instant / 86400000000)).1
    (Text.civilFromDays (t.instant / 86400000000)).2.1
  have hfraction : Text.fraction t.instant < 10 ^ 6 := by
    unfold Text.fraction
    omega
  exact fromisoformat_fields (Text.readDigits_padded (by decide) (by omega))
    (Text.readDigits_padded (by decide) (by omega)) (Text.readDigits_padded (by decide) (by omega))
    (Text.readDigits_padded (by decide) (by omega)) (Text.readDigits_padded (by decide) (by omega))
    (Text.readDigits_padded (by decide) (by omega)) (Text.readDigits_padded (by decide) hfraction)
    htext (ofFields_eq t)

/-- Two moments with one text are one. -/
theorem isoformat_injective : Function.Injective isoformat := by
  intro a b h
  have hread := fromisoformat_isoformat a
  rw [h, fromisoformat_isoformat b] at hread
  exact (Option.some.inj hread).symm

end DateTime

end Evleda
