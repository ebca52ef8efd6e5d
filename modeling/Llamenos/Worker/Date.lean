import Llamenos.Lib.Text
import Mathlib.Tactic.IntervalCases

/-!
# Dates

`Date` as far as the services use it: a time value in milliseconds since the epoch, within 10⁸ days
of it, and `toISOString`, by the calendar functions of the language (`dayFromYear` and the others).
An invalid date is not a `Date` here: making its text throws.

Results:
* `yearFromDay_spec`: the year is the one whose days the day is among.
* `toISOString_injective`: **distinct times have distinct texts**.
* `exists_toISOString`: the shape of the text, between its two colons.
-/

namespace Llamenos.Worker

open Llamenos.Lib

/-! ## The calendar -/

/-- A valid date. -/
structure Date where
  getTime : Int
  valid : -8640000000000000 ≤ getTime ∧ getTime ≤ 8640000000000000
  deriving DecidableEq

/-- `new Date(time)`, if it is valid. -/
def newDate (time : Int) : Option Date :=
  if h : -8640000000000000 ≤ time ∧ time ≤ 8640000000000000 then some ⟨time, h⟩ else none

theorem getTime_newDate {time : Int} {date : Date} (h : newDate time = some date) :
    date.getTime = time := by
  unfold newDate at h
  split at h
  · rw [← Option.some.inj h]
  · cases h

/-- The number of the first day of a year. -/
def dayFromYear (y : Int) : Int :=
  365 * (y - 1970) + (y - 1969) / 4 - (y - 1901) / 100 + (y - 1601) / 400

/-- The year of a day: an estimate by the mean length of a year, off by at most one. -/
def yearFromDay (day : Int) : Int :=
  let y := 1970 + 400 * day / 146097
  if day < dayFromYear y then y - 1 else if dayFromYear (y + 1) ≤ day then y + 1 else y

/-- The days of a year beyond 365. -/
def leapDay (y : Int) : Int := if y % 4 = 0 ∧ (y % 100 ≠ 0 ∨ y % 400 = 0) then 1 else 0

/-- The day of the year that a month starts on, the months being counted from 1. -/
def monthStart (leap : Int) : Nat → Int
  | 1 => 0
  | 2 => 31
  | 3 => 59 + leap
  | 4 => 90 + leap
  | 5 => 120 + leap
  | 6 => 151 + leap
  | 7 => 181 + leap
  | 8 => 212 + leap
  | 9 => 243 + leap
  | 10 => 273 + leap
  | 11 => 304 + leap
  | 12 => 334 + leap
  | _ => 365 + leap

/-- The last of the first months that starts on or before a day of the year. -/
def monthAmong (leap dayInYear : Int) : Nat → Nat
  | 0 => 0
  | m + 1 => if monthStart leap (m + 1) ≤ dayInYear then m + 1 else monthAmong leap dayInYear m

/-- A day as its year, its month and its number in the month. -/
structure CalendarDay where
  year : Int
  month : Nat
  date : Nat

def calendarDay (day : Int) : CalendarDay :=
  let year := yearFromDay day
  let dayInYear := day - dayFromYear year
  let month := monthAmong (leapDay year) dayInYear 12
  { year, month, date := (dayInYear - monthStart (leapDay year) month + 1).toNat }

/-! ## The text -/

/-- The last decimal digits of a number, padded with zeros. -/
def padded : Nat → Nat → List Char
  | 0, _ => []
  | width + 1, n => padded width (n / 10) ++ [Nat.digitChar (n % 10)]

def yearText (y : Int) : List Char :=
  if 0 ≤ y ∧ y ≤ 9999 then padded 4 y.toNat
  else if 0 ≤ y then '+' :: padded 6 y.toNat
  else '-' :: padded 6 (-y).toNat

/-- The text up to its first colon: the day, and the hour. -/
def dayText (day : CalendarDay) (hour : Nat) : List Char :=
  yearText day.year ++ '-' :: (padded 2 day.month ++ '-' :: (padded 2 day.date ++
    'T' :: padded 2 hour))

/-- The text after its last colon. -/
def secondText (second ms : Nat) : List Char := padded 2 second ++ '.' :: (padded 3 ms ++ ['Z'])

/-- `toISOString`. -/
def toISOString (date : Date) : String :=
  let inDay := (date.getTime % 86400000).toNat
  String.ofList (dayText (calendarDay (date.getTime / 86400000)) (inDay / 3600000) ++
    ':' :: (padded 2 (inDay / 60000 % 60) ++
      ':' :: secondText (inDay / 1000 % 60) (inDay % 1000)))

/-! ## The calendar tells the day -/

theorem dayFromYear_succ (y : Int) : dayFromYear (y + 1) = dayFromYear y + 365 + leapDay y := by
  unfold dayFromYear leapDay
  split <;> omega

/-- The first day of a year, by the mean length of a year. -/
theorem dayFromYear_bounds (y : Int) :
    146097 * (y - 1970) - 400 < 400 * dayFromYear y ∧
      400 * dayFromYear y < 146097 * (y - 1970) + 800 := by
  unfold dayFromYear
  omega

/-- **The year is the one whose days the day is among.** -/
theorem yearFromDay_spec (day : Int) :
    dayFromYear (yearFromDay day) ≤ day ∧ day < dayFromYear (yearFromDay day + 1) := by
  unfold yearFromDay
  simp only
  generalize hy : 1970 + 400 * day / 146097 = y
  have hbefore := dayFromYear_bounds (y - 1)
  have hafter := dayFromYear_bounds (y + 2)
  by_cases hlow : day < dayFromYear y
  · rw [if_pos hlow, Int.sub_add_cancel]
    exact ⟨by omega, hlow⟩
  rw [if_neg hlow]
  by_cases hhigh : dayFromYear (y + 1) ≤ day
  · rw [if_pos hhigh, show y + 1 + 1 = y + 2 by omega]
    exact ⟨hhigh, by omega⟩
  · rw [if_neg hhigh]
    exact ⟨Int.not_lt.mp hlow, Int.not_le.mp hhigh⟩

theorem leapDay_cases (y : Int) : leapDay y = 0 ∨ leapDay y = 1 := by
  unfold leapDay
  split
  · exact .inr rfl
  · exact .inl rfl

/-- A month has at most 31 days. -/
theorem monthStart_succ_le {leap : Int} (hleap : leap = 0 ∨ leap = 1) {m : Nat} (hm : 0 < m)
    (hm' : m ≤ 12) : monthStart leap (m + 1) ≤ monthStart leap m + 31 := by
  interval_cases m <;> simp only [monthStart] <;> omega

/-- **The day is in its month.** -/
theorem monthAmong_spec {leap dayInYear : Int} (hstart : 0 ≤ dayInYear) {m : Nat}
    (hend : dayInYear < monthStart leap (m + 1)) (hm : 0 < m) :
    ∃ k, monthAmong leap dayInYear m = k ∧ 0 < k ∧ k ≤ m ∧ monthStart leap k ≤ dayInYear ∧
      dayInYear < monthStart leap (k + 1) := by
  induction m with
  | zero => cases hm
  | succ m ih =>
    rw [monthAmong]
    by_cases hmonth : monthStart leap (m + 1) ≤ dayInYear
    · exact ⟨m + 1, if_pos hmonth, hm, Nat.le_refl _, hmonth, hend⟩
    rw [if_neg hmonth]
    have hpos : 0 < m := by
      rcases Nat.eq_zero_or_pos m with rfl | hpos
      · exact absurd hstart hmonth
      · exact hpos
    obtain ⟨k, hk, hk₀, hkm, hin⟩ := ih (Int.not_le.mp hmonth) hpos
    exact ⟨k, hk, hk₀, Nat.le_succ_of_le hkm, hin⟩

/-- What the parts of a day are. -/
theorem calendarDay_spec (day : Int) :
    (calendarDay day).month ≤ 12 ∧ (calendarDay day).date ≤ 31 ∧
      day = dayFromYear (calendarDay day).year +
        monthStart (leapDay (calendarDay day).year) (calendarDay day).month +
        (calendarDay day).date - 1 := by
  obtain ⟨hstart, hend⟩ := yearFromDay_spec day
  rw [dayFromYear_succ] at hend
  generalize hdayInYear : day - dayFromYear (yearFromDay day) = dayInYear
  obtain ⟨month, hmonth, hpos, hle, hfirst, hlast⟩ := monthAmong_spec (m := 12)
    (show 0 ≤ dayInYear by omega) (show dayInYear < 365 + leapDay (yearFromDay day) by omega)
    (by decide)
  have hlen := monthStart_succ_le (leapDay_cases (yearFromDay day)) hpos hle
  simp only [calendarDay, hdayInYear, hmonth]
  exact ⟨hle, by omega, by omega⟩

/-- **A day is told by its parts.** -/
theorem calendarDay_injective : Function.Injective calendarDay := by
  intro day day' h
  rw [(calendarDay_spec day).2.2, (calendarDay_spec day').2.2, h]

/-- The years of valid dates. -/
theorem abs_year_lt (date : Date) :
    -1000000 < (calendarDay (date.getTime / 86400000)).year ∧
      (calendarDay (date.getTime / 86400000)).year < 1000000 := by
  have hvalid := date.valid
  have hyear := yearFromDay_spec (date.getTime / 86400000)
  have hfirst := dayFromYear_bounds (yearFromDay (date.getTime / 86400000))
  have hnext := dayFromYear_bounds (yearFromDay (date.getTime / 86400000) + 1)
  simp only [calendarDay]
  omega

/-! ## The text tells the date -/

@[simp] theorem length_padded (width n : Nat) : (padded width n).length = width := by
  induction width generalizing n with
  | zero => rfl
  | succ width ih => rw [padded, List.length_append, ih, List.length_singleton]

theorem digitChar_inj : ∀ m < 10, ∀ n < 10, Nat.digitChar m = Nat.digitChar n → m = n := by
  decide

/-- Padded digits tell a number that they have room for. -/
theorem padded_inj {width m n : Nat} (hm : m < 10 ^ width) (hn : n < 10 ^ width)
    (h : padded width m = padded width n) : m = n := by
  induction width generalizing m n with
  | zero => omega
  | succ width ih =>
    rw [Nat.pow_succ] at hm hn
    obtain ⟨hinit, hlast⟩ := List.append_inj' h rfl
    have hdiv := ih (by omega) (by omega) hinit
    have hmod := digitChar_inj (m % 10) (by omega) (n % 10) (by omega) (List.cons.inj hlast).1
    omega

theorem digitChar_isDigit : ∀ n < 10, (Nat.digitChar n).isDigit := by decide

theorem isDigit_of_mem_padded {width n : Nat} {c : Char} (h : c ∈ padded width n) : c.isDigit := by
  induction width generalizing n with
  | zero => cases h
  | succ width ih =>
    rcases List.mem_append.mp h with h | h
    · exact ih h
    · rw [List.mem_singleton.mp h]
      exact digitChar_isDigit (n % 10) (by omega)

/-- How a year is written: in four digits, or with its sign in six. -/
theorem yearText_cases (y : Int) :
    (0 ≤ y ∧ y ≤ 9999 ∧ yearText y = padded 4 y.toNat) ∨
      (9999 < y ∧ yearText y = '+' :: padded 6 y.toNat) ∨
      (y < 0 ∧ yearText y = '-' :: padded 6 (-y).toNat) := by
  unfold yearText
  by_cases hfour : 0 ≤ y ∧ y ≤ 9999
  · exact .inl ⟨hfour.1, hfour.2, if_pos hfour⟩
  by_cases hpos : 0 ≤ y
  · exact .inr (.inl ⟨by omega, by rw [if_neg hfour, if_pos hpos]⟩)
  · exact .inr (.inr ⟨by omega, by rw [if_neg hfour, if_neg hpos]⟩)

theorem yearText_inj {y z : Int} (hy : -1000000 < y ∧ y < 1000000)
    (hz : -1000000 < z ∧ z < 1000000) (h : yearText y = yearText z) : y = z := by
  have hlen := congrArg List.length h
  rcases yearText_cases y with ⟨hy₀, hy₁, hyt⟩ | ⟨hy₀, hyt⟩ | ⟨hy₀, hyt⟩ <;>
    rcases yearText_cases z with ⟨hz₀, hz₁, hzt⟩ | ⟨hz₀, hzt⟩ | ⟨hz₀, hzt⟩ <;>
    rw [hyt, hzt] at h hlen
  · have := padded_inj (by omega) (by omega) h
    omega
  · simp at hlen
  · simp at hlen
  · simp at hlen
  · have := padded_inj (by omega) (by omega) (List.cons.inj h).2
    omega
  · exact absurd (List.cons.inj h).1 (by decide)
  · simp at hlen
  · exact absurd (List.cons.inj h).1 (by decide)
  · have := padded_inj (by omega) (by omega) (List.cons.inj h).2
    omega

theorem dayText_inj {d e : CalendarDay} {hour hour' : Nat}
    (hd : -1000000 < d.year ∧ d.year < 1000000) (he : -1000000 < e.year ∧ e.year < 1000000)
    (hdm : d.month ≤ 12) (hem : e.month ≤ 12) (hdd : d.date ≤ 31) (hed : e.date ≤ 31)
    (hhour : hour < 24) (hhour' : hour' < 24) (h : dayText d hour = dayText e hour') :
    d = e ∧ hour = hour' := by
  obtain ⟨hyear, h⟩ := List.append_inj' h (by simp)
  obtain ⟨hmonth, h⟩ := List.append_inj (List.cons.inj h).2 (by simp)
  obtain ⟨hdate, h⟩ := List.append_inj (List.cons.inj h).2 (by simp)
  have hyear := yearText_inj hd he hyear
  have hmonth := padded_inj (by omega) (by omega) hmonth
  have hdate := padded_inj (by omega) (by omega) hdate
  have hhours := padded_inj (by omega) (by omega) (List.cons.inj h).2
  cases d
  cases e
  subst hyear hmonth hdate hhours
  exact ⟨rfl, rfl⟩

theorem secondText_inj {second second' ms ms' : Nat} (hsec : second < 60) (hsec' : second' < 60)
    (hms : ms < 1000) (hms' : ms' < 1000) (h : secondText second ms = secondText second' ms') :
    second = second' ∧ ms = ms' := by
  obtain ⟨hseconds, h⟩ := List.append_inj h (by simp)
  obtain ⟨hmss, -⟩ := List.append_inj (List.cons.inj h).2 (by simp)
  exact ⟨padded_inj (by omega) (by omega) hseconds, padded_inj (by omega) (by omega) hmss⟩

/-- **Distinct times have distinct texts.** -/
theorem toISOString_injective : Function.Injective toISOString := by
  intro d e h
  have hchars := String.ofList_injective h
  obtain ⟨hday, hrest⟩ := List.append_inj' hchars (by simp [secondText])
  obtain ⟨hminute, hrest⟩ := List.append_inj (List.cons.inj hrest).2 (by simp)
  obtain ⟨hmonth, hdate, -⟩ := calendarDay_spec (d.getTime / 86400000)
  obtain ⟨hmonth', hdate', -⟩ := calendarDay_spec (e.getTime / 86400000)
  obtain ⟨hday, hhour⟩ := dayText_inj (abs_year_lt d) (abs_year_lt e) hmonth hmonth' hdate hdate'
    (by omega) (by omega) hday
  have hday := calendarDay_injective hday
  have hminute := padded_inj (by omega) (by omega) hminute
  obtain ⟨hsecond, hms⟩ := secondText_inj (by omega) (by omega) (by omega) (by omega)
    (List.cons.inj hrest).2
  have htime : d.getTime = e.getTime := by omega
  cases d
  cases e
  cases htime
  rfl

/-- The characters of a date's text. -/
def isDateChar (c : Char) : Bool := c.isDigit || "+-T.Z".toList.contains c

theorem isDateChar_of_mem_padded {width n : Nat} {c : Char} (h : c ∈ padded width n) :
    isDateChar c := by
  rw [isDateChar, isDigit_of_mem_padded h, Bool.true_or]

theorem isDateChar_spec {c : Char} (h : isDateChar c) : c.toNat < 128 ∧ c ≠ ':' := by
  rcases Bool.or_eq_true_iff.mp h with h | h
  · have hdigit := isDigit_iff_toNat.mp h
    exact ⟨by omega, fun hc => by rw [hc] at hdigit; revert hdigit; decide⟩
  · have hall : "+-T.Z".toList.all (fun d => decide (d.toNat < 128 ∧ d ≠ ':')) = true := by decide
    exact of_decide_eq_true (List.all_eq_true.mp hall c (List.contains_iff_mem.mp h))

/-- No colon in what is written with the characters of dates. -/
theorem colon_not_mem_map_ascii {cs : List Char} (h : ∀ c ∈ cs, isDateChar c) :
    ascii ':' ∉ cs.map ascii := by
  intro hmem
  obtain ⟨c, hc, hcolon⟩ := List.mem_map.mp hmem
  obtain ⟨hlt, hne⟩ := isDateChar_spec (h c hc)
  have hnat := congrArg UInt8.toNat hcolon
  rw [toNat_ascii hlt, toNat_ascii (by decide)] at hnat
  exact hne (Char.toNat_inj.mp hnat)

theorem isDateChar_of_mem_yearText {y : Int} : ∀ c ∈ yearText y, isDateChar c := by
  intro c hc
  rcases yearText_cases y with ⟨-, -, h⟩ | ⟨-, h⟩ | ⟨-, h⟩ <;> rw [h] at hc
  · exact isDateChar_of_mem_padded hc
  all_goals
    rcases List.mem_cons.mp hc with rfl | hc
    · decide
    · exact isDateChar_of_mem_padded hc

theorem four_le_length_yearText (y : Int) : 4 ≤ (yearText y).length := by
  rcases yearText_cases y with ⟨-, -, h⟩ | ⟨-, h⟩ | ⟨-, h⟩ <;> simp [h]

theorem isDateChar_of_mem_dayText {day : CalendarDay} {hour : Nat} :
    ∀ c ∈ dayText day hour, isDateChar c := by
  intro c hc
  simp only [dayText, List.mem_append, List.mem_cons] at hc
  rcases hc with hc | rfl | hc | rfl | hc | rfl | hc
  · exact isDateChar_of_mem_yearText c hc
  · decide
  · exact isDateChar_of_mem_padded hc
  · decide
  · exact isDateChar_of_mem_padded hc
  · decide
  · exact isDateChar_of_mem_padded hc

/-- **The shape of a date's text**: three pieces between its two colons, of which only the first
has room for a day. -/
theorem exists_toISOString (date : Date) : ∃ day minute second : List UInt8,
    asBytes (toISOString date) =
        day ++ ascii ':' :: (minute ++ ascii ':' :: (second ++ [ascii 'Z'])) ∧
      ascii ':' ∉ day ∧ ascii ':' ∉ minute ∧ ascii ':' ∉ second ++ [ascii 'Z'] ∧
      13 ≤ day.length ∧ minute.length = 2 ∧ second.length = 6 := by
  let inDay := (date.getTime % 86400000).toNat
  let day := dayText (calendarDay (date.getTime / 86400000)) (inDay / 3600000)
  let minute := padded 2 (inDay / 60000 % 60)
  let second := padded 2 (inDay / 1000 % 60) ++ '.' :: padded 3 (inDay % 1000)
  have hday : ∀ c ∈ day, isDateChar c := isDateChar_of_mem_dayText
  have hminute : ∀ c ∈ minute, isDateChar c := fun c => isDateChar_of_mem_padded
  have hsecond : ∀ c ∈ second ++ ['Z'], isDateChar c := by
    intro c hc
    simp only [second, List.append_assoc, List.cons_append, List.mem_append, List.mem_cons,
      List.not_mem_nil, or_false] at hc
    rcases hc with hc | rfl | hc | rfl
    · exact isDateChar_of_mem_padded hc
    · decide
    · exact isDateChar_of_mem_padded hc
    · decide
  have htext : toISOString date =
      String.ofList (day ++ ':' :: (minute ++ ':' :: (second ++ ['Z']))) := by
    simp only [toISOString, secondText, day, minute, second, inDay, List.append_assoc,
      List.cons_append]
  have hascii : ∀ c ∈ day ++ ':' :: (minute ++ ':' :: (second ++ ['Z'])), c.toNat < 128 := by
    intro c hc
    simp only [List.mem_append, List.mem_cons] at hc hsecond
    rcases hc with hc | rfl | hc | rfl | hc
    · exact (isDateChar_spec (hday c hc)).1
    · decide
    · exact (isDateChar_spec (hminute c hc)).1
    · decide
    · exact (isDateChar_spec (hsecond c hc)).1
  refine ⟨day.map ascii, minute.map ascii, second.map ascii, ?_,
    colon_not_mem_map_ascii hday, colon_not_mem_map_ascii hminute, ?_, ?_, ?_, ?_⟩
  · rw [htext, asBytes_ofList hascii]
    simp only [List.map_append, List.map_cons, List.map_nil]
  · have := colon_not_mem_map_ascii hsecond
    rwa [List.map_append] at this
  · have := four_le_length_yearText (calendarDay (date.getTime / 86400000)).year
    simp only [day, dayText, List.length_map, List.length_append, List.length_cons, length_padded]
    omega
  · simp [minute]
  · simp [second]

example : toISOString ⟨1709210096789, by decide⟩ = "2024-02-29T12:34:56.789Z" := by
  decide +kernel

example : toISOString ⟨-8640000000000000, by decide⟩ = "-271821-04-20T00:00:00.000Z" := by
  decide +kernel

end Llamenos.Worker
