import Llamenos.Lib.Recurrence
import Llamenos.Worker.Date
import Llamenos.Worker.Runtime
import Mathlib

/-!
# Shifts

`isShiftActive` and the shift status of `ShiftsService` (`apps/worker/services/shifts.ts`). A shift
has a start and an end, as texts of the form `HH:MM`, and the days of the week it starts on. One
that does not end after it starts goes on past midnight, into the next day.

A shift here is a row as `create` makes it. An update refuses other texts as `create` does, but for
the empty one, which it lets through and which is no time.

Results:
* `textLt_iff`: the texts of times are in the order of the times.
* `isShiftActive_iff`: **a shift is active exactly in its intervals of the week**.
* `nextShift_eq`: what `getMyStatus` reports as the next shift.
* `status_right_iff`: **the next shift is right exactly if none that is skipped comes first**.
* `tonight_missed`: a user in the night of one shift, who has the next one in the evening.
-/

namespace Llamenos.Worker.Shifts

open Llamenos.Lib Llamenos.Lib.Recurrence

/-! ## Times of the day -/

/-- `/^([01]\d|2[0-3]):[0-5]\d$/`. -/
def isValidTimeFormat (time : String) : Bool :=
  match time.toList with
  | [h₁, h₂, colon, m₁, m₂] =>
    ((h₁ = '0' || h₁ = '1') && h₂.isDigit || h₁ = '2' && ('0' ≤ h₂ && h₂ ≤ '3')) &&
      colon = ':' && ('0' ≤ m₁ && m₁ ≤ '5') && m₂.isDigit
  | _ => false

/-- `a < b`, by the UTF-16 code units. -/
def textLt (a b : String) : Bool := charCodes a < charCodes b

/-- `Number` of a text of digits; no other occurs in a valid time. -/
def number (text : List Char) : Option Int :=
  if text ≠ [] ∧ text.all Char.isDigit then
    some (text.foldl (fun n c => 10 * n + (c.toNat - 48)) 0)
  else none

/-- `const [h, m] = time.split(':').map(Number)` and `h * 60 + m`; not a number if one is not. -/
def shiftMinutes (time : String) : Option Int :=
  match (time.toList.splitOn ':').map number with
  | some h :: some m :: _ => some (h * 60 + m)
  | _ => none

def getUTCDay (now : Date) : Int := (now.getTime / 86400000 + 4) % 7

def getUTCHours (now : Date) : Int := now.getTime % 86400000 / 3600000

def getUTCMinutes (now : Date) : Int := now.getTime % 3600000 / 60000

def utcTimeNow (now : Date) : String :=
  String.ofList (padStart 2 '0' (intChars (getUTCHours now)) ++
    ':' :: padStart 2 '0' (intChars (getUTCMinutes now)))

/-! ## Shifts -/

structure ServiceError where
  status : Nat
  message : String

/-- `createShiftBodySchema`, as far as it is read. -/
structure CreateShiftBody where
  id : String
  encryptedName : String
  startTime : String
  endTime : String
  days : List Int
  userPubkeys : List String
  days_valid : ∀ day ∈ days, 0 ≤ day ∧ day ≤ 6

/-- A row of `shifts`. -/
structure Shift extends CreateShiftBody where
  hubId : Option String
  startTime_valid : isValidTimeFormat startTime = true
  endTime_valid : isValidTimeFormat endTime = true

def create (hubId : String) (data : CreateShiftBody) : Except ServiceError Shift :=
  if h : isValidTimeFormat data.startTime = true ∧ isValidTimeFormat data.endTime = true then
    .ok { data with
      hubId := some hubId
      startTime_valid := h.1
      endTime_valid := h.2 }
  else .error ⟨400, "Invalid time format — expected HH:MM (00:00-23:59)"⟩

def list (shifts : List Shift) (hubId : String) : List Shift :=
  shifts.filter fun shift => shift.hubId = some hubId

def isShiftActive (shift : Shift) (currentDay : Int) (currentTime : String) : Bool :=
  if textLt shift.startTime shift.endTime then
    shift.days.contains currentDay && !textLt currentTime shift.startTime &&
      textLt currentTime shift.endTime
  else
    let prevDay := (currentDay + 6) % 7
    shift.days.contains currentDay && !textLt currentTime shift.startTime ||
      shift.days.contains prevDay && textLt currentTime shift.endTime

def getCurrentVolunteers (shifts : List Shift) (hubId : String) (now : Date) : List String :=
  (((list shifts hubId).filter fun shift =>
    isShiftActive shift (getUTCDay now) (utcTimeNow now)).flatMap fun shift =>
      shift.userPubkeys).eraseDups

/-! ## The status of a user -/

structure CurrentShift where
  id : String
  encryptedName : String
  startTime : String
  endTime : String

structure NextShift where
  id : String
  encryptedName : String
  startTime : String
  endTime : String
  day : Int
  deriving DecidableEq

structure MyStatus where
  onShift : Bool
  currentShift : Option CurrentShift
  nextShift : Option NextShift

/-- The days until the shift starts, as the loop counts them. -/
def daysAway (now : Date) (shiftMinutes day : Int) : Int :=
  let currentMinutes := getUTCHours now * 60 + getUTCMinutes now
  let away := if day - getUTCDay now < 0 then day - getUTCDay now + 7 else day - getUTCDay now
  if away = 0 ∧ shiftMinutes ≤ currentMinutes then 7 else away

def minutesAway (now : Date) (shiftMinutes day : Int) : Int :=
  daysAway now shiftMinutes day * 24 * 60 +
    (shiftMinutes - (getUTCHours now * 60 + getUTCMinutes now))

/-- The variables of the loop; no `bestMinutesAway` for `Infinity`. -/
structure Best where
  bestMinutesAway : Option Int := none
  nextShift : Option NextShift := none

/-- The body of the loop. No comparison holds of what is not a number. -/
def consider (now : Date) (currentShift : Option CurrentShift) (shift : Shift) (best : Best)
    (day : Int) : Best :=
  match shiftMinutes shift.startTime with
  | none => best
  | some minutes =>
    let away := minutesAway now minutes day
    if 0 < away ∧ best.bestMinutesAway.all (fun least => away < least) then
      if currentShift.any (fun current => shift.id = current.id) ∧ daysAway now minutes day = 0 then
        best
      else
        { bestMinutesAway := some away
          nextShift := some ⟨shift.id, shift.encryptedName, shift.startTime, shift.endTime, day⟩ }
    else best

/-- The hub's shifts of the user. -/
def myShifts (shifts : List Shift) (hubId pubkey : String) : List Shift :=
  (list shifts hubId).filter fun shift => shift.userPubkeys.contains pubkey

def activeNow (now : Date) (shift : Shift) : Bool :=
  isShiftActive shift (getUTCDay now) (utcTimeNow now)

def currentShift (mine : List Shift) (now : Date) : Option CurrentShift :=
  (mine.find? (activeNow now)).map fun shift =>
    ⟨shift.id, shift.encryptedName, shift.startTime, shift.endTime⟩

def getMyStatus (shifts : List Shift) (hubId pubkey : String) (now : Date) : MyStatus :=
  let mine := myShifts shifts hubId pubkey
  let current := currentShift mine now
  let best :=
    if 0 < mine.length then
      mine.foldl (fun best shift => shift.days.foldl (consider now current shift) best) {}
    else {}
  { onShift := current.isSome
    currentShift := current
    nextShift := best.nextShift }

/-! ## The order of times -/

section Times

variable {time time' : String} {hour minute hour' minute' : Nat} {a b : Char}

/-- The code units of `HH:MM`. -/
def clockCodes (hour minute : Nat) : List Nat :=
  [48 + hour / 10, 48 + hour % 10, 58, 48 + minute / 10, 48 + minute % 10]

/-- The text is that of the time. -/
structure Reads (time : String) (hour minute : Nat) : Prop where
  hour_lt : hour < 24
  minute_lt : minute < 60
  codes : charCodes time = clockCodes hour minute
  value : shiftMinutes time = some ((hour * 60 + minute : Nat) : Int)

/-- The number of two digits. -/
def pairValue (a b : Char) : Nat := 10 * (a.toNat - 48) + (b.toNat - 48)

theorem number_pair (ha : a.isDigit) (hb : b.isDigit) :
    number [a, b] = some (pairValue a b : Int) := by
  obtain ⟨ha', -⟩ := isDigit_iff_toNat.mp ha
  obtain ⟨hb', -⟩ := isDigit_iff_toNat.mp hb
  rw [number, if_pos ⟨by simp, by simp [ha, hb]⟩, pairValue]
  simp only [List.foldl_cons, List.foldl_nil, Option.some.injEq]
  omega

theorem ne_colon_of_isDigit (ha : a.isDigit) : a ≠ ':' := fun h => by
  rw [h] at ha
  exact absurd ha (by decide)

theorem toNat_of_pairValue (ha : a.isDigit) (hb : b.isDigit) :
    a.toNat = 48 + pairValue a b / 10 ∧ b.toNat = 48 + pairValue a b % 10 := by
  obtain ⟨ha₁, ha₂⟩ := isDigit_iff_toNat.mp ha
  obtain ⟨hb₁, hb₂⟩ := isDigit_iff_toNat.mp hb
  unfold pairValue
  omega

/-- Two digits, a colon and two digits. -/
theorem reads_digits {h₁ h₂ m₁ m₂ : Char} (hh₁ : h₁.isDigit) (hh₂ : h₂.isDigit)
    (hm₁ : m₁.isDigit) (hm₂ : m₂.isDigit) (htime : time.toList = [h₁, h₂, ':', m₁, m₂])
    (hhour : pairValue h₁ h₂ < 24) (hminute : pairValue m₁ m₂ < 60) :
    Reads time (pairValue h₁ h₂) (pairValue m₁ m₂) := by
  have hsplit : ([':'].intercalate [[h₁, h₂], [m₁, m₂]]).splitOn ':' = [[h₁, h₂], [m₁, m₂]] := by
    refine List.splitOn_intercalate ':' (fun text hmem hcolon => ?_) (by simp)
    simp only [List.mem_cons, List.not_mem_nil, or_false] at hmem
    rcases hmem with rfl | rfl <;>
      simp [(ne_colon_of_isDigit hh₁).symm, (ne_colon_of_isDigit hh₂).symm,
        (ne_colon_of_isDigit hm₁).symm, (ne_colon_of_isDigit hm₂).symm] at hcolon
  have hascii : ∀ c ∈ [h₁, h₂, ':', m₁, m₂], c.toNat < 128 := by
    have hdigit : ∀ {c : Char}, c.isDigit → c.toNat < 128 := fun hc =>
      Nat.lt_of_le_of_lt (isDigit_iff_toNat.mp hc).2 (by decide)
    simp [hdigit hh₁, hdigit hh₂, hdigit hm₁, hdigit hm₂]
  refine ⟨hhour, hminute, ?_, ?_⟩
  · rw [← String.ofList_toList (s := time), htime, charCodes_ofList hascii, clockCodes]
    obtain ⟨hh₁', hh₂'⟩ := toNat_of_pairValue hh₁ hh₂
    obtain ⟨hm₁', hm₂'⟩ := toNat_of_pairValue hm₁ hm₂
    simp only [List.map_cons, List.map_nil, ← hh₁', ← hh₂', ← hm₁', ← hm₂']
    rfl
  · rw [shiftMinutes, htime, show [h₁, h₂, ':', m₁, m₂] =
      [':'].intercalate [[h₁, h₂], [m₁, m₂]] from rfl, hsplit]
    simp only [List.map_cons, List.map_nil, number_pair hh₁ hh₂, number_pair hm₁ hm₂]
    norm_cast

/-- A valid text is that of a time. -/
theorem exists_reads (h : isValidTimeFormat time = true) :
    ∃ hour minute, Reads time hour minute := by
  unfold isValidTimeFormat at h
  split at h
  case h_2 => cases h
  case h_1 h₁ h₂ colon m₁ m₂ htime =>
    simp only [Bool.and_eq_true, Bool.or_eq_true, decide_eq_true_eq, Char.le_def,
      UInt32.le_iff_toNat_le] at h
    obtain ⟨⟨⟨hhour, rfl⟩, hm₁, hm₁'⟩, hm₂⟩ := h
    have hm₁d : m₁.isDigit := isDigit_iff_toNat.mpr ⟨hm₁, hm₁'.trans (by decide)⟩
    have hm₂n := isDigit_iff_toNat.mp hm₂
    have hminute : pairValue m₁ m₂ < 60 := by
      have : m₁.toNat ≤ 53 := hm₁'
      unfold pairValue
      omega
    rcases hhour with ⟨hh₁, hh₂⟩ | ⟨rfl, hh₂, hh₂'⟩
    · have hh₂n := isDigit_iff_toNat.mp hh₂
      have hh₁n : h₁.toNat = 48 ∨ h₁.toNat = 49 := by
        rcases hh₁ with rfl | rfl
        · exact .inl rfl
        · exact .inr rfl
      refine ⟨_, _, reads_digits (isDigit_iff_toNat.mpr ?_) hh₂ hm₁d hm₂ htime ?_ hminute⟩
      · omega
      · unfold pairValue
        omega
    · have hh₂n : h₂.toNat ≤ 51 := hh₂'
      have hh₂d : h₂.isDigit := isDigit_iff_toNat.mpr ⟨hh₂, hh₂'.trans (by decide)⟩
      refine ⟨_, _, reads_digits (by decide) hh₂d hm₁d hm₂ htime ?_ hminute⟩
      have : ('2' : Char).toNat = 50 := rfl
      unfold pairValue
      omega

/-- **The texts of times are in the order of the times.** -/
theorem textLt_iff (h : Reads time hour minute) (h' : Reads time' hour' minute') :
    textLt time time' = true ↔ hour * 60 + minute < hour' * 60 + minute' := by
  have hhour := h.hour_lt
  have hhour' := h'.hour_lt
  have hminute := h.minute_lt
  have hminute' := h'.minute_lt
  rw [textLt, h.codes, h'.codes, decide_eq_true_eq]
  simp only [clockCodes, List.cons_lt_cons_iff, List.not_lt_nil, Nat.lt_irrefl, true_and,
    false_or, and_false, or_false]
  omega

/-- The digits of a number below 100. -/
theorem padStart_two : ∀ n < 60, padStart 2 '0' (intChars (n : Nat)) =
    [Nat.digitChar (n / 10), Nat.digitChar (n % 10)] := by decide

theorem pairValue_digits : ∀ n < 60,
    pairValue (Nat.digitChar (n / 10)) (Nat.digitChar (n % 10)) = n := by decide

/-- The text of the moment is that of its time. -/
theorem reads_utcTimeNow (now : Date) :
    Reads (utcTimeNow now) (getUTCHours now).toNat (getUTCMinutes now).toNat := by
  have hhour : 0 ≤ getUTCHours now ∧ getUTCHours now < 24 := by
    unfold getUTCHours
    omega
  have hminute : 0 ≤ getUTCMinutes now ∧ getUTCMinutes now < 60 := by
    unfold getUTCMinutes
    omega
  have htime : (utcTimeNow now).toList =
      [Nat.digitChar ((getUTCHours now).toNat / 10), Nat.digitChar ((getUTCHours now).toNat % 10),
        ':', Nat.digitChar ((getUTCMinutes now).toNat / 10),
        Nat.digitChar ((getUTCMinutes now).toNat % 10)] := by
    have hh := padStart_two (getUTCHours now).toNat (by omega)
    have hm := padStart_two (getUTCMinutes now).toNat (by omega)
    rw [Int.toNat_of_nonneg hhour.1] at hh
    rw [Int.toNat_of_nonneg hminute.1] at hm
    rw [utcTimeNow, String.toList_ofList, hh, hm]
    rfl
  have hdigit : ∀ n, n < 60 → (Nat.digitChar (n / 10)).isDigit ∧
      (Nat.digitChar (n % 10)).isDigit := fun n hn =>
    ⟨digitChar_isDigit _ (by omega), digitChar_isDigit _ (by omega)⟩
  obtain ⟨hh₁, hh₂⟩ := hdigit (getUTCHours now).toNat (by omega)
  obtain ⟨hm₁, hm₂⟩ := hdigit (getUTCMinutes now).toNat (by omega)
  have hreads := reads_digits hh₁ hh₂ hm₁ hm₂ htime
  rw [pairValue_digits _ (by omega), pairValue_digits _ (by omega)] at hreads
  exact hreads (by omega) (by omega)

end Times

/-! ## The intervals of a shift -/

def WEEK_MINUTES : Int := 7 * 24 * 60

def MINUTE_MS : Int := 60 * 1000

/-- The minute of the day that the text names. -/
def minutes (time : String) : Int := (shiftMinutes time).getD 0

/-- A start of the shift on a day of the week, in minutes since the epoch, which was on a
Thursday. -/
def startMinute (shift : Shift) (day : Int) : Int := (day - 4) * 1440 + minutes shift.startTime

/-- How long the shift takes, in minutes: past midnight if it does not end after it starts. -/
def lengthMinutes (shift : Shift) : Int :=
  if minutes shift.startTime < minutes shift.endTime then
    minutes shift.endTime - minutes shift.startTime
  else minutes shift.endTime + 1440 - minutes shift.startTime

/-- The moment lies in an interval of the shift, on one of its days in some week. -/
def InInterval (shift : Shift) (now : Date) : Prop :=
  ∃ day ∈ shift.days, Covered (MINUTE_MS * WEEK_MINUTES) (MINUTE_MS * startMinute shift day)
    (MINUTE_MS * lengthMinutes shift) now.getTime

section Intervals

variable {shift : Shift} {now : Date} {time time' : String} {day : Int}

theorem Reads.minutes_eq {hour minute : Nat} (h : Reads time hour minute) :
    minutes time = ((hour * 60 + minute : Nat) : Int) := by
  rw [minutes, h.value, Option.getD_some]

theorem minutes_bounds (h : isValidTimeFormat time = true) :
    0 ≤ minutes time ∧ minutes time < 1440 := by
  obtain ⟨hour, minute, hreads⟩ := exists_reads h
  have hhour := hreads.hour_lt
  have hminute := hreads.minute_lt
  rw [hreads.minutes_eq]
  omega

theorem textLt_minutes (h : isValidTimeFormat time = true) (h' : isValidTimeFormat time' = true) :
    textLt time time' = true ↔ minutes time < minutes time' := by
  obtain ⟨hour, minute, hreads⟩ := exists_reads h
  obtain ⟨hour', minute', hreads'⟩ := exists_reads h'
  rw [textLt_iff hreads hreads', hreads.minutes_eq, hreads'.minutes_eq]
  omega

/-- The minute of the day. -/
def currentMinutes (now : Date) : Int := getUTCHours now * 60 + getUTCMinutes now

theorem currentMinutes_bounds (now : Date) : 0 ≤ currentMinutes now ∧ currentMinutes now < 1440 := by
  unfold currentMinutes getUTCHours getUTCMinutes
  omega

theorem getUTCDay_bounds (now : Date) : 0 ≤ getUTCDay now ∧ getUTCDay now ≤ 6 := by
  unfold getUTCDay
  omega

/-- The minute of the week, from the clock and from the time since the epoch. -/
theorem minuteOfWeek (now : Date) :
    (now.getTime / MINUTE_MS + 4 * 1440) % WEEK_MINUTES =
      getUTCDay now * 1440 + currentMinutes now := by
  unfold currentMinutes getUTCHours getUTCMinutes getUTCDay MINUTE_MS WEEK_MINUTES
  omega

theorem textLt_now (now : Date) (h : isValidTimeFormat time = true) :
    (textLt (utcTimeNow now) time = true ↔ currentMinutes now < minutes time) := by
  obtain ⟨hour, minute, hreads⟩ := exists_reads h
  have hhour : 0 ≤ getUTCHours now := by
    unfold getUTCHours
    omega
  have hminute : 0 ≤ getUTCMinutes now := by
    unfold getUTCMinutes
    omega
  rw [textLt_iff (reads_utcTimeNow now) hreads, hreads.minutes_eq]
  unfold currentMinutes
  omega

/-- An interval that begins on a day, by the clock. -/
theorem covered_iff_clock (hday : 0 ≤ day ∧ day ≤ 6) :
    Covered (MINUTE_MS * WEEK_MINUTES) (MINUTE_MS * startMinute shift day)
        (MINUTE_MS * lengthMinutes shift) now.getTime ↔
      if minutes shift.startTime < minutes shift.endTime then
        getUTCDay now = day ∧ minutes shift.startTime ≤ currentMinutes now ∧
          currentMinutes now < minutes shift.endTime
      else getUTCDay now = day ∧ minutes shift.startTime ≤ currentMinutes now ∨
        (getUTCDay now + 6) % 7 = day ∧ currentMinutes now < minutes shift.endTime := by
  have hstart := minutes_bounds shift.startTime_valid
  have hend := minutes_bounds shift.endTime_valid
  have hclock := currentMinutes_bounds now
  have hnow := getUTCDay_bounds now
  have hweek := minuteOfWeek now
  have hlength : lengthMinutes shift ≤ WEEK_MINUTES := by
    unfold lengthMinutes WEEK_MINUTES
    split_ifs <;> omega
  rw [covered_mul (by decide), covered_iff_emod (by decide) hlength]
  unfold startMinute lengthMinutes
  unfold WEEK_MINUTES at hweek ⊢
  generalize now.getTime / MINUTE_MS = minute at hweek ⊢
  split_ifs <;> omega

/-- **A shift is active exactly in its intervals of the week.** -/
theorem isShiftActive_iff :
    isShiftActive shift (getUTCDay now) (utcTimeNow now) = true ↔ InInterval shift now := by
  have hcovered : InInterval shift now ↔ ∃ day ∈ shift.days,
      if minutes shift.startTime < minutes shift.endTime then
        getUTCDay now = day ∧ minutes shift.startTime ≤ currentMinutes now ∧
          currentMinutes now < minutes shift.endTime
      else getUTCDay now = day ∧ minutes shift.startTime ≤ currentMinutes now ∨
        (getUTCDay now + 6) % 7 = day ∧ currentMinutes now < minutes shift.endTime :=
    exists_congr fun day => and_congr_right fun hday =>
      covered_iff_clock (shift.days_valid day hday)
  rw [hcovered, isShiftActive]
  have hstart := textLt_now now shift.startTime_valid
  have hend := textLt_now now shift.endTime_valid
  have horder := textLt_minutes shift.startTime_valid shift.endTime_valid
  by_cases h : minutes shift.startTime < minutes shift.endTime
  · simp only [horder, h, if_true, Bool.and_eq_true, List.contains_iff_mem, Bool.not_eq_true',
      ← Bool.not_eq_true, hstart, hend, not_lt]
    constructor
    · rintro ⟨⟨hday, hle⟩, hlt⟩
      exact ⟨_, hday, rfl, hle, hlt⟩
    · rintro ⟨_, hday, rfl, hle, hlt⟩
      exact ⟨⟨hday, hle⟩, hlt⟩
  · simp only [horder, h, if_false, Bool.or_eq_true, Bool.and_eq_true, List.contains_iff_mem,
      Bool.not_eq_true', ← Bool.not_eq_true, hstart, hend, not_lt]
    constructor
    · rintro (⟨hday, hle⟩ | ⟨hday, hlt⟩)
      · exact ⟨_, hday, .inl ⟨rfl, hle⟩⟩
      · exact ⟨_, hday, .inr ⟨rfl, hlt⟩⟩
    · rintro ⟨_, hday, ⟨rfl, hle⟩ | ⟨rfl, hlt⟩⟩
      · exact .inl ⟨hday, hle⟩
      · exact .inr ⟨hday, hlt⟩

end Intervals

/-! ## The next shift -/

def DAY_MS : Int := 24 * 60 * MINUTE_MS

/-- A start of one of the shifts after the moment, in the week to come. -/
structure Upcoming (mine : List Shift) (now : Date) (shift : Shift) (day start : Int) : Prop where
  mem : shift ∈ mine
  mem_days : day ∈ shift.days
  recurs : start ≡ MINUTE_MS * startMinute shift day [ZMOD MINUTE_MS * WEEK_MINUTES]
  after : now.getTime < start
  within : start ≤ now.getTime + MINUTE_MS * WEEK_MINUTES

def report (shift : Shift) (day : Int) : NextShift :=
  ⟨shift.id, shift.encryptedName, shift.startTime, shift.endTime, day⟩

/-- The report is of the earliest start in the week to come, if there is one. -/
def IsNext (mine : List Shift) (now : Date) : Option NextShift → Prop
  | none => ∀ shift day start, ¬ Upcoming mine now shift day start
  | some next => ∃ shift day start, Upcoming mine now shift day start ∧ next = report shift day ∧
      ∀ shift' day' start', Upcoming mine now shift' day' start' → start ≤ start'

/-- The loop passes over a start: it is later on the same day, and of the first of the shifts that
are active. -/
def PassedOver (mine : List Shift) (now : Date) (shift : Shift) (start : Int) : Prop :=
  (∃ current, mine.find? (activeNow now) = some current ∧ shift.id = current.id) ∧
    start / DAY_MS = now.getTime / DAY_MS

/-- A start that is passed over has another no later, which is not. -/
def NotMissed (mine : List Shift) (now : Date) : Prop :=
  ∀ shift day start, Upcoming mine now shift day start → PassedOver mine now shift start →
    ∃ shift' day' start', Upcoming mine now shift' day' start' ∧
      ¬ PassedOver mine now shift' start' ∧ start' ≤ start

section Next

variable {shift : Shift} {now : Date} {day start : Int} {mine : List Shift}
  {current : Option CurrentShift} {p : Shift × Int}

/-- The minutes that the loop counts until the shift starts on the day. -/
def away (now : Date) (p : Shift × Int) : Int := minutesAway now (minutes p.1.startTime) p.2

/-- The next start on the day. -/
def nextStart (now : Date) (p : Shift × Int) : Int :=
  MINUTE_MS * (now.getTime / MINUTE_MS + away now p)

/-- The starts of the week. -/
def candidates (mine : List Shift) : List (Shift × Int) :=
  mine.flatMap fun shift => shift.days.map fun day => (shift, day)

theorem mem_candidates : p ∈ candidates mine ↔ p.1 ∈ mine ∧ p.2 ∈ p.1.days := by
  unfold candidates
  simp only [List.mem_flatMap, List.mem_map]
  constructor
  · rintro ⟨shift, hshift, day, hday, rfl⟩
    exact ⟨hshift, hday⟩
  · rintro ⟨hshift, hday⟩
    exact ⟨p.1, hshift, p.2, hday, rfl⟩

theorem day_bounds (hp : p ∈ candidates mine) : 0 ≤ p.2 ∧ p.2 ≤ 6 :=
  p.1.days_valid p.2 (mem_candidates.mp hp).2

/-- The loop counts the minutes to the next recurrence. -/
theorem next_eq_away (hday : 0 ≤ p.2 ∧ p.2 ≤ 6) :
    next WEEK_MINUTES (startMinute p.1 p.2) (now.getTime / MINUTE_MS) =
      now.getTime / MINUTE_MS + away now p := by
  have hstart := minutes_bounds p.1.startTime_valid
  have hclock := currentMinutes_bounds now
  have hnow := getUTCDay_bounds now
  have hweek := minuteOfWeek now
  unfold next away minutesAway daysAway startMinute
  unfold WEEK_MINUTES at hweek ⊢
  unfold currentMinutes at hclock hweek
  dsimp only
  generalize now.getTime / MINUTE_MS = minute at hweek ⊢
  split_ifs <;> omega

theorem away_pos (hday : 0 ≤ p.2 ∧ p.2 ≤ 6) : 0 < away now p := by
  have : now.getTime / MINUTE_MS <
      next WEEK_MINUTES (startMinute p.1 p.2) (now.getTime / MINUTE_MS) := lt_next (by decide)
  rw [next_eq_away hday] at this
  omega

/-- **The starts to come are those that the loop counts.** -/
theorem upcoming_iff : Upcoming mine now shift day start ↔
    (shift, day) ∈ candidates mine ∧ nextStart now (shift, day) = start := by
  have hnext (hday : 0 ≤ day ∧ day ≤ 6) :
      next (MINUTE_MS * WEEK_MINUTES) (MINUTE_MS * startMinute shift day) now.getTime =
        nextStart now (shift, day) := by
    rw [next_mul (by decide) (by decide), nextStart, ← next_eq_away (p := (shift, day)) hday]
  constructor
  · rintro ⟨hmem, hday, hrecurs, hafter, hwithin⟩
    refine ⟨mem_candidates.mpr ⟨hmem, hday⟩, ?_⟩
    rw [← hnext (shift.days_valid day hday)]
    exact (next_eq_iff (by decide)).mpr ⟨hrecurs, hafter, hwithin⟩
  · rintro ⟨hp, rfl⟩
    obtain ⟨hmem, hday⟩ := mem_candidates.mp hp
    obtain ⟨hrecurs, hafter, hwithin⟩ :=
      (next_eq_iff (by decide)).mp (hnext (shift.days_valid day hday))
    exact ⟨hmem, hday, hrecurs, hafter, hwithin⟩

theorem nextStart_le_iff {q : Shift × Int} :
    nextStart now p ≤ nextStart now q ↔ away now p ≤ away now q := by
  unfold nextStart MINUTE_MS
  omega

/-- The starts that the loop passes over. -/
def passes (now : Date) (current : Option CurrentShift) (p : Shift × Int) : Bool :=
  current.any (fun current => p.1.id = current.id) &&
    daysAway now (minutes p.1.startTime) p.2 = 0

/-- The starts of the user's shifts that the loop does not pass over. -/
def kept (mine : List Shift) (now : Date) : List (Shift × Int) :=
  (candidates mine).filter fun p => !passes now (currentShift mine now) p

theorem mem_kept : p ∈ kept mine now ↔
    p ∈ candidates mine ∧ passes now (currentShift mine now) p = false := by
  rw [kept, List.mem_filter, Bool.not_eq_true']

theorem passes_iff (hday : 0 ≤ p.2 ∧ p.2 ≤ 6) :
    passes now (currentShift mine now) p = true ↔ PassedOver mine now p.1 (nextStart now p) := by
  have hsame : daysAway now (minutes p.1.startTime) p.2 = 0 ↔
      nextStart now p / DAY_MS = now.getTime / DAY_MS := by
    have hstart := minutes_bounds p.1.startTime_valid
    unfold nextStart away minutesAway daysAway getUTCHours getUTCMinutes getUTCDay DAY_MS MINUTE_MS
    dsimp only
    split_ifs <;> omega
  rw [passes, PassedOver, Bool.and_eq_true, decide_eq_true_eq, hsame, currentShift]
  cases mine.find? (activeNow now) <;> simp

/-- The variables of the loop, from the start that it has kept. -/
def view (now : Date) (best : Option (Shift × Int)) : Best :=
  { bestMinutesAway := best.map (away now)
    nextShift := best.map fun p => report p.1 p.2 }

/-- One round of the loop. -/
theorem consider_view (best : Option (Shift × Int)) (hday : 0 ≤ p.2 ∧ p.2 ≤ 6) :
    consider now current p.1 (view now best) p.2 =
      view now (if !passes now current p then keepLeast (away now) best p else best) := by
  obtain ⟨hour, minute, hreads⟩ := exists_reads p.1.startTime_valid
  have hminutes : shiftMinutes p.1.startTime = some (minutes p.1.startTime) := by
    rw [hreads.minutes_eq, hreads.value]
  have haway : 0 < minutesAway now (minutes p.1.startTime) p.2 := away_pos hday
  have hpasses : passes now current p = true ↔
      current.any (fun current => p.1.id = current.id) = true ∧
        daysAway now (minutes p.1.startTime) p.2 = 0 := by
    rw [passes, Bool.and_eq_true, decide_eq_true_eq]
  rw [consider, hminutes]
  dsimp only
  simp only [haway, true_and, ← hpasses]
  cases hpass : passes now current p with
  | true =>
    simp only [if_true, ite_self, Bool.not_true, Bool.false_eq_true, if_false]
  | false =>
    simp only [Bool.false_eq_true, if_false, Bool.not_false, if_true]
    cases best with
    | none => rfl
    | some b =>
      have hall : (view now (some b)).bestMinutesAway.all (fun least =>
          minutesAway now (minutes p.1.startTime) p.2 < least) = true ↔ away now p < away now b :=
        decide_eq_true_iff
      simp only [hall, keepLeast]
      split_ifs <;> rfl

/-- **What is reported as the next shift**: the first of the least starts that are not passed
over. -/
theorem foldl_consider (mine : List Shift) :
    mine.foldl (fun best shift => shift.days.foldl (consider now current shift) best) {} =
      view now (((candidates mine).filter fun p => !passes now current p).argmin (away now)) := by
  have hloop : ∀ (l : List (Shift × Int)) (best : Option (Shift × Int)),
      (∀ p ∈ l, 0 ≤ p.2 ∧ p.2 ≤ 6) →
      l.foldl (fun best p => consider now current p.1 best p.2) (view now best) =
        view now ((l.filter fun p => !passes now current p).foldl (keepLeast (away now)) best) := by
    intro l
    induction l with
    | nil => exact fun _ _ => rfl
    | cons p l ih =>
      intro best hl
      rw [List.foldl_cons, consider_view best (hl p List.mem_cons_self),
        ih _ fun q hq => hl q (List.mem_cons_of_mem p hq), List.filter_cons]
      split_ifs <;> rfl
  have hpairs : mine.foldl (fun best shift => shift.days.foldl (consider now current shift) best)
      (view now none) =
        (candidates mine).foldl (fun best p => consider now current p.1 best p.2)
          (view now none) := by
    simp only [candidates, List.foldl_flatMap, List.foldl_map]
  rw [← foldl_keepLeast, ← hloop (candidates mine) none fun p hp => day_bounds hp]
  exact hpairs

theorem nextShift_eq (shifts : List Shift) (hubId pubkey : String) :
    (getMyStatus shifts hubId pubkey now).nextShift =
      ((kept (myShifts shifts hubId pubkey) now).argmin (away now)).map fun p =>
        report p.1 p.2 := by
  rw [getMyStatus]
  dsimp only
  split_ifs with hmine
  · rw [foldl_consider, view, kept]
  · have hnil : myShifts shifts hubId pubkey = [] := by
      rwa [List.length_pos_iff, not_not] at hmine
    rw [hnil]
    rfl

/-- Equal reports are of equal starts. -/
theorem away_of_report {q : Shift × Int} (h : report p.1 p.2 = report q.1 q.2) :
    away now p = away now q := by
  obtain ⟨-, -, hstart, -, hday⟩ := NextShift.mk.inj h
  rw [away, away, hstart, hday]

/-- The same, as the loop counts. -/
theorem notMissed_iff : NotMissed mine now ↔
    ∀ p ∈ candidates mine, passes now (currentShift mine now) p = true →
      ∃ q ∈ kept mine now, away now q ≤ away now p := by
  simp only [NotMissed, upcoming_iff, mem_kept]
  constructor
  · intro h p hp hpass
    obtain ⟨shift, day, _, ⟨hq, rfl⟩, hnot, hle⟩ :=
      h p.1 p.2 _ ⟨hp, rfl⟩ ((passes_iff (day_bounds hp)).mp hpass)
    refine ⟨(shift, day), ⟨hq, ?_⟩, nextStart_le_iff.mp hle⟩
    rwa [← passes_iff (day_bounds hq), Bool.not_eq_true] at hnot
  · rintro h shift day _ ⟨hp, rfl⟩ hpass
    obtain ⟨q, ⟨hq, hnot⟩, hle⟩ := h (shift, day) hp ((passes_iff (day_bounds hp)).mpr hpass)
    refine ⟨q.1, q.2, _, ⟨hq, rfl⟩, ?_, nextStart_le_iff.mpr hle⟩
    rw [← passes_iff (day_bounds hq), hnot]
    exact Bool.false_ne_true

/-- The report of the least of the starts that are not passed over is right if that comes no later
than those that are. -/
theorem isNext_iff :
    IsNext mine now (((kept mine now).argmin (away now)).map fun p => report p.1 p.2) ↔
      NotMissed mine now := by
  rw [notMissed_iff]
  cases hleast : (kept mine now).argmin (away now) with
  | none =>
    have hempty := List.argmin_eq_none.mp hleast
    simp only [hempty, Option.map_none, IsNext, upcoming_iff, List.not_mem_nil, false_and,
      exists_false, imp_false, Bool.not_eq_true]
    constructor
    · intro h p hp
      exact absurd ⟨hp, rfl⟩ (h p.1 p.2 _)
    · rintro h shift day start ⟨hp, -⟩
      have hmem : (shift, day) ∈ kept mine now := mem_kept.mpr ⟨hp, h _ hp⟩
      rw [hempty] at hmem
      cases hmem
  | some r =>
    have hr := List.argmin_mem hleast
    have hmin : ∀ q ∈ kept mine now, away now r ≤ away now q := fun q hq =>
      List.le_of_mem_argmin hq hleast
    simp only [Option.map_some, IsNext, upcoming_iff]
    constructor
    · rintro ⟨shift, day, _, ⟨hp, rfl⟩, hreport, hearliest⟩ q hq -
      refine ⟨r, hr, ?_⟩
      rw [away_of_report (q := (shift, day)) hreport]
      exact nextStart_le_iff.mp (hearliest q.1 q.2 _ ⟨hq, rfl⟩)
    · intro h
      refine ⟨r.1, r.2, _, ⟨(mem_kept.mp hr).1, rfl⟩, rfl, ?_⟩
      rintro shift day _ ⟨hq, rfl⟩
      refine nextStart_le_iff.mpr ?_
      cases hpass : passes now (currentShift mine now) (shift, day) with
      | true =>
        obtain ⟨q, hkept, hle⟩ := h (shift, day) hq hpass
        exact (hmin q hkept).trans hle
      | false => exact hmin _ (mem_kept.mpr ⟨hq, hpass⟩)

/-- **The shifts are active in their intervals, and the next shift is right exactly if none that is
passed over comes first.** -/
theorem status_right_iff (shifts : List Shift) (hubId pubkey : String) (now : Date) :
    ((∀ shift : Shift,
        isShiftActive shift (getUTCDay now) (utcTimeNow now) = true ↔ InInterval shift now) ∧
      IsNext (myShifts shifts hubId pubkey) now (getMyStatus shifts hubId pubkey now).nextShift) ↔
      NotMissed (myShifts shifts hubId pubkey) now := by
  rw [nextShift_eq, isNext_iff]
  exact and_iff_right fun shift => isShiftActive_iff

/-- From Friday and from Saturday, 22:00, to the next morning. -/
def nights : Shift where
  id := "night"
  encryptedName := "…"
  startTime := "22:00"
  endTime := "06:00"
  days := [5, 6]
  userPubkeys := ["amy"]
  days_valid := by decide
  hubId := some "hub"
  startTime_valid := by decide
  endTime_valid := by decide

/-- A Saturday, 03:00. -/
def saturday : Date := ⟨(2 * 24 + 3) * 60 * 60 * 1000, by decide⟩

/-- **The shift of the same evening is missed**: in the night from Friday to Saturday, the one
reported is that of the next Friday. -/
theorem tonight_missed :
    (getMyStatus [nights] "hub" "amy" saturday).nextShift =
        some ⟨"night", "…", "22:00", "06:00", 5⟩ ∧
      ¬ ((∀ shift : Shift, isShiftActive shift (getUTCDay saturday) (utcTimeNow saturday) = true ↔
          InInterval shift saturday) ∧
        IsNext (myShifts [nights] "hub" "amy") saturday
          (getMyStatus [nights] "hub" "amy" saturday).nextShift) := by
  refine ⟨by decide +kernel, fun h => ?_⟩
  have hnext := h.2
  rw [nextShift_eq, isNext_iff, notMissed_iff] at hnext
  exact absurd hnext (by decide +kernel)

end Next

end Llamenos.Worker.Shifts
