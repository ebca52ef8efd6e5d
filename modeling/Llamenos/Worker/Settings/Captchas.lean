import Llamenos.Lib.Runs
import Llamenos.Lib.Text

/-!
# The captchas of the calls

A caller is asked to press some digits. `storeCaptcha` stores them for the call, and `verifyCaptcha`
compares them with what the caller has pressed: it selects the challenge, deletes it, for one-time
use, and compares, if the challenge is not older than five minutes. Attempts overlap as they like.

Results:
* `oneGuess_iff_single`: no two attempts can have a guess at a challenge if no two have read it, and
  neither has come too late.
* `captchas_iff`: **there is one guess for each challenge**, however the attempts under way end,
  exactly if no attempt reads a challenge that another one has read, and is yet to delete.
-/

namespace Llamenos.Worker.Settings.Captchas

open Llamenos.Lib

def CAPTCHA_TTL_MS : Int := 5 * 60 * 1000

/-- A row of `captchas`. The challenges are numbered, as they come, so that a run can speak of
them. -/
structure Captcha where
  challenge : Nat
  expected : String
  createdAt : Int
  deriving DecidableEq

/-- `{ match, expected }`. -/
structure Result where
  isMatch : Bool
  expected : String
  deriving DecidableEq

/-- `stored` is what the attempt has selected, `now` the time of its check. -/
inductive Attempt where
  | selected (callSid digits : String) (stored : Option Captcha)
  | returned (stored : Option Captcha) (now : Int) (result : Result)
  deriving DecidableEq

structure State where
  captchas : String → Option Captcha
  challenges : Nat
  attempts : Nat → Option Attempt

inductive Event where
  | storeCaptcha (callSid expected : String) (now : Int)
  | select (a : Nat) (callSid digits : String)
  | delete (a : Nat) (now : Int)

def start : State := ⟨fun _ => none, 0, fun _ => none⟩

def expired (stored : Captcha) (now : Int) : Bool := now - stored.createdAt > CAPTCHA_TTL_MS

/-- The loop over the code units of `expected`; there is no digit after the last one. -/
def sameDigits (expected digits : List Nat) : Bool :=
  (List.range expected.length).foldl (fun isMatch i => isMatch && expected[i]? == digits[i]?)
    (expected.length == digits.length)

/-- What `verifyCaptcha` returns. -/
def result (stored : Option Captcha) (digits : String) (now : Int) : Result :=
  match stored with
  | none => ⟨false, ""⟩
  | some stored =>
    if expired stored now then ⟨false, stored.expected⟩
    else ⟨sameDigits (charCodes stored.expected) (charCodes digits), stored.expected⟩

def step (s : State) : Event → Option State
  | .storeCaptcha callSid expected now =>
    some { s with
      captchas := Function.update s.captchas callSid (some ⟨s.challenges, expected, now⟩)
      challenges := s.challenges + 1 }
  | .select a callSid digits =>
    match s.attempts a with
    | none => some { s with
        attempts := Function.update s.attempts a
          (some (.selected callSid digits (s.captchas callSid))) }
    | some _ => none
  | .delete a now =>
    match s.attempts a with
    | some (.selected callSid digits stored) => some { s with
        captchas := Function.update s.captchas callSid none
        attempts := Function.update s.attempts a
          (some (.returned stored now (result stored digits now))) }
    | _ => none

/-- The attempt has read the challenge, and is yet to delete it. -/
def Holds (s : State) (a k : Nat) : Prop :=
  ∃ callSid digits stored, s.attempts a = some (.selected callSid digits (some stored)) ∧
    stored.challenge = k

/-- The attempt has compared its digits with those of the challenge. -/
def Guessed (s : State) (a k : Nat) : Prop :=
  ∃ stored now result, s.attempts a = some (.returned (some stored) now result) ∧
    stored.challenge = k ∧ expired stored now = false

/-- At most one attempt has compared its digits with those of a challenge; each other one that has
returned has failed. -/
structure Once (s : State) : Prop where
  one : ∀ a b k, Guessed s a k → Guessed s b k → a = b
  others : ∀ a stored now result, s.attempts a = some (.returned stored now result) →
    (∀ k, ¬ Guessed s a k) → result.isMatch = false

/-- An attempt under way ends. -/
def Event.IsDelete : Event → Prop
  | .delete _ _ => True
  | .storeCaptcha _ _ _ | .select _ _ _ => False

/-- **One guess for each challenge**, whenever the attempts under way end. -/
def OneGuess (s : State) : Prop :=
  ∀ es t, (∀ e ∈ es, e.IsDelete) → Runs.run step s es = some t → Once t

/-- No other attempt that has read the challenge is yet to delete it. -/
def Alone (s : State) : Event → Prop
  | .select _ callSid _ => ∀ stored, s.captchas callSid = some stored →
      ∀ b, ¬ Holds s b stored.challenge
  | .storeCaptcha _ _ _ | .delete _ _ => True

variable {s t : State} {e : Event} {es : List Event} {a b k : Nat}

/-! ## What a step does -/
variable {now : Int}

theorem store_step {callSid expected : String}
    (h : step s (.storeCaptcha callSid expected now) = some t) :
    t.captchas = Function.update s.captchas callSid (some ⟨s.challenges, expected, now⟩) ∧
      t.challenges = s.challenges + 1 ∧ t.attempts = s.attempts := by
  rw [← Option.some.inj h]
  exact ⟨rfl, rfl, rfl⟩

theorem select_step {callSid digits : String} (h : step s (.select a callSid digits) = some t) :
    s.attempts a = none ∧ t.captchas = s.captchas ∧ t.challenges = s.challenges ∧
      t.attempts = Function.update s.attempts a
        (some (.selected callSid digits (s.captchas callSid))) := by
  simp only [step] at h
  split at h
  next ha =>
    rw [← Option.some.inj h]
    exact ⟨ha, rfl, rfl, rfl⟩
  next => cases h

theorem delete_step (h : step s (.delete a now) = some t) :
    ∃ callSid digits stored, s.attempts a = some (.selected callSid digits stored) ∧
      t.captchas = Function.update s.captchas callSid none ∧ t.challenges = s.challenges ∧
      t.attempts = Function.update s.attempts a
        (some (.returned stored now (result stored digits now))) := by
  simp only [step] at h
  split at h
  next callSid digits stored ha =>
    rw [← Option.some.inj h]
    exact ⟨callSid, digits, stored, ha, rfl, rfl, rfl⟩
  next => cases h

/-! ## What holds in every run -/

/-- The numbers of the challenges tell them apart, and a challenge that an attempt has read is
stored, if it still is, for the same call; one that an attempt has deleted is not. -/
structure Sound (s : State) : Prop where
  numbered : ∀ callSid stored, s.captchas callSid = some stored → stored.challenge < s.challenges
  distinct : ∀ callSid stored callSid' stored', s.captchas callSid = some stored →
    s.captchas callSid' = some stored' → stored.challenge = stored'.challenge → callSid = callSid'
  selected : ∀ a callSid digits stored,
    s.attempts a = some (.selected callSid digits (some stored)) →
      stored.challenge < s.challenges ∧
        ∀ callSid' stored', s.captchas callSid' = some stored' →
          stored'.challenge = stored.challenge → callSid' = callSid
  returned : ∀ a stored now result, s.attempts a = some (.returned (some stored) now result) →
    stored.challenge < s.challenges ∧
      ∀ callSid stored', s.captchas callSid = some stored' → stored'.challenge ≠ stored.challenge
  failed : ∀ a stored now result, s.attempts a = some (.returned stored now result) →
    (∀ k, ¬ Guessed s a k) → result.isMatch = false

theorem sound_start : Sound start := by
  constructor <;> intros <;> contradiction

/-- A guess is one of the attempt's own. -/
theorem guessed_congr (h : s.attempts a = t.attempts a) : Guessed s a k ↔ Guessed t a k := by
  unfold Guessed
  rw [h]

theorem holds_congr (h : s.attempts a = t.attempts a) : Holds s a k ↔ Holds t a k := by
  unfold Holds
  rw [h]

/-- What an attempt that has not compared returns. -/
theorem result_isMatch {stored : Option Captcha} {digits : String}
    (h : ∀ row, stored = some row → expired row now = true) :
    (result stored digits now).isMatch = false := by
  cases stored with
  | none => rfl
  | some row =>
    rw [result, if_pos (h row rfl)]

/-- What fails in `s` fails in `t`, for an attempt that has not moved. -/
theorem failed_of_same (hs : Sound s) (ha : t.attempts a = s.attempts a) {stored : Option Captcha}
    {result : Result} (hreturned : t.attempts a = some (.returned stored now result))
    (hnone : ∀ k, ¬ Guessed t a k) : result.isMatch = false :=
  hs.failed a stored now result (ha ▸ hreturned) fun k hguess =>
    hnone k ((guessed_congr ha).mpr hguess)

theorem sound_store {callSid expected : String} (hs : Sound s)
    (h : step s (.storeCaptcha callSid expected now) = some t) : Sound t := by
  obtain ⟨hcaptchas, hchallenges, hattempts⟩ := store_step h
  have hcases : ∀ {sid row}, t.captchas sid = some row →
      (sid = callSid ∧ row.challenge = s.challenges) ∨ s.captchas sid = some row := by
    intro sid row hrow
    rw [hcaptchas] at hrow
    rcases Runs.update_eq_some hrow with ⟨hsid, hnew⟩ | ⟨-, hold⟩
    · exact .inl ⟨hsid, by rw [← Option.some.inj hnew]⟩
    · exact .inr hold
  constructor
  case numbered =>
    intro sid row hrow
    rw [hchallenges]
    rcases hcases hrow with ⟨-, hnew⟩ | hold
    · exact hnew ▸ Nat.lt_succ_self _
    · exact Nat.lt_succ_of_lt (hs.numbered sid row hold)
  case distinct =>
    intro sid row sid' row' hrow hrow' hsame
    rcases hcases hrow with ⟨rfl, hnew⟩ | hold <;> rcases hcases hrow' with ⟨rfl, hnew'⟩ | hold'
    · rfl
    · exact absurd (hs.numbered sid' row' hold') (by omega)
    · exact absurd (hs.numbered sid row hold) (by omega)
    · exact hs.distinct sid row sid' row' hold hold' hsame
  case selected =>
    intro a sid digits row ha
    rw [hattempts] at ha
    obtain ⟨hlt, honly⟩ := hs.selected a sid digits row ha
    refine ⟨by omega, fun sid' row' hrow' hsame => ?_⟩
    rcases hcases hrow' with ⟨-, hnew⟩ | hold
    · omega
    · exact honly sid' row' hold hsame
  case returned =>
    intro a row now' result ha
    rw [hattempts] at ha
    obtain ⟨hlt, hgone⟩ := hs.returned a row now' result ha
    refine ⟨by omega, fun sid' row' hrow' => ?_⟩
    rcases hcases hrow' with ⟨-, hnew⟩ | hold
    · omega
    · exact hgone sid' row' hold
  case failed =>
    exact fun a stored now' result => failed_of_same hs (congrFun hattempts a)

theorem sound_select {c : Nat} {callSid digits : String} (hs : Sound s)
    (h : step s (.select c callSid digits) = some t) : Sound t := by
  obtain ⟨hc, hcaptchas, hchallenges, hattempts⟩ := select_step h
  constructor
  case numbered => exact hcaptchas ▸ hchallenges ▸ hs.numbered
  case distinct => exact hcaptchas ▸ hs.distinct
  case selected =>
    intro a sid digits' row ha
    rw [hattempts] at ha
    rw [hcaptchas, hchallenges]
    rcases Runs.update_eq_some ha with ⟨-, hnew⟩ | ⟨-, hold⟩
    · obtain ⟨rfl, -, hrow⟩ := Attempt.selected.inj (Option.some.inj hnew)
      exact ⟨hs.numbered _ row hrow,
        fun sid' row' hrow' hsame => hs.distinct sid' row' callSid row hrow' hrow hsame⟩
    · exact hs.selected a sid digits' row hold
  case returned =>
    intro a row now result ha
    rw [hattempts] at ha
    rw [hcaptchas, hchallenges]
    rcases Runs.update_eq_some ha with ⟨-, hnew⟩ | ⟨-, hold⟩
    · cases hnew
    · exact hs.returned a row now result hold
  case failed =>
    intro a stored now result ha
    by_cases hac : a = c
    · rw [hattempts, hac, Function.update_self] at ha
      cases ha
    · have hsame : t.attempts a = s.attempts a := by rw [hattempts, Function.update_of_ne hac]
      exact failed_of_same hs hsame ha

theorem sound_delete {c : Nat} (hs : Sound s)
    (h : step s (.delete c now) = some t) : Sound t := by
  obtain ⟨callSid, digits, stored, hc, hcaptchas, hchallenges, hattempts⟩ := delete_step h
  have hkept : ∀ {sid row}, t.captchas sid = some row →
      sid ≠ callSid ∧ s.captchas sid = some row := by
    intro sid row hrow
    rw [hcaptchas] at hrow
    rcases Runs.update_eq_some hrow with ⟨-, hnew⟩ | hold
    · cases hnew
    · exact hold
  constructor
  case numbered => exact fun sid row hrow => hchallenges ▸ hs.numbered sid row (hkept hrow).2
  case distinct =>
    exact fun sid row sid' row' hrow hrow' =>
      hs.distinct sid row sid' row' (hkept hrow).2 (hkept hrow').2
  case selected =>
    intro a sid digits' row ha
    rw [hattempts] at ha
    rw [hchallenges]
    rcases Runs.update_eq_some ha with ⟨-, hnew⟩ | ⟨-, hold⟩
    · cases hnew
    · obtain ⟨hlt, honly⟩ := hs.selected a sid digits' row hold
      exact ⟨hlt, fun sid' row' hrow' => honly sid' row' (hkept hrow').2⟩
  case returned =>
    intro a row now' result ha
    rw [hattempts] at ha
    rw [hchallenges]
    rcases Runs.update_eq_some ha with ⟨-, hnew⟩ | ⟨-, hold⟩
    · obtain ⟨rfl, -, -⟩ := Attempt.returned.inj (Option.some.inj hnew)
      obtain ⟨hlt, honly⟩ := hs.selected c callSid digits row hc
      exact ⟨hlt, fun sid' row' hrow' hsame =>
        (hkept hrow').1 (honly sid' row' (hkept hrow').2 hsame)⟩
    · obtain ⟨hlt, hgone⟩ := hs.returned a row now' result hold
      exact ⟨hlt, fun sid' row' hrow' => hgone sid' row' (hkept hrow').2⟩
  case failed =>
    intro a stored' now' result' ha hnone
    by_cases hac : a = c
    · have hmine := ha
      rw [hattempts, hac, Function.update_self] at hmine
      obtain ⟨rfl, rfl, rfl⟩ := Attempt.returned.inj (Option.some.inj hmine)
      refine result_isMatch fun row hrow => ?_
      by_contra hfresh
      rw [hrow] at ha
      exact hnone row.challenge ⟨row, now, _, ha, rfl, by simpa using hfresh⟩
    · have hsame : t.attempts a = s.attempts a := by rw [hattempts, Function.update_of_ne hac]
      exact failed_of_same hs hsame ha hnone

theorem sound_step (hs : Sound s) (h : step s e = some t) : Sound t := by
  cases e with
  | storeCaptcha callSid expected now => exact sound_store hs h
  | select c callSid digits => exact sound_select hs h
  | delete c now => exact sound_delete hs h

/-! ## The guesses -/

/-- The attempt can have a guess at the challenge, or has had it. -/
def MayGuess (s : State) (a k : Nat) : Prop := Holds s a k ∨ Guessed s a k

/-- Each challenge has been read by one attempt at most that has not come too late. -/
def Single (s : State) : Prop := ∀ a b k, MayGuess s a k → MayGuess s b k → a = b

theorem mayGuess_congr (h : s.attempts a = t.attempts a) : MayGuess s a k ↔ MayGuess t a k :=
  or_congr (holds_congr h) (guessed_congr h)

/-- The end of an attempt gives nobody a guess. -/
theorem mayGuess_of_delete (h : step s (.delete b now) = some t)
    (hmay : MayGuess t a k) : MayGuess s a k := by
  obtain ⟨callSid, digits, stored, hb, -, -, hattempts⟩ := delete_step h
  by_cases hab : a = b
  · obtain rfl := hab
    rcases hmay with ⟨sid, digits', row, ha, -⟩ | ⟨row, now', result, ha, hk, -⟩
    · rw [hattempts, Function.update_self] at ha
      cases ha
    · rw [hattempts, Function.update_self] at ha
      obtain ⟨rfl, -, -⟩ := Attempt.returned.inj (Option.some.inj ha)
      exact .inl ⟨callSid, digits, row, hb, hk⟩
  · have hsame : s.attempts a = t.attempts a := by rw [hattempts, Function.update_of_ne hab]
    exact (mayGuess_congr hsame).mpr hmay

/-- A challenge that is stored has not been guessed. -/
theorem mayGuess_stored (hs : Sound s) {callSid : String} {stored : Captcha}
    (hstored : s.captchas callSid = some stored) (h : MayGuess s a stored.challenge) :
    Holds s a stored.challenge := by
  rcases h with hholds | ⟨row, now, result, ha, hsame, -⟩
  · exact hholds
  · exact absurd hsame.symm ((hs.returned a row now result ha).2 callSid stored hstored)

/-- **An attempt that reads a challenge** is the only one that may have a guess, exactly if it is
alone. -/
theorem single_step (hs : Sound s) (hsingle : Single s) (h : step s e = some t) :
    Single t ↔ Alone s e := by
  cases e with
  | storeCaptcha callSid expected now =>
    obtain ⟨-, -, hattempts⟩ := store_step h
    refine iff_of_true (fun a b k ha hb => hsingle a b k ?_ ?_) trivial
    · exact (mayGuess_congr (congrFun hattempts a)).mp ha
    · exact (mayGuess_congr (congrFun hattempts b)).mp hb
  | delete c now =>
    refine iff_of_true (fun a b k ha hb => ?_) trivial
    exact hsingle a b k (mayGuess_of_delete h ha) (mayGuess_of_delete h hb)
  | select c callSid digits =>
    obtain ⟨hc, -, -, hattempts⟩ := select_step h
    have hmine : t.attempts c = some (.selected callSid digits (s.captchas callSid)) := by
      rw [hattempts, Function.update_self]
    have hothers : ∀ {x}, x ≠ c → t.attempts x = s.attempts x := fun hx => by
      rw [hattempts, Function.update_of_ne hx]
    constructor
    · intro hsingle' stored hstored b hb
      have hbc : b ≠ c := by
        rintro rfl
        obtain ⟨sid, digits', row, hrow, -⟩ := hb
        rw [hc] at hrow
        cases hrow
      refine hbc (hsingle' b c stored.challenge ?_ ?_)
      · exact .inl ((holds_congr (hothers hbc)).mpr hb)
      · exact .inl ⟨callSid, digits, stored, hstored ▸ hmine, rfl⟩
    · intro halone
      have hnone : ∀ {x k}, x ≠ c → MayGuess t x k → ¬ MayGuess t c k := by
        rintro x k hx hmay (⟨sid, digits', row, hrow, rfl⟩ | ⟨row, now, result, hrow, -⟩)
        · rw [hmine] at hrow
          obtain ⟨-, -, hstored⟩ := Attempt.selected.inj (Option.some.inj hrow)
          have hbefore := (mayGuess_congr (hothers hx)).mp hmay
          exact halone row hstored x (mayGuess_stored hs hstored hbefore)
        · rw [hmine] at hrow
          cases hrow
      intro a b k ha hb
      by_cases hac : a = c
      · by_cases hbc : b = c
        · rw [hac, hbc]
        · exact absurd (hac ▸ ha) (hnone hbc hb)
      · by_cases hbc : b = c
        · exact absurd (hbc ▸ hb) (hnone hac ha)
        · exact hsingle a b k ((mayGuess_congr (hothers hac)).mp ha)
            ((mayGuess_congr (hothers hbc)).mp hb)

/-- An attempt that may have a guess has it, if it ends in time. -/
theorem guessed_of_mayGuess (h : MayGuess s a k) :
    ∃ es t, (∀ e ∈ es, e.IsDelete) ∧ Runs.run step s es = some t ∧ Guessed t a k ∧
      ∀ b ≠ a, t.attempts b = s.attempts b := by
  rcases h with ⟨callSid, digits, stored, ha, hk⟩ | hguessed
  · have hfresh : expired stored stored.createdAt = false := by
      simp [expired, CAPTCHA_TTL_MS]
    obtain ⟨t, ht⟩ : ∃ t, step s (.delete a stored.createdAt) = some t := by
      simp [step, ha]
    obtain ⟨sid, digits', stored', ha', -, -, hattempts⟩ := delete_step ht
    rw [ha] at ha'
    obtain ⟨rfl, rfl, rfl⟩ := Attempt.selected.inj (Option.some.inj ha')
    have hreturned : t.attempts a = some (.returned stored stored.createdAt
        (result stored digits stored.createdAt)) := by
      rw [hattempts, Function.update_self]
    refine ⟨[.delete a stored.createdAt], t, ?_, Runs.run_cons.mpr ⟨t, ht, rfl⟩,
      ⟨stored, stored.createdAt, _, hreturned, hk, hfresh⟩, fun b hb => ?_⟩
    · exact fun e he => List.mem_singleton.mp he ▸ trivial
    · rw [hattempts, Function.update_of_ne hb]
  · exact ⟨[], s, fun e he => absurd he List.not_mem_nil, rfl, hguessed, fun b _ => rfl⟩

/-- **No two attempts have a guess at a challenge**, whenever they end, if no two may have it. -/
theorem oneGuess_iff_single (hs : Sound s) : OneGuess s ↔ Single s := by
  constructor
  · intro hone a b k ha hb
    by_contra hab
    obtain ⟨es, t, hes, ht, hguess, hothers⟩ := guessed_of_mayGuess ha
    have hb' : MayGuess t b k := (mayGuess_congr (hothers b (Ne.symm hab))).mpr hb
    obtain ⟨fs, u, hfs, hu, hguess', hothers'⟩ := guessed_of_mayGuess hb'
    refine hab ((hone (es ++ fs) u ?_ (Runs.run_append.mpr ⟨t, ht, hu⟩)).one a b k ?_ hguess')
    · exact fun e he => (List.mem_append.mp he).elim (hes e) (hfs e)
    · exact (guessed_congr (hothers' a hab)).mpr hguess
  · intro hsingle es t hes ht
    obtain ⟨hsound, hsingle'⟩ : Sound t ∧ Single t := by
      refine Runs.run_inv_along (I := fun s => Sound s ∧ Single s) (P := fun _ e => e.IsDelete)
        (fun s e s' hI he hstep => ?_) ⟨hs, hsingle⟩ (Runs.along_of_mem fun e he _ => hes e he) ht
      refine ⟨sound_step hI.1 hstep, (single_step hI.1 hI.2 hstep).mpr ?_⟩
      cases e with
      | delete a now => trivial
      | storeCaptcha callSid expected now => exact he.elim
      | select a callSid digits => exact he.elim
    exact ⟨fun a b k ha hb => hsingle' a b k (.inr ha) (.inr hb), hsound.failed⟩

/-- **There is one guess for each challenge**, at each moment of a run, exactly if no attempt reads
a challenge that another one has read, and is yet to delete. -/
theorem captchas_iff (h : Runs.run step start es = some t) :
    (∀ before after m, es = before ++ after → Runs.run step start before = some m → OneGuess m) ↔
      Runs.Along step Alone start es := by
  have hstart : OneGuess start := by
    refine (oneGuess_iff_single sound_start).mpr fun a b k ha _ => ?_
    rcases ha with ⟨_, _, _, ha, -⟩ | ⟨_, _, _, ha, -⟩
    · cases ha
    · cases ha
  refine Runs.inv_iff_along (I := Sound) (fun s e s' => sound_step) (fun s e s' hs hone hstep => ?_)
    sound_start hstart h
  rw [oneGuess_iff_single (sound_step hs hstep)]
  exact single_step hs ((oneGuess_iff_single hs).mp hone) hstep

/-- The second of two attempts, one after the other, finds no challenge. -/
theorem second_fails :
    ∃ t, Runs.run step start [.storeCaptcha "CA1" "1234" 0, .select 0 "CA1" "9999", .delete 0 1000,
        .select 1 "CA1" "1234", .delete 1 2000] = some t ∧ OneGuess t ∧
      t.attempts 1 = some (.returned none 2000 ⟨false, ""⟩) := by
  obtain ⟨t, ht⟩ : ∃ t, Runs.run step start [.storeCaptcha "CA1" "1234" 0, .select 0 "CA1" "9999",
      .delete 0 1000, .select 1 "CA1" "1234", .delete 1 2000] = some t := ⟨_, rfl⟩
  refine ⟨t, ht, (captchas_iff ht).mpr ?_ _ [] t (List.append_nil _).symm ht, ?_⟩
  · simp [Runs.Along, Alone, step, start, Holds]
  · rw [← Option.some.inj ht]
    rfl

/-- Two attempts read the challenge before either has deleted it: the first guess is wrong, the
second is right. -/
theorem two_guesses :
    ∃ t, Runs.run step start [.storeCaptcha "CA1" "1234" 0, .select 0 "CA1" "9999",
        .select 1 "CA1" "1234", .delete 0 1000, .delete 1 1000] = some t ∧
      t.attempts 0 = some (.returned (some ⟨0, "1234", 0⟩) 1000 ⟨false, "1234"⟩) ∧
      t.attempts 1 = some (.returned (some ⟨0, "1234", 0⟩) 1000 ⟨true, "1234"⟩) ∧ ¬ Once t := by
  refine ⟨_, rfl, by decide +kernel, by decide +kernel, fun honce => ?_⟩
  exact absurd (honce.one 0 1 0 ⟨_, _, _, rfl, rfl, rfl⟩ ⟨_, _, _, rfl, rfl, rfl⟩) (by decide)

end Llamenos.Worker.Settings.Captchas
