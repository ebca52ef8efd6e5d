import Llamenos.Lib.Runs
import Mathlib.Data.Rat.Floor
import Mathlib.Tactic.Linarith
import Mathlib.Tactic.GCongr

/-!
# The token bucket

`TokenBucketRateLimiter` of `apps/worker/lib/rate-limiter.ts`, with exact token amounts. A caller
of `waitForToken` that finds no token is suspended until a timer fires, refills then, and takes a
token.

A run is any interleaving of `tryConsume`, `waitForToken`, `availableTokens` and the timers of the
suspended callers. Readings of the clock do not decrease, and a timer does not fire early; where
no tokens are added, the wait is infinite and its timer does not fire.

A caller that resumes takes a token without asking whether there is one. Two callers that wait for
the same token both take it.

Results:
* `step_tokens`: what a step takes out is bounded by what was there and what came in.
* `grants_le`: **grants in a window**, as long as no token is taken that is not there.
* `limited_iff`: **a run keeps to the rate exactly if every caller that resumes finds a token**.
-/

namespace Llamenos.Worker.RateLimiter

open Llamenos.Lib

/-! ## The code -/

/-- The fields that do not change. -/
structure Config where
  tokensPerSecond : ℚ
  maxTokens : ℚ

structure TokenBucket where
  tokens : ℚ
  lastRefill : Int
  deriving DecidableEq

variable (c : Config)

/-- The constructor, with `Date.now()` at `now`. -/
def create (now : Int) : TokenBucket := ⟨c.maxTokens, now⟩

def refill (now : Int) (b : TokenBucket) : TokenBucket :=
  let elapsedMs : ℚ := now - b.lastRefill
  let tokensToAdd := elapsedMs / 1000 * c.tokensPerSecond
  ⟨min c.maxTokens (b.tokens + tokensToAdd), now⟩

/-- `tryConsume`, with its result. -/
def tryConsume (now : Int) (b : TokenBucket) : TokenBucket × Bool :=
  let b := refill c now b
  if 1 ≤ b.tokens then ({ b with tokens := b.tokens - 1 }, true) else (b, false)

/-- The milliseconds until the next token; `none` for an infinite wait. -/
def waitMs (b : TokenBucket) : Option Int :=
  let deficit := 1 - b.tokens
  if c.tokensPerSecond = 0 then none else some ⌈deficit / c.tokensPerSecond * 1000⌉

/-- `waitForToken` up to its timer, with the wait; it returns at once if there is a token. -/
def waitForToken (now : Int) (b : TokenBucket) : TokenBucket × Option (Option Int) :=
  let b := refill c now b
  if 1 ≤ b.tokens then ({ b with tokens := b.tokens - 1 }, none) else (b, some (waitMs c b))

/-- `waitForToken` after its timer. -/
def takeToken (now : Int) (b : TokenBucket) : TokenBucket :=
  let b := refill c now b
  { b with tokens := b.tokens - 1 }

/-- `availableTokens`, with its result. -/
def availableTokens (now : Int) (b : TokenBucket) : TokenBucket × Int :=
  let b := refill c now b
  (b, ⌊b.tokens⌋)

/-! ## Runs -/

/-- A suspended caller of `waitForToken`, and when its timer fires at the earliest. -/
structure Waiter where
  id : Nat
  due : Option Int
  deriving DecidableEq

structure System where
  bucket : TokenBucket
  waiting : List Waiter := []
  deriving DecidableEq

inductive Event where
  | tryConsume (now : Int)
  | waitForToken (id : Nat) (now : Int)
  | resume (id : Nat) (now : Int)
  | availableTokens (now : Int)

namespace Event

/-- The reading of the clock. -/
def now : Event → Int
  | tryConsume now => now
  | waitForToken _ now => now
  | resume _ now => now
  | availableTokens now => now

end Event

/-- The timer of a waiter has fired. -/
def fired (now : Int) (w : Waiter) : Bool := w.due.any fun due => decide (due ≤ now)

/-- What an event does, at a reading of the clock not before the last one. -/
def act (s : System) : Event → Option System
  | .tryConsume now => some { s with bucket := (tryConsume c now s.bucket).1 }
  | .waitForToken id now =>
    match waitForToken c now s.bucket with
    | (b, none) => some { s with bucket := b }
    | (b, some ms) => some ⟨b, ⟨id, ms.map fun ms => now + ms⟩ :: s.waiting⟩
  | .resume id now =>
    match s.waiting.find? fun w => w.id = id && fired now w with
    | none => none
    | some w => some ⟨takeToken c now s.bucket, s.waiting.erase w⟩
  | .availableTokens now => some { s with bucket := (availableTokens c now s.bucket).1 }

def step (s : System) (e : Event) : Option System :=
  if s.bucket.lastRefill ≤ e.now then act c s e else none

/-- The times at which an event grants a token. -/
def grants (s : System) : Event → List Int
  | .tryConsume now => if (tryConsume c now s.bucket).2 then [now] else []
  | .waitForToken _ now => if (waitForToken c now s.bucket).2 = none then [now] else []
  | .resume _ now => [now]
  | .availableTokens _ => []

def inWindow (a T : ℚ) (t : Int) : Bool := decide (a ≤ (t : ℚ)) && decide ((t : ℚ) ≤ a + T)

/-- The grants of a run in a window of `T` milliseconds. -/
def grantsIn (s : System) (events : List Event) (a T : ℚ) : List Int :=
  (Runs.emitted (step c) (grants c) s events).filter (inWindow a T)

/-- **Keeping to the rate**: the tokens are never negative, and no window has more grants than a
full bucket and the tokens added in it. -/
structure Limited (start : Int) (events : List Event) : Prop where
  nonneg : ∀ before after s, events = before ++ after →
    Runs.run (step c) ⟨create c start, []⟩ before = some s → 0 ≤ s.bucket.tokens
  window : ∀ a T : ℚ, 0 ≤ T →
    ((grantsIn c ⟨create c start, []⟩ events a T).length : ℚ) ≤
      c.maxTokens + c.tokensPerSecond * (T / 1000)

/-- A caller that resumes finds a token. -/
def TokenThere (s : System) : Event → Prop
  | .resume _ now => 1 ≤ (refill c now s.bucket).tokens
  | .tryConsume _ | .waitForToken _ _ | .availableTokens _ => True

instance (s : System) (e : Event) : Decidable (TokenThere c s e) := by
  unfold TokenThere
  split <;> infer_instance

variable {c}

/-! ## One step -/

theorem refill_le_max (now : Int) (b : TokenBucket) : (refill c now b).tokens ≤ c.maxTokens :=
  min_le_left _ _

theorem refill_le (now : Int) (b : TokenBucket) : (refill c now b).tokens ≤
    b.tokens + c.tokensPerSecond * (((now : ℚ) - b.lastRefill) / 1000) := by
  refine (min_le_right _ _).trans ?_
  rw [mul_comm]

theorem refill_nonneg (hrate : 0 ≤ c.tokensPerSecond) (hmax : 0 ≤ c.maxTokens) {now : Int}
    {b : TokenBucket} (hb : 0 ≤ b.tokens) (hnow : b.lastRefill ≤ now) :
    0 ≤ (refill c now b).tokens := by
  have helapsed : (0 : ℚ) ≤ (now : ℚ) - b.lastRefill := sub_nonneg.mpr (by exact_mod_cast hnow)
  exact le_min hmax (add_nonneg hb (mul_nonneg (div_nonneg helapsed (by norm_num)) hrate))

/-- **A step refills the bucket and takes out what it grants.** -/
theorem step_tokens {s s' : System} {e : Event} (h : step c s e = some s') :
    s.bucket.lastRefill ≤ e.now ∧ s'.bucket.lastRefill = e.now ∧
      s'.bucket.tokens + (grants c s e).length = (refill c e.now s.bucket).tokens ∧
      ∀ t ∈ grants c s e, t = e.now := by
  obtain ⟨hnow, h⟩ := Option.ite_none_right_eq_some.mp h
  refine ⟨hnow, ?_⟩
  cases e with
  | tryConsume now =>
    cases h
    unfold grants tryConsume
    dsimp only
    split
    · exact ⟨rfl, by simp [Event.now], by simp [Event.now]⟩
    · exact ⟨rfl, by simp [Event.now], by simp⟩
  | waitForToken id now =>
    unfold act waitForToken at h
    unfold grants waitForToken
    dsimp only at h ⊢
    by_cases hone : 1 ≤ (refill c now s.bucket).tokens
    · rw [if_pos hone] at h ⊢
      cases h
      exact ⟨rfl, by simp [Event.now], by simp [Event.now]⟩
    · rw [if_neg hone] at h ⊢
      cases h
      exact ⟨rfl, by simp [Event.now], by simp⟩
  | resume id now =>
    unfold act at h
    dsimp only at h
    split at h
    · cases h
    · cases h
      exact ⟨rfl, by simp [grants, takeToken, Event.now], by simp [grants, Event.now]⟩
  | availableTokens now =>
    cases h
    exact ⟨rfl, by simp [grants, availableTokens, Event.now], by simp [grants]⟩

/-- A caller that comes is granted a token exactly if there is one. -/
theorem grants_tryConsume (s : System) (now : Int) : grants c s (.tryConsume now) =
    if 1 ≤ (refill c now s.bucket).tokens then [now] else [] := by
  unfold grants tryConsume
  by_cases hone : 1 ≤ (refill c now s.bucket).tokens
  · simp [hone]
  · simp [hone]

theorem grants_waitForToken (s : System) (id : Nat) (now : Int) :
    grants c s (.waitForToken id now) =
      if 1 ≤ (refill c now s.bucket).tokens then [now] else [] := by
  unfold grants waitForToken
  by_cases hone : 1 ≤ (refill c now s.bucket).tokens
  · simp [hone]
  · simp [hone]

theorem sub_length_nonneg {q : ℚ} (hq : 0 ≤ q) (now : Int) :
    0 ≤ q - (if 1 ≤ q then [now] else []).length := by
  split
  · rw [List.length_singleton, Nat.cast_one]
    linarith
  · rw [List.length_nil, Nat.cast_zero]
    linarith

/-- **A step leaves no debt exactly if a caller that resumes finds a token.** -/
theorem step_nonneg_iff (hrate : 0 ≤ c.tokensPerSecond) (hmax : 0 ≤ c.maxTokens) {s s' : System}
    {e : Event} (hs : 0 ≤ s.bucket.tokens) (h : step c s e = some s') :
    0 ≤ s'.bucket.tokens ↔ TokenThere c s e := by
  obtain ⟨hnow, -, htokens, -⟩ := step_tokens h
  have hrefill := refill_nonneg hrate hmax hs hnow
  rw [← eq_sub_iff_add_eq] at htokens
  rw [htokens]
  cases e with
  | tryConsume now =>
    rw [grants_tryConsume]
    exact iff_of_true (sub_length_nonneg hrefill now) trivial
  | waitForToken id now =>
    rw [grants_waitForToken]
    exact iff_of_true (sub_length_nonneg hrefill now) trivial
  | resume id now =>
    simp only [grants, List.length_singleton, Nat.cast_one, sub_nonneg]
    exact Iff.rfl
  | availableTokens now =>
    refine iff_of_true ?_ trivial
    simpa [grants] using hrefill

/-! ## Windows -/

theorem filter_grants_eq_nil {s s' : System} {e : Event} (h : step c s e = some s')
    {p : Int → Bool} (hp : p e.now = false) : (grants c s e).filter p = [] := by
  refine List.filter_eq_nil_iff.mpr fun g hg => ?_
  rw [(step_tokens h).2.2.2 g hg, hp]
  exact Bool.false_ne_true

variable {events : List Event}

/-- Every grant of a run comes after its start. -/
theorem le_of_mem_emitted {s t : System}
    (h : Runs.run (step c) s events = some t) :
    ∀ g ∈ Runs.emitted (step c) (grants c) s events, s.bucket.lastRefill ≤ g := by
  induction events generalizing s with
  | nil =>
    intro g hg
    cases hg
  | cons e events ih =>
    obtain ⟨s', he, hevents⟩ := Runs.run_cons.mp h
    obtain ⟨hnow, hlast, -, hgrants⟩ := step_tokens he
    intro g hg
    rw [Runs.emitted, he] at hg
    rcases List.mem_append.mp hg with hg | hg
    · rw [hgrants g hg]
      exact hnow
    · exact hnow.trans (hlast ▸ ih hevents g hg)

/-- So a window that ends before the run starts has none of its grants. -/
theorem filter_emitted_eq_nil {s t : System}
    (h : Runs.run (step c) s events = some t) {p : Int → Bool}
    (hp : ∀ g, s.bucket.lastRefill ≤ g → p g = false) :
    (Runs.emitted (step c) (grants c) s events).filter p = [] := by
  refine List.filter_eq_nil_iff.mpr fun g hg => ?_
  rw [hp g (le_of_mem_emitted h g hg)]
  exact Bool.false_ne_true

theorem length_filter_grants_le (s : System) (e : Event) (p : Int → Bool) :
    (((grants c s e).filter p).length : ℚ) ≤ (grants c s e).length := by
  exact_mod_cast List.length_filter_le _ _

/-- Up to a time, a run grants at most the tokens it starts with and those added since. -/
theorem grants_until_le (hrate : 0 ≤ c.tokensPerSecond) {s t : System}
    (h : Runs.run (step c) s events = some t)
    (hnonneg : ∀ before after u, events = before ++ after →
      Runs.run (step c) s before = some u → 0 ≤ u.bucket.tokens)
    {b : ℚ} (hb : (s.bucket.lastRefill : ℚ) ≤ b) :
    (((Runs.emitted (step c) (grants c) s events).filter
        fun g : Int => decide ((g : ℚ) ≤ b)).length : ℚ) ≤
      s.bucket.tokens + c.tokensPerSecond * ((b - s.bucket.lastRefill) / 1000) := by
  have hadded : 0 ≤ c.tokensPerSecond * ((b - s.bucket.lastRefill) / 1000) :=
    mul_nonneg hrate (div_nonneg (sub_nonneg.mpr hb) (by norm_num))
  have hs : 0 ≤ s.bucket.tokens := hnonneg [] events s rfl rfl
  induction events generalizing s with
  | nil =>
    simp only [Runs.emitted, List.filter_nil, List.length_nil, Nat.cast_zero]
    exact add_nonneg hs hadded
  | cons e events ih =>
    obtain ⟨s', he, hevents⟩ := Runs.run_cons.mp h
    obtain ⟨hnow, hlast, htokens, -⟩ := step_tokens he
    rw [Runs.emitted, he, Option.elim_some, List.filter_append, List.length_append, Nat.cast_add]
    by_cases hin : (e.now : ℚ) ≤ b
    · have hfirst : (((grants c s e).filter fun g : Int => decide ((g : ℚ) ≤ b)).length : ℚ) ≤
          (grants c s e).length := by exact_mod_cast List.length_filter_le _ _
      have hnonneg' : ∀ before after u, events = before ++ after →
          Runs.run (step c) s' before = some u → 0 ≤ u.bucket.tokens :=
        fun before after u hsplit hrun => hnonneg (e :: before) after u (by rw [hsplit]; rfl)
          (Runs.run_cons.mpr ⟨s', he, hrun⟩)
      have hlast' : (s'.bucket.lastRefill : ℚ) = e.now := by rw [hlast]
      have hadded' : 0 ≤ c.tokensPerSecond * ((b - s'.bucket.lastRefill) / 1000) :=
        mul_nonneg hrate (div_nonneg (by rw [hlast']; linarith) (by norm_num))
      have hrest := ih hevents hnonneg' (hlast'.le.trans hin) hadded'
        (hnonneg' [] events s' rfl rfl)
      have hrefill := refill_le (c := c) e.now s.bucket
      rw [hlast'] at hrest
      have hsum : c.tokensPerSecond * (((e.now : ℚ) - s.bucket.lastRefill) / 1000) +
          c.tokensPerSecond * ((b - e.now) / 1000) =
            c.tokensPerSecond * ((b - s.bucket.lastRefill) / 1000) := by ring
      linarith
    · have hnone : (Runs.emitted (step c) (grants c) s' events).filter
          (fun g : Int => decide ((g : ℚ) ≤ b)) = [] := by
        refine filter_emitted_eq_nil hevents fun g hg => ?_
        have hle : (e.now : ℚ) ≤ g := by exact_mod_cast hlast ▸ hg
        exact decide_eq_false fun h => hin (hle.trans h)
      have hfirst := filter_grants_eq_nil he (p := fun g : Int => decide ((g : ℚ) ≤ b))
        (by simpa using hin)
      rw [hnone, hfirst, List.length_nil, Nat.cast_zero, add_zero]
      exact add_nonneg hs hadded

/-- **Grants in a window**: at most a full bucket and the tokens added in it. -/
theorem grants_le (hrate : 0 ≤ c.tokensPerSecond) (hmax : 0 ≤ c.maxTokens) {s t : System}
    (h : Runs.run (step c) s events = some t)
    (hnonneg : ∀ before after u, events = before ++ after →
      Runs.run (step c) s before = some u → 0 ≤ u.bucket.tokens)
    {a T : ℚ} (hT : 0 ≤ T) : ((grantsIn c s events a T).length : ℚ) ≤
      c.maxTokens + c.tokensPerSecond * (T / 1000) := by
  have hadded : 0 ≤ c.tokensPerSecond * (T / 1000) :=
    mul_nonneg hrate (div_nonneg hT (by norm_num))
  induction events generalizing s with
  | nil =>
    simp only [grantsIn, Runs.emitted, List.filter_nil, List.length_nil, Nat.cast_zero]
    exact add_nonneg hmax hadded
  | cons e events ih =>
    obtain ⟨s', he, hevents⟩ := Runs.run_cons.mp h
    obtain ⟨-, hlast, htokens, -⟩ := step_tokens he
    have hnonneg' := Runs.always_tail he hnonneg
    rw [grantsIn, Runs.emitted, he, Option.elim_some, List.filter_append, List.length_append,
      Nat.cast_add]
    by_cases hbefore : (e.now : ℚ) < a
    · -- before the window: nothing granted yet, and the bucket is never more than full
      rw [filter_grants_eq_nil he (by simp [inWindow, not_le.mpr hbefore]), List.length_nil,
        Nat.cast_zero, zero_add]
      exact ih hevents hnonneg'
    by_cases hin : (e.now : ℚ) ≤ a + T
    · -- the window's first step: what it leaves and what it grants are at most a full bucket
      have hfirst := length_filter_grants_le (c := c) s e (inWindow a T)
      have hlast' : (s'.bucket.lastRefill : ℚ) = e.now := by rw [hlast]
      have huntil := grants_until_le hrate hevents hnonneg' (b := a + T) (hlast'.le.trans hin)
      have hrest : (((Runs.emitted (step c) (grants c) s' events).filter (inWindow a T)).length : ℚ)
          ≤ ((Runs.emitted (step c) (grants c) s' events).filter
            fun g : Int => decide ((g : ℚ) ≤ a + T)).length := by
        exact_mod_cast (List.monotone_filter_right _
          fun g hg => (Bool.and_eq_true_iff.mp hg).2).length_le
      have hfull := refill_le_max (c := c) e.now s.bucket
      have hshort : c.tokensPerSecond * ((a + T - s'.bucket.lastRefill) / 1000) ≤
          c.tokensPerSecond * (T / 1000) := by
        refine mul_le_mul_of_nonneg_left (div_le_div_of_nonneg_right ?_ (by norm_num)) hrate
        rw [hlast']
        linarith [not_lt.mp hbefore]
      linarith
    · -- after the window
      have hrest : (Runs.emitted (step c) (grants c) s' events).filter (inWindow a T) = [] := by
        refine filter_emitted_eq_nil hevents fun g hg => ?_
        have hle : (e.now : ℚ) ≤ g := by exact_mod_cast hlast ▸ hg
        have hlate : ¬ (g : ℚ) ≤ a + T := fun h => hin (hle.trans h)
        simp [inWindow, hlate]
      rw [filter_grants_eq_nil he (by simp [inWindow, hin]), hrest, List.length_nil, Nat.cast_zero,
        add_zero]
      exact add_nonneg hmax hadded

/-! ## Runs -/

/-- The tokens are never negative exactly if every caller that resumes finds a token. -/
theorem nonneg_iff (hrate : 0 ≤ c.tokensPerSecond) (hmax : 0 ≤ c.maxTokens) {start : Int}
    {t : System}
    (hrun : Runs.run (step c) ⟨create c start, []⟩ events = some t) :
    (∀ before after s, events = before ++ after →
        Runs.run (step c) ⟨create c start, []⟩ before = some s → 0 ≤ s.bucket.tokens) ↔
      Runs.Along (step c) (TokenThere c) ⟨create c start, []⟩ events := by
  refine Runs.inv_iff_along (I := fun _ => True) (G := fun s => 0 ≤ s.bucket.tokens) ?_ ?_ trivial
    hmax hrun
  · exact fun _ _ _ _ _ => trivial
  · exact fun s e s' _ hs hstep => step_nonneg_iff hrate hmax hs hstep

/-- **A run keeps to the rate exactly if every caller that resumes finds a token.** -/
theorem limited_iff (hrate : 0 ≤ c.tokensPerSecond) (hmax : 0 ≤ c.maxTokens) {start : Int}
    {events : List Event} {t : System}
    (hrun : Runs.run (step c) ⟨create c start, []⟩ events = some t) :
    Limited c start events ↔
      Runs.Along (step c) (TokenThere c) ⟨create c start, []⟩ events := by
  constructor
  · intro h
    exact (nonneg_iff hrate hmax hrun).mp h.nonneg
  · intro hthere
    have hnonneg := (nonneg_iff hrate hmax hrun).mpr hthere
    exact ⟨hnonneg, fun a T hT => grants_le hrate hmax hrun hnonneg hT⟩

/-! ## A caller that resumes -/

/-! ## Two callers that wait for one token -/

def oneASecond : Config where
  tokensPerSecond := 1
  maxTokens := 1

/-- The token is taken; two callers wait a second, and both take the next one. -/
def twoWaiters : List Event :=
  [.tryConsume 0, .waitForToken 0 0, .waitForToken 1 0, .resume 0 1000, .resume 1 1000]

theorem twoWaiters_not_limited : ¬ Limited oneASecond 0 twoWaiters ∧
    Runs.run (step oneASecond) ⟨create oneASecond 0, []⟩ twoWaiters = some ⟨⟨-1, 1000⟩, []⟩ ∧
    grantsIn oneASecond ⟨create oneASecond 0, []⟩ twoWaiters 1000 0 = [1000, 1000] := by
  have hrun : Runs.run (step oneASecond) ⟨create oneASecond 0, []⟩ twoWaiters =
      some ⟨⟨-1, 1000⟩, []⟩ := by decide +kernel
  refine ⟨fun h => ?_, hrun, by decide +kernel⟩
  exact absurd (h.nonneg twoWaiters [] _ (List.append_nil _).symm hrun) (by decide +kernel)

/-- Two callers that wait for two tokens. -/
theorem oneAfterTheOther_limited : Limited oneASecond 0
    [.tryConsume 0, .waitForToken 0 0, .resume 0 1000, .waitForToken 1 1000, .resume 1 2000] :=
  (limited_iff (t := ⟨⟨0, 2000⟩, []⟩) (by decide +kernel) (by decide +kernel)
    (by decide +kernel)).mpr (by decide +kernel)

end Llamenos.Worker.RateLimiter
