import Llamenos.Lib.Runs
import Mathlib.Data.List.Basic

/-!
# The circuit breaker

`CircuitBreaker` of `apps/worker/lib/circuit-breaker.ts`. A call runs up to `await fn()` at once
and goes on, to `onSuccess` or `onFailure`, when the function settles, whatever happened to the
breaker in the meantime.

A run is any interleaving of the two halves of any number of calls, and of `getState`, with any
readings of the clock. A call in flight is known by the state it was let run in and by the
half-open period it began in: a probe is one let run in `half_open`.

`execute` rejects calls in `open` only, and `onSuccess` asks for no probe: every call that comes
in `half_open` runs, and any success in `half_open` closes the circuit.

Results:
* `step_probes`: what a step does to the probes in flight.
* `closed_by`: only a success in `half_open` closes the circuit.
* `probing_iff`: **a run probes as the breaker says exactly if in its half-open periods calls come
  one after the other and only those succeed that came in them**.
-/

namespace Llamenos.Worker.Circuit

open Llamenos.Lib

/-! ## The code -/

inductive CircuitState where
  | closed
  | «open»
  | halfOpen
  deriving DecidableEq

structure CircuitBreakerOptions where
  failureThreshold : Nat := 5
  resetTimeoutMs : Int := 30000
  failureWindowMs : Int := 60000

structure CircuitBreaker where
  state : CircuitState := .closed
  /-- Timestamps of failures within the window. -/
  failures : List Int := []
  lastFailureTime : Int := 0

variable (o : CircuitBreakerOptions)

def transition (b : CircuitBreaker) (dest : CircuitState) : CircuitBreaker :=
  if b.state = dest then b else { b with state := dest }

/-- Enough time has passed since the last failure to try a probe. -/
def resetElapsed (now : Int) (b : CircuitBreaker) : Prop :=
  o.resetTimeoutMs ≤ now - b.lastFailureTime

instance (now : Int) (b : CircuitBreaker) : Decidable (resetElapsed o now b) :=
  inferInstanceAs (Decidable (_ ≤ _))

/-- `execute` up to `await fn()`; `none` is the `CircuitOpenError`. -/
def execute (now : Int) (b : CircuitBreaker) : Option CircuitBreaker :=
  if b.state = .open then
    if resetElapsed o now b then some (transition b .halfOpen) else none
  else some b

def onSuccess (b : CircuitBreaker) : CircuitBreaker :=
  if b.state = .halfOpen then transition { b with failures := [] } .closed else b

def onFailure (now : Int) (b : CircuitBreaker) : CircuitBreaker :=
  let b := { b with lastFailureTime := now }
  if b.state = .halfOpen then transition b .open
  else if b.state = .closed then
    let failures := (b.failures.filter fun t => decide (now - t < o.failureWindowMs)) ++ [now]
    let b := { b with failures := failures }
    if o.failureThreshold ≤ b.failures.length then transition b .open else b
  else b

/-- `getState`, which is the state of the breaker it leaves. -/
def getState (now : Int) (b : CircuitBreaker) : CircuitBreaker :=
  if b.state = .open ∧ resetElapsed o now b then transition b .halfOpen else b

/-! ## Runs -/

/-- A call in flight. -/
structure Call where
  id : Nat
  startedIn : CircuitState
  period : Nat

/-- The breaker, its calls in flight, and how often it has entered `half_open`. -/
structure System where
  breaker : CircuitBreaker := {}
  calls : List Call := []
  period : Nat := 0

inductive Event where
  | execute (id : Nat) (now : Int)
  | settle (id : Nat) (ok : Bool) (now : Int)
  | getState (now : Int)

/-- The half-open period the breaker is in after a step that took it from `b` to `b'`. -/
def nextPeriod (period : Nat) (b b' : CircuitBreaker) : Nat :=
  if b.state ≠ .halfOpen ∧ b'.state = .halfOpen then period + 1 else period

def step (s : System) : Event → Option System
  | .execute id now =>
    if id ∈ s.calls.map Call.id then none
    else match execute o now s.breaker with
      | none => some s
      | some b =>
        let period := nextPeriod s.period s.breaker b
        some ⟨b, ⟨id, b.state, period⟩ :: s.calls, period⟩
  | .settle id ok now =>
    if id ∈ s.calls.map Call.id then
      let b := if ok then onSuccess s.breaker else onFailure o now s.breaker
      some ⟨b, s.calls.filter fun c => c.id ≠ id, nextPeriod s.period s.breaker b⟩
    else none
  | .getState now =>
    let b := getState o now s.breaker
    some ⟨b, s.calls, nextPeriod s.period s.breaker b⟩

/-- The probes in flight. -/
def probes (s : System) : List Call := s.calls.filter fun c => c.startedIn = .halfOpen

/-- **Half-open as the breaker says**: at most one probe runs, and the circuit closes only because
a probe of the current half-open period succeeded. -/
structure Probing (events : List Event) : Prop where
  single : ∀ before after s, events = before ++ after → Runs.run (step o) {} before = some s →
    s.breaker.state = .halfOpen → (probes s).length ≤ 1
  closes : Runs.Along (step o) (fun s e => ∀ s', step o s e = some s' →
    s.breaker.state ≠ .closed → s'.breaker.state = .closed →
      ∃ id now, e = .settle id true now ∧ s.breaker.state = .halfOpen ∧
        ∃ c ∈ s.calls, c.id = id ∧ c.startedIn = .halfOpen ∧ c.period = s.period) {} events

/-- A call that is let run in `half_open` finds no probe in flight, and a call that succeeds in
`half_open` was let run in this half-open period. -/
def OneByOne (s : System) : Event → Prop
  | .execute _ now => (execute o now s.breaker).map CircuitBreaker.state = some .halfOpen →
      probes s = []
  | .settle id true _ => s.breaker.state = .halfOpen →
      ∃ c ∈ s.calls, c.id = id ∧ c.startedIn = .halfOpen ∧ c.period = s.period
  | .settle _ false _ => True
  | .getState _ => True

instance (s : System) (e : Event) : Decidable (OneByOne o s e) := by
  unfold OneByOne
  split <;> infer_instance

variable {o}

/-! ## One operation -/

@[simp] theorem transition_state (b : CircuitBreaker) (dest : CircuitState) :
    (transition b dest).state = dest := by
  unfold transition
  split
  · assumption
  · rfl

/-- A call is let run in the state it finds, or takes `open` to `half_open`. -/
theorem execute_state {now : Int} {b b' : CircuitBreaker} (h : execute o now b = some b') :
    b' = b ∧ b.state ≠ .open ∨ b.state = .open ∧ b'.state = .halfOpen := by
  unfold execute at h
  split at h
  · rename_i hopen
    split at h
    · cases h
      exact .inr ⟨hopen, transition_state _ _⟩
    · cases h
  · rename_i hopen
    cases h
    exact .inl ⟨rfl, hopen⟩

theorem onSuccess_state (b : CircuitBreaker) :
    (onSuccess b).state = if b.state = .halfOpen then .closed else b.state := by
  unfold onSuccess
  split
  · exact transition_state _ _
  · rfl

/-- A failure closes no circuit and takes none to `half_open`. -/
theorem onFailure_state (now : Int) (b : CircuitBreaker) :
    (onFailure o now b).state = .open ∨
      (onFailure o now b).state = b.state ∧ b.state ≠ .halfOpen := by
  unfold onFailure
  dsimp only
  split
  · exact .inl (transition_state _ _)
  split
  · rename_i hne hclosed
    split
    · exact .inl (transition_state _ _)
    · exact .inr ⟨rfl, hne⟩
  · rename_i hne _
    exact .inr ⟨rfl, hne⟩

theorem getState_state (now : Int) (b : CircuitBreaker) :
    (getState o now b).state = b.state ∨
      b.state = .open ∧ (getState o now b).state = .halfOpen := by
  unfold getState
  split
  · rename_i h
    exact .inr ⟨h.1, transition_state _ _⟩
  · exact .inl rfl

/-! ## Steps -/

/-- The probes that a step leaves in flight. -/
theorem step_probes {s s' : System} {e : Event} (h : step o s e = some s') :
    (probes s').Sublist (probes s) ∨
      ∃ id now, e = .execute id now ∧
        (execute o now s.breaker).map CircuitBreaker.state = some .halfOpen ∧
        s'.breaker.state = .halfOpen ∧ ∃ c, probes s' = c :: probes s := by
  cases e with
  | execute id now =>
    obtain ⟨-, h⟩ := Option.ite_none_left_eq_some.mp h
    split at h
    · cases h
      exact .inl (List.Sublist.refl _)
    · rename_i b hb
      cases h
      by_cases hprobe : b.state = .halfOpen
      · refine .inr ⟨id, now, rfl, by rw [hb, Option.map_some, hprobe], hprobe, ?_⟩
        exact ⟨_, List.filter_cons_of_pos (by simp [hprobe])⟩
      · left
        unfold probes
        rw [List.filter_cons_of_neg (by simp [hprobe])]
  | settle id ok now =>
    obtain ⟨-, h⟩ := Option.ite_none_right_eq_some.mp h
    cases h
    exact .inl (List.filter_sublist.filter _)
  | getState now =>
    cases h
    exact .inl (List.Sublist.refl _)

/-- **Only a success in `half_open` closes the circuit.** -/
theorem closed_by {s s' : System} {e : Event} (h : step o s e = some s')
    (hs : s.breaker.state ≠ .closed) (hs' : s'.breaker.state = .closed) :
    ∃ id now, e = .settle id true now ∧ s.breaker.state = .halfOpen := by
  cases e with
  | execute id now =>
    obtain ⟨-, h⟩ := Option.ite_none_left_eq_some.mp h
    split at h
    · cases h
      exact absurd hs' hs
    · rename_i b hb
      cases h
      rcases execute_state hb with ⟨rfl, -⟩ | ⟨-, hhalf⟩
      · exact absurd hs' hs
      · exact absurd (hhalf.symm.trans hs') (by decide)
  | settle id ok now =>
    obtain ⟨-, h⟩ := Option.ite_none_right_eq_some.mp h
    cases h
    cases ok with
    | true =>
      refine ⟨id, now, rfl, ?_⟩
      by_contra hhalf
      have hstate := onSuccess_state s.breaker
      rw [if_neg hhalf] at hstate
      exact hs (hstate.symm.trans hs')
    | false =>
      rcases onFailure_state (o := o) now s.breaker with hopen | ⟨hsame, -⟩
      · exact absurd (hopen.symm.trans hs') (by decide)
      · exact absurd (hsame.symm.trans hs') hs
  | getState now =>
    cases h
    rcases getState_state (o := o) now s.breaker with hsame | ⟨-, hhalf⟩
    · exact absurd (hsame.symm.trans hs') hs
    · exact absurd (hhalf.symm.trans hs') (by decide)

/-- A success in `half_open` closes the circuit, whichever call's it is. -/
theorem settle_closes {s s' : System} {id : Nat} {now : Int}
    (h : step o s (.settle id true now) = some s') (hs : s.breaker.state = .halfOpen) :
    s'.breaker.state = .closed := by
  obtain ⟨-, h⟩ := Option.ite_none_right_eq_some.mp h
  cases h
  exact (onSuccess_state s.breaker).trans (if_pos hs)

/-- One by one, at most one probe is in flight. -/
theorem run_single {events : List Event} {s : System}
    (hone : Runs.Along (step o) (OneByOne o) {} events)
    (h : Runs.run (step o) {} events = some s) : (probes s).length ≤ 1 := by
  refine Runs.run_inv_along (I := fun s => (probes s).length ≤ 1) (s := {}) ?_ (Nat.zero_le 1)
    hone h
  intro s e s' hs hcond hstep
  rcases step_probes hstep with hsub | ⟨id, now, rfl, hhalf, -, c, hc⟩
  · exact Nat.le_trans hsub.length_le hs
  · have hnone : probes s = [] := hcond hhalf
    rw [hc, hnone]
    exact Nat.le_refl 1

/-- **A run probes as the breaker says exactly if half-open calls come one by one.** -/
theorem probing_iff {events : List Event} {t : System}
    (hrun : Runs.run (step o) {} events = some t) :
    Probing o events ↔ Runs.Along (step o) (OneByOne o) {} events := by
  constructor
  · intro h
    refine Runs.along_iff_split.mpr fun before e after s hevents hbefore => ?_
    have hclose := Runs.along_iff_split.mp h.closes before e after s hevents hbefore
    obtain ⟨s', hstep, hupto⟩ := Runs.step_of_run hrun hevents hbefore
    cases e with
    | execute id now =>
      intro hhalf
      have hsingle := h.single (before ++ [.execute id now]) after s' (by simp [hevents]) hupto
      obtain ⟨b, hb, hbhalf⟩ := Option.map_eq_some_iff.mp hhalf
      obtain ⟨-, hstep⟩ := Option.ite_none_left_eq_some.mp hstep
      rw [hb] at hstep
      cases hstep
      have hlen : (probes s).length + 1 ≤ 1 := by
        have := hsingle hbhalf
        unfold probes at this
        rwa [List.filter_cons_of_pos (by simp [hbhalf])] at this
      exact List.length_eq_zero_iff.mp (Nat.le_zero.mp (Nat.le_of_succ_le_succ hlen))
    | settle id ok now =>
      cases ok with
      | true =>
        intro hhalf
        have hne : s.breaker.state ≠ .closed := by simp [hhalf]
        obtain ⟨id', now', he, -, hcall⟩ := hclose s' hstep hne (settle_closes hstep hhalf)
        cases he
        exact hcall
      | false => trivial
    | getState now => trivial
  · intro hone
    constructor
    · intro before after s hevents hbefore _
      rw [hevents] at hone
      exact run_single hone.left hbefore
    · refine hone.mono fun s e hcond s' hstep hs hs' => ?_
      obtain ⟨id, now, rfl, hhalf⟩ := closed_by hstep hs hs'
      exact ⟨id, now, rfl, hhalf, hcond hhalf⟩

/-! ## Two probes, and a call from before the failure -/

/-- Calls 0 and 1 start in `closed`, and 1 opens the circuit. When the time to try again has come,
calls 2 and 3 run in `half_open` both, and then call 0 succeeds. -/
def lateSuccess : List Event :=
  [.execute 0 0, .execute 1 1, .settle 1 false 2, .execute 2 30002, .execute 3 30003,
    .settle 0 true 30004]

theorem lateSuccess_not_probing : ¬ Probing { failureThreshold := 1 } lateSuccess ∧
    ∃ s s', Runs.run (step { failureThreshold := 1 }) {} (lateSuccess.take 5) = some s ∧
      s.breaker.state = .halfOpen ∧ (probes s).length = 2 ∧
      step { failureThreshold := 1 } s (.settle 0 true 30004) = some s' ∧
      s'.breaker.state = .closed := by
  refine ⟨fun h => ?_, _, _, rfl, by decide, by decide, rfl, by decide⟩
  exact absurd (h.single (lateSuccess.take 5) (lateSuccess.drop 5) _ rfl rfl (by decide))
    (by decide)

/-- The same calls, one by one in `half_open`. -/
theorem oneByOne_probing : Probing { failureThreshold := 1 }
    [.execute 0 0, .execute 1 1, .settle 1 false 2, .settle 0 true 3, .execute 2 30002,
      .settle 2 true 30003, .execute 3 30004] :=
  (probing_iff rfl).mpr (by decide)

end Llamenos.Worker.Circuit
