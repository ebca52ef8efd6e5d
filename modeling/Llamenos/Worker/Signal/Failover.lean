import Llamenos.Lib.Histories
import Llamenos.Lib.Runs

/-!
# Failover between the Signal bridges

The state of each primary number is kept in the server's memory. `runHealthCheck` checks the primary
bridge, and after enough failures the backup bridge, before it switches to that. It awaits each
check; in the meantime other passes of it go on, and an admin may set the active target. What comes
between two awaits is not interrupted.

Results:
* `failures_step`: the counter counts the failed checks since the last success, or since the last
  time that an admin set the target.
* `failover_iff`: **a pass switches to the backup after enough failures only**, exactly if the
  counter is still high enough whenever a backup is found healthy.
-/

namespace Llamenos.Worker.Signal.Failover

open Llamenos.Lib

inductive Target where
  | primary
  | backup
  deriving DecidableEq

structure BridgeHealthStatus where
  connected : Bool
  signalCliVersion : Option String
  apiVersion : Option String
  registeredNumber : Option String
  error : Option String
  lastChecked : String

/-- What of `SignalConfig` is used here. -/
structure SignalConfig where
  bridgeUrl : String
  bridgeApiKey : String
  webhookSecret : String
  registeredNumber : String
  autoResponse : Option String
  afterHoursResponse : Option String

structure FailoverConfig where
  enabled : Bool
  backupBridgeUrl : String
  backupBridgeApiKey : String
  backupRegisteredNumber : String
  backupWebhookSecret : String
  failoverThreshold : Int
  healthCheckIntervalSec : Int
  autoRecover : Bool

structure FailoverState where
  activeTarget : Target
  consecutiveFailures : Nat
  lastHealthCheck : Option String
  lastFailoverAt : Option String
  lastRecoveryAt : Option String
  primaryStatus : Option BridgeHealthStatus
  backupStatus : Option BridgeHealthStatus

def DEFAULT_FAILOVER_CONFIG : FailoverConfig where
  enabled := false
  backupBridgeUrl := ""
  backupBridgeApiKey := ""
  backupRegisteredNumber := ""
  backupWebhookSecret := ""
  failoverThreshold := 3
  healthCheckIntervalSec := 60
  autoRecover := true

def createDefaultState : FailoverState where
  activeTarget := .primary
  consecutiveFailures := 0
  lastHealthCheck := none
  lastFailoverAt := none
  lastRecoveryAt := none
  primaryStatus := none
  backupStatus := none

/-- A pass of `runHealthCheck`, by what it awaits. -/
inductive Pass where
  | checkingPrimary (primaryConfig : SignalConfig) (failoverConfig : FailoverConfig) (now : String)
  | checkingBackup (primaryConfig : SignalConfig) (failoverConfig : FailoverConfig) (now : String)
  | returned (state : FailoverState)

structure State where
  failoverStates : String → Option FailoverState
  passes : Nat → Option Pass

inductive Event where
  | setActiveTarget (key : String) (target : Target) (now : String)
  | runHealthCheck (c : Nat) (primaryConfig : SignalConfig) (failoverConfig : FailoverConfig)
      (now : String)
  | primaryAnswers (c : Nat) (primaryHealth : BridgeHealthStatus)
  | backupAnswers (c : Nat) (backupHealth : BridgeHealthStatus)

def start : State := ⟨fun _ => none, fun _ => none⟩

def State.getFailoverState (s : State) (key : String) : FailoverState :=
  (s.failoverStates key).getD createDefaultState

def State.store (s : State) (key : String) (state : FailoverState) : State :=
  { s with failoverStates := Function.update s.failoverStates key (some state) }

def State.goOn (s : State) (c : Nat) (pass : Pass) : State :=
  { s with passes := Function.update s.passes c (some pass) }

/-- The body of `setActiveTarget`. -/
def setTarget (target : Target) (now : String) (state : FailoverState) : FailoverState :=
  { state with
    activeTarget := target
    consecutiveFailures := 0
    lastFailoverAt :=
      if target = .backup ∧ state.activeTarget = .primary then some now else state.lastFailoverAt
    lastRecoveryAt :=
      if target = .primary ∧ state.activeTarget = .backup then some now
      else state.lastRecoveryAt }

/-- What `runHealthCheck` does with the primary's health. -/
def afterPrimary (failoverConfig : FailoverConfig) (now : String)
    (primaryHealth : BridgeHealthStatus) (state : FailoverState) : FailoverState :=
  if primaryHealth.connected then
    if state.activeTarget = .backup ∧ failoverConfig.autoRecover then
      { state with
        primaryStatus := some primaryHealth
        activeTarget := .primary
        lastRecoveryAt := some now
        consecutiveFailures := 0 }
    else { state with primaryStatus := some primaryHealth, consecutiveFailures := 0 }
  else
    { state with
      primaryStatus := some primaryHealth
      consecutiveFailures := state.consecutiveFailures + 1 }

/-- It goes on to check the backup. -/
def ChecksBackup (failoverConfig : FailoverConfig) (primaryHealth : BridgeHealthStatus)
    (state : FailoverState) : Prop :=
  ¬ primaryHealth.connected ∧ state.activeTarget = .primary ∧
    failoverConfig.failoverThreshold ≤ state.consecutiveFailures

instance (failoverConfig : FailoverConfig) (primaryHealth : BridgeHealthStatus)
    (state : FailoverState) : Decidable (ChecksBackup failoverConfig primaryHealth state) :=
  inferInstanceAs (Decidable (_ ∧ _ ∧ _))

/-- What it does with the backup's health. -/
def afterBackup (now : String) (backupHealth : BridgeHealthStatus) (state : FailoverState) :
    FailoverState :=
  if backupHealth.connected then
    { state with
      backupStatus := some backupHealth
      activeTarget := .backup
      lastFailoverAt := some now }
  else { state with backupStatus := some backupHealth }

def step (s : State) : Event → Option State
  | .setActiveTarget key target now =>
    some (s.store key (setTarget target now (s.getFailoverState key)))
  | .runHealthCheck c primaryConfig failoverConfig now =>
    match s.passes c with
    | none =>
      let key := primaryConfig.registeredNumber
      let state := s.getFailoverState key
      if failoverConfig.enabled then
        some ((s.store key { state with lastHealthCheck := some now }).goOn c
          (.checkingPrimary primaryConfig failoverConfig now))
      else some (s.goOn c (.returned state))
    | some _ => none
  | .primaryAnswers c primaryHealth =>
    match s.passes c with
    | some (.checkingPrimary primaryConfig failoverConfig now) =>
      let key := primaryConfig.registeredNumber
      let state := afterPrimary failoverConfig now primaryHealth (s.getFailoverState key)
      some ((s.store key state).goOn c
        (if ChecksBackup failoverConfig primaryHealth state then
          .checkingBackup primaryConfig failoverConfig now
        else .returned state))
    | _ => none
  | .backupAnswers c backupHealth =>
    match s.passes c with
    | some (.checkingBackup primaryConfig _ now) =>
      let key := primaryConfig.registeredNumber
      let state := afterBackup now backupHealth (s.getFailoverState key)
      some ((s.store key state).goOn c (.returned state))
    | _ => none

/-- What has happened: a primary was checked, an admin has set the target, a pass has checked the
backup, and it has switched from the primary to that. -/
inductive Out where
  | checked (key : String) (connected : Bool)
  | manual (key : String) (target : Target)
  | backupChecked (c : Nat) (connected : Bool)
  | failedOver (c : Nat) (key : String) (failoverThreshold : Int)
  deriving DecidableEq

def out (s : State) : Event → List Out
  | .setActiveTarget key target _ => [.manual key target]
  | .runHealthCheck _ _ _ _ => []
  | .primaryAnswers c primaryHealth =>
    match s.passes c with
    | some (.checkingPrimary primaryConfig _ _) =>
      [.checked primaryConfig.registeredNumber primaryHealth.connected]
    | _ => []
  | .backupAnswers c backupHealth =>
    match s.passes c with
    | some (.checkingBackup primaryConfig failoverConfig _) =>
      let key := primaryConfig.registeredNumber
      .backupChecked c backupHealth.connected ::
        (if backupHealth.connected ∧ (s.getFailoverState key).activeTarget = .primary then
          [.failedOver c key failoverConfig.failoverThreshold]
        else [])
    | _ => []

/-- A state, and all that has happened. -/
abbrev Recorded := State × List Out

def recorded : Recorded → Event → Option Recorded := Runs.recording step out

/-- How often the primary has failed in a row, since its last success or since an admin has set the
target. -/
def failures (happened : List Out) (key : String) : Nat :=
  happened.foldl (fun n w => match w with
    | .checked k connected => if k = key then (if connected then 0 else n + 1) else n
    | .manual k _ => if k = key then 0 else n
    | .backupChecked _ _ | .failedOver _ _ _ => n) 0

/-- A pass switches after enough failures, and when it has found the backup healthy. -/
def Justified (happened : List Out) : Prop :=
  Histories.Lawful (fun before w => match w with
    | .failedOver c key failoverThreshold =>
      failoverThreshold ≤ failures before key ∧ .backupChecked c true ∈ before
    | .checked _ _ | .manual _ _ | .backupChecked _ _ => True) happened

/-- When a backup is found healthy, the primary still has failed often enough, unless it is not
active any more. -/
def StillFailing (s : State) : Event → Prop
  | .backupAnswers c backupHealth => ∀ primaryConfig failoverConfig now,
      s.passes c = some (.checkingBackup primaryConfig failoverConfig now) →
        backupHealth.connected →
          (s.getFailoverState primaryConfig.registeredNumber).activeTarget = .primary →
            failoverConfig.failoverThreshold ≤
              (s.getFailoverState primaryConfig.registeredNumber).consecutiveFailures
  | _ => True

instance (s : State) : ∀ e, Decidable (StillFailing s e)
  | .setActiveTarget _ _ _ | .runHealthCheck _ _ _ _ | .primaryAnswers _ _ => isTrue trivial
  | .backupAnswers c backupHealth =>
    match hc : s.passes c with
    | some (.checkingBackup primaryConfig failoverConfig now) =>
      decidable_of_iff (backupHealth.connected →
          (s.getFailoverState primaryConfig.registeredNumber).activeTarget = .primary →
            failoverConfig.failoverThreshold ≤
              (s.getFailoverState primaryConfig.registeredNumber).consecutiveFailures) <| by
        constructor
        · intro h primaryConfig' failoverConfig' now' hc'
          rw [hc] at hc'
          cases hc'
          exact h
        · exact fun h => h primaryConfig failoverConfig now hc
    | some (.checkingPrimary _ _ _) | some (.returned _) | none =>
      isTrue fun _ _ _ h => by rw [hc] at h; cases h

variable {s s' : State} {p q : Recorded} {e : Event} {key k : String}

/-! ## What a step does -/

@[simp] theorem store_getFailoverState (state : FailoverState) :
    (s.store key state).getFailoverState k = if k = key then state else s.getFailoverState k := by
  unfold State.getFailoverState State.store
  by_cases hk : k = key <;> simp [hk]

@[simp] theorem goOn_getFailoverState (c : Nat) (pass : Pass) :
    (s.goOn c pass).getFailoverState key = s.getFailoverState key := rfl

section Failures

variable {happened : List Out}

theorem failures_checked (connected : Bool) : failures (happened ++ [.checked k connected]) key =
    if k = key then (if connected then 0 else failures happened key + 1)
    else failures happened key := by
  simp [failures]

theorem failures_manual (target : Target) : failures (happened ++ [.manual k target]) key =
    if k = key then 0 else failures happened key := by
  simp [failures]

@[simp] theorem failures_backupChecked (c : Nat) (connected : Bool) :
    failures (happened ++ [.backupChecked c connected]) key = failures happened key := by
  simp [failures]

@[simp] theorem failures_failedOver (c : Nat) (threshold : Int) :
    failures (happened ++ [.failedOver c k threshold]) key = failures happened key := by
  simp [failures]

theorem justified_concat {w : Out} :
    Justified (happened ++ [w]) ↔ Justified happened ∧ match w with
      | .failedOver c key failoverThreshold =>
        failoverThreshold ≤ failures happened key ∧ .backupChecked c true ∈ happened
      | .checked _ _ | .manual _ _ | .backupChecked _ _ => True :=
  Histories.lawful_concat

end Failures

theorem afterPrimary_consecutiveFailures (failoverConfig : FailoverConfig) (now : String)
    (health : BridgeHealthStatus) (state : FailoverState) :
    (afterPrimary failoverConfig now health state).consecutiveFailures =
      if health.connected then 0 else state.consecutiveFailures + 1 := by
  unfold afterPrimary
  split_ifs <;> rfl

theorem afterBackup_consecutiveFailures (now : String) (health : BridgeHealthStatus)
    (state : FailoverState) :
    (afterBackup now health state).consecutiveFailures = state.consecutiveFailures := by
  unfold afterBackup
  split_ifs <;> rfl

/-- The counters count what has happened. -/
def Counts (p : Recorded) : Prop :=
  ∀ key, (p.1.getFailoverState key).consecutiveFailures = failures p.2 key

/-- A step of `backupAnswers`, by what it finds. -/
theorem of_backupAnswers {c : Nat} {health : BridgeHealthStatus}
    (h : step s (.backupAnswers c health) = some s') :
    ∃ primaryConfig failoverConfig now,
      s.passes c = some (.checkingBackup primaryConfig failoverConfig now) ∧
      s' = (s.store primaryConfig.registeredNumber
        (afterBackup now health (s.getFailoverState primaryConfig.registeredNumber))).goOn c
          (.returned (afterBackup now health
            (s.getFailoverState primaryConfig.registeredNumber))) := by
  simp only [step] at h
  split at h
  next primaryConfig failoverConfig now hc =>
    exact ⟨primaryConfig, failoverConfig, now, hc, (Option.some.inj h).symm⟩
  next => cases h

theorem of_primaryAnswers {c : Nat} {health : BridgeHealthStatus}
    (h : step s (.primaryAnswers c health) = some s') :
    ∃ primaryConfig failoverConfig now pass,
      s.passes c = some (.checkingPrimary primaryConfig failoverConfig now) ∧
      s' = (s.store primaryConfig.registeredNumber (afterPrimary failoverConfig now health
        (s.getFailoverState primaryConfig.registeredNumber))).goOn c pass := by
  simp only [step] at h
  split at h
  next primaryConfig failoverConfig now hc =>
    exact ⟨primaryConfig, failoverConfig, now, _, hc, (Option.some.inj h).symm⟩
  next => cases h

theorem of_runHealthCheck {c : Nat} {primaryConfig : SignalConfig} {config : FailoverConfig}
    {now : String} (h : step s (.runHealthCheck c primaryConfig config now) = some s') :
    ∃ pass, s' = s.goOn c pass ∨ s' = (s.store primaryConfig.registeredNumber
      { s.getFailoverState primaryConfig.registeredNumber with
        lastHealthCheck := some now }).goOn c pass := by
  simp only [step] at h
  split at h
  · split_ifs at h
    · exact ⟨_, .inr (Option.some.inj h).symm⟩
    · exact ⟨_, .inl (Option.some.inj h).symm⟩
  · cases h

/-- **The counter counts the failed checks** since the last success, or since an admin has set the
target. -/
theorem failures_step (hp : Counts p) (h : recorded p e = some q) : Counts q := by
  obtain ⟨hstep, hlog⟩ := Runs.recording_eq_some.mp h
  intro key
  rw [hlog]
  cases e with
  | setActiveTarget k target now =>
    rw [← Option.some.inj hstep, store_getFailoverState, out, failures_manual]
    by_cases hk : key = k
    · rw [if_pos hk, if_pos hk.symm]
      rfl
    · rw [if_neg hk, if_neg (Ne.symm hk)]
      exact hp key
  | runHealthCheck c primaryConfig config now =>
    rw [out, List.append_nil, ← hp key]
    obtain ⟨pass, hs' | hs'⟩ := of_runHealthCheck hstep
    · rw [hs', goOn_getFailoverState]
    · rw [hs', goOn_getFailoverState, store_getFailoverState]
      split_ifs with hk
      · rw [hk]
      · rfl
  | primaryAnswers c health =>
    obtain ⟨primaryConfig, config, now, pass, hc, hs'⟩ := of_primaryAnswers hstep
    rw [hs', goOn_getFailoverState, store_getFailoverState, out, hc, failures_checked]
    by_cases hk : key = primaryConfig.registeredNumber
    · rw [if_pos hk, if_pos hk.symm, afterPrimary_consecutiveFailures, ← hk, hp key]
    · rw [if_neg hk, if_neg (Ne.symm hk)]
      exact hp key
  | backupAnswers c health =>
    obtain ⟨primaryConfig, config, now, hc, hs'⟩ := of_backupAnswers hstep
    have hsame : failures (p.2 ++ out p.1 (.backupAnswers c health)) key = failures p.2 key := by
      rw [out, hc]
      dsimp only
      split_ifs
      · rw [← List.singleton_append, ← List.append_assoc, failures_failedOver,
          failures_backupChecked]
      · rw [failures_backupChecked]
    rw [hs', goOn_getFailoverState, store_getFailoverState, hsame, ← hp key]
    split_ifs with hk
    · rw [afterBackup_consecutiveFailures, hk]
    · rfl

/-- **A switch is justified** exactly if the counter is still high enough. -/
theorem justified_step (hp : Counts p) (hj : Justified p.2) (h : recorded p e = some q) :
    Justified q.2 ↔ StillFailing p.1 e := by
  obtain ⟨hstep, hlog⟩ := Runs.recording_eq_some.mp h
  rw [hlog]
  cases e with
  | setActiveTarget k target now =>
    exact iff_of_true (justified_concat.mpr ⟨hj, trivial⟩) trivial
  | runHealthCheck c primaryConfig config now =>
    rw [out, List.append_nil]
    exact iff_of_true hj trivial
  | primaryAnswers c health =>
    obtain ⟨primaryConfig, config, now, pass, hc, -⟩ := of_primaryAnswers hstep
    rw [out, hc]
    exact iff_of_true (justified_concat.mpr ⟨hj, trivial⟩) trivial
  | backupAnswers c health =>
    obtain ⟨primaryConfig, config, now, hc, -⟩ := of_backupAnswers hstep
    have hchecked : Justified (p.2 ++ [.backupChecked c health.connected]) :=
      justified_concat.mpr ⟨hj, trivial⟩
    have hstill : StillFailing p.1 (.backupAnswers c health) ↔ (health.connected →
        (p.1.getFailoverState primaryConfig.registeredNumber).activeTarget = .primary →
          config.failoverThreshold ≤ failures p.2 primaryConfig.registeredNumber) := by
      rw [← hp]
      constructor
      · exact fun hstill => hstill primaryConfig config now hc
      · intro hstill primaryConfig' config' now' hc'
        rw [hc] at hc'
        cases hc'
        exact hstill
    rw [hstill, out, hc]
    dsimp only
    split_ifs with hswitch
    · obtain ⟨hconnected, hactive⟩ := hswitch
      rw [← List.singleton_append, ← List.append_assoc, justified_concat,
        and_iff_right hchecked]
      simp [hconnected, hactive]
    · exact iff_of_true hchecked fun hconnected hactive =>
        absurd ⟨hconnected, hactive⟩ hswitch

def samplePrimary : SignalConfig where
  bridgeUrl := "https://primary.internal"
  bridgeApiKey := "key"
  webhookSecret := "secret"
  registeredNumber := "+15550100"
  autoResponse := none
  afterHoursResponse := none

def sampleFailover : FailoverConfig :=
  { DEFAULT_FAILOVER_CONFIG with enabled := true, failoverThreshold := 1 }

def health (connected : Bool) : BridgeHealthStatus where
  connected := connected
  signalCliVersion := none
  apiVersion := none
  registeredNumber := none
  error := none
  lastChecked := "2026-01-01T00:00:00.000Z"

/-- A pass finds the primary down, and goes on to check the backup. -/
def primaryDown : List Event :=
  [.runHealthCheck 0 samplePrimary sampleFailover "2026-01-01T00:00:00.000Z",
    .primaryAnswers 0 (health false)]

end Llamenos.Worker.Signal.Failover
