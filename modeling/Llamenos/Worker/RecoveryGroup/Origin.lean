import Llamenos.Worker.RecoveryGroup

/-!
# What an operation has read

Every statement of an operation follows from its first, which read the session. What the operation
does later was admitted then, by the row as it was: an operation that stores a status has read one
that is not terminal, and one that releases a secret has read a session that is released.

Results:
* `call_admits`, `resume_admits`: what the first read admits, step by step.
* `run_origin`: **every statement under way has a call that admitted it**, in every run.
-/

namespace Llamenos.Worker.RecoveryGroup

open Llamenos.Lib Llamenos.Worker.CryptoKeys

variable {N : Type} {prims : RecoveryPrims N}

/-! ## Statements under way -/

def SessionStatus.terminal : SessionStatus → Bool
  | .completed | .expired | .cancelled => true
  | .pending | .verified | .active => false

/-- The session of the operation. -/
def Task.sessionId : Task N → String
  | .verifyExpire sessionId _ | .verifyAttempt sessionId _ | .verifyGroup sessionId _
  | .verifyStore sessionId _ | .sessionContributions sessionId _ | .sessionGroup sessionId _ _
  | .cancelStore sessionId _ _ | .selectEnvelope sessionId _ _ => sessionId
  | .contributeHolders params _ | .contributeExisting params _ | .contributeCount params _
  | .contributeGroup params _ _ | .contributeCommit params _ _ _ => params.sessionId
  | .completeContributions params _ | .completeGroup params _ _
  | .completeCommit params _ => params.sessionId
  | .overrideGroup params _ | .overrideStore params _ => params.sessionId

/-- Whether the operation may store a status. -/
def Task.storing : Task N → Bool
  | .sessionContributions .. | .sessionGroup .. | .selectEnvelope .. => false
  | _ => true

/-- Whether the operation releases the envelope, or completes the recovery. -/
def Task.releasing : Task N → Bool
  | .completeContributions .. | .completeGroup .. | .completeCommit .. | .selectEnvelope .. => true
  | _ => false

/-- A session is released from its time on, once it is active. -/
def Released (row : Session) (now : Int) : Prop :=
  row.expiresAt ≤ now ∧ (row.status = .active ∨ row.status = .completed)

/-- What the row that an operation has read, at its time, admits. -/
structure Admits (row : Session) (now : Int) (sessionId : String) (task : Task N) : Prop where
  sessionId_eq : task.sessionId = sessionId
  storing : task.storing = true → row.status.terminal = false
  releasing : task.releasing = true → Released row now

/-- **The first read**: a call that goes on has found its session, and been admitted by it. -/
theorem call_admits {db : Db N} {op : Op N} {now : Int} {task : Task N}
    (h : call prims db op now = .more task) :
    ∃ row, db.sessions op.sessionId = some row ∧ Admits row now op.sessionId task := by
  unfold call at h
  cases hrow : db.sessions op.sessionId with
  | none => rw [hrow] at h; cases h
  | some row =>
    rw [hrow] at h
    refine ⟨row, rfl, ?_⟩
    cases op with
    | verifyInitiation sessionId code secret =>
      simp only [verifyInitiation, throws] at h
      split_ifs at h with hstatus <;> cases h
      all_goals
        refine ⟨rfl, fun _ => ?_, fun h => by cases h⟩
        rw [not_not.mp hstatus]
        rfl
    | contributeShare params =>
      simp only [contributeShare, throws] at h
      split_ifs at h with hstatus
      cases h
      refine ⟨rfl, fun _ => ?_, fun h => by cases h⟩
      rcases hs : row.status <;> simp_all [SessionStatus.terminal]
    | getSession sessionId =>
      cases h
      exact ⟨rfl, (fun h => by cases h), fun h => by cases h⟩
    | cancelSession sessionId cancelledBy caller manager =>
      simp only [cancelSession, throws] at h
      split_ifs at h with hstatus
      cases h
      refine ⟨rfl, fun _ => ?_, fun h => by cases h⟩
      rcases hs : row.status <;> simp_all [SessionStatus.terminal]
    | completeRecovery params =>
      simp only [completeRecovery, throws] at h
      split_ifs at h with hstatus hdelay
      cases h
      refine ⟨rfl, fun _ => ?_, fun _ => ⟨Int.not_lt.mp hdelay, .inl (not_not.mp hstatus)⟩⟩
      rw [not_not.mp hstatus]
      rfl
    | getUserEnvelope sessionId hubId =>
      simp only [getUserEnvelope, throws] at h
      split_ifs at h with hhub hreleased
      cases h
      exact ⟨rfl, (fun h => by cases h), fun _ => hreleased⟩
    | applyEmergencyOverride params =>
      simp only [applyEmergencyOverride, throws] at h
      split_ifs at h with hstatus
      cases h
      refine ⟨rfl, fun _ => ?_, fun h => by cases h⟩
      rcases hs : row.status <;> simp_all [SessionStatus.terminal]

/-- An operation that goes on is of the same session, and stores or releases only if it did. -/
theorem resume_next {db : Db N} {now : Int} {insert : Insert} {task task' : Task N}
    (h : (resume prims db now insert task).2 = .more task') :
    task'.sessionId = task.sessionId ∧ (task'.storing = true → task.storing = true) ∧
      (task'.releasing = true → task.releasing = true) := by
  cases task with
  | verifyGroup _ session => cases h; exact ⟨rfl, id, id⟩
  | contributeHolders params session =>
    simp only [resume, throws] at h
    split_ifs at h
    cases h
    exact ⟨rfl, id, id⟩
  | contributeExisting params session =>
    simp only [resume, throws] at h
    split_ifs at h
    cases h
    exact ⟨rfl, id, id⟩
  | contributeCount params session => cases h; exact ⟨rfl, id, id⟩
  | contributeGroup params session count => cases h; exact ⟨rfl, id, id⟩
  | contributeCommit params session count threshold =>
    rw [resume] at h
    cases hcommit : contributeCommit db params session count threshold now <;>
      rw [hcommit] at h <;> cases h
  | sessionContributions _ session => cases h; exact ⟨rfl, id, id⟩
  | completeContributions params session => cases h; exact ⟨rfl, id, id⟩
  | completeGroup params session contributors =>
    simp only [resume, checkCompletion, throws] at h
    split_ifs at h
    cases h
    exact ⟨rfl, id, id⟩
  | completeCommit params session =>
    rw [resume] at h
    cases hcommit : completeCommit prims db params session insert now <;>
      rw [hcommit] at h <;> cases h
  | overrideGroup params session => cases h; exact ⟨rfl, id, id⟩
  | _ => cases h

/-- **The reads that follow** admit nothing more. -/
theorem resume_admits {row : Session} {readAt : Int} {sessionId : String} {task task' : Task N}
    (hadmits : Admits row readAt sessionId task) {db : Db N} {now : Int} {insert : Insert}
    (h : (resume prims db now insert task).2 = .more task') :
    Admits row readAt sessionId task' := by
  obtain ⟨hid, hstoring, hreleasing⟩ := resume_next h
  exact ⟨hid.trans hadmits.sessionId_eq, fun h => hadmits.storing (hstoring h),
    fun h => hadmits.releasing (hreleasing h)⟩

/-- **Where a statement comes from** that is under way after a step: it was, or the step is the
call or the statement before it. -/
theorem step_tasks {s s' : System N} {e : Event N} (h : step prims s e = some s') {i : Nat}
    {task : Task N} (htask : s'.tasks i = some task) :
    (s.tasks i = some task ∧ ∀ op now, e ≠ .call i op now) ∨
      (∃ op now, e = .call i op now ∧ s'.db = s.db ∧ call prims s.db op now = .more task) ∨
      ∃ now insert task₀, e = .resume i now insert ∧ s.tasks i = some task₀ ∧
        (resume prims s.db now insert task₀).2 = .more task := by
  cases e with
  | call j op now =>
    rw [step] at h
    cases hfree : s.tasks j with
    | some _ => rw [hfree] at h; cases h
    | none =>
      rw [hfree] at h
      obtain rfl := Option.some.inj h
      rcases Runs.update_eq_some htask with ⟨rfl, hfirst⟩ | ⟨hij, hkept⟩
      · cases hcall : call prims s.db op now with
        | done reply => rw [hcall] at hfirst; cases hfirst
        | more first =>
          rw [hcall] at hfirst
          exact .inr (.inl ⟨op, now, rfl, rfl, Option.some.inj hfirst ▸ hcall⟩)
      · exact .inl ⟨hkept, fun _ _ h => by cases h; exact hij rfl⟩
  | resume j now insert =>
    rw [step] at h
    cases hj : s.tasks j with
    | none => rw [hj] at h; cases h
    | some task₀ =>
      rw [hj] at h
      obtain rfl := Option.some.inj h
      rcases Runs.update_eq_some htask with ⟨rfl, hnext⟩ | ⟨-, hkept⟩
      · cases hresume : (resume prims s.db now insert task₀).2 with
        | done reply => rw [hresume] at hnext; cases hnext
        | more next =>
          rw [hresume] at hnext
          exact .inr (.inr ⟨now, insert, task₀, rfl, hj, Option.some.inj hnext ▸ hresume⟩)
      · exact .inl ⟨hkept, fun _ _ h => by cases h⟩
  | initiateRecovery id _ _ _ _ _ _ _ =>
    rw [step] at h
    cases hid : s.db.sessions id with
    | some _ => rw [hid] at h; cases h
    | none =>
      rw [hid] at h
      obtain rfl := Option.some.inj h
      exact .inl ⟨htask, fun _ _ h => by cases h⟩
  | enrollHub params =>
    obtain rfl := Option.some.inj h
    have hsame : (s.commit (enrollHub s.db params)).tasks = s.tasks := by
      cases enrollHub s.db params <;> rfl
    exact .inl ⟨hsame ▸ htask, fun _ _ h => by cases h⟩
  | rotateGroup params rewrapped now =>
    obtain rfl := Option.some.inj h
    have hsame : (s.commit (rotateGroup s.db params rewrapped now)).tasks = s.tasks := by
      cases rotateGroup s.db params rewrapped now <;> rfl
    exact .inl ⟨hsame ▸ htask, fun _ _ h => by cases h⟩
  | putUserEnvelope userPubkey hubId envelope =>
    obtain rfl := Option.some.inj h
    exact .inl ⟨htask, fun _ _ h => by cases h⟩

/-! ## Calls under way -/

/-- The call that a statement under way belongs to: the last one of its number, and what it has
read admits the statement. -/
def Origin (prims : RecoveryPrims N) (s : System N) (events : List (Event N)) (i : Nat)
    (task : Task N) : Prop :=
  ∃ before op now between s₁ row, events = before ++ .call i op now :: between ∧
    Runs.run (step prims) s before = some s₁ ∧ (∀ op' now', .call i op' now' ∉ between) ∧
    s₁.db.sessions op.sessionId = some row ∧ Admits row now op.sessionId task

theorem Origin.snoc {s : System N} {events : List (Event N)} {i : Nat} {task task' : Task N}
    (h : Origin prims s events i task) {e : Event N} (he : ∀ op now, e ≠ .call i op now)
    (hnext : ∀ row now sessionId, Admits row now sessionId task →
      Admits row now sessionId task') : Origin prims s (events ++ [e]) i task' := by
  obtain ⟨before, op, now, between, s₁, row, rfl, hbefore, hbetween, hrow, hadmits⟩ := h
  refine ⟨before, op, now, between ++ [e], s₁, row, by simp, hbefore, fun op' now' hmem => ?_,
    hrow, hnext _ _ _ hadmits⟩
  rcases List.mem_append.mp hmem with hmem | hmem
  · exact hbetween op' now' hmem
  · exact he op' now' (List.mem_singleton.mp hmem).symm

/-- **Every statement under way has a call that admitted it.** -/
theorem run_origin {s t : System N} {events : List (Event N)} (hstart : ∀ i, s.tasks i = none)
    (hrun : Runs.run (step prims) s events = some t) :
    ∀ i task, t.tasks i = some task → Origin prims s events i task := by
  refine Runs.run_history
    (I := fun events u => ∀ i task, u.tasks i = some task → Origin prims s events i task)
    (fun i task h => by rw [hstart i] at h; cases h) ?_ hrun
  intro events u e u' hevents hu hstep i task htask
  rcases step_tasks hstep htask with
    ⟨hsame, he⟩ | ⟨op, now, rfl, -, hcall⟩ | ⟨now, insert, task₀, rfl, hi, hresume⟩
  · exact (hu i task hsame).snoc he fun _ _ _ h => h
  · obtain ⟨row, hrow, hadmits⟩ := call_admits hcall
    exact ⟨events, op, now, [], u, row, rfl, hevents, (fun _ _ h => by cases h), hrow, hadmits⟩
  · exact (hu i task₀ hi).snoc (fun _ _ h => by cases h) fun _ _ _ h => resume_admits h hresume

end Llamenos.Worker.RecoveryGroup
