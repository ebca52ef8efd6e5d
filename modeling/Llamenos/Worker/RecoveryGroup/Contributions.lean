import Llamenos.Worker.RecoveryGroup.Release

/-!
# Contributions to a session

`contributeShare` inserts a contribution, counts those of the session, and makes it active once they
reach the threshold of its group. The count is taken in the transaction of the insert: it sees the
call's own row, and of the others those that have been committed. Of two last contributions at once
neither sees the other, and nobody makes the session active.

Results:
* `step_contributing`: what a call under way has read is still so, or is behind.
* `settled_iff`: **a session is past `verified` exactly when it has enough contributions, at every
  moment, exactly if the one that reaches the threshold has counted all the others**.
* `left_waiting`: two share holders contribute at once, and the session waits for a third.
-/

namespace Llamenos.Worker.RecoveryGroup

open Llamenos.Lib Llamenos.Worker.CryptoKeys

variable {N : Type} {prims : RecoveryPrims N} {sessionId : String} {s s' t : System N} {e : Event N}
  {events : List (Event N)}

/-- A session is past `verified` exactly when it has as many contributions as its group asks for. -/
def Settled (db : Db N) (sessionId : String) : Prop :=
  ∀ row, db.sessions sessionId = some row →
    ((row.status = .active ∨ row.status = .completed) ↔
      thresholdOf db row.hubId ≤ (db.contributions sessionId).length)

/-- An event of a call of `contributeShare`, of a session or another. -/
def Contributes : Event N → Prop
  | .call _ (.contributeShare _) _ => True
  | .resume _ _ _ => True
  | _ => False

/-! ## Calls under way -/

/-- What a call has read of the session's row is still so, but that the session may be active. -/
def Fits (db : Db N) (sessionId : String) (session : Session) : Prop :=
  ∃ row, db.sessions sessionId = some row ∧ row.hubId = session.hubId ∧
    (session.status = .verified ∧ (row.status = .verified ∨ row.status = .active) ∨
      session.status = .active ∧ row.status = .active)

/-- A call under way is one of `contributeShare`, and what it has read fits. -/
def Task.Sound (db : Db N) : Task N → Prop
  | .contributeHolders params session | .contributeExisting params session
  | .contributeCount params session => Fits db params.sessionId session
  | .contributeGroup params session contributionCount =>
    Fits db params.sessionId session ∧
      contributionCount ≤ (db.contributions params.sessionId).length + 1
  | .contributeCommit params session contributionCount threshold =>
    Fits db params.sessionId session ∧
      contributionCount ≤ (db.contributions params.sessionId).length + 1 ∧
      threshold = thresholdOf db session.hubId
  | _ => False

/-- What contributions do to the tables: no session loses any, or becomes anything but active. -/
structure Grows (db db' : Db N) : Prop where
  groups : db'.groups = db.groups
  contributions : ∀ id, (db.contributions id).length ≤ (db'.contributions id).length
  sessions : ∀ id row, db.sessions id = some row → ∃ row', db'.sessions id = some row' ∧
    row'.hubId = row.hubId ∧
    (row'.status = row.status ∨ row.status = .verified ∧ row'.status = .active)

theorem grows_refl (db : Db N) : Grows db db :=
  ⟨rfl, fun _ => le_rfl, fun _ row h => ⟨row, h, rfl, .inl rfl⟩⟩
variable {session : Session}

theorem Fits.grows {db db' : Db N} (h : Fits db sessionId session)
    (hgrows : Grows db db') : Fits db' sessionId session := by
  obtain ⟨row, hrow, hhub, hstatus⟩ := h
  obtain ⟨row', hrow', hhub', hstatus'⟩ := hgrows.sessions sessionId row hrow
  refine ⟨row', hrow', hhub'.trans hhub, ?_⟩
  rcases hstatus' with hsame | ⟨hverified, hactive⟩
  · rwa [hsame]
  · rcases hstatus with ⟨hread, -⟩ | ⟨-, hrow⟩
    · exact .inl ⟨hread, .inr hactive⟩
    · rw [hverified] at hrow
      cases hrow

theorem Task.Sound.grows {db db' : Db N} {task : Task N} (h : task.Sound db)
    (hgrows : Grows db db') : task.Sound db' := by
  cases task with
  | contributeHolders params session => exact Fits.grows h hgrows
  | contributeExisting params session => exact Fits.grows h hgrows
  | contributeCount params session => exact Fits.grows h hgrows
  | contributeGroup params session count =>
    exact ⟨h.1.grows hgrows, h.2.trans (Nat.succ_le_succ (hgrows.contributions _))⟩
  | contributeCommit params session count threshold =>
    refine ⟨h.1.grows hgrows, h.2.1.trans (Nat.succ_le_succ (hgrows.contributions _)), ?_⟩
    rw [h.2.2, thresholdOf, thresholdOf, hgrows.groups]
  | _ => exact h

/-! ## The commit -/

/-- The tables once the contribution is in. -/
def inserted (db : Db N) (params : ContributeParams) (now : Int) : Db N := { db with
  contributions := Function.update db.contributions params.sessionId
    (db.contributions params.sessionId ++ [⟨params.contributorPubkey, params.encryptedShare,
      params.contributorSignature, now⟩]) }

theorem inserted_length (db : Db N) (params : ContributeParams) (now : Int) :
    ((inserted db params now).contributions params.sessionId).length =
      (db.contributions params.sessionId).length + 1 := by
  simp only [inserted, Function.update_self, List.length_append, List.length_singleton]

variable {params : ContributeParams} {contributionCount threshold : Nat} {db : Db N}
  {insert : Insert} {now : Int}

/-- **What a commit writes**: the contribution, and the status where the call has counted enough. -/
theorem resume_commit
    :
    (resume prims db now insert
        (.contributeCommit params session contributionCount threshold)).1 =
      if contributed db params then db
      else if threshold ≤ contributionCount ∧ session.status = .verified then
        updateSession (inserted db params now) params.sessionId
          fun row => { row with status := .active }
      else inserted db params now := by
  rw [resume, contributeCommit]
  split_ifs <;> rfl

theorem grows_inserted (db : Db N) (params : ContributeParams) (now : Int) :
    Grows db (inserted db params now) := by
  refine ⟨rfl, fun id => ?_, fun _ row h => ⟨row, h, rfl, .inl rfl⟩⟩
  by_cases hid : id = params.sessionId
  · rw [hid, inserted_length]
    exact Nat.le_succ _
  · simp only [inserted, Function.update_of_ne hid, le_refl]

theorem Grows.activate {db db' : Db N} (h : Grows db db')
    (hstatus : ∀ row, db.sessions sessionId = some row →
      row.status = .verified ∨ row.status = .active) :
    Grows db (updateSession db' sessionId fun row => { row with status := .active }) := by
  refine ⟨h.groups, h.contributions, fun id row hrow => ?_⟩
  obtain ⟨row', hrow', hhub, hkept⟩ := h.sessions id row hrow
  by_cases hid : id = sessionId
  · subst hid
    refine ⟨{ row' with status := .active }, ?_, hhub, ?_⟩
    · simp only [updateSession, Function.update_self, hrow', Option.map_some]
    · rcases hstatus row hrow with hverified | hactive
      · exact .inr ⟨hverified, rfl⟩
      · exact .inl hactive.symm
  · refine ⟨row', ?_, hhub, hkept⟩
    simp only [updateSession, Function.update_of_ne hid, hrow']

theorem Fits.status (h : Fits db sessionId session) {row : Session}
    (hrow : db.sessions sessionId = some row) :
    row.status = .verified ∨ row.status = .active := by
  obtain ⟨row', hrow', -, hstatus⟩ := h
  obtain rfl := Option.some.inj (hrow.symm.trans hrow')
  rcases hstatus with ⟨-, hstatus⟩ | ⟨-, hactive⟩
  · exact hstatus
  · exact .inr hactive

/-- A statement of `contributeShare` is its commit, or reads only. -/
theorem resume_cases (prims : RecoveryPrims N) (now : Int) (insert : Insert)
    {task : Task N} (h : task.Sound db) :
    (∃ params session contributionCount threshold,
        task = .contributeCommit params session contributionCount threshold) ∨
      ((∀ params session contributionCount threshold,
          task ≠ .contributeCommit params session contributionCount threshold) ∧
        (resume prims db now insert task).1 = db) := by
  cases task with
  | contributeHolders params session =>
    refine .inr ⟨(fun _ _ _ _ h => by cases h), ?_⟩
    rw [resume]
    split_ifs <;> rfl
  | contributeExisting params session =>
    refine .inr ⟨(fun _ _ _ _ h => by cases h), ?_⟩
    rw [resume]
    split_ifs <;> rfl
  | contributeCount params session => exact .inr ⟨(fun _ _ _ _ h => by cases h), rfl⟩
  | contributeGroup params session count => exact .inr ⟨(fun _ _ _ _ h => by cases h), rfl⟩
  | contributeCommit params session count threshold =>
    exact .inl ⟨params, session, count, threshold, rfl⟩
  | _ => cases h

/-- It lets the tables grow. -/
theorem resume_grows {task : Task N}
    (h : task.Sound db) : Grows db (resume prims db now insert task).1 := by
  rcases resume_cases prims now insert h with
    ⟨params, session, count, threshold, rfl⟩ | ⟨-, hsame⟩
  · rw [resume_commit]
    split_ifs
    · exact grows_refl db
    · exact (grows_inserted db params now).activate fun row hrow => h.1.status hrow
    · exact grows_inserted db params now
  · rw [hsame]
    exact grows_refl db

/-- What it goes on with is sound. -/
theorem resume_sound {task task' : Task N}
    (h : task.Sound db) (hnext : (resume prims db now insert task).2 = .more task') :
    task'.Sound db := by
  cases task with
  | contributeHolders params session =>
    simp only [resume, throws] at hnext
    split_ifs at hnext
    cases hnext
    exact h
  | contributeExisting params session =>
    simp only [resume, throws] at hnext
    split_ifs at hnext
    cases hnext
    exact h
  | contributeCount params session =>
    cases hnext
    exact ⟨h, le_rfl⟩
  | contributeGroup params session count =>
    cases hnext
    exact ⟨h.1, h.2, rfl⟩
  | contributeCommit params session count threshold =>
    rw [resume] at hnext
    cases hcommit : contributeCommit db params session count threshold now <;>
      rw [hcommit] at hnext <;> cases hnext
  | _ => cases h

theorem call_sound {task : Task N}
    (h : call prims db (.contributeShare params) now = .more task) : task.Sound db := by
  rw [call, Op.sessionId] at h
  cases hrow : db.sessions params.sessionId with
  | none => rw [hrow] at h; cases h
  | some row =>
    rw [hrow] at h
    simp only [contributeShare, throws] at h
    split_ifs at h with hstatus
    cases h
    refine ⟨row, hrow, rfl, ?_⟩
    by_cases hverified : row.status = .verified
    · exact .inl ⟨hverified, .inl hverified⟩
    · have hactive := not_not.mp fun hactive => hstatus ⟨hverified, hactive⟩
      exact .inr ⟨hactive, hactive⟩

/-- All the calls under way are sound. -/
def Contributing (s : System N) : Prop := ∀ i task, s.tasks i = some task → task.Sound s.db

/-- **What calls have read is still so, or behind.** -/
theorem step_contributing (hsound : Contributing s) (he : Contributes e)
    (h : step prims s e = some s') : Contributing s' ∧ Grows s.db s'.db := by
  have hgrows : Grows s.db s'.db := by
    cases e with
    | call i op now =>
      rw [step] at h
      cases hfree : s.tasks i with
      | some _ => rw [hfree] at h; cases h
      | none =>
        rw [hfree] at h
        exact Option.some.inj h ▸ grows_refl s.db
    | resume i now insert =>
      rw [step] at h
      cases htask : s.tasks i with
      | none => rw [htask] at h; cases h
      | some task =>
        rw [htask] at h
        exact Option.some.inj h ▸ resume_grows (hsound i task htask)
    | _ => cases he
  refine ⟨fun i task htask => ?_, hgrows⟩
  rcases step_tasks h htask with
    ⟨hsame, -⟩ | ⟨op, now, rfl, hdb, hcall⟩ | ⟨now, insert, task₀, rfl, hi, hresume⟩
  · exact (hsound i task hsame).grows hgrows
  · cases op with
    | contributeShare params => exact hdb ▸ call_sound hcall
    | _ => cases he
  · exact (resume_sound (hsound i task₀ hi) hresume).grows hgrows

/-! ## The threshold -/

/-- The contribution that reaches the threshold has counted all the others: none has been committed
since. -/
def Task.CountsAll (db : Db N) (sessionId : String) : Task N → Prop
  | .contributeCommit params _ contributionCount _ =>
    params.sessionId = sessionId → contributed db params = false →
      ∀ row ∈ db.sessions sessionId, row.status = .verified →
        thresholdOf db row.hubId ≤ (db.contributions sessionId).length + 1 →
          contributionCount = (db.contributions sessionId).length + 1
  | _ => True

def CountsAll (sessionId : String) (s : System N) : Event N → Prop
  | .resume i _ _ => ∀ task ∈ s.tasks i, task.CountsAll s.db sessionId
  | _ => True

instance (db : Db N) (sessionId : String) (task : Task N) :
    Decidable (task.CountsAll db sessionId) := by
  cases task <;> unfold Task.CountsAll <;> infer_instance

instance (sessionId : String) (s : System N) (e : Event N) :
    Decidable (CountsAll sessionId s e) := by
  cases e <;> unfold CountsAll <;> infer_instance

/-- Tables that have the session's row, its group and its contributions alike. -/
theorem settled_congr {db db' : Db N} (hgroups : db'.groups = db.groups)
    (hrow : db'.sessions sessionId = db.sessions sessionId)
    (hcontributions : db'.contributions sessionId = db.contributions sessionId) :
    Settled db' sessionId ↔ Settled db sessionId := by
  simp only [Settled, hrow, hcontributions, thresholdOf, hgroups]

/-- A commit to another session. -/
theorem settled_other
    (hother : sessionId ≠ params.sessionId) :
    Settled (resume prims db now insert
        (.contributeCommit params session contributionCount threshold)).1 sessionId ↔
      Settled db sessionId := by
  rw [resume_commit]
  split_ifs
  · exact Iff.rfl
  · refine settled_congr rfl ?_ ?_
    · simp only [updateSession, inserted, Function.update_of_ne hother]
    · simp only [updateSession, inserted, Function.update_of_ne hother]
  · refine settled_congr rfl rfl ?_
    simp only [inserted, Function.update_of_ne hother]

/-- **A commit keeps the session settled exactly if it has counted all the contributions**, where
that matters. -/
theorem settled_commit
    (hsound : (Task.contributeCommit params session contributionCount threshold : Task N).Sound db)
    (hnew : contributed db params = false) (hsettled : Settled db params.sessionId) :
    Settled (resume prims db now insert
        (.contributeCommit params session contributionCount threshold)).1 params.sessionId ↔
      ∀ row ∈ db.sessions params.sessionId, row.status = .verified →
        thresholdOf db row.hubId ≤ (db.contributions params.sessionId).length + 1 →
          contributionCount = (db.contributions params.sessionId).length + 1 := by
  obtain ⟨⟨row, hrow, hhub, hstatus⟩, hcount, rfl⟩ := hsound
  have hlength := inserted_length db params now
  have hreached := hsettled row hrow
  rw [resume_commit, hnew, ← hhub]
  simp only [Bool.false_eq_true, if_false, hrow, Option.mem_def, Option.some.injEq, forall_eq']
  have hactive : row.status = .verified ∧ session.status = .verified ∨ row.status = .active := by
    rcases hstatus with ⟨hread, hverified | hactive⟩ | ⟨-, hactive⟩
    · exact .inl ⟨hverified, hread⟩
    · exact .inr hactive
    · exact .inr hactive
  rcases hactive with ⟨hverified, hread⟩ | hactive
  · -- the session waits, and the call may be the one that it waits for
    have hwaits : ¬ thresholdOf db row.hubId ≤ (db.contributions params.sessionId).length := by
      rw [← hreached, hverified]
      rintro (h | h) <;> cases h
    by_cases henough : thresholdOf db row.hubId ≤ contributionCount
    · rw [if_pos ⟨henough, hread⟩]
      refine iff_of_true ?_ fun _ _ => by omega
      simp only [Settled, updateSession, Function.update_self, inserted, hrow, Option.map_some,
        Option.some.injEq, forall_eq', List.length_append, List.length_singleton]
      refine iff_of_true (.inl trivial) ?_
      exact henough.trans hcount
    · rw [if_neg fun h => henough h.1]
      have hstays : Settled (inserted db params now) params.sessionId ↔
          ¬ thresholdOf db row.hubId ≤ (db.contributions params.sessionId).length + 1 := by
        rw [Settled, hlength]
        simp only [inserted, hrow, Option.some.injEq, forall_eq', hverified, reduceCtorEq,
          or_self, false_iff]
        rfl
      rw [hstays]
      constructor
      · exact fun hless _ hreaches => absurd hreaches hless
      · intro hall hreaches
        have := hall hverified hreaches
        omega
  · -- the session has had enough contributions before
    have henough : thresholdOf db row.hubId ≤ (db.contributions params.sessionId).length + 1 :=
      (hreached.mp (.inl hactive)).trans (Nat.le_succ _)
    refine iff_of_true ?_ fun hverified => ?_
    · split_ifs
      · simp only [Settled, updateSession, Function.update_self, inserted, hrow, Option.map_some,
          Option.some.injEq, forall_eq', List.length_append, List.length_singleton]
        exact iff_of_true (.inl trivial) henough
      · rw [Settled, hlength]
        simp only [inserted, hrow, Option.some.injEq, forall_eq']
        exact iff_of_true (.inl hactive) henough
    · rw [hactive] at hverified
      cases hverified

/-- **A step keeps the session settled exactly if it counts all the contributions.** -/
theorem step_settled (hsound : Contributing s) (he : Contributes e)
    (hsettled : Settled s.db sessionId) (h : step prims s e = some s') :
    Settled s'.db sessionId ↔ CountsAll sessionId s e := by
  cases e with
  | call i op now =>
    refine iff_of_true ?_ trivial
    rw [step] at h
    cases hfree : s.tasks i with
    | some _ => rw [hfree] at h; cases h
    | none =>
      rw [hfree] at h
      exact Option.some.inj h ▸ hsettled
  | resume i now insert =>
    rw [step] at h
    cases htask : s.tasks i with
    | none => rw [htask] at h; cases h
    | some task =>
      rw [htask] at h
      obtain rfl := Option.some.inj h
      rcases resume_cases prims now insert (hsound i task htask) with
        ⟨params, session, count, threshold, rfl⟩ | ⟨hreads, hsame⟩
      · by_cases hcommits : params.sessionId = sessionId ∧ contributed s.db params = false
        · obtain ⟨rfl, hnew⟩ := hcommits
          rw [settled_commit (hsound i _ htask) hnew hsettled]
          simp only [CountsAll, htask, Option.mem_def, Option.some.injEq, forall_eq',
            Task.CountsAll, hnew, true_implies]
        · refine iff_of_true ?_ ?_
          · by_cases hother : sessionId = params.sessionId
            · have hdup : contributed s.db params = true :=
                Bool.not_eq_false _ ▸ fun hnew => hcommits ⟨hother.symm, hnew⟩
              rwa [resume_commit, if_pos hdup]
            · exact (settled_other hother).mpr hsettled
          · intro task htask'
            obtain rfl := Option.some.inj (htask.symm.trans htask')
            exact fun hid hnew => absurd ⟨hid, hnew⟩ hcommits
      · refine iff_of_true (hsame.symm ▸ hsettled) ?_
        intro task' htask'
        obtain rfl := Option.some.inj (htask.symm.trans htask')
        cases task with
        | contributeCommit params session count threshold => exact absurd rfl (hreads _ _ _ _)
        | _ => trivial
  | _ => cases he

/-- **A session is past `verified` exactly when it has enough contributions, at every moment,
exactly if the contribution that reaches the threshold has counted all the others.** -/
theorem settled_iff {db : Db N} (hsettled : Settled db sessionId)
    (hcalls : ∀ e ∈ events, Contributes e)
    (hrun : Runs.run (step prims) (start db) events = some t) :
    (∀ before after m, events = before ++ after →
        Runs.run (step prims) (start db) before = some m → Settled m.db sessionId) ↔
      Runs.Along (step prims) (CountsAll sessionId) (start db) events :=
  Runs.inv_iff_along_mem (I := Contributing) (G := fun s => Settled s.db sessionId)
    (fun _ _ e he hsound h => (step_contributing hsound (hcalls e he) h).1)
    (fun _ _ e he hsound hsettled h => step_settled hsound (hcalls e he) hsettled h)
    (fun _ _ h => by cases h) hsettled hrun

/-! ## Two contributions at once -/

/-- A session whose code has been verified, of a group of three, of which two are enough. -/
def verifiedDb : Db Int :=
  (Runs.run (step samplePrims) (start sampleDb) verified).elim sampleDb System.db

/-- A call that contributes, up to its commit. -/
def contributing (i : Nat) (holder : String) : List (Event Int) :=
  .call i (.contributeShare ⟨"session", holder, "share", "signature"⟩) 2000 ::
    List.replicate 4 (.resume i 2000 noInsert)

/-- Two share holders contribute before either has committed. -/
def bothAtOnce : List (Event Int) :=
  contributing 0 "ann" ++ contributing 1 "bob" ++ [.resume 0 2001 noInsert, .resume 1 2002 noInsert]

theorem verifiedDb_settled : Settled verifiedDb "session" := by
  intro row hrow
  cases hrow
  decide

/-- **The session is left waiting** with the two contributions that are enough. -/
theorem left_waiting : Settled verifiedDb "session" ∧ (∀ e ∈ bothAtOnce, Contributes e) ∧
    ∃ t, Runs.run (step samplePrims) (start verifiedDb) bothAtOnce = some t ∧
      (∀ i, t.tasks i = none) ∧ ¬ Settled t.db "session" := by
  refine ⟨verifiedDb_settled, ?_, _, rfl, ?_, ?_⟩
  · simp [bothAtOnce, contributing, Contributes]
  · rintro (_ | _ | i) <;> rfl
  · intro h
    exact absurd (h _ rfl) (by decide)

/-- One contributes after the other. -/
def oneAfterTheOther : List (Event Int) := contribution "ann" ++ contribution "bob"

theorem activated : ∃ t, Runs.run (step samplePrims) (start verifiedDb) oneAfterTheOther = some t ∧
    Settled t.db "session" := by
  refine ⟨_, rfl, ?_⟩
  refine (settled_iff verifiedDb_settled ?_ rfl).mpr ?_ oneAfterTheOther [] _ rfl rfl
  · simp [oneAfterTheOther, contribution, statements, Contributes]
  · decide +kernel

end Llamenos.Worker.RecoveryGroup
