import Llamenos.Lib.Attempts
import Llamenos.Worker.RecoveryGroup.Sessions

/-!
# Guesses of the verification code

`verifyInitiation` is to let a session's code be guessed a few times only. It reads the row, with
the counter of the attempts so far, compares, and stores the counter that it has read plus one.
Guesses that read the row before the others have stored theirs are compared too, and are counted
once.

Results:
* `step_attempts`: a step's guess, and what is stored of the guesses.
* `bounded_iff`: **no more wrong codes are compared than the limit allows, however the guesses go on
  one after the other, exactly if they have come one after the other**.
* `six_at_once`: six wrong codes are compared.
-/

namespace Llamenos.Worker.RecoveryGroup

open Llamenos.Lib Llamenos.Worker.CryptoKeys

variable {N : Type} {prims : RecoveryPrims N} {sessionId : String} {s s' t : System N} {e : Event N}
  {events : List (Event N)}

/-! ## Guesses, and their counter -/

/-- The row takes a guess: what `verifyInitiation` checks before it compares. -/
def Session.TakesGuess (row : Session) (now : Int) : Prop :=
  row.status = .pending ∧ now ≤ row.expiresAt ∧
    row.verificationAttempts < MAX_VERIFICATION_ATTEMPTS
  deriving Decidable

/-- The wrong code that an event compares with the one of the session. -/
def wrongGuesses (prims : RecoveryPrims N) (sessionId : String) (s : System N) :
    Event N → List String
  | .call _ (.verifyInitiation id verificationCode hmacSecret) now =>
    match s.db.sessions id with
    | some row =>
      if id = sessionId ∧ row.TakesGuess now ∧
          row.verificationCodeHash ≠ some (prims.hmac hmacSecret verificationCode) then
        [verificationCode]
      else []
    | none => []
  | _ => []

/-- What a statement under way stores as the session's counter. -/
def Task.counts (sessionId : String) : Task N → Option Nat
  | .verifyAttempt id verificationAttempts =>
    if id = sessionId then some verificationAttempts else none
  | _ => none

/-- The session's counter, and the guesses that are yet to be counted. -/
def attempts (sessionId : String) (s : System N) : Attempts.View Nat where
  counter := (s.db.sessions sessionId).map Session.verificationAttempts
  pending i := (s.tasks i).bind (Task.counts sessionId)

/-- A wrong code is compared only when every one before it has been counted. -/
def OneByOne (prims : RecoveryPrims N) (sessionId : String) (s : System N) (e : Event N) : Prop :=
  wrongGuesses prims sessionId s e ≠ [] → ∀ i, (attempts sessionId s).pending i = none

/-- The wrong codes that a run compares. -/
def compared (prims : RecoveryPrims N) (sessionId : String) (s : System N)
    (events : List (Event N)) : List String :=
  Runs.emitted (step prims) (wrongGuesses prims sessionId) s events

/-! ## What a step does to them -/

theorem call_guess {db : Db N} {verificationCode hmacSecret : String} {now : Int} {row : Session}
    (hrow : db.sessions sessionId = some row) (htakes : row.TakesGuess now)
    (hwrong : row.verificationCodeHash ≠ some (prims.hmac hmacSecret verificationCode)) :
    call prims db (.verifyInitiation sessionId verificationCode hmacSecret) now =
      .more (.verifyAttempt sessionId (row.verificationAttempts + 1)) := by
  obtain ⟨hstatus, hexpires, hattempts⟩ := htakes
  rw [call, Op.sessionId, hrow]
  exact (if_neg (not_not.mpr hstatus)).trans <| (if_neg (Int.not_lt.mpr hexpires)).trans <|
    (if_neg (Nat.not_le.mpr hattempts)).trans <| if_pos hwrong

/-- Only a wrong guess goes on to be counted. -/
theorem call_counts (prims : RecoveryPrims N) (sessionId : String) (s : System N) (i : Nat)
    (op : Op N) (now : Int) :
    (wrongGuesses prims sessionId s (.call i op now) = [] ∧
        (call prims s.db op now).task.bind (Task.counts sessionId) = none) ∨
      ∃ verificationCode row, wrongGuesses prims sessionId s (.call i op now) = [verificationCode] ∧
        s.db.sessions sessionId = some row ∧ row.TakesGuess now ∧
        (call prims s.db op now).task.bind (Task.counts sessionId) =
          some (row.verificationAttempts + 1) := by
  cases hrow : s.db.sessions op.sessionId with
  | none =>
    refine .inl ⟨?_, by rw [call, hrow]; rfl⟩
    cases op with
    | verifyInitiation id verificationCode hmacSecret =>
      have hid : s.db.sessions id = none := hrow
      rw [wrongGuesses, hid]
    | _ => rfl
  | some row =>
    cases op with
    | verifyInitiation id verificationCode hmacSecret =>
      have hid : s.db.sessions id = some row := hrow
      by_cases hguess : id = sessionId ∧ row.TakesGuess now ∧
          row.verificationCodeHash ≠ some (prims.hmac hmacSecret verificationCode)
      · obtain ⟨rfl, htakes, hwrong⟩ := hguess
        refine .inr ⟨verificationCode, row, ?_, hid, htakes, ?_⟩
        · rw [wrongGuesses, hid]
          exact if_pos ⟨rfl, htakes, hwrong⟩
        · rw [call_guess hid htakes hwrong]
          exact if_pos rfl
      · refine .inl ⟨?_, ?_⟩
        · rw [wrongGuesses, hid]
          exact if_neg hguess
        · rw [call, hrow]
          simp only [verifyInitiation, throws]
          split_ifs with hstatus hexpires hattempts hwrong <;> try rfl
          refine if_neg fun hsame => hguess ⟨hsame, ⟨not_not.mp hstatus, ?_, ?_⟩, hwrong⟩
          · exact Int.not_lt.mp hexpires
          · exact Nat.not_le.mp hattempts
    | getSession id => exact .inl ⟨rfl, by rw [call, hrow]; rfl⟩
    | _ =>
      refine .inl ⟨rfl, ?_⟩
      rw [call, hrow]
      simp only [contributeShare, cancelSession, completeRecovery, getUserEnvelope,
        applyEmergencyOverride, throws]
      split_ifs <;> rfl

/-- No other statement leads to one that counts. -/
theorem resume_counts {db : Db N} {now : Int} {insert : Insert} {task : Task N} :
    (resume prims db now insert task).2.task.bind (Task.counts sessionId) = none := by
  cases task with
  | contributeCommit params session count threshold =>
    rw [resume]
    cases contributeCommit db params session count threshold now <;> rfl
  | completeGroup params session contributors =>
    simp only [resume, checkCompletion, throws]
    split_ifs <;> rfl
  | completeCommit params session =>
    rw [resume]
    cases completeCommit prims db params session insert now <;> rfl
  | _ =>
    simp only [resume, throws]
    try split_ifs
    all_goals rfl

/-- What a statement leaves of the counter: what it stores, or what was there. -/
theorem resume_counter {db : Db N} {now : Int} {insert : Insert} {task : Task N} :
    ((resume prims db now insert task).1.sessions sessionId).map Session.verificationAttempts =
      (db.sessions sessionId).map fun row =>
        (task.counts sessionId).getD row.verificationAttempts := by
  have hset : ∀ {db : Db N} {id : String} {set : Session → Session},
      (∀ row, (set row).verificationAttempts = row.verificationAttempts) →
      ((updateSession db id set).sessions sessionId).map Session.verificationAttempts =
        (db.sessions sessionId).map Session.verificationAttempts := by
    intro db id set hset
    by_cases hid : sessionId = id
    · subst hid
      simp only [updateSession, Function.update_self, Option.map_map, Function.comp_def, hset]
    · simp only [updateSession, Function.update_of_ne hid]
  cases task with
  | verifyAttempt id n =>
    by_cases hid : id = sessionId
    · subst hid
      simp only [resume, updateSession, Function.update_self, Option.map_map, Function.comp_def,
        Task.counts, if_true, Option.getD_some]
    · simp only [resume, updateSession, Function.update_of_ne (Ne.symm hid), Task.counts,
        if_neg hid, Option.getD_none]
  | verifyExpire id message => exact hset fun _ => rfl
  | verifyStore id expiresAt => exact hset fun _ => rfl
  | cancelStore id cancelledBy cancelledAt => exact hset fun _ => rfl
  | overrideStore params expiresAt => exact hset fun _ => rfl
  | contributeHolders params session =>
    simp only [resume]
    split_ifs <;> rfl
  | contributeExisting params session =>
    simp only [resume]
    split_ifs <;> rfl
  | contributeCommit params session count threshold =>
    simp only [resume, contributeCommit]
    split_ifs with _ hactive
    · rfl
    · exact hset fun _ => rfl
    · rfl
  | completeCommit params session =>
    rw [resume, completeCommit]
    cases recoveryRow prims db params session insert with
    | error err => rfl
    | ok row => exact hset fun _ => rfl
  | _ => rfl

theorem commit_tasks (result : Except RecoveryError (Db N)) :
    (s.commit result).tasks = s.tasks := by
  cases result <;> rfl

/-- What changes neither a counter nor a statement under way. -/
theorem attempts_congr (hsessions : s'.db.sessions = s.db.sessions) (htasks : s'.tasks = s.tasks) :
    attempts sessionId s' = attempts sessionId s := by
  rw [attempts, attempts, hsessions, htasks]

/-- A statement under way comes to its end, or the next one comes. -/
theorem attempts_update (db : Db N) (i : Nat) (next : Option (Task N)) :
    attempts sessionId { s with db := db, tasks := Function.update s.tasks i next } =
      ⟨(db.sessions sessionId).map Session.verificationAttempts,
        Function.update (attempts sessionId s).pending i (next.bind (Task.counts sessionId))⟩ := by
  refine congrArg (Attempts.View.mk _) (funext fun j => ?_)
  change (Function.update s.tasks i next j).bind (Task.counts sessionId) = _
  by_cases hji : j = i
  · rw [hji, Function.update_self, Function.update_self]
  · rw [Function.update_of_ne hji, Function.update_of_ne hji]
    rfl

/-- **What a step does to the counter and the guesses under way.** -/
theorem step_attempts (h : step prims s e = some s') :
    Attempts.Step MAX_VERIFICATION_ATTEMPTS (attempts sessionId s) (attempts sessionId s')
      (wrongGuesses prims sessionId s e).length := by
  cases e with
  | call i op now =>
    rw [step] at h
    cases hfree : s.tasks i with
    | some _ => rw [hfree] at h; cases h
    | none =>
      rw [hfree] at h
      obtain rfl := Option.some.inj h
      have hpending : (attempts sessionId s).pending i = none :=
        congrArg (Option.bind · (Task.counts sessionId)) hfree
      rcases call_counts prims sessionId s i op now with
        ⟨hnone, hcounts⟩ | ⟨code, row, hone, hrow, htakes, hcounts⟩
      · rw [hnone, attempts_update, hcounts, ← hpending, Function.update_eq_self]
        exact .rest
      · rw [hone, attempts_update, hcounts]
        exact .attempt i row.verificationAttempts (congrArg (Option.map _) hrow) htakes.2.2 hpending
  | resume i now insert =>
    rw [step] at h
    cases htask : s.tasks i with
    | none => rw [htask] at h; cases h
    | some task =>
      rw [htask] at h
      obtain rfl := Option.some.inj h
      have hpending : (attempts sessionId s).pending i = task.counts sessionId :=
        congrArg (Option.bind · (Task.counts sessionId)) htask
      rw [attempts_update, resume_counts, resume_counter]
      cases hcounts : task.counts sessionId with
      | none =>
        rw [← hcounts, ← hpending, Function.update_eq_self, hpending, hcounts]
        exact .rest
      | some n =>
        have hstore : Attempts.Step MAX_VERIFICATION_ATTEMPTS (attempts sessionId s) _ 0 :=
          .store i n (hpending.trans hcounts)
        simpa only [attempts, Option.map_map, Function.comp_def, Option.getD_some, wrongGuesses,
          List.length_nil] using hstore
  | initiateRecovery id hub userPubkey newDevicePubkey code secret delayHours now =>
    rw [step] at h
    cases hid : s.db.sessions id with
    | some _ => rw [hid] at h; cases h
    | none =>
      rw [hid] at h
      obtain rfl := Option.some.inj h
      by_cases hsame : sessionId = id
      · subst hsame
        have hcreate : Attempts.Step MAX_VERIFICATION_ATTEMPTS (attempts sessionId s) _ 0 :=
          .create (congrArg (Option.map _) hid)
        simp only [attempts, Function.update_self]
        exact hcreate
      · have hkeep : Function.update s.db.sessions id (some (pendingSession prims hub userPubkey
            newDevicePubkey code secret delayHours now)) sessionId = s.db.sessions sessionId :=
          Function.update_of_ne hsame _ _
        simp only [attempts, hkeep]
        exact .rest
  | enrollHub params =>
    obtain rfl := Option.some.inj h
    rw [attempts_congr (commit_sessions fun _ h => enrollHub_ok h).1 (commit_tasks _)]
    exact .rest
  | rotateGroup params rewrapped now =>
    obtain rfl := Option.some.inj h
    rw [attempts_congr (commit_sessions fun _ h => rotateGroup_ok h).1 (commit_tasks _)]
    exact .rest
  | putUserEnvelope userPubkey hub envelope =>
    obtain rfl := Option.some.inj h
    exact .rest

/-! ## One after the other -/

theorem attempts_start {db : Db N} (hnew : db.sessions sessionId = none) :
    attempts sessionId (start db) = ⟨none, fun _ => none⟩ :=
  congrArg (Attempts.View.mk · _) (congrArg (Option.map _) hnew)

/-- **Guesses that come one after the other are counted.** -/
theorem run_exact {made : Nat}
    (h : Attempts.Exact MAX_VERIFICATION_ATTEMPTS (attempts sessionId s) made)
    (hone : Runs.Along (step prims) (OneByOne prims sessionId) s events)
    (hrun : Runs.run (step prims) s events = some t) :
    Attempts.Exact MAX_VERIFICATION_ATTEMPTS (attempts sessionId t)
      (made + (compared prims sessionId s events).length) := by
  have hkeep : ∀ u ws e u',
      Attempts.Exact MAX_VERIFICATION_ATTEMPTS (attempts sessionId u) (made + ws.length) →
      OneByOne prims sessionId u e → step prims u e = some u' →
      Attempts.Exact MAX_VERIFICATION_ATTEMPTS (attempts sessionId u')
        (made + (ws ++ wrongGuesses prims sessionId u e).length) := by
    intro u ws e u' hu hone hstep
    rw [List.length_append, ← Nat.add_assoc]
    exact hu.step (step_attempts hstep) fun hmade => hone fun hnil => hmade (by rw [hnil]; rfl)
  exact Runs.run_emitted_inv (P := OneByOne prims sessionId)
    (I := fun u (ws : List String) => Attempts.Exact MAX_VERIFICATION_ATTEMPTS
      (attempts sessionId u) (made + ws.length)) hkeep [] h hone hrun

/-! ## Going on with guesses -/

/-- A code that the session's row would take for a wrong one, if it takes another. -/
def Guessable (prims : RecoveryPrims N) (verificationCode hmacSecret : String) (now : Int)
    (row : Session) : Prop :=
  row.status = .pending ∧ now ≤ row.expiresAt ∧
    row.verificationCodeHash ≠ some (prims.hmac hmacSecret verificationCode)

variable {verificationCode hmacSecret : String} {now : Int} {row : Session} {i : Nat}

theorem task_of_pending {n : Nat} (h : (attempts sessionId s).pending i = some n) :
    s.tasks i = some (.verifyAttempt sessionId n) := by
  obtain ⟨task, htask, hcounts⟩ := Option.bind_eq_some_iff.mp h
  cases task with
  | verifyAttempt id m =>
    rw [Task.counts] at hcounts
    split_ifs at hcounts with hid
    obtain rfl := Option.some.inj hcounts
    exact hid ▸ htask
  | _ => cases hcounts

/-- The system once a wrong code has been compared, and the counter that it stores. -/
def guessed (sessionId : String) (s : System N) (i n : Nat) : System N :=
  { s with tasks := Function.update s.tasks i (some (.verifyAttempt sessionId n)) }

theorem step_guessed {verificationCode hmacSecret : String} {now : Int} {row : Session} {i : Nat}
    (hrow : s.db.sessions sessionId = some row) (htakes : row.TakesGuess now)
    (hwrong : row.verificationCodeHash ≠ some (prims.hmac hmacSecret verificationCode))
    (hfree : s.tasks i = none) :
    step prims s (.call i (.verifyInitiation sessionId verificationCode hmacSecret) now) =
      some (guessed sessionId s i (row.verificationAttempts + 1)) := by
  rw [step, hfree, call_guess hrow htakes hwrong]
  rfl

theorem guessed_pending (sessionId : String) (s : System N) (i n : Nat) :
    (attempts sessionId (guessed sessionId s i n)).pending =
      Function.update (attempts sessionId s).pending i (some n) := by
  rw [guessed, attempts_update, Option.bind_some, Task.counts, if_pos rfl]

/-- The system once the attempt under way has been counted. -/
def counted (sessionId : String) (s : System N) (i n : Nat) : System N :=
  { db := updateSession s.db sessionId fun row => { row with verificationAttempts := n }
    tasks := Function.update s.tasks i none }

theorem step_counted {n : Nat} (h : (attempts sessionId s).pending i = some n) (insert : Insert) :
    step prims s (.resume i now insert) = some (counted sessionId s i n) := by
  rw [step, task_of_pending h]
  rfl

theorem counted_row (hrow : s.db.sessions sessionId = some row) (i n : Nat) :
    (counted sessionId s i n).db.sessions sessionId =
      some { row with verificationAttempts := n } := by
  simp only [counted, updateSession, Function.update_self, hrow, Option.map_some]

theorem counted_pending (sessionId : String) (s : System N) (i n : Nat) :
    (attempts sessionId (counted sessionId s i n)).pending =
      Function.update (attempts sessionId s).pending i none := by
  rw [counted, attempts_update, Option.bind_none]

theorem oneByOne_resume (s : System N) (i : Nat) (now : Int) (insert : Insert) :
    OneByOne prims sessionId s (.resume i now insert) := fun h => absurd rfl h

/-- **The attempts under way are counted**, all but one, in some order. -/
theorem exists_drained (i n : Nat) (hrow : s.db.sessions sessionId = some row)
    (hguessable : Guessable prims verificationCode hmacSecret now row)
    (hbound : ∀ j, n ≤ j → j ≠ i → (attempts sessionId s).pending j = none) :
    ∃ more u row', Runs.run (step prims) s more = some u ∧
      Runs.Along (step prims) (OneByOne prims sessionId) s more ∧
      u.db.sessions sessionId = some row' ∧
      Guessable prims verificationCode hmacSecret now row' ∧
      (attempts sessionId u).pending i = (attempts sessionId s).pending i ∧
      ∀ j, j ≠ i → (attempts sessionId u).pending j = none := by
  induction n generalizing s row with
  | zero =>
    exact ⟨[], s, row, rfl, trivial, hrow, hguessable, rfl, fun j => hbound j (Nat.zero_le j)⟩
  | succ n ih =>
    by_cases hn : n ≠ i ∧ (attempts sessionId s).pending n ≠ none
    · obtain ⟨hne, hn⟩ := hn
      obtain ⟨m, hm⟩ := Option.ne_none_iff_exists'.mp hn
      have hpending := counted_pending sessionId s n m
      obtain ⟨more, u, row', hrun, halong, hrow', hguessable', hi, hrest⟩ :=
        ih (s := counted sessionId s n m) (counted_row hrow n m) hguessable fun j hj hji => by
          rw [hpending]
          by_cases hjn : j = n
          · rw [hjn, Function.update_self]
          · rw [Function.update_of_ne hjn]
            exact hbound j (Nat.lt_of_le_of_ne hj (Ne.symm hjn)) hji
      have hstep : step prims s (.resume n now ⟨"", "", false⟩) = some (counted sessionId s n m) :=
        step_counted hm _
      refine ⟨.resume n now ⟨"", "", false⟩ :: more, u, row', Runs.run_cons.mpr ⟨_, hstep, hrun⟩,
        ⟨oneByOne_resume s n now _, fun s' hs' => ?_⟩, hrow', hguessable', ?_, hrest⟩
      · obtain rfl := Option.some.inj (hstep.symm.trans hs')
        exact halong
      · rw [hi, hpending, Function.update_of_ne (Ne.symm hne)]
    · refine ih hrow hguessable fun j hj hji => ?_
      by_cases hjn : j = n
      · subst hjn
        by_contra hpending
        exact hn ⟨hji, hpending⟩
      · exact hbound j (Nat.lt_of_le_of_ne hj (Ne.symm hjn)) hji

/-- **The session takes guesses until its counter is at the limit.** -/
theorem exists_guessed (i : Nat) (hrow : s.db.sessions sessionId = some row)
    (hguessable : Guessable prims verificationCode hmacSecret now row) (hfree : s.tasks i = none)
    (hnone : ∀ j, (attempts sessionId s).pending j = none) {k : Nat}
    (hk : row.verificationAttempts + k = MAX_VERIFICATION_ATTEMPTS) :
    ∃ more u, Runs.run (step prims) s more = some u ∧
      Runs.Along (step prims) (OneByOne prims sessionId) s more ∧
      (compared prims sessionId s more).length = k := by
  induction k generalizing s row with
  | zero => exact ⟨[], s, rfl, trivial, rfl⟩
  | succ k ih =>
    obtain ⟨hstatus, hexpires, hwrong⟩ := hguessable
    have htakes : row.TakesGuess now := ⟨hstatus, hexpires, by omega⟩
    have hguess := step_guessed hrow htakes hwrong hfree
    have hcompared : wrongGuesses prims sessionId s
        (.call i (.verifyInitiation sessionId verificationCode hmacSecret) now) =
          [verificationCode] := by
      rw [wrongGuesses, hrow]
      exact if_pos ⟨rfl, htakes, hwrong⟩
    let n := row.verificationAttempts + 1
    have hpending := guessed_pending sessionId s i n
    have hcounted : step prims (guessed sessionId s i n) (.resume i now ⟨"", "", false⟩) =
        some (counted sessionId (guessed sessionId s i n) i n) :=
      step_counted (by rw [hpending, Function.update_self]) _
    obtain ⟨more, u, hrun, halong, hlength⟩ :=
      ih (s := counted sessionId (guessed sessionId s i n) i n)
        (counted_row (s := guessed sessionId s i n) hrow i n) ⟨hstatus, hexpires, hwrong⟩
        (Function.update_self _ _ _)
        (fun j => by
          rw [counted_pending, hpending, Function.update_idem]
          by_cases hji : j = i
          · rw [hji, Function.update_self]
          · rw [Function.update_of_ne hji, hnone])
        (by change row.verificationAttempts + 1 + k = _; omega)
    refine ⟨.call i (.verifyInitiation sessionId verificationCode hmacSecret) now ::
        .resume i now ⟨"", "", false⟩ :: more, u,
      Runs.run_cons.mpr ⟨_, hguess, Runs.run_cons.mpr ⟨_, hcounted, hrun⟩⟩,
      ⟨fun _ => hnone, fun s₁ hs₁ => ?_⟩, ?_⟩
    · obtain rfl := Option.some.inj (hguess.symm.trans hs₁)
      refine ⟨oneByOne_resume _ i now _, fun s₂ hs₂ => ?_⟩
      obtain rfl := Option.some.inj (hcounted.symm.trans hs₂)
      exact halong
    · rw [compared, Runs.emitted_cons hguess, Runs.emitted_cons hcounted, hcompared,
        List.length_append, List.length_append]
      change 1 + (0 + (compared prims sessionId _ more).length) = k + 1
      omega

/-! ## The limit -/

/-- At every moment, no more wrong codes have been compared than the limit allows, nor are they if
guesses go on one after the other. -/
def Bounded (prims : RecoveryPrims N) (sessionId : String) (s : System N)
    (events : List (Event N)) : Prop :=
  ∀ before after m, events = before ++ after → Runs.run (step prims) s before = some m →
    ∀ more u, Runs.run (step prims) m more = some u →
      Runs.Along (step prims) (OneByOne prims sessionId) m more →
      (compared prims sessionId s before ++ compared prims sessionId m more).length ≤
        MAX_VERIFICATION_ATTEMPTS

/-- What is compared, however guesses go on one after the other, is no more than the limit. -/
def StaysBounded (prims : RecoveryPrims N) (sessionId : String) (s : System N)
    (codes : List String) : Prop :=
  ∀ more u, Runs.run (step prims) s more = some u →
    Runs.Along (step prims) (OneByOne prims sessionId) s more →
    (codes ++ compared prims sessionId s more).length ≤ MAX_VERIFICATION_ATTEMPTS

/-- The counter is behind, and finitely many statements are under way. -/
def Counting (sessionId : String) (s : System N) (codes : List String) : Prop :=
  Attempts.Behind (attempts sessionId s) codes.length ∧ ∃ n, ∀ i, n ≤ i → s.tasks i = none

theorem step_counting {codes : List String} (h : Counting sessionId s codes)
    (hstep : step prims s e = some s') :
    Counting sessionId s' (codes ++ wrongGuesses prims sessionId s e) := by
  obtain ⟨hbehind, n, hn⟩ := h
  refine ⟨?_, ?_⟩
  · rw [List.length_append]
    exact hbehind.step (step_attempts hstep)
  · have hcall : ∃ b, ∀ i op now, e = .call i op now → i < b := by
      cases e with
      | call i op now => exact ⟨i + 1, fun j _ _ h => by cases h; exact Nat.lt_succ_self _⟩
      | _ => exact ⟨0, fun _ _ _ h => by cases h⟩
    obtain ⟨b, hb⟩ := hcall
    refine ⟨max n b, fun i hi => ?_⟩
    by_contra hsome
    obtain ⟨task, htask⟩ := Option.ne_none_iff_exists'.mp hsome
    have hnone := hn i ((le_max_left n b).trans hi)
    rcases step_tasks hstep htask with ⟨hsame, -⟩ | ⟨op, now, rfl, -⟩ | ⟨_, _, _, rfl, hsame, -⟩
    · rw [hnone] at hsame
      cases hsame
    · exact absurd (hb i op now rfl) (Nat.not_lt.mpr ((le_max_right n b).trans hi))
    · rw [hnone] at hsame
      cases hsame

/-- **What a wrong guess finds**, and what is left to be stored of it. -/
theorem wrongGuess_cases (hstep : step prims s e = some s')
    (hguess : wrongGuesses prims sessionId s e ≠ []) :
    ∃ i verificationCode hmacSecret now row, s.db.sessions sessionId = some row ∧
      row.TakesGuess now ∧ Guessable prims verificationCode hmacSecret now row ∧
      wrongGuesses prims sessionId s e = [verificationCode] ∧ s.tasks i = none ∧
      s' = guessed sessionId s i (row.verificationAttempts + 1) := by
  cases e with
  | call i op now =>
    cases op with
    | verifyInitiation id verificationCode hmacSecret =>
      rw [wrongGuesses] at hguess ⊢
      cases hrow : s.db.sessions id with
      | none =>
        rw [hrow] at hguess
        exact absurd rfl hguess
      | some row =>
        rw [hrow] at hguess
        dsimp only at hguess
        split_ifs at hguess with hwrong
        · obtain ⟨rfl, htakes, hwrong⟩ := hwrong
          cases hfree : s.tasks i with
          | some _ => rw [step, hfree] at hstep; cases hstep
          | none =>
            rw [step_guessed hrow htakes hwrong hfree] at hstep
            exact ⟨i, verificationCode, hmacSecret, now, row, hrow, htakes,
              ⟨htakes.1, htakes.2.1, hwrong⟩, if_pos ⟨rfl, htakes, hwrong⟩, hfree,
              (Option.some.inj hstep).symm⟩
        · exact absurd rfl hguess
    | _ => exact absurd rfl hguess
  | _ => exact absurd rfl hguess

/-- **Two guesses at once leave room for one more** than the limit allows: what the second stores is
less than have been compared. -/
theorem not_bounded_of_overlap {codes : List String} (h : Counting sessionId s codes)
    (hstep : step prims s e = some s') (hguess : wrongGuesses prims sessionId s e ≠ [])
    {j : Nat} (hj : (attempts sessionId s).pending j ≠ none) :
    ¬ StaysBounded prims sessionId s' (codes ++ wrongGuesses prims sessionId s e) := by
  intro hbounded
  obtain ⟨hbehind, n, hn⟩ := step_counting h hstep
  obtain ⟨i, verificationCode, hmacSecret, now, row, hrow, htakes, hguessable, hcodes, hfree,
    rfl⟩ := wrongGuess_cases hstep hguess
  rw [hcodes] at hbehind hbounded
  -- both are under way, so the counter that the guess stores lacks one
  have hnew := guessed_pending sessionId s i (row.verificationAttempts + 1)
  have hji : j ≠ i := by
    rintro rfl
    exact hj (congrArg (Option.bind · (Task.counts sessionId)) hfree)
  have hlacks : row.verificationAttempts + 1 < (codes ++ [verificationCode]).length := by
    refine hbehind.lt i _ (by rw [hnew, Function.update_self]) j hji ?_
    rwa [hnew, Function.update_of_ne hji]
  -- the others are counted before it, and then the counter is its own
  obtain ⟨drained, u, row', hdrained, halong, hrow', hguessable', hi, hnone⟩ :=
    exists_drained (s := guessed sessionId s i _) i n hrow hguessable fun k hk _ =>
      congrArg (Option.bind · (Task.counts sessionId)) (hn k hk)
  rw [hnew, Function.update_self] at hi
  have hlast : step prims u (.resume i now ⟨"", "", false⟩) =
      some (counted sessionId u i (row.verificationAttempts + 1)) := step_counted hi _
  obtain ⟨more, w, hmore, halong', hlength⟩ :=
    exists_guessed (k := MAX_VERIFICATION_ATTEMPTS - (row.verificationAttempts + 1)) i
      (counted_row hrow' i (row.verificationAttempts + 1)) hguessable'
      (Function.update_self _ _ _)
      (fun k => by
        rw [counted_pending]
        by_cases hki : k = i
        · rw [hki, Function.update_self]
        · rw [Function.update_of_ne hki, hnone k hki])
      (Nat.add_sub_cancel' htakes.2.2)
  have hall := hbounded (drained ++ .resume i now ⟨"", "", false⟩ :: more) w
    (Runs.run_append.mpr ⟨u, hdrained, Runs.run_cons.mpr ⟨_, hlast, hmore⟩⟩)
    (halong.append hdrained ⟨oneByOne_resume u i now _, fun u' hu' =>
      Option.some.inj (hlast.symm.trans hu') ▸ halong'⟩)
  rw [compared, Runs.emitted_append hdrained, Runs.emitted_cons hlast] at hall
  have hmuch : (codes ++ [verificationCode]).length + (compared prims sessionId
      (counted sessionId u i (row.verificationAttempts + 1)) more).length ≤
        MAX_VERIFICATION_ATTEMPTS := by
    refine Nat.le_trans ?_ hall
    simp only [List.length_append, compared]
    omega
  rw [hlength] at hmuch
  have := htakes.2.2
  omega

/-- **No more wrong codes are compared than the limit allows, however guesses go on one after the
other, exactly if they have come one after the other.** -/
theorem bounded_iff {db : Db N} (hnew : db.sessions sessionId = none)
    (hrun : Runs.run (step prims) (start db) events = some t) :
    Bounded prims sessionId (start db) events ↔
      Runs.Along (step prims) (OneByOne prims sessionId) (start db) events := by
  have hstart := attempts_start hnew
  refine Runs.always_iff_along (wrongGuesses prims sessionId) (I := Counting sessionId)
    (G := StaysBounded prims sessionId) (fun _ _ _ _ h => step_counting h) ?_ []
    ⟨hstart ▸ Attempts.behind_none, 0, fun _ _ => rfl⟩ ?_ hrun
  · intro s codes e s' hcounting hbounded hstep
    refine ⟨fun hafter hguess j => ?_, fun hone more u hmore halong => ?_⟩
    · by_contra hj
      exact not_bounded_of_overlap hcounting hstep hguess hj hafter
    · have := hbounded (e :: more) u (Runs.run_cons.mpr ⟨s', hstep, hmore⟩)
        ⟨hone, fun s'' hs'' => Option.some.inj (hstep.symm.trans hs'') ▸ halong⟩
      rwa [compared, Runs.emitted_cons hstep, ← List.append_assoc] at this
  · intro more u hmore halong
    have hexact := run_exact (hstart ▸ Attempts.exact_none _) halong hmore
    rw [Nat.zero_add] at hexact
    exact hexact.le

/-! ## Guesses at once -/

def wrongGuess (i : Nat) (now : Int) : Event Int :=
  .call i (.verifyInitiation "session" "000000" "secret") now

/-- Six guesses read the row before the first of them is counted. -/
def sixGuesses : List (Event Int) := begun ++ (List.range 6).map (wrongGuess · 1000)

/-- **Six wrong codes are compared**, and the limit is five. -/
theorem six_at_once : ∃ t, Runs.run (step samplePrims) (start {}) sixGuesses = some t ∧
    ¬ (compared samplePrims "session" (start {}) sixGuesses).length ≤ MAX_VERIFICATION_ATTEMPTS :=
  ⟨_, rfl, by decide⟩

/-- A wrong guess is counted before the next one. -/
def twoGuesses : List (Event Int) :=
  begun ++ [wrongGuess 0 1000, .resume 0 1001 noInsert, wrongGuess 1 1002]

theorem twoGuesses_bounded : Bounded samplePrims "session" (start {}) twoGuesses := by
  refine (bounded_iff rfl rfl).mpr ?_
  refine Runs.along_cons.mpr ⟨fun h => absurd rfl h, ?_⟩
  refine Runs.along_cons.mpr ⟨fun h => absurd rfl h, ?_⟩
  refine Runs.along_cons.mpr ⟨fun _ _ => rfl, ?_⟩
  refine Runs.along_cons.mpr ⟨fun h => absurd rfl h, ?_⟩
  refine Runs.along_cons.mpr ⟨fun _ i => ?_, trivial⟩
  cases i <;> rfl

end Llamenos.Worker.RecoveryGroup
