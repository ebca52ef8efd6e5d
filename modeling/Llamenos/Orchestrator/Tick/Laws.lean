import Llamenos.Orchestrator.Tick

/-!
# What a pass of the fleet promises

An observer goes along the calls of a pass: a worker is dispatched only after exactly one DISPATCHED
row for its item, when the one before is finished, and when no halt has been read that has not
ended; a PR is armed only after a report that has passed and an opinion that was a PASS; and a
worker is finished when one row says how it has ended, it is settled once, and its PR, if it has
one, is armed, or it has been tried to disarm it.

`deps.record(final)` stands outside every `try` block: where it throws, the worker is not settled.

Results:
* `tries_runReviewLoop`: the review loop ends with a PASS only where the last report has passed and
  the last opinion was a PASS.
* `wp_runLiveDispatch`: what one dispatch keeps.
* `tick_sound_iff`: **a pass keeps its promises exactly if every row that says how a worker has
  ended is recorded, every worker reports how it has ended, and what ends the work has a text**.
* `full_disk_not_settled`: a row that cannot be recorded.
-/

namespace Llamenos.Orchestrator

open Llamenos.Lib Effects

/-! ## The laws -/

/-- A row that says how a dispatched worker has ended. -/
def Outcome.terminal : Outcome → Bool
  | .dispatched | .shadow => false
  | _ => true

/-- The row says how a worker has ended that was dispatched for the item. -/
def RunRecord.endsFor (row : RunRecord) (item : WorkItem) (lane : Lane) : Bool :=
  row.outcome.terminal && row.itemId = item.id && row.lane = lane.id

/-- What a worker was dispatched for, and the PR that it has reported. -/
structure Work where
  item : WorkItem
  lane : Lane
  pr : Option String

/-- What has been done for the worker that was dispatched last. -/
structure Job where
  work : Work
  /-- Whether the last mechanical report has passed. -/
  report : Option Bool := none
  opinion : Option ReviewVerdict := none
  armed : Bool := false
  /-- It has been tried to disarm the PR. -/
  disarmed : Bool := false
  rows : Nat := 0
  settles : Nat := 0

def Job.finished (j : Job) : Bool :=
  j.rows = 1 && j.settles = 1 && (j.work.pr.isNone || j.armed || j.disarmed)

structure Watch where
  /-- Something was called that must not be. -/
  broken : Bool := false
  locked : Bool := false
  /-- The halts that were read, with the times when they end, if they are quota halts that name a
  time; without those whose time has passed. -/
  halts : List (Option Int) := []
  /-- The lanes and items of the DISPATCHED rows since the last dispatch. -/
  announced : List (String × String) := []
  job : Option Job := none

def Watch.finished (s : Watch) : Bool := s.job.all Job.finished

def Watch.onJob (s : Watch) (f : Job → Job) : Watch := { s with job := s.job.map f }

variable (parseDate : String → Option Int)

/-- The time when a halt ends. -/
def resumeTime (reason : Option String) : Option Int :=
  if isQuotaHaltReason reason then reason.bind (parseQuotaResumeAt parseDate) else none

def watch (s : Watch) : Made → Watch
  | ⟨.acquireLock, .ok .held⟩ => { s with locked := true }
  | ⟨.release, _⟩ => { s with locked := false }
  | ⟨.checkHalt, .ok halt⟩ =>
    if halt.halted then { s with halts := resumeTime parseDate halt.reason :: s.halts } else s
  | ⟨.now, .ok now⟩ => { s with halts := s.halts.filter fun ends => !(ends.any (· ≤ now)) }
  | ⟨.dispatch item lane, answer⟩ =>
    { s with
      broken := s.broken ||
        !(s.halts.isEmpty && s.announced = [(lane.id, item.id)] && s.finished)
      announced := []
      job := some { work := ⟨item, lane, answer.toOption.bind fun r => r.pr⟩ } }
  | ⟨.verifyMechanical .., answer⟩ =>
    s.onJob fun j => { j with report := answer.toOption.map fun report => report.passed }
  | ⟨.secondOpinion _, answer⟩ =>
    s.onJob fun j => { j with opinion := answer.toOption.map fun opinion => opinion.verdict }
  | ⟨.enableAutoMerge pr, answer⟩ =>
    let allowed := s.job.any fun j =>
      j.work.pr = some pr && j.report = some true && j.opinion = some .pass
    { s.onJob fun j => { j with armed := answer.toBool } with broken := s.broken || !allowed }
  | ⟨.disableAutoMerge pr, _⟩ =>
    s.onJob fun j => { j with disarmed := j.disarmed || j.work.pr = some pr }
  | ⟨.settle input, _⟩ => s.onJob fun j =>
    if input.item = j.work.item ∧ input.lane = j.work.lane then
      { j with settles := j.settles + 1 }
    else j
  | ⟨.record row, answer⟩ =>
    if row.outcome = .dispatched then
      if answer.toBool then { s with announced := s.announced ++ [(row.lane, row.itemId)] } else s
    else s.onJob fun j =>
      if row.endsFor j.work.item j.work.lane then { j with rows := j.rows + 1 } else j
  | _ => s

/-- Nothing was called that must not be, what was dispatched is finished, and the lock is not
held. -/
def Sound (trace : List Made) : Prop :=
  let s := trace.foldl (watch parseDate) {}
  s.broken = false ∧ s.finished = true ∧ s.locked = false

/-- A failure of the call ends the work on the item. -/
def Call.endsWork : Call → Bool
  | .dispatch .. | .verifyMechanical .. | .prDiff _ | .secondOpinion _ | .postReview ..
  | .haltFleet _ | .commentOnIssue .. | .disableAutoMerge _ => true
  | .commentOnPr _ (.reviewUnavailable _) => false
  | .commentOnPr .. => true
  | _ => false

/-- A terminal row is recorded; a worker reports how it has ended, or is on another branch; and a
failure that ends the work has a text. -/
def kept : Made → Bool
  | ⟨.record row, .error _⟩ => !row.outcome.terminal
  | ⟨.dispatch .., .ok result⟩ => result.branchMismatch.isSome || result.outcome.terminal
  | ⟨c, .error e⟩ => !c.endsWork || e.text.isSome
  | _ => true

/-- The laws, and whether all calls so far are kept. -/
def observe (s : Watch × Bool) (e : Made) : Watch × Bool :=
  (watch parseDate s.1 e, s.2 && kept e)

theorem foldl_observe (trace : List Made) (s : Watch) (k : Bool) :
    trace.foldl (observe parseDate) (s, k) =
      (trace.foldl (watch parseDate) s, k && trace.all kept) := by
  induction trace generalizing s k with
  | nil => simp
  | cons e trace ih => rw [List.foldl_cons, List.foldl_cons, observe, ih, List.all_cons,
      Bool.and_assoc]

/-! ## Inside a `try` block -/

/-- The state while a worker's result is looked at. -/
def working (b k : Bool) (j : Job) : Watch × Bool := (⟨b, true, [], [], some j⟩, k)

/-- Nothing of what the job must end with has been done. -/
structure Job.Open (work : Work) (j : Job) : Prop where
  work : j.work = work
  rows : j.rows = 0
  settles : j.settles = 0
  disarmed : j.disarmed = false

/-- What was thrown has a text, if it was thrown. -/
def Heard {α : Type} : Except Thrown α → Bool
  | .ok _ => true
  | .error e => e.text.isSome

/-- What may be thrown without a text ends the work, and nothing else is recorded or settled. -/
def Tries {α : Type} (work : Work) (P : Job → Prop) (p : Fleet α) (Q : α → Job → Prop) :
    Prop :=
  ∀ b k j, j.Open work → P j → wp (observe parseDate) p (fun r t => ∃ j', j'.Open work ∧
    t = working b (k && Heard r) j' ∧ ∀ a, r = .ok a → Q a j') (working b k j)

variable {parseDate} {α β : Type} {work : Work} {P : Job → Prop} {Q : α → Job → Prop}
  {Q' : β → Job → Prop} {b k : Bool} {j : Job} {p : Fleet α}

theorem Tries.pure {a : α} (h : ∀ j, P j → Q a j) : Tries parseDate work P (pure a) Q := by
  intro b k j hj hP
  refine ⟨j, hj, by rw [Heard, Bool.and_true], fun a' ha' => ?_⟩
  obtain rfl := Except.ok.inj ha'
  exact h j hP

/-- What is left where something is thrown. -/
theorem Tries.thrown {e : Thrown} (hj : j.Open work) : ∃ j', j'.Open work ∧
    working b (k && e.text.isSome) j = working b (k && Heard (.error e : Except Thrown α)) j' ∧
    ∀ a, (.error e : Except Thrown α) = .ok a → Q a j' :=
  ⟨j, hj, rfl, nofun⟩

theorem Tries.fail {text : String} :
    Tries parseDate work P (.fail (.thrown (some text))) Q := by
  intro b k j hj _
  exact ⟨j, hj, by rw [Heard, Thrown.text, Option.isSome_some, Bool.and_true], nofun⟩

theorem Tries.bind {f : α → Fleet β} (hp : Tries parseDate work P p Q)
    (hf : ∀ a, Tries parseDate work (Q a) (f a) Q') : Tries parseDate work P (p >>= f) Q' := by
  intro b k j hj hP
  rw [wp_bind]
  refine wp_mono (hp b k j hj hP) ?_
  rintro (e | a) t ⟨j', hj', rfl, hQ⟩
  · exact ⟨j', hj', rfl, nofun⟩
  · have hrest := hf a b (k && true) j' hj' (hQ a rfl)
    rw [Bool.and_true] at hrest
    change wp _ _ _ (working b (k && true) j')
    rwa [Bool.and_true]

theorem Tries.mono {P' : Job → Prop} {Q' : α → Job → Prop} (hp : Tries parseDate work P p Q)
    (hP : ∀ j, P' j → P j) (hQ : ∀ a j, Q a j → Q' a j) : Tries parseDate work P' p Q' := by
  intro b k j hj hj'
  refine wp_mono (hp b k j hj (hP j hj')) ?_
  rintro r t ⟨j'', hj'', rfl, hr⟩
  exact ⟨j'', hj'', rfl, fun a ha => hQ a j'' (hr a ha)⟩

theorem Tries.forEach {ι ρ : Type} {body : α → ι → Fleet (Except ρ α)}
    {I : Except ρ α → Job → Prop} {is : List ι} {a : α}
    (hbody : ∀ a i, Tries parseDate work (I (.ok a)) (body a i) I) :
    Tries parseDate work (I (.ok a)) (Program.forEach body a is) I := by
  induction is generalizing a with
  | nil => exact .pure fun _ => id
  | cons i is ih =>
    refine (hbody a i).bind fun r => ?_
    cases r with
    | ok a => exact ih
    | error r => exact .pure fun _ => id

/-- The calls that the laws do not look at, and whose failure ends the work. -/
def Call.posts : Call → Bool
  | .prDiff _ | .postReview .. | .haltFleet _ | .commentOnIssue .. => true
  | .commentOnPr _ (.reviewUnavailable _) => false
  | .commentOnPr .. => true
  | _ => false
variable {c : Call}

theorem tries_post (hc : c.posts = true) :
    Tries parseDate work P (ask c) fun _ => P := by
  intro b k j hj hP a
  refine ⟨j, hj, ?_, fun _ _ => hP⟩
  cases c with
  | commentOnPr p comment =>
    cases comment with
    | reviewUnavailable reasonText => cases hc
    | _ => cases a <;> rfl
  | prDiff | postReview | haltFleet | commentOnIssue => cases a <;> rfl
  | _ => cases hc
variable {lane : Lane}

theorem tries_verify {worktree branch : String} :
    Tries parseDate work P (ask (.verifyMechanical worktree branch lane)) fun report j =>
      j.report = some report.passed := by
  intro b k j hj _ a
  cases a with
  | error e => exact ⟨{ j with report := none }, ⟨hj.1, hj.2, hj.3, hj.4⟩, rfl, nofun⟩
  | ok report =>
    refine ⟨{ j with report := some report.passed }, ⟨hj.1, hj.2, hj.3, hj.4⟩, rfl,
      fun a ha => ?_⟩
    obtain rfl := Except.ok.inj ha
    rfl

theorem tries_message {e : Thrown} : Tries parseDate work P (message e) fun _ => P := by
  unfold message
  split
  · exact .pure fun _ => id
  · exact Tries.fail

/-- The calls that the laws do not look at, and whose failure ends nothing. -/
def Call.quiet : Call → Bool
  | .reviseWithWorker .. | .commentOnPr _ (.reviewUnavailable _) => true
  | _ => false

theorem tries_attempt (hc : c.quiet = true) :
    Tries parseDate work P (Program.attempt (ask c)) fun _ => P := by
  intro b k j hj hP
  rw [wp_attempt]
  intro a
  refine ⟨j, hj, ?_, fun _ _ => hP⟩
  cases c with
  | reviseWithWorker => cases a <;> rfl
  | commentOnPr p comment =>
    cases comment with
    | reviewUnavailable reasonText => cases a <;> rfl
    | _ => cases hc
  | _ => cases hc

theorem tries_safeCommentOnPr {p text : String} :
    Tries parseDate work P (safeCommentOnPr p text) fun _ => P := by
  refine Tries.bind (tries_attempt rfl) fun answer => ?_
  cases answer with
  | ok u => exact .pure fun _ => id
  | error e => exact tries_message.bind fun _ => .pure fun _ => id

/-- What a review loop that has passed leaves behind. -/
def Reviewed (result : ReviewLoopResult) (j : Job) : Prop :=
  result.finalVerdict = .pass → j.report = some true ∧ j.opinion = some .pass

/-- What a round of the loop leaves behind. -/
def RoundEnd (r : Except ReviewLoopResult Rounds) (j : Job) : Prop :=
  match r with
  | .error result => Reviewed result j
  | .ok state => state.lastVerdict ≠ some .pass
variable {input : ReviewLoopInput}

theorem tries_tamperDetected {round : Nat} {report : VerifyReport}
    {text : String} : Tries parseDate work P (tamperDetected input round report text) RoundEnd :=
  Tries.bind (tries_post rfl) fun _ => tries_safeCommentOnPr.bind fun _ => .pure fun _ _ => nofun

theorem tries_revise {round : Nat} {report : VerifyReport}
    {secondOp : SecondOpinionResult} (hverdict : secondOp.verdict ≠ .pass) :
    Tries parseDate work P (revise input round report secondOp) RoundEnd := by
  have hnext : Tries parseDate work P (pure (.ok ⟨some report, some secondOp.verdict,
      some secondOp.text, round⟩)) RoundEnd :=
    .pure fun _ _ hpass => hverdict (Option.some.inj hpass)
  unfold revise
  split_ifs
  · refine Tries.bind (tries_attempt rfl) fun answer => ?_
    cases answer with
    | ok u => exact hnext
    | error e => exact tries_message.bind fun _ => .pure fun _ _ hpass => absurd hpass hverdict
  · exact hnext

theorem tries_afterOpinion {round : Nat} {report : VerifyReport}
    {secondOp : SecondOpinionResult} :
    Tries parseDate work (fun j => j.report = some true ∧ j.opinion = some secondOp.verdict)
      (afterOpinion input round report secondOp) RoundEnd := by
  refine Tries.bind (tries_post rfl) fun _ => ?_
  cases hverdict : secondOp.verdict with
  | unreadable =>
    refine tries_safeCommentOnPr.bind fun _ => tries_revise ?_
    rw [hverdict]
    nofun
  | pass => exact .pure fun j hj _ => hj
  | fail =>
    refine tries_revise ?_
    rw [hverdict]
    nofun

theorem tries_reviewRound {state : Rounds} {round : Nat} :
    Tries parseDate work P (reviewRound input state round) RoundEnd := by
  refine tries_verify.bind fun report => ?_
  split_ifs with hpassed
  · exact .pure fun j _ => nofun
  refine Tries.bind (tries_post rfl) fun diff => ?_
  intro b k j hj hreport
  rw [wp_bind, wp_attempt]
  rintro (e | secondOp)
  · have hopen : Job.Open work { j with opinion := none } := ⟨hj.1, hj.2, hj.3, hj.4⟩
    cases e with
    | tampered text =>
      change wp _ (tamperDetected input round report text) _
        (working b (k && true) { j with opinion := none })
      rw [Bool.and_true]
      exact tries_tamperDetected (P := fun _ => True) b k _ hopen trivial
    | thrown text => exact Tries.thrown hopen
  · change wp _ (afterOpinion input round report secondOp) _
      (working b (k && true) { j with opinion := some secondOp.verdict })
    rw [Bool.and_true]
    refine tries_afterOpinion b k _ ⟨hj.1, hj.2, hj.3, hj.4⟩ ⟨?_, rfl⟩
    rw [hreport, Bool.not_eq_true', Bool.not_eq_false] at *
    exact congrArg some hpassed

theorem tries_runReviewLoop :
    Tries parseDate work P (runReviewLoop input) Reviewed := by
  have hloop : Tries parseDate work (RoundEnd (.ok {}))
      (Program.forEach (reviewRound input) {} (List.range' 1 MAX_REVIEW_ROUNDS)) RoundEnd :=
    Tries.forEach fun _ _ => tries_reviewRound
  refine (hloop.mono (fun _ _ => nofun) fun _ _ => id).bind fun r => ?_
  cases r with
  | error result => exact .pure fun _ => id
  | ok state =>
    refine .pure fun _ hstate hpass => absurd ?_ hstate
    change state.lastVerdict.getD .fail = .pass at hpass
    cases hlast : state.lastVerdict with
    | none =>
      rw [hlast] at hpass
      cases hpass
    | some verdict =>
      rw [hlast] at hpass
      exact congrArg some hpass

/-! ## What is left of a `try` block -/

theorem Tries.attempt_bind {f : Except Thrown α → Fleet β} {Q' : Except Thrown β → Watch × Bool → Prop}
    (hp : Tries parseDate work P p Q) (hj : j.Open work) (hP : P j)
    (hf : ∀ r j', j'.Open work → (∀ a, r = .ok a → Q a j') →
      wp (observe parseDate) (f r) Q' (working b (k && Heard r) j')) :
    wp (observe parseDate) (p.attempt >>= f) Q' (working b k j) := by
  rw [wp_bind, wp_attempt]
  refine wp_mono (hp b k j hj hP) ?_
  rintro r t ⟨j', hj', rfl, hr⟩
  exact hf r j' hj' hr

/-- A terminal row, or something thrown that has a text. -/
def Ended (work : Work) : Except Thrown RunRecord → Bool
  | .ok row => row.endsFor work.item work.lane
  | .error e => e.text.isSome

theorem heard_ended {r : Except Thrown RunRecord}
    (h : ∀ row, r = .ok row → row.endsFor work.item work.lane = true) :
    (true && Heard r) = Ended work r := by
  cases r with
  | ok row => exact (h row rfl).symm
  | error e => rfl

/-- What is known after the `try` block: what it has armed is armed, and its row is terminal if
`terminal`. -/
def TriedEnd (work : Work) (terminal b k : Bool) (r : Except Thrown Tried)
    (t : Watch × Bool) : Prop :=
  ∃ tried j, r = .ok tried ∧ j.Open work ∧ t = working b (k && Heard tried.1) j ∧
    (tried.2.armed = true → j.armed = true) ∧ (terminal && Heard tried.1) = Ended work tried.1

/-- The row from which the rows of the dispatch are made. -/
structure Base (work : Work) (base : RunRecord) : Prop where
  itemId : base.itemId = work.item.id
  lane : base.lane = work.lane.id

theorem Base.endsFor {base row : RunRecord} (h : Base work base) (hid : row.itemId = base.itemId)
    (hlane : row.lane = base.lane) (hterminal : row.outcome.terminal = true) :
    row.endsFor work.item work.lane = true := by
  simp [RunRecord.endsFor, hid, hlane, hterminal, h.itemId, h.lane]

theorem unarmed {p : Prop} (h : false = true) : p := absurd h Bool.false_ne_true
variable {base : RunRecord} {item : WorkItem} {result : DispatchOutcome}

theorem tries_refuse
    {mismatch : String} (hbase : Base work base) (hj : j.Open work) : wp (observe parseDate)
      (refuse item lane base result mismatch) (TriedEnd work true b k) (working b k j) := by
  unfold refuse
  refine Tries.attempt_bind (P := fun _ => True) 
    (Q := fun row _ => row.endsFor work.item work.lane = true) ?_ hj trivial fun r j' hj' hr => ?_
  · cases fleetBranchFor lane.id item.id with
    | error text => exact Tries.fail
    | ok branch =>
      cases result.pr with
      | none => exact .pure fun _ _ => hbase.endsFor rfl rfl rfl
      | some pr =>
        exact Tries.bind (tries_post rfl) fun _ => .pure fun _ _ => hbase.endsFor rfl rfl rfl
  · exact ⟨_, j', rfl, hj', rfl, unarmed, heard_ended hr⟩

theorem tries_skipVerification
    (hbase : Base work base) (hj : j.Open work) :
    wp (observe parseDate) (skipVerification base result) (TriedEnd work true b k)
      (working b k j) := by
  unfold skipVerification
  refine Tries.attempt_bind (P := fun _ => True) (Q := fun _ _ => True) ?_ hj trivial
    fun r j' hj' _ => ?_
  · cases result.pr with
    | none => exact .pure fun _ _ => trivial
    | some pr => exact (tries_post rfl).mono (fun _ => id) fun _ _ _ => trivial
  · cases r with
    | error e => exact ⟨_, j', rfl, hj', rfl, unarmed, rfl⟩
    | ok u =>
      refine ⟨_, j', rfl, hj', rfl, unarmed, heard_ended fun row hrow => ?_⟩
      rw [← Except.ok.inj hrow]
      exact hbase.endsFor rfl rfl rfl

/-- A comment on the issue, and what is left with it. -/
theorem tries_comment {row : c.Answer → RunRecord} {flags : Except Thrown c.Answer → Flags}
    (hc : c.posts = true) (hflags : ∀ r, (flags r).armed = false)
    (hrow : ∀ a, (row a).endsFor work.item work.lane = true) (hj : j.Open work) : wp (observe parseDate)
      (do
        let r ← Program.attempt (ask c)
        return (r.map row, flags r)) (TriedEnd work true b k) (working b k j) := by
  refine Tries.attempt_bind (P := fun _ => True) (tries_post hc) hj trivial fun r j' hj' _ => ?_
  refine ⟨_, j', rfl, hj', ?_, fun harmed => ?_, heard_ended fun row' hrow' => ?_⟩
  · cases r <;> rfl
  · rw [hflags r] at harmed
    cases harmed
  · cases r with
    | error e => cases hrow'
    | ok a =>
      rw [← Except.ok.inj hrow']
      exact hrow a

/-- The PR is armed after a report that has passed and an opinion that was a PASS. -/
theorem tries_arm {p trace : String} {row : String → RunRecord} (hj : j.Open work)
    (hwork : work.pr = some p)
    (hpass : j.report = some true ∧ j.opinion = some .pass)
    (hrow : ∀ note, (row note).endsFor work.item work.lane = true) :
    wp (observe parseDate) (arm p row trace) (TriedEnd work true b k) (working b k j) := by
  have hmade (a : Except Thrown Unit) : observe parseDate (working b k j) ⟨.enableAutoMerge p, a⟩ =
      working b k { j with armed := a.toBool } := by
    have hk : (k && kept ⟨.enableAutoMerge p, a⟩) = k := by cases a <;> exact Bool.and_true k
    refine Prod.ext ?_ hk
    simp [observe, watch, working, Watch.onJob, hj.work, hwork, hpass.1, hpass.2]
  have hopen (armed : Bool) : Job.Open work { j with armed } := ⟨hj.1, hj.2, hj.3, hj.4⟩
  rw [arm, wp_bind, wp_attempt]
  intro a
  rw [hmade a]
  cases a with
  | ok u =>
    refine ⟨_, _, rfl, hopen true, (Bool.and_true k).symm ▸ rfl, fun _ => rfl, heard_ended fun row' hrow' => ?_⟩
    rw [← Except.ok.inj hrow']
    exact hrow trace
  | error e =>
    have hmessage : Tries parseDate work (fun _ => True) (errorMessage e) fun _ _ => True :=
      tries_message.bind fun _ => .pure fun _ => id
    refine hmessage.attempt_bind (hopen false) trivial fun r j' hj' _ => ?_
    cases r with
    | error e => exact ⟨_, j', rfl, hj', rfl, unarmed, rfl⟩
    | ok text =>
      refine ⟨_, j', rfl, hj', rfl, unarmed, heard_ended fun row' hrow' => ?_⟩
      rw [← Except.ok.inj hrow']
      exact hrow _

theorem tries_verifyAndReview
    {branch p worktree : String} (hbase : Base work base) (hj : j.Open work) (hwork : work.pr = some p) :
    wp (observe parseDate) (verifyAndReview item lane base branch p worktree)
      (TriedEnd work true b k) (working b k j) := by
  refine Tries.attempt_bind (P := fun _ => True) tries_runReviewLoop hj trivial
    fun r j' hj' hreviewed => ?_
  cases r with
  | error e => exact ⟨_, j', rfl, hj', rfl, unarmed, rfl⟩
  | ok loop =>
    change wp _ (conclude item base branch p loop) _ _
    rw [Heard, Bool.and_true]
    unfold conclude
    dsimp only
    split_ifs
    · exact tries_comment rfl (fun _ => rfl) (fun _ => hbase.endsFor rfl rfl rfl) hj'
    · cases hverdict : loop.finalVerdict with
      | fail => exact tries_comment rfl (fun _ => rfl) (fun _ => hbase.endsFor rfl rfl rfl) hj'
      | unreadable => exact tries_comment rfl (fun _ => rfl) (fun _ => hbase.endsFor rfl rfl rfl) hj'
      | pass => exact tries_arm hj' hwork (hreviewed loop rfl hverdict) fun _ => hbase.endsFor rfl rfl rfl

theorem tries_pipeline
    (hbase : Base ⟨item, lane, result.pr⟩ base) (hj : j.Open ⟨item, lane, result.pr⟩) :
    wp (observe parseDate) (pipeline item lane base result)
      (TriedEnd ⟨item, lane, result.pr⟩ (result.branchMismatch.isSome || result.outcome.terminal) b k)
      (working b k j) := by
  unfold pipeline
  split
  · rename_i mismatch hmismatch
    rw [hmismatch]
    exact tries_refuse hbase hj
  · rename_i hmismatch
    rw [hmismatch, Option.isSome_none, Bool.false_or]
    split_ifs with houtcome
    · rw [houtcome]
      split
      · rename_i branch pr worktree _ hpr _
        exact tries_verifyAndReview hbase hj hpr
      · exact tries_skipVerification hbase hj
    · refine ⟨_, j, rfl, hj, by rw [Heard, Bool.and_true], nofun, ?_⟩
      simp [Heard, Ended, RunRecord.endsFor, hbase.itemId, hbase.lane]

/-! ## One dispatch -/

/-- **What holds between the calls of a pass**: everything is as promised exactly if all calls so
far are kept. -/
structure Steady (s : Watch × Bool) : Prop where
  sound : s.2 = (!s.1.broken && s.1.finished)
  announced : s.2 = true → s.1.announced = []
  locked : s.1.locked = true

/-- And no halt has been read that has not ended. -/
structure Active (s : Watch × Bool) : Prop extends Steady s where
  halts : s.1.halts = []

/-- Where a row or a settle is missing, what was dispatched is not finished. -/
theorem active_working {b k : Bool} {j : Job} (h : k = (!b && j.finished)) :
    Active (working b k j) := ⟨⟨h, fun _ => rfl, rfl⟩, rfl⟩

theorem Job.finished_eq_false {j : Job} (h : j.rows ≠ 1 ∨ j.settles ≠ 1) : j.finished = false := by
  unfold Job.finished
  rcases h with h | h <;> simp [h]
variable {s : Watch × Bool}

theorem wp_errorMessage {e : Thrown} {Q : Except Thrown String → Watch × Bool → Prop}
    (hok : ∀ text, e.text.isSome = true → Q (.ok text) s)
    (herror : ∀ e', e.text.isSome = false → Q (.error e') s) :
    wp (observe parseDate) (errorMessage e) Q s := by
  unfold errorMessage message
  cases htext : e.text with
  | some text => exact hok _ (by rw [htext, Option.isSome_some])
  | none => exact herror _ (by rw [htext, Option.isSome_none])

theorem wp_ask {Q : Except Thrown c.Answer → Watch × Bool → Prop}
    (h : ∀ a, Q a (observe parseDate s ⟨c, a⟩)) : wp (observe parseDate) (ask c) Q s := h

theorem wp_tryLogged {call : Fleet Unit} {Q : Except Thrown Unit → Watch × Bool → Prop}
    (h : wp (observe parseDate) call
      (fun r t => if Heard r then Q (.ok ()) t else ∀ e, Q (.error e) t) s) :
    wp (observe parseDate) (tryLogged call) Q s := by
  rw [tryLogged, wp_bind, wp_attempt]
  refine wp_mono h fun r t ht => ?_
  cases r with
  | ok u => exact ht
  | error e =>
    change wp _ (errorMessage e >>= fun _ => pure ()) _ _
    rw [wp_bind]
    refine wp_errorMessage (fun _ htext => ?_) fun e' htext => ?_
    · exact (if_pos (show Heard (.error e : Except Thrown Unit) = true from htext)).mp ht
    · rw [Heard, htext] at ht
      exact ht e'

/-- The row says how the worker has ended, or nothing is heard of the item again. -/
theorem wp_finalRow {branch pr : Option String} {r : Except Thrown RunRecord}
    (hbase : Base work base) :
    wp (observe parseDate) (finalRow base branch pr r)
      (fun final t => t = s ∧ match final with
        | .ok (row, _) => Ended work r = row.endsFor work.item work.lane
        | .error _ => Ended work r = false) s := by
  cases r with
  | ok row => exact ⟨rfl, rfl⟩
  | error e =>
    rw [finalRow, wp_bind]
    refine wp_errorMessage (fun _ htext => ⟨rfl, htext.trans (Eq.symm ?_)⟩) fun _ htext =>
      ⟨rfl, htext⟩
    exact hbase.endsFor rfl rfl rfl

/-- What is known once the PR is armed, or it has been tried to disarm it. -/
def Disarmed (work : Work) (b k : Bool) (r : Except Thrown Unit) (t : Watch × Bool) : Prop :=
  ∃ j, j.work = work ∧ j.rows = 0 ∧ j.settles = 0 ∧ match r with
    | .ok _ => t = working b k j ∧ (j.work.pr.isNone || j.armed || j.disarmed) = true
    | .error _ => t = working b false j

/-- A PR that is known is armed, or it is tried to disarm it. -/
theorem wp_disarm {armed : Bool} (hj : j.Open work) (harmed : armed = true → j.armed = true) :
    wp (observe parseDate) (disarm work.pr armed) (Disarmed work b k) (working b k j) := by
  have hsame (h : (j.work.pr.isNone || j.armed || j.disarmed) = true) :
      Disarmed work b k (.ok ()) (working b k j) :=
    ⟨j, hj.work, hj.rows, hj.settles, rfl, h⟩
  cases hpr : work.pr with
  | none => exact hsame (by rw [hj.work, hpr]; rfl)
  | some p =>
    cases armed with
    | true => exact hsame (by rw [harmed rfl, Bool.or_true, Bool.true_or])
    | false =>
      let tried : Job := { j with disarmed := true }
      have hmade (a : Except Thrown Unit) : observe parseDate (working b k j)
          ⟨.disableAutoMerge p, a⟩ = working b (k && Heard a) tried := by
        refine Prod.ext ?_ (by cases a <;> rfl)
        simp [observe, watch, working, Watch.onJob, hj.work, hpr, tried]
      refine wp_tryLogged (wp_ask fun a => ?_)
      rw [hmade]
      split_ifs with ha
      · refine ⟨tried, hj.work, hj.rows, hj.settles, ?_, Bool.or_true _⟩
        rw [ha, Bool.and_true]
      · refine fun e => ⟨tried, hj.work, hj.rows, hj.settles, ?_⟩
        rw [Bool.not_eq_true] at ha
        rw [ha, Bool.and_false]

/-- The last call of a dispatch. -/
theorem wp_settle {input : SettleInput} {result : Outcome × Bool}
    {announced : List (String × String)} (hitem : input.item = j.work.item)
    (hlane : input.lane = j.work.lane) (hannounced : k = true → announced = [])
    (hk : k = (!b && Job.finished { j with settles := j.settles + 1 })) :
    wp (observe parseDate) (do tryLogged (ask (.settle input)); pure result) (fun _ => Active)
      (⟨b, true, [], announced, some j⟩, k) := by
  have hactive (a : Except Thrown Unit) :
      Active (observe parseDate (⟨b, true, [], announced, some j⟩, k) ⟨.settle input, a⟩) := by
    have hmade : observe parseDate (⟨b, true, [], announced, some j⟩, k) ⟨.settle input, a⟩ =
        (⟨b, true, [], announced, some { j with settles := j.settles + 1 }⟩, k) := by
      refine Prod.ext ?_ (by cases a <;> exact Bool.and_true k)
      simp [observe, watch, Watch.onJob, hitem, hlane]
    rw [hmade]
    exact ⟨⟨hk, hannounced, rfl⟩, rfl⟩
  rw [wp_bind]
  refine wp_tryLogged (wp_ask fun a => ?_)
  split_ifs
  · exact hactive a
  · exact fun _ => hactive a

variable {row : RunRecord}

/-- The row that says how the worker has ended is recorded, or fails to be. -/
theorem observe_record (hj : j.rows = 0)
    (hends : row.endsFor j.work.item j.work.lane = true) (a : Except Thrown Unit) :
    observe parseDate (working b k j) ⟨.record row, a⟩ =
      working b (k && a.toBool) { j with rows := 1 } := by
  have hterminal : row.outcome.terminal = true := by
    simp only [RunRecord.endsFor, Bool.and_eq_true] at hends
    exact hends.1.1
  have hrow : row.outcome ≠ .dispatched := by
    intro h
    rw [h] at hterminal
    cases hterminal
  refine Prod.ext ?_ ?_
  · simp [observe, watch, working, Watch.onJob, hrow, hends, hj]
  · cases a <;> simp [observe, kept, working, hterminal, Except.toBool]

/-- Another row changes nothing of the job. -/
theorem observe_other (hends : row.endsFor j.work.item j.work.lane = false)
    (a : Except Thrown Unit) : ∃ announced, observe parseDate (working b false j) ⟨.record row, a⟩ =
      (⟨b, true, [], announced, some j⟩, false) := by
  simp only [observe, watch, working, Watch.onJob, Option.map_some, hends, Bool.false_and,
    Bool.false_eq_true, if_false]
  split_ifs
  · exact ⟨_, rfl⟩
  · exact ⟨_, rfl⟩
  · exact ⟨_, rfl⟩

theorem wp_finishDispatch {reported : Option DispatchOutcome} {tried : Tried}
    (hwork : work.pr = reported.bind (·.pr)) (hbase : Base work base) (hj : j.Open work)
    (harmed : tried.2.armed = true → j.armed = true) (hk : k = (!b && Ended work tried.1)) :
    wp (observe parseDate) (finishDispatch work.item work.lane base reported tried)
      (fun _ => Active) (working b k j) := by
  unfold finishDispatch
  refine wp_bind.mpr (wp_mono (wp_finalRow hbase) ?_)
  rintro (e | ⟨row, threw⟩) t ⟨rfl, hrow⟩
  · have hrows : j.finished = false := Job.finished_eq_false (.inl (by rw [hj.rows]; decide))
    exact active_working (by rw [hk, hrow, hrows])
  rw [← hwork]
  refine wp_bind.mpr (wp_mono (wp_disarm hj harmed) ?_)
  rintro (e | u) t ⟨j', rfl, hrows', hsettles', ht⟩
  · obtain rfl := ht
    have hrows : j'.finished = false := Job.finished_eq_false (.inl (by rw [hrows']; decide))
    exact active_working (by rw [hrows, Bool.and_false])
  obtain ⟨rfl, hpr⟩ := ht
  -- the row is recorded; where that fails, nothing is settled
  rw [hrow] at hk
  refine wp_bind.mpr (wp_ask fun a => ?_)
  cases hends : row.endsFor j'.work.item j'.work.lane with
  | true =>
    rw [observe_record hrows' hends]
    rw [hends, Bool.and_true] at hk
    cases a with
    | error e =>
      have hunsettled : Job.finished { j' with rows := 1 } = false :=
        Job.finished_eq_false (.inr (by rw [hsettles']; decide))
      exact active_working (by rw [hunsettled, Bool.and_false]; exact Bool.and_false k)
    | ok u =>
      refine wp_settle rfl rfl (fun _ => rfl) ?_
      simp [Except.toBool, hk, Job.finished, hsettles', hpr]
  | false =>
    rw [hends, Bool.and_false] at hk
    subst hk
    have hrows : j'.finished = false := Job.finished_eq_false (.inl (by rw [hrows']; decide))
    obtain ⟨announced, hmade⟩ := observe_other hends a
    rw [hmade]
    cases a with
    | error e => exact ⟨⟨by simp [Watch.finished, hrows], nofun, rfl⟩, rfl⟩
    | ok u =>
      refine wp_settle rfl rfl nofun ?_
      simp [Job.finished, hrows']

/-- The DISPATCHED row that announces the worker. -/
theorem observe_announced {w : Watch} (hrow : row.outcome = .dispatched)
    (a : Except Thrown Unit) : observe parseDate (w, k) ⟨.record row, a⟩ =
      (if a.toBool then { w with announced := w.announced ++ [(row.lane, row.itemId)] } else w,
        k) := by
  cases a <;> simp [observe, watch, kept, hrow, Outcome.terminal]

/-- Where everything was as promised, the dispatch is; otherwise it is not allowed. -/
theorem observe_dispatch {w : Watch} (hw : Active (w, k))
    (a : Except Thrown DispatchOutcome) :
    observe parseDate ({ w with announced := w.announced ++ [(lane.id, item.id)] }, k)
        ⟨.dispatch item lane, a⟩ =
      working (!k) (k && kept ⟨.dispatch item lane, a⟩)
        { work := ⟨item, lane, a.toOption.bind fun r => r.pr⟩ } := by
  have hbroken : (w.broken || !(w.halts.isEmpty &&
      w.announced ++ [(lane.id, item.id)] = [(lane.id, item.id)] && w.finished)) = !k := by
    have hsound : k = (!w.broken && w.finished) := hw.sound
    have hhalts : w.halts = [] := hw.halts
    cases hk : k with
    | true =>
      have hannounced : w.announced = [] := hw.announced hk
      rw [hk] at hsound
      simp_all
    | false =>
      cases hb : w.broken with
      | true => rfl
      | false =>
        rw [hk, hb] at hsound
        have hfinished : w.finished = false := hsound.symm
        rw [hfinished, Bool.and_false]
        rfl
  have hlocked : w.locked = true := hw.locked
  have hhalts : w.halts = [] := hw.halts
  refine Prod.ext ?_ rfl
  simp only [observe, watch, working, Watch.finished] at hbroken ⊢
  rw [← hbroken, hlocked, hhalts]

theorem wp_runLiveDispatch
    (hid : base.itemId = item.id) (hlane : base.lane = lane.id) (hs : Active s) :
    wp (observe parseDate) (runLiveDispatch item lane base) (fun _ => Active) s := by
  obtain ⟨w, k⟩ := s
  unfold runLiveDispatch
  refine wp_bind.mpr (wp_ask fun a => ?_)
  rw [observe_announced rfl]
  cases a with
  | error e => exact hs
  | ok u =>
    refine wp_bind.mpr (wp_attempt.mpr (wp_ask fun a => ?_))
    rw [show (Except.ok u : Except Thrown Unit).toBool = true from rfl, if_pos rfl, hid, hlane,
      observe_dispatch hs]
    cases a with
    | error e =>
      have hopen : Job.Open ⟨item, lane, none⟩ { work := ⟨item, lane, none⟩ } :=
        ⟨rfl, rfl, rfl, rfl⟩
      refine wp_finishDispatch rfl ⟨hid, hlane⟩ hopen nofun ?_
      rw [Bool.not_not]
      rfl
    | ok result =>
      have hopen : Job.Open ⟨item, lane, result.pr⟩ { work := ⟨item, lane, result.pr⟩ } :=
        ⟨rfl, rfl, rfl, rfl⟩
      refine wp_bind.mpr (wp_mono (tries_pipeline ⟨hid, hlane⟩ hopen) ?_)
      rintro r t ⟨tried, j, rfl, hj, rfl, harmed, hended⟩
      refine wp_finishDispatch rfl ⟨hid, hlane⟩ hj harmed ?_
      rw [Bool.not_not, Bool.and_assoc, ← hended]
      rfl

/-! ## A pass -/

/-- The calls of a pass that only look. -/
def Call.looks : Call → Bool
  | .resumeFleet | .readLedger | .now | .resumedAt | .checkBreakers .. | .listItems _
  | .readLabels _ | .findOpenPr .. => true
  | _ => false

theorem observe_looks (hc : c.looks = true) (hs : Active s)
    (a : Except Thrown c.Answer) : observe parseDate s ⟨c, a⟩ = s := by
  obtain ⟨w, k⟩ := s
  have hhalts : w.halts = [] := hs.halts
  cases c with
  | now =>
    cases a with
    | ok now =>
      refine Prod.ext ?_ (Bool.and_true k)
      change { w with halts := w.halts.filter _ } = w
      rw [hhalts, List.filter_nil, ← hhalts]
    | error e => exact Prod.ext rfl (Bool.and_true k)
  | resumeFleet | readLedger | resumedAt | checkBreakers | listItems | readLabels | findOpenPr =>
    cases a <;> exact Prod.ext rfl (Bool.and_true k)
  | _ => cases hc

theorem wp_looks (hc : c.looks = true) (hs : Active s)
    {Q : Except Thrown c.Answer → Watch × Bool → Prop} (hQ : ∀ a, Q a s) :
    wp (observe parseDate) (ask c) Q s :=
  wp_ask fun a => (observe_looks hc hs a).symm ▸ hQ a

theorem wp_shadow (hrow : row.outcome = .shadow)
    {Q : Except Thrown Unit → Watch × Bool → Prop} (hQ : ∀ a, Q a s) :
    wp (observe parseDate) (ask (.record row)) Q s := by
  refine wp_ask fun a => ?_
  have hsame : observe parseDate s ⟨.record row, a⟩ = s := by
    cases a <;> simp [observe, watch, kept, hrow, Outcome.terminal, RunRecord.endsFor, Watch.onJob]
  rw [hsame]
  exact hQ a

/-- What holds when a part of a pass is over: it goes on, or it has returned or thrown. -/
def Continues {ρ γ : Type} (r : Except Thrown (Except ρ γ)) (t : Watch × Bool) : Prop :=
  match r with
  | .ok (.ok _) => Active t
  | _ => Steady t

theorem Active.continues {ρ γ : Type} {r : Except Thrown (Except ρ γ)} {t : Watch × Bool}
    (ht : Active t) : Continues r t := by
  unfold Continues
  split
  · exact ht
  · exact ht.toSteady

/-- A halt that is read is noted, with the time when it ends. -/
theorem wp_checkHalt {Q : Except Thrown Halt → Watch × Bool → Prop}
    (hs : Active s) (herror : ∀ e, Q (.error e) s)
    (hgo : ∀ halt, halt.halted = false → Q (.ok halt) s)
    (hstop : ∀ halt, halt.halted = true → ∀ t, Steady t →
      t.1.halts = [resumeTime parseDate halt.reason] → Q (.ok halt) t) :
    wp (observe parseDate) (ask .checkHalt) Q s := by
  obtain ⟨w, k⟩ := s
  have hhalts : w.halts = [] := hs.halts
  refine wp_ask fun a => ?_
  cases a with
  | error e =>
    have hsame : observe parseDate (w, k) ⟨.checkHalt, .error e⟩ = (w, k) :=
      Prod.ext rfl (Bool.and_true k)
    rw [hsame]
    exact herror e
  | ok halt =>
    have hmade : observe parseDate (w, k) ⟨.checkHalt, .ok halt⟩ =
        (if halt.halted then { w with halts := [resumeTime parseDate halt.reason] } else w, k) := by
      refine Prod.ext ?_ (Bool.and_true k)
      simp only [observe, watch, hhalts]
    rw [hmade]
    split_ifs with h
    · exact hstop halt h _ ⟨hs.sound, hs.announced, hs.locked⟩ rfl
    · exact hgo halt (Bool.not_eq_true _ ▸ h)

/-- What holds after an item: a lane whose loop ends there leaves the pass to the next lane. -/
def ItemEnd (r : Except Thrown (Except (Option TickResult × Counts) (Counts × Nat)))
    (t : Watch × Bool) : Prop :=
  match r with
  | .ok (.ok _) | .ok (.error (none, _)) => Active t
  | _ => Steady t

theorem Active.itemEnd {r : Except Thrown (Except (Option TickResult × Counts) (Counts × Nat))}
    {t : Watch × Bool} (ht : Active t) : ItemEnd r t := by
  unfold ItemEnd
  split
  · exact ht
  · exact ht
  · exact ht.toSteady

theorem wp_passItem {rows : List RunRecord} {owned : List (String × String)}
    {cooling : Bool} {state : Counts × Nat} (hs : Active s) :
    wp (observe parseDate) (passItem rows owned lane cooling state item) ItemEnd s := by
  have hdone {r} : wp (observe parseDate) (pure r :
      Fleet (Except (Option TickResult × Counts) (Counts × Nat))) ItemEnd s := hs.itemEnd
  obtain ⟨counts, taken⟩ := state
  unfold passItem
  dsimp only
  split
  · exact hdone
  split
  · exact hdone
  split
  · exact hdone
  refine wp_bind.mpr (wp_checkHalt hs (fun _ => hs.itemEnd) (fun mid hmid => ?_) ?_)
  · dsimp only
    rw [hmid, if_neg Bool.false_ne_true]
    split
    · exact hdone
    refine wp_bind.mpr (wp_looks rfl hs ?_)
    rintro (e | ts)
    · exact hs.itemEnd
    refine wp_bind.mpr (wp_looks rfl hs ?_)
    rintro (e | runNow)
    · exact hs.itemEnd
    dsimp only
    split
    · refine wp_bind.mpr (wp_shadow rfl ?_)
      rintro (e | u)
      · exact hs.itemEnd
      · exact hdone
    refine wp_bind.mpr (wp_looks rfl hs ?_)
    rintro (e | openPr)
    · exact hs.itemEnd
    cases openPr with
    | some pr => exact hdone
    | none =>
      refine wp_bind.mpr (wp_looks rfl hs ?_)
      rintro (e | labels)
      · exact hs.itemEnd
      dsimp only
      cases judge item labels lane with
      | error reason => exact hdone
      | ok u =>
        refine wp_bind.mpr (wp_mono (wp_runLiveDispatch rfl rfl hs) ?_)
        rintro (e | outcome) t ht
        · exact ht.itemEnd
        · exact ht.itemEnd
  · intro mid hmid t ht _
    dsimp only
    rw [hmid, if_pos rfl]
    exact ht

/-- A loop goes on as long as its rounds do. -/
theorem wp_loop {ι ρ γ : Type} {body : γ → ι → Fleet (Except ρ γ)} {is : List ι} {a : γ}
    {Q : Except Thrown (Except ρ γ) → Watch × Bool → Prop}
    (hQ : ∀ a t, Q (.ok (.ok a)) t ↔ Active t)
    (hbody : ∀ a i s, Active s → wp (observe parseDate) (body a i) Q s) (hs : Active s) :
    wp (observe parseDate) (Program.forEach body a is) Q s := by
  refine wp_forEach (I := Active) (fun a i _ s hs => wp_mono (hbody a i s hs) ?_)
    (fun a t ht => (hQ a t).mpr ht) hs
  rintro (e | r | a) t ht
  · exact ht
  · exact ht
  · exact (hQ a t).mp ht

theorem wp_passLane {rows : List RunRecord} {now : Int} {owned : List (String × String)}
    {itemsByLane : List (String × List WorkItem)} {counts : Counts}
    (hs : Active s) :
    wp (observe parseDate) (passLane rows now owned itemsByLane counts lane) Continues s := by
  refine wp_bind.mpr (wp_mono (wp_loop (fun _ _ => Iff.rfl) (fun _ _ _ => wp_passItem) hs) ?_)
  rintro (e | ⟨_ | result, counts⟩ | counts) t ht
  · exact ht
  · exact ht
  · exact ht
  · exact ht

theorem wp_selectLane {selection : Selection} (hs : Active s) :
    wp (observe parseDate) (selectLane selection lane) Continues s := by
  have hcached (cache : LabelCache) (item : WorkItem) (s : Watch × Bool) (hs : Active s) :
      wp (observe parseDate) (readLabelsOf cache item) Continues s := by
    unfold readLabelsOf
    split
    · exact hs.continues
    · refine wp_bind.mpr (wp_looks rfl hs ?_)
      rintro (e | labels)
      · exact hs.continues
      · exact hs.continues
  refine wp_bind.mpr (wp_looks rfl hs ?_)
  rintro (e | detail | items)
  · exact hs.continues
  · exact hs.continues
  · refine wp_bind.mpr (wp_mono (wp_loop (fun _ _ => Iff.rfl) hcached hs) ?_)
    rintro (e | result | cache) t ht
    · exact ht
    · exact ht
    · exact ht

theorem wp_pass {lanes : List Lane} {counter : Nat} (hs : Active s) :
    wp (observe parseDate) (pass lanes counter) (fun _ => Steady) s := by
  unfold pass
  refine wp_bind.mpr (wp_looks rfl hs ?_)
  rintro (e | rows)
  · exact hs.toSteady
  refine wp_bind.mpr (wp_looks rfl hs ?_)
  rintro (e | now)
  · exact hs.toSteady
  refine wp_bind.mpr (wp_looks rfl hs ?_)
  rintro (e | resumedAt)
  · exact hs.toSteady
  refine wp_bind.mpr (wp_looks rfl hs ?_)
  rintro (e | tripped)
  · exact hs.toSteady
  cases tripped with
  | some reason => exact hs.toSteady
  | none =>
    refine wp_bind.mpr (wp_mono (wp_loop (fun _ _ => Iff.rfl) (fun _ _ _ => wp_selectLane) hs) ?_)
    rintro (e | result | selection) t ht
    · exact ht
    · exact ht
    refine wp_bind.mpr (wp_mono (wp_loop (fun _ _ => Iff.rfl) (fun _ _ _ => wp_passLane) ht) ?_)
    rintro (e | result | counts) t ht
    · exact ht
    · exact ht
    · exact ht.toSteady

/-- A pass goes on after a quota halt whose time has passed, and after no other. -/
theorem wp_lockedPass {lanes : List Lane} {counter : Nat} (hs : Active s) :
    wp (observe parseDate) (lockedPass parseDate lanes counter) (fun _ => Steady) s := by
  unfold lockedPass
  refine wp_bind.mpr (wp_checkHalt hs (fun _ => hs.toSteady) (fun halt hhalt => ?_) ?_)
  · dsimp only
    rw [hhalt, Bool.not_false, if_pos rfl]
    exact wp_pass hs
  · intro halt hhalt t ht hhalts
    dsimp only
    rw [hhalt, Bool.not_true, if_neg Bool.false_ne_true]
    split_ifs with hquota
    · rw [resumeTime, if_pos hquota] at hhalts
      cases hends : halt.reason.bind (parseQuotaResumeAt parseDate) with
      | none => exact ht
      | some resumeAt =>
        rw [hends] at hhalts
        obtain ⟨w, k⟩ := t
        have hwaiting (now : Int) : observe parseDate (w, k) ⟨.now, .ok now⟩ =
            ({ w with halts := if now ≥ resumeAt then [] else w.halts }, k) := by
          refine Prod.ext ?_ (Bool.and_true k)
          have hends' : w.halts = [some resumeAt] := hhalts
          by_cases hpassed : resumeAt ≤ now <;> simp [observe, watch, hends', hpassed]
        refine wp_bind.mpr (wp_ask fun a => ?_)
        cases a with
        | error e =>
          have hsame : observe parseDate (w, k) ⟨.now, .error e⟩ = (w, k) :=
            Prod.ext rfl (Bool.and_true k)
          exact hsame.symm ▸ ht
        | ok now =>
          rw [hwaiting now]
          dsimp only
          split_ifs
          · have hs : Active ({ w with halts := [] }, k) :=
              ⟨⟨ht.sound, ht.announced, ht.locked⟩, rfl⟩
            refine wp_bind.mpr (wp_looks rfl hs ?_)
            rintro (e | u)
            · exact hs.toSteady
            · exact wp_pass hs
          · exact ht
    · exact ht

/-- The lock is given back, and everything is as promised exactly if all calls were kept. -/
def Released (t : Watch × Bool) : Prop :=
  t.2 = (!t.1.broken && t.1.finished) ∧ t.1.locked = false

theorem wp_caught {r : Except Thrown TickResult} {P : Watch × Bool → Prop}
    (hs : P s) : wp (observe parseDate) (caught r) (fun _ => P) s := by
  cases r with
  | ok result => exact hs
  | error e =>
    refine wp_bind.mpr (wp_errorMessage (fun _ _ => ?_) fun _ _ => ?_)
    · exact hs
    · exact hs

theorem wp_tick {lanes : List Lane} {counter : Nat} :
    wp (observe parseDate) (tick parseDate lanes counter) (fun _ => Released) ({}, true) := by
  refine wp_bind.mpr (wp_attempt.mpr (wp_ask fun a => ?_))
  match a with
  | .error e => exact wp_caught ⟨rfl, rfl⟩
  | .ok (.heldByPid _) => exact ⟨rfl, rfl⟩
  | .ok .held =>
    have hs : Active (observe parseDate ({}, true) ⟨.acquireLock, .ok .held⟩) :=
      ⟨⟨rfl, fun _ => rfl, rfl⟩, rfl⟩
    refine wp_bind.mpr (wp_attempt.mpr (wp_bind.mpr (wp_attempt.mpr ?_)))
    refine wp_mono (wp_lockedPass hs) fun r t ht => ?_
    refine wp_mono (wp_caught ht) fun r t ht => ?_
    have hreleased (a : Except Thrown Unit) :
        Released (observe parseDate t ⟨.release, a⟩) := by
      have hkept : (t.2 && kept ⟨.release, a⟩) = t.2 := by cases a <;> exact Bool.and_true _
      exact ⟨hkept.trans ht.sound, rfl⟩
    refine wp_bind.mpr (wp_ask fun a => ?_)
    cases a with
    | error e => exact hreleased (.error e)
    | ok u => exact hreleased (.ok u)

/-- **A pass keeps its promises** exactly if all its calls are kept. -/
theorem tick_sound_iff {lanes : List Lane} {counter : Nat} {trace : List Made}
    {result : Except Thrown TickResult}
    (h : Behaves (tick parseDate lanes counter) trace result) :
    Sound parseDate trace ↔ ∀ e ∈ trace, kept e = true := by
  have hreleased : Released (trace.foldl (observe parseDate) ({}, true)) :=
    wp_iff.mp wp_tick trace result h
  rw [foldl_observe, Bool.true_and] at hreleased
  obtain ⟨hsound, hlocked⟩ := hreleased
  dsimp only at hsound hlocked
  rw [← List.all_eq_true, hsound]
  simp only [Sound, Bool.and_eq_true, Bool.not_eq_true']
  exact ⟨fun h => ⟨h.1, h.2.1⟩, fun h => ⟨h.1, h.2, hlocked⟩⟩

/-! ## Two passes -/

def infra : Lane where
  id := "infra"
  mode := .live
  cap := 1
  engine := "claude"
  requireLabel := "agent-dispatchable"
  vetoLabels := ["needs-human"]
  owned := ["deploy/"]

def issue : WorkItem where
  id := "722"
  title := "Rotate the certificates"
  body := String.ofList (List.replicate 200 'x')

/-- A pass that dispatches one worker, which fails; `record` answers with what is left of the
disk. -/
def oneIssue (record : RunRecord → Except Thrown Unit) : (c : Call) → Except Thrown c.Answer
  | .acquireLock => .ok .held
  | .checkHalt => .ok ⟨false, none⟩
  | .readLedger => .ok []
  | .now | .resumedAt => .ok (0 : Int)
  | .checkBreakers .. => .ok none
  | .listItems _ => .ok (.ok [issue])
  | .readLabels _ => .ok (some ["agent-dispatchable", "lane:infra"])
  | .findOpenPr .. => .ok none
  | .dispatch .. => .ok { outcome := .failed }
  | .record row => record row
  | .settle _ | .release => .ok ()
  | _ => .error (.thrown (some "not called"))

/-- The disk is full once the worker has been announced. -/
def fullDisk (row : RunRecord) : Except Thrown Unit :=
  if row.outcome = .dispatched then .ok ()
  else .error (.thrown (some "ENOSPC: no space left on device, write"))

theorem one_issue_sound :
    Sound (fun _ => none)
      (runWith (oneIssue fun _ => .ok ()) (tick (fun _ => none) [infra] 0)).1 :=
  (tick_sound_iff (behaves_runWith _ _)).mpr (by decide +kernel)

/-- The worker's row cannot be recorded, and the worker is never settled. -/
theorem full_disk_not_settled :
    Behaves (tick (fun _ => none) [infra] 0)
        (runWith (oneIssue fullDisk) (tick (fun _ => none) [infra] 0)).1
        (runWith (oneIssue fullDisk) (tick (fun _ => none) [infra] 0)).2 ∧
      ¬ Sound (fun _ => none) (runWith (oneIssue fullDisk) (tick (fun _ => none) [infra] 0)).1 :=
  ⟨behaves_runWith _ _, by unfold Sound; decide +kernel⟩

end Llamenos.Orchestrator
