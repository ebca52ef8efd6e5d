import Llamenos.Orchestrator.Review

/-!
# A pass of the fleet

`runLiveDispatch` and `tick` of `orchestrator/src/tick.ts`. A `try` block gives its result as a
value, and with it what it has assigned before it threw. What is logged is left out, except where
the text for the log may throw.
-/

namespace Llamenos.Orchestrator

open Llamenos.Lib Effects

def NOTE_MAX_CHARS : Nat := 300

def truncateNote (s : String) : String := slice s NOTE_MAX_CHARS

def errorMessage (e : Thrown) : Fleet String := truncateNote <$> message e

/-! ## Run ids -/

def base36 : Nat → List Char → List Char
  | n, cs =>
    let c := Char.ofNat (if n % 36 < 10 then 48 + n % 36 else 87 + n % 36)
    if h : n < 36 then c :: cs else
      have : n / 36 < n := by omega
      base36 (n / 36) (c :: cs)

/-- A pass's run ids; `counter` is what the last one has left. -/
def runId (now : Int) (counter : Nat) : String × Nat :=
  let counter := (counter + 1) % 0xffff
  let digits := base36 counter []
  (String.ofList ((if now < 0 then ['-'] else []) ++ base36 now.natAbs [] ++
    List.replicate (3 - digits.length) '0' ++ digits), counter)

/-! ## One item -/

/-- What `runLiveDispatch` assigns inside its `try` block, besides what the dispatch has reported. -/
structure Flags where
  needsHuman : Bool := false
  armed : Bool := false

/-- What is left of a `try` block: the terminal row, or what it threw. -/
abbrev Tried := Except Thrown RunRecord × Flags

def refuse (item : WorkItem) (lane : Lane) (base : RunRecord) (result : DispatchOutcome)
    (mismatch : String) : Fleet Tried := do
  let final ← Program.attempt do
    match fleetBranchFor lane.id item.id with
    | .error text => .fail (.thrown (some text))
    | .ok branch =>
      if let some pr := result.pr then
        ask (.commentOnPr pr (.branchMismatch mismatch item.id branch))
      return { base with
        outcome := .failed
        branch := result.branch
        pr := result.pr
        note := some (truncateNote (result.note.getD ("branch-mismatch:" ++ mismatch))) }
  return (final, { needsHuman := true })

/-- The PR is armed, which may fail. -/
def arm (pr : String) (row : String → RunRecord) (trace : String) : Fleet Tried := do
  match ← Program.attempt (ask (.enableAutoMerge pr)) with
  | .ok _ => return (.ok (row trace), { armed := true })
  | .error e =>
    match ← (errorMessage e).attempt with
    | .error e => return (.error e, {})
    | .ok armFailure =>
      return (.ok (row ("arm=failed(" ++ armFailure ++ ") " ++ trace)), { needsHuman := true })

/-- What is done with the review loop's result. -/
def conclude (item : WorkItem) (base : RunRecord) (branch pr : String) (loop : ReviewLoopResult) :
    Fleet Tried :=
  let after := " after " ++ toString loop.rounds ++ " round(s)"
  let rounds := "rounds=" ++ toString loop.rounds ++ " "
  let trace := buildGateTrace loop.lastReport (some loop.finalVerdict) loop.lastVerdictText
  let row (outcome : Outcome) (note : String) : RunRecord :=
    { base with
      outcome
      branch := some branch
      pr := some pr
      note := some (truncateNote note) }
  let commented (body : String) := Program.attempt (ask (.commentOnIssue item.id body))
  if !(loop.lastReport.any (·.passed)) then do
    let reasons := loop.lastReport.elim [] (·.reasons)
    let r ← commented ("Mechanical verification failed" ++ after ++ ":\n- " ++ join "\n- " reasons)
    return (r.map fun _ => row .rejected (rounds ++ buildGateTrace loop.lastReport), {})
  else match loop.finalVerdict with
    | .fail => do
      let r ← commented
        ("Review did not pass" ++ after ++ " (final verdict: FAIL) — needs a human.")
      return (r.map fun _ => row .rejected (rounds ++ trace), {})
    | .unreadable => do
      let r ← commented ("The fleet could not get a verification verdict" ++ after ++
        " (UNREADABLE) — this is a gap in the fleet's own verification, not a claim that the " ++
        "work is wrong. Needs a human look.")
      return (r.map fun _ => row .unverified (rounds ++ trace), { needsHuman := r.toBool })
    | .pass => arm pr (row .success) trace

/-- Verified, reviewed, and armed if both have passed. -/
def verifyAndReview (item : WorkItem) (lane : Lane) (base : RunRecord) (branch pr worktree : String) :
    Fleet Tried := do
  match ← Program.attempt (runReviewLoop ⟨lane.engine, pr, worktree, branch, item, lane⟩) with
  | .error e => return (.error e, {})
  | .ok loop => conclude item base branch pr loop

/-- A worker that claims a success which cannot be verified. -/
def skipVerification (base : RunRecord) (result : DispatchOutcome) : Fleet Tried := do
  let commented ← Program.attempt do
    if let some pr := result.pr then
      ask (.commentOnPr pr (.notVerified result.branch))
  match commented with
  | .error e => return (.error e, {})
  | .ok _ =>
    let note := Worker.trim (result.note.getD "" ++ " | " ++ buildGateTrace none)
    return (.ok
      { base with
        outcome := .success
        branch := result.branch
        pr := result.pr
        note := some (truncateNote note) }, { needsHuman := true })

/-- What is done with what the worker has reported. -/
def pipeline (item : WorkItem) (lane : Lane) (base : RunRecord) (result : DispatchOutcome) :
    Fleet Tried :=
  match result.branchMismatch with
  | some mismatch => refuse item lane base result mismatch
  | none =>
    if result.outcome = .success then
      match result.branch, result.pr, result.worktree with
      | some branch, some pr, some worktree => verifyAndReview item lane base branch pr worktree
      | _, _, _ => skipVerification base result
    -- `{ ...base, ...result }`
    else pure
      (.ok
        { base with
          outcome := result.outcome
          note := result.note
          pr := result.pr
          branch := result.branch
          quotaResetHint := result.quotaResetHint
          quotaResetAt := result.quotaResetAt }, {})

/-- The terminal row: what the `try` block has made, or what its `catch` makes. -/
def finalRow (base : RunRecord) (branch pr : Option String) :
    Except Thrown RunRecord → Fleet (RunRecord × Bool)
  | .ok final => pure (final, false)
  | .error e => do
    let text ← errorMessage e
    return ({ base with
      outcome := .failed
      note := some text
      branch
      pr }, true)

/-- `try { await … } catch (e) { deps.log(… errorMessage(e) …) }`. -/
def tryLogged (call : Fleet Unit) : Fleet Unit := do
  match ← call.attempt with
  | .ok _ => return
  | .error e =>
    let _ ← errorMessage e

def disarm (pr : Option String) (armed : Bool) : Fleet Unit :=
  match pr, armed with
  | some pr, false => tryLogged (ask (.disableAutoMerge pr))
  | _, _ => pure ()

/-- What comes after the `try` block, whatever it has done. -/
def finishDispatch (item : WorkItem) (lane : Lane) (base : RunRecord)
    (reported : Option DispatchOutcome) (tried : Tried) : Fleet (Outcome × Bool) := do
  let branch := reported.bind (·.branch)
  let pr := reported.bind (·.pr)
  let (final, threw) ← finalRow base branch pr tried.1
  disarm pr tried.2.armed
  ask (.record final)
  tryLogged (ask (.settle
    ⟨item, lane, final.outcome, reported.bind (·.worktree), branch, pr, tried.2.needsHuman⟩))
  return (final.outcome, threw)

def runLiveDispatch (item : WorkItem) (lane : Lane) (base : RunRecord) :
    Fleet (Outcome × Bool) := do
  ask (.record { base with outcome := .dispatched })
  match ← Program.attempt (ask (.dispatch item lane)) with
  | .error e => finishDispatch item lane base none (.error e, {})
  | .ok (result : DispatchOutcome) =>
    let tried ← pipeline item lane base result
    finishDispatch item lane base (some result) tried

/-! ## A pass -/

inductive Aborted where
  | sourceUnreadable | breaker | error

structure TickResult where
  ran : Bool := false
  halted : Option Bool := none
  haltReason : Option String := none
  aborted : Option Aborted := none
  breakerReason : Option String := none
  errorMessage : Option String := none
  attempted : Nat := 0
  failed : Nat := 0
  shadowed : Nat := 0
  rejections : List (String × Rejection) := []

/-- What a pass has selected so far. -/
structure Selection where
  itemsByLane : List (String × List WorkItem) := []
  rejections : List (String × Rejection) := []
  labelCache : LabelCache := []

def readLabelsOf (cache : LabelCache) (item : WorkItem) : Fleet (Except TickResult LabelCache) := do
  if (cache.lookup item.id).isSome then return .ok cache
  let labels ← ask (.readLabels item.id)
  return .ok ((item.id, labels) :: cache)

def selectLane (selection : Selection) (lane : Lane) : Fleet (Except TickResult Selection) := do
  let unreadable : TickResult :=
    { ran := true
      aborted := some .sourceUnreadable }
  match ← (ask (.listItems lane) : Fleet (Except String (List WorkItem))) with
  | .error _ => return .error unreadable
  | .ok items =>
    match ← Program.forEach readLabelsOf selection.labelCache items with
    | .error result => return .error result
    | .ok labelCache =>
      let (candidates, rejections) := selectForLane items labelCache lane
      return .ok {
        itemsByLane := (lane.id, candidates) :: selection.itemsByLane
        rejections := selection.rejections ++ rejections
        labelCache }

/-- What a pass counts, and the run ids' counter. -/
structure Counts where
  counter : Nat
  attempted : Nat := 0
  failed : Nat := 0
  shadowed : Nat := 0
  rejections : List (String × Rejection) := []

/-- One item of a lane, with the number of the lane's items taken before it; `none` where the
lane's loop ends. -/
def passItem (rows : List RunRecord) (owned : List (String × String)) (lane : Lane) (cooling : Bool)
    (state : Counts × Nat) (item : WorkItem) :
    Fleet (Except (Option TickResult × Counts) (Counts × Nat)) := do
  let (counts, taken) := state
  if owned.lookup item.id ≠ some lane.id then return .ok state
  if taken ≥ lane.cap then return .error (none, counts)
  if failedAttemptsIn rows item.id ≥ MAX_ATTEMPTS_PER_ITEM then return .ok state
  let mid : Halt ← ask .checkHalt
  if mid.halted then
    return .error
      (some
        { ran := true
          halted := some true
          haltReason := mid.reason
          attempted := counts.attempted
          failed := counts.failed
          shadowed := counts.shadowed
          rejections := counts.rejections }, counts)
  if cooling then return .ok state
  let ts : Int ← ask .now
  let runNow : Int ← ask .now
  let (id, counter) := runId runNow counts.counter
  let counts := { counts with counter }
  let base : RunRecord :=
    { ts
      runId := id
      lane := lane.id
      itemId := item.id
      itemName := item.title
      engine := lane.engine
      outcome := .dispatched }
  if lane.mode = .shadow then
    ask (.record
      { base with
        outcome := .shadow
        note := some ("would dispatch to " ++ lane.id ++ "; scope=" ++ join "," lane.owned) })
    return .ok ({ counts with shadowed := counts.shadowed + 1 }, taken + 1)
  if let some _ := (← ask (.findOpenPr lane item) : Option String) then
    return .ok ({ counts with rejections := counts.rejections ++ [(item.id, .prAlreadyOpen)] }, taken)
  let freshLabels ← ask (.readLabels item.id)
  match judge item freshLabels lane with
  | .error reason =>
    return .ok ({ counts with rejections := counts.rejections ++ [(item.id, reason)] }, taken)
  | .ok _ =>
    let (_, threw) ← runLiveDispatch item lane base
    return .ok
      ({ counts with
        failed := if threw then counts.failed + 1 else counts.failed
        attempted := counts.attempted + 1 }, taken + 1)

def passLane (rows : List RunRecord) (now : Int) (owned : List (String × String))
    (itemsByLane : List (String × List WorkItem)) (counts : Counts) (lane : Lane) :
    Fleet (Except TickResult Counts) := do
  let cooling := lane.mode = .live && inQuotaCooldown rows lane.id now
  match ← Program.forEach (passItem rows owned lane cooling) (counts, 0)
      ((itemsByLane.lookup lane.id).getD []) with
  | .ok (counts, _) => return .ok counts
  | .error (none, counts) => return .ok counts
  | .error (some result, _) => return .error result

/-- The pass, once it is known not to be halted. -/
def pass (lanes : List Lane) (counter : Nat) : Fleet TickResult := do
  let rows : List RunRecord ← ask .readLedger
  let now : Int ← ask .now
  let resumedAt : Int ← ask .resumedAt
  if let some tripped := (← ask (.checkBreakers rows now resumedAt) : Option String) then
    return { ran := true
             aborted := some .breaker
             breakerReason := some tripped }
  let active := lanes.filter (·.mode ≠ .off)
  match ← Program.forEach selectLane {} active with
  | .error result => return result
  | .ok selection =>
    let owned := claimAcrossLanes active selection.itemsByLane
    match ← Program.forEach (passLane rows now owned selection.itemsByLane)
        { counter
          rejections := selection.rejections } active with
    | .error result => return result
    | .ok counts => return {
        ran := true
        attempted := counts.attempted
        failed := counts.failed
        shadowed := counts.shadowed
        rejections := counts.rejections }

/-- The pass that holds the lock. -/
def lockedPass (parseDate : String → Option Int) (lanes : List Lane) (counter : Nat) :
    Fleet TickResult := do
  let halt : Halt ← ask .checkHalt
  let stopped : TickResult :=
    { ran := true
      halted := some true
      haltReason := halt.reason }
  if !halt.halted then pass lanes counter
  else if isQuotaHaltReason halt.reason then
    match halt.reason.bind (parseQuotaResumeAt parseDate) with
    | none => return stopped
    | some resumeAt =>
      let now : Int ← ask .now
      if now ≥ resumeAt then
        ask .resumeFleet
        pass lanes counter
      else return stopped
  else return stopped

/-- What `tick` returns where something in its `try` block has thrown. -/
def caught (r : Except Thrown TickResult) : Fleet TickResult :=
  match r with
  | .ok result => pure result
  | .error e => do
    let text ← errorMessage e
    return { ran := true
             aborted := some .error
             errorMessage := some text }

def tick (parseDate : String → Option Int) (lanes : List Lane) (counter : Nat) :
    Fleet TickResult := do
  match ← Program.attempt (ask .acquireLock) with
  | .error e => caught (.error e)
  | .ok (.heldByPid _) => return {}
  | .ok .held =>
    Program.andFinally (do caught (← (lockedPass parseDate lanes counter).attempt)) (ask .release)

end Llamenos.Orchestrator
