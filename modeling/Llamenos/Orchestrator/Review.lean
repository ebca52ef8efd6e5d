import Llamenos.Lib.Effects
import Llamenos.Orchestrator.Select

/-!
# The review loop

`runReviewLoop` of `orchestrator/src/review.ts`, and the calls that a pass of the fleet makes: what
`TickDeps` of `tick.ts` has injected, except for `log`, and `checkBreakers` of `circuit.ts`, whose
answer is left open. Each call may be answered with anything, or throw anything.
-/

namespace Llamenos.Orchestrator

open Llamenos.Lib Effects

/-! ## What is called -/

/-- What is thrown: a `VerifierTamperedWorktreeError`, or anything else, with the text that
`e instanceof Error ? e.message : String(e)` gives; `none` where `String(e)` throws. -/
inductive Thrown where
  | tampered (message : String)
  | thrown (text : Option String)

def Thrown.text : Thrown → Option String
  | .tampered message => some message
  | .thrown text => text

structure DispatchOutcome where
  outcome : Outcome
  note : Option String := none
  pr : Option String := none
  branch : Option String := none
  worktree : Option String := none
  branchMismatch : Option String := none
  quotaResetHint : Option String := none
  quotaResetAt : Option Int := none

structure SettleInput where
  item : WorkItem
  lane : Lane
  outcome : Outcome
  worktree : Option String
  branch : Option String
  pr : Option String
  needsHuman : Bool

structure SecondOpinionInput where
  authorEngine : String
  pr : String
  worktree : String
  diff : String
  report : VerifyReport

structure SecondOpinionResult where
  verdict : ReviewVerdict
  text : String

inductive LockResult where
  | held
  | heldByPid (pid : Int)

structure Halt where
  halted : Bool
  reason : Option String

/-- The comments that are made on a PR. -/
inductive PrComment where
  | reviewUnavailable (reasonText : String)
  | branchMismatch (mismatch itemId branch : String)
  | notVerified (branch : Option String)

inductive Call where
  | acquireLock
  | release
  | checkHalt
  | resumeFleet
  | readLedger
  | now
  | resumedAt
  | checkBreakers (rows : List RunRecord) (now resumedAt : Int)
  | listItems (lane : Lane)
  | readLabels (id : String)
  | findOpenPr (lane : Lane) (item : WorkItem)
  | dispatch (item : WorkItem) (lane : Lane)
  | verifyMechanical (worktree branch : String) (lane : Lane)
  | prDiff (pr : String)
  | secondOpinion (input : SecondOpinionInput)
  | postReview (pr : String) (verdict : ReviewVerdict) (body : String)
  | reviseWithWorker (item : WorkItem) (lane : Lane) (verdictText : String)
  | haltFleet (reason : String)
  | enableAutoMerge (pr : String)
  | disableAutoMerge (pr : String)
  | commentOnIssue (itemId body : String)
  | commentOnPr (pr : String) (comment : PrComment)
  | settle (input : SettleInput)
  | record (row : RunRecord)

@[reducible]
def Call.Answer : Call → Type
  | .acquireLock => LockResult
  | .checkHalt => Halt
  | .readLedger => List RunRecord
  | .now | .resumedAt => Int
  | .checkBreakers .. => Option String
  | .listItems _ => Except String (List WorkItem)
  | .readLabels _ => Option (List String)
  | .findOpenPr .. => Option String
  | .dispatch .. => DispatchOutcome
  | .verifyMechanical .. => VerifyReport
  | .prDiff _ => String
  | .secondOpinion _ => SecondOpinionResult
  | _ => Unit

abbrev Fleet (α : Type) := Program Call Call.Answer Thrown α

abbrev Made := Entry Call Call.Answer Thrown

def ask (c : Call) : Fleet c.Answer := .request c

/-- `e instanceof Error ? e.message : String(e)`, which throws where `String(e)` does. -/
def message (e : Thrown) : Fleet String :=
  match e.text with
  | some text => pure text
  | none => .fail (.thrown (some "Cannot convert object to primitive value"))

/-! ## The loop -/

def MAX_REVIEW_ROUNDS : Nat := 2

structure ReviewLoopInput where
  authorEngine : String
  pr : String
  worktree : String
  branch : String
  item : WorkItem
  lane : Lane

structure ReviewLoopResult where
  finalVerdict : ReviewVerdict
  rounds : Nat
  needsHuman : Bool
  lastReport : Option VerifyReport
  lastVerdictText : Option String := none

/-- What the loop keeps between its rounds. -/
structure Rounds where
  lastReport : Option VerifyReport := none
  lastVerdict : Option ReviewVerdict := none
  lastVerdictText : Option String := none
  rounds : Nat := 0

def safeCommentOnPr (pr reasonText : String) : Fleet Unit := do
  match ← Program.attempt (ask (.commentOnPr pr (.reviewUnavailable reasonText))) with
  | .ok _ => return
  | .error e =>
    -- for the log
    let _ ← message e

/-- The round where the reviewer has tampered with the worktree. -/
def tamperDetected (input : ReviewLoopInput) (round : Nat) (report : VerifyReport) (text : String) :
    Fleet (Except ReviewLoopResult Rounds) := do
  ask (.haltFleet
    ("non-author verifier tampered with the author's own worktree during review of PR " ++
      input.pr ++ ": " ++ text))
  let tamperText := "the non-author verifier appears to have tampered with the worktree during" ++
    " review (" ++ text ++ ") — the fleet has halted, and this verdict cannot be trusted"
  safeCommentOnPr input.pr tamperText
  return .error ⟨.unreadable, round, true, some report, some tamperText⟩

/-- The verdict goes back to the worker, unless this is the last round. -/
def revise (input : ReviewLoopInput) (round : Nat) (report : VerifyReport)
    (secondOp : SecondOpinionResult) : Fleet (Except ReviewLoopResult Rounds) :=
  let next : Rounds := ⟨some report, some secondOp.verdict, some secondOp.text, round⟩
  if round < MAX_REVIEW_ROUNDS then do
    match ← Program.attempt (ask (.reviseWithWorker input.item input.lane secondOp.text)) with
    | .ok _ => return .ok next
    | .error e =>
      -- for the log
      let _ ← message e
      return .error ⟨secondOp.verdict, round, true, some report, some secondOp.text⟩
  else return .ok next

def afterOpinion (input : ReviewLoopInput) (round : Nat) (report : VerifyReport)
    (secondOp : SecondOpinionResult) : Fleet (Except ReviewLoopResult Rounds) := do
  ask (.postReview input.pr secondOp.verdict secondOp.text)
  match secondOp.verdict with
  | .unreadable =>
    safeCommentOnPr input.pr secondOp.text
    revise input round report secondOp
  | .pass => return .error ⟨.pass, round, false, some report, some secondOp.text⟩
  | .fail => revise input round report secondOp

def reviewRound (input : ReviewLoopInput) (_ : Rounds) (round : Nat) :
    Fleet (Except ReviewLoopResult Rounds) := do
  let report : VerifyReport ← ask (.verifyMechanical input.worktree input.branch input.lane)
  if !report.passed then
    return .error ⟨.fail, round, true, some report, none⟩
  else
    let diff ← ask (.prDiff input.pr)
    match ← Program.attempt (ask (.secondOpinion
        ⟨input.authorEngine, input.pr, input.worktree, diff, report⟩)) with
    | .error (.tampered text) => tamperDetected input round report text
    | .error e => .fail e
    | .ok secondOp => afterOpinion input round report secondOp

def runReviewLoop (input : ReviewLoopInput) : Fleet ReviewLoopResult := do
  match ← Program.forEach (reviewRound input) {} (List.range' 1 MAX_REVIEW_ROUNDS) with
  | .error result => return result
  | .ok state =>
    return ⟨state.lastVerdict.getD .fail, state.rounds, true, state.lastReport,
      state.lastVerdictText⟩

end Llamenos.Orchestrator
