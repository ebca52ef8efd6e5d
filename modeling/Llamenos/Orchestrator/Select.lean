import Llamenos.Worker.Runtime
import Mathlib.Data.List.Sort

/-!
# What the fleet knows of its items

The pure parts of a pass of the fleet: `orchestrator/src/ledger.ts`, `select.ts`, `trace.ts`, and
what `tick.ts` takes from `circuit.ts` and `ci.ts`. A text is cut at a number of UTF-16 code units;
where the cut is inside a character, the character is left out.
-/

namespace Llamenos.Orchestrator

open Llamenos.Lib

/-! ## The ledger -/

inductive Outcome where
  | dispatched | success | failed | blocked | timeout | shadow | rejected | quota | unverified
  deriving DecidableEq

structure RunRecord where
  ts : Int
  runId : String
  lane : String
  itemId : String
  itemName : String
  engine : String
  branch : Option String := none
  pr : Option String := none
  outcome : Outcome
  note : Option String := none
  quotaResetHint : Option String := none
  quotaResetAt : Option Int := none

def TERMINAL_FAILURES : List Outcome := [.failed, .timeout, .blocked, .rejected]

/-- `rows.sort((a, b) => b.ts - a.ts)`: the newest first. -/
def newestFirst (rows : List RunRecord) : List RunRecord :=
  rows.insertionSort fun a b => b.ts ≤ a.ts

def failedAttemptsIn (rows : List RunRecord) (itemId : String) : Nat :=
  let mine := newestFirst (rows.filter (·.itemId = itemId))
  (mine.takeWhile (·.outcome ≠ .success)).countP (TERMINAL_FAILURES.contains ·.outcome)

/-! ## Halts and cooldowns -/

def QUOTA_HALT_PREFIX : String := "engine quota exhausted"

def isQuotaHaltReason (reason : Option String) : Bool :=
  reason.any fun r => QUOTA_HALT_PREFIX.toList.isPrefixOf r.toList

/-- `/retry after (.+)$/`: what follows the first occurrence that ends the only line left. -/
def retryAfter : List Char → Option String
  | [] => none
  | c :: cs =>
    let rest := (c :: cs).drop "retry after ".length
    if "retry after ".toList.isPrefixOf (c :: cs) && !rest.isEmpty &&
        rest.all fun d => !([0x0A, 0x0D, 0x2028, 0x2029].contains d.toNat) then
      some (String.ofList rest)
    else retryAfter cs

/-- The time that a quota halt names; `parseDate` is `Date.parse`, `none` for `NaN`. -/
def parseQuotaResumeAt (parseDate : String → Option Int) (reason : String) : Option Int :=
  (retryAfter reason.toList).bind parseDate

def quotaCooldownMs : Int := 3600000

def inQuotaCooldown (rows : List RunRecord) (lane : String) (now : Int) : Bool :=
  match newestFirst (rows.filter fun r => r.lane = lane && r.outcome = .quota) with
  | [] => false
  | last :: _ => now - last.ts < quotaCooldownMs

/-! ## Items and lanes -/

inductive LaneMode where
  | off | shadow | live
  deriving DecidableEq

structure Lane where
  id : String
  mode : LaneMode
  cap : Int
  engine : String
  requireLabel : String
  vetoLabels : List String
  /-- `scope.owned`. -/
  owned : List String
  deriving DecidableEq

structure WorkItem where
  id : String
  title : String
  body : String
  deriving DecidableEq

def MAX_ATTEMPTS_PER_ITEM : Nat := 3

def MIN_BODY_CHARS : Nat := 200

inductive Rejection where
  | labelsUnreadable | missingRequireLabel | vetoed | otherLane | bodyTooShort | prAlreadyOpen

/-- The UTF-16 code units of a character. -/
def units (c : Char) : Nat := if c.toNat < 0x10000 then 1 else 2

/-- `text.trim().length`. -/
def trimmedLength (text : String) : Nat :=
  let cs := text.toList.dropWhile Worker.isSpace
  ((cs.reverse.dropWhile Worker.isSpace).map units).sum

def judge (item : WorkItem) (labels : Option (List String)) (lane : Lane) : Except Rejection Unit :=
  match labels with
  | none => .error .labelsUnreadable
  | some labels =>
    if !labels.contains lane.requireLabel then .error .missingRequireLabel
    else if labels.any lane.vetoLabels.contains then .error .vetoed
    else if !labels.contains ("lane:" ++ lane.id) then .error .otherLane
    else if trimmedLength item.body < MIN_BODY_CHARS then .error .bodyTooShort
    else .ok ()

/-- The labels that have been read, the newest first. -/
abbrev LabelCache := List (String × Option (List String))

def selectForLane (items : List WorkItem) (labelsById : LabelCache) (lane : Lane) :
    List WorkItem × List (String × Rejection) :=
  let judged (item : WorkItem) := judge item ((labelsById.lookup item.id).join) lane
  (items.filter fun item => (judged item).toBool,
    items.filterMap fun item => match judged item with
      | .ok _ => none
      | .error reason => some (item.id, reason))

/-- The lane that owns each item: the first that has it. -/
def claimAcrossLanes (lanes : List Lane) (itemsByLane : List (String × List WorkItem)) :
    List (String × String) :=
  lanes.foldl (fun owned lane =>
    ((itemsByLane.lookup lane.id).getD []).foldl (fun owned item =>
      if (owned.lookup item.id).isSome then owned else owned ++ [(item.id, lane.id)]) owned) []

/-! ## Branches -/

/-- `FLEET_BRANCH_RE`: the lane and the item of a branch. -/
def fleetBranch (branch : List Char) : Option (List Char × List Char) :=
  if "fleet/".toList.isPrefixOf branch then
    let rest := branch.drop "fleet/".length
    let lane := rest.takeWhile (· ≠ '/')
    match rest.dropWhile (· ≠ '/') with
    | [] => none
    | _ :: item =>
      if lane.isEmpty || item.isEmpty || item.contains '/' then none else some (lane, item)
  else none

/-- The branch of an item, or the text of the error. -/
def fleetBranchFor (laneId itemId : String) : Except String String :=
  let branch := "fleet/" ++ laneId ++ "/" ++ itemId
  if fleetBranch branch.toList = some (laneId.toList, itemId.toList) then .ok branch
  else .error <| "lane \"" ++ laneId ++ "\" / item \"" ++ itemId ++
    "\" cannot form a fleet branch (fleet/<lane>/<item>)"

/-! ## The gate trace -/

inductive Impact where
  | low | high

structure VerifyReport where
  passed : Bool
  reasons : List String
  changedFiles : List String
  impact : Impact
  impactReasons : List String
  testsRun : Option (List String) := none
  testsPassed : Option Bool := none
  verifiedCommit : Option String := none

inductive ReviewVerdict where
  | pass | fail | unreadable
  deriving DecidableEq

def ReviewVerdict.text : ReviewVerdict → String
  | .pass => "PASS"
  | .fail => "FAIL"
  | .unreadable => "UNREADABLE"

/-- `text.slice(0, n)`. -/
def sliceUnits : Nat → List Char → List Char
  | _, [] => []
  | n, c :: cs =>
    if units c ≤ n then c :: sliceUnits (n - units c) cs else []

def slice (text : String) (n : Nat) : String := String.ofList (sliceUnits n text.toList)

def join (separator : String) (texts : List String) : String := separator.intercalate texts

def SCOPE_REASON_PREFIXES : List String :=
  ["touched never-write paths", "touched files outside lane"]

def scopeSummary (report : VerifyReport) : String :=
  let scopeReasons := report.reasons.filter fun r =>
    SCOPE_REASON_PREFIXES.any fun p => p.toList.isPrefixOf r.toList
  match scopeReasons, report.changedFiles, report.reasons with
  | _ :: _, _, _ => "fail(" ++ join "; " scopeReasons ++ ")"
  | [], [], reason :: _ => "unknown(" ++ reason ++ ")"
  | [], _, _ => "pass"

def impactSummary (report : VerifyReport) : String :=
  match report.impact with
  | .high => "high(" ++ report.impactReasons.head?.getD "unspecified" ++ ")"
  | .low => "low"

def testsSummary (report : VerifyReport) : String :=
  match report.testsRun.getD [] with
  | [] => "none"
  | tests => join "," tests ++ match report.testsPassed with
    | some true => ":pass"
    | some false => ":fail"
    | none => ":unproven"

def REVIEW_TEXT_SNIPPET_CHARS : Nat := 80

def reviewSummary (verdict : Option ReviewVerdict) (text : Option String) : String :=
  match verdict with
  | none => "not-run"
  | some .unreadable =>
    let reason := slice (Worker.trim (text.getD "no reason given")) REVIEW_TEXT_SNIPPET_CHARS
    "UNREADABLE(" ++ reason ++ ")"
  | some verdict => verdict.text

def buildGateTrace (report : Option VerifyReport) (reviewVerdict : Option ReviewVerdict := none)
    (reviewText : Option String := none) : String :=
  join " "
    ["scope=" ++ report.elim "not-run" scopeSummary,
      "impact=" ++ report.elim "not-run" impactSummary,
      "tests=" ++ report.elim "not-run" testsSummary,
      "review=" ++ reviewSummary reviewVerdict reviewText,
      "sha=" ++ (report.bind (·.verifiedCommit)).getD "none"]

end Llamenos.Orchestrator
