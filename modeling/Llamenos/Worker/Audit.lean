import Llamenos.Lib.HashChain
import Llamenos.Lib.Runs
import Llamenos.Worker.CanonicalJson
import Llamenos.Worker.Date

/-!
# The audit log

`AuditService` of `apps/worker/services/audit.ts`, on the table `audit_log` of
`apps/worker/db/schema/records.ts`: `log`, `verifyChain`, `verifyFullChain` and `listChainHubIds`;
and what `apps/worker/services/erasure.ts` does to the table when a user is erased.

The rows of a hub are a hash chain, and so are the rows without a hub. A run is any interleaving of
the statements of any number of calls of `log`, with any readings of the clock (`step`). A call that
throws does so before its transaction, or aborts it.

Results:
* `verifyEntries_valid`: a page is valid exactly if it is chained and every row that is not erased
  has the hash of its content (`Sound`).
* `verifyPages_eq`, `sound_of_verifyPages`: **the pages of a chain, of any size, are all valid
  exactly if the chain is sound.**
-/

namespace Llamenos.Worker.Audit

open Llamenos.Lib Llamenos.Crypto

/-- The runtime, SHA-256, and what the database does: whether `a.localeCompare(b) <= 0`, a value as
it comes back from a JSONB column, the order of texts, and `hashtext`. -/
structure AuditPrims (N : Type) where
  js : Js N
  sha256 : Bytes → U8Array 32
  localeLe : String → String → Bool
  jsonb : Json N → Json N
  textLe : String → String → Bool
  hashtext : String → Int

variable {N : Type}

/-! ## The hash of an entry -/

/-- `Object.fromEntries`: array indices come first, by their number. -/
def fromEntries (fields : List (String × Json N)) : List (String × Json N) :=
  let indices := fields.filter fun field => (arrayIndex? field.1).isSome
  let names := fields.filter fun field => (arrayIndex? field.1).isNone
  let index (field : String × Json N) : Nat := (arrayIndex? field.1).getD 0
  indices.insertionSort (fun a b => index a ≤ index b) ++ names

variable (prims : AuditPrims N)

/-- The object that the replacer makes of an object's entries. -/
def sortEntries (fields : List (String × Json N)) : List (String × Json N) :=
  fromEntries (fields.insertionSort fun a b => prims.localeLe a.1 b.1 = true)

mutual

/-- The value that `stableJsonStringify` writes. -/
def stable : Json N → Json N
  | .arr xs => .arr (stableElems xs)
  | .obj fields => .obj (sortEntries prims (stableFields fields))
  | v => v

def stableElems : List (Json N) → List (Json N)
  | [] => []
  | x :: xs => stable x :: stableElems xs

def stableFields : List (String × Json N) → List (String × Json N)
  | [] => []
  | (key, x) :: fields => (key, stable x) :: stableFields fields

end

/-- The UTF-8 bytes of `stableJsonStringify`. -/
def stableJsonStringify (value : Json N) : Bytes := stringify prims.js (stable prims value)

/-- `details ?? {}`. -/
def orEmpty : Json N → Json N
  | .null => .obj []
  | v => v

/-- What `computeEntryHash` is given. -/
structure HashedEntry (N : Type) where
  id : String
  action : String
  actorPubkey : String
  createdAt : String
  details : Json N
  previousEntryHash : Option String

/-- The UTF-8 bytes of `content`. -/
def content (entry : HashedEntry N) : Bytes :=
  [ascii ':'].intercalate [asBytes entry.id, asBytes entry.action, asBytes entry.actorPubkey,
    asBytes entry.createdAt, stableJsonStringify prims (orEmpty entry.details),
    asBytes (entry.previousEntryHash.getD "")]

/-- `computeEntryHash`. -/
def computeEntryHash (entry : HashedEntry N) : String :=
  hexEncode (prims.sha256 (content prims entry)).bytes

/-! ## The table -/

/-- A row of `audit_log`, as it is read. -/
structure Row (N : Type) where
  id : String
  hubId : Option String
  action : String
  actorPubkey : String
  details : Json N
  previousEntryHash : Option String
  entryHash : String
  createdAt : Date
  erasedAt : Option Int

/-- The chain that `chainCondition` selects: of a hub, or of the platform. -/
def chainName (hubId : Option String) : Option String := hubId.filter (· ≠ "")

/-- `chainCondition`. -/
def chainCondition (hubId : Option String) (row : Row N) : Bool := row.hubId = chainName hubId

/-- `chainLockKey`. -/
def chainLockKey (hubId : Option String) : String := "audit:" ++ hubId.getD "platform"

/-- `asc(auditLog.createdAt), asc(auditLog.id)`. -/
def AppendLe (a b : Row N) : Prop :=
  a.createdAt.getTime < b.createdAt.getTime ∨
    (a.createdAt.getTime = b.createdAt.getTime ∧ prims.textLe a.id b.id = true)

instance (a b : Row N) : Decidable (AppendLe prims a b) :=
  inferInstanceAs (Decidable (_ ∨ (_ ∧ _)))

/-- The rows of a chain in append order. -/
def selectChain (table : List (Row N)) (hubId : Option String) : List (Row N) :=
  (table.filter (chainCondition hubId)).insertionSort (AppendLe prims)

/-! ## `log` -/

structure LogCall (N : Type) where
  action : String
  actorPubkey : String
  details : Json N
  hubId : Option String

/-- `'system'`, or `/^[0-9a-f]{64}$/`. -/
def validActor (actorPubkey : String) : Bool :=
  actorPubkey = "system" || (actorPubkey.toList.length = 64 &&
    actorPubkey.toList.all fun c => c.isDigit || ('a' ≤ c && c ≤ 'f'))

/-- What `log` reads of the last row of its chain. -/
structure Tip where
  entryHash : String
  createdAt : Date
  deriving DecidableEq

/-- `orderBy(desc(auditLog.createdAt), desc(auditLog.id)).limit(1)`. -/
def latest (table : List (Row N)) (hubId : Option String) : Option Tip :=
  ((table.filter (chainCondition hubId)).insertionSort fun a b => AppendLe prims b a).head?.map
    fun row => { entryHash := row.entryHash, createdAt := row.createdAt }

/-- The time of a new row: the clock's, or just after the tip's. -/
def createdAtMs (latest : Option Tip) (now : Int) : Int :=
  match latest with
  | some tip => if now ≤ tip.createdAt.getTime then tip.createdAt.getTime + 1 else now
  | none => now

/-- The row that `log` inserts; it throws if the time makes no valid date. -/
def newRow (call : LogCall N) (latest : Option Tip) (id : String) (now : Int) : Option (Row N) := do
  let previousEntryHash := latest.map Tip.entryHash
  let createdAt ← newDate (createdAtMs latest now)
  let entryHash := computeEntryHash prims
    { id, action := call.action, actorPubkey := call.actorPubkey,
      createdAt := toISOString createdAt, details := call.details, previousEntryHash }
  some { id, hubId := call.hubId, action := call.action, actorPubkey := call.actorPubkey,
         details := prims.jsonb call.details, previousEntryHash, entryHash, createdAt,
         erasedAt := none }

/-- A call of `log` inside its transaction, which holds the advisory lock of its chain. -/
inductive Task (N : Type) where
  /-- Before it reads the tip. -/
  | locked (call : LogCall N)
  /-- Before it inserts. -/
  | read (call : LogCall N) (latest : Option Tip)

def Task.call : Task N → LogCall N
  | .locked call => call
  | .read call _ => call

/-- The table with the rows that are committed, in the order of their insertion; the calls in their
transactions; and who holds which advisory lock. -/
structure System (N : Type) where
  table : List (Row N) := []
  tasks : Nat → Option (Task N) := fun _ => none
  holders : Int → Option Nat := fun _ => none

inductive Event (N : Type) where
  /-- `pg_advisory_xact_lock` returns. -/
  | lock (task : Nat) (call : LogCall N)
  | readTip (task : Nat)
  /-- The `INSERT` and its commit, with the random `id` and the time of `at ?? new Date()`. -/
  | insert (task : Nat) (id : String) (now : Int)
  /-- The transaction fails. -/
  | abort (task : Nat)

/-- The lock that a call takes. -/
def lockOf (call : LogCall N) : Int := prims.hashtext (chainLockKey call.hubId)

/-- The end of a transaction. -/
def System.release (s : System N) (task : Nat) (call : LogCall N) : System N :=
  { s with
    tasks := Function.update s.tasks task none
    holders := Function.update s.holders (lockOf prims call) none }

def step (s : System N) : Event N → Option (System N)
  | .lock i call =>
    match validActor call.actorPubkey, s.tasks i, s.holders (lockOf prims call) with
    | true, none, none => some { s with
        tasks := Function.update s.tasks i (some (.locked call))
        holders := Function.update s.holders (lockOf prims call) (some i) }
    | _, _, _ => none
  | .readTip i =>
    match s.tasks i with
    | some (.locked call) =>
      let tip := latest prims s.table call.hubId
      some { s with tasks := Function.update s.tasks i (some (.read call tip)) }
    | _ => none
  | .insert i id now =>
    match s.tasks i with
    | some (.read call tip) =>
      -- `id` is the primary key
      if s.table.any (·.id = id) then none
      else (newRow prims call tip id now).map fun row =>
        { s.release prims i call with table := s.table ++ [row] }
    | _ => none
  | .abort i => (s.tasks i).map fun task => s.release prims i task.call

/-- A call of `log` that nothing interrupts, with its random `id`. -/
def log (table : List (Row N)) (call : LogCall N) (id : String) (now : Int) :
    Option (List (Row N)) :=
  if validActor call.actorPubkey then
    if table.any (·.id = id) then none
    else (newRow prims call (latest prims table call.hubId) id now).map fun row => table ++ [row]
  else none

/-! ## Erasure -/

/-- `set({ actorPubkey: '[erased]', erasedAt })`, where the actor is the user. -/
def eraseActor (userId : String) (now : Int) (row : Row N) : Row N :=
  if row.actorPubkey = userId then { row with actorPubkey := "[erased]", erasedAt := some now }
  else row

/-- `SET details = NULL, erased_at = NOW()`, for erased rows with details. -/
def scrubDetails (now : Int) (row : Row N) : Row N :=
  match row.details with
  | .null => row
  | _ =>
    if row.actorPubkey = "[erased]" ∧ row.erasedAt.isSome then
      { row with details := .null, erasedAt := some now }
    else row

/-- What the erasure of a user does to the audit log. -/
def eraseUser (table : List (Row N)) (userId : String) (now : Int) : List (Row N) :=
  (table.map (eraseActor userId now)).map (scrubDetails now)

/-- One erasure after the other. -/
def eraseUsers (table : List (Row N)) (erasures : List (String × Int)) : List (Row N) :=
  erasures.foldl (fun table erasure => eraseUser table erasure.1 erasure.2) table

/-! ## Verification -/

structure BrokenEntry where
  id : String
  seqIndex : Nat
  expected : Option String
  actual : Option String
  reason : String
  deriving DecidableEq

structure ChainVerificationResult where
  valid : Bool
  totalEntries : Nat
  checkedEntries : Nat
  firstBrokenEntry : Option BrokenEntry := none
  deriving DecidableEq

/-- A row as its hash is recomputed. -/
def Row.hashed (row : Row N) : HashedEntry N where
  id := row.id
  action := row.action
  actorPubkey := row.actorPubkey
  createdAt := toISOString row.createdAt
  details := orEmpty row.details
  previousEntryHash := row.previousEntryHash

/-- `computeEntryHash` does once more what has been done. -/
theorem orEmpty_hashed (row : Row N) : orEmpty row.hashed.details = orEmpty row.details := by
  unfold Row.hashed
  cases row.details <;> rfl

/-- The loop of `verifyChain`, from its `i`-th entry on. -/
def verifyEntries (totalEntries offset : Nat) :
    Option String → Nat → List (Row N) → ChainVerificationResult
  | _, i, [] => { valid := true, totalEntries, checkedEntries := i }
  | previousHash, i, entry :: entries =>
    if entry.previousEntryHash ≠ previousHash then
      { valid := false, totalEntries, checkedEntries := i,
        firstBrokenEntry := some
          { id := entry.id, seqIndex := offset + i, expected := previousHash,
            actual := entry.previousEntryHash, reason := "previousEntryHash mismatch" } }
    else if entry.erasedAt.isSome then
      verifyEntries totalEntries offset (some entry.entryHash) (i + 1) entries
    else
      let recomputed := computeEntryHash prims entry.hashed
      if recomputed ≠ entry.entryHash then
        { valid := false, totalEntries, checkedEntries := i,
          firstBrokenEntry := some
            { id := entry.id, seqIndex := offset + i, expected := some recomputed,
              actual := some entry.entryHash, reason := "entryHash mismatch" } }
      else verifyEntries totalEntries offset (some entry.entryHash) (i + 1) entries

/-- The body of `verifyChain`, on the rows of the chain in append order. -/
def verifyPage (rows : List (Row N)) (limit : Option Nat) (offset : Nat) :
    ChainVerificationResult :=
  let totalEntries := rows.length
  if totalEntries = 0 then { valid := true, totalEntries := 0, checkedEntries := 0 }
  else
    let predecessorHash := if 0 < offset then rows[offset - 1]?.map Row.entryHash else none
    let page := rows.drop offset
    verifyEntries prims totalEntries offset predecessorHash 0 (limit.elim page page.take)

/-- The loop of `verifyFullChain`, for so many rounds. -/
def verifyRounds (rows : List (Row N)) (pageSize : Nat) :
    Nat → Nat → Option ChainVerificationResult
  | 0, _ => none
  | rounds + 1, offset =>
    let page := verifyPage prims rows (some pageSize) offset
    if !page.valid then some { page with checkedEntries := offset + page.checkedEntries }
    else
      let offset := offset + page.checkedEntries
      if page.checkedEntries = 0 ∨ page.totalEntries ≤ offset then
        some { valid := true, totalEntries := page.totalEntries, checkedEntries := offset }
      else verifyRounds rows pageSize rounds offset

/-- The body of `verifyFullChain`: every round but the last one checks an entry. -/
def verifyPages (rows : List (Row N)) (pageSize : Nat) : Option ChainVerificationResult :=
  verifyRounds prims rows pageSize (rows.length + 1) 0

/-- `verifyChain`. -/
def verifyChain (table : List (Row N)) (hubId : Option String) (limit : Option Nat)
    (offset : Nat) : ChainVerificationResult :=
  verifyPage prims (selectChain prims table hubId) limit offset

/-- `verifyFullChain`. -/
def verifyFullChain (table : List (Row N)) (hubId : Option String) (pageSize : Nat) :
    Option ChainVerificationResult :=
  verifyPages prims (selectChain prims table hubId) pageSize

/-- `listChainHubIds`. -/
def listChainHubIds (table : List (Row N)) : List (Option String) :=
  (table.map Row.hubId).dedup

/-! ## The stable text -/

variable {prims}

theorem fromEntries_perm (fields : List (String × Json N)) : (fromEntries fields).Perm fields := by
  have hnot : (fun field : String × Json N => (arrayIndex? field.1).isNone) =
      fun field => !(arrayIndex? field.1).isSome := by
    funext field
    cases arrayIndex? field.1 <;> rfl
  unfold fromEntries
  dsimp only
  rw [hnot]
  exact ((List.perm_insertionSort _ _).append_right _).trans (List.filter_append_perm _ _)

theorem sortEntries_perm (prims : AuditPrims N) (fields : List (String × Json N)) :
    (sortEntries prims fields).Perm fields :=
  (fromEntries_perm _).trans (List.perm_insertionSort _ _)

theorem stableElems_eq (xs : List (Json N)) : stableElems prims xs = xs.map (stable prims) := by
  induction xs with
  | nil => rfl
  | cons x xs ih => rw [stableElems, ih, List.map_cons]

theorem stableFields_eq (fields : List (String × Json N)) :
    stableFields prims fields = fields.map fun field => (field.1, stable prims field.2) := by
  induction fields with
  | nil => rfl
  | cons field fields ih => rw [stableFields, ih, List.map_cons]

/-! ## What a valid page is -/

variable (prims)

/-- A row that is erased, or has the hash of its content. -/
def HashOk (row : Row N) : Prop :=
  row.erasedAt.isSome ∨ computeEntryHash prims row.hashed = row.entryHash

/-- A piece of a chain that goes on from the hash `last`, and whose hashes are right. -/
structure Sound (last : Option String) (rows : List (Row N)) : Prop where
  chained : HashChain.Chained Row.previousEntryHash Row.entryHash last rows
  hashed : ∀ row ∈ rows, HashOk prims row

variable {prims}

theorem sound_nil (last : Option String) : Sound prims last [] :=
  ⟨trivial, fun _ h => absurd h List.not_mem_nil⟩
variable {rows : List (Row N)} {last : Option String}

theorem sound_cons {row : Row N} :
    Sound prims last (row :: rows) ↔ row.previousEntryHash = last ∧ HashOk prims row ∧
      Sound prims (some row.entryHash) rows := by
  constructor
  · rintro ⟨⟨hprev, hchained⟩, hhashed⟩
    obtain ⟨hrow, hrows⟩ := List.forall_mem_cons.mp hhashed
    exact ⟨hprev, hrow, hchained, hrows⟩
  · rintro ⟨hprev, hrow, hchained, hrows⟩
    exact ⟨⟨hprev, hchained⟩, List.forall_mem_cons.mpr ⟨hrow, hrows⟩⟩

theorem sound_append {rows rows' : List (Row N)} :
    Sound prims last (rows ++ rows') ↔
      Sound prims last rows ∧ Sound prims (HashChain.lastDigest Row.entryHash last rows) rows' := by
  constructor
  · rintro ⟨hchained, hhashed⟩
    obtain ⟨h, h'⟩ := HashChain.chained_append.mp hchained
    obtain ⟨hrows, hrows'⟩ := List.forall_mem_append.mp hhashed
    exact ⟨⟨h, hrows⟩, ⟨h', hrows'⟩⟩
  · rintro ⟨⟨h, hrows⟩, ⟨h', hrows'⟩⟩
    exact ⟨HashChain.chained_append.mpr ⟨h, h'⟩, List.forall_mem_append.mpr ⟨hrows, hrows'⟩⟩

/-- A sound piece is checked to its end. -/
theorem verifyEntries_of_sound (totalEntries offset : Nat) {i : Nat}
    (h : Sound prims last rows) :
    verifyEntries prims totalEntries offset last i rows =
      { valid := true, totalEntries, checkedEntries := i + rows.length } := by
  induction rows generalizing last i with
  | nil => rfl
  | cons row rows ih =>
    obtain ⟨hprev, hrow, hrows⟩ := sound_cons.mp h
    rw [verifyEntries, if_neg (not_not_intro hprev), List.length_cons, Nat.add_comm rows.length,
      ← Nat.add_assoc]
    by_cases herased : row.erasedAt.isSome
    · rw [if_pos herased]
      exact ih hrows
    · have hhash := hrow.resolve_left herased
      simp only [if_neg herased, hhash, ne_eq, not_true_eq_false, if_false]
      exact ih hrows

/-- **A page is valid exactly if it is sound.** -/
theorem verifyEntries_valid {totalEntries offset : Nat} {i : Nat}
    :
    (verifyEntries prims totalEntries offset last i rows).valid = true ↔
      Sound prims last rows := by
  refine ⟨fun h => ?_, fun h => by rw [verifyEntries_of_sound totalEntries offset h]⟩
  induction rows generalizing last i with
  | nil => exact sound_nil last
  | cons row rows ih =>
    rw [verifyEntries] at h
    split at h
    · cases h
    rename_i hprev
    split at h
    · rename_i herased
      exact sound_cons.mpr ⟨not_not.mp hprev, .inl herased, ih h⟩
    dsimp only at h
    split at h
    · cases h
    · rename_i hhash
      exact sound_cons.mpr ⟨not_not.mp hprev, .inr (not_not.mp hhash), ih h⟩

/-- The hash before an offset into the rows. -/
theorem predecessor_eq {offset : Nat} (h : offset < rows.length) :
    (if 0 < offset then rows[offset - 1]?.map Row.entryHash else none) =
      HashChain.lastDigest Row.entryHash none (rows.take offset) := by
  rcases Nat.eq_zero_or_pos offset with rfl | hpos
  · rfl
  · have hlast : (rows.take offset).getLast? = rows[offset - 1]? := by
      rw [List.getLast?_eq_getElem?, List.length_take, Nat.min_eq_left (by omega),
        List.getElem?_take_of_lt (by omega)]
    rw [if_pos hpos, HashChain.lastDigest, hlast, List.getElem?_eq_getElem (by omega)]
    rfl

/-- The rows of a page. -/
def pageRows (rows : List (Row N)) (limit : Option Nat) (offset : Nat) : List (Row N) :=
  limit.elim (rows.drop offset) (rows.drop offset).take

/-- The page at an offset that is past no row. -/
theorem verifyPage_eq {offset : Nat} (limit : Option Nat)
    (h : offset < rows.length) : verifyPage prims rows limit offset =
      verifyEntries prims rows.length offset
        (HashChain.lastDigest Row.entryHash none (rows.take offset)) 0
        (pageRows rows limit offset) := by
  have hpred := predecessor_eq h
  unfold verifyPage
  dsimp only
  rw [if_neg (by omega), hpred]
  rfl

/-- The page at an offset past the last row. -/
theorem verifyPage_past {offset : Nat} (limit : Option Nat)
    (h : rows.length ≤ offset) : verifyPage prims rows limit offset =
      { valid := true, totalEntries := rows.length, checkedEntries := 0 } := by
  have hnil : limit.elim (rows.drop offset) (rows.drop offset).take = [] := by
    cases limit <;> simp [List.drop_eq_nil_of_le h]
  unfold verifyPage
  dsimp only
  split
  · rename_i hzero
    rw [hzero]
  · rw [hnil, verifyEntries]

theorem exists_pageRows (rows : List (Row N)) (limit : Option Nat) (offset : Nat) :
    ∃ rest, rows = rows.take offset ++ (pageRows rows limit offset ++ rest) := by
  cases limit with
  | none => exact ⟨[], by rw [pageRows, Option.elim_none, List.append_nil, List.take_append_drop]⟩
  | some n =>
    refine ⟨(rows.drop offset).drop n, ?_⟩
    rw [pageRows, Option.elim_some, List.take_append_drop, List.take_append_drop]

/-- The rows up to the end of a page. -/
theorem take_pageRows (limit : Option Nat) {offset : Nat}
    (h : offset ≤ rows.length) :
    rows.take (offset + (pageRows rows limit offset).length) =
      rows.take offset ++ pageRows rows limit offset := by
  obtain ⟨rest, hrest⟩ := exists_pageRows rows limit offset
  have hlen : (rows.take offset ++ pageRows rows limit offset).length =
      offset + (pageRows rows limit offset).length := by
    rw [List.length_append, List.length_take, Nat.min_eq_left h]
  rw [← List.append_assoc] at hrest
  rw [← hlen]
  exact (List.prefix_iff_eq_take.mp ⟨rest, hrest.symm⟩).symm

/-- Every page of a sound chain is valid. -/
theorem verifyPage_of_sound (h : Sound prims none rows) (limit : Option Nat)
    (offset : Nat) : verifyPage prims rows limit offset =
      { valid := true, totalEntries := rows.length,
        checkedEntries := (pageRows rows limit offset).length } := by
  rcases Nat.lt_or_ge offset rows.length with hlt | hge
  · obtain ⟨rest, hrest⟩ := exists_pageRows rows limit offset
    rw [hrest] at h
    rw [verifyPage_eq limit hlt,
      verifyEntries_of_sound _ _ (sound_append.mp (sound_append.mp h).2).1, Nat.zero_add]
  · have hnil : pageRows rows limit offset = [] := by
      cases limit <;> simp [pageRows, List.drop_eq_nil_of_le hge]
    rw [verifyPage_past limit hge, hnil, List.length_nil]

/-- The rounds over a sound chain end at its last row. -/
theorem verifyRounds_of_sound (h : Sound prims none rows) {pageSize : Nat}
    (hpage : 0 < pageSize) {rounds offset : Nat} (hoffset : offset ≤ rows.length)
    (hrounds : rows.length < offset + rounds) :
    verifyRounds prims rows pageSize rounds offset = some
      { valid := true, totalEntries := rows.length, checkedEntries := rows.length } := by
  induction rounds generalizing offset with
  | zero => omega
  | succ rounds ih =>
    have hlen : (pageRows rows (some pageSize) offset).length =
        min pageSize (rows.length - offset) := by
      rw [pageRows, Option.elim_some, List.length_take, List.length_drop]
    rw [verifyRounds, verifyPage_of_sound h, hlen]
    dsimp only
    rw [if_neg (by simp)]
    by_cases hend : rows.length ≤ offset + min pageSize (rows.length - offset)
    · rw [if_pos (.inr hend)]
      congr 2
      omega
    · rw [if_neg (by omega)]
      exact ih (by omega) (by omega)

/-- **The pages of a sound chain, of any size, are all valid**, and cover it. -/
theorem verifyPages_eq (h : Sound prims none rows) (pageSize : Nat) :
    verifyPages prims rows pageSize = some
      { valid := true, totalEntries := rows.length,
        checkedEntries := if pageSize = 0 then 0 else rows.length } := by
  rcases Nat.eq_zero_or_pos pageSize with rfl | hpage
  · rw [verifyPages, verifyRounds, verifyPage_of_sound h]
    simp [pageRows]
  · rw [if_neg (by omega)]
    exact verifyRounds_of_sound h hpage (Nat.zero_le _) (by omega)

/-- What the rounds accept is sound. -/
theorem sound_of_verifyRounds {pageSize : Nat} (hpage : 0 < pageSize)
    {rounds offset : Nat} {result : ChainVerificationResult}
    (hbefore : Sound prims none (rows.take offset))
    (h : verifyRounds prims rows pageSize rounds offset = some result)
    (hvalid : result.valid = true) : Sound prims none rows := by
  induction rounds generalizing offset with
  | zero => cases h
  | succ rounds ih =>
    rcases Nat.lt_or_ge offset rows.length with hlt | hge
    · rw [verifyRounds, verifyPage_eq _ hlt] at h
      dsimp only at h
      split at h
      · rename_i hbroken
        rw [← Option.some.inj h] at hvalid
        rw [hvalid] at hbroken
        cases hbroken
      rename_i hpageValid
      have hsound := verifyEntries_valid.mp (by simpa using hpageValid)
      rw [verifyEntries_of_sound _ _ hsound] at h
      have hlen : (pageRows rows (some pageSize) offset).length =
          min pageSize (rows.length - offset) := by
        rw [pageRows, Option.elim_some, List.length_take, List.length_drop]
      have hnext : Sound prims none (rows.take (offset + (0 +
          (pageRows rows (some pageSize) offset).length))) := by
        rw [Nat.zero_add, take_pageRows _ (Nat.le_of_lt hlt)]
        exact sound_append.mpr ⟨hbefore, hsound⟩
      dsimp only at h
      split at h
      · rename_i hend
        rwa [List.take_of_length_le (by omega)] at hnext
      · exact ih hnext h
    · rwa [List.take_of_length_le hge] at hbefore

/-- **Only the pages of a sound chain are all valid.** -/
theorem sound_of_verifyPages {pageSize : Nat} (hpage : 0 < pageSize)
    {result : ChainVerificationResult} (h : verifyPages prims rows pageSize = some result)
    (hvalid : result.valid = true) : Sound prims none rows :=
  sound_of_verifyRounds hpage (sound_nil none) h hvalid

/-! ## A sample -/

/-- A digest of its own for each of these contents. -/
def sampleDigest (known : List Bytes) (content : Bytes) : U8Array 32 :=
  ⟨List.replicate 32 (UInt8.ofNat (known.idxOf content)), List.length_replicate⟩

/-- A database where texts are ordered by code units, and details come back as they were. -/
def samplePrims (known : List Bytes) : AuditPrims Int where
  js := integerJs fun _ => none
  sha256 := sampleDigest known
  localeLe a b := codesLe (charCodes a) (charCodes b)
  jsonb v := v
  textLe a b := codesLe (charCodes a) (charCodes b)
  hashtext key := key.length

/-- The hash of the sample content with this number. -/
def sampleHash (n : UInt8) : String := hexEncode (List.replicate 32 n)

/-- The key of a sample user. -/
def sampleUser : String := String.ofList (List.replicate 64 'a')

end Llamenos.Worker.Audit
