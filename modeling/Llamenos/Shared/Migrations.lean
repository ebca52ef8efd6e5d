import Llamenos.Lib.Histories
import Llamenos.Lib.Runs
import Mathlib.Data.List.Sort

/-!
# Data migrations

`runMigrations`, `rollbackMigration` and `getMigrationStatus` of
`packages/shared/migrations/runner.ts`. A call reads what is stored, and then makes one write after
the other: those of the migrations themselves, and those of the version, the history and the time of
the last run. It can be cut short after any of them; only one call is under way at a time.

A migration is in effect from the last write of its `run` to the last write of its `down`. The
history is read as `getMigrationStatus` reads it, which takes the first entry for a version. An
entry that a rollback has made pending stays the first one when the migration runs again.

Results:
* `run_described`, `rollback_described`: what a call that is cut short leaves.
* `run_complete`: a run that ends leaves all migrations in effect.
* `described_iff`: **each migration takes effect once between rollbacks, in the order of the
  versions, and what is stored says which are in effect, exactly if no call is cut short between the
  last write of a migration and its entry, and none runs again that has been rolled back**.
* `reported_pending`: a migration runs, is rolled back, and runs again; or a run is cut short.
-/

namespace Llamenos.Shared.Migrations

open Llamenos.Lib Llamenos.Lib.Histories

/-! ## What is stored -/

inductive MigrationStatus where
  | applied
  | pending
  deriving DecidableEq

structure MigrationHistoryEntry where
  version : Int
  name : String
  status : MigrationStatus
  appliedAt : Option String := none

/-- The values under the three reserved keys, and all the others. -/
structure Storage (D : Type) where
  data : D
  version : Option Int := none
  history : Option (List MigrationHistoryEntry) := none
  lastRun : Option String := none

/-- The writes of a `run` or a `down`: some, and the last one. -/
structure Script (D : Type) where
  init : List (D → D) := []
  last : D → D

structure Migration (D : Type) where
  version : Int
  name : String
  run : Script D
  down : Option (Script D) := none

inductive Write (D : Type) where
  /-- A write of a migration that is not its last one. -/
  | data (f : D → D)
  /-- The last write of a `run`. -/
  | up (version : Int) (f : D → D)
  /-- The last write of a `down`. -/
  | down (version : Int) (f : D → D)
  | putVersion (version : Int)
  | putHistory (history : List MigrationHistoryEntry)
  | putLastRun (time : String)

variable {D : Type}

/-! ## The runner -/

def sortByVersion (migrations : List (Migration D)) : List (Migration D) :=
  migrations.insertionSort fun a b => a.version ≤ b.version

/-- `{ version, name, status: 'applied', appliedAt }`. -/
def appliedEntry (migration : Migration D) (appliedAt : String) : MigrationHistoryEntry where
  version := migration.version
  name := migration.name
  status := .applied
  appliedAt := some appliedAt

/-- The loop over the pending migrations, from the `i`-th one on; the clock is read twice for
each. -/
def runPending (clock : Nat → String) :
    Nat → List MigrationHistoryEntry → List (Migration D) → List (Write D)
  | _, _, [] => []
  | i, history, migration :: pending =>
    let history := history ++ [appliedEntry migration (clock (2 * i))]
    migration.run.init.map .data ++
      .up migration.version migration.run.last ::
      .putVersion migration.version ::
      .putHistory history ::
      .putLastRun (clock (2 * i + 1)) ::
      runPending clock (i + 1) history pending

/-- The writes of `runMigrations`. -/
def runMigrations (storage : Storage D) (migrations : List (Migration D)) (dryRun : Bool)
    (clock : Nat → String) : List (Write D) :=
  let currentVersion := storage.version.getD 0
  let pending := (sortByVersion migrations).filter fun m => currentVersion < m.version
  if dryRun then [] else runPending clock 0 (storage.history.getD []) pending

/-- The first entry of the version becomes pending. -/
def setPending (version : Int) : List MigrationHistoryEntry → List MigrationHistoryEntry
  | [] => []
  | entry :: history =>
    if entry.version = version then
      { entry with status := .pending, appliedAt := none } :: history
    else entry :: setPending version history

structure RolledBack where
  rolledBackVersion : Int
  newVersion : Int

/-- The version before, or none. -/
def previousVersion (migrations : List (Migration D)) (currentVersion : Int) : Int :=
  (((sortByVersion migrations).filter fun m => m.version < currentVersion).getLast?.map
    Migration.version).getD 0

/-- `rollbackMigration`: its writes, and what it returns; or what it throws. -/
def rollbackMigration (storage : Storage D) (migrations : List (Migration D)) (time : String) :
    Except String (List (Write D) × Option RolledBack) :=
  let currentVersion := storage.version.getD 0
  if currentVersion = 0 then .ok ([], none)
  else
    match (sortByVersion migrations).find? fun m => m.version = currentVersion with
    | none => .ok ([], none)
    | some current =>
      match current.down with
      | none => .error (s!"Migration v{currentVersion} ({current.name}) does not support " ++
          "rollback — no down() defined")
      | some down =>
        let newVersion := previousVersion migrations currentVersion
        let history := setPending currentVersion (storage.history.getD [])
        .ok (down.init.map .data ++
            [.down currentVersion down.last, .putVersion newVersion, .putHistory history,
              .putLastRun time],
          some { rolledBackVersion := currentVersion, newVersion })

structure StatusReport where
  currentVersion : Int
  latestVersion : Int
  pending : Nat
  history : List MigrationHistoryEntry
  lastRun : Option String

/-- The entry of a migration, as it is reported. -/
def reportedEntry (history : List MigrationHistoryEntry) (migration : Migration D) :
    MigrationHistoryEntry :=
  (history.find? fun h => h.version = migration.version).getD
    { version := migration.version, name := migration.name, status := .pending }

def getMigrationStatus (storage : Storage D) (migrations : List (Migration D)) : StatusReport :=
  let currentVersion := storage.version.getD 0
  let sorted := sortByVersion migrations
  { currentVersion
    latestVersion := (sorted.getLast?.map Migration.version).getD 0
    pending := (sorted.filter fun m => currentVersion < m.version).length
    history := sorted.map (reportedEntry (storage.history.getD []))
    lastRun := storage.lastRun }

/-! ## Calls that are cut short -/

/-- The storage, and which migrations have taken effect and been rolled back. -/
structure Machine (D : Type) where
  storage : Storage D
  trace : List (Change Int) := []

def write (s : Machine D) : Write D → Machine D
  | .data f => { s with storage := { s.storage with data := f s.storage.data } }
  | .up version f =>
    { storage := { s.storage with data := f s.storage.data }
      trace := s.trace ++ [.add version] }
  | .down version f =>
    { storage := { s.storage with data := f s.storage.data }
      trace := s.trace ++ [.remove version] }
  | .putVersion version => { s with storage := { s.storage with version := some version } }
  | .putHistory history => { s with storage := { s.storage with history := some history } }
  | .putLastRun time => { s with storage := { s.storage with lastRun := some time } }

/-- A call, and after how many of its writes it is cut short. -/
inductive Call where
  | run (dryRun : Bool) (clock : Nat → String) (cut : Nat)
  | rollback (time : String) (cut : Nat)

def Call.cut : Call → Nat
  | .run _ _ cut => cut
  | .rollback _ cut => cut

/-- All the writes of a call. -/
def writes (migrations : List (Migration D)) (storage : Storage D) : Call → List (Write D)
  | .run dryRun clock _ => runMigrations storage migrations dryRun clock
  | .rollback time _ =>
    match rollbackMigration storage migrations time with
    | .ok (ws, _) => ws
    | .error _ => []

/-- The writes that a call makes. -/
def written (migrations : List (Migration D)) (s : Machine D) (call : Call) : List (Write D) :=
  (writes migrations s.storage call).take call.cut

def step (migrations : List (Migration D)) (s : Machine D) (call : Call) : Option (Machine D) :=
  some ((written migrations s call).foldl write s)

/-! ## The property -/

/-- A migration takes effect when those with lesser versions are in effect and no others, and is
rolled back when it is the last one that is. -/
def InOrder (migrations : List (Migration D)) (before : List (Change Int)) : Change Int → Prop
  | .add version => ∀ m ∈ migrations, Standing before m.version ↔ m.version < version
  | .remove version => ∀ m ∈ migrations, Standing before m.version ↔ m.version ≤ version

/-- What is stored tells which migrations are in effect. -/
structure Described (migrations : List (Migration D)) (s : Machine D) : Prop where
  inOrder : Lawful (InOrder migrations) s.trace
  version : ∀ m ∈ migrations,
    m.version ≤ (getMigrationStatus s.storage migrations).currentVersion ↔
      Standing s.trace m.version
  history : ∀ entry ∈ (getMigrationStatus s.storage migrations).history,
    entry.status = .applied ↔ Standing s.trace entry.version

/-- Distinct versions, from 1 on. -/
structure Numbered (migrations : List (Migration D)) : Prop where
  positive : ∀ m ∈ migrations, 0 < m.version
  distinct : (migrations.map Migration.version).Nodup

/-- A call can end after this write. -/
def Write.settled : Write D → Bool
  | .up .. | .down .. | .putVersion _ => false
  | .data _ | .putHistory _ | .putLastRun _ => true

/-- A run that is not cut short. -/
def Completes (migrations : List (Migration D)) (s : Machine D) : Call → Prop
  | .run dryRun clock cut => dryRun = false ∧
      (runMigrations s.storage migrations dryRun clock).length ≤ cut
  | .rollback .. => False

/-- The version of the migration that takes effect. -/
def Write.applies : Write D → Option Int
  | .up version _ => some version
  | _ => none

/-- A call is not cut short between the last write of a migration and its entry in the history, and
no migration takes effect that has an entry. -/
def Clean (migrations : List (Migration D)) (s : Machine D) (call : Call) : Prop :=
  ((written migrations s call).getLast?.all Write.settled = true) ∧
    ∀ version ∈ (written migrations s call).filterMap Write.applies,
      ∀ entry ∈ s.storage.history.getD [], entry.version ≠ version

/-! ## The migrations in their order -/

variable {migrations : List (Migration D)} {s : Machine D}

instance : IsTrans (Migration D) fun a b => a.version ≤ b.version := ⟨fun _ _ _ => Int.le_trans⟩

instance : Std.Total fun a b : Migration D => a.version ≤ b.version := ⟨fun _ _ => Int.le_total _ _⟩
variable {m : Migration D}

theorem mem_sortByVersion : m ∈ sortByVersion migrations ↔ m ∈ migrations :=
  List.mem_insertionSort _

/-- Migrations with distinct versions, one after the other. -/
def Ascending (ms : List (Migration D)) : Prop := ms.Pairwise fun a b => a.version < b.version

theorem ascending_sorted (h : Numbered migrations) : Ascending (sortByVersion migrations) := by
  have hperm := (List.perm_insertionSort (fun a b : Migration D => a.version ≤ b.version)
    migrations).map Migration.version
  have hne := List.pairwise_map.mp (hperm.nodup_iff.mpr h.distinct)
  refine List.Pairwise.imp₂ (fun a b hle hne => lt_of_le_of_ne hle hne)
    (List.pairwise_insertionSort _ migrations) hne

/-- The pending migrations. -/
theorem mem_pending {v : Int} :
    m ∈ (sortByVersion migrations).filter (fun m => v < m.version) ↔
      m ∈ migrations ∧ v < m.version := by
  rw [List.mem_filter, mem_sortByVersion, decide_eq_true_eq]

/-- The version before is that of the last migration with a lesser version. -/
theorem le_previousVersion (h : Numbered migrations) {v : Int}
    (hm : m ∈ migrations) : m.version ≤ previousVersion migrations v ↔ m.version < v := by
  have hbelow {x : Migration D} :
      x ∈ (sortByVersion migrations).filter (fun m => m.version < v) ↔
        x ∈ migrations ∧ x.version < v := by
    rw [List.mem_filter, mem_sortByVersion, decide_eq_true_eq]
  have hascending := (ascending_sorted h).filter fun m => m.version < v
  unfold previousVersion
  rcases List.eq_nil_or_concat' ((sortByVersion migrations).filter fun m => m.version < v)
    with hnil | ⟨init, last, heq⟩
  · rw [hnil] at hbelow ⊢
    have hpos := h.positive m hm
    have hnot : ¬ m.version < v := fun hlt => absurd (hbelow.mpr ⟨hm, hlt⟩) List.not_mem_nil
    exact iff_of_false (Int.not_le.mpr hpos) hnot
  · rw [heq] at hbelow hascending ⊢
    rw [List.getLast?_concat, Option.map_some, Option.getD_some]
    constructor
    · intro hle
      have hlast := (hbelow.mp (List.mem_append_right init (List.mem_singleton_self last))).2
      omega
    · intro hlt
      rcases List.mem_append.mp (hbelow.mpr ⟨hm, hlt⟩) with hinit | hlast
      · exact Int.le_of_lt ((List.pairwise_append.mp hascending).2.2 m hinit last
          (List.mem_singleton_self last))
      · rw [List.mem_singleton.mp hlast]

/-! ## The history -/

/-- The first entry of the version. -/
def firstEntry (history : List MigrationHistoryEntry) (version : Int) :
    Option MigrationHistoryEntry :=
  history.find? fun h => h.version = version

/-- The first entry says that the version is applied. -/
def Applied (history : List MigrationHistoryEntry) (version : Int) : Prop :=
  ∃ entry ∈ firstEntry history version, entry.status = .applied

variable {history : List MigrationHistoryEntry} {v : Int} {entry : MigrationHistoryEntry}

theorem reportedEntry_version (history : List MigrationHistoryEntry) (m : Migration D) :
    (reportedEntry history m).version = m.version := by
  unfold reportedEntry
  cases h : history.find? fun h => h.version = m.version with
  | none => rfl
  | some entry => simpa using List.find?_some h

theorem reportedEntry_status (history : List MigrationHistoryEntry) (m : Migration D) :
    (reportedEntry history m).status = .applied ↔ Applied history m.version := by
  unfold reportedEntry Applied firstEntry
  cases history.find? fun h => h.version = m.version with
  | none => simp
  | some entry => simp

theorem firstEntry_eq_none : firstEntry history v = none ↔ ∀ h ∈ history, h.version ≠ v := by
  simp [firstEntry]

theorem firstEntry_append (h : firstEntry history v = some entry)
    (rest : List MigrationHistoryEntry) : firstEntry (history ++ rest) v = some entry := by
  unfold firstEntry at h ⊢
  rw [List.find?_append, h, Option.some_or]

theorem firstEntry_concat_ne (hne : v ≠ m.version) (time : String) :
    firstEntry (history ++ [appliedEntry m time]) v = firstEntry history v := by
  unfold firstEntry
  rw [List.find?_append]
  simp [appliedEntry, hne.symm]

/-- A migration without an entry has the one that is recorded. -/
theorem applied_concat (h : firstEntry history m.version = none)
    (time : String) : Applied (history ++ [appliedEntry m time]) m.version := by
  refine ⟨appliedEntry m time, ?_, rfl⟩
  unfold firstEntry at h ⊢
  rw [List.find?_append, h]
  simp [appliedEntry]

theorem applied_setPending_self : ¬ Applied (setPending v history) v := by
  rintro ⟨entry, hentry, hstatus⟩
  induction history with
  | nil => cases hentry
  | cons h history ih =>
    rw [setPending] at hentry
    split_ifs at hentry with hv
    · rw [firstEntry, List.find?_cons_of_pos (by simpa using hv)] at hentry
      cases hentry
      cases hstatus
    · rw [firstEntry, List.find?_cons_of_neg (by simpa using hv)] at hentry
      exact ih hentry

theorem firstEntry_setPending_ne {v' : Int} (hne : v' ≠ v) :
    firstEntry (setPending v history) v' = firstEntry history v' := by
  induction history with
  | nil => rfl
  | cons h history ih =>
    unfold firstEntry at ih ⊢
    rw [setPending]
    split_ifs with hv
    · have hnot : h.version ≠ v' := fun heq => hne (heq.symm.trans hv)
      rw [List.find?_cons_of_neg (by simpa using hnot),
        List.find?_cons_of_neg (by simpa using hnot)]
    · rw [List.find?_cons, List.find?_cons, ih]

/-- What is described, of the three fields that it is about. -/
theorem described_iff_fields : Described migrations s ↔ Lawful (InOrder migrations) s.trace ∧
    (∀ m ∈ migrations, m.version ≤ s.storage.version.getD 0 ↔ Standing s.trace m.version) ∧
      ∀ m ∈ migrations,
        Applied (s.storage.history.getD []) m.version ↔ Standing s.trace m.version := by
  have hhistory :
      (∀ entry ∈ (getMigrationStatus s.storage migrations).history,
        entry.status = .applied ↔ Standing s.trace entry.version) ↔
      ∀ m ∈ migrations,
        Applied (s.storage.history.getD []) m.version ↔ Standing s.trace m.version := by
    simp only [getMigrationStatus, List.forall_mem_map, mem_sortByVersion, reportedEntry_status,
      reportedEntry_version]
  exact ⟨fun h => ⟨h.inOrder, h.version, hhistory.mp h.history⟩,
    fun h => ⟨h.1, h.2.1, hhistory.mpr h.2.2⟩⟩

/-! ## Writes -/

/-- A call that makes these writes is not cut short in the middle, and no migration takes effect
that the history has an entry for. -/
def CleanWrites (history : List MigrationHistoryEntry) (ws : List (Write D)) : Prop :=
  ws.getLast?.all Write.settled = true ∧
    ∀ version ∈ ws.filterMap Write.applies, ∀ entry ∈ history, entry.version ≠ version

theorem cleanWrites_nil : CleanWrites history ([] : List (Write D)) := by
  simp [CleanWrites]

theorem cleanWrites_data (fs : List (D → D)) : CleanWrites history (fs.map Write.data) := by
  constructor
  · rw [List.getLast?_map]
    cases fs.getLast? <;> rfl
  · simp [List.filterMap_map, Write.applies]

variable {ws : List (Write D)}

/-- One more write first. -/
theorem cleanWrites_cons {w : Write D} :
    CleanWrites history (w :: ws) ↔ (ws = [] → w.settled = true) ∧
      (∀ version ∈ w.applies, ∀ entry ∈ history, entry.version ≠ version) ∧
        CleanWrites history ws := by
  have hlast : (w :: ws).getLast?.all Write.settled = true ↔
      (ws = [] → w.settled = true) ∧ ws.getLast?.all Write.settled = true := by
    cases ws with
    | nil => simp
    | cons w' ws => simp [List.getLast?_cons_cons]
  have happlies : (∀ version ∈ (w :: ws).filterMap Write.applies,
        ∀ entry ∈ history, entry.version ≠ version) ↔
      (∀ version ∈ w.applies, ∀ entry ∈ history, entry.version ≠ version) ∧
        ∀ version ∈ ws.filterMap Write.applies, ∀ entry ∈ history, entry.version ≠ version := by
    cases h : w.applies with
    | none => simp [h]
    | some version => simp [h]
  rw [CleanWrites, CleanWrites, hlast, happlies, and_and_and_comm, and_assoc]

theorem cleanWrites_script (fs : List (D → D)) (hne : ws ≠ []) :
    CleanWrites history (fs.map Write.data ++ ws) ↔ CleanWrites history ws := by
  induction fs with
  | nil => rfl
  | cons f fs ih =>
    rw [List.map_cons, List.cons_append, cleanWrites_cons, ih]
    simp [Write.applies, hne]

/-- The writes of a script but its last one change the data. -/
theorem exists_data (fs : List (D → D)) (s : Machine D) : ∃ d,
    (fs.map Write.data).foldl write s = { s with storage := { s.storage with data := d } } := by
  induction fs generalizing s with
  | nil => exact ⟨s.storage.data, rfl⟩
  | cons f fs ih => exact ih (write s (.data f))

/-- A call is cut short in a script's first writes, or later. -/
theorem take_script (fs : List (D → D)) (ws : List (Write D)) (k : Nat) :
    (∃ fs' : List (D → D), (fs.map Write.data ++ ws).take k = fs'.map Write.data) ∨
      ∃ j, (fs.map Write.data ++ ws).take k = fs.map Write.data ++ ws.take (j + 1) := by
  rcases Nat.lt_or_ge fs.length k with hlt | hge
  · refine .inr ⟨k - fs.length - 1, ?_⟩
    rw [List.take_append, List.take_of_length_le (by rw [List.length_map]; omega), List.length_map]
    congr 2
    omega
  · refine .inl ⟨fs.take k, ?_⟩
    rw [List.take_append_of_le_length (by rwa [List.length_map]), List.map_take]

/-- **What a script's first writes leave**, and what comes after them. -/
theorem described_script {fs : List (D → D)} (hs : Described migrations s)
    (hws : ∀ d j, Described migrations ((ws.take (j + 1)).foldl write
        { s with storage := { s.storage with data := d } }) ↔
      CleanWrites history (ws.take (j + 1))) (hne : ws ≠ []) (k : Nat) :
    Described migrations (((fs.map Write.data ++ ws).take k).foldl write s) ↔
      CleanWrites history ((fs.map Write.data ++ ws).take k) := by
  rcases take_script fs ws k with ⟨fs', heq⟩ | ⟨j, heq⟩
  · rw [heq]
    obtain ⟨d, hd⟩ := exists_data fs' s
    rw [hd]
    exact iff_of_true ⟨hs.inOrder, hs.version, hs.history⟩ (cleanWrites_data fs')
  · rw [heq, List.foldl_append, cleanWrites_script fs (by simpa using hne)]
    obtain ⟨d, hd⟩ := exists_data fs s
    rw [hd]
    exact hws d j

/-! ## What a run leaves -/

variable {pending : List (Migration D)}

/-- A migration that takes effect out of a pending list. -/
theorem inOrder_add
    (hs : Described migrations s) (hascending : Ascending (m :: pending))
    (hpending : ∀ x ∈ migrations, x ∈ m :: pending ↔ ¬ Standing s.trace x.version)
    (hm : m ∈ migrations) : InOrder migrations s.trace (.add m.version) := by
  obtain ⟨-, hversion, -⟩ := described_iff_fields.mp hs
  have hcurrent : s.storage.version.getD 0 < m.version := by
    have hnot := (hpending m hm).mp List.mem_cons_self
    rw [← hversion m hm] at hnot
    omega
  intro x hx
  constructor
  · intro hstanding
    have hle := (hversion x hx).mpr hstanding
    omega
  · intro hlt
    by_contra hnot
    rcases List.mem_cons.mp ((hpending x hx).mpr hnot) with rfl | hlater
    · omega
    · have := (List.pairwise_cons.mp hascending).1 x hlater
      omega

theorem standing_up (v v' : Int) : Standing (s.trace ++ [.add v]) v' ↔ v' = v ∨
    Standing s.trace v' := by
  have h : Standing (s.trace ++ [v].map .add) v' ↔ v' ∈ [v] ∨ Standing s.trace v' :=
    standing_add [v]
  rwa [List.map_singleton, List.mem_singleton] at h

/-- What is described after a migration has taken effect and has its entry: it had none before. -/
theorem described_entry (hm : m ∈ migrations) (hs : Described migrations s)
    (hnot : ¬ Standing s.trace m.version)
    (hadd : InOrder migrations s.trace (.add m.version)) (data : D) (lastRun : Option String)
    (time : String) :
    Described migrations
        { storage :=
            { data
              version := some m.version
              history := some (s.storage.history.getD [] ++ [appliedEntry m time])
              lastRun }
          trace := s.trace ++ [.add m.version] } ↔
      ∀ entry ∈ s.storage.history.getD [], entry.version ≠ m.version := by
  obtain ⟨hlawful, hversion, hhistory⟩ := described_iff_fields.mp hs
  rw [described_iff_fields, ← firstEntry_eq_none]
  constructor
  · rintro ⟨-, -, hafter⟩
    by_contra hsome
    obtain ⟨entry, hentry⟩ := Option.ne_none_iff_exists'.mp hsome
    obtain ⟨entry', hentry', hstatus⟩ := (hafter m hm).mpr ((standing_up _ _).mpr (.inl rfl))
    rw [Option.getD_some, firstEntry_append hentry] at hentry'
    refine hnot ((hhistory m hm).mp ⟨entry', ?_, hstatus⟩)
    rwa [hentry]
  · intro hnone
    refine ⟨lawful_concat.mpr ⟨hlawful, hadd⟩, fun x hx => ?_, fun x hx => ?_⟩
    · dsimp only
      rw [standing_up, hadd x hx, Option.getD_some]
      omega
    · dsimp only
      rw [standing_up, Option.getD_some]
      by_cases heq : x.version = m.version
      · rw [heq]
        exact iff_of_true (applied_concat hnone time) (.inl rfl)
      · rw [or_iff_right heq, ← hhistory x hx, Applied, firstEntry_concat_ne heq, Applied]

/-- A write of a run after the first entry of the version has been made. -/
def Leaves (v : Int) (entry : MigrationHistoryEntry) : Write D → Prop
  | .putHistory history => firstEntry history v = some entry
  | .down .. => False
  | _ => True

theorem leaves_runPending {clock : Nat → String} {i : Nat}
    (h : firstEntry history v = some entry) :
    ∀ w ∈ runPending clock i history pending, Leaves v entry w := by
  induction pending generalizing i history with
  | nil => exact fun w hw => absurd hw List.not_mem_nil
  | cons m pending ih =>
    have hafter := firstEntry_append h [appliedEntry m (clock (2 * i))]
    intro w hw
    rcases List.mem_append.mp hw with hw | hw
    · obtain ⟨f, -, rfl⟩ := List.mem_map.mp hw
      trivial
    · simp only [List.mem_cons] at hw
      rcases hw with rfl | rfl | rfl | rfl | hw
      · trivial
      · trivial
      · exact hafter
      · trivial
      · exact ih hafter w hw

/-- Then a version in effect whose first entry is pending stays so. -/
theorem foldl_leaves (hws : ∀ w ∈ ws, Leaves v entry w)
    (hstanding : Standing s.trace v)
    (hentry : firstEntry (s.storage.history.getD []) v = some entry) :
    Standing (ws.foldl write s).trace v ∧
      firstEntry ((ws.foldl write s).storage.history.getD []) v = some entry := by
  induction ws generalizing s with
  | nil => exact ⟨hstanding, hentry⟩
  | cons w ws ih =>
    obtain ⟨hw, hrest⟩ := List.forall_mem_cons.mp hws
    refine ih hrest ?_ ?_
    · cases w with
      | up version f => exact (standing_up version v).mpr (.inr hstanding)
      | down version f => exact hw.elim
      | data f | putVersion version | putHistory history | putLastRun time => exact hstanding
    · cases w with
      | putHistory history => exact hw
      | up version f | down version f | data f | putVersion version | putLastRun time =>
        exact hentry

theorem applies_runPending {clock : Nat → String} {i : Nat} :
    (runPending clock i history pending).filterMap Write.applies =
      pending.map Migration.version := by
  induction pending generalizing i history with
  | nil => rfl
  | cons m pending ih =>
    have hdata : (m.run.init.map Write.data).filterMap Write.applies = [] := by
      simp [List.filterMap_map, Write.applies]
    rw [runPending, List.filterMap_append, hdata, List.nil_append]
    simp only [List.filterMap_cons, Write.applies, ih, List.map_cons]

/-- A list of entries with one more, for a version that does not take effect in these writes. -/
theorem cleanWrites_concat {time : String}
    (h : m.version ∉ ws.filterMap Write.applies) :
    CleanWrites (history ++ [appliedEntry m time]) ws ↔ CleanWrites history ws := by
  refine and_congr_right fun _ => forall₂_congr fun version hversion => ?_
  have hne : m.version ≠ version := fun heq => h (heq ▸ hversion)
  rw [List.forall_mem_append, List.forall_mem_singleton]
  exact and_iff_left hne

/-- The writes after a migration's own ones, if the call is cut short after more than these. -/
theorem cleanWrites_entry {f : D → D} {history' : List MigrationHistoryEntry}
    {time : String} :
    CleanWrites history
        (.up m.version f :: .putVersion m.version :: .putHistory history' :: .putLastRun time ::
          ws) ↔
      (∀ entry ∈ history, entry.version ≠ m.version) ∧ CleanWrites history ws := by
  simp [cleanWrites_cons, Write.settled, Write.applies]

/-- **What a run leaves that is cut short** says what is in effect exactly if its writes are
clean. -/
theorem runPending_described (clock : Nat → String)
    (hs : Described migrations s) (hascending : Ascending pending)
    (hsub : ∀ m ∈ pending, m ∈ migrations)
    (hpending : ∀ m ∈ migrations, m ∈ pending ↔ ¬ Standing s.trace m.version) (i k : Nat) :
    Described migrations
        (((runPending clock i (s.storage.history.getD []) pending).take k).foldl write s) ↔
      CleanWrites (s.storage.history.getD [])
        ((runPending clock i (s.storage.history.getD []) pending).take k) := by
  induction pending generalizing s i k with
  | nil =>
    rw [runPending, List.take_nil]
    exact iff_of_true hs cleanWrites_nil
  | cons m pending ih =>
    have hm := hsub m List.mem_cons_self
    have hnot := (hpending m hm).mp List.mem_cons_self
    have hadd := inOrder_add hs hascending hpending hm
    obtain ⟨-, hversion, hhistory⟩ := described_iff_fields.mp hs
    rw [runPending]
    refine described_script hs (fun d j => ?_) (by simp) k
    rcases j with _ | _ | _ | l
    · -- in effect, and the version is the one before
      refine iff_of_false (fun hd => ?_) fun hclean => Bool.false_ne_true hclean.1
      obtain ⟨-, hafter, -⟩ := described_iff_fields.mp hd
      exact hnot ((hversion m hm).mp ((hafter m hm).mpr ((standing_up _ _).mpr (.inl rfl))))
    · -- in effect, and the history is the one before
      refine iff_of_false (fun hd => ?_) fun hclean => Bool.false_ne_true hclean.1
      obtain ⟨-, -, hafter⟩ := described_iff_fields.mp hd
      exact hnot ((hhistory m hm).mp ((hafter m hm).mpr ((standing_up _ _).mpr (.inl rfl))))
    · have hclean : CleanWrites (s.storage.history.getD []) ((Write.up m.version m.run.last ::
          .putVersion m.version ::
          [.putHistory (s.storage.history.getD [] ++ [appliedEntry m (clock (2 * i))])])) ↔
          ∀ entry ∈ s.storage.history.getD [], entry.version ≠ m.version := by
        simp [cleanWrites_cons, Write.settled, Write.applies, cleanWrites_nil]
      exact (described_entry hm hs hnot hadd _ _ _).trans hclean.symm
    · have hentry := described_entry hm hs hnot hadd (m.run.last d)
        (some (clock (2 * i + 1))) (clock (2 * i))
      rw [List.take_succ_cons, List.take_succ_cons, List.take_succ_cons, List.take_succ_cons,
        cleanWrites_entry]
      by_cases hfresh : ∀ entry ∈ s.storage.history.getD [], entry.version ≠ m.version
      · rw [and_iff_right hfresh]
        have hlater := (List.pairwise_cons.mp hascending).1
        have hnotin : m.version ∉ ((runPending clock (i + 1)
            (s.storage.history.getD [] ++ [appliedEntry m (clock (2 * i))]) pending).take
              l).filterMap Write.applies := by
          intro hmem
          have hmem := (List.take_sublist _ _).filterMap Write.applies |>.mem hmem
          rw [applies_runPending] at hmem
          obtain ⟨x, hx, heq⟩ := List.mem_map.mp hmem
          have := hlater x hx
          omega
        rw [← cleanWrites_concat hnotin]
        refine ih (hentry.mpr hfresh) (List.pairwise_cons.mp hascending).2
          (fun x hx => hsub x (List.mem_cons_of_mem m hx)) (fun x hx => ?_) (i + 1) l
        dsimp only
        rw [standing_up, not_or, ← hpending x hx, List.mem_cons]
        constructor
        · intro hmem
          have := hlater x hmem
          exact ⟨by omega, .inr hmem⟩
        · rintro ⟨hne, rfl | hmem⟩
          · exact absurd rfl hne
          · exact hmem
      · refine iff_of_false (fun hd => ?_) fun hclean => hfresh hclean.1
        rw [← firstEntry_eq_none] at hfresh
        obtain ⟨entry, hfirst⟩ := Option.ne_none_iff_exists'.mp hfresh
        have hstatus : entry.status ≠ .applied := fun happlied =>
          hnot ((hhistory m hm).mp ⟨entry, hfirst, happlied⟩)
        have hafter := firstEntry_append hfirst [appliedEntry m (clock (2 * i))]
        obtain ⟨hstanding, hkept⟩ := foldl_leaves
          (s :=
            { storage :=
                { data := m.run.last d
                  version := some m.version
                  history :=
                    some (s.storage.history.getD [] ++ [appliedEntry m (clock (2 * i))])
                  lastRun := some (clock (2 * i + 1)) }
              trace := s.trace ++ [.add m.version] })
          (fun w hw => leaves_runPending hafter w (List.mem_of_mem_take hw))
          ((standing_up _ _).mpr (.inl rfl)) hafter
        obtain ⟨entry', hentry', happlied⟩ :=
          ((described_iff_fields.mp hd).2.2 m hm).mpr hstanding
        exact hstatus (Option.some.inj (hkept.symm.trans hentry') ▸ happlied)

/-- The pending migrations take effect one after the other. -/
theorem runPending_trace (clock : Nat → String) (i : Nat) (history : List MigrationHistoryEntry)
    (pending : List (Migration D)) (s : Machine D) :
    ((runPending clock i history pending).foldl write s).trace =
      s.trace ++ (pending.map Migration.version).map .add := by
  induction pending generalizing s i history with
  | nil => exact (List.append_nil _).symm
  | cons m pending ih =>
    obtain ⟨d, hd⟩ := exists_data m.run.init s
    rw [runPending, List.foldl_append, hd]
    simp only [List.foldl_cons, ih, write, List.map_cons, List.append_assoc, List.singleton_append]

theorem run_described (hms : Numbered migrations) (hs : Described migrations s)
    (dryRun : Bool) (clock : Nat → String) (cut : Nat) :
    Described migrations ((written migrations s (.run dryRun clock cut)).foldl write s) ↔
      Clean migrations s (.run dryRun clock cut) := by
  cases dryRun with
  | true =>
    have hnil : written migrations s (.run true clock cut) = [] := List.take_nil
    rw [Clean, hnil]
    exact iff_of_true hs cleanWrites_nil
  | false =>
    obtain ⟨-, hversion, -⟩ := described_iff_fields.mp hs
    refine runPending_described clock hs ((ascending_sorted hms).filter _)
      (fun m hm => (mem_pending.mp hm).1) (fun m hm => ?_) 0 cut
    rw [mem_pending, ← hversion m hm, and_iff_right hm, Int.not_le]

/-- **A run that ends leaves all migrations in effect.** -/
theorem run_complete (hs : Described migrations s) {call : Call}
    (hcall : Completes migrations s call) {s' : Machine D}
    (h : step migrations s call = some s') (hm : m ∈ migrations) :
    Standing s'.trace m.version := by
  cases call with
  | rollback time cut => exact hcall.elim
  | run dryRun clock cut =>
    obtain ⟨rfl, hlength⟩ := hcall
    have hwritten : written migrations s (.run false clock cut) =
        runPending clock 0 (s.storage.history.getD [])
          ((sortByVersion migrations).filter fun m => s.storage.version.getD 0 < m.version) :=
      List.take_of_length_le hlength
    obtain rfl := Option.some.inj h
    rw [hwritten, runPending_trace, standing_add]
    rcases Int.lt_or_le (s.storage.version.getD 0) m.version with hlt | hle
    · exact .inl (List.mem_map_of_mem (mem_pending.mpr ⟨hm, hlt⟩))
    · exact .inr (((described_iff_fields.mp hs).2.1 m hm).mp hle)

/-! ## What a rollback leaves -/

/-- What a rollback writes: nothing, or what is below for the current version. -/
theorem writes_rollback (migrations : List (Migration D)) (storage : Storage D) (time : String)
    (cut : Nat) : writes migrations storage (.rollback time cut) = [] ∨
      ∃ m ∈ migrations, ∃ down : Script D, m.version = storage.version.getD 0 ∧
        writes migrations storage (.rollback time cut) = down.init.map Write.data ++
          [.down m.version down.last, .putVersion (previousVersion migrations m.version),
            .putHistory (setPending m.version (storage.history.getD [])), .putLastRun time] := by
  unfold writes rollbackMigration
  dsimp only
  split_ifs
  · exact .inl rfl
  · cases hfind : (sortByVersion migrations).find? fun m => m.version = storage.version.getD 0 with
    | none => exact .inl rfl
    | some m =>
      have hversion : m.version = storage.version.getD 0 := by simpa using List.find?_some hfind
      cases hdown : m.down with
      | none => exact .inl (by simp [hdown])
      | some down =>
        refine .inr ⟨m, mem_sortByVersion.mp (List.mem_of_find?_eq_some hfind), down, hversion, ?_⟩
        simp [hdown, hversion]

theorem standing_down (v v' : Int) : Standing (s.trace ++ [.remove v]) v' ↔ v' ≠ v ∧
    Standing s.trace v' :=
  standing_remove v

/-- What is described after the current migration has been rolled back and its entry is pending. -/
theorem described_pending (hms : Numbered migrations)
    (hs : Described migrations s) (hcurrent : m.version = s.storage.version.getD 0) (data : D)
    (lastRun : Option String) :
    Described migrations
      { storage :=
          { data
            version := some (previousVersion migrations m.version)
            history := some (setPending m.version (s.storage.history.getD []))
            lastRun }
        trace := s.trace ++ [.remove m.version] } := by
  obtain ⟨hlawful, hversion, hhistory⟩ := described_iff_fields.mp hs
  refine described_iff_fields.mpr
    ⟨lawful_concat.mpr ⟨hlawful, fun x hx => ?_⟩, fun x hx => ?_, fun x hx => ?_⟩
  · rw [hcurrent]
    exact (hversion x hx).symm
  · dsimp only
    rw [Option.getD_some, le_previousVersion hms hx, standing_down, ← hversion x hx, hcurrent]
    omega
  · dsimp only
    rw [Option.getD_some, standing_down]
    by_cases heq : x.version = m.version
    · rw [heq]
      exact iff_of_false applied_setPending_self fun h => h.1 rfl
    · rw [and_iff_right heq, ← hhistory x hx, Applied, firstEntry_setPending_ne heq, Applied]

theorem rollback_described (hms : Numbered migrations) (hs : Described migrations s)
    (time : String) (cut : Nat) :
    Described migrations ((written migrations s (.rollback time cut)).foldl write s) ↔
      Clean migrations s (.rollback time cut) := by
  unfold Clean written
  rcases writes_rollback migrations s.storage time cut with hnil | ⟨m, hm, down, hcurrent, heq⟩
  · rw [hnil, List.take_nil]
    exact iff_of_true hs cleanWrites_nil
  rw [heq]
  obtain ⟨-, hversion, hhistory⟩ := described_iff_fields.mp hs
  have hstanding : Standing s.trace m.version := (hversion m hm).mp (Int.le_of_eq hcurrent)
  have hgone : ¬ Standing (s.trace ++ [.remove m.version]) m.version :=
    fun h => ((standing_down _ _).mp h).1 rfl
  refine described_script hs (fun d j => ?_) (by simp) cut
  rcases j with _ | _ | _ | l
  · -- not in effect, and the version is the one before
    refine iff_of_false (fun hd => ?_) fun hclean => Bool.false_ne_true hclean.1
    obtain ⟨-, hafter, -⟩ := described_iff_fields.mp hd
    exact hgone ((hafter m hm).mp (Int.le_of_eq hcurrent))
  · -- not in effect, and the history is the one before
    refine iff_of_false (fun hd => ?_) fun hclean => Bool.false_ne_true hclean.1
    obtain ⟨-, -, hafter⟩ := described_iff_fields.mp hd
    exact hgone ((hafter m hm).mp ((hhistory m hm).mpr hstanding))
  · refine iff_of_true (described_pending hms hs hcurrent _ _) ?_
    simp [cleanWrites_cons, Write.settled, Write.applies, cleanWrites_nil]
  · rw [List.take_of_length_le (by simp)]
    refine iff_of_true (described_pending hms hs hcurrent _ _) ?_
    simp [cleanWrites_cons, Write.settled, Write.applies, cleanWrites_nil]

/-! ## Runs -/

theorem start_described (hms : Numbered migrations) (d : D) :
    Described migrations { storage := { data := d } } := by
  refine described_iff_fields.mpr ⟨lawful_nil, fun m hm => ?_, fun m hm => ?_⟩
  · have := hms.positive m hm
    exact iff_of_false (Int.not_le.mpr this) standing_nil
  · exact iff_of_false (fun ⟨_, h, _⟩ => by cases h) standing_nil

theorem step_described (hms : Numbered migrations) (hs : Described migrations s) {call : Call}
    {s' : Machine D} (h : step migrations s call = some s') :
    Described migrations s' ↔ Clean migrations s call := by
  obtain rfl := Option.some.inj h
  cases call with
  | run dryRun clock cut => exact run_described hms hs dryRun clock cut
  | rollback time cut => exact rollback_described hms hs time cut

/-- **Each migration takes effect once between rollbacks, in the order of the versions, and what is
stored says which are in effect, exactly if no call is cut short between the last write of a
migration and its entry, and none runs again that has been rolled back.** -/
theorem described_iff (hms : Numbered migrations) {d : D} {calls : List Call} {t : Machine D}
    (hrun : Runs.run (step migrations) { storage := { data := d } } calls = some t) :
    ((∀ before after m, calls = before ++ after →
        Runs.run (step migrations) { storage := { data := d } } before = some m →
          Described migrations m) ∧
      ∀ before call after m m', calls = before ++ call :: after →
        Runs.run (step migrations) { storage := { data := d } } before = some m →
          step migrations m call = some m' → Completes migrations m call →
            ∀ x ∈ migrations, Standing m'.trace x.version) ↔
      Runs.Along (step migrations) (Clean migrations) { storage := { data := d } } calls := by
  have hiff := Runs.inv_iff_along (I := fun _ => True) (G := Described migrations)
    (P := Clean migrations) (fun _ _ _ _ _ => trivial)
    (fun _ _ _ _ hs h => step_described hms hs h) trivial (start_described hms d) hrun
  refine ⟨fun h => hiff.mp h.1, fun h => ⟨hiff.mpr h, ?_⟩⟩
  intro before call after m m' hsplit hm hstep hcompletes x hx
  exact run_complete (hiff.mpr h before (call :: after) m hsplit hm) hcompletes hstep hx

instance (migrations : List (Migration D)) (s : Machine D) (call : Call) :
    Decidable (Clean migrations s call) :=
  inferInstanceAs (Decidable (_ ∧ _))

/-! Two migrations of a number. -/

def sampleMigrations : List (Migration Int) :=
  [{ version := 2, name := "double", run := { init := [id], last := fun n => 2 * n },
      down := some { last := fun n => n / 2 } },
    { version := 1, name := "increment", run := { last := fun n => n + 1 },
      down := some { last := fun n => n - 1 } }]

def sampleRun (cut : Nat) : Call := .run false (fun i => toString i) cut

/-- A run ends after its first migration, or within the second; the last one is rolled back. -/
def cleanCalls : List Call :=
  [.run true (fun i => toString i) 9, sampleRun 4, sampleRun 1, sampleRun 5, .rollback "later" 4,
    .rollback "later" 0]

theorem cleanCalls_described : ∃ t,
    Runs.run (step sampleMigrations) { storage := { data := 0 } } cleanCalls = some t ∧
      t.trace = [.add 1, .add 2, .remove 2] ∧ t.storage.data = 1 ∧
      ∀ before after m, cleanCalls = before ++ after →
        Runs.run (step sampleMigrations) { storage := { data := 0 } } before = some m →
          Described sampleMigrations m := by
  have hms : Numbered sampleMigrations := ⟨by decide, by decide⟩
  exact ⟨_, rfl, rfl, rfl, ((described_iff hms rfl).mpr (by decide)).1⟩

/-- A migration runs again after its rollback. -/
def reapplied : List Call := [sampleRun 9, .rollback "later" 4, sampleRun 9]

/-- A run is cut short after a version has been stored, and comes again. -/
def cutShort : List Call := [sampleRun 7, sampleRun 9]

/-- **The last migration is in effect, and reported as pending**, though the version is its own. -/
theorem reported_pending : [reapplied, cutShort].Forall fun calls => ∃ t,
    Runs.run (step sampleMigrations) { storage := { data := 0 } } calls = some t ∧
      Standing t.trace 2 ∧ t.storage.version = some 2 ∧
      (getMigrationStatus t.storage sampleMigrations).history.map
          (fun entry => (entry.version, entry.status)) = [(1, .applied), (2, .pending)] ∧
      ¬ Described sampleMigrations t := by
  have hnot {t : Machine Int} (hstanding : Standing t.trace 2)
      (hhistory : (getMigrationStatus t.storage sampleMigrations).history.map
        (fun entry => (entry.version, entry.status)) = [(1, .applied), (2, .pending)]) :
      ¬ Described sampleMigrations t := by
    intro hd
    have hmem : ((2 : Int), MigrationStatus.pending) ∈
        (getMigrationStatus t.storage sampleMigrations).history.map
          fun entry => (entry.version, entry.status) := by
      rw [hhistory]
      decide
    obtain ⟨entry, hentry, heq⟩ := List.mem_map.mp hmem
    obtain ⟨hversion, hstatus⟩ := Prod.mk.inj heq
    have happlied := (hd.history entry hentry).mpr (hversion ▸ hstanding)
    rw [hstatus] at happlied
    cases happlied
  constructor
  · exact ⟨_, rfl, by decide, rfl, rfl, hnot (by decide) rfl⟩
  · exact ⟨_, rfl, by decide, rfl, rfl, hnot (by decide) rfl⟩

end Llamenos.Shared.Migrations
