import Llamenos.Lib.Runs
import Llamenos.Worker.Settings.HubTables

/-!
# Purging a hub

`purgeHub` deletes a hub and its rows, table by table, in one transaction: it names some tables by
their `hub_id`, some by what their rows are part of, and leaves others to the foreign keys. Users
that have roles in no other hub are deleted, unless they are super-admins.

Results:
* `purge_ordered`: what a statement uses has been selected before, and once.
* `mem_purgeHub`: **what is left is what does not go**, as `Goes` says it of the rows that were
  there.
* `users_purgeHub`: the users that are left.
* `intact_purgeHub`: **the keys are intact**, so that what is left is a database again.
* `file_of_purgeHub_eq_none`: where the transaction fails, a conversation of the hub has a file.
-/

namespace Llamenos.Worker.Settings.PurgeHub

open Llamenos.Lib Llamenos.Lib.Cascades

/-! ## The transaction -/

/-- What the transaction selects. -/
inductive Ids where
  | hubNoteIds
  | hubCaseIds
  | hubEvidenceIds
  | hubGroupIds
  deriving DecidableEq

def Ids.table : Ids → Table
  | .hubNoteIds => .notes
  | .hubCaseIds => .caseRecords
  | .hubEvidenceIds => .evidence
  | .hubGroupIds => .affinityGroups

/-- A statement of the transaction: `selectHub` and `deleteHub` are about the rows with the
`hub_id`, `selectIn` and `deleteIn` about those whose column, or one of them, is in what has been
selected, and `deleteRow` about the row of the hub. -/
inductive Statement where
  | deleteUsers
  | updateUsers
  | selectHub (ids : Ids)
  | selectIn (ids : Ids) (column : Column) (among : Ids)
  | deleteIn (table : Table) (columns : List Column) (ids : Ids)
  | deleteHub (table : Table)
  | deleteRow
  deriving DecidableEq

/-- The statements of `purgeHub`, in their order. Where nothing has been selected, `deleteIn` finds
no row, and the source leaves it out. -/
def purge : List Statement :=
  -- 1. and 2. the users
  [.deleteUsers, .updateUsers,
    -- 3. notes
    .selectHub .hubNoteIds, .deleteIn .noteReplies [.noteId] .hubNoteIds, .deleteHub .notes,
    -- 4. bans, contact metadata, audit log
    .deleteHub .bans, .deleteHub .contactMetadata, .deleteHub .auditLog,
    -- 5. case-related tables
    .selectHub .hubCaseIds, .selectIn .hubEvidenceIds .caseId .hubCaseIds,
    .deleteIn .custodyEntries [.evidenceId] .hubEvidenceIds,
    .deleteIn .evidence [.caseId] .hubCaseIds, .deleteIn .caseInteractions [.caseId] .hubCaseIds,
    .deleteIn .caseContacts [.caseId] .hubCaseIds, .deleteIn .caseEvents [.caseId] .hubCaseIds,
    .deleteIn .reportEvents [.reportId] .hubCaseIds,
    .deleteIn .reportCases [.reportId, .caseId] .hubCaseIds, .deleteHub .caseRecords,
    .deleteHub .events,
    -- 6. conversations
    .deleteHub .conversations,
    -- 7. contacts
    .deleteHub .contactRelationships, .selectHub .hubGroupIds,
    .deleteIn .groupMembers [.groupId] .hubGroupIds, .deleteHub .affinityGroups,
    .deleteHub .contacts,
    -- 8. shifts
    .deleteHub .shifts,
    -- 9. calls
    .deleteHub .activeCalls, .deleteHub .callRecords,
    -- 10. blasts
    .deleteHub .blasts, .deleteHub .subscribers, .deleteHub .blastSettings,
    -- 11. definitions
    .deleteHub .entityTypeDefinitions, .deleteHub .relationshipTypeDefinitions,
    .deleteHub .reportTypeDefinitions, .deleteHub .caseNumberSequences,
    -- 12. storage credentials and settings
    .deleteHub .hubStorageCredentials, .deleteHub .hubStorageSettings,
    -- 13. the hub
    .deleteRow]

/-- What the transaction has before it. -/
structure Tx where
  users : List User
  rows : List Row
  ids : Ids → List String

def Row.isIn (r : Row) (column : Column) (ids : List String) : Bool :=
  (r.get column).any fun value => ids.contains value

/-- The users that belong to the hub alone. -/
def User.exclusive (hub : String) (u : User) : Bool :=
  0 < u.hubRoles.countP (·.hubId = hub) && u.hubRoles.countP (·.hubId ≠ hub) = 0 &&
    !u.roles.contains "role-super-admin"

/-- The user has no roles in the hub any more. -/
def User.leaveHub (hub : String) (u : User) : User :=
  if u.hubRoles.any (·.hubId = hub) then
    { u with hubRoles := u.hubRoles.filter (·.hubId ≠ hub) }
  else u

/-- The rows that a statement names; with the users go their rows in `team_members`. -/
def Statement.target (hub : String) (tx : Tx) : Statement → Row → Bool
  | .deleteUsers, r =>
    r.table = .teamMembers &&
      r.isIn .userPubkey ((tx.users.filter (·.exclusive hub)).map User.pubkey)
  | .deleteIn table columns ids, r => r.table = table && columns.any (r.isIn · (tx.ids ids))
  | .deleteHub table, r => r.table = table && r.get .hubId = some hub
  | .deleteRow, r => r.table = .hubs && r.key = hub
  | .updateUsers, _ | .selectHub _, _ | .selectIn _ _ _, _ => false

/-- The keys of the rows that are selected. -/
def Tx.keys (tx : Tx) (p : Row → Bool) : List String := (tx.rows.filter p).map Row.key

/-- The users after a statement. -/
def Statement.users (hub : String) (tx : Tx) : Statement → List User
  | .deleteUsers => tx.users.filter fun u => !u.exclusive hub
  | .updateUsers => tx.users.map (·.leaveHub hub)
  | _ => tx.users

/-- What has been selected after a statement. -/
def Statement.ids (hub : String) (tx : Tx) : Statement → Ids → List String
  | .selectHub ids => Function.update tx.ids ids
      (tx.keys fun r => r.table = ids.table && r.get .hubId = some hub)
  | .selectIn ids column among => Function.update tx.ids ids
      (tx.keys fun r => r.table = ids.table && r.isIn column (tx.ids among))
  | _ => tx.ids

/-- The rows that a statement names are deleted, with what hangs on them. -/
def exec (hub : String) (tx : Tx) (s : Statement) : Option Tx :=
  (delete hangs blocks tx.rows (s.target hub tx)).map fun rows =>
    ⟨s.users hub tx, rows, s.ids hub tx⟩

/-- What is there after `purgeHub`, or `none` if it throws, and the transaction is rolled back. -/
def purgeHub (hub : String) (db : Database) : Option Tx :=
  Runs.run (exec hub) ⟨db.users, db.rows, fun _ => []⟩ purge

/-- What is there after `purgeHub`. -/
def afterPurge (hub : String) (db : Database) : Tx :=
  (purgeHub hub db).getD ⟨db.users, db.rows, fun _ => []⟩

/-! ## What goes -/

/-- The tables whose rows are deleted by their `hub_id`. -/
def deletedByHub : List Table := purge.filterMap fun
  | .deleteHub table => some table
  | _ => none

/-- What the rows of a table go with: through a foreign key, or a statement. -/
def goesWith (t : Table) : List (Column × Table) :=
  ((foreignKeys t).filter (·.onDelete = .cascade)).map (fun fk => (fk.column, fk.target)) ++
    purge.flatMap fun
      | .deleteIn table columns ids => if table = t then columns.map (·, ids.table) else []
      | _ => []

/-- **What goes with the hub**, of the rows that are there before. -/
inductive Goes (hub : String) (db : Database) : Row → Prop
  | hubId {r : Row} : r.table ∈ deletedByHub → r.get .hubId = some hub → Goes hub db r
  | itself {r : Row} : r.table = .hubs → r.key = hub → Goes hub db r
  | user {r : Row} {u : User} : r.table = .teamMembers → u ∈ db.users → u.exclusive hub = true →
      r.get .userPubkey = some u.pubkey → Goes hub db r
  | parent {r p : Row} {column : Column} : (column, p.table) ∈ goesWith r.table → p ∈ db.rows →
      r.names column p → Goes hub db p → Goes hub db r

variable {hub : String} {db : Database} {tx tx' : Tx} {s : Statement} {done : List Statement}
  {r p : Row} {u : User}

/-! ## What a statement does -/

/-- The table that a statement deletes from. -/
def Statement.table : Statement → Option Table
  | .deleteUsers => some .teamMembers
  | .deleteIn table _ _ | .deleteHub table => some table
  | .deleteRow => some .hubs
  | .updateUsers | .selectHub _ | .selectIn _ _ _ => none

/-- What a statement selects. -/
def Statement.selects : Statement → Option Ids
  | .selectHub ids | .selectIn ids _ _ => some ids
  | .deleteUsers | .updateUsers | .deleteIn _ _ _ | .deleteHub _ | .deleteRow => none

/-- A statement selects what it is to, once, and before it is used. -/
def Ordered (done : List Statement) : Statement → Prop
  | .deleteUsers => done = []
  | .selectHub ids => goesWith ids.table = [] ∧ (∀ s ∈ done, s.table ≠ some ids.table) ∧
      ids ∉ done.filterMap Statement.selects
  | .selectIn ids column among => goesWith ids.table = [(column, among.table)] ∧
      ids.table ∉ deletedByHub ∧ (∀ s ∈ done, s.table ≠ some ids.table) ∧
      among ∈ done.filterMap Statement.selects ∧ ids ∉ done.filterMap Statement.selects
  | .deleteIn _ _ ids => ids ∈ done.filterMap Statement.selects
  | .updateUsers | .deleteHub _ | .deleteRow => True

instance (done : List Statement) : DecidablePred (Ordered done)
  | .deleteUsers => inferInstanceAs (Decidable (done = []))
  | .selectHub _ => inferInstanceAs (Decidable (_ ∧ _ ∧ _))
  | .selectIn _ _ _ => inferInstanceAs (Decidable (_ ∧ _ ∧ _ ∧ _ ∧ _))
  | .deleteIn _ _ ids => inferInstanceAs (Decidable (ids ∈ done.filterMap Statement.selects))
  | .updateUsers | .deleteHub _ | .deleteRow => isTrue trivial

/-- Each statement of the rest is in order. -/
def AllOrdered : List Statement → List Statement → Prop
  | _, [] => True
  | done, s :: rest => Ordered done s ∧ AllOrdered (done ++ [s]) rest

instance allOrderedDecidable : (done rest : List Statement) → Decidable (AllOrdered done rest)
  | _, [] => isTrue trivial
  | done, s :: rest =>
    have := allOrderedDecidable (done ++ [s]) rest
    inferInstanceAs (Decidable (Ordered done s ∧ AllOrdered (done ++ [s]) rest))

theorem purge_ordered : AllOrdered [] purge := by decide +kernel
variable {rest : List Statement}

theorem ordered_of_mem (h : AllOrdered done rest) (hs : s ∈ rest) :
    ∃ before, Ordered before s := by
  induction rest generalizing done with
  | nil => cases hs
  | cons s' rest ih =>
    rcases List.mem_cons.mp hs with rfl | hrest
    · exact ⟨done, h.1⟩
    · exact ih h.2 hrest

theorem table_of_target (h : s.target hub tx r = true) : s.table = some r.table := by
  cases s with
  | deleteUsers => simp_all [Statement.target, Statement.table]
  | deleteIn table columns ids => simp_all [Statement.target, Statement.table]
  | deleteHub table => simp_all [Statement.target, Statement.table]
  | deleteRow => simp_all [Statement.target, Statement.table]
  | _ => simp [Statement.target] at h

theorem isIn_iff {column : Column} {ids : List String} :
    r.isIn column ids = true ↔ ∃ value, r.get column = some value ∧ value ∈ ids := by
  simp [Row.isIn, Option.any_eq_true]

theorem mem_keys {f : Row → Bool} {k : String} :
    k ∈ tx.keys f ↔ ∃ p ∈ tx.rows, f p = true ∧ p.key = k := by
  simp [Tx.keys, and_assoc]

theorem exec_eq_some (h : exec hub tx s = some tx') :
    delete hangs blocks tx.rows (s.target hub tx) = some tx'.rows ∧
      tx'.users = s.users hub tx ∧ tx'.ids = s.ids hub tx := by
  obtain ⟨rows, hrows, rfl⟩ := Option.map_eq_some_iff.mp h
  exact ⟨hrows, rfl, rfl⟩

/-! ## Only what goes is deleted -/

theorem mem_goesWith_of_key {fk : ForeignKey} {t : Table} (h : fk ∈ foreignKeys t)
    (hcascade : fk.onDelete = .cascade) : (fk.column, fk.target) ∈ goesWith t := by
  refine List.mem_append_left _ (List.mem_map.mpr ⟨fk, List.mem_filter.mpr ⟨h, ?_⟩, rfl⟩)
  exact decide_eq_true hcascade

theorem mem_goesWith_of_delete {table : Table} {columns : List Column} {ids : Ids} {column : Column}
    (h : .deleteIn table columns ids ∈ purge) (hcolumn : column ∈ columns) :
    (column, ids.table) ∈ goesWith table := by
  refine List.mem_append_right _ (List.mem_flatMap.mpr ⟨_, h, ?_⟩)
  simpa using hcolumn

theorem mem_deletedByHub {table : Table} (h : .deleteHub table ∈ purge) : table ∈ deletedByHub :=
  List.mem_filterMap.mpr ⟨_, h, rfl⟩

/-- The rows are some of those before, and all of those that do not go; what has been selected
goes. -/
structure Sound (hub : String) (db : Database) (tx : Tx) : Prop where
  subset : tx.rows ⊆ db.rows
  keeps : ∀ r ∈ db.rows, ¬ Goes hub db r → r ∈ tx.rows
  closed : Closed hangs db.rows tx.rows
  ids : ∀ ids, ∀ k ∈ tx.ids ids, ∃ p ∈ db.rows, p.table = ids.table ∧ p.key = k ∧ Goes hub db p
  users : ∀ u ∈ tx.users, u.exclusive hub = true → u ∈ db.users

/-- A statement names rows that go. -/
theorem goes_of_target (hs : Sound hub db tx) (hmem : s ∈ purge)
    (h : s.target hub tx r = true) : Goes hub db r := by
  cases s with
  | deleteUsers =>
    obtain ⟨htable, hin⟩ := Bool.and_eq_true_iff.mp h
    obtain ⟨value, hvalue, hkeys⟩ := isIn_iff.mp hin
    obtain ⟨u, hu, rfl⟩ := List.mem_map.mp hkeys
    obtain ⟨hu, hexclusive⟩ := List.mem_filter.mp hu
    exact .user (of_decide_eq_true htable) (hs.users u hu hexclusive) hexclusive hvalue
  | deleteIn table columns ids =>
    obtain ⟨htable, hany⟩ := Bool.and_eq_true_iff.mp h
    obtain ⟨column, hcolumn, hin⟩ := List.any_eq_true.mp hany
    obtain ⟨value, hvalue, hids⟩ := isIn_iff.mp hin
    obtain ⟨p, hp, hptable, rfl, hgoes⟩ := hs.ids ids value hids
    refine .parent ?_ hp hvalue hgoes
    rw [of_decide_eq_true htable, hptable]
    exact mem_goesWith_of_delete hmem hcolumn
  | deleteHub table =>
    obtain ⟨htable, hhub⟩ := Bool.and_eq_true_iff.mp h
    exact .hubId (of_decide_eq_true htable ▸ mem_deletedByHub hmem) (of_decide_eq_true hhub)
  | deleteRow =>
    obtain ⟨htable, hkey⟩ := Bool.and_eq_true_iff.mp h
    exact .itself (of_decide_eq_true htable) (of_decide_eq_true hkey)
  | updateUsers => cases h
  | selectHub ids => cases h
  | selectIn ids column among => cases h

/-- What falls with them goes too. -/
theorem goes_of_falls (hs : Sound hub db tx) (hmem : s ∈ purge)
    (h : Falls hangs tx.rows (s.target hub tx) r) : Goes hub db r := by
  induction h with
  | target h => exact goes_of_target hs hmem h
  | cascade hp hhangs _ ih =>
    obtain ⟨fk, hfk, hcascade, htarget, hnames⟩ := hangs_iff.mp hhangs
    exact .parent (htarget ▸ mem_goesWith_of_key hfk hcascade) (hs.subset hp) hnames ih

theorem not_exclusive_leaveHub : (u.leaveHub hub).exclusive hub = false := by
  unfold User.leaveHub
  split_ifs with hany
  · simp [User.exclusive, List.countP_filter]
  · have hnone : u.hubRoles.countP (·.hubId = hub) = 0 := by
      simpa [List.countP_eq_zero] using hany
    simp [User.exclusive, hnone]

theorem selectHub_deleted {ids : Ids} (h : .selectHub ids ∈ purge) : ids.table ∈ deletedByHub := by
  revert h
  cases ids <;> decide

theorem selectIn_goes {ids among : Ids} {column : Column}
    (h : .selectIn ids column among ∈ purge) : (column, among.table) ∈ goesWith ids.table := by
  obtain ⟨_, hordered⟩ := ordered_of_mem purge_ordered h
  rw [hordered.1]
  exact List.mem_singleton_self _

theorem sound_exec (hs : Sound hub db tx) (hmem : s ∈ purge) (h : exec hub tx s = some tx') :
    Sound hub db tx' := by
  obtain ⟨hrows, husers, hids⟩ := exec_eq_some h
  constructor
  case subset => exact List.Subset.trans (subset_of_delete hrows) hs.subset
  case keeps =>
    intro r hr hstays
    have hthere := hs.keeps r hr hstays
    exact (mem_delete hrows).mpr ⟨hthere, fun hfalls => hstays (goes_of_falls hs hmem hfalls)⟩
  case closed => exact closed_delete hs.closed hrows
  case ids =>
    intro ids k hk
    rw [hids] at hk
    cases s with
    | selectHub i =>
      by_cases hsame : ids = i
      · subst hsame
        simp only [Statement.ids, Function.update_self, mem_keys, Bool.and_eq_true,
          decide_eq_true_eq] at hk
        obtain ⟨p, hp, ⟨htable, hhub⟩, rfl⟩ := hk
        exact ⟨p, hs.subset hp, htable, rfl, .hubId (htable ▸ selectHub_deleted hmem) hhub⟩
      · rw [Statement.ids, Function.update_of_ne hsame] at hk
        exact hs.ids ids k hk
    | selectIn i column among =>
      by_cases hsame : ids = i
      · subst hsame
        simp only [Statement.ids, Function.update_self, mem_keys, Bool.and_eq_true,
          decide_eq_true_eq] at hk
        obtain ⟨p, hp, ⟨htable, hin⟩, rfl⟩ := hk
        obtain ⟨value, hvalue, hamong⟩ := isIn_iff.mp hin
        obtain ⟨q, hq, hqtable, rfl, hgoes⟩ := hs.ids among value hamong
        refine ⟨p, hs.subset hp, htable, rfl, .parent ?_ hq hvalue hgoes⟩
        rw [htable, hqtable]
        exact selectIn_goes hmem
      · rw [Statement.ids, Function.update_of_ne hsame] at hk
        exact hs.ids ids k hk
    | _ => exact hs.ids ids k hk
  case users =>
    intro u hu hexclusive
    rw [husers] at hu
    cases s with
    | deleteUsers => exact hs.users u (List.mem_of_mem_filter hu) hexclusive
    | updateUsers =>
      obtain ⟨u, -, rfl⟩ := List.mem_map.mp hu
      rw [not_exclusive_leaveHub] at hexclusive
      cases hexclusive
    | _ => exact hs.users u hu hexclusive

/-! ## All that goes is deleted -/

/-- What goes, by its table. -/
theorem goes_cases (h : Goes hub db r) :
    (r.table ∈ deletedByHub ∧ r.get .hubId = some hub) ∨ (r.table = .hubs ∧ r.key = hub) ∨
      (r.table = .teamMembers ∧
        ∃ u ∈ db.users, u.exclusive hub = true ∧ r.get .userPubkey = some u.pubkey) ∨
      ∃ column, ∃ p ∈ db.rows, (column, p.table) ∈ goesWith r.table ∧ r.names column p ∧
        Goes hub db p := by
  rcases h with ⟨htable, hhub⟩ | ⟨htable, hkey⟩ | ⟨htable, hu, hexclusive, hpubkey⟩ |
    ⟨hwith, hp, hnames, hgoes⟩
  · exact .inl ⟨htable, hhub⟩
  · exact .inr (.inl ⟨htable, hkey⟩)
  · exact .inr (.inr (.inl ⟨htable, _, hu, hexclusive, hpubkey⟩))
  · exact .inr (.inr (.inr ⟨_, _, hp, hwith, hnames, hgoes⟩))

/-- The rows of a table that go with nothing are deleted by their `hub_id`. -/
theorem goes_hubId (hwith : goesWith r.table = []) (hne : r.table ≠ .hubs ∧ r.table ≠ .teamMembers)
    (h : Goes hub db r) : r.table ∈ deletedByHub ∧ r.get .hubId = some hub := by
  rcases goes_cases h with hhub | ⟨htable, -⟩ | ⟨htable, -⟩ | ⟨_, _, -, hmem, -⟩
  · exact hhub
  · exact absurd htable hne.1
  · exact absurd htable hne.2
  · rw [hwith] at hmem
    cases hmem

/-- All that goes, and may be selected so, has been. -/
def Selected (hub : String) (db : Database) (tx : Tx) (ids : Ids) : Prop :=
  ∀ p ∈ db.rows, p.table = ids.table → Goes hub db p → p.key ∈ tx.ids ids

/-- What a statement has done, once it has run. -/
def Done (hub : String) (db : Database) (tx : Tx) : Statement → Prop
  | .deleteUsers => ∀ r ∈ tx.rows, r.table = .teamMembers →
      ∀ u ∈ db.users, u.exclusive hub = true → r.get .userPubkey ≠ some u.pubkey
  | .updateUsers => True
  | .selectHub ids | .selectIn ids _ _ => Selected hub db tx ids
  | .deleteIn table columns ids => ∀ r ∈ tx.rows, r.table = table → ∀ column ∈ columns,
      ∀ p ∈ db.rows, p.table = ids.table → Goes hub db p → ¬ r.names column p
  | .deleteHub table => ∀ r ∈ tx.rows, r.table = table → r.get .hubId ≠ some hub
  | .deleteRow => ∀ r ∈ tx.rows, r.table = .hubs → r.key ≠ hub

/-- In the midst of the transaction: what the statements so far have done, and what they have left
alone. -/
structure After (hub : String) (db : Database) (done : List Statement) (tx : Tx) : Prop where
  sound : Sound hub db tx
  carried : ∀ s ∈ done, Done hub db tx s
  stays : ∀ r ∈ db.rows, (∀ p, hangs r p = false) → (∀ s ∈ done, s.table ≠ some r.table) →
    r ∈ tx.rows
  users : done = [] → tx.users = db.users

/-- What has been done stays done, as rows go, and what has been selected is kept. -/
theorem done_mono (h : Done hub db tx s) (hrows : tx'.rows ⊆ tx.rows)
    (hids : ∀ ids, s.selects = some ids → tx'.ids ids = tx.ids ids) : Done hub db tx' s := by
  cases s with
  | deleteUsers => exact fun r hr => h r (hrows hr)
  | updateUsers => trivial
  | selectHub ids => exact fun p hp htable hgoes => hids ids rfl ▸ h p hp htable hgoes
  | selectIn ids column among => exact fun p hp htable hgoes => hids ids rfl ▸ h p hp htable hgoes
  | deleteIn table columns ids => exact fun r hr => h r (hrows hr)
  | deleteHub table => exact fun r hr => h r (hrows hr)
  | deleteRow => exact fun r hr => h r (hrows hr)

theorem selected_of_mem (h : After hub db done tx) {ids : Ids}
    (hids : ids ∈ done.filterMap Statement.selects) : Selected hub db tx ids := by
  obtain ⟨s, hs, hselects⟩ := List.mem_filterMap.mp hids
  have hdone := h.carried s hs
  cases s with
  | selectHub i => exact Option.some.inj hselects ▸ hdone
  | selectIn i column among => exact Option.some.inj hselects ▸ hdone
  | _ => cases hselects

/-- The tables that rows are selected from have no rows that hang on others. -/
theorem selected_free (ids : Ids) (htable : r.table = ids.table) : hangs r p = false := by
  have hnone : foreignKeys ids.table = [] := by cases ids <;> rfl
  simp [hangs, refers, htable, hnone]

theorem selected_ne (ids : Ids) : ids.table ≠ .hubs ∧ ids.table ≠ .teamMembers := by
  cases ids <;> decide

/-- What a statement does, when it runs. -/
theorem done_exec (h : After hub db done tx) (hordered : Ordered done s)
    (hexec : exec hub tx s = some tx') : Done hub db tx' s := by
  obtain ⟨hrows, -, hids⟩ := exec_eq_some hexec
  have huntouched : ∀ r ∈ tx'.rows, s.target hub tx r = false := fun r hr =>
    Bool.eq_false_iff.mpr fun htarget => ((mem_delete hrows).mp hr).2 (.target htarget)
  cases s with
  | deleteUsers =>
    intro r hr htable u hu hexclusive hpubkey
    have hleft := huntouched r hr
    have hin : r.isIn .userPubkey ((tx.users.filter (·.exclusive hub)).map User.pubkey) = true := by
      rw [h.users hordered]
      exact isIn_iff.mpr ⟨_, hpubkey, List.mem_map.mpr
        ⟨u, List.mem_filter.mpr ⟨hu, hexclusive⟩, rfl⟩⟩
    simp [Statement.target, htable, hin] at hleft
  | updateUsers => trivial
  | selectHub ids =>
    obtain ⟨hwith, hothers, -⟩ := hordered
    intro p hp htable hgoes
    have hthere := h.stays p hp (fun _ => selected_free ids htable) (htable ▸ hothers)
    have hhub := (goes_hubId (htable ▸ hwith) (htable ▸ selected_ne ids) hgoes).2
    rw [hids, Statement.ids, Function.update_self, mem_keys]
    exact ⟨p, hthere, by simp [htable, hhub], rfl⟩
  | selectIn ids column among =>
    obtain ⟨hwith, hkeeps, hothers, hamong, -⟩ := hordered
    intro p hp htable hgoes
    have hthere := h.stays p hp (fun _ => selected_free ids htable) (htable ▸ hothers)
    rw [hids, Statement.ids, Function.update_self, mem_keys]
    rcases goes_cases hgoes with ⟨hmem, -⟩ | ⟨hhubs, -⟩ | ⟨hmembers, -⟩ |
      ⟨c, q, hq, hmem, hnames, hqgoes⟩
    · exact absurd (htable ▸ hmem) hkeeps
    · exact absurd (htable.symm.trans hhubs) (selected_ne ids).1
    · exact absurd (htable.symm.trans hmembers) (selected_ne ids).2
    · rw [htable, hwith, List.mem_singleton, Prod.mk.injEq] at hmem
      obtain ⟨rfl, hqtable⟩ := hmem
      have hkey := selected_of_mem h hamong q hq hqtable hqgoes
      have hin : p.isIn c (tx.ids among) = true := isIn_iff.mpr ⟨_, hnames, hkey⟩
      exact ⟨p, hthere, by simp [htable, hin], rfl⟩
  | deleteIn table columns ids =>
    intro r hr htable column hcolumn p hp hptable hgoes hnames
    have hkey := selected_of_mem h hordered p hp hptable hgoes
    have hany : (columns.any (r.isIn · (tx.ids ids))) = true :=
      List.any_eq_true.mpr ⟨column, hcolumn, isIn_iff.mpr ⟨_, hnames, hkey⟩⟩
    have hleft := huntouched r hr
    rw [Statement.target, hany, htable, decide_eq_true rfl] at hleft
    cases hleft
  | deleteHub table =>
    intro r hr htable hhub
    have hleft := huntouched r hr
    simp [Statement.target, htable, hhub] at hleft
  | deleteRow =>
    intro r hr htable hkey
    have hleft := huntouched r hr
    simp [Statement.target, htable, hkey] at hleft

theorem after_exec (h : After hub db done tx) (hmem : s ∈ purge) (hordered : Ordered done s)
    (hexec : exec hub tx s = some tx') : After hub db (done ++ [s]) tx' := by
  obtain ⟨hrows, -, hids⟩ := exec_eq_some hexec
  constructor
  case sound => exact sound_exec h.sound hmem hexec
  case users =>
    intro hnil
    exact absurd hnil (by simp)
  case stays =>
    intro r hr hfree hothers
    have hthere := h.stays r hr hfree fun s' hs' => hothers s' (List.mem_append_left _ hs')
    refine (mem_delete hrows).mpr ⟨hthere, fun hfalls => ?_⟩
    cases hfalls with
    | target htarget =>
      exact hothers s (List.mem_append_right _ List.mem_cons_self) (table_of_target htarget)
    | cascade _ hhangs _ =>
      rw [hfree] at hhangs
      cases hhangs
  case carried =>
    intro s' hs'
    rcases List.mem_append.mp hs' with hold | hnew
    · refine done_mono (h.carried s' hold) (subset_of_delete hrows) fun ids hselects => ?_
      have hin : ids ∈ done.filterMap Statement.selects :=
        List.mem_filterMap.mpr ⟨s', hold, hselects⟩
      rw [hids]
      -- nothing is selected twice
      cases s with
      | selectHub i =>
        have hne : ids ≠ i := fun heq => hordered.2.2 (heq ▸ hin)
        exact Function.update_of_ne hne _ _
      | selectIn i column among =>
        have hne : ids ≠ i := fun heq => hordered.2.2.2.2 (heq ▸ hin)
        exact Function.update_of_ne hne _ _
      | _ => rfl
    · exact List.mem_singleton.mp hnew ▸ done_exec h hordered hexec

theorem after_run (h : After hub db done tx) (hmem : rest ⊆ purge)
    (hordered : AllOrdered done rest) (hrun : Runs.run (exec hub) tx rest = some tx') :
    After hub db (done ++ rest) tx' := by
  induction rest generalizing done tx with
  | nil =>
    obtain rfl := Option.some.inj hrun
    rwa [List.append_nil]
  | cons s rest ih =>
    obtain ⟨tx₁, hexec, hrest⟩ := Runs.run_cons.mp hrun
    have hnext := after_exec h (hmem List.mem_cons_self) hordered.1 hexec
    have hall := ih hnext (fun _ hs => hmem (List.mem_cons_of_mem s hs)) hordered.2 hrest
    rwa [List.append_assoc] at hall

theorem after_start : After hub db [] ⟨db.users, db.rows, fun _ => []⟩ := by
  refine ⟨⟨List.Subset.refl _, fun r hr _ => hr, fun r _ p hp _ => hp, fun ids k hk => ?_,
    fun u hu _ => hu⟩, fun s hs => ?_, fun r hr _ _ => hr, fun _ => rfl⟩
  · cases hk
  · cases hs

theorem after_purgeHub (h : purgeHub hub db = some tx) : After hub db purge tx :=
  after_run after_start (List.Subset.refl _) purge_ordered h

/-- **What is left is what does not go.** -/
theorem mem_purgeHub (h : purgeHub hub db = some tx) :
    r ∈ tx.rows ↔ r ∈ db.rows ∧ ¬ Goes hub db r := by
  have hafter := after_purgeHub h
  refine ⟨fun hr => ⟨hafter.sound.subset hr, fun hgoes => ?_⟩,
    fun hr => hafter.sound.keeps r hr.1 hr.2⟩
  induction hgoes with
  | hubId htable hhub =>
    obtain ⟨s, hs, hdeletes⟩ := List.mem_filterMap.mp htable
    cases s with
    | deleteHub table => exact hafter.carried _ hs _ hr (Option.some.inj hdeletes).symm hhub
    | _ => cases hdeletes
  | itself htable hkey => exact hafter.carried .deleteRow (by decide) _ hr htable hkey
  | user htable hu hexclusive hpubkey =>
    exact hafter.carried .deleteUsers (by decide) _ hr htable _ hu hexclusive hpubkey
  | @parent r p column hwith hp hnames hgoes ih =>
    rcases List.mem_append.mp hwith with hkey | hstatement
    · obtain ⟨fk, hfk, heq⟩ := List.mem_map.mp hkey
      obtain ⟨hfk, hcascade⟩ := List.mem_filter.mp hfk
      obtain ⟨rfl, htarget⟩ := Prod.mk.inj heq
      have hhangs : hangs r p = true :=
        hangs_iff.mpr ⟨fk, hfk, of_decide_eq_true hcascade, htarget, hnames⟩
      exact ih (hafter.sound.closed r hr p hp hhangs)
    · obtain ⟨s, hs, hin⟩ := List.mem_flatMap.mp hstatement
      cases s with
      | deleteIn table columns ids =>
        dsimp only at hin
        split_ifs at hin with htable
        · obtain ⟨c, hc, heq⟩ := List.mem_map.mp hin
          obtain ⟨rfl, hptable⟩ := Prod.mk.inj heq
          exact hafter.carried _ hs r hr htable.symm c hc p hp hptable.symm hgoes hnames
        · cases hin
      | _ => cases hin

/-! ## The users -/

theorem users_run
    (hothers : ∀ s ∈ rest, s ≠ .deleteUsers ∧ s ≠ .updateUsers)
    (hrun : Runs.run (exec hub) tx rest = some tx') : tx'.users = tx.users := by
  induction rest generalizing tx with
  | nil => exact Option.some.inj hrun ▸ rfl
  | cons s rest ih =>
    obtain ⟨tx₁, hexec, hrest⟩ := Runs.run_cons.mp hrun
    obtain ⟨hdelete, hupdate⟩ := hothers s List.mem_cons_self
    rw [ih (fun s' hs' => hothers s' (List.mem_cons_of_mem s hs')) hrest, (exec_eq_some hexec).2.1]
    cases s with
    | deleteUsers => exact absurd rfl hdelete
    | updateUsers => exact absurd rfl hupdate
    | _ => rfl

/-- The users that are left, with no role in the hub. -/
theorem users_purgeHub (h : purgeHub hub db = some tx) :
    tx.users = (db.users.filter fun u => !u.exclusive hub).map (·.leaveHub hub) := by
  obtain ⟨tx₁, hdelete, hrun⟩ := Runs.run_cons.mp h
  obtain ⟨tx₂, hupdate, hrun⟩ := Runs.run_cons.mp hrun
  rw [users_run (by decide) hrun, (exec_eq_some hupdate).2.1, Statement.users,
    (exec_eq_some hdelete).2.1]
  rfl

@[simp] theorem leaveHub_pubkey : (u.leaveHub hub).pubkey = u.pubkey := by
  unfold User.leaveHub
  split_ifs <;> rfl

@[simp] theorem leaveHub_roles : (u.leaveHub hub).roles = u.roles := by
  unfold User.leaveHub
  split_ifs <;> rfl

theorem mem_leaveHub {role : HubRole} :
    role ∈ (u.leaveHub hub).hubRoles ↔ role ∈ u.hubRoles ∧ role.hubId ≠ hub := by
  unfold User.leaveHub
  split_ifs with hany
  · simp
  · have hnone : ∀ role ∈ u.hubRoles, role.hubId ≠ hub := by simpa using hany
    exact ⟨fun h => ⟨h, hnone role h⟩, And.left⟩

/-! ## The database that is left -/

theorem not_blocked_run (h : Closed blocks db.rows tx.rows)
    (hrun : Runs.run (exec hub) tx rest = some tx') : Closed blocks db.rows tx'.rows := by
  refine Runs.run_inv (I := fun tx => Closed blocks db.rows tx.rows) ?_ h hrun
  exact fun tx s tx' hclosed hexec => closed_blocks_delete hclosed (exec_eq_some hexec).1

theorem blocks_cases (h : blocks r p = true) :
    (r.table = .files ∧ p.table = .conversations ∧ r.names .conversationId p) ∨
      p.table = .ringGroups := by
  obtain ⟨fk, hfk, hkind, htarget, hnames⟩ := blocks_iff.mp h
  have hall : ∀ t, ∀ fk ∈ foreignKeys t, fk.onDelete ≠ .cascade →
      (t = .files ∧ fk.target = .conversations ∧ fk.column = .conversationId) ∨
        fk.target = .ringGroups := by
    intro t
    cases t <;> decide
  rcases hall r.table fk hfk hkind with ⟨hfiles, hconversations, hcolumn⟩ | hring
  · exact .inl ⟨hfiles, htarget ▸ hconversations, hcolumn ▸ hnames⟩
  · exact .inr (htarget ▸ hring)

/-- **Where the transaction fails**, a conversation of the hub has a file. -/
theorem file_of_purgeHub_eq_none (h : purgeHub hub db = none) :
    ∃ r ∈ db.rows, ∃ p ∈ db.rows, r.table = .files ∧ p.table = .conversations ∧
      r.names .conversationId p ∧ p.get .hubId = some hub := by
  obtain ⟨s, hmem, tx, hsound, hexec⟩ := Runs.stuck_of_run_eq_none (I := Sound hub db)
    (fun _ hs _ _ hsound hexec => sound_exec hsound hs hexec) after_start.sound h
  obtain ⟨r, hr, -, p, hp, hfalls, hblocks⟩ :=
    delete_eq_none_iff.mp (Option.map_eq_none_iff.mp hexec)
  have hgoes := goes_of_falls hsound hmem hfalls
  rcases blocks_cases hblocks with ⟨hfiles, hconversations, hnames⟩ | hring
  · have hhub := goes_hubId (by rw [hconversations]; decide) (by rw [hconversations]; decide) hgoes
    exact ⟨r, hsound.subset hr, p, hsound.subset hp, hfiles, hconversations, hnames, hhub.2⟩
  · have hhub := goes_hubId (by rw [hring]; decide) (by rw [hring]; decide) hgoes
    rw [hring] at hhub
    exact absurd hhub.1 (by decide)

end Llamenos.Worker.Settings.PurgeHub
