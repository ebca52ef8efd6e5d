import Mathlib.Data.List.Nodup
import Llamenos.Worker.Settings.PurgeHub

/-!
# What a purged hub leaves behind

The rows that go with a hub are not the rows that are of it. Some tables are left out by `purgeHub`,
and files keep their conversations from being deleted; what is assigned to a contact, a team or a
shift goes with them, whatever hub it names itself; and with the users of the hub alone go their
other roles, and their places in the teams of other hubs.

Results:
* `goes_iff_belongs`: the tables whose rows go exactly with their hub; `not_goes_of_spared` and
  `goes_iff_of_assigned` for the others, but the team members.
* `belongs_unique`: a row is of one hub only, unless it joins two.
* `purgeHub_iff`: **the hub's rows are gone, and those of the others and the users' roles are
  there**, exactly where `Clean` holds of the database.
-/

namespace Llamenos.Worker.Settings.PurgeHub

open Llamenos.Lib Llamenos.Lib.Cascades

/-! ## The tables -/

/-- The tables whose rows are spared: no statement, and no foreign key that cascades, reaches them.
-/
def spared : List Table :=
  [.activeShifts, .callTokens, .erasureConfig, .eventOutbox, .files, .firehoseConnections,
    .firehoseMessageBuffer, .firehoseNotificationOptouts, .firehoseWindowKeys,
    .hubRecoveryGroupShares, .hubRecoveryGroups, .inviteCodes, .mlsPendingMessages,
    .pushRemindersSent, .reEncryptionJobs, .recoverySessionContributions, .recoverySessions,
    .retentionSettings, .ringGroupMembers, .ringGroups, .userAvailabilityBlocks]

/-- The tables with a `hub_id` whose rows go with what they name, and not by it. -/
def assigned : List Table := [.contactTeamAssignments, .shiftJoinRequests, .shiftOverrides]

/-- The tables whose rows are part of two others. -/
def joined : List Table := [.blastDeliveries, .reportCases]

/-- How the rows of a table with a `hub_id` go. -/
theorem hubId_kinds (t : Table) (h : hasHubId t = true) :
    t ∈ spared ∨ t ∈ assigned ∨ t ∈ deletedByHub ∨ ⟨.hubId, .hubs, .cascade⟩ ∈ foreignKeys t := by
  revert h
  cases t <;> decide

theorem hasHubId_of_deleted {t : Table} (h : t ∈ deletedByHub) : hasHubId t = true := by
  revert h
  cases t <;> decide

/-- What a row is part of takes it along. -/
theorem owner_kinds (t : Table) : ∀ e ∈ owners t,
    t ∈ spared ∨ (e ∈ goesWith t ∧ e.2 ∉ spared ∧ e.2 ∉ assigned) := by
  cases t <;> decide

/-- What takes a row along is its hub, or what it is part of, unless it is assigned. -/
theorem goesWith_kinds (t : Table) : ∀ e ∈ goesWith t, e.2 ∈ spared ∨
    (e.2 ∉ assigned ∧ e.2 ≠ .teamMembers ∧
      (t ∈ assigned ∨ e ∈ owners t ∨ (hasHubId t = true ∧ e = (.hubId, .hubs)))) := by
  cases t <;> decide

theorem spared_kinds (t : Table) (h : t ∈ spared) :
    t ∉ deletedByHub ∧ t ≠ .hubs ∧ t ≠ .teamMembers ∧ ∀ e ∈ goesWith t, e.2 ∈ spared := by
  revert h
  cases t <;> decide

theorem assigned_kinds (t : Table) (h : t ∈ assigned) :
    (hasHubId t = true ∧ t ∉ spared ∧ t ∉ deletedByHub ∧ t ≠ .hubs ∧ t ≠ .teamMembers) ∧
      (∀ e ∈ goesWith t, e.2 ∉ spared ∧ ⟨e.1, e.2, .cascade⟩ ∈ foreignKeys t) := by
  revert h
  cases t <;> decide

/-- But for those that join two, rows are part of one other at most. -/
theorem owners_kinds (t : Table) (h : t ∉ joined) :
    ∀ e ∈ owners t, owners t = [e] ∧ e.2 ∉ joined := by
  revert h
  cases t <;> decide

variable {hub other : String} {db : Database} {tx : Tx} {r p : Row} {u : User}

/-! ## What goes, and what is the hub's -/

theorem not_goes_of_spared (h : r.table ∈ spared) : ¬ Goes hub db r := by
  intro hgoes
  induction hgoes with
  | hubId htable _ => exact (spared_kinds _ h).1 htable
  | itself htable _ => exact (spared_kinds _ h).2.1 htable
  | user htable _ _ _ => exact (spared_kinds _ h).2.2.1 htable
  | parent hwith _ _ _ ih => exact ih ((spared_kinds _ h).2.2.2 _ hwith)

/-- The rows of the hub go, but those of some tables. -/
theorem goes_of_belongs (hr : r ∈ db.rows) (hspared : r.table ∉ spared)
    (hassigned : r.table ∉ assigned) (h : Belongs db.rows hub r) : Goes hub db r := by
  induction h with
  | @hubId r hhas hhub =>
    rcases hubId_kinds r.table hhas with hs | ha | hdeleted | hkey
    · exact absurd hs hspared
    · exact absurd ha hassigned
    · exact .hubId hdeleted hhub
    · obtain ⟨p, hp, htable, hpkey⟩ := db.intact.references r hr _ hkey hub hhub
      have hwith : (Column.hubId, p.table) ∈ goesWith r.table :=
        htable ▸ mem_goesWith_of_key hkey rfl
      have hnames : r.names .hubId p := hhub.trans (congrArg some hpkey.symm)
      exact .parent hwith hp hnames (.itself htable hpkey)
  | itself htable hkey => exact .itself htable hkey
  | @owner r p column howner hp hnames _ ih =>
    rcases owner_kinds r.table _ howner with hs | ⟨hwith, hs, ha⟩
    · exact absurd hs hspared
    · exact .parent hwith hp hnames (ih hp hs ha)

/-- What goes is the hub's, if it is not assigned, and no user takes it along. -/
theorem belongs_of_goes (hassigned : r.table ∉ assigned) (h : Goes hub db r) :
    Belongs db.rows hub r ∨ (r.table = .teamMembers ∧
      ∃ u ∈ db.users, u.exclusive hub = true ∧ r.get .userPubkey = some u.pubkey) := by
  induction h with
  | hubId htable hhub => exact .inl (.hubId (hasHubId_of_deleted htable) hhub)
  | itself htable hkey => exact .inl (.itself htable hkey)
  | user htable hu hexclusive hpubkey => exact .inr ⟨htable, _, hu, hexclusive, hpubkey⟩
  | @parent r p column hwith hp hnames hgoes ih =>
    rcases goesWith_kinds r.table _ hwith with hspared | ⟨hpassigned, hmembers, hkind⟩
    · exact absurd hgoes (not_goes_of_spared hspared)
    · rcases ih hpassigned with hbelongs | ⟨htable, -⟩
      · rcases hkind with ha | howner | ⟨hhas, heq⟩
        · exact absurd ha hassigned
        · exact .inl (.owner howner hp hnames hbelongs)
        · obtain ⟨rfl, hhubs⟩ := Prod.mk.inj heq
          have hkey := (belongs_hub_iff hhubs).mp hbelongs
          exact .inl (.hubId hhas (hkey ▸ hnames))
      · exact absurd htable hmembers

/-- **The tables whose rows go exactly with their hub.** -/
theorem goes_iff_belongs (hr : r ∈ db.rows)
    (hkinds : r.table ∉ spared ∧ r.table ∉ assigned ∧ r.table ≠ .teamMembers) :
    Goes hub db r ↔ Belongs db.rows hub r := by
  obtain ⟨hspared, hassigned, hmembers⟩ := hkinds
  refine ⟨fun h => ?_, goes_of_belongs hr hspared hassigned⟩
  rcases belongs_of_goes hassigned h with hbelongs | ⟨htable, -⟩
  · exact hbelongs
  · exact absurd htable hmembers

/-- **What is assigned goes with what it names**, whatever hub it names itself. -/
theorem goes_iff_of_assigned (h : r.table ∈ assigned) :
    Goes hub db r ↔ ∃ p ∈ db.rows, hangs r p = true ∧ Belongs db.rows hub p := by
  obtain ⟨⟨-, -, hdeleted, hhubs, hmembers⟩, hwith⟩ := assigned_kinds r.table h
  constructor
  · intro hgoes
    rcases goes_cases hgoes with ⟨htable, -⟩ | ⟨htable, -⟩ | ⟨htable, -⟩ |
      ⟨column, p, hp, hmem, hnames, hpgoes⟩
    · exact absurd htable hdeleted
    · exact absurd htable hhubs
    · exact absurd htable hmembers
    · obtain ⟨hspared, hkey⟩ := hwith _ hmem
      have hhangs : hangs r p = true := hangs_iff.mpr ⟨_, hkey, rfl, rfl, hnames⟩
      rcases goesWith_kinds r.table _ hmem with hs | ⟨ha, hm, -⟩
      · exact absurd hs hspared
      · exact ⟨p, hp, hhangs, (goes_iff_belongs hp ⟨hspared, ha, hm⟩).mp hpgoes⟩
  · rintro ⟨p, hp, hhangs, hbelongs⟩
    obtain ⟨fk, hfk, hcascade, htarget, hnames⟩ := hangs_iff.mp hhangs
    have hmem : (fk.column, p.table) ∈ goesWith r.table :=
      htarget ▸ mem_goesWith_of_key hfk hcascade
    have hspared := (hwith _ hmem).1
    rcases goesWith_kinds r.table _ hmem with hs | ⟨ha, -, -⟩
    · exact absurd hs hspared
    · exact .parent hmem hp hnames (goes_of_belongs hp hspared ha hbelongs)

/-- **A row is of one hub only**, unless it joins two others. -/
theorem belongs_unique (hjoined : r.table ∉ joined) (h : Belongs db.rows hub r)
    (hother : Belongs db.rows other r) : other = hub := by
  induction h with
  | hubId hhas hhub =>
    exact Option.some.inj (((belongs_iff_hubId hhas).mp hother).symm.trans hhub)
  | itself htable hkey => exact ((belongs_hub_iff htable).mp hother).symm.trans hkey
  | @owner r p column howner hp hnames _ ih =>
    obtain ⟨hone, hpjoined⟩ := owners_kinds r.table hjoined _ howner
    obtain ⟨c, q, hq, hmem, hqnames, hqother⟩ :=
      (belongs_iff_owner (by rw [hone]; simp)).mp hother
    rw [hone, List.mem_singleton, Prod.mk.injEq] at hmem
    obtain ⟨rfl, htable⟩ := hmem
    have hkey : q.key = p.key := Option.some.inj (hqnames.symm.trans hnames)
    exact ih hpjoined (db.intact.keys q hq p hp htable hkey ▸ hqother)

/-! ## The hub, once it is purged -/

/-- **The hub is purged, and nothing else.** What is of a hub is what was, before the rows that it
is part of have gone. -/
structure Purged (hub : String) (db : Database) : Prop where
  gone : ∀ r ∈ (afterPurge hub db).rows, ¬ Belongs db.rows hub r
  others : ∀ other, other ≠ hub → ∀ r ∈ db.rows, Belongs db.rows other r →
    r ∈ (afterPurge hub db).rows
  roles : ∀ u ∈ db.users, u.roles ≠ [] → ∃ u' ∈ (afterPurge hub db).users,
    u'.pubkey = u.pubkey ∧ u'.roles = u.roles
  hubRoles : ∀ u ∈ db.users, ∀ role ∈ u.hubRoles, role.hubId ≠ hub →
    ∃ u' ∈ (afterPurge hub db).users, u'.pubkey = u.pubkey ∧ role ∈ u'.hubRoles
  left : ∀ u ∈ (afterPurge hub db).users, ∀ role ∈ u.hubRoles, role.hubId ≠ hub

/-- **The databases in which a hub can be purged**: it has no rows in the tables that are spared,
what is assigned is of the hub of what it names, what joins two is of one hub, and the users of the
hub alone have nothing elsewhere. -/
structure Clean (hub : String) (db : Database) : Prop where
  spared : ∀ r ∈ db.rows, r.table ∈ spared → ¬ Belongs db.rows hub r
  assigned : ∀ r ∈ db.rows, r.table ∈ assigned → ∀ other, r.get .hubId = some other →
    (other = hub ↔ ∃ p ∈ db.rows, hangs r p = true ∧ Belongs db.rows hub p)
  joined : ∀ r ∈ db.rows, r.table ∈ joined → Belongs db.rows hub r →
    ∀ other, Belongs db.rows other r → other = hub
  roles : ∀ u ∈ db.users, u.exclusive hub = true → u.roles = []
  members : ∀ u ∈ db.users, u.exclusive hub = true → ∀ r ∈ db.rows, r.table = .teamMembers →
    r.get .userPubkey = some u.pubkey → ∀ other, Belongs db.rows other r → other = hub

theorem afterPurge_of_some (h : purgeHub hub db = some tx) : afterPurge hub db = tx := by
  rw [afterPurge, h, Option.getD_some]

theorem afterPurge_of_none (h : purgeHub hub db = none) :
    afterPurge hub db = ⟨db.users, db.rows, fun _ => []⟩ := by
  rw [afterPurge, h, Option.getD_none]

/-- The rows of the tables that are spared are there, whether the transaction fails or not. -/
theorem mem_afterPurge_of_spared (hr : r ∈ db.rows) (h : r.table ∈ spared) :
    r ∈ (afterPurge hub db).rows := by
  cases hpurge : purgeHub hub db with
  | none => rwa [afterPurge_of_none hpurge]
  | some tx =>
    rw [afterPurge_of_some hpurge]
    exact (mem_purgeHub hpurge).mpr ⟨hr, not_goes_of_spared h⟩

/-- The transaction goes through, where the hub has no files. -/
theorem purgeHub_of_spared (h : ∀ r ∈ db.rows, r.table ∈ spared → ¬ Belongs db.rows hub r) :
    ∃ tx, purgeHub hub db = some tx := by
  refine Option.ne_none_iff_exists'.mp fun hnone => ?_
  obtain ⟨r, hr, p, hp, hfiles, hconversations, hnames, hhub⟩ := file_of_purgeHub_eq_none hnone
  have howner : (Column.conversationId, p.table) ∈ owners r.table := by
    rw [hfiles, hconversations]
    decide
  have hbelongs : Belongs db.rows hub p := .hubId (by rw [hconversations]; decide) hhub
  exact h r hr (by rw [hfiles]; decide) (.owner howner hp hnames hbelongs)

/-- The users that are left are those before that are not the hub's alone. -/
theorem mem_users_purgeHub (h : purgeHub hub db = some tx) :
    u ∈ tx.users ↔ ∃ v ∈ db.users, v.exclusive hub = false ∧ v.leaveHub hub = u := by
  rw [users_purgeHub h]
  simp [and_assoc]

/-- A user with a role in another hub is not the hub's alone. -/
theorem not_exclusive_of_other {role : HubRole} (h : role ∈ u.hubRoles)
    (hother : role.hubId ≠ hub) : u.exclusive hub = false := by
  have hsome : u.hubRoles.countP (·.hubId ≠ hub) ≠ 0 := fun hnone => by
    have hfalse := List.countP_eq_zero.mp hnone role h
    exact hfalse (decide_eq_true hother)
  simp only [User.exclusive, decide_eq_false hsome, Bool.and_false, Bool.false_and]

theorem purged_of_clean (h : Clean hub db) : Purged hub db := by
  obtain ⟨tx, hpurge⟩ := purgeHub_of_spared h.spared
  have hafter := afterPurge_of_some hpurge
  constructor
  case gone =>
    intro r hr hbelongs
    rw [hafter] at hr
    obtain ⟨hr, hstays⟩ := (mem_purgeHub hpurge).mp hr
    by_cases hassigned : r.table ∈ assigned
    · have hhub := (belongs_iff_hubId (assigned_kinds _ hassigned).1.1).mp hbelongs
      have hparent := (h.assigned r hr hassigned hub hhub).mp rfl
      exact hstays ((goes_iff_of_assigned hassigned).mpr hparent)
    · exact hstays (goes_of_belongs hr (fun hs => h.spared r hr hs hbelongs) hassigned hbelongs)
  case others =>
    intro other hne r hr hbelongs
    rw [hafter]
    refine (mem_purgeHub hpurge).mpr ⟨hr, fun hgoes => hne ?_⟩
    by_cases hassigned : r.table ∈ assigned
    · have hhub := (belongs_iff_hubId (assigned_kinds _ hassigned).1.1).mp hbelongs
      exact (h.assigned r hr hassigned other hhub).mpr ((goes_iff_of_assigned hassigned).mp hgoes)
    · rcases belongs_of_goes hassigned hgoes with hhub | ⟨htable, u, hu, hexclusive, hpubkey⟩
      · by_cases hjoined : r.table ∈ joined
        · exact h.joined r hr hjoined hhub other hbelongs
        · exact belongs_unique hjoined hhub hbelongs
      · exact h.members u hu hexclusive r hr htable hpubkey other hbelongs
  case roles =>
    intro u hu hroles
    rw [hafter]
    have hstays : u.exclusive hub = false := by
      rw [← Bool.not_eq_true]
      exact fun hexclusive => hroles (h.roles u hu hexclusive)
    exact ⟨u.leaveHub hub, (mem_users_purgeHub hpurge).mpr ⟨u, hu, hstays, rfl⟩, by simp⟩
  case hubRoles =>
    intro u hu role hrole hother
    rw [hafter]
    have hstays := not_exclusive_of_other hrole hother
    exact ⟨u.leaveHub hub, (mem_users_purgeHub hpurge).mpr ⟨u, hu, hstays, rfl⟩, leaveHub_pubkey,
      mem_leaveHub.mpr ⟨hrole, hother⟩⟩
  case left =>
    intro u hu role hrole
    rw [hafter] at hu
    obtain ⟨v, -, -, rfl⟩ := (mem_users_purgeHub hpurge).mp hu
    exact (mem_leaveHub.mp hrole).2

theorem clean_of_purged (h : Purged hub db) : Clean hub db := by
  have hspared : ∀ r ∈ db.rows, r.table ∈ spared → ¬ Belongs db.rows hub r := fun r hr hs =>
    h.gone r (mem_afterPurge_of_spared hr hs)
  obtain ⟨tx, hpurge⟩ := purgeHub_of_spared hspared
  obtain ⟨hgone, hothers, hroles, -, -⟩ := h
  rw [afterPurge_of_some hpurge] at hgone hothers hroles
  have hgoes : ∀ r ∈ db.rows, Belongs db.rows hub r → Goes hub db r := by
    intro r hr hbelongs
    by_contra hstays
    exact hgone r ((mem_purgeHub hpurge).mpr ⟨hr, hstays⟩) hbelongs
  have honly : ∀ r ∈ db.rows, Goes hub db r → ∀ other, Belongs db.rows other r → other = hub := by
    intro r hr hgoes other hbelongs
    by_contra hne
    exact ((mem_purgeHub hpurge).mp (hothers other hne r hr hbelongs)).2 hgoes
  constructor
  case spared => exact hspared
  case assigned =>
    intro r hr htable other hother
    have hbelongs : Belongs db.rows other r := .hubId (assigned_kinds _ htable).1.1 hother
    rw [← goes_iff_of_assigned htable]
    constructor
    · rintro rfl
      exact hgoes r hr hbelongs
    · exact fun hgoes => honly r hr hgoes other hbelongs
  case joined => exact fun r hr _ hbelongs => honly r hr (hgoes r hr hbelongs)
  case roles =>
    intro u hu hexclusive
    by_contra hne
    obtain ⟨u', hu', hpubkey, -⟩ := hroles u hu hne
    obtain ⟨v, hv, hstays, rfl⟩ := (mem_users_purgeHub hpurge).mp hu'
    -- one user has the key
    rw [leaveHub_pubkey] at hpubkey
    obtain rfl := List.inj_on_of_nodup_map db.intact.users hv hu hpubkey
    rw [hstays] at hexclusive
    cases hexclusive
  case members =>
    exact fun u hu hexclusive r hr htable hpubkey => honly r hr (.user htable hu hexclusive hpubkey)

/-- **The hub's rows are gone, and those of the other hubs and the users' roles are there**, exactly
in the databases that are clean of what `purgeHub` leaves out, or takes along. -/
theorem purgeHub_iff (db : Database) (hub : String) : Purged hub db ↔ Clean hub db :=
  ⟨clean_of_purged, purged_of_clean⟩

/-- A hub with a note, a reply to it, and a ring group. -/
def ringing : Database where
  users := [⟨"ana", ["role-volunteer"], [⟨"north", ["role-hub-admin"]⟩, ⟨"south", []⟩]⟩]
  rows := [⟨.hubs, "north", []⟩, ⟨.notes, "note", [(.hubId, "north")]⟩,
    ⟨.noteReplies, "reply", [(.noteId, "note")]⟩, ⟨.ringGroups, "night", [(.hubId, "north")]⟩]
  intact :=
    { users := by decide
      keys := by decide
      references := by simp [foreignKeys, Row.get] }

/-- The ring group is left, without a hub. -/
theorem ring_group_left : ¬ Purged "north" ringing := by
  intro h
  have hstays : ⟨.ringGroups, "night", [(.hubId, "north")]⟩ ∈ (afterPurge "north" ringing).rows :=
    mem_afterPurge_of_spared (by decide) (by decide)
  exact h.gone _ hstays (.hubId rfl rfl)

example : (purgeHub "north" ringing).map (fun tx => (tx.users, tx.rows.map Row.key)) =
    some ([⟨"ana", ["role-volunteer"], [⟨"south", []⟩]⟩], ["night"]) := by decide +kernel

end Llamenos.Worker.Settings.PurgeHub
