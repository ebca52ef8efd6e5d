import Llamenos.Lib.Cascades

/-!
# The tables that a hub has rows in

The tables with a column `hub_id`, those whose rows are part of another table's, and the foreign
keys between them. Of a row, what matters here is its key and the columns that name other rows. The
users are of no hub, and have roles in some.

Results:
* `belongs_iff_hubId`, `belongs_iff_owner`: of which hub a row is.
* `Database`: the rows, with their primary and foreign keys.
-/

namespace Llamenos.Worker.Settings.PurgeHub

open Llamenos.Lib Llamenos.Lib.Cascades

inductive Table where
  | hubs
  | a2pRegistrations | activeCalls | activeShifts | affinityGroups | auditLog | bans
  | blastDeliveries | blastSettings | blasts | callRecords | callTokens | caseContacts | caseEvents
  | caseInteractions | caseNumberSequences | caseRecords | contactIdentifiers | contactMetadata
  | contactRelationships | contactTeamAssignments | contacts | conversations | custodyEntries
  | entityTypeDefinitions | erasureConfig | eventOutbox | events | evidence | files
  | firehoseConnections | firehoseMessageBuffer | firehoseNotificationOptouts | firehoseWindowKeys
  | groupMembers | hubKeys | hubOnboardingState | hubRecoveryGroupShares | hubRecoveryGroups
  | hubSettings | hubStorageCredentials | hubStorageSettings | inviteCodes | messages
  | mlsPendingMessages | noteReplies | notes | oauthStates | providerConfigs | pushRemindersSent
  | reEncryptionJobs | recoverySessionContributions | recoverySessions | relationshipTypeDefinitions
  | reportCases | reportEvents | reportTypeDefinitions | retentionSettings | ringGroupMembers
  | ringGroups | shiftJoinRequests | shiftOverrides | shifts | signalIdentities
  | signalMessageQueue | signalRegistrations | subscribers | tags | teamMembers | teams
  | userAvailabilityBlocks | userRecoveryEnvelopes
  deriving DecidableEq

/-- The columns that name rows, or a hub. -/
inductive Column where
  | hubId | blastId | caseId | connectionId | contactId | conversationId | evidenceId | groupId
  | noteId | reportId | ringGroupId | sessionId | shiftId | subscriberId | teamId | userPubkey
  deriving DecidableEq

inductive OnDelete where
  | cascade
  | restrict
  | noAction
  deriving DecidableEq

structure ForeignKey where
  column : Column
  target : Table
  onDelete : OnDelete
  deriving DecidableEq

/-- The foreign keys of a table; that of `team_members` to `users` is apart. -/
def foreignKeys : Table → List ForeignKey
  | .a2pRegistrations | .hubKeys | .hubOnboardingState | .hubSettings | .hubStorageCredentials
  | .hubStorageSettings | .oauthStates | .providerConfigs | .signalIdentities
  | .signalMessageQueue | .signalRegistrations | .tags | .teams | .userRecoveryEnvelopes =>
    [⟨.hubId, .hubs, .cascade⟩]
  | .hubRecoveryGroupShares => [⟨.hubId, .hubRecoveryGroups, .cascade⟩]
  | .blastDeliveries => [⟨.blastId, .blasts, .cascade⟩, ⟨.subscriberId, .subscribers, .cascade⟩]
  | .contactTeamAssignments => [⟨.contactId, .contacts, .cascade⟩, ⟨.teamId, .teams, .cascade⟩]
  | .messages | .contactIdentifiers => [⟨.conversationId, .conversations, .cascade⟩]
  | .files => [⟨.conversationId, .conversations, .noAction⟩]
  | .firehoseMessageBuffer | .firehoseNotificationOptouts | .firehoseWindowKeys =>
    [⟨.connectionId, .firehoseConnections, .cascade⟩]
  | .noteReplies => [⟨.noteId, .notes, .cascade⟩]
  | .recoverySessionContributions => [⟨.sessionId, .recoverySessions, .cascade⟩]
  | .ringGroupMembers => [⟨.ringGroupId, .ringGroups, .cascade⟩]
  | .shiftOverrides | .shiftJoinRequests => [⟨.shiftId, .shifts, .cascade⟩]
  | .shifts => [⟨.ringGroupId, .ringGroups, .restrict⟩]
  | .teamMembers => [⟨.teamId, .teams, .cascade⟩]
  | _ => []

/-- What the rows of a table without a `hub_id` are part of. -/
def owners : Table → List (Column × Table)
  | .blastDeliveries => [(.blastId, .blasts), (.subscriberId, .subscribers)]
  | .caseContacts | .caseEvents | .caseInteractions | .evidence => [(.caseId, .caseRecords)]
  | .custodyEntries => [(.evidenceId, .evidence)]
  | .reportEvents => [(.reportId, .caseRecords)]
  | .reportCases => [(.reportId, .caseRecords), (.caseId, .caseRecords)]
  | .contactIdentifiers | .files | .messages => [(.conversationId, .conversations)]
  | .firehoseMessageBuffer | .firehoseNotificationOptouts | .firehoseWindowKeys =>
    [(.connectionId, .firehoseConnections)]
  | .groupMembers => [(.groupId, .affinityGroups)]
  | .noteReplies => [(.noteId, .notes)]
  | .pushRemindersSent => [(.shiftId, .shifts)]
  | .recoverySessionContributions => [(.sessionId, .recoverySessions)]
  | .ringGroupMembers => [(.ringGroupId, .ringGroups)]
  | .teamMembers => [(.teamId, .teams)]
  | _ => []

/-- The table has a column `hub_id`. -/
def hasHubId (t : Table) : Bool := t ≠ .hubs && (owners t).isEmpty

/-- `key` is the primary key, as a text; a column that is null is not there. -/
structure Row where
  table : Table
  key : String
  columns : List (Column × String)
  deriving DecidableEq

def Row.get (r : Row) (column : Column) : Option String := r.columns.lookup column

/-- A column of the row names the other one. -/
def Row.names (r : Row) (column : Column) (p : Row) : Prop := r.get column = some p.key

structure HubRole where
  hubId : String
  roleIds : List String
  deriving DecidableEq

structure User where
  pubkey : String
  roles : List String
  hubRoles : List HubRole
  deriving DecidableEq

/-- The row names the other one in a foreign key of this kind. -/
def refers (kind : OnDelete → Bool) (r p : Row) : Bool :=
  (foreignKeys r.table).any fun fk =>
    kind fk.onDelete && fk.target = p.table && r.get fk.column = some p.key

/-- The row goes with the other one. -/
def hangs : Row → Row → Bool := refers (· = .cascade)

/-- The other row cannot go before this one. -/
def blocks : Row → Row → Bool := refers (· ≠ .cascade)

/-- The rows have their own keys, and a foreign key names a row that is there. -/
structure Intact (users : List User) (rows : List Row) : Prop where
  users : (users.map User.pubkey).Nodup
  keys : ∀ r ∈ rows, ∀ p ∈ rows, r.table = p.table → r.key = p.key → r = p
  references : ∀ r ∈ rows, ∀ fk ∈ foreignKeys r.table, ∀ k, r.get fk.column = some k →
    ∃ p ∈ rows, p.table = fk.target ∧ p.key = k

structure Database where
  users : List User
  rows : List Row
  intact : Intact users rows

/-- **The hub that a row is of**: the one that it names, or that of a row it is part of. -/
inductive Belongs (rows : List Row) (hub : String) : Row → Prop
  | hubId {r : Row} : hasHubId r.table = true → r.get .hubId = some hub → Belongs rows hub r
  | itself {r : Row} : r.table = .hubs → r.key = hub → Belongs rows hub r
  | owner {r p : Row} {column : Column} : (column, p.table) ∈ owners r.table → p ∈ rows →
      r.names column p → Belongs rows hub p → Belongs rows hub r

variable {rows : List Row} {hub : String} {r p : Row}

theorem hangs_iff : hangs r p = true ↔
    ∃ fk ∈ foreignKeys r.table, fk.onDelete = .cascade ∧ fk.target = p.table ∧
      r.names fk.column p := by
  simp [hangs, refers, Row.names, and_assoc]

theorem blocks_iff : blocks r p = true ↔
    ∃ fk ∈ foreignKeys r.table, fk.onDelete ≠ .cascade ∧ fk.target = p.table ∧
      r.names fk.column p := by
  simp [blocks, refers, Row.names, and_assoc]

/-- A row of a table with the column is of the hub that it names. -/
theorem belongs_iff_hubId (h : hasHubId r.table = true) :
    Belongs rows hub r ↔ r.get .hubId = some hub := by
  have hne : r.table ≠ .hubs ∧ owners r.table = [] := by
    simpa [hasHubId] using h
  constructor
  · rintro (⟨-, hhub⟩ | ⟨htable, -⟩ | ⟨howner, -⟩)
    · exact hhub
    · exact absurd htable hne.1
    · rw [hne.2] at howner
      cases howner
  · exact .hubId h

theorem belongs_hub_iff (h : r.table = .hubs) : Belongs rows hub r ↔ r.key = hub := by
  constructor
  · rintro (⟨hhas, -⟩ | ⟨-, hkey⟩ | ⟨howner, -⟩)
    · rw [h] at hhas
      cases hhas
    · exact hkey
    · rw [h] at howner
      cases howner
  · exact .itself h

/-- A row of a table without the column is of the hubs of what it is part of. -/
theorem belongs_iff_owner (h : owners r.table ≠ []) :
    Belongs rows hub r ↔ ∃ column, ∃ p ∈ rows, (column, p.table) ∈ owners r.table ∧
      r.names column p ∧ Belongs rows hub p := by
  constructor
  · rintro (⟨hhas, -⟩ | ⟨htable, -⟩ | ⟨howner, hp, hnames, hbelongs⟩)
    · refine absurd ?_ h
      simpa [hasHubId] using (Bool.and_eq_true_iff.mp hhas).2
    · rw [htable] at h
      exact absurd rfl h
    · exact ⟨_, _, hp, howner, hnames, hbelongs⟩
  · rintro ⟨column, p, hp, howner, hnames, hbelongs⟩
    exact .owner howner hp hnames hbelongs

end Llamenos.Worker.Settings.PurgeHub
