import Llamenos.Lib.Locking
import Llamenos.Lib.Runs
import Llamenos.Lib.Upserts
import Llamenos.Shared.Permissions
import Llamenos.Worker.Auth

/-!
# Users and invites

The operations of `apps/worker/services/identity.ts` that write the rows of `users` and
`invite_codes`, with the demo accounts of `lib/demo-identities.ts`. An operation of one statement is
one event. `bootstrapAdmin` is a read and then an insert. `setHubRole`, `removeHubRole` and
`redeemInvite` are transactions: they lock the rows that they go on to write, their writes come
with the commit, and a statement that meets another's lock waits.

What the database draws, the clocks, and whether a call fails are arguments of the events. The keys
of the demo identities are drawn anew at each boot, so none of them is the one that the server is
configured with.

Results:
* `mem_putHubRole`, `mem_mergeHubRole`: a merged grant takes no role away.
-/

namespace Llamenos.Worker.Users

open Llamenos.Lib Llamenos.Lib.Locking Llamenos.Shared.Permissions Llamenos.Worker.Auth

/-! ## Rows -/

/-- A row of `users`. -/
structure UserRow where
  pubkey : String
  displayName : Option String := none
  phone : Option String := none
  roles : List String := ["role-volunteer"]
  hubRoles : List HubRole := []
  active : Bool := true
  encryptedSecretKey : String := ""
  transcriptionEnabled : Bool := true
  spokenLanguages : List String := []
  uiLanguage : String := ""
  profileCompleted : Bool := false
  onBreak : Bool := false
  callPreference : String := ""
  supportedMessagingChannels : List String := []
  messagingEnabled : Option Bool := none
  specializations : List String := []
  maxCaseAssignments : Option Nat := none
  teamId : Option String := none
  supervisorPubkey : Option String := none
  createdAt : Int
  updatedAt : Int
  deriving DecidableEq

/-- A row of `invite_codes`. -/
structure InviteRow where
  code : String
  name : String
  phone : String
  roleIds : List String
  createdBy : Option String
  hubId : Option String
  createdAt : Int
  expiresAt : Int
  usedAt : Option Int := none
  usedBy : Option String := none
  deriving DecidableEq

/-- A `ServiceError`, or an error of the database. -/
inductive UserError where
  | service (status : Nat) (message : String)
  | database
  deriving DecidableEq

def superAdmin : String := "role-super-admin"

/-! ## The demo cast -/

/-- An account of `DEMO_ACCOUNTS`. -/
structure DemoAccount where
  name : String
  roleIds : List String
  pubkey : String
  phone : String
  spokenLanguages : List String
  deriving DecidableEq

structure DemoIdentity extends DemoAccount where
  seedHex : String
  listedPubkey : String
  deriving DecidableEq

def demoAccounts : List DemoAccount :=
  [{ name := "Demo Admin", roleIds := ["role-super-admin"],
     pubkey := "9bfc4116dc9d579cc0f88d58af7bef098f8bc31a16e053deb1de4525b79fe9da",
     phone := "+15551000001", spokenLanguages := ["en", "es"] },
   { name := "Maria Santos", roleIds := ["role-volunteer"],
     pubkey := "31fd9a5f6f04d11a08e85f9ab2c8cfd3b1ea4ccf5a798c55e323ff924bc59f90",
     phone := "+15551000002", spokenLanguages := ["en", "es", "pt"] },
   { name := "James Chen", roleIds := ["role-volunteer"],
     pubkey := "783f763464dfbdb4a5853f5a27a53a68827dfa7bf8b95418b253cc55f3e4b947",
     phone := "+15551000003", spokenLanguages := ["en", "zh"] },
   { name := "Fatima Al-Rashid", roleIds := ["role-volunteer"],
     pubkey := "4ea8b293d9aaf2c06ab4902b7b8b0d515f00cf4f37728c268b70a7e0c1f20533",
     phone := "+15551000004", spokenLanguages := ["en", "ar"] },
   { name := "Community Reporter", roleIds := ["role-reporter"],
     pubkey := "8bd8335c35a2966fd58ee7a7a7508a8b5c4844b0103c946ddfe1cd4381259e06",
     phone := "+15551000005", spokenLanguages := ["en"] }]

/-- `demoIdentities`, of the seeds that the server has drawn. -/
def demoIdentities (pubkeyFromSeed : String → String) (seeds : Nat → String) : List DemoIdentity :=
  demoAccounts.mapIdx fun i account =>
    { account with pubkey := pubkeyFromSeed (seeds i), seedHex := seeds i,
                   listedPubkey := account.pubkey }

/-- An installation: the configured platform admin, Ed25519, and the seeds that are drawn at each
boot. The key of a drawn seed is a new one. -/
structure Server where
  adminPubkey : String
  pubkeyFromSeed : String → String
  seeds : Nat → Nat → String
  configured : adminPubkey ≠ ""
  drawn : ∀ boot i, pubkeyFromSeed (seeds boot i) ≠ adminPubkey

def Server.identities (server : Server) (boot : Nat) : List DemoIdentity :=
  demoIdentities server.pubkeyFromSeed (server.seeds boot)

/-- A configured admin, and the key of the seed of zeros for each of the demo cast. -/
def sampleServer : Server where
  adminPubkey := "8a88e3dd7409f195fd52db2d3cba5d72ca6709bf1d94121bf3748801b40f6f5c"
  pubkeyFromSeed := fun _ => "3b6a27bcceb6a42d62a3a8d02a6f0d73653215771de243a63ac048a18b59da29"
  seeds := fun _ _ => "0000000000000000000000000000000000000000000000000000000000000000"
  configured := by decide
  drawn := fun _ _ => by decide

/-! ## Operations of one statement -/

/-- `enforceAdminRoles`. -/
def enforceAdminRoles (server : Server) (pubkey : String) (roles : List String) : List String :=
  if pubkey ≠ server.adminPubkey then roles
  else if superAdmin ∈ roles then roles
  else [superAdmin]

/-- `hasAdmin`. -/
def hasAdmin (users : List UserRow) : Bool :=
  users.any fun row => row.active && superAdmin ∈ row.roles

/-- `platformAdminRow`. -/
def platformAdminRow (pubkey : String) (now : Int) : UserRow where
  pubkey := pubkey
  displayName := some "Admin"
  phone := some ""
  roles := [superAdmin]
  spokenLanguages := ["en", "es"]
  uiLanguage := "en"
  profileCompleted := true
  callPreference := "phone"
  createdAt := now
  updatedAt := now

/-- `set: { roles: ['role-super-admin'], active: true }`. -/
def restored (old _new : UserRow) : UserRow := { old with roles := [superAdmin], active := true }

/-- The insert of `bootstrapAdmin`. -/
def insertAdmin (users : List UserRow) (pubkey : String) (now : Int) : List UserRow :=
  Upserts.upsert UserRow.pubkey restored users
    { platformAdminRow pubkey now with profileCompleted := false }

/-- `ensureInit`. An empty key is none. -/
def ensureInit (users : List UserRow) (adminPubkey : String) (now : Int) : List UserRow :=
  if adminPubkey = "" then users
  else Upserts.upsert UserRow.pubkey restored users (platformAdminRow adminPubkey now)

/-- `array_append`, where the roles lack it. -/
def appended (now : Int) (old _new : UserRow) : UserRow :=
  if superAdmin ∈ old.roles then old
  else { old with roles := old.roles ++ [superAdmin], updatedAt := now }

/-- `ensurePlatformAdmin`. -/
def ensurePlatformAdmin (server : Server) (users : List UserRow) (now : Int) : List UserRow :=
  Upserts.upsert UserRow.pubkey (appended now) users (platformAdminRow server.adminPubkey now)

/-- `onConflictDoNothing`. -/
def insertUser (users : List UserRow) (new : UserRow) : List UserRow :=
  if ∃ row ∈ users, row.pubkey = new.pubkey then users else users ++ [new]

/-- What `ensureDemoAccounts` inserts for an identity. -/
def demoRow (account : DemoIdentity) (now : Int) : UserRow where
  pubkey := account.pubkey
  displayName := some account.name
  phone := some account.phone
  roles := account.roleIds
  active := account.name ≠ "Fatima Al-Rashid"
  spokenLanguages := account.spokenLanguages
  uiLanguage := "en"
  profileCompleted := true
  callPreference := "phone"
  createdAt := now
  updatedAt := now

/-- What `createUser` is given. -/
structure NewUser where
  pubkey : String
  name : String
  phone : String
  roleIds : Option (List String) := none
  roles : Option (List String) := none
  encryptedSecretKey : String := ""
  specializations : Option (List String) := none
  maxCaseAssignments : Option Nat := none
  supervisorPubkey : Option String := none
  hubId : Option String := none

def newUserRow (server : Server) (data : NewUser) (now : Int) : UserRow :=
  let roles := enforceAdminRoles server data.pubkey
    (data.roleIds.getD (data.roles.getD ["role-volunteer"]))
  { pubkey := data.pubkey, displayName := some data.name, phone := some data.phone, roles
    hubRoles := (data.hubId.filter (· ≠ "")).elim [] fun hubId => [{ hubId, roleIds := roles }]
    encryptedSecretKey := data.encryptedSecretKey, spokenLanguages := ["en"], uiLanguage := "en"
    callPreference := "phone", specializations := data.specializations.getD []
    maxCaseAssignments := data.maxCaseAssignments, supervisorPubkey := data.supervisorPubkey
    createdAt := now, updatedAt := now }

/-- `createUser`. -/
def createUser (server : Server) (users : List UserRow) (data : NewUser) (now : Int) :
    List UserRow × Except UserError UserRow :=
  if isRevokedSigningKey data.pubkey then
    (users, .error (.service 400 "This signing key is revoked"))
  else if ∃ row ∈ users, row.pubkey = data.pubkey then (users, .error .database)
  else (users ++ [newUserRow server data now], .ok (newUserRow server data now))

/-- The fields of `updateUser`'s `Partial<User>`. -/
structure UserPatch where
  name : Option String := none
  phone : Option String := none
  roles : Option (List String) := none
  active : Option Bool := none
  encryptedSecretKey : Option String := none
  transcriptionEnabled : Option Bool := none
  spokenLanguages : Option (List String) := none
  uiLanguage : Option String := none
  profileCompleted : Option Bool := none
  onBreak : Option Bool := none
  callPreference : Option String := none
  hubRoles : Option (List HubRole) := none
  supportedMessagingChannels : Option (List String) := none
  messagingEnabled : Option Bool := none
  specializations : Option (List String) := none
  maxCaseAssignments : Option Nat := none
  teamId : Option String := none
  supervisorPubkey : Option String := none

/-- The fields that are in `VOLUNTEER_SAFE_FIELDS`. -/
def UserPatch.safe (data : UserPatch) : UserPatch where
  name := data.name
  phone := data.phone
  spokenLanguages := data.spokenLanguages
  uiLanguage := data.uiLanguage
  profileCompleted := data.profileCompleted
  transcriptionEnabled := data.transcriptionEnabled
  onBreak := data.onBreak
  callPreference := data.callPreference
  specializations := data.specializations

/-- `applyField`, for every field there is. -/
def UserPatch.apply (data : UserPatch) (server : Server) (now : Int) (row : UserRow) : UserRow :=
  { row with
    displayName := (data.name.map some).getD row.displayName
    phone := (data.phone.map some).getD row.phone
    roles := (data.roles.map (enforceAdminRoles server row.pubkey)).getD row.roles
    active := data.active.getD row.active
    encryptedSecretKey := data.encryptedSecretKey.getD row.encryptedSecretKey
    transcriptionEnabled := data.transcriptionEnabled.getD row.transcriptionEnabled
    spokenLanguages := data.spokenLanguages.getD row.spokenLanguages
    uiLanguage := data.uiLanguage.getD row.uiLanguage
    profileCompleted := data.profileCompleted.getD row.profileCompleted
    onBreak := data.onBreak.getD row.onBreak
    callPreference := data.callPreference.getD row.callPreference
    hubRoles := data.hubRoles.getD row.hubRoles
    supportedMessagingChannels :=
      data.supportedMessagingChannels.getD row.supportedMessagingChannels
    messagingEnabled := data.messagingEnabled.or row.messagingEnabled
    specializations := data.specializations.getD row.specializations
    maxCaseAssignments := data.maxCaseAssignments.or row.maxCaseAssignments
    teamId := data.teamId.or row.teamId
    supervisorPubkey := data.supervisorPubkey.or row.supervisorPubkey
    updatedAt := now }

/-- `update(users).set(...).where(eq(users.pubkey, pubkey))`. -/
def updateRow (users : List UserRow) (pubkey : String) (set : UserRow → UserRow) : List UserRow :=
  users.map fun row => if row.pubkey = pubkey then set row else row

def userOf (users : List UserRow) (pubkey : String) : Option UserRow :=
  users.find? fun row => row.pubkey = pubkey

/-- `updateUser`. -/
def updateUser (server : Server) (users : List UserRow) (pubkey : String) (data : UserPatch)
    (isAdmin : Bool) (now : Int) : List UserRow × Except UserError UserRow :=
  if data.active.isSome && !isAdmin then
    (users, .error (.service 403 "Only admins can change user active status"))
  else
    let set := (if isAdmin then data else data.safe).apply server now
    match userOf users pubkey with
    | none => (users, .error (.service 404 "Not found"))
    | some row => (updateRow users pubkey set, .ok (set row))

/-- `deleteUser`. -/
def deleteUser (users : List UserRow) (pubkey : String) : List UserRow :=
  users.filter fun row => row.pubkey ≠ pubkey

/-! ## Hub roles -/

/-- The entry for the hub has its roles set, or a new one is pushed. -/
def putHubRole (hubId : String) (set : List String → List String) (new : List String) :
    List HubRole → List HubRole
  | [] => [{ hubId, roleIds := new }]
  | hr :: rest =>
    if hr.hubId = hubId then { hr with roleIds := set hr.roleIds } :: rest
    else hr :: putHubRole hubId set new rest

/-- `mergeHubRole`. A `Set` keeps the first of its equals. -/
def mergeHubRole (hubRoles : List HubRole) (hubId : String) (roleIds : List String) :
    List HubRole :=
  putHubRole hubId (fun old => (old ++ roleIds).eraseDups) roleIds hubRoles

/-- What `setHubRole` and `removeHubRole` do to the hub roles. -/
inductive HubRoleChange where
  | set (hubId : String) (roleIds : List String)
  | remove (hubId : String)

def HubRoleChange.apply : HubRoleChange → List HubRole → List HubRole
  | .set hubId roleIds, hubRoles => putHubRole hubId (fun _ => roleIds) roleIds hubRoles
  | .remove hubId, hubRoles => hubRoles.filter fun hr => hr.hubId ≠ hubId

/-- The user has the role in the hub. -/
def HasHubRole (row : UserRow) (hubId role : String) : Prop :=
  ∃ hr ∈ row.hubRoles, hr.hubId = hubId ∧ role ∈ hr.roleIds

/-- A change of the hub's roles that takes none away takes none away from any. -/
theorem mem_putHubRole (hubId : String) {set : List String → List String}
    (hset : ∀ old, ∀ role ∈ old, role ∈ set old) (new : List String) {hubRoles : List HubRole}
    {hr : HubRole} (h : hr ∈ hubRoles) : ∃ hr' ∈ putHubRole hubId set new hubRoles,
      hr'.hubId = hr.hubId ∧ ∀ role ∈ hr.roleIds, role ∈ hr'.roleIds := by
  induction hubRoles with
  | nil => cases h
  | cons first rest ih =>
    unfold putHubRole
    rcases List.mem_cons.mp h with rfl | hrest
    · split_ifs
      · exact ⟨_, List.mem_cons_self, rfl, hset hr.roleIds⟩
      · exact ⟨hr, List.mem_cons_self, rfl, fun _ => id⟩
    · split_ifs
      · exact ⟨hr, List.mem_cons_of_mem _ hrest, rfl, fun _ => id⟩
      · obtain ⟨hr', hmem, hkeep⟩ := ih hrest
        exact ⟨hr', List.mem_cons_of_mem _ hmem, hkeep⟩

/-- **A merged grant takes no role away.** -/
theorem mem_mergeHubRole {row : UserRow} {hub role : String} (h : HasHubRole row hub role)
    (hubId : String) (roleIds : List String) (now : Int) :
    HasHubRole { row with hubRoles := mergeHubRole row.hubRoles hubId roleIds, updatedAt := now }
      hub role := by
  obtain ⟨hr, hmem, hhub, hrole⟩ := h
  have hset : ∀ old, ∀ role ∈ old, role ∈ (old ++ roleIds).eraseDups := fun old role hold =>
    List.mem_eraseDups.mpr (List.mem_append_left roleIds hold)
  obtain ⟨hr', hmem', hhub', hkeep⟩ := mem_putHubRole hubId hset roleIds hmem
  exact ⟨hr', hmem', hhub'.trans hhub, hkeep role hrole⟩

/-! ## Invites -/

def INVITE_EXPIRY_MS : Int := 7 * 24 * 60 * 60 * 1000

/-- What `createInvite` is given. -/
structure NewInvite where
  name : String
  phone : String
  roleIds : List String
  hubId : Option String
  createdBy : String

def newInvite (data : NewInvite) (code : String) (now : Int) : InviteRow where
  code := code
  name := data.name
  phone := data.phone
  roleIds := data.roleIds
  hubId := data.hubId
  createdBy := some data.createdBy
  createdAt := now
  expiresAt := now + INVITE_EXPIRY_MS

/-- The `where` of the statement that claims an invite. -/
def Claimable (code : String) (databaseNow : Int) (invite : InviteRow) : Prop :=
  invite.code = code ∧ invite.usedAt = none ∧ invite.expiresAt > databaseNow

instance (code : String) (databaseNow : Int) : DecidablePred (Claimable code databaseNow) :=
  fun _ => inferInstanceAs (Decidable (_ ∧ _ ∧ _))

/-- The row of the code is the claimed one. -/
def replaceInvite (invites : List InviteRow) (invite : InviteRow) : List InviteRow :=
  invites.map fun row => if row.code = invite.code then invite else row

/-- A row of `hubs`. -/
structure Hub where
  id : String
  status : String

/-- `resolveSoleActiveHubId`. -/
def resolveSoleActiveHubId (hubs : List Hub) : Option String :=
  match hubs.filter fun hub => hub.status = "active" with
  | [hub] => some hub.id
  | _ => none

/-- The row of a new user who redeems the invite. -/
def redeemerRow (server : Server) (invite : InviteRow) (pubkey : String) (hubId : Option String)
    (now : Int) : UserRow where
  pubkey := pubkey
  displayName := some invite.name
  phone := some invite.phone
  roles := enforceAdminRoles server pubkey invite.roleIds
  hubRoles := hubId.elim [] fun hubId => [{ hubId, roleIds := invite.roleIds }]
  spokenLanguages := ["en"]
  uiLanguage := "en"
  callPreference := "phone"
  createdAt := now
  updatedAt := now

/-! ## Overlapping calls -/

/-- What a transaction goes on to write of `users`. -/
inductive UserWrite where
  | insert (row : UserRow)
  | hubRoles (pubkey : String) (hubRoles : List HubRole)
  deriving DecidableEq

/-- What the commit makes of the users. -/
def UserWrite.apply (users : List UserRow) (now : Int) : UserWrite → List UserRow
  | .insert row => users ++ [row]
  | .hubRoles pubkey changed =>
    updateRow users pubkey fun row => { row with hubRoles := changed, updatedAt := now }

/-- Where a call of several statements is. -/
inductive Call where
  | bootstrapping (pubkey : String)
  | changing (pubkey : String) (hubRoles : List HubRole)
  | claimed (invite : InviteRow) (pubkey : String)
  | resolved (invite : InviteRow) (pubkey : String) (hubId : Option String)
  | selected (invite : InviteRow) (pubkey : String) (hubId : Option String)
      (existing : Option UserRow)
  | written (invite : InviteRow) (pubkey : String) (write : UserWrite)
  | answered (result : Except UserError Unit)
  deriving DecidableEq

/-- A row that can be locked. -/
inductive Key where
  | invite (code : String)
  | user (pubkey : String)
  deriving DecidableEq

structure State where
  users : List UserRow
  invites : List InviteRow
  drawnCodes : List String
  locks : Locks Key
  calls : Nat → Option Call

inductive Event where
  | bootstrapAdmin (c : Nat) (pubkey : String)
  | insertAdmin (c : Nat) (now : Int)
  | ensureInit (adminPubkey : String) (now : Int)
  | ensurePlatformAdmin (now : Int)
  | ensureDemoAccount (boot : Nat) (account : DemoIdentity) (now : Int)
  | createUser (data : NewUser) (now : Int)
  | updateUser (pubkey : String) (data : UserPatch) (isAdmin : Bool) (now : Int)
  | deleteUser (pubkey : String)
  | changeHubRole (c : Nat) (pubkey : String) (change : HubRoleChange)
  | updateHubRoles (c : Nat) (now : Int)
  | createInvite (data : NewInvite) (code : String) (now : Int)
  | redeemInvite (c : Nat) (code pubkey : String) (now databaseNow : Int)
  | resolveHub (c : Nat) (hubs : List Hub)
  | selectUser (c : Nat)
  | writeUser (c : Nat) (now : Int)
  | commit (c : Nat) (now : Int)
  | fail (c : Nat)
  | revokeInvite (code : String)
  | validateInvite (code : String) (now : Int)

def State.goOn (s : State) (c : Nat) (call : Call) : State :=
  { s with calls := Function.update s.calls c (some call) }

/-- The call takes the row's lock. -/
def State.lock (s : State) (c : Nat) (k : Key) (call : Call) : State :=
  { s.goOn c call with locks := s.locks.take k c }

/-- The call ends, and its locks with it. -/
def State.finish (s : State) (c : Nat) (result : Except UserError Unit) : State :=
  { s.goOn c (.answered result) with locks := s.locks.release c }

/-- A statement that writes a user's row waits for the row's lock. -/
def State.write (s : State) (pubkey : String) (users : List UserRow) : Option State :=
  if s.locks (.user pubkey) = none then some { s with users } else none

/-- An insert waits for another of the same key, unless the user is there already. -/
def State.insert (s : State) (pubkey : String) (users : List UserRow) : Option State :=
  if ∃ row ∈ s.users, row.pubkey = pubkey then some s else s.write pubkey users

def conflict : UserError := .service 409 "A user with this key already exists"

/-- What `redeemInvite` writes, once it has looked for the user: or that it fails. -/
def redeemerWrite (server : Server) (invite : InviteRow) (pubkey : String)
    (hubId : Option String) (now : Int) : Option UserRow → Except UserError UserWrite
  | some existing =>
    match hubId.filter (· ≠ "") with
    | none => .error conflict
    | some hubId =>
      .ok (.hubRoles pubkey (mergeHubRole existing.hubRoles hubId invite.roleIds))
  | none => .ok (.insert (redeemerRow server invite pubkey (hubId.filter (· ≠ "")) now))

def step (server : Server) (s : State) : Event → Option State
  | .bootstrapAdmin c pubkey =>
    match s.calls c with
    | none =>
      if hasAdmin s.users then
        some (s.goOn c (.answered (.error (.service 403 "Admin already exists"))))
      else some (s.goOn c (.bootstrapping pubkey))
    | some _ => none
  | .insertAdmin c now =>
    match s.calls c with
    | some (.bootstrapping pubkey) =>
      (s.write pubkey (insertAdmin s.users pubkey now)).map (·.goOn c (.answered (.ok ())))
    | _ => none
  | .ensureInit adminPubkey now => s.write adminPubkey (ensureInit s.users adminPubkey now)
  | .ensurePlatformAdmin now =>
    s.write server.adminPubkey (ensurePlatformAdmin server s.users now)
  | .ensureDemoAccount boot account now =>
    if account ∈ server.identities boot then
      s.insert account.pubkey (insertUser s.users (demoRow account now))
    else none
  | .createUser data now => s.insert data.pubkey (createUser server s.users data now).1
  | .updateUser pubkey data isAdmin now =>
    s.write pubkey (updateUser server s.users pubkey data isAdmin now).1
  | .deleteUser pubkey => s.write pubkey (deleteUser s.users pubkey)
  | .changeHubRole c pubkey change =>
    match s.calls c with
    | none =>
      match userOf s.users pubkey with
      | none => some (s.goOn c (.answered (.error (.service 404 "User not found"))))
      | some row =>
        if s.locks (.user pubkey) = none then
          some (s.lock c (.user pubkey) (.changing pubkey (change.apply row.hubRoles)))
        else none
    | some _ => none
  | .updateHubRoles c now =>
    match s.calls c with
    | some (.changing pubkey hubRoles) =>
      some ({ s with users := UserWrite.apply s.users now (.hubRoles pubkey hubRoles) }.finish c
        (.ok ()))
    | _ => none
  | .createInvite data code now =>
    if code ∈ s.drawnCodes then none
    else some { s with
      invites := s.invites ++ [newInvite data code now], drawnCodes := code :: s.drawnCodes }
  | .redeemInvite c code pubkey now databaseNow =>
    match s.calls c with
    | none =>
      match s.invites.find? (Claimable code databaseNow) with
      | none => some (s.goOn c (.answered (.error
          (.service 400 "Invalid, expired, or already-used invite code"))))
      | some invite =>
        if s.locks (.invite code) = none then
          some (s.lock c (.invite code)
            (.claimed { invite with usedAt := some now, usedBy := some pubkey } pubkey))
        else none
    | some _ => none
  | .resolveHub c hubs =>
    match s.calls c with
    | some (.claimed invite pubkey) =>
      some (s.goOn c (.resolved invite pubkey (invite.hubId.or (resolveSoleActiveHubId hubs))))
    | _ => none
  | .selectUser c =>
    match s.calls c with
    | some (.resolved invite pubkey hubId) =>
      match userOf s.users pubkey with
      | none => some (s.goOn c (.selected invite pubkey hubId none))
      | some row =>
        if s.locks (.user pubkey) = none then
          some (s.lock c (.user pubkey) (.selected invite pubkey hubId (some row)))
        else none
    | _ => none
  | .writeUser c now =>
    match s.calls c with
    | some (.selected invite pubkey hubId existing) =>
      match redeemerWrite server invite pubkey hubId now existing with
      | .error e => some (s.finish c (.error e))
      | .ok (.hubRoles pubkey' hubRoles) =>
        some (s.goOn c (.written invite pubkey (.hubRoles pubkey' hubRoles)))
      | .ok (.insert row) =>
        if ∃ other ∈ s.users, other.pubkey = row.pubkey then some (s.finish c (.error conflict))
        -- another has inserted the user, and not committed yet
        else if s.locks (.user row.pubkey) = none then
          some (s.lock c (.user row.pubkey) (.written invite pubkey (.insert row)))
        else none
    | _ => none
  | .commit c now =>
    match s.calls c with
    | some (.written invite _ write) =>
      some ({ s with
        users := write.apply s.users now
        invites := replaceInvite s.invites invite }.finish c (.ok ()))
    | _ => none
  | .fail c =>
    match s.calls c with
    | none | some (.answered _) => none
    | some _ => some (s.finish c (.error .database))
  | .revokeInvite code =>
    if s.locks (.invite code) = none then
      some { s with invites := s.invites.filter fun invite => invite.code ≠ code }
    else none
  | .validateInvite _ _ => some s

def start : State := ⟨[], [], [], fun _ => none, fun _ => none⟩

end Llamenos.Worker.Users
