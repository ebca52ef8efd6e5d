import Llamenos.Worker.Users.Calls

/-!
# The platform admin

Every write of a user's roles keeps role-super-admin for the configured key: `createUser`,
`updateUser` and `redeemInvite` through `enforceAdminRoles`, the others by what they set. A row that
`redeemInvite` is about to insert holds it before its commit does.

`bootstrapAdmin` looks for an admin in one statement and inserts one in another.

Results:
* `admin_stays`: the configured admin is one, in every state a run comes to.
* `one_bootstrap_iff`: exactly when at most one `bootstrapAdmin` call makes its caller the admin.
-/

namespace Llamenos.Worker.Users

open Llamenos.Lib Llamenos.Lib.Locking Llamenos.Shared.Permissions

/-! ## The configured admin -/

/-- A row of the configured key holds role-super-admin. -/
def AdminOk (server : Server) (row : UserRow) : Prop :=
  row.pubkey = server.adminPubkey → superAdmin ∈ row.roles

/-- Every row does, and every row that is about to be inserted. -/
structure AdminHolds (server : Server) (s : State) : Prop where
  users : ∀ row ∈ s.users, AdminOk server row
  inserts : ∀ c invite pubkey row, s.calls c = some (.written invite pubkey (.insert row)) →
    AdminOk server row

variable {server : Server} {s s' : State} {users : List UserRow}
variable {pubkey : String}

theorem mem_enforceAdminRoles (server : Server) (h : pubkey = server.adminPubkey)
    (roles : List String) : superAdmin ∈ enforceAdminRoles server pubkey roles := by
  unfold enforceAdminRoles
  rw [if_neg (not_not_intro h)]
  split_ifs with hmem
  · exact hmem
  · exact List.mem_singleton_self superAdmin

theorem platformAdminRow_roles (pubkey : String) (now : Int) :
    superAdmin ∈ (platformAdminRow pubkey now).roles :=
  List.mem_singleton_self superAdmin

theorem mem_appended (now : Int) (old new : UserRow) :
    superAdmin ∈ (appended now old new).roles := by
  unfold appended
  split_ifs with hmem
  · exact hmem
  · exact List.mem_append_right old.roles (List.mem_singleton_self superAdmin)

theorem mem_appended_of_mem (now : Int) {old : UserRow} (new : UserRow) {role : String}
    (h : role ∈ old.roles) : role ∈ (appended now old new).roles := by
  unfold appended
  split_ifs
  · exact h
  · exact List.mem_append_left _ h

/-- An upsert whose new row and whose merged rows hold the role. -/
theorem adminOk_upsert {merge : UserRow → UserRow → UserRow} {new : UserRow}
    (hmerge : ∀ old, superAdmin ∈ (merge old new).roles) (hnew : superAdmin ∈ new.roles)
    (h : ∀ row ∈ users, AdminOk server row) :
    ∀ row ∈ Upserts.upsert UserRow.pubkey merge users new, AdminOk server row := by
  intro row hrow
  rcases Upserts.mem_upsert hrow with ⟨hold, -⟩ | ⟨old, -, -, rfl⟩ | ⟨rfl, -⟩
  · exact h row hold
  · exact fun _ => hmerge old
  · exact fun _ => hnew

theorem adminOk_append {new : UserRow} (hnew : AdminOk server new)
    (h : ∀ row ∈ users, AdminOk server row) : ∀ row ∈ users ++ [new], AdminOk server row := by
  intro row hrow
  rcases List.mem_append.mp hrow with hold | hlast
  · exact h row hold
  · exact List.mem_singleton.mp hlast ▸ hnew

theorem adminOk_updateRow {set : UserRow → UserRow}
    (hset : ∀ row, AdminOk server row → AdminOk server (set row))
    (h : ∀ row ∈ users, AdminOk server row) :
    ∀ row ∈ updateRow users pubkey set, AdminOk server row := by
  intro row hrow
  obtain ⟨old, hold, rfl⟩ := List.mem_map.mp hrow
  split_ifs
  · exact hset old (h old hold)
  · exact h old hold

theorem adminOk_insertAdmin (pubkey : String) (now : Int) (h : ∀ row ∈ users, AdminOk server row) :
    ∀ row ∈ insertAdmin users pubkey now, AdminOk server row :=
  adminOk_upsert (fun _ => List.mem_singleton_self superAdmin) (platformAdminRow_roles pubkey now) h

theorem adminOk_ensureInit (adminPubkey : String) (now : Int)
    (h : ∀ row ∈ users, AdminOk server row) :
    ∀ row ∈ ensureInit users adminPubkey now, AdminOk server row := by
  unfold ensureInit
  split_ifs
  · exact h
  · exact adminOk_upsert (fun _ => List.mem_singleton_self superAdmin)
      (platformAdminRow_roles adminPubkey now) h

theorem adminOk_ensurePlatformAdmin (now : Int) (h : ∀ row ∈ users, AdminOk server row) :
    ∀ row ∈ ensurePlatformAdmin server users now, AdminOk server row :=
  adminOk_upsert (fun old => mem_appended now old _)
    (platformAdminRow_roles server.adminPubkey now) h

/-- A demo identity's key is drawn, and not the configured one. -/
theorem adminOk_demoRow {boot : Nat} {account : DemoIdentity}
    (haccount : account ∈ server.identities boot) (now : Int) :
    AdminOk server (demoRow account now) := by
  intro hkey
  unfold Server.identities demoIdentities at haccount
  obtain ⟨i, hi, rfl⟩ := List.mem_mapIdx.mp haccount
  exact absurd hkey (server.drawn boot i)

theorem adminOk_insertUser {new : UserRow} (hnew : AdminOk server new)
    (h : ∀ row ∈ users, AdminOk server row) : ∀ row ∈ insertUser users new, AdminOk server row := by
  unfold insertUser
  split_ifs
  · exact h
  · exact adminOk_append hnew h

theorem adminOk_createUser (data : NewUser) (now : Int) (h : ∀ row ∈ users, AdminOk server row) :
    ∀ row ∈ (createUser server users data now).1, AdminOk server row := by
  unfold createUser
  split_ifs
  · exact h
  · exact h
  · exact adminOk_append (fun hkey => mem_enforceAdminRoles server hkey _) h

theorem adminOk_apply (data : UserPatch) (now : Int) (row : UserRow) (h : AdminOk server row) :
    AdminOk server (data.apply server now row) := by
  intro hkey
  unfold UserPatch.apply
  cases data.roles with
  | none => exact h hkey
  | some roles => exact mem_enforceAdminRoles server hkey roles

theorem adminOk_updateUser (pubkey : String) (data : UserPatch) (isAdmin : Bool) (now : Int)
    (h : ∀ row ∈ users, AdminOk server row) :
    ∀ row ∈ (updateUser server users pubkey data isAdmin now).1, AdminOk server row := by
  unfold updateUser
  by_cases hrefused : data.active.isSome && !isAdmin
  · rwa [if_pos hrefused]
  · rw [if_neg hrefused]
    cases userOf users pubkey with
    | none => exact h
    | some row => exact adminOk_updateRow (adminOk_apply _ now) h

theorem adminOk_hubRoles (pubkey : String) (hubRoles : List HubRole) (now : Int)
    (h : ∀ row ∈ users, AdminOk server row) :
    ∀ row ∈ UserWrite.apply users now (.hubRoles pubkey hubRoles), AdminOk server row := by
  refine adminOk_updateRow ?_ h
  exact fun _ hrow => hrow

theorem adminOk_redeemerRow (invite : InviteRow) (pubkey : String) (hubId : Option String)
    (now : Int) : AdminOk server (redeemerRow server invite pubkey hubId now) :=
  fun hkey => mem_enforceAdminRoles server hkey invite.roleIds

/-! ## Its invariant -/

/-- A call goes on to what is not an insert, or to one of a row that holds the role. -/
theorem AdminHolds.goOn (h : AdminHolds server s) {c : Nat} {call : Call} (locks : Locks Key)
    (hcall : ∀ invite pubkey row, call = .written invite pubkey (.insert row) →
      AdminOk server row) : AdminHolds server { s.goOn c call with locks } where
  users := h.users
  inserts d invite pubkey row hd := by
    rcases Runs.update_eq_some hd with ⟨-, hlast⟩ | ⟨-, hd⟩
    · exact hcall invite pubkey row (Option.some.inj hlast)
    · exact h.inserts d invite pubkey row hd

/-- The users are written. -/
theorem AdminHolds.users_of (h : AdminHolds server s)
    (husers : ∀ row ∈ users, AdminOk server row) : AdminHolds server { s with users } :=
  ⟨husers, h.inserts⟩

theorem AdminHolds.write (h : AdminHolds server s)
    (husers : ∀ row ∈ users, AdminOk server row) (hw : s.write pubkey users = some s') :
    AdminHolds server s' := by
  obtain ⟨-, rfl⟩ := of_write hw
  exact h.users_of husers

theorem AdminHolds.insert (h : AdminHolds server s)
    (husers : ∀ row ∈ users, AdminOk server row) (hw : s.insert pubkey users = some s') :
    AdminHolds server s' := by
  unfold State.insert at hw
  split_ifs at hw
  · exact Option.some.inj hw ▸ h
  · exact h.write husers hw

/-- **A step leaves the admin its role.** -/
theorem admin_step {e : Event} (h : AdminHolds server s) (hstep : step server s e = some s') :
    AdminHolds server s' := by
  cases e with
  | bootstrapAdmin c pubkey =>
    obtain ⟨-, rfl | ⟨-, rfl⟩⟩ := of_bootstrapAdmin hstep
    · exact h.goOn s.locks fun _ _ _ hcall => by cases hcall
    · exact h.goOn s.locks fun _ _ _ hcall => by cases hcall
  | insertAdmin c now =>
    obtain ⟨pubkey, u, -, hu, rfl⟩ := of_insertAdmin hstep
    have hu' := h.write (adminOk_insertAdmin pubkey now h.users) hu
    exact hu'.goOn u.locks fun _ _ _ hcall => by cases hcall
  | ensureInit adminPubkey now => exact h.write (adminOk_ensureInit adminPubkey now h.users) hstep
  | ensurePlatformAdmin now => exact h.write (adminOk_ensurePlatformAdmin now h.users) hstep
  | ensureDemoAccount boot account now =>
    obtain ⟨haccount, hstep⟩ := Option.ite_none_right_eq_some.mp hstep
    exact h.insert (adminOk_insertUser (adminOk_demoRow haccount now) h.users) hstep
  | createUser data now => exact h.insert (adminOk_createUser data now h.users) hstep
  | updateUser pubkey data isAdmin now =>
    exact h.write (adminOk_updateUser pubkey data isAdmin now h.users) hstep
  | deleteUser pubkey =>
    exact h.write (fun row hrow => h.users row (List.mem_of_mem_filter hrow)) hstep
  | changeHubRole c pubkey change =>
    obtain ⟨-, rfl | ⟨hubRoles, -, rfl⟩⟩ := of_changeHubRole hstep
    · exact h.goOn s.locks fun _ _ _ hcall => by cases hcall
    · exact h.goOn _ fun _ _ _ hcall => by cases hcall
  | updateHubRoles c now =>
    obtain ⟨pubkey, hubRoles, -, rfl⟩ := of_updateHubRoles hstep
    have hu := h.users_of (adminOk_hubRoles pubkey hubRoles now h.users)
    exact hu.goOn _ fun _ _ _ hcall => by cases hcall
  | createInvite data code now =>
    obtain ⟨-, rfl⟩ := of_createInvite hstep
    exact ⟨h.users, h.inserts⟩
  | redeemInvite c code pubkey now databaseNow =>
    obtain ⟨-, ⟨-, rfl⟩ | ⟨invite, -, -, rfl⟩⟩ := of_redeemInvite hstep
    · exact h.goOn s.locks fun _ _ _ hcall => by cases hcall
    · exact h.goOn _ fun _ _ _ hcall => by cases hcall
  | resolveHub c hubs =>
    obtain ⟨invite, pubkey, -, rfl⟩ := of_resolveHub hstep
    exact h.goOn s.locks fun _ _ _ hcall => by cases hcall
  | selectUser c =>
    obtain ⟨invite, pubkey, hubId, -, ⟨-, rfl⟩ | ⟨row, -, -, rfl⟩⟩ := of_selectUser hstep
    · exact h.goOn s.locks fun _ _ _ hcall => by cases hcall
    · exact h.goOn _ fun _ _ _ hcall => by cases hcall
  | writeUser c now =>
    obtain ⟨invite, pubkey, hubId, existing, -, hwrite⟩ := of_writeUser hstep
    rcases hwrite with ⟨e, rfl⟩ | ⟨row, hub, -, rfl⟩ | ⟨hub, -, -, -, rfl⟩
    · exact h.goOn _ fun _ _ _ hcall => by cases hcall
    · exact h.goOn s.locks fun _ _ _ hcall => by cases hcall
    · refine h.goOn _ fun _ _ _ hcall => ?_
      cases hcall
      exact adminOk_redeemerRow invite pubkey hub now
  | commit c now =>
    obtain ⟨invite, pubkey, write, hc, rfl⟩ := of_commit hstep
    have husers : ∀ row ∈ write.apply s.users now, AdminOk server row := by
      cases write with
      | insert row => exact adminOk_append (h.inserts c invite pubkey row hc) h.users
      | hubRoles key hubRoles => exact adminOk_hubRoles key hubRoles now h.users
    have hu : AdminHolds server { s with
        users := write.apply s.users now, invites := replaceInvite s.invites invite } :=
      ⟨husers, h.inserts⟩
    exact hu.goOn _ fun _ _ _ hcall => by cases hcall
  | fail c =>
    obtain ⟨-, rfl⟩ := of_fail hstep
    exact h.goOn _ fun _ _ _ hcall => by cases hcall
  | revokeInvite code =>
    obtain ⟨-, hstep⟩ := Option.ite_none_right_eq_some.mp hstep
    exact Option.some.inj hstep ▸ ⟨h.users, h.inserts⟩
  | validateInvite code now => exact Option.some.inj hstep ▸ h

theorem admin_run {es : List Event} {t : State} (h : Runs.run (step server) start es = some t) :
    AdminHolds server t := by
  refine Runs.run_inv (fun _ _ _ => admin_step) ⟨?_, ?_⟩ h
  · intro row hrow
    cases hrow
  · intro c invite pubkey row hc
    cases hc

/-- What `ensurePlatformAdmin` leaves for a row of the configured key. -/
theorem ensurePlatformAdmin_row (server : Server) (hkeys : (users.map UserRow.pubkey).Nodup)
    (now : Int) : ∃ row ∈ ensurePlatformAdmin server users now, row.pubkey = server.adminPubkey ∧
      superAdmin ∈ row.roles ∧ ∀ old ∈ users, old.pubkey = server.adminPubkey →
        ∀ role ∈ old.roles, role ∈ row.roles := by
  obtain ⟨row, hrow, ⟨rfl, hnone⟩ | ⟨old, hold, hkey, rfl⟩⟩ := Upserts.exists_mem_upsert
    UserRow.pubkey (appended now) users (platformAdminRow server.adminPubkey now)
  · refine ⟨_, hrow, rfl, platformAdminRow_roles server.adminPubkey now, fun old hold hkey => ?_⟩
    exact absurd hkey (hnone old hold)
  · refine ⟨_, hrow, (appended_pubkey now old _).trans hkey, mem_appended now old _, ?_⟩
    intro other hother hotherkey role hrole
    obtain rfl : other = old :=
      List.inj_on_of_nodup_map hkeys hother hold (hotherkey.trans hkey.symm)
    exact mem_appended_of_mem now _ hrole

/-- **The configured admin stays one.** In every state that a run comes to, the configured key's one
row holds role-super-admin; and `ensurePlatformAdmin` makes the row be there, with every role that
it had. -/
theorem admin_stays (server : Server) {es : List Event} {t : State}
    (h : Runs.run (step server) start es = some t) :
    (t.users.map UserRow.pubkey).Nodup ∧
    (∀ row ∈ t.users, row.pubkey = server.adminPubkey → superAdmin ∈ row.roles) ∧
    ∀ now u, step server t (.ensurePlatformAdmin now) = some u →
      ∃ row ∈ u.users, row.pubkey = server.adminPubkey ∧ superAdmin ∈ row.roles ∧
        ∀ old ∈ t.users, old.pubkey = server.adminPubkey →
          ∀ role ∈ old.roles, role ∈ row.roles := by
  have hkeys := (sound_run h).keys
  refine ⟨hkeys, (admin_run h).users, fun now u hu => ?_⟩
  obtain ⟨-, rfl⟩ := of_write hu
  exact ensurePlatformAdmin_row server hkeys now

/-- The admin is created as a volunteer, is made a reporter, is deleted, and redeems an invite as a
volunteer. -/
def adminEvents : List Event :=
  [.ensureDemoAccount 0 { demoAccounts.head (by decide) with
      pubkey := "3b6a27bcceb6a42d62a3a8d02a6f0d73653215771de243a63ac048a18b59da29"
      seedHex := "0000000000000000000000000000000000000000000000000000000000000000"
      listedPubkey := "9bfc4116dc9d579cc0f88d58af7bef098f8bc31a16e053deb1de4525b79fe9da" } 1,
    .createUser { pubkey := sampleServer.adminPubkey, name := "Admin", phone := "" } 2,
    .updateUser sampleServer.adminPubkey { roles := some ["role-reporter"] } true 3,
    .deleteUser sampleServer.adminPubkey,
    .createInvite ⟨"Admin", "", ["role-volunteer"], none, "ann"⟩ "code" 4,
    .redeemInvite 0 "code" sampleServer.adminPubkey 5 5, .resolveHub 0 [], .selectUser 0,
    .writeUser 0 6, .commit 0 6]

theorem adminEvents_stays : ∃ t, Runs.run (step sampleServer) start adminEvents = some t ∧
    t.users.map UserRow.roles = [["role-super-admin"], ["role-super-admin"]] ∧
    ∀ row ∈ t.users, row.pubkey = sampleServer.adminPubkey → superAdmin ∈ row.roles := by
  obtain ⟨t, ht, hroles⟩ : ∃ t ∈ Runs.run (step sampleServer) start adminEvents,
      t.users.map UserRow.roles = [["role-super-admin"], ["role-super-admin"]] := by
    decide +kernel
  exact ⟨t, ht, hroles, (admin_stays sampleServer ht).2.1⟩

/-! ## The first admin -/

/-- An event of a `bootstrapAdmin` call. -/
def Event.bootstraps : Event → Prop
  | .bootstrapAdmin _ _ => True
  | .insertAdmin _ _ => True
  | .fail _ => True
  | _ => False

/-- The caller that a step makes the admin: its call succeeds. -/
def bootstrapped (s : State) : Event → List String
  | .insertAdmin c _ =>
    match s.calls c with
    | some (.bootstrapping pubkey) => [pubkey]
    | _ => []
  | _ => []

def Event.insertsAdmin : Event → Bool
  | .insertAdmin _ _ => true
  | _ => false

/-- An admin is inserted where there is none. -/
def FirstAdmin (s : State) (e : Event) : Prop := e.insertsAdmin → hasAdmin s.users = false

instance (s : State) : DecidablePred (FirstAdmin s) :=
  fun _ => inferInstanceAs (Decidable (_ → _))

theorem hasAdmin_insertAdmin (users : List UserRow) (pubkey : String) (now : Int) :
    hasAdmin (insertAdmin users pubkey now) = true := by
  obtain ⟨row, hrow, hwhich⟩ := Upserts.exists_mem_upsert UserRow.pubkey restored users
    { platformAdminRow pubkey now with profileCompleted := false }
  refine List.any_eq_true.mpr ⟨row, hrow, ?_⟩
  rcases hwhich with ⟨rfl, -⟩ | ⟨old, -, -, rfl⟩
  · simp [platformAdminRow]
  · simp [restored]

/-- There is an admin exactly if a call has succeeded. -/
def ByBootstrap (s : State) (admins : List String) : Prop :=
  hasAdmin s.users = true ↔ admins ≠ []

/-- A step that makes no caller the admin leaves the users alone. -/
theorem bootstraps_step {e : Event} (he : e.bootstraps) (hstep : step server s e = some s') :
    (s'.users = s.users ∧ bootstrapped s e = [] ∧ FirstAdmin s e) ∨
      ∃ c now pubkey, e = .insertAdmin c now ∧ bootstrapped s e = [pubkey] ∧
        hasAdmin s'.users = true := by
  cases e with
  | bootstrapAdmin c pubkey =>
    obtain ⟨-, rfl | ⟨-, rfl⟩⟩ := of_bootstrapAdmin hstep
    · exact .inl ⟨rfl, rfl, nofun⟩
    · exact .inl ⟨rfl, rfl, nofun⟩
  | insertAdmin c now =>
    obtain ⟨pubkey, u, hc, hu, rfl⟩ := of_insertAdmin hstep
    obtain ⟨-, rfl⟩ := of_write hu
    refine .inr ⟨c, now, pubkey, rfl, ?_, hasAdmin_insertAdmin s.users pubkey now⟩
    simp only [bootstrapped, hc]
  | fail c =>
    obtain ⟨-, rfl⟩ := of_fail hstep
    exact .inl ⟨rfl, rfl, nofun⟩
  | _ => cases he

theorem byBootstrap_step {e : Event} {admins : List String} (he : e.bootstraps)
    (h : ByBootstrap s admins) (hstep : step server s e = some s') :
    ByBootstrap s' (admins ++ bootstrapped s e) := by
  unfold ByBootstrap at h ⊢
  rcases bootstraps_step he hstep with ⟨husers, hout, -⟩ | ⟨c, now, pubkey, -, hout, hadmin⟩
  · rw [husers, hout, List.append_nil]
    exact h
  · rw [hout]
    simp [hadmin]

/-- **A step keeps it at one exactly if it inserts no second admin.** -/
theorem one_step_iff {e : Event} {admins : List String} (he : e.bootstraps)
    (h : ByBootstrap s admins) (hone : admins.length ≤ 1) (hstep : step server s e = some s') :
    (admins ++ bootstrapped s e).length ≤ 1 ↔ FirstAdmin s e := by
  rcases bootstraps_step he hstep with ⟨-, hout, hfirst⟩ | ⟨c, now, pubkey, rfl, hout, -⟩
  · rw [hout, List.append_nil]
    exact iff_of_true hone hfirst
  · rw [hout, List.length_append, List.length_singleton]
    have hfirst : FirstAdmin s (.insertAdmin c now) ↔ admins = [] := by
      simp only [FirstAdmin, Event.insertsAdmin, forall_const, ← Bool.not_eq_true]
      exact (not_congr h).trans not_not
    rw [hfirst, ← List.length_eq_zero_iff]
    omega

/-- **At most one caller becomes the admin, exactly if each insert comes while there is none.** -/
theorem one_bootstrap_iff (server : Server) {es : List Event} (hes : ∀ e ∈ es, e.bootstraps)
    {t : State} (h : Runs.run (step server) start es = some t) :
    (∀ before after m, es = before ++ after → Runs.run (step server) start before = some m →
        (Runs.emitted (step server) bootstrapped start before).length ≤ 1) ↔
      Runs.Along (step server) FirstAdmin start es :=
  Runs.always_iff_along_mem bootstrapped (I := ByBootstrap)
    (G := fun _ admins => admins.length ≤ 1) []
    (fun _ _ _ e he hI hstep => byBootstrap_step (hes e he) hI hstep)
    (fun _ _ _ e he hI hone hstep => one_step_iff (hes e he) hI hone hstep)
    (by simp [ByBootstrap, start, hasAdmin]) (by simp) h

/-- Two callers, the second of whom comes when the first is the admin. -/
theorem second_refused : ∃ t, Runs.run (step sampleServer) start
      [.bootstrapAdmin 0 "ann", .insertAdmin 0 1, .bootstrapAdmin 1 "bob"] = some t ∧
    (t.calls 1 = some (.answered (.error (.service 403 "Admin already exists")))) ∧
    ∀ before after m, [.bootstrapAdmin 0 "ann", .insertAdmin 0 1, .bootstrapAdmin 1 "bob"] =
        before ++ after → Runs.run (step sampleServer) start before = some m →
      (Runs.emitted (step sampleServer) bootstrapped start before).length ≤ 1 := by
  obtain ⟨t, ht, hanswer⟩ : ∃ t ∈ Runs.run (step sampleServer) start
        [.bootstrapAdmin 0 "ann", .insertAdmin 0 1, .bootstrapAdmin 1 "bob"],
      t.calls 1 = some (.answered (.error (.service 403 "Admin already exists"))) := by
    decide +kernel
  refine ⟨t, ht, hanswer, (one_bootstrap_iff sampleServer ?_ ht).mpr (by decide +kernel)⟩
  simp [Event.bootstraps]

/-- **Two admins.** Two callers find none, and both insert themselves. -/
theorem two_bootstrapped : ∃ t ∈ Runs.run (step sampleServer) start
      [.bootstrapAdmin 0 "ann", .bootstrapAdmin 1 "bob", .insertAdmin 0 1, .insertAdmin 1 1],
    Runs.emitted (step sampleServer) bootstrapped start
      [.bootstrapAdmin 0 "ann", .bootstrapAdmin 1 "bob", .insertAdmin 0 1, .insertAdmin 1 1] =
        ["ann", "bob"] ∧
    t.users.map (fun row => (row.pubkey, row.roles)) =
      [("ann", [superAdmin]), ("bob", [superAdmin])] := by
  decide +kernel

end Llamenos.Worker.Users
