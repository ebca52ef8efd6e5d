import Llamenos.Shared.Permissions

/-!
# Access to a hub

`hubContext` of `apps/worker/middleware/hub.ts`, which every request under `/hubs/:hubId` passes.
What `getHub` of the settings finds is a parameter.

Results:
* `admits_and_lists`: **whom the middleware lets into a hub, where `getUserHubIds` lists a user**,
  and where the two agree.
-/

namespace Llamenos.Worker.HubAccess

open Llamenos.Shared.Permissions

/-! ## The middleware -/

structure User where
  pubkey : String
  roles : List String
  hubRoles : Option (List HubRole) := none

/-- What `getHub` throws: a `ServiceError` with its status, or an error of the database. -/
inductive HubError where
  | service (status : Nat)
  | database
  deriving DecidableEq

/-- What is added to the answer in development. -/
structure Diag where
  pubkey : String
  roles : List String
  hubId : String
  allRolesCount : Nat
  hubRoles : Option (List HubRole)

/-- The middleware answers, or goes on with the hub and the permissions there. -/
inductive Outcome where
  | response (status : Nat) (error : String) (debug : Option Diag := none)
  | next (hubId : String) (hubPermissions : List String)

def diag (user : User) (allRoles : List Role) (hubId : String) : Diag where
  pubkey := String.ofList (user.pubkey.toList.take 16)
  roles := user.roles
  hubId := hubId
  allRolesCount := allRoles.length
  hubRoles := user.hubRoles

variable (getHub : String → Except HubError Unit) (development : Bool)

def hubContext (user : User) (allRoles : List Role) (hubId : Option String) :
    Except HubError Outcome :=
  match hubId.filter (· ≠ "") with
  | none => .ok (.response 400 "Hub ID required")
  | some hubId =>
    match getHub hubId with
    | .error err =>
      if err = .service 404 then .ok (.response 404 "Hub not found") else .error err
    | .ok _ =>
      let hubPermissions :=
        resolveHubPermissions user.roles (user.hubRoles.getD []) allRoles hubId
      if hubPermissions.length = 0 then
        .ok (.response 403 "Access denied"
          (if development then some (diag user allRoles hubId) else none))
      else .ok (.next hubId hubPermissions)

/-- The middleware lets the user into the hub. -/
def Admits (user : User) (allRoles : List Role) (hubId : String) : Prop :=
  ∃ hubPermissions, hubContext getHub development user allRoles (some hubId) =
    .ok (.next hubId hubPermissions)

/-- `getUserHubIds` has the hub, or is `null`. -/
def Lists (user : User) (allRoles : List Role) (hubId : String) : Prop :=
  ∀ hubIds ∈ getUserHubIds user.roles (user.hubRoles.getD []) allRoles, hubId ∈ hubIds

instance (user : User) (allRoles : List Role) (hubId : String) :
    Decidable (Lists user allRoles hubId) :=
  inferInstanceAs (Decidable (∀ hubIds ∈ getUserHubIds _ _ _, hubId ∈ hubIds))

/-- The user's global roles grant `*`. -/
def Wildcard (user : User) (allRoles : List Role) : Prop :=
  permissionGranted (resolvePermissions user.roles allRoles) "*" = true

instance (user : User) (allRoles : List Role) : Decidable (Wildcard user allRoles) :=
  inferInstanceAs (Decidable (_ = true))

/-- Some of the user's roles in the hub is defined with a permission. -/
def GrantsIn (user : User) (allRoles : List Role) (hubId : String) : Prop :=
  ∃ assignment ∈ findAssignment (user.hubRoles.getD []) hubId, Grants allRoles assignment.roleIds

/-! ## Who is let in -/

variable {getHub} {development} {user : User} {allRoles : List Role} {hubId : String}

/-- The middleware goes on in a hub that exists, with the permissions there, if there are any. -/
theorem hubContext_eq_next_iff {hubPermissions : List String} :
    hubContext getHub development user allRoles (some hubId) = .ok (.next hubId hubPermissions) ↔
      hubId ≠ "" ∧ getHub hubId = .ok () ∧ hubPermissions ≠ [] ∧ hubPermissions =
        resolveHubPermissions user.roles (user.hubRoles.getD []) allRoles hubId := by
  unfold hubContext
  by_cases hempty : hubId = ""
  · rw [Option.filter_some_neg (by simpa using hempty)]
    simp [hempty]
  rw [Option.filter_some_pos (by simpa using hempty)]
  dsimp only
  cases getHub hubId with
  | error err =>
    dsimp only
    split_ifs <;> simp
  | ok found =>
    dsimp only
    by_cases hnil : resolveHubPermissions user.roles (user.hubRoles.getD []) allRoles hubId = []
    · rw [if_pos (List.length_eq_zero_iff.mpr hnil)]
      refine iff_of_false (by simp) ?_
      rintro ⟨-, -, hsome, rfl⟩
      exact hsome hnil
    · rw [if_neg (mt List.length_eq_zero_iff.mp hnil)]
      constructor
      · rintro ⟨⟩
        exact ⟨hempty, rfl, hnil, rfl⟩
      · rintro ⟨-, -, -, rfl⟩
        rfl

/-- The middleware lets in who has a permission in the hub. -/
theorem admits_iff_resolve : Admits getHub development user allRoles hubId ↔
    hubId ≠ "" ∧ getHub hubId = .ok () ∧
      resolveHubPermissions user.roles (user.hubRoles.getD []) allRoles hubId ≠ [] := by
  constructor
  · rintro ⟨hubPermissions, h⟩
    obtain ⟨hne, hfound, hsome, rfl⟩ := hubContext_eq_next_iff.mp h
    exact ⟨hne, hfound, hsome⟩
  · rintro ⟨hne, hfound, hsome⟩
    exact ⟨_, hubContext_eq_next_iff.mpr ⟨hne, hfound, hsome, rfl⟩⟩

theorem admits_iff (hne : hubId ≠ "") (hfound : getHub hubId = .ok ()) :
    Admits getHub development user allRoles hubId ↔
      Grants allRoles user.roles ∨ GrantsIn user allRoles hubId := by
  rw [admits_iff_resolve, resolveHubPermissions_ne_nil_iff, and_iff_right hne, and_iff_right hfound,
    GrantsIn]

/-- A user with roles in the hub has an entry for it. -/
theorem GrantsIn.entry (h : GrantsIn user allRoles hubId) :
    ∃ entry ∈ user.hubRoles.getD [], entry.hubId = hubId := by
  obtain ⟨assignment, hfind, -⟩ := h
  exact findAssignment_isSome_iff.mp ⟨assignment, hfind⟩

/-- **Whom the middleware lets into a hub that exists**: who has a global role with a permission, or
one in the entry for the hub. `getUserHubIds` lists whom the global wildcard or an entry puts there;
the two agree if global permissions come with the wildcard or an entry, and entries with
permissions. -/
theorem admits_and_lists (getHub : String → Except HubError Unit) (development : Bool) (user : User)
    (allRoles : List Role) (hubId : String) (hne : hubId ≠ "") (hfound : getHub hubId = .ok ()) :
    (Admits getHub development user allRoles hubId ↔
        Grants allRoles user.roles ∨ GrantsIn user allRoles hubId) ∧
      (Lists user allRoles hubId ↔
        Wildcard user allRoles ∨ ∃ entry ∈ user.hubRoles.getD [], entry.hubId = hubId) ∧
      (Wildcard user allRoles → Admits getHub development user allRoles hubId) ∧
      (¬ Grants allRoles user.roles → Admits getHub development user allRoles hubId →
        Lists user allRoles hubId) ∧
      ((Admits getHub development user allRoles hubId ↔ Lists user allRoles hubId) ↔
        (Grants allRoles user.roles → Lists user allRoles hubId) ∧
          ((∃ entry ∈ user.hubRoles.getD [], entry.hubId = hubId) →
            Grants allRoles user.roles ∨ GrantsIn user allRoles hubId)) := by
  have hadmits : Admits getHub development user allRoles hubId ↔
      Grants allRoles user.roles ∨ GrantsIn user allRoles hubId := admits_iff hne hfound
  have hlists : Lists user allRoles hubId ↔
      Wildcard user allRoles ∨ ∃ entry ∈ user.hubRoles.getD [], entry.hubId = hubId :=
    mem_getUserHubIds
  have hwildcard : Wildcard user allRoles → Grants allRoles user.roles := Grants.of_wildcard
  have hentry : GrantsIn user allRoles hubId →
      ∃ entry ∈ user.hubRoles.getD [], entry.hubId = hubId := GrantsIn.entry
  refine ⟨hadmits, hlists, fun h => hadmits.mpr (.inl (hwildcard h)), fun hnone h => ?_, ?_⟩
  · exact hlists.mpr (.inr (hentry ((hadmits.mp h).resolve_left hnone)))
  · rw [hadmits, hlists]
    constructor
    · intro h
      exact ⟨fun hglobal => h.mp (.inl hglobal), fun hhas => h.mpr (.inr hhas)⟩
    · rintro ⟨hglobal, hhas⟩
      constructor
      · rintro (hgrants | hgrants)
        · exact hglobal hgrants
        · exact .inr (hentry hgrants)
      · rintro (hwild | hlisted)
        · exact .inl (hwildcard hwild)
        · exact hhas hlisted

/-- A reviewer in a hub, with no role elsewhere. -/
def reviewer : User where
  pubkey := "aabb1122"
  roles := []
  hubRoles := some [{ hubId := "hub-1", roleIds := ["role-reviewer"] }]

theorem reviewer_admitted : Admits (fun _ => .ok ()) false reviewer [] "hub-1" ∧
    Lists reviewer [] "hub-1" := by
  have hall := admits_and_lists (fun _ => .ok ()) false reviewer [] "hub-1" (by decide) rfl
  have hlists : Lists reviewer [] "hub-1" := by decide +kernel
  refine ⟨hall.1.mpr (.inr ?_), hlists⟩
  exact ⟨_, rfl, "role-reviewer", List.mem_singleton_self _, _, rfl, by decide⟩

/-- A user as one is created: a volunteer everywhere, in no hub. -/
def volunteer : User where
  pubkey := "aabb1122"
  roles := ["role-volunteer"]
  hubRoles := some []

/-- A member of a hub who has been given no role there. -/
def newcomer : User where
  pubkey := "ccdd3344"
  roles := []
  hubRoles := some [{ hubId := "hub-1", roleIds := [] }]

/-- **A global role opens a hub** that its user is not listed in, and **an entry without a role
opens none**. -/
theorem volunteer_admitted_newcomer_not :
    (Admits (fun _ => .ok ()) false volunteer defaultRoles "hub-1" ∧
      ¬ Wildcard volunteer defaultRoles ∧ ¬ Lists volunteer defaultRoles "hub-1") ∧
    ¬ Admits (fun _ => .ok ()) false newcomer defaultRoles "hub-1" ∧
      Lists newcomer defaultRoles "hub-1" := by
  rw [admits_iff_resolve, admits_iff_resolve]
  decide +kernel

end Llamenos.Worker.HubAccess
