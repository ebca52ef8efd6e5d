import Llamenos.Shared.Permissions
import Mathlib.Algebra.Order.BigOperators.Group.List
import Mathlib.Algebra.Order.Group.Nat

/-!
# Permissions in a hub as a union

`hasHubPermission` and `resolveHubPermissions` look at the global roles and at the first entry for
the hub. A user holds the roles of all entries for it.

Results:
* `hasHubPermission_eq`: the two functions agree.
* `granted_iff_covered`: when fewer permissions grant as much.
* `rightInHub_iff`: **when the functions are right about the roles held**.
* `secondEntry_ignored`: a user for whom they are not.
-/

namespace Llamenos.Shared.Permissions

/-! ## Purpose -/

/-- The roles that a user holds in a hub. -/
def heldRoles (globalRoles : List String) (hubRoles : List HubRole) (hubId : String) :
    List String :=
  globalRoles ++ (hubRoles.filter fun hr => hr.hubId = hubId).flatMap HubRole.roleIds

/-- The roles that are looked at. -/
def foundRoles (globalRoles : List String) (hubRoles : List HubRole) (hubId : String) :
    List String :=
  globalRoles ++ ((findAssignment hubRoles hubId).map HubRole.roleIds).getD []

/-- The two functions agree, grant what the union of the roles held grants, and grant no less than
for fewer roles. -/
structure RightInHub (globalRoles : List String) (hubRoles : List HubRole)
    (allRoleDefs : List Role) (hubId : String) : Prop where
  agree : ∀ permission, hasHubPermission globalRoles hubRoles allRoleDefs hubId permission =
    permissionGranted (resolveHubPermissions globalRoles hubRoles allRoleDefs hubId) permission
  union : ∀ permission, hasHubPermission globalRoles hubRoles allRoleDefs hubId permission =
    permissionGranted (resolvePermissions (heldRoles globalRoles hubRoles hubId) allRoleDefs)
      permission
  monotone : ∀ globalRoles' hubRoles',
    heldRoles globalRoles' hubRoles' hubId ⊆ heldRoles globalRoles hubRoles hubId →
      ∀ permission, hasHubPermission globalRoles' hubRoles' allRoleDefs hubId permission = true →
        hasHubPermission globalRoles hubRoles allRoleDefs hubId permission = true

/-- A permission, and all that it grants, is granted. -/
def Covers (granted : List String) (permission : String) : Prop :=
  "*" ∈ granted ∨ permission ≠ "*" ∧ permissionGranted granted permission = true

/-- Each permission of a role held is covered by those of the global roles and the first entry. -/
def FirstCovers (globalRoles : List String) (hubRoles : List HubRole) (allRoleDefs : List Role)
    (hubId : String) : Prop :=
  ∀ permission ∈ resolvePermissions (heldRoles globalRoles hubRoles hubId) allRoleDefs,
    Covers (resolvePermissions (foundRoles globalRoles hubRoles hubId) allRoleDefs) permission

/-! ## What permissions grant -/

variable {granted granted' roleIds roleIds' globalRoles : List String} {roles : List Role}
  {hubRoles : List HubRole} {hubId permission : String}

theorem permissionGranted_append : permissionGranted (granted ++ granted') permission =
    (permissionGranted granted permission || permissionGranted granted' permission) := by
  rw [Bool.eq_iff_iff, Bool.or_eq_true]
  simp only [permissionGranted_iff, List.mem_append]
  tauto

theorem permissionGranted_mono (h : granted ⊆ granted')
    (hgranted : permissionGranted granted permission = true) :
    permissionGranted granted' permission = true := by
  rw [permissionGranted_iff] at hgranted ⊢
  exact hgranted.imp (h ·) (Or.imp (h ·) (h ·))

theorem permissionGranted_congr (h : ∀ q, q ∈ granted ↔ q ∈ granted') :
    permissionGranted granted permission = permissionGranted granted' permission := by
  rw [Bool.eq_iff_iff, permissionGranted_iff, permissionGranted_iff, h, h, h]

theorem resolvePermissions_mono (h : roleIds ⊆ roleIds') :
    resolvePermissions roleIds roles ⊆ resolvePermissions roleIds' roles := by
  intro permission hmem
  obtain ⟨roleId, hid, hrole⟩ := mem_resolvePermissions.mp hmem
  exact mem_resolvePermissions.mpr ⟨roleId, h hid, hrole⟩

theorem mem_resolvePermissions_append :
    permission ∈ resolvePermissions (roleIds ++ roleIds') roles ↔
      permission ∈ resolvePermissions roleIds roles ++ resolvePermissions roleIds' roles := by
  rw [List.mem_append]
  simp only [mem_resolvePermissions, List.mem_append, or_and_right, exists_or]

/-- The domain of a domain's wildcard. -/
theorem domain_wildcard : domain (domain permission ++ ":*") = domain permission := by
  unfold domain
  rw [String.toList_append, String.toList_ofList, List.takeWhile_append_of_pos]
  · simp
  · intro c hc
    exact List.all_eq_true.mp List.all_takeWhile c hc

/-- What covers a permission grants what it grants. -/
theorem Covers.grants {q : String} (h : Covers granted q) (hq : q = "*" ∨ q = permission ∨
    q = domain permission ++ ":*") : permissionGranted granted permission = true := by
  rw [permissionGranted_iff]
  rcases h with hstar | ⟨hne, hgranted⟩
  · exact .inl hstar
  · rcases hq with rfl | rfl | rfl
    · exact absurd rfl hne
    · exact permissionGranted_iff.mp hgranted
    · rcases permissionGranted_iff.mp hgranted with hstar | hdomain | hdomain
      · exact .inl hstar
      · exact .inr (.inr hdomain)
      · rw [domain_wildcard] at hdomain
        exact .inr (.inr hdomain)

/-- A permission that is granted by the global wildcard alone. -/
theorem star_of_grants_all (h : ∀ permission, permissionGranted granted permission = true) :
    "*" ∈ granted := by
  let long := String.ofList (List.replicate ((granted.map String.length).sum + 1) 'a')
  have hlong : long.length = (granted.map String.length).sum + 1 := by simp [long]
  have hbound : ∀ q ∈ granted, q.length ≤ (granted.map String.length).sum := fun q hq =>
    List.single_le_sum (by simp) _ (List.mem_map_of_mem hq)
  have hdomain : domain long = long := by
    simp [domain, long]
  rcases permissionGranted_iff.mp (h long) with hstar | hmem | hmem
  · exact hstar
  · have := hbound long hmem
    omega
  · have hle := hbound _ hmem
    rw [hdomain, String.length_append] at hle
    omega

/-- **When fewer permissions grant as much.** -/
theorem granted_iff_covered (hsub : granted ⊆ granted') :
    (∀ permission, permissionGranted granted permission = permissionGranted granted' permission) ↔
      ∀ q ∈ granted', Covers granted q := by
  constructor
  · intro hsame q hq
    by_cases hstar : q = "*"
    · refine .inl (star_of_grants_all fun permission => ?_)
      rw [hsame, permissionGranted_iff]
      exact .inl (hstar ▸ hq)
    · exact .inr ⟨hstar, by rw [hsame, permissionGranted_self hq]⟩
  · intro hcovers permission
    rw [Bool.eq_iff_iff]
    refine ⟨permissionGranted_mono hsub, fun hgranted => ?_⟩
    rcases permissionGranted_iff.mp hgranted with hmem | hmem | hmem
    · exact (hcovers _ hmem).grants (.inl rfl)
    · exact (hcovers _ hmem).grants (.inr (.inl rfl))
    · exact (hcovers _ hmem).grants (.inr (.inr rfl))

/-! ## What the functions look at -/

/-- The permissions of the roles that are looked at. -/
theorem mem_resolveHubPermissions_found :
    permission ∈ resolveHubPermissions globalRoles hubRoles roles hubId ↔
      permission ∈ resolvePermissions (foundRoles globalRoles hubRoles hubId) roles := by
  rw [foundRoles, mem_resolvePermissions_append, List.mem_append, mem_resolveHubPermissions]
  refine or_congr_right ?_
  cases findAssignment hubRoles hubId with
  | none => simp [resolvePermissions]
  | some assignment => simp

/-- **The two functions agree.** -/
theorem hasHubPermission_eq : hasHubPermission globalRoles hubRoles roles hubId permission =
    permissionGranted (resolveHubPermissions globalRoles hubRoles roles hubId) permission := by
  have hfound : permissionGranted (resolveHubPermissions globalRoles hubRoles roles hubId)
      permission = (permissionGranted (resolvePermissions globalRoles roles) permission ||
        permissionGranted (resolvePermissions
          (((findAssignment hubRoles hubId).map HubRole.roleIds).getD []) roles) permission) := by
    rw [← permissionGranted_append]
    refine permissionGranted_congr fun q => ?_
    rw [mem_resolveHubPermissions_found, foundRoles, mem_resolvePermissions_append]
  rw [hfound, hasHubPermission]
  cases permissionGranted (resolvePermissions globalRoles roles) permission with
  | true => rfl
  | false =>
    rw [if_neg Bool.false_ne_true, Bool.false_or]
    cases findAssignment hubRoles hubId <;> rfl

theorem hasHubPermission_found : hasHubPermission globalRoles hubRoles roles hubId permission =
    permissionGranted (resolvePermissions (foundRoles globalRoles hubRoles hubId) roles)
      permission :=
  hasHubPermission_eq.trans (permissionGranted_congr fun _ => mem_resolveHubPermissions_found)

/-- The first entry is one of the entries. -/
theorem foundRoles_subset :
    foundRoles globalRoles hubRoles hubId ⊆ heldRoles globalRoles hubRoles hubId := by
  intro roleId hid
  rcases List.mem_append.mp hid with hglobal | hentry
  · exact List.mem_append_left _ hglobal
  · refine List.mem_append_right _ (List.mem_flatMap.mpr ?_)
    cases hfind : findAssignment hubRoles hubId with
    | none =>
      rw [hfind] at hentry
      cases hentry
    | some assignment =>
      rw [hfind] at hentry
      have hmem := List.mem_of_find?_eq_some hfind
      have hhub : decide (assignment.hubId = hubId) = true :=
        List.find?_some (p := fun hr : HubRole => hr.hubId = hubId) hfind
      exact ⟨assignment, List.mem_filter.mpr ⟨hmem, hhub⟩, hentry⟩

/-- **When the functions are right about the roles held.** -/
theorem rightInHub_iff : RightInHub globalRoles hubRoles roles hubId ↔
    FirstCovers globalRoles hubRoles roles hubId := by
  have hsub : resolvePermissions (foundRoles globalRoles hubRoles hubId) roles ⊆
      resolvePermissions (heldRoles globalRoles hubRoles hubId) roles :=
    resolvePermissions_mono foundRoles_subset
  have hunion : FirstCovers globalRoles hubRoles roles hubId ↔
      ∀ permission, hasHubPermission globalRoles hubRoles roles hubId permission =
        permissionGranted (resolvePermissions (heldRoles globalRoles hubRoles hubId) roles)
          permission := by
    rw [FirstCovers, ← granted_iff_covered hsub]
    exact forall_congr' fun permission => by rw [hasHubPermission_found]
  rw [hunion]
  refine ⟨RightInHub.union, fun h => ⟨fun _ => hasHubPermission_eq, h, ?_⟩⟩
  intro globalRoles' hubRoles' hheld permission hgranted
  rw [hasHubPermission_found] at hgranted
  rw [h]
  exact permissionGranted_mono
    (resolvePermissions_mono (List.Subset.trans foundRoles_subset hheld)) hgranted

/-- Two entries for one hub: as a reporter, and as a volunteer. -/
def twoEntries : List HubRole :=
  [⟨"hub-1", ["role-reporter"]⟩, ⟨"hub-1", ["role-volunteer"]⟩]

/-- **The second entry for a hub is ignored**, and an entry that comes before another takes its
permissions away. -/
theorem secondEntry_ignored :
    ¬ RightInHub [] twoEntries defaultRoles "hub-1" ∧
      hasHubPermission [] twoEntries defaultRoles "hub-1" "calls:answer" = false ∧
      hasHubPermission [] twoEntries.tail defaultRoles "hub-1" "calls:answer" = true := by
  have hfirst : hasHubPermission [] twoEntries defaultRoles "hub-1" "calls:answer" = false := by
    decide +kernel
  have hsecond :
      hasHubPermission [] twoEntries.tail defaultRoles "hub-1" "calls:answer" = true := by
    decide +kernel
  refine ⟨fun hright => ?_, hfirst, hsecond⟩
  have hheld : heldRoles [] twoEntries.tail "hub-1" ⊆ heldRoles [] twoEntries "hub-1" := by
    decide +kernel
  have hgranted := hright.monotone [] twoEntries.tail hheld "calls:answer" hsecond
  rw [hfirst] at hgranted
  cases hgranted

end Llamenos.Shared.Permissions
