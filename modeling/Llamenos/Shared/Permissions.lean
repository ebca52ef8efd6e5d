import Mathlib.Data.List.Basic

/-!
# Roles and permissions

Of `packages/shared/permissions.ts`: a role is a bundle of permissions, a permission a text
`domain:action`, and a user has roles everywhere (`globalRoles`) and roles in single hubs
(`hubRoles`). `resolvePermissions` looks a role up among the given definitions and then among
`DEFAULT_ROLES`; the order of its result is that of a JavaScript `Set`.

Results:
* `resolveHubPermissions_ne_nil_iff`: whose roles resolve to a permission in a hub.
* `mem_getUserHubIds`: in which hubs a user is listed.
* `exists_hasHubPermission_iff`: a user is granted something in a hub exactly if the roles resolve
  to a permission there.
-/

namespace Llamenos.Shared.Permissions

structure Role where
  id : String
  permissions : List String

/-- The roles of a user in one hub. -/
structure HubRole where
  hubId : String
  roleIds : List String
  deriving DecidableEq

/-- `DEFAULT_ROLES`. -/
def defaultRoles : List Role :=
  [{ id := "role-super-admin", permissions := ["*"] },
    { id := "role-hub-admin"
      permissions :=
        ["users:*", "shifts:*", "settings:*", "audit:read",
          "bans:*", "invites:*", "notes:*",
          "reports:*", "conversations:*", "calls:*", "blasts:*", "files:*",
          "contacts:*", "cases:*", "events:*", "evidence:*",
          "firehose:*",
          "telephony:manage-providers", "telephony:view-providers", "telephony:manage-numbers",
          "telephony:view-numbers", "telephony:manage-a2p",
          "messaging:manage-signal",
          "hubs:configure",
          "hubs:read", "hubs:manage-members", "hubs:manage-keys",
          "teams:*", "tags:*",
          "metrics:read", "system:view-roles",
          "erasure:*", "retention:manage",
          "bans:read-platform", "bans:create-platform", "bans:delete-platform"] },
    { id := "role-reviewer"
      permissions :=
        ["calls:identify-caller",
          "notes:read-own", "notes:read-assigned", "notes:reply",
          "contacts:view-pii", "contacts:view-history", "contacts:search",
          "reports:read-assigned", "reports:read-all", "reports:read-types",
          "reports:assign", "reports:update", "reports:send-message",
          "conversations:read-assigned", "conversations:send",
          "users:read-cases", "users:read-metrics",
          "shifts:read-own", "files:download-own", "files:upload",
          "settings:read",
          "cases:read-assigned", "cases:update", "cases:assign", "cases:link", "cases:unlink",
          "events:read", "events:link", "evidence:download",
          "hubs:read",
          "teams:read", "tags:view"] },
    { id := "role-volunteer"
      permissions :=
        ["calls:answer", "calls:read-active", "calls:hangup", "calls:report-spam",
          "calls:identify-caller",
          "notes:create", "notes:read-own", "notes:update-own", "notes:reply",
          "contacts:search",
          "conversations:claim", "conversations:send", "conversations:read-assigned",
          "conversations:claim-sms", "conversations:claim-whatsapp",
          "conversations:claim-signal", "conversations:claim-rcs", "conversations:claim-web",
          "shifts:read-own", "shifts:set-availability", "bans:report",
          "reports:read-assigned", "reports:read-types", "reports:send-message",
          "settings:read",
          "files:upload", "files:download-own",
          "cases:create", "cases:read-own", "cases:update-own",
          "events:read", "evidence:upload",
          "hubs:read",
          "erasure:request-self",
          "teams:read", "tags:view"] },
    { id := "role-reporter"
      permissions :=
        ["reports:create", "reports:read-own", "reports:read-types", "reports:send-message-own",
          "files:upload", "files:download-own"] }]

/-! ## The functions -/

/-- `permission.split(':')[0]`. -/
def domain (permission : String) : String :=
  String.ofList (permission.toList.takeWhile (· ≠ ':'))

def permissionGranted (grantedPermissions : List String) (required : String) : Bool :=
  grantedPermissions.contains "*" || grantedPermissions.contains required ||
    grantedPermissions.contains (domain required ++ ":*")

/-- The definition that a role's id resolves to. -/
def findRole (roles : List Role) (roleId : String) : Option Role :=
  (roles.find? (·.id = roleId)).or (defaultRoles.find? (·.id = roleId))

def resolvePermissions (roleIds : List String) (roles : List Role) : List String :=
  (roleIds.flatMap fun roleId => ((findRole roles roleId).map Role.permissions).getD []).eraseDups

/-- The entry that is looked up for a hub. -/
def findAssignment (hubRoles : List HubRole) (hubId : String) : Option HubRole :=
  hubRoles.find? (·.hubId = hubId)

def hasHubPermission (globalRoles : List String) (hubRoles : List HubRole)
    (allRoleDefs : List Role) (hubId permission : String) : Bool :=
  if permissionGranted (resolvePermissions globalRoles allRoleDefs) permission then true
  else
    match findAssignment hubRoles hubId with
    | none => false
    | some assignment =>
      permissionGranted (resolvePermissions assignment.roleIds allRoleDefs) permission

def resolveHubPermissions (globalRoles : List String) (hubRoles : List HubRole)
    (allRoleDefs : List Role) (hubId : String) : List String :=
  (resolvePermissions globalRoles allRoleDefs ++
    match findAssignment hubRoles hubId with
    | none => []
    | some assignment => resolvePermissions assignment.roleIds allRoleDefs).eraseDups

/-- The hubs that a user has access to; none stands for `null`, for all of them. -/
def getUserHubIds (globalRoles : List String) (hubRoles : List HubRole) (allRoleDefs : List Role) :
    Option (List String) :=
  if permissionGranted (resolvePermissions globalRoles allRoleDefs) "*" then none
  else some (hubRoles.map HubRole.hubId)

/-! ## What they resolve to -/

/-- Some of the roles is defined with a permission. -/
def Grants (roles : List Role) (roleIds : List String) : Prop :=
  ∃ roleId ∈ roleIds, ∃ role ∈ findRole roles roleId, role.permissions ≠ []

variable {granted roleIds globalRoles : List String} {roles : List Role} {hubRoles : List HubRole}
  {hubId permission : String}

theorem permissionGranted_iff : permissionGranted granted permission = true ↔
    "*" ∈ granted ∨ permission ∈ granted ∨ domain permission ++ ":*" ∈ granted := by
  simp [permissionGranted, or_assoc]

/-- Who is granted something has a permission. -/
theorem ne_nil_of_permissionGranted (h : permissionGranted granted permission = true) :
    granted ≠ [] := by
  rcases permissionGranted_iff.mp h with h | h | h <;> exact List.ne_nil_of_mem h

/-- A permission grants itself. -/
theorem permissionGranted_self (h : permission ∈ granted) :
    permissionGranted granted permission = true :=
  permissionGranted_iff.mpr (.inr (.inl h))

theorem mem_resolvePermissions : permission ∈ resolvePermissions roleIds roles ↔
    ∃ roleId ∈ roleIds, ∃ role ∈ findRole roles roleId, permission ∈ role.permissions := by
  rw [resolvePermissions, List.mem_eraseDups, List.mem_flatMap]
  refine exists_congr fun roleId => and_congr_right fun _ => ?_
  cases findRole roles roleId <;> simp

theorem resolvePermissions_ne_nil_iff : resolvePermissions roleIds roles ≠ [] ↔
    Grants roles roleIds := by
  constructor
  · intro h
    obtain ⟨permission, hmem⟩ := List.exists_mem_of_ne_nil _ h
    obtain ⟨roleId, hid, role, hrole, hpermission⟩ := mem_resolvePermissions.mp hmem
    exact ⟨roleId, hid, role, hrole, List.ne_nil_of_mem hpermission⟩
  · rintro ⟨roleId, hid, role, hrole, hne⟩
    obtain ⟨permission, hmem⟩ := List.exists_mem_of_ne_nil _ hne
    exact List.ne_nil_of_mem (mem_resolvePermissions.mpr ⟨roleId, hid, role, hrole, hmem⟩)

theorem mem_resolveHubPermissions :
    permission ∈ resolveHubPermissions globalRoles hubRoles roles hubId ↔
      permission ∈ resolvePermissions globalRoles roles ∨
        ∃ assignment ∈ findAssignment hubRoles hubId,
          permission ∈ resolvePermissions assignment.roleIds roles := by
  rw [resolveHubPermissions, List.mem_eraseDups, List.mem_append]
  refine or_congr_right ?_
  cases findAssignment hubRoles hubId <;> simp

/-- **A permission in a hub** comes of a global role, or of a role in the entry for the hub. -/
theorem resolveHubPermissions_ne_nil_iff :
    resolveHubPermissions globalRoles hubRoles roles hubId ≠ [] ↔
      Grants roles globalRoles ∨
        ∃ assignment ∈ findAssignment hubRoles hubId, Grants roles assignment.roleIds := by
  simp only [← resolvePermissions_ne_nil_iff]
  constructor
  · intro h
    obtain ⟨permission, hmem⟩ := List.exists_mem_of_ne_nil _ h
    rcases mem_resolveHubPermissions.mp hmem with hglobal | ⟨assignment, hfind, hassigned⟩
    · exact .inl (List.ne_nil_of_mem hglobal)
    · exact .inr ⟨assignment, hfind, List.ne_nil_of_mem hassigned⟩
  · rintro (hne | ⟨assignment, hfind, hne⟩)
    · obtain ⟨permission, hmem⟩ := List.exists_mem_of_ne_nil _ hne
      exact List.ne_nil_of_mem (mem_resolveHubPermissions.mpr (.inl hmem))
    · obtain ⟨permission, hmem⟩ := List.exists_mem_of_ne_nil _ hne
      exact List.ne_nil_of_mem (mem_resolveHubPermissions.mpr (.inr ⟨assignment, hfind, hmem⟩))

/-- The global wildcard is a permission. -/
theorem Grants.of_wildcard
    (h : permissionGranted (resolvePermissions globalRoles roles) "*" = true) :
    Grants roles globalRoles :=
  resolvePermissions_ne_nil_iff.mp (ne_nil_of_permissionGranted h)

theorem findAssignment_isSome_iff :
    (∃ assignment, findAssignment hubRoles hubId = some assignment) ↔
      ∃ entry ∈ hubRoles, entry.hubId = hubId := by
  rw [← Option.isSome_iff_exists, findAssignment, List.find?_isSome]
  simp

/-- **A user is listed** in every hub by the global wildcard, otherwise by the entries. -/
theorem mem_getUserHubIds :
    (∀ hubIds ∈ getUserHubIds globalRoles hubRoles roles, hubId ∈ hubIds) ↔
      permissionGranted (resolvePermissions globalRoles roles) "*" = true ∨
        ∃ entry ∈ hubRoles, entry.hubId = hubId := by
  unfold getUserHubIds
  split_ifs with hwildcard
  · simp [hwildcard]
  · simp [hwildcard]

/-- A user is granted something in a hub exactly if the roles resolve to a permission there. -/
theorem exists_hasHubPermission_iff :
    (∃ permission, hasHubPermission globalRoles hubRoles roles hubId permission = true) ↔
      resolveHubPermissions globalRoles hubRoles roles hubId ≠ [] := by
  rw [resolveHubPermissions_ne_nil_iff]
  constructor
  · rintro ⟨permission, h⟩
    unfold hasHubPermission at h
    split_ifs at h with hglobal
    · exact .inl (resolvePermissions_ne_nil_iff.mp (ne_nil_of_permissionGranted hglobal))
    · split at h
      · cases h
      · next assignment hfind =>
        exact .inr ⟨assignment, hfind,
          resolvePermissions_ne_nil_iff.mp (ne_nil_of_permissionGranted h)⟩
  · rintro (hglobal | ⟨assignment, hfind, hgrants⟩)
    · obtain ⟨permission, hmem⟩ :=
        List.exists_mem_of_ne_nil _ (resolvePermissions_ne_nil_iff.mpr hglobal)
      exact ⟨permission, by simp [hasHubPermission, permissionGranted_self hmem]⟩
    · obtain ⟨permission, hmem⟩ :=
        List.exists_mem_of_ne_nil _ (resolvePermissions_ne_nil_iff.mpr hgrants)
      refine ⟨permission, ?_⟩
      rw [hasHubPermission, Option.mem_def.mp hfind]
      simp [permissionGranted_self hmem]

end Llamenos.Shared.Permissions
