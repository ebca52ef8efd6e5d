import Llamenos.Lib.CachedReads
import Llamenos.Lib.Runs
import Mathlib.Order.Lattice

/-!
# The roles and their cache

`getRoles` keeps the roles for thirty seconds in a variable of the server. `updateRole` empties the
variable after its UPDATE; `createRole` and `deleteRole` leave that to their callers, through
`invalidateRolesCache`, which not all of them call. A `getRoles` that has read the roles before a
change may store them after it.

Each statement is a step of its own, and each stretch of code between two of them.

Results:
* `view_step`: what a step does to the cache, and to what may be served from it.
* `sound_step`: what is read, cached and served is the table as it was after some change.
* `roles_iff`: **no call is served roles that lack a change returned before it came**, exactly if no
  change returns while older roles are cached, and no roles are cached that lack a change returned
  by then.
-/

namespace Llamenos.Worker.Settings.Roles

open Llamenos.Lib Llamenos.Lib.CachedReads

def ROLES_CACHE_TTL_MS : Int := 30000

/-! ## The data -/

/-- A row of `roles`. -/
structure RoleRow where
  id : String
  name : Option String
  slug : String
  permissions : List String
  isDefault : Bool
  isSystem : Bool
  description : String
  encryptedName : Option String
  encryptedDescription : Option String
  createdAt : Int
  updatedAt : Int
  deriving DecidableEq

structure Envelope where
  adminPubkey : String
  encryptedName : String
  encryptedDescription : String
  deriving DecidableEq

/-- A row of `platform_role_envelopes`. -/
structure EnvelopeRow where
  roleId : String
  envelope : Envelope
  deriving DecidableEq

/-- A role as it is served: the columns of its row, its envelopes, and how many users have it. -/
structure Role where
  row : RoleRow
  envelopes : List Envelope
  assignedUserCount : Nat
  deriving DecidableEq

/-- What `createRole` reads of its argument. -/
structure CreateData where
  id : Option String
  name : Option String
  slug : Option String
  permissions : Option (List String)
  description : Option String
  encryptedName : Option String
  encryptedDescription : Option String
  envelopes : List Envelope
  deriving DecidableEq

/-- What `updateRole` reads of its argument. -/
structure UpdateData where
  description : Option String
  permissions : Option (List String)
  deriving DecidableEq

inductive Failure where
  | service (status : Nat) (message : String)
  | database
  | typeError
  deriving DecidableEq

/-- What a change returns. -/
inductive Reply where
  | role (role : Role)
  | updated (row : RoleRow)
  | ok
  deriving DecidableEq

/-- A call, with the next thing it is to do. `since` is the newest change that had returned when the
call came, `version` the one it has made, or that the rows it has read are of. -/
inductive Call where
  | reading (since : Nat) (now : Int)
  | readRoles (since : Nat) (now : Int) (version : Nat) (rows : List RoleRow)
  | readEnvelopes (since : Nat) (now : Int) (version : Nat) (rows : List RoleRow)
      (envelopes : List EnvelopeRow)
  | served (since version : Nat) (roles : List Role)
  | creating (data : CreateData) (randomId : String)
  | inserted (version : Nat) (role : Role) (left : List Envelope)
  | updating (id : String) (data : UpdateData)
  | updated (version : Nat) (id : String)
  | invalidated (version : Nat) (id : String)
  | deleting (id : String)
  | deleted (version : Nat)
  | returned (reply : Reply)
  | failed (failure : Failure)
  deriving DecidableEq

structure Cache where
  roles : List Role
  expiresAt : Int
  version : Nat

/-- `tables v` are the rows of `roles` after `v` changes, and `version` changes have been made. -/
structure State where
  clock : Int
  tables : Nat → List RoleRow
  version : Nat
  returned : Nat
  envelopes : List EnvelopeRow
  userRoles : List (List String)
  rolesCache : Option Cache
  calls : Nat → Option Call

def start (clock : Int) (rows : List RoleRow) (envelopes : List EnvelopeRow)
    (userRoles : List (List String)) : State :=
  ⟨clock, fun _ => rows, 0, 0, envelopes, userRoles, none, fun _ => none⟩

inductive Request where
  | getRoles
  | createRole (data : CreateData) (randomId : String)
  | updateRole (id : String) (data : UpdateData)
  | deleteRole (id : String)

inductive Event where
  | tick (ms : Nat)
  | assign (userRoles : List (List String))
  | invalidateRolesCache
  | call (c : Nat) (request : Request)
  | goOn (c : Nat)

/-! ## The calls -/

abbrev State.rows (s : State) : List RoleRow := s.tables s.version

def State.find (s : State) (id : String) : Option RoleRow := s.rows.find? (·.id = id)

/-- `rows.map(...)`, with the envelopes by role, and the users counted by role. -/
def rolesList (rows : List RoleRow) (envelopes : List EnvelopeRow)
    (userRoles : List (List String)) : List Role :=
  rows.map fun row =>
    { row
      envelopes := (envelopes.filter (·.roleId = row.id)).map EnvelopeRow.envelope
      assignedUserCount := userRoles.flatten.count row.id }

/-- `/^[a-z0-9-]+$/.test(slug)`. -/
def slugAllowed (slug : String) : Bool :=
  slug ≠ "" && slug.toList.all fun c => c.isLower || c.isDigit || c = '-'

/-- `createRole` up to its first SELECT. -/
def checkCreate (s : State) (data : CreateData) (randomId : String) : Call :=
  match data.slug, data.permissions with
  | some slug, some _ =>
    if slug = "" then .failed (.service 400 "slug and permissions are required")
    else if !slugAllowed slug then
      .failed (.service 400 "slug must be lowercase alphanumeric with hyphens")
    else if s.rows.any (·.slug = slug) then
      .failed (.service 409 s!"Role slug \"{slug}\" already exists")
    else .creating data randomId
  | _, _ => .failed (.service 400 "slug and permissions are required")

/-- What a call does first. -/
def begin (s : State) : Request → Call
  | .getRoles =>
    match s.rolesCache with
    | some cache =>
      if cache.expiresAt > s.clock then .served s.returned cache.version cache.roles
      else .reading s.returned s.clock
    | none => .reading s.returned s.clock
  | .createRole data randomId => checkCreate s data randomId
  | .updateRole id data =>
    match s.find id with
    | none => .failed (.service 404 "Role not found")
    | some existing =>
      if existing.isSystem then .failed (.service 403 "Cannot modify system roles")
      else .updating id data
  | .deleteRole id =>
    match s.find id with
    | none => .failed (.service 404 "Role not found")
    | some existing =>
      if existing.isDefault then .failed (.service 403 "Cannot delete default roles")
      else .deleting id

/-- A statement changes the rows of `roles`. -/
def State.change (s : State) (rows : List RoleRow) : State :=
  { s with tables := Function.update s.tables (s.version + 1) rows, version := s.version + 1 }

/-- The row that `createRole` inserts. -/
def newRow (data : CreateData) (randomId : String) (now : Int) : RoleRow where
  id := data.id.getD s!"role-{randomId}"
  name := data.name
  slug := data.slug.getD ""
  permissions := data.permissions.getD []
  isDefault := false
  isSystem := false
  description := data.description.getD ""
  encryptedName := data.encryptedName
  encryptedDescription := data.encryptedDescription
  createdAt := now
  updatedAt := now

/-- The primary key, and the unique index of `slug`. -/
def admits (rows : List RoleRow) (row : RoleRow) : Bool :=
  rows.all fun other => other.id ≠ row.id && other.slug ≠ row.slug

/-- An empty text is not set. -/
def updatedRow (data : UpdateData) (now : Int) (row : RoleRow) : RoleRow :=
  { row with
    updatedAt := now
    description := (data.description.filter (· ≠ "")).getD row.description
    permissions := data.permissions.getD row.permissions }

/-- The foreign key, and the unique index of the role and the key. -/
def admitsEnvelope (s : State) (row : EnvelopeRow) : Bool :=
  (s.find row.roleId).isSome &&
    s.envelopes.all fun other =>
      other.roleId ≠ row.roleId || other.envelope.adminPubkey ≠ row.envelope.adminPubkey

/-- The next statement of a call, and the code after it. -/
def goOn (s : State) : Call → Option (State × Call)
  | .reading since now => some (s, .readRoles since now s.version s.rows)
  | .readRoles since now version rows =>
    some (s, .readEnvelopes since now version rows s.envelopes)
  | .readEnvelopes since now version rows envelopes =>
    let roles := rolesList rows envelopes s.userRoles
    -- an empty result is not cached
    if rows = [] then some (s, .served since version roles)
    else some ({ s with rolesCache := some ⟨roles, now + ROLES_CACHE_TTL_MS, version⟩ },
      .served since version roles)
  | .creating data randomId =>
    let row := newRow data randomId s.clock
    if admits s.rows row then
      some (s.change (s.rows ++ [row]),
        .inserted (s.version + 1) ⟨row, data.envelopes, 0⟩ data.envelopes)
    else some (s, .failed .database)
  | .inserted _ role [] => some (s, .returned (.role role))
  | .inserted version role (envelope :: left) =>
    if admitsEnvelope s ⟨role.row.id, envelope⟩ then
      some ({ s with envelopes := s.envelopes ++ [⟨role.row.id, envelope⟩] },
        .inserted version role left)
    else some (s, .failed .database)
  | .updating id data =>
    some (s.change (s.rows.map fun row => if row.id = id then updatedRow data s.clock row else row),
      .updated (s.version + 1) id)
  | .updated version id => some ({ s with rolesCache := none }, .invalidated version id)
  | .invalidated _ id =>
    match s.find id with
    | some row => some (s, .returned (.updated
        { row with encryptedName := none, encryptedDescription := none }))
    -- the row is gone: `updated.id` of `undefined`
    | none => some (s, .failed .typeError)
  | .deleting id =>
    some ({ s.change (s.rows.filter (·.id ≠ id)) with
        envelopes := s.envelopes.filter (·.roleId ≠ id) },
      .deleted (s.version + 1))
  | .deleted _ => some (s, .returned .ok)
  | .served _ _ _ | .returned _ | .failed _ => none

/-- The change that a call has made, when it returns. -/
def returning (s : State) : Call → Option Nat
  | .inserted version _ [] | .deleted version => some version
  | .invalidated version id => (s.find id).map fun _ => version
  | _ => none

def State.setCall (s : State) (c : Nat) (call : Call) : State :=
  { s with calls := Function.update s.calls c (some call) }

def step (s : State) : Event → Option State
  | .tick ms => some { s with clock := s.clock + ms }
  | .assign userRoles => some { s with userRoles }
  | .invalidateRolesCache => some { s with rolesCache := none }
  | .call c request =>
    match s.calls c with
    | none => some (s.setCall c (begin s request))
    | some _ => none
  | .goOn c =>
    (s.calls c).bind fun call => (goOn s call).map fun next =>
      let returned := (returning s call).elim s.returned (max s.returned)
      { next.1 with returned }.setCall c next.2

/-! ## What is served -/

/-- What may be served from the cache. -/
def view (s : State) : View where
  clock := s.clock
  version := s.version
  returned := s.returned
  cached := s.rolesCache.map fun cache => (cache.version, cache.expiresAt)

/-- Each call of `getRoles` is served the rows as they were after the last change that had returned
when it came, or after a later one; and so would be a call that comes now. -/
structure UpToDate (s : State) : Prop where
  served : ∀ c since version roles, s.calls c = some (.served since version roles) →
    since ≤ version ∧ version ≤ s.version ∧ roles.map Role.row = s.tables version
  next : ∀ cache, s.rolesCache = some cache → s.clock < cache.expiresAt →
    s.returned ≤ cache.version ∧ cache.version ≤ s.version ∧
      cache.roles.map Role.row = s.tables cache.version

/-- What the next statement of a call does to the cache, or to the roles. -/
def callEffect (s : State) : Call → Act
  | .readEnvelopes _ now version rows _ =>
    if rows = [] then .nothing else .store version (now + ROLES_CACHE_TTL_MS)
  | .creating data randomId =>
    if admits s.rows (newRow data randomId s.clock) then .change else .nothing
  | .updating _ _ | .deleting _ => .change
  | .updated _ _ => .drop
  | call => (returning s call).elim .nothing .finish

def effect (s : State) : Event → Act
  | .tick ms => .tick ms
  | .assign _ | .call _ _ => .nothing
  | .invalidateRolesCache => .drop
  | .goOn c => (s.calls c).elim .nothing (callEffect s)

/-- A change does not return while older roles are cached, and a call does not cache roles that lack
a change that has returned, but for the time they have. -/
def Timely (s : State) (e : Event) : Prop := (view s).Timely (effect s e)

instance (s : State) (e : Event) : Decidable (Timely s e) :=
  inferInstanceAs (Decidable ((view s).Timely (effect s e)))

variable {s t : State} {e : Event} {es : List Event} {call : Call}

@[simp] theorem view_setCall (c : Nat) (call : Call) : view (s.setCall c call) = view s := rfl

theorem goOn_step {c : Nat} (h : step s (.goOn c) = some t) :
    ∃ call s' call', s.calls c = some call ∧ goOn s call = some (s', call') ∧
      t = { s' with returned := (returning s call).elim s.returned (max s.returned) }.setCall c
        call' := by
  obtain ⟨call, hcall, hmap⟩ := Option.bind_eq_some_iff.mp h
  obtain ⟨⟨s', call'⟩, hnext, ht⟩ := Option.map_eq_some_iff.mp hmap
  exact ⟨call, s', call', hcall, hnext, ht.symm⟩

theorem goOn_view {s' : State} {call' : Call} (h : goOn s call = some (s', call')) :
    view { s' with returned := (returning s call).elim s.returned (max s.returned) } =
      (view s).act (callEffect s call) := by
  cases call with
  | readEnvelopes since now version rows envelopes =>
    simp only [goOn] at h
    simp only [callEffect]
    split_ifs at h ⊢ <;> obtain ⟨rfl, rfl⟩ := Prod.mk.inj (Option.some.inj h) <;> rfl
  | creating data randomId =>
    simp only [goOn] at h
    simp only [callEffect]
    split_ifs at h ⊢ <;> obtain ⟨rfl, rfl⟩ := Prod.mk.inj (Option.some.inj h) <;> rfl
  | inserted version role left =>
    cases left with
    | nil =>
      obtain ⟨rfl, rfl⟩ := Prod.mk.inj (Option.some.inj h)
      rfl
    | cons envelope left =>
      simp only [goOn] at h
      split_ifs at h <;> obtain ⟨rfl, rfl⟩ := Prod.mk.inj (Option.some.inj h) <;> rfl
  | invalidated version id =>
    simp only [goOn] at h
    simp only [callEffect, returning]
    cases hrow : s.find id with
    | some row =>
      rw [hrow] at h
      obtain ⟨rfl, rfl⟩ := Prod.mk.inj (Option.some.inj h)
      rfl
    | none =>
      rw [hrow] at h
      obtain ⟨rfl, rfl⟩ := Prod.mk.inj (Option.some.inj h)
      rfl
  | served since version roles => cases h
  | returned reply => cases h
  | failed failure => cases h
  | _ =>
    obtain ⟨rfl, rfl⟩ := Prod.mk.inj (Option.some.inj h)
    rfl

/-- **What a step does to the cache**, and to what may be served from it. -/
theorem view_step (h : step s e = some t) : view t = (view s).act (effect s e) := by
  cases e with
  | call c request =>
    simp only [step] at h
    split at h
    · rw [← Option.some.inj h]
      rfl
    · cases h
  | goOn c =>
    obtain ⟨call, s', call', hcall, hnext, rfl⟩ := goOn_step h
    rw [view_setCall, effect, hcall, Option.elim_some]
    exact goOn_view hnext
  | _ =>
    rw [← Option.some.inj h]
    rfl

/-! ## What holds in every run -/

/-- The rows that a call has read, and what it serves, are those of their version. -/
def CallOk (s : State) : Call → Prop
  | .reading since _ => since ≤ s.version
  | .readRoles since _ version rows | .readEnvelopes since _ version rows _ =>
    since ≤ version ∧ version ≤ s.version ∧ rows = s.tables version
  | .served _ version roles => version ≤ s.version ∧ roles.map Role.row = s.tables version
  | .inserted version _ _ | .updated version _ | .invalidated version _ | .deleted version =>
    version ≤ s.version
  | .creating _ _ | .updating _ _ | .deleting _ | .returned _ | .failed _ => True

def CacheOk (s : State) (cache : Cache) : Prop :=
  cache.version ≤ s.version ∧ cache.roles.map Role.row = s.tables cache.version

structure Sound (s : State) : Prop where
  returned : s.returned ≤ s.version
  cache : ∀ cache, s.rolesCache = some cache → CacheOk s cache
  calls : ∀ c call, s.calls c = some call → CallOk s call

/-- The tables of the changes made so far stay as they are. -/
structure Grows (s t : State) : Prop where
  version : s.version ≤ t.version
  tables : ∀ v ≤ s.version, t.tables v = s.tables v

theorem Grows.refl (s : State) : Grows s s := ⟨le_refl _, fun _ _ => rfl⟩

theorem grows_change (rows : List RoleRow) : Grows s (s.change rows) := by
  refine ⟨Nat.le_succ _, fun v hv => Function.update_of_ne ?_ _ _⟩
  omega

theorem CallOk.mono (hok : CallOk s call) (hgrows : Grows s t) : CallOk t call := by
  obtain ⟨hversion, htables⟩ := hgrows
  cases call with
  | reading since now => exact le_trans hok hversion
  | readRoles since now version rows =>
    obtain ⟨hsince, hle, hrows⟩ := hok
    exact ⟨hsince, hle.trans hversion, hrows.trans (htables version hle).symm⟩
  | readEnvelopes since now version rows envelopes =>
    obtain ⟨hsince, hle, hrows⟩ := hok
    exact ⟨hsince, hle.trans hversion, hrows.trans (htables version hle).symm⟩
  | served since version roles =>
    obtain ⟨hle, hrows⟩ := hok
    exact ⟨hle.trans hversion, hrows.trans (htables version hle).symm⟩
  | inserted version role left => exact le_trans hok hversion
  | updated version id => exact le_trans hok hversion
  | invalidated version id => exact le_trans hok hversion
  | deleted version => exact le_trans hok hversion
  | _ => trivial

theorem CacheOk.mono {cache : Cache} (hok : CacheOk s cache) (hgrows : Grows s t) :
    CacheOk t cache :=
  ⟨hok.1.trans hgrows.version, hok.2.trans (hgrows.tables _ hok.1).symm⟩

theorem rolesList_row (rows : List RoleRow) (envelopes : List EnvelopeRow)
    (userRoles : List (List String)) :
    (rolesList rows envelopes userRoles).map Role.row = rows := by
  simp [rolesList, Function.comp_def]

/-- **What the next statement of a call leaves**: the rows that were there, a call and a cache as
they are to be, and a newer list to be served, if it is. -/
structure WentOn (s s' : State) (call' : Call) : Prop where
  calls : s'.calls = s.calls
  returned : s'.returned = s.returned
  grows : Grows s s'
  call : CallOk s' call'
  cache : ∀ cache, s'.rolesCache = some cache → s.rolesCache = some cache ∨ CacheOk s' cache
  newer : ∀ since version roles, call' = .served since version roles → since ≤ version

/-- A statement that leaves the rows and the cache, for a call that is not served. -/
theorem WentOn.quiet {s' : State} {call' : Call} (hcalls : s'.calls = s.calls)
    (hreturned : s'.returned = s.returned) (hgrows : Grows s s')
    (hcache : s'.rolesCache = s.rolesCache ∨ s'.rolesCache = none) (hcall : CallOk s' call')
    (hserved : ∀ since version roles, call' ≠ .served since version roles) : WentOn s s' call' where
  calls := hcalls
  returned := hreturned
  grows := hgrows
  call := hcall
  cache cache hsome := by
    rcases hcache with hsame | hnone
    · exact .inl (hsame ▸ hsome)
    · rw [hnone] at hsome
      cases hsome
  newer since version roles h := absurd h (hserved since version roles)

theorem goOn_wentOn {s' : State} {call' : Call} (hok : CallOk s call)
    (h : goOn s call = some (s', call')) : WentOn s s' call' := by
  have hstays : ∀ {call'}, CallOk s call' →
      (∀ since version roles, call' ≠ .served since version roles) → WentOn s s call' :=
    fun hcall hserved => .quiet rfl rfl (.refl s) (.inl rfl) hcall hserved
  cases call with
  | reading since now =>
    obtain ⟨rfl, rfl⟩ := Prod.mk.inj (Option.some.inj h)
    exact hstays ⟨hok, le_refl _, rfl⟩ (by simp)
  | readRoles since now version rows =>
    obtain ⟨rfl, rfl⟩ := Prod.mk.inj (Option.some.inj h)
    exact hstays hok (by simp)
  | readEnvelopes since now version rows envelopes =>
    obtain ⟨hsince, hle, rfl⟩ := hok
    have hrows := rolesList_row (s.tables version) envelopes s.userRoles
    simp only [goOn] at h
    split_ifs at h
    · obtain ⟨rfl, rfl⟩ := Prod.mk.inj (Option.some.inj h)
      refine ⟨rfl, rfl, .refl s, ⟨hle, hrows⟩, fun cache hcache => .inl hcache, ?_⟩
      rintro _ _ _ ⟨⟩
      exact hsince
    · obtain ⟨rfl, rfl⟩ := Prod.mk.inj (Option.some.inj h)
      refine ⟨rfl, rfl, ⟨le_refl _, fun _ _ => rfl⟩, ⟨hle, hrows⟩, fun cache hcache => .inr ?_, ?_⟩
      · obtain rfl := Option.some.inj hcache
        exact ⟨hle, hrows⟩
      · rintro _ _ _ ⟨⟩
        exact hsince
  | creating data randomId =>
    simp only [goOn] at h
    split_ifs at h
    · obtain ⟨rfl, rfl⟩ := Prod.mk.inj (Option.some.inj h)
      exact .quiet rfl rfl (grows_change _) (.inl rfl) (le_refl _) (by simp)
    · obtain ⟨rfl, rfl⟩ := Prod.mk.inj (Option.some.inj h)
      exact hstays trivial (by simp)
  | inserted version role left =>
    cases left with
    | nil =>
      obtain ⟨rfl, rfl⟩ := Prod.mk.inj (Option.some.inj h)
      exact hstays trivial (by simp)
    | cons envelope left =>
      simp only [goOn] at h
      split_ifs at h
      · obtain ⟨rfl, rfl⟩ := Prod.mk.inj (Option.some.inj h)
        exact .quiet rfl rfl ⟨le_refl _, fun _ _ => rfl⟩ (.inl rfl) hok (by simp)
      · obtain ⟨rfl, rfl⟩ := Prod.mk.inj (Option.some.inj h)
        exact hstays trivial (by simp)
  | updating id data =>
    obtain ⟨rfl, rfl⟩ := Prod.mk.inj (Option.some.inj h)
    exact .quiet rfl rfl (grows_change _) (.inl rfl) (le_refl _) (by simp)
  | updated version id =>
    obtain ⟨rfl, rfl⟩ := Prod.mk.inj (Option.some.inj h)
    exact .quiet rfl rfl ⟨le_refl _, fun _ _ => rfl⟩ (.inr rfl) hok (by simp)
  | invalidated version id =>
    simp only [goOn] at h
    split at h <;> obtain ⟨rfl, rfl⟩ := Prod.mk.inj (Option.some.inj h) <;>
      exact hstays trivial (by simp)
  | deleting id =>
    obtain ⟨rfl, rfl⟩ := Prod.mk.inj (Option.some.inj h)
    obtain ⟨hversion, htables⟩ := grows_change (s := s) (s.rows.filter (·.id ≠ id))
    exact .quiet rfl rfl ⟨hversion, htables⟩ (.inl rfl) (le_refl _) (by simp)
  | deleted version =>
    obtain ⟨rfl, rfl⟩ := Prod.mk.inj (Option.some.inj h)
    exact hstays trivial (by simp)
  | served since version roles => cases h
  | returned reply => cases h
  | failed failure => cases h

/-- A change that returns has been made. -/
theorem returning_le (hok : CallOk s call) {version : Nat} (h : returning s call = some version) :
    version ≤ s.version := by
  cases call with
  | inserted v role left =>
    cases left with
    | nil => exact Option.some.inj h ▸ hok
    | cons envelope left => cases h
  | deleted v => exact Option.some.inj h ▸ hok
  | invalidated v id =>
    obtain ⟨row, -, rfl⟩ := Option.map_eq_some_iff.mp h
    exact hok
  | _ => cases h

/-- What a call does first is as it is to be. -/
theorem begin_ok (hs : Sound s) (request : Request) : CallOk s (begin s request) := by
  cases request with
  | getRoles =>
    simp only [begin]
    split
    next cache hcache =>
      split_ifs
      · exact hs.cache cache hcache
      · exact hs.returned
    next => exact hs.returned
  | createRole data randomId =>
    simp only [begin, checkCreate]
    split
    · split_ifs <;> trivial
    · trivial
  | updateRole id data =>
    simp only [begin]
    split
    · trivial
    · split_ifs <;> trivial
  | deleteRole id =>
    simp only [begin]
    split
    · trivial
    · split_ifs <;> trivial

/-- A call that is served at once is served what is cached. -/
theorem begin_served {request : Request} {since version : Nat} {roles : List Role}
    (hfresh : (view s).Fresh) (h : begin s request = .served since version roles) :
    since ≤ version := by
  cases request with
  | getRoles =>
    simp only [begin] at h
    split at h
    next cache hcache =>
      split_ifs at h with hclock
      obtain ⟨rfl, rfl, -⟩ := Call.served.inj h
      exact hfresh (cache.version, cache.expiresAt) (by simp [view, hcache]) hclock
    next => cases h
  | createRole data randomId =>
    simp only [begin, checkCreate] at h
    split at h
    · split_ifs at h
    · cases h
  | updateRole id data =>
    simp only [begin] at h
    split at h
    · cases h
    · split_ifs at h
  | deleteRole id =>
    simp only [begin] at h
    split at h
    · cases h
    · split_ifs at h

/-- Each call that has been served has the changes that had returned when it came. -/
def ServedNewer (s : State) : Prop :=
  ∀ c since version roles, s.calls c = some (.served since version roles) → since ≤ version

theorem servedNewer_step (hs : Sound s) (hfresh : (view s).Fresh) (hserved : ServedNewer s)
    (h : step s e = some t) : ServedNewer t := by
  intro c since version roles hc
  cases e with
  | call d request =>
    simp only [step] at h
    split at h
    · rw [← Option.some.inj h] at hc
      rcases Runs.update_eq_some hc with ⟨-, hnew⟩ | ⟨-, hold⟩
      · exact begin_served hfresh (Option.some.inj hnew)
      · exact hserved c since version roles hold
    · cases h
  | goOn d =>
    obtain ⟨call, s', call', hcall, hnext, rfl⟩ := goOn_step h
    have hwent := goOn_wentOn (hs.calls d call hcall) hnext
    rcases Runs.update_eq_some hc with ⟨-, hnew⟩ | ⟨-, hold⟩
    · exact hwent.newer since version roles (Option.some.inj hnew)
    · exact hserved c since version roles (hwent.calls ▸ hold)
  | _ =>
    rw [← Option.some.inj h] at hc
    exact hserved c since version roles hc

theorem sound_step (hs : Sound s) (h : step s e = some t) : Sound t := by
  cases e with
  | call d request =>
    simp only [step] at h
    split at h
    · rw [← Option.some.inj h]
      refine ⟨hs.returned, hs.cache, fun c call hc => ?_⟩
      rcases Runs.update_eq_some hc with ⟨-, hnew⟩ | ⟨-, hold⟩
      · exact Option.some.inj hnew ▸ begin_ok hs request
      · exact hs.calls c call hold
    · cases h
  | goOn d =>
    obtain ⟨call, s', call', hcall, hnext, rfl⟩ := goOn_step h
    have hok := hs.calls d call hcall
    have hwent := goOn_wentOn hok hnext
    have hgrows : Grows s ({ s' with
        returned := (returning s call).elim s.returned (max s.returned) }.setCall d call') :=
      ⟨hwent.grows.version, hwent.grows.tables⟩
    refine ⟨?_, fun cache hcache => ?_, fun c call₁ hc => ?_⟩
    · show (returning s call).elim s.returned (max s.returned) ≤ s'.version
      cases hreturning : returning s call with
      | none => exact hs.returned.trans hwent.grows.version
      | some version =>
        exact max_le (hs.returned.trans hwent.grows.version)
          ((returning_le hok hreturning).trans hwent.grows.version)
    · rcases hwent.cache cache hcache with hold | hnew
      · exact (hs.cache cache hold).mono hgrows
      · exact hnew
    · rcases Runs.update_eq_some hc with ⟨-, hnew⟩ | ⟨-, hold⟩
      · exact Option.some.inj hnew ▸ hwent.call
      · exact (hs.calls c call₁ (hwent.calls ▸ hold)).mono hgrows
  | invalidateRolesCache =>
    rw [← Option.some.inj h]
    exact ⟨hs.returned, fun cache hcache => (by cases hcache), hs.calls⟩
  | tick ms =>
    rw [← Option.some.inj h]
    exact ⟨hs.returned, hs.cache, hs.calls⟩
  | assign userRoles =>
    rw [← Option.some.inj h]
    exact ⟨hs.returned, hs.cache, hs.calls⟩

theorem sound_start (clock : Int) (rows : List RoleRow) (envelopes : List EnvelopeRow)
    (userRoles : List (List String)) : Sound (start clock rows envelopes userRoles) :=
  ⟨le_refl _, fun _ h => (by cases h), fun _ _ h => (by cases h)⟩

/-! ## Fresh roles -/

theorem upToDate_iff (hs : Sound s) : UpToDate s ↔ ServedNewer s ∧ (view s).Fresh := by
  constructor
  · intro hup
    refine ⟨fun c since version roles hc => (hup.served c since version roles hc).1, ?_⟩
    intro cached hcached hclock
    obtain ⟨cache, hcache, rfl⟩ := Option.map_eq_some_iff.mp hcached
    exact (hup.next cache hcache hclock).1
  · rintro ⟨hserved, hfresh⟩
    refine ⟨fun c since version roles hc => ?_, fun cache hcache hclock => ?_⟩
    · exact ⟨hserved c since version roles hc, hs.calls c _ hc⟩
    · refine ⟨hfresh (cache.version, cache.expiresAt) ?_ hclock, hs.cache cache hcache⟩
      simp [view, hcache]

theorem upToDate_step (hs : Sound s) (hup : UpToDate s) (h : step s e = some t) :
    UpToDate t ↔ Timely s e := by
  obtain ⟨hserved, hfresh⟩ := (upToDate_iff hs).mp hup
  rw [upToDate_iff (sound_step hs h), view_step h, fresh_act hfresh]
  exact and_iff_right (servedNewer_step hs hfresh hserved h)

/-- **No call is served roles that lack a change returned before it came**, at each moment of a run,
exactly if no change returns while older roles are cached, and no call caches roles that lack a
change returned by then, but for those whose time is over. -/
theorem roles_iff {clock : Int} {rows : List RoleRow} {envelopes : List EnvelopeRow}
    {userRoles : List (List String)}
    (h : Runs.run step (start clock rows envelopes userRoles) es = some t) :
    (∀ before after m, es = before ++ after →
        Runs.run step (start clock rows envelopes userRoles) before = some m → UpToDate m) ↔
      Runs.Along step Timely (start clock rows envelopes userRoles) es := by
  have hstart : UpToDate (start clock rows envelopes userRoles) :=
    ⟨fun _ _ _ _ hc => (by cases hc), fun _ hcache => (by cases hcache)⟩
  exact Runs.inv_iff_along (I := Sound) (fun _ _ _ => sound_step)
    (fun _ _ _ hs hup hstep => upToDate_step hs hup hstep)
    (sound_start clock rows envelopes userRoles) hstart h

/-- A role with two permissions; one user has it. -/
def medic : RoleRow :=
  ⟨"role-medic", none, "medic", ["notes:read", "notes:write"], false, false, "", none, none, 0, 0⟩

/-- The roles are read and cached; a permission is taken away, and the next call does not see it. -/
theorem update_seen :
    ∃ t, Runs.run step (start 0 [medic] [] [["role-medic"]])
        [.call 0 .getRoles, .goOn 0, .goOn 0, .goOn 0,
          .call 1 (.updateRole "role-medic" ⟨none, some ["notes:read"]⟩), .goOn 1, .goOn 1, .goOn 1,
          .call 2 .getRoles, .goOn 2, .goOn 2, .goOn 2] = some t ∧ UpToDate t ∧
      t.calls 2 =
        some (.served 1 1 [⟨{ medic with permissions := ["notes:read"] }, [], 1⟩]) := by
  obtain ⟨t, hrun⟩ : ∃ t, Runs.run step (start 0 [medic] [] [["role-medic"]])
      [.call 0 .getRoles, .goOn 0, .goOn 0, .goOn 0,
        .call 1 (.updateRole "role-medic" ⟨none, some ["notes:read"]⟩), .goOn 1, .goOn 1, .goOn 1,
        .call 2 .getRoles, .goOn 2, .goOn 2, .goOn 2] = some t := ⟨_, rfl⟩
  refine ⟨t, hrun,
    (roles_iff hrun).mpr (by decide +kernel) _ [] t (List.append_nil _).symm hrun, ?_⟩
  rw [← Option.some.inj hrun]
  decide +kernel

/-- A call reads the roles, and caches them when an update that has come between has returned, and
emptied the cache, and emptied it again for its caller: the permission is served. A role that has
been deleted is served, for nothing has emptied the cache. -/
theorem stale_served :
    (∃ t, Runs.run step (start 0 [medic] [] [["role-medic"]])
        [.call 0 .getRoles, .goOn 0, .call 1 (.updateRole "role-medic" ⟨none, some ["notes:read"]⟩),
          .goOn 1, .goOn 1, .goOn 1, .invalidateRolesCache, .goOn 0, .goOn 0,
          .call 2 .getRoles] = some t ∧
      t.calls 2 = some (.served 1 0 [⟨medic, [], 1⟩]) ∧ ¬ UpToDate t) ∧
    ∃ t, Runs.run step (start 0 [medic] [] [["role-medic"]])
        [.call 0 .getRoles, .goOn 0, .goOn 0, .goOn 0, .call 1 (.deleteRole "role-medic"), .goOn 1,
          .goOn 1, .call 2 .getRoles] = some t ∧
      t.rows = [] ∧ t.calls 2 = some (.served 1 0 [⟨medic, [], 1⟩]) ∧ ¬ UpToDate t := by
  have hnot : ∀ {t : State} (roles : List Role), t.calls 2 = some (.served 1 0 roles) →
      ¬ UpToDate t := by
    intro t roles hcall hup
    exact absurd (hup.served 2 1 0 roles hcall).1 (by decide)
  refine ⟨⟨_, rfl, by decide +kernel, ?_⟩, _, rfl, by decide +kernel, by decide +kernel, ?_⟩
  · exact hnot [⟨medic, [], 1⟩] (by decide +kernel)
  · exact hnot [⟨medic, [], 1⟩] (by decide +kernel)

end Llamenos.Worker.Settings.Roles
