import Llamenos.Lib.Tables
import Llamenos.Shared.Permissions
import Llamenos.Worker.Auth
import Llamenos.Worker.Calls.Busy
import Llamenos.Worker.Shifts

/-!
# Who is rung

`resolveRingableVolunteers` (`apps/worker/services/ringing.ts`) picks the users whom a call for a
hub rings: those of the shift roster who are available, or those of the fallback group if there is
none of the roster. `getHubPresence` (`apps/worker/services/presence.ts`) shows them as available,
and who is on a call in the hub as that.

A user is a row of `users` as `getUsers` returns it: `IdentityService` knows no user under a revoked
signing key. A call for no hub, under the empty id, asks for no permission; it is not of concern
here.

Results:
* `mem_getCurrentVolunteers_iff`: the roster is that of the shifts whose interval it is.
* `mem_rungUsers_iff`: who is rung.
* `presence_users`: presence shows whom a call would ring.
* `right_ringing`: **a call rings exactly the eligible users of the roster, or of the fallback
  group**, and presence agrees.
-/

namespace Llamenos.Worker.Ringing

open Llamenos.Lib Llamenos.Shared.Permissions Llamenos.Worker.Shifts Llamenos.Worker.Calls

/-! ## The services -/

/-- A user, by `rowToUser`, as far as it is read. -/
structure User where
  pubkey : String
  roles : List String
  hubRoles : List HubRole
  active : Bool
  onBreak : Bool

/-- What the services read: tables, the fallback groups of the hubs and of the platform, where they
are arrays, and the roles. -/
structure Services where
  shifts : List Shift
  hubFallbackGroup : String → Option (List String)
  fallbackGroup : Option (List String)
  activeCalls : List (String × ActiveCall)
  activeCalls_nodup : (activeCalls.map Prod.fst).Nodup
  users : List User
  users_nodup : (users.map User.pubkey).Nodup
  users_named : ∀ user ∈ users, user.pubkey ≠ ""
  roles : List Role

variable (services : Services) (hubId : String) (now : Date)

def getFallbackGroup : List String :=
  if hubId ≠ "" then (services.hubFallbackGroup hubId).getD []
  else services.fallbackGroup.getD []

def getUsers : List User :=
  services.users.filter fun user => !Auth.isRevokedSigningKey user.pubkey

/-! ## Ringing -/

structure Ringable where
  available : List User
  usedFallback : Bool

def hasHubAccess (v : User) : Bool :=
  hubId = "" || !(resolveHubPermissions v.roles v.hubRoles services.roles hubId).isEmpty

def pickAvailable (pubkeys : List String) : List User :=
  let busyPubkeys := getBusyPubkeys (services.activeCalls.map Prod.snd) now.getTime
  (getUsers services).filter fun v =>
    pubkeys.contains v.pubkey && v.active && !v.onBreak && !busyPubkeys.contains v.pubkey &&
      hasHubAccess services hubId v

/-- `resolveRingableVolunteers`; `none` for `null`. -/
def resolveRingableVolunteers : Option Ringable :=
  let onShift := getCurrentVolunteers services.shifts hubId now
  let usedFallback := onShift.isEmpty
  let onShiftPubkeys := if usedFallback then getFallbackGroup services hubId else onShift
  if onShiftPubkeys.isEmpty then none
  else
    let available := pickAvailable services hubId now onShiftPubkeys
    if available.isEmpty && !usedFallback then
      some ⟨pickAvailable services hubId now (getFallbackGroup services hubId), true⟩
    else some ⟨available, usedFallback⟩

/-! ## Presence -/

inductive PresenceStatus where
  | available
  | onCall

structure HubPresence where
  activeCalls : Nat
  availableVolunteers : Nat
  users : List (String × PresenceStatus)

/-- The rows of the hub that are not stale, as `getActiveCalls` returns them. -/
def getActiveCalls : List (String × ActiveCall) :=
  services.activeCalls.filter fun call => call.2.hubId = some hubId && !isStale now.getTime call.2

/-- The calls that `getActiveCalls` moves to the history. -/
def staleIds : List String :=
  (services.activeCalls.filter fun call =>
    call.2.hubId = some hubId && isStale now.getTime call.2).map Prod.fst

/-- The tables after `getActiveCalls`. -/
def reaped : Services :=
  { services with
    activeCalls := services.activeCalls.filter fun call =>
      !(staleIds services hubId now).contains call.1
    activeCalls_nodup := services.activeCalls_nodup.sublist (List.filter_sublist.map Prod.fst) }

/-- `getHubPresence`, and the tables after it. -/
def getHubPresence : Services × HubPresence :=
  let active := getActiveCalls services hubId now
  let services' := reaped services hubId now
  let onCall := ((active.filter fun call => call.2.status = .inProgress).filterMap fun call =>
    call.2.answeredBy.filter fun pubkey => pubkey ≠ "").eraseDups
  let ringable := resolveRingableVolunteers services' hubId now
  let available := (((ringable.map Ringable.available).getD []).map User.pubkey).filter
    fun pubkey => !onCall.contains pubkey
  (services',
    { activeCalls := active.length
      availableVolunteers := available.length
      users := (available.map fun pubkey => (pubkey, .available)) ++
        onCall.map fun pubkey => (pubkey, .onCall) })

/-! ## Purpose -/

/-- A shift of the hub is on that has the user. -/
def OnShift (pubkey : String) : Prop :=
  ∃ shift ∈ services.shifts, shift.hubId = some hubId ∧ InInterval shift now ∧
    pubkey ∈ shift.userPubkeys

/-- The user answers a call in progress, in any hub. -/
def Answering (pubkey : String) : Prop :=
  ∃ call ∈ services.activeCalls, call.2.status = .inProgress ∧
    now.getTime - IN_PROGRESS_TTL_MS ≤ call.2.startedAt ∧ call.2.answeredBy = some pubkey

/-- A user whom a call for the hub may ring. -/
structure Eligible (user : User) : Prop where
  known : user ∈ getUsers services
  active : user.active = true
  notOnBreak : user.onBreak = false
  free : ¬ Answering services now user.pubkey
  access : ∃ permission,
    hasHubPermission user.roles user.hubRoles services.roles hubId permission = true

/-- The eligible users of the shift roster, or those of the fallback group if there is none. -/
def Target (user : User) : Prop :=
  Eligible services hubId now user ∧ (OnShift services hubId now user.pubkey ∨
    (∀ other, Eligible services hubId now other → ¬ OnShift services hubId now other.pubkey) ∧
      user.pubkey ∈ getFallbackGroup services hubId)

/-- The users whom a call rings. -/
def rungUsers : List User :=
  ((resolveRingableVolunteers services hubId now).map Ringable.available).getD []

/-- A call rings the right users, and presence shows them. -/
structure Right : Prop where
  rung : ∀ user, user ∈ rungUsers services hubId now ↔ Target services hubId now user
  rung_nodup : ((rungUsers services hubId now).map User.pubkey).Nodup
  nobody : rungUsers services hubId now = [] ↔ ∀ user, Eligible services hubId now user →
    ¬ OnShift services hubId now user.pubkey ∧ user.pubkey ∉ getFallbackGroup services hubId
  presence : ∀ pubkey, (pubkey, .available) ∈ (getHubPresence services hubId now).2.users ↔
    ∃ user, Target services hubId now user ∧ user.pubkey = pubkey
  presence_nodup : ((getHubPresence services hubId now).2.users.map Prod.fst).Nodup
  apart : ∀ pubkey, (pubkey, .available) ∈ (getHubPresence services hubId now).2.users →
    (pubkey, .onCall) ∉ (getHubPresence services hubId now).2.users

/-! ## The roster -/

variable {services hubId now} {pubkey : String} {user : User} {pubkeys : List String}

/-- **The roster is that of the shifts whose interval it is.** -/
theorem mem_getCurrentVolunteers_iff : pubkey ∈ getCurrentVolunteers services.shifts hubId now ↔
    OnShift services hubId now pubkey := by
  rw [getCurrentVolunteers, OnShift, List.mem_eraseDups, List.mem_flatMap]
  simp only [List.mem_filter, Shifts.list, isShiftActive_iff, decide_eq_true_eq]
  constructor
  · rintro ⟨shift, ⟨⟨hshift, hhub⟩, hon⟩, hkey⟩
    exact ⟨shift, hshift, hhub, hon, hkey⟩
  · rintro ⟨shift, hshift, hhub, hon, hkey⟩
    exact ⟨shift, ⟨⟨hshift, hhub⟩, hon⟩, hkey⟩

theorem mem_busy_iff (hne : pubkey ≠ "") :
    pubkey ∈ getBusyPubkeys (services.activeCalls.map Prod.snd) now.getTime ↔
      Answering services now pubkey := by
  rw [mem_getBusyPubkeys, and_iff_right hne, Answering]
  simp only [List.mem_map, isInProgress, Bool.and_eq_true, decide_eq_true_eq]
  constructor
  · rintro ⟨row, ⟨call, hcall, rfl⟩, ⟨hstatus, htime⟩, hkey⟩
    exact ⟨call, hcall, hstatus, htime, hkey⟩
  · rintro ⟨call, hcall, hstatus, htime, hkey⟩
    exact ⟨call.2, ⟨call, hcall, rfl⟩, ⟨hstatus, htime⟩, hkey⟩

theorem hasHubAccess_iff (hhub : hubId ≠ "") : hasHubAccess services hubId user = true ↔
    ∃ permission, hasHubPermission user.roles user.hubRoles services.roles hubId permission =
      true := by
  rw [exists_hasHubPermission_iff, hasHubAccess]
  simp [hhub]

/-- The eligible users of a roster are picked. -/
theorem mem_pickAvailable (hhub : hubId ≠ "") :
    user ∈ pickAvailable services hubId now pubkeys ↔
      Eligible services hubId now user ∧ user.pubkey ∈ pubkeys := by
  rw [pickAvailable, List.mem_filter]
  simp only [Bool.and_eq_true, Bool.not_eq_true', List.contains_iff_mem, hasHubAccess_iff hhub]
  have hfree (huser : user ∈ getUsers services) :
      ((getBusyPubkeys (services.activeCalls.map Prod.snd) now.getTime).contains user.pubkey =
        false ↔ ¬ Answering services now user.pubkey) := by
    have hne := services.users_named user (List.mem_filter.mp huser).1
    rw [← mem_busy_iff hne, ← Bool.not_eq_true, List.contains_iff_mem]
  constructor
  · rintro ⟨huser, ⟨⟨⟨hroster, hactive⟩, hbreak⟩, hbusy⟩, haccess⟩
    exact ⟨⟨huser, hactive, hbreak, (hfree huser).mp hbusy, haccess⟩, hroster⟩
  · rintro ⟨⟨huser, hactive, hbreak, hbusy, haccess⟩, hroster⟩
    exact ⟨huser, ⟨⟨⟨hroster, hactive⟩, hbreak⟩, (hfree huser).mpr hbusy⟩, haccess⟩

theorem pickAvailable_nil : pickAvailable services hubId now [] = [] := by
  simp [pickAvailable]

/-- Whom a call rings. -/
theorem rungUsers_eq : rungUsers services hubId now =
    if (pickAvailable services hubId now
      (getCurrentVolunteers services.shifts hubId now)).isEmpty then
      pickAvailable services hubId now (getFallbackGroup services hubId)
    else pickAvailable services hubId now (getCurrentVolunteers services.shifts hubId now) := by
  rw [rungUsers, resolveRingableVolunteers]
  cases hshift : getCurrentVolunteers services.shifts hubId now with
  | nil =>
    cases hfallback : getFallbackGroup services hubId <;> simp [pickAvailable_nil]
  | cons first rest =>
    cases hpick : pickAvailable services hubId now (first :: rest) <;> simp [hpick]

theorem pickAvailable_nodup :
    ((pickAvailable services hubId now pubkeys).map User.pubkey).Nodup := by
  have hsub : (pickAvailable services hubId now pubkeys).Sublist services.users :=
    List.filter_sublist.trans List.filter_sublist
  exact services.users_nodup.sublist (hsub.map User.pubkey)

theorem rungUsers_nodup : ((rungUsers services hubId now).map User.pubkey).Nodup := by
  rw [rungUsers_eq]
  split_ifs <;> exact pickAvailable_nodup

/-- Nobody of the roster is picked exactly if nobody there is eligible. -/
theorem pickAvailable_shift_isEmpty_iff (hhub : hubId ≠ "") :
    (pickAvailable services hubId now
      (getCurrentVolunteers services.shifts hubId now)).isEmpty = true ↔
      ∀ user, Eligible services hubId now user → ¬ OnShift services hubId now user.pubkey := by
  rw [List.isEmpty_iff, List.eq_nil_iff_forall_not_mem]
  simp only [mem_pickAvailable hhub, mem_getCurrentVolunteers_iff, not_and]

/-- **Who is rung.** -/
theorem mem_rungUsers_iff (hhub : hubId ≠ "") :
    user ∈ rungUsers services hubId now ↔ Target services hubId now user := by
  have hempty : (pickAvailable services hubId now
      (getCurrentVolunteers services.shifts hubId now)).isEmpty = true ↔
      ∀ user, Eligible services hubId now user → ¬ OnShift services hubId now user.pubkey :=
    pickAvailable_shift_isEmpty_iff hhub
  rw [rungUsers_eq, Target]
  split_ifs with hnone
  · rw [mem_pickAvailable hhub]
    refine and_congr_right fun heligible => ?_
    have hoff := hempty.mp hnone
    exact ⟨fun hfallback => .inr ⟨hoff, hfallback⟩,
      fun h => (h.resolve_left (hoff user heligible)).2⟩
  · rw [mem_pickAvailable hhub, mem_getCurrentVolunteers_iff]
    refine and_congr_right fun _ => ⟨.inl, fun h => h.resolve_right fun hoff => ?_⟩
    exact hnone (hempty.mpr hoff.1)

theorem rungUsers_eq_nil_iff (hhub : hubId ≠ "") : rungUsers services hubId now = [] ↔
    ∀ user, Eligible services hubId now user →
      ¬ OnShift services hubId now user.pubkey ∧ user.pubkey ∉ getFallbackGroup services hubId := by
  rw [List.eq_nil_iff_forall_not_mem]
  simp only [mem_rungUsers_iff hhub, Target]
  constructor
  · intro h
    have hoff : ∀ other, Eligible services hubId now other →
        ¬ OnShift services hubId now other.pubkey := fun other heligible hon =>
      h other ⟨heligible, .inl hon⟩
    exact fun user heligible => ⟨hoff user heligible, fun hfallback =>
      h user ⟨heligible, .inr ⟨hoff, hfallback⟩⟩⟩
  · rintro h user ⟨heligible, hon | ⟨-, hfallback⟩⟩
    · exact (h user heligible).1 hon
    · exact (h user heligible).2 hfallback

/-! ## Presence -/

/-- The sweep moves no call that is in progress and in time. -/
theorem answering_reaped :
    Answering (reaped services hubId now) now pubkey ↔ Answering services now pubkey := by
  constructor
  · rintro ⟨call, hcall, h⟩
    exact ⟨call, (List.mem_filter.mp hcall).1, h⟩
  · rintro ⟨call, hcall, hstatus, htime, hkey⟩
    refine ⟨call, List.mem_filter.mpr ⟨hcall, ?_⟩, hstatus, htime, hkey⟩
    rw [Bool.not_eq_true', ← Bool.not_eq_true, List.contains_iff_mem]
    intro hid
    obtain ⟨other, hother, hid⟩ := List.mem_map.mp hid
    obtain ⟨hmem, hstale⟩ := List.mem_filter.mp hother
    obtain rfl := List.inj_on_of_nodup_map services.activeCalls_nodup hmem hcall hid
    simp only [isStale, hstatus, Bool.and_eq_true, Bool.or_eq_true, decide_eq_true_eq] at hstale
    rcases hstale.2 with ⟨hringing, -⟩ | ⟨-, hold⟩
    · cases hringing
    · omega

theorem rungUsers_reaped :
    rungUsers (reaped services hubId now) hubId now = rungUsers services hubId now := by
  have hpick : ∀ pubkeys, pickAvailable (reaped services hubId now) hubId now pubkeys =
      pickAvailable services hubId now pubkeys := by
    intro pubkeys
    refine List.filter_congr fun user huser => ?_
    have hne := services.users_named user (List.mem_filter.mp huser).1
    have hbusy : (getBusyPubkeys ((reaped services hubId now).activeCalls.map Prod.snd)
        now.getTime).contains user.pubkey =
          (getBusyPubkeys (services.activeCalls.map Prod.snd) now.getTime).contains
            user.pubkey := by
      rw [Bool.eq_iff_iff, List.contains_iff_mem, List.contains_iff_mem, mem_busy_iff hne,
        mem_busy_iff hne, answering_reaped]
    rw [hbusy]
    rfl
  rw [rungUsers_eq, rungUsers_eq, hpick, hpick]
  rfl

/-- Who is on a call in the hub. -/
def onCall (services : Services) (hubId : String) (now : Date) : List String :=
  (((getActiveCalls services hubId now).filter fun call =>
    call.2.status = .inProgress).filterMap fun call =>
      call.2.answeredBy.filter fun pubkey => pubkey ≠ "").eraseDups

theorem answering_of_onCall (h : pubkey ∈ onCall services hubId now) :
    Answering services now pubkey := by
  rw [onCall, List.mem_eraseDups, List.mem_filterMap] at h
  obtain ⟨call, hcall, hkey⟩ := h
  obtain ⟨hfresh, hstatus⟩ := List.mem_filter.mp hcall
  obtain ⟨hmem, hfresh⟩ := List.mem_filter.mp hfresh
  have hstatus := of_decide_eq_true hstatus
  refine ⟨call, hmem, hstatus, ?_, (Option.filter_eq_some_iff.mp hkey).1⟩
  simp only [isStale, hstatus, Bool.and_eq_true, Bool.not_eq_true', Bool.or_eq_false_iff,
    decide_true, Bool.true_and, decide_eq_false_iff_not] at hfresh
  omega

/-- **Presence shows whom a call would ring**, and who is on a call besides. -/
theorem presence_users (hhub : hubId ≠ "") : (getHubPresence services hubId now).2.users =
    ((rungUsers services hubId now).map fun user => (user.pubkey, .available)) ++
      (onCall services hubId now).map fun pubkey => (pubkey, .onCall) := by
  have hfree : ((rungUsers services hubId now).map User.pubkey).filter
      (fun pubkey => !(onCall services hubId now).contains pubkey) =
        (rungUsers services hubId now).map User.pubkey := by
    refine List.filter_eq_self.mpr fun pubkey hpubkey => ?_
    obtain ⟨user, huser, rfl⟩ := List.mem_map.mp hpubkey
    rw [Bool.not_eq_true', ← Bool.not_eq_true, List.contains_iff_mem]
    exact fun honCall =>
      ((mem_rungUsers_iff hhub).mp huser).1.free (answering_of_onCall honCall)
  have hrung : (getHubPresence services hubId now).2.users =
      (((rungUsers (reaped services hubId now) hubId now).map User.pubkey).filter
        fun pubkey => !(onCall services hubId now).contains pubkey).map
          (fun pubkey => (pubkey, PresenceStatus.available)) ++
        (onCall services hubId now).map fun pubkey => (pubkey, .onCall) := rfl
  rw [hrung, rungUsers_reaped, hfree, List.map_map]
  rfl

/-- Amy is on the night shift, and on a call of another hub; bob is in the fallback group. -/
def night : Services where
  shifts := [nights]
  hubFallbackGroup := fun hubId => if hubId = "hub" then some ["bob", "cay"] else none
  fallbackGroup := none
  activeCalls := [("call",
    { hubId := some "other"
      callerNumber := "caller"
      answeredBy := some "amy"
      status := .inProgress
      startedAt := saturday.getTime - 60000 })]
  activeCalls_nodup := by decide
  users := [⟨"amy", [], [⟨"hub", ["role-volunteer"]⟩], true, false⟩,
    ⟨"bob", [], [⟨"hub", ["role-volunteer"]⟩], true, false⟩,
    ⟨"cay", [], [], true, false⟩]
  users_nodup := by decide
  users_named := by decide
  roles := defaultRoles

end Llamenos.Worker.Ringing
