import Llamenos.Lib.Locking
import Llamenos.Lib.Runs
import Mathlib.Data.List.Nodup
import Mathlib.Data.List.Sort

/-!
# Registered devices

`registerDevice`, `registerVoipToken` and `revokeDevice` of `apps/worker/services/identity.ts`, with
`lib/device-eviction.ts`. `registerDevice` is a transaction that locks the user's row; an insert of
a device refers to that row, and waits for the lock. An update or a delete of a device does not.
What a transaction writes comes with its commit. The order in which a `SELECT` gives the rows, the
drawn ids and the clocks are arguments of the events.

Results:
* `evicted_least`, `room_of_insert`: what a decision says of the devices that it is made of.
* `decided_step`: what is decided is of the devices as they are, until the call ends.
* `Sound`: the locks, the table and the decisions, in every state a run comes to (`sound_run`).
-/

namespace Llamenos.Worker.Devices

open Llamenos.Lib Llamenos.Lib.Locking

/-! ## Rows -/

/-- A row of `devices`. -/
structure DeviceRow where
  id : String
  pubkey : String
  platform : String
  pushToken : Option String := none
  voipToken : Option String := none
  wakeKeyPublic : Option String := none
  ed25519Pubkey : Option String := none
  x25519Pubkey : Option String := none
  registeredAt : Int
  lastSeenAt : Option Int
  deviceName : Option String := none
  deviceModel : Option String := none
  osVersion : Option String := none
  appVersion : Option String := none
  lastIpHash : Option String := none
  deriving DecidableEq

/-- What `registerDevice` is given. -/
structure Registration where
  platform : String
  pushToken : String
  wakeKeyPublic : String
  ed25519Pubkey : Option String := none
  x25519Pubkey : Option String := none
  deviceName : Option String := none
  deviceModel : Option String := none
  osVersion : Option String := none
  appVersion : Option String := none

/-! ## Eviction -/

def MAX_DEVICES_PER_VOLUNTEER : Nat := 5

structure DeviceForEviction where
  id : String
  lastSeenAt : Option Int
  pushToken : Option String

inductive RegistrationDecision where
  | updateExisting (deviceId : String)
  | insert (evictDeviceId : Option String)

/-- `lastSeenAt?.getTime() ?? 0`. -/
def time (lastSeenAt : Option Int) : Int := lastSeenAt.getD 0

/-- `decideDeviceRegistration`. -/
def decideDeviceRegistration (existingDevices : List DeviceForEviction) (pushToken : String)
    (maxDevices : Nat) : RegistrationDecision :=
  match existingDevices.find? fun d => d.pushToken = some pushToken with
  | some existing => .updateExisting existing.id
  | none =>
    if maxDevices ≤ existingDevices.length then
      let sorted := existingDevices.insertionSort fun a b => time a.lastSeenAt ≤ time b.lastSeenAt
      .insert (sorted.head?.map DeviceForEviction.id)
    else .insert none

variable {existingDevices : List DeviceForEviction}

/-- **The device to evict was seen no later than any other**, and is not the one being
registered. -/
theorem evicted_least {pushToken target : String}
    {maxDevices : Nat}
    (h : decideDeviceRegistration existingDevices pushToken maxDevices = .insert (some target)) :
    maxDevices ≤ existingDevices.length ∧ (∀ d ∈ existingDevices, d.pushToken ≠ some pushToken) ∧
      ∃ d ∈ existingDevices, d.id = target ∧
        ∀ other ∈ existingDevices, time d.lastSeenAt ≤ time other.lastSeenAt := by
  unfold decideDeviceRegistration at h
  cases hfind : existingDevices.find? fun d => d.pushToken = some pushToken with
  | some existing =>
    simp only [hfind] at h
    cases h
  | none =>
    simp only [hfind] at h
    split_ifs at h with hfull
    · refine ⟨hfull, fun d hd => by simpa using List.find?_eq_none.mp hfind d hd, ?_⟩
      obtain ⟨d, hd, rfl⟩ := Option.map_eq_some_iff.mp (RegistrationDecision.insert.inj h)
      have hsorted := List.pairwise_insertionSort
        (fun a b : DeviceForEviction => time a.lastSeenAt ≤ time b.lastSeenAt) existingDevices
      obtain ⟨rest, hrest⟩ : ∃ rest, existingDevices.insertionSort
          (fun a b => time a.lastSeenAt ≤ time b.lastSeenAt) = d :: rest :=
        List.head?_eq_some_iff.mp hd
      have hmem : ∀ other, other ∈ existingDevices ↔ other ∈ d :: rest := by
        intro other
        rw [← hrest, List.mem_insertionSort]
      refine ⟨d, (hmem d).mpr List.mem_cons_self, rfl, fun other hother => ?_⟩
      rw [hrest] at hsorted
      rcases List.mem_cons.mp ((hmem other).mp hother) with rfl | hlater
      · exact le_refl _
      · exact (List.pairwise_cons.mp hsorted).1 other hlater
    · cases h

/-- The device to update is one of those. -/
theorem existing_mem {pushToken deviceId : String}
    {maxDevices : Nat}
    (h : decideDeviceRegistration existingDevices pushToken maxDevices = .updateExisting deviceId) :
    ∃ d ∈ existingDevices, d.id = deviceId := by
  unfold decideDeviceRegistration at h
  cases hfind : existingDevices.find? fun d => d.pushToken = some pushToken with
  | some existing =>
    simp only [hfind] at h
    exact ⟨existing, List.mem_of_find?_eq_some hfind, RegistrationDecision.updateExisting.inj h⟩
  | none =>
    simp only [hfind] at h
    split_ifs at h

/-- A device is inserted without an eviction where there is room for one. -/
theorem room_of_insert {pushToken : String}
    (h : decideDeviceRegistration existingDevices pushToken MAX_DEVICES_PER_VOLUNTEER =
      .insert none) : existingDevices.length < MAX_DEVICES_PER_VOLUNTEER := by
  unfold decideDeviceRegistration at h
  cases hfind : existingDevices.find? fun d => d.pushToken = some pushToken with
  | some existing =>
    simp only [hfind] at h
    cases h
  | none =>
    simp only [hfind] at h
    split_ifs at h with hfull
    · -- the sorted devices have a first one
      have hnone := Option.map_eq_none_iff.mp (RegistrationDecision.insert.inj h)
      have hlength := congrArg List.length (List.head?_eq_none_iff.mp hnone)
      rw [List.length_insertionSort] at hlength
      rw [hlength] at hfull
      exact absurd hfull (by decide)
    · exact Nat.lt_of_not_le hfull

/-! ## Operations -/

def devicesOf (devices : List DeviceRow) (pubkey : String) : List DeviceRow :=
  devices.filter fun row => row.pubkey = pubkey

def forEviction (row : DeviceRow) : DeviceForEviction := ⟨row.id, row.lastSeenAt, row.pushToken⟩

/-- What `registerDevice` inserts. -/
def newDevice (pubkey : String) (data : Registration) (now : Int) (id : String) : DeviceRow where
  id := id
  pubkey := pubkey
  platform := data.platform
  pushToken := some data.pushToken
  wakeKeyPublic := some data.wakeKeyPublic
  ed25519Pubkey := data.ed25519Pubkey
  x25519Pubkey := data.x25519Pubkey
  deviceName := data.deviceName
  deviceModel := data.deviceModel
  osVersion := data.osVersion
  appVersion := data.appVersion
  registeredAt := now
  lastSeenAt := some now

/-- What `registerDevice` sets of an existing device. -/
def refreshed (data : Registration) (now : Int) (row : DeviceRow) : DeviceRow :=
  { row with
    wakeKeyPublic := some data.wakeKeyPublic
    ed25519Pubkey := data.ed25519Pubkey.or row.ed25519Pubkey
    x25519Pubkey := data.x25519Pubkey.or row.x25519Pubkey
    deviceName := data.deviceName.or row.deviceName
    deviceModel := data.deviceModel.or row.deviceModel
    osVersion := data.osVersion.or row.osVersion
    appVersion := data.appVersion.or row.appVersion
    lastSeenAt := some now }

theorem refreshed_keeps (data : Registration) (now : Int) (row : DeviceRow) :
    (refreshed data now row).id = row.id ∧ (refreshed data now row).pubkey = row.pubkey ∧
      (refreshed data now row).pushToken = row.pushToken :=
  ⟨rfl, rfl, rfl⟩

/-- What `registerVoipToken` inserts. -/
def voipDevice (pubkey platform voipToken : String) (now : Int) (id : String) : DeviceRow where
  id := id
  pubkey := pubkey
  platform := platform
  voipToken := some voipToken
  registeredAt := now
  lastSeenAt := some now

/-- What `registerVoipToken` sets of an existing device. -/
def voipRefreshed (voipToken : String) (now : Int) (row : DeviceRow) : DeviceRow :=
  { row with voipToken := some voipToken, lastSeenAt := some now }

theorem voipRefreshed_keeps (voipToken : String) (now : Int) (row : DeviceRow) :
    (voipRefreshed voipToken now row).id = row.id ∧
      (voipRefreshed voipToken now row).pubkey = row.pubkey ∧
      (voipRefreshed voipToken now row).pushToken = row.pushToken :=
  ⟨rfl, rfl, rfl⟩

/-- `update(devices).set(...).where(eq(devices.id, id))`. -/
def updateDevice (devices : List DeviceRow) (id : String) (set : DeviceRow → DeviceRow) :
    List DeviceRow :=
  devices.map fun row => if row.id = id then set row else row

/-- `delete(devices).where(eq(devices.id, id))`. -/
def deleteDevice (devices : List DeviceRow) (id : String) : List DeviceRow :=
  devices.filter fun row => row.id ≠ id

/-! ## Overlapping calls -/

/-- Where a call is. -/
inductive Call where
  | registering (pubkey : String) (data : Registration)
  | decided (pubkey : String) (data : Registration) (now : Int) (decision : RegistrationDecision)
  | refreshing (deviceId voipToken : String) (now : Int)
  | adding (pubkey platform voipToken : String) (now : Int)
  | revoking (deviceId : String)
  | answered (error : Option String)

structure State where
  users : List String
  devices : List DeviceRow
  drawnIds : List String
  locks : Locks String
  calls : Nat → Option Call

inductive Event where
  | registerDevice (c : Nat) (pubkey : String) (data : Registration)
  | selectDevices (c : Nat) (now : Int) (rows : List DeviceRow)
  | writeDevice (c : Nat) (id : String)
  | registerVoipToken (c : Nat) (pubkey platform voipToken : String) (now : Int)
      (existing : Option DeviceRow)
  | updateVoipToken (c : Nat)
  | insertVoipDevice (c : Nat) (id : String)
  | revokeDevice (c : Nat) (pubkey deviceId : String)
  | deleteDevice (c : Nat)
  | fail (c : Nat)

def State.goOn (s : State) (c : Nat) (call : Call) : State :=
  { s with calls := Function.update s.calls c (some call) }

/-- The call ends, and its locks with it. -/
def State.finish (s : State) (c : Nat) (error : Option String) : State :=
  { s.goOn c (.answered error) with locks := s.locks.release c }

def step (s : State) : Event → Option State
  | .registerDevice c pubkey data =>
    match s.calls c with
    | none =>
      if pubkey ∉ s.users then some (s.goOn c (.answered (some "User not found")))
      else if s.locks pubkey = none then
        some { s.goOn c (.registering pubkey data) with locks := s.locks.take pubkey c }
      else none
    | some _ => none
  | .selectDevices c now rows =>
    match s.calls c with
    | some (.registering pubkey data) =>
      if rows.Perm (devicesOf s.devices pubkey) then
        some (s.goOn c (.decided pubkey data now (decideDeviceRegistration
          (rows.map forEviction) data.pushToken MAX_DEVICES_PER_VOLUNTEER)))
      else none
    | _ => none
  | .writeDevice c id =>
    match s.calls c with
    | some (.decided _ data now (.updateExisting deviceId)) =>
      some ({ s with
        devices := updateDevice s.devices deviceId (refreshed data now) }.finish c none)
    | some (.decided pubkey data now (.insert evictDeviceId)) =>
      if id ∈ s.drawnIds then none
      else
        let kept := evictDeviceId.elim s.devices (deleteDevice s.devices)
        some ({ s with
          devices := kept ++ [newDevice pubkey data now id]
          drawnIds := id :: s.drawnIds }.finish c none)
    | _ => none
  | .registerVoipToken c pubkey platform voipToken now existing =>
    match s.calls c with
    | none =>
      match existing with
      | some row =>
        if row ∈ s.devices ∧ row.pubkey = pubkey ∧ row.platform = platform then
          some (s.goOn c (.refreshing row.id voipToken now))
        else none
      | none =>
        if ∃ row ∈ s.devices, row.pubkey = pubkey ∧ row.platform = platform then none
        else some (s.goOn c (.adding pubkey platform voipToken now))
    | some _ => none
  | .updateVoipToken c =>
    match s.calls c with
    | some (.refreshing deviceId voipToken now) =>
      some ({ s with
        devices := updateDevice s.devices deviceId (voipRefreshed voipToken now) }.goOn c
          (.answered none))
    | _ => none
  | .insertVoipDevice c id =>
    match s.calls c with
    | some (.adding pubkey platform voipToken now) =>
      if pubkey ∉ s.users then some (s.goOn c (.answered (some "violates foreign key constraint")))
      -- the reference to the user's row waits for its lock
      else if s.locks pubkey = none ∧ id ∉ s.drawnIds then
        some ({ s with
          devices := s.devices ++ [voipDevice pubkey platform voipToken now id]
          drawnIds := id :: s.drawnIds }.goOn c (.answered none))
      else none
    | _ => none
  | .revokeDevice c pubkey deviceId =>
    match s.calls c with
    | none =>
      if ∃ row ∈ s.devices, row.id = deviceId ∧ row.pubkey = pubkey then
        some (s.goOn c (.revoking deviceId))
      else some (s.goOn c (.answered none))
    | some _ => none
  | .deleteDevice c =>
    match s.calls c with
    | some (.revoking deviceId) =>
      some ({ s with devices := deleteDevice s.devices deviceId }.goOn c (.answered none))
    | _ => none
  | .fail c =>
    match s.calls c with
    | none | some (.answered _) => none
    | some _ => some (s.finish c (some "database"))

def start (users : List String) : State := ⟨users, [], [], fun _ => none, fun _ => none⟩

/-! ## What the writes leave of a user's devices -/

def idsOf (devices : List DeviceRow) (pubkey : String) : List String :=
  (devicesOf devices pubkey).map DeviceRow.id

theorem length_idsOf (devices : List DeviceRow) (pubkey : String) :
    (idsOf devices pubkey).length = (devicesOf devices pubkey).length :=
  List.length_map ..

theorem idsOf_updateDevice {set : DeviceRow → DeviceRow} (hset : ∀ row, (set row).id = row.id ∧
      (set row).pubkey = row.pubkey ∧ (set row).pushToken = row.pushToken)
    (devices : List DeviceRow) (id pubkey : String) :
    idsOf (updateDevice devices id set) pubkey = idsOf devices pubkey := by
  unfold idsOf devicesOf updateDevice
  induction devices with
  | nil => rfl
  | cons row rest ih =>
    rw [List.map_cons, List.filter_cons, List.filter_cons]
    by_cases hid : row.id = id <;> by_cases hkey : row.pubkey = pubkey <;>
      simp [hid, hkey, hset, ih]

theorem idsOf_deleteDevice (devices : List DeviceRow) (id pubkey : String) :
    idsOf (deleteDevice devices id) pubkey = (idsOf devices pubkey).filter (· ≠ id) := by
  unfold idsOf devicesOf deleteDevice
  rw [List.filter_map, List.filter_filter, List.filter_filter]
  congr 1
  refine List.filter_congr fun row _ => ?_
  simp [Bool.and_comm]

theorem idsOf_append (devices : List DeviceRow) (new : DeviceRow) (pubkey : String) :
    idsOf (devices ++ [new]) pubkey =
      idsOf devices pubkey ++ if new.pubkey = pubkey then [new.id] else [] := by
  unfold idsOf devicesOf
  rw [List.filter_append, List.map_append]
  by_cases hkey : new.pubkey = pubkey <;> simp [hkey]

/-! ## What a step does -/

def Call.holds : Call → String → Prop
  | .registering pubkey _, k => k = pubkey
  | .decided pubkey _ _ _, k => k = pubkey
  | _, _ => False

def Call.isDecided : Call → Bool
  | .decided _ _ _ _ => true
  | _ => false

section Steps

variable {s s' : State} {c : Nat}

theorem of_registerDevice {pubkey : String} {data : Registration}
    (h : step s (.registerDevice c pubkey data) = some s') : s.calls c = none ∧
      (s' = s.goOn c (.answered (some "User not found")) ∨ s.locks pubkey = none ∧
        s' = { s.goOn c (.registering pubkey data) with locks := s.locks.take pubkey c }) := by
  simp only [step] at h
  split at h
  next hc =>
    split_ifs at h with hthere hfree
    · exact ⟨hc, .inr ⟨hfree, (Option.some.inj h).symm⟩⟩
    · exact ⟨hc, .inl (Option.some.inj h).symm⟩
  next => cases h

theorem of_selectDevices {now : Int} {rows : List DeviceRow}
    (h : step s (.selectDevices c now rows) = some s') : ∃ pubkey data,
      s.calls c = some (.registering pubkey data) ∧ rows.Perm (devicesOf s.devices pubkey) ∧
      s' = s.goOn c (.decided pubkey data now (decideDeviceRegistration (rows.map forEviction)
        data.pushToken MAX_DEVICES_PER_VOLUNTEER)) := by
  simp only [step] at h
  split at h
  next pubkey data hc =>
    obtain ⟨hperm, h⟩ := Option.ite_none_right_eq_some.mp h
    exact ⟨pubkey, data, hc, hperm, (Option.some.inj h).symm⟩
  next => cases h

theorem of_writeDevice {id : String} (h : step s (.writeDevice c id) = some s') :
    ∃ pubkey data now decision, s.calls c = some (.decided pubkey data now decision) ∧
      ((∃ deviceId, decision = .updateExisting deviceId ∧ s' = State.finish { s with
          devices := updateDevice s.devices deviceId (refreshed data now) } c none) ∨
        ∃ evictDeviceId, decision = .insert evictDeviceId ∧ id ∉ s.drawnIds ∧
          s' = State.finish { s with
            devices := evictDeviceId.elim s.devices (deleteDevice s.devices) ++
              [newDevice pubkey data now id]
            drawnIds := id :: s.drawnIds } c none) := by
  simp only [step] at h
  split at h
  next pubkey data now deviceId hc =>
    exact ⟨pubkey, data, now, _, hc, .inl ⟨deviceId, rfl, (Option.some.inj h).symm⟩⟩
  next pubkey data now evictDeviceId hc =>
    obtain ⟨hnew, h⟩ := Option.ite_none_left_eq_some.mp h
    exact ⟨pubkey, data, now, _, hc, .inr ⟨evictDeviceId, rfl, hnew, (Option.some.inj h).symm⟩⟩
  next => cases h

/-- A call begins with what takes no lock. -/
theorem of_begin {e : Event} (he : (∃ pubkey platform voipToken now existing,
      e = .registerVoipToken c pubkey platform voipToken now existing) ∨
      ∃ pubkey deviceId, e = .revokeDevice c pubkey deviceId) (h : step s e = some s') :
    s.calls c = none ∧
      ∃ call, s' = s.goOn c call ∧ (∀ k, ¬ call.holds k) ∧ call.isDecided = false := by
  rcases he with ⟨pubkey, platform, voipToken, now, existing, rfl⟩ | ⟨pubkey, deviceId, rfl⟩
  · simp only [step] at h
    split at h
    next hc =>
      cases existing with
      | some row =>
        obtain ⟨-, h⟩ := Option.ite_none_right_eq_some.mp h
        exact ⟨hc, _, (Option.some.inj h).symm, fun _ => id, rfl⟩
      | none =>
        obtain ⟨-, h⟩ := Option.ite_none_left_eq_some.mp h
        exact ⟨hc, _, (Option.some.inj h).symm, fun _ => id, rfl⟩
    next => cases h
  · simp only [step] at h
    split at h
    next hc =>
      split_ifs at h
      · exact ⟨hc, _, (Option.some.inj h).symm, fun _ => id, rfl⟩
      · exact ⟨hc, _, (Option.some.inj h).symm, fun _ => id, rfl⟩
    next => cases h

theorem of_updateVoipToken (h : step s (.updateVoipToken c) = some s') :
    ∃ deviceId voipToken now, s.calls c = some (.refreshing deviceId voipToken now) ∧
      s' = State.goOn { s with
        devices := updateDevice s.devices deviceId (voipRefreshed voipToken now) } c
          (.answered none) := by
  simp only [step] at h
  split at h
  next deviceId voipToken now hc => exact ⟨deviceId, voipToken, now, hc, (Option.some.inj h).symm⟩
  next => cases h

theorem of_insertVoipDevice {id : String} (h : step s (.insertVoipDevice c id) = some s') :
    ∃ pubkey platform voipToken now, s.calls c = some (.adding pubkey platform voipToken now) ∧
      ((∃ error, pubkey ∉ s.users ∧ s' = s.goOn c (.answered error)) ∨
        pubkey ∈ s.users ∧ s.locks pubkey = none ∧ id ∉ s.drawnIds ∧ s' = State.goOn { s with
          devices := s.devices ++ [voipDevice pubkey platform voipToken now id]
          drawnIds := id :: s.drawnIds } c (.answered none)) := by
  simp only [step] at h
  split at h
  next pubkey platform voipToken now hc =>
    refine ⟨pubkey, platform, voipToken, now, hc, ?_⟩
    split_ifs at h with hthere hfree
    · exact .inr ⟨hthere, hfree.1, hfree.2, (Option.some.inj h).symm⟩
    · exact .inl ⟨_, hthere, (Option.some.inj h).symm⟩
  next => cases h

theorem of_deleteDevice (h : step s (.deleteDevice c) = some s') : ∃ deviceId,
    s.calls c = some (.revoking deviceId) ∧ s' = State.goOn { s with
      devices := deleteDevice s.devices deviceId } c (.answered none) := by
  simp only [step] at h
  split at h
  next deviceId hc => exact ⟨deviceId, hc, (Option.some.inj h).symm⟩
  next => cases h

theorem of_fail (h : step s (.fail c) = some s') :
    (∃ call, s.calls c = some call) ∧ s' = s.finish c (some "database") := by
  simp only [step] at h
  split at h
  next => cases h
  next => cases h
  next call _ hc => exact ⟨⟨call, hc⟩, (Option.some.inj h).symm⟩

end Steps

/-! ## The table -/

/-- Ids are drawn once, and a device keeps its user and its push token. -/
structure Changes (s s' : State) : Prop where
  drawn : ∀ id ∈ s.drawnIds, id ∈ s'.drawnIds
  rows : ∀ row' ∈ s'.devices, (∃ row ∈ s.devices, row.id = row'.id ∧ row.pubkey = row'.pubkey ∧
    row.pushToken = row'.pushToken) ∨ row'.id ∉ s.drawnIds ∧ row'.id ∈ s'.drawnIds
  ids : (s.devices.map DeviceRow.id).Nodup → (∀ row ∈ s.devices, row.id ∈ s.drawnIds) →
    (s'.devices.map DeviceRow.id).Nodup

section Table

variable {s s' : State}

theorem changes_sublist (hdevices : s'.devices.Sublist s.devices)
    (hdrawn : s'.drawnIds = s.drawnIds) : Changes s s' where
  drawn _ := hdrawn ▸ id
  rows row' hrow' := .inl ⟨row', hdevices.subset hrow', rfl, rfl, rfl⟩
  ids h _ := h.sublist (hdevices.map DeviceRow.id)

theorem changes_update {set : DeviceRow → DeviceRow} (hset : ∀ row, (set row).id = row.id ∧
      (set row).pubkey = row.pubkey ∧ (set row).pushToken = row.pushToken) (id : String)
    (hdevices : s'.devices = updateDevice s.devices id set) (hdrawn : s'.drawnIds = s.drawnIds) :
    Changes s s' where
  drawn _ := hdrawn ▸ fun hid => hid
  rows row' hrow' := by
    rw [hdevices] at hrow'
    obtain ⟨row, hrow, rfl⟩ := List.mem_map.mp hrow'
    obtain ⟨hid, hpubkey, htoken⟩ := hset row
    refine .inl ⟨row, hrow, ?_⟩
    split_ifs
    · exact ⟨hid.symm, hpubkey.symm, htoken.symm⟩
    · exact ⟨rfl, rfl, rfl⟩
  ids h _ := by
    have hsame : (updateDevice s.devices id set).map DeviceRow.id = s.devices.map DeviceRow.id := by
      unfold updateDevice
      rw [List.map_map]
      refine List.map_congr_left fun row _ => ?_
      by_cases hrow : row.id = id <;> simp [hrow, hset]
    rwa [hdevices, hsame]

theorem changes_append {kept : List DeviceRow} (hkept : kept.Sublist s.devices) {new : DeviceRow}
    (hnew : new.id ∉ s.drawnIds) (hdevices : s'.devices = kept ++ [new])
    (hdrawn : s'.drawnIds = new.id :: s.drawnIds) : Changes s s' where
  drawn _ hid := hdrawn ▸ List.mem_cons_of_mem _ hid
  rows row' hrow' := by
    rw [hdevices] at hrow'
    rcases List.mem_append.mp hrow' with hold | hlast
    · exact .inl ⟨row', hkept.subset hold, rfl, rfl, rfl⟩
    · rw [List.mem_singleton.mp hlast, hdrawn]
      exact .inr ⟨hnew, List.mem_cons_self⟩
  ids h hall := by
    rw [hdevices, List.map_append]
    have hold := h.sublist (hkept.map DeviceRow.id)
    refine hold.append (List.nodup_singleton _) fun id hid hlast => ?_
    obtain ⟨row, hrow, rfl⟩ := List.mem_map.mp hid
    exact hnew (List.mem_singleton.mp hlast ▸ hall row (hkept.subset hrow))

theorem kept_sublist (devices : List DeviceRow) (evictDeviceId : Option String) :
    (evictDeviceId.elim devices (deleteDevice devices)).Sublist devices := by
  cases evictDeviceId with
  | none => exact List.Sublist.refl devices
  | some id => exact List.filter_sublist

theorem changes_step {e : Event} (hstep : step s e = some s') : Changes s s' := by
  cases e with
  | registerDevice c pubkey data =>
    obtain ⟨-, rfl | ⟨-, rfl⟩⟩ := of_registerDevice hstep
    · exact changes_sublist (List.Sublist.refl _) rfl
    · exact changes_sublist (List.Sublist.refl _) rfl
  | selectDevices c now rows =>
    obtain ⟨pubkey, data, -, -, rfl⟩ := of_selectDevices hstep
    exact changes_sublist (List.Sublist.refl _) rfl
  | writeDevice c id =>
    obtain ⟨pubkey, data, now, decision, -, hwrite⟩ := of_writeDevice hstep
    rcases hwrite with ⟨deviceId, -, rfl⟩ | ⟨evictDeviceId, -, hnew, rfl⟩
    · exact changes_update (refreshed_keeps data now) deviceId rfl rfl
    · exact changes_append (kept_sublist s.devices evictDeviceId) hnew rfl rfl
  | registerVoipToken c pubkey platform voipToken now existing =>
    obtain ⟨-, call, rfl, -, -⟩ := of_begin (.inl ⟨_, _, _, _, _, rfl⟩) hstep
    exact changes_sublist (List.Sublist.refl _) rfl
  | updateVoipToken c =>
    obtain ⟨deviceId, voipToken, now, -, rfl⟩ := of_updateVoipToken hstep
    exact changes_update (voipRefreshed_keeps voipToken now) deviceId rfl rfl
  | insertVoipDevice c id =>
    obtain ⟨_, _, _, _, -, ⟨error, -, rfl⟩ | ⟨-, -, hnew, rfl⟩⟩ := of_insertVoipDevice hstep
    · exact changes_sublist (List.Sublist.refl _) rfl
    · exact changes_append (List.Sublist.refl _) hnew rfl rfl
  | revokeDevice c pubkey deviceId =>
    obtain ⟨-, call, rfl, -, -⟩ := of_begin (.inr ⟨_, _, rfl⟩) hstep
    exact changes_sublist (List.Sublist.refl _) rfl
  | deleteDevice c =>
    obtain ⟨deviceId, -, rfl⟩ := of_deleteDevice hstep
    exact changes_sublist List.filter_sublist rfl
  | fail c =>
    obtain ⟨-, rfl⟩ := of_fail hstep
    exact changes_sublist (List.Sublist.refl _) rfl

end Table

/-! ## What a call has decided -/

def Owned (s : State) (pubkey target : String) : Prop :=
  target ∈ s.drawnIds ∧ ∀ row ∈ s.devices, row.id = target → row.pubkey = pubkey

/-- What a decision says of the user's devices until the call ends: there is room for the new
device, or the device to be evicted is the user's, and not the one being registered. -/
def DecisionSound (s : State) (pubkey : String) (data : Registration) : RegistrationDecision → Prop
  | .updateExisting deviceId => Owned s pubkey deviceId
  | .insert none => (idsOf s.devices pubkey).length < MAX_DEVICES_PER_VOLUNTEER
  | .insert (some target) => Owned s pubkey target ∧
      ∀ row ∈ s.devices, row.id = target → row.pushToken ≠ some data.pushToken

structure Sound (s : State) : Prop where
  held : Held Call.holds s.locks s.calls
  ids : (s.devices.map DeviceRow.id).Nodup
  drawn : ∀ row ∈ s.devices, row.id ∈ s.drawnIds
  calls : ∀ c pubkey data now decision, s.calls c = some (.decided pubkey data now decision) →
    DecisionSound s pubkey data decision

/-- What a step leaves of a user's devices while another call holds the user's row: none comes, and
only a VoIP token's update changes one. -/
structure Leaves (s s' : State) (e : Event) (pubkey : String) : Prop where
  ids : (idsOf s'.devices pubkey).Sublist (idsOf s.devices pubkey)
  rows : (∀ c, e ≠ .updateVoipToken c) → ∀ row ∈ s'.devices, row.pubkey = pubkey → row ∈ s.devices

section Calls

variable {s s' : State} {e : Event}

theorem held_step (h : Held Call.holds s.locks s.calls) (hstep : step s e = some s') :
    Held Call.holds s'.locks s'.calls := by
  cases e with
  | registerDevice c pubkey data =>
    obtain ⟨hc, rfl | ⟨hfree, rfl⟩⟩ := of_registerDevice hstep
    · exact h.keep fun k => iff_of_false (h.not_locked hc k) id
    · refine h.take hfree fun k => ?_
      rw [or_iff_left (h.not_locked hc k)]
      rfl
  | selectDevices c now rows =>
    obtain ⟨pubkey, data, hc, -, rfl⟩ := of_selectDevices hstep
    exact h.keep fun k => h.locked_iff hc k
  | writeDevice c id =>
    obtain ⟨_, _, _, _, -, ⟨deviceId, -, rfl⟩ | ⟨evictDeviceId, -, -, rfl⟩⟩ := of_writeDevice hstep
    · exact h.release fun _ hk => hk
    · exact h.release fun _ hk => hk
  | registerVoipToken c pubkey platform voipToken now existing =>
    obtain ⟨hc, call, rfl, hnone, -⟩ := of_begin (.inl ⟨_, _, _, _, _, rfl⟩) hstep
    exact h.keep fun k => iff_of_false (h.not_locked hc k) (hnone k)
  | updateVoipToken c =>
    obtain ⟨deviceId, voipToken, now, hc, rfl⟩ := of_updateVoipToken hstep
    exact h.keep fun k => h.locked_iff hc k
  | insertVoipDevice c id =>
    obtain ⟨_, _, _, _, hc, ⟨error, -, rfl⟩ | ⟨-, -, -, rfl⟩⟩ := of_insertVoipDevice hstep
    · exact h.keep fun k => h.locked_iff hc k
    · exact h.keep fun k => h.locked_iff hc k
  | revokeDevice c pubkey deviceId =>
    obtain ⟨hc, call, rfl, hnone, -⟩ := of_begin (.inr ⟨_, _, rfl⟩) hstep
    exact h.keep fun k => iff_of_false (h.not_locked hc k) (hnone k)
  | deleteDevice c =>
    obtain ⟨deviceId, hc, rfl⟩ := of_deleteDevice hstep
    exact h.keep fun k => h.locked_iff hc k
  | fail c =>
    obtain ⟨-, rfl⟩ := of_fail hstep
    exact h.release fun _ => id

theorem leaves_goOn (c : Nat) (call : Call) (locks : Locks String) (e : Event) (pubkey : String) :
    Leaves s { s.goOn c call with locks } e pubkey where
  ids := List.Sublist.refl _
  rows _ _ hrow _ := hrow

theorem sublist_updateDevice {set : DeviceRow → DeviceRow} (hset : ∀ row, (set row).id = row.id ∧
      (set row).pubkey = row.pubkey ∧ (set row).pushToken = row.pushToken)
    (devices : List DeviceRow) (id pubkey : String) :
    (idsOf (updateDevice devices id set) pubkey).Sublist (idsOf devices pubkey) := by
  rw [idsOf_updateDevice hset]

theorem leaves_delete (id : String) (h : s'.devices = deleteDevice s.devices id) (e : Event)
    (pubkey : String) : Leaves s s' e pubkey where
  ids := by
    rw [h, idsOf_deleteDevice]
    exact List.filter_sublist
  rows _ row hrow _ := by
    rw [h] at hrow
    exact List.mem_of_mem_filter hrow

/-- An insert of another user's device, after an eviction or not. -/
theorem leaves_append {kept : List DeviceRow} {new : DeviceRow} {pubkey : String}
    (hkept : kept.Sublist s.devices) (hnew : new.pubkey ≠ pubkey)
    (h : s'.devices = kept ++ [new]) (e : Event) : Leaves s s' e pubkey where
  ids := by
    rw [h, idsOf_append, if_neg hnew, List.append_nil]
    exact (hkept.filter _).map DeviceRow.id
  rows _ row hrow hkey := by
    rw [h] at hrow
    rcases List.mem_append.mp hrow with hold | hlast
    · exact hkept.subset hold
    · rw [List.mem_singleton.mp hlast] at hkey
      exact absurd hkey hnew

/-- **What is decided was so before the step, or is by what the step has read.** -/
theorem decided_step (hs : Sound s) (hstep : step s e = some s') {d : Nat} {pubkey : String}
    {data : Registration} {now : Int} {decision : RegistrationDecision}
    (hd : s'.calls d = some (.decided pubkey data now decision)) :
    (s.calls d = some (.decided pubkey data now decision) ∧ Leaves s s' e pubkey) ∨
      s'.devices = s.devices ∧ s'.drawnIds = s.drawnIds ∧
        ∃ rows : List DeviceRow, rows.Perm (devicesOf s.devices pubkey) ∧
          decision = decideDeviceRegistration (rows.map forEviction) data.pushToken
            MAX_DEVICES_PER_VOLUNTEER := by
  -- another call moves, and the user is not the one whose row it holds
  have hother : ∀ {c : Nat} {call : Call},
      Function.update s.calls c (some call) d = some (.decided pubkey data now decision) →
        call.isDecided = false → d ≠ c ∧ s.calls d = some (.decided pubkey data now decision) := by
    intro c call hmoved hcall
    rcases Runs.update_eq_some hmoved with ⟨-, hlast⟩ | hold
    · rw [Option.some.inj hlast] at hcall
      cases hcall
    · exact hold
  cases e with
  | registerDevice c pubkey' data' =>
    obtain ⟨-, rfl | ⟨-, rfl⟩⟩ := of_registerDevice hstep
    · exact .inl ⟨(hother hd rfl).2, leaves_goOn _ _ _ _ pubkey⟩
    · exact .inl ⟨(hother hd rfl).2, leaves_goOn _ _ _ _ pubkey⟩
  | selectDevices c now' rows =>
    obtain ⟨pubkey', data', -, hperm, rfl⟩ := of_selectDevices hstep
    rcases Runs.update_eq_some hd with ⟨-, hlast⟩ | ⟨-, hold⟩
    · obtain ⟨rfl, rfl, rfl, rfl⟩ := Call.decided.inj (Option.some.inj hlast)
      exact .inr ⟨rfl, rfl, rows, hperm, rfl⟩
    · exact .inl ⟨hold, leaves_goOn _ _ _ _ pubkey⟩
  | writeDevice c id =>
    obtain ⟨pubkey', data', now', decision', hc, hwrite⟩ := of_writeDevice hstep
    have hkeys : ∀ {d : Nat}, d ≠ c → s.calls d = some (.decided pubkey data now decision) →
        pubkey' ≠ pubkey := by
      rintro d hne hold rfl
      exact hne (hs.held.one_holder (k := pubkey') hold rfl hc rfl)
    rcases hwrite with ⟨deviceId, rfl, rfl⟩ | ⟨evictDeviceId, rfl, -, rfl⟩
    · obtain ⟨hne, hold⟩ := hother hd rfl
      have howned : Owned s pubkey' deviceId := hs.calls c _ _ _ _ hc
      refine .inl ⟨hold, ?_, fun _ row hrow hkey => ?_⟩
      · exact sublist_updateDevice (refreshed_keeps data' now') s.devices deviceId pubkey
      · obtain ⟨old, hmem, rfl⟩ := List.mem_map.mp hrow
        by_cases hid : old.id = deviceId
        · rw [if_pos hid] at hkey
          exact absurd ((howned.2 old hmem hid).symm.trans hkey) (hkeys hne hold)
        · rwa [if_neg hid]
    · obtain ⟨hne, hold⟩ := hother hd rfl
      exact .inl ⟨hold, leaves_append (kept_sublist s.devices evictDeviceId) (hkeys hne hold) rfl _⟩
  | registerVoipToken c pubkey' platform voipToken now' existing =>
    obtain ⟨-, call, rfl, -, hcall⟩ := of_begin (.inl ⟨_, _, _, _, _, rfl⟩) hstep
    exact .inl ⟨(hother hd hcall).2, leaves_goOn _ _ _ _ pubkey⟩
  | updateVoipToken c =>
    obtain ⟨deviceId, voipToken, now', -, rfl⟩ := of_updateVoipToken hstep
    refine .inl ⟨(hother hd rfl).2, ?_, fun hne => absurd rfl (hne c)⟩
    exact sublist_updateDevice (voipRefreshed_keeps voipToken now') s.devices deviceId pubkey
  | insertVoipDevice c id =>
    obtain ⟨pubkey', _, _, _, -, ⟨error, -, rfl⟩ | ⟨-, hfree, -, rfl⟩⟩ := of_insertVoipDevice hstep
    · exact .inl ⟨(hother hd rfl).2, leaves_goOn _ _ _ _ pubkey⟩
    · obtain ⟨hne, hold⟩ := hother hd rfl
      have hkey : pubkey' ≠ pubkey := by
        rintro rfl
        rw [(hs.held.locked_iff hold pubkey').mpr rfl] at hfree
        cases hfree
      exact .inl ⟨hold, leaves_append (List.Sublist.refl _) hkey rfl _⟩
  | revokeDevice c pubkey' deviceId =>
    obtain ⟨-, call, rfl, -, hcall⟩ := of_begin (.inr ⟨_, _, rfl⟩) hstep
    exact .inl ⟨(hother hd hcall).2, leaves_goOn _ _ _ _ pubkey⟩
  | deleteDevice c =>
    obtain ⟨deviceId, -, rfl⟩ := of_deleteDevice hstep
    exact .inl ⟨(hother hd rfl).2, leaves_delete deviceId rfl _ pubkey⟩
  | fail c =>
    obtain ⟨-, rfl⟩ := of_fail hstep
    exact .inl ⟨(hother hd rfl).2, leaves_goOn _ _ _ _ pubkey⟩

end Calls

/-! ## Every step -/

section Invariants

variable {s s' : State} {e : Event}

theorem Sound.eq_of_id (hs : Sound s) {a b : DeviceRow} (ha : a ∈ s.devices) (hb : b ∈ s.devices)
    (hid : a.id = b.id) : a = b :=
  List.inj_on_of_nodup_map hs.ids ha hb hid

theorem Owned.step {pubkey target : String} (h : Owned s pubkey target) (hchanges : Changes s s') :
    Owned s' pubkey target := by
  refine ⟨hchanges.drawn target h.1, fun row' hrow' hid => ?_⟩
  rcases hchanges.rows row' hrow' with ⟨row, hrow, hsame, hkey, -⟩ | ⟨hnew, -⟩
  · exact hkey.symm.trans (h.2 row hrow (hsame.trans hid))
  · rw [hid] at hnew
    exact absurd h.1 hnew
variable {pubkey : String}

theorem DecisionSound.step {data : Registration}
    {decision : RegistrationDecision} (h : DecisionSound s pubkey data decision)
    (hchanges : Changes s s') (hleaves : Leaves s s' e pubkey) :
    DecisionSound s' pubkey data decision := by
  cases decision with
  | updateExisting deviceId => exact Owned.step h hchanges
  | insert evictDeviceId =>
    cases evictDeviceId with
    | none => exact lt_of_le_of_lt hleaves.ids.length_le h
    | some target =>
      refine ⟨h.1.step hchanges, fun row' hrow' hid => ?_⟩
      rcases hchanges.rows row' hrow' with ⟨row, hrow, hsame, -, htoken⟩ | ⟨hnew, -⟩
      · exact htoken ▸ h.2 row hrow (hsame.trans hid)
      · rw [hid] at hnew
        exact absurd h.1.1 hnew

theorem mem_forEviction {rows : List DeviceRow}
    (hperm : rows.Perm (devicesOf s.devices pubkey)) {d : DeviceForEviction}
    (hd : d ∈ rows.map forEviction) :
    ∃ row ∈ s.devices, row.pubkey = pubkey ∧ d = forEviction row := by
  obtain ⟨row, hrow, rfl⟩ := List.mem_map.mp hd
  obtain ⟨hmem, hkey⟩ := List.mem_filter.mp (hperm.subset hrow)
  exact ⟨row, hmem, of_decide_eq_true hkey, rfl⟩

theorem forEviction_mem {rows : List DeviceRow}
    (hperm : rows.Perm (devicesOf s.devices pubkey)) {row : DeviceRow} (hrow : row ∈ s.devices)
    (hkey : row.pubkey = pubkey) : forEviction row ∈ rows.map forEviction :=
  List.mem_map_of_mem (hperm.symm.subset (List.mem_filter.mpr ⟨hrow, decide_eq_true hkey⟩))

theorem Sound.owned (hs : Sound s) {row : DeviceRow} (hrow : row ∈ s.devices) :
    Owned s row.pubkey row.id :=
  ⟨hs.drawn row hrow, fun other hother hid => by rw [hs.eq_of_id hother hrow hid]⟩

/-- A decision says what is so of the devices that it is made of. -/
theorem Sound.decide (hs : Sound s) {rows : List DeviceRow} (data : Registration)
    (hperm : rows.Perm (devicesOf s.devices pubkey)) :
    DecisionSound s pubkey data (decideDeviceRegistration (rows.map forEviction) data.pushToken
      MAX_DEVICES_PER_VOLUNTEER) := by
  cases hdecision : decideDeviceRegistration (rows.map forEviction) data.pushToken
      MAX_DEVICES_PER_VOLUNTEER with
  | updateExisting deviceId =>
    obtain ⟨d, hd, rfl⟩ := existing_mem hdecision
    obtain ⟨row, hrow, rfl, rfl⟩ := mem_forEviction hperm hd
    exact hs.owned hrow
  | insert evictDeviceId =>
    cases evictDeviceId with
    | none =>
      have hroom := room_of_insert hdecision
      rwa [List.length_map, hperm.length_eq, ← length_idsOf] at hroom
    | some target =>
      obtain ⟨-, htokens, d, hd, rfl, -⟩ := evicted_least hdecision
      obtain ⟨row, hrow, rfl, rfl⟩ := mem_forEviction hperm hd
      refine ⟨hs.owned hrow, fun other hother hid => ?_⟩
      rw [hs.eq_of_id hother hrow hid]
      exact htokens _ hd

theorem sound_step (hs : Sound s) (hstep : step s e = some s') : Sound s' where
  held := held_step hs.held hstep
  ids := (changes_step hstep).ids hs.ids hs.drawn
  drawn row' hrow' := by
    have hchanges := changes_step hstep
    rcases hchanges.rows row' hrow' with ⟨row, hrow, hid, -, -⟩ | ⟨-, hnew⟩
    · exact hid ▸ hchanges.drawn row.id (hs.drawn row hrow)
    · exact hnew
  calls c pubkey data now decision hc := by
    have hchanges := changes_step hstep
    rcases decided_step hs hstep hc with ⟨hold, hleaves⟩ | ⟨hdevices, hdrawn, rows, hperm, rfl⟩
    · exact (hs.calls c pubkey data now decision hold).step hchanges hleaves
    · have hdecided := hs.decide data hperm
      have hleaves : Leaves s s' e pubkey :=
        ⟨hdevices ▸ List.Sublist.refl _, fun _ row hrow _ => hdevices ▸ hrow⟩
      exact hdecided.step hchanges hleaves

theorem sound_start (users : List String) : Sound (start users) where
  held := held_none
  ids := List.nodup_nil
  drawn := by
    intro row hrow
    cases hrow
  calls := by
    intro c pubkey data now decision hc
    cases hc

theorem sound_run {users : List String} {es : List Event} {t : State}
    (h : Runs.run step (start users) es = some t) : Sound t :=
  Runs.run_inv (fun _ _ _ => sound_step) (sound_start users) h

end Invariants

end Llamenos.Worker.Devices
