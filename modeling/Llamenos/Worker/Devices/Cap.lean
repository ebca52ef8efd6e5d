import Llamenos.Worker.Devices

/-!
# The cap on a user's devices

`registerDevice` decides about a device to evict in one statement, and deletes it in another.
Between the two, `registerVoipToken` cannot insert a device of the user, but it can update one. And
it inserts one without a look at how many there are.

Results:
* `capped_iff`: exactly when no user comes to have more devices than the maximum.
* `devices_hold_when`: that, with what holds of the evicted devices.
-/

namespace Llamenos.Worker.Devices

open Llamenos.Lib Llamenos.Lib.Locking

section Invariants

variable {s s' : State} {e : Event}

/-! ## The cap -/

/-- No user has more than the maximum. -/
def Capped (s : State) : Prop :=
  ∀ pubkey, (devicesOf s.devices pubkey).length ≤ MAX_DEVICES_PER_VOLUNTEER

/-- Without the device that is to be evicted, there is room for the new one. -/
def Ready (s : State) : Prop :=
  ∀ c pubkey data now target, s.calls c = some (.decided pubkey data now (.insert (some target))) →
    ((idsOf s.devices pubkey).filter (· ≠ target)).length < MAX_DEVICES_PER_VOLUNTEER

/-- `registerVoipToken` inserts a device where the user has fewer than the maximum. -/
def RoomForVoip (s : State) : Event → Prop
  | .insertVoipDevice c _ => ∀ pubkey platform voipToken now,
      s.calls c = some (.adding pubkey platform voipToken now) → pubkey ∈ s.users →
        (devicesOf s.devices pubkey).length < MAX_DEVICES_PER_VOLUNTEER
  | _ => True

theorem ready_step (hs : Sound s) (hcapped : Capped s) (h : Ready s)
    (hstep : step s e = some s') : Ready s' := by
  intro c pubkey data now target hc
  rcases decided_step hs hstep hc with ⟨hold, hleaves⟩ | ⟨hdevices, -, rows, hperm, hdecision⟩
  · exact lt_of_le_of_lt (hleaves.ids.filter _).length_le (h c pubkey data now target hold)
  · obtain ⟨-, -, d, hd, rfl, -⟩ := evicted_least hdecision.symm
    obtain ⟨row, hrow, hkey, rfl⟩ := mem_forEviction hperm hd
    rw [hdevices]
    refine lt_of_lt_of_le ?_ (hcapped pubkey)
    rw [← length_idsOf]
    refine List.length_filter_lt_length_iff_exists.mpr ⟨row.id, ?_, by simp [forEviction]⟩
    exact List.mem_map_of_mem (List.mem_filter.mpr ⟨hrow, decide_eq_true hkey⟩)

theorem capped_of_sublist (h : Capped s)
    (hids : ∀ pubkey, (idsOf s'.devices pubkey).Sublist (idsOf s.devices pubkey)) : Capped s' := by
  intro pubkey
  rw [← length_idsOf]
  refine (hids pubkey).length_le.trans ?_
  rw [length_idsOf]
  exact h pubkey

/-- A device is appended where its user has room for one, without those that go. -/
theorem capped_append (h : Capped s) {kept : List DeviceRow} {new : DeviceRow}
    (hkept : kept.Sublist s.devices)
    (hroom : (idsOf kept new.pubkey).length < MAX_DEVICES_PER_VOLUNTEER)
    (hdevices : s'.devices = kept ++ [new]) : Capped s' := by
  intro pubkey
  rw [← length_idsOf, hdevices, idsOf_append, List.length_append]
  split_ifs with hkey
  · rw [← hkey, List.length_singleton]
    exact hroom
  · rw [List.length_nil, Nat.add_zero]
    refine ((hkept.filter _).map DeviceRow.id).length_le.trans ?_
    exact (length_idsOf s.devices pubkey).le.trans (h pubkey)

theorem capped_step (hs : Sound s) (hready : Ready s) (h : Capped s) (hroom : RoomForVoip s e)
    (hstep : step s e = some s') : Capped s' := by
  have hsame : s'.devices = s.devices → Capped s' := fun hdevices => by
    unfold Capped
    rwa [hdevices]
  cases e with
  | registerDevice c pubkey data =>
    obtain ⟨-, rfl | ⟨-, rfl⟩⟩ := of_registerDevice hstep <;> exact hsame rfl
  | selectDevices c now rows =>
    obtain ⟨pubkey, data, -, -, rfl⟩ := of_selectDevices hstep
    exact hsame rfl
  | writeDevice c id =>
    obtain ⟨pubkey, data, now, decision, hc, hwrite⟩ := of_writeDevice hstep
    rcases hwrite with ⟨deviceId, rfl, rfl⟩ | ⟨evictDeviceId, rfl, -, rfl⟩
    · exact capped_of_sublist h (sublist_updateDevice (refreshed_keeps data now) s.devices deviceId)
    · refine capped_append h (kept_sublist s.devices evictDeviceId) ?_ rfl
      cases evictDeviceId with
      | none => exact hs.calls c pubkey data now _ hc
      | some target =>
        have hothers := hready c pubkey data now target hc
        rwa [← idsOf_deleteDevice] at hothers
  | registerVoipToken c pubkey platform voipToken now existing =>
    obtain ⟨-, call, rfl, -, -⟩ := of_begin (.inl ⟨_, _, _, _, _, rfl⟩) hstep
    exact hsame rfl
  | updateVoipToken c =>
    obtain ⟨deviceId, voipToken, now, -, rfl⟩ := of_updateVoipToken hstep
    exact capped_of_sublist h
      (sublist_updateDevice (voipRefreshed_keeps voipToken now) s.devices deviceId)
  | insertVoipDevice c id =>
    obtain ⟨pubkey, platform, voipToken, now, hc, hinsert⟩ := of_insertVoipDevice hstep
    rcases hinsert with ⟨error, -, rfl⟩ | ⟨hthere, -, -, rfl⟩
    · exact hsame rfl
    · refine capped_append h (List.Sublist.refl _) ?_ rfl
      rw [length_idsOf]
      exact hroom pubkey platform voipToken now hc hthere
  | revokeDevice c pubkey deviceId =>
    obtain ⟨-, call, rfl, -, -⟩ := of_begin (.inr ⟨_, _, rfl⟩) hstep
    exact hsame rfl
  | deleteDevice c =>
    obtain ⟨deviceId, -, rfl⟩ := of_deleteDevice hstep
    refine capped_of_sublist h fun pubkey => ?_
    exact (leaves_delete deviceId rfl (.deleteDevice c) pubkey).ids
  | fail c =>
    obtain ⟨-, rfl⟩ := of_fail hstep
    exact hsame rfl

/-- An insert that goes through leaves the user with one device more. -/
theorem room_of_capped (hstep : step s e = some s') (h : Capped s') : RoomForVoip s e := by
  cases e with
  | insertVoipDevice c id =>
    intro pubkey platform voipToken now hc hthere
    obtain ⟨_, _, _, _, hc', hinsert⟩ := of_insertVoipDevice hstep
    obtain ⟨rfl, rfl, rfl, rfl⟩ := Call.adding.inj (Option.some.inj (hc.symm.trans hc'))
    rcases hinsert with ⟨error, hnone, -⟩ | ⟨-, -, -, rfl⟩
    · exact absurd hthere hnone
    · have hlength := h pubkey
      rw [← length_idsOf] at hlength
      have hnew : (voipDevice pubkey platform voipToken now id).pubkey = pubkey := rfl
      simp only [State.goOn, idsOf_append, if_pos hnew] at hlength
      rw [List.length_append, List.length_singleton, length_idsOf] at hlength
      exact hlength
  | _ => trivial

/-- **No user comes to have more than the maximum, exactly if `registerVoipToken` never inserts a
device where the user has as many.** -/
theorem capped_iff {users : List String} {es : List Event} {t : State}
    (h : Runs.run step (start users) es = some t) :
    (∀ before after m, es = before ++ after → Runs.run step (start users) before = some m →
        Capped m) ↔ Runs.Along step RoomForVoip (start users) es := by
  constructor
  · intro hcapped
    refine Runs.along_iff_split.mpr fun before e after u hes hu => ?_
    obtain ⟨u', hstep, hu'⟩ := Runs.step_of_run h hes hu
    refine room_of_capped hstep (hcapped (before ++ [e]) after u' ?_ hu')
    rw [hes, List.append_assoc]
    rfl
  · rintro hroom before after m rfl hm
    have hstart : Sound (start users) ∧ Capped (start users) ∧ Ready (start users) := by
      refine ⟨sound_start users, fun pubkey => Nat.zero_le _, ?_⟩
      intro c pubkey data now target hc
      cases hc
    refine (Runs.run_inv_along (I := fun s => Sound s ∧ Capped s ∧ Ready s) ?_ hstart hroom.left
      hm).2.1
    rintro s e s' ⟨hs, hcapped, hready⟩ he hstep
    exact ⟨sound_step hs hstep, capped_step hs hready hcapped he hstep,
      ready_step hs hcapped hready hstep⟩

/-! ## The evicted devices -/

/-- A device goes, of those that its user had, to make room for one with the push token. -/
structure Eviction where
  evicted : DeviceRow
  devices : List DeviceRow
  pushToken : String

def evictions (s : State) : Event → List Eviction
  | .writeDevice c _ =>
    match s.calls c with
    | some (.decided pubkey data _ (.insert (some target))) =>
      (s.devices.filter fun row => row.id = target).map fun row =>
        ⟨row, devicesOf s.devices pubkey, data.pushToken⟩
    | _ => []
  | _ => []

/-- The device was seen no later than any other of the user's. -/
def LeastSeen (devices : List DeviceRow) (pubkey target : String) : Prop :=
  ∀ row ∈ devices, row.id = target → ∀ other ∈ devices, other.pubkey = pubkey →
    time row.lastSeenAt ≤ time other.lastSeenAt

/-- So was each that is to be evicted. -/
def Least (s : State) : Prop :=
  ∀ c pubkey data now target, s.calls c = some (.decided pubkey data now (.insert (some target))) →
    LeastSeen s.devices pubkey target

/-- What `registerVoipToken` updates leaves each device that is to be evicted the least recently
seen. -/
def Respects (s : State) : Event → Prop
  | .updateVoipToken c => ∀ deviceId voipToken now,
      s.calls c = some (.refreshing deviceId voipToken now) →
        ∀ d pubkey data now' target,
          s.calls d = some (.decided pubkey data now' (.insert (some target))) →
            LeastSeen (updateDevice s.devices deviceId (voipRefreshed voipToken now)) pubkey target
  | _ => True

theorem least_step (hs : Sound s) (h : Least s) (hrespects : Respects s e)
    (hstep : step s e = some s') : Least s' := by
  intro c pubkey data now target hc
  have howned := ((sound_step hs hstep).calls c _ _ _ _ hc).1
  rcases decided_step hs hstep hc with ⟨hold, hleaves⟩ | ⟨hdevices, -, rows, hperm, hdecision⟩
  · by_cases hvoip : ∃ d, e = .updateVoipToken d
    · obtain ⟨d, rfl⟩ := hvoip
      obtain ⟨deviceId, voipToken, now', hd, rfl⟩ := of_updateVoipToken hstep
      exact hrespects deviceId voipToken now' hd c pubkey data now target hold
    · have hrows := hleaves.rows fun d hd => hvoip ⟨d, hd⟩
      intro row hrow hid other hother hkey
      exact h c pubkey data now target hold row (hrows row hrow (howned.2 row hrow hid)) hid other
        (hrows other hother hkey) hkey
  · obtain ⟨-, -, d, hd, rfl, hleast⟩ := evicted_least hdecision.symm
    obtain ⟨chosen, hchosen, -, rfl⟩ := mem_forEviction hperm hd
    rw [hdevices]
    intro row hrow hid other hother hkey
    rw [hs.eq_of_id hrow hchosen hid]
    exact hleast _ (forEviction_mem hperm hother hkey)

theorem of_mem_evictions {ev : Eviction} (hev : ev ∈ evictions s e) :
    ∃ c pubkey data now target,
      s.calls c = some (.decided pubkey data now (.insert (some target))) ∧
      ev.evicted ∈ s.devices ∧ ev.evicted.id = target ∧ ev.devices = devicesOf s.devices pubkey ∧
      ev.pushToken = data.pushToken := by
  cases e with
  | writeDevice c id =>
    simp only [evictions] at hev
    split at hev
    next pubkey data now target hc =>
      obtain ⟨row, hrow, rfl⟩ := List.mem_map.mp hev
      obtain ⟨hmem, hid⟩ := List.mem_filter.mp hrow
      exact ⟨c, pubkey, data, now, target, hc, hmem, of_decide_eq_true hid, rfl, rfl⟩
    next => cases hev
  | _ => cases hev

end Invariants

/-- **The cap, and the evicted devices.** No user comes to have more devices than the maximum
exactly if `registerVoipToken` inserts one only where the user has fewer. A device is evicted from
among its user's, and is not the one being registered; and if what `registerVoipToken` updates
leaves the devices that are to be evicted the least recently seen, each one evicted is. -/
theorem devices_hold_when {users : List String} {es : List Event} {t : State}
    (h : Runs.run step (start users) es = some t) :
    ((∀ before after m, es = before ++ after → Runs.run step (start users) before = some m →
        Capped m) ↔ Runs.Along step RoomForVoip (start users) es) ∧
    (∀ ev ∈ Runs.emitted step evictions (start users) es,
      ev.evicted ∈ ev.devices ∧ ev.evicted.pushToken ≠ some ev.pushToken) ∧
    (Runs.Along step Respects (start users) es →
      ∀ ev ∈ Runs.emitted step evictions (start users) es, ∀ other ∈ ev.devices,
        time ev.evicted.lastSeenAt ≤ time other.lastSeenAt) := by
  refine ⟨capped_iff h, fun ev hev => ?_, fun hrespects ev hev other hother => ?_⟩
  · obtain ⟨before, e, after, u, rfl, hu, hev⟩ := Runs.mem_emitted hev h
    obtain ⟨c, pubkey, data, now, target, hc, hmem, rfl, hdevices, htoken⟩ := of_mem_evictions hev
    obtain ⟨howned, hother⟩ := (sound_run hu).calls c _ _ _ _ hc
    rw [hdevices, htoken]
    refine ⟨List.mem_filter.mpr ⟨hmem, decide_eq_true (howned.2 _ hmem rfl)⟩, ?_⟩
    exact hother _ hmem rfl
  · obtain ⟨before, e, after, u, rfl, hu, hev⟩ := Runs.mem_emitted hev h
    obtain ⟨c, pubkey, data, now, target, hc, hmem, rfl, hdevices, -⟩ := of_mem_evictions hev
    have hstart : Sound (start users) ∧ Least (start users) := by
      refine ⟨sound_start users, fun c pubkey data now target hc => ?_⟩
      cases hc
    have hleast := (Runs.run_inv_along (I := fun s => Sound s ∧ Least s)
      (fun s e s' hI he hstep => ⟨sound_step hI.1 hstep, least_step hI.1 hI.2 he hstep⟩) hstart
      hrespects.left hu).2
    rw [hdevices] at hother
    obtain ⟨hothermem, hkey⟩ := List.mem_filter.mp hother
    exact hleast c pubkey data now _ hc ev.evicted hmem rfl other hothermem
      (of_decide_eq_true hkey)

def phone (token : String) : Registration where
  platform := "ios"
  pushToken := token
  wakeKeyPublic := "wake"

def phones (tokens : List (String × Int)) : List DeviceRow :=
  tokens.map fun (token, now) => newDevice "ann" (phone token) now token

def fiveTokens : List (String × Int) := [("a", 1), ("b", 2), ("c", 3), ("d", 4), ("e", 5)]

/-- Ann registers five devices, one after the other. -/
def registerFive : List Event :=
  (fiveTokens.mapIdx fun c (token, now) =>
    [.registerDevice c "ann" (phone token), .selectDevices c now (phones (fiveTokens.take c)),
      .writeDevice c token]).flatten

/-- Ann registers a sixth device, and the first one goes. -/
def registerSixth : List Event :=
  registerFive ++ [.registerDevice 5 "ann" (phone "f"), .selectDevices 5 6 (phones fiveTokens),
    .writeDevice 5 "f"]

theorem registerSixth_hold : ∃ t, Runs.run step (start ["ann"]) registerSixth = some t ∧
    t.devices.map DeviceRow.id = ["b", "c", "d", "e", "f"] ∧
    (Runs.emitted step evictions (start ["ann"]) registerSixth).map (fun ev => ev.evicted.id) =
      ["a"] ∧
    ∀ ev ∈ Runs.emitted step evictions (start ["ann"]) registerSixth,
      ev.evicted ∈ ev.devices ∧ ev.evicted.pushToken ≠ some ev.pushToken := by
  obtain ⟨t, ht, hids, hevicted⟩ : ∃ t ∈ Runs.run step (start ["ann"]) registerSixth,
      t.devices.map DeviceRow.id = ["b", "c", "d", "e", "f"] ∧
      (Runs.emitted step evictions (start ["ann"]) registerSixth).map (fun ev => ev.evicted.id) =
        ["a"] := by
    decide +kernel
  exact ⟨t, ht, hids, hevicted, (devices_hold_when ht).2.1⟩

/-- **A sixth device, and one that was just seen.** Ann has five devices, and `registerVoipToken`
finds none of its platform: it inserts a sixth. And while a sixth is registered, `registerVoipToken`
updates the device that is to be evicted: it goes, though it is the one seen last. -/
theorem six_devices :
    (∃ t ∈ Runs.run step (start ["ann"]) (registerFive ++
        [.registerVoipToken 5 "ann" "android" "voip" 6 none, .insertVoipDevice 5 "f"]),
      MAX_DEVICES_PER_VOLUNTEER < (devicesOf t.devices "ann").length) ∧
    ∃ t ∈ Runs.run step (start ["ann"]) (registerFive ++
        [.registerVoipToken 5 "ann" "ios" "voip" 7 (some (newDevice "ann" (phone "a") 1 "a")),
          .registerDevice 6 "ann" (phone "f"), .selectDevices 6 6 (phones fiveTokens),
          .updateVoipToken 5, .writeDevice 6 "f"]),
      t.devices.map DeviceRow.id = ["b", "c", "d", "e", "f"] ∧
      (Runs.emitted step evictions (start ["ann"]) (registerFive ++
        [.registerVoipToken 5 "ann" "ios" "voip" 7 (some (newDevice "ann" (phone "a") 1 "a")),
          .registerDevice 6 "ann" (phone "f"), .selectDevices 6 6 (phones fiveTokens),
          .updateVoipToken 5, .writeDevice 6 "f"])).map
        (fun ev => (ev.evicted.lastSeenAt, ev.devices.map DeviceRow.lastSeenAt)) =
        [(some 7, [some 7, some 2, some 3, some 4, some 5])] := by
  decide +kernel

end Llamenos.Worker.Devices
