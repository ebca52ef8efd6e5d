import Llamenos.Lib.Histories
import Llamenos.Lib.Runs

/-!
# Provisioning rooms

`createProvisionRoom`, `getProvisionRoom` and `setProvisionPayload` of
`apps/worker/services/identity.ts`. Each statement is one event; a call of more than one statement
may be overtaken by others between them. Rooms are also deleted by the cleanup and by an erasure.
The drawn ids and tokens, the two clocks, and whether a call fails are arguments of the events.

Results:
* `told_step`: what a step tells is allowed by what the run has told.
* `provisioning_holds`: a payload is delivered once, to a caller with the token, before the expiry,
  and is the one that was stored last.
-/

namespace Llamenos.Worker.Provisioning

open Llamenos.Lib

/-! ## Rooms -/

def PROVISION_ROOM_TTL_MS : Int := 5 * 60 * 1000

/-- A row of `provision_rooms`. -/
structure RoomRow where
  roomId : String
  ephemeralPubkey : String
  token : String
  status : String
  encryptedNsec : Option String := none
  primaryPubkey : Option String := none
  createdAt : Int
  expiresAt : Int

/-- What `setProvisionPayload` is given. -/
structure PayloadData where
  token : String
  encryptedNsec : String
  primaryPubkey : String
  senderPubkey : String

/-- What a room carries. -/
structure Payload where
  encryptedNsec : String
  primaryPubkey : Option String
  deriving DecidableEq

def RoomRow.payload (row : RoomRow) : Option Payload :=
  row.encryptedNsec.map fun encryptedNsec => ⟨encryptedNsec, row.primaryPubkey⟩

def PayloadData.payload (data : PayloadData) : Payload :=
  ⟨data.encryptedNsec, some data.primaryPubkey⟩

def newRoom (ephemeralPubkey roomId token : String) (now : Int) : RoomRow where
  roomId := roomId
  ephemeralPubkey := ephemeralPubkey
  token := token
  status := "waiting"
  createdAt := now
  expiresAt := now + PROVISION_ROOM_TTL_MS

/-- The `where` of the `DELETE` of `getProvisionRoom`. -/
def Consumable (roomId token : String) (databaseNow : Int) (row : RoomRow) : Prop :=
  row.roomId = roomId ∧ row.token = token ∧ row.encryptedNsec ≠ none ∧ row.expiresAt > databaseNow

instance (roomId token : String) (databaseNow : Int) :
    DecidablePred (Consumable roomId token databaseNow) :=
  fun _ => inferInstanceAs (Decidable (_ ∧ _ ∧ _ ∧ _))

def roomOf (rooms : List RoomRow) (roomId : String) : Option RoomRow :=
  rooms.find? fun row => row.roomId = roomId

def deleteRoom (rooms : List RoomRow) (roomId : String) : List RoomRow :=
  rooms.filter fun row => row.roomId ≠ roomId

/-- The `UPDATE` of `setProvisionPayload`. -/
def setPayload (rooms : List RoomRow) (roomId : String) (data : PayloadData) : List RoomRow :=
  rooms.map fun row =>
    if row.roomId = roomId then
      { row with
        encryptedNsec := some data.encryptedNsec
        primaryPubkey := some data.primaryPubkey
        status := "ready" }
    else row

/-! ## Overlapping calls -/

inductive Answer where
  | ready (ephemeralPubkey encryptedNsec : String) (primaryPubkey : Option String)
  | waiting (ephemeralPubkey : String)
  | expired
  | done
  | error (status : Nat) (message : String)

/-- Where a call is. -/
inductive Call where
  | polling (roomId token : String)
  | removing (roomId : String) (answer : Answer)
  | setting (roomId : String) (data : PayloadData) (checkedAt : Int)
  | answered (answer : Answer)

structure State where
  rooms : List RoomRow
  drawnIds : List String
  calls : Nat → Option Call

inductive Event where
  | createProvisionRoom (ephemeralPubkey roomId token : String) (now : Int)
  | getProvisionRoom (c : Nat) (roomId token : String) (databaseNow : Int)
  | selectPolled (c : Nat) (now : Int)
  | setProvisionPayload (c : Nat) (roomId : String) (data : PayloadData) (now : Int)
  | updatePayload (c : Nat)
  | deleteExpired (c : Nat)
  | deleteRooms (roomIds : List String)
  | fail (c : Nat)

def State.goOn (s : State) (c : Nat) (call : Call) : State :=
  { s with calls := Function.update s.calls c (some call) }

/-- What the two calls make of the room that they have selected: a refusal, a delete, or no answer
yet. -/
def examine (room : Option RoomRow) (token : String) (now : Int) (late : Answer)
    (go : RoomRow → Call) : Call :=
  match room with
  | none => .answered (.error 404 "Room not found")
  | some row =>
    if row.token ≠ token then .answered (.error 403 "Invalid token")
    else if row.expiresAt < now then .removing row.roomId late
    else go row

def step (s : State) : Event → Option State
  | .createProvisionRoom ephemeralPubkey roomId token now =>
    if roomId ∈ s.drawnIds then none
    else some { s with
      rooms := s.rooms ++ [newRoom ephemeralPubkey roomId token now]
      drawnIds := roomId :: s.drawnIds }
  | .getProvisionRoom c roomId token databaseNow =>
    match s.calls c with
    | none =>
      match s.rooms.find? (Consumable roomId token databaseNow) with
      | some consumed =>
        some ({ s with
          rooms := s.rooms.filter fun row => ¬ Consumable roomId token databaseNow row }.goOn c
            (.answered (.ready consumed.ephemeralPubkey (consumed.encryptedNsec.getD "")
              consumed.primaryPubkey)))
      | none => some (s.goOn c (.polling roomId token))
    | some _ => none
  | .selectPolled c now =>
    match s.calls c with
    | some (.polling roomId token) =>
      some (s.goOn c (examine (roomOf s.rooms roomId) token now .expired
        fun row => .answered (.waiting row.ephemeralPubkey)))
    | _ => none
  | .setProvisionPayload c roomId data now =>
    match s.calls c with
    | none =>
      some (s.goOn c (examine (roomOf s.rooms roomId) data.token now (.error 410 "Room expired")
        fun _ => .setting roomId data now))
    | some _ => none
  | .updatePayload c =>
    match s.calls c with
    | some (.setting roomId data _) =>
      some ({ s with rooms := setPayload s.rooms roomId data }.goOn c (.answered .done))
    | _ => none
  | .deleteExpired c =>
    match s.calls c with
    | some (.removing roomId answer) =>
      some ({ s with rooms := deleteRoom s.rooms roomId }.goOn c (.answered answer))
    | _ => none
  | .deleteRooms roomIds =>
    some { s with rooms := s.rooms.filter fun row => row.roomId ∉ roomIds }
  | .fail c =>
    match s.calls c with
    | none | some (.answered _) => none
    | some _ => some (s.goOn c (.answered (.error 500 "Internal server error")))

def start : State := ⟨[], [], fun _ => none⟩

/-! ## What is told of a run -/

/-- A room is created, has a payload stored by a call whose check was at a time, or is consumed. -/
inductive Happening where
  | created (roomId token : String) (expiresAt : Int)
  | stored (roomId token : String) (checkedAt : Int) (payload : Payload)
  | delivered (roomId token : String) (databaseNow : Int) (payload : Payload)
  deriving DecidableEq

def Happening.roomId : Happening → String
  | .created roomId _ _ => roomId
  | .stored roomId _ _ _ => roomId
  | .delivered roomId _ _ _ => roomId

def told (s : State) : Event → List Happening
  | .createProvisionRoom _ roomId token now =>
    [.created roomId token (now + PROVISION_ROOM_TTL_MS)]
  | .getProvisionRoom c roomId token databaseNow =>
    match s.calls c, (s.rooms.find? (Consumable roomId token databaseNow)).bind RoomRow.payload with
    | none, some payload => [.delivered roomId token databaseNow payload]
    | _, _ => []
  | .updatePayload c =>
    match s.calls c with
    | some (.setting roomId data checkedAt) =>
      if ∃ row ∈ s.rooms, row.roomId = roomId then
        [.stored roomId data.token checkedAt data.payload]
      else []
    | _ => []
  | _ => []

/-- The payload of the room that was stored last. -/
def lastStored (ws : List Happening) (roomId : String) : Option Payload :=
  ws.foldl (fun last w =>
    match w with
    | .stored id _ _ payload => if id = roomId then some payload else last
    | _ => last) none

def Happening.delivery : Happening → Option String
  | .delivered roomId _ _ _ => some roomId
  | _ => none

/-- A room is created once. A payload is stored by a caller who has presented the room's token
before the expiry, while the room has not been consumed. It is delivered to a caller with the token,
before the expiry, if it is the one stored last and the room has not been consumed. -/
def Allowed (before : List Happening) : Happening → Prop
  | .created roomId _ _ => roomId ∉ before.map Happening.roomId
  | .stored roomId token checkedAt _ =>
    (∃ expiresAt, .created roomId token expiresAt ∈ before ∧ checkedAt ≤ expiresAt) ∧
      roomId ∉ before.filterMap Happening.delivery
  | .delivered roomId token databaseNow payload =>
    (∃ expiresAt, .created roomId token expiresAt ∈ before ∧ databaseNow < expiresAt) ∧
      lastStored before roomId = some payload ∧ roomId ∉ before.filterMap Happening.delivery

@[simp] theorem delivery_created (roomId token : String) (expiresAt : Int) :
    (Happening.created roomId token expiresAt).delivery = none := rfl

@[simp] theorem delivery_stored (roomId token : String) (checkedAt : Int) (payload : Payload) :
    (Happening.stored roomId token checkedAt payload).delivery = none := rfl

@[simp] theorem delivery_delivered (roomId token : String) (databaseNow : Int)
    (payload : Payload) :
    (Happening.delivered roomId token databaseNow payload).delivery = some roomId := rfl

@[simp] theorem lastStored_concat_created (ws : List Happening) (id token : String)
    (expiresAt : Int) (roomId : String) :
    lastStored (ws ++ [.created id token expiresAt]) roomId = lastStored ws roomId := by
  simp [lastStored]

@[simp] theorem lastStored_concat_delivered (ws : List Happening) (id token : String)
    (databaseNow : Int) (payload : Payload) (roomId : String) :
    lastStored (ws ++ [.delivered id token databaseNow payload]) roomId = lastStored ws roomId := by
  simp [lastStored]

@[simp] theorem lastStored_concat_stored (ws : List Happening) (id token : String)
    (checkedAt : Int) (payload : Payload) (roomId : String) :
    lastStored (ws ++ [.stored id token checkedAt payload]) roomId =
      if id = roomId then some payload else lastStored ws roomId := by
  simp [lastStored]

theorem lastStored_eq_none {ws : List Happening} {roomId : String}
    (h : roomId ∉ ws.map Happening.roomId) : lastStored ws roomId = none := by
  induction ws using List.reverseRecOn with
  | nil => rfl
  | append_singleton ws w ih =>
    rw [List.map_append, List.mem_append, not_or] at h
    obtain ⟨hws, hw⟩ := h
    cases w with
    | created => simpa using ih hws
    | delivered => simpa using ih hws
    | stored id token checkedAt payload =>
      have hne : id ≠ roomId := fun hid => hw (by simp [Happening.roomId, hid])
      simpa [hne] using ih hws

theorem mem_roomId_of_delivery {ws : List Happening} {roomId : String}
    (h : roomId ∈ ws.filterMap Happening.delivery) : roomId ∈ ws.map Happening.roomId := by
  obtain ⟨w, hw, hroom⟩ := List.mem_filterMap.mp h
  cases w with
  | created => cases hroom
  | stored => cases hroom
  | delivered id token databaseNow payload =>
    obtain rfl := Option.some.inj hroom
    exact List.mem_map_of_mem hw

/-! ## Every step -/

/-- What is told of a room that is there. -/
structure Told (ws : List Happening) (row : RoomRow) : Prop where
  created : .created row.roomId row.token row.expiresAt ∈ ws
  stored : lastStored ws row.roomId = row.payload
  undelivered : row.roomId ∉ ws.filterMap Happening.delivery

/-- A call that goes on to store a payload has presented the token in time. -/
def Checked (ws : List Happening) (roomId : String) (data : PayloadData) (checkedAt : Int) : Prop :=
  ∃ expiresAt, .created roomId data.token expiresAt ∈ ws ∧ checkedAt ≤ expiresAt

structure Sound (s : State) (ws : List Happening) : Prop where
  lawful : Histories.Lawful Allowed ws
  drawn : ∀ w ∈ ws, w.roomId ∈ s.drawnIds
  ids : (s.rooms.map RoomRow.roomId).Nodup
  rooms : ∀ row ∈ s.rooms, Told ws row
  calls : ∀ c roomId data checkedAt, s.calls c = some (.setting roomId data checkedAt) →
    Checked ws roomId data checkedAt

section Steps

variable {s s' : State} {ws : List Happening}
variable {roomId : String} {data : PayloadData}

theorem Checked.mono {checkedAt : Int}
    (h : Checked ws roomId data checkedAt) (more : List Happening) :
    Checked (ws ++ more) roomId data checkedAt := by
  obtain ⟨expiresAt, hcreated, hchecked⟩ := h
  exact ⟨expiresAt, List.mem_append_left more hcreated, hchecked⟩

theorem Sound.eq_of_id (h : Sound s ws) {a b : RoomRow} (ha : a ∈ s.rooms) (hb : b ∈ s.rooms)
    (hid : a.roomId = b.roomId) : a = b :=
  List.inj_on_of_nodup_map h.ids ha hb hid
variable {rooms : List RoomRow}

theorem mem_of_roomOf {row : RoomRow}
    (h : roomOf rooms roomId = some row) : row ∈ rooms ∧ row.roomId = roomId :=
  ⟨List.mem_of_find?_eq_some h, by simpa using List.find?_some h⟩

/-- Rooms go, and a call goes on. -/
theorem Sound.goOn (h : Sound s ws) (hrooms : rooms.Sublist s.rooms)
    (c : Nat) {call : Call} (hcall : ∀ roomId data checkedAt,
      call = .setting roomId data checkedAt → Checked ws roomId data checkedAt) :
    Sound { s.goOn c call with rooms } ws where
  lawful := h.lawful
  drawn := h.drawn
  ids := h.ids.sublist (hrooms.map RoomRow.roomId)
  rooms row hrow := h.rooms row (hrooms.subset hrow)
  calls d roomId data checkedAt hd := by
    rcases Runs.update_eq_some hd with ⟨-, hlast⟩ | ⟨-, hd⟩
    · exact hcall roomId data checkedAt (Option.some.inj hlast)
    · exact h.calls d roomId data checkedAt hd

/-- A room that is examined goes on to have a payload stored if the token is its own, in time. -/
theorem setting_of_examine {token : String} {now : Int} {late : Answer}
    {go : RoomRow → Call} {checkedAt : Int} {id : String}
    (h : examine (roomOf s.rooms roomId) token now late go = .setting id data checkedAt) :
    ∃ row ∈ s.rooms, row.roomId = roomId ∧ row.token = token ∧ now ≤ row.expiresAt ∧
      go row = .setting id data checkedAt := by
  unfold examine at h
  cases hroom : roomOf s.rooms roomId with
  | none =>
    simp only [hroom] at h
    cases h
  | some row =>
    simp only [hroom] at h
    obtain ⟨hmem, hid⟩ := mem_of_roomOf hroom
    split_ifs at h with htoken hlate
    exact ⟨row, hmem, hid, not_not.mp htoken, Int.not_lt.mp hlate, h⟩

theorem Sound.create (h : Sound s ws) (ephemeralPubkey token : String)
    (hnew : roomId ∉ s.drawnIds) (now : Int) : Sound { s with
      rooms := s.rooms ++ [newRoom ephemeralPubkey roomId token now]
      drawnIds := roomId :: s.drawnIds }
    (ws ++ [.created roomId token (now + PROVISION_ROOM_TTL_MS)]) := by
  have hfresh : roomId ∉ ws.map Happening.roomId := by
    intro hroom
    obtain ⟨w, hw, rfl⟩ := List.mem_map.mp hroom
    exact hnew (h.drawn w hw)
  have hold : ∀ row ∈ s.rooms, row.roomId ≠ roomId := by
    rintro row hrow rfl
    exact hfresh (List.mem_map_of_mem (h.rooms row hrow).created)
  refine ⟨Histories.lawful_concat.mpr ⟨h.lawful, hfresh⟩, fun w hw => ?_, ?_, fun row hrow => ?_,
    fun c id data checkedAt hc => (h.calls c id data checkedAt hc).mono _⟩
  · rcases List.mem_append.mp hw with hw | hw
    · exact List.mem_cons_of_mem _ (h.drawn w hw)
    · simp [List.mem_singleton.mp hw, Happening.roomId]
  · rw [List.map_append]
    refine h.ids.append (List.nodup_singleton _) fun id hid hlast => ?_
    obtain ⟨row, hrow, rfl⟩ := List.mem_map.mp hid
    exact hold row hrow (List.mem_singleton.mp hlast)
  · rcases List.mem_append.mp hrow with hrow | hrow
    · obtain ⟨hcreated, hstored, hundelivered⟩ := h.rooms row hrow
      exact ⟨List.mem_append_left _ hcreated, by simpa using hstored,
        by simpa using hundelivered⟩
    · obtain rfl := List.mem_singleton.mp hrow
      refine ⟨List.mem_append_right _ (List.mem_singleton_self _), ?_, ?_⟩
      · simpa [newRoom, RoomRow.payload] using lastStored_eq_none hfresh
      · have hundelivered : roomId ∉ ws.filterMap Happening.delivery :=
          fun hroom => hfresh (mem_roomId_of_delivery hroom)
        simpa [newRoom] using hundelivered

theorem mem_setPayload {row : RoomRow}
    (h : row ∈ setPayload rooms roomId data) : ∃ old ∈ rooms, old.roomId = row.roomId ∧
      old.token = row.token ∧ old.expiresAt = row.expiresAt ∧
      row.payload = if row.roomId = roomId then some data.payload else old.payload := by
  obtain ⟨old, hold, rfl⟩ := List.mem_map.mp h
  refine ⟨old, hold, ?_⟩
  by_cases hid : old.roomId = roomId
  · simp [hid, RoomRow.payload, PayloadData.payload]
  · simp [hid]

theorem setPayload_of_none
    (h : ¬ ∃ row ∈ rooms, row.roomId = roomId) (data : PayloadData) :
    setPayload rooms roomId data = rooms := by
  conv_rhs => rw [← List.map_id rooms]
  exact List.map_congr_left fun row hrow => if_neg fun hid => h ⟨row, hrow, hid⟩

theorem Sound.deliver (h : Sound s ws) {roomId token : String} {databaseNow : Int} {row : RoomRow}
    (hrow : row ∈ s.rooms) (hconsumable : Consumable roomId token databaseNow row)
    {payload : Payload} (hpayload : row.payload = some payload) (c : Nat) (answer : Answer) :
    Sound (State.goOn { s with
      rooms := s.rooms.filter fun row => ¬ Consumable roomId token databaseNow row } c
        (.answered answer)) (ws ++ [.delivered roomId token databaseNow payload]) := by
  obtain ⟨hcreated, hstored, hundelivered⟩ := h.rooms row hrow
  have hmatches := hconsumable
  obtain ⟨rfl, rfl, -, hexpires⟩ := hconsumable
  have hdrawn : row.roomId ∈ s.drawnIds := h.drawn _ hcreated
  have hallowed : Allowed ws (.delivered row.roomId row.token databaseNow payload) :=
    ⟨⟨row.expiresAt, hcreated, hexpires⟩, hstored.trans hpayload, hundelivered⟩
  have hkept : Sound { s.goOn c (.answered answer) with
      rooms := s.rooms.filter fun other =>
        ¬ Consumable row.roomId row.token databaseNow other } ws :=
    h.goOn List.filter_sublist c nofun
  refine ⟨Histories.lawful_concat.mpr ⟨h.lawful, hallowed⟩, fun w hw => ?_, hkept.ids,
    fun other hother => ?_,
    fun d id data checkedAt hd => (hkept.calls d id data checkedAt hd).mono _⟩
  · rcases List.mem_append.mp hw with hw | hw
    · exact h.drawn w hw
    · rw [List.mem_singleton.mp hw]
      exact hdrawn
  · obtain ⟨hmem, hnot⟩ := List.mem_filter.mp hother
    -- no other room has the id of the one that is consumed
    have hne : other.roomId ≠ row.roomId := by
      intro hid
      obtain rfl := h.eq_of_id hmem hrow hid
      exact of_decide_eq_true hnot hmatches
    obtain ⟨hcreated', hstored', hundelivered'⟩ := h.rooms other hmem
    exact ⟨List.mem_append_left _ hcreated', by simpa using hstored',
      by simpa [hne] using hundelivered'⟩

theorem Sound.store (h : Sound s ws) {checkedAt : Int}
    {c : Nat} (hc : s.calls c = some (.setting roomId data checkedAt))
    (hthere : ∃ row ∈ s.rooms, row.roomId = roomId) :
    Sound (State.goOn { s with rooms := setPayload s.rooms roomId data } c (.answered .done))
      (ws ++ [.stored roomId data.token checkedAt data.payload]) := by
  obtain ⟨there, hmem, rfl⟩ := hthere
  have hchecked := h.calls c _ data checkedAt hc
  have hdrawn : there.roomId ∈ s.drawnIds := h.drawn _ (h.rooms there hmem).created
  have hallowed : Allowed ws (.stored there.roomId data.token checkedAt data.payload) :=
    ⟨hchecked, (h.rooms there hmem).undelivered⟩
  have hkept : Sound (s.goOn c (.answered .done)) ws := h.goOn (List.Sublist.refl _) c nofun
  refine ⟨Histories.lawful_concat.mpr ⟨h.lawful, hallowed⟩, fun w hw => ?_, ?_,
    fun row hrow => ?_, fun d id data checkedAt hd => (hkept.calls d id data checkedAt hd).mono _⟩
  · rcases List.mem_append.mp hw with hw | hw
    · exact h.drawn w hw
    · rw [List.mem_singleton.mp hw]
      exact hdrawn
  · have hids : (setPayload s.rooms there.roomId data).map RoomRow.roomId =
        s.rooms.map RoomRow.roomId := by
      unfold setPayload
      rw [List.map_map]
      refine List.map_congr_left fun row _ => ?_
      by_cases hid : row.roomId = there.roomId <;> simp [hid]
    have hnodup := h.ids
    rwa [← hids] at hnodup
  · obtain ⟨old, hold, hid, htoken, hexpires, hpayload⟩ := mem_setPayload hrow
    obtain ⟨hcreated, hstored, hundelivered⟩ := h.rooms old hold
    rw [hid] at hcreated hstored hundelivered
    rw [htoken, hexpires] at hcreated
    refine ⟨List.mem_append_left _ hcreated, ?_, by simpa using hundelivered⟩
    rw [hpayload, lastStored_concat_stored, hstored]
    simp [eq_comm]

/-- **What a step tells is allowed**, and leaves what is told of the rooms. -/
theorem told_step {e : Event} (h : Sound s ws) (hstep : step s e = some s') :
    Sound s' (ws ++ told s e) := by
  have hall : s.rooms.Sublist s.rooms := List.Sublist.refl s.rooms
  cases e with
  | createProvisionRoom ephemeralPubkey roomId token now =>
    simp only [step] at hstep
    obtain ⟨hnew, hstep⟩ := Option.ite_none_left_eq_some.mp hstep
    exact Option.some.inj hstep ▸ h.create ephemeralPubkey token hnew now
  | getProvisionRoom c roomId token databaseNow =>
    simp only [step] at hstep
    split at hstep
    next hc =>
      cases hfind : s.rooms.find? (Consumable roomId token databaseNow) with
      | none =>
        simp only [hfind] at hstep
        simp only [told, hc, hfind, Option.bind_none, List.append_nil]
        exact Option.some.inj hstep ▸ h.goOn hall c nofun
      | some row =>
        have hconsumable : Consumable roomId token databaseNow row := by
          simpa using List.find?_some hfind
        obtain ⟨encryptedNsec, hnsec⟩ := Option.ne_none_iff_exists'.mp hconsumable.2.2.1
        have hpayload : row.payload = some ⟨encryptedNsec, row.primaryPubkey⟩ := by
          simp [RoomRow.payload, hnsec]
        simp only [hfind] at hstep
        simp only [told, hc, hfind, Option.bind_some, hpayload]
        exact Option.some.inj hstep ▸
          h.deliver (List.mem_of_find?_eq_some hfind) hconsumable hpayload c _
    next => cases hstep
  | selectPolled c now =>
    simp only [step] at hstep
    split at hstep
    next roomId token hc =>
      simp only [told, List.append_nil]
      refine Option.some.inj hstep ▸ h.goOn hall c fun id data checkedAt hcall => ?_
      obtain ⟨row, -, -, -, -, hwaiting⟩ := setting_of_examine hcall
      cases hwaiting
    next => cases hstep
  | setProvisionPayload c roomId data now =>
    simp only [step] at hstep
    split at hstep
    next hc =>
      simp only [told, List.append_nil]
      refine Option.some.inj hstep ▸ h.goOn hall c fun id data' checkedAt hcall => ?_
      obtain ⟨row, hrow, rfl, htoken, htime, hsetting⟩ := setting_of_examine hcall
      obtain ⟨rfl, rfl, rfl⟩ := Call.setting.inj hsetting
      exact ⟨row.expiresAt, htoken ▸ (h.rooms row hrow).created, htime⟩
    next => cases hstep
  | updatePayload c =>
    simp only [step] at hstep
    split at hstep
    next roomId data checkedAt hc =>
      simp only [told, hc]
      split_ifs with hthere
      · exact Option.some.inj hstep ▸ h.store hc hthere
      · -- the room has gone, and the statement updates none
        rw [setPayload_of_none hthere data] at hstep
        rw [List.append_nil]
        exact Option.some.inj hstep ▸ h.goOn hall c nofun
    next => cases hstep
  | deleteExpired c =>
    simp only [step] at hstep
    split at hstep
    next roomId answer hc =>
      simp only [told, List.append_nil]
      exact Option.some.inj hstep ▸ h.goOn List.filter_sublist c nofun
    next => cases hstep
  | deleteRooms roomIds =>
    simp only [told, List.append_nil]
    obtain rfl := Option.some.inj hstep
    exact ⟨h.lawful, h.drawn, h.ids.sublist (List.filter_sublist.map RoomRow.roomId),
      fun row hrow => h.rooms row (List.mem_of_mem_filter hrow), h.calls⟩
  | fail c =>
    simp only [step] at hstep
    split at hstep
    next => cases hstep
    next => cases hstep
    next =>
      simp only [told, List.append_nil]
      exact Option.some.inj hstep ▸ h.goOn hall c nofun

end Steps

theorem sound_run {es : List Event} {t : State} (h : Runs.run step start es = some t) :
    Sound t (Runs.emitted step told start es) := by
  have hstart : Sound start [] :=
    ⟨Histories.lawful_nil, nofun, List.nodup_nil, nofun, fun _ _ _ _ hc => by cases hc⟩
  exact Runs.run_emitted (fun _ _ _ _ hs hstep => told_step hs hstep) [] hstart h

def nsec (encryptedNsec : String) : PayloadData where
  token := "token"
  encryptedNsec := encryptedNsec
  primaryPubkey := "primary"
  senderPubkey := "sender"

/-- The room is created, and the payload stored; an attacker guesses the token, and the new device
fetches the payload, twice. -/
def linked : List Event :=
  [.createProvisionRoom "ephemeral" "room" "token" 0, .setProvisionPayload 0 "room" (nsec "a") 1,
    .updatePayload 0, .getProvisionRoom 1 "room" "guess" 2, .selectPolled 1 2,
    .getProvisionRoom 2 "room" "token" 3, .getProvisionRoom 3 "room" "token" 3]

end Llamenos.Worker.Provisioning
