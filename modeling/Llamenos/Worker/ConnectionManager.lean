import Llamenos.Lib.Runs

/-!
# The websocket connections

`ConnectionManager` of `apps/worker/lib/ws-manager.ts`, as far as connections and subscriptions
go. A connection's state is an object that the socket handler of `apps/worker/routes/ws.ts` makes
and keeps, whether or not it is registered, and that the manager changes; here it has a number. A
`Set` is a list; a missing set of connections is an empty one.

The subscriptions are kept twice: on each connection (`subscribedHubs`), and by hub and public key
(`hubSubscriptions`). A run is any sequence of calls on any connections, registered or not.

`unregister` of one of several connections leaves the key subscribed to what only that connection
was, `evictMember` leaves the hub on the key's connections, and `subscribe` and `register` do not
ask whether the other index agrees.

Results:
* `run_limited`: no user ever holds more than `MAX_CONNECTIONS_PER_USER` connections.
* `step_indexed_iff`: which steps keep the two indexes in agreement.
* `consistent_iff`: **the indexes agree all along exactly if every step keeps them so**.
-/

namespace Llamenos.Worker.Ws

open Llamenos.Lib

/-! ## The code -/

def MAX_CONNECTIONS_PER_USER : Nat := 5

/-- `set.add(x)`. -/
def add {α : Type} [DecidableEq α] (xs : List α) (x : α) : List α :=
  if x ∈ xs then xs else xs ++ [x]

/-- `set.delete(x)`. -/
def delete {α : Type} [DecidableEq α] (xs : List α) (x : α) : List α := xs.filter fun y => y ≠ x

@[simp] theorem mem_add {α : Type} [DecidableEq α] {xs : List α} {x y : α} :
    y ∈ add xs x ↔ y ∈ xs ∨ y = x := by
  unfold add
  split
  · rename_i h
    exact ⟨.inl, fun hy => hy.elim id fun heq => heq ▸ h⟩
  · rw [List.mem_append, List.mem_singleton]

@[simp] theorem mem_delete {α : Type} [DecidableEq α] {xs : List α} {x y : α} :
    y ∈ delete xs x ↔ y ∈ xs ∧ y ≠ x := by
  simp [delete]

/-- A map of maps with the entry of two keys set, or deleted. -/
def setEntry (f : String → String → Option (List Nat)) (hubId pubkey : String)
    (entry : Option (List Nat)) : String → String → Option (List Nat) :=
  Function.update f hubId (Function.update (f hubId) pubkey entry)

theorem setEntry_apply (f : String → String → Option (List Nat)) (hubId pubkey : String)
    (entry : Option (List Nat)) (hubId' pubkey' : String) :
    setEntry f hubId pubkey entry hubId' pubkey' =
      if hubId' = hubId ∧ pubkey' = pubkey then entry else f hubId' pubkey' := by
  unfold setEntry
  by_cases hhub : hubId' = hubId
  · subst hhub
    rw [Function.update_self]
    by_cases hkey : pubkey' = pubkey
    · subst hkey
      simp
    · simp [hkey]
  · simp [hhub]

structure ConnectionState where
  pubkey : String
  /-- Hub IDs the user is a member of. -/
  hubs : List String
  /-- Hub IDs this specific connection has subscribed to. -/
  subscribedHubs : List String

/-- The manager's maps, and the connections' states by their numbers. -/
structure ConnectionManager where
  connections : String → List Nat := fun _ => []
  /-- By hub and public key, the kinds subscribed to. -/
  hubSubscriptions : String → String → Option (List Nat) := fun _ _ => none
  states : Nat → Option ConnectionState := fun _ => none

variable (m : ConnectionManager)

/-- `register`, with its result. -/
def register (id : Nat) (state : ConnectionState) : ConnectionManager × Bool :=
  let conns := m.connections state.pubkey
  if MAX_CONNECTIONS_PER_USER ≤ conns.length then (m, false)
  else ({ m with connections := Function.update m.connections state.pubkey (add conns id) }, true)

def removeSubscription (pubkey hubId : String) : ConnectionManager :=
  { m with hubSubscriptions := setEntry m.hubSubscriptions hubId pubkey none }

/-- The loop over `state.subscribedHubs`. -/
def removeSubscriptions (pubkey : String) (hubIds : List String) : ConnectionManager :=
  hubIds.foldl (fun m hubId => removeSubscription m pubkey hubId) m

def unregister (id : Nat) (state : ConnectionState) : ConnectionManager :=
  let conns := delete (m.connections state.pubkey) id
  let m := { m with connections := Function.update m.connections state.pubkey conns }
  if conns = [] then removeSubscriptions m state.pubkey state.subscribedHubs else m

def subscribe (id : Nat) (state : ConnectionState) (hubId : String) (kinds : List Nat) :
    ConnectionManager :=
  let state := { state with subscribedHubs := add state.subscribedHubs hubId }
  let userKinds := (m.hubSubscriptions hubId state.pubkey).getD []
  { m with
    states := Function.update m.states id (some state)
    hubSubscriptions :=
      setEntry m.hubSubscriptions hubId state.pubkey (some (kinds.foldl add userKinds)) }

/-- The loop over a user's connections. -/
def onConnections (pubkey : String) (f : ConnectionState → ConnectionState) : ConnectionManager :=
  { m with states := fun id =>
      if id ∈ m.connections pubkey then (m.states id).map f else m.states id }

def unsubscribe (pubkey hubId : String) : ConnectionManager :=
  onConnections (removeSubscription m pubkey hubId) pubkey fun conn =>
    { conn with subscribedHubs := delete conn.subscribedHubs hubId }

def evictMember (pubkey hubId : String) : ConnectionManager :=
  onConnections (removeSubscription m pubkey hubId) pubkey fun conn =>
    { conn with hubs := delete conn.hubs hubId }

def terminateUser (pubkey : String) : ConnectionManager :=
  let conns := m.connections pubkey
  let hubIds := conns.flatMap fun id => ((m.states id).map ConnectionState.subscribedHubs).getD []
  let m := removeSubscriptions m pubkey hubIds
  { m with connections := Function.update m.connections pubkey [] }

/-! ## Runs -/

inductive Event where
  /-- A socket authenticates: its state is made, with no subscriptions. -/
  | connect (id : Nat) (pubkey : String) (hubs : List String)
  | register (id : Nat)
  | unregister (id : Nat)
  | subscribe (id : Nat) (hubId : String) (kinds : List Nat)
  | unsubscribe (pubkey hubId : String)
  | evictMember (pubkey hubId : String)
  | terminateUser (pubkey : String)

def step : Event → Option ConnectionManager
  | .connect id pubkey hubs =>
    match m.states id with
    | none => some { m with states := Function.update m.states id (some ⟨pubkey, hubs, []⟩) }
    | some _ => none
  | .register id => (m.states id).map fun state => (register m id state).1
  | .unregister id => (m.states id).map fun state => unregister m id state
  | .subscribe id hubId kinds => (m.states id).map fun state => subscribe m id state hubId kinds
  | .unsubscribe pubkey hubId => some (unsubscribe m pubkey hubId)
  | .evictMember pubkey hubId => some (evictMember m pubkey hubId)
  | .terminateUser pubkey => some (terminateUser m pubkey)

/-- The connection has the hub in its `subscribedHubs`. -/
def Subscribed (id : Nat) (hubId : String) : Prop :=
  ∃ state ∈ m.states id, hubId ∈ state.subscribedHubs

/-- One of these connections has. -/
def AnySubscribed (ids : List Nat) (hubId : String) : Prop := ∃ id ∈ ids, Subscribed m id hubId

instance (id : Nat) (hubId : String) : Decidable (Subscribed m id hubId) := by
  unfold Subscribed
  infer_instance

instance (ids : List Nat) (hubId : String) : Decidable (AnySubscribed m ids hubId) := by
  unfold AnySubscribed
  infer_instance

/-- A public key is among a hub's subscribers exactly if one of its live connections is. -/
def Indexed : Prop :=
  ∀ pubkey hubId, (m.hubSubscriptions hubId pubkey).isSome = true ↔
    AnySubscribed m (m.connections pubkey) hubId

/-- No user holds more connections than allowed. -/
def Limited : Prop := ∀ pubkey, (m.connections pubkey).length ≤ MAX_CONNECTIONS_PER_USER

/-- A connection is among those of its own public key. -/
def Keyed : Prop := ∀ pubkey, ∀ id ∈ m.connections pubkey, ∃ state ∈ m.states id,
  state.pubkey = pubkey

/-- When a step keeps the indexes in agreement. A connection that registers has subscriptions that
another one has; of one that goes, there are others with its subscriptions, or none at all; the
one that subscribes is registered; and a hub that evicts is one the key is not subscribed to. -/
def Keeps : Event → Prop
  | .register id => ∀ state ∈ m.states id,
      (m.connections state.pubkey).length < MAX_CONNECTIONS_PER_USER →
        ∀ hubId ∈ state.subscribedHubs, AnySubscribed m (m.connections state.pubkey) hubId
  | .unregister id => ∀ state ∈ m.states id, id ∈ m.connections state.pubkey →
      delete (m.connections state.pubkey) id = [] ∨ ∀ hubId ∈ state.subscribedHubs,
        AnySubscribed m (delete (m.connections state.pubkey) id) hubId
  | .subscribe id hubId _ => ∀ state ∈ m.states id,
      id ∈ m.connections state.pubkey ∨ AnySubscribed m (m.connections state.pubkey) hubId
  | .evictMember pubkey hubId => ¬ AnySubscribed m (m.connections pubkey) hubId
  | .connect _ _ _ | .unsubscribe _ _ | .terminateUser _ => True

instance (e : Event) : Decidable (Keeps m e) := by
  unfold Keeps
  split <;> infer_instance

variable {m}

/-! ## Loops -/

theorem removeSubscriptions_spec (m : ConnectionManager) (pubkey : String)
    (hubIds : List String) :
    (removeSubscriptions m pubkey hubIds).connections = m.connections ∧
      (removeSubscriptions m pubkey hubIds).states = m.states ∧
      ∀ hubId pubkey', (removeSubscriptions m pubkey hubIds).hubSubscriptions hubId pubkey' =
        if hubId ∈ hubIds ∧ pubkey' = pubkey then none else m.hubSubscriptions hubId pubkey' := by
  induction hubIds generalizing m with
  | nil => exact ⟨rfl, rfl, fun hubId pubkey' => by simp [removeSubscriptions]⟩
  | cons hub hubIds ih =>
    obtain ⟨hconns, hstates, hsubs⟩ := ih (removeSubscription m pubkey hub)
    refine ⟨hconns, hstates, fun hubId pubkey' => ?_⟩
    refine (hsubs hubId pubkey').trans ?_
    simp only [removeSubscription, setEntry_apply, List.mem_cons]
    by_cases hkey : pubkey' = pubkey
    · by_cases hhead : hubId = hub
      · simp [hkey, hhead]
      · simp [hkey, hhead]
    · simp [hkey]

@[simp] theorem removeSubscriptions_connections (pubkey : String) (hubIds : List String) :
    (removeSubscriptions m pubkey hubIds).connections = m.connections :=
  (removeSubscriptions_spec m pubkey hubIds).1

@[simp] theorem removeSubscriptions_states (pubkey : String) (hubIds : List String) :
    (removeSubscriptions m pubkey hubIds).states = m.states :=
  (removeSubscriptions_spec m pubkey hubIds).2.1

@[simp] theorem removeSubscriptions_apply (pubkey : String) (hubIds : List String)
    (hubId pubkey' : String) :
    (removeSubscriptions m pubkey hubIds).hubSubscriptions hubId pubkey' =
      if hubId ∈ hubIds ∧ pubkey' = pubkey then none else m.hubSubscriptions hubId pubkey' :=
  (removeSubscriptions_spec m pubkey hubIds).2.2 hubId pubkey'

/-! ## Connections and their keys -/
variable {id : Nat}

theorem Keyed.not_mem {m : ConnectionManager} (hm : Keyed m) {pubkey pubkey' : String}
    (hne : pubkey' ≠ pubkey) (h : id ∈ m.connections pubkey') :
    id ∉ m.connections pubkey := by
  intro h'
  obtain ⟨state, hstate, hkey⟩ := hm pubkey id h'
  obtain ⟨state', hstate', hkey'⟩ := hm pubkey' id h
  obtain rfl := Option.mem_unique hstate hstate'
  exact hne (hkey'.symm.trans hkey)
variable {state : ConnectionState}

theorem Keyed.pubkey_eq {m : ConnectionManager} (hm : Keyed m) {pubkey : String}
    (h : id ∈ m.connections pubkey) (hstate : m.states id = some state) :
    state.pubkey = pubkey := by
  obtain ⟨state', hstate', hkey⟩ := hm pubkey id h
  obtain rfl := Option.mem_unique (Option.mem_def.mpr hstate) hstate'
  exact hkey
variable {hubId : String}

theorem subscribed_iff (h : m.states id = some state)
    : Subscribed m id hubId ↔ hubId ∈ state.subscribedHubs := by
  unfold Subscribed
  rw [h]
  simp

theorem anySubscribed_congr {m m' : ConnectionManager} {ids : List Nat}
    (h : ∀ id ∈ ids, Subscribed m' id hubId ↔ Subscribed m id hubId) :
    AnySubscribed m' ids hubId ↔ AnySubscribed m ids hubId :=
  exists_congr fun id => and_congr_right fun hid => h id hid

theorem anySubscribed_add {ids : List Nat} :
    AnySubscribed m (add ids id) hubId ↔ AnySubscribed m ids hubId ∨ Subscribed m id hubId := by
  unfold AnySubscribed
  simp only [mem_add]
  constructor
  · rintro ⟨i, hi | rfl, h⟩
    · exact .inl ⟨i, hi, h⟩
    · exact .inr h
  · rintro (⟨i, hi, h⟩ | h)
    · exact ⟨i, .inl hi, h⟩
    · exact ⟨id, .inr rfl, h⟩

theorem anySubscribed_delete {ids : List Nat} (hid : id ∈ ids) :
    AnySubscribed m ids hubId ↔ AnySubscribed m (delete ids id) hubId ∨ Subscribed m id hubId := by
  constructor
  · rintro ⟨i, hi, h⟩
    by_cases heq : i = id
    · exact .inr (heq ▸ h)
    · exact .inl ⟨i, mem_delete.mpr ⟨hi, heq⟩, h⟩
  · rintro (⟨i, hi, h⟩ | h)
    · exact ⟨i, (mem_delete.mp hi).1, h⟩
    · exact ⟨id, hid, h⟩

/-- A step that leaves the other keys alone is judged by its own key. -/
theorem indexed_iff_at {m m' : ConnectionManager} (hm : Indexed m) (pubkey : String)
    (hconns : ∀ pubkey', pubkey' ≠ pubkey → m'.connections pubkey' = m.connections pubkey')
    (hsubs : ∀ pubkey', pubkey' ≠ pubkey → ∀ hubId,
      m'.hubSubscriptions hubId pubkey' = m.hubSubscriptions hubId pubkey')
    (hstates : ∀ pubkey', pubkey' ≠ pubkey → ∀ id ∈ m.connections pubkey', ∀ hubId,
      Subscribed m' id hubId ↔ Subscribed m id hubId) :
    Indexed m' ↔ ∀ hubId, (m'.hubSubscriptions hubId pubkey).isSome = true ↔
      AnySubscribed m' (m'.connections pubkey) hubId := by
  refine ⟨fun h => h pubkey, fun h pubkey' hubId => ?_⟩
  by_cases hne : pubkey' = pubkey
  · rw [hne]
    exact h hubId
  · rw [hconns pubkey' hne, hsubs pubkey' hne]
    refine (hm pubkey' hubId).trans (anySubscribed_congr fun id hid => ?_).symm
    exact hstates pubkey' hne id hid hubId

/-! ## What keeps the indexes in agreement -/

theorem connect_indexed (hm : Indexed m) (hid : m.states id = none) (pubkey : String)
    (hubs : List String) :
    Indexed { m with states := Function.update m.states id (some ⟨pubkey, hubs, []⟩) } := by
  intro pubkey' hubId
  refine (hm pubkey' hubId).trans (anySubscribed_congr fun i _ => ?_).symm
  unfold Subscribed
  by_cases hi : i = id
  · subst hi
    simp [hid]
  · simp [hi]

theorem register_indexed_iff (hm : Indexed m)
    (hid : m.states id = some state) :
    Indexed (register m id state).1 ↔ Keeps m (.register id) := by
  have hkeeps : Keeps m (.register id) ↔
      ((m.connections state.pubkey).length < MAX_CONNECTIONS_PER_USER →
        ∀ hubId ∈ state.subscribedHubs, AnySubscribed m (m.connections state.pubkey) hubId) := by
    simp [Keeps, hid]
  rw [hkeeps]
  unfold register
  dsimp only
  split
  · rename_i hfull
    exact iff_of_true hm fun h => absurd h (Nat.not_lt.mpr hfull)
  · rename_i hroom
    refine Iff.trans (indexed_iff_at hm state.pubkey ?_ (fun _ _ _ => rfl)
      (fun _ _ _ _ _ => Iff.rfl)) ?_
    · exact fun pubkey' hne => Function.update_of_ne hne _ _
    simp only [Function.update_self]
    refine ⟨fun h _ hubId hhub => ?_, fun h hubId => ?_⟩
    · refine (hm state.pubkey hubId).mp ((h hubId).mpr ?_)
      exact anySubscribed_add.mpr (.inr ((subscribed_iff hid).mpr hhub))
    · refine (hm state.pubkey hubId).trans ⟨fun h => anySubscribed_add.mpr (.inl h), ?_⟩
      intro hany
      rcases anySubscribed_add.mp hany with hany | hsub
      · exact hany
      · exact h (Nat.not_le.mp hroom) hubId ((subscribed_iff hid).mp hsub)

theorem unregister_indexed_iff (hm : Indexed m)
    (hid : m.states id = some state) :
    Indexed (unregister m id state) ↔ Keeps m (.unregister id) := by
  have hkeeps : Keeps m (.unregister id) ↔ (id ∈ m.connections state.pubkey →
      delete (m.connections state.pubkey) id = [] ∨ ∀ hubId ∈ state.subscribedHubs,
        AnySubscribed m (delete (m.connections state.pubkey) id) hubId) := by
    simp [Keeps, hid]
  rw [hkeeps]
  unfold unregister
  dsimp only
  split
  · -- the last one goes: what it had was all the key had
    rename_i hlast
    refine iff_of_true ?_ fun _ => .inl hlast
    refine (indexed_iff_at hm state.pubkey ?_ ?_ ?_).mpr fun hubId => ?_
    · exact fun pubkey' hne => by simp [hne]
    · exact fun pubkey' hne hubId => by simp [hne]
    · exact fun _ _ _ _ _ => by simp [Subscribed]
    simp only [removeSubscriptions_connections, Function.update_self, hlast,
      removeSubscriptions_apply, and_true]
    refine iff_of_false ?_ (by rintro ⟨_, hi, _⟩; cases hi)
    split
    · exact Bool.false_ne_true
    · rename_i hhub
      intro hsome
      obtain ⟨i, hi, hsub⟩ := (hm state.pubkey hubId).mp hsome
      have hone : i = id := by
        by_contra hne
        exact absurd (mem_delete.mpr ⟨hi, hne⟩) (by rw [hlast]; exact List.not_mem_nil)
      rw [hone, subscribed_iff hid] at hsub
      exact hhub hsub
  · rename_i hlast
    refine Iff.trans (indexed_iff_at hm state.pubkey ?_ (fun _ _ _ => rfl)
      (fun _ _ _ _ _ => Iff.rfl)) ?_
    · exact fun pubkey' hne => Function.update_of_ne hne _ _
    simp only [Function.update_self]
    refine ⟨fun h hmem => .inr fun hubId hhub => ?_, fun h hubId => ?_⟩
    · refine (h hubId).mp ((hm state.pubkey hubId).mpr ?_)
      exact (anySubscribed_delete hmem).mpr (.inr ((subscribed_iff hid).mpr hhub))
    · refine (hm state.pubkey hubId).trans ?_
      by_cases hmem : id ∈ m.connections state.pubkey
      · refine (anySubscribed_delete hmem).trans ⟨?_, .inl⟩
        rintro (hany | hsub)
        · exact hany
        · exact (h hmem).resolve_left hlast hubId ((subscribed_iff hid).mp hsub)
      · have hsame : delete (m.connections state.pubkey) id = m.connections state.pubkey :=
          List.filter_eq_self.mpr fun i hi => by
            simpa using fun heq : i = id => hmem (heq ▸ hi)
        rw [hsame]
        exact Iff.rfl

theorem subscribe_indexed_iff (hm : Indexed m) (hkeyed : Keyed m)
    (hid : m.states id = some state) (hubId : String)
    (kinds : List Nat) :
    Indexed (subscribe m id state hubId kinds) ↔ Keeps m (.subscribe id hubId kinds) := by
  have hkeeps : Keeps m (.subscribe id hubId kinds) ↔ (id ∈ m.connections state.pubkey ∨
      AnySubscribed m (m.connections state.pubkey) hubId) := by
    simp [Keeps, hid]
  have hsub : ∀ i hub, Subscribed (subscribe m id state hubId kinds) i hub ↔
      Subscribed m i hub ∨ i = id ∧ hub = hubId := by
    intro i hub
    by_cases hi : i = id
    · subst hi
      rw [subscribed_iff hid, subscribed_iff (Function.update_self i _ m.states)]
      simp
    · simp [Subscribed, subscribe, hi]
  have hothers : ∀ pubkey', pubkey' ≠ state.pubkey → ∀ i ∈ m.connections pubkey', ∀ hub,
      Subscribed (subscribe m id state hubId kinds) i hub ↔ Subscribed m i hub := by
    intro pubkey' hne i hi hub
    rw [hsub]
    refine or_iff_left ?_
    rintro ⟨rfl, -⟩
    exact hne (hkeyed.pubkey_eq hi hid).symm
  rw [hkeeps]
  refine Iff.trans (indexed_iff_at hm state.pubkey (fun _ _ => rfl) ?_ hothers) ?_
  · exact fun pubkey' hne hub => by simp [subscribe, setEntry_apply, hne]
  have hany : ∀ hub, AnySubscribed (subscribe m id state hubId kinds)
      (m.connections state.pubkey) hub ↔ AnySubscribed m (m.connections state.pubkey) hub ∨
        id ∈ m.connections state.pubkey ∧ hub = hubId := by
    intro hub
    unfold AnySubscribed
    simp only [hsub]
    constructor
    · rintro ⟨i, hi, h | ⟨rfl, h⟩⟩
      · exact .inl ⟨i, hi, h⟩
      · exact .inr ⟨hi, h⟩
    · rintro (⟨i, hi, h⟩ | ⟨hi, h⟩)
      · exact ⟨i, hi, .inl h⟩
      · exact ⟨id, hi, .inr ⟨rfl, h⟩⟩
  have hentry : ∀ hub, ((subscribe m id state hubId kinds).hubSubscriptions hub
      state.pubkey).isSome = true ↔
        hub = hubId ∨ (m.hubSubscriptions hub state.pubkey).isSome = true := by
    intro hub
    by_cases hhub : hub = hubId
    · simp [subscribe, setEntry_apply, hhub]
    · simp [subscribe, setEntry_apply, hhub]
  refine ⟨fun h => ?_, fun h hub => ?_⟩
  · have := (h hubId).mp ((hentry hubId).mpr (.inl rfl))
    rcases (hany hubId).mp this with hold | ⟨hmem, -⟩
    · exact .inr hold
    · exact .inl hmem
  · refine (hentry hub).trans (Iff.trans ?_ (hany hub).symm)
    rw [hm state.pubkey hub]
    constructor
    · rintro (rfl | hold)
      · exact h.elim (fun hmem => .inr ⟨hmem, rfl⟩) .inl
      · exact .inl hold
    · rintro (hold | ⟨-, hhub⟩)
      · exact .inr hold
      · exact .inl hhub

theorem unsubscribe_indexed (hm : Indexed m) (hkeyed : Keyed m) (pubkey hubId : String) :
    Indexed (unsubscribe m pubkey hubId) := by
  have hsub : ∀ i ∈ m.connections pubkey, ∀ hub,
      Subscribed (unsubscribe m pubkey hubId) i hub ↔ Subscribed m i hub ∧ hub ≠ hubId := by
    intro i hi hub
    cases hstate : m.states i <;>
      simp [Subscribed, unsubscribe, onConnections, removeSubscription, hi, hstate]
  refine Iff.mpr (indexed_iff_at hm pubkey (fun _ _ => rfl) ?_ ?_) fun hub => ?_
  · exact fun pubkey' hne hub =>
      by simp [unsubscribe, onConnections, removeSubscription, setEntry_apply, hne]
  · intro pubkey' hne i hi hub
    simp [Subscribed, unsubscribe, onConnections, removeSubscription, hkeyed.not_mem hne hi]
  · have hany : AnySubscribed (unsubscribe m pubkey hubId) (m.connections pubkey) hub ↔
        AnySubscribed m (m.connections pubkey) hub ∧ hub ≠ hubId := by
      constructor
      · rintro ⟨i, hi, h⟩
        exact ⟨⟨i, hi, ((hsub i hi hub).mp h).1⟩, ((hsub i hi hub).mp h).2⟩
      · rintro ⟨⟨i, hi, h⟩, hne⟩
        exact ⟨i, hi, (hsub i hi hub).mpr ⟨h, hne⟩⟩
    refine Iff.trans ?_ hany.symm
    by_cases hhub : hub = hubId
    · simp [unsubscribe, onConnections, removeSubscription, setEntry_apply, hhub]
    · simpa [unsubscribe, onConnections, removeSubscription, setEntry_apply, hhub] using
        hm pubkey hub

/-- Membership is not subscription: an eviction leaves every `subscribedHubs` as it was. -/
theorem evictMember_subscribed (pubkey hubId : String) (i : Nat) (hub : String) :
    Subscribed (evictMember m pubkey hubId) i hub ↔ Subscribed m i hub := by
  by_cases hi : i ∈ m.connections pubkey
  · cases hstate : m.states i <;>
      simp [Subscribed, evictMember, onConnections, removeSubscription, hi, hstate]
  · simp [Subscribed, evictMember, onConnections, removeSubscription, hi]

theorem evictMember_indexed_iff (hm : Indexed m) (pubkey hubId : String) :
    Indexed (evictMember m pubkey hubId) ↔ Keeps m (.evictMember pubkey hubId) := by
  refine Iff.trans (indexed_iff_at hm pubkey (fun _ _ => rfl) ?_ ?_) ?_
  · exact fun pubkey' hne hub =>
      by simp [evictMember, onConnections, removeSubscription, setEntry_apply, hne]
  · exact fun _ _ i _ hub => evictMember_subscribed pubkey hubId i hub
  have hany : ∀ hub, AnySubscribed (evictMember m pubkey hubId) (m.connections pubkey) hub ↔
      AnySubscribed m (m.connections pubkey) hub :=
    fun hub => anySubscribed_congr fun i _ => evictMember_subscribed pubkey hubId i hub
  constructor
  · intro h hsub
    have hentry := (h hubId).mpr ((hany hubId).mpr hsub)
    simp [evictMember, onConnections, removeSubscription, setEntry_apply] at hentry
  · intro hnone hub
    refine Iff.trans ?_ (hany hub).symm
    by_cases hhub : hub = hubId
    · subst hhub
      exact iff_of_false
        (by simp [evictMember, onConnections, removeSubscription, setEntry_apply]) hnone
    · simpa [evictMember, onConnections, removeSubscription, setEntry_apply, hhub] using
        hm pubkey hub

theorem terminateUser_indexed (hm : Indexed m) (pubkey : String) :
    Indexed (terminateUser m pubkey) := by
  refine (indexed_iff_at hm pubkey ?_ ?_ ?_).mpr fun hub => ?_
  · exact fun pubkey' hne => by simp [terminateUser, hne]
  · exact fun pubkey' hne hub => by simp [terminateUser, hne]
  · exact fun _ _ i _ hub => by simp [Subscribed, terminateUser]
  · refine iff_of_false ?_ ?_
    · intro hsome
      simp only [terminateUser, removeSubscriptions_apply, and_true] at hsome
      split at hsome
      · cases hsome
      · rename_i hhub
        obtain ⟨i, hi, state, hstate, hsub⟩ := (hm pubkey hub).mp hsome
        refine hhub (List.mem_flatMap.mpr ⟨i, hi, ?_⟩)
        rw [Option.mem_def.mp hstate]
        exact hsub
    · rintro ⟨i, hi, -⟩
      simp [terminateUser] at hi

variable {m' : ConnectionManager}

/-- **Which steps keep the two indexes in agreement.** -/
theorem step_indexed_iff (hm : Indexed m) (hkeyed : Keyed m) {e : Event}
    (h : step m e = some m') : Indexed m' ↔ Keeps m e := by
  cases e with
  | connect id pubkey hubs =>
    unfold step at h
    dsimp only at h
    split at h
    · rename_i hid
      cases h
      exact iff_of_true (connect_indexed hm hid pubkey hubs) trivial
    · cases h
  | register id =>
    obtain ⟨state, hid, rfl⟩ := Option.map_eq_some_iff.mp h
    exact register_indexed_iff hm hid
  | unregister id =>
    obtain ⟨state, hid, rfl⟩ := Option.map_eq_some_iff.mp h
    exact unregister_indexed_iff hm hid
  | subscribe id hubId kinds =>
    obtain ⟨state, hid, rfl⟩ := Option.map_eq_some_iff.mp h
    exact subscribe_indexed_iff hm hkeyed hid hubId kinds
  | unsubscribe pubkey hubId =>
    obtain rfl := Option.some.inj h
    exact iff_of_true (unsubscribe_indexed hm hkeyed pubkey hubId) trivial
  | evictMember pubkey hubId =>
    obtain rfl := Option.some.inj h
    exact evictMember_indexed_iff hm pubkey hubId
  | terminateUser pubkey =>
    obtain rfl := Option.some.inj h
    exact iff_of_true (terminateUser_indexed hm pubkey) trivial

/-! ## Keys and limits -/

theorem keyed_of {m m' : ConnectionManager} (hm : Keyed m)
    (hconns : ∀ pubkey, ∀ id ∈ m'.connections pubkey, id ∈ m.connections pubkey)
    (hstates : ∀ id, ∀ state ∈ m.states id, ∃ state' ∈ m'.states id,
      state'.pubkey = state.pubkey) : Keyed m' := by
  intro pubkey id hid
  obtain ⟨state, hstate, hkey⟩ := hm pubkey id (hconns pubkey id hid)
  obtain ⟨state', hstate', hkey'⟩ := hstates id state hstate
  exact ⟨state', hstate', hkey'.trans hkey⟩

theorem length_add_le {α : Type} [DecidableEq α] (xs : List α) (x : α) :
    (add xs x).length ≤ xs.length + 1 := by
  unfold add
  split
  · exact Nat.le_succ _
  · exact Nat.le_of_eq List.length_append

theorem onConnections_states (pubkey : String) (f : ConnectionState → ConnectionState)
    (hf : ∀ state, (f state).pubkey = state.pubkey) (id : Nat) (state : ConnectionState)
    (h : state ∈ m.states id) : ∃ state' ∈ (onConnections m pubkey f).states id,
      state'.pubkey = state.pubkey := by
  unfold onConnections
  dsimp only
  split
  · exact ⟨f state, Option.mem_map_of_mem f h, hf state⟩
  · exact ⟨state, h, rfl⟩

theorem connect_keyed (hm : Keyed m) {pubkey : String} {hubs : List String}
    (h : step m (.connect id pubkey hubs) = some m') : Keyed m' := by
  unfold step at h
  dsimp only at h
  split at h
  · rename_i hid
    cases h
    refine keyed_of hm (fun _ _ h => h) fun i state hstate => ⟨state, ?_, rfl⟩
    have hne : i ≠ id := by
      rintro rfl
      rw [hid] at hstate
      cases hstate
    simpa [hne] using hstate
  · cases h

theorem register_keyed (hm : Keyed m)
    (hid : m.states id = some state) : Keyed (register m id state).1 := by
  unfold register
  dsimp only
  split
  · exact hm
  · intro pubkey i hi
    dsimp only at hi ⊢
    by_cases hkey : pubkey = state.pubkey
    · subst hkey
      rw [Function.update_self, mem_add] at hi
      rcases hi with hi | rfl
      · exact hm _ i hi
      · exact ⟨state, hid, rfl⟩
    · rw [Function.update_of_ne hkey] at hi
      exact hm pubkey i hi

/-- Whether or not it was the last one, an unregistered connection is all that goes. -/
theorem unregister_spec (m : ConnectionManager) (id : Nat) (state : ConnectionState) :
    (unregister m id state).connections = Function.update m.connections state.pubkey
        (delete (m.connections state.pubkey) id) ∧
      (unregister m id state).states = m.states := by
  unfold unregister
  dsimp only
  split
  · exact ⟨removeSubscriptions_connections .., removeSubscriptions_states ..⟩
  · exact ⟨rfl, rfl⟩

theorem unregister_keyed (hm : Keyed m) (id : Nat) (state : ConnectionState) :
    Keyed (unregister m id state) := by
  obtain ⟨hconns, hstates⟩ := unregister_spec m id state
  refine keyed_of hm (fun pubkey i hi => ?_) fun i s hs => ⟨s, hstates ▸ hs, rfl⟩
  rw [hconns] at hi
  by_cases hkey : pubkey = state.pubkey
  · subst hkey
    rw [Function.update_self] at hi
    exact (mem_delete.mp hi).1
  · rwa [Function.update_of_ne hkey] at hi

theorem terminateUser_keyed (hm : Keyed m) (pubkey : String) : Keyed (terminateUser m pubkey) := by
  refine keyed_of hm (fun pubkey' i hi => ?_) fun i s hs => ⟨s, by simpa [terminateUser], rfl⟩
  by_cases hkey : pubkey' = pubkey
  · simp [terminateUser, hkey] at hi
  · simpa [terminateUser, hkey] using hi

/-- **Every step keeps the connections under their users' keys.** -/
theorem step_keyed (hm : Keyed m) {e : Event} (h : step m e = some m') :
    Keyed m' := by
  cases e with
  | connect id pubkey hubs => exact connect_keyed hm h
  | register id =>
    obtain ⟨state, hid, rfl⟩ := Option.map_eq_some_iff.mp h
    exact register_keyed hm hid
  | unregister id =>
    obtain ⟨state, -, rfl⟩ := Option.map_eq_some_iff.mp h
    exact unregister_keyed hm id state
  | subscribe id hubId kinds =>
    obtain ⟨state, hid, rfl⟩ := Option.map_eq_some_iff.mp h
    refine keyed_of hm (fun _ _ h => h) fun i s hs => ?_
    by_cases hi : i = id
    · subst hi
      obtain rfl := Option.mem_unique (Option.mem_def.mpr hid) hs
      exact ⟨_, Function.update_self i _ m.states, rfl⟩
    · exact ⟨s, (Function.update_of_ne hi _ _).trans hs, rfl⟩
  | unsubscribe pubkey hubId =>
    obtain rfl := Option.some.inj h
    refine keyed_of hm (fun _ _ h => h) fun i s hs => ?_
    exact onConnections_states (m := removeSubscription m pubkey hubId) pubkey
      (fun conn => { conn with subscribedHubs := delete conn.subscribedHubs hubId }) (fun _ => rfl)
      i s hs
  | evictMember pubkey hubId =>
    obtain rfl := Option.some.inj h
    refine keyed_of hm (fun _ _ h => h) fun i s hs => ?_
    exact onConnections_states (m := removeSubscription m pubkey hubId) pubkey
      (fun conn => { conn with hubs := delete conn.hubs hubId }) (fun _ => rfl) i s hs
  | terminateUser pubkey =>
    obtain rfl := Option.some.inj h
    exact terminateUser_keyed hm pubkey

theorem step_limited (hm : Limited m) {e : Event}
    (h : step m e = some m') : Limited m' := by
  have hupdate : ∀ (key : String) (ids : List Nat), ids.length ≤ MAX_CONNECTIONS_PER_USER →
      ∀ pubkey, (Function.update m.connections key ids pubkey).length ≤
        MAX_CONNECTIONS_PER_USER := by
    intro key ids hids pubkey
    by_cases hkey : pubkey = key
    · rwa [hkey, Function.update_self]
    · rw [Function.update_of_ne hkey]
      exact hm pubkey
  cases e with
  | connect id pubkey hubs =>
    unfold step at h
    dsimp only at h
    split at h
    · cases h
      exact hm
    · cases h
  | register id =>
    obtain ⟨state, -, rfl⟩ := Option.map_eq_some_iff.mp h
    unfold register
    dsimp only
    split
    · exact hm
    · rename_i hroom
      exact hupdate _ _ (Nat.le_trans (length_add_le _ _) (Nat.not_le.mp hroom))
  | unregister id =>
    obtain ⟨state, -, rfl⟩ := Option.map_eq_some_iff.mp h
    have hfewer : (delete (m.connections state.pubkey) id).length ≤ MAX_CONNECTIONS_PER_USER :=
      Nat.le_trans (List.length_filter_le _ _) (hm state.pubkey)
    intro pubkey
    rw [(unregister_spec m id state).1]
    exact hupdate _ _ hfewer pubkey
  | subscribe id hubId kinds =>
    obtain ⟨state, -, rfl⟩ := Option.map_eq_some_iff.mp h
    exact hm
  | unsubscribe pubkey hubId =>
    obtain rfl := Option.some.inj h
    exact hm
  | evictMember pubkey hubId =>
    obtain rfl := Option.some.inj h
    exact hm
  | terminateUser pubkey =>
    obtain rfl := Option.some.inj h
    intro pubkey'
    simpa [terminateUser] using hupdate pubkey [] (Nat.zero_le _) pubkey'

/-! ## Runs -/

theorem initial_indexed : Indexed {} := fun _ _ =>
  iff_of_false Bool.false_ne_true (by rintro ⟨_, hi, _⟩; cases hi)

theorem initial_keyed : Keyed {} := fun _ _ hid => by cases hid

/-- **The indexes agree, within the limit, all along a run exactly if every step keeps them in
agreement.** -/
theorem consistent_iff {events : List Event} {t : ConnectionManager}
    (hrun : Runs.run step {} events = some t) :
    (∀ before after m, events = before ++ after → Runs.run step {} before = some m →
        Indexed m ∧ Limited m) ↔ Runs.Along step Keeps {} events := by
  have hlimited : Limited {} := fun _ => Nat.zero_le _
  refine Runs.inv_iff_along (I := Keyed) ?_ ?_ initial_keyed ⟨initial_indexed, hlimited⟩ hrun
  · exact fun m e m' hkeyed hstep => step_keyed hkeyed hstep
  · intro m e m' hkeyed hm hstep
    have hindexed := step_indexed_iff hm.1 hkeyed hstep
    constructor
    · exact fun hm' => hindexed.mp hm'.1
    · exact fun hkeeps => ⟨hindexed.mpr hkeeps, step_limited hm.2 hstep⟩

/-! ## Runs in which they part -/

/-- One of a user's two connections subscribes, and goes. -/
def oneOfTwoGoes : List Event :=
  [.connect 0 "user" ["hub"], .register 0, .connect 1 "user" ["hub"], .register 1,
    .subscribe 0 "hub" [1000], .unregister 0]

/-- A member of a hub subscribes, and is evicted. -/
def evicted : List Event :=
  [.connect 0 "user" ["hub"], .register 0, .subscribe 0 "hub" [1000], .evictMember "user" "hub"]

/-- A sixth connection is refused, and subscribes nevertheless. -/
def refused : List Event :=
  (List.range 6).flatMap (fun id => [.connect id "user" ["hub"], .register id]) ++
    [.subscribe 5 "hub" [1000]]

theorem not_indexed (pubkey hubId : String) {m : ConnectionManager}
    (h : (m.hubSubscriptions hubId pubkey).isSome ≠
      decide (AnySubscribed m (m.connections pubkey) hubId)) : ¬ Indexed m := by
  intro hm
  refine h (Bool.eq_iff_iff.mpr ((hm pubkey hubId).trans ?_))
  exact decide_eq_true_iff.symm

/-- The run ends where the indexes do not agree. -/
def Parts (events : List Event) : Prop := ∃ m, Runs.run step {} events = some m ∧ ¬ Indexed m

/-- The key stays subscribed when the connection goes, the connection when the key is evicted, and
the key without a connection. -/
theorem indexes_part : Parts oneOfTwoGoes ∧ Parts evicted ∧ Parts refused :=
  ⟨⟨_, rfl, not_indexed "user" "hub" (by decide +kernel)⟩,
    ⟨_, rfl, not_indexed "user" "hub" (by decide +kernel)⟩,
    ⟨_, rfl, not_indexed "user" "hub" (by decide +kernel)⟩⟩

/-- Each of a user's two connections subscribes to the hub, and one goes. -/
def bothSubscribed : List Event :=
  [.connect 0 "user" ["hub"], .register 0, .connect 1 "user" ["hub"], .register 1,
    .subscribe 1 "hub" [1000], .subscribe 0 "hub" [1001], .unregister 0]

theorem bothSubscribed_consistent :
    ∃ m, Runs.run step {} bothSubscribed = some m ∧ Indexed m ∧ Limited m := by
  have hkeeps : Runs.Along step Keeps {} bothSubscribed := by decide +kernel
  exact ⟨_, rfl, (consistent_iff rfl).mpr hkeeps bothSubscribed [] _ (List.append_nil _).symm rfl⟩

end Llamenos.Worker.Ws
