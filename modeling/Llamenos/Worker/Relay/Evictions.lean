import Llamenos.Worker.Relay.Registered
import Llamenos.Lib.Histories

/-!
# Evicted members

`evictMember` takes a hub from its user's subscriptions and from all the user's registered
connections. Nothing is published to a user who does not subscribe. To ask for the buffered events
of a hub again, a connection need not have subscribed to it: it is enough that its hubs have it.
They are what a lookup's answer has said they are, and an answer that was under way when the user
was evicted gives a connection its hub back.

Results:
* `move_live`: every open socket's connection is registered, so that an eviction finds it.
* `step_keeps`: an evicted user has no subscription, whatever happens.
* `evictions_iff`: **after an eviction no event of the hub is sent to the user until the user
  subscribes again, exactly if no request finds events on a connection that has the hub back**.
* `barred_iff`: no open socket's connection has the hub back exactly if no answer gives it one.
* `stale_answer`: a member is evicted while another socket authenticates.
-/

namespace Llamenos.Worker.Relay

open Llamenos.Lib Llamenos.Lib.Histories
open Llamenos.Worker.Ws (ConnectionManager ConnectionState add delete mem_add mem_delete)

/-! ## What happens to users -/

inductive Note where
  | evicted (pubkey hubId : String)
  | subscribed (pubkey hubId : String)
  /-- `conn.ws.send`, on the connection of a user. -/
  | sent (id : Nat) (pubkey : String) (event : WsEventMessage)
  deriving DecidableEq

/-- The connections that an event is published to, with their users. -/
def audience (m : ConnectionManager) (next : Nat) (event : WsEventMessage) : List (Nat × String) :=
  (List.range next).filterMap fun id => (m.states id).bind fun state =>
    if id ∈ m.connections state.pubkey ∧
        (m.hubSubscriptions event.hubId state.pubkey).any (·.contains event.kind) then
      some (id, state.pubkey)
    else none

def notes (prims : RelayPrims) (r : Server) : Event → List Note
  | .message k _ _ (.subscribe hubId _) =>
    ((r.sockets k).bind (connection r)).elim [] fun (_, state) =>
      if hubId ∈ state.hubs then [.subscribed state.pubkey hubId] else []
  | .message k now _ (.replay hubId since) =>
    ((r.sockets k).bind (connection r)).elim [] fun (id, state) =>
      if hubId ∈ state.hubs then
        ((replayed r id hubId since now).getD []).reverse.map (.sent id state.pubkey)
      else []
  | .answer lookup (.found hubs) => (r.lookups lookup).elim [] fun
    | .auth _ _ => []
    | .revalidate k pubkey => ((r.sockets k).bind (connection r)).elim [] fun (_, state) =>
      (removedHubs state hubs).map (.evicted pubkey)
  | .publish hubId kind payload epoch now =>
    let event := makeEvent prims hubId kind payload epoch now
    if (checkRateLimit r.rateLimits hubId kind now).2 then
      (audience r.manager r.next event).map fun (id, pubkey) => .sent id pubkey event
    else []
  | .evictMember pubkey hubId => [.evicted pubkey hubId]
  | _ => []

def Note.change : Note → Option (Change (String × String))
  | .evicted pubkey hubId => some (.add (pubkey, hubId))
  | .subscribed pubkey hubId => some (.remove (pubkey, hubId))
  | .sent _ _ _ => none

/-- The user has been evicted from the hub, and has not subscribed to it since. -/
def Evicted (ws : List Note) (pubkey hubId : String) : Prop :=
  Standing (ws.filterMap Note.change) (pubkey, hubId)

/-- An event is sent to a user who has not been evicted from its hub. -/
def Allowed (before : List Note) : Note → Prop
  | .sent _ pubkey event => ¬ Evicted before pubkey event.hubId
  | _ => True

/-- The hubs that a connection may ask for events of. -/
def hubsOf (m : ConnectionManager) (id : Nat) : List String :=
  ((m.states id).map (·.hubs)).getD []

/-- No open socket's connection has a hub that its user was evicted from. -/
def Barred (r : Server) (ws : List Note) : Prop :=
  ∀ k seat id pubkey, (view r).sockets k = some seat → seat.phase = .opened →
    seat.connState = some id → (view r).pubkeys id = some pubkey →
      ∀ hubId ∈ hubsOf r.manager id, ¬ Evicted ws pubkey hubId

/-- A request for the events of a hub finds none, or it comes on a connection that has not been
given the hub since its user was evicted from it. -/
def Unasked (p : Server × List Note) : Event → Prop
  | .message k now _ (.replay hubId since) => ∀ entry ∈ (p.1.sockets k).bind (connection p.1),
      hubId ∈ entry.2.hubs → Evicted p.2 entry.2.pubkey hubId →
        (replayed p.1 entry.1 hubId since now).getD [] = []
  | _ => True

/-- The hubs that an answer gives a connection are none that its user was evicted from. -/
def Current (p : Server × List Note) : Event → Prop
  | .answer lookup (.found hubs) => (p.1.lookups lookup).elim True fun
    | .auth k pubkey => ∀ socket ∈ p.1.sockets k, socket.phase = .opened →
        (p.1.manager.connections pubkey).length < Ws.MAX_CONNECTIONS_PER_USER →
          ∀ hubId ∈ hubs, ¬ Evicted p.2 pubkey hubId
    | .revalidate k _ => ∀ socket ∈ p.1.sockets k, socket.phase = .opened →
        ∀ entry ∈ connection p.1 socket, ∀ hubId ∈ hubs, ¬ Evicted p.2 entry.2.pubkey hubId
  | _ => True

instance (ws : List Note) (pubkey hubId : String) : Decidable (Evicted ws pubkey hubId) :=
  inferInstanceAs (Decidable (Standing _ _))

instance (p : Server × List Note) (e : Event) : Decidable (Unasked p e) := by
  unfold Unasked
  split <;> infer_instance

instance (p : Server × List Note) (e : Event) : Decidable (Current p e) := by
  unfold Current
  split
  · rename_i lookup hubs
    rcases p.1.lookups lookup with _ | _ | _ <;> simp only [Option.elim] <;> infer_instance
  · infer_instance

/-! ## Open sockets -/

/-- An open socket's connection is registered. -/
def Live (v : View) : Prop :=
  ∀ k seat id, v.sockets k = some seat → seat.phase = .opened → seat.connState = some id →
    ∃ pubkey, id ∈ v.connections pubkey

theorem Seat.close_phase (seat : Seat) : seat.close.phase ≠ .opened := by
  unfold Seat.close
  cases seat.phase <;> simp

theorem move_live {v : View} (hv : Sound v) (hlive : Live v) (m : Move) : Live (v.move m) := by
  cases m with
  | stay => exact hlive
  | «open» k =>
    intro j seat' id hj hopen hid
    rcases Runs.update_eq_some hj with ⟨-, hnew⟩ | ⟨-, hold⟩
    · obtain rfl := Option.some.inj hnew
      cases hid
    · exact hlive j seat' id hold hopen hid
  | shut k =>
    intro j seat' id hj hopen hid
    obtain ⟨seat, hseat, rfl | rfl⟩ := shut_sockets hj
    · exact hlive j _ id hseat hopen hid
    · exact absurd hopen seat.close_phase
  | authenticate k pubkey =>
    rw [View.move]
    cases hseat : v.sockets k with
    | none => exact hlive
    | some seat =>
      intro j seat' id hj hopen hid
      simp only [Option.elim_some, View.authenticate] at hj
      rcases Runs.update_eq_some hj with ⟨-, hnew⟩ | ⟨-, hold⟩
      · obtain rfl := Option.some.inj hnew
        split_ifs at hopen hid with hfull
        · exact absurd hopen (Seat.close_phase _)
        · obtain rfl := Option.some.inj hid
          refine ⟨pubkey, ?_⟩
          simp only [Option.elim_some, View.authenticate, hfull, if_false, Function.update_self,
            mem_add, or_true]
      · obtain ⟨key, hmem⟩ := hlive j seat' id hold hopen hid
        exact ⟨key, authenticate_mono hmem⟩
  | close k =>
    rw [View.move]
    cases hseat : v.sockets k with
    | none => exact hlive
    | some seat =>
      rw [Option.elim_some]
      obtain ⟨-, -, -, hsockets, hconns⟩ := unregister_spec
        { v with
          sockets := Function.update v.sockets k
            (some { seat with phase := .closed, accepted := false }) } seat
      intro j seat' id hj hopen hid
      rw [hsockets] at hj
      rcases Runs.update_eq_some hj with ⟨-, hnew⟩ | ⟨hne, hold⟩
      · obtain rfl := Option.some.inj hnew
        cases hopen
      · obtain ⟨key, hmem⟩ := hlive j seat' id hold hopen hid
        refine ⟨key, ?_⟩
        rw [hconns, List.mem_filter]
        exact ⟨hmem, decide_eq_true fun h => hne (hv.socket_eq hold hid hseat h.1)⟩
  | terminate pubkey =>
    intro j seat' id hj hopen hid
    simp only [View.move] at hj
    split_ifs at hj with hmine
    · obtain ⟨seat, -, rfl⟩ := Option.map_eq_some_iff.mp hj
      exact absurd hopen seat.close_phase
    · obtain ⟨key, hmem⟩ := hlive j seat' id hj hopen hid
      refine ⟨key, ?_⟩
      simp only [View.move]
      by_cases hkey : key = pubkey
      · refine absurd (List.any_eq_true.mpr ⟨id, hkey ▸ hmem, ?_⟩) hmine
        exact decide_eq_true (hv.own j seat' id hj hid).1
      · rwa [Function.update_of_ne hkey]

/-! ## Hubs -/

section Hubs

variable {m : ConnectionManager} {r : Server}

theorem evictMember_hubs (m : ConnectionManager) (pubkey hubId : String) (id : Nat)
    (hub : String) : hub ∈ hubsOf (Ws.evictMember m pubkey hubId) id ↔
      hub ∈ hubsOf m id ∧ ¬ (hub = hubId ∧ id ∈ m.connections pubkey) := by
  simp only [hubsOf, Ws.evictMember, Ws.onConnections, Ws.removeSubscription]
  by_cases hid : id ∈ m.connections pubkey
  · cases m.states id <;> simp [hid]
  · simp [hid]

theorem onConnections_hubs (m : ConnectionManager) (pubkey : String)
    {f : ConnectionState → ConnectionState} (hf : ∀ state, (f state).hubs = state.hubs) (id : Nat) :
    hubsOf (Ws.onConnections m pubkey f) id = hubsOf m id := by
  simp only [hubsOf, Ws.onConnections]
  split_ifs
  · rw [Option.map_map]
    exact congrArg (fun hubs => (Option.map hubs (m.states id)).getD []) (funext hf)
  · rfl

theorem setHubs_hubs_of_ne {id j : Nat} (f : List String → List String) (h : j ≠ id) :
    hubsOf (setHubs m id f) j = hubsOf m j := by
  simp only [hubsOf, setHubs, Function.update_of_ne h]

theorem setHubs_hubs {id : Nat} (f : List String → List String) {state : ConnectionState}
    (h : m.states id = some state) : hubsOf (setHubs m id f) id = f (hubsOf m id) := by
  simp only [hubsOf, setHubs, Function.update_self, h, Option.map_some, Option.getD_some]

theorem evictHub_hubs (id : Nat) (pubkey : String) (m : ConnectionManager) (hubId : String)
    (j : Nat) (hub : String) : hub ∈ hubsOf (evictHub id pubkey m hubId) j ↔
      hub ∈ hubsOf m j ∧ ¬ (hub = hubId ∧ (j ∈ m.connections pubkey ∨ j = id)) := by
  have hevicted := evictMember_hubs m pubkey hubId j hub
  by_cases hj : j = id
  · subst hj
    cases hstate : (Ws.evictMember m pubkey hubId).states j with
    | none =>
      have hnone : hubsOf (Ws.evictMember m pubkey hubId) j = [] := by
        rw [hubsOf, hstate, Option.map_none, Option.getD_none]
      have hnone' : hubsOf (evictHub j pubkey m hubId) j = [] := by
        simp only [hubsOf, evictHub, setHubs, Function.update_self, hstate, Option.map_none,
          Option.getD_none]
      have hbefore : hubsOf m j = [] := by
        have hkeys := evictMember_pubkeys m pubkey hubId j
        rw [hstate, Option.map_none] at hkeys
        rw [hubsOf, Option.map_eq_none_iff.mp hkeys.symm, Option.map_none, Option.getD_none]
      simp [hnone', hbefore]
    | some state =>
      rw [evictHub, setHubs_hubs _ hstate, mem_delete, hevicted]
      simp only [or_true, and_true]
      tauto
  · rw [evictHub, setHubs_hubs_of_ne _ hj, hevicted]
    simp only [hj, or_false]

theorem evictHubs_hubs (id : Nat) (pubkey : String) (hubs : List String) (m : ConnectionManager)
    (j : Nat) (hub : String) : hub ∈ hubsOf (hubs.foldl (evictHub id pubkey) m) j ↔
      hub ∈ hubsOf m j ∧ ¬ (hub ∈ hubs ∧ (j ∈ m.connections pubkey ∨ j = id)) := by
  induction hubs generalizing m with
  | nil => simp
  | cons hubId hubs ih =>
    have hconns : (evictHub id pubkey m hubId).connections = m.connections := rfl
    rw [List.foldl_cons, ih, evictHub_hubs, hconns, List.mem_cons]
    tauto

end Hubs

/-- An open socket's connection was so before, or its user has just been found. -/
theorem move_opened {v : View} (hv : Sound v) {m : Move} {j id : Nat} {seat' : Seat}
    (hj : (v.move m).sockets j = some seat') (hopen : seat'.phase = .opened)
    (hid : seat'.connState = some id) :
    (∃ seat, v.sockets j = some seat ∧ seat.phase = .opened ∧ seat.connState = some id ∧
      (v.move m).pubkeys id = v.pubkeys id) ∨
    ∃ pubkey seat, m = .authenticate j pubkey ∧ v.sockets j = some seat ∧ seat.phase = .opened ∧
      (v.connections pubkey).length < Ws.MAX_CONNECTIONS_PER_USER ∧ id = v.next ∧
      (v.move m).pubkeys id = some pubkey := by
  cases m with
  | stay => exact .inl ⟨seat', hj, hopen, hid, rfl⟩
  | «open» k =>
    rcases Runs.update_eq_some hj with ⟨-, hnew⟩ | ⟨-, hold⟩
    · obtain rfl := Option.some.inj hnew
      cases hid
    · exact .inl ⟨seat', hold, hopen, hid, rfl⟩
  | shut k =>
    obtain ⟨seat, hseat, rfl | rfl⟩ := shut_sockets hj
    · exact .inl ⟨_, hseat, hopen, hid, rfl⟩
    · exact absurd hopen seat.close_phase
  | authenticate k pubkey =>
    rw [View.move] at hj ⊢
    cases hseat : v.sockets k with
    | none =>
      rw [hseat] at hj
      exact .inl ⟨seat', hj, hopen, hid, rfl⟩
    | some seat =>
      rw [hseat, Option.elim_some] at hj
      simp only [Option.elim_some, View.authenticate] at hj ⊢
      rcases Runs.update_eq_some hj with ⟨rfl, hnew⟩ | ⟨-, hold⟩
      · obtain rfl := Option.some.inj hnew
        split_ifs at hopen hid with hfull
        · exact absurd hopen (Seat.close_phase _)
        · obtain rfl := Option.some.inj hid
          exact .inr ⟨pubkey, seat, rfl, hseat, hopen, Nat.not_le.mp hfull, rfl,
            Function.update_self _ _ _⟩
      · exact .inl ⟨seat', hold, hopen, hid,
          Function.update_of_ne (hv.ne_next (hv.own j seat' id hold hid).2) _ _⟩
  | close k =>
    rw [View.move] at hj ⊢
    cases hseat : v.sockets k with
    | none =>
      rw [hseat] at hj
      exact .inl ⟨seat', hj, hopen, hid, rfl⟩
    | some seat =>
      rw [hseat, Option.elim_some] at hj
      rw [Option.elim_some]
      obtain ⟨-, -, hpubkeys, hsockets, -⟩ := unregister_spec
        { v with
          sockets := Function.update v.sockets k
            (some { seat with phase := .closed, accepted := false }) } seat
      rw [hsockets] at hj
      rcases Runs.update_eq_some hj with ⟨-, hnew⟩ | ⟨-, hold⟩
      · obtain rfl := Option.some.inj hnew
        cases hopen
      · exact .inl ⟨seat', hold, hopen, hid, congrFun hpubkeys id⟩
  | terminate pubkey =>
    simp only [View.move] at hj ⊢
    split_ifs at hj
    · obtain ⟨seat, -, rfl⟩ := Option.map_eq_some_iff.mp hj
      exact absurd hopen seat.close_phase
    · exact .inl ⟨seat', hj, hopen, hid, trivial⟩

/-! ## What notes say -/

section Notes

variable {ws ms : List Note} {pubkey hubId : String}

theorem evicted_append (h : ms.filterMap Note.change = []) :
    Evicted (ws ++ ms) pubkey hubId ↔ Evicted ws pubkey hubId := by
  rw [Evicted, List.filterMap_append, h, List.append_nil]
  rfl

theorem evicted_evicted (key : String) (hubs : List String) :
    Evicted (ws ++ hubs.map (.evicted key)) pubkey hubId ↔
      (pubkey = key ∧ hubId ∈ hubs) ∨ Evicted ws pubkey hubId := by
  have hchanges : (hubs.map (Note.evicted key)).filterMap Note.change =
      (hubs.map fun hub => (key, hub)).map .add := by
    rw [List.filterMap_map, List.map_map]
    exact congrFun (List.filterMap_eq_map (f := Change.add ∘ fun hub => (key, hub))) hubs
  rw [Evicted, List.filterMap_append, hchanges, standing_add, List.mem_map]
  refine or_congr_left ?_
  constructor
  · rintro ⟨hub, hhub, heq⟩
    obtain ⟨rfl, rfl⟩ := Prod.mk.inj heq
    exact ⟨rfl, hhub⟩
  · rintro ⟨rfl, hhub⟩
    exact ⟨hubId, hhub, rfl⟩

theorem evicted_subscribed (key hub : String) :
    Evicted (ws ++ [.subscribed key hub]) pubkey hubId ↔
      ¬ (pubkey = key ∧ hubId = hub) ∧ Evicted ws pubkey hubId := by
  rw [Evicted, List.filterMap_append]
  refine (standing_remove (key, hub)).trans (and_congr_left' ?_)
  rw [Ne, Prod.mk.injEq]

/-- Events are sent. -/
theorem lawful_sent (hws : Lawful Allowed ws)
    (hms : ∀ note ∈ ms, ∃ id key event, note = .sent id key event ∧
      ¬ Evicted ws key event.hubId) : Lawful Allowed (ws ++ ms) := by
  induction ms using List.reverseRecOn with
  | nil => rwa [List.append_nil]
  | append_singleton ms note ih =>
    have hbefore := fun n hn => hms n (List.mem_append_left [note] hn)
    obtain ⟨id, key, event, rfl, hallowed⟩ := hms note (by simp)
    have hnone : ms.filterMap Note.change = [] := by
      refine List.filterMap_eq_nil_iff.mpr fun n hn => ?_
      obtain ⟨_, _, _, rfl, -⟩ := hbefore n hn
      rfl
    rw [← List.append_assoc, lawful_concat]
    exact ⟨ih hbefore, (evicted_append hnone).not.mpr hallowed⟩

/-- Nothing is sent. -/
theorem lawful_changes (hws : Lawful Allowed ws)
    (hms : ∀ note ∈ ms, ∀ id key event, note ≠ .sent id key event) : Lawful Allowed (ws ++ ms) := by
  induction ms using List.reverseRecOn with
  | nil => rwa [List.append_nil]
  | append_singleton ms note ih =>
    rw [← List.append_assoc, lawful_concat]
    refine ⟨ih fun n hn => hms n (List.mem_append_left _ hn), ?_⟩
    cases note with
    | sent id key event => exact absurd rfl (hms _ (by simp) id key event)
    | _ => trivial

end Notes

/-! ## Steps -/

section Steps

variable {prims : RelayPrims} {r r' : Server} {ws : List Note} {e : Event}

structure Kept (r : Server) (ws : List Note) : Prop where
  sound : Sound (view r)
  live : Live (view r)
  subscriptions : ∀ pubkey hubId, Evicted ws pubkey hubId →
    r.manager.hubSubscriptions hubId pubkey = none
  buffers : ∀ hubId buffer, r.eventBuffers hubId = some buffer →
    ∀ event ∈ buffer, event.hubId = hubId

/-- What an event does to hubs, subscriptions and buffers, apart from evictions, subscriptions,
publications and new connections. -/
structure Quiet (r r' : Server) : Prop where
  hubs : ∀ id, hubsOf r'.manager id = hubsOf r.manager id
  subscriptions : ∀ pubkey hubId, r'.manager.hubSubscriptions hubId pubkey = none ∨
    r'.manager.hubSubscriptions hubId pubkey = r.manager.hubSubscriptions hubId pubkey
  buffers : r'.eventBuffers = r.eventBuffers

theorem quiet_of_eq (hhubs : ∀ id, hubsOf r'.manager id = hubsOf r.manager id)
    (hsubs : r'.manager.hubSubscriptions = r.manager.hubSubscriptions)
    (hbuffers : r'.eventBuffers = r.eventBuffers) : Quiet r r' :=
  ⟨hhubs, fun _ _ => .inr (by rw [hsubs]), hbuffers⟩

theorem unregister_subscriptions (m : ConnectionManager) (id : Nat) (state : ConnectionState)
    (pubkey hubId : String) :
    (Ws.unregister m id state).hubSubscriptions hubId pubkey = none ∨
      (Ws.unregister m id state).hubSubscriptions hubId pubkey =
        m.hubSubscriptions hubId pubkey := by
  unfold Ws.unregister
  dsimp only
  split_ifs
  · rw [Ws.removeSubscriptions_apply]
    split_ifs
    · exact .inl rfl
    · exact .inr rfl
  · exact .inr rfl

theorem quiet_closeEvent (r : Server) (k : Nat) (socket : Socket) :
    Quiet r (closeEvent r k socket) := by
  rw [closeEvent]
  cases socket.connState with
  | none => exact quiet_of_eq (fun _ => rfl) rfl rfl
  | some id =>
    simp only [setSocket_manager]
    cases r.manager.states id with
    | none => exact quiet_of_eq (fun _ => rfl) rfl rfl
    | some state =>
      refine ⟨fun j => ?_, unregister_subscriptions r.manager id state, rfl⟩
      simp only [Option.elim_some, hubsOf, (Ws.unregister_spec r.manager id state).2]

theorem quiet_terminateUser (r : Server) (pubkey : String) : Quiet r (terminateUser r pubkey) := by
  refine ⟨fun id => ?_, fun key hubId => ?_, rfl⟩
  · simp only [hubsOf, terminateUser, Ws.terminateUser, Ws.removeSubscriptions_states]
  · simp only [terminateUser, Ws.terminateUser, Ws.removeSubscriptions_apply]
    split_ifs
    · exact .inl rfl
    · exact .inr rfl

theorem quiet_unsubscribe (r : Server) (pubkey hubId : String) :
    Quiet r { r with manager := Ws.unsubscribe r.manager pubkey hubId } := by
  refine ⟨fun id => ?_, fun key hub => ?_, rfl⟩
  · refine onConnections_hubs (Ws.removeSubscription r.manager pubkey hubId) pubkey
      (fun conn => ?_) id
    rfl
  · simp only [Ws.unsubscribe, Ws.onConnections, Ws.removeSubscription, Ws.setEntry_apply]
    split_ifs
    · exact .inl rfl
    · exact .inr rfl

theorem quiet_message (prims : RelayPrims) (r : Server) (k : Nat) (socket : Socket) (now : Int)
    (lookup : Nat) (msg : ClientMessage) (hsubscribe : ∀ hubId kinds, msg ≠ .subscribe hubId kinds)
    (hreplay : ∀ hubId since, msg ≠ .replay hubId since) :
    Quiet r (message prims r k socket now lookup msg) := by
  have hsame : Quiet r r := quiet_of_eq (fun _ => rfl) rfl rfl
  cases msg with
  | auth msg =>
    rw [message]
    split_ifs
    · exact hsame
    · cases checkAuth prims socket.nonce msg now with
      | ok _ => exact quiet_of_eq (fun _ => rfl) rfl rfl
      | error _ => exact quiet_of_eq (fun _ => rfl) rfl rfl
  | subscribe hubId kinds => exact absurd rfl (hsubscribe hubId kinds)
  | unsubscribe hubId =>
    rw [message]
    cases connection r socket with
    | none => exact hsame
    | some entry => exact quiet_unsubscribe r entry.2.pubkey hubId
  | replay hubId since => exact absurd rfl (hreplay hubId since)
  | ping => exact hsame

/-- A step that keeps subscriptions and buffers. -/
theorem Kept.of_subscriptions (hk : Kept r ws) (h : step prims r e = some r')
    (hsubs : ∀ pubkey hubId, r'.manager.hubSubscriptions hubId pubkey = none ∨
      r'.manager.hubSubscriptions hubId pubkey = r.manager.hubSubscriptions hubId pubkey)
    (hbuffers : r'.eventBuffers = r.eventBuffers) : Kept r' ws where
  sound := step_sound hk.sound h
  live := step_view h ▸ move_live hk.sound hk.live _
  subscriptions pubkey hubId hevicted := by
    rcases hsubs pubkey hubId with hnone | hsame
    · exact hnone
    · rw [hsame]
      exact hk.subscriptions pubkey hubId hevicted
  buffers hubId buffer hbuffer := hk.buffers hubId buffer (hbuffers ▸ hbuffer)

/-- **The open sockets' connections after a step**: what those that were there before have now, and
what a new one has. -/
theorem barred_step (hk : Kept r ws) (hb : Barred r ws) (h : step prims r e = some r')
    {ws' : List Note}
    (hold : ∀ k seat id pubkey, (view r).sockets k = some seat → seat.phase = .opened →
      seat.connState = some id → id ∈ r.manager.connections pubkey →
        ∀ hubId ∈ hubsOf r'.manager id, Evicted ws' pubkey hubId →
          hubId ∈ hubsOf r.manager id ∧ Evicted ws pubkey hubId)
    (hnew : ∀ k seat pubkey, moveOf prims r e = .authenticate k pubkey →
      (view r).sockets k = some seat → seat.phase = .opened →
        (r.manager.connections pubkey).length < Ws.MAX_CONNECTIONS_PER_USER →
          ∀ hubId ∈ hubsOf r'.manager r.next, ¬ Evicted ws' pubkey hubId) : Barred r' ws' := by
  intro k seat' id pubkey hk' hopen hid hkey hubId hhub hevicted
  rw [step_view h] at hk' hkey
  rcases move_opened hk.sound hk' hopen hid with
    ⟨seat, hseat, hopen', hid', hsame⟩ | ⟨key, seat, hmove, hseat, hopen', hroom, rfl, hkey'⟩
  · rw [hsame] at hkey
    obtain ⟨key, hmem⟩ := hk.live k seat id hseat hopen' hid'
    obtain rfl := Option.some.inj (hkey.symm.trans (hk.sound.keyed key id hmem))
    obtain ⟨hhub', hevicted'⟩ := hold k seat id pubkey hseat hopen' hid' hmem hubId hhub hevicted
    exact hb k seat id pubkey hseat hopen' hid' hkey hubId hhub' hevicted'
  · obtain rfl := Option.some.inj (hkey.symm.trans hkey')
    exact hnew k seat pubkey hmove hseat hopen' hroom hubId hhub hevicted

/-- What a step keeps: what there is to keep, and evicted users from their hubs exactly if `P`. -/
def Keeps (r : Server) (ws : List Note) (r' : Server) (ws' : List Note) (P : Prop) : Prop :=
  Kept r' ws' ∧ (Barred r ws → (Barred r' ws' ↔ P))

theorem Keeps.mk {ws' : List Note} (hk : Kept r' ws') (hb : Barred r ws → Barred r' ws') {P : Prop}
    (hP : P) : Keeps r ws r' ws' P :=
  ⟨hk, fun h => iff_of_true (hb h) hP⟩

/-! ### Subscriptions -/
variable {state : ConnectionState}

theorem subscribe_keeps (hk : Kept r ws) {k lookup : Nat} {now : Int} {hubId : String}
    {kinds : List Nat}
    (h : step prims r (.message k now lookup (.subscribe hubId kinds)) = some r')
    {id : Nat} (hstate : r.manager.states id = some state)
    (hr' : r' = { r with manager := Ws.subscribe r.manager id state hubId kinds }) :
    Keeps r ws r' (ws ++ [.subscribed state.pubkey hubId]) True := by
  have hhubs : ∀ j, hubsOf r'.manager j = hubsOf r.manager j := by
    intro j
    rw [hr']
    simp only [hubsOf, Ws.subscribe]
    by_cases hj : j = id
    · rw [hj, Function.update_self, hstate]
      rfl
    · rw [Function.update_of_ne hj]
  refine .mk ⟨step_sound hk.sound h, step_view h ▸ move_live hk.sound hk.live _, ?_, ?_⟩
    (fun hb => ?_) trivial
  · intro pubkey hub hevicted
    obtain ⟨hother, hbefore⟩ := (evicted_subscribed _ _).mp hevicted
    rw [hr']
    simp only [Ws.subscribe, Ws.setEntry_apply]
    rw [if_neg fun hit => hother ⟨hit.2, hit.1⟩]
    exact hk.subscriptions pubkey hub hbefore
  · rw [hr']
    exact hk.buffers
  · refine barred_step hk hb h (fun _ _ j pubkey _ _ _ _ hub hhub hevicted => ?_) ?_
    · exact ⟨hhubs j ▸ hhub, ((evicted_subscribed _ _).mp hevicted).2⟩
    · intro j seat pubkey hauth
      cases hauth

/-! ### Events -/

variable {event : WsEventMessage}

/-- What is buffered for a hub are events of the hub. -/
theorem publish_kept (hk : Kept r ws)
    {ms : List Note} (hms : ms.filterMap Note.change = [])
    (h : step prims r e = some (publishToHub r event)) :
    Kept (publishToHub r event) (ws ++ ms) := by
  refine ⟨step_sound hk.sound h, step_view h ▸ move_live hk.sound hk.live _, ?_, ?_⟩
  · intro pubkey hub hevicted
    have hsame : (publishToHub r event).manager = r.manager := by
      rw [publishToHub]
      split_ifs <;> rfl
    rw [hsame]
    exact hk.subscriptions pubkey hub ((evicted_append hms).mp hevicted)
  · intro hub buffer hbuffer
    rw [publishToHub] at hbuffer
    split_ifs at hbuffer
    · rcases Runs.update_eq_some hbuffer with ⟨rfl, hnew⟩ | ⟨-, hold⟩
      · obtain rfl := Option.some.inj hnew
        intro item hitem
        have hmem := (RingBuffer.push_sublist (o := bufferOptions) event.ts _ event).subset hitem
        rcases List.mem_append.mp hmem with hbefore | hlast
        · have := (RingBuffer.evictExpired_sublist (o := bufferOptions) _ _).subset hbefore
          cases hsome : r.eventBuffers event.hubId with
          | none =>
            rw [hsome] at this
            cases this
          | some items =>
            rw [hsome] at this
            exact hk.buffers event.hubId items hsome item this
        · rw [List.mem_singleton.mp hlast]
      · exact hk.buffers hub buffer hold
    · exact hk.buffers hub buffer hbuffer

theorem audience_subscribed {m : ConnectionManager} {next id : Nat}
    {pubkey : String} (h : (id, pubkey) ∈ audience m next event) :
    (m.hubSubscriptions event.hubId pubkey).isSome := by
  obtain ⟨j, -, hj⟩ := List.mem_filterMap.mp h
  obtain ⟨state, -, hstate⟩ := Option.bind_eq_some_iff.mp hj
  split_ifs at hstate with hkinds
  obtain ⟨rfl, rfl⟩ := Prod.mk.inj (Option.some.inj hstate)
  cases hsome : m.hubSubscriptions event.hubId state.pubkey with
  | none =>
    rw [hsome] at hkinds
    cases hkinds.2
  | some kinds => rfl

/-- What is asked for again are events of the hub. -/
theorem replayed_hub (hk : Kept r ws) {id : Nat} {hubId : String} {since now : Int}
    (h : event ∈ (replayed r id hubId since now).getD []) :
    event.hubId = hubId := by
  rw [replayed] at h
  split_ifs at h
  · cases h
  · cases hsome : r.eventBuffers hubId with
    | none =>
      rw [hsome] at h
      cases h
    | some buffer =>
      rw [hsome] at h
      simp only [Option.elim_some, Option.getD_some, RingBuffer.since, List.mem_filter,
        List.mem_reverse] at h
      exact hk.buffers hubId buffer hsome event
        ((RingBuffer.evictExpired_sublist (o := bufferOptions) _ _).subset h.1)

theorem replay_kept (hk : Kept r ws) {id : Nat} {hubId : String} {now : Int} {ms : List Note}
    (hms : ms.filterMap Note.change = []) (h : step prims r e = some (replay r id hubId now)) :
    Kept (replay r id hubId now) (ws ++ ms) := by
  refine ⟨step_sound hk.sound h, step_view h ▸ move_live hk.sound hk.live _, ?_, ?_⟩
  · intro pubkey hub hevicted
    have hsame : (replay r id hubId now).manager = r.manager := by
      rw [replay]
      split_ifs <;> rfl
    rw [hsame]
    exact hk.subscriptions pubkey hub ((evicted_append hms).mp hevicted)
  · intro hub buffer hbuffer
    rw [replay] at hbuffer
    split_ifs at hbuffer
    · exact hk.buffers hub buffer hbuffer
    · rcases Runs.update_eq_some hbuffer with ⟨rfl, hnew⟩ | ⟨-, hold⟩
      · obtain ⟨items, hitems, rfl⟩ := Option.map_eq_some_iff.mp hnew
        intro item hitem
        exact hk.buffers hub items hitems item
          ((RingBuffer.evictExpired_sublist (o := bufferOptions) _ _).subset hitem)
      · exact hk.buffers hub buffer hold

/-! ### Evictions -/

/-- A user is evicted, by a call or by a check of the membership. -/
theorem evicted_subscriptions (hk : Kept r ws) {m : ConnectionManager} (key : String)
    (hubs : List String)
    (hnone : ∀ hubId ∈ hubs, m.hubSubscriptions hubId key = none)
    (hsame : ∀ pubkey hubId, ¬ (pubkey = key ∧ hubId ∈ hubs) →
      m.hubSubscriptions hubId pubkey = r.manager.hubSubscriptions hubId pubkey)
    (pubkey hubId : String) (hevicted : Evicted (ws ++ hubs.map (.evicted key)) pubkey hubId) :
    m.hubSubscriptions hubId pubkey = none := by
  by_cases hit : pubkey = key ∧ hubId ∈ hubs
  · obtain ⟨rfl, hhub⟩ := hit
    exact hnone hubId hhub
  · rw [hsame pubkey hubId hit]
    exact hk.subscriptions pubkey hubId (((evicted_evicted key hubs).mp hevicted).resolve_left hit)

theorem evictMember_keeps (hk : Kept r ws) {key hubId : String}
    (h : step prims r (.evictMember key hubId) = some r') :
    Keeps r ws r' (ws ++ [.evicted key hubId]) True := by
  have hr' : { r with manager := Ws.evictMember r.manager key hubId } = r' := Option.some.inj h
  have hsubs : ∀ pubkey hub, (Ws.evictMember r.manager key hubId).hubSubscriptions hub pubkey =
      if hub = hubId ∧ pubkey = key then none else r.manager.hubSubscriptions hub pubkey := by
    intro pubkey hub
    simp only [Ws.evictMember, Ws.onConnections, Ws.removeSubscription, Ws.setEntry_apply]
  refine .mk ⟨step_sound hk.sound h, step_view h ▸ move_live hk.sound hk.live _, ?_, ?_⟩
    (fun hb => ?_) trivial
  · rw [← hr']
    refine evicted_subscriptions hk key [hubId] (fun hub hhub => ?_) fun pubkey hub hit => ?_
    · rw [hsubs, if_pos ⟨List.mem_singleton.mp hhub, rfl⟩]
    · rw [hsubs, if_neg fun hboth => hit ⟨hboth.2, List.mem_singleton.mpr hboth.1⟩]
  · rw [← hr']
    exact hk.buffers
  · refine barred_step hk hb h (fun _ _ id pubkey _ _ _ hmem hub hhub hevicted => ?_) ?_
    · rw [← hr'] at hhub
      obtain ⟨hhub', hother⟩ := (evictMember_hubs r.manager key hubId id hub).mp hhub
      refine ⟨hhub', ((evicted_evicted key [hubId]).mp hevicted).resolve_left fun hit => hother ?_⟩
      exact ⟨List.mem_singleton.mp hit.2, hit.1 ▸ hmem⟩
    · intro k seat pubkey hauth
      cases hauth

theorem evictHubs_subscriptions (id : Nat) (key : String) (hubs : List String)
    (m : ConnectionManager) (pubkey hubId : String) :
    (hubs.foldl (evictHub id key) m).hubSubscriptions hubId pubkey =
      if pubkey = key ∧ hubId ∈ hubs then none else m.hubSubscriptions hubId pubkey := by
  induction hubs generalizing m with
  | nil => simp
  | cons hub hubs ih =>
    rw [List.foldl_cons, ih]
    have hsubs : (evictHub id key m hub).hubSubscriptions hubId pubkey =
        if hubId = hub ∧ pubkey = key then none else m.hubSubscriptions hubId pubkey := by
      simp only [evictHub, setHubs, Ws.evictMember, Ws.onConnections, Ws.removeSubscription,
        Ws.setEntry_apply]
    rw [hsubs]
    simp only [List.mem_cons]
    split_ifs <;> first | rfl | tauto

theorem mem_foldl_add {current hubs : List String} {hub : String} :
    hub ∈ hubs.foldl add current ↔ hub ∈ current ∨ hub ∈ hubs := by
  induction hubs generalizing current with
  | nil => simp
  | cons h hubs ih =>
    rw [List.foldl_cons, ih, mem_add, List.mem_cons, or_assoc]

/-- The manager after a user's membership has been checked. -/
def checked (m : ConnectionManager) (id : Nat) (state : ConnectionState) (key : String)
    (hubs : List String) : ConnectionManager :=
  setHubs ((removedHubs state hubs).foldl (evictHub id key) m) id fun current =>
    hubs.foldl add current

/-- The hubs of a connection then: the checked one's are added to. -/
theorem checked_hubs {m : ConnectionManager} {id : Nat}
    (hstate : m.states id = some state) (key : String) (hubs : List String) (j : Nat)
    (hub : String) : hub ∈ hubsOf (checked m id state key hubs) j ↔
      (hub ∈ hubsOf m j ∧
        ¬ (hub ∈ removedHubs state hubs ∧ (j ∈ m.connections key ∨ j = id))) ∨
      (j = id ∧ hub ∈ hubs) := by
  rw [checked]
  by_cases hj : j = id
  · subst hj
    have hkeys := (evictHubs_spec j key (removedHubs state hubs) m).2 j
    rw [hstate, Option.map_some] at hkeys
    obtain ⟨state', hstate', -⟩ := Option.map_eq_some_iff.mp hkeys
    rw [setHubs_hubs _ hstate', mem_foldl_add, evictHubs_hubs]
    simp only [true_and]
  · rw [setHubs_hubs_of_ne _ hj, evictHubs_hubs]
    simp only [hj, false_and, or_false]

/-- **A check of the membership** keeps evicted users from their hubs exactly if it gives the
connection none of them. -/
theorem revalidated_keeps (hk : Kept r ws) {lookup k : Nat} {key : String}
    {hubs : List String} {socket : Socket} {id : Nat}
    (hlookup : r.lookups lookup = some (.revalidate k key)) (hsocket : r.sockets k = some socket)
    (hconn : connection r socket = some (id, state))
    (h : step prims r (.answer lookup (.found hubs)) = some r') :
    Keeps r ws r' (ws ++ (removedHubs state hubs).map (.evicted key))
      (socket.phase = .opened → ∀ hubId ∈ hubs, ¬ Evicted ws state.pubkey hubId) := by
  obtain ⟨hid, hstate⟩ := connection_states hconn
  have hr' : { r with
      lookups := Function.update r.lookups lookup none
      manager := checked r.manager id state key hubs } = r' := by
    rw [step, hlookup] at h
    refine (Option.some.inj h).symm ▸ ?_
    rw [resolve]
    simp only [hsocket, Option.elim_some, revalidated]
    rw [show connection { r with lookups := Function.update r.lookups lookup none } socket =
      some (id, state) from hconn]
    rfl
  have hseat : (view r).sockets k = some socket.seat := by
    simp only [view, hsocket, Option.map_some]
  have hkey : (view r).pubkeys id = some state.pubkey := by
    simp only [view, hstate, Option.map_some]
  -- a hub that the answer has is none that it evicts from
  have hevicted : ∀ pubkey hub, hub ∈ hubs →
      (Evicted (ws ++ (removedHubs state hubs).map (.evicted key)) pubkey hub ↔
        Evicted ws pubkey hub) := by
    intro pubkey hub hhub
    refine (evicted_evicted key _).trans (or_iff_right fun hit => ?_)
    exact of_decide_eq_true (List.mem_filter.mp hit.2).2 hhub
  refine ⟨⟨step_sound hk.sound h, step_view h ▸ move_live hk.sound hk.live _, ?_, ?_⟩,
    fun hb => ?_⟩
  · rw [← hr']
    refine evicted_subscriptions hk key _ (fun hub hhub => ?_) fun pubkey hub hit => ?_
    · exact (evictHubs_subscriptions id key _ r.manager key hub).trans (if_pos ⟨rfl, hhub⟩)
    · exact (evictHubs_subscriptions id key _ r.manager pubkey hub).trans (if_neg hit)
  · rw [← hr']
    exact hk.buffers
  constructor
  · intro hb' hopen hub hhub
    have hsame : view r' = view r := by
      have hmove : moveOf prims r (.answer lookup (.found hubs)) = .stay := by
        rw [moveOf, hlookup]
        rfl
      rw [step_view h, hmove]
      rfl
    refine (hevicted state.pubkey hub hhub).not.mp (hb' k socket.seat id state.pubkey ?_ hopen hid
      ?_ hub ?_)
    · rw [hsame, hseat]
    · rw [hsame, hkey]
    · rw [← hr']
      exact (checked_hubs hstate key hubs id hub).mpr (.inr ⟨rfl, hhub⟩)
  · intro hcurrent
    refine barred_step hk hb h (fun j seat i pubkey hj hopen hi hmem hub hhub hbad => ?_) ?_
    · rw [← hr'] at hhub
      rcases (checked_hubs hstate key hubs i hub).mp hhub with ⟨hbefore, hkept⟩ | ⟨rfl, hnew⟩
      · refine ⟨hbefore, ((evicted_evicted key _).mp hbad).resolve_left fun hit => hkept ?_⟩
        exact ⟨hit.2, .inl (hit.1 ▸ hmem)⟩
      · -- the connection that is given hubs is the checked socket's
        have hjk := hk.sound.socket_eq hj hi hseat hid
        subst hjk
        obtain rfl := Option.some.inj (hseat.symm.trans hj)
        obtain rfl := Option.some.inj (hkey.symm.trans (hk.sound.keyed pubkey i hmem))
        exact absurd ((hevicted state.pubkey hub hnew).mp hbad) (hcurrent hopen hub hnew)
    · intro j seat pubkey hauth
      rw [moveOf, hlookup] at hauth
      cases hauth

/-- **A user who is found** is kept from hubs that it was evicted from exactly if the answer has
none of them. -/
theorem authenticated_keeps (hk : Kept r ws) {lookup k : Nat} {key : String}
    {hubs : List String} {socket : Socket}
    (hlookup : r.lookups lookup = some (.auth k key)) (hsocket : r.sockets k = some socket)
    (h : step prims r (.answer lookup (.found hubs)) = some r') :
    Keeps r ws r' ws (socket.phase = .opened →
      (r.manager.connections key).length < Ws.MAX_CONNECTIONS_PER_USER →
        ∀ hubId ∈ hubs, ¬ Evicted ws key hubId) := by
  have hr' : authenticated { r with lookups := Function.update r.lookups lookup none } k socket key
      hubs = r' := by
    rw [step, hlookup] at h
    refine (Option.some.inj h).symm ▸ ?_
    rw [resolve]
    simp only [hsocket, Option.elim_some]
  have hmanager : r'.manager = (Ws.register { r.manager with
      states := Function.update r.manager.states r.next (some ⟨key, hubs, []⟩) } r.next
        ⟨key, hubs, []⟩).1 := by
    rw [← hr', authenticated]
    dsimp only
    split_ifs <;> rfl
  have hregister : ∀ (m : ConnectionManager) (id : Nat) (state : ConnectionState),
      (Ws.register m id state).1.states = m.states ∧
        (Ws.register m id state).1.hubSubscriptions = m.hubSubscriptions := by
    intro m id state
    unfold Ws.register
    dsimp only
    split_ifs <;> exact ⟨rfl, rfl⟩
  have hbuffers : r'.eventBuffers = r.eventBuffers := by
    rw [← hr', authenticated]
    dsimp only
    split_ifs <;> rfl
  have hhubs : ∀ id, hubsOf r'.manager id = if id = r.next then hubs else hubsOf r.manager id := by
    intro id
    have hstates : r'.manager.states =
        Function.update r.manager.states r.next (some ⟨key, hubs, []⟩) := by
      rw [hmanager, (hregister _ _ _).1]
    rw [hubsOf, hstates]
    split_ifs with hid
    · rw [hid, Function.update_self, Option.map_some, Option.getD_some]
    · rw [Function.update_of_ne hid]
      rfl
  have hseat : (view r).sockets k = some socket.seat := by
    simp only [view, hsocket, Option.map_some]
  have hmove : moveOf prims r (.answer lookup (.found hubs)) = .authenticate k key := by
    rw [moveOf, hlookup]
    rfl
  refine ⟨hk.of_subscriptions h (fun pubkey hub => .inr ?_) hbuffers, fun hb => ⟨?_, ?_⟩⟩
  · rw [hmanager, (hregister _ _ _).2]
  · intro hb' hopen hroom hub hhub
    have hview : view r' = (view r).authenticate k key socket.seat := by
      rw [step_view h, hmove, View.move, hseat, Option.elim_some]
    have hroom' : ¬ Ws.MAX_CONNECTIONS_PER_USER ≤ ((view r).connections key).length :=
      Nat.not_le.mpr hroom
    refine hb' k { socket.seat with connState := some r.next, accepted := true } r.next key ?_ hopen
      rfl ?_ hub ?_
    · rw [hview]
      simp only [View.authenticate, hroom', if_false]
      exact Function.update_self _ _ _
    · rw [hview]
      exact Function.update_self _ _ _
    · rw [hhubs, if_pos rfl]
      exact hhub
  · intro hcurrent
    refine barred_step hk hb h (fun j seat id pubkey _ _ _ hmem hub hhub hbad => ⟨?_, hbad⟩) ?_
    · have hne : id ≠ r.next := hk.sound.mem_ne_next hmem
      rwa [hhubs, if_neg hne] at hhub
    · intro j seat pubkey hauth hj hopen hroom hub hhub
      obtain ⟨rfl, rfl⟩ := Move.authenticate.inj (hmove.symm.trans hauth)
      obtain rfl := Option.some.inj (hseat.symm.trans hj)
      rw [hhubs, if_pos rfl] at hhub
      exact hcurrent hopen hroom hub hhub

/-! ### All events -/

theorem quiet_keeps (hk : Kept r ws) (h : step prims r e = some r') (hquiet : Quiet r r')
    (hnotes : notes prims r e = [])
    (hnew : ∀ k seat pubkey, moveOf prims r e = .authenticate k pubkey →
      (view r).sockets k ≠ some seat) {P : Prop} (hP : P) :
    Keeps r ws r' (ws ++ notes prims r e) P := by
  rw [hnotes, List.append_nil]
  refine .mk (hk.of_subscriptions h hquiet.subscriptions hquiet.buffers) (fun hb => ?_) hP
  refine barred_step hk hb h
    (fun _ _ id pubkey _ _ _ _ hubId hhub hevicted => ⟨hquiet.hubs id ▸ hhub, hevicted⟩) ?_
  exact fun k seat pubkey hauth hseat => absurd hseat (hnew k seat pubkey hauth)

/-- A socket is given a connection by an answer only. -/
theorem not_authenticate (hanswer : ∀ lookup hubs, e ≠ .answer lookup (.found hubs)) (k : Nat)
    (seat : Seat) (pubkey : String) (hauth : moveOf prims r e = .authenticate k pubkey) :
    (view r).sockets k ≠ some seat := by
  rcases moveOf_cases prims r e with
    ⟨k', nonce, rfl⟩ | ⟨k', rfl⟩ | ⟨key, rfl⟩ | hstay | ⟨k', hshut⟩ |
      ⟨k', key, ⟨lookup, hubs, rfl, -⟩, -⟩
  · cases hauth
  · cases hauth
  · cases hauth
  · cases hstay.symm.trans hauth
  · cases hshut.symm.trans hauth
  · exact absurd rfl (hanswer lookup hubs)

/-- Events are sent, and nothing else happens to users. -/
theorem sent_keeps (hk : Kept r ws) (h : step prims r e = some r') {ms : List Note}
    (hms : ms.filterMap Note.change = []) (hkept : Kept r' (ws ++ ms))
    (hmanager : r'.manager = r.manager) (hmove : moveOf prims r e = .stay) :
    Keeps r ws r' (ws ++ ms) True := by
  refine .mk hkept (fun hb => ?_) trivial
  refine barred_step hk hb h (fun _ _ j pubkey _ _ _ _ hub hhub hevicted => ?_) ?_
  · exact ⟨hmanager ▸ hhub, (evicted_append hms).mp hevicted⟩
  · intro j seat pubkey hauth
    cases hmove.symm.trans hauth

theorem sent_changes (ms : List WsEventMessage) (id : Nat) (pubkey : String) :
    (ms.map (Note.sent id pubkey)).filterMap Note.change = [] := by
  refine List.filterMap_eq_nil_iff.mpr fun note hnote => ?_
  obtain ⟨event, -, rfl⟩ := List.mem_map.mp hnote
  rfl

theorem message_keeps (hk : Kept r ws) {k lookup : Nat} {now : Int} {msg : ClientMessage}
    (h : step prims r (.message k now lookup msg) = some r') :
    Keeps r ws r' (ws ++ notes prims r (.message k now lookup msg)) True := by
  have hstep := h
  rw [step] at h
  split at h
  case h_2 => cases h
  rename_i socket hsocket _
  split_ifs at h with hopen
  have hr' := Option.some.inj h
  have hbind : (r.sockets k).bind (connection r) = connection r socket := by
    rw [hsocket, Option.bind_some]
  have hquiet : Quiet r r' → notes prims r (.message k now lookup msg) = [] →
      Keeps r ws r' (ws ++ notes prims r (.message k now lookup msg)) True := fun hquiet hnotes =>
    quiet_keeps hk hstep hquiet hnotes (not_authenticate fun _ _ h => by cases h) trivial
  have hrefused : message prims r k socket now lookup msg = r → Quiet r r' := fun hsame =>
    (hsame.symm.trans hr') ▸ quiet_of_eq (fun _ => rfl) rfl rfl
  cases msg with
  | subscribe hubId kinds =>
    cases hconn : connection r socket with
    | none =>
      exact hquiet (hrefused (by rw [message, hconn]; rfl)) (by rw [notes, hbind, hconn]; rfl)
    | some entry =>
      obtain ⟨id, state⟩ := entry
      by_cases hmem : hubId ∈ state.hubs
      · have hsubscribed : r' = { r with
            manager := Ws.subscribe r.manager id state hubId kinds } := by
          rw [← hr', message, hconn]
          exact if_pos hmem
        simp only [notes, hbind, hconn, Option.elim_some, if_pos hmem]
        exact subscribe_keeps hk hstep (connection_states hconn).2 hsubscribed
      · refine hquiet (hrefused ?_) ?_
        · simp only [message, hconn, Option.elim_some, if_neg hmem]
        · simp only [notes, hbind, hconn, Option.elim_some, if_neg hmem]
  | replay hubId since =>
    cases hconn : connection r socket with
    | none =>
      exact hquiet (hrefused (by rw [message, hconn]; rfl)) (by rw [notes, hbind, hconn]; rfl)
    | some entry =>
      obtain ⟨id, state⟩ := entry
      by_cases hmem : hubId ∈ state.hubs
      · have hreplayed : replay r id hubId now = r' := by
          rw [← hr', message, hconn]
          exact (if_pos hmem).symm
        have hmanager : r'.manager = r.manager := by
          rw [← hreplayed, replay]
          split_ifs <;> rfl
        simp only [notes, hbind, hconn, Option.elim_some, if_pos hmem]
        refine sent_keeps hk hstep (sent_changes _ id state.pubkey) ?_ hmanager rfl
        rw [← hreplayed] at hstep ⊢
        exact replay_kept hk (sent_changes _ id state.pubkey) hstep
      · refine hquiet (hrefused ?_) ?_
        · simp only [message, hconn, Option.elim_some, if_neg hmem]
        · simp only [notes, hbind, hconn, Option.elim_some, if_neg hmem]
  | auth msg =>
    refine hquiet (hr' ▸ quiet_message prims r k socket now lookup _ ?_ ?_) rfl
    · exact fun _ _ h => by cases h
    · exact fun _ _ h => by cases h
  | unsubscribe hubId =>
    refine hquiet (hr' ▸ quiet_message prims r k socket now lookup _ ?_ ?_) rfl
    · exact fun _ _ h => by cases h
    · exact fun _ _ h => by cases h
  | ping =>
    refine hquiet (hr' ▸ quiet_message prims r k socket now lookup _ ?_ ?_) rfl
    · exact fun _ _ h => by cases h
    · exact fun _ _ h => by cases h

/-- What is published is sent to users who have not been evicted. -/
theorem publish_sent (hk : Kept r ws) {hubId payload : String} {kind epoch : Nat} {now : Int} :
    ∀ note ∈ notes prims r (.publish hubId kind payload epoch now),
      ∃ id key event, note = .sent id key event ∧ ¬ Evicted ws key event.hubId := by
  intro note hnote
  simp only [notes] at hnote
  split_ifs at hnote
  · obtain ⟨⟨id, pubkey⟩, hentry, rfl⟩ := List.mem_map.mp hnote
    refine ⟨id, pubkey, _, rfl, fun hevicted => ?_⟩
    have hsubscribed := audience_subscribed hentry
    rw [hk.subscriptions pubkey _ hevicted] at hsubscribed
    cases hsubscribed
  · cases hnote

theorem publish_keeps (hk : Kept r ws) {hubId payload : String} {kind epoch : Nat} {now : Int}
    (h : step prims r (.publish hubId kind payload epoch now) = some r') :
    Keeps r ws r' (ws ++ notes prims r (.publish hubId kind payload epoch now)) True := by
  have hr' : publishToHub r (makeEvent prims hubId kind payload epoch now) = r' := Option.some.inj h
  have hnone : (notes prims r (.publish hubId kind payload epoch now)).filterMap Note.change =
      [] := by
    refine List.filterMap_eq_nil_iff.mpr fun note hnote => ?_
    obtain ⟨_, _, _, rfl, -⟩ := publish_sent hk note hnote
    rfl
  have hmanager : r'.manager = r.manager := by
    rw [← hr', publishToHub]
    split_ifs <;> rfl
  refine sent_keeps hk h hnone ?_ hmanager rfl
  rw [← hr'] at h ⊢
  exact publish_kept hk hnone h

/-- An answer that finds the user. -/
theorem found_keeps (hk : Kept r ws) {lookup : Nat} {hubs : List String}
    (h : step prims r (.answer lookup (.found hubs)) = some r') :
    Keeps r ws r' (ws ++ notes prims r (.answer lookup (.found hubs)))
      (Current (r, ws) (.answer lookup (.found hubs))) := by
  have hstep := h
  cases hlookup : r.lookups lookup with
  | none =>
    rw [step, hlookup] at h
    cases h
  | some pending =>
    rw [step, hlookup] at h
    have hr' := Option.some.inj h
    -- an answer that finds no socket, or no connection, changes nothing
    have hnothing : Quiet r r' → notes prims r (.answer lookup (.found hubs)) = [] →
        (∀ k seat pubkey, pending = .auth k pubkey → (view r).sockets k ≠ some seat) →
          Current (r, ws) (.answer lookup (.found hubs)) →
            Keeps r ws r' (ws ++ notes prims r (.answer lookup (.found hubs)))
              (Current (r, ws) (.answer lookup (.found hubs))) := by
      intro hquiet hnotes hnone
      refine quiet_keeps hk hstep hquiet hnotes fun k seat pubkey hauth => ?_
      rw [moveOf, hlookup] at hauth
      cases pending with
      | auth k' key =>
        cases hauth
        exact hnone k seat pubkey rfl
      | revalidate k' key => cases hauth
    have hsame : Quiet r { r with lookups := Function.update r.lookups lookup none } :=
      quiet_of_eq (fun _ => rfl) rfl rfl
    cases pending with
    | auth k key =>
      have hnotes : notes prims r (.answer lookup (.found hubs)) = [] := by
        rw [notes, hlookup]
        rfl
      cases hsocket : r.sockets k with
      | none =>
        refine hnothing ?_ hnotes (fun k' seat pubkey heq => ?_) ?_
        · rw [← hr', resolve]
          simp only [hsocket, Option.elim_none]
          exact hsame
        · cases heq
          simp only [view, hsocket, Option.map_none]
          exact fun h => by cases h
        · simp only [Current, hlookup, Option.elim_some, hsocket]
          exact fun _ h => by cases h
      | some socket =>
        obtain ⟨hk', hb'⟩ := authenticated_keeps hk hlookup hsocket hstep
        rw [hnotes, List.append_nil]
        refine ⟨hk', fun hb => (hb' hb).trans ?_⟩
        simp only [Current, hlookup, Option.elim_some, hsocket, Option.mem_def, Option.some.injEq,
          forall_eq']
    | revalidate k key =>
      cases hsocket : r.sockets k with
      | none =>
        refine hnothing ?_ ?_ (fun _ _ _ heq => by cases heq) ?_
        · rw [← hr', resolve]
          simp only [hsocket, Option.elim_none]
          exact hsame
        · simp only [notes, hlookup, Option.elim_some, hsocket, Option.bind_none, Option.elim_none]
        · simp only [Current, hlookup, Option.elim_some, hsocket]
          exact fun _ h => by cases h
      | some socket =>
        cases hconn : connection r socket with
        | none =>
          refine hnothing ?_ ?_ (fun _ _ _ heq => by cases heq) ?_
          · rw [← hr', resolve]
            simp only [hsocket, Option.elim_some, revalidated]
            rw [show connection { r with lookups := Function.update r.lookups lookup none } socket =
              none from hconn]
            exact hsame
          · simp only [notes, hlookup, Option.elim_some, hsocket, Option.bind_some, hconn,
              Option.elim_none]
          · simp only [Current, hlookup, Option.elim_some, hsocket, Option.mem_def,
              Option.some.injEq, forall_eq', hconn]
            exact fun _ _ h => by cases h
        | some entry =>
          obtain ⟨hk', hb'⟩ := revalidated_keeps hk hlookup hsocket hconn hstep
          have hnotes : notes prims r (.answer lookup (.found hubs)) =
              (removedHubs entry.2 hubs).map (.evicted key) := by
            simp only [notes, hlookup, Option.elim_some, hsocket, Option.bind_some, hconn]
          rw [hnotes]
          refine ⟨hk', fun hb => (hb' hb).trans ?_⟩
          simp only [Current, hlookup, Option.elim_some, hsocket, Option.mem_def,
            Option.some.injEq, forall_eq', hconn]

/-- An answer that finds no user. -/
theorem quiet_resolve (r : Server) (pending : Lookup) {answer : Answer}
    (hanswer : ∀ hubs, answer ≠ .found hubs) : Quiet r (resolve r pending answer) := by
  have hshut : ∀ k, Quiet r ((r.sockets k).elim r fun socket => setSocket r k socket.close) := by
    intro k
    cases r.sockets k <;> exact quiet_of_eq (fun _ => rfl) rfl rfl
  cases answer with
  | found hubs => exact absurd rfl (hanswer hubs)
  | missing => cases pending <;> exact hshut _
  | error =>
    cases pending with
    | auth k key => exact hshut k
    | revalidate k key => exact quiet_of_eq (fun _ => rfl) rfl rfl

/-- **A step keeps evicted users from their hubs exactly if its answer is current.** -/
theorem step_keeps (hk : Kept r ws) (h : step prims r e = some r') :
    Keeps r ws r' (ws ++ notes prims r e) (Current (r, ws) e) := by
  have hquiet : Quiet r r' → notes prims r e = [] →
      (∀ lookup hubs, e ≠ .answer lookup (.found hubs)) → Current (r, ws) e →
        Keeps r ws r' (ws ++ notes prims r e) (Current (r, ws) e) := fun hquiet hnotes hanswer =>
    quiet_keeps hk h hquiet hnotes (not_authenticate hanswer)
  cases e with
  | «open» k nonce =>
    refine hquiet ?_ rfl (fun _ _ h => by cases h) trivial
    rw [step] at h
    split at h
    · exact Option.some.inj h ▸ quiet_of_eq (fun _ => rfl) rfl rfl
    · cases h
  | message k now lookup msg => exact message_keeps hk h
  | close k =>
    refine hquiet ?_ rfl (fun _ _ h => by cases h) trivial
    rw [step] at h
    split at h
    · cases h
    · split_ifs at h
      exact Option.some.inj h ▸ quiet_closeEvent r k _
  | authTimeout k =>
    refine hquiet ?_ rfl (fun _ _ h => by cases h) trivial
    rw [step] at h
    split at h
    · cases h
    · split_ifs at h
      exact Option.some.inj h ▸ quiet_of_eq (fun _ => rfl) rfl rfl
  | revalidate k lookup =>
    refine hquiet ?_ rfl (fun _ _ h => by cases h) trivial
    rw [step] at h
    split at h
    · split_ifs at h
      split at h
      · exact Option.some.inj h ▸ quiet_of_eq (fun _ => rfl) rfl rfl
      · exact Option.some.inj h ▸ quiet_of_eq (fun _ => rfl) rfl rfl
    · cases h
  | answer lookup answer =>
    have hstep := h
    have hquiet' : (∀ hubs, answer ≠ .found hubs) → Quiet r r' := by
      intro hanswer
      rw [step] at h
      split at h
      · cases h
      · obtain rfl := Option.some.inj h
        obtain ⟨hhubs, hsubs, hbuffers⟩ := quiet_resolve
          { r with lookups := Function.update r.lookups lookup none } _ hanswer
        exact ⟨hhubs, hsubs, hbuffers⟩
    cases answer with
    | found hubs => exact found_keeps hk hstep
    | missing => exact hquiet (hquiet' fun _ h => by cases h) rfl (fun _ _ h => by cases h) trivial
    | error => exact hquiet (hquiet' fun _ h => by cases h) rfl (fun _ _ h => by cases h) trivial
  | publish hubId kind payload epoch now => exact publish_keeps hk h
  | evictMember pubkey hubId => exact evictMember_keeps hk h
  | terminateUser pubkey =>
    refine hquiet ?_ rfl (fun _ _ h => by cases h) trivial
    exact Option.some.inj h ▸ quiet_terminateUser r pubkey

/-! ### What is sent -/

/-- Events are sent when they are published, or asked for again. -/
theorem not_sent (hpublish : ∀ hubId kind payload epoch now,
      e ≠ .publish hubId kind payload epoch now)
    (hreplay : ∀ k now lookup hubId since, e ≠ .message k now lookup (.replay hubId since)) :
    ∀ note ∈ notes prims r e, ∀ id key event, note ≠ .sent id key event := by
  intro note hnote
  cases e with
  | publish hubId kind payload epoch now => exact absurd rfl (hpublish _ _ _ _ _)
  | message k now lookup msg =>
    cases msg with
    | replay hubId since => exact absurd rfl (hreplay _ _ _ _ _)
    | subscribe hubId kinds =>
      rw [notes] at hnote
      cases hconn : (r.sockets k).bind (connection r) with
      | none =>
        rw [hconn] at hnote
        cases hnote
      | some entry =>
        rw [hconn] at hnote
        simp only [Option.elim_some] at hnote
        split_ifs at hnote
        · rw [List.mem_singleton.mp hnote]
          exact fun _ _ _ h => by cases h
        · cases hnote
    | _ => cases hnote
  | answer lookup answer =>
    cases answer with
    | found hubs =>
      rw [notes] at hnote
      cases hlookup : r.lookups lookup with
      | none =>
        rw [hlookup] at hnote
        cases hnote
      | some pending =>
        rw [hlookup] at hnote
        cases pending with
        | auth k key => cases hnote
        | revalidate k key =>
          simp only [Option.elim_some] at hnote
          cases hconn : (r.sockets k).bind (connection r) with
          | none =>
            rw [hconn] at hnote
            cases hnote
          | some entry =>
            rw [hconn] at hnote
            obtain ⟨hub, -, rfl⟩ := List.mem_map.mp hnote
            exact fun _ _ _ h => by cases h
    | _ => cases hnote
  | evictMember pubkey hubId =>
    rw [List.mem_singleton.mp hnote]
    exact fun _ _ _ h => by cases h
  | _ => cases hnote

/-- Events of a hub that are asked for are sent to a user who has not been evicted, or there are
none. -/
theorem lawful_replayed (hl : Lawful Allowed ws) (id : Nat) (pubkey hubId : String)
    {events : List WsEventMessage} (hhub : ∀ event ∈ events, event.hubId = hubId) :
    Lawful Allowed (ws ++ events.reverse.map (.sent id pubkey)) ↔
      (Evicted ws pubkey hubId → events = []) := by
  constructor
  · intro h hevicted
    by_contra hsome
    cases hreverse : events.reverse with
    | nil => exact hsome (List.reverse_eq_nil_iff.mp hreverse)
    | cons event rest =>
      rw [hreverse, List.map_cons] at h
      have hmem : event ∈ events := List.mem_reverse.mp (hreverse ▸ List.mem_cons_self)
      exact h ws (.sent id pubkey event) _ rfl (hhub event hmem ▸ hevicted)
  · intro h
    by_cases hevicted : Evicted ws pubkey hubId
    · rw [h hevicted, List.reverse_nil, List.map_nil, List.append_nil]
      exact hl
    · refine lawful_sent hl fun note hnote => ?_
      obtain ⟨event, hevent, rfl⟩ := List.mem_map.mp hnote
      exact ⟨id, pubkey, event, rfl, hhub event (List.mem_reverse.mp hevent) ▸ hevicted⟩

/-- **A step sends nothing to evicted users exactly if they do not ask for it.** -/
theorem step_lawful (hk : Kept r ws) (hl : Lawful Allowed ws) (e : Event) :
    Lawful Allowed (ws ++ notes prims r e) ↔ Unasked (r, ws) e := by
  by_cases hreplay : ∃ k now lookup hubId since, e = .message k now lookup (.replay hubId since)
  · obtain ⟨k, now, lookup, hubId, since, rfl⟩ := hreplay
    rw [notes, Unasked]
    cases hconn : (r.sockets k).bind (connection r) with
    | none =>
      simp only [Option.elim_none, List.append_nil]
      exact iff_of_true hl fun _ h => by cases h
    | some entry =>
      obtain ⟨id, state⟩ := entry
      simp only [Option.elim_some, Option.mem_def, Option.some.injEq, forall_eq']
      by_cases hmem : hubId ∈ state.hubs
      · simp only [hmem, true_implies]
        exact lawful_replayed hl id state.pubkey hubId fun _ => replayed_hub hk
      · simp only [if_neg hmem, List.append_nil]
        exact iff_of_true hl fun h => absurd h hmem
  · by_cases hpublish : ∃ hubId kind payload epoch now, e = .publish hubId kind payload epoch now
    · obtain ⟨hubId, kind, payload, epoch, now, rfl⟩ := hpublish
      exact iff_of_true (lawful_sent hl (publish_sent hk)) trivial
    · have hunasked : Unasked (r, ws) e := by
        unfold Unasked
        split
        · exact absurd ⟨_, _, _, _, _, rfl⟩ hreplay
        · trivial
      refine iff_of_true (lawful_changes hl (not_sent ?_ ?_)) hunasked
      · exact fun _ _ _ _ _ h => hpublish ⟨_, _, _, _, _, h⟩
      · exact fun _ _ _ _ _ h => hreplay ⟨_, _, _, _, _, h⟩

end Steps

/-! ## Runs -/

section Runs

variable {prims : RelayPrims} {events : List Event} {t : Server × List Note}

theorem start_kept : Kept {} [] where
  sound := start_sound
  live _ _ _ h := by cases h
  subscriptions _ _ _ := rfl
  buffers _ _ h := by cases h

theorem history_kept {p p' : Server × List Note} {e : Event} (hk : Kept p.1 p.2)
    (h : Runs.recording (step prims) (notes prims) p e = some p') : Kept p'.1 p'.2 := by
  obtain ⟨hstep, hnotes⟩ := Runs.recording_eq_some.mp h
  rw [hnotes]
  exact (step_keeps hk hstep).1

/-- **No open socket's connection ever has a hub that its user was evicted from exactly if no answer
gives it one.** -/
theorem barred_iff
    (hrun : Runs.run (Runs.recording (step prims) (notes prims)) ({}, []) events = some t) :
    (∀ before after m, events = before ++ after →
        Runs.run (Runs.recording (step prims) (notes prims)) ({}, []) before = some m →
          Barred m.1 m.2) ↔
      Runs.Along (Runs.recording (step prims) (notes prims)) Current ({}, []) events := by
  have hstart : Barred {} [] := fun _ _ _ _ hseat => by cases hseat
  refine Runs.inv_iff_along (I := fun p => Kept p.1 p.2) (G := fun p => Barred p.1 p.2)
    (fun _ _ _ hk h => history_kept hk h) (fun p e p' hk hb h => ?_) start_kept hstart hrun
  obtain ⟨hstep, hnotes⟩ := Runs.recording_eq_some.mp h
  rw [hnotes]
  exact (step_keeps hk hstep).2 hb

/-- A socket authenticates and subscribes, and a check of its membership begins. -/
def leftHub : List Event :=
  [.open 0 "m", .message 0 0 0 (sampleAuth "m"), .answer 0 (.found ["hub"]),
   .message 0 0 1 (.subscribe "hub" [1]), .revalidate 0 2]

theorem barred_leftHub : ∃ t,
    Runs.run (Runs.recording (step samplePrims) (notes samplePrims)) ({}, [])
      (leftHub ++ [.answer 2 (.found [])]) = some t ∧ Barred t.1 t.2 := by
  have hsome : (Runs.run (Runs.recording (step samplePrims) (notes samplePrims)) ({}, [])
      (leftHub ++ [.answer 2 (.found [])])).isSome = true := by decide +kernel
  obtain ⟨t, ht⟩ := Option.isSome_iff_exists.mp hsome
  exact ⟨t, ht, (barred_iff ht).mpr (by decide +kernel) _ [] t (List.append_nil _).symm ht⟩

/-- The user comes back to the hub and subscribes to it again. -/
def comesBack : List Event :=
  leftHub ++ [.answer 2 (.found []), .publish "hub" 1 "away" 0 20000, .revalidate 0 3,
    .answer 3 (.found ["hub"]), .message 0 20000 4 (.subscribe "hub" [1]),
    .publish "hub" 1 "back" 0 20001, .message 0 30000 4 (.replay "hub" 20001)]

/-- Another socket authenticates meanwhile, with the hubs that the user had. -/
def staleAnswer : List Event :=
  leftHub ++ [.open 1 "n", .message 1 0 3 (sampleAuth "n"), .answer 2 (.found []),
    .answer 3 (.found ["hub"]), .publish "hub" 1 "away" 0 20000,
    .message 1 20000 4 (.replay "hub" 0)]

end Runs

end Llamenos.Worker.Relay
