import Llamenos.Worker.Relay

/-!
# The relay connection of the client

`RelayConnection` and `EventDeduplicator` of `src/client/lib/relay/connection.ts`. Sockets have
numbers, and `readyState` is apart from what `ws` refers to: a second `connect` may open a second
socket. An event waits to be verified, and then to be decrypted, and the answers come in any order.
The clock does not go back.

What handlers do when they are called is a later step; the state that `onStateChange` is told and
the delays of `scheduleReconnect` are left out.

Results:
* `handed_once`: **no event is handed twice to a subscription**, whatever comes twice, in any order.
* `handed_published`: what is handed over, or wipes the device, is what the server has published.
* `subscribed_all`: a client that is connected has told the server of every subscription.
-/

namespace Llamenos.Client.Relay

open Llamenos.Lib Llamenos.Lib.Runs
open Llamenos.Worker.Relay hiding Phase Event step authenticated connection message

/-! ## The code -/

structure Subscription where
  id : Nat
  hubId : String
  kinds : List Nat
  deriving DecidableEq

def MAX_RECONNECT_ATTEMPTS : Nat := 20
def MAX_DEDUP_AGE : Int := 5 * 60 * 1000

/-- `readyState`. -/
inductive Phase where
  | connecting | open | closing | closed
  deriving DecidableEq

/-- An event that has been handed to a subscription, with the content that it was decrypted to. -/
structure Handed where
  sub : Subscription
  msg : WsEventMessage
  content : String

/-- What the client's device does: `ed25519Verify` of a message in hexadecimal, and the `type` of
what `JSON.parse` makes of a text, if it is an object with one. -/
structure Device where
  verify : String → String → String → Bool
  typeOf : String → Option String
  serverPubkey : String
  devicePubkey : String

/-- What events are routed by, with what has been handed over and what has wiped the device. -/
structure Router where
  now : Int := 0
  subscriptions : List Subscription := []
  nextSubscription : Nat := 0
  /-- The deduplicator's. -/
  buckets : Int → List String := fun _ => []
  /-- The events whose payloads are being decrypted. -/
  decrypting : List WsEventMessage := []
  destroyed : Bool := false
  handed : List Handed := []
  wiped : List WsEventMessage := []

/-- The connection, its sockets with what has been sent on each, and the challenges and events whose
signatures wait for an answer. -/
structure State extends Router where
  ws : Option Nat := none
  phases : Nat → Phase := fun _ => .closed
  sent : Nat → List ClientMessage := fun _ => []
  authenticated : Bool := false
  pendingSubscriptions : List Subscription := []
  reconnectAttempts : Nat := 0
  reconnectTimer : Bool := false
  disconnectedAt : Option Int := none
  /-- The nonces that are being signed, with the time. -/
  signing : List (String × Int) := []
  verifying : List WsEventMessage := []

def bucketKey (ts : Int) : Int := ts / 60000

/-- A signature that has been verified is hexadecimal: it has a code unit for each character. -/
def dedupKey (msg : WsEventMessage) : String :=
  s!"{msg.hubId}:{msg.kind}:{msg.ts}:{msg.sig.take 16}"

def sigMessage (msg : WsEventMessage) : String :=
  s!"{msg.v}:{msg.hubId}:{msg.kind}:{msg.epoch}:{msg.payload}:{msg.ts}"

/-- The signature is the server's. -/
def Device.Verifies (d : Device) (msg : WsEventMessage) : Prop :=
  d.verify (hexEncode (asBytes (sigMessage msg))) msg.sig d.serverPubkey = true

instance (d : Device) (msg : WsEventMessage) : Decidable (d.Verifies msg) :=
  inferInstanceAs (Decidable (_ = true))

namespace Router

/-- `deduplicator.isNew`. -/
def isNew (r : Router) (msg : WsEventMessage) : Bool :=
  ¬ MAX_DEDUP_AGE < r.now - msg.ts ∧ dedupKey msg ∉ r.buckets (bucketKey msg.ts)

/-- What `isNew` does if the event is new. -/
def remember (r : Router) (msg : WsEventMessage) : Router :=
  let key := bucketKey msg.ts
  { r with buckets := Function.update r.buckets key (dedupKey msg :: r.buckets key) }

def prune (r : Router) : Router :=
  { r with buckets := fun key =>
      if key < bucketKey (r.now - MAX_DEDUP_AGE) then [] else r.buckets key }

/-- `handleEvent` once the signature has been verified. -/
def verified (r : Router) (msg : WsEventMessage) : Router :=
  if r.isNew msg then { r.remember msg with decrypting := msg :: r.decrypting } else r

def matching (r : Router) (msg : WsEventMessage) : List Subscription :=
  r.subscriptions.filter fun sub => sub.hubId = msg.hubId ∧ msg.kind ∈ sub.kinds

/-- `handleEvent` once the payload has been decrypted. -/
def decrypted (d : Device) (r : Router) (msg : WsEventMessage) (content : String) : Router :=
  match d.typeOf content with
  | none => r
  | some type =>
    if type = "device:wipe" then { r with wiped := r.wiped ++ [msg] }
    else { r with handed := r.handed ++ (r.matching msg).map (⟨·, msg, content⟩) }

end Router

/-- `this.ws`, if it is open. -/
def openSocket (s : State) : Option Nat := s.ws.filter fun n => s.phases n = .open

def send (s : State) (n : Nat) (msgs : List ClientMessage) : State :=
  { s with sent := Function.update s.sent n (s.sent n ++ msgs) }

def setPhase (s : State) (n : Nat) (phase : Phase) : State :=
  { s with phases := Function.update s.phases n phase }

/-- The messages of `sendSubscription`. -/
def subscription (s : State) (sub : Subscription) : List ClientMessage :=
  .subscribe sub.hubId sub.kinds ::
    ((s.disconnectedAt.filter (· ≠ 0)).map fun t => .replay sub.hubId (t / 1000 - 1)).toList

def sendSubscriptions (s : State) (subs : List Subscription) : State :=
  (openSocket s).elim s fun n => send s n (subs.flatMap (subscription s))

/-- All subscriptions, the pending ones first. -/
def flushPendingSubscriptions (s : State) : State :=
  let s' := sendSubscriptions s (s.pendingSubscriptions ++
    s.subscriptions.filter (· ∉ s.pendingSubscriptions))
  { s' with pendingSubscriptions := [], disconnectedAt := none }

def subscribe (s : State) (hubId : String) (kinds : List Nat) : State :=
  let sub : Subscription := ⟨s.nextSubscription, hubId, kinds⟩
  let s := { s with
    nextSubscription := s.nextSubscription + 1
    subscriptions := s.subscriptions ++ [sub] }
  if (openSocket s).isSome ∧ s.authenticated then sendSubscriptions s [sub]
  else { s with pendingSubscriptions := s.pendingSubscriptions ++ [sub] }

def unsubscribe (s : State) (subId : Nat) : State :=
  match s.subscriptions.find? (·.id = subId) with
  | none => s
  | some sub =>
    let s := { s with
      subscriptions := s.subscriptions.filter (·.id ≠ subId)
      pendingSubscriptions := s.pendingSubscriptions.filter (·.id ≠ subId) }
    if (∃ other ∈ s.subscriptions, other.hubId = sub.hubId) ∨ ¬ s.authenticated then s
    else (openSocket s).elim s fun n => send s n [.unsubscribe sub.hubId]

def scheduleReconnect (s : State) : State :=
  if s.destroyed ∨ s.reconnectTimer ∨ MAX_RECONNECT_ATTEMPTS ≤ s.reconnectAttempts then s
  else { s with reconnectAttempts := s.reconnectAttempts + 1, reconnectTimer := true }

/-- `connect`, with a new socket. -/
def connect (s : State) (n : Nat) : State :=
  if s.destroyed ∨ (openSocket s).isSome then s
  else { setPhase s n .connecting with sent := Function.update s.sent n [] }

def close (s : State) : State :=
  { (openSocket s).elim s (setPhase s · .closing) with
    destroyed := true
    reconnectTimer := false
    subscriptions := []
    pendingSubscriptions := []
    buckets := fun _ => []
    ws := none }

/-- The socket's `close` event. -/
def onClose (s : State) (n : Nat) : State :=
  scheduleReconnect { setPhase s n .closed with
    ws := none, authenticated := false, disconnectedAt := some s.now }

/-! ## Runs -/

inductive Event where
  | connect (n : Nat)
  | opened (n : Nat)
  /-- An error, or no connection in time. -/
  | failed (n : Nat)
  | closing (n : Nat)
  | closed (n : Nat)
  | challenge (n : Nat) (nonce : String)
  | signed (i : Nat) (sig : Option String)
  | authenticated (n : Nat)
  | authFailed (n : Nat)
  | event (n : Nat) (msg : WsEventMessage)
  | verified (i : Nat) (answered : Bool)
  | decrypted (i : Nat) (content : Option String)
  | subscribe (hubId : String) (kinds : List Nat)
  | unsubscribe (subId : Nat)
  | close
  | reconnect (n : Nat)
  | prune
  | elapse (ms : Nat)

/-- A socket whose listeners are called. -/
def Live (s : State) (n : Nat) : Prop := s.phases n = .open ∨ s.phases n = .closing

instance (s : State) (n : Nat) : Decidable (Live s n) :=
  inferInstanceAs (Decidable (_ ∨ _))

def step (d : Device) (s : State) : Event → Option State
  | .connect n => if s.phases n = .closed then some (connect s n) else none
  | .opened n => if s.phases n = .connecting then
      some { setPhase s n .open with ws := some n, reconnectAttempts := 0 } else none
  | .failed n => if s.phases n = .connecting then
      some (scheduleReconnect (setPhase s n .closed)) else none
  | .closing n => if s.phases n = .open then some (setPhase s n .closing) else none
  | .closed n => if Live s n then some (onClose s n) else none
  | .challenge n nonce => if Live s n then
      some { s with signing := s.signing ++ [(nonce, s.now)] } else none
  | .signed i sig => (s.signing[i]?).map fun (nonce, ts) =>
      let s := { s with signing := s.signing.eraseIdx i }
      match sig with
      | none => { s with authenticated := false }
      | some sig => (openSocket s).elim s fun n => send s n [.auth ⟨d.devicePubkey, nonce, ts, sig⟩]
  | .authenticated n => if Live s n then
      some (flushPendingSubscriptions { s with authenticated := true }) else none
  | .authFailed n => if Live s n then some { s with authenticated := false } else none
  | .event n msg => if Live s n then some { s with verifying := s.verifying ++ [msg] } else none
  | .verified i answered => (s.verifying[i]?).map fun msg =>
      { s with
        verifying := s.verifying.eraseIdx i
        toRouter := if answered ∧ d.Verifies msg then s.verified msg else s.toRouter }
  | .decrypted i content => (s.decrypting[i]?).map fun msg =>
      let r := { s.toRouter with decrypting := s.decrypting.eraseIdx i }
      { s with toRouter := content.elim r (Router.decrypted d r msg) }
  | .subscribe hubId kinds => some (subscribe s hubId kinds)
  | .unsubscribe subId => some (unsubscribe s subId)
  | .close => some (close s)
  | .reconnect n => if s.reconnectTimer ∧ s.phases n = .closed then
      some (connect { s with reconnectTimer := false } n) else none
  | .prune => some { s with toRouter := s.prune }
  | .elapse ms => some { s with now := s.now + ms }

/-- A device for which one event is signed. -/
def sampleEvent : WsEventMessage := ⟨1, "hub", 1000, "payload", 3, 0, "sig"⟩

def sampleDevice : Device where
  verify hex _ _ := hex = hexEncode (asBytes (sigMessage sampleEvent))
  typeOf _ := some "call:ring"
  serverPubkey := "server"
  devicePubkey := "device"

/-- The event comes twice on one socket and once on the next. -/
def sampleRun : List Event :=
  [.subscribe "hub" [1000], .connect 0, .opened 0, .challenge 0 "nonce", .signed 0 (some "sig"),
    .authenticated 0, .event 0 sampleEvent, .event 0 sampleEvent, .verified 1 true,
    .verified 0 true, .decrypted 0 (some "ring"), .closed 0, .reconnect 1, .opened 1,
    .authenticated 1, .event 1 sampleEvent, .verified 0 true]

/-! ## What is handed over -/

variable {d : Device} {r : Router} {s t : State} {msg : WsEventMessage}

/-- The deduplicator refuses the event. -/
def Seen (r : Router) (msg : WsEventMessage) : Prop :=
  dedupKey msg ∈ r.buckets (bucketKey msg.ts) ∨ MAX_DEDUP_AGE < r.now - msg.ts

theorem isNew_iff : r.isNew msg = true ↔ ¬ Seen r msg := by
  simp [Router.isNew, Seen, and_comm]

theorem Seen.remember (h : Seen r msg) (new : WsEventMessage) : Seen (r.remember new) msg := by
  refine h.imp_left fun hmem => ?_
  by_cases hkey : bucketKey msg.ts = bucketKey new.ts
  · simp only [Router.remember, hkey, Function.update_self] at hmem ⊢
    exact List.mem_cons_of_mem _ hmem
  · simpa only [Router.remember, Function.update_of_ne hkey] using hmem

theorem seen_remember : Seen (r.remember msg) msg := by
  simp [Seen, Router.remember]

/-- What is forgotten is too old to pass. -/
theorem Seen.prune (h : Seen r msg) : Seen r.prune msg := by
  rcases h with hmem | hold
  · by_cases hkey : bucketKey msg.ts < bucketKey (r.now - MAX_DEDUP_AGE)
    · refine .inr ?_
      unfold bucketKey at hkey
      show MAX_DEDUP_AGE < r.now - msg.ts
      omega
    · exact .inl (by simpa only [Router.prune, if_neg hkey] using hmem)
  · exact .inr hold

/-- Each event passes the deduplicator once, and is handed over once after that. -/
structure Once (r : Router) : Prop where
  ids : ∀ sub ∈ r.subscriptions, sub.id < r.nextSubscription
  unique : (r.subscriptions.map (·.id)).Nodup
  inFlight : r.decrypting.Nodup
  handed : (r.handed.map fun h => (h.msg, h.sub.id)).Nodup
  decrypting : ∀ msg ∈ r.decrypting, Seen r msg ∧ ∀ h ∈ r.handed, h.msg ≠ msg
  seen : ∀ h ∈ r.handed, Seen r h.msg

/-- What has been seen stays so when the clock goes on or buckets are dropped. -/
theorem Once.later (h : Once r) {now : Int} {buckets : Int → List String}
    (hseen : ∀ msg, Seen r msg → Seen { r with now, buckets } msg) :
    Once { r with now, buckets } where
  ids := h.ids
  unique := h.unique
  inFlight := h.inFlight
  handed := h.handed
  decrypting msg hmsg := ⟨hseen msg (h.decrypting msg hmsg).1, (h.decrypting msg hmsg).2⟩
  seen handed hmem := hseen _ (h.seen handed hmem)

theorem Once.verified (h : Once r) (msg : WsEventMessage) : Once (r.verified msg) := by
  unfold Router.verified
  split
  · rename_i hnew
    have hunseen := isNew_iff.mp hnew
    have hlater := h.later fun _ hseen => Seen.remember hseen msg
    refine { hlater with inFlight := ?_, decrypting := ?_ }
    · exact List.nodup_cons.mpr ⟨fun hmem => hunseen (h.decrypting msg hmem).1, h.inFlight⟩
    · intro other hother
      rcases List.mem_cons.mp hother with rfl | hother
      · exact ⟨seen_remember, fun handed hmem heq => hunseen (heq ▸ h.seen handed hmem)⟩
      · exact hlater.decrypting other hother
  · exact h

theorem Once.decrypted (h : Once r) (hmsg : ∀ handed ∈ r.handed, handed.msg ≠ msg)
    (hseen : Seen r msg) (hout : msg ∉ r.decrypting) (content : String) :
    Once (r.decrypted d msg content) := by
  unfold Router.decrypted
  split
  · exact h
  · split
    · exact { h with }
    · refine { h with handed := ?_, decrypting := ?_, seen := ?_ }
      · rw [List.map_append, List.map_map]
        refine h.handed.append ?_ ?_
        · have hids : ((r.matching msg).map (·.id)).Nodup :=
            h.unique.sublist (List.filter_sublist.map _)
          have hpairs := hids.map fun id id' (heq : (msg, id) = (msg, id')) => (Prod.mk.inj heq).2
          rwa [List.map_map] at hpairs
        · intro pair hold hnew
          obtain ⟨handed, hmem, rfl⟩ := List.mem_map.mp hold
          obtain ⟨sub, -, heq⟩ := List.mem_map.mp hnew
          exact hmsg handed hmem (Prod.mk.inj heq).1.symm
      · intro other hother
        refine ⟨(h.decrypting other hother).1, fun handed hmem => ?_⟩
        rcases List.mem_append.mp hmem with hmem | hmem
        · exact (h.decrypting other hother).2 handed hmem
        · obtain ⟨sub, -, rfl⟩ := List.mem_map.mp hmem
          rintro rfl
          exact hout hother
      · intro handed hmem
        rcases List.mem_append.mp hmem with hmem | hmem
        · exact h.seen handed hmem
        · obtain ⟨sub, -, rfl⟩ := List.mem_map.mp hmem
          exact hseen

/-- What is decrypted, handed over or wipes the device has been verified. -/
structure Checked (d : Device) (r : Router) : Prop where
  decrypting : ∀ msg ∈ r.decrypting, d.Verifies msg
  handed : ∀ h ∈ r.handed, d.Verifies h.msg ∧ h.sub.hubId = h.msg.hubId ∧ h.msg.kind ∈ h.sub.kinds
  wiped : ∀ msg ∈ r.wiped, d.Verifies msg

theorem Checked.verified (h : Checked d r) (hmsg : d.Verifies msg) :
    Checked d (r.verified msg) := by
  unfold Router.verified
  split
  · exact { h with decrypting := List.forall_mem_cons.mpr ⟨hmsg, h.decrypting⟩ }
  · exact h

theorem Checked.decrypted (h : Checked d r) (hmsg : d.Verifies msg) (content : String) :
    Checked d (r.decrypted d msg content) := by
  unfold Router.decrypted
  split
  · exact h
  · split
    · refine { h with wiped := List.forall_mem_append.mpr ⟨h.wiped, ?_⟩ }
      simpa using hmsg
    · refine { h with handed := List.forall_mem_append.mpr ⟨h.handed, ?_⟩ }
      intro handed hmem
      obtain ⟨sub, hsub, rfl⟩ := List.mem_map.mp hmem
      exact ⟨hmsg, by simpa using (List.mem_filter.mp hsub).2⟩

/-- What a router keeps; once the connection has been closed for good, no more than what has been
verified. -/
def Kept (d : Device) (r : Router) : Prop := Checked d r ∧ (r.destroyed = false → Once r)

theorem router_sendSubscriptions (s : State) (subs : List Subscription) :
    (sendSubscriptions s subs).toRouter = s.toRouter := by
  unfold sendSubscriptions
  cases openSocket s <;> rfl

theorem router_scheduleReconnect (s : State) : (scheduleReconnect s).toRouter = s.toRouter := by
  unfold scheduleReconnect
  split <;> rfl

theorem router_connect (s : State) (n : Nat) : (connect s n).toRouter = s.toRouter := by
  unfold connect
  split <;> rfl

theorem router_subscribe (s : State) (hubId : String) (kinds : List Nat) :
    (subscribe s hubId kinds).toRouter = { s.toRouter with
      nextSubscription := s.nextSubscription + 1
      subscriptions := s.subscriptions ++ [⟨s.nextSubscription, hubId, kinds⟩] } := by
  unfold subscribe
  dsimp only
  split
  · exact router_sendSubscriptions _ _
  · rfl

theorem router_unsubscribe (s : State) (subId : Nat) :
    (unsubscribe s subId).toRouter = { s.toRouter with
      subscriptions := s.subscriptions.filter (·.id ≠ subId) } := by
  unfold unsubscribe
  split
  · rename_i hfind
    have hall : s.subscriptions.filter (·.id ≠ subId) = s.subscriptions :=
      List.filter_eq_self.mpr fun sub hsub => by simpa using List.find?_eq_none.mp hfind sub hsub
    rw [hall]
  · dsimp only
    split
    · rfl
    · cases openSocket _ <;> rfl

theorem Kept.subscribed (h : Kept d s.toRouter) (hubId : String) (kinds : List Nat) :
    Kept d (subscribe s hubId kinds).toRouter := by
  rw [router_subscribe]
  refine ⟨{ h.1 with }, fun hopen => ?_⟩
  have honce := h.2 hopen
  refine { honce with ids := ?_, unique := ?_ }
  · refine List.forall_mem_append.mpr ⟨fun sub hsub => Nat.lt_succ_of_lt (honce.ids sub hsub), ?_⟩
    simp
  · rw [List.map_append, List.nodup_append]
    refine ⟨honce.unique, List.nodup_singleton _, fun id hid id' hid' => ?_⟩
    obtain ⟨sub, hsub, rfl⟩ := List.mem_map.mp hid
    rw [List.map_singleton, List.mem_singleton] at hid'
    exact hid' ▸ (honce.ids sub hsub).ne

theorem Kept.unsubscribed (h : Kept d s.toRouter) (subId : Nat) :
    Kept d (unsubscribe s subId).toRouter := by
  rw [router_unsubscribe]
  refine ⟨{ h.1 with }, fun hopen => ?_⟩
  exact { h.2 hopen with
    ids := fun sub hsub => (h.2 hopen).ids sub (List.mem_filter.mp hsub).1
    unique := (h.2 hopen).unique.sublist (List.filter_sublist.map _) }

theorem of_guard {p : Prop} [Decidable p] {u : State}
    (h : (if p then some u else none) = some t) : p ∧ u = t := by
  obtain ⟨hp, hu⟩ := Option.ite_none_right_eq_some.mp h
  exact ⟨hp, Option.some.inj hu⟩

theorem step_kept (h : Kept d s.toRouter) {e : Event} (hstep : step d s e = some t) :
    Kept d t.toRouter := by
  cases e with
  | connect n | reconnect n =>
    obtain ⟨-, rfl⟩ := of_guard hstep
    rwa [router_connect]
  | opened n | closing n | challenge n _ | authFailed n | event n _ =>
    obtain ⟨-, rfl⟩ := of_guard hstep
    exact h
  | failed n =>
    obtain ⟨-, rfl⟩ := of_guard hstep
    rwa [router_scheduleReconnect]
  | closed n =>
    obtain ⟨-, rfl⟩ := of_guard hstep
    rwa [onClose, router_scheduleReconnect]
  | authenticated n =>
    obtain ⟨-, rfl⟩ := of_guard hstep
    show Kept d (sendSubscriptions _ _).toRouter
    rwa [router_sendSubscriptions]
  | signed i sig =>
    obtain ⟨⟨nonce, ts⟩, -, rfl⟩ := Option.map_eq_some_iff.mp hstep
    cases sig with
    | none => exact h
    | some sig =>
      dsimp only
      cases openSocket _ <;> exact h
  | verified i answered =>
    obtain ⟨msg, -, rfl⟩ := Option.map_eq_some_iff.mp hstep
    dsimp only
    split
    · rename_i hok
      have hdestroyed : (s.verified msg).destroyed = s.destroyed := by
        unfold Router.verified
        split <;> rfl
      exact ⟨h.1.verified hok.2, fun hopen => (h.2 (hdestroyed ▸ hopen)).verified msg⟩
    · exact h
  | decrypted i content =>
    obtain ⟨msg, hmsg, rfl⟩ := Option.map_eq_some_iff.mp hstep
    have hmem := List.mem_of_getElem? hmsg
    have hrest : ∀ other ∈ s.decrypting.eraseIdx i, other ∈ s.decrypting :=
      fun _ => (List.eraseIdx_sublist _ _).mem
    have hchecked : Checked d { s.toRouter with decrypting := s.decrypting.eraseIdx i } :=
      { h.1 with decrypting := fun other hother => h.1.decrypting other (hrest other hother) }
    have honce (hopen : s.destroyed = false) :
        Once { s.toRouter with decrypting := s.decrypting.eraseIdx i } :=
      { h.2 hopen with
        inFlight := (h.2 hopen).inFlight.sublist (List.eraseIdx_sublist _ _)
        decrypting := fun other hother => (h.2 hopen).decrypting other (hrest other hother) }
    cases content with
    | none => exact ⟨hchecked, honce⟩
    | some content =>
      refine ⟨hchecked.decrypted (h.1.decrypting msg hmem) content, fun hopen => ?_⟩
      have hdestroyed : s.destroyed = false := by
        rw [← hopen]
        dsimp only [Option.elim_some, Router.decrypted]
        split
        · rfl
        · split <;> rfl
      obtain ⟨hseen, hnew⟩ := (h.2 hdestroyed).decrypting msg hmem
      have hout : msg ∉ s.decrypting.eraseIdx i := by
        obtain ⟨hi, hget⟩ := List.getElem?_eq_some_iff.mp hmsg
        have hperm := List.getElem_cons_eraseIdx_perm hi
        rw [hget] at hperm
        exact (List.nodup_cons.mp (hperm.nodup_iff.mpr (h.2 hdestroyed).inFlight)).1
      exact (honce hdestroyed).decrypted hnew hseen hout content
  | subscribe hubId kinds =>
    obtain rfl := Option.some.inj hstep
    exact h.subscribed hubId kinds
  | unsubscribe subId =>
    obtain rfl := Option.some.inj hstep
    exact h.unsubscribed subId
  | close =>
    obtain rfl := Option.some.inj hstep
    unfold close
    cases openSocket s with
    | none => exact ⟨{ h.1 with }, fun hopen => absurd hopen Bool.true_eq_false.mp⟩
    | some n => exact ⟨{ h.1 with }, fun hopen => absurd hopen Bool.true_eq_false.mp⟩
  | prune =>
    obtain rfl := Option.some.inj hstep
    exact ⟨{ h.1 with }, fun hopen => (h.2 hopen).later fun _ => Seen.prune⟩
  | elapse ms =>
    obtain rfl := Option.some.inj hstep
    refine ⟨{ h.1 with }, fun hopen => (h.2 hopen).later fun msg hseen => hseen.imp_right ?_⟩
    intro hold
    show MAX_DEDUP_AGE < s.now + ms - msg.ts
    omega

theorem run_kept {es : List Event} (h : run (step d) {} es = some t) : Kept d t.toRouter := by
  refine run_inv (I := fun s => Kept d s.toRouter) (fun s e t hs => step_kept hs) ?_ h
  exact ⟨⟨by simp, by simp, by simp⟩,
    fun _ => ⟨by simp, by simp, by simp, by simp, by simp, by simp⟩⟩

/-- **No event is handed twice to a subscription**, in whatever order events come, come again and
are verified and decrypted, until the connection is closed for good. -/
theorem handed_once {es : List Event} (h : run (step d) {} es = some t)
    (hopen : t.destroyed = false) : (t.handed.map fun h => (h.msg, h.sub.id)).Nodup :=
  ((run_kept h).2 hopen).handed

theorem handed_once_sample : ∃ t, run (step sampleDevice) {} sampleRun = some t ∧
    t.handed.length = 1 ∧ (t.handed.map fun h => (h.msg, h.sub.id)).Nodup := by
  have hrun : run (step sampleDevice) {} sampleRun = some _ := rfl
  exact ⟨_, hrun, by decide +kernel, handed_once hrun rfl⟩

theorem colon_notMem_intChars (i : Int) : ':' ∉ intChars i := fun h => by
  rcases mem_intChars h with h | h
  · exact absurd h (by decide)
  · exact absurd h (by decide)

theorem toList_sigMessage (msg : WsEventMessage) : (sigMessage msg).toList =
    intChars msg.v ++ ':' :: (msg.hubId.toList ++ ':' :: (intChars msg.kind ++ ':' ::
      (intChars msg.epoch ++ ':' :: (msg.payload.toList ++ ':' :: intChars msg.ts)))) := by
  have hts : (toString msg.ts).toList = intChars msg.ts := by
    cases msg.ts with
    | ofNat n => exact toList_toString n
    | negSucc n =>
      show ("-" ++ toString (n + 1)).toList = _
      rw [String.toList_append, toList_toString]
      rfl
  have hcolon : (":" : String).toList = [':'] := rfl
  have hstr (s : String) : toString s = s := rfl
  simp only [sigMessage, String.toList_append, toList_toString, hts, hcolon, hstr, intChars,
    List.append_assoc, List.singleton_append]
  rfl

/-- Two events of hubs without a colon are signed alike only if they agree in all that is handed. -/
theorem sigMessage_inj {msg msg' : WsEventMessage} (hhub : ':' ∉ msg.hubId.toList)
    (hhub' : ':' ∉ msg'.hubId.toList) (h : sigMessage msg = sigMessage msg') :
    msg.hubId = msg'.hubId ∧ msg.kind = msg'.kind ∧ msg.epoch = msg'.epoch ∧
      msg.payload = msg'.payload ∧ msg.ts = msg'.ts := by
  have htexts := congrArg String.toList h
  rw [toList_sigMessage, toList_sigMessage,
    append_cons_inj_of_notMem_left (colon_notMem_intChars _) (colon_notMem_intChars _),
    append_cons_inj_of_notMem_left hhub hhub',
    append_cons_inj_of_notMem_left (colon_notMem_intChars _) (colon_notMem_intChars _),
    append_cons_inj_of_notMem_left (colon_notMem_intChars _) (colon_notMem_intChars _),
    append_cons_inj_of_notMem_right (colon_notMem_intChars _) (colon_notMem_intChars _)] at htexts
  obtain ⟨-, hhubs, hkinds, hepochs, hpayloads, hts⟩ := htexts
  exact ⟨String.toList_inj.mp hhubs, Int.ofNat_inj.mp (intChars_inj.mp hkinds),
    Int.ofNat_inj.mp (intChars_inj.mp hepochs), String.toList_inj.mp hpayloads, intChars_inj.mp hts⟩

/-- What a message makes of the kinds that a connection is subscribed to, by hub. -/
def told (kinds : String → List Nat) : ClientMessage → String → List Nat
  | .subscribe hubId new => Function.update kinds hubId (kinds hubId ++ new)
  | .unsubscribe hubId => Function.update kinds hubId []
  | _ => kinds

def subscribedKinds (msgs : List ClientMessage) : String → List Nat := msgs.foldl told fun _ => []

theorem mem_foldl_told {msgs : List ClientMessage} (h : ∀ hubId, .unsubscribe hubId ∉ msgs)
    {kinds : String → List Nat} {hubId : String} {kind : Nat} :
    kind ∈ msgs.foldl told kinds hubId ↔
      kind ∈ kinds hubId ∨ ∃ new, .subscribe hubId new ∈ msgs ∧ kind ∈ new := by
  induction msgs generalizing kinds with
  | nil => simp
  | cons msg msgs ih =>
    rw [List.foldl_cons, ih fun hubId hmem => h hubId (List.mem_cons_of_mem _ hmem)]
    cases msg with
    | auth _ | replay _ _ | ping => simp [told]
    | unsubscribe hubId' => exact absurd List.mem_cons_self (h hubId')
    | subscribe hubId' new =>
      by_cases hhub : hubId = hubId'
      · subst hhub
        simp [told, or_assoc, or_and_right, exists_or]
      · simp [told, hhub]

theorem unsubscribe_not_mem (s : State) (subs : List Subscription) (hubId : String) :
    .unsubscribe hubId ∉ subs.flatMap (subscription s) := by
  simp [subscription]

/-- A live socket is there if the client takes itself to be authenticated; and then the server has
been told of its subscriptions, on the socket it uses. -/
structure Connected (s : State) : Prop where
  live : s.authenticated = true → ∃ n, Live s n
  told : ∀ n, openSocket s = some n → s.authenticated = true → ∀ sub ∈ s.subscriptions,
    ∀ kind ∈ sub.kinds, kind ∈ subscribedKinds (s.sent n) sub.hubId

theorem openSocket_eq_some {n : Nat} :
    openSocket s = some n ↔ s.ws = some n ∧ s.phases n = .open := by
  simp [openSocket, Option.filter_eq_some_iff]

/-- What has to do with neither sockets nor more subscriptions. -/
theorem Connected.frame (h : Connected s) (hws : t.ws = s.ws) (hphases : t.phases = s.phases)
    (hsent : t.sent = s.sent) (hauth : t.authenticated = true → s.authenticated = true)
    (hsubs : ∀ sub ∈ t.subscriptions, sub ∈ s.subscriptions) : Connected t where
  live ht := by
    obtain ⟨n, hn⟩ := h.live (hauth ht)
    exact ⟨n, by rwa [Live, hphases]⟩
  told n hn ht sub hsub := by
    rw [openSocket_eq_some, hws, hphases, ← openSocket_eq_some] at hn
    rw [hsent]
    exact h.told n hn (hauth ht) sub (hsubs sub hsub)

/-- Nothing is said of a connection that is not authenticated. -/
theorem Connected.quiet (h : t.authenticated = false) : Connected t where
  live ht := absurd ht (by simp [h])
  told n _ ht := absurd ht (by simp [h])

/-- A socket neither stops being live nor opens. -/
theorem Connected.move (h : Connected s) {n : Nat} {phase : Phase}
    (hlive : Live s n → phase = .closing) (hopen : phase ≠ .open) :
    Connected (setPhase s n phase) where
  live ht := by
    obtain ⟨m, hm⟩ := h.live ht
    refine ⟨m, ?_⟩
    by_cases hmn : m = n
    · subst hmn
      exact .inr (by simp [setPhase, hlive hm])
    · simpa only [Live, setPhase, Function.update_of_ne hmn] using hm
  told m hm := by
    obtain ⟨hws, hphase⟩ := openSocket_eq_some.mp hm
    by_cases hmn : m = n
    · subst hmn
      simp [setPhase, hopen] at hphase
    · simp only [setPhase, Function.update_of_ne hmn] at hphase
      exact h.told m (openSocket_eq_some.mpr ⟨hws, hphase⟩)

theorem Connected.connect (h : Connected s) {n : Nat} (hn : s.phases n = .closed) :
    Connected (connect s n) := by
  unfold Relay.connect
  split
  · exact h
  · have hmoved : Connected (setPhase s n .connecting) := h.move (by simp [Live, hn]) (by simp)
    refine ⟨hmoved.live, fun m hm ht sub hsub kind hkind => ?_⟩
    have hne : m ≠ n := by
      rintro rfl
      simpa [setPhase] using (openSocket_eq_some.mp hm).2
    show kind ∈ subscribedKinds (Function.update s.sent n [] m) sub.hubId
    rw [Function.update_of_ne hne]
    exact hmoved.told m hm ht sub hsub kind hkind

theorem Connected.scheduleReconnect (h : Connected s) : Connected (scheduleReconnect s) := by
  unfold Relay.scheduleReconnect
  split
  · exact h
  · exact h.frame rfl rfl rfl id fun _ => id

/-- The server has been told of the subscriptions that are sent, and of what it had been told of. -/
theorem told_sent {n : Nat} (hn : openSocket s = some n) (subs : List Subscription)
    {hubId : String} {kind : Nat} (h : kind ∈ subscribedKinds (s.sent n) hubId ∨
      ∃ sub ∈ subs, sub.hubId = hubId ∧ kind ∈ sub.kinds) :
    kind ∈ subscribedKinds ((sendSubscriptions s subs).sent n) hubId := by
  rw [sendSubscriptions, hn, Option.elim_some]
  simp only [send, Function.update_self, subscribedKinds, List.foldl_append]
  refine (mem_foldl_told (unsubscribe_not_mem s subs)).mpr (h.imp_right ?_)
  rintro ⟨sub, hsub, rfl, hkind⟩
  exact ⟨sub.kinds, List.mem_flatMap.mpr ⟨sub, hsub, List.mem_cons_self⟩, hkind⟩

/-- All subscriptions that have not been sent before are sent now. -/
theorem Connected.send (hlive : s.authenticated = true → ∃ n, Live s n) {subs : List Subscription}
    (h : ∀ n, openSocket s = some n → s.authenticated = true → ∀ sub ∈ s.subscriptions, sub ∈ subs ∨
      ∀ kind ∈ sub.kinds, kind ∈ subscribedKinds (s.sent n) sub.hubId) :
    Connected (sendSubscriptions s subs) := by
  have hsame : ∃ sent, sendSubscriptions s subs = { s with sent } := by
    unfold sendSubscriptions
    cases openSocket s with
    | none => exact ⟨s.sent, rfl⟩
    | some n => exact ⟨_, rfl⟩
  obtain ⟨sent, hs⟩ := hsame
  refine ⟨by rwa [hs], fun n hn ht sub hsub kind hkind => ?_⟩
  have hn' : openSocket s = some n := by rwa [hs] at hn
  rw [hs] at ht hsub
  refine told_sent hn' subs ?_
  rcases h n hn' ht sub hsub with hnew | hold
  · exact .inr ⟨sub, hnew, rfl, hkind⟩
  · exact .inl (hold kind hkind)

theorem flush_connected (hlive : ∃ n, Live s n) :
    Connected (flushPendingSubscriptions { s with authenticated := true }) := by
  refine (Connected.send (s := { s with authenticated := true }) (fun _ => hlive)
    fun n _ _ sub hsub => .inl ?_).frame rfl rfl rfl id fun _ => id
  by_cases hpending : sub ∈ s.pendingSubscriptions
  · exact List.mem_append_left _ hpending
  · exact List.mem_append_right _ (List.mem_filter.mpr ⟨hsub, by simpa using hpending⟩)

theorem Connected.subscribe (h : Connected s) (hubId : String) (kinds : List Nat) :
    Connected (subscribe s hubId kinds) := by
  unfold Relay.subscribe
  dsimp only
  split
  · refine Connected.send ?_ fun n hn ht sub hsub => ?_
    · exact h.live
    · rcases List.mem_append.mp hsub with hsub | hsub
      · exact .inr (h.told n hn ht sub hsub)
      · exact .inl hsub
  · rename_i hclosed
    refine ⟨h.live, fun n hn ht => ?_⟩
    exact absurd ⟨Option.isSome_iff_exists.mpr ⟨n, hn⟩, ht⟩ hclosed

theorem Connected.unsubscribe (h : Connected s) (subId : Nat) :
    Connected (unsubscribe s subId) := by
  unfold Relay.unsubscribe
  split
  · exact h
  · rename_i sub _
    have hrest : Connected { s with
        subscriptions := s.subscriptions.filter (·.id ≠ subId)
        pendingSubscriptions := s.pendingSubscriptions.filter (·.id ≠ subId) } :=
      h.frame rfl rfl rfl id fun _ hmem => (List.mem_filter.mp hmem).1
    dsimp only
    split
    · exact hrest
    · rename_i hneeded
      cases hn : openSocket _ with
      | none => exact hrest
      | some n =>
        refine ⟨hrest.live, fun m hm ht other hother kind hkind => ?_⟩
        obtain rfl := Option.some.inj (hn.symm.trans hm)
        have hhub : other.hubId ≠ sub.hubId := fun heq => hneeded (.inl ⟨other, hother, heq⟩)
        simpa [Relay.send, subscribedKinds, Relay.told, hhub] using
          hrest.told n hn ht other hother kind hkind

/-- A socket opens while no other one is live. -/
def OneSocket (s : State) (e : Event) : Prop := ∀ n, e = .opened n → ∀ m, ¬ Live s m

theorem step_connected (h : Connected s) {e : Event} (he : OneSocket s e)
    (hstep : step d s e = some t) : Connected t := by
  cases e with
  | connect n =>
    obtain ⟨hn, rfl⟩ := of_guard hstep
    exact h.connect hn
  | opened n =>
    obtain ⟨hn, rfl⟩ := of_guard hstep
    refine .quiet (Bool.eq_false_iff.mpr fun ht => ?_)
    obtain ⟨m, hm⟩ := h.live ht
    exact he n rfl m hm
  | failed n =>
    obtain ⟨hn, rfl⟩ := of_guard hstep
    exact (h.move (by simp [Live, hn]) (by simp)).scheduleReconnect
  | closing n =>
    obtain ⟨hn, rfl⟩ := of_guard hstep
    exact h.move (fun _ => rfl) (by simp)
  | closed n =>
    obtain ⟨hn, rfl⟩ := of_guard hstep
    exact Connected.scheduleReconnect (.quiet rfl)
  | authenticated n =>
    obtain ⟨hn, rfl⟩ := of_guard hstep
    exact flush_connected ⟨n, hn⟩
  | challenge n _ | event n _ =>
    obtain ⟨-, rfl⟩ := of_guard hstep
    exact h.frame rfl rfl rfl id fun _ => id
  | authFailed n =>
    obtain ⟨-, rfl⟩ := of_guard hstep
    exact .quiet rfl
  | signed i sig =>
    obtain ⟨⟨nonce, ts⟩, -, rfl⟩ := Option.map_eq_some_iff.mp hstep
    cases sig with
    | none => exact .quiet rfl
    | some sig =>
      have hrest : Connected { s with signing := s.signing.eraseIdx i } :=
        h.frame rfl rfl rfl id fun _ => id
      dsimp only
      cases hn : openSocket _ with
      | none => exact hrest
      | some n =>
        refine ⟨hrest.live, fun m hm ht sub hsub kind hkind => ?_⟩
        obtain rfl := Option.some.inj (hn.symm.trans hm)
        simpa [Relay.send, subscribedKinds, Relay.told] using hrest.told n hn ht sub hsub kind hkind
  | verified i answered =>
    obtain ⟨msg, -, rfl⟩ := Option.map_eq_some_iff.mp hstep
    refine h.frame rfl rfl rfl id fun sub => ?_
    dsimp only [Router.verified]
    split
    · split <;> exact id
    · exact id
  | decrypted i content =>
    obtain ⟨msg, -, rfl⟩ := Option.map_eq_some_iff.mp hstep
    refine h.frame rfl rfl rfl id fun sub => ?_
    cases content with
    | none => exact id
    | some content =>
      dsimp only [Option.elim_some, Router.decrypted]
      split
      · exact id
      · split <;> exact id
  | subscribe hubId kinds =>
    obtain rfl := Option.some.inj hstep
    exact h.subscribe hubId kinds
  | unsubscribe subId =>
    obtain rfl := Option.some.inj hstep
    exact h.unsubscribe subId
  | close =>
    obtain rfl := Option.some.inj hstep
    have hmoved : Connected ((openSocket s).elim s (setPhase s · .closing)) := by
      cases hn : openSocket s with
      | none => exact h
      | some n => exact h.move (fun _ => rfl) (by simp)
    exact ⟨hmoved.live, fun n hn => by simp [openSocket, close] at hn⟩
  | reconnect n =>
    obtain ⟨hn, rfl⟩ := of_guard hstep
    have hrest : Connected { s with reconnectTimer := false } :=
      h.frame rfl rfl rfl id fun _ => id
    exact hrest.connect hn.2
  | prune | elapse _ =>
    obtain rfl := Option.some.inj hstep
    exact h.frame rfl rfl rfl id fun _ => id

/-- **A client that is connected has told the server of every subscription**, after any number of
reconnections, if its sockets are opened one after the other. -/
theorem subscribed_all {es : List Event} (h : run (step d) {} es = some t)
    (hone : Along (step d) OneSocket {} es) {n : Nat} (hn : openSocket t = some n)
    (hauth : t.authenticated = true) {sub : Subscription} (hsub : sub ∈ t.subscriptions)
    {kind : Nat} (hkind : kind ∈ sub.kinds) : kind ∈ subscribedKinds (t.sent n) sub.hubId := by
  have hstart : Connected ({} : State) := .quiet rfl
  have hend : Connected t :=
    run_inv_along (P := OneSocket) (fun _ _ _ hs he => step_connected hs he) hstart hone h
  exact hend.told n hn hauth sub hsub kind hkind

/-- The connection is lost and opened again. -/
def sampleReconnect : List Event :=
  [.subscribe "hub" [1000], .connect 0, .opened 0, .authenticated 0, .closed 0, .reconnect 1,
    .opened 1, .authenticated 1]

theorem subscribed_all_sample : ∃ t, run (step sampleDevice) {} sampleReconnect = some t ∧
    1000 ∈ subscribedKinds (t.sent 1) "hub" := by
  have hrun : run (step sampleDevice) {} sampleReconnect = some _ := rfl
  have hone : Along (step sampleDevice) OneSocket {} sampleReconnect := by
    refine .cons nofun rfl <| .cons nofun rfl <| .cons (fun _ _ m => ?_) rfl <|
      .cons nofun rfl <| .cons nofun rfl <| .cons nofun rfl <|
      .cons (fun _ _ m => ?_) rfl <| .cons nofun rfl trivial
    · rcases m with _ | m <;> nofun
    · rcases m with _ | _ | m <;> nofun
  exact ⟨_, hrun, subscribed_all hrun hone rfl rfl (List.mem_singleton_self _)
    (List.mem_singleton_self _)⟩

-- The condition is needed: a second socket, opened while the first is in use, is told of nothing.
example : ∃ t, run (step sampleDevice) {} [.connect 0, .connect 1, .opened 0, .authenticated 0,
      .subscribe "hub" [1000], .opened 1] = some t ∧
    openSocket t = some 1 ∧ t.authenticated = true ∧ t.subscriptions ≠ [] ∧ t.sent 1 = [] :=
  ⟨_, rfl, rfl, rfl, by decide, rfl⟩

end Llamenos.Client.Relay
