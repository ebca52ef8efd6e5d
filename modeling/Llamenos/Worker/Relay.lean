import Llamenos.Worker.Auth
import Llamenos.Worker.ConnectionManager
import Llamenos.Worker.RingBuffer

/-!
# The websocket relay

The socket handler of `apps/worker/routes/ws.ts` over the connection manager of
`apps/worker/lib/ws-manager.ts`, with its event buffers: sockets open, authenticate, subscribe, ask
for events again, and close, and events are published to hubs.

To authenticate and to check a membership again, the handler looks up the user, and goes on when the
answer comes. It reads the socket's data again then, as they have become: an answer may find the
socket closed, or authenticated meanwhile by another message.

After the server's `ws.close` a socket hands over no more messages. Its close event comes then or
later.

Registration is about little of this: which connections are registered, and the phase of each socket
and the connection it has. `View` is that, `Move` what happens to it.

Results:
* `step_view`: **what a step does to the view is its move**.
-/

namespace Llamenos.Worker.Relay

open Llamenos.Lib Llamenos.Crypto Llamenos.Worker.Auth
open Llamenos.Worker.Ws (ConnectionManager ConnectionState add delete)

/-! ## Events -/

def WS_PROTOCOL_VERSION : Nat := 1
def BUFFER_CAPACITY : Nat := 1000
def BUFFER_MAX_AGE_MS : Int := 5 * 60 * 1000
def RESERVED_SLOTS : Nat := 100
def REPLAY_RATE_LIMIT_INTERVAL_MS : Int := 10000
def AUTH_TIMESTAMP_WINDOW_MS : Int := 10000
def KIND_CALL_RING : Nat := 1000
def KIND_CALL_UPDATE : Nat := 1001
def LABEL_WS_CHALLENGE : String := "llamenos:ws-auth:v1"

/-- `WsEventMessage`, without its `type`. -/
structure WsEventMessage where
  v : Nat
  hubId : String
  kind : Nat
  payload : String
  epoch : Nat
  ts : Int
  sig : String
  deriving DecidableEq

inductive KindGroup where
  | calls
  | messages
  | records
  | blast
  deriving DecidableEq

/-- `RATE_LIMITS`. -/
def KindGroup.limit : KindGroup → Nat
  | .calls => 100
  | .messages => 200
  | .records => 50
  | .blast => 20

def kindGroup (kind : Nat) : Option KindGroup :=
  if 1000 ≤ kind ∧ kind ≤ 1002 then some .calls
  else if 1010 ≤ kind ∧ kind ≤ 1012 then some .messages
  else if 1020 ≤ kind ∧ kind ≤ 1023 then some .records
  else if 1030 ≤ kind ∧ kind ≤ 1032 then some .blast
  else none

def isCallEvent (kind : Nat) : Bool := kind = KIND_CALL_RING ∨ kind = KIND_CALL_UPDATE

def isDurable (kind : Nat) : Bool := kind < 20000

def bufferOptions : RingBuffer.RingBufferOptions WsEventMessage where
  capacity := BUFFER_CAPACITY
  maxAgeMs := BUFFER_MAX_AGE_MS
  reservedSlots := RESERVED_SLOTS
  isReserved event := isCallEvent event.kind
  getTimestamp event := event.ts

structure RateLimitBucket where
  count : Nat
  windowStart : Int

/-! ## Sockets -/

inductive Phase where
  | opened
  /-- The server has called `ws.close`. -/
  | closing
  /-- The close event has been handled. -/
  | closed
  deriving DecidableEq

/-- `WsConnectionData`, without `nonceCreatedAt` and `lookupUser`. Timers are set or not. -/
structure Socket where
  nonce : String
  phase : Phase := .opened
  authenticated : Bool := false
  /-- The number of the connection's state. -/
  connState : Option Nat := none
  authTimeout : Bool := true
  validationInterval : Bool := false
  /-- The intervals that run, known to `validationInterval` or not. -/
  intervals : Nat := 0

/-- A user that is being looked up. -/
inductive Lookup where
  | auth (socket : Nat) (pubkey : String)
  | revalidate (socket : Nat) (pubkey : String)
  deriving DecidableEq

/-- What `lookupUser` comes back with. -/
inductive Answer where
  | found (hubs : List String)
  | missing
  | error
  deriving DecidableEq

/-- The manager, the sockets, and the users being looked up. -/
structure Server where
  manager : ConnectionManager := {}
  /-- The number of the next connection's state. -/
  next : Nat := 0
  /-- `ws` and `lastReplayAt` of the connections' states. -/
  ws : Nat → Option Nat := fun _ => none
  lastReplayAt : Nat → Int := fun _ => 0
  eventBuffers : String → Option (List WsEventMessage) := fun _ => none
  rateLimits : String → KindGroup → Option RateLimitBucket := fun _ _ => none
  sockets : Nat → Option Socket := fun _ => none
  lookups : Nat → Option Lookup := fun _ => none

structure AuthMessage where
  pubkey : String
  nonce : String
  ts : Int
  sig : String

inductive ClientMessage where
  | auth (msg : AuthMessage)
  | subscribe (hubId : String) (kinds : List Nat)
  | unsubscribe (hubId : String)
  | replay (hubId : String) (since : Int)
  | ping

/-- Ed25519, and the server's signature as hexadecimal text. -/
structure RelayPrims where
  ed25519 : Ed25519
  sign : String → String

/-- `ws.close(…)`. -/
def Socket.close (socket : Socket) : Socket :=
  { socket with phase := if socket.phase = .opened then .closing else socket.phase }

def setSocket (r : Server) (k : Nat) (socket : Socket) : Server :=
  { r with sockets := Function.update r.sockets k (some socket) }

/-- The checks of `handleAuth` before it looks up the user, with the message of the error. -/
def checkAuth (prims : RelayPrims) (nonce : String) (msg : AuthMessage) (now : Int) :
    Except String Unit :=
  if msg.nonce ≠ nonce then .error "Nonce mismatch"
  else if AUTH_TIMESTAMP_WINDOW_MS < |now - msg.ts| then .error "Timestamp expired"
  else if isRevokedSigningKey msg.pubkey then .error "Invalid signature"
  else
    let message := asBytes s!"{LABEL_WS_CHALLENGE}:{msg.pubkey}:{msg.nonce}:{msg.ts}"
    match hexToBytes msg.sig, hexToBytes msg.pubkey with
    | some sigBytes, some pubkeyBytes =>
      match ed25519Verify prims.ed25519 pubkeyBytes message sigBytes with
      | some true => .ok ()
      | some false => .error "Invalid signature"
      | none => .error "Authentication failed"
    | _, _ => .error "Authentication failed"

/-- `data.connState` of an authenticated socket, with its number. -/
def connection (r : Server) (socket : Socket) : Option (Nat × ConnectionState) :=
  if socket.authenticated then
    socket.connState.bind fun id => (r.manager.states id).map (id, ·)
  else none

/-- `handleAuth` after the user has been found. -/
def authenticated (r : Server) (k : Nat) (socket : Socket) (pubkey : String) (hubs : List String) :
    Server :=
  let id := r.next
  let state : ConnectionState := ⟨pubkey, hubs, []⟩
  let manager := { r.manager with states := Function.update r.manager.states id (some state) }
  let registered := Ws.register manager id state
  let socket := { socket with authTimeout := false, authenticated := true, connState := some id }
  let r := { r with
    manager := registered.1
    next := id + 1
    ws := Function.update r.ws id (some k) }
  if registered.2 then
    setSocket r k { socket with validationInterval := true, intervals := socket.intervals + 1 }
  else setSocket r k socket.close

/-- `conn.hubs` set. -/
def setHubs (m : ConnectionManager) (id : Nat) (f : List String → List String) :
    ConnectionManager :=
  { m with
    states := Function.update m.states id
      ((m.states id).map fun state => { state with hubs := f state.hubs }) }

/-- A turn of the loop over `currentHubs`: the hub is evicted, and deleted. -/
def evictHub (id : Nat) (pubkey : String) (m : ConnectionManager) (hubId : String) :
    ConnectionManager :=
  setHubs (Ws.evictMember m pubkey hubId) id fun hubs => delete hubs hubId

/-- The hubs that a revalidation finds the connection to have, but the user not to. -/
def removedHubs (state : ConnectionState) (hubs : List String) : List String :=
  state.hubs.filter fun hubId => hubId ∉ hubs

/-- `revalidateMembership` after the user has been found. -/
def revalidated (r : Server) (socket : Socket) (pubkey : String) (hubs : List String) : Server :=
  match connection r socket with
  | none => r
  | some (id, state) =>
    let manager := (removedHubs state hubs).foldl (evictHub id pubkey) r.manager
    { r with manager := setHubs manager id fun current => hubs.foldl add current }

/-- What a lookup's answer does. -/
def resolve (r : Server) : Lookup → Answer → Server
  | .auth k pubkey, .found hubs =>
    (r.sockets k).elim r fun socket => authenticated r k socket pubkey hubs
  | .revalidate k pubkey, .found hubs =>
    (r.sockets k).elim r fun socket => revalidated r socket pubkey hubs
  | .auth k _, _ | .revalidate k _, .missing =>
    (r.sockets k).elim r fun socket => setSocket r k socket.close
  | .revalidate _ _, .error => r

/-- `checkRateLimit` at `Date.now()`. -/
def checkRateLimit (rateLimits : String → KindGroup → Option RateLimitBucket) (hubId : String)
    (kind : Nat) (now : Int) : (String → KindGroup → Option RateLimitBucket) × Bool :=
  match kindGroup kind with
  | none => (rateLimits, true)
  | some group =>
    let bucket := match rateLimits hubId group with
      | none => ⟨0, now⟩
      | some bucket => if 60000 ≤ now - bucket.windowStart then ⟨0, now⟩ else bucket
    let store (bucket : RateLimitBucket) :=
      Function.update rateLimits hubId (Function.update (rateLimits hubId) group (some bucket))
    if group.limit ≤ bucket.count then (store bucket, false)
    else (store { bucket with count := bucket.count + 1 }, true)

/-- The event that `publishToHub` signs. -/
def makeEvent (prims : RelayPrims) (hubId : String) (kind : Nat) (payload : String) (epoch : Nat)
    (ts : Int) : WsEventMessage where
  v := WS_PROTOCOL_VERSION
  hubId := hubId
  kind := kind
  payload := payload
  epoch := epoch
  ts := ts
  sig := prims.sign s!"{WS_PROTOCOL_VERSION}:{hubId}:{kind}:{epoch}:{payload}:{ts}"

/-- `publishToHub`, without what it sends, at one reading of the clock. -/
def publishToHub (r : Server) (event : WsEventMessage) : Server :=
  let limited := checkRateLimit r.rateLimits event.hubId event.kind event.ts
  let r := { r with rateLimits := limited.1 }
  if limited.2 && isDurable event.kind then
    let buffer := (r.eventBuffers event.hubId).getD []
    { r with
      eventBuffers := Function.update r.eventBuffers event.hubId
        (some (RingBuffer.push bufferOptions event.ts buffer event)) }
  else r

/-- Whether `replay` answers, and what it then finds in the hub's buffer, newest first. -/
def replayed (r : Server) (id : Nat) (hubId : String) (since now : Int) :
    Option (List WsEventMessage) :=
  if now - r.lastReplayAt id < REPLAY_RATE_LIMIT_INTERVAL_MS then none
  else (r.eventBuffers hubId).elim (some []) fun buffer =>
    some (RingBuffer.since bufferOptions now buffer (max since (now - BUFFER_MAX_AGE_MS))).2

/-- `replay`, without what it sends. -/
def replay (r : Server) (id : Nat) (hubId : String) (now : Int) : Server :=
  if now - r.lastReplayAt id < REPLAY_RATE_LIMIT_INTERVAL_MS then r
  else
    { r with
      lastReplayAt := Function.update r.lastReplayAt id now
      eventBuffers := Function.update r.eventBuffers hubId
        ((r.eventBuffers hubId).map (RingBuffer.evictExpired bufferOptions now)) }

/-- The `message` handler, with a number for the lookup that it may begin. -/
def message (prims : RelayPrims) (r : Server) (k : Nat) (socket : Socket) (now : Int)
    (lookup : Nat) : ClientMessage → Server
  | .auth msg =>
    if socket.authenticated then r
    else match checkAuth prims socket.nonce msg now with
      | .ok () => { r with lookups := Function.update r.lookups lookup (some (.auth k msg.pubkey)) }
      | .error _ => setSocket r k socket.close
  | .subscribe hubId kinds => (connection r socket).elim r fun (id, state) =>
    if hubId ∈ state.hubs then { r with manager := Ws.subscribe r.manager id state hubId kinds }
    else r
  | .unsubscribe hubId => (connection r socket).elim r fun (_, state) =>
    { r with manager := Ws.unsubscribe r.manager state.pubkey hubId }
  | .replay hubId _ => (connection r socket).elim r fun (id, state) =>
    if hubId ∈ state.hubs then replay r id hubId now else r
  | .ping => r

/-- The `close` handler. -/
def closeEvent (r : Server) (k : Nat) (socket : Socket) : Server :=
  let r := setSocket r k { socket with
    phase := .closed
    authTimeout := false
    validationInterval := false
    intervals := if socket.validationInterval then socket.intervals - 1 else socket.intervals }
  match socket.connState with
  | none => r
  | some id => (r.manager.states id).elim r fun state =>
    { r with manager := Ws.unregister r.manager id state }

/-- One of the connections is the socket's. -/
def isOfSocket (ws : Nat → Option Nat) (conns : List Nat) (k : Nat) : Bool :=
  conns.any fun id => ws id = some k

/-- `terminateUser`, with the sockets that it closes. -/
def terminateUser (r : Server) (pubkey : String) : Server :=
  { r with
    manager := Ws.terminateUser r.manager pubkey
    sockets := fun k =>
      if isOfSocket r.ws (r.manager.connections pubkey) k then (r.sockets k).map Socket.close
      else r.sockets k }

/-! ## Runs -/

inductive Event where
  | open (socket : Nat) (nonce : String)
  | message (socket : Nat) (now : Int) (lookup : Nat) (msg : ClientMessage)
  | close (socket : Nat)
  /-- Ten seconds after a socket has opened. -/
  | authTimeout (socket : Nat)
  /-- Five minutes after an interval has been set, and each five minutes from then on. -/
  | revalidate (socket : Nat) (lookup : Nat)
  | answer (lookup : Nat) (answer : Answer)
  | publish (hubId : String) (kind : Nat) (payload : String) (epoch : Nat) (now : Int)
  | evictMember (pubkey hubId : String)
  | terminateUser (pubkey : String)

def step (prims : RelayPrims) (r : Server) : Event → Option Server
  | .open k nonce =>
    match r.sockets k with
    | none => some (setSocket r k { nonce })
    | some _ => none
  | .message k now lookup msg =>
    match r.sockets k, r.lookups lookup with
    | some socket, none =>
      if socket.phase = .opened then some (message prims r k socket now lookup msg) else none
    | _, _ => none
  | .close k =>
    match r.sockets k with
    | none => none
    | some socket => if socket.phase = .closed then none else some (closeEvent r k socket)
  | .authTimeout k =>
    match r.sockets k with
    | none => none
    | some socket =>
      if ¬ socket.authTimeout then none
      else
        let socket := { socket with authTimeout := false }
        some (setSocket r k (if socket.authenticated then socket else socket.close))
  | .revalidate k lookup =>
    match r.sockets k, r.lookups lookup with
    | some socket, none =>
      if socket.intervals = 0 then none
      else match connection r socket with
        | none => some r
        | some (_, state) =>
          some { r with
            lookups := Function.update r.lookups lookup (some (.revalidate k state.pubkey)) }
    | _, _ => none
  | .answer lookup answer =>
    match r.lookups lookup with
    | none => none
    | some pending =>
      some (resolve { r with lookups := Function.update r.lookups lookup none } pending answer)
  | .publish hubId kind payload epoch now =>
    some (publishToHub r (makeEvent prims hubId kind payload epoch now))
  | .evictMember pubkey hubId =>
    some { r with manager := Ws.evictMember r.manager pubkey hubId }
  | .terminateUser pubkey => some (terminateUser r pubkey)

/-! ## What registration is about -/

/-- A socket: `accepted` if it has been told so, and its interval is set. -/
structure Seat where
  phase : Phase := .opened
  connState : Option Nat := none
  accepted : Bool := false

def Seat.close (seat : Seat) : Seat :=
  { seat with phase := if seat.phase = .opened then .closing else seat.phase }

@[ext] structure View where
  next : Nat
  ws : Nat → Option Nat
  connections : String → List Nat
  pubkeys : Nat → Option String
  sockets : Nat → Option Seat

def Socket.seat (socket : Socket) : Seat where
  phase := socket.phase
  connState := socket.connState
  accepted := socket.validationInterval

def view (r : Server) : View where
  next := r.next
  ws := r.ws
  connections := r.manager.connections
  pubkeys id := (r.manager.states id).map (·.pubkey)
  sockets k := (r.sockets k).map Socket.seat

inductive Move where
  | stay
  | open (socket : Nat)
  /-- The server calls `ws.close`. -/
  | shut (socket : Nat)
  /-- The user of an auth message has been found. -/
  | authenticate (socket : Nat) (pubkey : String)
  | close (socket : Nat)
  | terminate (pubkey : String)

def View.authenticate (v : View) (k : Nat) (pubkey : String) (seat : Seat) : View :=
  let id := v.next
  let full := Ws.MAX_CONNECTIONS_PER_USER ≤ (v.connections pubkey).length
  let seat := { seat with connState := some id }
  { next := id + 1
    ws := Function.update v.ws id (some k)
    connections :=
      if full then v.connections
      else Function.update v.connections pubkey (add (v.connections pubkey) id)
    pubkeys := Function.update v.pubkeys id (some pubkey)
    sockets := Function.update v.sockets k
      (some (if full then seat.close else { seat with accepted := true })) }

/-- What a socket's connection, if it has one, leaves of its user's. -/
def View.unregister (v : View) (seat : Seat) : View :=
  match seat.connState with
  | none => v
  | some id => (v.pubkeys id).elim v fun pubkey =>
    { v with
      connections := Function.update v.connections pubkey (delete (v.connections pubkey) id) }

def View.move (v : View) : Move → View
  | .stay => v
  | .open k => { v with sockets := Function.update v.sockets k (some {}) }
  | .shut k => { v with sockets := Function.update v.sockets k ((v.sockets k).map Seat.close) }
  | .authenticate k pubkey => (v.sockets k).elim v (v.authenticate k pubkey)
  | .close k => (v.sockets k).elim v fun seat =>
    View.unregister
      { v with
        sockets := Function.update v.sockets k
          (some { seat with phase := .closed, accepted := false }) } seat
  | .terminate pubkey =>
    { v with
      connections := Function.update v.connections pubkey []
      sockets := fun k =>
        if isOfSocket v.ws (v.connections pubkey) k then (v.sockets k).map Seat.close
        else v.sockets k }

/-- What an event is to registration. -/
def moveOf (prims : RelayPrims) (r : Server) : Event → Move
  | .open k _ => .open k
  | .message k now _ (.auth msg) => (r.sockets k).elim .stay fun socket =>
    if socket.authenticated then .stay
    else match checkAuth prims socket.nonce msg now with
      | .ok () => .stay
      | .error _ => .shut k
  | .close k => .close k
  | .authTimeout k => (r.sockets k).elim .stay fun socket =>
    if socket.authenticated then .stay else .shut k
  | .answer lookup answer => (r.lookups lookup).elim .stay fun
    | .auth k pubkey => match answer with
      | .found _ => .authenticate k pubkey
      | _ => .shut k
    | .revalidate k _ => if answer = .missing then .shut k else .stay
  | .terminateUser pubkey => .terminate pubkey
  | .message _ _ _ _ | .revalidate _ _ | .publish _ _ _ _ _ | .evictMember _ _ => .stay

/-! ## What a step does to the view -/

section View

variable {r : Server} {m : ConnectionManager}

@[simp] theorem setSocket_manager (r : Server) (k : Nat) (socket : Socket) :
    (setSocket r k socket).manager = r.manager := rfl

theorem seats_update (r : Server) (k : Nat) (socket : Socket) :
    (fun j => (Function.update r.sockets k (some socket) j).map Socket.seat) =
      Function.update (view r).sockets k (some socket.seat) := by
  funext j
  by_cases hj : j = k
  · rw [hj, Function.update_self, Function.update_self, Option.map_some]
  · rw [Function.update_of_ne hj, Function.update_of_ne hj]
    rfl

theorem view_setSocket (r : Server) (k : Nat) (socket : Socket) :
    view (setSocket r k socket) =
      { view r with sockets := Function.update (view r).sockets k (some socket.seat) } := by
  ext1
  · rfl
  · rfl
  · rfl
  · rfl
  · exact seats_update r k socket

variable {socket : Socket} {k : Nat}

/-- A socket that is to registration what it was. -/
theorem view_same (h : r.sockets k = some socket) {seat : Seat}
    (hseat : seat = socket.seat) :
    { view r with sockets := Function.update (view r).sockets k (some seat) } = view r := by
  have hsame : (view r).sockets k = some seat := by simp only [view, h, Option.map_some, hseat]
  rw [← hsame, Function.update_eq_self]

theorem seat_close (socket : Socket) : socket.close.seat = socket.seat.close := rfl

theorem view_shut (h : r.sockets k = some socket) :
    view (setSocket r k socket.close) = (view r).move (.shut k) := by
  rw [view_setSocket, View.move, seat_close]
  simp only [view, h, Option.map_some]

/-- A socket that is not there is not changed. -/
theorem move_missing (h : r.sockets k = none) :
    (view r).move (.shut k) = view r ∧
      ∀ pubkey, (view r).move (.authenticate k pubkey) = view r := by
  have hseat : (view r).sockets k = none := by simp only [view, h, Option.map_none]
  constructor
  · have hsame : Function.update (view r).sockets k ((view r).sockets k) = (view r).sockets :=
      Function.update_eq_self k _
    rw [View.move]
    rw [hseat] at hsame ⊢
    rw [Option.map_none, hsame]
  · intro pubkey
    rw [View.move, hseat, Option.elim_none]

/-- What changes nothing but hubs and subscriptions. -/
theorem view_manager (hconns : m.connections = r.manager.connections)
    (hpubkeys : ∀ id, (m.states id).map (·.pubkey) = (r.manager.states id).map (·.pubkey)) :
    view { r with manager := m } = view r := by
  ext1
  · rfl
  · rfl
  · exact hconns
  · exact funext hpubkeys
  · rfl

theorem onConnections_pubkeys (m : ConnectionManager) (pubkey : String)
    {f : ConnectionState → ConnectionState} (hf : ∀ state, (f state).pubkey = state.pubkey)
    (id : Nat) : ((Ws.onConnections m pubkey f).states id).map (·.pubkey) =
      (m.states id).map (·.pubkey) := by
  simp only [Ws.onConnections]
  split_ifs
  · rw [Option.map_map]
    exact congrArg (Option.map · (m.states id)) (funext hf)
  · rfl

theorem setHubs_pubkeys (m : ConnectionManager) (id : Nat) (f : List String → List String)
    (j : Nat) : ((setHubs m id f).states j).map (·.pubkey) = (m.states j).map (·.pubkey) := by
  simp only [setHubs]
  by_cases hj : j = id
  · rw [hj, Function.update_self, Option.map_map]
    rfl
  · rw [Function.update_of_ne hj]

theorem evictMember_pubkeys (m : ConnectionManager) (pubkey hubId : String) (id : Nat) :
    ((Ws.evictMember m pubkey hubId).states id).map (·.pubkey) =
      (m.states id).map (·.pubkey) := by
  refine onConnections_pubkeys (Ws.removeSubscription m pubkey hubId) pubkey (fun state => ?_) id
  rfl

theorem unsubscribe_pubkeys (m : ConnectionManager) (pubkey hubId : String) (id : Nat) :
    ((Ws.unsubscribe m pubkey hubId).states id).map (·.pubkey) =
      (m.states id).map (·.pubkey) := by
  refine onConnections_pubkeys (Ws.removeSubscription m pubkey hubId) pubkey (fun state => ?_) id
  rfl

/-- The loop over the removed hubs. -/
theorem evictHubs_spec (id : Nat) (pubkey : String) (hubs : List String) (m : ConnectionManager) :
    (hubs.foldl (evictHub id pubkey) m).connections = m.connections ∧
      ∀ j, ((hubs.foldl (evictHub id pubkey) m).states j).map (·.pubkey) =
        (m.states j).map (·.pubkey) := by
  induction hubs generalizing m with
  | nil => exact ⟨rfl, fun _ => rfl⟩
  | cons hubId hubs ih =>
    obtain ⟨hconns, hpubkeys⟩ := ih (evictHub id pubkey m hubId)
    refine ⟨hconns, fun j => (hpubkeys j).trans ?_⟩
    rw [evictHub, setHubs_pubkeys, evictMember_pubkeys]

theorem view_revalidated (r : Server) (socket : Socket) (pubkey : String) (hubs : List String) :
    view (revalidated r socket pubkey hubs) = view r := by
  rw [revalidated]
  cases hconn : connection r socket with
  | none => rfl
  | some entry =>
    obtain ⟨hconns, hpubkeys⟩ := evictHubs_spec entry.1 pubkey (removedHubs entry.2 hubs) r.manager
    exact view_manager hconns fun j => (setHubs_pubkeys _ _ _ j).trans (hpubkeys j)

theorem connection_states {id : Nat} {state : ConnectionState}
    (h : connection r socket = some (id, state)) :
    socket.connState = some id ∧ r.manager.states id = some state := by
  rw [connection] at h
  split_ifs at h
  obtain ⟨id', hid, hstate⟩ := Option.bind_eq_some_iff.mp h
  obtain ⟨state', hstate', heq⟩ := Option.map_eq_some_iff.mp hstate
  cases heq
  exact ⟨hid, hstate'⟩

theorem view_subscribe {id : Nat} {state : ConnectionState} (h : r.manager.states id = some state)
    (hubId : String) (kinds : List Nat) :
    view { r with manager := Ws.subscribe r.manager id state hubId kinds } = view r := by
  refine view_manager rfl fun j => ?_
  simp only [Ws.subscribe]
  by_cases hj : j = id
  · rw [hj, Function.update_self, h]
    rfl
  · rw [Function.update_of_ne hj]

theorem view_replay (r : Server) (id : Nat) (hubId : String) (now : Int) :
    view (replay r id hubId now) = view r := by
  rw [replay]
  split_ifs <;> rfl

theorem view_authenticated (h : r.sockets k = some socket)
    (pubkey : String) (hubs : List String) :
    view (authenticated r k socket pubkey hubs) = (view r).move (.authenticate k pubkey) := by
  have hseat : (view r).sockets k = some socket.seat := by simp only [view, h, Option.map_some]
  rw [View.move, hseat, Option.elim_some, authenticated]
  have hpubkeys : (fun id =>
      (Function.update r.manager.states r.next (some ⟨pubkey, hubs, []⟩) id).map (·.pubkey)) =
        Function.update (view r).pubkeys r.next (some pubkey) := by
    funext id
    by_cases hid : id = r.next
    · rw [hid, Function.update_self, Function.update_self, Option.map_some]
    · rw [Function.update_of_ne hid, Function.update_of_ne hid]
      rfl
  by_cases hfull : Ws.MAX_CONNECTIONS_PER_USER ≤ (r.manager.connections pubkey).length
  · have hfull' : Ws.MAX_CONNECTIONS_PER_USER ≤ ((view r).connections pubkey).length := hfull
    simp only [Ws.register, hfull, if_true, Bool.false_eq_true, if_false, view_setSocket,
      View.authenticate, hfull']
    ext1
    · rfl
    · rfl
    · rfl
    · exact hpubkeys
    · rfl
  · have hfull' : ¬ Ws.MAX_CONNECTIONS_PER_USER ≤ ((view r).connections pubkey).length := hfull
    simp only [Ws.register, hfull, if_true, if_false, view_setSocket, View.authenticate, hfull']
    ext1
    · rfl
    · rfl
    · rfl
    · exact hpubkeys
    · rfl

theorem view_closeEvent (h : r.sockets k = some socket) :
    view (closeEvent r k socket) = (view r).move (.close k) := by
  have hseat : (view r).sockets k = some socket.seat := by simp only [view, h, Option.map_some]
  rw [View.move, hseat, Option.elim_some, closeEvent, View.unregister]
  cases hconn : socket.connState with
  | none =>
    simp only [Socket.seat, hconn, view_setSocket]
  | some id =>
    cases hstate : r.manager.states id with
    | none =>
      have hkey : (view r).pubkeys id = none := by simp only [view, hstate, Option.map_none]
      simp only [Socket.seat, hconn, hkey, setSocket_manager, hstate, Option.elim_none,
        view_setSocket]
    | some state =>
      have hkey : (view r).pubkeys id = some state.pubkey := by
        simp only [view, hstate, Option.map_some]
      obtain ⟨hconns, hstates⟩ := Ws.unregister_spec r.manager id state
      simp only [Socket.seat, hconn, hkey, setSocket_manager, hstate, Option.elim_some]
      ext1
      · rfl
      · rfl
      · exact hconns
      · simp only [view, hstates]
      · exact hconn ▸ seats_update r k _

theorem view_terminateUser (r : Server) (pubkey : String) :
    view (terminateUser r pubkey) = (view r).move (.terminate pubkey) := by
  ext1
  · rfl
  · rfl
  · simp only [view, terminateUser, Ws.terminateUser, Ws.removeSubscriptions_connections, View.move]
  · simp only [view, terminateUser, Ws.terminateUser, Ws.removeSubscriptions_states, View.move]
  · funext k
    by_cases hmine : isOfSocket r.ws (r.manager.connections pubkey) k = true
    · have hclosed : (terminateUser r pubkey).sockets k = (r.sockets k).map Socket.close :=
        if_pos hmine
      have hshut : ((view r).move (.terminate pubkey)).sockets k =
          ((view r).sockets k).map Seat.close := if_pos hmine
      rw [hshut]
      simp only [view, hclosed, Option.map_map]
      rfl
    · have hsame : (terminateUser r pubkey).sockets k = r.sockets k := if_neg hmine
      have hsame' : ((view r).move (.terminate pubkey)).sockets k = (view r).sockets k :=
        if_neg hmine
      rw [hsame']
      simp only [view, hsame]

theorem view_message (prims : RelayPrims)
    (h : r.sockets k = some socket) (now : Int) (lookup : Nat) (msg : ClientMessage) :
    view (message prims r k socket now lookup msg) =
      (view r).move (moveOf prims r (.message k now lookup msg)) := by
  cases msg with
  | auth msg =>
    rw [message, moveOf, h, Option.elim_some]
    split_ifs
    · rfl
    · cases checkAuth prims socket.nonce msg now with
      | ok _ => rfl
      | error _ => exact view_shut h
  | subscribe hubId kinds =>
    rw [message]
    cases hconn : connection r socket with
    | none => rfl
    | some entry =>
      simp only [Option.elim_some]
      split_ifs
      · exact view_subscribe (connection_states hconn).2 hubId kinds
      · rfl
  | unsubscribe hubId =>
    rw [message]
    cases connection r socket with
    | none => rfl
    | some entry => exact view_manager rfl (unsubscribe_pubkeys r.manager entry.2.pubkey hubId)
  | replay hubId since =>
    rw [message]
    cases connection r socket with
    | none => rfl
    | some entry =>
      simp only [Option.elim_some]
      split_ifs
      · exact view_replay r entry.1 hubId now
      · rfl
  | ping => rfl

theorem view_resolve (prims : RelayPrims) {lookup : Nat} {pending : Lookup}
    (h : r.lookups lookup = some pending) (answer : Answer) :
    view (resolve { r with lookups := Function.update r.lookups lookup none } pending answer) =
      (view r).move (moveOf prims r (.answer lookup answer)) := by
  set s : Server := { r with lookups := Function.update r.lookups lookup none }
  have hview : view s = view r := rfl
  have hshut : ∀ k, view ((s.sockets k).elim s fun socket => setSocket s k socket.close) =
      (view s).move (.shut k) := by
    intro k
    cases hsocket : s.sockets k with
    | none => exact (move_missing hsocket).1.symm
    | some socket => exact view_shut hsocket
  rw [moveOf, h, Option.elim_some, ← hview]
  cases pending with
  | auth k pubkey =>
    cases answer with
    | found hubs =>
      rw [resolve]
      cases hsocket : s.sockets k with
      | none => exact ((move_missing hsocket).2 pubkey).symm
      | some socket => exact view_authenticated hsocket pubkey hubs
    | missing => exact hshut k
    | error => exact hshut k
  | revalidate k pubkey =>
    cases answer with
    | found hubs =>
      rw [resolve]
      cases s.sockets k with
      | none => rfl
      | some socket => exact view_revalidated s socket pubkey hubs
    | missing => exact hshut k
    | error => rfl

/-- **What a step does to the view is its move.** -/
theorem step_view {prims : RelayPrims} {r' : Server} {e : Event} (h : step prims r e = some r') :
    view r' = (view r).move (moveOf prims r e) := by
  cases e with
  | «open» k nonce =>
    rw [step] at h
    split at h
    · obtain rfl := Option.some.inj h
      exact view_setSocket r k _
    · cases h
  | message k now lookup msg =>
    rw [step] at h
    split at h
    · rename_i socket hsocket _
      split_ifs at h
      obtain rfl := Option.some.inj h
      exact view_message prims hsocket now lookup msg
    · cases h
  | close k =>
    rw [step] at h
    split at h
    · cases h
    · rename_i socket hsocket
      split_ifs at h
      obtain rfl := Option.some.inj h
      exact view_closeEvent hsocket
  | authTimeout k =>
    rw [step] at h
    split at h
    · cases h
    · rename_i socket hsocket
      split_ifs at h with htimeout
      obtain rfl := Option.some.inj h
      rw [moveOf, hsocket, Option.elim_some, view_setSocket]
      split_ifs with hauth
      · exact view_same hsocket rfl
      · refine Eq.trans ?_ (view_shut hsocket)
        rw [view_setSocket]
        rfl
  | revalidate k lookup =>
    rw [step] at h
    split at h
    · split_ifs at h
      split at h
      · exact Option.some.inj h ▸ rfl
      · exact Option.some.inj h ▸ rfl
    · cases h
  | answer lookup answer =>
    rw [step] at h
    split at h
    · cases h
    · rename_i pending hpending
      obtain rfl := Option.some.inj h
      exact view_resolve prims hpending answer
  | publish hubId kind payload epoch now =>
    obtain rfl := Option.some.inj h
    simp only [publishToHub]
    split_ifs <;> rfl
  | evictMember pubkey hubId =>
    obtain rfl := Option.some.inj h
    exact view_manager rfl (evictMember_pubkeys r.manager pubkey hubId)
  | terminateUser pubkey =>
    obtain rfl := Option.some.inj h
    exact view_terminateUser r pubkey

end View

end Llamenos.Worker.Relay
