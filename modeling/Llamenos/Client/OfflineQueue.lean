import Llamenos.Lib.Fifo
import Llamenos.Lib.Histories
import Llamenos.Lib.Runs
import Llamenos.Lib.Text
import Mathlib.Algebra.Group.Nat.Defs

/-!
# The offline queue

`OfflineQueue` of `src/client/lib/offline-queue.ts`: writes that could not be sent wait in a list,
and in the browser's storage, until they are replayed. Each `await` ends a step: another call may
come in between, and a save or a decryption that was begun earlier may end later. A reload makes a
new instance, and drops what the old one was waiting for.

What happens to an operation is noted in a history. The listeners are left out.

A replay walks a snapshot, and goes on after an operation that stays queued; a decrypted queue
replaces the one in memory; and what is stored may be older than the queue.

Results:
* `step_inv`: what every step keeps, if it is careful.
* `kept_of_careful`: **no operation is lost, each is accepted in order, and none is sent after it was
  removed, in every run whose steps are careful**.
* `removed_is_sent`: a note that is removed during a replay.
-/

namespace Llamenos.Client.OfflineQueue

open Llamenos.Lib Llamenos.Lib.Runs

/-! ## The code -/

inductive QueuedOperationType where
  | noteCreate | noteUpdate | messageSend | shiftToggle | availabilityUpdate | conversationClaim
  | conversationUpdate | reportCreate | reportMessage | banAdd | banRemove | genericWrite
  deriving DecidableEq

/-- `path.includes(part)`. -/
def includes (path part : String) : Bool := path.toList.tails.any part.toList.isPrefixOf

def classifyOperation (path method : String) : QueuedOperationType :=
  if includes path "/notes" && method = "POST" then .noteCreate
  else if includes path "/notes/" && method = "PATCH" then .noteUpdate
  else if includes path "/reports/" && includes path "/messages" && method = "POST" then
    .reportMessage
  else if includes path "/messages" && method = "POST" then .messageSend
  else if includes path "/shifts/my-status" || includes path "/availability" then .shiftToggle
  else if includes path "/availability" && method = "PATCH" then .availabilityUpdate
  else if includes path "/claim" && method = "POST" then .conversationClaim
  else if includes path "/conversations/" && method = "PATCH" then .conversationUpdate
  else if includes path "/reports" && method = "POST" && !includes path "/messages" then
    .reportCreate
  else if includes path "/bans" && method = "POST" then .banAdd
  else if includes path "/bans/" && method = "DELETE" then .banRemove
  else .genericWrite

/-- An operation, without what its object changes. -/
structure Operation where
  /-- The object. -/
  ref : Nat
  id : String
  type : QueuedOperationType
  path : String
  method : String
  body : Option String
  queuedAt : String
  deriving DecidableEq

structure Tally where
  attempts : Nat
  lastError : Option String

/-- An operation as it is stored. -/
abbrev Saved := Operation × Tally

/-- The stored text: a JSON text, or an encrypted one; `none` if it is not of a queue. -/
inductive Stored where
  | plain (operations : Option (List Saved))
  | encrypted (operations : Option (List Saved))

/-- What a replay waits for: `getHeaders`, the response, the text of a response, or a timer. -/
inductive Await where
  | headers
  | response
  | text (status : Nat)
  | delay (ms : Nat)
  deriving DecidableEq

structure Replay where
  op : Operation
  /-- The operations of the snapshot after it. -/
  rest : List Operation
  await : Await
  toRemove : List String
  succeeded : Nat
  failed : Nat

/-- What a call of `decryptIfNeeded` waits for: the import, or the decryption of the text. -/
inductive Decrypting where
  | importing
  | reading (raw : Option (List Saved))

/-- An instance of the queue, and what it waits for. -/
structure Page where
  tallies : Nat → Tally
  next : Nat
  queue : List Operation
  replaying : Option Replay
  encryptedRaw : Option (Option (List Saved))
  decrypting : List Decrypting
  /-- The texts that are being encrypted. -/
  saving : List (List Saved)

/-- What happens to operations. -/
inductive Entry where
  | queued (id : String)
  | sent (op : Operation)
  /-- The server has answered success or conflict. -/
  | accepted (id : String)
  | exhausted (id : String)
  | removed (id : String)
  | replayed (succeeded failed remaining : Nat)
  deriving DecidableEq

structure World where
  page : Page
  storage : Option Stored
  history : List Entry

def MAX_ATTEMPTS : Nat := 10
def BASE_RETRY_DELAY : Nat := 1000
def MAX_RETRY_DELAY : Nat := 60000

/-- The backoff after so many attempts. -/
def retryDelay (attempts : Nat) : Nat := min (BASE_RETRY_DELAY * 2 ^ attempts) MAX_RETRY_DELAY

/-- `JSON.parse`: the queue's operations are new objects. -/
def Page.adopt (p : Page) (operations : List Saved) : Page :=
  { p with
    queue := (operations.zipIdx p.next).map fun (saved, ref) => { saved.1 with ref }
    tallies := fun ref =>
      if ref < p.next then p.tallies ref
      else (operations[ref - p.next]?).elim (p.tallies ref) (·.2)
    next := p.next + operations.length }

def emptyPage : Page where
  tallies _ := ⟨0, none⟩
  next := 0
  queue := []
  replaying := none
  encryptedRaw := none
  decrypting := []
  saving := []

def load : Option Stored → Page
  | none => emptyPage
  | some (.plain operations) => operations.elim emptyPage emptyPage.adopt
  | some (.encrypted operations) => { emptyPage with encryptedRaw := some operations }

def Page.toJson (p : Page) : List Saved := p.queue.map fun op => (op, p.tallies op.ref)

/-- `save` begins. -/
def Page.save (p : Page) : Page := { p with saving := p.saving ++ [p.toJson] }

def World.note (w : World) (entries : List Entry) : World :=
  { w with history := w.history ++ entries }

/-- The operations that are not in the queue afterwards. -/
def World.keep (w : World) (p : Operation → Bool) : World :=
  { w.note ((w.page.queue.filter fun op => !p op).map fun op => .removed op.id) with
    page := { w.page with queue := w.page.queue.filter p }.save }

/-- The loop is over. -/
def World.finish (w : World) (toRemove : List String) (succeeded failed : Nat) : World :=
  let queue := w.page.queue.filter fun op => !toRemove.contains op.id
  { w.note [.replayed succeeded failed queue.length] with
    page :=
      { { w.page with queue }.save with
        replaying := none } }

/-- The loop's next round, with what is left of the snapshot. -/
def World.continue (w : World) (rest : List Operation) (toRemove : List String)
    (succeeded failed : Nat) (online : Bool) : World :=
  match rest with
  | op :: rest =>
    if online then
      { w with page.replaying := some ⟨op, rest, .headers, toRemove, succeeded, failed⟩ }
    else w.finish toRemove succeeded failed
  | [] => w.finish toRemove succeeded failed

/-- `op.lastError = …` and `op.attempts++`. -/
def World.fail (w : World) (op : Operation) (lastError : String) : World :=
  let tally : Tally := ⟨(w.page.tallies op.ref).attempts + 1, some lastError⟩
  { w with page.tallies := Function.update w.page.tallies op.ref tally }

def isOk (status : Nat) : Bool := 200 ≤ status && status < 300

def isClientError (status : Nat) : Bool :=
  400 ≤ status && status < 500 && status ≠ 401 && status ≠ 429

/-- The response arrives. -/
def World.answer (w : World) (r : Replay) (status : Nat) (online : Bool) : World :=
  if isOk status || status = 409 then
    (w.note [.accepted r.op.id]).continue r.rest (r.toRemove ++ [r.op.id]) (r.succeeded + 1)
      r.failed online
  else if isClientError status then
    { w with page.replaying := some { r with await := .text status } }
  else
    let delay := retryDelay ((w.page.tallies r.op.ref).attempts + 1)
    let delayed : Replay :=
      { r with
        await := .delay delay
        failed := r.failed + 1 }
    { w.fail r.op ("HTTP " ++ toString status) with page.replaying := some delayed }

/-- The text of a client error's response has been read, or could not be. -/
def World.read (w : World) (r : Replay) (status : Nat) (text : Option String) (online : Bool) :
    World :=
  let w := w.fail r.op ("HTTP " ++ toString status ++ ": " ++ text.getD "unknown")
  if (w.page.tallies r.op.ref).attempts ≥ MAX_ATTEMPTS then
    (w.note [.exhausted r.op.id]).continue r.rest (r.toRemove ++ [r.op.id]) r.succeeded
      (r.failed + 1) online
  else w.continue r.rest r.toRemove r.succeeded (r.failed + 1) online

/-! ## Runs -/

/-- What `decryptDraft` gives. -/
inductive Decrypted where
  | content | null | thrown
  deriving DecidableEq

inductive Event where
  | enqueue (id path method : String) (body : Option String) (queuedAt : String)
  | remove (id : String)
  | clear
  | replay (online : Bool)
  | headers
  | answer (status : Nat) (online : Bool)
  | text (text : Option String) (online : Bool)
  | elapsed (online : Bool)
  /-- `getHeaders` or the request throws. -/
  | thrown (message : String)
  | decryptIfNeeded
  | imported (i : Nat)
  | decrypted (i : Nat) (result : Decrypted)
  /-- A text has been encrypted, or could not be. -/
  | saved (i : Nat) (encrypted : Bool)
  | reload

/-- A call of the queue, or the end of what it waits for. `randomUUID` gives no id twice. -/
def step (w : World) : Event → Option World
  | .enqueue id path method body queuedAt =>
    if Entry.queued id ∈ w.history then none
    else
      let op : Operation :=
        ⟨w.page.next, id, classifyOperation path method, path, method, body, queuedAt⟩
      some
        { w.note [.queued id] with
          page :=
            { w.page with
              queue := w.page.queue ++ [op]
              tallies := Function.update w.page.tallies op.ref ⟨0, none⟩
              next := w.page.next + 1 }.save }
  | .remove id => some (w.keep fun op => op.id ≠ id)
  | .clear => some (w.keep fun _ => false)
  | .replay online =>
    match w.page.replaying, w.page.queue with
    | none, _ :: _ => some (w.continue w.page.queue [] 0 0 online)
    | _, queue => some (w.note [.replayed 0 0 queue.length])
  | .headers =>
    match w.page.replaying with
    | some r =>
      if r.await = .headers then some
        { w.note [.sent r.op] with page.replaying := some { r with await := .response } }
      else none
    | none => none
  | .answer status online =>
    match w.page.replaying with
    | some r => if r.await = .response then some (w.answer r status online) else none
    | none => none
  | .text text online =>
    match w.page.replaying with
    | some r =>
      match r.await with
      | .text status => some (w.read r status text online)
      | _ => none
    | none => none
  | .elapsed online =>
    match w.page.replaying with
    | some r =>
      match r.await with
      | .delay _ => some (w.continue r.rest r.toRemove r.succeeded r.failed online)
      | _ => none
    | none => none
  | .thrown message =>
    match w.page.replaying with
    | some r =>
      if r.await = .headers ∨ r.await = .response then
        some ((w.fail r.op message).finish r.toRemove r.succeeded (r.failed + 1))
      else none
    | none => none
  | .decryptIfNeeded =>
    if w.page.encryptedRaw = none then some w
    else some { w with page.decrypting := w.page.decrypting ++ [.importing] }
  | .imported i =>
    match w.page.decrypting[i]? with
    | some .importing =>
      -- the text is read here, and may be gone
      let reading := w.page.decrypting.set i (.reading w.page.encryptedRaw.join)
      some { w with page.decrypting := reading }
    | _ => none
  | .decrypted i result =>
    match w.page.decrypting[i]? with
    | some (.reading raw) =>
      let page :=
        { w.page with
          encryptedRaw := none
          decrypting := w.page.decrypting.eraseIdx i }
      some <| match result, raw with
      | .content, some operations => { w with page := page.adopt operations }
      | .null, _ => { w with page }
      | _, _ => { w with page := { page with queue := [] } }
    | _ => none
  | .saved i encrypted =>
    (w.page.saving[i]?).map fun json =>
      { w with
        page.saving := w.page.saving.eraseIdx i
        storage := if encrypted then some (.encrypted (some json)) else w.storage }
  | .reload => some { w with page := load w.storage }

/-! ## What is promised -/

def Entry.queuedId : Entry → Option String
  | .queued id => some id
  | _ => none

/-- The operations in the order in which they were queued. -/
def order (history : List Entry) : List String := history.filterMap Entry.queuedId

/-- The server has answered success or conflict, the attempts were exhausted, or the operation was
removed. -/
def Settled (history : List Entry) (id : String) : Prop :=
  .accepted id ∈ history ∨ .exhausted id ∈ history ∨ .removed id ∈ history

def ids (operations : List Saved) : List String := operations.map (·.1.id)

/-- The operations that wait, encrypted or not. -/
def Page.pending (p : Page) : List String :=
  (p.encryptedRaw.join.elim [] ids) ++ p.queue.map (·.id)

/-- An operation is accepted when all that were queued earlier are settled, and is not sent after it
was removed. -/
def Allowed (before : List Entry) : Entry → Prop
  | .accepted id => ∀ earlier, Fifo.Before (order before) earlier id → Settled before earlier
  | .sent op => .removed op.id ∉ before
  | _ => True

/-- No operation is lost, and what has happened was allowed. -/
structure Kept (w : World) : Prop where
  pending : ∀ id ∈ order w.history, id ∈ w.page.pending ∨ Settled w.history id
  lawful : Histories.Lawful Allowed w.history

/-- What the replay has still to send. -/
def Page.unsent (p : Page) : List String :=
  match p.replaying with
  | none => []
  | some r => (if r.await = .headers then [r.op.id] else []) ++ r.rest.map (·.id)

def storedIds : Option Stored → List String
  | some (.plain (some operations)) | some (.encrypted (some operations)) => ids operations
  | _ => []

/-- Nothing is queued, removed or cleared while a stored queue waits to be decrypted, nor what the
replay has still to send; the stored queue is decrypted once, and successfully; an operation that
stays queued after its attempt is the last of the replay; and the page is reloaded when what waits
has been stored, and nothing that was removed. -/
def Careful (w : World) : Event → Prop
  | .enqueue .. => w.page.encryptedRaw = none
  | .remove id => w.page.encryptedRaw = none ∧ id ∉ w.page.unsent
  | .clear => w.page.encryptedRaw = none ∧ ∀ op ∈ w.page.queue, op.id ∉ w.page.unsent
  | .answer status _ => ∀ r ∈ w.page.replaying, isOk status ∨ status = 409 ∨ r.rest = [] ∨
      isClientError status ∧ MAX_ATTEMPTS ≤ (w.page.tallies r.op.ref).attempts + 1
  | .decrypted _ result =>
    (result = .content ∧ w.page.encryptedRaw.join.isSome) ∨
      (result ≠ .content ∧ w.page.pending = [])
  | .reload => (∀ id ∈ w.page.pending, id ∈ storedIds w.storage) ∧
      ∀ id ∈ storedIds w.storage, .removed id ∉ w.history
  | _ => True

instance (w : World) (e : Event) : Decidable (Careful w e) := by
  unfold Careful
  split <;> infer_instance

/-- A stored queue, in which no operation is twice, and a new page. -/
structure Initial (w : World) : Prop where
  page : w.page = load w.storage
  history : w.history = (storedIds w.storage).map .queued
  nodup : (storedIds w.storage).Nodup

/-! ## What every step keeps -/

/-- The queue, what is stored, and what is being stored are in order; nothing is lost, and nothing
that was removed waits. -/
structure Held (w : World) : Prop extends Kept w where
  nodup : (order w.history).Nodup
  sublist : w.page.pending.Sublist (order w.history)
  fresh : ∀ id ∈ w.page.pending, .removed id ∉ w.history
  waiting : w.page.encryptedRaw ≠ none → w.page.queue = []
  decrypting : ∀ raw, .reading raw ∈ w.page.decrypting → ∀ raw' ∈ w.page.encryptedRaw, raw' = raw
  stored : (storedIds w.storage).Sublist (order w.history)
  saving : ∀ json ∈ w.page.saving, (ids json).Sublist (order w.history)
  refs : ∀ op ∈ w.page.queue, op.ref < w.page.next
  known : ∀ id, .removed id ∈ w.history → id ∈ order w.history

/-- A replay sends in order; it stops after what stays queued. -/
structure Replay.Ordered (w : World) (r : Replay) : Prop where
  serving : Fifo.Serving (order w.history) (Settled w.history) (r.op.id :: r.rest.map (·.id))
  toRemove : ∀ id ∈ r.toRemove, .accepted id ∈ w.history ∨ .exhausted id ∈ w.history
  unsent : ∀ id ∈ w.page.unsent, .removed id ∉ w.history
  refs : ∀ op ∈ r.op :: r.rest, op.ref < w.page.next
  text : ∀ status, r.await = .text status →
    r.rest = [] ∨ MAX_ATTEMPTS ≤ (w.page.tallies r.op.ref).attempts + 1
  delay : ∀ ms, r.await = .delay ms → r.rest = []

structure Inv (w : World) : Prop extends Held w where
  replaying : ∀ r, w.page.replaying = some r → r.Ordered w

variable {w w' : World} {ws vs : List Entry} {id : String}

theorem order_append : order (ws ++ vs) = order ws ++ order vs := List.filterMap_append

/-- What queues nothing leaves the order as it is. -/
theorem order_unqueued (h : ∀ v ∈ vs, v.queuedId = none) : order (ws ++ vs) = order ws := by
  have hvs : order vs = [] := List.filterMap_eq_nil_iff.mpr h
  rw [order_append, hvs, List.append_nil]

theorem Settled.append (h : Settled ws id) : Settled (ws ++ vs) id :=
  h.imp (List.mem_append_left vs) (Or.imp (List.mem_append_left vs) (List.mem_append_left vs))

theorem mem_queue_pending {p : Page} {op : Operation} (h : op ∈ p.queue) : op.id ∈ p.pending :=
  List.mem_append_right _ (List.mem_map_of_mem h)

/-- The queue gives up what is settled by then. -/
theorem Held.drop (h : Held w) {queue : List Operation} (hqueue : queue.Sublist w.page.queue)
    (hvs : ∀ v ∈ vs, v.queuedId = none ∧ ∀ before, Allowed before v)
    (hknown : ∀ id, .removed id ∈ vs → id ∈ order w.history)
    (hgone : ∀ op ∈ w.page.queue, op ∈ queue ∨ Settled (w.history ++ vs) op.id)
    (hraw : ∀ id ∈ w.page.encryptedRaw.join.elim [] ids, .removed id ∉ vs)
    (hfresh : ∀ op ∈ queue, .removed op.id ∉ vs) :
    Held { w.note vs with page.queue := queue } := by
  have horder : order (w.history ++ vs) = order w.history := order_unqueued fun v hv => (hvs v hv).1
  have hsub : ({ w.page with queue } : Page).pending.Sublist w.page.pending :=
    (List.Sublist.refl _).append (hqueue.map _)
  refine
    { pending := fun id hid => ?_
      lawful := h.lawful.append fun v hv => (hvs v hv).2
      nodup := horder.symm ▸ h.nodup
      sublist := horder.symm ▸ hsub.trans h.sublist
      fresh := fun id hid hrem => ?_
      waiting := fun hraw => ?_
      decrypting := h.decrypting
      stored := horder.symm ▸ h.stored
      saving := fun json hjson => horder.symm ▸ h.saving json hjson
      refs := fun op hop => h.refs op (hqueue.subset hop)
      known := fun id hid => horder.symm ▸ (List.mem_append.mp hid).elim (h.known id) (hknown id) }
  · have hid' : id ∈ order w.history := horder ▸ hid
    rcases h.pending id hid' with hp | hs
    · rcases List.mem_append.mp hp with hp | hp
      · exact .inl (List.mem_append_left _ hp)
      · obtain ⟨op, hop, rfl⟩ := List.mem_map.mp hp
        exact (hgone op hop).imp_left mem_queue_pending
    · exact .inr hs.append
  · rcases List.mem_append.mp hrem with hrem | hrem
    · exact h.fresh id (hsub.subset hid) hrem
    · rcases List.mem_append.mp hid with hid | hid
      · exact hraw id hid hrem
      · obtain ⟨op, hop, rfl⟩ := List.mem_map.mp hid
        exact hfresh op hop hrem
  · have hnil : w.page.queue = [] := h.waiting hraw
    exact List.sublist_nil.mp (hnil ▸ hqueue)

/-- Something is noted of which the queue does not depend. -/
theorem Held.note (h : Held w) {v : Entry} (hv : v.queuedId = none) (hallowed : Allowed w.history v)
    (hrem : ∀ id, v ≠ .removed id) : Held (w.note [v]) := by
  have horder : order (w.history ++ [v]) = order w.history :=
    order_unqueued fun u hu => List.mem_singleton.mp hu ▸ hv
  refine
    { pending := fun id hid => (h.pending id (horder ▸ hid)).imp_right Settled.append
      lawful := Histories.lawful_concat.mpr ⟨h.lawful, hallowed⟩
      nodup := horder.symm ▸ h.nodup
      sublist := horder.symm ▸ h.sublist
      fresh := fun id hid hmem => ?_
      waiting := h.waiting
      decrypting := h.decrypting
      stored := horder.symm ▸ h.stored
      saving := fun json hjson => horder.symm ▸ h.saving json hjson
      refs := h.refs
      known := fun id hid => horder.symm ▸ (List.mem_append.mp hid).elim (h.known id) fun hid =>
        absurd (List.mem_singleton.mp hid).symm (hrem id) }
  rcases List.mem_append.mp hmem with hmem | hmem
  · exact h.fresh id hid hmem
  · exact hrem id (List.mem_singleton.mp hmem).symm

theorem Held.save (h : Held w) : Held { w with page := w.page.save } := by
  refine { h with saving := fun json hjson => ?_ }
  rcases List.mem_append.mp hjson with hjson | hjson
  · exact h.saving json hjson
  · obtain rfl := List.mem_singleton.mp hjson
    have hids : ids w.page.toJson = w.page.queue.map (·.id) := by
      simp [ids, Page.toJson, Function.comp_def]
    exact hids ▸ (List.sublist_append_right _ _).trans h.sublist

/-- The loop is over, and what it removes is settled. -/
theorem Held.finish (h : Held w) {toRemove : List String} (succeeded failed : Nat)
    (hgone : ∀ id ∈ toRemove, .accepted id ∈ w.history ∨ .exhausted id ∈ w.history) :
    Inv (w.finish toRemove succeeded failed) := by
  let queue := w.page.queue.filter fun op => !toRemove.contains op.id
  have hdrop : Held { w.note [.replayed succeeded failed queue.length] with page.queue := queue } := by
    refine h.drop List.filter_sublist (fun v hv => List.mem_singleton.mp hv ▸ ⟨rfl, fun _ => trivial⟩)
      nofun (fun op hop => ?_) nofun nofun
    by_cases hin : op.id ∈ toRemove
    · exact .inr (Settled.append ((hgone op.id hin).imp_right .inl))
    · exact .inl (List.mem_filter.mpr ⟨hop, by simpa using hin⟩)
  exact ⟨{ hdrop.save with }, nofun⟩

/-- The loop goes on with what may be sent in order. -/
theorem Held.continue (h : Held w) {rest : List Operation} {toRemove : List String}
    (succeeded failed : Nat) (online : Bool)
    (hserving : Fifo.Serving (order w.history) (Settled w.history) (rest.map (·.id)))
    (hgone : ∀ id ∈ toRemove, .accepted id ∈ w.history ∨ .exhausted id ∈ w.history)
    (hunsent : ∀ op ∈ rest, .removed op.id ∉ w.history)
    (hrefs : ∀ op ∈ rest, op.ref < w.page.next) :
    Inv (w.continue rest toRemove succeeded failed online) := by
  cases rest with
  | nil => exact h.finish succeeded failed hgone
  | cons op rest =>
    cases online with
    | false => exact h.finish succeeded failed hgone
    | true =>
      refine ⟨{ h with }, fun r hr => ?_⟩
      obtain rfl := Option.some.inj hr
      refine ⟨hserving, hgone, fun id hid => ?_, hrefs, nofun, nofun⟩
      obtain ⟨d, hd, rfl⟩ := List.mem_map.mp (show id ∈ (op :: rest).map (·.id) from hid)
      exact hunsent d hd

/-- An attempt that has failed is counted. -/
theorem Held.fail (h : Held w) (op : Operation) (lastError : String) : Held (w.fail op lastError) :=
  { h with }

theorem tallies_fail (w : World) (op : Operation) (lastError : String) :
    ((w.fail op lastError).page.tallies op.ref).attempts = (w.page.tallies op.ref).attempts + 1 := by
  simp [World.fail]
variable {r : Replay}

theorem Inv.fail (h : Inv w) (hr : w.page.replaying = some r) (lastError : String) :
    Inv (w.fail r.op lastError) := by
  refine ⟨h.toHeld.fail r.op lastError, fun r' hr' => ?_⟩
  obtain rfl := Option.some.inj (hr.symm.trans hr')
  have ho := h.replaying r hr
  refine { ho with text := fun status hstatus => (ho.text status hstatus).imp_right fun hmax => ?_ }
  rw [tallies_fail]
  exact Nat.le_succ_of_le hmax

/-- The replay goes on after its operation, which is settled. -/
theorem Inv.next (h : Inv w) (hr : w.page.replaying = some r) {v : Entry}
    (succeeded failed : Nat) (online : Bool) (hv : v.queuedId = none)
    (hallowed : Allowed w.history v) (hgone : v = .accepted r.op.id ∨ v = .exhausted r.op.id) :
    Inv ((w.note [v]).continue r.rest (r.toRemove ++ [r.op.id]) succeeded failed online) := by
  have ho := h.replaying r hr
  have horder : order (w.history ++ [v]) = order w.history :=
    order_unqueued fun u hu => List.mem_singleton.mp hu ▸ hv
  have hmem : v ∈ w.history ++ [v] := List.mem_append_right _ List.mem_cons_self
  have hrem : ∀ id, v ≠ .removed id := by
    rintro id rfl
    rcases hgone with hgone | hgone <;> cases hgone
  have hsettled : .accepted r.op.id ∈ w.history ++ [v] ∨ .exhausted r.op.id ∈ w.history ++ [v] := by
    rcases hgone with rfl | rfl
    · exact .inl hmem
    · exact .inr hmem
  refine (h.note hv hallowed hrem).continue succeeded failed online ?_ (fun id hid => ?_)
    (fun op hop hmem => ?_) fun op hop => ho.refs op (List.mem_cons_of_mem _ hop)
  · change Fifo.Serving (order (w.history ++ [v])) _ _
    rw [horder]
    exact (ho.serving.mono fun _ => Settled.append).next (hsettled.imp_right .inl)
  · rcases List.mem_append.mp hid with hid | hid
    · exact (ho.toRemove id hid).imp (List.mem_append_left _) (List.mem_append_left _)
    · exact List.mem_singleton.mp hid ▸ hsettled
  · rcases List.mem_append.mp hmem with hmem | hmem
    · refine ho.unsent op.id ?_ hmem
      rw [Page.unsent, hr]
      exact List.mem_append_right _ (List.mem_map_of_mem hop)
    · exact hrem op.id (List.mem_singleton.mp hmem).symm

/-- The replay stops after its operation, if that was the last. -/
theorem Inv.stop (h : Inv w) (hr : w.page.replaying = some r) (hheld : Held w')
    (hhistory : w'.history = w.history) (hrest : r.rest = []) (succeeded failed : Nat)
    (online : Bool) : Inv (w'.continue r.rest r.toRemove succeeded failed online) := by
  rw [hrest]
  exact hheld.finish succeeded failed (hhistory ▸ (h.replaying r hr).toRemove)

theorem Inv.answer (h : Inv w) (hr : w.page.replaying = some r)
    {status : Nat} {online : Bool} (hcareful : Careful w (.answer status online)) :
    Inv (w.answer r status online) := by
  have ho := h.replaying r hr
  have hstays : ¬ (isOk status = true ∨ status = 409) → r.rest = [] ∨
      isClientError status = true ∧ MAX_ATTEMPTS ≤ (w.page.tallies r.op.ref).attempts + 1 := by
    intro hnot
    rcases hcareful r hr with hok | hconflict | hrest
    · exact absurd (.inl hok) hnot
    · exact absurd (.inr hconflict) hnot
    · exact hrest
  have hunsent : ∀ id ∈ r.rest.map (·.id), .removed id ∉ w.history := by
    intro id hid
    refine ho.unsent id ?_
    rw [Page.unsent, hr]
    exact List.mem_append_right _ hid
  unfold World.answer
  simp only [Bool.or_eq_true, decide_eq_true_eq]
  split_ifs with hok hclient
  · exact h.next hr _ _ online rfl (fun _ hb => ho.serving.head h.nodup _ hb) (.inl rfl)
  · refine ⟨{ h.toHeld with }, fun r' hr' => ?_⟩
    obtain rfl := Option.some.inj hr'
    exact ⟨ho.serving, ho.toRemove, hunsent, ho.refs,
      fun _ _ => (hstays hok).imp_right And.right, nofun⟩
  · refine ⟨{ h.toHeld with }, fun r' hr' => ?_⟩
    obtain rfl := Option.some.inj hr'
    refine ⟨ho.serving, ho.toRemove, hunsent, ho.refs, nofun, fun _ _ => ?_⟩
    exact (hstays hok).resolve_right fun hc => hclient hc.1

theorem Inv.read (h : Inv w) (hr : w.page.replaying = some r) {status : Nat}
    (hawait : r.await = .text status) {text : Option String} {online : Bool} :
    Inv (w.read r status text online) := by
  have ho := h.replaying r hr
  unfold World.read
  dsimp only
  rw [tallies_fail]
  split_ifs with hmax
  · exact (h.fail hr _).next hr _ _ online rfl trivial (.inr rfl)
  · exact h.stop hr (h.toHeld.fail _ _) rfl ((ho.text status hawait).resolve_right hmax) _ _ online

/-- Operations are removed that no replay has still to send. -/
theorem Inv.keep (h : Inv w) (hraw : w.page.encryptedRaw = none) {p : Operation → Bool}
    (hid : ∀ op op', op.id = op'.id → p op = p op')
    (hunsent : ∀ op ∈ w.page.queue, p op = false → op.id ∉ w.page.unsent) : Inv (w.keep p) := by
  let removed := (w.page.queue.filter fun op => !p op).map fun op => Entry.removed op.id
  have hmem {id : String} (hrem : .removed id ∈ removed) :
      ∃ op ∈ w.page.queue, p op = false ∧ op.id = id := by
    obtain ⟨op, hop, hid⟩ := List.mem_map.mp hrem
    obtain ⟨hop, hp⟩ := List.mem_filter.mp hop
    exact ⟨op, hop, by simpa using hp, Entry.removed.inj hid⟩
  have hvs : ∀ v ∈ removed, v.queuedId = none ∧ ∀ before, Allowed before v := by
    intro v hv
    obtain ⟨op, -, rfl⟩ := List.mem_map.mp hv
    exact ⟨rfl, fun _ => trivial⟩
  have hdrop : Held { w.note removed with page.queue := w.page.queue.filter p } := by
    refine h.drop List.filter_sublist hvs (fun id hrem => ?_) (fun op hop => ?_)
      (fun id hid => ?_) fun op hop hrem => ?_
    · obtain ⟨op, hop, -, rfl⟩ := hmem hrem
      exact h.sublist.subset (mem_queue_pending hop)
    · cases hp : p op with
      | true => exact .inl (List.mem_filter.mpr ⟨hop, hp⟩)
      | false =>
        have hgone : .removed op.id ∈ removed :=
          List.mem_map_of_mem (List.mem_filter.mpr ⟨hop, by rw [hp]; rfl⟩)
        exact .inr (.inr (.inr (List.mem_append_right _ hgone)))
    · rw [hraw] at hid
      cases hid
    · obtain ⟨op', -, hp', hid'⟩ := hmem hrem
      rw [hid op' op hid', (List.mem_filter.mp hop).2] at hp'
      cases hp'
  refine ⟨{ hdrop.save with }, fun r hr => ?_⟩
  have ho := h.replaying r hr
  have horder : order (w.history ++ removed) = order w.history :=
    order_unqueued fun v hv => (hvs v hv).1
  refine { ho with
    serving := ?_
    toRemove := fun id hid =>
      (ho.toRemove id hid).imp (List.mem_append_left _) (List.mem_append_left _)
    unsent := fun id hid hrem => ?_ }
  · change Fifo.Serving (order (w.history ++ removed)) _ _
    exact horder.symm ▸ ho.serving.mono fun _ => Settled.append
  · rcases List.mem_append.mp hrem with hrem | hrem
    · exact ho.unsent id hid hrem
    · obtain ⟨op, hop, hp, rfl⟩ := hmem hrem
      exact hunsent op hop hp hid

theorem ids_adopt (p : Page) (operations : List Saved) :
    (p.adopt operations).queue.map (·.id) = ids operations := by
  have hfst := congrArg (List.map (·.1.id)) (List.zipIdx_map_fst p.next operations)
  rw [List.map_map] at hfst
  simp only [Page.adopt, List.map_map]
  exact hfst

theorem refs_adopt {p : Page} {operations : List Saved} :
    ∀ op ∈ (p.adopt operations).queue, op.ref < (p.adopt operations).next := by
  intro op hop
  obtain ⟨⟨saved, ref⟩, hmem, rfl⟩ := List.mem_map.mp hop
  exact (List.mem_zipIdx hmem).2.1

theorem pending_load (storage : Option Stored) : (load storage).pending = storedIds storage := by
  match storage with
  | none => rfl
  | some (.plain none) => rfl
  | some (.plain (some operations)) => exact ids_adopt emptyPage operations
  | some (.encrypted none) => rfl
  | some (.encrypted (some operations)) => exact List.append_nil _

/-- A new page waits for nothing. -/
structure Page.New (p : Page) : Prop where
  replaying : p.replaying = none
  decrypting : p.decrypting = []
  saving : p.saving = []
  waiting : p.encryptedRaw ≠ none → p.queue = []
  refs : ∀ op ∈ p.queue, op.ref < p.next

theorem load_new (storage : Option Stored) : (load storage).New := by
  match storage with
  | none | some (.plain none) => exact ⟨rfl, rfl, rfl, fun _ => rfl, nofun⟩
  | some (.plain (some operations)) =>
    exact ⟨rfl, rfl, rfl, fun hraw => absurd rfl hraw, refs_adopt⟩
  | some (.encrypted _) => exact ⟨rfl, rfl, rfl, fun _ => rfl, nofun⟩

/-- A page that is loaded holds what was stored. -/
theorem inv_load (hpending : ∀ id ∈ order w.history, id ∈ storedIds w.storage ∨ Settled w.history id)
    (hlawful : Histories.Lawful Allowed w.history) (hnodup : (order w.history).Nodup)
    (hstored : (storedIds w.storage).Sublist (order w.history))
    (hfresh : ∀ id ∈ storedIds w.storage, .removed id ∉ w.history)
    (hknown : ∀ id, .removed id ∈ w.history → id ∈ order w.history) :
    Inv { w with page := load w.storage } := by
  have hnew := load_new w.storage
  have hids := pending_load w.storage
  refine
    ⟨{ pending := by rwa [hids]
       lawful := hlawful
       nodup := hnodup
       sublist := by rwa [hids]
       fresh := by rwa [hids]
       waiting := hnew.waiting
       decrypting := by rw [hnew.decrypting]; nofun
       stored := hstored
       saving := by rw [hnew.saving]; nofun
       refs := hnew.refs
       known := hknown }, fun r hr => ?_⟩
  rw [hnew.replaying] at hr
  cases hr

theorem order_queued (ids : List String) : order (ids.map .queued) = ids := by
  rw [order, List.filterMap_map]
  exact List.filterMap_some

theorem Initial.inv (h : Initial w) : Inv w := by
  obtain ⟨page, storage, history⟩ := w
  obtain ⟨hpage, hhistory, hnodup⟩ := h
  dsimp only at hpage hhistory hnodup
  subst hpage hhistory
  have horder := order_queued (storedIds storage)
  have hqueued : ∀ v ∈ (storedIds storage).map Entry.queued, ∃ id, v = .queued id := by
    intro v hv
    obtain ⟨id, -, rfl⟩ := List.mem_map.mp hv
    exact ⟨id, rfl⟩
  have hnone {id} : .removed id ∉ (storedIds storage).map Entry.queued := by
    intro hmem
    obtain ⟨_, hv⟩ := hqueued _ hmem
    cases hv
  refine inv_load (w := ⟨load storage, storage, _⟩) (fun id hid => ?_) ?_ ?_ ?_ (fun _ _ => hnone)
    fun _ hmem => absurd hmem hnone
  · exact .inl (horder ▸ hid)
  · refine Histories.lawful_nil.append fun v hv before => ?_
    obtain ⟨id, rfl⟩ := hqueued v hv
    trivial
  · exact horder.symm ▸ hnodup
  · exact horder.symm ▸ List.Sublist.refl _

theorem mem_order : id ∈ order ws ↔ .queued id ∈ ws := by
  rw [order, List.mem_filterMap]
  constructor
  · rintro ⟨v, hv, hid⟩
    cases v with
    | queued id' => exact Option.some.inj hid ▸ hv
    | _ => cases hid
  · exact fun h => ⟨_, h, rfl⟩

/-- Another operation is queued. -/
theorem Inv.enqueue (h : Inv w) {path method queuedAt : String} {body : Option String}
    (hraw : w.page.encryptedRaw = none)
    (hstep : step w (.enqueue id path method body queuedAt) = some w') : Inv w' := by
  simp only [step] at hstep
  split_ifs at hstep with hnew
  obtain rfl := Option.some.inj hstep
  have hid : id ∉ order w.history := fun hid => hnew (mem_order.mp hid)
  have horder : order (w.history ++ [.queued id]) = order w.history ++ [id] := order_append
  have hnot {id'} (hrem : .removed id' ∈ w.history ++ [.queued id]) : .removed id' ∈ w.history := by
    rcases List.mem_append.mp hrem with hrem | hrem
    · exact hrem
    · cases List.mem_singleton.mp hrem
  let op : Operation :=
    ⟨w.page.next, id, classifyOperation path method, path, method, body, queuedAt⟩
  let page : Page :=
    { w.page with
      queue := w.page.queue ++ [op]
      tallies := Function.update w.page.tallies op.ref ⟨0, none⟩
      next := w.page.next + 1 }
  have hpending : page.pending = w.page.pending ++ [id] := by
    simp [Page.pending, page, op, hraw]
  have hconcat {l : List String} (hl : l.Sublist (order w.history)) :
      l.Sublist (order (w.history ++ [.queued id])) :=
    horder ▸ hl.trans (List.sublist_append_left _ _)
  have hheld : Held { w.note [.queued id] with page } := by
    refine
      { pending := fun id' hid' => ?_
        lawful := Histories.lawful_concat.mpr ⟨h.lawful, trivial⟩
        nodup := horder ▸ List.concat_eq_append ▸ h.nodup.concat hid
        sublist := ?_
        fresh := fun id' hid' hrem => ?_
        waiting := fun hsome => absurd hraw hsome
        decrypting := h.decrypting
        stored := hconcat h.stored
        saving := fun json hjson => hconcat (h.saving json hjson)
        refs := fun op' hop' => ?_
        known := fun id' hrem => horder ▸ List.mem_append_left _ (h.known id' (hnot hrem)) }
    · change id' ∈ order (w.history ++ [.queued id]) at hid'
      rw [horder] at hid'
      rw [hpending]
      rcases List.mem_append.mp hid' with hid' | hid'
      · exact (h.pending id' hid').imp (List.mem_append_left _) Settled.append
      · exact .inl (List.mem_append_right _ hid')
    · change page.pending.Sublist (order (w.history ++ [.queued id]))
      rw [hpending, horder]
      exact h.sublist.append (List.Sublist.refl _)
    · rw [hpending] at hid'
      rcases List.mem_append.mp hid' with hid' | hid'
      · exact h.fresh id' hid' (hnot hrem)
      · exact hid (List.mem_singleton.mp hid' ▸ h.known id' (hnot hrem))
    · rcases List.mem_append.mp hop' with hop' | hop'
      · exact Nat.lt_succ_of_lt (h.refs op' hop')
      · exact List.mem_singleton.mp hop' ▸ Nat.lt_succ_self _
  refine ⟨{ hheld.save with }, fun r hr => ?_⟩
  have ho := h.replaying r hr
  have htally : (Function.update w.page.tallies w.page.next ⟨0, none⟩) r.op.ref =
      w.page.tallies r.op.ref :=
    Function.update_of_ne (Nat.ne_of_lt (ho.refs r.op List.mem_cons_self)) _ _
  refine
    { serving := ?_
      toRemove := fun id' hid' =>
        (ho.toRemove id' hid').imp (List.mem_append_left _) (List.mem_append_left _)
      unsent := fun id' hid' hrem => ho.unsent id' hid' (hnot hrem)
      refs := fun op' hop' => Nat.lt_succ_of_lt (ho.refs op' hop')
      text := fun status hstatus => ?_
      delay := ho.delay }
  · change Fifo.Serving (order (w.history ++ [.queued id])) _ _
    rw [horder]
    exact (ho.serving.mono fun _ => Settled.append).concat hid
  · refine (ho.text status hstatus).imp_right fun hmax => ?_
    change MAX_ATTEMPTS ≤ ((Function.update w.page.tallies w.page.next ⟨0, none⟩) r.op.ref).1 + 1
    rwa [htally]

/-- A replay begins with the queue, where all that waits is in it. -/
theorem Inv.replay (h : Inv w) {online : Bool} (hqueue : w.page.queue ≠ []) : Inv (w.continue w.page.queue [] 0 0 online) := by
  have hraw : w.page.encryptedRaw = none := by
    by_contra hsome
    exact hqueue (h.waiting hsome)
  have hpending : w.page.pending = w.page.queue.map (·.id) := by
    rw [Page.pending, hraw]
    rfl
  refine h.toHeld.continue 0 0 online ?_ nofun (fun op hop => ?_) h.refs
  · exact .start h.nodup (hpending ▸ h.sublist) (hpending ▸ h.pending)
  · exact h.fresh op.id (mem_queue_pending hop)

/-- Where as much waits as before, and nothing else is in the queue, another call may end. -/
theorem Inv.settle (h : Inv w) {page : Page} (hpending : page.pending = w.page.pending)
    (hwaiting : page.encryptedRaw ≠ none → page.queue = [])
    (hdecrypting : ∀ raw, .reading raw ∈ page.decrypting → ∀ raw' ∈ page.encryptedRaw, raw' = raw)
    (hsaving : page.saving = w.page.saving) (hreplaying : page.replaying = w.page.replaying)
    (hrefs : ∀ op ∈ page.queue, op.ref < page.next) (hnext : w.page.next ≤ page.next)
    (htallies : ∀ ref < w.page.next, page.tallies ref = w.page.tallies ref) :
    Inv { w with page } := by
  refine ⟨⟨⟨by rw [hpending]; exact h.pending, h.lawful⟩, h.nodup, by rw [hpending]; exact h.sublist,
    by rw [hpending]; exact h.fresh, hwaiting, hdecrypting, h.stored, by rw [hsaving]; exact h.saving,
    hrefs, h.known⟩, fun r hr => ?_⟩
  have hr' : w.page.replaying = some r := hreplaying ▸ hr
  have ho := h.replaying r hr'
  refine { ho with
    unsent := fun id hid => ho.unsent id ?_
    refs := fun op hop => Nat.lt_of_lt_of_le (ho.refs op hop) hnext
    text := fun status hstatus => (ho.text status hstatus).imp_right fun hmax => ?_ }
  · rw [Page.unsent, hr']
    simp only [Page.unsent] at hid
    rwa [hreplaying, hr'] at hid
  · change MAX_ATTEMPTS ≤ (page.tallies r.op.ref).attempts + 1
    rwa [htallies r.op.ref (ho.refs r.op List.mem_cons_self)]

theorem Inv.note (h : Inv w) {v : Entry} (hv : v.queuedId = none) (hallowed : Allowed w.history v)
    (hrem : ∀ id, v ≠ .removed id) : Inv (w.note [v]) := by
  have horder : order (w.history ++ [v]) = order w.history :=
    order_unqueued fun u hu => List.mem_singleton.mp hu ▸ hv
  refine ⟨h.toHeld.note hv hallowed hrem, fun r hr => ?_⟩
  have ho := h.replaying r hr
  refine { ho with
    serving := ?_
    toRemove := fun id hid =>
      (ho.toRemove id hid).imp (List.mem_append_left _) (List.mem_append_left _)
    unsent := fun id hid hmem => ?_ }
  · change Fifo.Serving (order (w.history ++ [v])) _ _
    exact horder.symm ▸ ho.serving.mono fun _ => Settled.append
  · rcases List.mem_append.mp hmem with hmem | hmem
    · exact ho.unsent id hid hmem
    · exact hrem id (List.mem_singleton.mp hmem).symm

/-- The replay sends its operation, which nobody has removed. -/
theorem Inv.send (h : Inv w) (hr : w.page.replaying = some r)
    (hawait : r.await = .headers) : Inv
      { w.note [.sent r.op] with page.replaying := some { r with await := .response } } := by
  have ho := h.replaying r hr
  have hmine : r.op.id ∈ w.page.unsent := by
    rw [Page.unsent, hr]
    exact List.mem_append_left _ (by rw [if_pos hawait]; exact List.mem_cons_self)
  have hnoted : Inv (w.note [.sent r.op]) := h.note rfl (ho.unsent _ hmine) nofun
  refine ⟨{ hnoted.toHeld with }, fun r' hr' => ?_⟩
  obtain rfl := Option.some.inj hr'
  have ho' := hnoted.replaying r hr
  refine { ho' with
    unsent := fun id hid => ho'.unsent id ?_
    text := nofun
    delay := nofun }
  change id ∈ w.page.unsent
  rw [Page.unsent, hr]
  exact List.mem_append_right _ hid

/-- A text is decrypted that waits, or nothing waits and nothing is decrypted. -/
theorem Inv.decrypted (h : Inv w) {i : Nat} {result : Decrypted}
    (hcareful : Careful w (.decrypted i result))
    (hstep : step w (.decrypted i result) = some w') : Inv w' := by
  simp only [step] at hstep
  split at hstep
  · rename_i raw hi
    obtain rfl := Option.some.inj hstep
    have hraw := h.decrypting raw (List.mem_of_getElem? hi)
    rcases hcareful with ⟨rfl, hsome⟩ | ⟨hresult, hnone⟩
    · obtain ⟨operations, hoperations⟩ := Option.isSome_iff_exists.mp hsome
      have hwaits : w.page.encryptedRaw = some (some operations) :=
        Option.join_eq_some_iff.mp hoperations
      obtain rfl : some operations = raw := hraw _ hwaits
      refine h.settle ?_ (fun hsome => absurd rfl hsome) (fun _ _ => nofun) rfl rfl refs_adopt
        (Nat.le_add_right _ _) fun ref href => if_pos href
      rw [Page.pending, Page.pending, hwaits, h.waiting (by rw [hwaits]; simp), ids_adopt]
      exact (List.append_nil _).symm
    · have hqueue : w.page.queue = [] := by
        rw [Page.pending] at hnone
        exact List.map_eq_nil_iff.mp (List.append_eq_nil_iff.mp hnone).2
      cases result with
      | content => exact absurd rfl hresult
      | null =>
        refine h.settle ?_ (fun hsome => absurd rfl hsome) (fun _ _ => nofun) rfl rfl h.refs
          (Nat.le_refl _) fun _ _ => rfl
        rw [hnone, Page.pending, hqueue]
        rfl
      | thrown =>
        refine h.settle ?_ (fun hsome => absurd rfl hsome) (fun _ _ => nofun) rfl rfl nofun
          (Nat.le_refl _) fun _ _ => rfl
        rw [hnone]
        rfl
  · cases hstep

/-- **What every step keeps**, if it is careful. -/
theorem step_inv {e : Event} (h : Inv w) (hcareful : Careful w e) (hstep : step w e = some w') :
    Inv w' := by
  cases e with
  | enqueue id path method body queuedAt => exact h.enqueue hcareful hstep
  | remove id =>
    obtain rfl := Option.some.inj hstep
    refine h.keep hcareful.1 (fun op op' hid => by rw [hid]) fun op _ hop => ?_
    have hid : op.id = id := by simpa using hop
    exact hid ▸ hcareful.2
  | clear =>
    obtain rfl := Option.some.inj hstep
    exact h.keep hcareful.1 (fun _ _ _ => rfl) fun op hop _ => hcareful.2 op hop
  | replay online =>
    have hnoted (n : Nat) : Inv (w.note [.replayed 0 0 n]) := h.note rfl trivial nofun
    simp only [step] at hstep
    split at hstep
    · rename_i hqueue
      obtain rfl := Option.some.inj hstep
      exact h.replay (by rw [hqueue]; simp)
    · obtain rfl := Option.some.inj hstep
      exact hnoted _
  | headers =>
    simp only [step] at hstep
    split at hstep
    · rename_i r hr
      split_ifs at hstep with hawait
      obtain rfl := Option.some.inj hstep
      exact h.send hr hawait
    · cases hstep
  | answer status online =>
    simp only [step] at hstep
    split at hstep
    · rename_i r hr
      split_ifs at hstep
      obtain rfl := Option.some.inj hstep
      exact h.answer hr hcareful
    · cases hstep
  | text text online =>
    simp only [step] at hstep
    split at hstep
    · rename_i r hr
      split at hstep
      · obtain rfl := Option.some.inj hstep
        exact h.read hr ‹_›
      · cases hstep
    · cases hstep
  | elapsed online =>
    simp only [step] at hstep
    split at hstep
    · rename_i r hr
      split at hstep
      · obtain rfl := Option.some.inj hstep
        exact h.stop hr h.toHeld rfl ((h.replaying r hr).delay _ ‹_›) _ _ online
      · cases hstep
    · cases hstep
  | thrown message =>
    simp only [step] at hstep
    split at hstep
    · rename_i r hr
      split_ifs at hstep
      obtain rfl := Option.some.inj hstep
      exact (h.toHeld.fail _ _).finish _ _ (h.replaying r hr).toRemove
    · cases hstep
  | decryptIfNeeded =>
    simp only [step] at hstep
    split_ifs at hstep
    · exact Option.some.inj hstep ▸ h
    · obtain rfl := Option.some.inj hstep
      refine h.settle rfl h.waiting (fun raw hraw => ?_) rfl rfl h.refs (Nat.le_refl _) fun _ _ => rfl
      rcases List.mem_append.mp hraw with hraw | hraw
      · exact h.decrypting raw hraw
      · cases List.mem_singleton.mp hraw
  | imported i =>
    simp only [step] at hstep
    split at hstep
    · obtain rfl := Option.some.inj hstep
      refine h.settle rfl h.waiting (fun raw hraw => ?_) rfl rfl h.refs (Nat.le_refl _) fun _ _ => rfl
      rcases List.mem_or_eq_of_mem_set hraw with hraw | hraw
      · exact h.decrypting raw hraw
      · intro raw' hraw'
        rw [Decrypting.reading.inj hraw, show w.page.encryptedRaw = some raw' from hraw']
        rfl
    · cases hstep
  | decrypted i result => exact h.decrypted hcareful hstep
  | saved i encrypted =>
    simp only [step, Option.map_eq_some_iff] at hstep
    obtain ⟨json, hjson, rfl⟩ := hstep
    refine ⟨{ h.toHeld with
      stored := ?_
      saving := fun json' hjson' => h.saving json' (List.mem_of_mem_eraseIdx hjson') },
      fun r hr => { h.replaying r hr with }⟩
    dsimp only
    split_ifs
    · exact h.saving json (List.mem_of_getElem? hjson)
    · exact h.stored
  | reload =>
    obtain rfl := Option.some.inj hstep
    refine inv_load (fun id hid => ?_) h.lawful h.nodup h.stored hcareful.2 h.known
    exact (h.pending id hid).imp_left (hcareful.1 id)

/-- **No operation is lost, each is accepted in order, and none is sent after it was removed**, in
every run whose steps are careful. -/
theorem kept_of_careful {events : List Event} (h : Initial w) (hcareful : Along step Careful w events)
    (hrun : run step w events = some w') : Kept w' := by
  have hinv : Inv w' :=
    run_inv_along (fun _ _ _ hi hc hstep => step_inv hi hc hstep) h.inv hcareful hrun
  exact hinv.toKept

/-! ## Two runs -/

/-- Nothing is stored. -/
def installed : World := ⟨load none, none, []⟩

theorem installed_initial : Initial installed := ⟨rfl, rfl, List.nodup_nil⟩

def enqueueNote (id : String) : Event :=
  .enqueue id "/notes" "POST" (some "ciphertext") "2026-10-02T12:00:00.000Z"

/-- Two notes are queued, and the page is reloaded when they have been stored; the replay has to
leave the second one. -/
def patient : List Event :=
  [enqueueNote "a", enqueueNote "b", .saved 1 true, .reload, .decryptIfNeeded, .imported 0,
    .decrypted 0 .content, .replay true, .headers, .answer 201 true, .headers, .answer 503 true,
    .elapsed true]

theorem patient_kept : ∃ w, run step installed patient = some w ∧ Kept w := by
  have hcareful : Along step Careful installed patient := by decide
  exact ⟨_, rfl, kept_of_careful installed_initial hcareful rfl⟩

/-- A note that is removed while the one before it is sent, and is sent nevertheless. -/
def impatient : List Event :=
  [enqueueNote "a", enqueueNote "b", .replay true, .headers, .remove "b", .answer 201 true, .headers]

theorem removed_is_sent :
    ∃ w, Initial installed ∧ run step installed impatient = some w ∧ ¬ Kept w := by
  refine ⟨_, installed_initial, rfl, fun h => ?_⟩
  refine h.lawful [.queued "a", .queued "b", .sent _, .removed "b", .accepted "a"] (.sent _) [] rfl ?_
  exact List.mem_of_getElem? (i := 3) rfl

end Llamenos.Client.OfflineQueue
