import Llamenos.Lib.Counters
import Llamenos.Lib.Runs
import Llamenos.Worker.Subscribers

/-!
# Conversations

`ConversationsService` of `apps/worker/services/conversations.ts` over the tables of
`apps/worker/db/schema/conversations.ts`, with the webhook of `apps/worker/messaging/router.ts` that
hands it the messages, and `tryAutoAssign` there.

One SQL statement is one step; a method of several statements leaves what it has read in a task, and
goes on later. No row goes away, so that `addMessage` finds the conversation it has looked for. A
run is any interleaving of the statements of any number of calls. What is encrypted, the files, the
metadata and the contact identifiers are left out, and so is the deployment that has no HMAC secret.

Results:
* `step_conversations`: **what a step does to the conversations**.
* `bestCandidate_spec`: whom `tryAutoAssign` chooses.
-/

namespace Llamenos.Worker.Conversations

open Llamenos.Lib Llamenos.Lib.Counters
open Llamenos.Worker.Subscribers (MessagingChannelType)

/-! ## The tables -/

inductive ConversationStatus where
  | active
  | waiting
  | closed
  deriving DecidableEq

inductive MessageDeliveryStatus where
  | pending
  | sent
  | delivered
  | read
  | failed
  deriving DecidableEq

inductive Channel where
  | messaging (type : MessagingChannelType)
  | web
  deriving DecidableEq

inductive Direction where
  | inbound
  | outbound
  deriving DecidableEq

/-- A row of `conversations`. -/
structure Conversation where
  id : String
  hubId : Option String
  channelType : Channel
  contactIdentifierHash : String
  assignedTo : Option String := none
  status : ConversationStatus := .waiting
  updatedAt : Int
  lastMessageAt : Option Int
  messageCount : Nat := 0
  deriving DecidableEq

/-- A row of `messages`. -/
structure Message where
  id : String
  conversationId : String
  direction : Direction
  externalId : Option String := none
  status : Option MessageDeliveryStatus := some .sent
  deliveredAt : Option Int := none
  readAt : Option Int := none
  failureReason : Option String := none
  deriving DecidableEq

structure Db where
  conversations : List Conversation := []
  messages : List Message := []

/-- What a method throws. -/
inductive ConversationsError where
  | service (status : Nat) (message : String)
  | uniqueViolation

variable (db : Db)

/-- `UPDATE conversations SET … WHERE id = …`. -/
def updateConversation (id : String) (set : Conversation → Conversation) : Db :=
  { db with conversations := update Conversation.id db.conversations id set }

/-! ## Conversations -/

structure CreateConversationInput where
  hubId : Option String := none
  channelType : Option Channel := none
  contactIdentifierHash : Option String := none
  assignedTo : Option String := none
  status : Option ConversationStatus := none

/-- The row that `create` inserts. -/
def create (id : String) (input : CreateConversationInput) (now : Int) : Conversation where
  id := id
  hubId := input.hubId
  channelType := input.channelType.getD .web
  contactIdentifierHash := input.contactIdentifierHash.getD ""
  assignedTo := input.assignedTo
  status := input.status.getD .waiting
  updatedAt := now
  lastMessageAt := some now

def getById (id : String) : Except ConversationsError Conversation :=
  match db.conversations.find? fun row => row.id = id with
  | some row => .ok row
  | none => .error (.service 404 "Conversation not found")

/-- What to update, where given; an `assignedTo` that is given may be `null`. -/
structure UpdateConversationInput where
  status : Option ConversationStatus := none
  assignedTo : Option (Option String) := none

/-- What the `UPDATE` of `update` sets. -/
def UpdateConversationInput.set (input : UpdateConversationInput) (now : Int)
    (row : Conversation) : Conversation :=
  { row with
    status := input.status.getD row.status
    assignedTo := input.assignedTo.getD row.assignedTo
    updatedAt := now }

/-- The `SELECT` of `claim`, and what it is checked for. -/
def claimable (id : String) : Except ConversationsError Conversation :=
  match getById db id with
  | .error e => .error e
  | .ok existing =>
    if existing.status ≠ .waiting then
      .error (.service 400 "Conversation is not in waiting state")
    else .ok existing

/-- What the `UPDATE` of `claim` sets. -/
def claimed (pubkey : String) (now : Int) (row : Conversation) : Conversation :=
  { row with assignedTo := some pubkey, status := .active, updatedAt := now }

/-- What the `UPDATE` of `autoCloseInactive` makes of a row. -/
def autoClosed (cutoff now : Int) (row : Conversation) : Conversation :=
  if (row.status = .active ∨ row.status = .waiting) ∧ ∃ last ∈ row.lastMessageAt, last < cutoff then
    { row with status := .closed, updatedAt := now }
  else row

def autoCloseInactive (cutoff now : Int) : Db :=
  { db with conversations := db.conversations.map (autoClosed cutoff now) }

/-! ## Messages -/

structure AddMessageInput where
  conversationId : String
  direction : Direction
  externalId : Option String := none
  status : Option MessageDeliveryStatus := none
  failureReason : Option String := none

/-- The row that `addMessage` inserts. -/
def AddMessageInput.message (input : AddMessageInput) (id : String) : Message where
  id := id
  conversationId := input.conversationId
  direction := input.direction
  externalId := input.externalId
  status := match input.direction with
    | .outbound => some (input.status.getD .pending)
    | .inbound => some (input.status.getD .sent)
  failureReason := input.failureReason

/-- The primary key and the partial unique index of `messages` admit the row. -/
def admits (msg : Message) : Bool :=
  db.messages.all fun row =>
    row.id ≠ msg.id && (msg.externalId.isNone || row.externalId ≠ msg.externalId)

/-- The `SELECT` and the `INSERT` of `addMessage`. -/
def insertMessage (input : AddMessageInput) (id : String) : Except ConversationsError Db :=
  match getById db input.conversationId with
  | .error e => .error e
  | .ok _ =>
    if admits db (input.message id) then
      .ok { db with messages := db.messages ++ [input.message id] }
    else .error .uniqueViolation

/-- What the `UPDATE` of `addMessage` sets. -/
def touched (now : Int) (row : Conversation) : Conversation :=
  { row with lastMessageAt := some now, updatedAt := now, messageCount := row.messageCount + 1 }

structure MessageStatusUpdate where
  externalId : String
  status : MessageDeliveryStatus
  timestamp : Int
  failureReason : Option String := none
  deriving DecidableEq

def statusOrder : MessageDeliveryStatus → Nat
  | .pending => 0
  | .sent => 1
  | .delivered => 2
  | .read => 3
  | .failed => 3

/-- The `SELECT` of `updateMessageStatus`. -/
def selectMessage (externalId : String) : Option Message :=
  db.messages.find? fun row => row.externalId = some externalId

/-- The update is not returned early, by the message as it has been read. -/
def advances (msg : Message) (update : MessageStatusUpdate) : Bool :=
  !(decide (statusOrder update.status ≤ statusOrder (msg.status.getD .pending)) &&
    decide (update.status ≠ .failed))

/-- What the `UPDATE` of `updateMessageStatus` sets, by the message as it has been read. -/
def marked (msg : Message) (update : MessageStatusUpdate) (row : Message) : Message :=
  match update.status with
  | .delivered => { row with status := some .delivered, deliveredAt := some update.timestamp }
  | .read =>
    { row with
      status := some .read
      readAt := some update.timestamp
      deliveredAt := if msg.deliveredAt = none then some update.timestamp else row.deliveredAt }
  | .failed =>
    { row with status := some .failed, failureReason := update.failureReason.or row.failureReason }
  | status => { row with status := some status }

def markMessage (msg : Message) (update : MessageStatusUpdate) : Db :=
  { db with messages := Counters.update Message.id db.messages msg.id (marked msg update) }

/-! ## Inbound messages -/

structure IncomingMessage where
  channelType : MessagingChannelType
  externalId : String
  senderIdentifierHash : String

/-- The conversations that `handleIncoming` looks for. -/
def matchesSender (hubId : Option String) (incoming : IncomingMessage) (row : Conversation) :
    Bool :=
  row.channelType = .messaging incoming.channelType &&
    row.contactIdentifierHash = incoming.senderIdentifierHash &&
    row.hubId = hubId.filter (· ≠ "")

/-- What `ORDER BY updated_at DESC LIMIT 1` may return. -/
def isLatest (hubId : Option String) (incoming : IncomingMessage) :
    Option Conversation → Bool
  | none => db.conversations.all fun row => !matchesSender hubId incoming row
  | some conv =>
    db.conversations.contains conv && matchesSender hubId incoming conv &&
      db.conversations.all fun row =>
        !matchesSender hubId incoming row || row.updatedAt ≤ conv.updatedAt

/-- What the `UPDATE` of a closed conversation sets. -/
def reopened (now : Int) (row : Conversation) : Conversation :=
  { row with status := .waiting, updatedAt := now, lastMessageAt := some now }

/-- The row that `handleIncoming` inserts. -/
def IncomingMessage.conversation (incoming : IncomingMessage) (hubId : Option String) (id : String)
    (now : Int) : Conversation where
  id := id
  hubId := hubId
  channelType := .messaging incoming.channelType
  contactIdentifierHash := incoming.senderIdentifierHash
  updatedAt := now
  lastMessageAt := some now

/-- The message that `handleIncoming` adds. -/
def IncomingMessage.message (incoming : IncomingMessage) (conversationId : String) :
    AddMessageInput where
  conversationId := conversationId
  direction := .inbound
  externalId := some incoming.externalId

/-! ## Auto-assignment -/

/-- A user, as far as `tryAutoAssign` looks at one. -/
structure User where
  pubkey : String
  active : Bool := true
  onBreak : Bool := false
  messagingEnabled : Option Bool := none
  supportedMessagingChannels : Option (List MessagingChannelType) := none

/-- What `getAllVolunteerLoads` counts for a volunteer, over all hubs. -/
def volunteerLoad (pubkey : String) : Nat :=
  if pubkey = "" then 0
  else db.conversations.countP fun row => row.assignedTo = some pubkey && row.status ≠ .closed

def isEligible (onShiftPubkeys : List String) (channelType : MessagingChannelType) (v : User) :
    Bool :=
  v.pubkey ∈ onShiftPubkeys && v.active && !v.onBreak && v.messagingEnabled ≠ some false &&
    ((v.supportedMessagingChannels.getD []).isEmpty ||
      channelType ∈ v.supportedMessagingChannels.getD [])

/-- One turn of the loop: the best candidate with its load. -/
def better (maxConcurrent : Nat) (load : String → Nat) (best : Option (String × Nat)) (vol : User) :
    Option (String × Nat) :=
  if load vol.pubkey < maxConcurrent ∧ ∀ low ∈ best, load vol.pubkey < low.2 then
    some (vol.pubkey, load vol.pubkey)
  else best

/-- The least-loaded volunteer under the maximum; a pubkey that is empty is none. -/
def bestCandidate (maxConcurrent : Nat) (load : String → Nat) (eligible : List User) :
    Option String :=
  ((eligible.foldl (better maxConcurrent load) none).map Prod.fst).filter (· ≠ "")

/-- What `tryAutoAssign` reads before the loads. -/
structure AutoAssignment where
  autoAssign : Bool
  maxConcurrentPerUser : Option Nat
  onShiftPubkeys : List String
  users : List User
  channelType : MessagingChannelType

/-- Whom `tryAutoAssign` claims the conversation for. -/
def AutoAssignment.candidate (config : AutoAssignment) : Option String :=
  if config.autoAssign then
    bestCandidate
      (match config.maxConcurrentPerUser with
      | none | some 0 => 3
      | some n => n)
      (volunteerLoad db) (config.users.filter (isEligible config.onShiftPubkeys config.channelType))
  else none

/-! ## Runs -/

/-- A method between two of its statements. A message that came through the webhook goes with the
hub of its URL, and with the hub that `handleIncoming` was given. -/
inductive Task where
  | assign (id pubkey : String)
  | claim (id pubkey : String)
  | update (id : String) (input : UpdateConversationInput)
  | mark (msg : Message) (update : MessageStatusUpdate)
  | reopen (hub : Option String) (incoming : IncomingMessage) (conv : Conversation)
  | create (hub hubId : Option String) (incoming : IncomingMessage)
  | add (hub : Option String) (input : AddMessageInput)
  | touch (conversationId : String)

structure System where
  db : Db
  tasks : Nat → Option Task := fun _ => none

inductive Event where
  | create (id : String) (input : CreateConversationInput) (now : Int)
  | update (task : Nat) (id : String) (input : UpdateConversationInput)
  | updateWrite (task : Nat) (now : Int)
  | claim (task : Nat) (id pubkey : String)
  | claimWrite (task : Nat) (now : Int)
  | autoAssign (task : Nat) (id : String) (config : AutoAssignment)
  | assign (task : Nat)
  | autoCloseInactive (cutoff now : Int)
  | sendMessage (task : Nat) (id : String) (input : AddMessageInput)
  | updateMessageStatus (task : Nat) (update : MessageStatusUpdate)
  | markWrite (task : Nat)
  | webhook (task : Nat) (hub : Option String) (incoming : IncomingMessage)
      (found : Option Conversation)
  | reopenWrite (task : Nat) (now : Int)
  | createWrite (task : Nat) (id : String) (now : Int)
  | addMessage (task : Nat) (id : String)
  | touch (task : Nat) (now : Int)

/-- A task goes on, or ends, and leaves the tables changed. -/
def System.put (s : System) (task : Nat) (t : Option Task) (db : Db) : System :=
  { s with db := db, tasks := Function.update s.tasks task t }

/-- Begins a task under a number that is free. -/
def System.begin (s : System) (task : Nat) (t : Task) : Option System :=
  match s.tasks task with
  | none => some (s.put task (some t) s.db)
  | some _ => none

/-- An id that `crypto.randomUUID()` may give a conversation. -/
def isNew (id : String) : Bool := db.conversations.all fun row => row.id ≠ id

/-- The task of `handleIncoming` after its `SELECT`. -/
def handleIncoming (hub hubId : Option String) (incoming : IncomingMessage) :
    Option Conversation → Task
  | none => .create hub hubId incoming
  | some conv =>
    if conv.status = .closed then .reopen hub incoming conv
    else .add hub (incoming.message conv.id)

def step (s : System) : Event → Option System
  | .create id input now =>
    if isNew s.db id then
      some { s with db := { s.db with
        conversations := s.db.conversations ++ [create id input now] } }
    else none
  | .update task id input =>
    match getById s.db id with
    | .error _ => some s
    | .ok _ => s.begin task (.update id input)
  | .updateWrite task now =>
    match s.tasks task with
    | some (.update id input) => some (s.put task none (updateConversation s.db id (input.set now)))
    | _ => none
  | .claim task id pubkey =>
    match claimable s.db id with
    | .error _ => some s
    | .ok _ => s.begin task (.claim id pubkey)
  | .claimWrite task now =>
    match s.tasks task with
    | some (.claim id pubkey) =>
      some (s.put task none (updateConversation s.db id (claimed pubkey now)))
    | _ => none
  | .autoAssign task id config =>
    match config.candidate s.db with
    | none => some s
    | some pubkey => s.begin task (.assign id pubkey)
  | .assign task =>
    match s.tasks task with
    | some (.assign id pubkey) =>
      match claimable s.db id with
      | .error _ => some (s.put task none s.db)
      | .ok _ => some (s.put task (some (.claim id pubkey)) s.db)
    | _ => none
  | .autoCloseInactive cutoff now => some { s with db := autoCloseInactive s.db cutoff now }
  | .sendMessage task id input =>
    match insertMessage s.db input id with
    | .error _ => some s
    | .ok db => ({ s with db := db } : System).begin task (.touch input.conversationId)
  | .updateMessageStatus task update =>
    match selectMessage s.db update.externalId with
    | none => some s
    | some msg => if advances msg update then s.begin task (.mark msg update) else some s
  | .markWrite task =>
    match s.tasks task with
    | some (.mark msg update) => some (s.put task none (markMessage s.db msg update))
    | _ => none
  -- the router hands the message on without the hub
  | .webhook task hub incoming found =>
    if isLatest s.db none incoming found then s.begin task (handleIncoming hub none incoming found)
    else none
  | .reopenWrite task now =>
    match s.tasks task with
    | some (.reopen hub incoming conv) =>
      some (s.put task (some (.add hub (incoming.message conv.id)))
        (updateConversation s.db conv.id (reopened now)))
    | _ => none
  | .createWrite task id now =>
    match s.tasks task with
    | some (.create hub hubId incoming) =>
      if isNew s.db id then
        some (s.put task (some (.add hub (incoming.message id))) { s.db with
          conversations := s.db.conversations ++ [incoming.conversation hubId id now] })
      else none
    | _ => none
  | .addMessage task id =>
    match s.tasks task with
    | some (.add _ input) =>
      match insertMessage s.db input id with
      | .error _ => some (s.put task none s.db)
      | .ok db => some (s.put task (some (.touch input.conversationId)) db)
    | _ => none
  | .touch task now =>
    match s.tasks task with
    | some (.touch id) => some (s.put task none (updateConversation s.db id (touched now)))
    | _ => none

/-! ## What a step does to the conversations -/

/-- What the step makes of each conversation. -/
def written (s : System) (e : Event) (row : Conversation) : Conversation :=
  match e with
  | .updateWrite task now =>
    match s.tasks task with
    | some (.update id input) => if row.id = id then input.set now row else row
    | _ => row
  | .claimWrite task now =>
    match s.tasks task with
    | some (.claim id pubkey) => if row.id = id then claimed pubkey now row else row
    | _ => row
  | .autoCloseInactive cutoff now => autoClosed cutoff now row
  | .reopenWrite task now =>
    match s.tasks task with
    | some (.reopen _ _ conv) => if row.id = conv.id then reopened now row else row
    | _ => row
  | .touch task now =>
    match s.tasks task with
    | some (.touch id) => if row.id = id then touched now row else row
    | _ => row
  | _ => row

/-- The conversations that the step adds. -/
def added (s : System) : Event → List Conversation
  | .create id input now => [create id input now]
  | .createWrite task id now =>
    match s.tasks task with
    | some (.create _ hubId incoming) => [incoming.conversation hubId id now]
    | _ => []
  | _ => []

variable {db} {s s' : System} {e : Event}
variable {task : Nat}

theorem begin_eq_some {t : Task} (h : s.begin task t = some s') :
    s.tasks task = none ∧ s' = s.put task (some t) s.db := by
  rw [System.begin] at h
  cases htask : s.tasks task with
  | some _ => rw [htask] at h; cases h
  | none =>
    rw [htask] at h
    exact ⟨rfl, (Option.some.inj h).symm⟩

/-- What begins a task leaves the tables. -/
theorem begin_db {t : Task} (h : s.begin task t = some s') : s'.db = s.db := by
  rw [(begin_eq_some h).2]
  rfl
variable {id : String}

theorem insertMessage_eq_ok {input : AddMessageInput} {db' : Db}
    (h : insertMessage db input id = .ok db') :
    admits db (input.message id) ∧
      db' = { db with messages := db.messages ++ [input.message id] } := by
  rw [insertMessage] at h
  cases hget : getById db input.conversationId with
  | error _ => rw [hget] at h; cases h
  | ok _ =>
    simp only [hget] at h
    split_ifs at h with hadmits
    exact ⟨hadmits, (Except.ok.inj h).symm⟩

theorem written_updateWrite {input : UpdateConversationInput}
    (htask : s.tasks task = some (.update id input)) (now : Int) (row : Conversation) :
    written s (.updateWrite task now) row = if row.id = id then input.set now row else row := by
  simp only [written, htask]

theorem written_claimWrite {id pubkey : String}
    (htask : s.tasks task = some (.claim id pubkey)) (now : Int) (row : Conversation) :
    written s (.claimWrite task now) row = if row.id = id then claimed pubkey now row else row := by
  simp only [written, htask]

theorem written_reopenWrite {hub : Option String} {incoming : IncomingMessage}
    {conv : Conversation} (htask : s.tasks task = some (.reopen hub incoming conv)) (now : Int)
    (row : Conversation) :
    written s (.reopenWrite task now) row =
      if row.id = conv.id then reopened now row else row := by
  simp only [written, htask]

theorem written_touch (htask : s.tasks task = some (.touch id))
    (now : Int) (row : Conversation) :
    written s (.touch task now) row = if row.id = id then touched now row else row := by
  simp only [written, htask]

theorem added_createWrite {hub hubId : Option String} {incoming : IncomingMessage}
    (htask : s.tasks task = some (.create hub hubId incoming)) (id : String) (now : Int) :
    added s (.createWrite task id now) = [incoming.conversation hubId id now] := by
  simp only [added, htask]

/-! ### Statements that go on with a task -/

theorem step_updateWrite {now : Int} (h : step s (.updateWrite task now) = some s') :
    ∃ id input, s.tasks task = some (.update id input) ∧
      s' = s.put task none (updateConversation s.db id (input.set now)) := by
  rw [step] at h
  split at h
  case h_1 id input htask => exact ⟨id, input, htask, (Option.some.inj h).symm⟩
  case h_2 => cases h

theorem step_claimWrite {now : Int} (h : step s (.claimWrite task now) = some s') :
    ∃ id pubkey, s.tasks task = some (.claim id pubkey) ∧
      s' = s.put task none (updateConversation s.db id (claimed pubkey now)) := by
  rw [step] at h
  split at h
  case h_1 id pubkey htask => exact ⟨id, pubkey, htask, (Option.some.inj h).symm⟩
  case h_2 => cases h

theorem step_reopenWrite {now : Int} (h : step s (.reopenWrite task now) = some s') :
    ∃ hub incoming conv, s.tasks task = some (.reopen hub incoming conv) ∧
      s' = s.put task (some (.add hub (incoming.message conv.id)))
        (updateConversation s.db conv.id (reopened now)) := by
  rw [step] at h
  split at h
  case h_1 hub incoming conv htask => exact ⟨hub, incoming, conv, htask, (Option.some.inj h).symm⟩
  case h_2 => cases h

theorem step_createWrite {now : Int}
    (h : step s (.createWrite task id now) = some s') :
    ∃ hub hubId incoming, s.tasks task = some (.create hub hubId incoming) ∧ isNew s.db id ∧
      s' = s.put task (some (.add hub (incoming.message id))) { s.db with
        conversations := s.db.conversations ++ [incoming.conversation hubId id now] } := by
  rw [step] at h
  split at h
  case h_1 hub hubId incoming htask =>
    split_ifs at h with hnew
    exact ⟨hub, hubId, incoming, htask, hnew, (Option.some.inj h).symm⟩
  case h_2 => cases h

theorem step_addMessage (h : step s (.addMessage task id) = some s') :
    ∃ hub input, s.tasks task = some (.add hub input) ∧
      ((∃ error, insertMessage s.db input id = .error error ∧ s' = s.put task none s.db) ∨
        ∃ db, insertMessage s.db input id = .ok db ∧
          s' = s.put task (some (.touch input.conversationId)) db) := by
  rw [step] at h
  split at h
  case h_1 hub input htask =>
    refine ⟨hub, input, htask, ?_⟩
    split at h
    case h_1 error hinsert => exact .inl ⟨error, hinsert, (Option.some.inj h).symm⟩
    case h_2 db hinsert => exact .inr ⟨db, hinsert, (Option.some.inj h).symm⟩
  case h_2 => cases h

theorem step_touch {now : Int} (h : step s (.touch task now) = some s') :
    ∃ id, s.tasks task = some (.touch id) ∧
      s' = s.put task none (updateConversation s.db id (touched now)) := by
  rw [step] at h
  split at h
  case h_1 id htask => exact ⟨id, htask, (Option.some.inj h).symm⟩
  case h_2 => cases h

/-! ### Every statement -/

/-- A step that neither writes a conversation nor adds one. -/
theorem conversations_same (hwritten : ∀ row, written s e row = row) (hadded : added s e = [])
    (h : s'.db.conversations = s.db.conversations) :
    s'.db.conversations = s.db.conversations.map (written s e) ++ added s e := by
  rw [h, hadded, List.append_nil, List.map_congr_left fun row _ => hwritten row]
  exact (List.map_id' _).symm

/-- A step that sets the conversation of an id. -/
theorem conversations_set {set : Conversation → Conversation}
    {t : Option Task} (hwritten : ∀ row, written s e row = if row.id = id then set row else row)
    (hadded : added s e = []) (h : s' = s.put task t (updateConversation s.db id set)) :
    s'.db.conversations = s.db.conversations.map (written s e) ++ added s e := by
  rw [h, hadded, List.append_nil]
  exact List.map_congr_left fun row _ => (hwritten row).symm

/-- A step that adds a conversation. -/
theorem conversations_add {row : Conversation} (hwritten : ∀ row, written s e row = row)
    (hadded : added s e = [row]) (h : s'.db.conversations = s.db.conversations ++ [row]) :
    s'.db.conversations = s.db.conversations.map (written s e) ++ added s e := by
  rw [h, hadded, List.map_congr_left fun row _ => hwritten row, List.map_id']

/-- **What a step does to the conversations**: it writes some and adds some. -/
theorem step_conversations (h : step s e = some s') :
    s'.db.conversations = s.db.conversations.map (written s e) ++ added s e := by
  cases e with
  | create id input now =>
    rw [step] at h
    split_ifs at h
    exact conversations_add (fun _ => rfl) rfl (by rw [← Option.some.inj h])
  | update task id _ | claim task id _ | autoAssign task id _ =>
    refine conversations_same (fun _ => rfl) rfl ?_
    rw [step] at h
    split at h
    · rw [Option.some.inj h]
    · rw [begin_db h]
  | updateWrite task now =>
    obtain ⟨id, input, htask, hs'⟩ := step_updateWrite h
    exact conversations_set (written_updateWrite htask now) rfl hs'
  | claimWrite task now =>
    obtain ⟨id, pubkey, htask, hs'⟩ := step_claimWrite h
    exact conversations_set (written_claimWrite htask now) rfl hs'
  | assign task =>
    refine conversations_same (fun _ => rfl) rfl ?_
    rw [step] at h
    split at h
    case h_1 => split at h <;> rw [← Option.some.inj h] <;> rfl
    case h_2 => cases h
  | autoCloseInactive cutoff now =>
    rw [← Option.some.inj h, show added s (.autoCloseInactive cutoff now) = [] from rfl,
      List.append_nil]
    rfl
  | sendMessage task id input =>
    refine conversations_same (fun _ => rfl) rfl ?_
    rw [step] at h
    split at h
    case h_1 => rw [Option.some.inj h]
    case h_2 db hinsert => rw [begin_db h, (insertMessage_eq_ok hinsert).2]
  | updateMessageStatus task update =>
    refine conversations_same (fun _ => rfl) rfl ?_
    rw [step] at h
    split at h
    · rw [Option.some.inj h]
    · split_ifs at h
      · rw [begin_db h]
      · rw [Option.some.inj h]
  | markWrite task =>
    refine conversations_same (fun _ => rfl) rfl ?_
    rw [step] at h
    split at h
    case h_1 => rw [← Option.some.inj h]; rfl
    case h_2 => cases h
  | webhook task hub incoming found =>
    refine conversations_same (fun _ => rfl) rfl ?_
    rw [step] at h
    split_ifs at h
    rw [begin_db h]
  | reopenWrite task now =>
    obtain ⟨hub, incoming, conv, htask, hs'⟩ := step_reopenWrite h
    exact conversations_set (written_reopenWrite htask now) rfl hs'
  | createWrite task id now =>
    obtain ⟨hub, hubId, incoming, htask, -, rfl⟩ := step_createWrite h
    exact conversations_add (fun _ => rfl) (added_createWrite htask id now) rfl
  | addMessage task id =>
    refine conversations_same (fun _ => rfl) rfl ?_
    obtain ⟨hub, input, -, ⟨error, -, rfl⟩ | ⟨db, hinsert, rfl⟩⟩ := step_addMessage h
    · rfl
    · rw [(insertMessage_eq_ok hinsert).2]
      rfl
  | touch task now =>
    obtain ⟨id, htask, hs'⟩ := step_touch h
    exact conversations_set (written_touch htask now) rfl hs'

/-- The hub, the channel and the sender of a conversation, which no step changes. -/
def Conversation.sender (row : Conversation) : Option String × Channel × String :=
  (row.hubId, row.channelType, row.contactIdentifierHash)

/-- What no statement sets, a step leaves. -/
theorem written_same {γ : Type} (f : Conversation → γ)
    (hf : ∀ row assignedTo status updatedAt lastMessageAt messageCount,
      f { row with assignedTo, status, updatedAt, lastMessageAt, messageCount } = f row)
    (row : Conversation) : f (written s e row) = f row := by
  have hif : ∀ {p : Prop} [Decidable p] {set : Conversation → Conversation},
      f (set row) = f row → f (if p then set row else row) = f row := by
    intro p _ set hset
    split_ifs
    · exact hset
    · rfl
  unfold written
  split
  · split
    · exact hif (hf ..)
    · rfl
  · split
    · exact hif (hf ..)
    · rfl
  · unfold autoClosed
    split_ifs
    · exact hf ..
    · rfl
  · split
    · exact hif (hf ..)
    · rfl
  · split
    · exact hif (hf ..)
    · rfl
  · rfl

@[simp] theorem written_id (row : Conversation) : (written s e row).id = row.id :=
  written_same Conversation.id (fun _ _ _ _ _ _ => rfl) row

@[simp] theorem written_sender (row : Conversation) : (written s e row).sender = row.sender :=
  written_same Conversation.sender (fun _ _ _ _ _ _ => rfl) row

theorem of_isNew (h : isNew db id) : id ∉ db.conversations.map Conversation.id := by
  intro hmem
  obtain ⟨row, hrow, rfl⟩ := List.mem_map.mp hmem
  simpa using List.all_eq_true.mp h row hrow

/-- At most one conversation is added, under an id that is new. -/
theorem added_cases (h : step s e = some s') :
    added s e = [] ∨
      ∃ row, added s e = [row] ∧ row.id ∉ s.db.conversations.map Conversation.id := by
  cases e with
  | create id input now =>
    rw [step] at h
    split_ifs at h with hnew
    exact .inr ⟨create id input now, rfl, of_isNew hnew⟩
  | createWrite task id now =>
    obtain ⟨hub, hubId, incoming, htask, hnew, -⟩ := step_createWrite h
    exact .inr ⟨incoming.conversation hubId id now, added_createWrite htask id now, of_isNew hnew⟩
  | _ => exact .inl rfl

/-- The ids stay different. -/
theorem step_nodup (hids : (s.db.conversations.map Conversation.id).Nodup)
    (h : step s e = some s') : (s'.db.conversations.map Conversation.id).Nodup := by
  have hsame : (s.db.conversations.map (written s e)).map Conversation.id =
      s.db.conversations.map Conversation.id := by
    rw [List.map_map]
    exact List.map_congr_left fun row _ => written_id row
  rw [step_conversations h, List.map_append, hsame]
  rcases added_cases h with hnone | ⟨row, hone, hnew⟩
  · rw [hnone, List.map_nil, List.append_nil]
    exact hids
  · rw [hone, List.map_singleton, ← List.concat_eq_append]
    exact hids.concat hnew

/-! ## Whom a conversation is given to -/

/-- The best candidate so far, of those looked at. -/
structure IsBest (maxConcurrent : Nat) (load : String → Nat) (vols : List User)
    (best : Option (String × Nat)) : Prop where
  of : ∀ b ∈ best, b.2 = load b.1 ∧ b.2 < maxConcurrent ∧ ∃ vol ∈ vols, vol.pubkey = b.1
  least : ∀ vol ∈ vols, load vol.pubkey < maxConcurrent → ∃ b ∈ best, b.2 ≤ load vol.pubkey

theorem foldl_better (maxConcurrent : Nat) (load : String → Nat) (vols : List User) :
    IsBest maxConcurrent load vols (vols.foldl (better maxConcurrent load) none) := by
  induction vols using List.reverseRecOn with
  | nil => exact ⟨(fun _ hb => by cases hb), fun _ hvol => by cases hvol⟩
  | append_singleton vols vol ih =>
    rw [List.foldl_append, List.foldl_cons, List.foldl_nil]
    generalize vols.foldl (better maxConcurrent load) none = best at ih
    unfold better
    split_ifs with hbetter
    · refine ⟨fun b hb => ?_, fun v hv hmax => ?_⟩
      · obtain rfl := Option.some.inj hb
        exact ⟨rfl, hbetter.1, vol, by simp⟩
      · refine ⟨_, rfl, ?_⟩
        rcases List.mem_append.mp hv with hv | hv
        · obtain ⟨b, hb, hle⟩ := ih.least v hv hmax
          exact (hbetter.2 b hb).le.trans hle
        · rw [List.mem_singleton.mp hv]
    · refine ⟨fun b hb => ?_, fun v hv hmax => ?_⟩
      · obtain ⟨hload, hlt, v, hv, hkey⟩ := ih.of b hb
        exact ⟨hload, hlt, v, List.mem_append_left _ hv, hkey⟩
      · rcases List.mem_append.mp hv with hv | hv
        · exact ih.least v hv hmax
        · rw [List.mem_singleton.mp hv] at hmax ⊢
          push Not at hbetter
          exact hbetter hmax

/-- **Whom `tryAutoAssign` chooses**: a least-loaded eligible volunteer, under the maximum. -/
theorem bestCandidate_spec {maxConcurrent : Nat} {load : String → Nat} {eligible : List User}
    {pubkey : String} (h : bestCandidate maxConcurrent load eligible = some pubkey) :
    load pubkey < maxConcurrent ∧ (∃ vol ∈ eligible, vol.pubkey = pubkey) ∧
      ∀ vol ∈ eligible, load pubkey ≤ load vol.pubkey := by
  obtain ⟨hmap, -⟩ := Option.filter_eq_some_iff.mp h
  obtain ⟨b, hb, rfl⟩ := Option.map_eq_some_iff.mp hmap
  have hbest := foldl_better maxConcurrent load eligible
  obtain ⟨hload, hlt, hvol⟩ := hbest.of b hb
  rw [← hload]
  refine ⟨hlt, hvol, fun vol hmem => ?_⟩
  rcases Nat.lt_or_ge (load vol.pubkey) maxConcurrent with hmax | hmax
  · obtain ⟨b', hb', hle⟩ := hbest.least vol hmem hmax
    obtain rfl := Option.some.inj (Option.mem_def.mp hb ▸ Option.mem_def.mp hb' : some b = some b')
    exact hle
  · exact hlt.le.trans hmax

theorem bestCandidate_ben : "ben".length < 4 ∧
    ∀ vol ∈ [({ pubkey := "anna" } : User), { pubkey := "ben" }],
      "ben".length ≤ vol.pubkey.length := by
  have h : bestCandidate 4 String.length [{ pubkey := "anna" }, { pubkey := "ben" }] =
      some "ben" := by decide
  exact ⟨(bestCandidate_spec h).1, (bestCandidate_spec h).2.2⟩

end Llamenos.Worker.Conversations
