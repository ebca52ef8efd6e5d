import Llamenos.Lib.Runs
import Llamenos.Worker.Subscribers

/-!
# Blasts and their deliveries

`blasts` and `blast_deliveries` of `apps/worker/db/schema/blasts.ts`, and who writes them:
`BlastsService` of `apps/worker/services/blasts.ts`, the delivery worker's batches
(`apps/worker/lib/blast-delivery-worker.ts`), the poller of scheduled blasts
(`apps/worker/lib/blast-scheduled-poller.ts`), and the providers' status webhooks
(`correlateBlastDeliveryStatus` of `apps/worker/messaging/router.ts`).

Each SQL statement, and each call of something outside, is one step. A call is a task: its next
statement, with what it has read before. A step writes to the tables (`Task.write`) and gives the
task's next statement (`Task.next`), or throws (`Task.fail`). A run is any interleaving of the
statements of any number of calls, with any readings of the clock.

The keys of the rows that `db.execute` returns are a parameter: those of the columns, or those of
the schema's properties.

Results:
* `step_spec`: **what a step writes.**
* `step_tasks`: where a statement under way comes from.
* `getBlast_apply`, `deliveries_apply`: what a write makes of the rows.
-/

namespace Llamenos.Worker.Blasts

open Llamenos.Lib Llamenos.Crypto Llamenos.Worker.Subscribers

/-! ## The tables -/

inductive BlastStatus where
  | draft
  | scheduled
  | sending
  | sent
  | cancelled
  deriving DecidableEq

structure BlastContent where
  text : Option String
  mediaUrl : Option String := none
  mediaType : Option String := none
  smsText : Option String := none
  deriving DecidableEq

/-- `BlastContent | MultiBlastContent`. -/
inductive Content where
  | single (content : BlastContent)
  | multi (entries : List (String × BlastContent))
  deriving DecidableEq

structure BlastStats where
  totalRecipients : Nat := 0
  sent : Nat := 0
  delivered : Nat := 0
  failed : Nat := 0
  optedOut : Nat := 0
  deriving DecidableEq

/-- A row of `blasts`. -/
structure Blast where
  id : String
  hubId : Option String
  name : String
  content : Content
  defaultLanguage : String := "en"
  status : BlastStatus := .draft
  targetChannels : List MessagingChannelType
  targetTags : List String := []
  targetLanguages : List String := []
  scheduledAt : Option Int := none
  sentAt : Option Int := none
  stats : BlastStats := {}
  deriving DecidableEq

inductive DeliveryStatus where
  | pending
  | sending
  | sent
  | delivered
  | failed
  | optedOut
  | skipped
  | cancelled
  deriving DecidableEq

/-- A row of `blast_deliveries`. -/
structure Delivery where
  id : String
  blastId : String
  subscriberId : String
  channel : MessagingChannelType
  status : DeliveryStatus := .pending
  externalId : Option String := none
  attempts : Nat := 0
  nextRetryAt : Option Int := none
  error : Option String := none

structure Db extends Subscribers.Db where
  blasts : List Blast := []
  deliveries : List Delivery := []

/-- The row that `getBlast` reads. -/
def getBlast (db : Db) (id : String) : Option Blast := db.blasts.find? (·.id = id)

/-- `UPDATE blasts SET … WHERE id = …`. -/
def updateBlasts (db : Db) (id : String) (set : Blast → Blast) : Db :=
  { db with blasts := db.blasts.map fun blast => if blast.id = id then set blast else blast }

/-- `UPDATE blast_deliveries SET … WHERE id = …`. -/
def updateDeliveries (db : Db) (id : String) (set : Delivery → Delivery) : Db :=
  { db with deliveries := db.deliveries.map fun row => if row.id = id then set row else row }

/-! ## Blasts -/

structure CreateBlastInput where
  hubId : Option String := none
  name : String
  content : Content
  defaultLanguage : Option String := none
  targetChannels : List MessagingChannelType
  targetTags : List String := []
  targetLanguages : List String := []

def createBlast (id : String) (input : CreateBlastInput) : Blast where
  id := id
  hubId := input.hubId
  name := input.name
  content := input.content
  defaultLanguage := input.defaultLanguage.getD "en"
  targetChannels := input.targetChannels
  targetTags := input.targetTags
  targetLanguages := input.targetLanguages

structure UpdateBlastInput where
  name : Option String := none
  content : Option Content := none
  defaultLanguage : Option String := none
  targetChannels : Option (List MessagingChannelType) := none
  targetTags : Option (List String) := none
  targetLanguages : Option (List String) := none

def UpdateBlastInput.set (input : UpdateBlastInput) (blast : Blast) : Blast :=
  { blast with
    name := input.name.getD blast.name
    content := input.content.getD blast.content
    defaultLanguage := input.defaultLanguage.getD blast.defaultLanguage
    targetChannels := input.targetChannels.getD blast.targetChannels
    targetTags := input.targetTags.getD blast.targetTags
    targetLanguages := input.targetLanguages.getD blast.targetLanguages }

def DAY_MS : Int := 24 * 60 * 60 * 1000

/-- The beginning of the day, in UTC. -/
def today (now : Int) : Int := now / DAY_MS * DAY_MS

/-- The count of `send`; an empty hub is none. -/
def sentToday (db : Db) (hubId : Option String) (since : Int) : Nat :=
  db.blasts.countP fun blast =>
    (blast.status = .sent || blast.status = .sending) && blast.sentAt.any (since ≤ ·) &&
      (hubId.all (· = "") || blast.hubId = hubId)

/-- The `WHERE` of the `UPDATE` in `send`. -/
def Blast.sendable (blast : Blast) : Bool := blast.status = .draft || blast.status = .scheduled

def dueScheduledBlasts (db : Db) (now : Int) : List Blast :=
  db.blasts.filter fun blast => blast.status = .scheduled && blast.scheduledAt.any (· ≤ now)

/-- `resolveBlastContent`; a language that is there twice does not happen in an object. -/
def resolveBlastContent (content : Content) (subscriberLang defaultLang : String) :
    Option BlastContent :=
  match content with
  | .single content => some content
  | .multi entries =>
    entries.lookup subscriberLang <|> entries.lookup defaultLang <|> entries.lookup "en" <|>
      entries.head?.map Prod.snd

/-! ## Deliveries -/

/-- The `WHERE` of `expandBlast`; a blast without a hub, or with an empty one, is for all. -/
def Blast.matchesSubscriber (blast : Blast) (row : Subscriber) : Bool :=
  row.status = .active && row.doubleOptInConfirmed &&
    (blast.hubId.all (· = "") || row.hubId = blast.hubId) &&
    (blast.targetTags = [] || row.tags.any (blast.targetTags.contains ·)) &&
    (blast.targetLanguages = [] || blast.targetLanguages.contains row.language)

def hasVerifiedChannel (row : Subscriber) (channel : MessagingChannelType) : Bool :=
  row.channels.any fun c => c.type = channel && c.verified

/-- The deliveries of `expandBlast`: subscribers by id, and channels. -/
def deliveryValues (blast : Blast) (subscribers : List Subscriber) :
    List (String × MessagingChannelType) :=
  (subscribers.filter blast.matchesSubscriber).flatMap fun row =>
    (blast.targetChannels.filter (hasVerifiedChannel row)).map (row.id, ·)

def Delivery.isFor (blastId : String) (target : String × MessagingChannelType)
    (row : Delivery) : Bool :=
  row.blastId = blastId && row.subscriberId = target.1 && row.channel = target.2

/-- One row of an `INSERT … ON CONFLICT DO NOTHING`. -/
def insertDelivery (blastId : String) (rows : List Delivery)
    (value : String × String × MessagingChannelType) : List Delivery :=
  if rows.any fun row => row.id = value.1 || row.isFor blastId value.2 then rows
  else rows ++ [{ id := value.1, blastId, subscriberId := value.2.1, channel := value.2.2 }]

def INSERT_BATCH_SIZE : Nat := 500

def BATCH_SIZE : Nat := 50

/-- The rows that `drainDeliveryBatch` may claim. -/
def Delivery.isDue (blastId : String) (now : Int) (row : Delivery) : Bool :=
  row.blastId = blastId && row.status = .pending && row.nextRetryAt.all (· ≤ now)

def BLAST_MAX_RETRIES : Nat := 3

def BLAST_RETRY_BACKOFF_BASE_MS : Int := 30000

structure RetryDecision where
  permanentlyFailed : Bool
  newAttempts : Nat
  nextRetryAt : Option Int := none

def computeRetryDecision (currentAttempts : Nat) (now : Int) : RetryDecision :=
  if currentAttempts + 1 ≥ BLAST_MAX_RETRIES then ⟨true, currentAttempts + 1, none⟩
  else ⟨false, currentAttempts + 1, some (now + BLAST_RETRY_BACKOFF_BASE_MS * 2 ^ currentAttempts)⟩

/-- The `SET` of `markDeliveryFailed`. -/
def RetryDecision.set (decision : RetryDecision) (error : String) (row : Delivery) : Delivery :=
  if decision.permanentlyFailed then
    { row with status := .failed, error := some error, attempts := decision.newAttempts }
  else
    { row with
      status := .pending, error := some error, nextRetryAt := decision.nextRetryAt
      attempts := decision.newAttempts }

/-- `computeBlastStats`. -/
def computeBlastStats (db : Db) (blastId : String) : BlastStats :=
  let count (p : DeliveryStatus → Bool) : Nat :=
    db.deliveries.countP fun row => row.blastId = blastId && p row.status
  { totalRecipients := count fun _ => true
    sent := count (· = .sent)
    delivered := count (· = .delivered)
    failed := count (· = .failed)
    optedOut := count fun status => status = .optedOut || status = .skipped }

def BlastStats.pendingCount (stats : BlastStats) : Int :=
  stats.totalRecipients - stats.sent - stats.delivered - stats.failed - stats.optedOut

/-! ## What a step writes -/

inductive Write where
  | nothing
  | update (id : String) (input : UpdateBlastInput)
  | schedule (id : String) (scheduledAt : Int)
  | send (id : String) (sentAt : Int)
  | cancelDeliveries (id : String)
  | cancel (id : String)
  | insert (id : String) (values : List (String × String × MessagingChannelType))
  | total (id : String) (deliveryCount : Nat)
  | sync (id : String) (stats : BlastStats) (completed : Bool)
  | drain (deliveryIds : List String)
  | markSent (deliveryId : String) (externalId : Option String)
  | markDelivered (deliveryId : String)
  | markFailed (deliveryId error : String) (decision : RetryDecision)
  | markOptedOut (deliveryId : String)
  | unsubscribe (subscriberId : String)

def Write.apply (db : Db) : Write → Db
  | .nothing => db
  | .update id input => updateBlasts db id input.set
  | .schedule id scheduledAt => updateBlasts db id fun blast =>
    { blast with status := .scheduled, scheduledAt := some scheduledAt }
  | .send id sentAt => updateBlasts db id fun blast =>
    if blast.sendable then { blast with status := .sending, sentAt := some sentAt, stats := {} }
    else blast
  | .cancelDeliveries id =>
    { db with
      deliveries := db.deliveries.map fun row =>
        if row.blastId = id ∧ (row.status = .pending ∨ row.status = .sending) then
          { row with status := .cancelled }
        else row }
  | .cancel id => updateBlasts db id fun blast => { blast with status := .cancelled }
  | .insert id values => { db with deliveries := values.foldl (insertDelivery id) db.deliveries }
  | .total id deliveryCount => updateBlasts db id fun blast =>
    { blast with stats := { totalRecipients := deliveryCount } }
  | .sync id stats completed => updateBlasts db id fun blast =>
    { blast with stats, status := if completed then .sent else blast.status }
  | .drain deliveryIds =>
    { db with
      deliveries := db.deliveries.map fun row =>
        if row.id ∈ deliveryIds then { row with status := .sending } else row }
  | .markSent deliveryId externalId => updateDeliveries db deliveryId fun row =>
    { row with status := .sent, externalId, attempts := row.attempts + 1 }
  | .markDelivered deliveryId => updateDeliveries db deliveryId fun row =>
    { row with status := .delivered }
  | .markFailed deliveryId error decision => updateDeliveries db deliveryId (decision.set error)
  | .markOptedOut deliveryId => updateDeliveries db deliveryId fun row =>
    { row with status := .optedOut }
  | .unsubscribe subscriberId =>
    { db with
      subscribers := updateSubscriber db.subscribers subscriberId fun row =>
        { row with status := .unsubscribed } }

/-! ## Calls and their statements -/

inductive MessageDeliveryStatus where
  | pending
  | sent
  | delivered
  | read
  | failed

/-- A call of the service, a pass of the poller, a batch of the worker, or a status webhook. -/
inductive Op where
  | updateBlast (id : String) (input : UpdateBlastInput)
  | schedule (id : String) (scheduledAt : Option Int)
  | send (id : String) (hubId : Option String)
  | cancel (id : String)
  | expandBlast (id : String)
  | syncBlastStats (id : String)
  | checkScheduledBlasts
  | processBlastBatch (blastId hubId : String)
  | correlateBlastDeliveryStatus (externalId : String) (status : MessageDeliveryStatus)
      (failureReason : Option String)

/-- How the rows of `db.execute` are keyed: by the columns' names, or by the schema's. -/
inductive Keys where
  | columns
  | properties

/-- What the worker reads of a row that `drainDeliveryBatch` returns. -/
structure Claimed where
  id : String
  subscriberId : Option String
  channel : MessagingChannelType
  attempts : Nat

/-- `delivery.subscriberId` is not there when the key is `subscriber_id`. -/
def claimed (keys : Keys) (row : Delivery) : Claimed where
  id := row.id
  subscriberId := match keys with
    | .columns => none
    | .properties => some row.subscriberId
  channel := row.channel
  attempts := row.attempts

/-- What a batch has read before its loop. -/
structure Batch where
  blastId : String
  hubId : String
  content : Content
  defaultLanguage : String
  optOutFooter : String
  fullSms : Bool

structure SendResult where
  success : Bool
  externalId : Option String := none
  error : Option String := none

/-- The argument of `sendMessage`, or with a medium of `sendMediaMessage`. -/
structure SendParams where
  recipientIdentifier : String
  body : String
  conversationId : String
  mediaUrl : Option String := none
  mediaType : Option String := none
  deriving DecidableEq

/-- Where the loop of a batch is with a delivery. -/
inductive Point where
  | checkBlast
  | checkActive
  | markOptedOut
  | resolveAdapter
  | waitForToken
  | getSubscriber
  | resolveIdentifier (content : BlastContent)
  | sendMessage (params : SendParams)
  | markSent (externalId : Option String)
  | markFailed (error : String) (caught : Bool)
  deriving DecidableEq

/-- The next statement of a call, with what the call has read before. A call of the poller has the
blasts that are left for it (`pass`). -/
inductive Task where
  | updateRead (id : String) (input : UpdateBlastInput)
  | updateStore (id : String) (input : UpdateBlastInput)
  | scheduleRead (id : String) (scheduledAt : Option Int)
  | scheduleStore (id : String) (scheduledAt : Int)
  | sendRead (id : String) (hubId : Option String) (pass : Option (List Blast))
  | sendSettings (id : String) (hubId : Option String) (effectiveHubId : String)
      (pass : Option (List Blast))
  | sendCount (id : String) (hubId : Option String) (maxBlastsPerDay : Nat) (since : Int)
      (pass : Option (List Blast))
  | sendStore (id : String) (pass : Option (List Blast))
  | cancelRead (id : String)
  | cancelDeliveries (id : String)
  | cancelStore (id : String)
  | expandRead (id : String) (pass : Option (List Blast))
  | expandSubscribers (blast : Blast) (pass : Option (List Blast))
  | expandInsert (id : String) (values : List (String × MessagingChannelType))
      (deliveryCount : Nat) (pass : Option (List Blast))
  | expandStore (id : String) (deliveryCount : Nat) (pass : Option (List Blast))
  | syncCount (id : String)
  | syncRead (id : String) (stats : BlastStats)
  | syncStore (id : String) (stats : BlastStats) (completed : Bool)
  | poll
  | webhookFind (externalId : String) (status : MessageDeliveryStatus)
      (failureReason : Option String)
  | webhookDelivered (delivery : Delivery)
  | webhookFailed (delivery : Delivery) (failureReason : Option String)
  | batchSettings (blastId hubId : String)
  | batchConfig (blastId hubId optOutFooter : String)
  | batchRead (blastId hubId optOutFooter : String) (fullSms : Bool)
  | batchDrain (batch : Batch)
  | deliver (batch : Batch) (delivery : Claimed) (rest : List Claimed) (point : Point)

/-- The first statement of a call. -/
def Op.first : Op → Task
  | .updateBlast id input => .updateRead id input
  | .schedule id scheduledAt => .scheduleRead id scheduledAt
  | .send id hubId => .sendRead id hubId none
  | .cancel id => .cancelRead id
  | .expandBlast id => .expandRead id none
  | .syncBlastStats id => .syncCount id
  | .checkScheduledBlasts => .poll
  | .processBlastBatch blastId hubId => .batchSettings blastId hubId
  | .correlateBlastDeliveryStatus externalId status failureReason =>
    .webhookFind externalId status failureReason

/-- What a step is told: the clock, which of the rows a `LIMIT 1` gives, the rows that the poller
reads, the ids of new rows, the deliveries that are claimed, whether `smsContentMode` is `full`,
whether there is an adapter, what it returns, whether the step throws, and what. -/
structure Input where
  now : Int
  pick : Nat := 0
  due : List Blast := []
  ids : List String := []
  claim : List String := []
  fullSms : Bool := false
  adapter : Bool := true
  result : SendResult := ⟨true, none, none⟩
  throws : Bool := false
  error : String := ""

inductive Reply where
  | blast (row : Blast)
  | expanded (deliveryCount : Nat)
  | synced (stats : BlastStats) (completed : Bool)
  | finished

/-- A call goes on, or is over. -/
inductive Progress where
  | more (task : Task)
  | done (reply : Except ServiceError Reply)

/-- `throw new ServiceError(status, message)`. -/
def throws (status : Nat) (message : String) : Progress := .done (.error (.service status message))

/-- The poller goes on with the next blast. -/
def nextDue : List Blast → Progress
  | [] => .done (.ok .finished)
  | blast :: rest => .more (.sendRead blast.id blast.hubId (some rest))

/-- What a call throws; the poller catches it. -/
def thrown (pass : Option (List Blast)) (error : ServiceError) : Progress :=
  match pass with
  | none => .done (.error error)
  | some rest => nextDue rest

/-- The batch goes on with the next delivery, or to `syncBlastStats`. -/
def nextDelivery (batch : Batch) : List Claimed → Progress
  | [] => .more (.syncCount batch.blastId)
  | delivery :: rest => .more (.deliver batch delivery rest .checkBlast)

/-- What `isSubscriberActive` finds. -/
def isSubscriberActive (db : Db) (subscriberId : Option String) : Bool :=
  db.subscribers.any fun row =>
    some row.id = subscriberId && row.status = .active && row.doubleOptInConfirmed

def getSubscriberById (db : Db) (subscriberId : Option String) : Option Subscriber :=
  db.subscribers.find? fun row => some row.id = subscriberId

def NOTIFICATION_ONLY_MESSAGE : String :=
  "You have a new secure message. Open Llamenos to view it."

def buildMessageBody (content : BlastContent) (channel : MessagingChannelType)
    (optOutFooter : String) (fullSms : Bool) : String :=
  let body := match channel with
    | .sms => if fullSms then (content.smsText <|> content.text).getD ""
      else NOTIFICATION_ONLY_MESSAGE
    | _ => content.text.getD ""
  body ++ optOutFooter

/-- What the adapter is called with; an empty `mediaUrl` is none. -/
def sendParams (batch : Batch) (content : BlastContent) (channel : MessagingChannelType)
    (recipientIdentifier : String) : SendParams :=
  let mediaUrl := content.mediaUrl.filter (· ≠ "")
  { recipientIdentifier
    body := buildMessageBody content channel batch.optOutFooter batch.fullSms
    conversationId := s!"blast:{batch.blastId}"
    mediaUrl
    mediaType := mediaUrl.map fun _ => content.mediaType.getD "image/jpeg" }

def findDelivery (db : Db) (externalId : String) (pick : Nat) : Option Delivery :=
  let rows := db.deliveries.filter (·.externalId = some externalId)
  rows[pick % rows.length]?

/-- What the statement writes. -/
def Task.write (input : Input) : Task → Write
  | .updateStore id update => .update id update
  | .scheduleStore id scheduledAt => .schedule id scheduledAt
  | .sendStore id _ => .send id input.now
  | .cancelDeliveries id => .cancelDeliveries id
  | .cancelStore id => .cancel id
  | .expandInsert id values _ _ => .insert id (input.ids.zip (values.take INSERT_BATCH_SIZE))
  | .expandStore id deliveryCount _ => .total id deliveryCount
  | .syncStore id stats completed => .sync id stats completed
  | .webhookDelivered delivery => .markDelivered delivery.id
  | .webhookFailed delivery failureReason =>
    .markFailed delivery.id (failureReason.getD "Delivery failed (provider)")
      (computeRetryDecision delivery.attempts input.now)
  | .batchDrain _ => .drain input.claim
  | .deliver _ delivery _ .markOptedOut => .markOptedOut delivery.id
  | .deliver _ delivery _ (.markSent externalId) => .markSent delivery.id externalId
  | .deliver _ delivery _ (.markFailed error _) =>
    .markFailed delivery.id error (computeRetryDecision delivery.attempts input.now)
  | _ => .nothing

/-- The statement after one of the batch's loop that has not thrown. -/
def Point.next (prims : Prims) (db : Db) (input : Input) (batch : Batch) (delivery : Claimed)
    (rest : List Claimed) : Point → Progress
  | .checkBlast =>
    match getBlast db batch.blastId with
    | none => throws 404 "Blast not found"
    | some blast =>
      if blast.status = .sending then .more (.deliver batch delivery rest .checkActive)
      else .done (.ok .finished)
  | .checkActive =>
    .more (.deliver batch delivery rest
      (if isSubscriberActive db delivery.subscriberId then .resolveAdapter else .markOptedOut))
  | .markOptedOut => nextDelivery batch rest
  | .resolveAdapter =>
    .more (.deliver batch delivery rest
      (if input.adapter then .waitForToken
        else .markFailed s!"No adapter available for channel: {delivery.channel.text}" false))
  | .waitForToken => .more (.deliver batch delivery rest .getSubscriber)
  | .getSubscriber =>
    let language := ((getSubscriberById db delivery.subscriberId).map Subscriber.language).getD "en"
    match resolveBlastContent batch.content language batch.defaultLanguage with
    | none => .done (.error .thrown)
    | some content => .more (.deliver batch delivery rest (.resolveIdentifier content))
  | .resolveIdentifier content =>
    match resolveSubscriberIdentifier prims (getSubscriberById db delivery.subscriberId) with
    | none => .done (.error .thrown)
    | some none | some (some "") =>
      .more (.deliver batch delivery rest
        (.markFailed "Could not resolve subscriber identifier" false))
    | some (some recipientIdentifier) =>
      .more (.deliver batch delivery rest
        (.sendMessage (sendParams batch content delivery.channel recipientIdentifier)))
  | .sendMessage _ =>
    .more (.deliver batch delivery rest
      (if input.result.success then .markSent input.result.externalId
        else .markFailed (input.result.error.getD "Send failed") true))
  | .markSent _ | .markFailed _ _ => nextDelivery batch rest

/-- The statement after one that has not thrown. -/
def Task.next (keys : Keys) (prims : Prims) (db : Db) (input : Input) : Task → Progress
  | .updateRead id update =>
    match getBlast db id with
    | none => throws 404 "Blast not found"
    | some blast =>
      if blast.status ≠ .draft then throws 400 "Can only edit draft blasts"
      else .more (.updateStore id update)
  | .updateStore id update =>
    match getBlast db id with
    | none => throws 404 "Blast not found"
    | some blast => .done (.ok (.blast (update.set blast)))
  | .scheduleRead id scheduledAt =>
    match getBlast db id with
    | none => throws 404 "Blast not found"
    | some blast =>
      if blast.status ≠ .draft then throws 400 "Can only schedule draft blasts"
      else match scheduledAt with
        | none => throws 400 "scheduledAt must be a future date"
        | some time =>
          if time ≤ input.now then throws 400 "scheduledAt must be a future date"
          else .more (.scheduleStore id time)
  | .scheduleStore _ _ => .done (.ok .finished)
  | .sendRead id hubId pass =>
    match getBlast db id with
    | none => thrown pass (.service 404 "Blast not found")
    | some blast =>
      .more (.sendSettings id hubId ((hubId <|> blast.hubId).getD "") pass)
  | .sendSettings id hubId effectiveHubId pass =>
    .more (.sendCount id hubId (getBlastSettings db.toDb effectiveHubId).maxBlastsPerDay
      (today input.now) pass)
  | .sendCount id hubId maxBlastsPerDay since pass =>
    if sentToday db hubId since ≥ maxBlastsPerDay then
      thrown pass (.service 429 "Daily blast limit reached")
    else .more (.sendStore id pass)
  | .sendStore id pass =>
    if (getBlast db id).any Blast.sendable then
      match pass with
      | none => .done (.ok .finished)
      | some rest => .more (.expandRead id (some rest))
    else thrown pass
      (.service 400 "Blast is not in a sendable state (may already be sending)")
  | .cancelRead id =>
    match getBlast db id with
    | none => throws 404 "Blast not found"
    | some blast =>
      if blast.status ≠ .scheduled ∧ blast.status ≠ .sending then
        throws 400 "Can only cancel scheduled or sending blasts"
      else .more (.cancelDeliveries id)
  | .cancelDeliveries id => .more (.cancelStore id)
  | .cancelStore _ => .done (.ok .finished)
  | .expandRead id pass =>
    match getBlast db id with
    | none => thrown pass (.service 404 "Blast not found")
    | some blast =>
      if blast.status ≠ .sending then
        thrown pass (.service 400 "Can only expand blasts in sending state")
      else if blast.targetChannels = [] then
        thrown pass (.service 400 "Blast has no target channels")
      else .more (.expandSubscribers blast pass)
  | .expandSubscribers blast pass =>
    let values := deliveryValues blast db.subscribers
    .more (if values = [] then .expandStore blast.id 0 pass
      else .expandInsert blast.id values values.length pass)
  | .expandInsert id values deliveryCount pass =>
    let rest := values.drop INSERT_BATCH_SIZE
    .more (if rest = [] then .expandStore id deliveryCount pass
      else .expandInsert id rest deliveryCount pass)
  | .expandStore _ deliveryCount pass =>
    match pass with
    | none => .done (.ok (.expanded deliveryCount))
    | some rest => nextDue rest
  | .syncCount id => .more (.syncRead id (computeBlastStats db id))
  | .syncRead id stats =>
    match getBlast db id with
    | none => throws 404 "Blast not found"
    | some blast =>
      .more (.syncStore id stats (stats.pendingCount ≤ 0 && blast.status = .sending))
  | .syncStore _ stats completed => .done (.ok (.synced stats completed))
  | .poll => nextDue input.due
  | .webhookFind externalId status failureReason =>
    match findDelivery db externalId input.pick with
    | none => .done (.ok .finished)
    | some delivery =>
      .more (match status with
        | .delivered | .read => .webhookDelivered delivery
        | .failed => .webhookFailed delivery failureReason
        | .pending | .sent => .syncCount delivery.blastId)
  | .webhookDelivered delivery => .more (.syncCount delivery.blastId)
  | .webhookFailed delivery _ => .more (.syncCount delivery.blastId)
  | .batchSettings blastId hubId =>
    .more (.batchConfig blastId hubId (getBlastSettings db.toDb hubId).optOutFooter)
  | .batchConfig blastId hubId optOutFooter =>
    .more (.batchRead blastId hubId optOutFooter input.fullSms)
  | .batchRead blastId hubId optOutFooter fullSms =>
    match getBlast db blastId with
    | none => throws 404 "Blast not found"
    | some blast =>
      .more (.batchDrain {
        blastId, hubId, content := blast.content, defaultLanguage := blast.defaultLanguage
        optOutFooter, fullSms })
  | .batchDrain batch =>
    nextDelivery batch (input.claim.filterMap fun id =>
      (db.deliveries.find? (·.id = id)).map (claimed keys))
  | .deliver batch delivery rest point => point.next prims db input batch delivery rest

/-- What a call does with a statement that throws: the poller goes on with the next blast, and a
batch catches what comes from the adapter, or from storing its answer. -/
def Task.fail (input : Input) : Task → Progress
  | .sendRead _ _ pass | .sendSettings _ _ _ pass | .sendCount _ _ _ _ pass | .sendStore _ pass
  | .expandRead _ pass | .expandSubscribers _ pass | .expandInsert _ _ _ pass
  | .expandStore _ _ pass => thrown pass .thrown
  | .deliver batch delivery rest (.sendMessage _)
  | .deliver batch delivery rest (.markSent _)
  | .deliver batch delivery rest (.markFailed _ true) =>
    .more (.deliver batch delivery rest (.markFailed input.error false))
  | _ => .done (.error .thrown)

/-- What a step is told can be so: new ids are new, a batch claims rows that are due, at most fifty,
and the poller reads the blasts that are due. -/
def Task.possible (db : Db) (input : Input) : Task → Bool
  | .expandInsert _ values _ _ =>
    input.ids.length = (values.take INSERT_BATCH_SIZE).length &&
      decide (db.deliveries.map Delivery.id ++ input.ids).Nodup
  | .batchDrain batch =>
    decide input.claim.Nodup && input.claim.length ≤ BATCH_SIZE &&
      input.claim.all fun id =>
        db.deliveries.any fun row => row.id = id && row.isDue batch.blastId input.now
  | .poll => decide (input.due.Perm (dueScheduledBlasts db input.now))
  | _ => true

/-! ## Runs -/

/-- A call begins, one goes on by a statement, or a subscriber opts out, by the `UPDATE` of a
keyword or of the preferences. -/
inductive Event where
  | call (task : Nat) (op : Op)
  | resume (task : Nat) (input : Input)
  | unsubscribe (subscriberId : String)

/-- The tables, and the calls under way. -/
structure System where
  db : Db
  tasks : Nat → Option Task := fun _ => none

/-- Blasts have been created. -/
def start (db : Subscribers.Db) (created : List (String × CreateBlastInput)) : System where
  db := { db with blasts := created.map fun (id, input) => createBlast id input }

/-- A blast, and a subscriber that it is for. -/
def news : String × CreateBlastInput :=
  ("blast", {
    hubId := some "hub", name := "News", content := .single { text := some "Hello" }
    targetChannels := [.sms] })

def ann : Subscriber where
  id := "ann"
  hubId := some "hub"
  identifierHash := "hash"
  encryptedIdentifier := some "+100"
  channels := [⟨.sms, true⟩]
  doubleOptInConfirmed := true
  preferenceToken := some "token"

/-- The next statement of a call, if there is one. -/
def Progress.task? : Progress → Option Task
  | .more task => some task
  | .done _ => none

/-- The statement's write, and how its call goes on. -/
def resume (keys : Keys) (prims : Prims) (db : Db) (input : Input) (task : Task) :
    Write × Progress :=
  if input.throws then (.nothing, task.fail input)
  else (task.write input, task.next keys prims db input)

def step (keys : Keys) (prims : Prims) (s : System) : Event → Option System
  | .call i op =>
    match s.tasks i with
    | some _ => none
    | none => some { s with tasks := Function.update s.tasks i (some op.first) }
  | .resume i input =>
    match s.tasks i with
    | none => none
    | some task =>
      if task.possible s.db input then
        let (write, progress) := resume keys prims s.db input task
        some { db := write.apply s.db, tasks := Function.update s.tasks i progress.task? }
      else none
  | .unsubscribe subscriberId =>
    some { s with db := (Write.unsubscribe subscriberId).apply s.db }

/-- What a step writes. -/
def written (s : System) : Event → Write
  | .call .. => .nothing
  | .resume i input =>
    (s.tasks i).elim .nothing fun task => if input.throws then .nothing else task.write input
  | .unsubscribe subscriberId => .unsubscribe subscriberId

/-! ## Steps -/

variable {keys : Keys} {prims : Prims} {s s' : System} {e : Event}

/-- A statement goes on where it is possible. -/
theorem step_resume {i : Nat} {input : Input} (h : step keys prims s (.resume i input) = some s') :
    ∃ task, s.tasks i = some task ∧ task.possible s.db input ∧
      s' = { db := (resume keys prims s.db input task).1.apply s.db
             tasks := Function.update s.tasks i (resume keys prims s.db input task).2.task? } := by
  rw [step] at h
  cases hi : s.tasks i with
  | none =>
    rw [hi] at h
    cases h
  | some task =>
    rw [hi] at h
    obtain ⟨hpossible, h⟩ := Option.ite_none_right_eq_some.mp h
    exact ⟨task, rfl, hpossible, (Option.some.inj h).symm⟩

theorem step_call {i : Nat} {op : Op} (h : step keys prims s (.call i op) = some s') :
    s.tasks i = none ∧ s' = { s with tasks := Function.update s.tasks i (some op.first) } := by
  rw [step] at h
  cases hi : s.tasks i with
  | some _ =>
    rw [hi] at h
    cases h
  | none =>
    rw [hi] at h
    exact ⟨rfl, (Option.some.inj h).symm⟩

/-- **What a step writes.** -/
theorem step_spec (h : step keys prims s e = some s') : s'.db = (written s e).apply s.db := by
  cases e with
  | call i op =>
    obtain ⟨-, rfl⟩ := step_call h
    rfl
  | resume i input =>
    obtain ⟨task, hi, -, rfl⟩ := step_resume h
    rw [written, hi, Option.elim_some, resume]
    split <;> rfl
  | unsubscribe subscriberId =>
    obtain rfl := Option.some.inj h
    rfl

/-- **Where a statement under way comes from**: it was under way, or it is the first of a call, or
it follows the one before it. -/
theorem step_tasks (h : step keys prims s e = some s') {i : Nat} {task : Task}
    (hi : s'.tasks i = some task) :
    (s.tasks i = some task ∧ ∀ input, e ≠ .resume i input) ∨
      (∃ op, e = .call i op ∧ task = op.first) ∨
      ∃ input before, e = .resume i input ∧ s.tasks i = some before ∧
        before.possible s.db input ∧ (resume keys prims s.db input before).2 = .more task := by
  cases e with
  | call j op =>
    obtain ⟨-, rfl⟩ := step_call h
    rcases Runs.update_eq_some hi with ⟨rfl, hfirst⟩ | ⟨-, hkept⟩
    · exact .inr (.inl ⟨op, rfl, (Option.some.inj hfirst).symm⟩)
    · exact .inl ⟨hkept, fun _ h => by cases h⟩
  | resume j input =>
    obtain ⟨before, hj, hpossible, rfl⟩ := step_resume h
    rcases Runs.update_eq_some hi with ⟨rfl, hnext⟩ | ⟨hne, hkept⟩
    · refine .inr (.inr ⟨input, before, rfl, hj, hpossible, ?_⟩)
      cases hresume : (resume keys prims s.db input before).2 with
      | done reply =>
        rw [hresume] at hnext
        cases hnext
      | more next =>
        rw [hresume] at hnext
        rw [Option.some.inj hnext]
    · exact .inl ⟨hkept, fun _ h => by cases h; exact hne rfl⟩
  | unsubscribe subscriberId =>
    obtain rfl := Option.some.inj h
    exact .inl ⟨hi, fun _ h => by cases h⟩

/-! ## Rows after an update -/

theorem getBlast_updateBlasts {set : Blast → Blast} (hset : ∀ blast, (set blast).id = blast.id)
    (db : Db) (id id' : String) :
    getBlast (updateBlasts db id set) id' =
      (getBlast db id').map fun blast => if blast.id = id then set blast else blast := by
  unfold getBlast updateBlasts
  rw [List.find?_map]
  congr 2
  funext blast
  by_cases hid : blast.id = id
  · simp [hid, hset]
  · simp [hid]

theorem getBlast_id {db : Db} {id : String} {blast : Blast} (h : getBlast db id = some blast) :
    blast.id = id := by
  simpa using List.find?_some h

/-- What a write makes of a blast. -/
def Write.onBlast (blast : Blast) : Write → Blast
  | .update id input => if blast.id = id then input.set blast else blast
  | .schedule id scheduledAt =>
    if blast.id = id then { blast with status := .scheduled, scheduledAt := some scheduledAt }
    else blast
  | .send id sentAt =>
    if blast.id = id ∧ blast.sendable then
      { blast with status := .sending, sentAt := some sentAt, stats := {} }
    else blast
  | .cancel id => if blast.id = id then { blast with status := .cancelled } else blast
  | .total id deliveryCount =>
    if blast.id = id then { blast with stats := { totalRecipients := deliveryCount } } else blast
  | .sync id stats completed =>
    if blast.id = id then
      { blast with stats, status := if completed then .sent else blast.status }
    else blast
  | _ => blast

theorem getBlast_apply (db : Db) (w : Write) (id : String) :
    getBlast (w.apply db) id = (getBlast db id).map w.onBlast := by
  have hsame : getBlast db id = (getBlast db id).map fun blast => blast := Option.map_id'.symm
  cases w with
  | update id' input => exact getBlast_updateBlasts (by intro; rfl) db id' id
  | schedule id' scheduledAt => exact getBlast_updateBlasts (by intro; rfl) db id' id
  | cancel id' => exact getBlast_updateBlasts (by intro; rfl) db id' id
  | total id' deliveryCount => exact getBlast_updateBlasts (by intro; rfl) db id' id
  | sync id' stats completed => exact getBlast_updateBlasts (by intro; rfl) db id' id
  | send id' sentAt =>
    refine (getBlast_updateBlasts (fun blast => ?_) db id' id).trans ?_
    · split <;> rfl
    · congr 1
      funext blast
      by_cases hid : blast.id = id' <;> simp [Write.onBlast, hid]
  | nothing | cancelDeliveries | insert | drain | markSent | markDelivered | markFailed
  | markOptedOut | unsubscribe => exact hsame

/-- What a write makes of a delivery that is there. -/
def Write.onDelivery (row : Delivery) : Write → Delivery
  | .cancelDeliveries id =>
    if row.blastId = id ∧ (row.status = .pending ∨ row.status = .sending) then
      { row with status := .cancelled }
    else row
  | .drain deliveryIds => if row.id ∈ deliveryIds then { row with status := .sending } else row
  | .markSent deliveryId externalId =>
    if row.id = deliveryId then
      { row with status := .sent, externalId, attempts := row.attempts + 1 }
    else row
  | .markDelivered deliveryId =>
    if row.id = deliveryId then { row with status := .delivered } else row
  | .markFailed deliveryId error decision =>
    if row.id = deliveryId then decision.set error row else row
  | .markOptedOut deliveryId =>
    if row.id = deliveryId then { row with status := .optedOut } else row
  | _ => row

/-- What a write adds to the deliveries. -/
def Write.inserts (rows : List Delivery) : Write → List Delivery
  | .insert id values => values.foldl (insertDelivery id) rows
  | _ => rows

theorem deliveries_apply (db : Db) (w : Write) :
    (w.apply db).deliveries = w.inserts (db.deliveries.map w.onDelivery) := by
  have hsame : db.deliveries = db.deliveries.map fun row => row := (List.map_id' _).symm
  cases w with
  | insert id values => exact congrArg (List.foldl (insertDelivery id) · values) hsame
  | nothing | update | schedule | send | cancel | total | sync | unsubscribe => exact hsame
  | cancelDeliveries | drain | markSent | markDelivered | markFailed | markOptedOut => rfl

/-- What no write changes of a delivery. -/
structure Delivery.Same (row row' : Delivery) : Prop where
  id : row'.id = row.id
  blastId : row'.blastId = row.blastId
  subscriberId : row'.subscriberId = row.subscriberId
  channel : row'.channel = row.channel

theorem same_set (decision : RetryDecision) (error : String) (row : Delivery) :
    row.Same (decision.set error row) := by
  unfold RetryDecision.set
  split <;> exact ⟨rfl, rfl, rfl, rfl⟩

theorem same_onDelivery (row : Delivery) (w : Write) : row.Same (w.onDelivery row) := by
  have hsame : row.Same row := ⟨rfl, rfl, rfl, rfl⟩
  cases w with
  | cancelDeliveries | drain | markSent | markDelivered | markOptedOut =>
    rw [Write.onDelivery]
    split
    · exact ⟨rfl, rfl, rfl, rfl⟩
    · exact hsame
  | markFailed deliveryId error decision =>
    rw [Write.onDelivery]
    split
    · exact same_set decision error row
    · exact hsame
  | insert | nothing | update | schedule | send | cancel | total | sync | unsubscribe => exact hsame

theorem Delivery.Same.isFor_eq {row row' : Delivery} (h : row.Same row') (blastId : String)
    (target : String × MessagingChannelType) :
    row'.isFor blastId target = row.isFor blastId target := by
  rw [Delivery.isFor, Delivery.isFor, h.blastId, h.subscriberId, h.channel]

/-- The ids of deliveries stay their own. -/
theorem insertDelivery_ids {rows : List Delivery} (h : (rows.map Delivery.id).Nodup)
    (blastId : String) (value : String × String × MessagingChannelType) :
    ((insertDelivery blastId rows value).map Delivery.id).Nodup := by
  rw [insertDelivery]
  split
  · exact h
  · rename_i hfree
    rw [List.map_append, List.map_singleton]
    refine List.nodup_append.mpr ⟨h, List.nodup_singleton _, fun id hid id' hid' => ?_⟩
    obtain ⟨row, hrow, rfl⟩ := List.mem_map.mp hid
    rw [List.mem_singleton.mp hid']
    intro hsame
    exact hfree (List.any_eq_true.mpr ⟨row, hrow, by simp [hsame]⟩)

theorem ids_apply {db : Db} (h : (db.deliveries.map Delivery.id).Nodup) (w : Write) :
    ((w.apply db).deliveries.map Delivery.id).Nodup := by
  have hmap : ((db.deliveries.map w.onDelivery).map Delivery.id).Nodup := by
    rw [List.map_map, show Delivery.id ∘ w.onDelivery = Delivery.id from
      funext fun row => (same_onDelivery row w).id]
    exact h
  rw [deliveries_apply]
  cases w with
  | insert id values =>
    generalize db.deliveries.map _ = rows at hmap ⊢
    rw [Write.inserts]
    induction values generalizing rows with
    | nil => exact hmap
    | cons value values ih => exact ih _ (insertDelivery_ids hmap id value)
  | nothing | update | schedule | send | cancel | total | sync | unsubscribe | cancelDeliveries
  | drain | markSent | markDelivered | markFailed | markOptedOut => exact hmap

end Llamenos.Worker.Blasts
