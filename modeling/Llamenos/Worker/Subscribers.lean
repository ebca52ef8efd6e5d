import Llamenos.Worker.Runtime
import Mathlib.Data.List.Dedup

/-!
# The subscribers of a hub

`subscribers` and `blast_settings` of `apps/worker/db/schema/blasts.ts`, and what `BlastsService` of
`apps/worker/services/blasts.ts` does with them: the bulk import, the keywords of inbound messages,
which `apps/worker/messaging/router.ts` routes, and the preferences behind a subscriber's token.

HMAC-SHA-256, the encryption of identifiers and `toUpperCase` are parameters. A statement that would
violate a unique index throws, and leaves what the statements before it have written.
-/

namespace Llamenos.Worker.Subscribers

open Llamenos.Lib Llamenos.Crypto

/-! ## The tables -/

inductive MessagingChannelType where
  | sms
  | whatsapp
  | signal
  | rcs
  | telegram
  deriving DecidableEq

def MessagingChannelType.text : MessagingChannelType → String
  | .sms => "sms"
  | .whatsapp => "whatsapp"
  | .signal => "signal"
  | .rcs => "rcs"
  | .telegram => "telegram"

structure SubscriberChannel where
  type : MessagingChannelType
  verified : Bool
  deriving DecidableEq

inductive SubscriberStatus where
  | active
  | paused
  | unsubscribed
  deriving DecidableEq

/-- A row of `subscribers`. -/
structure Subscriber where
  id : String
  hubId : Option String
  identifierHash : String
  encryptedIdentifier : Option String
  channels : List SubscriberChannel := []
  tags : List String := []
  language : String := "en"
  status : SubscriberStatus := .active
  doubleOptInConfirmed : Bool := false
  preferenceToken : Option String
  deriving DecidableEq

structure BlastSettings where
  subscribeKeyword : String
  unsubscribeKeyword : String
  confirmationMessage : String
  unsubscribeMessage : String
  doubleOptIn : Bool
  optOutFooter : String
  maxBlastsPerDay : Nat

def DEFAULT_BLAST_SETTINGS : BlastSettings where
  subscribeKeyword := "JOIN"
  unsubscribeKeyword := "STOP"
  confirmationMessage := "You have been subscribed. Reply STOP to unsubscribe."
  unsubscribeMessage := "You have been unsubscribed. Reply JOIN to resubscribe."
  doubleOptIn := false
  optOutFooter := "\nReply STOP to unsubscribe."
  maxBlastsPerDay := 10

/-- The tables: subscribers, and settings by hub. -/
structure Db where
  subscribers : List Subscriber := []
  settings : String → Option BlastSettings := fun _ => none

/-- `ServiceError`, or an error of the database or of an encoding. -/
inductive ServiceError where
  | service (status : Nat) (message : String)
  | thrown
  deriving DecidableEq

/-- `getBlastSettings`. -/
def getBlastSettings (db : Db) (hubId : String) : BlastSettings :=
  (db.settings hubId).getD DEFAULT_BLAST_SETTINGS

/-! ## Hashes and tokens -/

def HMAC_PHONE_PREFIX : String := "llamenos:phone:"

def HMAC_SUBSCRIBER : String := "llamenos:subscriber"

def HMAC_PREFERENCE_TOKEN : String := "llamenos:preference-token"

/-- The server's secret, HMAC-SHA-256, the encryption of an identifier under a key, with a nonce,
and what decrypts it, and `toUpperCase`. -/
structure Prims where
  hmacSecret : Option String
  hmac : Bytes → Bytes → Bytes
  encrypt : Bytes → Nat → String → String
  decrypt : Bytes → String → Option String
  toUpperCase : String → String

/-- A MAC that returns its input, identifiers that are stored as they are, and ASCII letters. -/
def plainPrims : Prims where
  hmacSecret := some "00"
  hmac _ text := text
  encrypt _ _ identifier := identifier
  decrypt _ ct := some ct
  toUpperCase := String.toUpper

/-- `this.hmacSecret`, if there is one. -/
def Prims.secret (prims : Prims) : Except ServiceError String :=
  match prims.hmacSecret with
  | none | some "" => .error (.service 500 "HMAC secret not configured")
  | some secret => .ok secret

/-- HMAC-SHA-256 of a text under the secret as a key in hexadecimal. -/
def Prims.hmacHex (prims : Prims) (text : String) : Except ServiceError String :=
  match prims.secret with
  | .error e => .error e
  | .ok secret =>
    match hexToBytes secret with
    | none => .error .thrown
    | some key => .ok (hexEncode (prims.hmac key (asBytes text)))

def generatePreferenceToken (prims : Prims) (identifierHash : String) :
    Except ServiceError String :=
  prims.hmacHex (HMAC_PREFERENCE_TOKEN ++ identifierHash)

def hashIdentifier (prims : Prims) (identifier : String) : Except ServiceError String :=
  prims.hmacHex (HMAC_SUBSCRIBER ++ identifier)

def secretToKey (secret : String) : Bytes := (hexToBytes secret).getD (asBytes secret)

/-- `hashPhone`: the `senderIdentifierHash` of an inbound message. -/
def hashPhone (prims : Prims) (phone secret : String) : String :=
  hexEncode (prims.hmac (secretToKey secret) (asBytes (HMAC_PHONE_PREFIX ++ phone)))

def encryptContactIdentifier (prims : Prims) (identifier hmacSecret : String) (nonce : Nat) :
    Except ServiceError String :=
  match hexToBytes hmacSecret with
  | none => .error .thrown
  | some key => .ok ("enc:" ++ prims.encrypt key nonce identifier)

/-- What was encrypted, or a text that was stored as it is. -/
def decryptContactIdentifier (prims : Prims) (stored hmacSecret : String) : Option String :=
  match after "enc:" stored with
  | none => some stored
  | some ct => (hexToBytes hmacSecret).bind (prims.decrypt · ct)

/-- `this.hmacSecret ? encryptContactIdentifier(identifier, this.hmacSecret) : null`. -/
def encrypted (prims : Prims) (identifier : String) (nonce : Nat) :
    Except ServiceError (Option String) :=
  match prims.secret with
  | .error _ => .ok none
  | .ok secret => (encryptContactIdentifier prims identifier secret nonce).map some

/-- `resolveSubscriberIdentifier`; the outer `none` where it throws. -/
def resolveSubscriberIdentifier (prims : Prims) (row : Option Subscriber) :
    Option (Option String) :=
  match row.bind Subscriber.encryptedIdentifier, prims.secret with
  | none, _ | some "", _ | _, .error _ => some none
  | some stored, .ok secret => (decryptContactIdentifier prims stored secret).map some

/-! ## Statements -/

/-- The rows that conflict with a new one in a unique index: that of the primary key, or of the
preference tokens. -/
def conflicts (new row : Subscriber) : Bool :=
  row.id = new.id || (row.preferenceToken.isSome && row.preferenceToken = new.preferenceToken)

/-- Whether the row is that of the hub's identifier. -/
def Subscriber.isFor (hubId identifierHash : String) (row : Subscriber) : Bool :=
  row.hubId = some hubId && row.identifierHash = identifierHash

/-- `INSERT INTO subscribers`, of a row with a hub. -/
def insert (rows : List Subscriber) (hubId : String) (new : Subscriber) :
    Option (List Subscriber) :=
  if rows.any fun row => row.isFor hubId new.identifierHash || conflicts new row then none
  else some (rows ++ [new])

/-- `UPDATE subscribers SET … WHERE id = …`. -/
def updateSubscriber (rows : List Subscriber) (id : String) (set : Subscriber → Subscriber) :
    List Subscriber :=
  rows.map fun row => if row.id = id then set row else row

/-- The distinct elements of both. -/
def mergeChannels (channels new : List SubscriberChannel) : List SubscriberChannel :=
  (channels ++ new).dedup

/-- `getSubscriberByIdentifierHash`: one of the rows, of any hub where `hubId` is empty. -/
def getSubscriberByIdentifierHash (db : Db) (identifierHash hubId : String) (pick : Nat) :
    Option Subscriber :=
  let rows := db.subscribers.filter fun row =>
    row.identifierHash = identifierHash && (hubId = "" || row.hubId = some hubId)
  rows[pick % rows.length]?

/-! ## The bulk import -/

structure ImportSubscriberEntry where
  identifier : String
  channel : MessagingChannelType
  tags : List String := []
  language : Option String := none

/-- What a step is told: a new id, a nonce, and which of the rows a `LIMIT 1` gives. -/
structure Input where
  id : String
  nonce : Nat := 0
  pick : Nat := 0

structure ImportResult where
  imported : Nat
  skipped : Nat
  total : Nat
  deriving DecidableEq

/-- The row of an entry. -/
def newSubscriber (prims : Prims) (hubId : String) (entry : ImportSubscriberEntry)
    (input : Input) : Except ServiceError Subscriber := do
  let identifierHash ← hashIdentifier prims entry.identifier
  let preferenceToken ← generatePreferenceToken prims identifierHash
  let encryptedIdentifier ← encrypted prims entry.identifier input.nonce
  return {
    id := input.id, hubId := some hubId, identifierHash, encryptedIdentifier
    channels := [⟨entry.channel, false⟩], tags := entry.tags
    language := entry.language.getD "en", preferenceToken := some preferenceToken }

/-- `INSERT … ON CONFLICT (hub_id, identifier_hash) DO UPDATE`: the rows after it, and whether the
row is new. -/
def upsert (rows : List Subscriber) (hubId : String) (new : Subscriber) :
    Option (List Subscriber × Bool) :=
  if rows.any (·.isFor hubId new.identifierHash) then
    some (rows.map fun row =>
      if row.isFor hubId new.identifierHash then
        { row with
          channels := mergeChannels row.channels new.channels
          tags := if new.tags = [] then row.tags else (row.tags ++ new.tags).dedup }
      else row, false)
  else (insert rows hubId new).map (·, true)

/-- One turn of the loop in `importBulk`. -/
def importEntry (prims : Prims) (rows : List Subscriber) (hubId : String)
    (entry : ImportSubscriberEntry) (input : Input) :
    Except ServiceError (List Subscriber × Bool) :=
  match newSubscriber prims hubId entry input with
  | .error e => .error e
  | .ok new =>
    match upsert rows hubId new with
    | none => .error .thrown
    | some result => .ok result

/-- `importBulk`: what it throws leaves the rows of the entries before. -/
def importBulk (prims : Prims) (rows : List Subscriber) (hubId : String) :
    List (ImportSubscriberEntry × Input) → List Subscriber × Except ServiceError ImportResult
  | [] => (rows, .ok ⟨0, 0, 0⟩)
  | (entry, input) :: rest =>
    match importEntry prims rows hubId entry input with
    | .error e => (rows, .error e)
    | .ok (rows, fresh) =>
      let (rows, result) := importBulk prims rows hubId rest
      (rows, result.map fun r =>
        if fresh then ⟨r.imported + 1, r.skipped, r.total + 1⟩
        else ⟨r.imported, r.skipped + 1, r.total + 1⟩)

/-! ## Keywords -/

/-- The argument of `handleSubscriberKeyword`. -/
structure KeywordData where
  identifier : String
  identifierHash : String
  keyword : String
  channel : MessagingChannelType

structure KeywordReply where
  action : String
  message : String
  subscriberId : Option String := none
  deriving DecidableEq

/-- The row of a new subscriber that has sent the keyword. -/
def keywordSubscriber (prims : Prims) (settings : BlastSettings) (hubId : String)
    (data : KeywordData) (input : Input) : Except ServiceError Subscriber := do
  let preferenceToken ← generatePreferenceToken prims data.identifierHash
  let encryptedIdentifier ← encrypted prims data.identifier input.nonce
  return {
    id := input.id, hubId := some hubId, identifierHash := data.identifierHash, encryptedIdentifier
    channels := [⟨data.channel, true⟩], status := if settings.doubleOptIn then .paused else .active
    doubleOptInConfirmed := !settings.doubleOptIn, preferenceToken := some preferenceToken }

/-- The branch of a new subscriber. -/
def subscribe (prims : Prims) (db : Db) (hubId : String) (data : KeywordData) (input : Input) :
    List Subscriber × Except ServiceError KeywordReply :=
  let settings := getBlastSettings db hubId
  match keywordSubscriber prims settings hubId data input with
  | .error e => (db.subscribers, .error e)
  | .ok new =>
    match insert db.subscribers hubId new with
    | none => (db.subscribers, .error .thrown)
    | some rows => (rows, .ok ⟨"subscribed", settings.confirmationMessage, some new.id⟩)

/-- Whether the keyword unsubscribes. -/
def isUnsubscribe (prims : Prims) (settings : BlastSettings) (keyword : String) : Bool :=
  prims.toUpperCase keyword = prims.toUpperCase settings.unsubscribeKeyword ||
    prims.toUpperCase keyword = "STOP"

/-- `handleSubscriberKeyword`. -/
def handleSubscriberKeyword (prims : Prims) (db : Db) (hubId : String) (data : KeywordData)
    (input : Input) : List Subscriber × Except ServiceError KeywordReply :=
  let settings := getBlastSettings db hubId
  let existing := getSubscriberByIdentifierHash db data.identifierHash hubId input.pick
  if isUnsubscribe prims settings data.keyword then
    (match existing with
      | none => db.subscribers
      | some row => updateSubscriber db.subscribers row.id fun row =>
        { row with status := .unsubscribed },
      .ok ⟨"unsubscribed", settings.unsubscribeMessage, none⟩)
  else if prims.toUpperCase data.keyword = prims.toUpperCase settings.subscribeKeyword then
    match existing with
    | some row =>
      (updateSubscriber db.subscribers row.id fun row =>
        { row with
          status := .active, channels := mergeChannels row.channels [⟨data.channel, true⟩] },
        .ok ⟨"resubscribed", settings.confirmationMessage, none⟩)
    | none => subscribe prims db hubId data input
  else (db.subscribers, .ok ⟨"ignored", "", none⟩)

/-- What an inbound message has for the keywords. -/
structure IncomingMessage where
  channelType : MessagingChannelType
  senderIdentifier : String
  senderIdentifierHash : String
  body : Option String

def IncomingMessage.keywordData (incoming : IncomingMessage) (keyword : String) : KeywordData where
  identifier := incoming.senderIdentifier
  identifierHash := incoming.senderIdentifierHash
  keyword := keyword
  channel := incoming.channelType

/-- The keyword interception of the router: the subscribers after it. What `handleSubscriberKeyword`
throws is caught, or answered; either way its statements have run. -/
def interceptKeyword (prims : Prims) (db : Db) (hubId : String) (incoming : IncomingMessage)
    (input : Input) : List Subscriber :=
  match incoming.body with
  | none | some "" => db.subscribers
  | some body =>
    let normalizedBody := prims.toUpperCase (trim body)
    if normalizedBody = "STOP" then
      (handleSubscriberKeyword prims db hubId (incoming.keywordData "STOP") input).1
    else if normalizedBody = prims.toUpperCase (getBlastSettings db hubId).subscribeKeyword then
      (handleSubscriberKeyword prims db hubId (incoming.keywordData normalizedBody) input).1
    else db.subscribers

/-! ## Preferences -/

/-- The argument of `updatePreferences`. -/
structure Preferences where
  language : Option String := none
  status : Option SubscriberStatus := none
  tags : Option (List String) := none

/-- The `SET` of `updatePreferences`, in which an empty language is none. -/
def Preferences.set (data : Preferences) (row : Subscriber) : Subscriber :=
  { row with
    language := (data.language.filter (· ≠ "")).getD row.language
    status := data.status.getD row.status
    tags := data.tags.getD row.tags }

/-- `updatePreferences`: without anything to set, drizzle throws. -/
def updatePreferences (rows : List Subscriber) (token : String) (data : Preferences) :
    List Subscriber × Except ServiceError Subscriber :=
  match rows.find? (·.preferenceToken = some token) with
  | none => (rows, .error (.service 404 "Invalid token"))
  | some row =>
    if data.language.filter (· ≠ "") = none ∧ data.status = none ∧ data.tags = none then
      (rows, .error .thrown)
    else (updateSubscriber rows row.id data.set, .ok (data.set row))

/-! ## Rows -/

/-- What no update changes of a row. -/
structure Subscriber.Same (row row' : Subscriber) : Prop where
  id : row'.id = row.id
  hubId : row'.hubId = row.hubId
  identifierHash : row'.identifierHash = row.identifierHash
  encryptedIdentifier : row'.encryptedIdentifier = row.encryptedIdentifier
  preferenceToken : row'.preferenceToken = row.preferenceToken

theorem Subscriber.same_ite {p : Prop} [Decidable p] {row : Subscriber}
    {set : Subscriber → Subscriber} (hset : row.Same (set row)) :
    row.Same (if p then set row else row) := by
  split_ifs
  · exact hset
  · exact ⟨rfl, rfl, rfl, rfl, rfl⟩

theorem Subscriber.isFor_iff {row : Subscriber} {hubId identifierHash : String} :
    row.isFor hubId identifierHash ↔
      row.hubId = some hubId ∧ row.identifierHash = identifierHash := by
  simp [Subscriber.isFor]

theorem Subscriber.Same.isFor_eq {row row' : Subscriber} (h : row.Same row')
    (hubId identifierHash : String) :
    row'.isFor hubId identifierHash = row.isFor hubId identifierHash := by
  rw [Subscriber.isFor, Subscriber.isFor, h.hubId, h.identifierHash]

theorem insert_eq_some {rows rows' : List Subscriber} {hubId : String} {new : Subscriber}
    (h : insert rows hubId new = some rows') :
    rows' = rows ++ [new] ∧ ∀ row ∈ rows, row.isFor hubId new.identifierHash = false ∧
      conflicts new row = false := by
  rw [insert] at h
  obtain ⟨hfree, h⟩ := Option.ite_none_left_eq_some.mp h
  refine ⟨(Option.some.inj h).symm, fun row hrow => ?_⟩
  rw [List.any_eq_true, not_exists] at hfree
  have hnone := hfree row
  rw [not_and, Bool.not_eq_true, Bool.or_eq_false_iff] at hnone
  exact hnone hrow

/-- The row of an entry, where there is one. -/
theorem newSubscriber_eq_ok {prims : Prims} {hubId : String} {entry : ImportSubscriberEntry}
    {input : Input} {new : Subscriber} (h : newSubscriber prims hubId entry input = .ok new) :
    new.hubId = some hubId ∧ new.id = input.id ∧
      hashIdentifier prims entry.identifier = .ok new.identifierHash ∧
      ∃ preferenceToken, new.preferenceToken = some preferenceToken ∧
        generatePreferenceToken prims new.identifierHash = .ok preferenceToken := by
  unfold newSubscriber at h
  cases hhash : hashIdentifier prims entry.identifier with
  | error e =>
    rw [hhash] at h
    cases h
  | ok identifierHash =>
    rw [hhash] at h
    dsimp only [bind, Except.bind] at h
    cases htoken : generatePreferenceToken prims identifierHash with
    | error e =>
      rw [htoken] at h
      cases h
    | ok preferenceToken =>
      rw [htoken] at h
      cases hencrypted : encrypted prims entry.identifier input.nonce with
      | error e =>
        rw [hencrypted] at h
        cases h
      | ok encryptedIdentifier =>
        rw [hencrypted] at h
        obtain rfl := Except.ok.inj h
        exact ⟨rfl, rfl, rfl, preferenceToken, rfl, htoken⟩

/-- The row of who has sent a keyword, where there is one. -/
theorem keywordSubscriber_eq_ok {prims : Prims} {settings : BlastSettings} {hubId : String}
    {data : KeywordData} {input : Input} {new : Subscriber}
    (h : keywordSubscriber prims settings hubId data input = .ok new) :
    new.hubId = some hubId ∧ new.id = input.id ∧ new.identifierHash = data.identifierHash ∧
      ∃ preferenceToken, new.preferenceToken = some preferenceToken ∧
        generatePreferenceToken prims new.identifierHash = .ok preferenceToken := by
  unfold keywordSubscriber at h
  cases htoken : generatePreferenceToken prims data.identifierHash with
  | error e =>
    rw [htoken] at h
    cases h
  | ok preferenceToken =>
    rw [htoken] at h
    dsimp only [bind, Except.bind] at h
    cases hencrypted : encrypted prims data.identifier input.nonce with
    | error e =>
      rw [hencrypted] at h
      cases h
    | ok encryptedIdentifier =>
      rw [hencrypted] at h
      obtain rfl := Except.ok.inj h
      exact ⟨rfl, rfl, rfl, preferenceToken, rfl, htoken⟩

end Llamenos.Worker.Subscribers
