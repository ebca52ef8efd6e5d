import Llamenos.Worker.Blasts

/-!
# The route of an outbound message

`apps/worker/messaging/delivery-router.ts`. A message goes over Signal first, if its recipient is
known there; where that fails, or is not tried, it goes over the conversation's own channel. Over
SMS, in notification-only mode, the body is replaced by a notification.

What is outside is a parameter: the notifier's reply, and what each adapter makes of what it is
called with. `sendMediaMessage` is a call with a medium.

Results:
* `route_calls`: the calls of a route.
* `route_alike`: in notification-only mode, **contents with the same medium make the same calls over
  SMS**, and calls to the same addresses over the other channels.
-/

namespace Llamenos.Worker.DeliveryRouter

open Llamenos.Worker.Subscribers Llamenos.Worker.Blasts

/-! ## Calls of adapters -/

/-- A call of a channel's adapter. -/
structure Call where
  channel : MessagingChannelType
  params : SendParams
  deriving DecidableEq

/-- Whom a call is for, and in which conversation. -/
def Call.address (c : Call) : MessagingChannelType × String × String :=
  (c.channel, c.params.recipientIdentifier, c.params.conversationId)

/-- Only Signal is end-to-end encrypted. -/
def Call.observed (c : Call) : Bool := c.channel ≠ .signal

/-- The URL and the type of the medium; an empty `mediaUrl` is none. -/
def medium (mediaUrl mediaType : Option String) : Option (String × String) :=
  (mediaUrl.filter (· ≠ "")).map (·, mediaType.getD "image/jpeg")

theorem medium_url (mediaUrl mediaType : Option String) :
    (medium mediaUrl mediaType).map Prod.fst = mediaUrl.filter (· ≠ "") := by
  rw [medium, Option.map_map]
  exact Option.map_id'

theorem medium_type (mediaUrl mediaType : Option String) :
    (medium mediaUrl mediaType).map Prod.snd =
      (mediaUrl.filter (· ≠ "")).map fun _ => mediaType.getD "image/jpeg" := by
  rw [medium, Option.map_map]
  rfl

/-- Calls to the same address, and over SMS with the same arguments. -/
def Call.Alike (c c' : Call) : Prop := c.address = c'.address ∧ (c.channel = .sms → c = c')

/-- The same calls over SMS, and calls to the same addresses over the other channels. -/
structure SameCalls (cs cs' : List Call) : Prop where
  sms : cs.filter (·.channel = .sms) = cs'.filter (·.channel = .sms)
  addresses : cs.map Call.address = cs'.map Call.address

theorem sameCalls_of_alike {cs cs' : List Call} (h : List.Forall₂ Call.Alike cs cs') :
    SameCalls cs cs' := by
  induction h with
  | nil => exact ⟨rfl, rfl⟩
  | @cons c c' cs cs' hcall _ ih =>
    obtain ⟨haddress, hsame⟩ := hcall
    have hchannel : c.channel = c'.channel := congrArg Prod.fst haddress
    refine ⟨?_, ?_⟩
    · by_cases hsms : c.channel = .sms
      · obtain rfl := hsame hsms
        rw [List.filter_cons_of_pos (by simpa using hsms),
          List.filter_cons_of_pos (by simpa using hsms), ih.sms]
      · rw [List.filter_cons_of_neg (by simpa using hsms),
          List.filter_cons_of_neg (by simpa [← hchannel] using hsms), ih.sms]
    · rw [List.map_cons, List.map_cons, haddress, ih.addresses]

/-! ## The route -/

inductive SmsContentMode where
  | full
  | notificationOnly
  deriving DecidableEq

/-- What the route reads of `MessagingConfig`; `signal` is whether there is a configuration. -/
structure MessagingConfig where
  enabledChannels : List MessagingChannelType
  signal : Bool
  preferSignalDelivery : Option Bool := none
  smsContentMode : Option SmsContentMode := none

def MessagingConfig.preferSignal (config : MessagingConfig) : Bool :=
  config.preferSignalDelivery.getD true

def MessagingConfig.smsMode (config : MessagingConfig) : SmsContentMode :=
  config.smsContentMode.getD .notificationOnly

def MessagingConfig.signalEnabled (config : MessagingConfig) : Bool :=
  config.enabledChannels.contains .signal && config.signal

/-- What the notifier answers with. -/
structure CheckReply where
  ok : Bool
  registered : Option Bool := none

/-- What an adapter makes of what it is called with, or `none` if it throws. -/
abbrev Adapter := SendParams → Option SendResult

structure DeliveryRouterDeps where
  config : MessagingConfig
  notifierUrl : Option String := none
  notifierApiKey : Option String := none
  /-- The notifier's reply, by its URL, the key and the hash, or `none` if the request fails. -/
  fetch : String → String → String → Option CheckReply
  /-- `getMessagingAdapterFromService`, which throws where there is none. -/
  adapter : MessagingChannelType → Option Adapter

def checkSignalAvailability (deps : DeliveryRouterDeps)
    (notifierUrl notifierApiKey identifierHash : String) : Bool :=
  match deps.fetch notifierUrl notifierApiKey identifierHash with
  | none => false
  | some reply => reply.ok && reply.registered = some true

def NOTIFICATION_ONLY_MESSAGE : String :=
  "You have a new secure message. Open Llamenos to view it."

def sanitizeSmsBody (body : String) : SmsContentMode → String
  | .notificationOnly => NOTIFICATION_ONLY_MESSAGE
  | .full => body

structure MessageContent where
  body : String
  mediaUrl : Option String := none
  mediaType : Option String := none

def MessageContent.medium (content : MessageContent) : Option (String × String) :=
  DeliveryRouter.medium content.mediaUrl content.mediaType

structure RoutedSendParams extends MessageContent where
  channelType : MessagingChannelType
  recipientIdentifier : String
  identifierHash : String
  conversationId : String

/-- What an adapter is called with. -/
def sendParams (params : RoutedSendParams) (body : String) : SendParams :=
  let mediaUrl := params.mediaUrl.filter (· ≠ "")
  { recipientIdentifier := params.recipientIdentifier
    body
    conversationId := params.conversationId
    mediaUrl
    mediaType := mediaUrl.map fun _ => params.mediaType.getD "image/jpeg" }

/-- The calls made, and the result with the channel it came from, or `none` if the route throws. -/
structure Routed where
  calls : List Call
  result : Option (SendResult × MessagingChannelType)

/-- Over a channel, if it has an adapter. -/
def sendOver (deps : DeliveryRouterDeps) (channel : MessagingChannelType) (params : SendParams) :
    Routed :=
  match deps.adapter channel with
  | none => ⟨[], none⟩
  | some send => ⟨[⟨channel, params⟩], (send params).map (·, channel)⟩

/-- Over Signal first: it is preferred, enabled, and the notifier knows the recipient. -/
def triesSignal (deps : DeliveryRouterDeps) (params : RoutedSendParams) : Bool :=
  deps.config.preferSignal && deps.config.signalEnabled &&
    match deps.notifierUrl, deps.notifierApiKey with
    | some notifierUrl, some notifierApiKey =>
      notifierUrl ≠ "" && notifierApiKey ≠ "" &&
        checkSignalAvailability deps notifierUrl notifierApiKey params.identifierHash
    | _, _ => false

def routeOverSignal (deps : DeliveryRouterDeps) (params : RoutedSendParams) : Routed :=
  sendOver deps .signal (sendParams params params.body)

def channelBody (deps : DeliveryRouterDeps) (params : RoutedSendParams) : String :=
  if params.channelType = .sms then sanitizeSmsBody params.body deps.config.smsMode else params.body

def routeOverChannel (deps : DeliveryRouterDeps) (params : RoutedSendParams) : Routed :=
  sendOver deps params.channelType (sendParams params (channelBody deps params))

def routeOutboundMessage (deps : DeliveryRouterDeps) (params : RoutedSendParams) : Routed :=
  if triesSignal deps params then
    let first := routeOverSignal deps params
    match first.result with
    | some result => ⟨first.calls, some result⟩
    | none =>
      -- what Signal throws is logged, and the message falls back
      let fallback := routeOverChannel deps params
      ⟨first.calls ++ fallback.calls, fallback.result⟩
  else routeOverChannel deps params

/-! ## Two contents -/

variable {deps : DeliveryRouterDeps} {params : RoutedSendParams} {a b : MessageContent}

/-- The message with this content. -/
def RoutedSendParams.withContent (params : RoutedSendParams) (content : MessageContent) :
    RoutedSendParams :=
  { params with toMessageContent := content }

/-- The message falls back from Signal. -/
def fallsBack (deps : DeliveryRouterDeps) (params : RoutedSendParams) : Bool :=
  triesSignal deps params && (routeOverSignal deps params).result.isNone

/-- **The calls of a route**: over Signal if it is tried, and over the channel if it is not, or has
failed. -/
theorem route_calls (deps : DeliveryRouterDeps) (params : RoutedSendParams) :
    (routeOutboundMessage deps params).calls =
      (if triesSignal deps params then (routeOverSignal deps params).calls else []) ++
        if triesSignal deps params && !fallsBack deps params then []
        else (routeOverChannel deps params).calls := by
  unfold routeOutboundMessage fallsBack
  cases triesSignal deps params with
  | false => rfl
  | true =>
    rw [if_pos rfl, if_pos rfl]
    cases hresult : (routeOverSignal deps params).result <;> simp [hresult]

/-- A medium is the part of the arguments that the body is not. -/
theorem sendParams_eq (h : a.medium = b.medium) (body : String) :
    sendParams (params.withContent a) body = sendParams (params.withContent b) body := by
  have hurl := congrArg (Option.map Prod.fst) h
  have htype := congrArg (Option.map Prod.snd) h
  simp only [MessageContent.medium, medium_url, medium_type] at hurl htype
  simp only [sendParams, RoutedSendParams.withContent, SendParams.mk.injEq, true_and]
  exact ⟨hurl, htype⟩

/-- Over a channel, the calls are alike if the arguments are. -/
theorem sendOver_alike {channel : MessagingChannelType} {sent sent' : SendParams}
    (h : Call.Alike ⟨channel, sent⟩ ⟨channel, sent'⟩) :
    List.Forall₂ Call.Alike (sendOver deps channel sent).calls
      (sendOver deps channel sent').calls := by
  unfold sendOver
  cases deps.adapter channel with
  | none => exact .nil
  | some send => exact .cons h .nil

theorem routeOverSignal_alike (params : RoutedSendParams) (a b : MessageContent) :
    List.Forall₂ Call.Alike (routeOverSignal deps (params.withContent a)).calls
      (routeOverSignal deps (params.withContent b)).calls :=
  sendOver_alike ⟨rfl, nofun⟩

/-- In notification-only mode, the body does not go over SMS. -/
theorem channelBody_sms (hmode : deps.config.smsMode = .notificationOnly)
    (hsms : params.channelType = .sms) : channelBody deps params = NOTIFICATION_ONLY_MESSAGE := by
  rw [channelBody, if_pos hsms, hmode, sanitizeSmsBody]

theorem routeOverChannel_alike (hmode : deps.config.smsMode = .notificationOnly)
    (hmedium : a.medium = b.medium) :
    List.Forall₂ Call.Alike (routeOverChannel deps (params.withContent a)).calls
      (routeOverChannel deps (params.withContent b)).calls := by
  refine sendOver_alike ⟨rfl, fun hsms => ?_⟩
  have hsms' : (params.withContent b).channelType = .sms := hsms
  rw [channelBody_sms hmode hsms, channelBody_sms hmode hsms', sendParams_eq hmedium]

/-- **Contents with the same medium make the same calls over SMS**, where Signal fails for both or
for neither. -/
theorem route_alike (hmode : deps.config.smsMode = .notificationOnly)
    (hmedium : a.medium = b.medium)
    (hsignal : fallsBack deps (params.withContent a) = fallsBack deps (params.withContent b)) :
    List.Forall₂ Call.Alike (routeOutboundMessage deps (params.withContent a)).calls
      (routeOutboundMessage deps (params.withContent b)).calls := by
  rw [route_calls, route_calls, hsignal,
    show triesSignal deps (params.withContent a) = triesSignal deps (params.withContent b) from rfl]
  refine List.rel_append ?_ ?_
  · split
    · exact routeOverSignal_alike params a b
    · exact .nil
  · split
    · exact .nil
    · exact routeOverChannel_alike hmode hmedium

end Llamenos.Worker.DeliveryRouter
