import Llamenos.Lib.Noninterference
import Llamenos.Worker.DeliveryRouter

/-!
# What the adapters see of a message

Two runs of the blasts, in notification-only mode. Blasts are created and edited with contents that
have the same media, and other texts; everything else (the order of the statements, the clock, what
the adapters answer) is the same. `buildMessageBody` leaves the text out over SMS, and no other
statement looks at it.

The mode is about the body over SMS alone: a medium goes over every channel, and the text over
every other one.

Results:
* `next_alike`: alike statements lead to alike ones; `step_alike`: **a step of alike systems**.
* `sms_shows_no_text`: **what is called over SMS has nothing of the text**, on both routes.
* `others_show_text`: what is called over WhatsApp, or Telegram, has.
-/

namespace Llamenos.Worker.Blasts

open Llamenos.Lib Llamenos.Crypto Llamenos.Worker.Subscribers
open Llamenos.Worker.DeliveryRouter (Call SameCalls DeliveryRouterDeps RoutedSendParams
  MessageContent fallsBack routeOutboundMessage route_alike sameCalls_of_alike)

variable {keys : Keys} {prims : Prims}

/-- What an adapter is called with by the statement. -/
def Task.calls : Task → List Call
  | .deliver _ delivery _ (.sendMessage params) => [⟨delivery.channel, params⟩]
  | _ => []

def calls (s : System) : Event → List Call
  | .resume i _ => (s.tasks i).elim [] Task.calls
  | _ => []

/-! ## Contents that differ in their texts -/

def BlastContent.medium (content : BlastContent) : Option (String × String) :=
  DeliveryRouter.medium content.mediaUrl content.mediaType

/-- Whatever the languages, the media are the same. -/
def Content.SameMedia (a b : Content) : Prop :=
  ∀ subscriberLang defaultLang,
    (resolveBlastContent a subscriberLang defaultLang).map BlastContent.medium =
      (resolveBlastContent b subscriberLang defaultLang).map BlastContent.medium

theorem Content.SameMedia.refl (content : Content) : content.SameMedia content :=
  fun _ _ => rfl

/-- Both resolve to a text of their own, with the same medium, or neither does. -/
theorem Content.SameMedia.resolve {a b : Content} (h : a.SameMedia b)
    (subscriberLang defaultLang : String) :
    (resolveBlastContent a subscriberLang defaultLang = none ∧
        resolveBlastContent b subscriberLang defaultLang = none) ∨
      ∃ content content', resolveBlastContent a subscriberLang defaultLang = some content ∧
        resolveBlastContent b subscriberLang defaultLang = some content' ∧
        content.medium = content'.medium := by
  have hmedia := h subscriberLang defaultLang
  cases ha : resolveBlastContent a subscriberLang defaultLang with
  | none =>
    rw [ha, Option.map_none] at hmedia
    exact .inl ⟨rfl, Option.map_eq_none_iff.mp hmedia.symm⟩
  | some content =>
    rw [ha, Option.map_some] at hmedia
    obtain ⟨content', hb, hmedium⟩ := Option.map_eq_some_iff.mp hmedia.symm
    exact .inr ⟨content, content', rfl, hb, hmedium.symm⟩

/-- Blasts that differ in their contents' texts. -/
def Blast.Alike (x y : Blast) : Prop :=
  ∃ content, y = { x with content } ∧ x.content.SameMedia content

def CreateBlastInput.Alike (x y : CreateBlastInput) : Prop :=
  ∃ content, y = { x with content } ∧ x.content.SameMedia content

def UpdateBlastInput.Alike (x y : UpdateBlastInput) : Prop :=
  ∃ content, y = { x with content } ∧ Option.Rel Content.SameMedia x.content content

theorem UpdateBlastInput.Alike.refl (x : UpdateBlastInput) : x.Alike x := by
  refine ⟨x.content, rfl, ?_⟩
  cases x.content with
  | none => exact .none
  | some content => exact .some (.refl content)

theorem set_alike {input input' : UpdateBlastInput} (hinput : input.Alike input') {x y : Blast}
    (h : x.Alike y) : (input.set x).Alike (input'.set y) := by
  obtain ⟨content, rfl, hcontent⟩ := hinput
  obtain ⟨old, rfl, hold⟩ := h
  refine ⟨content.getD old, rfl, ?_⟩
  unfold UpdateBlastInput.set
  dsimp only
  generalize input.content = given at hcontent
  cases hcontent with
  | none => exact hold
  | some hnew => exact hnew

/-! ## Tables -/

/-- Tables whose blasts differ in their texts. -/
structure Db.Alike (db db' : Db) : Prop where
  subscribers : db'.toDb = db.toDb
  deliveries : db'.deliveries = db.deliveries
  blasts : List.Forall₂ Blast.Alike db.blasts db'.blasts

theorem Blast.Alike.id_eq {x y : Blast} (h : x.Alike y) : y.id = x.id := by
  obtain ⟨content, rfl, -⟩ := h
  rfl

variable {db db' : Db}

/-- A blast is read in both, with another text, or in neither. -/
theorem getBlast_alike (h : db.Alike db') (id : String) :
    (getBlast db id = none ∧ getBlast db' id = none) ∨
      ∃ blast content, getBlast db id = some blast ∧
        getBlast db' id = some { blast with content } ∧ blast.content.SameMedia content := by
  obtain ⟨-, -, hblasts⟩ := h
  unfold getBlast
  generalize db.blasts = xs at hblasts
  generalize db'.blasts = ys at hblasts
  induction hblasts with
  | nil => exact .inl ⟨rfl, rfl⟩
  | @cons x y xs ys hblast _ ih =>
    by_cases hid : x.id = id
    · rw [List.find?_cons_of_pos (by simpa using hid),
        List.find?_cons_of_pos (by simpa [hblast.id_eq] using hid)]
      obtain ⟨content, rfl, hmedia⟩ := hblast
      exact .inr ⟨x, content, rfl, rfl, hmedia⟩
    · rw [List.find?_cons_of_neg (by simpa using hid),
        List.find?_cons_of_neg (by simpa [hblast.id_eq] using hid)]
      exact ih

theorem sentToday_alike (h : db.Alike db') (hubId : Option String) (since : Int) :
    sentToday db' hubId since = sentToday db hubId since := by
  obtain ⟨-, -, hblasts⟩ := h
  unfold sentToday
  generalize db.blasts = xs at hblasts
  generalize db'.blasts = ys at hblasts
  induction hblasts with
  | nil => rfl
  | cons hblast _ ih =>
    obtain ⟨content, rfl, -⟩ := hblast
    rw [List.countP_cons, List.countP_cons, ih]

/-! ## What is written -/

/-- Writes that differ in a content's texts. -/
inductive Write.Alike : Write → Write → Prop
  | same (w : Write) : Alike w w
  | update (id : String) {input input' : UpdateBlastInput} (h : input.Alike input') :
    Alike (.update id input) (.update id input')

theorem blasts_apply (db : Db) (w : Write) : (w.apply db).blasts = db.blasts.map w.onBlast := by
  have hsame : db.blasts = db.blasts.map fun blast => blast := (List.map_id' _).symm
  cases w with
  | update | schedule | cancel | total | sync => rfl
  | send id sentAt =>
    refine List.map_congr_left fun blast _ => ?_
    by_cases hid : blast.id = id <;> simp [Write.onBlast, hid]
  | nothing | cancelDeliveries | insert | drain | markSent | markDelivered | markFailed
  | markOptedOut | unsubscribe => exact hsame

theorem onBlast_alike {w w' : Write} (hw : w.Alike w') {x y : Blast} (h : x.Alike y) :
    (w.onBlast x).Alike (w'.onBlast y) := by
  cases hw with
  | update id hinput =>
    rw [Write.onBlast, Write.onBlast, h.id_eq]
    split
    · exact set_alike hinput h
    · exact h
  | same =>
    cases w with
    | update id input =>
      rw [Write.onBlast, Write.onBlast, h.id_eq]
      split
      · exact set_alike (.refl input) h
      · exact h
    | send id sentAt =>
      obtain ⟨content, rfl, hmedia⟩ := h
      have hsendable : Blast.sendable { x with content } = x.sendable := rfl
      simp only [Write.onBlast, hsendable]
      split <;> exact ⟨content, rfl, hmedia⟩
    | schedule | cancel | total | sync =>
      obtain ⟨content, rfl, hmedia⟩ := h
      simp only [Write.onBlast]
      split <;> exact ⟨content, rfl, hmedia⟩
    | nothing | cancelDeliveries | insert | drain | markSent | markDelivered | markFailed
    | markOptedOut | unsubscribe => exact h

theorem toDb_apply (h : db'.toDb = db.toDb) (w : Write) :
    (w.apply db').toDb = (w.apply db).toDb := by
  cases w with
  | unsubscribe => simp only [Write.apply, h]
  | _ => exact h

/-- **Alike writes keep tables alike.** -/
theorem apply_alike {w w' : Write} (hw : w.Alike w') (h : db.Alike db') :
    (w.apply db).Alike (w'.apply db') where
  subscribers := by
    cases hw with
    | same => exact toDb_apply h.subscribers w
    | update => exact h.subscribers
  deliveries := by
    rw [deliveries_apply, deliveries_apply, h.deliveries]
    cases hw <;> rfl
  blasts := by
    rw [blasts_apply, blasts_apply, List.forall₂_map_left_iff, List.forall₂_map_right_iff]
    exact h.blasts.imp fun x y => onBlast_alike hw

/-! ## Statements -/

/-- The blasts that are left for the poller. -/
def PassAlike : Option (List Blast) → Option (List Blast) → Prop :=
  Option.Rel (List.Forall₂ Blast.Alike)

/-- Batches in notification-only mode. -/
def Batch.Alike (x y : Batch) : Prop :=
  ∃ content, y = { x with content } ∧ x.content.SameMedia content ∧ x.fullSms = false

/-- A point that has nothing of the content. -/
def Point.plain : Point → Bool
  | .resolveIdentifier _ | .sendMessage _ => false
  | _ => true

inductive Point.Alike (channel : MessagingChannelType) : Point → Point → Prop
  | same {point : Point} (h : point.plain) : Alike channel point point
  | resolveIdentifier {content content' : BlastContent} (h : content.medium = content'.medium) :
    Alike channel (.resolveIdentifier content) (.resolveIdentifier content')
  | sendMessage {params params' : SendParams}
      (h : Call.Alike ⟨channel, params⟩ ⟨channel, params'⟩) :
    Alike channel (.sendMessage params) (.sendMessage params')

/-- A statement that has read no content. -/
def Task.plain : Task → Bool
  | .scheduleRead .. | .scheduleStore .. | .cancelRead _ | .cancelDeliveries _ | .cancelStore _
  | .syncCount _ | .syncRead .. | .syncStore .. | .poll | .webhookFind .. | .webhookDelivered _
  | .webhookFailed .. | .batchSettings .. | .batchConfig .. => true
  | .batchRead _ _ _ fullSms => !fullSms
  | _ => false

/-- Statements that differ in what they have read of the contents' texts. -/
inductive Task.Alike : Task → Task → Prop
  | same {task : Task} (h : task.plain) : Alike task task
  | updateRead (id : String) {input input' : UpdateBlastInput} (h : input.Alike input') :
    Alike (.updateRead id input) (.updateRead id input')
  | updateStore (id : String) {input input' : UpdateBlastInput} (h : input.Alike input') :
    Alike (.updateStore id input) (.updateStore id input')
  | sendRead (id : String) (hubId : Option String) {pass pass' : Option (List Blast)}
      (h : PassAlike pass pass') : Alike (.sendRead id hubId pass) (.sendRead id hubId pass')
  | sendSettings (id : String) (hubId : Option String) (effectiveHubId : String)
      {pass pass' : Option (List Blast)} (h : PassAlike pass pass') :
    Alike (.sendSettings id hubId effectiveHubId pass) (.sendSettings id hubId effectiveHubId pass')
  | sendCount (id : String) (hubId : Option String) (maxBlastsPerDay : Nat) (since : Int)
      {pass pass' : Option (List Blast)} (h : PassAlike pass pass') :
    Alike (.sendCount id hubId maxBlastsPerDay since pass)
      (.sendCount id hubId maxBlastsPerDay since pass')
  | sendStore (id : String) {pass pass' : Option (List Blast)} (h : PassAlike pass pass') :
    Alike (.sendStore id pass) (.sendStore id pass')
  | expandRead (id : String) {pass pass' : Option (List Blast)} (h : PassAlike pass pass') :
    Alike (.expandRead id pass) (.expandRead id pass')
  | expandSubscribers {blast blast' : Blast} (hblast : blast.Alike blast')
      {pass pass' : Option (List Blast)} (h : PassAlike pass pass') :
    Alike (.expandSubscribers blast pass) (.expandSubscribers blast' pass')
  | expandInsert (id : String) (values : List (String × MessagingChannelType))
      (deliveryCount : Nat) {pass pass' : Option (List Blast)} (h : PassAlike pass pass') :
    Alike (.expandInsert id values deliveryCount pass) (.expandInsert id values deliveryCount pass')
  | expandStore (id : String) (deliveryCount : Nat) {pass pass' : Option (List Blast)}
      (h : PassAlike pass pass') :
    Alike (.expandStore id deliveryCount pass) (.expandStore id deliveryCount pass')
  | batchDrain {batch batch' : Batch} (h : batch.Alike batch') :
    Alike (.batchDrain batch) (.batchDrain batch')
  | deliver {batch batch' : Batch} (h : batch.Alike batch') (delivery : Claimed)
      (rest : List Claimed) {point point' : Point} (hpoint : point.Alike delivery.channel point') :
    Alike (.deliver batch delivery rest point) (.deliver batch' delivery rest point')

/-- Calls that go on with alike statements, or are over. -/
def Progress.Alike (x y : Progress) : Prop := Option.Rel Task.Alike x.task? y.task?

/-- The same input, but for the texts of the blasts that the poller reads. -/
def Input.Alike (x y : Input) : Prop :=
  ∃ due, y = { x with due } ∧ List.Forall₂ Blast.Alike x.due due

theorem nextDue_alike {due due' : List Blast} (h : List.Forall₂ Blast.Alike due due') :
    (nextDue due).Alike (nextDue due') := by
  cases h with
  | nil => exact .none
  | @cons blast blast' rest rest' hblast hrest =>
    obtain ⟨content, rfl, -⟩ := hblast
    exact .some (.sendRead blast.id blast.hubId (.some hrest))

theorem thrown_alike {pass pass' : Option (List Blast)} (h : PassAlike pass pass')
    (error : ServiceError) : (thrown pass error).Alike (thrown pass' error) := by
  cases h with
  | none => exact .none
  | some hrest => exact nextDue_alike hrest

theorem over_alike (reply reply' : Except ServiceError Reply) :
    (Progress.done reply).Alike (.done reply') :=
  .none

/-- A blast is read, and the call goes on by it. -/
theorem read_alike (hdb : db.Alike db') (id : String) {missing missing' : Progress}
    (hmissing : missing.Alike missing') {found found' : Blast → Progress}
    (hfound : ∀ blast text, blast.content.SameMedia text →
      (found blast).Alike (found' { blast with content := text })) :
    (match getBlast db id with | none => missing | some blast => found blast).Alike
      (match getBlast db' id with | none => missing' | some blast => found' blast) := by
  rcases getBlast_alike hdb id with ⟨hnone, hnone'⟩ | ⟨blast, text, hread, hread', hmedia⟩
  · rw [hnone, hnone']
    exact hmissing
  · rw [hread, hread']
    exact hfound blast text hmedia

theorem nextDelivery_alike {batch batch' : Batch} (h : batch.Alike batch') (rest : List Claimed) :
    (nextDelivery batch rest).Alike (nextDelivery batch' rest) := by
  cases rest with
  | nil =>
    obtain ⟨content, rfl, -, -⟩ := h
    exact .some (.same rfl)
  | cons delivery rest => exact .some (.deliver h delivery rest (.same rfl))

/-- What an adapter is called with has the medium of the content, and over SMS not its text. -/
theorem sendParams_alike {batch batch' : Batch} (h : batch.Alike batch')
    {content content' : BlastContent} (hmedium : content.medium = content'.medium)
    (channel : MessagingChannelType) (recipientIdentifier : String) :
    Call.Alike ⟨channel, sendParams batch content channel recipientIdentifier⟩
      ⟨channel, sendParams batch' content' channel recipientIdentifier⟩ := by
  obtain ⟨text, rfl, -, hmode⟩ := h
  refine ⟨rfl, ?_⟩
  rintro (rfl : channel = .sms)
  have hurl := congrArg (Option.map Prod.fst) hmedium
  have htype := congrArg (Option.map Prod.snd) hmedium
  simp only [BlastContent.medium, DeliveryRouter.medium_url, DeliveryRouter.medium_type]
    at hurl htype
  unfold sendParams buildMessageBody
  simp only [hmode, Call.mk.injEq, SendParams.mk.injEq, true_and]
  exact ⟨rfl, hurl, htype⟩
variable {input input' : Input}

theorem pointNext_alike (hdb : db.Alike db')
    (hinput : input.Alike input') {batch batch' : Batch} (h : batch.Alike batch')
    (delivery : Claimed) (rest : List Claimed) {point point' : Point}
    (hpoint : point.Alike delivery.channel point') :
    (point.next prims db input batch delivery rest).Alike
      (point'.next prims db' input' batch' delivery rest) := by
  have hsubscriber : getSubscriberById db' = getSubscriberById db := by
    funext subscriberId
    rw [getSubscriberById, getSubscriberById, hdb.subscribers]
  have hactive : isSubscriberActive db' = isSubscriberActive db := by
    funext subscriberId
    rw [isSubscriberActive, isSubscriberActive, hdb.subscribers]
  have hgoes {next : Point} (hplain : next.plain) :
      (Progress.more (.deliver batch delivery rest next)).Alike
        (.more (.deliver batch' delivery rest next)) :=
    .some (.deliver h delivery rest (.same hplain))
  have hblastId : batch'.blastId = batch.blastId := by
    obtain ⟨text, rfl, -, -⟩ := h
    rfl
  obtain ⟨due, rfl, -⟩ := hinput
  cases hpoint with
  | @resolveIdentifier content content' hmedium =>
    simp only [Point.next, hsubscriber]
    split
    · exact .none
    · exact hgoes rfl
    · exact hgoes rfl
    · exact .some (.deliver h delivery rest
        (.sendMessage (sendParams_alike h hmedium delivery.channel _)))
  | sendMessage =>
    simp only [Point.next]
    refine hgoes ?_
    split <;> rfl
  | same hplain =>
    cases point with
    | resolveIdentifier | sendMessage => cases hplain
    | checkBlast =>
      simp only [Point.next, hblastId]
      refine read_alike hdb batch.blastId (over_alike _ _) fun blast text _ => ?_
      dsimp only
      split
      · exact hgoes rfl
      · exact .none
    | checkActive =>
      simp only [Point.next, hactive]
      refine hgoes ?_
      split <;> rfl
    | resolveAdapter =>
      simp only [Point.next]
      refine hgoes ?_
      split <;> rfl
    | waitForToken => exact hgoes rfl
    | getSubscriber =>
      simp only [Point.next, hsubscriber]
      have hread := h
      obtain ⟨text, rfl, hmedia, -⟩ := hread
      dsimp only
      rcases hmedia.resolve (((getSubscriberById db delivery.subscriberId).map
        Subscriber.language).getD "en") batch.defaultLanguage with
        ⟨hnone, hnone'⟩ | ⟨content, content', hresolved, hresolved', hmedium⟩
      · rw [hnone, hnone']
        exact .none
      · rw [hresolved, hresolved']
        exact .some (.deliver h delivery rest (.resolveIdentifier hmedium))
    | markOptedOut | markSent | markFailed => exact nextDelivery_alike h rest
variable {task task' : Task}

theorem next_alike (hdb : db.Alike db')
    (hinput : input.Alike input') (hmode : input.fullSms = false)
    (h : task.Alike task') :
    (task.next keys prims db input).Alike (task'.next keys prims db' input') := by
  have hplain {next : Task} (hnext : next.plain) : (Progress.more next).Alike (.more next) :=
    .some (.same hnext)
  have hdue := hinput
  obtain ⟨due, rfl, hdue⟩ := hdue
  cases h with
  | same hsame =>
    cases task with
    | scheduleRead id scheduledAt =>
      refine read_alike hdb id (over_alike _ _) fun blast text _ => ?_
      dsimp only
      split_ifs
      · exact .none
      · cases scheduledAt with
        | none => exact .none
        | some time =>
          dsimp only
          split_ifs
          · exact .none
          · exact hplain rfl
    | cancelRead id =>
      refine read_alike hdb id (over_alike _ _) fun blast text _ => ?_
      dsimp only
      split_ifs
      · exact .none
      · exact hplain rfl
    | syncCount id =>
      have hstats : computeBlastStats db' id = computeBlastStats db id := by
        rw [computeBlastStats, computeBlastStats, hdb.deliveries]
      simp only [Task.next, hstats]
      exact hplain rfl
    | syncRead id stats =>
      exact read_alike hdb id (over_alike _ _) fun blast text _ => hplain rfl
    | poll => exact nextDue_alike hdue
    | webhookFind externalId status failureReason =>
      simp only [Task.next, findDelivery, hdb.deliveries]
      split
      · exact .none
      · refine hplain ?_
        cases status <;> rfl
    | batchSettings blastId hubId =>
      simp only [Task.next, hdb.subscribers]
      exact hplain rfl
    | batchConfig blastId hubId optOutFooter =>
      refine hplain ?_
      rw [Task.plain, hmode]
      rfl
    | batchRead blastId hubId optOutFooter fullSms =>
      have hfull : fullSms = false := by simpa [Task.plain] using hsame
      exact read_alike hdb blastId (over_alike _ _) fun blast text hmedia =>
        .some (.batchDrain ⟨text, rfl, hmedia, hfull⟩)
    | cancelDeliveries | webhookDelivered | webhookFailed => exact hplain rfl
    | scheduleStore | cancelStore | syncStore => exact .none
    | _ => cases hsame
  | updateRead id hupdate =>
    refine read_alike hdb id (over_alike _ _) fun blast text _ => ?_
    dsimp only
    split_ifs
    · exact .none
    · exact .some (.updateStore id hupdate)
  | updateStore id hupdate =>
    exact read_alike hdb id (over_alike _ _) fun blast text _ => over_alike _ _
  | sendRead id hubId hpass =>
    exact read_alike hdb id (thrown_alike hpass _) fun blast text _ =>
      .some (.sendSettings id hubId _ hpass)
  | sendSettings id hubId effectiveHubId hpass =>
    simp only [Task.next, hdb.subscribers]
    exact .some (.sendCount id hubId _ _ hpass)
  | sendCount id hubId maxBlastsPerDay since hpass =>
    simp only [Task.next, sentToday_alike hdb]
    split_ifs
    · exact thrown_alike hpass _
    · exact .some (.sendStore id hpass)
  | sendStore id hpass =>
    have hsendable : (getBlast db' id).any Blast.sendable =
        (getBlast db id).any Blast.sendable := by
      rcases getBlast_alike hdb id with ⟨hnone, hnone'⟩ | ⟨blast, text, hread, hread', -⟩
      · rw [hnone, hnone']
      · rw [hread, hread']
        rfl
    simp only [Task.next, hsendable]
    split
    · cases hpass with
      | none => exact .none
      | some hrest => exact .some (.expandRead id (.some hrest))
    · exact thrown_alike hpass _
  | expandRead id hpass =>
    refine read_alike hdb id (thrown_alike hpass _) fun blast text hmedia => ?_
    dsimp only
    split_ifs
    · exact thrown_alike hpass _
    · exact thrown_alike hpass _
    · exact .some (.expandSubscribers ⟨text, rfl, hmedia⟩ hpass)
  | @expandSubscribers blast _ hblast _ _ hpass =>
    obtain ⟨text, rfl, -⟩ := hblast
    have hvalues : deliveryValues { blast with content := text } db.subscribers =
        deliveryValues blast db.subscribers := rfl
    simp only [Task.next, hdb.subscribers, hvalues]
    split_ifs
    · exact .some (.expandStore blast.id 0 hpass)
    · exact .some (.expandInsert blast.id _ _ hpass)
  | expandInsert id values deliveryCount hpass =>
    simp only [Task.next]
    split_ifs
    · exact .some (.expandStore id deliveryCount hpass)
    · exact .some (.expandInsert id _ deliveryCount hpass)
  | expandStore id deliveryCount hpass =>
    cases hpass with
    | none => exact .none
    | some hrest => exact nextDue_alike hrest
  | batchDrain hbatch =>
    simp only [Task.next, hdb.deliveries]
    exact nextDelivery_alike hbatch _
  | deliver hbatch delivery rest hpoint =>
    exact pointNext_alike hdb hinput hbatch delivery rest hpoint

theorem fail_alike (hinput : input.Alike input')
    (h : task.Alike task') : (task.fail input).Alike (task'.fail input') := by
  obtain ⟨due, rfl, -⟩ := hinput
  cases h with
  | same hplain => cases task <;> first | exact .none | cases hplain
  | updateRead | updateStore | batchDrain => exact .none
  | sendRead _ _ hpass | sendSettings _ _ _ hpass | sendCount _ _ _ _ hpass | sendStore _ hpass
  | expandRead _ hpass | expandSubscribers _ hpass | expandInsert _ _ _ hpass
  | expandStore _ _ hpass => exact thrown_alike hpass _
  | @deliver batch batch' h delivery rest point point' hpoint =>
    cases hpoint with
    | resolveIdentifier => exact .none
    | sendMessage => exact .some (.deliver h delivery rest (.same rfl))
    | same hplain =>
      cases point with
      | markSent => exact .some (.deliver h delivery rest (.same rfl))
      | markFailed error caught =>
        cases caught with
        | false => exact .none
        | true => exact .some (.deliver h delivery rest (.same rfl))
      | resolveIdentifier | sendMessage => cases hplain
      | _ => exact .none

theorem write_alike (hinput : input.Alike input')
    (h : task.Alike task') : (task.write input).Alike (task'.write input') := by
  obtain ⟨due, rfl, -⟩ := hinput
  cases h with
  | updateStore id hupdate => exact .update id hupdate
  | @deliver _ _ _ delivery rest point _ hpoint =>
    cases hpoint with
    | same => cases point <;> exact .same _
    | resolveIdentifier | sendMessage => exact .same .nothing
  | _ => exact .same _

/-- **Alike statements** write alike, and lead to alike ones. -/
theorem resume_alike (hdb : db.Alike db')
    (hinput : input.Alike input') (hmode : input.fullSms = false)
    (h : task.Alike task') :
    (resume keys prims db input task).1.Alike (resume keys prims db' input' task').1 ∧
      (resume keys prims db input task).2.Alike (resume keys prims db' input' task').2 := by
  have hthrows : input'.throws = input.throws := by
    obtain ⟨due, rfl, -⟩ := hinput
    rfl
  unfold resume
  rw [hthrows]
  split
  · exact ⟨.same .nothing, fail_alike hinput h⟩
  · exact ⟨write_alike hinput h, next_alike hdb hinput hmode h⟩

/-! ## Two runs -/

/-- `smsContentMode` is not read as `full`. -/
def Event.notificationOnly : Event → Bool
  | .resume _ input => !input.fullSms
  | _ => true

/-- The same event, but for the texts of a content that it brings. -/
inductive Event.Alike : Event → Event → Prop
  | call (i : Nat) (op : Op) : Alike (.call i op) (.call i op)
  | updateBlast (i : Nat) (id : String) {input input' : UpdateBlastInput}
      (h : input.Alike input') :
    Alike (.call i (.updateBlast id input)) (.call i (.updateBlast id input'))
  | resume (i : Nat) {input input' : Input} (h : input.Alike input') :
    Alike (.resume i input) (.resume i input')
  | unsubscribe (subscriberId : String) :
    Alike (.unsubscribe subscriberId) (.unsubscribe subscriberId)

theorem Event.Alike.refl (e : Event) : e.Alike e := by
  cases e with
  | call i op => exact .call i op
  | resume i input =>
    have hdue : ∀ blast ∈ input.due, blast.Alike blast :=
      fun blast _ => ⟨blast.content, rfl, .refl blast.content⟩
    exact .resume i ⟨input.due, rfl, List.forall₂_same.mpr hdue⟩
  | unsubscribe subscriberId => exact .unsubscribe subscriberId

structure System.Alike (s s' : System) : Prop where
  db : s.db.Alike s'.db
  tasks : ∀ i, Option.Rel Task.Alike (s.tasks i) (s'.tasks i)

theorem first_alike (op : Op) : op.first.Alike op.first := by
  cases op with
  | updateBlast id input => exact .updateRead id (.refl input)
  | send id hubId => exact .sendRead id hubId .none
  | expandBlast id => exact .expandRead id .none
  | _ => exact .same rfl

/-- A call's next statement, in both systems. -/
theorem update_alike {tasks tasks' : Nat → Option Task}
    (h : ∀ i, Option.Rel Task.Alike (tasks i) (tasks' i)) {task task' : Option Task}
    (htask : Option.Rel Task.Alike task task') (i j : Nat) :
    Option.Rel Task.Alike (Function.update tasks i task j) (Function.update tasks' i task' j) := by
  by_cases hij : j = i
  · rw [hij, Function.update_self, Function.update_self]
    exact htask
  · rw [Function.update_of_ne hij, Function.update_of_ne hij]
    exact h j

theorem taskCalls_alike (h : task.Alike task') :
    List.Forall₂ Call.Alike task.calls task'.calls := by
  cases h with
  | same hplain => cases task <;> first | exact .nil | cases hplain
  | @deliver _ _ _ delivery rest point _ hpoint =>
    cases hpoint with
    | same hplain => cases point <;> first | exact .nil | cases hplain
    | resolveIdentifier => exact .nil
    | sendMessage hcall => exact .cons hcall .nil
  | _ => exact .nil

theorem calls_alike {s s' : System} (h : s.Alike s') {e e' : Event} (he : e.Alike e') :
    List.Forall₂ Call.Alike (calls s e) (calls s' e') := by
  cases he with
  | call | updateBlast | unsubscribe => exact .nil
  | resume i hinput =>
    have hi := h.tasks i
    rw [calls, calls]
    generalize s.tasks i = task at hi
    generalize s'.tasks i = task' at hi
    cases hi with
    | none => exact .nil
    | some htask => exact taskCalls_alike htask

/-- **A step of two alike systems** leaves them alike, and calls adapters alike. -/
theorem step_alike {s s' t t' : System} {e e' : Event} (h : s.Alike s')
    (he : e.notificationOnly ∧ e.Alike e') (hstep : step keys prims s e = some t)
    (hstep' : step keys prims s' e' = some t') :
    t.Alike t' ∧ List.Forall₂ Call.Alike (calls s e) (calls s' e') := by
  obtain ⟨hmode, he⟩ := he
  refine ⟨?_, calls_alike h he⟩
  cases he with
  | call i op =>
    obtain ⟨-, rfl⟩ := step_call hstep
    obtain ⟨-, rfl⟩ := step_call hstep'
    exact ⟨h.db, update_alike h.tasks (.some (first_alike op)) i⟩
  | updateBlast i id hinput =>
    obtain ⟨-, rfl⟩ := step_call hstep
    obtain ⟨-, rfl⟩ := step_call hstep'
    exact ⟨h.db, update_alike h.tasks (.some (.updateRead id hinput)) i⟩
  | unsubscribe subscriberId =>
    obtain rfl := Option.some.inj hstep
    obtain rfl := Option.some.inj hstep'
    exact ⟨apply_alike (.same (.unsubscribe subscriberId)) h.db, h.tasks⟩
  | @resume i input input' hinput =>
    obtain ⟨task, hi, -, rfl⟩ := step_resume hstep
    obtain ⟨task', hi', -, rfl⟩ := step_resume hstep'
    have htask := h.tasks i
    rw [hi, hi'] at htask
    cases htask with
    | some htask =>
      have hfull : input.fullSms = false := by simpa [Event.notificationOnly] using hmode
      obtain ⟨hwrite, hnext⟩ := resume_alike h.db hinput hfull htask
      exact ⟨apply_alike hwrite h.db, update_alike h.tasks hnext i⟩

theorem start_alike {db : Subscribers.Db} {created created' : List (String × CreateBlastInput)}
    (h : List.Forall₂ (fun x y => x.1 = y.1 ∧ x.2.Alike y.2) created created') :
    (start db created).Alike (start db created') where
  db := by
    refine ⟨rfl, rfl, ?_⟩
    refine List.forall₂_map_left_iff.mpr (List.forall₂_map_right_iff.mpr (h.imp ?_))
    rintro ⟨id, input⟩ ⟨id', input'⟩ ⟨rfl, content, rfl, hmedia⟩
    exact ⟨content, rfl, hmedia⟩
  tasks _ := .none

/-- **Two runs of the blasts call adapters alike.** -/
theorem run_alike {s s' t t' : System} {es es' : List Event} (h : s.Alike s')
    (hmode : ∀ e ∈ es, e.notificationOnly) (hes : List.Forall₂ Event.Alike es es')
    (hrun : Runs.run (step keys prims) s es = some t)
    (hrun' : Runs.run (step keys prims) s' es' = some t') :
    List.Forall₂ Call.Alike (Runs.emitted (step keys prims) calls s es)
      (Runs.emitted (step keys prims) calls s' es') := by
  have hboth : List.Forall₂ (fun e e' => e.notificationOnly ∧ e.Alike e') es es' :=
    (List.forall₂_and_left _ _).mpr ⟨hmode, hes⟩
  exact (Noninterference.two_runs step_alike hboth h hrun hrun').2

/-! ## Both routes -/

/-- **SMS shows no text.** In notification-only mode, on both routes, contents with the same media
make the same calls over SMS, and calls to the same addresses over the other channels; on the direct
route, where Signal fails for both or for neither. -/
theorem sms_shows_no_text :
    (∀ (deps : DeliveryRouterDeps) (params : RoutedSendParams) (a b : MessageContent),
      deps.config.smsMode = .notificationOnly → a.medium = b.medium →
      fallsBack deps (params.withContent a) = fallsBack deps (params.withContent b) →
      SameCalls (routeOutboundMessage deps (params.withContent a)).calls
        (routeOutboundMessage deps (params.withContent b)).calls) ∧
    ∀ (keys : Keys) (prims : Prims) (db : Subscribers.Db)
      (created created' : List (String × CreateBlastInput)) (es es' : List Event)
      (t t' : System),
      (∀ e ∈ es, e.notificationOnly) →
      List.Forall₂ (fun x y => x.1 = y.1 ∧ x.2.Alike y.2) created created' →
      List.Forall₂ Event.Alike es es' →
      Runs.run (step keys prims) (start db created) es = some t →
      Runs.run (step keys prims) (start db created') es' = some t' →
      SameCalls (Runs.emitted (step keys prims) calls (start db created) es)
        (Runs.emitted (step keys prims) calls (start db created') es') := by
  constructor
  · intro deps params a b hmode hmedium hsignal
    exact sameCalls_of_alike (route_alike hmode hmedium hsignal)
  · intro keys prims db created created' es es' t t' hmode hcreated hes hrun hrun'
    exact sameCalls_of_alike (run_alike (start_alike hcreated) hmode hes hrun hrun')

/-- A recipient is known on Signal, where nothing gets through. -/
def signalDown : DeliveryRouterDeps where
  config := { enabledChannels := [.sms, .signal, .telegram], signal := true }
  notifierUrl := some "http://notifier:3100"
  notifierApiKey := some "key"
  fetch _ _ _ := some ⟨true, some true⟩
  adapter
    | .signal => some fun _ => none
    | _ => some fun _ => some ⟨true, some "id", none⟩

def toAnn (channelType : MessagingChannelType) : RoutedSendParams where
  body := ""
  channelType
  recipientIdentifier := "+100"
  identifierHash := "hash"
  conversationId := "conversation"

/-- A subscriber, and a blast for one channel. -/
def onChannel (channel : MessagingChannelType) : Subscribers.Db where
  subscribers := [{ ann with channels := [⟨channel, true⟩] }]

def telling (text : String) (channel : MessagingChannelType) : String × CreateBlastInput :=
  ("blast",
    { news.2 with content := .single { text := some text }, targetChannels := [channel] })

/-- The blast is sent and expanded, and a batch calls the adapter. -/
def sentOnce : List Event :=
  .call 0 (.send "blast" none) :: List.replicate 4 (.resume 0 { now := 1 }) ++
    [.call 1 (.expandBlast "blast"), .resume 1 { now := 1 }, .resume 1 { now := 1 },
      .resume 1 { now := 1, ids := ["delivery"] }, .resume 1 { now := 1 },
      .call 2 (.processBlastBatch "blast" "hub"), .resume 2 { now := 1 }, .resume 2 { now := 1 },
      .resume 2 { now := 1 }, .resume 2 { now := 1, claim := ["delivery"] }] ++
    List.replicate 7 (.resume 2 { now := 1 })

theorem sentOnce_shows_no_text :
    (SameCalls (routeOutboundMessage signalDown ((toAnn .sms).withContent ⟨"a", none, none⟩)).calls
      (routeOutboundMessage signalDown ((toAnn .sms).withContent ⟨"b", none, none⟩)).calls) ∧
    SameCalls
      (Runs.emitted (step .properties plainPrims) calls (start (onChannel .sms) [telling "a" .sms])
        sentOnce)
      (Runs.emitted (step .properties plainPrims) calls (start (onChannel .sms) [telling "b" .sms])
        sentOnce) := by
  have hrun (text : String) (h : (Runs.run (step .properties plainPrims)
      (start (onChannel .sms) [telling text .sms]) sentOnce).isSome) :=
    Option.isSome_iff_exists.mp h
  obtain ⟨t, ht⟩ := hrun "a" (by decide +kernel)
  obtain ⟨t', ht'⟩ := hrun "b" (by decide +kernel)
  have hcreated : List.Forall₂ (fun x y => x.1 = y.1 ∧ x.2.Alike y.2) [telling "a" .sms]
      [telling "b" .sms] :=
    .cons ⟨rfl, (telling "b" .sms).2.content, rfl, fun _ _ => rfl⟩ .nil
  have hes : List.Forall₂ Event.Alike sentOnce sentOnce :=
    List.forall₂_same.mpr fun e _ => .refl e
  exact ⟨sms_shows_no_text.1 signalDown (toAnn .sms) _ _ rfl rfl rfl,
    sms_shows_no_text.2 _ _ _ _ _ _ _ t t' (by decide) hcreated hes ht ht'⟩

/-- Signal gets one text through. -/
def signalChoosy : DeliveryRouterDeps where
  config := signalDown.config
  notifierUrl := signalDown.notifierUrl
  notifierApiKey := signalDown.notifierApiKey
  fetch := signalDown.fetch
  adapter
    | .signal => some fun params => if params.body = "a" then some ⟨true, some "id", none⟩ else none
    | channel => signalDown.adapter channel

/-- **Over Telegram and WhatsApp the text is shown**, in notification-only mode, and over SMS
whether Signal has failed. -/
theorem others_show_text :
    signalDown.config.smsMode = .notificationOnly ∧
    ((routeOutboundMessage signalDown
          ((toAnn .telegram).withContent ⟨"a", none, none⟩)).calls.filter Call.observed ≠
        (routeOutboundMessage signalDown
          ((toAnn .telegram).withContent ⟨"b", none, none⟩)).calls.filter Call.observed) ∧
    ((routeOutboundMessage signalChoosy
          ((toAnn .sms).withContent ⟨"a", none, none⟩)).calls.filter Call.observed = [] ∧
        (routeOutboundMessage signalChoosy
          ((toAnn .sms).withContent ⟨"b", none, none⟩)).calls.filter Call.observed ≠ []) ∧
    (Runs.run (step .properties plainPrims)
        (start (onChannel .whatsapp) [telling "a" .whatsapp]) sentOnce).isSome ∧
      (Runs.run (step .properties plainPrims)
        (start (onChannel .whatsapp) [telling "b" .whatsapp]) sentOnce).isSome ∧
      (Runs.emitted (step .properties plainPrims) calls
          (start (onChannel .whatsapp) [telling "a" .whatsapp]) sentOnce).filter Call.observed ≠
        (Runs.emitted (step .properties plainPrims) calls
          (start (onChannel .whatsapp) [telling "b" .whatsapp]) sentOnce).filter Call.observed := by
  decide +kernel

end Llamenos.Worker.Blasts
