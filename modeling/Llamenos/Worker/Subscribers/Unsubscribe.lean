import Llamenos.Worker.Blasts

/-!
# Who a message unsubscribes

The bulk import hashes an identifier under one label (`hashIdentifier`), and the adapters hash the
sender of an inbound message under another (`hashPhone`). So `handleSubscriberKeyword` looks for the
sender among the rows that a keyword has made, and does not find those that an import has. And the
router hands over what says STOP, or the hub's subscribe keyword, but not its unsubscribe keyword.

A subscriber is of the identifier that its row is resolved to when a blast is delivered
(`resolveSubscriberIdentifier`).

Results:
* `keyed_run`: the unique indexes hold in every run.
* `silenced_iff`: **a message with an unsubscribe keyword leaves no subscriber of its sender active
  exactly if all that are active have the sender's hash, and the router hands the message over.**
* `imported_remains`: who was imported stays active after STOP.
-/

namespace Llamenos.Worker.Subscribers

open Llamenos.Lib Llamenos.Crypto

variable {prims : Prims}

/-! ## Calls -/

/-- `Partial<BlastSettings>`. -/
structure UpdateBlastSettings where
  subscribeKeyword : Option String := none
  unsubscribeKeyword : Option String := none
  confirmationMessage : Option String := none
  unsubscribeMessage : Option String := none
  doubleOptIn : Option Bool := none
  optOutFooter : Option String := none
  maxBlastsPerDay : Option Nat := none

def updateBlastSettings (db : Db) (hubId : String) (data : UpdateBlastSettings) : Db :=
  let current := getBlastSettings db hubId
  { db with
    settings := Function.update db.settings hubId (some {
      subscribeKeyword := data.subscribeKeyword.getD current.subscribeKeyword
      unsubscribeKeyword := data.unsubscribeKeyword.getD current.unsubscribeKeyword
      confirmationMessage := data.confirmationMessage.getD current.confirmationMessage
      unsubscribeMessage := data.unsubscribeMessage.getD current.unsubscribeMessage
      doubleOptIn := data.doubleOptIn.getD current.doubleOptIn
      optOutFooter := data.optOutFooter.getD current.optOutFooter
      maxBlastsPerDay := data.maxBlastsPerDay.getD current.maxBlastsPerDay }) }

def deleteSubscriber (rows : List Subscriber) (id : String) : List Subscriber :=
  rows.filter (·.id ≠ id)

/-- What the adapters make of the sender of a message. -/
def senderHash (prims : Prims) (sender : String) : String :=
  hashPhone prims sender (prims.hmacSecret.getD "")

/-- The message that an adapter has parsed. -/
def receive (prims : Prims) (channelType : MessagingChannelType) (sender body : String) :
    IncomingMessage where
  channelType := channelType
  senderIdentifier := sender
  senderIdentifierHash := senderHash prims sender
  body := some body

/-- The calls that change subscribers or settings. -/
inductive Event where
  | importBulk (hubId : String) (entries : List (ImportSubscriberEntry × Input))
  | message (hubId : String) (channelType : MessagingChannelType) (sender body : String)
      (input : Input)
  | updatePreferences (token : String) (data : Preferences)
  | updateBlastSettings (hubId : String) (data : UpdateBlastSettings)
  | deleteSubscriber (id : String)

def step (prims : Prims) (db : Db) : Event → Option Db
  | .importBulk hubId entries =>
    some { db with subscribers := (importBulk prims db.subscribers hubId entries).1 }
  | .message hubId channelType sender body input =>
    some { db with
      subscribers := interceptKeyword prims db hubId (receive prims channelType sender body) input }
  | .updatePreferences token data =>
    some { db with subscribers := (updatePreferences db.subscribers token data).1 }
  | .updateBlastSettings hubId data => some (updateBlastSettings db hubId data)
  | .deleteSubscriber id => some { db with subscribers := deleteSubscriber db.subscribers id }

/-! ## The unique indexes -/

/-- The unique indexes: of the primary key, and of a hub's identifiers. -/
structure Keyed (rows : List Subscriber) : Prop where
  ids : (rows.map Subscriber.id).Nodup
  identifiers : ∀ a ∈ rows, ∀ b ∈ rows, ∀ hubId identifierHash, a.isFor hubId identifierHash →
    b.isFor hubId identifierHash → a.id = b.id
variable {rows : List Subscriber}

theorem Keyed.map (h : Keyed rows) {f : Subscriber → Subscriber}
    (hf : ∀ row : Subscriber, row.Same (f row)) : Keyed (rows.map f) where
  ids := by
    rw [List.map_map, show Subscriber.id ∘ f = Subscriber.id from funext fun row => (hf row).id]
    exact h.ids
  identifiers a ha b hb hubId identifierHash hfa hfb := by
    obtain ⟨a', ha', rfl⟩ := List.mem_map.mp ha
    obtain ⟨b', hb', rfl⟩ := List.mem_map.mp hb
    rw [(hf a').isFor_eq] at hfa
    rw [(hf b').isFor_eq] at hfb
    rw [(hf a').id, (hf b').id]
    exact h.identifiers a' ha' b' hb' hubId identifierHash hfa hfb

theorem Keyed.update (h : Keyed rows) (id : String)
    {set : Subscriber → Subscriber} (hset : ∀ row : Subscriber, row.Same (set row)) :
    Keyed (updateSubscriber rows id set) :=
  h.map fun row => Subscriber.same_ite (hset row)

theorem Keyed.insert {rows rows' : List Subscriber} (h : Keyed rows) {hubId : String}
    {new : Subscriber} (hhub : new.hubId = some hubId)
    (hinsert : Subscribers.insert rows hubId new = some rows') : Keyed rows' := by
  obtain ⟨rfl, hfree⟩ := insert_eq_some hinsert
  have hids : ∀ row ∈ rows, row.id ≠ new.id := by
    intro row hrow hid
    have := (hfree row hrow).2
    simp [conflicts, hid] at this
  have hnone : ∀ row ∈ rows, ∀ hubId' identifierHash, row.isFor hubId' identifierHash →
      ¬ new.isFor hubId' identifierHash := by
    intro row hrow hubId' identifierHash hfor hnew
    obtain ⟨hhub', rfl⟩ := Subscriber.isFor_iff.mp hnew
    obtain rfl := Option.some.inj (hhub.symm.trans hhub')
    rw [(hfree row hrow).1] at hfor
    cases hfor
  refine ⟨?_, fun a ha b hb hubId' identifierHash hfa hfb => ?_⟩
  · rw [List.map_append, List.map_singleton]
    refine List.nodup_append.mpr ⟨h.ids, List.nodup_singleton _, fun id hid id' hid' => ?_⟩
    obtain ⟨row, hrow, rfl⟩ := List.mem_map.mp hid
    rw [List.mem_singleton.mp hid']
    exact hids row hrow
  · rcases List.mem_append.mp ha with ha | ha <;> rcases List.mem_append.mp hb with hb | hb
    · exact h.identifiers a ha b hb hubId' identifierHash hfa hfb
    · rw [List.mem_singleton.mp hb] at hfb
      exact absurd hfb (hnone a ha hubId' identifierHash hfa)
    · rw [List.mem_singleton.mp ha] at hfa
      exact absurd hfa (hnone b hb hubId' identifierHash hfb)
    · rw [List.mem_singleton.mp ha, List.mem_singleton.mp hb]

theorem Keyed.delete (h : Keyed rows) (id : String) :
    Keyed (deleteSubscriber rows id) where
  ids := h.ids.sublist (List.filter_sublist.map _)
  identifiers a ha b hb := h.identifiers a (List.mem_of_mem_filter ha) b (List.mem_of_mem_filter hb)

theorem Keyed.importEntry {rows rows' : List Subscriber} (h : Keyed rows) {hubId : String}
    {entry : ImportSubscriberEntry} {input : Input} {fresh : Bool}
    (himport : Subscribers.importEntry prims rows hubId entry input = .ok (rows', fresh)) :
    Keyed rows' := by
  unfold Subscribers.importEntry at himport
  cases hnew : newSubscriber prims hubId entry input with
  | error e =>
    rw [hnew] at himport
    cases himport
  | ok new =>
    rw [hnew] at himport
    dsimp only at himport
    cases hupsert : upsert rows hubId new with
    | none =>
      rw [hupsert] at himport
      cases himport
    | some result =>
      rw [hupsert] at himport
      obtain rfl := Except.ok.inj himport
      unfold upsert at hupsert
      split at hupsert
      · cases hupsert
        refine h.map fun row => ?_
        split <;> exact ⟨rfl, rfl, rfl, rfl, rfl⟩
      · obtain ⟨rows'', hinsert, hpair⟩ := Option.map_eq_some_iff.mp hupsert
        cases hpair
        exact h.insert (newSubscriber_eq_ok hnew).1 hinsert

theorem Keyed.importBulk (h : Keyed rows) (prims : Prims) (hubId : String)
    (entries : List (ImportSubscriberEntry × Input)) :
    Keyed (Subscribers.importBulk prims rows hubId entries).1 := by
  induction entries generalizing rows with
  | nil => exact h
  | cons first rest ih =>
    obtain ⟨entry, input⟩ := first
    unfold Subscribers.importBulk
    cases hentry : Subscribers.importEntry prims rows hubId entry input with
    | error e => exact h
    | ok result => exact ih (h.importEntry hentry)
variable {db : Db}

theorem Keyed.handleSubscriberKeyword (h : Keyed db.subscribers) (prims : Prims)
    (hubId : String) (data : KeywordData) (input : Input) :
    Keyed (Subscribers.handleSubscriberKeyword prims db hubId data input).1 := by
  unfold Subscribers.handleSubscriberKeyword
  dsimp only
  split
  · cases getSubscriberByIdentifierHash db data.identifierHash hubId input.pick with
    | none => exact h
    | some row => exact h.update row.id fun row => ⟨rfl, rfl, rfl, rfl, rfl⟩
  · split
    · cases getSubscriberByIdentifierHash db data.identifierHash hubId input.pick with
      | some row => exact h.update row.id fun row => ⟨rfl, rfl, rfl, rfl, rfl⟩
      | none =>
        dsimp only
        unfold subscribe
        dsimp only
        cases hnew : keywordSubscriber prims (getBlastSettings db hubId) hubId data input with
        | error e => exact h
        | ok new =>
          dsimp only
          cases hinsert : Subscribers.insert db.subscribers hubId new with
          | none => exact h
          | some rows => exact h.insert (keywordSubscriber_eq_ok hnew).1 hinsert
    · exact h

theorem Keyed.interceptKeyword (h : Keyed db.subscribers) (prims : Prims) (hubId : String)
    (incoming : IncomingMessage) (input : Input) :
    Keyed (Subscribers.interceptKeyword prims db hubId incoming input) := by
  unfold Subscribers.interceptKeyword
  split
  · exact h
  · exact h
  · dsimp only
    split
    · exact h.handleSubscriberKeyword ..
    · split
      · exact h.handleSubscriberKeyword ..
      · exact h

theorem Keyed.updatePreferences (h : Keyed rows) (token : String)
    (data : Preferences) : Keyed (Subscribers.updatePreferences rows token data).1 := by
  unfold Subscribers.updatePreferences
  split
  · exact h
  · split
    · exact h
    · exact h.update _ fun row => ⟨rfl, rfl, rfl, rfl, rfl⟩

/-- **The unique indexes hold in every run.** -/
theorem keyed_run {es : List Event} (h : Runs.run (step prims) {} es = some db) :
    Keyed db.subscribers := by
  refine Runs.run_inv (I := fun db => Keyed db.subscribers) (fun db e db' hkeyed hstep => ?_) ?_ h
  · cases e with
    | importBulk hubId entries =>
      exact Option.some.inj hstep ▸ hkeyed.importBulk prims hubId entries
    | message hubId channelType sender body input =>
      exact Option.some.inj hstep ▸ hkeyed.interceptKeyword prims hubId _ input
    | updatePreferences token data =>
      exact Option.some.inj hstep ▸ hkeyed.updatePreferences token data
    | updateBlastSettings hubId data => exact Option.some.inj hstep ▸ hkeyed
    | deleteSubscriber id => exact Option.some.inj hstep ▸ hkeyed.delete id
  · exact ⟨List.nodup_nil, fun a ha => by cases ha⟩

/-! ## What a message with an unsubscribe keyword leaves -/

/-- The subscriber's messages go to the identifier. -/
def Subscriber.Of (prims : Prims) (identifier : String) (row : Subscriber) : Prop :=
  resolveSubscriberIdentifier prims (some row) = some (some identifier)

/-- No subscriber of the identifier in the hub is active, nor is a blast of the hub for one. -/
structure Silenced (prims : Prims) (hubId identifier : String) (rows : List Subscriber) : Prop where
  inactive : ∀ row ∈ rows, row.hubId = some hubId → row.Of prims identifier →
    row.status ≠ .active
  untargeted : ∀ row ∈ rows, row.hubId = some hubId → row.Of prims identifier →
    ∀ blast : Blasts.Blast, blast.hubId = some hubId → ∀ channel,
      (row.id, channel) ∉ Blasts.deliveryValues blast rows

/-- The body says STOP, or the hub's unsubscribe keyword. -/
def isUnsubscribing (prims : Prims) (settings : BlastSettings) (body : String) : Prop :=
  prims.toUpperCase (trim body) = "STOP" ∨
    prims.toUpperCase (trim body) = prims.toUpperCase settings.unsubscribeKeyword

/-- The router hands the message over to `handleSubscriberKeyword`. -/
def isRouted (prims : Prims) (settings : BlastSettings) (body : String) : Bool :=
  body ≠ "" && (prims.toUpperCase (trim body) = "STOP" ||
    prims.toUpperCase (trim body) = prims.toUpperCase settings.subscribeKeyword)

/-- What documents `toUpperCase`, as far as it matters here. -/
structure UpperCase (toUpperCase : String → String) : Prop where
  idem : ∀ text, toUpperCase (toUpperCase text) = toUpperCase text
  stop : toUpperCase "STOP" = "STOP"

/-- Rows are silenced where none is active. -/
theorem silenced_iff_inactive {hubId identifier : String}
    (hkeyed : Keyed rows) : Silenced prims hubId identifier rows ↔
      ∀ row ∈ rows, row.hubId = some hubId → row.Of prims identifier → row.status ≠ .active := by
  refine ⟨Silenced.inactive, fun hinactive => ⟨hinactive, ?_⟩⟩
  intro row hrow hhub hof blast _ channel hmem
  obtain ⟨target, htarget, hvalue⟩ := List.mem_flatMap.mp hmem
  obtain ⟨htarget, hmatches⟩ := List.mem_filter.mp htarget
  obtain ⟨_, -, hpair⟩ := List.mem_map.mp hvalue
  have hid : target.id = row.id := congrArg Prod.fst hpair
  rw [List.inj_on_of_nodup_map hkeyed.ids htarget hrow hid] at hmatches
  have hactive : row.status = .active := by
    simp only [Blasts.Blast.matchesSubscriber, Bool.and_eq_true, decide_eq_true_eq] at hmatches
    exact hmatches.1.1.1.1
  exact hinactive row hrow hhub hof hactive

/-- The rows where somebody opts out. -/
def optOut (rows : List Subscriber) (row : Option Subscriber) : List Subscriber :=
  row.elim rows fun row =>
    updateSubscriber rows row.id fun row => { row with status := .unsubscribed }

/-- What a message with an unsubscribe keyword does: who is found opts out, if it is routed. -/
theorem interceptKeyword_eq {hubId sender body : String}
    (hupper : UpperCase prims.toUpperCase)
    (hbody : isUnsubscribing prims (getBlastSettings db hubId) body)
    (channelType : MessagingChannelType) (input : Input) :
    interceptKeyword prims db hubId (receive prims channelType sender body) input =
      if isRouted prims (getBlastSettings db hubId) body then
        optOut db.subscribers
          (getSubscriberByIdentifierHash db (senderHash prims sender) hubId input.pick)
      else db.subscribers := by
  have hhandle (data : KeywordData) (hhash : data.identifierHash = senderHash prims sender)
      (hkeyword : isUnsubscribe prims (getBlastSettings db hubId) data.keyword) :
      (handleSubscriberKeyword prims db hubId data input).1 = optOut db.subscribers
        (getSubscriberByIdentifierHash db (senderHash prims sender) hubId input.pick) := by
    unfold handleSubscriberKeyword
    dsimp only
    rw [if_pos hkeyword, hhash]
    cases getSubscriberByIdentifierHash db (senderHash prims sender) hubId input.pick <;> rfl
  by_cases hempty : body = ""
  · rw [if_neg (by simp [isRouted, hempty]), hempty]
    rfl
  · unfold interceptKeyword
    rw [show (receive prims channelType sender body).body = some body from rfl]
    split
    · rename_i hnone
      cases hnone
    · rename_i hsome
      exact absurd (Option.some.inj hsome) hempty
    · rename_i text _ hsome
      obtain rfl := Option.some.inj hsome
      dsimp only
      by_cases hstop : prims.toUpperCase (trim body) = "STOP"
      · rw [if_pos hstop, if_pos (by simp [isRouted, hempty, hstop])]
        exact hhandle _ rfl (by simp [isUnsubscribe, IncomingMessage.keywordData, hupper.stop])
      · rw [if_neg hstop]
        by_cases hsubscribe : prims.toUpperCase (trim body) =
            prims.toUpperCase (getBlastSettings db hubId).subscribeKeyword
        · rw [if_pos hsubscribe, if_pos (by simp [isRouted, hempty, hsubscribe])]
          refine hhandle _ rfl ?_
          have hcustom := hbody.resolve_left hstop
          simp [isUnsubscribe, IncomingMessage.keywordData, hupper.idem, hcustom]
        · rw [if_neg hsubscribe, if_neg (by simp [isRouted, hstop, hsubscribe])]

/-- Who is active after an opt-out was active, and is somebody else. -/
theorem active_optOut {found : Option Subscriber} {hubId sender : String} :
    (∀ row ∈ optOut rows found, row.hubId = some hubId → row.Of prims sender →
        row.status ≠ .active) ↔
      ∀ row ∈ rows, row.hubId = some hubId → row.Of prims sender → row.status = .active →
        found.map Subscriber.id = some row.id := by
  cases found with
  | none =>
    refine forall_congr' fun row => forall_congr' fun _ => forall_congr' fun _ =>
      forall_congr' fun _ => ⟨fun h hactive => absurd hactive h, fun h hactive => ?_⟩
    cases h hactive
  | some row₀ =>
    unfold optOut updateSubscriber
    constructor
    · intro h row hrow hhub hof hactive
      by_contra hne
      have hother : row.id ≠ row₀.id := fun hid => hne (by rw [hid]; rfl)
      refine h row (List.mem_map.mpr ⟨row, hrow, if_neg hother⟩) hhub hof hactive
    · intro h row' hrow' hhub hof hactive
      obtain ⟨row, hrow, rfl⟩ := List.mem_map.mp hrow'
      by_cases hid : row.id = row₀.id
      · rw [if_pos hid] at hactive
        cases hactive
      · rw [if_neg hid] at hhub hof hactive
        exact hid (Option.some.inj (h row hrow hhub hof hactive)).symm
variable {identifierHash hubId : String}

theorem getSubscriber_some {pick : Nat} {row : Subscriber}
    (h : getSubscriberByIdentifierHash db identifierHash hubId pick = some row) :
    row ∈ db.subscribers ∧ row.identifierHash = identifierHash ∧
      (hubId = "" ∨ row.hubId = some hubId) := by
  have hmem := List.mem_of_getElem? h
  simpa using hmem

/-- A lookup finds who is there. -/
theorem getSubscriber_isSome {row : Subscriber}
    (hrow : row ∈ db.subscribers) (hhash : row.identifierHash = identifierHash)
    (hhub : row.hubId = some hubId) (pick : Nat) :
    (getSubscriberByIdentifierHash db identifierHash hubId pick).isSome := by
  unfold getSubscriberByIdentifierHash
  dsimp only
  have hmem : row ∈ db.subscribers.filter fun row =>
      row.identifierHash = identifierHash && (hubId = "" || row.hubId = some hubId) := by
    simp [hrow, hhash, hhub]
  rw [isSome_getElem?]
  exact Nat.mod_lt _ (List.length_pos_of_mem hmem)

/-- Who is found under the hash in a hub. -/
theorem found_iff (hkeyed : Keyed db.subscribers)
    {row : Subscriber} (hrow : row ∈ db.subscribers) (hhub : row.hubId = some hubId) (pick : Nat) :
    (getSubscriberByIdentifierHash db identifierHash hubId pick).map Subscriber.id = some row.id ↔
      row.identifierHash = identifierHash ∧ (hubId = "" →
        (getSubscriberByIdentifierHash db identifierHash hubId pick).map Subscriber.id =
          some row.id) := by
  constructor
  · intro h
    obtain ⟨found, hfound, hid⟩ := Option.map_eq_some_iff.mp h
    obtain ⟨hmem, hhash, -⟩ := getSubscriber_some hfound
    refine ⟨?_, fun _ => h⟩
    rw [← List.inj_on_of_nodup_map hkeyed.ids hmem hrow hid]
    exact hhash
  · rintro ⟨hhash, hempty⟩
    by_cases hhubId : hubId = ""
    · exact hempty hhubId
    · obtain ⟨found, hfound⟩ := Option.isSome_iff_exists.mp
        (getSubscriber_isSome hrow hhash hhub pick)
      obtain ⟨hmem, hfoundHash, hfoundHub⟩ := getSubscriber_some hfound
      rw [hfound, Option.map_some, hkeyed.identifiers found hmem row hrow hubId identifierHash
        (Subscriber.isFor_iff.mpr ⟨hfoundHub.resolve_left hhubId, hfoundHash⟩)
        (Subscriber.isFor_iff.mpr ⟨hhub, hhash⟩)]

/-- **A message with an unsubscribe keyword leaves no subscriber of its sender active exactly if all
that are active have the sender's hash, and the router hands the message over.** Without a hub, it
also has to be the one that is found, in whatever hub. -/
theorem silenced_iff (hupper : UpperCase prims.toUpperCase) {es : List Event} {db : Db}
    (h : Runs.run (step prims) {} es = some db) {hubId sender body : String}
    (hbody : isUnsubscribing prims (getBlastSettings db hubId) body)
    (channelType : MessagingChannelType) (input : Input) :
    Silenced prims hubId sender
        (interceptKeyword prims db hubId (receive prims channelType sender body) input) ↔
      ∀ row ∈ db.subscribers, row.hubId = some hubId → row.Of prims sender →
        row.status = .active →
        isRouted prims (getBlastSettings db hubId) body = true ∧
          row.identifierHash = senderHash prims sender ∧ (hubId = "" →
            (getSubscriberByIdentifierHash db (senderHash prims sender) hubId
              input.pick).map Subscriber.id = some row.id) := by
  have hkeyed := keyed_run h
  rw [silenced_iff_inactive (hkeyed.interceptKeyword prims hubId _ input),
    interceptKeyword_eq hupper hbody]
  by_cases hrouted : isRouted prims (getBlastSettings db hubId) body
  · rw [if_pos hrouted, active_optOut]
    refine forall_congr' fun row => forall_congr' fun hrow => forall_congr' fun hhub =>
      forall_congr' fun _ => forall_congr' fun _ => ?_
    exact (found_iff hkeyed hrow hhub input.pick).trans (and_iff_right hrouted).symm
  · rw [if_neg hrouted]
    refine forall_congr' fun row => forall_congr' fun _ => forall_congr' fun _ =>
      forall_congr' fun _ => ⟨fun h hactive => absurd hactive h, fun h hactive => ?_⟩
    exact hrouted (h hactive).1

instance (identifier : String) (row : Subscriber) : Decidable (row.Of prims identifier) := by
  unfold Subscriber.Of
  infer_instance

theorem toUpper_idem (c : Char) : c.toUpper.toUpper = c.toUpper := by
  by_cases h : 'a'.val ≤ c.val ∧ c.val ≤ 'z'.val
  · have hval : c.toUpper.val = c.val + ('A'.val - 'a'.val) := by
      unfold Char.toUpper
      rw [dif_pos h]
    generalize c.toUpper = d at hval
    unfold Char.toUpper
    rw [dif_neg]
    rw [hval]
    obtain ⟨hlow, hhigh⟩ : (97 : UInt32) ≤ c.val ∧ c.val ≤ (122 : UInt32) := h
    show ¬ ((97 : UInt32) ≤ c.val + (65 - 97) ∧ c.val + (65 - 97) ≤ (122 : UInt32))
    rw [UInt32.le_iff_toNat_le] at *
    simp at *
    omega
  · have hval : c.toUpper = c := by
      unfold Char.toUpper
      rw [dif_neg h]
    rw [hval, hval]

theorem plainPrims_upperCase : UpperCase plainPrims.toUpperCase where
  idem text := by
    show text.toUpper.toUpper = text.toUpper
    unfold String.toUpper
    rw [String.map_map]
    congr 1
    funext c
    exact toUpper_idem c
  stop := by decide +kernel

/-- Somebody joins, and says STOP. -/
theorem joined_silenced :
    ∃ db ∈ Runs.run (step plainPrims) {} [.message "hub" .sms "+100" "JOIN" { id := "ann" }],
      db.subscribers.map Subscriber.status = [.active] ∧
      Silenced plainPrims "hub" "+100"
        (interceptKeyword plainPrims db "hub" (receive plainPrims .sms "+100" " STOP ")
          { id := "" }) := by
  have hrun : ∃ db ∈ Runs.run (step plainPrims) {}
        [.message "hub" .sms "+100" "JOIN" { id := "ann" }],
      db.subscribers.map Subscriber.status = [.active] ∧
      ∀ row ∈ db.subscribers, isRouted plainPrims (getBlastSettings db "hub") " STOP " = true ∧
        row.identifierHash = senderHash plainPrims "+100" := by
    decide +kernel
  have hbody (settings : BlastSettings) : isUnsubscribing plainPrims settings " STOP " :=
    .inl (by decide +kernel)
  obtain ⟨db, hdb, hactive, hrows⟩ := hrun
  refine ⟨db, hdb, hactive, (silenced_iff plainPrims_upperCase hdb (hbody _) .sms _).mpr ?_⟩
  intro row hrow _ _ _
  exact ⟨(hrows row hrow).1, (hrows row hrow).2, nofun⟩

/-- **Who was imported stays active after STOP.** -/
theorem imported_remains :
    ∃ db ∈ Runs.run (step plainPrims) {}
        [.importBulk "hub" [({ identifier := "+100", channel := .sms }, { id := "ann" })]],
      isUnsubscribing plainPrims (getBlastSettings db "hub") "STOP" ∧
      ¬ Silenced plainPrims "hub" "+100"
        (interceptKeyword plainPrims db "hub" (receive plainPrims .sms "+100" "STOP")
          { id := "" }) := by
  have hrun : ∃ db ∈ Runs.run (step plainPrims) {}
        [.importBulk "hub" [({ identifier := "+100", channel := .sms }, { id := "ann" })]],
      ∃ row ∈ interceptKeyword plainPrims db "hub" (receive plainPrims .sms "+100" "STOP")
          { id := "" },
        row.hubId = some "hub" ∧ row.Of plainPrims "+100" ∧ row.status = .active := by
    decide +kernel
  have hstop : plainPrims.toUpperCase (trim "STOP") = "STOP" := by decide +kernel
  obtain ⟨db, hdb, row, hrow, hhub, hof, hactive⟩ := hrun
  exact ⟨db, hdb, .inl hstop, fun h => h.inactive row hrow hhub hof hactive⟩

end Llamenos.Worker.Subscribers
