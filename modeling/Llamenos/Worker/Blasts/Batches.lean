import Llamenos.Worker.Blasts.Completion
import Mathlib

/-!
# Batches against cancellation and opt-out

`processBlastBatch` claims up to fifty deliveries, and for each of them asks whether the blast is
still sending and whether the subscriber is still active; then it waits for a token of the rate
limiter, reads the subscriber, and calls the adapter. A cancellation or an opt-out that is stored
in between comes too late for the delivery. And a batch that throws outside of its `try`, or that
finds its blast in another status, leaves what it has claimed.

Results:
* `loop_resume`: **what a statement of the batch's loop does.**
* `heeded_of_undisturbed`: **no adapter is called too late, and nothing is left in sending**, in the
  runs where nothing comes between a check and its call, and no batch stops with claimed
  deliveries.
* `stranded`: a batch throws, and its delivery stays in sending.
-/

namespace Llamenos.Worker.Blasts

open Llamenos.Lib Llamenos.Crypto Llamenos.Worker.Subscribers

variable {keys : Keys} {prims : Prims}

/-! ## The property -/

/-- A cancellation that has returned, an opt-out that is stored, or a call of an adapter, with the
row that it is for. -/
inductive Fact where
  | cancelled (blastId : String)
  | optedOut (subscriberId : String)
  | invoked (row : Delivery)

def facts (s : System) : Event → List Fact
  | .call .. => []
  | .unsubscribe subscriberId => [.optedOut subscriberId]
  | .resume i input =>
    match s.tasks i with
    | some (.cancelStore id) => if input.throws then [] else [.cancelled id]
    | some (.deliver _ delivery _ (.sendMessage _)) =>
      (s.db.deliveries.find? (·.id = delivery.id)).toList.map .invoked
    | _ => []

/-- What may come after a fact. -/
def Fact.Allows : Fact → Fact → Prop
  | .cancelled id, .invoked row => row.blastId ≠ id
  | .optedOut subscriberId, .invoked row => row.subscriberId ≠ subscriberId
  | _, _ => True

/-- A batch has claimed deliveries that it has not done with. -/
def BatchRunning (s : System) : Prop :=
  ∃ i batch delivery rest point, s.tasks i = some (.deliver batch delivery rest point)

/-- No adapter has been called after the cancellation or the opt-out, and no delivery is left in
sending when no batch is running. -/
structure Heeded (s : System) (ws : List Fact) : Prop where
  inTime : ws.Pairwise Fact.Allows
  settled : ¬ BatchRunning s → ∀ row ∈ s.db.deliveries, row.status ≠ .sending

/-! ## What a run must not do -/

/-- The subscriber has been found active, and the adapter is still to be called. -/
def Point.cleared : Point → Bool
  | .resolveAdapter | .waitForToken | .getSubscriber | .resolveIdentifier _ | .sendMessage _ => true
  | .checkBlast | .checkActive | .markOptedOut | .markSent _ | .markFailed _ _ => false

/-- The blast has been found sending, and the adapter is still to be called. -/
def Point.admitted (point : Point) : Bool := point = .checkActive || point.cleared

/-- The batch ends here, whatever is left of it. -/
def Point.stops (prims : Prims) (db : Db) (input : Input) (batch : Batch) (delivery : Claimed) :
    Point → Bool
  | .checkBlast => input.throws || !(getBlast db batch.blastId).any (·.status = .sending)
  | .getSubscriber =>
    input.throws ||
      (resolveBlastContent batch.content
        (((getSubscriberById db delivery.subscriberId).map Subscriber.language).getD "en")
        batch.defaultLanguage).isNone
  | .resolveIdentifier _ =>
    input.throws ||
      (resolveSubscriberIdentifier prims (getSubscriberById db delivery.subscriberId)).isNone
  | .checkActive | .markOptedOut | .resolveAdapter | .waitForToken | .markFailed _ false =>
    input.throws
  | .sendMessage _ | .markSent _ | .markFailed _ true => false

/-- The deliveries that a call holds. -/
def Task.held : Task → List String
  | .deliver _ delivery rest _ => delivery.id :: rest.map Claimed.id
  | _ => []

/-- A call other than the `i`-th, or any, holds the delivery. -/
def HeldBy (s : System) (others : Nat → Prop) (id : String) : Prop :=
  ∃ j, others j ∧ ∃ task, s.tasks j = some task ∧ id ∈ task.held

/-- Nothing is stored between a check and the call of the adapter that it is for, a cancelled blast
is not scheduled again, and where a batch stops, no delivery that it alone holds is in sending. -/
structure Undisturbed (prims : Prims) (s : System) (e : Event) : Prop where
  cancel : ∀ id, written s e = .cancel id → ∀ i batch delivery rest point,
    s.tasks i = some (.deliver batch delivery rest point) → batch.blastId = id →
    point.admitted = false
  optOut : ∀ id, e = .unsubscribe id → ∀ i batch delivery rest point,
    s.tasks i = some (.deliver batch delivery rest point) → delivery.subscriberId = some id →
    point.cleared = false
  schedule : ∀ id scheduledAt, written s e = .schedule id scheduledAt →
    ∀ blast ∈ getBlast s.db id, blast.status ≠ .cancelled ∧ blast.status ≠ .sent
  stop : ∀ i input batch delivery rest point, e = .resume i input →
    s.tasks i = some (.deliver batch delivery rest point) →
    point.stops prims s.db input batch delivery = true →
    ∀ row ∈ s.db.deliveries, row.id ∈ delivery.id :: rest.map Claimed.id →
    row.status = .sending → HeldBy s (· ≠ i) row.id

/-! ## The loop of a batch -/

/-- The delivery that a write ends, or puts back. -/
def Write.marked? : Write → Option String
  | .markSent id _ | .markDelivered id | .markFailed id _ _ | .markOptedOut id => some id
  | _ => none

/-- What a statement of the loop writes, and how the batch goes on: it stops, goes on with the
delivery, or has marked it and goes on with the next. -/
inductive Loop (prims : Prims) (db : Db) (input : Input) (batch : Batch) (delivery : Claimed)
    (rest : List Claimed) (point : Point) : Write × Progress → Prop
  | stops (reply : Except ServiceError Reply)
    (h : point.stops prims db input batch delivery = true) :
    Loop prims db input batch delivery rest point (.nothing, .done reply)
  | moves (point' : Point)
    (hcleared : point'.cleared → point.cleared ∨ isSubscriberActive db delivery.subscriberId)
    (hadmitted : point'.admitted →
      point.admitted ∨ (getBlast db batch.blastId).any (·.status = .sending)) :
    Loop prims db input batch delivery rest point
      (.nothing, .more (.deliver batch delivery rest point'))
  | marks (w : Write) (h : w.marked? = some delivery.id) :
    Loop prims db input batch delivery rest point (w, nextDelivery batch rest)

theorem Loop.drops {prims : Prims} {db : Db} {input : Input} {batch : Batch} {delivery : Claimed}
    {rest : List Claimed} {point : Point} (point' : Point) (h : point'.admitted = false) :
    Loop prims db input batch delivery rest point
      (.nothing, .more (.deliver batch delivery rest point')) :=
  .moves point' (fun hc => by simp [Point.admitted, hc] at h) fun ha => by simp [ha] at h

/-- **What a statement of the batch's loop does.** -/
theorem loop_resume (keys : Keys) (prims : Prims) (db : Db) (input : Input) (batch : Batch)
    (delivery : Claimed) (rest : List Claimed) (point : Point) :
    Loop prims db input batch delivery rest point
      (resume keys prims db input (.deliver batch delivery rest point)) := by
  rw [resume]
  by_cases hthrows : input.throws
  · rw [if_pos hthrows]
    cases point with
    | sendMessage params => exact .drops _ rfl
    | markSent externalId => exact .drops _ rfl
    | markFailed error caught =>
      cases caught with
      | true => exact .drops _ rfl
      | false => exact .stops _ hthrows
    | checkBlast | getSubscriber | resolveIdentifier =>
      refine .stops _ ?_
      rw [Point.stops, hthrows, Bool.true_or]
    | checkActive | markOptedOut | resolveAdapter | waitForToken => exact .stops _ hthrows
  · rw [if_neg hthrows]
    have hgoes : input.throws = false := Bool.eq_false_iff.mpr hthrows
    cases point with
    | checkBlast =>
      rw [Task.next, Point.next]
      cases hblast : getBlast db batch.blastId with
      | none => exact .stops _ (by simp [Point.stops, hblast])
      | some blast =>
        dsimp only
        by_cases hstatus : blast.status = .sending
        · rw [if_pos hstatus]
          exact .moves _ (by simp [Point.cleared]) fun _ => .inr (by simp [hblast, hstatus])
        · rw [if_neg hstatus]
          exact .stops _ (by simp [Point.stops, hblast, hstatus])
    | checkActive =>
      rw [Task.next, Point.next]
      by_cases hactive : isSubscriberActive db delivery.subscriberId
      · rw [if_pos hactive]
        exact .moves .resolveAdapter (fun _ => .inr hactive) fun _ => .inl rfl
      · rw [if_neg hactive]
        exact .drops _ rfl
    | resolveAdapter =>
      rw [Task.next, Point.next]
      refine .moves _ (fun _ => .inl rfl) fun _ => .inl rfl
    | waitForToken => exact .moves .getSubscriber (fun _ => .inl rfl) fun _ => .inl rfl
    | getSubscriber =>
      rw [Task.next, Point.next]
      split
      · rename_i hcontent
        refine .stops _ ?_
        rw [Point.stops, hcontent, Option.isNone_none, Bool.or_true]
      · exact .moves _ (fun _ => .inl rfl) fun _ => .inl rfl
    | resolveIdentifier content =>
      rw [Task.next, Point.next]
      split
      · rename_i hidentifier
        refine .stops _ ?_
        rw [Point.stops, hidentifier, Option.isNone_none, Bool.or_true]
      · exact .drops _ rfl
      · exact .drops _ rfl
      · exact .moves _ (fun _ => .inl rfl) fun _ => .inl rfl
    | sendMessage params =>
      rw [Task.next, Point.next]
      split
      · exact .drops _ rfl
      · exact .drops _ rfl
    | markOptedOut => exact .marks (.markOptedOut delivery.id) rfl
    | markSent externalId => exact .marks (.markSent delivery.id externalId) rfl
    | markFailed error caught => exact .marks (.markFailed delivery.id error _) rfl

/-! ## Where a batch comes from -/
variable {delivery : Claimed} {batch : Batch} {point : Point}

theorem nextDue_ne_deliver {rest : List Blast}
    {left : List Claimed} :
    nextDue rest ≠ .more (.deliver batch delivery left point) := by
  cases rest <;> nofun

theorem thrown_ne_deliver {pass : Option (List Blast)} {error : ServiceError}
    {left : List Claimed} :
    thrown pass error ≠ .more (.deliver batch delivery left point) := by
  cases pass with
  | none => nofun
  | some rest => exact nextDue_ne_deliver

variable {rest : List Claimed} {input : Input} {task : Task}

/-- Only a batch goes on as one. -/
theorem batch_of_fail
    (h : task.fail input = .more (.deliver batch delivery rest point)) :
    ∃ batch' delivery' rest' point', task = .deliver batch' delivery' rest' point' := by
  cases task with
  | deliver batch' delivery' rest' point' => exact ⟨_, _, _, _, rfl⟩
  | sendRead | sendSettings | sendCount | sendStore | expandRead | expandSubscribers | expandInsert
  | expandStore => exact absurd h thrown_ne_deliver
  | _ => cases h
variable {db : Db}

theorem batch_of_next
    (h : task.next keys prims db input = .more (.deliver batch delivery rest point)) :
    (∃ batch', task = .batchDrain batch') ∨
      ∃ batch' delivery' rest' point', task = .deliver batch' delivery' rest' point' := by
  cases task with
  | deliver batch' delivery' rest' point' => exact .inr ⟨_, _, _, _, rfl⟩
  | batchDrain batch' => exact .inl ⟨_, rfl⟩
  | poll => exact absurd h nextDue_ne_deliver
  | updateRead | updateStore | scheduleRead | cancelRead | batchRead | syncRead | webhookFind
  | expandSubscribers | expandInsert =>
    unfold Task.next at h
    dsimp only at h
    repeat' split at h
    all_goals cases h
  | sendRead | sendCount | sendStore | expandRead | expandStore =>
    unfold Task.next at h
    dsimp only at h
    repeat' split at h
    all_goals first | cases h | exact absurd h thrown_ne_deliver | exact absurd h nextDue_ne_deliver
  | scheduleStore | sendSettings | cancelDeliveries | cancelStore | syncCount | syncStore
  | webhookDelivered | webhookFailed | batchSettings | batchConfig => cases h

theorem nextDelivery_eq {batch batch' : Batch} {left rest : List Claimed}
    (h : nextDelivery batch' left = .more (.deliver batch delivery rest point)) :
    batch' = batch ∧ left = delivery :: rest ∧ point = .checkBlast := by
  cases left with
  | nil => cases h
  | cons first left =>
    cases h
    exact ⟨rfl, rfl, rfl⟩

/-- The rows of a claim, as the worker reads them. -/
def claims (keys : Keys) (db : Db) (ids : List String) : List Claimed :=
  ids.filterMap fun id => (db.deliveries.find? (·.id = id)).map (claimed keys)

/-- Where a batch under way comes from: it has just claimed, or it goes on with the delivery, or
with the next one. -/
inductive Origin (keys : Keys) (s : System) (input : Input) (batch : Batch) (delivery : Claimed)
    (rest : List Claimed) (point' : Point) : Task → Prop
  | claims (hpossible : (Task.batchDrain batch).possible s.db input)
    (hgoes : input.throws = false)
    (hclaims : claims keys s.db input.claim = delivery :: rest) (hpoint : point' = .checkBlast) :
    Origin keys s input batch delivery rest point' (.batchDrain batch)
  | moves (point : Point)
    (hcleared : point'.cleared → point.cleared ∨ isSubscriberActive s.db delivery.subscriberId)
    (hadmitted : point'.admitted →
      point.admitted ∨ (getBlast s.db batch.blastId).any (·.status = .sending)) :
    Origin keys s input batch delivery rest point' (.deliver batch delivery rest point)
  | marks (before : Claimed) (point : Point) (hpoint : point' = .checkBlast) :
    Origin keys s input batch delivery rest point'
      (.deliver batch before (delivery :: rest) point)

theorem origin_of_resume {s : System}
    (hpossible : task.possible s.db input)
    (h : (resume keys prims s.db input task).2 = .more (.deliver batch delivery rest point)) :
    Origin keys s input batch delivery rest point task := by
  have htask : (∃ batch', task = .batchDrain batch') ∨
      ∃ batch' delivery' rest' point', task = .deliver batch' delivery' rest' point' := by
    rw [resume] at h
    split at h
    · exact .inr (batch_of_fail h)
    · exact batch_of_next h
  obtain ⟨batch', rfl⟩ | ⟨batch', delivery', rest', point', rfl⟩ := htask
  · rw [resume] at h
    split at h
    · cases h
    · rename_i hthrows
      obtain ⟨rfl, hclaims, rfl⟩ := nextDelivery_eq h
      exact .claims hpossible (Bool.eq_false_iff.mpr hthrows) hclaims rfl
  · have hloop := loop_resume keys prims s.db input batch' delivery' rest' point'
    generalize resume keys prims s.db input _ = result at h hloop
    cases hloop with
    | stops reply hstops => cases h
    | moves point'' hcleared hadmitted =>
      cases h
      exact .moves point' hcleared hadmitted
    | marks w hw =>
      obtain ⟨rfl, rfl, rfl⟩ := nextDelivery_eq h
      exact .marks delivery' point' rfl

variable {i : Nat}

/-- **Where a batch under way comes from.** -/
theorem batch_origin {s s' : System} {e : Event} (h : step keys prims s e = some s')
    (hi : s'.tasks i = some (.deliver batch delivery rest point)) :
    s.tasks i = some (.deliver batch delivery rest point) ∨
      ∃ input task, e = .resume i input ∧ s.tasks i = some task ∧
        Origin keys s input batch delivery rest point task := by
  rcases step_tasks h hi with ⟨hkept, -⟩ | ⟨op, -, hfirst⟩ |
    ⟨input, before, he, hbefore, hpossible, hresume⟩
  · exact .inl hkept
  · cases op <;> cases hfirst
  · exact .inr ⟨input, before, he, hbefore, origin_of_resume hpossible hresume⟩

/-- A delivery that its check has cleared was cleared before, or its subscriber is found active. -/
theorem cleared_origin {s s' : System} {e : Event} (h : step keys prims s e = some s')
    (hi : s'.tasks i = some (.deliver batch delivery rest point)) (hcleared : point.cleared) :
    (∃ before : Point, s.tasks i = some (.deliver batch delivery rest before) ∧ before.cleared) ∨
      isSubscriberActive s.db delivery.subscriberId := by
  rcases batch_origin h hi with hkept | ⟨input, task, -, htask, horigin⟩
  · exact .inl ⟨point, hkept, hcleared⟩
  · cases horigin with
    | claims _ _ _ hpoint | marks _ _ hpoint =>
      rw [hpoint] at hcleared
      cases hcleared
    | moves before hmoves _ =>
      exact (hmoves hcleared).imp_left fun hbefore => ⟨before, htask, hbefore⟩

/-! ## The rows of a batch -/

theorem mem_claims {ids : List String}
    (h : delivery ∈ claims keys db ids) : ∃ row ∈ db.deliveries, claimed keys row = delivery ∧
      row.id ∈ ids := by
  obtain ⟨id, hid, hrow⟩ := List.mem_filterMap.mp h
  obtain ⟨row, hfound, rfl⟩ := Option.map_eq_some_iff.mp hrow
  have hsame : row.id = id := by simpa using List.find?_some hfound
  exact ⟨row, List.mem_of_find?_eq_some hfound, rfl, hsame ▸ hid⟩

variable {row : Delivery}

/-- What is claimed is among the rows. -/
theorem id_mem_claims (keys : Keys) {ids : List String}
    (hrow : row ∈ db.deliveries) (hid : row.id ∈ ids) :
    row.id ∈ (claims keys db ids).map Claimed.id := by
  cases hfound : db.deliveries.find? (·.id = row.id) with
  | none => simpa using List.find?_eq_none.mp hfound row hrow
  | some row' =>
    have hsame : row'.id = row.id := by simpa using List.find?_some hfound
    refine List.mem_map.mpr ⟨claimed keys row', List.mem_filterMap.mpr ⟨row.id, hid, ?_⟩, hsame⟩
    rw [hfound, Option.map_some]

/-- Rows of deliveries stay. -/
theorem row_kept (hrow : row ∈ db.deliveries) (w : Write) :
    w.onDelivery row ∈ (w.apply db).deliveries := by
  rw [deliveries_apply]
  have hmem : w.onDelivery row ∈ db.deliveries.map w.onDelivery := List.mem_map_of_mem hrow
  cases w with
  | insert id values =>
    rw [Write.inserts]
    generalize db.deliveries.map _ = rows at hmem
    induction values generalizing rows with
    | nil => exact hmem
    | cons value values ih =>
      refine ih _ ?_
      rw [insertDelivery]
      split
      · exact hmem
      · exact List.mem_append_left _ hmem
  | nothing | update | schedule | send | cancel | total | sync | unsubscribe | cancelDeliveries
  | drain | markSent | markDelivered | markFailed | markOptedOut => exact hmem

/-- A row that is there after a write was there before, or is new and pending. -/
theorem row_origin {w : Write} {row' : Delivery}
    (h : row' ∈ (w.apply db).deliveries) :
    (∃ row ∈ db.deliveries, row' = w.onDelivery row) ∨ row'.status = .pending := by
  rw [deliveries_apply] at h
  have hmap : row' ∈ db.deliveries.map w.onDelivery → ∃ row ∈ db.deliveries,
      row' = w.onDelivery row := by
    intro h
    obtain ⟨row, hrow, rfl⟩ := List.mem_map.mp h
    exact ⟨row, hrow, rfl⟩
  cases w with
  | insert id values =>
    rw [Write.inserts] at h
    generalize db.deliveries.map _ = rows at h hmap
    induction values generalizing rows with
    | nil => exact .inl (hmap h)
    | cons value values ih =>
      rw [List.foldl_cons] at h
      by_cases hnew : row'.status = .pending
      · exact .inr hnew
      · refine ih _ h fun hmem => hmap ?_
        rw [insertDelivery] at hmem
        split at hmem
        · exact hmem
        · rcases List.mem_append.mp hmem with hold | hlast
          · exact hold
          · rw [List.mem_singleton.mp hlast] at hnew
            exact absurd rfl hnew
  | nothing | update | schedule | send | cancel | total | sync | unsubscribe | cancelDeliveries
  | drain | markSent | markDelivered | markFailed | markOptedOut => exact .inl (hmap h)

/-- What is in sending was so, and has not been marked, or has just been claimed. -/
theorem sending_onDelivery {w : Write} (h : (w.onDelivery row).status = .sending) :
    (row.status = .sending ∧ w.marked? ≠ some row.id) ∨
      ∃ deliveryIds, w = .drain deliveryIds ∧ row.id ∈ deliveryIds := by
  cases w with
  | drain deliveryIds =>
    by_cases hid : row.id ∈ deliveryIds
    · exact .inr ⟨deliveryIds, rfl, hid⟩
    · rw [Write.onDelivery, if_neg hid] at h
      exact .inl ⟨h, by simp [Write.marked?]⟩
  | markSent deliveryId | markDelivered deliveryId | markOptedOut deliveryId =>
    by_cases hid : row.id = deliveryId
    · rw [Write.onDelivery, if_pos hid] at h
      cases h
    · rw [Write.onDelivery, if_neg hid] at h
      exact .inl ⟨h, fun hsame => hid (Option.some.inj hsame).symm⟩
  | markFailed deliveryId error decision =>
    by_cases hid : row.id = deliveryId
    · rw [Write.onDelivery, if_pos hid, RetryDecision.set] at h
      split at h <;> cases h
    · rw [Write.onDelivery, if_neg hid] at h
      exact .inl ⟨h, fun hsame => hid (Option.some.inj hsame).symm⟩
  | cancelDeliveries id =>
    rw [Write.onDelivery] at h
    split at h
    · cases h
    · exact .inl ⟨h, by simp [Write.marked?]⟩
  | insert | nothing | update | schedule | send | cancel | total | sync | unsubscribe =>
    exact .inl ⟨h, by simp [Write.marked?]⟩

/-! ## Runs -/

/-- The claimed delivery is a row of the batch's blast. -/
def Linked (keys : Keys) (db : Db) (batch : Batch) (delivery : Claimed) : Prop :=
  ∃ row ∈ db.deliveries, row.id = delivery.id ∧ row.blastId = batch.blastId ∧
    (claimed keys row).subscriberId = delivery.subscriberId

/-- What holds of the facts and the state that a run leads to. -/
structure SendInv (keys : Keys) (s : System) (ws : List Fact) : Prop where
  ids : (s.db.deliveries.map Delivery.id).Nodup
  linked : ∀ i batch delivery rest point, s.tasks i = some (.deliver batch delivery rest point) →
    ∀ c ∈ delivery :: rest, Linked keys s.db batch c
  known : ∀ i batch delivery rest point, s.tasks i = some (.deliver batch delivery rest point) →
    point.cleared → delivery.subscriberId ≠ none
  optedOut : ∀ id, .optedOut id ∈ ws → isSubscriberActive s.db (some id) = false ∧
    ∀ i batch delivery rest point, s.tasks i = some (.deliver batch delivery rest point) →
      delivery.subscriberId = some id → point.cleared = false
  cancelled : ∀ id, .cancelled id ∈ ws →
    (∀ blast ∈ getBlast s.db id, blast.status = .cancelled ∨ blast.status = .sent) ∧
      ∀ i batch delivery rest point, s.tasks i = some (.deliver batch delivery rest point) →
        batch.blastId = id → point.admitted = false
  held : ∀ row ∈ s.db.deliveries, row.status = .sending → HeldBy s (fun _ => True) row.id
  inTime : ws.Pairwise Fact.Allows

theorem start_sendInv (db : Subscribers.Db) (created : List (String × CreateBlastInput)) :
    SendInv keys (start db created) [] where
  ids := List.nodup_nil
  linked _ _ _ _ _ h := by cases h
  known _ _ _ _ _ h := by cases h
  optedOut _ h := by cases h
  cancelled _ h := by cases h
  held _ h := by cases h
  inTime := .nil

theorem Linked.apply
    (h : Linked keys db batch delivery) (w : Write) : Linked keys (w.apply db) batch delivery := by
  obtain ⟨row, hrow, hid, hblast, hsubscriber⟩ := h
  have hsame := same_onDelivery row w
  refine ⟨w.onDelivery row, row_kept hrow w, hsame.id.trans hid, hsame.blastId.trans hblast, ?_⟩
  rw [← hsubscriber]
  cases keys with
  | columns => rfl
  | properties => exact congrArg some hsame.subscriberId

variable {s s' : System} {e : Event} {ws : List Fact}

theorem linked_step (h : step keys prims s e = some s') (hinv : SendInv keys s ws) (i : Nat)
    (batch : Batch) (delivery : Claimed) (rest : List Claimed) (point : Point)
    (hi : s'.tasks i = some (.deliver batch delivery rest point)) :
    ∀ c ∈ delivery :: rest, Linked keys s'.db batch c := by
  intro c hc
  rw [step_spec h]
  refine Linked.apply ?_ _
  rcases batch_origin h hi with hkept | ⟨input, task, -, htask, horigin⟩
  · exact hinv.linked i _ _ _ _ hkept c hc
  · cases horigin with
    | claims hpossible _ hclaims _ =>
      obtain ⟨row, hrow, rfl, hid⟩ := mem_claims (hclaims ▸ hc)
      exact ⟨row, hrow, rfl, (blastId_of_possible hpossible hinv.ids hrow hid).1, rfl⟩
    | moves before _ _ => exact hinv.linked i _ _ _ _ htask c hc
    | marks before _ _ => exact hinv.linked i _ _ _ _ htask c (List.mem_cons_of_mem _ hc)

theorem not_active_none (db : Db) : isSubscriberActive db none = false := by
  unfold isSubscriberActive
  simp

theorem known_step (h : step keys prims s e = some s') (hinv : SendInv keys s ws) (i : Nat)
    (batch : Batch) (delivery : Claimed) (rest : List Claimed) (point : Point)
    (hi : s'.tasks i = some (.deliver batch delivery rest point)) (hcleared : point.cleared) :
    delivery.subscriberId ≠ none := by
  rcases cleared_origin h hi hcleared with ⟨before, htask, hbefore⟩ | hactive
  · exact hinv.known i _ _ _ _ htask hbefore
  · intro hnone
    rw [hnone, not_active_none] at hactive
    cases hactive

/-- Nobody becomes active. -/
theorem active_apply {w : Write} {id : Option String}
    (h : isSubscriberActive (w.apply db) id) : isSubscriberActive db id := by
  cases w with
  | unsubscribe subscriberId =>
    obtain ⟨row', hrow', hactive⟩ := List.any_eq_true.mp h
    obtain ⟨row, hrow, rfl⟩ := List.mem_map.mp hrow'
    by_cases hid : row.id = subscriberId
    · simp [hid] at hactive
    · rw [if_neg hid] at hactive
      exact List.any_eq_true.mpr ⟨row, hrow, hactive⟩
  | insert | nothing | update | schedule | send | cancel | total | sync | cancelDeliveries | drain
  | markSent | markDelivered | markFailed | markOptedOut => exact h

/-- Who opts out is not active. -/
theorem not_active_unsubscribe (db : Db) (id : String) :
    isSubscriberActive ((Write.unsubscribe id).apply db) (some id) = false := by
  refine Bool.eq_false_iff.mpr fun h => ?_
  obtain ⟨row', hrow', hactive⟩ := List.any_eq_true.mp h
  obtain ⟨row, hrow, rfl⟩ := List.mem_map.mp hrow'
  by_cases hid : row.id = id <;> simp [hid] at hactive

theorem fact_optedOut {id : String} (h : .optedOut id ∈ facts s e) : e = .unsubscribe id := by
  cases e with
  | call i op => cases h
  | unsubscribe subscriberId =>
    cases List.mem_singleton.mp h
    rfl
  | resume i input =>
    rw [facts] at h
    split at h
    · split at h
      · cases h
      · cases List.mem_singleton.mp h
    · obtain ⟨row, -, hrow⟩ := List.mem_map.mp h
      cases hrow
    · cases h

theorem fact_cancelled {id : String} (h : .cancelled id ∈ facts s e) :
    written s e = .cancel id := by
  cases e with
  | call i op => cases h
  | unsubscribe subscriberId => cases List.mem_singleton.mp h
  | resume i input =>
    rw [facts] at h
    split at h
    · rename_i hi
      split at h
      · cases h
      · rename_i hthrows
        cases List.mem_singleton.mp h
        rw [written, hi, Option.elim_some, if_neg hthrows]
        rfl
    · obtain ⟨row, -, hrow⟩ := List.mem_map.mp h
      cases hrow
    · cases h

theorem fact_invoked (h : .invoked row ∈ facts s e) :
    ∃ i batch delivery rest params,
      s.tasks i = some (.deliver batch delivery rest (.sendMessage params)) ∧
        row ∈ s.db.deliveries ∧ row.id = delivery.id := by
  cases e with
  | call i op => cases h
  | unsubscribe subscriberId => cases List.mem_singleton.mp h
  | resume i input =>
    rw [facts] at h
    split at h
    · split at h
      · cases h
      · cases List.mem_singleton.mp h
    · rename_i batch delivery rest params hi
      obtain ⟨row', hfound, hrow⟩ := List.mem_map.mp h
      cases hrow
      have hfound := Option.mem_toList.mp hfound
      exact ⟨i, batch, delivery, rest, params, hi, List.mem_of_find?_eq_some hfound,
        by simpa using List.find?_some hfound⟩
    · cases h

/-- Who has opted out is not cleared any more. -/
theorem optedOut_step (h : step keys prims s e = some s') (hinv : SendInv keys s ws)
    (hturn : Undisturbed prims s e) (id : String) (hid : .optedOut id ∈ ws ++ facts s e) :
    isSubscriberActive s'.db (some id) = false ∧
      ∀ i batch delivery rest point, s'.tasks i = some (.deliver batch delivery rest point) →
        delivery.subscriberId = some id → point.cleared = false := by
  rcases List.mem_append.mp hid with hold | hnew
  · obtain ⟨hactive, htasks⟩ := hinv.optedOut id hold
    refine ⟨?_, fun i batch delivery rest point hi hsubscriber => ?_⟩
    · rw [step_spec h]
      exact Bool.eq_false_iff.mpr fun hnow => Bool.eq_false_iff.mp hactive (active_apply hnow)
    · refine Bool.eq_false_iff.mpr fun hcleared => ?_
      rcases cleared_origin h hi hcleared with ⟨before, htask, hbefore⟩ | hfound
      · rw [htasks i _ _ _ _ htask hsubscriber] at hbefore
        cases hbefore
      · rw [hsubscriber, hactive] at hfound
        cases hfound
  · obtain rfl := fact_optedOut hnew
    obtain rfl := Option.some.inj h
    refine ⟨not_active_unsubscribe s.db id, fun i batch delivery rest point hi hsubscriber => ?_⟩
    exact hturn.optOut id rfl i batch delivery rest point hi hsubscriber

/-- What is cancelled stays so, or becomes sent, unless it is scheduled. -/
theorem closed_onBlast {blast : Blast} {w : Write}
    (h : blast.status = .cancelled ∨ blast.status = .sent)
    (hschedule : ∀ scheduledAt, w ≠ .schedule blast.id scheduledAt) :
    (w.onBlast blast).status = .cancelled ∨ (w.onBlast blast).status = .sent := by
  cases w with
  | schedule id scheduledAt =>
    rw [Write.onBlast, if_neg]
    · exact h
    · exact fun hid => hschedule scheduledAt (by rw [hid])
  | send id sentAt =>
    rw [Write.onBlast, if_neg]
    · exact h
    · rintro ⟨-, hsendable⟩
      rcases h with h | h <;> simp [Blast.sendable, h] at hsendable
  | cancel id =>
    rw [Write.onBlast]
    split
    · exact .inl rfl
    · exact h
  | sync id stats completed =>
    rw [Write.onBlast]
    split
    · cases completed with
      | true => exact .inr rfl
      | false => exact h
    · exact h
  | update | total =>
    rw [Write.onBlast]
    split <;> exact h
  | unsubscribe | nothing | cancelDeliveries | insert | drain | markSent | markDelivered
  | markFailed | markOptedOut => exact h

theorem loop_ne_cancel
    {id : String} :
    Task.write input (.deliver batch delivery rest point) ≠ .cancel id := by
  cases point <;> nofun

/-- A cancelled blast is not admitted any more. -/
theorem cancelled_step (h : step keys prims s e = some s') (hinv : SendInv keys s ws)
    (hturn : Undisturbed prims s e) (id : String) (hid : .cancelled id ∈ ws ++ facts s e) :
    (∀ blast ∈ getBlast s'.db id, blast.status = .cancelled ∨ blast.status = .sent) ∧
      ∀ i batch delivery rest point, s'.tasks i = some (.deliver batch delivery rest point) →
        batch.blastId = id → point.admitted = false := by
  rcases List.mem_append.mp hid with hold | hnew
  · obtain ⟨hclosed, htasks⟩ := hinv.cancelled id hold
    refine ⟨fun blast' hblast' => ?_, fun i batch delivery rest point hi hblast => ?_⟩
    · rw [step_spec h, getBlast_apply] at hblast'
      obtain ⟨blast, hblast, rfl⟩ := Option.map_eq_some_iff.mp hblast'
      refine closed_onBlast (hclosed blast hblast) fun scheduledAt hw => ?_
      rw [getBlast_id hblast] at hw
      obtain ⟨hcancelled, hsent⟩ := hturn.schedule id scheduledAt hw blast hblast
      exact (hclosed blast hblast).elim hcancelled hsent
    · refine Bool.eq_false_iff.mpr fun hadmitted => ?_
      rcases batch_origin h hi with hkept | ⟨input, task, -, htask, horigin⟩
      · rw [htasks i _ _ _ _ hkept hblast] at hadmitted
        cases hadmitted
      · cases horigin with
        | claims _ _ _ hpoint | marks _ _ hpoint =>
          rw [hpoint] at hadmitted
          cases hadmitted
        | moves before _ hmoves =>
          rcases hmoves hadmitted with hbefore | hsending
          · rw [htasks i _ _ _ _ htask hblast] at hbefore
            cases hbefore
          · rw [hblast] at hsending
            obtain ⟨blast, hfound, hstatus⟩ := (Option.any_eq_true _ _).mp hsending
            rw [decide_eq_true_eq] at hstatus
            rcases hclosed blast hfound with hclosed | hclosed <;> rw [hclosed] at hstatus <;>
              cases hstatus
  · have hw := fact_cancelled hnew
    refine ⟨fun blast' hblast' => ?_, fun i batch delivery rest point hi hblast => ?_⟩
    · rw [step_spec h, getBlast_apply, hw] at hblast'
      obtain ⟨blast, hblast, rfl⟩ := Option.map_eq_some_iff.mp hblast'
      rw [Write.onBlast, if_pos (getBlast_id hblast)]
      exact .inl rfl
    · rcases batch_origin h hi with hkept | ⟨input, task, rfl, htask, horigin⟩
      · exact hturn.cancel id hw i batch delivery rest point hkept hblast
      · -- the step is the cancellation's, and not one of a batch
        rw [written, htask, Option.elim_some] at hw
        split at hw
        · cases hw
        · cases horigin with
          | claims => cases hw
          | moves | marks => exact absurd hw loop_ne_cancel

/-- Another call's step leaves what a call holds. -/
theorem tasks_of_ne (h : step keys prims s e = some s')
    (hi : s.tasks i = some task) (hne : ∀ input, e ≠ .resume i input) : s'.tasks i = some task := by
  cases e with
  | call j op =>
    obtain ⟨hfree, rfl⟩ := step_call h
    have hij : i ≠ j := fun hij => by
      rw [hij, hfree] at hi
      cases hi
    exact (Function.update_of_ne hij _ _).trans hi
  | resume j input =>
    obtain ⟨before, -, -, rfl⟩ := step_resume h
    have hij : i ≠ j := fun hij => hne input (by rw [hij])
    exact (Function.update_of_ne hij _ _).trans hi
  | unsubscribe subscriberId =>
    obtain rfl := Option.some.inj h
    exact hi

theorem written_resume (keys : Keys) (prims : Prims)
    (hi : s.tasks i = some task) (input : Input) :
    written s (.resume i input) = (resume keys prims s.db input task).1 := by
  rw [written, hi, Option.elim_some, resume]
  split <;> rfl

/-- A batch lets go of what it marks, and where it stops, another one holds what is left. -/
theorem held_loop (h : step keys prims s (.resume i input) = some s')
    (hturn : Undisturbed prims s (.resume i input))
    (hi : s.tasks i = some (.deliver batch delivery rest point))
    (hrow : row ∈ s.db.deliveries) (hsending : row.status = .sending)
    (hmarked : (written s (.resume i input)).marked? ≠ some row.id)
    (hheld : row.id ∈ delivery.id :: rest.map Claimed.id) : HeldBy s' (fun _ => True) row.id := by
  have hloop := loop_resume keys prims s.db input batch delivery rest point
  obtain ⟨task, htask, -, hs'⟩ := step_resume h
  obtain rfl := Option.some.inj (htask.symm.trans hi)
  rw [written_resume keys prims hi] at hmarked
  generalize resume keys prims s.db input _ = result at hmarked hloop hs'
  have hself (next : Task) (hnext : result.2 = .more next) : s'.tasks i = some next := by
    rw [hs', hnext]
    exact Function.update_self ..
  cases hloop with
  | stops reply hstops =>
    obtain ⟨j, hne, next, hj, hmem⟩ := hturn.stop i input batch delivery rest point rfl hi hstops
      row hrow hheld hsending
    refine ⟨j, trivial, next, tasks_of_ne h hj fun input' he => ?_, hmem⟩
    cases he
    exact hne rfl
  | moves point' _ _ =>
    exact ⟨i, trivial, .deliver batch delivery rest point', hself _ rfl, hheld⟩
  | marks w hw =>
    rcases List.mem_cons.mp hheld with hid | hid
    · exact absurd (hid ▸ hw) hmarked
    · cases rest with
      | nil => cases hid
      | cons first rest =>
        exact ⟨i, trivial, .deliver batch first rest .checkBlast, hself _ rfl, hid⟩

/-- Who claims a delivery holds it. -/
theorem held_drain (h : step keys prims s e = some s') {deliveryIds : List String}
    (hw : written s e = .drain deliveryIds) (hrow : row ∈ s.db.deliveries)
    (hmem : row.id ∈ deliveryIds) : HeldBy s' (fun _ => True) row.id := by
  cases e with
  | call i op => cases hw
  | unsubscribe subscriberId => cases hw
  | resume i input =>
    obtain ⟨task, hi, -, hs'⟩ := step_resume h
    rw [written, hi, Option.elim_some] at hw
    split at hw
    · cases hw
    · rename_i hthrows
      rw [resume, if_neg hthrows] at hs'
      cases task with
      | batchDrain batch =>
        cases hw
        have hclaimed := id_mem_claims keys hrow hmem
        have hnext : s'.tasks i = (nextDelivery batch (claims keys s.db input.claim)).task? := by
          rw [hs']
          exact Function.update_self ..
        generalize claims keys s.db input.claim = left at hclaimed hnext
        cases left with
        | nil => cases hclaimed
        | cons first left =>
          exact ⟨i, trivial, .deliver batch first left .checkBlast, hnext, hclaimed⟩
      | deliver batch delivery rest point => cases point <;> cases hw
      | _ => cases hw

/-- What is in sending is held. -/
theorem held_step (h : step keys prims s e = some s') (hinv : SendInv keys s ws)
    (hturn : Undisturbed prims s e) (row' : Delivery) (hrow' : row' ∈ s'.db.deliveries)
    (hsending : row'.status = .sending) : HeldBy s' (fun _ => True) row'.id := by
  rw [step_spec h] at hrow'
  rcases row_origin hrow' with ⟨row, hrow, rfl⟩ | hpending
  · rw [(same_onDelivery row (written s e)).id]
    rcases sending_onDelivery hsending with ⟨hbefore, hmarked⟩ | ⟨deliveryIds, hw, hmem⟩
    · obtain ⟨i, -, task, hi, hheld⟩ := hinv.held row hrow hbefore
      by_cases hstep : ∃ input, e = .resume i input
      · obtain ⟨input, rfl⟩ := hstep
        cases task with
        | deliver batch delivery rest point =>
          exact held_loop h hturn hi hrow hbefore hmarked hheld
        | _ => cases hheld
      · exact ⟨i, trivial, task, tasks_of_ne h hi fun input he => hstep ⟨input, he⟩, hheld⟩
    · exact held_drain h hw hrow hmem
  · rw [hpending] at hsending
    cases hsending

theorem facts_length (s : System) (e : Event) : (facts s e).length ≤ 1 := by
  cases e with
  | call i op => exact Nat.zero_le 1
  | unsubscribe subscriberId => exact Nat.le_refl 1
  | resume i input =>
    rw [facts]
    split
    · split
      · exact Nat.zero_le 1
      · exact Nat.le_refl 1
    · rw [List.length_map]
      exact Option.length_toList_le
    · exact Nat.zero_le 1

theorem inTime_step (hinv : SendInv keys s ws) : (ws ++ facts s e).Pairwise Fact.Allows := by
  have hfew : (facts s e).Pairwise Fact.Allows := by
    have hlength := facts_length s e
    generalize facts s e = fs at hlength
    match fs with
    | [] => exact .nil
    | [f] => exact List.pairwise_singleton _ f
    | _ :: _ :: _ => simp at hlength
  refine List.pairwise_append.mpr ⟨hinv.inTime, hfew, fun a ha b hb => ?_⟩
  cases b with
  | cancelled id => cases a <;> trivial
  | optedOut id => cases a <;> trivial
  | invoked row =>
    obtain ⟨i, batch, delivery, rest, params, hi, hrow, hid⟩ := fact_invoked hb
    obtain ⟨row', hrow', hid', hblast, hsubscriber⟩ :=
      hinv.linked i _ _ _ _ hi delivery List.mem_cons_self
    obtain rfl := List.inj_on_of_nodup_map hinv.ids hrow hrow' (hid.trans hid'.symm)
    cases a with
    | invoked _ => trivial
    | cancelled id =>
      intro hsame
      cases (hinv.cancelled id ha).2 i _ _ _ _ hi (hblast.symm.trans hsame)
    | optedOut id =>
      intro hsame
      have hknown := hinv.known i _ _ _ _ hi rfl
      cases keys with
      | columns => exact hknown hsubscriber.symm
      | properties =>
        cases (hinv.optedOut id ha).2 i _ _ _ _ hi
          (hsubscriber.symm.trans (congrArg some hsame))

/-- **What an undisturbed step keeps.** -/
theorem sendInv_step (h : step keys prims s e = some s') (hinv : SendInv keys s ws)
    (hturn : Undisturbed prims s e) : SendInv keys s' (ws ++ facts s e) where
  ids := step_spec h ▸ ids_apply hinv.ids _
  linked := linked_step h hinv
  known := known_step h hinv
  optedOut := optedOut_step h hinv hturn
  cancelled := cancelled_step h hinv hturn
  held := held_step h hinv hturn
  inTime := inTime_step hinv

/-- **No adapter is called too late, and no delivery is left in sending**, in every undisturbed
run. -/
theorem heeded_of_undisturbed {db : Subscribers.Db} {created : List (String × CreateBlastInput)}
    {es : List Event} {t : System}
    (hturn : Runs.Along (step keys prims) (Undisturbed prims) (start db created) es)
    (h : Runs.run (step keys prims) (start db created) es = some t) :
    Heeded t (Runs.emitted (step keys prims) facts (start db created) es) := by
  have hinv : SendInv keys t ([] ++ Runs.emitted (step keys prims) facts (start db created) es) :=
    Runs.run_emitted_inv (I := SendInv keys) (P := Undisturbed prims)
      (fun _ _ _ _ hinv hturn hstep => sendInv_step hstep hinv hturn) []
      (start_sendInv db created) hturn h
  refine ⟨hinv.inTime, fun hidle row hrow hsending => hidle ?_⟩
  obtain ⟨i, -, task, hi, hheld⟩ := hinv.held row hrow hsending
  cases task with
  | deliver batch delivery rest point => exact ⟨i, batch, delivery, rest, point, hi⟩
  | _ => cases hheld

/-- Nothing is stored that a batch could be late for, and no batch stops. -/
def calm (prims : Prims) (s : System) : Event → Bool
  | .call .. => true
  | .unsubscribe _ => false
  | .resume i input =>
    match s.tasks i with
    | some (.cancelStore _) | some (.scheduleStore _ _) => false
    | some (.deliver batch delivery _ point) => !point.stops prims s.db input batch delivery
    | _ => true

theorem calm_written (h : calm prims s e) :
    (∀ id, written s e ≠ .cancel id) ∧
      ∀ id scheduledAt, written s e ≠ .schedule id scheduledAt := by
  cases e with
  | call i op => simp [written]
  | unsubscribe subscriberId => simp [written]
  | resume i input =>
    rw [written]
    cases hi : s.tasks i with
    | none => simp
    | some task =>
      rw [calm, hi] at h
      rw [Option.elim_some]
      split
      · simp
      · cases task with
        | cancelStore | scheduleStore => cases h
        | deliver batch delivery rest point => cases point <;> simp [Task.write]
        | _ => simp [Task.write]

theorem undisturbed_of_calm (h : calm prims s e) : Undisturbed prims s e where
  cancel id hw := absurd hw ((calm_written h).1 id)
  optOut id he := by
    rw [he] at h
    cases h
  schedule id scheduledAt hw := absurd hw ((calm_written h).2 id scheduledAt)
  stop i input batch delivery rest point he hi hstops := by
    rw [he, calm, hi] at h
    simp [hstops] at h

theorem expandedNews_heeded :
    ∃ s ∈ Runs.run (step .properties plainPrims) (start { subscribers := [ann] } [news])
        (expandedNews ++ batchBegins ["delivery"] ++ steps 11),
      s.db.deliveries.map Delivery.status = [.sent] ∧
      Heeded s (Runs.emitted (step .properties plainPrims) facts
        (start { subscribers := [ann] } [news])
        (expandedNews ++ batchBegins ["delivery"] ++ steps 11)) := by
  have hrun : ∃ s ∈ Runs.run (step .properties plainPrims) (start { subscribers := [ann] } [news])
        (expandedNews ++ batchBegins ["delivery"] ++ steps 11),
      s.db.deliveries.map Delivery.status = [.sent] := by
    decide +kernel
  have hcalm : Runs.Along (step .properties plainPrims) (fun s e => calm plainPrims s e)
      (start { subscribers := [ann] } [news])
      (expandedNews ++ batchBegins ["delivery"] ++ steps 11) := by
    decide +kernel
  obtain ⟨s, hs, hsent⟩ := hrun
  exact ⟨s, hs, hsent, heeded_of_undisturbed (hcalm.mono fun _ _ h => undisturbed_of_calm h) hs⟩

/-- Who has not been called is not under way. -/
theorem tasks_of_run {t : System} {es : List Event} (hi : s.tasks i = none)
    (hes : ∀ e ∈ es, ∀ op, e ≠ .call i op) (h : Runs.run (step keys prims) s es = some t) :
    t.tasks i = none := by
  refine Runs.run_inv_along (I := fun s => s.tasks i = none) (P := fun _ e => ∀ op, e ≠ .call i op)
    (fun s e s' hi hne hstep => ?_) hi (Runs.along_of_mem fun e he _ => hes e he) h
  refine Option.eq_none_iff_forall_ne_some.mpr fun task htask => ?_
  rcases step_tasks hstep htask with ⟨hkept, -⟩ | ⟨op, he, -⟩ | ⟨input, before, -, hbefore, -⟩
  · rw [hi] at hkept
    cases hkept
  · exact hne op he
  · rw [hi] at hbefore
    cases hbefore

/-- The blast cannot be read again. -/
def strandedBatch : List Event :=
  expandedNews ++ batchBegins ["delivery"] ++ [.resume 1 { now := 3, throws := true }]

/-- **A batch that throws leaves its delivery in sending.** -/
theorem stranded :
    ∃ s ∈ Runs.run (step .columns plainPrims) (start { subscribers := [ann] } [news]) strandedBatch,
      ¬ Heeded s (Runs.emitted (step .columns plainPrims) facts
        (start { subscribers := [ann] } [news]) strandedBatch) := by
  have hrun : ∃ s ∈ Runs.run (step .columns plainPrims) (start { subscribers := [ann] } [news])
        strandedBatch,
      s.tasks 0 = none ∧ s.tasks 1 = none ∧ ∃ row ∈ s.db.deliveries, row.status = .sending := by
    decide +kernel
  obtain ⟨s, hs, hzero, hone, row, hrow, hsending⟩ := hrun
  refine ⟨s, hs, fun h => h.settled ?_ row hrow hsending⟩
  rintro ⟨i, batch, delivery, rest, point, hi⟩
  match i with
  | 0 => cases hzero.symm.trans hi
  | 1 => cases hone.symm.trans hi
  | i + 2 =>
    have hnone : s.tasks (i + 2) = none := by
      refine tasks_of_run rfl (fun e he op hcall => ?_) hs
      have hcalls : ∀ e ∈ strandedBatch, ∀ j op, e = .call j op → j < 2 := by
        simp [strandedBatch, expandedNews, batchBegins]
      have := hcalls e he (i + 2) op hcall
      omega
    cases hnone.symm.trans hi

end Llamenos.Worker.Blasts
