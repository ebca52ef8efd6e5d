import Llamenos.Worker.Blasts

/-!
# When a blast is stored as sent

`syncBlastStats` counts the deliveries of a blast, and stores it as sent where none is left. It does
not ask whether `expandBlast` has been there: between `send` and the insertion of the deliveries,
and between one batch of insertions and the next, none is left either. And a delivery that has been
counted may be put back to pending, by a provider's report that it has failed.

Results:
* `pendingCount_nonpos`: what it means that none is left.
* `complete_apply`: what a write keeps of a complete blast.
* `sentComplete_of_countsInTurn`: **a blast that is stored as sent is complete**, in the runs where
  deliveries are counted when all have been inserted, and none goes back that has been counted.
* `sent_before_expansion`: a blast is stored as sent without a delivery.
-/

namespace Llamenos.Worker.Blasts

open Llamenos.Lib Llamenos.Crypto Llamenos.Worker.Subscribers

variable {keys : Keys} {prims : Prims}

/-! ## The property -/

/-- A delivery is over. -/
def DeliveryStatus.terminal : DeliveryStatus → Bool
  | .sent | .delivered | .failed | .optedOut | .skipped => true
  | .pending | .sending | .cancelled => false

/-- Every subscriber and channel that the blast is for has a row. -/
def Expanded (db : Db) (blast : Blast) : Prop :=
  ∀ target ∈ deliveryValues blast db.subscribers, ∃ row ∈ db.deliveries, row.isFor blast.id target

/-- And every such row is over. -/
structure Complete (db : Db) (blast : Blast) : Prop where
  expanded : Expanded db blast
  terminal : ∀ target ∈ deliveryValues blast db.subscribers, ∀ row ∈ db.deliveries,
    row.isFor blast.id target → row.status.terminal

/-- Blasts that are stored as sent are complete. -/
def SentComplete (db : Db) : Prop :=
  ∀ id, ∀ blast ∈ getBlast db id, blast.status = .sent → Complete db blast

/-- The blast of which the call has counted that nothing is left. -/
def Task.counted? : Task → Option String
  | .syncRead id stats => if stats.pendingCount ≤ 0 then some id else none
  | .syncStore id _ completed => if completed then some id else none
  | _ => none

/-- A blast has been counted as complete, or stored as such. -/
def Counted (s : System) (id : String) : Prop :=
  (∃ blast ∈ getBlast s.db id, blast.status = .sent) ∨
    ∃ i task, s.tasks i = some task ∧ task.counted? = some id

/-- The call counts deliveries. -/
def counts (s : System) : Event → Option String
  | .resume i input =>
    match s.tasks i with
    | some (.syncCount id) => if input.throws then none else some id
    | _ => none
  | _ => none

/-- What an edit leaves of whom a blast is for. -/
def UpdateBlastInput.sameTargets (input : UpdateBlastInput) : Prop :=
  input.targetChannels = none ∧ input.targetTags = none ∧ input.targetLanguages = none

/-- Where nothing is left, all has been inserted; and no delivery that is over is put back to
pending, nor is it edited whom the blast is for, when it has been counted. -/
structure CountsInTurn (s : System) (e : Event) : Prop where
  expanded : ∀ id, counts s e = some id → (computeBlastStats s.db id).pendingCount ≤ 0 →
    ∀ blast ∈ getBlast s.db id, Expanded s.db blast
  retry : ∀ deliveryId error decision, written s e = .markFailed deliveryId error decision →
    decision.permanentlyFailed = false → ∀ row ∈ s.db.deliveries, row.id = deliveryId →
    row.status.terminal → ¬ Counted s row.blastId
  targets : ∀ id input, written s e = .update id input → Counted s id → input.sameTargets

/-! ## Counting -/

/-- What is left are the deliveries that are not over. -/
theorem pendingCount_eq (db : Db) (id : String) :
    (computeBlastStats db id).pendingCount =
      db.deliveries.countP fun row => row.blastId = id && !row.status.terminal := by
  unfold BlastStats.pendingCount computeBlastStats
  dsimp only
  induction db.deliveries with
  | nil => rfl
  | cons row rows ih =>
    simp only [List.countP_cons]
    by_cases hid : row.blastId = id
    · cases row.status <;> simp [hid, DeliveryStatus.terminal] at ih ⊢ <;> omega
    · simpa [hid] using ih

variable {db : Db}

/-- **Nothing is left exactly if every delivery of the blast is over.** -/
theorem pendingCount_nonpos {id : String} :
    (computeBlastStats db id).pendingCount ≤ 0 ↔
      ∀ row ∈ db.deliveries, row.blastId = id → row.status.terminal := by
  rw [pendingCount_eq, ← Nat.cast_zero, Nat.cast_le, Nat.le_zero, List.countP_eq_zero]
  simp
variable {row : Delivery}

theorem Delivery.isFor_iff {blastId : String}
    {target : String × MessagingChannelType} : row.isFor blastId target ↔
      row.blastId = blastId ∧ row.subscriberId = target.1 ∧ row.channel = target.2 := by
  simp [Delivery.isFor, and_assoc]
variable {blast : Blast}

theorem complete_of_counted (hexpanded : Expanded db blast)
    (h : (computeBlastStats db blast.id).pendingCount ≤ 0) : Complete db blast where
  expanded := hexpanded
  terminal _ _ row hrow hfor := pendingCount_nonpos.mp h row hrow (Delivery.isFor_iff.mp hfor).1

/-! ## What a write keeps -/

/-- Rows may be added for others. -/
theorem Complete.insert (h : Complete db blast) (id : String)
    (values : List (String × String × MessagingChannelType)) :
    Complete { db with deliveries := values.foldl (insertDelivery id) db.deliveries } blast := by
  induction values generalizing db with
  | nil => exact h
  | cons value values ih =>
    have hnext :
        Complete { db with deliveries := insertDelivery id db.deliveries value } blast := by
      rw [insertDelivery]
      split
      · exact h
      · rename_i hfree
        refine ⟨fun target htarget => ?_, fun target htarget row hrow hfor => ?_⟩
        · obtain ⟨row, hrow, hfor⟩ := h.expanded target htarget
          exact ⟨row, List.mem_append_left _ hrow, hfor⟩
        · rcases List.mem_append.mp hrow with hrow | hrow
          · exact h.terminal target htarget row hrow hfor
          · -- the new row is for the same as an old one
            obtain ⟨old, hold, holdFor⟩ := h.expanded target htarget
            rw [List.mem_singleton.mp hrow] at hfor
            obtain ⟨hblast, hsubscriber, hchannel⟩ := Delivery.isFor_iff.mp hfor
            have hsame : value.2 = target := Prod.ext hsubscriber hchannel
            refine absurd (List.any_eq_true.mpr ⟨old, hold, ?_⟩) hfree
            rw [hsame, show id = blast.id from hblast, holdFor, Bool.or_true]
    exact ih hnext

/-- Rows may change that are not over. -/
theorem Complete.map (h : Complete db blast) {f : Delivery → Delivery}
    (hsame : ∀ row : Delivery, row.Same (f row))
    (hterminal : ∀ row ∈ db.deliveries, row.blastId = blast.id → row.status.terminal →
      (f row).status.terminal) :
    Complete { db with deliveries := db.deliveries.map f } blast := by
  refine ⟨fun target htarget => ?_, fun target htarget row hrow hfor => ?_⟩
  · obtain ⟨row, hrow, hfor⟩ := h.expanded target htarget
    exact ⟨f row, List.mem_map_of_mem hrow, ((hsame row).isFor_eq _ _).trans hfor⟩
  · obtain ⟨old, hold, rfl⟩ := List.mem_map.mp hrow
    rw [(hsame old).isFor_eq] at hfor
    exact hterminal old hold (Delivery.isFor_iff.mp hfor).1
      (h.terminal target htarget old hold hfor)

/-- The blast may be for fewer. -/
theorem Complete.mono {db db' : Db} {blast blast' : Blast} (h : Complete db blast)
    (hdeliveries : db'.deliveries = db.deliveries) (hid : blast'.id = blast.id)
    (hsub : deliveryValues blast' db'.subscribers ⊆ deliveryValues blast db.subscribers) :
    Complete db' blast' := by
  refine ⟨fun target htarget => ?_, fun target htarget row hrow hfor => ?_⟩
  · rw [hdeliveries, hid]
    exact h.expanded target (hsub htarget)
  · rw [hdeliveries] at hrow
    rw [hid] at hfor
    exact h.terminal target (hsub htarget) row hrow hfor

theorem deliveryValues_same (blast blast' : Blast) (hhub : blast'.hubId = blast.hubId)
    (hchannels : blast'.targetChannels = blast.targetChannels)
    (htags : blast'.targetTags = blast.targetTags)
    (hlanguages : blast'.targetLanguages = blast.targetLanguages) (rows : List Subscriber) :
    deliveryValues blast' rows ⊆ deliveryValues blast rows := by
  unfold deliveryValues Blast.matchesSubscriber
  rw [hhub, hchannels, htags, hlanguages]
  exact List.Subset.refl _

/-- Who opts out is only taken from those that a blast is for. -/
theorem deliveryValues_unsubscribe (blast : Blast) (rows : List Subscriber) (id : String) :
    deliveryValues blast
        (updateSubscriber rows id fun row => { row with status := .unsubscribed }) ⊆
      deliveryValues blast rows := by
  intro target htarget
  obtain ⟨row', hrow', hmem⟩ := List.mem_flatMap.mp htarget
  obtain ⟨hrow', hmatches⟩ := List.mem_filter.mp hrow'
  obtain ⟨row, hrow, rfl⟩ := List.mem_map.mp hrow'
  by_cases hid : row.id = id
  · rw [if_pos hid] at hmatches
    simp [Blast.matchesSubscriber] at hmatches
  · rw [if_neg hid] at hmatches hmem
    exact List.mem_flatMap.mpr ⟨row, List.mem_filter.mpr ⟨hrow, hmatches⟩, hmem⟩

/-- No write makes a blast be for more, but an edit. -/
theorem deliveryValues_apply (db : Db) (blast : Blast) {w : Write}
    (htargets : ∀ input, w = .update blast.id input → input.sameTargets) :
    deliveryValues (w.onBlast blast) (w.apply db).subscribers ⊆
      deliveryValues blast db.subscribers := by
  cases w with
  | update id input =>
    rw [Write.onBlast]
    split
    · rename_i hid
      obtain ⟨hchannels, htags, hlanguages⟩ := htargets input (by rw [hid])
      refine deliveryValues_same blast (input.set blast) rfl ?_ ?_ ?_ _ <;>
        unfold UpdateBlastInput.set <;> simp [hchannels, htags, hlanguages]
    · exact List.Subset.refl _
  | schedule | send | cancel | total | sync =>
    rw [Write.onBlast]
    split
    · exact deliveryValues_same blast _ rfl rfl rfl rfl _
    · exact List.Subset.refl _
  | unsubscribe subscriberId => exact deliveryValues_unsubscribe blast db.subscribers subscriberId
  | nothing | cancelDeliveries | insert | drain | markSent | markDelivered | markFailed
  | markOptedOut => exact List.Subset.refl _

theorem onBlast_id (blast : Blast) (w : Write) : (w.onBlast blast).id = blast.id := by
  cases w with
  | update | schedule | send | cancel | total | sync =>
    rw [Write.onBlast]
    split <;> rfl
  | unsubscribe | nothing | cancelDeliveries | insert | drain | markSent | markDelivered
  | markFailed | markOptedOut => rfl

/-- A delivery that is over stays so, unless it is claimed or put back. -/
theorem terminal_onDelivery {w : Write} (h : row.status.terminal)
    (hretry : ∀ error decision, w = .markFailed row.id error decision →
      decision.permanentlyFailed = true)
    (hdrain : ∀ deliveryIds, w = .drain deliveryIds → row.id ∉ deliveryIds) :
    (w.onDelivery row).status.terminal := by
  cases w with
  | cancelDeliveries id =>
    rw [Write.onDelivery, if_neg]
    · exact h
    · rintro ⟨-, hstatus | hstatus⟩ <;> rw [hstatus] at h <;> cases h
  | drain deliveryIds =>
    rw [Write.onDelivery, if_neg (hdrain deliveryIds rfl)]
    exact h
  | markFailed deliveryId error decision =>
    rw [Write.onDelivery]
    split
    · rename_i hid
      rw [RetryDecision.set, if_pos (hretry error decision (by rw [hid]))]
      rfl
    · exact h
  | markSent | markDelivered | markOptedOut =>
    rw [Write.onDelivery]
    split
    · rfl
    · exact h
  | insert | nothing | update | schedule | send | cancel | total | sync | unsubscribe => exact h

/-- **What a write keeps of a complete blast.** -/
theorem complete_apply (h : Complete db blast) {w : Write}
    (hretry : ∀ deliveryId error decision, w = .markFailed deliveryId error decision →
      decision.permanentlyFailed = false → ∀ row ∈ db.deliveries, row.id = deliveryId →
      row.blastId = blast.id → ¬ row.status.terminal)
    (hdrain : ∀ deliveryIds, w = .drain deliveryIds → ∀ row ∈ db.deliveries,
      row.id ∈ deliveryIds → ¬ row.status.terminal)
    (htargets : ∀ input, w = .update blast.id input → input.sameTargets) :
    Complete (w.apply db) (w.onBlast blast) := by
  have hmap : Complete { db with deliveries := db.deliveries.map w.onDelivery } blast := by
    refine h.map (fun row => same_onDelivery row w) fun row hrow hblast hterminal => ?_
    refine terminal_onDelivery hterminal (fun error decision hw => ?_) fun deliveryIds hw hmem => ?_
    · by_contra hback
      exact hretry row.id error decision hw (Bool.eq_false_iff.mpr hback) row hrow rfl hblast
        hterminal
    · exact hdrain deliveryIds hw row hrow hmem hterminal
  have hinsert : Complete
      { db with deliveries := w.inserts (db.deliveries.map w.onDelivery) } blast := by
    cases w with
    | insert id values => exact hmap.insert id values
    | nothing | update | schedule | send | cancel | total | sync | unsubscribe | cancelDeliveries
    | drain | markSent | markDelivered | markFailed | markOptedOut => exact hmap
  exact hinsert.mono (deliveries_apply db w) (onBlast_id blast w)
    (deliveryValues_apply db blast htargets)

/-! ## Runs -/

/-- What holds in every state. -/
structure CountInv (s : System) : Prop where
  ids : (s.db.deliveries.map Delivery.id).Nodup
  counted : ∀ id, Counted s id → ∀ blast ∈ getBlast s.db id, Complete s.db blast

theorem start_countInv (db : Subscribers.Db) (created : List (String × CreateBlastInput)) :
    CountInv (start db created) where
  ids := List.nodup_nil
  counted id hcounted := by
    rcases hcounted with ⟨blast, hblast, hsent⟩ | ⟨i, task, hi, -⟩
    · obtain ⟨⟨id', input⟩, -, rfl⟩ := List.mem_map.mp (List.mem_of_find?_eq_some hblast)
      cases hsent
    · cases hi

/-- The rows that a batch may claim are of its blast, and pending. -/
theorem blastId_of_possible {s : System} {input : Input} {batch : Batch}
    (h : (Task.batchDrain batch).possible s.db input)
    (hids : (s.db.deliveries.map Delivery.id).Nodup)
    (hrow : row ∈ s.db.deliveries) (hid : row.id ∈ input.claim) :
    row.blastId = batch.blastId ∧ row.status = .pending := by
  simp only [Task.possible, Bool.and_eq_true, List.all_eq_true, List.any_eq_true,
    decide_eq_true_eq] at h
  obtain ⟨row', hrow', hsame, hdue⟩ := h.2 row.id hid
  rw [List.inj_on_of_nodup_map hids hrow hrow' hsame.symm]
  simp only [Delivery.isDue, Bool.and_eq_true, decide_eq_true_eq] at hdue
  exact hdue.1

/-- A batch only claims what is pending. -/
theorem written_drain {s s' : System} {e : Event} (h : step keys prims s e = some s')
    (hids : (s.db.deliveries.map Delivery.id).Nodup) {deliveryIds : List String}
    (hw : written s e = .drain deliveryIds) (hrow : row ∈ s.db.deliveries)
    (hmem : row.id ∈ deliveryIds) : row.status = .pending := by
  cases e with
  | call i op => cases hw
  | unsubscribe subscriberId => cases hw
  | resume i input =>
    obtain ⟨task, hi, hpossible, -⟩ := step_resume h
    rw [written, hi, Option.elim_some] at hw
    split at hw
    · cases hw
    · cases task with
      | batchDrain batch =>
        cases hw
        exact (blastId_of_possible hpossible hids hrow hmem).2
      | deliver batch delivery rest point => cases point <;> cases hw
      | _ => cases hw

/-- What the next statement has counted. -/
def Progress.counted? (progress : Progress) : Option String := progress.task?.bind Task.counted?

theorem nextDue_counted (rest : List Blast) : (nextDue rest).counted? = none := by
  cases rest <;> rfl

theorem thrown_counted (pass : Option (List Blast)) (error : ServiceError) :
    (thrown pass error).counted? = none := by
  cases pass with
  | none => rfl
  | some rest => exact nextDue_counted rest

theorem nextDelivery_counted (batch : Batch) (rest : List Claimed) :
    (nextDelivery batch rest).counted? = none := by
  cases rest <;> rfl

theorem point_counted {input : Input} {batch : Batch} {delivery : Claimed}
    {rest : List Claimed} (point : Point) :
    (point.next prims db input batch delivery rest).counted? = none := by
  cases point with
  | markOptedOut | markSent | markFailed => exact nextDelivery_counted batch rest
  | waitForToken | checkActive | resolveAdapter | sendMessage => rfl
  | checkBlast =>
    rw [Point.next]
    split
    · rfl
    · split <;> rfl
  | getSubscriber =>
    rw [Point.next]
    split <;> rfl
  | resolveIdentifier content =>
    rw [Point.next]
    split <;> rfl

theorem fail_counted (input : Input) (task : Task) : (task.fail input).counted? = none := by
  cases task with
  | deliver batch delivery rest point =>
    cases point with
    | markFailed error caught => cases caught <;> rfl
    | _ => rfl
  | sendRead | sendSettings | sendCount | sendStore | expandRead | expandSubscribers | expandInsert
  | expandStore => exact thrown_counted _ _
  | _ => rfl

/-- Only the statements of `syncBlastStats` count. -/
theorem next_counted {input : Input} {task : Task} {id : String}
    (h : (task.next keys prims db input).counted? = some id) :
    task.counted? = some id ∨
      task = .syncCount id ∧ (computeBlastStats db id).pendingCount ≤ 0 := by
  cases task with
  | syncCount id' =>
    obtain ⟨hpending, h⟩ := Option.ite_none_right_eq_some.mp h
    obtain rfl := Option.some.inj h
    exact .inr ⟨rfl, hpending⟩
  | syncRead id' stats =>
    rw [Task.next] at h
    split at h
    · cases h
    · obtain ⟨hcompleted, h⟩ := Option.ite_none_right_eq_some.mp h
      rw [Bool.and_eq_true, decide_eq_true_eq] at hcompleted
      exact .inl ((if_pos hcompleted.1).trans h)
  | deliver batch delivery rest point =>
    rw [Task.next, point_counted] at h
    cases h
  | batchDrain batch =>
    rw [Task.next, nextDelivery_counted] at h
    cases h
  | poll =>
    rw [Task.next, nextDue_counted] at h
    cases h
  | updateRead | scheduleRead | cancelRead | batchRead | updateStore =>
    unfold Task.next at h
    dsimp only at h
    repeat' split at h
    all_goals cases h
  | sendRead | sendCount | sendStore | expandRead =>
    unfold Task.next at h
    dsimp only at h
    repeat' split at h
    all_goals first | cases h | (rw [thrown_counted] at h; cases h)
  | expandStore id' deliveryCount pass =>
    cases pass with
    | none => cases h
    | some rest =>
      rw [show Task.next keys prims db input (.expandStore id' deliveryCount (some rest)) =
        nextDue rest from rfl, nextDue_counted] at h
      cases h
  | expandSubscribers blast pass =>
    unfold Task.next at h
    dsimp only at h
    split at h <;> cases h
  | expandInsert id' values deliveryCount pass =>
    unfold Task.next at h
    dsimp only at h
    split at h <;> cases h
  | webhookFind externalId status failureReason =>
    unfold Task.next at h
    dsimp only at h
    split at h
    · cases h
    · cases status <;> cases h
  | scheduleStore | sendSettings | cancelDeliveries | cancelStore | syncStore | webhookDelivered
  | webhookFailed | batchSettings | batchConfig => cases h

theorem first_counted (op : Op) : op.first.counted? = none := by
  cases op <;> rfl

/-- A blast becomes sent where `syncBlastStats` says so. -/
theorem sent_onBlast {w : Write} (h : (w.onBlast blast).status = .sent) :
    blast.status = .sent ∨ ∃ stats, w = .sync blast.id stats true := by
  cases w with
  | update | total =>
    rw [Write.onBlast] at h
    split at h <;> exact .inl h
  | schedule | send | cancel =>
    rw [Write.onBlast] at h
    split at h
    · cases h
    · exact .inl h
  | sync id stats completed =>
    rw [Write.onBlast] at h
    split at h
    · rename_i hid
      cases completed with
      | true => exact .inr ⟨stats, by rw [hid]⟩
      | false => exact .inl h
    · exact .inl h
  | unsubscribe | nothing | cancelDeliveries | insert | drain | markSent | markDelivered
  | markFailed | markOptedOut => exact .inl h

/-- Who stores a blast as sent has counted it. -/
theorem counted_of_sync {s : System} {e : Event} {id : String} {stats : BlastStats}
    (h : written s e = .sync id stats true) : Counted s id := by
  cases e with
  | call i op => cases h
  | unsubscribe subscriberId => cases h
  | resume i input =>
    cases hi : s.tasks i with
    | none =>
      rw [written, hi] at h
      cases h
    | some task =>
      rw [written, hi, Option.elim_some] at h
      split at h
      · cases h
      · refine .inr ⟨i, task, hi, ?_⟩
        cases task with
        | syncStore id' stats' completed =>
          cases h
          rfl
        | deliver batch delivery rest point => cases point <;> cases h
        | _ => cases h

/-- Where a count comes from: it was there, or it is made in this step. -/
theorem counted_origin {s s' : System} {e : Event} (h : step keys prims s e = some s') {i : Nat}
    {task : Task} {id : String} (hi : s'.tasks i = some task) (hcounted : task.counted? = some id) :
    Counted s id ∨ counts s e = some id ∧ written s e = .nothing ∧
      (computeBlastStats s.db id).pendingCount ≤ 0 := by
  rcases step_tasks h hi with ⟨hkept, -⟩ | ⟨op, rfl, rfl⟩ |
    ⟨input, before, rfl, hbefore, -, hresume⟩
  · exact .inl (.inr ⟨i, task, hkept, hcounted⟩)
  · rw [first_counted] at hcounted
    cases hcounted
  · have hnext : (resume keys prims s.db input before).2.counted? = some id := by
      rw [hresume]
      exact hcounted
    rw [resume] at hnext
    split at hnext
    · rw [fail_counted] at hnext
      cases hnext
    · rename_i hthrows
      rcases next_counted hnext with hold | ⟨rfl, hpending⟩
      · exact .inl (.inr ⟨i, before, hbefore, hold⟩)
      · refine .inr ⟨?_, ?_, hpending⟩
        · rw [counts, hbefore]
          exact if_neg hthrows
        · rw [written, hbefore, Option.elim_some, if_neg hthrows]
          rfl

/-- **What a step in turn keeps.** -/
theorem countInv_step {s s' : System} {e : Event} (h : step keys prims s e = some s')
    (hinv : CountInv s) (hturn : CountsInTurn s e) : CountInv s' := by
  refine ⟨step_spec h ▸ ids_apply hinv.ids _, fun id hcounted blast' hblast' => ?_⟩
  rw [step_spec h] at hblast' ⊢
  rw [getBlast_apply] at hblast'
  obtain ⟨blast, hblast, rfl⟩ := Option.map_eq_some_iff.mp hblast'
  have hid : blast.id = id := getBlast_id hblast
  -- what has been counted before stays complete
  have hkeeps : Counted s id →
      Complete ((written s e).apply s.db) ((written s e).onBlast blast) := by
    intro hbefore
    refine complete_apply (hinv.counted id hbefore blast hblast) ?_ ?_ ?_
    · intro deliveryId error decision hw hretry row hrow hrowId hrowBlast hterminal
      refine hturn.retry deliveryId error decision hw hretry row hrow hrowId hterminal ?_
      rwa [hrowBlast, hid]
    · intro deliveryIds hw row hrow hmem hterminal
      rw [written_drain h hinv.ids hw hrow hmem] at hterminal
      cases hterminal
    · intro input hw
      exact hturn.targets blast.id input hw (by rwa [hid])
  rcases hcounted with ⟨blast', hblast', hsent⟩ | ⟨i, task, hi, htask⟩
  · rw [step_spec h, getBlast_apply, hblast] at hblast'
    obtain rfl := Option.some.inj hblast'
    rcases sent_onBlast hsent with hsent | ⟨stats, hw⟩
    · exact hkeeps (.inl ⟨blast, hblast, hsent⟩)
    · exact hkeeps (hid ▸ counted_of_sync hw)
  · rcases counted_origin h hi htask with hbefore | ⟨hcounts, hw, hpending⟩
    · exact hkeeps hbefore
    · -- the step counts that nothing is left, when all has been inserted
      rw [hw]
      exact complete_of_counted (hturn.expanded id hcounts hpending blast hblast) (hid ▸ hpending)

/-- **A blast that is stored as sent is complete**, in every run of steps in turn. -/
theorem sentComplete_of_countsInTurn {db : Subscribers.Db}
    {created : List (String × CreateBlastInput)} {es : List Event} {s : System}
    (hturn : Runs.Along (step keys prims) CountsInTurn (start db created) es)
    (h : Runs.run (step keys prims) (start db created) es = some s) : SentComplete s.db := by
  have hinv : CountInv s := Runs.run_inv_along (I := CountInv)
    (fun _ _ _ hinv hturn hstep => countInv_step hstep hinv hturn) (start_countInv db created)
    hturn h
  exact fun id blast hblast hsent => hinv.counted id (.inl ⟨blast, hblast, hsent⟩) blast hblast

/-- A step counts when all has been inserted, puts nothing back, and edits nothing. -/
def Steady (s : System) (e : Event) : Prop :=
  (∀ id ∈ counts s e, (computeBlastStats s.db id).pendingCount ≤ 0 →
    ∀ blast ∈ getBlast s.db id, Expanded s.db blast) ∧
  match written s e with
  | .markFailed _ _ decision => decision.permanentlyFailed = true
  | .update _ _ => False
  | _ => True

theorem Steady.countsInTurn {s : System} {e : Event} (h : Steady s e) : CountsInTurn s e where
  expanded := h.1
  retry deliveryId error decision hw hretry := by
    have hfailed := h.2
    rw [hw] at hfailed
    exact absurd hfailed (Bool.eq_false_iff.mp hretry)
  targets id input hw := by
    have hedit := h.2
    rw [hw] at hedit
    exact hedit.elim

instance (db : Db) (blast : Blast) : Decidable (Expanded db blast) := by
  unfold Expanded
  infer_instance

instance (s : System) (e : Event) : Decidable (Steady s e) := by
  unfold Steady
  cases written s e <;> infer_instance

/-- A blast is sent, and expanded. -/
def expandedNews : List Event :=
  [.call 0 (.send "blast" (some "hub")), .resume 0 { now := 0 }, .resume 0 { now := 0 },
    .resume 0 { now := 0 }, .resume 0 { now := 0 },
    .call 0 (.expandBlast "blast"), .resume 0 { now := 1 }, .resume 0 { now := 1 },
    .resume 0 { now := 1, ids := ["delivery"] }, .resume 0 { now := 1 }]

/-- A batch of the worker begins, and claims the deliveries. -/
def batchBegins (claim : List String) : List Event :=
  [.call 1 (.processBlastBatch "blast" "hub"), .resume 1 { now := 2 }, .resume 1 { now := 2 },
    .resume 1 { now := 2 }, .resume 1 { now := 2, claim }]

/-- What is left of a batch, after what it has claimed. -/
def steps (n : Nat) : List Event := List.replicate n (.resume 1 { now := 3 })

theorem expandedNews_complete :
    ∃ s ∈ Runs.run (step .properties plainPrims) (start { subscribers := [ann] } [news])
        (expandedNews ++ batchBegins ["delivery"] ++ steps 11),
      (getBlast s.db "blast").map Blast.status = some .sent ∧ SentComplete s.db := by
  have hrun : ∃ s ∈ Runs.run (step .properties plainPrims) (start { subscribers := [ann] } [news])
        (expandedNews ++ batchBegins ["delivery"] ++ steps 11),
      (getBlast s.db "blast").map Blast.status = some .sent := by
    decide +kernel
  have hsteady : Runs.Along (step .properties plainPrims) Steady
      (start { subscribers := [ann] } [news])
      (expandedNews ++ batchBegins ["delivery"] ++ steps 11) := by
    decide +kernel
  obtain ⟨s, hs, hsent⟩ := hrun
  exact ⟨s, hs, hsent,
    sentComplete_of_countsInTurn (hsteady.mono fun _ _ h => h.countsInTurn) hs⟩

/-- A batch runs between `send` and `expandBlast`. -/
def sentEmpty : List Event := expandedNews.take 5 ++ batchBegins [] ++ steps 3

/-- **A blast is stored as sent before it is expanded.** -/
theorem sent_before_expansion :
    ∃ s ∈ Runs.run (step .properties plainPrims) (start { subscribers := [ann] } [news]) sentEmpty,
      ¬ SentComplete s.db := by
  have hrun : ∃ s ∈ Runs.run (step .properties plainPrims)
        (start { subscribers := [ann] } [news]) sentEmpty,
      ∃ blast ∈ getBlast s.db "blast", blast.status = .sent ∧ ¬ Expanded s.db blast := by
    decide +kernel
  obtain ⟨s, hs, blast, hblast, hsent, hmissing⟩ := hrun
  exact ⟨s, hs, fun h => hmissing (h "blast" blast hblast hsent).expanded⟩

end Llamenos.Worker.Blasts
