import Llamenos.Worker.Blasts.Batches

/-!
# What a batch makes of its deliveries

`drainDeliveryBatch` returns the rows of `db.execute` as they are. Where these are keyed by the
names of the columns, `delivery.subscriberId` is not there: the worker asks whether nobody is
active, and marks every delivery that it reaches as opted out. The signal queue's `claimBatch` maps
its rows by hand.

Results:
* `loop_run`: what the loop makes of the rows.
* `batch_run`: **what a batch makes of the rows.**
* `faithful_iff`: a batch is right about its deliveries exactly if it reaches none of an active
  subscriber.
* `active_optedOut`: the delivery of an active subscriber is marked as opted out.
-/

namespace Llamenos.Worker.Blasts

open Llamenos.Lib Llamenos.Crypto Llamenos.Worker.Subscribers

variable {keys : Keys} {prims : Prims}

/-! ## The property -/

/-- A call of an adapter, and whether it reported success. -/
structure Invocation where
  deliveryId : String
  channel : MessagingChannelType
  recipientIdentifier : String
  success : Bool

def invocations (s : System) : Event → List Invocation
  | .resume i input =>
    match s.tasks i with
    | some (.deliver _ delivery _ (.sendMessage params)) =>
      [{ deliveryId := delivery.id
         channel := delivery.channel
         recipientIdentifier := params.recipientIdentifier
         success := !input.throws && input.result.success }]
    | _ => []
  | _ => []

/-- The adapter reported success for the delivery's channel, and its subscriber's identifier. -/
def Delivered (prims : Prims) (db : Db) (calls : List Invocation) (row : Delivery) : Prop :=
  ∃ c ∈ calls, c.deliveryId = row.id ∧ c.channel = row.channel ∧ c.success = true ∧
    resolveSubscriberIdentifier prims (getSubscriberById db (some row.subscriberId)) =
      some (some c.recipientIdentifier)

/-- Deliveries are marked as opted out only if the subscriber is not active, and as sent exactly if
the adapter reported success. -/
structure Faithful (prims : Prims) (db db' : Db) (calls : List Invocation) : Prop where
  optedOut : ∀ row ∈ db.deliveries, ∀ row' ∈ db'.deliveries, row'.id = row.id →
    row.status ≠ .optedOut → row'.status = .optedOut →
    isSubscriberActive db (some row.subscriberId) = false
  sent : ∀ row ∈ db.deliveries, ∀ row' ∈ db'.deliveries, row'.id = row.id →
    row.status ≠ .sent → (row'.status = .sent ↔ Delivered prims db calls row)

/-! ## What a batch reaches -/

/-- The deliveries for which the statements of the loop go through: the reading of the blast, the
check of the subscriber, and the marking. -/
def reached : List String → List Input → List String
  | [], _ => []
  | id :: ids, a :: b :: c :: inputs =>
    if a.throws || b.throws || c.throws then [] else id :: reached ids inputs
  | _ :: _, _ => []

/-- The blast is in sending. -/
def isSending (db : Db) (blastId : String) : Bool :=
  (getBlast db blastId).any (·.status = .sending)

/-- The deliveries that a batch reaches, after the four statements before its loop. -/
def reachedBy (db : Db) (blastId : String) : List Input → List String
  | a :: b :: c :: d :: inputs =>
    if a.throws || b.throws || c.throws || d.throws || !isSending db blastId then []
    else reached d.claim inputs
  | _ => []

/-! ## One call's statements -/

variable {s t : System} {i : Nat} {inputs : List Input}

/-- A call that is over makes no step. -/
theorem run_over (hi : s.tasks i = none)
    (h : Runs.run (step keys prims) s (inputs.map (.resume i)) = some t) : inputs = [] ∧ t = s := by
  cases inputs with
  | nil => exact ⟨rfl, (Option.some.inj h).symm⟩
  | cons a inputs =>
    obtain ⟨s', hstep, -⟩ := Runs.run_cons.mp h
    obtain ⟨task, htask, -⟩ := step_resume hstep
    rw [hi] at htask
    cases htask

variable {task : Task}

/-- A call that is under way makes the step of its next statement. -/
theorem run_statement {a : Input} (hi : s.tasks i = some task)
    (h : Runs.run (step keys prims) s ((a :: inputs).map (.resume i)) = some t) :
    ∃ s', step keys prims s (.resume i a) = some s' ∧ task.possible s.db a ∧
      s'.db = (resume keys prims s.db a task).1.apply s.db ∧
      s'.tasks i = (resume keys prims s.db a task).2.task? ∧
      Runs.run (step keys prims) s' (inputs.map (.resume i)) = some t := by
  obtain ⟨s', hstep, hrest⟩ := Runs.run_cons.mp h
  obtain ⟨task', htask, hpossible, rfl⟩ := step_resume hstep
  obtain rfl := Option.some.inj (htask.symm.trans hi)
  exact ⟨_, hstep, hpossible, rfl, Function.update_self .., hrest⟩

/-- What a run leaves when it calls no adapter: the rows, but for their statuses. -/
structure Silent (keys : Keys) (prims : Prims) (s t : System) (es : List Event)
    (set : Delivery → Delivery) : Prop where
  deliveries : t.db.deliveries = s.db.deliveries.map set
  calls : Runs.emitted (step keys prims) invocations s es = []

theorem Silent.nil (s : System) : Silent keys prims s s [] id where
  deliveries := (List.map_id _).symm
  calls := rfl
variable {es : List Event}

theorem Silent.cons {s' : System} {e : Event} (set : Delivery → Delivery)
    {set' : Delivery → Delivery} (hstep : step keys prims s e = some s')
    (hset : s'.db.deliveries = s.db.deliveries.map set)
    (hcalls : invocations s e = []) (h : Silent keys prims s' t es set') :
    Silent keys prims s t (e :: es) (set' ∘ set) where
  deliveries := by rw [h.deliveries, hset, List.map_map]
  calls := by rw [Runs.emitted_cons hstep, hcalls, h.calls, List.nil_append]

/-- A statement of `syncBlastStats`. -/
def Task.syncs : Task → Bool
  | .syncCount _ | .syncRead _ _ | .syncStore _ _ _ => true
  | _ => false

/-- Counting leaves the deliveries. -/
theorem sync_run (hi : s.tasks i = some task) (hsyncs : task.syncs)
    (h : Runs.run (step keys prims) s (inputs.map (.resume i)) = some t) :
    Silent keys prims s t (inputs.map (.resume i)) id := by
  induction inputs generalizing s task with
  | nil =>
    rw [← Option.some.inj h]
    exact Silent.nil s
  | cons a inputs ih =>
    obtain ⟨s', hstep, -, hdb, htasks, hrest⟩ := run_statement hi h
    have hcalls : invocations s (.resume i a) = [] := by
      rw [invocations, hi]
      cases task <;> first | rfl | cases hsyncs
    have hwrite : s'.db.deliveries = s.db.deliveries.map id := by
      rw [hdb, List.map_id, resume]
      split
      · rfl
      · cases task <;> first | rfl | cases hsyncs
    have hnext : s'.tasks i = none ∨ ∃ next, s'.tasks i = some next ∧ next.syncs := by
      rw [htasks, resume]
      split
      · cases task <;> first | exact .inl rfl | cases hsyncs
      · cases task with
        | syncCount id => exact .inr ⟨_, rfl, rfl⟩
        | syncRead id stats =>
          rw [Task.next]
          split
          · exact .inl rfl
          · exact .inr ⟨_, rfl, rfl⟩
        | syncStore => exact .inl rfl
        | _ => cases hsyncs
    rcases hnext with hover | ⟨next, hnext, hsyncs'⟩
    · obtain ⟨rfl, rfl⟩ := run_over hover hrest
      exact .cons id hstep hwrite hcalls (.nil _)
    · exact .cons id hstep hwrite hcalls (ih hnext hsyncs' hrest)

/-! ## The loop -/

/-- The deliveries are marked as opted out. -/
def optOut (ids : List String) (row : Delivery) : Delivery :=
  if row.id ∈ ids then { row with status := .optedOut } else row

@[simp] theorem optOut_id (ids : List String) (row : Delivery) : (optOut ids row).id = row.id := by
  unfold optOut
  split <;> rfl

theorem optOut_nil : optOut [] = id := by
  funext row
  simp [optOut]

theorem optOut_cons (id : String) (ids : List String) :
    optOut ids ∘ optOut [id] = optOut (id :: ids) := by
  funext row
  unfold optOut
  by_cases hid : row.id = id
  · by_cases hids : row.id ∈ ids <;> simp [hid]
  · by_cases hids : row.id ∈ ids <;> simp [hid, hids]

theorem optOut_write (db : Db) (id : String) :
    ((Write.markOptedOut id).apply db).deliveries = db.deliveries.map (optOut [id]) := by
  unfold Write.apply updateDeliveries
  dsimp only
  congr 1
  funext row
  simp [optOut]

/-- Nothing more comes of a batch that stops. -/
theorem stopped_run {s' : System} {e : Event} (hstep : step keys prims s e = some s')
    (hdb : s'.db = s.db) (hcalls : invocations s e = []) (hover : s'.tasks i = none)
    (h : Runs.run (step keys prims) s' (inputs.map (.resume i)) = some t) :
    inputs = [] ∧ Silent keys prims s t (e :: inputs.map (.resume i)) id := by
  obtain ⟨rfl, rfl⟩ := run_over hover h
  refine ⟨rfl, .cons id hstep ?_ hcalls (.nil _)⟩
  rw [hdb]
  exact (List.map_id _).symm

/-- A statement that throws, where nothing catches it. -/
theorem throws_run {a : Input} (hi : s.tasks i = some task) (hthrows : a.throws)
    (hfail : (task.fail a).task? = none) (hcalls : invocations s (.resume i a) = [])
    (h : Runs.run (step keys prims) s ((a :: inputs).map (.resume i)) = some t) :
    inputs = [] ∧ Silent keys prims s t ((a :: inputs).map (.resume i)) id := by
  obtain ⟨s', hstep, -, hdb, htasks, hrest⟩ := run_statement hi h
  rw [resume, if_pos hthrows] at hdb htasks
  exact stopped_run hstep hdb hcalls (htasks.trans hfail) hrest

/-- One that does not. -/
theorem goes_run {a : Input} (hi : s.tasks i = some task) (hgoes : ¬ a.throws)
    (h : Runs.run (step keys prims) s ((a :: inputs).map (.resume i)) = some t) :
    ∃ s', step keys prims s (.resume i a) = some s' ∧ task.possible s.db a ∧
      s'.db = (task.write a).apply s.db ∧ s'.tasks i = (task.next keys prims s.db a).task? ∧
      Runs.run (step keys prims) s' (inputs.map (.resume i)) = some t := by
  obtain ⟨s', hstep, hpossible, hdb, htasks, hrest⟩ := run_statement hi h
  rw [resume, if_neg hgoes] at hdb htasks
  exact ⟨s', hstep, hpossible, hdb, htasks, hrest⟩

theorem Silent.unchanged {s' : System} {e : Event} {set : Delivery → Delivery}
    (hstep : step keys prims s e = some s') (hdb : s'.db = s.db) (hcalls : invocations s e = [])
    (h : Silent keys prims s' t es set) : Silent keys prims s t (e :: es) set :=
  .cons id hstep (by rw [hdb]; exact (List.map_id _).symm) hcalls h

/-- **What the loop makes of the rows**, where the claimed rows do not name their subscribers: those
it reaches are opted out. -/
theorem loop_run {batch : Batch} {left : List Claimed} (hleft : ∀ c ∈ left, c.subscriberId = none)
    (hsending : isSending s.db batch.blastId) (hi : s.tasks i = (nextDelivery batch left).task?)
    (h : Runs.run (step keys prims) s (inputs.map (.resume i)) = some t) :
    Silent keys prims s t (inputs.map (.resume i))
      (optOut (reached (left.map Claimed.id) inputs)) := by
  induction left generalizing s inputs with
  | nil =>
    rw [List.map_nil, reached, optOut_nil]
    exact sync_run hi rfl h
  | cons first left ih =>
    -- the blast is read
    cases inputs with
    | nil =>
      obtain rfl := Option.some.inj h
      exact optOut_nil ▸ Silent.nil s
    | cons a inputs =>
    have hcalls : invocations s (.resume i a) = [] := by
      rw [invocations, hi]
      rfl
    by_cases ha : a.throws
    · obtain ⟨rfl, hsilent⟩ := throws_run hi ha rfl hcalls h
      exact optOut_nil ▸ hsilent
    obtain ⟨s₁, hstep, -, hdb, hi₁, h₁⟩ := goes_run hi ha h
    obtain ⟨blast, hblast, hstatus⟩ := (Option.any_eq_true _ _).mp hsending
    rw [Task.next, Point.next, hblast] at hi₁
    dsimp only at hi₁
    rw [if_pos (of_decide_eq_true hstatus)] at hi₁
    refine .unchanged hstep hdb hcalls ?_
    have hdb₁ : s₁.db = s.db := hdb
    -- the subscriber is looked for, by no id
    cases inputs with
    | nil =>
      obtain rfl := Option.some.inj h₁
      exact optOut_nil ▸ Silent.nil s₁
    | cons b inputs =>
    have hcalls₁ : invocations s₁ (.resume i b) = [] := by
      rw [invocations, hi₁]
      rfl
    by_cases hb : b.throws
    · obtain ⟨rfl, hsilent⟩ := throws_run hi₁ hb rfl hcalls₁ h₁
      exact optOut_nil ▸ hsilent
    obtain ⟨s₂, hstep₁, -, hdb₂, hi₂, h₂⟩ := goes_run hi₁ hb h₁
    rw [Task.next, Point.next, hleft first List.mem_cons_self, not_active_none] at hi₂
    refine .unchanged hstep₁ hdb₂ hcalls₁ ?_
    -- the delivery is marked
    cases inputs with
    | nil =>
      obtain rfl := Option.some.inj h₂
      exact optOut_nil ▸ Silent.nil s₂
    | cons c inputs =>
    have hcalls₂ : invocations s₂ (.resume i c) = [] := by
      rw [invocations, hi₂]
      rfl
    rw [List.map_cons (f := Claimed.id), reached]
    by_cases hc : c.throws
    · obtain ⟨rfl, hsilent⟩ := throws_run hi₂ hc rfl hcalls₂ h₂
      rw [if_pos (by simp [hc])]
      exact optOut_nil ▸ hsilent
    obtain ⟨s₃, hstep₂, -, hdb₃, hi₃, h₃⟩ := goes_run hi₂ hc h₂
    rw [if_neg (by simp [ha, hb, hc]), ← optOut_cons]
    refine .cons (optOut [first.id]) hstep₂ ?_ hcalls₂ (ih ?_ ?_ hi₃ h₃)
    · rw [hdb₃]
      exact optOut_write s₂.db first.id
    · exact fun c hc => hleft c (List.mem_cons_of_mem _ hc)
    · rw [hdb₃, hdb₂, hdb₁]
      exact hsending

/-- A batch of a blast that is not in sending does nothing. -/
theorem idle_run {batch : Batch} {left : List Claimed} (hsending : ¬ isSending s.db batch.blastId)
    (hi : s.tasks i = (nextDelivery batch left).task?)
    (h : Runs.run (step keys prims) s (inputs.map (.resume i)) = some t) :
    Silent keys prims s t (inputs.map (.resume i)) id := by
  cases left with
  | nil => exact sync_run hi rfl h
  | cons first left =>
    cases inputs with
    | nil =>
      obtain rfl := Option.some.inj h
      exact Silent.nil s
    | cons a inputs =>
      have hcalls : invocations s (.resume i a) = [] := by
        rw [invocations, hi]
        rfl
      by_cases ha : a.throws
      · exact (throws_run hi ha rfl hcalls h).2
      · obtain ⟨s', hstep, -, hdb, hi', hrest⟩ := goes_run hi ha h
        refine (stopped_run hstep hdb hcalls (hi'.trans ?_) hrest).2
        rw [Task.next, Point.next]
        unfold isSending at hsending
        cases hblast : getBlast s.db batch.blastId with
        | none => rfl
        | some blast =>
          have hstatus : blast.status ≠ .sending := by simpa [hblast] using hsending
          dsimp only
          rw [if_neg hstatus]
          rfl

/-! ## A batch -/

/-- The deliveries are claimed. -/
def takeUp (ids : List String) (row : Delivery) : Delivery :=
  if row.id ∈ ids then { row with status := .sending } else row

@[simp] theorem takeUp_id (ids : List String) (row : Delivery) : (takeUp ids row).id = row.id := by
  unfold takeUp
  split <;> rfl

theorem takeUp_nil : takeUp [] = id := by
  funext row
  simp [takeUp]

theorem claims_ids {db : Db} {ids : List String}
    (h : ∀ id ∈ ids, ∃ row ∈ db.deliveries, row.id = id) :
    (claims keys db ids).map Claimed.id = ids := by
  induction ids with
  | nil => rfl
  | cons id ids ih =>
    obtain ⟨row, hrow, hid⟩ := h id List.mem_cons_self
    have hrest := ih fun id' hid' => h id' (List.mem_cons_of_mem _ hid')
    unfold claims at hrest ⊢
    cases hfound : db.deliveries.find? (·.id = id) with
    | none => exact absurd hid (by simpa using List.find?_eq_none.mp hfound row hrow)
    | some row' =>
      have hsame : row'.id = id := by simpa using List.find?_some hfound
      rw [List.filterMap_cons_some (by rw [hfound]; rfl), List.map_cons, hrest]
      exact congrArg (· :: ids) hsame

theorem claims_columns {db : Db} {ids : List String} :
    ∀ c ∈ claims .columns db ids, c.subscriberId = none := by
  intro c hc
  obtain ⟨row, -, rfl, -⟩ := mem_claims hc
  rfl

theorem reached_subset (ids : List String) (inputs : List Input) : reached ids inputs ⊆ ids := by
  fun_induction reached ids inputs with
  | case1 inputs => exact List.Subset.refl _
  | case2 id ids a b c inputs hthrows => exact List.nil_subset _
  | case3 id ids a b c inputs hgoes ih => exact List.cons_subset_cons id ih
  | case4 id ids inputs hshort => exact List.nil_subset _

/-- What a batch makes of the rows: what it claims is in sending, and what it reaches is opted
out. -/
structure Processed (prims : Prims) (s t : System) (es : List Event) (claim reach : List String) :
    Prop where
  pending : ∀ row ∈ s.db.deliveries, row.id ∈ claim → row.status = .pending
  subset : reach ⊆ claim
  rows : Silent .columns prims s t es (optOut reach ∘ takeUp claim)

theorem Processed.nothing (h : Silent .columns prims s t es id) :
    Processed prims s t es [] [] where
  pending _ _ h := by cases h
  subset := List.Subset.refl _
  rows := by
    rw [optOut_nil, takeUp_nil]
    exact h

/-- What comes of the rest, if the next statement goes through. -/
def ifGoes (reach : Input → List Input → List String) : List Input → List String
  | [] => []
  | a :: rest => if a.throws then [] else reach a rest

theorem reachedBy_eq (db : Db) (blastId : String) (inputs : List Input) :
    reachedBy db blastId inputs =
      ifGoes (fun _ => ifGoes fun _ => ifGoes fun _ => ifGoes fun d rest =>
        if isSending db blastId then reached d.claim rest else []) inputs := by
  match inputs with
  | [] => rfl
  | [a] | [a, b] | [a, b, c] => simp [reachedBy, ifGoes]
  | a :: b :: c :: d :: rest =>
    simp only [reachedBy, ifGoes]
    cases a.throws <;> cases b.throws <;> cases c.throws <;> cases d.throws <;>
      cases isSending db blastId <;> rfl

theorem Processed.unchanged {s' : System} {e : Event} {claim reach : List String}
    (hstep : step .columns prims s e = some s') (hdb : s'.db = s.db) (hcalls : invocations s e = [])
    (h : Processed prims s' t es claim reach) : Processed prims s t (e :: es) claim reach where
  pending := hdb ▸ h.pending
  subset := h.subset
  rows := h.rows.unchanged hstep hdb hcalls

/-- A statement before the batch claims: it throws, or leads to the next one. -/
theorem prelude_run {reach : List Input → List String}
    (hi : s.tasks i = some task) (hfail : ∀ a, (task.fail a).task? = none)
    (hcalls : ∀ a, invocations s (.resume i a) = []) (hwrite : ∀ a, task.write a = .nothing)
    (hnext : ∀ a rest s', s'.db = s.db →
      s'.tasks i = (task.next .columns prims s.db a).task? →
      Runs.run (step .columns prims) s' (rest.map (.resume i)) = some t →
      ∃ claim, Processed prims s' t (rest.map (.resume i)) claim (reach rest))
    (h : Runs.run (step .columns prims) s (inputs.map (.resume i)) = some t) :
    ∃ claim, Processed prims s t (inputs.map (.resume i)) claim
      (ifGoes (fun _ => reach) inputs) := by
  cases inputs with
  | nil =>
    obtain rfl := Option.some.inj h
    exact ⟨[], .nothing (Silent.nil s)⟩
  | cons a rest =>
    rw [ifGoes]
    by_cases ha : a.throws
    · obtain ⟨rfl, hsilent⟩ := throws_run hi ha (hfail a) (hcalls a) h
      rw [if_pos ha]
      exact ⟨[], .nothing hsilent⟩
    · obtain ⟨s', hstep, -, hdb, hi', hrest⟩ := goes_run hi ha h
      rw [hwrite] at hdb
      obtain ⟨claim, hprocessed⟩ := hnext a rest s' hdb hi' hrest
      rw [if_neg ha]
      exact ⟨claim, hprocessed.unchanged hstep hdb (hcalls a)⟩

/-- A batch whose blast has been read. -/
theorem drain_run {batch : Batch} (hids : (s.db.deliveries.map Delivery.id).Nodup)
    (hi : s.tasks i = some (.batchDrain batch))
    (h : Runs.run (step .columns prims) s (inputs.map (.resume i)) = some t) :
    ∃ claim, Processed prims s t (inputs.map (.resume i)) claim
      (ifGoes (fun d rest => if isSending s.db batch.blastId then reached d.claim rest else [])
        inputs) := by
  cases inputs with
  | nil =>
    obtain rfl := Option.some.inj h
    exact ⟨[], .nothing (Silent.nil s)⟩
  | cons d rest =>
    have hcalls : invocations s (.resume i d) = [] := by
      rw [invocations, hi]
    rw [ifGoes]
    by_cases hd : d.throws
    · obtain ⟨rfl, hsilent⟩ := throws_run hi hd rfl hcalls h
      rw [if_pos hd]
      exact ⟨[], .nothing hsilent⟩
    · rw [if_neg hd]
      obtain ⟨s', hstep, hpossible, hdb, hi', hrest⟩ := goes_run hi hd h
      have hpending : ∀ row ∈ s.db.deliveries, row.id ∈ d.claim → row.status = .pending :=
        fun row hrow hid => (blastId_of_possible hpossible hids hrow hid).2
      have hrows : s'.db.deliveries = s.db.deliveries.map (takeUp d.claim) := by
        rw [hdb]
        rfl
      have hclaims : (claims .columns s.db d.claim).map Claimed.id = d.claim := by
        refine claims_ids fun id hid => ?_
        simp only [Task.possible, Bool.and_eq_true, List.all_eq_true, List.any_eq_true,
          decide_eq_true_eq] at hpossible
        obtain ⟨row, hrow, hsame, -⟩ := hpossible.2 id hid
        exact ⟨row, hrow, hsame⟩
      have hblasts : isSending s'.db batch.blastId = isSending s.db batch.blastId := by
        rw [hdb]
        rfl
      refine ⟨d.claim, hpending, ?_, ?_⟩
      · split
        · exact reached_subset d.claim rest
        · exact List.nil_subset _
      · by_cases hsending : isSending s.db batch.blastId
        · rw [if_pos hsending, ← hclaims]
          refine .cons (takeUp _) hstep (hclaims.symm ▸ hrows) hcalls ?_
          exact loop_run claims_columns (hblasts ▸ hsending) hi' hrest
        · rw [if_neg hsending, optOut_nil]
          refine .cons (takeUp _) hstep hrows hcalls (idle_run (hblasts ▸ hsending) hi' hrest)

/-- **What a batch makes of the rows.** -/
theorem batch_run {blastId hubId : String} (hids : (s.db.deliveries.map Delivery.id).Nodup)
    (h : Runs.run (step .columns prims) s
      (.call i (.processBlastBatch blastId hubId) :: inputs.map (.resume i)) = some t) :
    ∃ claim, Processed prims s t
      (.call i (.processBlastBatch blastId hubId) :: inputs.map (.resume i)) claim
      (reachedBy s.db blastId inputs) := by
  obtain ⟨s₀, hstep, h₀⟩ := Runs.run_cons.mp h
  have hs₀ := (step_call hstep).2
  have hdb₀ : s₀.db = s.db := by rw [hs₀]
  have hi₀ : s₀.tasks i = some (.batchSettings blastId hubId) := by
    rw [hs₀]
    exact Function.update_self ..
  have hquiet {s' : System} {task : Task} (hi' : s'.tasks i = some task)
      (hloop : task.held = []) (a : Input) : invocations s' (.resume i a) = [] := by
    rw [invocations, hi']
    cases task with
    | deliver => cases hloop
    | _ => rfl
  suffices hsettings : ∃ claim, Processed prims s₀ t (inputs.map (.resume i)) claim
      (reachedBy s.db blastId inputs) by
    obtain ⟨claim, hprocessed⟩ := hsettings
    exact ⟨claim, hprocessed.unchanged hstep hdb₀ rfl⟩
  rw [reachedBy_eq]
  refine prelude_run hi₀ (fun _ => rfl) (hquiet hi₀ rfl) (fun _ => rfl) ?_ h₀
  intro _ inputs s₁ hdb₁ hi₁ h₁
  refine prelude_run hi₁ (fun _ => rfl) (hquiet hi₁ rfl) (fun _ => rfl) ?_ h₁
  intro _ inputs s₂ hdb₂ hi₂ h₂
  refine prelude_run hi₂ (fun _ => rfl) (hquiet hi₂ rfl) (fun _ => rfl) ?_ h₂
  intro _ inputs s₃ hdb₃ hi₃ h₃
  have hdb : s₃.db = s.db := hdb₃.trans (hdb₂.trans (hdb₁.trans hdb₀))
  rw [hdb₂.trans (hdb₁.trans hdb₀), Task.next] at hi₃
  cases hblast : getBlast s.db blastId with
  | none =>
    rw [hblast] at hi₃
    obtain ⟨rfl, rfl⟩ := run_over hi₃ h₃
    exact ⟨[], .nothing (Silent.nil _)⟩
  | some blast =>
    rw [hblast] at hi₃
    rw [← hdb]
    exact drain_run (hdb ▸ hids) hi₃ h₃

/-! ## Faithful batches -/

/-- The status of a row after a batch. -/
theorem status_processed (reach claim : List String) (row : Delivery) :
    (optOut reach (takeUp claim row)).status =
      if row.id ∈ reach then .optedOut else if row.id ∈ claim then .sending else row.status := by
  unfold optOut
  rw [takeUp_id]
  by_cases hreach : row.id ∈ reach
  · rw [if_pos hreach, if_pos hreach]
  · rw [if_neg hreach, if_neg hreach]
    unfold takeUp
    split <;> rfl

/-- **A batch is right about its deliveries exactly if it reaches none of an active subscriber**,
where the rows are keyed by the names of the columns. -/
theorem faithful_iff {blastId hubId : String} (hids : (s.db.deliveries.map Delivery.id).Nodup)
    (h : Runs.run (step .columns prims) s
      (.call i (.processBlastBatch blastId hubId) :: inputs.map (.resume i)) = some t) :
    Faithful prims s.db t.db (Runs.emitted (step .columns prims) invocations s
        (.call i (.processBlastBatch blastId hubId) :: inputs.map (.resume i))) ↔
      ∀ row ∈ s.db.deliveries, row.id ∈ reachedBy s.db blastId inputs →
        isSubscriberActive s.db (some row.subscriberId) = false := by
  obtain ⟨claim, hprocessed⟩ := batch_run hids h
  rw [hprocessed.rows.calls]
  generalize reachedBy s.db blastId inputs = reach at hprocessed
  have hrows := hprocessed.rows.deliveries
  constructor
  · intro hfaithful row hmem hreach
    refine hfaithful.optedOut row hmem (optOut reach (takeUp claim row))
      (hrows ▸ List.mem_map_of_mem hmem) (by simp) ?_ ?_
    · rw [hprocessed.pending row hmem (hprocessed.subset hreach)]
      nofun
    · rw [status_processed, if_pos hreach]
  · intro hinactive
    have hstatus : ∀ row ∈ s.db.deliveries, ∀ row' ∈ t.db.deliveries, row'.id = row.id →
        row'.status =
          if row.id ∈ reach then .optedOut else if row.id ∈ claim then .sending
          else row.status := by
      intro row hmem row' hmem' hid
      rw [hrows] at hmem'
      obtain ⟨old, hold, rfl⟩ := List.mem_map.mp hmem'
      have hsame : old.id = row.id := by simpa using hid
      rw [← List.inj_on_of_nodup_map hids hold hmem hsame]
      exact status_processed reach claim old
    refine ⟨fun row hmem row' hmem' hid hbefore hafter => ?_,
      fun row hmem row' hmem' hid hbefore => ?_⟩
    · rw [hstatus row hmem row' hmem' hid] at hafter
      by_cases hreach : row.id ∈ reach
      · exact hinactive row hmem hreach
      · rw [if_neg hreach] at hafter
        split at hafter
        · cases hafter
        · exact absurd hafter hbefore
    · -- no adapter is called, and nothing becomes sent
      refine iff_of_false (fun hsent => ?_) fun ⟨_, hcall, _⟩ => by cases hcall
      rw [hstatus row hmem row' hmem' hid] at hsent
      split at hsent
      · cases hsent
      · split at hsent
        · cases hsent
        · exact hbefore hsent

/-- A blast in sending, with a delivery for one subscriber. -/
def sendingNews (subscriber : Subscriber) : System where
  db :=
    { subscribers := [subscriber]
      blasts := [{ createBlast news.1 news.2 with status := .sending, sentAt := some 0 }]
      deliveries := [{
        id := "delivery", blastId := "blast", subscriberId := subscriber.id, channel := .sms }] }

/-- A whole batch of one delivery, after which nothing is left. -/
def wholeBatch : List Input :=
  [{ now := 1 }, { now := 1 }, { now := 1 }, { now := 1, claim := ["delivery"] }, { now := 1 },
    { now := 1 }, { now := 1 }, { now := 1 }, { now := 1 }, { now := 1 }]

theorem unsubscribed_faithful :
    ∃ t ∈ Runs.run (step .columns plainPrims) (sendingNews { ann with status := .unsubscribed })
        (.call 1 (.processBlastBatch "blast" "hub") :: wholeBatch.map (.resume 1)),
      t.db.deliveries.map Delivery.status = [.optedOut] ∧
      Faithful plainPrims (sendingNews { ann with status := .unsubscribed }).db t.db
        (Runs.emitted (step .columns plainPrims) invocations
          (sendingNews { ann with status := .unsubscribed })
          (.call 1 (.processBlastBatch "blast" "hub") :: wholeBatch.map (.resume 1))) := by
  have hrun : ∃ t ∈ Runs.run (step .columns plainPrims)
        (sendingNews { ann with status := .unsubscribed })
        (.call 1 (.processBlastBatch "blast" "hub") :: wholeBatch.map (.resume 1)),
      t.db.deliveries.map Delivery.status = [.optedOut] := by
    decide +kernel
  obtain ⟨t, ht, hstatus⟩ := hrun
  refine ⟨t, ht, hstatus, (faithful_iff (by decide) ht).mpr ?_⟩
  decide

/-- **The delivery of an active subscriber is marked as opted out.** -/
theorem active_optedOut :
    ∃ t ∈ Runs.run (step .columns plainPrims) (sendingNews ann)
        (.call 1 (.processBlastBatch "blast" "hub") :: wholeBatch.map (.resume 1)),
      ¬ Faithful plainPrims (sendingNews ann).db t.db
        (Runs.emitted (step .columns plainPrims) invocations (sendingNews ann)
          (.call 1 (.processBlastBatch "blast" "hub") :: wholeBatch.map (.resume 1))) := by
  have hrun : ∃ t ∈ Runs.run (step .columns plainPrims) (sendingNews ann)
        (.call 1 (.processBlastBatch "blast" "hub") :: wholeBatch.map (.resume 1)),
      ∃ row ∈ (sendingNews ann).db.deliveries, ∃ row' ∈ t.db.deliveries, row'.id = row.id ∧
        row.status ≠ .optedOut ∧ row'.status = .optedOut ∧
        isSubscriberActive (sendingNews ann).db (some row.subscriberId) = true := by
    decide +kernel
  obtain ⟨t, ht, row, hrow, row', hrow', hid, hbefore, hafter, hactive⟩ := hrun
  refine ⟨t, ht, fun h => ?_⟩
  rw [h.optedOut row hrow row' hrow' hid hbefore hafter] at hactive
  cases hactive

end Llamenos.Worker.Blasts
