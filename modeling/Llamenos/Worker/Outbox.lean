import Llamenos.Lib.Holders
import Llamenos.Lib.Runs
import Mathlib.Algebra.Group.Int.Defs

/-!
# Events and their outbox

`publishEvent`, `drainOutbox` and `cleanupOutbox` of `apps/worker/lib/ws-events.ts`, over the table
of `apps/worker/lib/event-outbox.ts`. A durable event is stored in the outbox, then handed to the
hub's broadcast (`publishToHub`), and then its row is marked as delivered. A drain, which runs
twice a minute, selects the rows that are pending, hands each over, and marks it.

`drainBatch` selects `FOR UPDATE SKIP LOCKED`, but in no transaction: the locks are gone when the
statement is over. So what a drain has selected may be selected by another one, and what is pending
may be about to be handed over by who has stored it.

Each SQL statement, and each call of `publishToHub`, is one step. A run is any interleaving of the
steps of any number of calls, with any readings of the clock. No statement of the database throws;
`publishToHub` may. The outbox is attached, and the payload of an event is what `publishEvent` has
made of its content.

Results:
* `step_inv`: what a step keeps, where a drain selects no row that a call holds.
* `once_of_orderly`: **each event is handed over exactly once, and marked as delivered only
  afterwards**, in the runs where this is so, and the direct way does not fail.
* `drained_twice`: a drain hands over an event that is about to be handed over.
-/

namespace Llamenos.Worker.Outbox

open Llamenos.Lib

/-! ## The table -/

def MAX_ATTEMPTS : Nat := 10

def DELIVERED_TTL_MS : Int := 60 * 60 * 1000

def FAILED_TTL_MS : Int := 24 * 60 * 60 * 1000

def DRAIN_BATCH_SIZE : Nat := 50

structure OutboxEvent where
  hubId : Option String
  kind : Nat
  epoch : Nat
  payload : String

inductive OutboxStatus where
  | pending
  | delivered
  | failed
  deriving DecidableEq

/-- A row of `event_outbox`. -/
structure Row where
  id : Nat
  event : OutboxEvent
  status : OutboxStatus := .pending
  retryCount : Nat := 0
  lastError : Option String := none
  nextRetryAt : Int
  createdAt : Int

/-- `UPDATE event_outbox SET … WHERE id = …`. -/
def updateRow (rows : List Row) (id : Nat) (set : Row → Row) : List Row :=
  rows.map fun row => if row.id = id then set row else row

def Row.markDelivered (row : Row) : Row := { row with status := .delivered }

/-- The `SET` of `markFailed`. -/
def Row.markFailed (now : Int) (error : String) (row : Row) : Row :=
  { row with
    retryCount := row.retryCount + 1
    lastError := some error
    status := if row.retryCount + 1 ≥ MAX_ATTEMPTS then .failed else .pending
    nextRetryAt := now + min (2 ^ (row.retryCount + 1)) 300 * 1000 }

/-- `drainBatch`: the oldest rows that are due, without those that another statement has locked. -/
def drainBatch (rows : List Row) (now : Int) (locked : List Nat) : List Row :=
  ((rows.filter fun row =>
    row.status = .pending && row.nextRetryAt ≤ now && !locked.contains row.id).mergeSort
      fun a b => a.createdAt ≤ b.createdAt).take DRAIN_BATCH_SIZE

def cleanup (rows : List Row) (now : Int) : List Row :=
  rows.filter fun row =>
    !(row.status = .delivered && row.createdAt < now - DELIVERED_TTL_MS ||
      row.status = .failed && row.createdAt < now - FAILED_TTL_MS)

def isDurable (kind : Nat) : Bool := kind < 20000

/-! ## Calls -/

/-- The next step of a call: of `publishEvent` for a durable event, or of a drain. -/
inductive Task where
  | enqueue (event : OutboxEvent)
  | fanOut (id : Nat) (event : OutboxEvent)
  | markDelivered (id : Nat)
  | fallback (id : Nat) (event : OutboxEvent)
  | drainBatch
  | publish (row : Row) (rest : List Row)
  | published (id : Nat) (rest : List Row)
  | notPublished (id : Nat) (error : String) (rest : List Row)

/-- What a step is told: the clock, which rows another statement has locked, and whether
`publishToHub` throws, and what. -/
structure Input where
  now : Int
  locked : List Nat := []
  throws : Bool := false
  error : String := ""

/-- A call begins, one goes on by a step, the connection manager is there, or old rows are
deleted. -/
inductive Event where
  | publishEvent (task : Nat) (event : OutboxEvent)
  | drainOutbox (task : Nat)
  | resume (task : Nat) (input : Input)
  | initConnectionManager
  | cleanupOutbox (now : Int)

/-- The table with its sequence of ids, whether there is a connection manager, and the calls under
way. -/
structure System where
  rows : List Row := []
  nextId : Nat := 0
  manager : Bool := false
  tasks : Nat → Option Task := fun _ => none

/-- What a former process has left in the outbox. -/
def start (left : List OutboxEvent) : System where
  rows := left.zipIdx.map fun (event, id) => { id, event, nextRetryAt := 0, createdAt := 0 }
  nextId := left.length

/-- The drain goes on with the next row. -/
def nextRow : List Row → Option Task
  | [] => none
  | row :: rest => some (.publish row rest)

/-- Whether the event has no hub; an empty one is none. -/
def OutboxEvent.noHub (event : OutboxEvent) : Bool := event.hubId.all (· = "")

/-- The call's next step after this one. -/
def Task.next (s : System) (input : Input) : Task → Option Task
  | .enqueue event => some (.fanOut s.nextId event)
  | .fanOut id event =>
    if s.manager && input.throws then some (.fallback id event) else some (.markDelivered id)
  | .markDelivered _ => none
  | .fallback _ _ => none
  | .drainBatch => nextRow (Outbox.drainBatch s.rows input.now input.locked)
  | .publish row rest =>
    if row.event.noHub then
      some (.notPublished row.id "outbox event has no hubId — no legitimate audience" rest)
    else if input.throws then some (.notPublished row.id input.error rest)
    else some (.published row.id rest)
  | .published _ rest => nextRow rest
  | .notPublished _ _ rest => nextRow rest

/-- What the step makes of the rows. -/
def Task.write (s : System) (input : Input) : Task → List Row
  | .enqueue event =>
    s.rows ++ [{ id := s.nextId, event, nextRetryAt := input.now, createdAt := input.now }]
  | .markDelivered id | .published id _ => updateRow s.rows id Row.markDelivered
  | .notPublished id error _ => updateRow s.rows id (Row.markFailed input.now error)
  | _ => s.rows

/-- The new value of the sequence. -/
def Task.sequence (s : System) : Task → Nat
  | .enqueue _ => s.nextId + 1
  | _ => s.nextId

def step (s : System) : Event → Option System
  | .publishEvent i event =>
    match s.tasks i with
    | some _ => none
    | none =>
      if event.noHub || !isDurable event.kind then some s
      else some { s with tasks := Function.update s.tasks i (some (.enqueue event)) }
  | .drainOutbox i =>
    match s.tasks i with
    | some _ => none
    | none =>
      if s.manager then some { s with tasks := Function.update s.tasks i (some .drainBatch) }
      else some s
  | .resume i input =>
    (s.tasks i).map fun task =>
      { s with
        rows := task.write s input
        nextId := task.sequence s
        tasks := Function.update s.tasks i (task.next s input) }
  | .initConnectionManager => some { s with manager := true }
  | .cleanupOutbox now => some { s with rows := cleanup s.rows now }

/-! ## The property -/

/-- A durable event is stored as a row, handed over, or marked as delivered. -/
inductive Fact where
  | stored (id : Nat) (event : OutboxEvent)
  | handed (id : Nat) (event : OutboxEvent)
  | delivered (id : Nat)

/-- What the step of a call makes known. -/
def Task.facts (s : System) (input : Input) : Task → List Fact
  | .enqueue event => [.stored s.nextId event]
  | .fanOut id event | .fallback id event =>
    if s.manager && !input.throws then [.handed id event] else []
  | .publish row _ =>
    if row.event.noHub || input.throws then [] else [.handed row.id row.event]
  | .markDelivered id | .published id _ => [.delivered id]
  | _ => []

def facts (s : System) : Event → List Fact
  | .resume i input => (s.tasks i).elim [] fun task => task.facts s input
  | _ => []

/-- The rows whose events have been handed over, as often as they have. -/
def handedIds (ws : List Fact) : List Nat :=
  ws.filterMap fun
    | .handed id _ => some id
    | _ => none

/-- A call of `publishEvent` has stored the event, and is about to hand it over. -/
def Publishing (s : System) (id : Nat) (event : OutboxEvent) : Prop :=
  ∃ i, s.tasks i = some (.fanOut id event)

/-- Every event is handed over exactly once, and marked as delivered only afterwards. -/
structure ExactlyOnce (left : List OutboxEvent) (s : System) (ws : List Fact) : Prop where
  once : (handedIds ws).Nodup
  handed : ∀ id event, .stored id event ∈ ws → .handed id event ∈ ws ∨ Publishing s id event
  event : ∀ id event, .handed id event ∈ ws → .stored id event ∈ ws ∨ left[id]? = some event
  after : ∀ before id rest, ws = before ++ .delivered id :: rest →
    id ∈ handedIds before

/-! ## What a run must not do -/

/-- The rows that a call is about to hand over, or to mark. -/
def Task.holds : Task → List Nat
  | .fanOut id _ | .markDelivered id | .fallback id _ => [id]
  | .publish row rest => row.id :: rest.map Row.id
  | .published id rest | .notPublished id _ rest => id :: rest.map Row.id
  | .enqueue _ | .drainBatch => []

/-- A drain selects no row that a call holds, and the direct way has a connection manager, which
does not throw. -/
structure Orderly (s : System) (e : Event) : Prop where
  select : ∀ i input, e = .resume i input → s.tasks i = some .drainBatch →
    ∀ row ∈ Outbox.drainBatch s.rows input.now input.locked, ∀ j task, s.tasks j = some task →
      row.id ∉ task.holds
  direct : ∀ i input id event, e = .resume i input → s.tasks i = some (.fanOut id event) →
    s.manager = true ∧ input.throws = false

/-! ## What a step does -/

/-- The row that a call has handed over, and is about to mark. -/
def Task.marks? : Task → Option Nat
  | .markDelivered id | .published id _ => some id
  | _ => none

/-- The events that a call is about to hand over. -/
def Task.knows : Task → List (Nat × OutboxEvent)
  | .fanOut id event | .fallback id event => [(id, event)]
  | .publish row rest => (row :: rest).map fun row => (row.id, row.event)
  | .published _ rest | .notPublished _ _ rest => rest.map fun row => (row.id, row.event)
  | .enqueue _ | .drainBatch | .markDelivered _ => []

/-- What a step of a call does in an orderly run: the rows, the sequence, the next step and what is
known after it. -/
inductive Does (s : System) (input : Input) :
    Task → List Row → Nat → Option Task → List Fact → Prop
  | stores (event : OutboxEvent) :
    Does s input (.enqueue event)
      (s.rows ++ [{ id := s.nextId, event, nextRetryAt := input.now, createdAt := input.now }])
      (s.nextId + 1) (some (.fanOut s.nextId event)) [.stored s.nextId event]
  | selects :
    Does s input .drainBatch s.rows s.nextId
      (nextRow (Outbox.drainBatch s.rows input.now input.locked)) []
  | hands (task next : Task) (id : Nat) (event : OutboxEvent) (hholds : next.holds = task.holds)
    (hid : id ∈ task.holds) (hmarks : task.marks? = none) (hnext : next.marks? = some id)
    (hknows : (id, event) ∈ task.knows) (hrest : next.knows ⊆ task.knows)
    (hdirect : ∀ id' event', task = .fanOut id' event' → id' = id ∧ event' = event) :
    Does s input task s.rows s.nextId (some next) [.handed id event]
  | fails (row : Row) (error : String) (rest : List Row) :
    Does s input (.publish row rest) s.rows s.nextId (some (.notPublished row.id error rest)) []
  | marks (task : Task) (id : Nat) (rest : List Row) (hholds : task.holds = id :: rest.map Row.id)
    (hmarks : task.marks? = some id)
    (hknows : task.knows = rest.map fun row => (row.id, row.event)) :
    Does s input task (updateRow s.rows id Row.markDelivered) s.nextId (nextRow rest)
      [.delivered id]
  | putsBack (id : Nat) (error : String) (rest : List Row) :
    Does s input (.notPublished id error rest)
      (updateRow s.rows id (Row.markFailed input.now error)) s.nextId (nextRow rest) []

variable {s s' : System} {e : Event} {left : List OutboxEvent} {ws : List Fact}

/-- **What a step of a call does**, if the direct way does not fail. -/
theorem does_of_direct {input : Input} {task : Task}
    (hdirect : ∀ id event, task = .fanOut id event → s.manager = true ∧ input.throws = false)
    (hfallback : ∀ id event, task ≠ .fallback id event) :
    Does s input task (task.write s input) (task.sequence s) (task.next s input)
      (task.facts s input) := by
  cases task with
  | enqueue event => exact .stores event
  | drainBatch => exact .selects
  | fallback id event => exact absurd rfl (hfallback id event)
  | fanOut id event =>
    obtain ⟨hmanager, hthrows⟩ := hdirect id event rfl
    unfold Task.next Task.facts
    rw [hmanager, hthrows]
    refine .hands _ (.markDelivered id) id event rfl (by simp [Task.holds]) rfl rfl
      (by simp [Task.knows]) (List.nil_subset _) fun id' event' h => ?_
    cases h
    exact ⟨rfl, rfl⟩
  | markDelivered id => exact .marks (.markDelivered id) id [] rfl rfl rfl
  | publish row rest =>
    unfold Task.next Task.facts
    by_cases hhub : row.event.noHub
    · simp only [hhub, if_true, Bool.true_or]
      exact .fails row _ rest
    · by_cases hthrows : input.throws
      · simp only [hhub, hthrows, if_true, Bool.or_true]
        exact .fails row _ rest
      · simp only [hhub, hthrows, Bool.or_false]
        exact .hands _ (.published row.id rest) row.id row.event rfl (by simp [Task.holds]) rfl rfl
          (by simp [Task.knows]) (by simp [Task.knows]) nofun
  | published id rest => exact .marks (.published id rest) id rest rfl rfl rfl
  | notPublished id error rest => exact .putsBack id error rest

/-! ## Small facts -/

theorem nextRow_spec {rest : List Row} {task : Task} (h : nextRow rest = some task) :
    task.holds = rest.map Row.id ∧ task.marks? = none ∧
      (task.knows = rest.map fun row => (row.id, row.event)) ∧
      (∀ id event, task ≠ .fanOut id event) ∧ ∀ id event, task ≠ .fallback id event := by
  cases rest with
  | nil => cases h
  | cons row rest =>
    obtain rfl := Option.some.inj h
    exact ⟨rfl, rfl, rfl, nofun, nofun⟩

theorem holds_of_marks {task : Task} {id : Nat} (h : task.marks? = some id) : id ∈ task.holds := by
  cases task with
  | markDelivered | published =>
    cases h
    exact List.mem_cons_self
  | _ => cases h

theorem handedIds_append (ws fs : List Fact) :
    handedIds (ws ++ fs) = handedIds ws ++ handedIds fs := List.filterMap_append

theorem mem_handedIds {ws : List Fact} {id : Nat} :
    id ∈ handedIds ws ↔ ∃ event, .handed id event ∈ ws := by
  unfold handedIds
  rw [List.mem_filterMap]
  constructor
  · rintro ⟨fact, hmem, hid⟩
    cases fact with
    | handed id' event =>
      cases hid
      exact ⟨event, hmem⟩
    | _ => cases hid
  · rintro ⟨event, hmem⟩
    exact ⟨_, hmem, rfl⟩

theorem mem_drainBatch {rows : List Row} {now : Int} {locked : List Nat} {row : Row}
    (h : row ∈ drainBatch rows now locked) : row ∈ rows ∧ row.status = .pending := by
  have hsorted := List.mem_mergeSort.mp (List.mem_of_mem_take h)
  obtain ⟨hmem, hdue⟩ := List.mem_filter.mp hsorted
  simp only [Bool.and_eq_true, decide_eq_true_eq] at hdue
  exact ⟨hmem, hdue.1.1⟩

theorem drainBatch_ids {rows : List Row} (h : (rows.map Row.id).Nodup) (now : Int)
    (locked : List Nat) : ((drainBatch rows now locked).map Row.id).Nodup := by
  refine List.Nodup.sublist ((List.take_sublist _ _).map Row.id) ?_
  refine ((List.mergeSort_perm _ _).map Row.id).nodup_iff.mpr ?_
  exact h.sublist (List.filter_sublist.map Row.id)

theorem updateRow_ids {rows : List Row} (id : Nat) {set : Row → Row}
    (hset : ∀ row : Row, (set row).id = row.id) :
    (updateRow rows id set).map Row.id = rows.map Row.id := by
  unfold updateRow
  rw [List.map_map]
  congr 1
  funext row
  by_cases hid : row.id = id <;> simp [hid, hset]

theorem mem_updateRow {rows : List Row} {id : Nat} {set : Row → Row} {row' : Row}
    (h : row' ∈ updateRow rows id set) :
    ∃ row ∈ rows, row' = if row.id = id then set row else row := by
  obtain ⟨row, hrow, rfl⟩ := List.mem_map.mp h
  exact ⟨row, hrow, rfl⟩

/-! ## What a run keeps -/

/-- The row holds the event that was stored, or left. -/
def Known (left : List OutboxEvent) (ws : List Fact) (id : Nat) (event : OutboxEvent) : Prop :=
  .stored id event ∈ ws ∨ left[id]? = some event

theorem Known.append {id : Nat} {event : OutboxEvent} (h : Known left ws id event)
    (fs : List Fact) : Known left (ws ++ fs) id event := h.imp_left (List.mem_append_left fs)

/-- What holds of the facts and the state that a run leads to. -/
structure Inv (left : List OutboxEvent) (s : System) (ws : List Fact) : Prop where
  exclusive : Holders.Exclusive Task.holds s.tasks
  ids : (s.rows.map Row.id).Nodup
  bound : ∀ row ∈ s.rows, row.id < s.nextId
  heldBound : ∀ i t id, s.tasks i = some t → id ∈ t.holds → id < s.nextId
  handedBound : ∀ id ∈ handedIds ws, id < s.nextId
  direct : ∀ i id event, s.tasks i ≠ some (.fallback id event)
  rows : ∀ row ∈ s.rows, Known left ws row.id row.event
  knows : ∀ i t p, s.tasks i = some t → p ∈ t.knows → Known left ws p.1 p.2
  fresh : ∀ i t id, s.tasks i = some t → id ∈ t.holds → t.marks? ≠ some id → id ∉ handedIds ws
  marked : ∀ i t id, s.tasks i = some t → t.marks? = some id → id ∈ handedIds ws
  settled : ∀ id ∈ handedIds ws, (∀ row ∈ s.rows, row.id = id → row.status = .delivered) ∨
    ∃ i t, s.tasks i = some t ∧ t.marks? = some id
  once : ExactlyOnce left s ws

theorem mem_start {left : List OutboxEvent} {row : Row} (h : row ∈ (start left).rows) :
    left[row.id]? = some row.event := by
  obtain ⟨⟨event, id⟩, hmem, rfl⟩ := List.mem_map.mp h
  exact List.mk_mem_zipIdx_iff_getElem?.mp hmem

theorem start_inv (left : List OutboxEvent) : Inv left (start left) [] where
  exclusive := Holders.exclusive_none
  ids := by
    have hids : (start left).rows.map Row.id = List.range' 0 left.length := by
      unfold start
      rw [List.map_map, ← List.zipIdx_map_snd 0 left]
      rfl
    rw [hids]
    exact List.nodup_range'
  bound row hrow := (List.getElem?_eq_some_iff.mp (mem_start hrow)).1
  heldBound _ _ _ h := by cases h
  handedBound _ h := by cases h
  direct _ _ _ h := by cases h
  rows row hrow := .inr (mem_start hrow)
  knows _ _ _ h := by cases h
  fresh _ _ _ h := by cases h
  marked _ _ _ h := by cases h
  settled _ h := by cases h
  once := ⟨.nil, nofun, nofun, fun before id rest h => by simp at h⟩

/-! ## A step of a call -/

section Resume

variable {i : Nat} {input : Input} {task : Task} {rows : List Row} {nextId : Nat}
  {next : Option Task} {fs : List Fact}

/-- The calls after a step of one of them. -/
theorem tasks_resume {j : Nat} {t : Task} (h : Function.update s.tasks i next j = some t) :
    (j = i ∧ next = some t) ∨ (j ≠ i ∧ s.tasks j = some t) := Runs.update_eq_some h

variable {id : Nat}

/-- What an event that is handed over is. -/
theorem does_handed (hdoes : Does s input task rows nextId next fs)
    (hid : id ∈ handedIds fs) : ∃ event t, fs = [.handed id event] ∧ next = some t ∧
      t.marks? = some id ∧ id ∈ task.holds ∧ task.marks? = none ∧ (id, event) ∈ task.knows := by
  obtain ⟨event, hmem⟩ := mem_handedIds.mp hid
  cases hdoes with
  | hands task next id' event' hholds hheld hmarks hnext hknows hrest hdirect =>
    cases List.mem_singleton.mp hmem
    exact ⟨event, next, rfl, rfl, hnext, hheld, hmarks, hknows⟩
  | stores | marks => cases List.mem_singleton.mp hmem
  | selects | fails | putsBack => cases hmem

/-- What is handed over has not been before. -/
theorem handed_fresh (hinv : Inv left s ws) (hi : s.tasks i = some task)
    (hdoes : Does s input task rows nextId next fs) (hid : id ∈ handedIds fs) :
    id ∉ handedIds ws := by
  obtain ⟨event, t, -, -, -, hheld, hmarks, -⟩ := does_handed hdoes hid
  refine hinv.fresh i task id hi hheld ?_
  rw [hmarks]
  nofun

/-- A drain selects what nobody holds, and what has not been handed over. -/
def SelectsFree (s : System) (input : Input) (task : Task) : Prop :=
  task = .drainBatch → ∀ row ∈ Outbox.drainBatch s.rows input.now input.locked,
    ∀ j t, s.tasks j = some t → row.id ∉ t.holds

theorem exclusive_resume (hinv : Inv left s ws) (hi : s.tasks i = some task)
    (hdoes : Does s input task rows nextId next fs) (hselect : SelectsFree s input task) :
    Holders.Exclusive Task.holds (Function.update s.tasks i next) := by
  cases hdoes with
  | stores event =>
    refine hinv.exclusive.update (fun t ht => ?_) fun t ht id hid j u _ hj hheld => ?_
    · cases ht
      exact List.nodup_singleton _
    · cases ht
      rw [List.mem_singleton.mp hid] at hheld
      exact absurd (hinv.heldBound j u _ hj hheld) (Nat.lt_irrefl _)
  | selects =>
    refine hinv.exclusive.update (fun t ht => ?_) fun t ht id hid j u _ hj hheld => ?_
    · rw [(nextRow_spec ht).1]
      exact drainBatch_ids hinv.ids input.now input.locked
    · rw [(nextRow_spec ht).1] at hid
      obtain ⟨row, hrow, rfl⟩ := List.mem_map.mp hid
      exact hselect rfl row hrow j u hj hheld
  | hands task next id event hholds =>
    refine hinv.exclusive.shrink hi fun t ht => ?_
    cases ht
    rw [hholds]
  | fails row error rest =>
    refine hinv.exclusive.shrink hi fun t ht => ?_
    cases ht
    exact List.Sublist.refl _
  | marks task id rest hholds =>
    refine hinv.exclusive.shrink hi fun t ht => ?_
    rw [(nextRow_spec ht).1, hholds]
    exact List.sublist_cons_self _ _
  | putsBack id error rest =>
    refine hinv.exclusive.shrink hi fun t ht => ?_
    rw [(nextRow_spec ht).1]
    exact List.sublist_cons_self _ _

/-- A call holds what it held, or a new row, or what a drain has selected. -/
theorem holds_resume (hdoes : Does s input task rows nextId next fs) {t : Task} (ht : next = some t)
    (hid : id ∈ t.holds) :
    id ∈ task.holds ∨ (id = s.nextId ∧ nextId = s.nextId + 1) ∨
      (task = .drainBatch ∧
        ∃ row ∈ Outbox.drainBatch s.rows input.now input.locked, row.id = id) := by
  cases hdoes with
  | stores event =>
    cases ht
    exact .inr (.inl ⟨List.mem_singleton.mp hid, rfl⟩)
  | selects =>
    rw [(nextRow_spec ht).1] at hid
    exact .inr (.inr ⟨rfl, List.mem_map.mp hid⟩)
  | hands task next id' event hholds =>
    cases ht
    exact .inl (hholds ▸ hid)
  | fails row error rest =>
    cases ht
    exact .inl hid
  | marks task id' rest hholds =>
    rw [(nextRow_spec ht).1] at hid
    rw [hholds]
    exact .inl (List.mem_cons_of_mem _ hid)
  | putsBack id' error rest =>
    rw [(nextRow_spec ht).1] at hid
    exact .inl (List.mem_cons_of_mem _ hid)

theorem nextId_le (hdoes : Does s input task rows nextId next fs) : s.nextId ≤ nextId := by
  cases hdoes with
  | stores => exact Nat.le_succ _
  | selects | hands | fails | marks | putsBack => exact Nat.le_refl _

theorem heldBound_resume (hinv : Inv left s ws) (hi : s.tasks i = some task)
    (hdoes : Does s input task rows nextId next fs) (j : Nat) (t : Task) (id : Nat)
    (hj : Function.update s.tasks i next j = some t) (hid : id ∈ t.holds) : id < nextId := by
  rcases tasks_resume hj with ⟨-, ht⟩ | ⟨-, hold⟩
  · rcases holds_resume hdoes ht hid with hheld | ⟨rfl, hnext⟩ | ⟨-, row, hrow, rfl⟩
    · exact Nat.lt_of_lt_of_le (hinv.heldBound i task id hi hheld) (nextId_le hdoes)
    · rw [hnext]
      exact Nat.lt_succ_self _
    · exact Nat.lt_of_lt_of_le (hinv.bound row (mem_drainBatch hrow).1) (nextId_le hdoes)
  · exact Nat.lt_of_lt_of_le (hinv.heldBound j t id hold hid) (nextId_le hdoes)

theorem handedBound_resume (hinv : Inv left s ws) (hi : s.tasks i = some task)
    (hdoes : Does s input task rows nextId next fs) (id : Nat)
    (hid : id ∈ handedIds (ws ++ fs)) : id < nextId := by
  rw [handedIds_append, List.mem_append] at hid
  refine Nat.lt_of_lt_of_le ?_ (nextId_le hdoes)
  rcases hid with hid | hid
  · exact hinv.handedBound id hid
  · obtain ⟨event, t, -, -, -, hheld, -⟩ := does_handed hdoes hid
    exact hinv.heldBound i task id hi hheld

theorem fresh_resume (hinv : Inv left s ws) (hi : s.tasks i = some task)
    (hdoes : Does s input task rows nextId next fs) (hselect : SelectsFree s input task) (j : Nat)
    (t : Task) (id : Nat) (hj : Function.update s.tasks i next j = some t) (hid : id ∈ t.holds)
    (hmarks : t.marks? ≠ some id) : id ∉ handedIds (ws ++ fs) := by
  rw [handedIds_append, List.mem_append, not_or]
  rcases tasks_resume hj with ⟨rfl, ht⟩ | ⟨hji, hold⟩
  · -- what the step has handed over is what the call marks next
    have hnew : id ∉ handedIds fs := by
      intro hnew
      obtain ⟨event, t', -, ht', hnext, -⟩ := does_handed hdoes hnew
      obtain rfl := Option.some.inj (ht.symm.trans ht')
      exact hmarks hnext
    refine ⟨?_, hnew⟩
    rcases holds_resume hdoes ht hid with hheld | ⟨rfl, -⟩ | ⟨hdrain, row, hrow, rfl⟩
    · refine hinv.fresh j task id hi hheld fun hbefore => ?_
      -- what a call has marked, it holds no longer
      cases hdoes with
      | marks task id' rest hholds hmarked =>
        obtain rfl := Option.some.inj (hmarked.symm.trans hbefore)
        have hnodup := hinv.exclusive.nodup j task hi
        rw [hholds] at hnodup
        rw [(nextRow_spec ht).1] at hid
        exact (List.nodup_cons.mp hnodup).1 hid
      | hands task next id' event hholds hheld' hnone =>
        rw [hnone] at hbefore
        cases hbefore
      | stores | selects | fails | putsBack => cases hbefore
    · exact fun hhanded => Nat.lt_irrefl _ (hinv.handedBound _ hhanded)
    · intro hhanded
      rcases hinv.settled row.id hhanded with hdelivered | ⟨k, u, hk, hmarked⟩
      · obtain ⟨hmem, hpending⟩ := mem_drainBatch hrow
        rw [hdelivered row hmem rfl] at hpending
        cases hpending
      · exact hselect hdrain row hrow k u hk (holds_of_marks hmarked)
  · refine ⟨hinv.fresh j t id hold hid hmarks, fun hnew => ?_⟩
    obtain ⟨event, t', -, -, -, hheld, -⟩ := does_handed hdoes hnew
    exact hji (hinv.exclusive.apart j i t task hold hi id hid hheld)

theorem marked_resume (hinv : Inv left s ws) (hdoes : Does s input task rows nextId next fs)
    (j : Nat) (t : Task) (id : Nat) (hj : Function.update s.tasks i next j = some t)
    (hmarks : t.marks? = some id) : id ∈ handedIds (ws ++ fs) := by
  rw [handedIds_append, List.mem_append]
  rcases tasks_resume hj with ⟨-, ht⟩ | ⟨-, hold⟩
  · refine .inr ?_
    cases hdoes with
    | hands task next id' event hholds hheld hnone hnext =>
      cases ht
      obtain rfl := Option.some.inj (hnext.symm.trans hmarks)
      exact List.mem_singleton.mpr rfl
    | stores | fails =>
      cases ht
      cases hmarks
    | selects | marks | putsBack =>
      rw [(nextRow_spec ht).2.1] at hmarks
      cases hmarks
  · exact .inl (hinv.marked j t id hold hmarks)

/-- A row after the step is one from before, or a new one. -/
theorem rows_resume (hdoes : Does s input task rows nextId next fs) {row' : Row}
    (h : row' ∈ rows) :
    (∃ row ∈ s.rows, row.id = row'.id ∧ row.event = row'.event ∧
        (row.status = .delivered → row'.status = .delivered ∨
          (row.id ∈ task.holds ∧ task.marks? = none))) ∨
      (row'.id = s.nextId ∧ nextId = s.nextId + 1 ∧ .stored row'.id row'.event ∈ fs) := by
  cases hdoes with
  | stores event =>
    rcases List.mem_append.mp h with hold | hnew
    · exact .inl ⟨row', hold, rfl, rfl, .inl⟩
    · rw [List.mem_singleton.mp hnew]
      exact .inr ⟨rfl, rfl, List.mem_singleton.mpr rfl⟩
  | selects | hands | fails => exact .inl ⟨row', h, rfl, rfl, .inl⟩
  | marks task id rest =>
    obtain ⟨row, hrow, rfl⟩ := mem_updateRow h
    refine .inl ⟨row, hrow, ?_⟩
    by_cases hid : row.id = id
    · simp [hid, Row.markDelivered]
    · simp +contextual [hid]
  | putsBack id error rest =>
    obtain ⟨row, hrow, rfl⟩ := mem_updateRow h
    refine .inl ⟨row, hrow, ?_⟩
    by_cases hid : row.id = id
    · simp [hid, Row.markFailed, Task.holds, Task.marks?]
    · simp +contextual [hid]

theorem ids_resume (hinv : Inv left s ws) (hdoes : Does s input task rows nextId next fs) :
    (rows.map Row.id).Nodup := by
  cases hdoes with
  | stores event =>
    rw [List.map_append, List.nodup_append]
    refine ⟨hinv.ids, List.nodup_singleton _, fun id hid id' hid' => ?_⟩
    obtain ⟨row, hrow, rfl⟩ := List.mem_map.mp hid
    rw [List.mem_singleton.mp hid']
    exact Nat.ne_of_lt (hinv.bound row hrow)
  | selects | hands | fails => exact hinv.ids
  | marks task id =>
    have hsame : (updateRow s.rows id Row.markDelivered).map Row.id = s.rows.map Row.id :=
      updateRow_ids id fun _ => rfl
    exact hsame ▸ hinv.ids
  | putsBack id error =>
    have hsame : (updateRow s.rows id (Row.markFailed input.now error)).map Row.id =
        s.rows.map Row.id := updateRow_ids id fun _ => rfl
    exact hsame ▸ hinv.ids

theorem bound_resume (hinv : Inv left s ws) (hdoes : Does s input task rows nextId next fs)
    (row' : Row) (h : row' ∈ rows) : row'.id < nextId := by
  rcases rows_resume hdoes h with ⟨row, hrow, hid, -⟩ | ⟨hid, hnext, -⟩
  · rw [← hid]
    exact Nat.lt_of_lt_of_le (hinv.bound row hrow) (nextId_le hdoes)
  · rw [hid, hnext]
    exact Nat.lt_succ_self _

theorem known_resume (hinv : Inv left s ws) (hdoes : Does s input task rows nextId next fs)
    (row' : Row) (h : row' ∈ rows) : Known left (ws ++ fs) row'.id row'.event := by
  rcases rows_resume hdoes h with ⟨row, hrow, hid, hevent, -⟩ | ⟨-, -, hstored⟩
  · rw [← hid, ← hevent]
    exact (hinv.rows row hrow).append fs
  · exact .inl (List.mem_append_right ws hstored)

theorem direct_resume (hinv : Inv left s ws) (hdoes : Does s input task rows nextId next fs)
    (j id : Nat) (event : OutboxEvent) :
    Function.update s.tasks i next j ≠ some (.fallback id event) := by
  intro hj
  rcases tasks_resume hj with ⟨-, ht⟩ | ⟨-, hold⟩
  · cases hdoes with
    | hands task next id' event' hholds hid hmarks hnext =>
      cases ht
      cases hnext
    | stores | fails => cases ht
    | selects | marks | putsBack => exact (nextRow_spec ht).2.2.2.2 id event rfl
  · exact hinv.direct j id event hold

theorem knows_resume (hinv : Inv left s ws) (hi : s.tasks i = some task)
    (hdoes : Does s input task rows nextId next fs) (j : Nat) (t : Task) (p : Nat × OutboxEvent)
    (hj : Function.update s.tasks i next j = some t) (hp : p ∈ t.knows) :
    Known left (ws ++ fs) p.1 p.2 := by
  rcases tasks_resume hj with ⟨-, ht⟩ | ⟨-, hold⟩
  · have hknown := hinv.knows i task p hi
    cases hdoes with
    | stores event =>
      cases ht
      rw [List.mem_singleton.mp hp]
      exact .inl (List.mem_append_right ws (List.mem_singleton.mpr rfl))
    | selects =>
      rw [(nextRow_spec ht).2.2.1] at hp
      obtain ⟨row, hrow, rfl⟩ := List.mem_map.mp hp
      exact (hinv.rows row (mem_drainBatch hrow).1).append _
    | hands task next id event hholds hid hmarks hnext hknows hrest =>
      cases ht
      exact (hknown (hrest hp)).append _
    | fails row error rest =>
      cases ht
      exact (hknown (List.mem_cons_of_mem _ hp)).append _
    | marks task id rest hholds hmarks hknows =>
      rw [(nextRow_spec ht).2.2.1, ← hknows] at hp
      exact (hknown hp).append _
    | putsBack id error rest =>
      rw [(nextRow_spec ht).2.2.1] at hp
      exact (hknown hp).append _
  · exact (hinv.knows j t p hold hp).append fs

/-- A row whose call marks it is marked. -/
theorem marks_delivered (hdoes : Does s input task rows nextId next fs)
    (hmarks : task.marks? = some id) {row : Row} (hrow : row ∈ rows) (hid : row.id = id) :
    row.status = .delivered := by
  cases hdoes with
  | marks task id' rest hholds hmarked =>
    obtain rfl := Option.some.inj (hmarked.symm.trans hmarks)
    obtain ⟨old, -, rfl⟩ := mem_updateRow hrow
    by_cases hold : old.id = id'
    · rw [if_pos hold]
      rfl
    · rw [if_neg hold] at hid
      exact absurd hid hold
  | hands task next id' event hholds hheld hnone =>
    rw [hnone] at hmarks
    cases hmarks
  | stores | selects | fails | putsBack => cases hmarks

theorem settled_resume (hinv : Inv left s ws) (hi : s.tasks i = some task)
    (hdoes : Does s input task rows nextId next fs) (id : Nat) (hid : id ∈ handedIds (ws ++ fs)) :
    (∀ row ∈ rows, row.id = id → row.status = .delivered) ∨
      ∃ j t, Function.update s.tasks i next j = some t ∧ t.marks? = some id := by
  rw [handedIds_append, List.mem_append] at hid
  rcases hid with hid | hid
  · rcases hinv.settled id hid with hdelivered | ⟨k, u, hk, hmarked⟩
    · refine .inl fun row' hrow' hrowid => ?_
      subst hrowid
      rcases rows_resume hdoes hrow' with ⟨row, hrow, hsame, -, hkeeps⟩ | ⟨hnew, -⟩
      · rcases hkeeps (hdelivered row hrow hsame) with hstatus | ⟨hheld, hnone⟩
        · exact hstatus
        · rw [hsame] at hheld
          refine absurd hid (hinv.fresh i task row'.id hi hheld ?_)
          rw [hnone]
          nofun
      · rw [hnew] at hid
        exact absurd (hinv.handedBound _ hid) (Nat.lt_irrefl _)
    · by_cases hki : k = i
      · subst hki
        obtain rfl := Option.some.inj (hi.symm.trans hk)
        exact .inl fun row hrow hrowid => marks_delivered hdoes hmarked hrow hrowid
      · exact .inr ⟨k, u, by rw [Function.update_of_ne hki, hk], hmarked⟩
  · obtain ⟨event, t, -, ht, hmarks, -⟩ := does_handed hdoes hid
    exact .inr ⟨i, t, by rw [Function.update_self, ht], hmarks⟩

/-! What has happened. -/

theorem does_stored (hdoes : Does s input task rows nextId next fs)
    {event : OutboxEvent} (h : .stored id event ∈ fs) : next = some (.fanOut id event) := by
  cases hdoes with
  | stores =>
    cases List.mem_singleton.mp h
    rfl
  | hands | marks => cases List.mem_singleton.mp h
  | selects | fails | putsBack => cases h

theorem does_delivered (hdoes : Does s input task rows nextId next fs)
    (h : .delivered id ∈ fs) : task.marks? = some id := by
  cases hdoes with
  | marks task id' rest hholds hmarks =>
    cases List.mem_singleton.mp h
    exact hmarks
  | stores | hands => cases List.mem_singleton.mp h
  | selects | fails | putsBack => cases h

theorem fanOut_hands {event : OutboxEvent}
    (hdoes : Does s input (.fanOut id event) rows nextId next fs) : .handed id event ∈ fs := by
  cases hdoes with
  | hands _ next id' event' hholds hid hmarks hnext hknows hrest hdirect =>
    obtain ⟨rfl, rfl⟩ := hdirect id event rfl
    exact List.mem_singleton.mpr rfl
  | marks _ id' rest hholds hmarks => cases hmarks

theorem after_append {fs : List Fact}
    (hws : ∀ before id rest, ws = before ++ .delivered id :: rest → id ∈ handedIds before)
    (hfs : ∀ id, .delivered id ∈ fs → id ∈ handedIds ws) (before : List Fact) (id : Nat)
    (rest : List Fact) (h : ws ++ fs = before ++ .delivered id :: rest) :
    id ∈ handedIds before := by
  rcases List.append_eq_append_iff.mp h with ⟨more, rfl, hmore⟩ | ⟨more, hsplit, hmore⟩
  · rw [handedIds_append, List.mem_append]
    refine .inl (hfs id ?_)
    rw [hmore]
    exact List.mem_append_right more List.mem_cons_self
  · cases more with
    | nil =>
      rw [List.append_nil] at hsplit
      rw [← hsplit]
      refine hfs id ?_
      rw [← List.nil_append fs, ← hmore]
      exact List.mem_cons_self
    | cons fact more =>
      obtain ⟨rfl, -⟩ := List.cons.inj hmore
      exact hws before id more hsplit

theorem once_resume (hinv : Inv left s ws) (hi : s.tasks i = some task)
    (hdoes : Does s input task rows nextId next fs) :
    ExactlyOnce left { s with rows, nextId, tasks := Function.update s.tasks i next }
      (ws ++ fs) where
  once := by
    rw [handedIds_append, List.nodup_append]
    refine ⟨hinv.once.once, ?_, fun id hid id' hid' => ?_⟩
    · cases hdoes with
      | hands => exact List.nodup_singleton _
      | stores | selects | fails | marks | putsBack => exact .nil
    · intro heq
      subst heq
      exact handed_fresh hinv hi hdoes hid' hid
  handed id event h := by
    rcases List.mem_append.mp h with hold | hnew
    · rcases hinv.once.handed id event hold with hhanded | ⟨k, hk⟩
      · exact .inl (List.mem_append_left fs hhanded)
      · by_cases hki : k = i
        · subst hki
          obtain rfl := Option.some.inj (hi.symm.trans hk)
          exact .inl (List.mem_append_right ws (fanOut_hands hdoes))
        · exact .inr ⟨k, (Function.update_of_ne hki _ _).trans hk⟩
    · exact .inr ⟨i, (Function.update_self i next s.tasks).trans (does_stored hdoes hnew)⟩
  event id event h := by
    rcases List.mem_append.mp h with hold | hnew
    · exact (hinv.once.event id event hold).imp_left (List.mem_append_left fs)
    · obtain ⟨event', t, hfs, -, -, -, -, hknows⟩ := does_handed hdoes
        (mem_handedIds.mpr ⟨event, hnew⟩)
      rw [hfs] at hnew
      cases List.mem_singleton.mp hnew
      exact (hinv.knows i task _ hi hknows).append fs
  after := after_append hinv.once.after fun id hid =>
    hinv.marked i task id hi (does_delivered hdoes hid)

theorem inv_resume (hinv : Inv left s ws) (hi : s.tasks i = some task)
    (hdoes : Does s input task rows nextId next fs) (hselect : SelectsFree s input task) :
    Inv left { s with rows, nextId, tasks := Function.update s.tasks i next } (ws ++ fs) where
  exclusive := exclusive_resume hinv hi hdoes hselect
  ids := ids_resume hinv hdoes
  bound := bound_resume hinv hdoes
  heldBound := heldBound_resume hinv hi hdoes
  handedBound := handedBound_resume hinv hi hdoes
  direct := direct_resume hinv hdoes
  rows := known_resume hinv hdoes
  knows := knows_resume hinv hi hdoes
  fresh := fresh_resume hinv hi hdoes hselect
  marked := marked_resume hinv hdoes
  settled := settled_resume hinv hi hdoes
  once := once_resume hinv hi hdoes

end Resume

/-! ## Every step -/

/-- The others go on. -/
theorem tasks_begin {i j : Nat} (hi : s.tasks i = none) {task t : Task}
    (hj : s.tasks j = some t) : Function.update s.tasks i (some task) j = some t := by
  have hji : j ≠ i := fun h => by
    rw [h, hi] at hj
    cases hj
  rw [Function.update_of_ne hji, hj]

/-- A call begins, with nothing in hand. -/
theorem inv_begin (hinv : Inv left s ws) {i : Nat} (hi : s.tasks i = none) {task : Task}
    (hholds : task.holds = []) (hknows : task.knows = []) (hmarks : task.marks? = none)
    (hfallback : ∀ id event, task ≠ .fallback id event) :
    Inv left { s with tasks := Function.update s.tasks i (some task) } ws where
  exclusive := by
    refine hinv.exclusive.update (fun t ht => ?_) fun t ht id hid => ?_
    · cases ht
      exact hholds ▸ .nil
    · cases ht
      rw [hholds] at hid
      cases hid
  ids := hinv.ids
  bound := hinv.bound
  heldBound j t id hj hid := by
    rcases tasks_resume hj with ⟨-, ht⟩ | ⟨-, hold⟩
    · cases ht
      rw [hholds] at hid
      cases hid
    · exact hinv.heldBound j t id hold hid
  handedBound := hinv.handedBound
  direct j id event hj := by
    rcases tasks_resume hj with ⟨-, ht⟩ | ⟨-, hold⟩
    · exact hfallback id event (Option.some.inj ht)
    · exact hinv.direct j id event hold
  rows := hinv.rows
  knows j t p hj hp := by
    rcases tasks_resume hj with ⟨-, ht⟩ | ⟨-, hold⟩
    · cases ht
      rw [hknows] at hp
      cases hp
    · exact hinv.knows j t p hold hp
  fresh j t id hj hid := by
    rcases tasks_resume hj with ⟨-, ht⟩ | ⟨-, hold⟩
    · cases ht
      rw [hholds] at hid
      cases hid
    · exact hinv.fresh j t id hold hid
  marked j t id hj hid := by
    rcases tasks_resume hj with ⟨-, ht⟩ | ⟨-, hold⟩
    · cases ht
      rw [hmarks] at hid
      cases hid
    · exact hinv.marked j t id hold hid
  settled id hid := by
    refine (hinv.settled id hid).imp_right ?_
    rintro ⟨k, u, hk, hmarked⟩
    exact ⟨k, u, tasks_begin hi hk, hmarked⟩
  once := by
    refine ⟨hinv.once.once, fun id event h => (hinv.once.handed id event h).imp_right ?_,
      hinv.once.event, hinv.once.after⟩
    rintro ⟨k, hk⟩
    exact ⟨k, tasks_begin hi hk⟩

/-- Rows are deleted. -/
theorem inv_cleanup (hinv : Inv left s ws) (now : Int) :
    Inv left { s with rows := cleanup s.rows now } ws :=
  { hinv with
    ids := hinv.ids.sublist (List.filter_sublist.map Row.id)
    bound := fun row hrow => hinv.bound row (List.mem_filter.mp hrow).1
    rows := fun row hrow => hinv.rows row (List.mem_filter.mp hrow).1
    settled := fun id hid => (hinv.settled id hid).imp_left fun h row hrow =>
      h row (List.mem_filter.mp hrow).1
    once := ⟨hinv.once.once, hinv.once.handed, hinv.once.event, hinv.once.after⟩ }

/-- **Step lemma.** -/
theorem step_inv (hinv : Inv left s ws) (horderly : Orderly s e) (h : step s e = some s') :
    Inv left s' (ws ++ facts s e) := by
  cases e with
  | publishEvent i event =>
    simp only [facts, List.append_nil]
    cases hi : s.tasks i with
    | some task => simp [step, hi] at h
    | none =>
      simp only [step, hi] at h
      split at h
      · exact Option.some.inj h ▸ hinv
      · exact Option.some.inj h ▸ inv_begin hinv hi rfl rfl rfl nofun
  | drainOutbox i =>
    simp only [facts, List.append_nil]
    cases hi : s.tasks i with
    | some task => simp [step, hi] at h
    | none =>
      simp only [step, hi] at h
      split at h
      · exact Option.some.inj h ▸ inv_begin hinv hi rfl rfl rfl nofun
      · exact Option.some.inj h ▸ hinv
  | resume i input =>
    obtain ⟨task, hi, rfl⟩ := Option.map_eq_some_iff.mp h
    have hdoes : Does s input task (task.write s input) (task.sequence s) (task.next s input)
        (task.facts s input) :=
      does_of_direct (fun id event htask => horderly.direct i input id event rfl (htask ▸ hi))
        fun id event htask => hinv.direct i id event (htask ▸ hi)
    have hselect : SelectsFree s input task := fun htask =>
      horderly.select i input rfl (htask ▸ hi)
    simpa only [facts, hi, Option.elim_some] using inv_resume hinv hi hdoes hselect
  | initConnectionManager =>
    simp only [facts, List.append_nil]
    exact Option.some.inj h ▸
      { hinv with once := ⟨hinv.once.once, hinv.once.handed, hinv.once.event, hinv.once.after⟩ }
  | cleanupOutbox now =>
    simp only [facts, List.append_nil]
    exact Option.some.inj h ▸ inv_cleanup hinv now

/-- **Each event is handed over exactly once**, and marked as delivered only afterwards. -/
theorem once_of_orderly {es : List Event} (h : Runs.run step (start left) es = some s)
    (horderly : Runs.Along step Orderly (start left) es) :
    ExactlyOnce left s (Runs.emitted step facts (start left) es) := by
  have hinv : Inv left s ([] ++ Runs.emitted step facts (start left) es) :=
    Runs.run_emitted_inv (fun _ _ _ _ hinv horderly hstep => step_inv hinv horderly hstep) []
      (start_inv left) horderly h
  exact hinv.once

/-! ## One call after the other -/

/-- The step is of no other call than this one. -/
def Event.isOf (i : Nat) : Event → Prop
  | .publishEvent j _ | .drainOutbox j | .resume j _ => j = i
  | .initConnectionManager | .cleanupOutbox _ => True

def Task.isFanOut : Task → Bool
  | .fanOut _ _ => true
  | _ => false

/-- The direct way does not fail. -/
def Event.direct (s : System) : Event → Bool
  | .resume i input =>
    (s.tasks i).all fun task => !task.isFanOut || s.manager && !input.throws
  | _ => true

theorem step_tasks_ne {i j : Nat} (hji : j ≠ i) (he : e.isOf i) (h : step s e = some s') :
    s'.tasks j = s.tasks j := by
  have hupdate : ∀ t : Option Task, Function.update s.tasks i t j = s.tasks j :=
    fun t => Function.update_of_ne hji t s.tasks
  cases e with
  | publishEvent k event =>
    obtain rfl : k = i := he
    cases hk : s.tasks k with
    | some task => simp [step, hk] at h
    | none =>
      simp only [step, hk] at h
      split at h <;> simp [← Option.some.inj h, hupdate]
  | drainOutbox k =>
    obtain rfl : k = i := he
    cases hk : s.tasks k with
    | some task => simp [step, hk] at h
    | none =>
      simp only [step, hk] at h
      split at h <;> simp [← Option.some.inj h, hupdate]
  | resume k input =>
    obtain rfl : k = i := he
    obtain ⟨task, -, rfl⟩ := Option.map_eq_some_iff.mp h
    exact hupdate _
  | initConnectionManager | cleanupOutbox => rw [← Option.some.inj h]

/-- **Where calls come one after the other, no drain selects what another holds.** -/
theorem orderly_of_alone {i : Nat} {es : List Event} (hes : ∀ e ∈ es, e.isOf i)
    (hdirect : Runs.Along step (fun s e => e.direct s = true) (start left) es) :
    Runs.Along step Orderly (start left) es := by
  refine Runs.along_iff_split.mpr fun before e after t hsplit hrun => ⟨?_, ?_⟩
  · rintro j input rfl hj row - k task hk
    have halone : ∀ k, k ≠ i → t.tasks k = none := by
      refine Runs.run_inv_along (I := fun s : System => ∀ k, k ≠ i → s.tasks k = none)
        (P := fun _ e => e.isOf i) (fun s e s' hs he hstep k hki => ?_) (fun _ _ => rfl)
        (Runs.along_of_mem fun e he _ => hes e ?_) hrun
      · rw [step_tasks_ne hki he hstep, hs k hki]
      · rw [hsplit]
        exact List.mem_append_left _ he
    have hheld : ∀ l u, t.tasks l = some u → l = i := fun l u hl => by
      by_contra hli
      cases (halone l hli).symm.trans hl
    rw [hheld j _ hj, ← hheld k task hk] at hj
    obtain rfl := Option.some.inj (hj.symm.trans hk)
    exact List.not_mem_nil
  · rintro j input id event rfl hj
    have hopen := Runs.along_iff_split.mp hdirect before _ after t hsplit hrun
    simpa [Event.direct, hj, Task.isFanOut] using hopen

/-- A note of a hub. -/
def note : OutboxEvent where
  hubId := some "hub"
  kind := 1011
  epoch := 7
  payload := "note"

/-- An event is stored, handed over and marked, and so is one that was left. -/
def inTurn : List Event :=
  [.initConnectionManager, .publishEvent 0 note, .resume 0 { now := 1 }, .resume 0 { now := 1 },
    .resume 0 { now := 1 }, .drainOutbox 0, .resume 0 { now := 2 }, .resume 0 { now := 2 },
    .resume 0 { now := 2 }]

theorem inTurn_once : ∃ s ∈ Runs.run step (start [note]) inTurn,
    ExactlyOnce [note] s (Runs.emitted step facts (start [note]) inTurn) ∧
      handedIds (Runs.emitted step facts (start [note]) inTurn) = [1, 0] := by
  have hrun : ∃ s ∈ Runs.run step (start [note]) inTurn,
      handedIds (Runs.emitted step facts (start [note]) inTurn) = [1, 0] := by decide +kernel
  obtain ⟨s, hs, hhanded⟩ := hrun
  refine ⟨s, hs, once_of_orderly hs (orderly_of_alone (i := 0) ?_ ?_), hhanded⟩
  · simp [inTurn, Event.isOf]
  · decide +kernel

/-- A drain selects an event that its publisher has stored, and is about to hand over. -/
def overtaken : List Event :=
  [.initConnectionManager, .publishEvent 0 note, .resume 0 { now := 1 }, .drainOutbox 1,
    .resume 1 { now := 1 }, .resume 1 { now := 1 }, .resume 0 { now := 1 }]

/-- **An event is handed over twice.** -/
theorem drained_twice : ∃ s ∈ Runs.run step (start []) overtaken,
    ¬ ExactlyOnce [] s (Runs.emitted step facts (start []) overtaken) := by
  have hrun : ∃ s ∈ Runs.run step (start []) overtaken,
      handedIds (Runs.emitted step facts (start []) overtaken) = [0, 0] := by decide +kernel
  obtain ⟨s, hs, hhanded⟩ := hrun
  refine ⟨s, hs, fun h => ?_⟩
  have honce := h.once
  rw [hhanded] at honce
  simp at honce

end Llamenos.Worker.Outbox
