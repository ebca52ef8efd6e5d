import Llamenos.Lib.Histories
import Llamenos.Lib.Runs
import Llamenos.Lib.Tables
import Mathlib.Algebra.Group.Int.Defs

/-!
# The queue of Signal messages

Messages that could not be sent wait in a table. A worker claims some that are due, tries to send
each, and marks it as sent or as failed; one that has failed often enough is dead, until an admin
lets it be tried again. Every operation is one statement. A worker that crashes forgets what it has
claimed, and the table does not know it.

Results:
* `sound_step`: what a step of workers that mark what they have claimed keeps.
* `recoverable_iff`: a message in processing leaves it again exactly if a worker holds it.
* `queue_iff`: **a message is held once, comes out of processing, is sent once, and is dead exactly
  when it has failed often enough**: all along a run of such workers exactly if none of them crashes
  with a message in its hands.
-/

namespace Llamenos.Worker.Signal.Queue

open Llamenos.Lib

inductive QueuedMessageStatus where
  | pending
  | processing
  | sent
  | failed
  | dead
  deriving DecidableEq

structure EnqueueParams where
  hubId : String
  conversationId : String
  recipientIdentifier : String
  body : String
  mediaUrl : Option String
  mediaType : Option String
  idempotencyKey : Option String

/-- A row of `signal_message_queue`. -/
structure Message where
  id : String
  hubId : String
  conversationId : String
  recipientIdentifier : String
  body : String
  mediaUrl : Option String
  mediaType : Option String
  externalId : Option String
  idempotencyKey : Option String
  status : QueuedMessageStatus
  retryCount : Nat
  lastError : Option String
  nextRetryAt : Int
  createdAt : Int
  updatedAt : Int

/-- What `claimBatch` returns of a message. -/
structure Claimed where
  id : String
  hubId : String
  conversationId : String
  recipientIdentifier : String
  body : String
  mediaUrl : Option String
  mediaType : Option String
  retryCount : Nat

def Message.claimed (row : Message) : Claimed where
  id := row.id
  hubId := row.hubId
  conversationId := row.conversationId
  recipientIdentifier := row.recipientIdentifier
  body := row.body
  mediaUrl := row.mediaUrl
  mediaType := row.mediaType
  retryCount := row.retryCount

def DEFAULT_MAX_RETRIES : Nat := 5

def BACKOFF_BASE_MS : Int := 30000

def newMessage (params : EnqueueParams) (id : String) (now : Int) : Message where
  id := id
  hubId := params.hubId
  conversationId := params.conversationId
  recipientIdentifier := params.recipientIdentifier
  body := params.body
  mediaUrl := params.mediaUrl
  mediaType := params.mediaType
  externalId := none
  idempotencyKey := params.idempotencyKey
  status := .pending
  retryCount := 0
  lastError := none
  nextRetryAt := now
  createdAt := now
  updatedAt := now

def sentUpdate (externalId : Option String) (now : Int) (row : Message) : Message :=
  { row with status := .sent, externalId := externalId, updatedAt := now }

/-- The update of `markFailed`; the jitter is random. -/
def failedUpdate (maxRetries : Nat) (error : String) (currentRetryCount : Nat) (now jitter : Int)
    (row : Message) : Message :=
  if maxRetries ≤ currentRetryCount + 1 then
    { row with
      status := .dead
      lastError := some error
      retryCount := currentRetryCount + 1
      updatedAt := now }
  else
    { row with
      status := .pending
      lastError := some error
      retryCount := currentRetryCount + 1
      nextRetryAt := now + BACKOFF_BASE_MS * 2 ^ currentRetryCount + jitter
      updatedAt := now }

/-- The update of `retryDeadLetter`, which is made where the message is dead. -/
def retryUpdate (now : Int) (row : Message) : Message :=
  if row.status = .dead then
    { row with status := .pending, retryCount := 0, nextRetryAt := now, updatedAt := now }
  else row

/-- The table, and what each worker has claimed and not marked yet. -/
structure State where
  queue : List Message
  held : Nat → List Claimed

inductive Event where
  | enqueue (params : EnqueueParams) (id : String) (now : Int)
  /-- It skips the rows that are locked. -/
  | claimBatch (worker : Nat) (batchSize : Nat) (locked : List String) (now : Int)
  | markSent (worker : Nat) (messageId : String) (externalId : Option String) (now : Int)
  | markFailed (worker : Nat) (messageId : String) (error : String) (currentRetryCount : Nat)
      (now jitter : Int)
  | retryDeadLetter (messageId : String) (now : Int)
  | crash (worker : Nat)

def start : State := ⟨[], fun _ => []⟩

def State.rowOf (s : State) : String → Option Message := Tables.lookup Message.id s.queue

/-- Neither the primary key nor the index of idempotency keys has the new row's key. -/
def State.Admits (s : State) (new : Message) : Prop :=
  ∀ row ∈ s.queue, row.id ≠ new.id ∧
    ¬ (row.idempotencyKey.isSome ∧ row.idempotencyKey = new.idempotencyKey)

instance (s : State) (new : Message) : Decidable (s.Admits new) :=
  inferInstanceAs (Decidable (∀ row ∈ _, _ ∧ _))

/-- `SELECT ... WHERE status = 'pending' AND next_retry_at <= now ORDER BY next_retry_at LIMIT ...
FOR UPDATE SKIP LOCKED`. -/
def State.batch (s : State) (batchSize : Nat) (locked : List String) (now : Int) : List Message :=
  ((s.queue.filter fun row =>
      row.status = .pending ∧ row.nextRetryAt ≤ now ∧ row.id ∉ locked).mergeSort
    fun a b => a.nextRetryAt ≤ b.nextRetryAt).take batchSize

/-- The row with the id is set. -/
def State.set (s : State) (id : String) (update : Message → Message) : List Message :=
  s.queue.map fun row => if row.id = id then update row else row

/-- The worker has marked the message. -/
def State.release (s : State) (worker : Nat) (id : String) : Nat → List Claimed :=
  Function.update s.held worker ((s.held worker).filter fun message => message.id ≠ id)

section Step

variable (maxRetries : Nat)

def step (s : State) : Event → Option State
  | .enqueue params id now =>
    let new := newMessage params id now
    -- ON CONFLICT DO NOTHING
    if s.Admits new then some { s with queue := s.queue ++ [new] } else some s
  | .claimBatch worker batchSize locked now =>
    let batch := s.batch batchSize locked now
    some {
      queue := s.queue.map fun row =>
        if row.id ∈ batch.map Message.id then { row with status := .processing, updatedAt := now }
        else row
      held := Function.update s.held worker (s.held worker ++ batch.map Message.claimed) }
  | .markSent worker messageId externalId now =>
    some ⟨s.set messageId (sentUpdate externalId now), s.release worker messageId⟩
  | .markFailed worker messageId error currentRetryCount now jitter =>
    some ⟨s.set messageId (failedUpdate maxRetries error currentRetryCount now jitter),
      s.release worker messageId⟩
  | .retryDeadLetter messageId now => some { s with queue := s.set messageId (retryUpdate now) }
  | .crash worker => some { s with held := Function.update s.held worker [] }

/-- What has happened to a message. -/
inductive Out where
  | claimed (worker : Nat) (id : String)
  | sent (id : String)
  | failed (id : String)
  | revived (id : String)
  deriving DecidableEq

def out (s : State) : Event → List Out
  | .enqueue _ _ _ => []
  | .claimBatch worker batchSize locked now =>
    (s.batch batchSize locked now).map fun row => .claimed worker row.id
  | .markSent _ messageId _ _ => (s.rowOf messageId).toList.map fun _ => .sent messageId
  | .markFailed _ messageId _ _ _ _ => (s.rowOf messageId).toList.map fun _ => .failed messageId
  | .retryDeadLetter messageId _ =>
    match s.rowOf messageId with
    | some row => if row.status = .dead then [.revived messageId] else []
    | none => []
  | .crash _ => []

/-- A state, and all that has happened. -/
abbrev Recorded := State × List Out

def recorded : Recorded → Event → Option Recorded := Runs.recording (step maxRetries) out

end Step

/-! ## What is said of the queue -/

/-- How often the message has failed since it was last revived. -/
def attempts (happened : List Out) (id : String) : Nat :=
  happened.foldl (fun n w => if w = .failed id then n + 1 else if w = .revived id then 0 else n) 0

/-- A worker marks what it has claimed, with the count that it has got. -/
def Marks (s : State) : Event → Prop
  | .markSent worker messageId _ _ => ∃ message ∈ s.held worker, message.id = messageId
  | .markFailed worker messageId _ currentRetryCount _ _ =>
    ∃ message ∈ s.held worker, message.id = messageId ∧ message.retryCount = currentRetryCount
  | _ => True

instance (s : State) : ∀ e, Decidable (Marks s e)
  | .markSent _ _ _ _ => inferInstanceAs (Decidable (∃ message ∈ _, _))
  | .markFailed _ _ _ _ _ _ => inferInstanceAs (Decidable (∃ message ∈ _, _))
  | .enqueue _ _ _ | .claimBatch _ _ _ _ | .retryDeadLetter _ _ | .crash _ => isTrue trivial

def Processing (s : State) (id : String) : Prop :=
  (s.rowOf id).map Message.status = some .processing

/-- The workers can go on so that the message leaves processing. -/
def Recoverable (maxRetries : Nat) (p : Recorded) (id : String) : Prop :=
  ∃ es q, Runs.Along (recorded maxRetries) (fun p => Marks p.1) p es ∧
    Runs.run (recorded maxRetries) p es = some q ∧ ¬ Processing q.1 id

/-- A message that has been sent is neither claimed nor sent again. -/
def SentOnce (happened : List Out) : Prop :=
  Histories.Lawful (fun before w => match w with
    | .claimed _ id | .sent id => .sent id ∉ before
    | .failed _ | .revived _ => True) happened

/-- The queue's law. -/
structure Good (maxRetries : Nat) (p : Recorded) : Prop where
  heldOnce : ∀ v w, ∀ m ∈ p.1.held v, ∀ n ∈ p.1.held w, m.id = n.id → v = w
  recoverable : ∀ id, Processing p.1 id → Recoverable maxRetries p id
  sentOnce : SentOnce p.2
  dead : ∀ id row, p.1.rowOf id = some row → (row.status = .dead ↔ maxRetries ≤ attempts p.2 id)

/-- A worker that crashes holds no message. -/
def CrashesIdle (p : Recorded) : Event → Prop
  | .crash worker => p.1.held worker = []
  | _ => True

instance (p : Recorded) : ∀ e, Decidable (CrashesIdle p e)
  | .crash worker => inferInstanceAs (Decidable (p.1.held worker = []))
  | .enqueue _ _ _ | .claimBatch _ _ _ _ | .markSent _ _ _ _ | .markFailed _ _ _ _ _ _
  | .retryDeadLetter _ _ => isTrue trivial

/-! ## What a step does -/

section Attempts

variable {happened : List Out} {id k : String}

@[simp] theorem attempts_claimed (worker : Nat) :
    attempts (happened ++ [.claimed worker k]) id = attempts happened id := by
  simp [attempts]

@[simp] theorem attempts_sent : attempts (happened ++ [.sent k]) id = attempts happened id := by
  simp [attempts]

theorem attempts_failed : attempts (happened ++ [.failed k]) id =
    if k = id then attempts happened id + 1 else attempts happened id := by
  simp [attempts]

theorem attempts_revived : attempts (happened ++ [.revived k]) id =
    if k = id then 0 else attempts happened id := by
  simp [attempts]

theorem attempts_claims (worker : Nat) (ids : List String) :
    attempts (happened ++ ids.map (.claimed worker)) id = attempts happened id := by
  induction ids using List.reverseRecOn with
  | nil => simp
  | append_singleton ids k ih =>
    rw [List.map_append, List.map_singleton, ← List.append_assoc, attempts_claimed, ih]

end Attempts

section Updates

variable (maxRetries count : Nat) (error : String) (externalId : Option String) (now jitter : Int)
  (row : Message)

@[simp] theorem failedUpdate_id :
    (failedUpdate maxRetries error count now jitter row).id = row.id := by
  unfold failedUpdate
  split_ifs <;> rfl

@[simp] theorem failedUpdate_retryCount :
    (failedUpdate maxRetries error count now jitter row).retryCount = count + 1 := by
  unfold failedUpdate
  split_ifs <;> rfl

theorem failedUpdate_status : (failedUpdate maxRetries error count now jitter row).status =
    if maxRetries ≤ count + 1 then .dead else .pending := by
  unfold failedUpdate
  split_ifs <;> rfl

@[simp] theorem sentUpdate_id : (sentUpdate externalId now row).id = row.id := rfl

@[simp] theorem retryUpdate_id : (retryUpdate now row).id = row.id := by
  unfold retryUpdate
  split_ifs <;> rfl

end Updates

/-- What runs of workers that mark what they have claimed keep. -/
structure Sound (maxRetries : Nat) (p : Recorded) : Prop where
  ids : (p.1.queue.map Message.id).Nodup
  held : ∀ w, ∀ m ∈ p.1.held w, ∃ row, p.1.rowOf m.id = some row ∧ row.status = .processing ∧
    row.retryCount = m.retryCount
  heldOnce : ∀ v w, ∀ m ∈ p.1.held v, ∀ n ∈ p.1.held w, m.id = n.id → v = w
  counts : ∀ id row, p.1.rowOf id = some row → row.retryCount = attempts p.2 id
  dead : ∀ id row, p.1.rowOf id = some row → (row.status = .dead ↔ maxRetries ≤ row.retryCount)
  sent : ∀ id, .sent id ∈ p.2 → ∃ row, p.1.rowOf id = some row ∧ row.status = .sent
  fresh : ∀ id, p.1.rowOf id = none → attempts p.2 id = 0
  sentOnce : SentOnce p.2

variable {maxRetries : Nat} {s s' : State} {p q : Recorded} {e : Event} {id : String}
  {row row' : Message}

theorem sound_start : Sound maxRetries (start, []) where
  ids := List.nodup_nil
  held w m hm := by cases hm
  heldOnce v w m hm := by cases hm
  counts id row h := by cases h
  dead id row h := by cases h
  sent id h := by cases h
  fresh id _ := rfl
  sentOnce := Histories.lawful_nil

theorem not_sent_of_status (hp : Sound maxRetries p) (hrow : p.1.rowOf id = some row)
    (hstatus : row.status ≠ .sent) : .sent id ∉ p.2 := by
  intro hsent
  obtain ⟨row', hrow', hstatus'⟩ := hp.sent id hsent
  rw [hrow, Option.some.injEq] at hrow'
  exact hstatus (hrow' ▸ hstatus')

/-- What is held is in processing. -/
theorem Sound.processing (hp : Sound maxRetries p) {w : Nat} {m : Claimed} (hm : m ∈ p.1.held w) :
    Processing p.1 m.id := by
  obtain ⟨row, hrow, hstatus, -⟩ := hp.held w m hm
  rw [Processing, hrow, Option.map_some, hstatus]

/-- **A step that sets one row**, which no worker holds then. -/
theorem Sound.setRow (hp : Sound maxRetries p)
    (hrows : q.1.rowOf = Function.update p.1.rowOf id (some row'))
    (hids : (q.1.queue.map Message.id).Nodup)
    (hheld : ∀ w, ∀ m ∈ q.1.held w, m ∈ p.1.held w ∧ m.id ≠ id)
    (hcount : row'.retryCount = attempts q.2 id)
    (hdead : row'.status = .dead ↔ maxRetries ≤ row'.retryCount)
    (hsent : .sent id ∈ q.2 → row'.status = .sent)
    (hothers : ∀ k ≠ id, attempts q.2 k = attempts p.2 k ∧ (.sent k ∈ q.2 → .sent k ∈ p.2))
    (honce : SentOnce q.2) : Sound maxRetries q where
  ids := hids
  held w m hm := by
    obtain ⟨hold, hne⟩ := hheld w m hm
    rw [hrows, Function.update_of_ne hne]
    exact hp.held w m hold
  heldOnce v w m hm n hn := hp.heldOnce v w m (hheld v m hm).1 n (hheld w n hn).1
  counts k row hrow := by
    rw [hrows] at hrow
    rcases Runs.update_eq_some hrow with ⟨rfl, hnew⟩ | ⟨hne, hold⟩
    · exact Option.some.inj hnew ▸ hcount
    · rw [(hothers k hne).1]
      exact hp.counts k row hold
  dead k row hrow := by
    rw [hrows] at hrow
    rcases Runs.update_eq_some hrow with ⟨rfl, hnew⟩ | ⟨hne, hold⟩
    · exact Option.some.inj hnew ▸ hdead
    · exact hp.dead k row hold
  sent k hk := by
    rw [hrows]
    by_cases hne : k = id
    · rw [hne, Function.update_self]
      exact ⟨row', rfl, hsent (hne ▸ hk)⟩
    · rw [Function.update_of_ne hne]
      exact hp.sent k ((hothers k hne).2 hk)
  fresh k hk := by
    rw [hrows] at hk
    by_cases hne : k = id
    · rw [hne, Function.update_self] at hk
      cases hk
    · rw [Function.update_of_ne hne] at hk
      rw [(hothers k hne).1]
      exact hp.fresh k hk
  sentOnce := honce

/-- A step that leaves the rows, in which workers may let go of messages. -/
theorem Sound.sameRows (hp : Sound maxRetries p) (hids : (q.1.queue.map Message.id).Nodup)
    (hrows : q.1.rowOf = p.1.rowOf) (hlog : q.2 = p.2)
    (hheld : ∀ w, ∀ m ∈ q.1.held w, m ∈ p.1.held w) : Sound maxRetries q where
  ids := hids
  held w m hm := by
    rw [hrows]
    exact hp.held w m (hheld w m hm)
  heldOnce v w m hm n hn := hp.heldOnce v w m (hheld v m hm) n (hheld w n hn)
  counts := by
    rw [hrows, hlog]
    exact hp.counts
  dead := by
    rw [hrows]
    exact hp.dead
  sent := by
    rw [hrows, hlog]
    exact hp.sent
  fresh := by
    rw [hrows, hlog]
    exact hp.fresh
  sentOnce := hlog ▸ hp.sentOnce

theorem set_rowOf (update : Message → Message) (hupdate : ∀ row, (update row).id = row.id)
    (held : Nat → List Claimed) : State.rowOf ⟨s.set id update, held⟩ =
      Function.update s.rowOf id ((s.rowOf id).map update) :=
  Tables.lookup_set hupdate

theorem set_ids (update : Message → Message) (hupdate : ∀ row, (update row).id = row.id)
    (h : (s.queue.map Message.id).Nodup) : ((s.set id update).map Message.id).Nodup :=
  Tables.nodup_map h fun row => by split_ifs <;> simp [hupdate]

/-- A new message comes under a new id. -/
theorem admits_rowOf {params : EnqueueParams} {now : Int}
    (hadmits : s.Admits (newMessage params id now)) :
    s.rowOf id = none ∧ State.rowOf { s with queue := s.queue ++ [newMessage params id now] } =
      Function.update s.rowOf id (some (newMessage params id now)) := by
  have hnew : Tables.lookup Message.id s.queue (newMessage params id now).id = none :=
    Tables.lookup_eq_none_iff.mpr fun row hrow => (hadmits row hrow).1
  exact ⟨hnew, Tables.lookup_concat hnew⟩

variable {worker : Nat}

/-- A worker that marks a message lets go of it, and no other has it. -/
theorem release_held (hp : Sound maxRetries p) {message : Claimed}
    (hmessage : message ∈ p.1.held worker) (hid : message.id = id) (w : Nat) (m : Claimed)
    (hm : m ∈ p.1.release worker id w) : m ∈ p.1.held w ∧ m.id ≠ id := by
  unfold State.release at hm
  by_cases hw : w = worker
  · rw [hw, Function.update_self, List.mem_filter, decide_eq_true_eq] at hm
    exact hw ▸ hm
  · rw [Function.update_of_ne hw] at hm
    refine ⟨hm, fun heq => hw ?_⟩
    exact hp.heldOnce w worker m hm message hmessage (heq.trans hid.symm)

theorem mem_batch {batchSize : Nat} {locked : List String} {now : Int}
    (h : row ∈ s.batch batchSize locked now) : row ∈ s.queue ∧ row.status = .pending := by
  have hmem := List.mem_of_mem_take h
  rw [List.mem_mergeSort, List.mem_filter, decide_eq_true_eq] at hmem
  exact ⟨hmem.1, hmem.2.1⟩

/-- The messages of a batch are in the table, and pending. -/
theorem rowOf_batch (hids : (s.queue.map Message.id).Nodup) {batchSize : Nat}
    {locked : List String} {now : Int} (h : row ∈ s.batch batchSize locked now) :
    s.rowOf row.id = some row ∧ row.status = .pending :=
  ⟨(Tables.lookup_eq_some_iff hids).mpr ⟨(mem_batch h).1, rfl⟩, (mem_batch h).2⟩

theorem sentOnce_concat {happened : List Out} {w : Out} :
    SentOnce (happened ++ [w]) ↔ SentOnce happened ∧ match w with
      | .claimed _ id | .sent id => .sent id ∉ happened
      | .failed _ | .revived _ => True :=
  Histories.lawful_concat

theorem sentOnce_claims {happened : List Out} (h : SentOnce happened) (worker : Nat)
    {ids : List String} (hids : ∀ id ∈ ids, .sent id ∉ happened) :
    SentOnce (happened ++ ids.map (.claimed worker)) := by
  induction ids using List.reverseRecOn with
  | nil => simpa using h
  | append_singleton ids k ih =>
    rw [List.map_append, List.map_singleton, ← List.append_assoc, sentOnce_concat]
    refine ⟨ih fun id hid => hids id (List.mem_append_left _ hid), ?_⟩
    simpa using hids k (by simp)

/-- **A claim** takes messages that are pending, and that no worker holds. -/
theorem sound_claimBatch (hp : Sound maxRetries p) {worker batchSize : Nat} {locked : List String}
    {now : Int} (h : recorded maxRetries p (.claimBatch worker batchSize locked now) = some q) :
    Sound maxRetries q := by
  obtain ⟨hstep, htold⟩ := Runs.recording_eq_some.mp h
  have hs' := Option.some.inj hstep
  generalize hbatch : p.1.batch batchSize locked now = batch at hs'
  have hmem : ∀ row ∈ batch, p.1.rowOf row.id = some row ∧ row.status = .pending := by
    intro row hrow
    exact rowOf_batch hp.ids (hbatch ▸ hrow)
  have hclaimed : ∀ row ∈ batch, row.id ∈ batch.map Message.id :=
    fun row hrow => List.mem_map_of_mem hrow
  have hpending : ∀ k ∈ batch.map Message.id, ∃ row ∈ batch, row.id = k ∧
      p.1.rowOf k = some row ∧ row.status = .pending := by
    intro k hk
    obtain ⟨row, hrow, rfl⟩ := List.mem_map.mp hk
    exact ⟨row, hrow, rfl, hmem row hrow⟩
  have hlog : q.2 = p.2 ++ (batch.map Message.id).map (.claimed worker) := by
    rw [htold, out, hbatch, List.map_map]
    rfl
  have hrows : ∀ k, q.1.rowOf k = (p.1.rowOf k).map fun row =>
      if row.id ∈ batch.map Message.id then { row with status := .processing, updatedAt := now }
      else row := by
    intro k
    rw [State.rowOf, ← hs']
    refine Tables.lookup_map fun row => ?_
    split_ifs <;> rfl
  have hheld : ∀ w, ∀ m ∈ q.1.held w, m ∈ p.1.held w ∨
      (w = worker ∧ ∃ row ∈ batch, m = row.claimed) := by
    intro w m hm
    rw [← hs'] at hm
    by_cases hw : w = worker
    · simp only [hw, Function.update_self, List.mem_append, List.mem_map] at hm
      rw [hw]
      exact hm.imp_right fun ⟨row, hrow, heq⟩ => ⟨rfl, row, hrow, heq.symm⟩
    · simp only [Function.update_of_ne hw] at hm
      exact .inl hm
  -- a message that is held is processing, and one of the batch was pending
  have hapart : ∀ w, ∀ m ∈ p.1.held w, m.id ∉ batch.map Message.id := by
    intro w m hm hin
    obtain ⟨row, -, -, hrow, hstatus⟩ := hpending m.id hin
    have hprocessing := hp.processing hm
    rw [Processing, hrow, Option.map_some, hstatus] at hprocessing
    cases hprocessing
  refine ⟨?_, fun w m hm => ?_, fun v w m hm n hn heq => ?_, fun k row hrow => ?_,
    fun k row hrow => ?_, fun k hk => ?_, fun k hk => ?_, ?_⟩
  · rw [← hs']
    exact Tables.nodup_map hp.ids fun row => by split_ifs <;> rfl
  · rcases hheld w m hm with hold | ⟨-, row, hrow, rfl⟩
    · obtain ⟨row, hrow, hstatus, hcount⟩ := hp.held w m hold
      refine ⟨row, ?_, hstatus, hcount⟩
      rw [hrows, hrow, Option.map_some, Tables.key_of_lookup hrow, if_neg (hapart w m hold)]
    · refine ⟨_, by rw [Message.claimed, hrows, (hmem row hrow).1, Option.map_some], ?_⟩
      simp only [if_pos (hclaimed row hrow)]
      exact ⟨trivial, rfl⟩
  · rcases hheld v m hm with hold | ⟨hv, row, hrow, rfl⟩ <;>
      rcases hheld w n hn with hold' | ⟨hw, row', hrow', rfl⟩
    · exact hp.heldOnce v w m hold n hold' heq
    · exact absurd (heq ▸ hclaimed row' hrow') (hapart v m hold)
    · exact absurd (heq ▸ hclaimed row hrow) (hapart w n hold')
    · exact hv.trans hw.symm
  · rw [hrows, Option.map_eq_some_iff] at hrow
    obtain ⟨old, hold, rfl⟩ := hrow
    rw [hlog, attempts_claims, ← hp.counts k old hold]
    split_ifs <;> rfl
  · rw [hrows, Option.map_eq_some_iff] at hrow
    obtain ⟨old, hold, rfl⟩ := hrow
    have hdead := hp.dead k old hold
    split_ifs with hin
    · rw [Tables.key_of_lookup hold] at hin
      obtain ⟨row, -, -, hrow, hstatus⟩ := hpending k hin
      rw [hold, Option.some.injEq] at hrow
      rw [hrow, hstatus] at hdead
      rw [hrow]
      exact iff_of_false (by simp) fun hmax => by cases hdead.mpr hmax
    · exact hdead
  · rw [hlog, List.mem_append] at hk
    have hold : .sent k ∈ p.2 := by simpa using hk
    obtain ⟨row, hrow, hstatus⟩ := hp.sent k hold
    refine ⟨row, ?_, hstatus⟩
    rw [hrows, hrow, Option.map_some, Tables.key_of_lookup hrow, if_neg]
    intro hin
    obtain ⟨row', -, -, hrow', hstatus'⟩ := hpending k hin
    exact not_sent_of_status hp hrow' (by rw [hstatus']; decide) hold
  · rw [hrows, Option.map_eq_none_iff] at hk
    rw [hlog, attempts_claims]
    exact hp.fresh k hk
  · rw [hlog]
    refine sentOnce_claims hp.sentOnce worker fun k hk => ?_
    obtain ⟨row, -, -, hrow, hstatus⟩ := hpending k hk
    exact not_sent_of_status hp hrow (by rw [hstatus]; decide)

/-- A new message has not failed yet. -/
theorem sound_enqueue (hmax : 0 < maxRetries) (hp : Sound maxRetries p) {params : EnqueueParams}
    {now : Int} (h : recorded maxRetries p (.enqueue params id now) = some q) :
    Sound maxRetries q := by
  obtain ⟨hstep, htold⟩ := Runs.recording_eq_some.mp h
  simp only [out, List.append_nil] at htold
  simp only [step] at hstep
  split_ifs at hstep with hadmits
  · have hs' := Option.some.inj hstep
    obtain ⟨hnew, hconcat⟩ := admits_rowOf hadmits
    have hnone := hp.fresh id hnew
    have hrows : q.1.rowOf = Function.update p.1.rowOf id (some (newMessage params id now)) := by
      rw [← hs', hconcat]
    refine hp.setRow hrows ?_ ?_ ?_ ?_ ?_ ?_ ?_
    · rw [← hs']
      exact Tables.nodup_concat hp.ids hnew
    · intro w m hm
      rw [← hs'] at hm
      refine ⟨hm, ?_⟩
      rintro rfl
      have hprocessing := hp.processing hm
      rw [Processing, hnew] at hprocessing
      cases hprocessing
    · rw [htold, hnone]
      rfl
    · exact iff_of_false (by simp [newMessage]) (Nat.not_le.mpr hmax)
    · intro hsent
      rw [htold] at hsent
      obtain ⟨row, hrow, -⟩ := hp.sent id hsent
      rw [hnew] at hrow
      cases hrow
    · rw [htold]
      exact fun k _ => ⟨rfl, fun hk => hk⟩
    · exact htold ▸ hp.sentOnce
  · have hq : q = p := Prod.ext (Option.some.inj hstep).symm htold
    exact hq ▸ hp

/-- A worker marks as sent what it holds, and no one else does. -/
theorem sound_markSent (hp : Sound maxRetries p) {messageId : String}
    {externalId : Option String} {now : Int}
    (hmarks : Marks p.1 (.markSent worker messageId externalId now))
    (h : recorded maxRetries p (.markSent worker messageId externalId now) = some q) :
    Sound maxRetries q := by
  obtain ⟨hstep, htold⟩ := Runs.recording_eq_some.mp h
  obtain ⟨message, hmessage, hid⟩ := hmarks
  obtain ⟨row, hrow, hstatus, -⟩ := hp.held worker message hmessage
  rw [hid] at hrow
  rw [out, hrow, Option.toList_some, List.map_singleton] at htold
  have hs' := Option.some.inj hstep
  have hdead := hp.dead messageId row hrow
  have hrows : q.1.rowOf =
      Function.update p.1.rowOf messageId (some (sentUpdate externalId now row)) := by
    rw [← hs', set_rowOf _ (sentUpdate_id externalId now), hrow]
    rfl
  refine hp.setRow hrows ?_ ?_ ?_ ?_ ?_ ?_ ?_
  · rw [← hs']
    exact set_ids _ (sentUpdate_id externalId now) hp.ids
  · rw [← hs']
    exact release_held hp hmessage hid
  · rw [htold, attempts_sent, ← hp.counts messageId row hrow]
    rfl
  · rw [hstatus] at hdead
    exact iff_of_false (by simp [sentUpdate]) fun hmax' => by cases hdead.mpr hmax'
  · exact fun _ => rfl
  · intro k hk
    rw [htold, attempts_sent]
    refine ⟨rfl, fun hsent => ?_⟩
    rw [List.mem_append, List.mem_singleton, Out.sent.injEq] at hsent
    exact hsent.resolve_right hk
  · rw [htold, sentOnce_concat]
    exact ⟨hp.sentOnce, not_sent_of_status hp hrow (by rw [hstatus]; decide)⟩

/-- A message that fails counts as often as it has failed. -/
theorem sound_markFailed (hp : Sound maxRetries p) {worker currentRetryCount : Nat}
    {messageId error : String} {now jitter : Int}
    (hmarks : Marks p.1 (.markFailed worker messageId error currentRetryCount now jitter))
    (h : recorded maxRetries p (.markFailed worker messageId error currentRetryCount now jitter) =
      some q) : Sound maxRetries q := by
  obtain ⟨hstep, htold⟩ := Runs.recording_eq_some.mp h
  obtain ⟨message, hmessage, hid, hcount⟩ := hmarks
  obtain ⟨row, hrow, hstatus, hretry⟩ := hp.held worker message hmessage
  rw [hid] at hrow
  rw [out, hrow, Option.toList_some, List.map_singleton] at htold
  have hs' := Option.some.inj hstep
  have hattempts : attempts p.2 messageId = currentRetryCount := by
    rw [← hp.counts messageId row hrow, hretry, hcount]
  have hrows : q.1.rowOf = Function.update p.1.rowOf messageId
      (some (failedUpdate maxRetries error currentRetryCount now jitter row)) := by
    rw [← hs', set_rowOf _ (failedUpdate_id maxRetries currentRetryCount error now jitter), hrow]
    rfl
  refine hp.setRow hrows ?_ ?_ ?_ ?_ ?_ ?_ ?_
  · rw [← hs']
    exact set_ids _ (failedUpdate_id maxRetries currentRetryCount error now jitter) hp.ids
  · rw [← hs']
    exact release_held hp hmessage hid
  · rw [htold, attempts_failed, if_pos rfl, hattempts, failedUpdate_retryCount]
  · rw [failedUpdate_status, failedUpdate_retryCount]
    split_ifs with hmore
    · exact iff_of_true rfl hmore
    · exact iff_of_false (by simp) hmore
  · intro hsent
    rw [htold, List.mem_append, List.mem_singleton] at hsent
    have hold : .sent messageId ∈ p.2 := by simpa using hsent
    exact absurd hold (not_sent_of_status hp hrow (by rw [hstatus]; decide))
  · intro k hk
    rw [htold, attempts_failed, if_neg (Ne.symm hk)]
    exact ⟨rfl, fun hsent => by simpa using hsent⟩
  · rw [htold, sentOnce_concat]
    exact ⟨hp.sentOnce, trivial⟩

/-- A dead message begins anew, and another one is left as it is. -/
theorem sound_retryDeadLetter (hmax : 0 < maxRetries) (hp : Sound maxRetries p)
    {messageId : String} {now : Int}
    (h : recorded maxRetries p (.retryDeadLetter messageId now) = some q) : Sound maxRetries q := by
  obtain ⟨hstep, htold⟩ := Runs.recording_eq_some.mp h
  have hs' := Option.some.inj hstep
  have hrows : q.1.rowOf = Function.update p.1.rowOf messageId
      ((p.1.rowOf messageId).map (retryUpdate now)) := by
    rw [← hs']
    exact set_rowOf _ (retryUpdate_id now) p.1.held
  have hids : (q.1.queue.map Message.id).Nodup := by
    rw [← hs']
    exact set_ids _ (retryUpdate_id now) hp.ids
  by_cases hdead : ∃ row, p.1.rowOf messageId = some row ∧ row.status = .dead
  · obtain ⟨row, hrow, hstatus⟩ := hdead
    have hlog : q.2 = p.2 ++ [.revived messageId] := by
      rw [htold, out, hrow]
      simp [hstatus]
    rw [hrow, Option.map_some] at hrows
    have hupdate : retryUpdate now row =
        { row with status := .pending, retryCount := 0, nextRetryAt := now, updatedAt := now } :=
      if_pos hstatus
    refine hp.setRow hrows hids ?_ ?_ ?_ ?_ ?_ ?_
    · intro w m hm
      rw [← hs'] at hm
      refine ⟨hm, ?_⟩
      rintro rfl
      have hprocessing := hp.processing hm
      rw [Processing, hrow, Option.map_some, hstatus] at hprocessing
      cases hprocessing
    · rw [hlog, attempts_revived, if_pos rfl, hupdate]
    · rw [hupdate]
      exact iff_of_false (by simp) (Nat.not_le.mpr hmax)
    · intro hsent
      rw [hlog, List.mem_append, List.mem_singleton] at hsent
      have hold : .sent messageId ∈ p.2 := by simpa using hsent
      exact absurd hold (not_sent_of_status hp hrow (by rw [hstatus]; decide))
    · intro k hk
      rw [hlog, attempts_revived, if_neg (Ne.symm hk)]
      exact ⟨rfl, fun hsent => by simpa using hsent⟩
    · rw [hlog, sentOnce_concat]
      exact ⟨hp.sentOnce, trivial⟩
  · -- the update matches no row
    have hsame : q.1.rowOf = p.1.rowOf := by
      rw [hrows]
      cases hrow : p.1.rowOf messageId with
      | none => rw [Option.map_none, ← hrow, Function.update_eq_self]
      | some row =>
        have halive : row.status ≠ .dead := fun hstatus => hdead ⟨row, hrow, hstatus⟩
        rw [Option.map_some, retryUpdate, if_neg halive, ← hrow, Function.update_eq_self]
    have hlog : q.2 = p.2 := by
      rw [htold, out]
      cases hrow : p.1.rowOf messageId with
      | none => simp
      | some row =>
        have halive : row.status ≠ .dead := fun hstatus => hdead ⟨row, hrow, hstatus⟩
        simp [halive]
    exact hp.sameRows hids hsame hlog fun w m hm => by rwa [← hs'] at hm

theorem sound_crash (hp : Sound maxRetries p)
    (h : recorded maxRetries p (.crash worker) = some q) : Sound maxRetries q := by
  obtain ⟨hstep, htold⟩ := Runs.recording_eq_some.mp h
  simp only [out, List.append_nil] at htold
  have hs' := Option.some.inj hstep
  refine hp.sameRows (by rw [← hs']; exact hp.ids) (by rw [← hs']; rfl) htold fun w m hm => ?_
  rw [← hs'] at hm
  by_cases hw : w = worker
  · simp [hw] at hm
  · simpa [Function.update_of_ne hw] using hm

theorem sound_step (hmax : 0 < maxRetries) (hp : Sound maxRetries p) (hmarks : Marks p.1 e)
    (h : recorded maxRetries p e = some q) : Sound maxRetries q := by
  cases e with
  | enqueue params id now => exact sound_enqueue hmax hp h
  | claimBatch worker batchSize locked now => exact sound_claimBatch hp h
  | markSent worker messageId externalId now => exact sound_markSent hp hmarks h
  | markFailed worker messageId error currentRetryCount now jitter =>
    exact sound_markFailed hp hmarks h
  | retryDeadLetter messageId now => exact sound_retryDeadLetter hmax hp h
  | crash worker => exact sound_crash hp h

/-! ## Messages that stay in processing -/

/-- The message is in processing, and no worker holds it. -/
def Stranded (s : State) (id : String) : Prop :=
  Processing s id ∧ ∀ w, ∀ m ∈ s.held w, m.id ≠ id

theorem processing_of_rowOf (h : s'.rowOf id = s.rowOf id) :
    Processing s' id ↔ Processing s id := by
  rw [Processing, h, Processing]

/-- **No step frees a stranded message.** -/
theorem stranded_step (hids : (s.queue.map Message.id).Nodup) (hmarks : Marks s e)
    (h : step maxRetries s e = some s') (hstranded : Stranded s id) : Stranded s' id := by
  obtain ⟨hprocessing, hheld⟩ := hstranded
  obtain ⟨row, hrow, hstatus⟩ := Option.map_eq_some_iff.mp hprocessing
  have hrelease : ∀ worker messageId, ∀ w, ∀ m ∈ s.release worker messageId w, m.id ≠ id := by
    intro worker messageId w m hm
    unfold State.release at hm
    by_cases hw : w = worker
    · rw [hw, Function.update_self, List.mem_filter] at hm
      exact hheld worker m hm.1
    · rw [Function.update_of_ne hw] at hm
      exact hheld w m hm
  cases e with
  | enqueue params new now =>
    simp only [step] at h
    split_ifs at h with hadmits
    · rw [← Option.some.inj h]
      refine ⟨(processing_of_rowOf ?_).mpr hprocessing, hheld⟩
      obtain ⟨hnew, hconcat⟩ := admits_rowOf hadmits
      have hne : id ≠ new := by
        rintro rfl
        rw [hrow] at hnew
        cases hnew
      rw [hconcat, Function.update_of_ne hne]
    · exact Option.some.inj h ▸ ⟨hprocessing, hheld⟩
  | claimBatch worker batchSize locked now =>
    have hs' := Option.some.inj h
    have hbatch : ∀ other ∈ s.batch batchSize locked now, other.id ≠ id := by
      rintro other hother rfl
      obtain ⟨hfound, hpending⟩ := rowOf_batch hids hother
      rw [hrow, Option.some.injEq] at hfound
      rw [hfound, hpending] at hstatus
      cases hstatus
    constructor
    · refine (processing_of_rowOf ?_).mpr hprocessing
      rw [State.rowOf, ← hs', State.rowOf, Tables.lookup_map fun row => by split_ifs <;> rfl]
      rw [show Tables.lookup Message.id s.queue id = some row from hrow, Option.map_some, if_neg]
      intro hin
      obtain ⟨other, hother, heq⟩ := List.mem_map.mp hin
      exact hbatch other hother (heq.trans (Tables.key_of_lookup hrow))
    · intro w m hm
      rw [← hs'] at hm
      by_cases hw : w = worker
      · simp only [hw, Function.update_self, List.mem_append, List.mem_map] at hm
        rcases hm with hold | ⟨other, hother, rfl⟩
        · exact hheld worker m hold
        · exact hbatch other hother
      · simp only [Function.update_of_ne hw] at hm
        exact hheld w m hm
  | markSent worker messageId externalId now =>
    obtain ⟨message, hmessage, rfl⟩ := hmarks
    rw [← Option.some.inj h]
    refine ⟨(processing_of_rowOf ?_).mpr hprocessing, hrelease worker _⟩
    rw [set_rowOf _ (sentUpdate_id externalId now), Function.update_of_ne]
    exact (hheld worker message hmessage).symm
  | markFailed worker messageId error currentRetryCount now jitter =>
    obtain ⟨message, hmessage, rfl, -⟩ := hmarks
    rw [← Option.some.inj h]
    refine ⟨(processing_of_rowOf ?_).mpr hprocessing, hrelease worker _⟩
    rw [set_rowOf _ (failedUpdate_id maxRetries currentRetryCount error now jitter),
      Function.update_of_ne]
    exact (hheld worker message hmessage).symm
  | retryDeadLetter messageId now =>
    rw [← Option.some.inj h]
    refine ⟨(processing_of_rowOf ?_).mpr hprocessing, hheld⟩
    refine (congrFun (set_rowOf _ (retryUpdate_id now) s.held) id).trans ?_
    by_cases hid : id = messageId
    · have halive : row.status ≠ .dead := by
        rw [hstatus]
        decide
      rw [← hid, Function.update_self, hrow, Option.map_some, retryUpdate, if_neg halive]
    · rw [Function.update_of_ne hid]
  | crash worker =>
    rw [← Option.some.inj h]
    refine ⟨hprocessing, fun w m hm => ?_⟩
    by_cases hw : w = worker
    · simp [hw] at hm
    · simp only [Function.update_of_ne hw] at hm
      exact hheld w m hm

/-- **A message leaves processing again exactly if a worker holds it.** -/
theorem recoverable_iff (hmax : 0 < maxRetries) (hp : Sound maxRetries p)
    (hprocessing : Processing p.1 id) :
    Recoverable maxRetries p id ↔ ∃ w, ∃ m ∈ p.1.held w, m.id = id := by
  constructor
  · rintro ⟨es, q, hmarks, hrun, hleft⟩
    by_contra hnone
    have hstranded : Stranded p.1 id :=
      ⟨hprocessing, fun w m hm hid => hnone ⟨w, m, hm, hid⟩⟩
    have hend := Runs.run_inv_along (I := fun p => Sound maxRetries p ∧ Stranded p.1 id)
      (fun p e q hI hmarks h => ⟨sound_step hmax hI.1 hmarks h,
        stranded_step hI.1.ids hmarks (Runs.recording_eq_some.mp h).1 hI.2⟩)
      ⟨hp, hstranded⟩ hmarks hrun
    exact hleft hend.2.1
  · rintro ⟨w, m, hm, rfl⟩
    obtain ⟨row, hrow, -⟩ := hp.held w m hm
    refine ⟨[.markSent w m.id none 0], _, ⟨⟨m, hm, rfl⟩, fun _ _ => trivial⟩, rfl, ?_⟩
    rw [Processing, set_rowOf _ (sentUpdate_id none 0), Function.update_self, hrow]
    simp [sentUpdate]

/-- Every message in processing is held. -/
def NoneStranded (s : State) : Prop :=
  ∀ id, Processing s id → ∃ w, ∃ m ∈ s.held w, m.id = id

theorem good_iff (hmax : 0 < maxRetries) (hp : Sound maxRetries p) :
    Good maxRetries p ↔ NoneStranded p.1 := by
  constructor
  · exact fun h id hid => (recoverable_iff hmax hp hid).mp (h.recoverable id hid)
  · intro h
    refine ⟨hp.heldOnce, fun id hid => (recoverable_iff hmax hp hid).mpr (h id hid), hp.sentOnce,
      fun id row hrow => ?_⟩
    rw [← hp.counts id row hrow]
    exact hp.dead id row hrow

/-- A worker that marks a message keeps the others. -/
theorem mem_release {m : Claimed} {w : Nat} (hm : m ∈ s.held w) (hid : m.id ≠ id) :
    m ∈ s.release worker id w := by
  unfold State.release
  by_cases hw : w = worker
  · rw [hw, Function.update_self, List.mem_filter, decide_eq_true_eq]
    exact ⟨hw ▸ hm, hid⟩
  · rwa [Function.update_of_ne hw]

/-- A statement that takes one message out of processing leaves the others' holders. -/
theorem noneStranded_mark (hnone : NoneStranded s) {update : Message → Message}
    {messageId : String} (hid : ∀ row, (update row).id = row.id)
    (hstatus : ∀ row, (update row).status ≠ .processing) :
    NoneStranded ⟨s.set messageId update, s.release worker messageId⟩ := by
  intro id hprocessing
  rw [Processing, set_rowOf update hid] at hprocessing
  by_cases hk : id = messageId
  · rw [hk, Function.update_self, Option.map_map, Option.map_eq_some_iff] at hprocessing
    obtain ⟨row, -, hrow⟩ := hprocessing
    exact absurd hrow (hstatus row)
  · rw [Function.update_of_ne hk] at hprocessing
    obtain ⟨w, m, hm, rfl⟩ := hnone id hprocessing
    exact ⟨w, m, mem_release hm hk, rfl⟩

/-- **A crash strands the messages of the worker**, and no other step strands one. -/
theorem noneStranded_step (hp : Sound maxRetries p) (hnone : NoneStranded p.1)
    (h : recorded maxRetries p e = some q) : NoneStranded q.1 ↔ CrashesIdle p e := by
  obtain ⟨hstep, -⟩ := Runs.recording_eq_some.mp h
  cases e with
  | enqueue params new now =>
    refine iff_of_true ?_ trivial
    simp only [step] at hstep
    split_ifs at hstep with hadmits
    · rw [← Option.some.inj hstep]
      intro id hprocessing
      rw [Processing, (admits_rowOf hadmits).2] at hprocessing
      by_cases hid : id = new
      · rw [hid, Function.update_self] at hprocessing
        cases hprocessing
      · rw [Function.update_of_ne hid] at hprocessing
        exact hnone id hprocessing
    · exact Option.some.inj hstep ▸ hnone
  | claimBatch worker batchSize locked now =>
    refine iff_of_true ?_ trivial
    rw [← Option.some.inj hstep]
    intro id hprocessing
    rw [Processing, State.rowOf, Tables.lookup_map fun row => by split_ifs <;> rfl,
      Option.map_map, Option.map_eq_some_iff] at hprocessing
    obtain ⟨row, hrow, hstatus⟩ := hprocessing
    by_cases hin : row.id ∈ (p.1.batch batchSize locked now).map Message.id
    · obtain ⟨other, hother, hid⟩ := List.mem_map.mp hin
      refine ⟨worker, other.claimed, ?_, hid.trans (Tables.key_of_lookup hrow)⟩
      simp only [Function.update_self, List.mem_append]
      exact .inr (List.mem_map_of_mem hother)
    · rw [Function.comp_apply, if_neg hin] at hstatus
      obtain ⟨w, m, hm, hid⟩ := hnone id (Option.map_eq_some_iff.mpr ⟨row, hrow, hstatus⟩)
      refine ⟨w, m, ?_, hid⟩
      by_cases hw : w = worker
      · simp only [hw, Function.update_self, List.mem_append]
        exact .inl (hw ▸ hm)
      · simpa only [Function.update_of_ne hw] using hm
  | markSent worker messageId externalId now =>
    refine iff_of_true ?_ trivial
    rw [← Option.some.inj hstep]
    exact noneStranded_mark hnone (sentUpdate_id externalId now) fun row => by simp [sentUpdate]
  | markFailed worker messageId error count now jitter =>
    refine iff_of_true ?_ trivial
    rw [← Option.some.inj hstep]
    refine noneStranded_mark hnone (failedUpdate_id maxRetries count error now jitter) fun row => ?_
    rw [failedUpdate_status]
    split_ifs <;> simp
  | retryDeadLetter messageId now =>
    refine iff_of_true ?_ trivial
    rw [← Option.some.inj hstep]
    intro id hprocessing
    refine hnone id ?_
    rw [Processing, show State.rowOf { p.1 with queue := p.1.set messageId (retryUpdate now) } =
      _ from set_rowOf _ (retryUpdate_id now) p.1.held] at hprocessing
    by_cases hid : id = messageId
    · rw [hid, Function.update_self, Option.map_map, Option.map_eq_some_iff] at hprocessing
      obtain ⟨row, hrow, hstatus⟩ := hprocessing
      rw [Function.comp_apply, retryUpdate] at hstatus
      split_ifs at hstatus
      exact Option.map_eq_some_iff.mpr ⟨row, hid ▸ hrow, hstatus⟩
    · rwa [Function.update_of_ne hid] at hprocessing
  | crash worker =>
    rw [← Option.some.inj hstep]
    constructor
    · intro hafter
      refine List.eq_nil_iff_forall_not_mem.mpr fun m hm => ?_
      obtain ⟨w, n, hn, hid⟩ := hafter m.id (hp.processing hm)
      by_cases hw : w = worker
      · simp [hw] at hn
      · simp only [Function.update_of_ne hw] at hn
        exact hw (hp.heldOnce w worker n hn m hm hid)
    · intro hidle id hprocessing
      obtain ⟨w, m, hm, hid⟩ := hnone id hprocessing
      refine ⟨w, m, ?_, hid⟩
      by_cases hw : w = worker
      · rw [hw, hidle] at hm
        cases hm
      · simpa only [Function.update_of_ne hw] using hm

/-- **The queue's law** holds all along a run of workers that mark what they have claimed, exactly
if no worker crashes that holds a message. -/
theorem queue_iff {es : List Event} (hmax : 0 < maxRetries)
    (hmarks : Runs.Along (recorded maxRetries) (fun p => Marks p.1) (start, []) es)
    (h : Runs.run (recorded maxRetries) (start, []) es = some q) :
    (∀ before after m, es = before ++ after →
        Runs.run (recorded maxRetries) (start, []) before = some m → Good maxRetries m) ↔
      Runs.Along (recorded maxRetries) CrashesIdle (start, []) es := by
  have hstart : NoneStranded start := fun id hprocessing => by cases hprocessing
  refine Runs.inv_iff_along_of (I := Sound maxRetries)
    (fun p e q hp hmarks hstep => sound_step hmax hp hmarks hstep)
    (fun p e q hp hgood hmarks hstep => ?_)
    sound_start ((good_iff hmax sound_start).mpr hstart) hmarks h
  rw [good_iff hmax (sound_step hmax hp hmarks hstep)]
  exact noneStranded_step hp ((good_iff hmax hp).mp hgood) hstep

def sampleParams : EnqueueParams where
  hubId := "hub"
  conversationId := "conversation"
  recipientIdentifier := "+15550100"
  body := "hello"
  mediaUrl := none
  mediaType := none
  idempotencyKey := some "key"

/-- A message comes, and a worker claims it. -/
def claimOne : List Event :=
  [.enqueue sampleParams "message" 0, .claimBatch 0 10 [] 1]

/-- It fails, and a second worker claims it when it is due, and sends it. -/
def failAndSend : List Event :=
  claimOne ++ [.markFailed 0 "message" "HTTP 502" 0 2 1000, .crash 0, .claimBatch 1 10 [] 40000,
    .markSent 1 "message" (some "external") 40001]

theorem failAndSend_good : ∃ q,
    Runs.run (recorded DEFAULT_MAX_RETRIES) (start, []) failAndSend = some q ∧
    q.2 = [.claimed 0 "message", .failed "message", .claimed 1 "message", .sent "message"] ∧
    Good DEFAULT_MAX_RETRIES q := by
  obtain ⟨q, hq, hlog⟩ : ∃ q ∈ Runs.run (recorded DEFAULT_MAX_RETRIES) (start, []) failAndSend,
      q.2 = [.claimed 0 "message", .failed "message", .claimed 1 "message", .sent "message"] := by
    decide +kernel
  refine ⟨q, hq, hlog, ?_⟩
  exact (queue_iff (by decide) (by decide +kernel) hq).mpr (by decide +kernel) _ []
    q (List.append_nil _).symm hq

/-- **A message that is lost.** A worker claims a message and crashes: the message stays in
processing, whatever the others do. -/
theorem crash_strands : ¬ ∀ es q,
    Runs.Along (recorded DEFAULT_MAX_RETRIES) (fun p => Marks p.1) (start, []) es →
      Runs.run (recorded DEFAULT_MAX_RETRIES) (start, []) es = some q →
        Good DEFAULT_MAX_RETRIES q := by
  intro h
  have hmax : 0 < DEFAULT_MAX_RETRIES := by decide
  obtain ⟨p, hp, hheld⟩ : ∃ p ∈ Runs.run (recorded DEFAULT_MAX_RETRIES) (start, []) claimOne,
      p.1.held 0 ≠ [] := by
    decide +kernel
  have hsound := Runs.run_inv_along (I := Sound DEFAULT_MAX_RETRIES)
    (fun p e q hp hmarks hstep => sound_step hmax hp hmarks hstep) sound_start
    (by decide +kernel) hp
  have hcrash : recorded DEFAULT_MAX_RETRIES p (.crash 0) = some (_, p.2 ++ []) := rfl
  have hbefore := (good_iff hmax hsound).mp (h claimOne p (by decide +kernel) hp)
  have hafter := (h (claimOne ++ [.crash 0]) _ (by decide +kernel)
    (Runs.run_append.mpr ⟨p, hp, Runs.run_cons.mpr ⟨_, hcrash, rfl⟩⟩)).recoverable
  refine hheld ((noneStranded_step hsound hbefore hcrash).mp fun id hprocessing => ?_)
  have hsound' := sound_step (e := .crash 0) hmax hsound trivial hcrash
  exact (recoverable_iff hmax hsound' hprocessing).mp (hafter id hprocessing)

end Llamenos.Worker.Signal.Queue
