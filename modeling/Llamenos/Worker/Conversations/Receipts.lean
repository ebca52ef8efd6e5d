import Llamenos.Lib.CheckedWrites
import Llamenos.Worker.Conversations

/-!
# The status of a message

`updateMessageStatus` reads the message, returns early where the update is no advance, and writes
by a later statement which does not ask again. `failed` is an advance on everything, and nothing
but `failed` is one on it.

What becomes of a message is compared by its `MessageState`: a time is there or not. A call is a
check and a write on that state (`Mirrors`), so that the orders of the writes decide.

Results:
* `statuses_settle_iff`: **exactly which updates** leave the same state in whatever order they come,
  and however their calls overlap.
-/

namespace Llamenos.Worker.Conversations

open Llamenos.Lib Llamenos.Lib.Counters
open CheckedWrites (checked)

/-! ## The state of a message -/

structure MessageState where
  status : Option MessageDeliveryStatus
  delivered : Bool
  read : Bool
  failureReason : Option String
  deriving DecidableEq

def Message.state (msg : Message) : MessageState where
  status := msg.status
  delivered := msg.deliveredAt.isSome
  read := msg.readAt.isSome
  failureReason := msg.failureReason

/-- The update is an advance on the state. -/
def MessageState.asks (v : MessageState) (u : MessageStatusUpdate) : Bool :=
  !(decide (statusOrder u.status ≤ statusOrder (v.status.getD .pending)) &&
    decide (u.status ≠ .failed))

/-- The state with the update written. -/
def MessageState.after (v : MessageState) (u : MessageStatusUpdate) : MessageState where
  status := some u.status
  delivered := v.delivered || u.status = .delivered || u.status = .read
  read := v.read || u.status = .read
  failureReason :=
    if u.status = .failed then u.failureReason.or v.failureReason else v.failureReason

theorem advances_eq (msg : Message) (u : MessageStatusUpdate) :
    advances msg u = msg.state.asks u := rfl

variable {msg read : Message} {u w : MessageStatusUpdate} {v : MessageState}

theorem state_marked (hread : read.deliveredAt.isSome → msg.deliveredAt.isSome) :
    (marked read u msg).state = msg.state.after u := by
  obtain ⟨ext, status, timestamp, reason⟩ := u
  cases status with
  | pending => simp [marked, Message.state, MessageState.after]
  | sent => simp [marked, Message.state, MessageState.after]
  | delivered => simp [marked, Message.state, MessageState.after]
  | failed => simp [marked, Message.state, MessageState.after]
  | read =>
    cases hdelivered : read.deliveredAt with
    | none => simp [marked, Message.state, MessageState.after, hdelivered]
    | some _ =>
      have hmsg : msg.deliveredAt.isSome = true := hread (by rw [hdelivered]; rfl)
      simp [marked, Message.state, MessageState.after, hdelivered, hmsg]

/-- A delivery is not taken back. -/
theorem delivered_marked (h : msg.deliveredAt.isSome) :
    (marked read u msg).deliveredAt.isSome := by
  unfold marked
  split
  · rfl
  · dsimp only
    split_ifs
    · rfl
    · exact h
  · exact h
  · exact h

theorem marked_externalId (row : Message) : (marked read u row).externalId = row.externalId := by
  unfold marked
  split <;> rfl

theorem marked_id (row : Message) : (marked read u row).id = row.id := by
  unfold marked
  split <;> rfl

/-- The message after its `UPDATE`. -/
theorem selectMessage_markMessage {db : Db} {ext : String} (hmsg : selectMessage db ext = some msg)
    (hid : read.id = msg.id) :
    selectMessage (markMessage db read u) ext = some (marked read u msg) := by
  have hkeep : (fun row : Message => decide (row.externalId = some ext)) ∘
      (fun row => if row.id = read.id then marked read u row else row) =
        fun row => decide (row.externalId = some ext) := by
    funext row
    simp only [Function.comp_apply]
    split_ifs
    · rw [marked_externalId]
    · rfl
  rw [selectMessage, markMessage, Counters.update, List.find?_map, hkeep]
  rw [selectMessage] at hmsg
  rw [hmsg, Option.map_some, if_pos hid.symm]

/-! ## The calls -/

/-- A call's `SELECT`, or its `UPDATE`. -/
def statement : CheckedWrites.Event Nat MessageStatusUpdate → Event
  | .check task u => .updateMessageStatus task u
  | .write task => .markWrite task

/-- A run of calls with these updates, all of which have come to their end. -/
structure Handled (db : Db) (us : List MessageStatusUpdate)
    (es : List (CheckedWrites.Event Nat MessageStatusUpdate)) (t : System) : Prop where
  run : Runs.run step ⟨db, fun _ => none⟩ (es.map statement) = some t
  updates : (checked es).Perm us
  done : ∀ task, t.tasks task = none

/-- The message has the state, and the calls that will write are those that have checked. -/
structure Mirrors (ext : String) (s : System)
    (a : CheckedWrites.State Nat MessageStatusUpdate MessageState) : Prop where
  message : ∃ msg, selectMessage s.db ext = some msg ∧ msg.state = a.value ∧
    ∀ task read u, s.tasks task = some (.mark read u) →
      read.id = msg.id ∧ (read.deliveredAt.isSome → msg.deliveredAt.isSome)
  calls : ∀ task, (s.tasks task = none ∧ a.pending task = none) ∨
    ∃ read u, s.tasks task = some (.mark read u) ∧ a.pending task = some u

/-- **A call checks and writes** as on the state alone. -/
theorem step_mirrors {ext : String} {s : System}
    {a : CheckedWrites.State Nat MessageStatusUpdate MessageState}
    {e : CheckedWrites.Event Nat MessageStatusUpdate} (h : Mirrors ext s a)
    (he : ∀ u ∈ checked [e], u.externalId = ext) :
    Option.Rel (Mirrors ext) (step s (statement e))
      (CheckedWrites.step MessageState.asks MessageState.after a e) := by
  obtain ⟨⟨msg, hmsg, hstate, hreads⟩, hcalls⟩ := h
  cases e with
  | check task u =>
    have hext : u.externalId = ext := he u (by simp [checked])
    simp only [statement, step, CheckedWrites.step, hext, hmsg, advances_eq, hstate]
    split_ifs
    · rcases hcalls task with ⟨hfree, hpending⟩ | ⟨read, w, htask, hpending⟩
      · rw [System.begin, hfree, hpending]
        refine .some ⟨⟨msg, hmsg, hstate, fun i read w hi => ?_⟩, fun i => ?_⟩
        · rcases Runs.update_eq_some hi with ⟨-, hnew⟩ | ⟨-, hold⟩
          · obtain ⟨rfl, rfl⟩ := Task.mark.inj (Option.some.inj hnew)
            exact ⟨rfl, id⟩
          · exact hreads i read w hold
        · by_cases hi : i = task
          · refine .inr ⟨msg, u, ?_, ?_⟩ <;> simp only [System.put, hi, Function.update_self]
          · simpa only [System.put, Function.update_of_ne hi] using hcalls i
      · rw [System.begin, htask, hpending]
        exact .none
    · exact .some ⟨⟨msg, hmsg, hstate, hreads⟩, hcalls⟩
  | write task =>
    rcases hcalls task with ⟨hfree, hpending⟩ | ⟨read, u, htask, hpending⟩
    · simp only [statement, step, CheckedWrites.step, hfree, hpending, Option.map_none]
      exact .none
    · simp only [statement, step, CheckedWrites.step, htask, hpending, Option.map_some]
      obtain ⟨hid, hread⟩ := hreads task read u htask
      refine .some ⟨⟨marked read u msg, selectMessage_markMessage hmsg hid, ?_, ?_⟩, fun i => ?_⟩
      · rw [state_marked hread, hstate]
      · intro i read' w hi
        rcases Runs.update_eq_some hi with ⟨-, hnone⟩ | ⟨-, hold⟩
        · cases hnone
        · obtain ⟨hid', hread'⟩ := hreads i read' w hold
          exact ⟨hid'.trans (marked_id msg).symm, fun hsome => delivered_marked (hread' hsome)⟩
      · by_cases hi : i = task
        · refine .inl ⟨?_, ?_⟩ <;> simp only [System.put, hi, Function.update_self]
        · simpa only [System.put, Function.update_of_ne hi] using hcalls i

section Calls

variable {db : Db} {ext : String} {m0 : Message} {us : List MessageStatusUpdate}
  {es : List (CheckedWrites.Event Nat MessageStatusUpdate)}

/-- What is stored of the message, as far as it is compared. -/
def storedState (db : Db) (ext : String) : Option MessageState :=
  (selectMessage db ext).map Message.state

theorem run_mirrors (hm0 : selectMessage db ext = some m0)
    (es : List (CheckedWrites.Event Nat MessageStatusUpdate))
    (hes : ∀ u ∈ checked es, u.externalId = ext) :
    Option.Rel (Mirrors ext) (Runs.run step ⟨db, fun _ => none⟩ (es.map statement))
      (Runs.run (CheckedWrites.step MessageState.asks MessageState.after)
        ⟨m0.state, fun _ => none⟩ es) := by
  refine Runs.run_rel statement (fun s a e he hmirrors => step_mirrors hmirrors fun u hu => ?_) ?_
  · refine hes u ?_
    obtain ⟨before, after, rfl⟩ := List.append_of_mem he
    rw [CheckedWrites.checked_append, show e :: after = [e] ++ after from rfl,
      CheckedWrites.checked_append]
    exact List.mem_append_right _ (List.mem_append_left _ hu)
  · exact ⟨⟨m0, hm0, rfl, fun _ _ _ h => by cases h⟩, fun _ => .inl ⟨rfl, rfl⟩⟩

/-- The calls on the message are calls on its state. -/
theorem handled_completes (hm0 : selectMessage db ext = some m0)
    (hus : ∀ u ∈ us, u.externalId = ext) {t : System} (h : Handled db us es t) :
    ∃ a, CheckedWrites.Completes MessageState.asks MessageState.after m0.state us es a ∧
      storedState t.db ext = some a.value := by
  have hmirrors := run_mirrors hm0 es fun u hu => hus u (h.updates.mem_iff.mp hu)
  rw [h.run] at hmirrors
  generalize hrun : Runs.run (CheckedWrites.step MessageState.asks MessageState.after)
    ⟨m0.state, fun _ => none⟩ es = final at hmirrors
  cases hmirrors with
  | @some _ a hend =>
    obtain ⟨⟨msg, hmsg, hstate, -⟩, hcalls⟩ := hend
    refine ⟨a, ⟨hrun, h.updates, fun task => ?_⟩, by rw [storedState, hmsg, ← hstate]; rfl⟩
    rcases hcalls task with ⟨-, hnone⟩ | ⟨read, u, htask, -⟩
    · exact hnone
    · rw [h.done task] at htask
      cases htask

theorem completes_handled (hm0 : selectMessage db ext = some m0)
    (hus : ∀ u ∈ us, u.externalId = ext)
    {a : CheckedWrites.State Nat MessageStatusUpdate MessageState}
    (h : CheckedWrites.Completes MessageState.asks MessageState.after m0.state us es a) :
    ∃ t, Handled db us es t ∧ storedState t.db ext = some a.value := by
  have hmirrors := run_mirrors hm0 es fun u hu => hus u (h.updates.mem_iff.mp hu)
  rw [h.run] at hmirrors
  generalize hrun : Runs.run step ⟨db, fun _ => none⟩ (es.map statement) = final at hmirrors
  cases hmirrors with
  | @some t _ hend =>
    obtain ⟨⟨msg, hmsg, hstate, -⟩, hcalls⟩ := hend
    refine ⟨t, ⟨hrun, h.updates, fun task => ?_⟩, by rw [storedState, hmsg, ← hstate]; rfl⟩
    rcases hcalls task with ⟨hnone, -⟩ | ⟨read, u, -, hpending⟩
    · exact hnone
    · rw [h.done task] at hpending
      cases hpending

end Calls

/-! ## When the order does not matter -/

/-- The updates that are an advance on the message, as it is before any of them, have one status;
and if that is `failed`, they give one reason at most. -/
def Agree (m0 : Message) (us : List MessageStatusUpdate) : Prop :=
  ∀ u ∈ us, advances m0 u → ∀ w ∈ us, advances m0 w → u.status = w.status ∧
    (u.status = .failed → ∀ a ∈ u.failureReason, ∀ b ∈ w.failureReason, a = b)

instance (m0 : Message) (us : List MessageStatusUpdate) : Decidable (Agree m0 us) :=
  inferInstanceAs (Decidable (∀ u ∈ us, advances m0 u → ∀ w ∈ us, advances m0 w →
    u.status = w.status ∧
      (u.status = .failed → ∀ a ∈ u.failureReason, ∀ b ∈ w.failureReason, a = b)))

theorem statusOrder_le (status : MessageDeliveryStatus) : statusOrder status ≤ 3 := by
  cases status <;> decide

theorem asks_failed (h : u.status = .failed) : v.asks u = true := by
  simp [MessageState.asks, h]

theorem asks_iff (h : u.status ≠ .failed) :
    v.asks u = true ↔ statusOrder (v.status.getD .pending) < statusOrder u.status := by
  simp [MessageState.asks, h]

/-- What is written twice is written once. -/
theorem after_again (hstatus : u.status = w.status) (hfailed : w.status ≠ .failed) :
    (v.after w).after u = v.after w := by
  simp only [MessageState.after, hstatus, if_neg hfailed]
  cases w.status <;> simp

theorem after_comm (hstatus : u.status = w.status)
    (hreasons : u.status = .failed → ∀ a ∈ u.failureReason, ∀ b ∈ w.failureReason, a = b) :
    (v.after u).after w = (v.after w).after u := by
  by_cases hfailed : u.status = .failed
  · have hor : w.failureReason.or (u.failureReason.or v.failureReason) =
        u.failureReason.or (w.failureReason.or v.failureReason) := by
      cases hu : u.failureReason with
      | none => rfl
      | some a =>
        cases hw : w.failureReason with
        | none => rfl
        | some b => rw [hreasons hfailed a hu b hw]
    simp only [MessageState.after, ← hstatus, hfailed, if_true, hor]
  · simp only [MessageState.after, ← hstatus, if_neg hfailed]

/-- Writing updates of one status leaves that status. -/
theorem status_foldl {ws : List MessageStatusUpdate} (hu : u ∈ ws)
    (hstatus : ∀ w ∈ ws, w.status = u.status) (v : MessageState) :
    ∃ (x : MessageState) (w : MessageStatusUpdate),
      ws.foldl MessageState.after v = x.after w ∧ w.status = u.status := by
  rcases List.eq_nil_or_concat ws with rfl | ⟨before, w, rfl⟩
  · cases hu
  · refine ⟨before.foldl MessageState.after v, w, ?_, hstatus w (by simp)⟩
    rw [List.concat_eq_append, List.foldl_append, List.foldl_cons, List.foldl_nil]

variable {m0 : Message} {us : List MessageStatusUpdate}

/-- What has been written of updates that agree has their status. -/
theorem Agree.foldl_cons (h : Agree m0 us) {w : MessageStatusUpdate} {ws : List MessageStatusUpdate}
    (hws : ∀ w' ∈ w :: ws, w' ∈ us ∧ m0.state.asks w' = true) :
    ∃ (x : MessageState) (w' : MessageStatusUpdate),
      (w :: ws).foldl MessageState.after m0.state = x.after w' ∧ w'.status = w.status := by
  obtain ⟨hw, hasks⟩ := hws w List.mem_cons_self
  refine status_foldl List.mem_cons_self (fun w' hw' => ?_) m0.state
  obtain ⟨hw'us, hasks'⟩ := hws w' hw'
  exact (h w' hw'us hasks' w hw hasks).1

/-- **Updates that agree settle.** -/
theorem Agree.settling (h : Agree m0 us) :
    CheckedWrites.Settling MessageState.asks MessageState.after m0.state us where
  comm u hu hasks w hw hasks' x := by
    obtain ⟨hstatus, hreasons⟩ := h u hu hasks w hw hasks'
    exact after_comm hstatus hreasons
  late ws hws u hu hasks hlate := by
    cases ws with
    | nil => rw [List.foldl_nil, hasks] at hlate; cases hlate
    | cons w ws =>
      obtain ⟨hw, hwasks⟩ := hws w List.mem_cons_self
      obtain ⟨x, w', hfold, hstatus⟩ := h.foldl_cons hws
      have hu : u.status = w'.status := (h u hu hasks w hw hwasks).1.trans hstatus.symm
      rw [hfold] at hlate ⊢
      refine after_again hu fun hfailed => ?_
      rw [asks_failed (hu.trans hfailed)] at hlate
      cases hlate
  fresh ws hws u hu hasks := by
    cases ws with
    | nil => exact hasks
    | cons w ws =>
      have hwasks := (hws w List.mem_cons_self).2
      obtain ⟨x, w', hfold, hstatus⟩ := h.foldl_cons hws
      have hu : u.status ≠ .failed := by
        intro hfailed
        rw [asks_failed hfailed] at hasks
        cases hasks
      rw [← Bool.not_eq_true, asks_iff hu] at hasks ⊢
      rw [hfold, show (x.after w').status = some w'.status from rfl, hstatus, Option.getD_some]
      -- either `w` is beyond the message, which is not before `u`, or it has failed
      by_cases hfailed : w.status = .failed
      · rw [hfailed]
        exact Nat.not_lt.mpr (statusOrder_le u.status)
      · have hlt := (asks_iff hfailed).mp hwasks
        omega

/-- The last update decides the status, and the reason it gives. -/
theorem order_last
    (hlast : ∀ ordered : List MessageStatusUpdate, ordered.Perm (us.filter m0.state.asks) →
      ordered.foldl MessageState.after m0.state = v) (hu : u ∈ us) (hasks : advances m0 u) :
    v.status = some u.status ∧
      (u.status = .failed → ∀ a ∈ u.failureReason, v.failureReason = some a) := by
  have hmem : u ∈ us.filter m0.state.asks := List.mem_filter.mpr ⟨hu, hasks⟩
  have hperm : ((us.filter m0.state.asks).erase u ++ [u]).Perm (us.filter m0.state.asks) :=
    (List.perm_append_singleton _ _).trans (List.perm_cons_erase hmem).symm
  have hfinal := hlast _ hperm
  rw [List.foldl_append, List.foldl_cons, List.foldl_nil] at hfinal
  rw [← hfinal]
  refine ⟨rfl, fun hfailed a ha => ?_⟩
  rw [MessageState.after, if_pos hfailed, Option.mem_def.mp ha]
  rfl

/-- **The order does not matter exactly if the updates agree.** -/
theorem statuses_settle_iff {db : Db} {ext : String} {m0 : Message}
    {us : List MessageStatusUpdate} (hm0 : selectMessage db ext = some m0)
    (hus : ∀ u ∈ us, u.externalId = ext) :
    (∀ es t es' t', Handled db us es t → Handled db us es' t' →
        storedState t.db ext = storedState t'.db ext) ↔ Agree m0 us := by
  constructor
  · intro hsame
    obtain ⟨es, a, hes, -⟩ := CheckedWrites.exists_complete MessageState.after
      (List.Perm.refl (us.filter m0.state.asks))
    obtain ⟨t, ht, hstored⟩ := completes_handled hm0 hus hes
    have hlast : ∀ ordered : List MessageStatusUpdate, ordered.Perm (us.filter m0.state.asks) →
        ordered.foldl MessageState.after m0.state = a.value := by
      intro ordered hordered
      obtain ⟨es', a', hes', hvalue⟩ := CheckedWrites.exists_complete MessageState.after hordered
      obtain ⟨t', ht', hstored'⟩ := completes_handled hm0 hus hes'
      have hequal := hsame es t es' t' ht ht'
      rw [hstored, hstored', hvalue] at hequal
      exact (Option.some.inj hequal).symm
    intro u hu hasks w hw hasks'
    obtain ⟨hstatus, hreason⟩ := order_last hlast hu hasks
    obtain ⟨hstatus', hreason'⟩ := order_last hlast hw hasks'
    have heq : u.status = w.status := Option.some.inj (hstatus.symm.trans hstatus')
    refine ⟨heq, fun hfailed a ha b hb => ?_⟩
    exact Option.some.inj ((hreason hfailed a ha).symm.trans (hreason' (heq ▸ hfailed) b hb))
  · intro hagree es t es' t' ht ht'
    obtain ⟨a, ha, hstored⟩ := handled_completes hm0 hus ht
    obtain ⟨a', ha', hstored'⟩ := handled_completes hm0 hus ht'
    rw [hstored, hstored', hagree.settling.value_eq ha, hagree.settling.value_eq ha']

/-- A message that has been sent. -/
def outbox : Db where
  messages := [{ id := "msg", conversationId := "chat", direction := .outbound
                 externalId := some "SM1" }]

def deliveredReceipt : MessageStatusUpdate := ⟨"SM1", .delivered, 1, none⟩

def readReceipt : MessageStatusUpdate := ⟨"SM1", .read, 2, none⟩

/-- The same receipt twice, and one of what has been. -/
theorem duplicates_settle : storedState outbox "SM1" = some ⟨some .sent, false, false, none⟩ ∧
    ∀ es t es' t',
      Handled outbox [deliveredReceipt, ⟨"SM1", .sent, 0, none⟩, deliveredReceipt] es t →
      Handled outbox [deliveredReceipt, ⟨"SM1", .sent, 0, none⟩, deliveredReceipt] es' t' →
      storedState t.db "SM1" = storedState t'.db "SM1" := by
  have hsent : selectMessage outbox "SM1" =
      some ⟨"msg", "chat", .outbound, some "SM1", some .sent, none, none, none⟩ := by decide
  refine ⟨by decide, ?_⟩
  exact (statuses_settle_iff hsent (by decide)).mpr (by decide)

/-- **A message that has been read is delivered again**: both calls have read it as sent, and the
earlier status is written last. -/
theorem read_then_delivered : ∃ t t',
    Handled outbox [deliveredReceipt, readReceipt]
      [.check 0 deliveredReceipt, .check 1 readReceipt, .write 0, .write 1] t ∧
    Handled outbox [deliveredReceipt, readReceipt]
      [.check 0 deliveredReceipt, .check 1 readReceipt, .write 1, .write 0] t' ∧
    storedState t.db "SM1" = some ⟨some .read, true, true, none⟩ ∧
    storedState t'.db "SM1" = some ⟨some .delivered, true, true, none⟩ := by
  refine ⟨_, _, ⟨rfl, by decide, fun task => ?_⟩, ⟨rfl, by decide, fun task => ?_⟩,
    by decide +kernel, by decide +kernel⟩
  · match task with
    | 0 => rfl
    | 1 => rfl
    | n + 2 => rfl
  · match task with
    | 0 => rfl
    | 1 => rfl
    | n + 2 => rfl

end Llamenos.Worker.Conversations
