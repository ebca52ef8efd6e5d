import Llamenos.Lib.UniqueIndex
import Llamenos.Worker.Conversations
import Mathlib

/-!
# Where an inbound message goes

`handleIncoming` looks for a conversation of the hub that it is given, the channel and the sender,
and makes one where there is none. The router gives it no hub, whatever the webhook's URL names:
what comes through it goes to conversations of no hub. Two first messages of one sender may both
find no conversation before either makes one, as nothing in the schema forbids two.

Results:
* `sorted_iff_along`: **exactly which runs** store every message in a conversation of the hub it has
  come for, with one conversation that is not closed for each hub, channel and sender.
-/

namespace Llamenos.Worker.Conversations

open Llamenos.Lib Llamenos.Lib.UniqueIndex

/-! ## What is stored where -/

/-- A message that has come through the webhook, with the hub that its URL names, and the
conversation it is stored in. -/
structure Stored where
  hub : Option String
  conversationId : String
  deriving DecidableEq

/-- What the step stores of what has come through the webhook. -/
def stores (s : System) : Event → List Stored
  | .addMessage task id =>
    match s.tasks task with
    | some (.add hub input) =>
      match insertMessage s.db input id with
      | .ok _ => [⟨hub, input.conversationId⟩]
      | .error _ => []
    | _ => []
  | _ => []

/-- The sender that a conversation is open for, if it is not closed. -/
def openKey (row : Conversation) : Option (Option String × Channel × String) :=
  if row.status = .closed then none else some row.sender

/-- The conversations of a hub, a channel and a sender that are not closed. -/
def openConversations (db : Db) (sender : Option String × Channel × String) : List Conversation :=
  db.conversations.filter fun row => openKey row = some sender

/-- Every message is where its hub is, and a sender has one open conversation. -/
structure Sorted (s : System) (ms : List Stored) : Prop where
  hub : ∀ m ∈ ms, ∀ row ∈ s.db.conversations, row.id = m.conversationId → row.hubId = m.hub
  one : ∀ sender, (openConversations s.db sender).length ≤ 1

/-- No open conversation is of the sender. -/
def Vacant (db : Db) (sender : Option String × Channel × String) : Prop :=
  ∀ row ∈ db.conversations, row.sender = sender → row.status = .closed

/-- No open conversation but this is of its sender. -/
def Alone (db : Db) (id : String) : Prop :=
  ∀ row ∈ db.conversations, row.id = id →
    ∀ other ∈ db.conversations, other.id ≠ id → other.sender = row.sender → other.status = .closed

/-- The statements that keep the messages sorted: a message is stored that has come for no hub, or
is refused, and a conversation is made or opened while its sender has no other that is open. -/
def KeepsSorted (s : System) : Event → Prop
  | .addMessage task id =>
    match s.tasks task with
    | some (.add hub input) => admits s.db (input.message id) → hub = none
    | _ => True
  | .create id input now =>
    input.status.getD .waiting ≠ .closed → Vacant s.db (create id input now).sender
  | .createWrite task _ _ =>
    match s.tasks task with
    | some (.create _ hubId incoming) =>
      Vacant s.db (hubId, .messaging incoming.channelType, incoming.senderIdentifierHash)
    | _ => True
  | .reopenWrite task _ =>
    match s.tasks task with
    | some (.reopen _ _ conv) => Alone s.db conv.id
    | _ => True
  | .claimWrite task _ =>
    match s.tasks task with
    | some (.claim id _) => Alone s.db id
    | _ => True
  | .updateWrite task _ =>
    match s.tasks task with
    | some (.update id input) =>
      (∃ row ∈ s.db.conversations, row.id = id ∧ input.status.getD row.status ≠ .closed) →
        Alone s.db id
    | _ => True
  | _ => True

instance (db : Db) (sender : Option String × Channel × String) : Decidable (Vacant db sender) :=
  inferInstanceAs (Decidable (∀ row ∈ db.conversations, row.sender = sender → row.status = .closed))

instance (db : Db) (id : String) : Decidable (Alone db id) :=
  inferInstanceAs (Decidable (∀ row ∈ db.conversations, row.id = id → ∀ other ∈ db.conversations,
    other.id ≠ id → other.sender = row.sender → other.status = .closed))

instance (s : System) (e : Event) : Decidable (KeepsSorted s e) := by
  induction e using Event.casesOn <;> unfold KeepsSorted
  case addMessage | createWrite | reopenWrite | claimWrite | updateWrite =>
    dsimp only
    generalize s.tasks _ = t
    induction t using Option.casesOn with
    | none => exact instDecidableTrue
    | some t => induction t using Task.casesOn <;> dsimp only <;> infer_instance
  all_goals infer_instance

/-! ## What comes through the webhook has no hub -/

/-- A conversation of no hub. -/
def IsGlobal (db : Db) (id : String) : Prop :=
  ∃ row ∈ db.conversations, row.id = id ∧ row.hubId = none

/-- What a call of `handleIncoming` has found, or will make, is of no hub. -/
def Task.Global (db : Db) : Task → Prop
  | .reopen _ _ conv => IsGlobal db conv.id
  | .create _ hubId _ => hubId = none
  | .add _ input => IsGlobal db input.conversationId
  | _ => True

/-- A conversation has one row; what the webhook's calls write to is of no hub. -/
structure Routed (s : System) (ms : List Stored) : Prop where
  ids : (s.db.conversations.map Conversation.id).Nodup
  tasks : ∀ i t, s.tasks i = some t → t.Global s.db
  stored : ∀ m ∈ ms, IsGlobal s.db m.conversationId

variable {s s' : System} {e : Event} {ms : List Stored}

theorem IsGlobal.step {id : String} (h : IsGlobal s.db id) (hstep : step s e = some s') :
    IsGlobal s'.db id := by
  obtain ⟨row, hrow, hid, hhub⟩ := h
  refine ⟨written s e row, ?_, by rw [written_id, hid], ?_⟩
  · rw [step_conversations hstep]
    exact List.mem_append_left _ (List.mem_map_of_mem hrow)
  · rw [written_same Conversation.hubId (fun _ _ _ _ _ _ => rfl), hhub]

theorem Task.Global.step {t : Task} (h : t.Global s.db) (hstep : Conversations.step s e = some s') :
    t.Global s'.db := by
  cases t with
  | reopen => exact IsGlobal.step h hstep
  | create => exact h
  | add => exact IsGlobal.step h hstep
  | _ => trivial

theorem isGlobal_of_unique (hids : (s.db.conversations.map Conversation.id).Nodup) {id : String}
    (h : IsGlobal s.db id) {row : Conversation} (hrow : row ∈ s.db.conversations)
    (hid : row.id = id) : row.hubId = none := by
  obtain ⟨other, hother, hotherid, hhub⟩ := h
  rwa [List.inj_on_of_nodup_map hids hrow hother (hid.trans hotherid.symm)]

/-- What the lookup of `handleIncoming` finds without a hub is of no hub. -/
theorem handleIncoming_global {db : Db} {hub : Option String} {incoming : IncomingMessage}
    {found : Option Conversation} (h : isLatest db none incoming found) :
    (handleIncoming hub none incoming found).Global db := by
  cases found with
  | none => exact rfl
  | some conv =>
    simp only [isLatest, matchesSender, Bool.and_eq_true, decide_eq_true_eq,
      List.contains_iff_mem, Option.filter_none] at h
    have hglobal : IsGlobal db conv.id := ⟨conv, h.1.1, rfl, h.1.2.2⟩
    rw [handleIncoming]
    split_ifs
    · exact hglobal
    · exact hglobal

/-- A task that a step puts in place is of no hub, with the others. -/
theorem tasks_put {db : Db} {task : Nat} {entry : Option Task}
    (h : ∀ i t, s.tasks i = some t → t.Global db) (hentry : ∀ t, entry = some t → t.Global db) :
    ∀ i t, (s.put task entry db).tasks i = some t → t.Global db := by
  intro i t hi
  rcases Runs.update_eq_some hi with ⟨-, hnew⟩ | ⟨-, hold⟩
  · exact hentry t hnew
  · exact h i t hold

theorem tasks_begin {task : Nat} {t : Task} (h : ∀ i t, s.tasks i = some t → t.Global s'.db)
    (hbegin : s.begin task t = some s') (ht : t.Global s'.db) :
    ∀ i t, s'.tasks i = some t → t.Global s'.db := by
  obtain ⟨-, rfl⟩ := begin_eq_some hbegin
  exact tasks_put h fun u hu => Option.some.inj hu ▸ ht

/-- Every task stays of no hub. -/
theorem step_tasks (h : ∀ i t, s.tasks i = some t → t.Global s.db) (hstep : step s e = some s') :
    ∀ i t, s'.tasks i = some t → t.Global s'.db := by
  have hold : ∀ i t, s.tasks i = some t → t.Global s'.db :=
    fun i t hi => Task.Global.step (h i t hi) hstep
  have hend : ∀ t : Task, (none : Option Task) = some t → t.Global s'.db :=
    fun _ ht => by cases ht
  cases e with
  | create id input now =>
    rw [step] at hstep
    split_ifs at hstep
    rwa [← Option.some.inj hstep] at hold ⊢
  | update task id _ | claim task id _ | autoAssign task id _ =>
    rw [step] at hstep
    split at hstep
    · exact Option.some.inj hstep ▸ h
    · exact tasks_begin hold hstep trivial
  | updateWrite task now =>
    obtain ⟨id, input, -, rfl⟩ := step_updateWrite hstep
    exact tasks_put hold hend
  | claimWrite task now =>
    obtain ⟨id, pubkey, -, rfl⟩ := step_claimWrite hstep
    exact tasks_put hold hend
  | assign task =>
    rw [step] at hstep
    split at hstep
    · split at hstep
      · obtain rfl := Option.some.inj hstep
        exact tasks_put hold hend
      · obtain rfl := Option.some.inj hstep
        exact tasks_put hold fun t ht => Option.some.inj ht ▸ trivial
    · cases hstep
  | autoCloseInactive cutoff now => rwa [← Option.some.inj hstep] at hold ⊢
  | sendMessage task id input =>
    rw [step] at hstep
    split at hstep
    · exact Option.some.inj hstep ▸ h
    · obtain ⟨-, rfl⟩ := begin_eq_some hstep
      exact tasks_put (s := { s with db := _ }) hold fun t ht => Option.some.inj ht ▸ trivial
  | updateMessageStatus task update =>
    rw [step] at hstep
    split at hstep
    · exact Option.some.inj hstep ▸ h
    · split_ifs at hstep
      · exact tasks_begin hold hstep trivial
      · exact Option.some.inj hstep ▸ h
  | markWrite task =>
    rw [step] at hstep
    split at hstep
    · obtain rfl := Option.some.inj hstep
      exact tasks_put hold hend
    · cases hstep
  | webhook task hub incoming found =>
    rw [step] at hstep
    split_ifs at hstep with hlatest
    obtain ⟨-, rfl⟩ := begin_eq_some hstep
    exact tasks_put hold fun t ht => Option.some.inj ht ▸ handleIncoming_global hlatest
  | reopenWrite task now =>
    obtain ⟨hub, incoming, conv, htask, hs'⟩ := step_reopenWrite hstep
    have hglobal : IsGlobal s'.db conv.id := hold task _ htask
    subst hs'
    exact tasks_put hold fun t ht => Option.some.inj ht ▸ hglobal
  | createWrite task id now =>
    obtain ⟨hub, hubId, incoming, htask, -, rfl⟩ := step_createWrite hstep
    refine tasks_put hold fun t ht => Option.some.inj ht ▸ ?_
    exact ⟨_, List.mem_append_right _ (List.mem_singleton_self _), rfl, hold task _ htask⟩
  | addMessage task id =>
    obtain ⟨hub, input, -, ⟨error, -, rfl⟩ | ⟨db, -, rfl⟩⟩ := step_addMessage hstep
    · exact tasks_put hold hend
    · exact tasks_put hold fun t ht => Option.some.inj ht ▸ trivial
  | touch task now =>
    obtain ⟨id, -, rfl⟩ := step_touch hstep
    exact tasks_put hold hend

/-- What is stored goes where the call was to add it. -/
theorem stores_cases (hstep : step s e = some s') :
    stores s e = [] ∨ ∃ task id hub input, e = .addMessage task id ∧
      s.tasks task = some (.add hub input) ∧ stores s e = [⟨hub, input.conversationId⟩] := by
  cases e with
  | addMessage task id =>
    obtain ⟨hub, input, htask, hinsert⟩ := step_addMessage hstep
    rcases hinsert with ⟨error, herror, -⟩ | ⟨db, hok, -⟩
    · exact .inl (by simp only [stores, htask, herror])
    · exact .inr ⟨task, id, hub, input, rfl, htask, by simp only [stores, htask, hok]⟩
  | _ => exact .inl rfl

theorem step_routed (h : Routed s ms) (hstep : step s e = some s') :
    Routed s' (ms ++ stores s e) := by
  refine ⟨step_nodup h.ids hstep, step_tasks h.tasks hstep, fun m hm => ?_⟩
  rcases List.mem_append.mp hm with hm | hm
  · exact (h.stored m hm).step hstep
  · rcases stores_cases hstep with hnone | ⟨task, id, hub, input, -, htask, hone⟩
    · rw [hnone] at hm
      cases hm
    · rw [hone, List.mem_singleton] at hm
      subst hm
      exact IsGlobal.step (h.tasks task _ htask) hstep

/-! ## One statement -/

theorem openKey_eq_some {row : Conversation} {sender : Option String × Channel × String} :
    openKey row = some sender ↔ row.status ≠ .closed ∧ row.sender = sender := by
  unfold openKey
  split_ifs with hclosed <;> simp [hclosed]

theorem vacant_iff {db : Db} {sender : Option String × Channel × String} :
    Vacant db sender ↔ ∀ other ∈ db.conversations, openKey other ≠ some sender := by
  refine forall₂_congr fun row _ => ?_
  rw [ne_eq, openKey_eq_some, not_and', not_not]

/-- A step keeps the messages sorted if what it stores has come for no hub, and no two open
conversations are of one sender after it. -/
theorem sorted_iff (hr : Routed s ms) (hg : Sorted s ms) (hstep : step s e = some s') :
    Sorted s' (ms ++ stores s e) ↔ (∀ m ∈ stores s e, m.hub = none) ∧
      Unique Conversation.id openKey s'.db.conversations := by
  have hr' := step_routed hr hstep
  constructor
  · intro h
    refine ⟨fun m hm => ?_, (unique_iff_length_le hr'.ids).mpr h.one⟩
    have hmem : m ∈ ms ++ stores s e := List.mem_append_right _ hm
    obtain ⟨row, hrow, hid, hhub⟩ := hr'.stored m hmem
    exact (h.hub m hmem row hrow hid).symm.trans hhub
  · rintro ⟨hhub, hunique⟩
    refine ⟨fun m hm row hrow hid => ?_, (unique_iff_length_le hr'.ids).mp hunique⟩
    rw [isGlobal_of_unique hr'.ids (hr'.stored m hm) hrow hid]
    rcases List.mem_append.mp hm with hold | hnew
    · obtain ⟨before, hbefore, hid', hnone⟩ := hr.stored m hold
      rw [← hnone, hg.hub m hold before hbefore hid']
    · exact (hhub m hnew).symm

theorem unique_of_sorted (hr : Routed s ms) (hg : Sorted s ms) :
    Unique Conversation.id openKey s.db.conversations :=
  (unique_iff_length_le hr.ids).mpr hg.one

/-- A statement that opens no conversation. -/
theorem unique_quiet (h : Unique Conversation.id openKey s.db.conversations)
    (hstep : step s e = some s') (hadded : added s e = [])
    (hkeys : ∀ row k, openKey (written s e row) = some k → openKey row = some k) :
    Unique Conversation.id openKey s'.db.conversations := by
  rw [step_conversations hstep, hadded, List.append_nil]
  exact h.map written_id fun row _ => hkeys row

/-- A statement that adds a conversation. -/
theorem unique_added_iff (h : Unique Conversation.id openKey s.db.conversations)
    (hstep : step s e = some s') (hwritten : ∀ row, written s e row = row) {row : Conversation}
    (hadded : added s e = [row]) :
    Unique Conversation.id openKey s'.db.conversations ↔
      (row.status ≠ .closed → Vacant s.db row.sender) := by
  have hnew : row.id ∉ s.db.conversations.map Conversation.id := by
    rcases added_cases hstep with hnone | ⟨other, hone, hother⟩
    · rw [hadded] at hnone
      cases hnone
    · rw [hadded] at hone
      rwa [(List.cons.inj hone).1]
  rw [step_conversations hstep, hadded, List.map_congr_left fun row _ => hwritten row, List.map_id',
    unique_concat_iff hnew, and_iff_right h]
  constructor
  · intro hfree hopen
    exact vacant_iff.mpr (hfree row.sender (openKey_eq_some.mpr ⟨hopen, rfl⟩))
  · intro hvacant k hk
    obtain ⟨hopen, rfl⟩ := openKey_eq_some.mp hk
    exact vacant_iff.mp (hvacant hopen)

/-- A statement that sets a conversation. -/
theorem unique_set_iff (h : Unique Conversation.id openKey s.db.conversations)
    (hstep : step s e = some s') (hadded : added s e = []) {id : String}
    {set : Conversation → Conversation}
    (hwritten : ∀ row, written s e row = if row.id = id then set row else row) :
    Unique Conversation.id openKey s'.db.conversations ↔
      ∀ row ∈ s.db.conversations, row.id = id → (set row).status ≠ .closed →
        ∀ other ∈ s.db.conversations, other.id ≠ id → other.sender = row.sender →
          other.status = .closed := by
  have hother : ∀ row ∈ s.db.conversations, row.id ≠ id →
      openKey (written s e row) = openKey row := by
    intro row _ hid
    rw [hwritten, if_neg hid]
  rw [step_conversations hstep, hadded, List.append_nil, unique_map_iff h written_id hother]
  refine forall₃_congr fun row _ hid => ?_
  have hsender : (set row).sender = row.sender := by
    rw [← written_sender (s := s) (e := e) row, hwritten, if_pos hid]
  rw [hwritten, if_pos hid]
  constructor
  · intro hfree hopen other hmem hne hsame
    by_contra hotheropen
    refine hfree _ (openKey_eq_some.mpr ⟨hopen, rfl⟩) other hmem hne ?_
    exact openKey_eq_some.mpr ⟨hotheropen, hsame.trans hsender.symm⟩
  · intro halone k hk other hmem hne hkey
    obtain ⟨hopen, rfl⟩ := openKey_eq_some.mp hk
    obtain ⟨hotheropen, hsame⟩ := openKey_eq_some.mp hkey
    exact hotheropen (halone hopen other hmem hne (hsame.trans hsender))

/-- A statement that opens a conversation. -/
theorem unique_open_iff (h : Unique Conversation.id openKey s.db.conversations)
    (hstep : step s e = some s') (hadded : added s e = []) {id : String}
    {set : Conversation → Conversation}
    (hwritten : ∀ row, written s e row = if row.id = id then set row else row)
    (hopen : ∀ row, (set row).status ≠ .closed) :
    Unique Conversation.id openKey s'.db.conversations ↔ Alone s.db id := by
  rw [unique_set_iff h hstep hadded hwritten]
  exact forall₃_congr fun row _ _ => imp_iff_right (hopen row)

/-- A step keeps the messages sorted exactly if it is one that does. -/
theorem step_sorted_iff (hr : Routed s ms) (hg : Sorted s ms) (hstep : step s e = some s') :
    Sorted s' (ms ++ stores s e) ↔ KeepsSorted s e := by
  have hunique := unique_of_sorted hr hg
  have hsame : ∀ row k, openKey row = some k → openKey row = some k := fun _ _ hk => hk
  have hnothing : ∀ m ∈ ([] : List Stored), m.hub = none := fun _ hm => by cases hm
  rw [sorted_iff hr hg hstep]
  cases e with
  | create id input now =>
    exact (and_iff_right hnothing).trans (unique_added_iff hunique hstep (fun _ => rfl) rfl)
  | createWrite task id now =>
    obtain ⟨hub, hubId, incoming, htask, -⟩ := step_createWrite hstep
    simp only [KeepsSorted, htask]
    refine (and_iff_right hnothing).trans ((unique_added_iff hunique hstep (fun _ => rfl)
      (added_createWrite htask id now)).trans ?_)
    exact imp_iff_right fun hclosed => by cases hclosed
  | updateWrite task now =>
    obtain ⟨id, input, htask, -⟩ := step_updateWrite hstep
    simp only [KeepsSorted, htask]
    refine (and_iff_right hnothing).trans
      ((unique_set_iff hunique hstep rfl (written_updateWrite htask now)).trans ?_)
    constructor
    · rintro h ⟨row, hrow, hid, hopen⟩ other hother hotherid
      obtain rfl := List.inj_on_of_nodup_map hr.ids hrow hother (hid.trans hotherid.symm)
      exact h row hrow hid hopen
    · intro h row hrow hid hopen
      exact h ⟨row, hrow, hid, hopen⟩ row hrow hid
  | claimWrite task now =>
    obtain ⟨id, pubkey, htask, -⟩ := step_claimWrite hstep
    simp only [KeepsSorted, htask]
    refine (and_iff_right hnothing).trans
      (unique_open_iff hunique hstep rfl (written_claimWrite htask now) ?_)
    exact fun _ hclosed => by cases hclosed
  | reopenWrite task now =>
    obtain ⟨hub, incoming, conv, htask, -⟩ := step_reopenWrite hstep
    simp only [KeepsSorted, htask]
    refine (and_iff_right hnothing).trans
      (unique_open_iff hunique hstep rfl (written_reopenWrite htask now) ?_)
    exact fun _ hclosed => by cases hclosed
  | autoCloseInactive cutoff now =>
    refine iff_of_true ⟨hnothing, unique_quiet hunique hstep rfl fun row k hk => ?_⟩ trivial
    simp only [written, autoClosed] at hk
    split_ifs at hk
    · exact absurd rfl (openKey_eq_some.mp hk).1
    · exact hk
  | touch task now =>
    obtain ⟨id, htask, -⟩ := step_touch hstep
    refine iff_of_true ⟨hnothing, unique_quiet hunique hstep rfl fun row k hk => ?_⟩ trivial
    rw [written_touch htask] at hk
    split_ifs at hk
    · exact hk
    · exact hk
  | addMessage task id =>
    obtain ⟨hub, input, htask, -⟩ := step_addMessage hstep
    have hconversations := unique_quiet hunique hstep rfl hsame
    obtain ⟨row, hrow, hid, -⟩ := hr.tasks task _ htask
    simp only [KeepsSorted, stores, htask]
    rw [and_iff_left hconversations]
    have hfound : ∃ conv, getById s.db input.conversationId = .ok conv := by
      rw [getById]
      cases hfind : s.db.conversations.find? fun row => row.id = input.conversationId with
      | some conv => exact ⟨conv, rfl⟩
      | none => exact absurd hid (by simpa using List.find?_eq_none.mp hfind row hrow)
    obtain ⟨conv, hconv⟩ := hfound
    rw [insertMessage, hconv]
    dsimp only
    split_ifs with hadmits <;> simp [hadmits]
  | _ => exact iff_of_true ⟨hnothing, unique_quiet hunique hstep rfl hsame⟩ trivial

/-! ## Every run -/

/-- **Every message is where its hub is, and a sender has one open conversation**, in exactly the
runs in which what the webhooks store has come for no hub, and a conversation is made or opened only
while its sender has no other that is open. -/
theorem sorted_iff_along {db : Db} {t : System} {events : List Event}
    (hids : (db.conversations.map Conversation.id).Nodup)
    (hone : ∀ sender, (openConversations db sender).length ≤ 1)
    (hrun : Runs.run step ⟨db, fun _ => none⟩ events = some t) :
    (∀ before after m, events = before ++ after →
        Runs.run step ⟨db, fun _ => none⟩ before = some m →
        Sorted m (Runs.emitted step stores ⟨db, fun _ => none⟩ before)) ↔
      Runs.Along step KeepsSorted ⟨db, fun _ => none⟩ events := by
  refine Runs.always_iff_along stores (I := Routed) (G := Sorted) ?_ ?_ [] ?_ ?_ hrun
  · exact fun s ms e s' hr hstep => step_routed hr hstep
  · exact fun s ms e s' hr hg hstep => step_sorted_iff hr hg hstep
  · exact ⟨hids, (fun _ _ h => by cases h), fun _ hm => by cases hm⟩
  · exact ⟨(fun _ hm => by cases hm), hone⟩

/-- Two senders write, and one of them again after the conversation has been closed. -/
def correspondence : List Event :=
  [.webhook 0 none ⟨.sms, "1", "ann"⟩ none, .createWrite 0 "a" 1, .addMessage 0 "m1", .touch 0 1,
    .webhook 0 none ⟨.sms, "2", "ben"⟩ none, .createWrite 0 "b" 2, .addMessage 0 "m2", .touch 0 2,
    .update 0 "a" { status := some .closed }, .updateWrite 0 3,
    .webhook 0 none ⟨.sms, "3", "ann"⟩ (some
      { id := "a", hubId := none, channelType := .messaging .sms, contactIdentifierHash := "ann"
        status := .closed, updatedAt := 3, lastMessageAt := some 1, messageCount := 1 }),
    .reopenWrite 0 4, .addMessage 0 "m3", .touch 0 4]

theorem correspondence_sorted : ∃ t, Runs.run step ⟨{}, fun _ => none⟩ correspondence = some t ∧
    ∀ before after m, correspondence = before ++ after →
      Runs.run step ⟨{}, fun _ => none⟩ before = some m →
      Sorted m (Runs.emitted step stores ⟨{}, fun _ => none⟩ before) := by
  have hrun : (Runs.run step ⟨{}, fun _ => none⟩ correspondence).isSome := by decide +kernel
  obtain ⟨t, ht⟩ := Option.isSome_iff_exists.mp hrun
  have hids : (({} : Db).conversations.map Conversation.id).Nodup := List.nodup_nil
  exact ⟨t, ht, (sorted_iff_along hids (fun _ => Nat.zero_le 1) ht).mpr (by decide +kernel)⟩

/-- A message comes for a hub. -/
def forHub : List Event :=
  [.webhook 0 (some "hub") ⟨.sms, "1", "ann"⟩ none, .createWrite 0 "a" 1, .addMessage 0 "m1"]

/-- Two first messages, each of which finds no conversation before the other makes one. -/
def firstTwo : List Event :=
  [.webhook 0 none ⟨.sms, "1", "ann"⟩ none, .webhook 1 none ⟨.sms, "2", "ann"⟩ none,
    .createWrite 0 "a" 1, .createWrite 1 "b" 2]

/-- **A message for a hub is stored in a conversation of no hub**, and **a sender has two open
conversations** after two first messages. -/
theorem inbound_misfiled :
    (∃ t ∈ Runs.run step ⟨{}, fun _ => none⟩ forHub,
      ¬ Sorted t (Runs.emitted step stores ⟨{}, fun _ => none⟩ forHub)) ∧
    ∃ t ∈ Runs.run step ⟨{}, fun _ => none⟩ firstTwo,
      ¬ Sorted t (Runs.emitted step stores ⟨{}, fun _ => none⟩ firstTwo) := by
  constructor
  · have hrun : ∃ t ∈ Runs.run step ⟨{}, fun _ => none⟩ forHub,
        ∃ row ∈ t.db.conversations, row.id = "a" ∧ row.hubId = none := by decide +kernel
    have hstored : ⟨some "hub", "a"⟩ ∈ Runs.emitted step stores ⟨{}, fun _ => none⟩ forHub := by
      decide +kernel
    obtain ⟨t, ht, row, hrow, hid, hhub⟩ := hrun
    refine ⟨t, ht, fun h => ?_⟩
    rw [h.hub _ hstored row hrow hid] at hhub
    cases hhub
  · have hrun : ∃ t ∈ Runs.run step ⟨{}, fun _ => none⟩ firstTwo,
        (openConversations t.db (none, .messaging .sms, "ann")).length = 2 := by decide +kernel
    obtain ⟨t, ht, htwo⟩ := hrun
    refine ⟨t, ht, fun h => ?_⟩
    have hone := h.one (none, .messaging .sms, "ann")
    rw [htwo] at hone
    exact absurd hone (by decide)

end Llamenos.Worker.Conversations
