import Llamenos.Worker.Conversations

/-!
# Who has claimed a conversation

`claim` asks whether the conversation is waiting and assigns it by a later statement, which does not
ask again; `tryAutoAssign` goes through `claim` as well. A conversation is waiting again when a
message comes for a closed one, or when it is given back by `update`, and either leaves the
`assignedTo` that it has.

A conversation is watched along a run: `won` are those whose claims of it have succeeded since it
was last waiting.

Results:
* `claims_settled_iff_along`: **exactly which runs** give a conversation to one at a time, its
  `assignedTo`, and to nobody while it waits.
-/

namespace Llamenos.Worker.Conversations

open Llamenos.Lib Llamenos.Lib.Counters

/-! ## Watching a conversation -/

def isWaiting (db : Db) (id : String) : Bool :=
  db.conversations.any fun row => row.id = id && row.status = .waiting

/-- Whose claim of the conversation the step answers with success. -/
def wins (s : System) (id : String) : Event → List String
  | .claimWrite task _ =>
    match s.tasks task with
    | some (.claim c pubkey) => if c = id ∧ isNew s.db id = false then [pubkey] else []
    | _ => []
  | _ => []

/-- A system, and whose claims have succeeded since the conversation was last waiting. -/
structure Watch where
  sys : System
  won : List String := []

variable (id : String)

def Watch.next (w : Watch) (e : Event) (s' : System) : Watch where
  sys := s'
  won := if isWaiting s'.db id then [] else w.won ++ wins w.sys id e

def watch (w : Watch) (e : Event) : Option Watch :=
  (step w.sys e).map (w.next id e)

/-- One has claimed the conversation at most, and holds it; while it waits, nobody does. -/
structure Settled (w : Watch) : Prop where
  once : w.won.length ≤ 1
  winner : ∀ row ∈ w.sys.db.conversations, row.id = id →
    ∀ pubkey ∈ w.won, row.assignedTo = some pubkey
  free : ∀ row ∈ w.sys.db.conversations, row.id = id → row.status = .waiting →
    row.assignedTo = none

/-- What the conversation may be set to, when those have claimed it. -/
def Fits (won : List String) (row : Conversation) : Prop :=
  if row.status = .waiting then row.assignedTo = none
  else ∀ pubkey ∈ won, row.assignedTo = some pubkey

/-- The statements that leave the conversation settled: a claim writes while nobody has claimed it
since it was waiting, nothing makes an assigned conversation wait, and no update takes it away from
who has claimed it. -/
def LeavesSettled (w : Watch) : Event → Prop
  | .claimWrite task _ =>
    match w.sys.tasks task with
    | some (.claim c _) => c = id → w.won = []
    | _ => True
  | .reopenWrite task _ =>
    match w.sys.tasks task with
    | some (.reopen _ _ conv) =>
      conv.id = id → ∀ row ∈ w.sys.db.conversations, row.id = id → row.assignedTo = none
    | _ => True
  | .updateWrite task now =>
    match w.sys.tasks task with
    | some (.update c input) =>
      c = id → ∀ row ∈ w.sys.db.conversations, row.id = id → Fits w.won (input.set now row)
    | _ => True
  | .create c input _ =>
    c = id → input.status.getD .waiting = .waiting → input.assignedTo = none
  | _ => True

/-- A conversation has one row, and nobody has claimed it before it is there. -/
structure Watched (w : Watch) : Prop where
  ids : (w.sys.db.conversations.map Conversation.id).Nodup
  unborn : isNew w.sys.db id → w.won = []

instance (won : List String) (row : Conversation) : Decidable (Fits won row) := by
  unfold Fits
  infer_instance

instance (w : Watch) (e : Event) : Decidable (LeavesSettled id w e) := by
  unfold LeavesSettled
  split
  · split <;> infer_instance
  · split <;> infer_instance
  · split <;> infer_instance
  · infer_instance
  · infer_instance

variable {id} {w w' : Watch} {s' : System} {e : Event}

theorem watch_eq_some (h : watch id w e = some w') :
    ∃ s', step w.sys e = some s' ∧ w' = w.next id e s' := by
  obtain ⟨s', hs', rfl⟩ := Option.map_eq_some_iff.mp h
  exact ⟨s', hs', rfl⟩

/-- Every run of the service can be watched. -/
theorem watch_run (id : String) {w : Watch} {t : System} {events : List Event}
    (h : Runs.run step w.sys events = some t) :
    ∃ won, Runs.run (watch id) w events = some ⟨t, won⟩ := by
  induction events generalizing w with
  | nil => exact ⟨w.won, by rw [← Option.some.inj h]; rfl⟩
  | cons e events ih =>
    obtain ⟨s', he, hrest⟩ := Runs.run_cons.mp h
    obtain ⟨won, hwon⟩ := ih (w := w.next id e s') hrest
    exact ⟨won, Runs.run_cons.mpr ⟨_, by rw [watch, he, Option.map_some], hwon⟩⟩

/-! ## One statement -/

theorem isWaiting_eq_true {db : Db} :
    isWaiting db id = true ↔ ∃ row ∈ db.conversations, row.id = id ∧ row.status = .waiting := by
  simp [isWaiting]

theorem next_won_subset (hwins : wins w.sys id e = []) : (w.next id e s').won ⊆ w.won := by
  rw [Watch.next, hwins, List.append_nil]
  split_ifs
  · exact List.nil_subset _
  · exact List.Subset.refl _

theorem next_won_length (hwins : wins w.sys id e = []) (hg : Settled id w) :
    (w.next id e s').won.length ≤ 1 := by
  rw [Watch.next, hwins, List.append_nil]
  split_ifs
  · exact Nat.zero_le 1
  · exact hg.once

/-- The rows of the conversation after the step: written, or new. -/
theorem mem_next (h : step w.sys e = some s') {row' : Conversation}
    (hrow' : row' ∈ s'.db.conversations) (hid : row'.id = id) :
    (∃ row ∈ w.sys.db.conversations, row.id = id ∧ row' = written w.sys e row) ∨
      row' ∈ added w.sys e := by
  rw [step_conversations h] at hrow'
  rcases List.mem_append.mp hrow' with hmem | hmem
  · obtain ⟨row, hrow, rfl⟩ := List.mem_map.mp hmem
    exact .inl ⟨row, hrow, (written_id row).symm.trans hid, rfl⟩
  · exact .inr hmem

theorem isNew_of_step (h : step w.sys e = some s') (hnew : isNew s'.db id) :
    isNew w.sys.db id := by
  refine List.all_eq_true.mpr fun row hrow => ?_
  have hmem : written w.sys e row ∈ s'.db.conversations := by
    rw [step_conversations h]
    exact List.mem_append_left _ (List.mem_map_of_mem hrow)
  simpa using List.all_eq_true.mp hnew _ hmem

theorem unborn_of_added (hw : Watched id w) (h : step w.sys e = some s') {row : Conversation}
    (hadded : row ∈ added w.sys e) (hid : row.id = id) : w.won = [] := by
  rcases added_cases h with hnone | ⟨new, hone, hnew⟩
  · rw [hnone] at hadded
    cases hadded
  · rw [hone, List.mem_singleton] at hadded
    refine hw.unborn (List.all_eq_true.mpr fun other hother => decide_eq_true fun hsame => hnew ?_)
    rw [← hadded, hid, ← hsame]
    exact List.mem_map_of_mem hother

theorem wins_of_isNew (hnew : isNew w.sys.db id) : wins w.sys id e = [] := by
  unfold wins
  split
  · split
    · rw [hnew]
      exact if_neg fun h => Bool.noConfusion h.2
    · rfl
  · rfl

theorem next_watched (hw : Watched id w) (h : step w.sys e = some s') :
    Watched id (w.next id e s') := by
  refine ⟨step_nodup hw.ids h, fun hnew => ?_⟩
  have hbefore := isNew_of_step h hnew
  rw [Watch.next, hw.unborn hbefore, wins_of_isNew hbefore]
  exact ite_self _

/-- A statement that does not assign the conversation, and does not make it wait. -/
theorem settled_quiet (hw : Watched id w) (hg : Settled id w) (h : step w.sys e = some s')
    (hwins : wins w.sys id e = [])
    (hsame : ∀ row ∈ w.sys.db.conversations, row.id = id →
      (written w.sys e row).assignedTo = row.assignedTo ∧
        ((written w.sys e row).status = .waiting → row.status = .waiting))
    (hadded : ∀ row ∈ added w.sys e, row.id = id → row.status = .waiting →
      row.assignedTo = none) :
    Settled id (w.next id e s') := by
  refine ⟨next_won_length hwins hg, fun row' hrow' hid pubkey hpubkey => ?_,
    fun row' hrow' hid hwaiting => ?_⟩
  · have hwon := next_won_subset hwins hpubkey
    rcases mem_next h hrow' hid with ⟨row, hrow, hrowid, rfl⟩ | hnew
    · rw [(hsame row hrow hrowid).1]
      exact hg.winner row hrow hrowid pubkey hwon
    · rw [unborn_of_added hw h hnew hid] at hwon
      cases hwon
  · rcases mem_next h hrow' hid with ⟨row, hrow, hrowid, rfl⟩ | hnew
    · rw [(hsame row hrow hrowid).1]
      exact hg.free row hrow hrowid ((hsame row hrow hrowid).2 hwaiting)
    · exact hadded row' hnew hid hwaiting

/-- A statement that sets the conversation, and is no claim. -/
theorem settled_set_iff (hw : Watched id w) (hg : Settled id w) (h : step w.sys e = some s')
    (hwins : wins w.sys id e = []) {set : Conversation → Conversation}
    (hset : ∀ row ∈ w.sys.db.conversations, row.id = id → written w.sys e row = set row)
    (hadded : added w.sys e = []) :
    Settled id (w.next id e s') ↔
      ∀ row ∈ w.sys.db.conversations, row.id = id → Fits w.won (set row) := by
  have hmem : ∀ row ∈ w.sys.db.conversations, row.id = id → set row ∈ s'.db.conversations := by
    intro row hrow hid
    rw [step_conversations h, ← hset row hrow hid]
    exact List.mem_append_left _ (List.mem_map_of_mem hrow)
  have hsetid : ∀ row ∈ w.sys.db.conversations, row.id = id → (set row).id = id := by
    intro row hrow hid
    rw [← hset row hrow hid, written_id, hid]
  have hwaiting : ∀ row ∈ w.sys.db.conversations, row.id = id →
      (isWaiting s'.db id = true ↔ (set row).status = .waiting) := by
    intro row hrow hid
    refine isWaiting_eq_true.trans ⟨?_, fun hs => ⟨_, hmem row hrow hid, hsetid row hrow hid, hs⟩⟩
    rintro ⟨row', hrow', hid', hs⟩
    rcases mem_next h hrow' hid' with ⟨other, hother, hotherid, rfl⟩ | hnew
    · rw [hset other hother hotherid] at hs
      rwa [← List.inj_on_of_nodup_map hw.ids hother hrow (hotherid.trans hid.symm)]
    · rw [hadded] at hnew
      cases hnew
  constructor
  · intro hsettled row hrow hid
    unfold Fits
    split_ifs with hs
    · exact hsettled.free _ (hmem row hrow hid) (hsetid row hrow hid) hs
    · intro pubkey hpubkey
      refine hsettled.winner _ (hmem row hrow hid) (hsetid row hrow hid) pubkey ?_
      rw [Watch.next, hwins, List.append_nil, if_neg ((hwaiting row hrow hid).not.mpr hs)]
      exact hpubkey
  · intro hfits
    have hold : ∀ row' ∈ s'.db.conversations, row'.id = id →
        ∃ row ∈ w.sys.db.conversations, row.id = id ∧ row' = set row := by
      intro row' hrow' hid
      rcases mem_next h hrow' hid with ⟨row, hrow, hrowid, rfl⟩ | hnew
      · exact ⟨row, hrow, hrowid, hset row hrow hrowid⟩
      · rw [hadded] at hnew
        cases hnew
    refine ⟨next_won_length hwins hg, fun row' hrow' hid pubkey hpubkey => ?_,
      fun row' hrow' hid hs => ?_⟩
    · obtain ⟨row, hrow, hrowid, rfl⟩ := hold row' hrow' hid
      have hfit := hfits row hrow hrowid
      by_cases hs : (set row).status = .waiting
      · rw [Watch.next, if_pos ((hwaiting row hrow hrowid).mpr hs)] at hpubkey
        cases hpubkey
      · rw [Fits, if_neg hs] at hfit
        exact hfit pubkey (next_won_subset hwins hpubkey)
    · obtain ⟨row, hrow, hrowid, rfl⟩ := hold row' hrow' hid
      have hfit := hfits row hrow hrowid
      rwa [Fits, if_pos hs] at hfit

/-- **A claim writes**: well exactly if nobody has claimed the conversation since it was waiting. -/
theorem settled_claim_iff (hw : Watched id w) (hg : Settled id w) {task : Nat} {now : Int}
    {pubkey : String} (htask : w.sys.tasks task = some (.claim id pubkey))
    (h : step w.sys (.claimWrite task now) = some s') :
    Settled id (w.next id (.claimWrite task now) s') ↔ w.won = [] := by
  have hset : ∀ row, row.id = id →
      written w.sys (.claimWrite task now) row = claimed pubkey now row := by
    intro row hid
    rw [written_claimWrite htask, if_pos hid]
  by_cases hnew : isNew w.sys.db id = true
  · refine iff_of_true ?_ (hw.unborn hnew)
    refine (settled_set_iff hw hg h (wins_of_isNew hnew) (fun row _ => hset row) rfl).mpr ?_
    intro row hrow hid
    exact absurd hid (by simpa using List.all_eq_true.mp hnew row hrow)
  · rw [Bool.not_eq_true] at hnew
    have hwins : wins w.sys id (.claimWrite task now) = [pubkey] := by
      simp only [wins, htask, hnew, and_self, if_true]
    have hrows : ∀ row' ∈ s'.db.conversations, row'.id = id →
        row'.assignedTo = some pubkey ∧ row'.status = .active := by
      intro row' hrow' hid
      rcases mem_next h hrow' hid with ⟨row, -, hrowid, rfl⟩ | hadded
      · rw [hset row hrowid]
        exact ⟨rfl, rfl⟩
      · cases hadded
    have hactive : isWaiting s'.db id = false := by
      rw [← Bool.not_eq_true, isWaiting_eq_true]
      rintro ⟨row', hrow', hid, hs⟩
      rw [(hrows row' hrow' hid).2] at hs
      cases hs
    have hwon : (w.next id (.claimWrite task now) s').won = w.won ++ [pubkey] := by
      rw [Watch.next, hactive, hwins]
      rfl
    constructor
    · intro hsettled
      have honce := hsettled.once
      rw [hwon, List.length_append, List.length_singleton] at honce
      exact List.length_eq_zero_iff.mp (by omega)
    · intro hnone
      rw [hnone] at hwon
      refine ⟨by rw [hwon]; rfl, fun row' hrow' hid p hp => ?_, fun row' hrow' hid hs => ?_⟩
      · rw [hwon, List.nil_append, List.mem_singleton] at hp
        rw [hp]
        exact (hrows row' hrow' hid).1
      · rw [(hrows row' hrow' hid).2] at hs
        cases hs

theorem fits_reopened {won : List String} {now : Int} {row : Conversation} :
    Fits won (reopened now row) ↔ row.assignedTo = none := Iff.of_eq (if_pos rfl)

/-- A step keeps the conversation settled exactly if it is one that leaves it so. -/
theorem next_settled_iff (hw : Watched id w) (hg : Settled id w) (h : step w.sys e = some s') :
    Settled id (w.next id e s') ↔ LeavesSettled id w e := by
  cases e with
  | create c input now =>
    by_cases hc : c = id
    · have hnew : isNew w.sys.db id = true := by
        rw [step] at h
        split_ifs at h with hnew
        exact hc ▸ hnew
      have hwins : wins w.sys id (.create c input now) = [] := rfl
      have hmem : create c input now ∈ s'.db.conversations := by
        rw [step_conversations h]
        exact List.mem_append_right _ (List.mem_singleton_self _)
      refine ⟨fun hsettled _ hs => hsettled.free _ hmem hc hs, fun hfree => ?_⟩
      refine settled_quiet hw hg h hwins (fun row _ _ => ⟨rfl, fun hs => hs⟩) ?_
      intro row hrow _ hs
      obtain rfl := List.mem_singleton.mp hrow
      exact hfree hc hs
    · refine iff_of_true ?_ fun hid => absurd hid hc
      refine settled_quiet hw hg h rfl (fun row _ _ => ⟨rfl, fun hs => hs⟩) fun row hrow hid _ => ?_
      obtain rfl := List.mem_singleton.mp hrow
      exact absurd hid hc
  | updateWrite task now =>
    obtain ⟨c, input, htask, -⟩ := step_updateWrite h
    simp only [LeavesSettled, htask]
    by_cases hc : c = id
    · refine (settled_set_iff hw hg h rfl (fun row _ hid => ?_) rfl).trans
        ⟨fun hfits _ => hfits, fun hfits => hfits hc⟩
      rw [written_updateWrite htask, if_pos (hid.trans hc.symm)]
    · refine iff_of_true ?_ fun hid => absurd hid hc
      refine settled_quiet hw hg h rfl (fun row _ hid => ?_) fun _ hrow => by cases hrow
      rw [written_updateWrite htask, if_neg fun hrow => hc (hrow.symm.trans hid)]
      exact ⟨rfl, fun hs => hs⟩
  | claimWrite task now =>
    obtain ⟨c, pubkey, htask, -⟩ := step_claimWrite h
    simp only [LeavesSettled, htask]
    by_cases hc : c = id
    · subst hc
      exact (settled_claim_iff hw hg htask h).trans
        ⟨fun hnone _ => hnone, fun hnone => hnone rfl⟩
    · refine iff_of_true ?_ fun hid => absurd hid hc
      have hwins : wins w.sys id (.claimWrite task now) = [] := by
        simp only [wins, htask, hc, false_and, if_false]
      refine settled_quiet hw hg h hwins (fun row _ hid => ?_) fun _ hrow => by cases hrow
      rw [written_claimWrite htask, if_neg fun hrow => hc (hrow.symm.trans hid)]
      exact ⟨rfl, fun hs => hs⟩
  | reopenWrite task now =>
    obtain ⟨hub, incoming, conv, htask, -⟩ := step_reopenWrite h
    simp only [LeavesSettled, htask]
    by_cases hc : conv.id = id
    · have hset : ∀ row ∈ w.sys.db.conversations, row.id = id →
          written w.sys (.reopenWrite task now) row = reopened now row := by
        intro row _ hid
        rw [written_reopenWrite htask, if_pos (hid.trans hc.symm)]
      refine (settled_set_iff hw hg h rfl hset rfl).trans ?_
      simp only [fits_reopened, hc, true_imp_iff]
    · refine iff_of_true ?_ fun hid => absurd hid hc
      refine settled_quiet hw hg h rfl (fun row _ hid => ?_) fun _ hrow => by cases hrow
      rw [written_reopenWrite htask, if_neg fun hrow => hc (hrow.symm.trans hid)]
      exact ⟨rfl, fun hs => hs⟩
  | createWrite task c now =>
    obtain ⟨hub, hubId, incoming, htask, -⟩ := step_createWrite h
    refine iff_of_true ?_ trivial
    refine settled_quiet hw hg h rfl (fun row _ _ => ⟨rfl, fun hs => hs⟩) fun row hrow _ _ => ?_
    simp only [added, htask, List.mem_singleton] at hrow
    rw [hrow]
    rfl
  | autoCloseInactive cutoff now =>
    refine iff_of_true ?_ trivial
    refine settled_quiet hw hg h rfl (fun row _ _ => ?_) fun _ hrow => by cases hrow
    simp only [written, autoClosed]
    split_ifs
    · exact ⟨rfl, fun hs => by cases hs⟩
    · exact ⟨rfl, fun hs => hs⟩
  | touch task now =>
    obtain ⟨c, htask, -⟩ := step_touch h
    refine iff_of_true ?_ trivial
    refine settled_quiet hw hg h rfl (fun row _ _ => ?_) fun _ hrow => by cases hrow
    rw [written_touch htask]
    split_ifs
    · exact ⟨rfl, fun hs => hs⟩
    · exact ⟨rfl, fun hs => hs⟩
  | _ =>
    refine iff_of_true ?_ trivial
    exact settled_quiet hw hg h rfl (fun _ _ _ => ⟨rfl, fun hs => hs⟩) fun _ hrow => by cases hrow

/-! ## Every run -/

/-- **One claim at a time**, in exactly the runs whose statements leave the conversation settled:
there at most one claim succeeds from one moment when the conversation is waiting to the next, the
conversation is assigned to that one, and to nobody while it is waiting. -/
theorem claims_settled_iff_along (id : String) {s t : System} {events : List Event}
    (hids : (s.db.conversations.map Conversation.id).Nodup)
    (hfree : ∀ row ∈ s.db.conversations, row.id = id → row.status = .waiting →
      row.assignedTo = none)
    (hrun : Runs.run step s events = some t) :
    (∀ before after w, events = before ++ after →
        Runs.run (watch id) ⟨s, []⟩ before = some w → Settled id w) ↔
      Runs.Along (watch id) (LeavesSettled id) ⟨s, []⟩ events := by
  obtain ⟨won, hwatched⟩ := watch_run id (w := ⟨s, []⟩) hrun
  refine Runs.inv_iff_along (I := Watched id) ?_ ?_ ⟨hids, fun _ => rfl⟩ ?_ hwatched
  · intro w e w' hw h
    obtain ⟨s', hs', rfl⟩ := watch_eq_some h
    exact next_watched hw hs'
  · intro w e w' hw hg h
    obtain ⟨s', hs', rfl⟩ := watch_eq_some h
    exact next_settled_iff hw hg hs'
  · exact ⟨Nat.zero_le 1, (fun _ _ _ _ hp => by cases hp), hfree⟩

/-- A conversation that waits. -/
def queue : System where
  db :=
    { conversations :=
        [{ id := "chat", hubId := none, channelType := .messaging .sms
           contactIdentifierHash := "sender", updatedAt := 0, lastMessageAt := some 0 }] }

/-- It is claimed, given back, and claimed by another. -/
def turns : List Event :=
  [.claim 0 "chat" "ann", .claimWrite 0 1,
    .update 0 "chat" { status := some .waiting, assignedTo := some none }, .updateWrite 0 2,
    .claim 0 "chat" "ben", .claimWrite 0 3]

theorem turns_settled : ∃ t, Runs.run step queue turns = some t ∧
    ∀ before after w, turns = before ++ after →
      Runs.run (watch "chat") ⟨queue, []⟩ before = some w → Settled "chat" w := by
  have hrun : (Runs.run step queue turns).isSome := by decide +kernel
  obtain ⟨t, ht⟩ := Option.isSome_iff_exists.mp hrun
  refine ⟨t, ht, ?_⟩
  exact (claims_settled_iff_along "chat" (by decide) (by decide) ht).mpr (by decide +kernel)

/-- Two claims, each of which reads the conversation before the other writes it. -/
def overlapped : List Event :=
  [.claim 0 "chat" "ann", .claim 1 "chat" "ben", .claimWrite 0 1, .claimWrite 1 2]

/-- It is claimed and closed, and a message comes for it. -/
def answeredLater : List Event :=
  [.claim 0 "chat" "ann", .claimWrite 0 1, .update 0 "chat" { status := some .closed },
    .updateWrite 0 2,
    .webhook 0 none ⟨.sms, "1", "sender"⟩ (some
      { id := "chat", hubId := none, channelType := .messaging .sms, assignedTo := some "ann"
        contactIdentifierHash := "sender", status := .closed, updatedAt := 2
        lastMessageAt := some 0 }),
    .reopenWrite 0 3]

/-- **Two claims succeed** from one waiting conversation, and **a conversation that is reopened
waits with the one it was assigned to**. -/
theorem claimed_twice :
    (∃ w ∈ Runs.run (watch "chat") ⟨queue, []⟩ overlapped, w.won = ["ann", "ben"] ∧
      ¬ Settled "chat" w) ∧
    ∃ w ∈ Runs.run (watch "chat") ⟨queue, []⟩ answeredLater,
      (∃ row ∈ w.sys.db.conversations, row.id = "chat" ∧ row.status = .waiting ∧
        row.assignedTo = some "ann") ∧ ¬ Settled "chat" w := by
  constructor
  · have hrun : ∃ w ∈ Runs.run (watch "chat") ⟨queue, []⟩ overlapped, w.won = ["ann", "ben"] := by
      decide +kernel
    obtain ⟨w, hw, hwon⟩ := hrun
    refine ⟨w, hw, hwon, fun h => ?_⟩
    have honce := h.once
    rw [hwon] at honce
    exact absurd honce (by decide)
  · have hrun : ∃ w ∈ Runs.run (watch "chat") ⟨queue, []⟩ answeredLater,
        ∃ row ∈ w.sys.db.conversations, row.id = "chat" ∧ row.status = .waiting ∧
          row.assignedTo = some "ann" := by
      decide +kernel
    obtain ⟨w, hw, row, hrow, hid, hwaiting, hassigned⟩ := hrun
    refine ⟨w, hw, ⟨row, hrow, hid, hwaiting, hassigned⟩, fun h => ?_⟩
    rw [h.free row hrow hid hwaiting] at hassigned
    cases hassigned

end Llamenos.Worker.Conversations
