import Llamenos.Worker.Calls.Answers

/-!
# From the active calls to the history

A call leaves `active_calls` by `endCall`, which copies the row it deletes, `answeredBy` included,
or by the sweep of `getActiveCalls`, which writes a record from the row as it was when the sweep
read it, and without an `answeredBy`. Both are transactions, so the call is always in exactly one
of the two tables. But the sweep loses an answer: one that is accepted after the sweep has read the
call, which is then recorded as unanswered, and one to a call in progress for too long.

Results:
* `step_life`: a call is active, with its answer, or has a record; a step keeps that.
* `history_iff`: **the call is in one table and its answer is kept exactly if no sweep that has read
  the call finds it answered**, and no call ends that was answered under the empty key.
* `answer_lost`: a sweep and an answer, after which the call is unanswered.
-/

namespace Llamenos.Worker.Calls

open Llamenos.Lib

variable {callId : String} {s s' : System} {e : Event} {as : List Answer}

/-! ## Where a call is -/

/-- A call in exactly one of the two tables. -/
def InOneTable (callId : String) (db : Db) : Prop :=
  (db.activeCalls callId).isSome ≠ (db.callRecords callId).isSome

/-- An accepted answer is held by the active row, or by a record that is not of an unanswered
call. -/
def Kept (callId : String) (db : Db) (answer : Answer) : Prop :=
  (∃ row, db.activeCalls callId = some row ∧ row.answeredBy = some answer.pubkey) ∨
    ∃ record, db.callRecords callId = some record ∧ record.answeredBy = some answer.pubkey ∧
      record.status ≠ .unanswered

/-- What is known of a call at any time: while it is active it has no record, and holds the one
answer that it may have had. -/
inductive Life (callId : String) (s : System) (as : List Answer) : Prop where
  | unanswered (has : answersTo callId as = []) (status : CallStatus)
      (ha : activeView s.db callId = some (status, none)) (hr : recordView s.db callId = none)
  | answered (a : Answer) (has : answersTo callId as = [a]) (status : CallStatus)
      (hstatus : status ≠ .ringing) (ha : activeView s.db callId = some (status, some a.pubkey))
      (hr : recordView s.db callId = none)
  | ended (ha : activeView s.db callId = none) (hr : (recordView s.db callId).isSome)

theorem answersTo_append (bs : List Answer) :
    answersTo callId (as ++ bs) = answersTo callId as ++ answersTo callId bs :=
  List.filter_append ..

/-- **The life of a call**, one step. -/
theorem step_life (hs : Life callId s as) (h : step s e = some s') :
    Life callId s' (as ++ answers s e) := by
  cases step_view callId h with
  | same hnone ha hr =>
    have hsame : answersTo callId (as ++ answers s e) = answersTo callId as := by
      rw [answersTo_append, hnone, List.append_nil]
    cases hs with
    | unanswered has status ha₀ hr₀ =>
      exact .unanswered (hsame.trans has) status (ha.trans ha₀) (hr.trans hr₀)
    | answered a has status hstatus ha₀ hr₀ =>
      exact .answered a (hsame.trans has) status hstatus (ha.trans ha₀) (hr.trans hr₀)
    | ended ha₀ hr₀ => exact .ended (ha.trans ha₀) (hr ▸ hr₀)
  | answered a hone v ha ha' hr =>
    cases hs with
    | unanswered has _ _ hr₀ =>
      refine .answered a ?_ .inProgress (fun h => by cases h) ha' (hr.trans hr₀)
      rw [answersTo_append, has, hone, List.nil_append]
    | answered b _ status hstatus ha₀ =>
      have hv := Option.some.inj (ha₀.symm.trans ha)
      exact absurd (congrArg Prod.fst hv) hstatus
    | ended ha₀ => rw [ha₀] at ha; cases ha
  | spam hnone v ha ha' hr =>
    have hsame : answersTo callId (as ++ answers s e) = answersTo callId as := by
      rw [answersTo_append, hnone, List.append_nil]
    cases hs with
    | unanswered has _ ha₀ hr₀ =>
      obtain rfl := Option.some.inj (ha₀.symm.trans ha)
      exact .unanswered (hsame.trans has) .spam ha' (hr.trans hr₀)
    | answered a has _ _ ha₀ hr₀ =>
      obtain rfl := Option.some.inj (ha₀.symm.trans ha)
      exact .answered a (hsame.trans has) .spam (fun h => by cases h) ha' (hr.trans hr₀)
    | ended ha₀ => rw [ha₀] at ha; cases ha
  | ended _ _ _ _ _ _ _ _ _ _ ha' hr' => exact .ended ha' (by rw [hr']; rfl)
  | swept _ _ _ _ _ _ call _ ha' hr' =>
    exact .ended ha' (by rw [hr']; cases recordView s.db callId <;> rfl)

/-! ## What keeps an answer -/

/-- A step that loses no answer to the call: no sweep that has read the call finds it answered, and
no call ends that was answered under the empty key, which `endCall` takes for no answer. -/
def Keeps (callId : String) (s : System) : Event → Prop
  | .endCall hubId c _ _ _ => c = callId → ∀ row, s.db.activeCalls callId = some row →
      row.hubId = some hubId → row.answeredBy ≠ some ""
  | .moveStale task _ => ∀ stale, s.tasks task = some (.sweep stale) → (stale callId).isSome →
      ∀ row, s.db.activeCalls callId = some row → row.answeredBy = none
  | _ => True

theorem kept_iff_view {db : Db} {a : Answer} :
    Kept callId db a ↔ (∃ status, activeView db callId = some (status, some a.pubkey)) ∨
      ∃ status, recordView db callId = some (status, some a.pubkey) ∧ status ≠ .unanswered := by
  refine or_congr ⟨?_, ?_⟩ ⟨?_, ?_⟩
  · rintro ⟨row, hrow, hkey⟩
    exact ⟨row.status, by rw [activeView, hrow, Option.map_some, hkey]⟩
  · rintro ⟨status, h⟩
    obtain ⟨row, hrow, hview⟩ := Option.map_eq_some_iff.mp h
    exact ⟨row, hrow, congrArg Prod.snd hview⟩
  · rintro ⟨record, hrecord, hkey, hstatus⟩
    exact ⟨record.status, by rw [recordView, hrecord, Option.map_some, hkey], hstatus⟩
  · rintro ⟨status, h, hstatus⟩
    obtain ⟨record, hrecord, hview⟩ := Option.map_eq_some_iff.mp h
    refine ⟨record, hrecord, congrArg Prod.snd hview, ?_⟩
    rwa [show record.status = status from congrArg Prod.fst hview]

theorem inOneTable_of_view {db : Db}
    (h : (activeView db callId).isSome ≠ (recordView db callId).isSome) :
    InOneTable callId db := by
  rwa [activeView, recordView, Option.isSome_map, Option.isSome_map] at h

theorem Life.inOneTable (hs : Life callId s as) : InOneTable callId s.db := by
  refine inOneTable_of_view ?_
  cases hs with
  | unanswered _ _ ha hr => simp [ha, hr]
  | answered _ _ _ _ ha hr => simp [ha, hr]
  | ended ha hr => simp [ha, hr]

/-- The call's answers are kept. -/
def AllKept (callId : String) (s : System) (as : List Answer) : Prop :=
  ∀ a ∈ answersTo callId as, Kept callId s.db a
variable {v : CallStatus × Option String}

theorem Life.kept_of_active (hs : Life callId s as)
    (hactive : activeView s.db callId = some v) : AllKept callId s as := by
  intro b hb
  cases hs with
  | unanswered has => rw [has] at hb; cases hb
  | answered a has status _ ha =>
    rw [has, List.mem_singleton] at hb
    exact kept_iff_view.mpr (.inl ⟨status, hb ▸ ha⟩)
  | ended ha => rw [ha] at hactive; cases hactive

theorem Life.no_record (hs : Life callId s as)
    (hactive : activeView s.db callId = some v) : recordView s.db callId = none := by
  cases hs with
  | unanswered _ _ _ hr => exact hr
  | answered _ _ _ _ _ hr => exact hr
  | ended ha => rw [ha] at hactive; cases hactive

theorem gone_of_end {hubId content : String} {envelopes : List String} {now : Int}
    (h : step s (.endCall hubId callId content envelopes now) = some s') {row : ActiveCall}
    (hrow : s.db.activeCalls callId = some row) (hhub : row.hubId = some hubId)
    (hr : recordView s.db callId = none) : activeView s'.db callId = none := by
  have hcall : (s.db.activeCalls callId).filter (fun row => row.hubId = some hubId) = some row :=
    Option.filter_eq_some_iff.mpr ⟨hrow, decide_eq_true hhub⟩
  have hrecord : s.db.callRecords callId = none := Option.map_eq_none_iff.mp hr
  simp only [step, endCall, hcall, hrecord, Option.some.injEq] at h
  subst h
  simp only [activeView, Function.update_self, Option.map_none]

theorem gone_of_sweep {task : Nat} {now : Int} (h : step s (.moveStale task now) = some s')
    {stale : String → Option ActiveCall} (htask : s.tasks task = some (.sweep stale))
    (hstale : (stale callId).isSome) : activeView s'.db callId = none := by
  simp only [step, htask, Option.some.injEq] at h
  subst h
  simp only [System.finish, activeView, moveStale, hstale, if_true, Option.map_none]

/-- A step after which the call is active has lost nothing. -/
theorem keeps_of_active (h : step s e = some s') (hr : recordView s.db callId = none)
    (hactive : activeView s'.db callId = some v) :
    Keeps callId s e := by
  cases e with
  | endCall hubId c content envelopes now =>
    rintro rfl row hrow hhub
    rw [gone_of_end h hrow hhub hr] at hactive
    cases hactive
  | moveStale task now =>
    intro stale htask hstale
    rw [gone_of_sweep h htask hstale] at hactive
    cases hactive
  | _ => trivial

/-- A call that is over has nothing to lose. -/
theorem keeps_of_gone (ha : activeView s.db callId = none) (e : Event) : Keeps callId s e := by
  have hnone : s.db.activeCalls callId = none := Option.map_eq_none_iff.mp ha
  cases e with
  | endCall =>
    intro _ row hrow
    rw [hnone] at hrow
    cases hrow
  | moveStale =>
    intro _ _ _ row hrow
    rw [hnone] at hrow
    cases hrow
  | _ => trivial

theorem allKept_congr (hanswers : answersTo callId (as ++ answers s e) = answersTo callId as)
    (ha : activeView s'.db callId = activeView s.db callId)
    (hr : recordView s'.db callId = recordView s.db callId) :
    AllKept callId s' (as ++ answers s e) ↔ AllKept callId s as := by
  rw [AllKept, AllKept, hanswers]
  refine forall_congr' fun a => forall_congr' fun _ => ?_
  rw [kept_iff_view, kept_iff_view, ha, hr]

/-- **Which steps keep an answer.** -/
theorem step_kept_iff (hs : Life callId s as) (hkept : AllKept callId s as)
    (h : step s e = some s') : AllKept callId s' (as ++ answers s e) ↔ Keeps callId s e := by
  have hs' := step_life hs h
  cases step_view callId h with
  | same hnone ha hr =>
    have hsame : answersTo callId (as ++ answers s e) = answersTo callId as := by
      rw [answersTo_append, hnone, List.append_nil]
    refine iff_of_true ((allKept_congr hsame ha hr).mpr hkept) ?_
    cases hs with
    | unanswered _ _ ha₀ hr₀ => exact keeps_of_active h hr₀ (ha.trans ha₀)
    | answered _ _ _ _ ha₀ hr₀ => exact keeps_of_active h hr₀ (ha.trans ha₀)
    | ended ha₀ => exact keeps_of_gone ha₀ e
  | answered _ _ _ ha ha' _ =>
    exact iff_of_true (hs'.kept_of_active ha') (keeps_of_active h (hs.no_record ha) ha')
  | spam _ _ ha ha' _ =>
    exact iff_of_true (hs'.kept_of_active ha') (keeps_of_active h (hs.no_record ha) ha')
  | ended hnone hubId _ _ _ he hhub v ha _ ha' hr' =>
    subst he
    rw [AllKept, answersTo_append, hnone, List.append_nil]
    cases hs with
    | unanswered has _ ha₀ =>
      refine iff_of_true (fun a ha => by rw [has] at ha; cases ha) ?_
      rintro - row hrow - hkey
      rw [activeView, hrow, Option.map_some, Option.some.injEq] at ha₀
      exact absurd (hkey.symm.trans (congrArg Prod.snd ha₀)) (by simp)
    | answered a has _ _ ha₀ =>
      obtain rfl := Option.some.inj (ha₀.symm.trans ha)
      obtain ⟨row, hrow, hview⟩ := Option.map_eq_some_iff.mp ha₀
      have hkey : row.answeredBy = some a.pubkey := congrArg Prod.snd hview
      rw [has]
      constructor
      · intro hkept _ row' hrow' _ hempty
        obtain rfl := Option.some.inj (hrow.symm.trans hrow')
        have hpubkey : a.pubkey = "" := Option.some.inj (hkey.symm.trans hempty)
        rcases kept_iff_view.mp (hkept a (List.mem_singleton_self a)) with
          ⟨_, hactive⟩ | ⟨status, hrecord, hstatus⟩
        · rw [ha'] at hactive
          cases hactive
        · rw [hr', hpubkey] at hrecord
          exact hstatus (congrArg Prod.fst (Option.some.inj hrecord)).symm
      · intro hkeeps b hb
        have hne : a.pubkey ≠ "" := by
          intro hpubkey
          exact hkeeps rfl row hrow (hhub row hrow) (by rw [hkey, hpubkey])
        rw [List.mem_singleton.mp hb]
        refine kept_iff_view.mpr (.inr ⟨.completed, ?_, fun h => by cases h⟩)
        rw [hr', if_neg (by simpa using hne)]
    | ended ha₀ => rw [ha₀] at ha; cases ha
  | swept hnone task _ stale he htask call hcall ha' hr' =>
    subst he
    rw [AllKept, answersTo_append, hnone, List.append_nil]
    cases hs with
    | unanswered has _ ha₀ =>
      refine iff_of_true (fun a ha => by rw [has] at ha; cases ha) ?_
      intro _ _ _ row hrow
      rw [activeView, hrow, Option.map_some, Option.some.injEq] at ha₀
      exact congrArg Prod.snd ha₀
    | answered a has _ _ ha₀ hr₀ =>
      obtain ⟨row, hrow, hview⟩ := Option.map_eq_some_iff.mp ha₀
      have hkey : row.answeredBy = some a.pubkey := congrArg Prod.snd hview
      rw [has]
      refine iff_of_false (fun hkept => ?_) fun hkeeps => ?_
      · rw [hr₀, Option.none_or] at hr'
        rcases kept_iff_view.mp (hkept a (List.mem_singleton_self a)) with
          ⟨_, hactive⟩ | ⟨status, hrecord, -⟩
        · rw [ha'] at hactive
          cases hactive
        · rw [hr'] at hrecord
          cases congrArg Prod.snd (Option.some.inj hrecord)
      · have hnot := hkeeps stale htask (by rw [hcall]; rfl) row hrow
        rw [hkey] at hnot
        cases hnot
    | ended ha₀ hr₀ =>
      refine iff_of_true (fun a ha => ?_) (keeps_of_gone ha₀ _)
      obtain ⟨record, hrecord⟩ := Option.isSome_iff_exists.mp hr₀
      have hstays : recordView s'.db callId = recordView s.db callId := by
        rw [hr', hrecord, Option.some_or]
      rw [kept_iff_view, ha', hstays, ← ha₀]
      exact kept_iff_view.mp (hkept a ha)

/-! ## Runs -/

/-- A call that is active and unanswered, and has no record. -/
structure Arrived (callId : String) (db : Db) : Prop where
  active : ∃ row, db.activeCalls callId = some row ∧ row.answeredBy = none
  fresh : db.callRecords callId = none

theorem Arrived.life (h : Arrived callId s.db) : Life callId s [] := by
  obtain ⟨row, hrow, hunanswered⟩ := h.active
  refine .unanswered rfl row.status ?_ ?_
  · rw [activeView, hrow, Option.map_some, hunanswered]
  · rw [recordView, h.fresh, Option.map_none]

/-- **A call is always in one table.** -/
theorem run_inOneTable {t : System} {events : List Event} (hstart : Arrived callId s.db)
    (hrun : Runs.run step s events = some t) : InOneTable callId t.db :=
  (Runs.run_emitted (I := Life callId) (fun _ _ _ _ hs h => step_life hs h) [] hstart.life
    hrun).inOneTable

theorem forall_answersTo {P : Answer → Prop} :
    (∀ a ∈ answersTo callId as, P a) ↔ ∀ a ∈ as, a.callId = callId → P a := by
  simp only [answersTo, List.mem_filter, decide_eq_true_eq, and_imp]

/-- **A call is in one table all along, and its answers are kept, exactly if every step keeps
them.** -/
theorem history_iff {t : System} {events : List Event} (hstart : Arrived callId s.db)
    (hrun : Runs.run step s events = some t) :
    (∀ before after m, events = before ++ after → Runs.run step s before = some m →
        InOneTable callId m.db ∧ ∀ a ∈ Runs.emitted step answers s before,
          a.callId = callId → Kept callId m.db a) ↔
      Runs.Along step (Keeps callId) s events := by
  refine Iff.trans ?_ (Runs.always_iff_along answers (fun _ _ _ _ hs h => step_life hs h)
    (fun _ _ _ _ hs hkept h => step_kept_iff hs hkept h) [] hstart.life
    (fun a ha => by cases ha) hrun)
  constructor
  · intro h before after m hevents hbefore
    exact forall_answersTo.mpr (h before after m hevents hbefore).2
  · intro h before after m hevents hbefore
    exact ⟨run_inOneTable hstart hbefore, forall_answersTo.mp (h before after m hevents hbefore)⟩

/-- A call that has rung for more than three minutes is answered after a sweep has read it. -/
def answeredInSweep : List Event :=
  [.selectActive 0 "hub" 200000, .answerCall "hub" "call" "amy" 200001, .moveStale 0 200002]

/-- A call is answered, and swept after more than two hours. -/
def sweptInProgress : List Event :=
  [.answerCall "hub" "call" "amy" 1000, .selectActive 0 "hub" 7200001, .moveStale 0 7200002]

/-- The run ends with an accepted answer to the call, and a record of that status without it. -/
def Loses (status : RecordStatus) (events : List Event) : Prop :=
  Runs.emitted step answers (start ringing) events = [⟨"call", "amy", none⟩] ∧
    ∃ m, Runs.run step (start ringing) events = some m ∧ m.db.activeCalls "call" = none ∧
      ∃ record, m.db.callRecords "call" = some record ∧ record.status = status ∧
        record.answeredBy = none ∧ ¬ Kept "call" m.db ⟨"call", "amy", none⟩

/-- The sweep records the call as unanswered, or as completed by nobody. -/
theorem answer_lost : Loses .unanswered answeredInSweep ∧ Loses .completed sweptInProgress := by
  refine ⟨⟨rfl, _, rfl, rfl, _, rfl, rfl, rfl, ?_⟩, ⟨rfl, _, rfl, rfl, _, rfl, rfl, rfl, ?_⟩⟩
  · rintro (⟨row, hrow, -⟩ | ⟨record, hrecord, hkey, -⟩)
    · cases hrow
    · cases hrecord
      cases hkey
  · rintro (⟨row, hrow, -⟩ | ⟨record, hrecord, hkey, -⟩)
    · cases hrow
    · cases hrecord
      cases hkey

/-- A call is answered and ends. -/
def answeredCall : List Event :=
  [.answerCall "hub" "call" "amy" 1000, .endCall "hub" "call" "" [] 61000]

theorem answeredCall_kept :
    ∃ m, Runs.run step (start ringing) answeredCall = some m ∧
      Kept "call" m.db ⟨"call", "amy", none⟩ := by
  have hkeeps : Runs.Along step (Keeps "call") (start ringing) answeredCall := by
    refine ⟨trivial, fun s hs => ?_⟩
    obtain rfl := Option.some.inj hs
    refine ⟨fun _ row hrow _ hkey => ?_, fun _ _ => trivial⟩
    cases hrow
    simp at hkey
  refine ⟨_, rfl, ?_⟩
  have hstart : Arrived "call" (start ringing).db := ⟨⟨_, rfl, rfl⟩, rfl⟩
  exact ((history_iff hstart rfl).mpr hkeeps answeredCall [] _ (List.append_nil _).symm rfl).2 _
    (List.mem_singleton_self _) rfl

end Llamenos.Worker.Calls
