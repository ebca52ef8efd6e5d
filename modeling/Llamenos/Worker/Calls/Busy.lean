import Llamenos.Lib.Histories
import Llamenos.Worker.Calls

/-!
# The busy users

`getBusyPubkeys` of `CallsService` takes for busy who is named by a row of `active_calls` in
progress. A call is in progress from the answer that is accepted until it leaves the table, by
`endCall`, by the sweep or with its hub, and for no longer than two hours; `reportSpam` writes
another status over that.

Results:
* `callStep_fate`, `Fate.tells`: what a row says of the answer to its call, and a step keeps.
* `mem_getBusyPubkeys_iff`: who is busy, as the history tells it.
* `busy_iff`: **a user is busy exactly while on a call, if not all of the user's calls have been
  reported as spam**.
* `spam_frees`: a call that is reported while it is in progress.
-/

namespace Llamenos.Worker.Calls

open Llamenos.Lib Llamenos.Lib.Histories Llamenos.Lib.Runs

/-! ## The query -/

/-- What the query of `getBusyPubkeys` selects. -/
def isInProgress (now : Int) (row : ActiveCall) : Bool :=
  row.status = .inProgress && decide (now - IN_PROGRESS_TTL_MS ≤ row.startedAt)

/-- `getBusyPubkeys`, over the rows of `active_calls`. -/
def getBusyPubkeys (rows : List ActiveCall) (now : Int) : List String :=
  (((rows.filter (isInProgress now)).filterMap ActiveCall.answeredBy).filter fun pubkey =>
    pubkey ≠ "").eraseDups

theorem mem_getBusyPubkeys {rows : List ActiveCall} {now : Int} {pubkey : String} :
    pubkey ∈ getBusyPubkeys rows now ↔ pubkey ≠ "" ∧
      ∃ row ∈ rows, isInProgress now row = true ∧ row.answeredBy = some pubkey := by
  unfold getBusyPubkeys
  simp only [List.mem_eraseDups, List.mem_filter, List.mem_filterMap, decide_eq_true_eq]
  constructor
  · rintro ⟨⟨row, ⟨hrow, hprogress⟩, hkey⟩, hne⟩
    exact ⟨hne, row, hrow, hprogress, hkey⟩
  · rintro ⟨hne, row, hrow, hprogress, hkey⟩
    exact ⟨⟨row, ⟨hrow, hprogress⟩, hkey⟩, hne⟩

/-- The rows of `active_calls`, in some order. -/
def Lists (db : Db) (rows : List ActiveCall) : Prop :=
  ∀ row, row ∈ rows ↔ ∃ callId, db.activeCalls callId = some row

/-! ## Calls that come and go -/

/-- The methods, `addCall`, and the statements of `reset` and of the deletion of a hub. -/
inductive CallEvent where
  | addCall (hubId callId callerNumber : String) (callerLast4 : Option String)
      (status : Option CallStatus) (now : Int)
  | method (e : Event)
  | deleteActive (hubId : String)
  | deleteRecords (hubId : String)
  | deleteTokens (before : Int)

def deleteActive (db : Db) (hubId : String) : Db :=
  { db with activeCalls := fun callId =>
      (db.activeCalls callId).filter fun row => decide (row.hubId ≠ some hubId) }

def deleteRecords (db : Db) (hubId : String) : Db :=
  { db with callRecords := fun callId =>
      (db.callRecords callId).filter fun row => decide (row.hubId ≠ some hubId) }

def deleteTokens (db : Db) (before : Int) : Db :=
  { db with callTokens := fun token =>
      (db.callTokens token).filter fun row => decide (before ≤ row.createdAt) }

def callStep (s : System) : CallEvent → Option System
  | .addCall hubId callId callerNumber callerLast4 status now =>
    match addCall s.db hubId callId callerNumber callerLast4 status now with
    | some db => some { s with db := db }
    | none => some s
  | .method e => step s e
  | .deleteActive hubId => some { s with db := deleteActive s.db hubId }
  | .deleteRecords hubId => some { s with db := deleteRecords s.db hubId }
  | .deleteTokens before => some { s with db := deleteTokens s.db before }

/-- What a history has of calls: an accepted answer, a report as spam, and the calls that have
left the table in a step. -/
inductive Happening where
  | answered (a : Answer)
  | reported (callId : String)
  | ended (gone : String → Bool)

/-- The call that a step reports as spam. -/
def reports (s : System) : Event → List String
  | .reportSpam hubId callId _ =>
    match (s.db.activeCalls callId).filter fun row => row.hubId = some hubId with
    | some _ => [callId]
    | none => []
  | _ => []

/-- The calls that were in the table and are not after the step. -/
def gone (s s' : System) (callId : String) : Bool :=
  (s.db.activeCalls callId).isSome && (s'.db.activeCalls callId).isNone

def happenings (s : System) (e : CallEvent) : List Happening :=
  let ends := ((callStep s e).map fun s' => .ended (gone s s')).toList
  match e with
  | .method e => (answers s e).map .answered ++ (reports s e).map .reported ++ ends
  | _ => ends

/-! ## Purpose -/

/-- The call has left the table. -/
def Ends (callId : String) : Happening → Prop
  | .ended gone => gone callId = true
  | _ => False

/-- An answer of the user to the call was accepted. -/
def Answers (callId pubkey : String) : Happening → Prop
  | .answered a => a.callId = callId ∧ a.pubkey = pubkey
  | _ => False

/-- The user has answered the call, which has not ended since. -/
def OnCall (history : List Happening) (callId pubkey : String) : Prop :=
  Since (fun _ => Answers callId pubkey) (Ends callId) history

/-- The call has not been reported as spam since, either. -/
def Unreported (history : List Happening) (callId pubkey : String) : Prop :=
  Since (fun _ => Answers callId pubkey) (fun w => Ends callId w ∨ w = .reported callId) history

/-- A call that is old is no longer in progress. -/
def InTime (db : Db) (now : Int) (callId : String) : Prop :=
  ∃ row, db.activeCalls callId = some row ∧ now - IN_PROGRESS_TTL_MS ≤ row.startedAt

/-- The user's accepted answer is on a call that is still in progress. -/
def Busy (db : Db) (history : List Happening) (now : Int) (pubkey : String) : Prop :=
  ∃ callId, OnCall history callId pubkey ∧ InTime db now callId

section Facts

variable {db : Db} {s s' : System} {e : Event} {c callId pubkey : String} {history : List Happening}
  {v : Option String} {cond : ActiveCall → Bool} {set : ActiveCall → ActiveCall}

/-! ## Reports -/

theorem reported_view (h : step s e = some s') (hreports : callId ∈ reports s e) :
    answers s e = [] ∧ ∃ v, activeView s.db callId = some v ∧
      activeView s'.db callId = some (.spam, v.2) := by
  cases e with
  | reportSpam hubId c pubkey =>
    obtain rfl := Option.some.inj h
    refine ⟨rfl, ?_⟩
    cases hrow : (s.db.activeCalls c).filter fun row => row.hubId = some hubId with
    | none =>
      simp only [reports, hrow, List.not_mem_nil] at hreports
    | some row =>
      simp only [reports, hrow, List.mem_singleton] at hreports
      obtain ⟨hactive, hhub⟩ := Option.filter_eq_some_iff.mp hrow
      subst hreports
      refine ⟨(row.status, row.answeredBy), by rw [activeView, hactive, Option.map_some], ?_⟩
      dsimp only
      rw [reportSpam, updateActive, hactive]
      dsimp only
      rw [if_pos hhub, activeView_update, if_pos rfl]
  | _ => cases hreports

/-- An `UPDATE` that marks no call as spam. -/
theorem spam_of_update
    (hset : ∀ row, (set row).status = .spam →
      row.status = .spam ∧ (set row).answeredBy = row.answeredBy)
    (hv : activeView (updateActive db c cond set).1 callId = some (.spam, v)) :
    activeView db callId = some (.spam, v) := by
  rcases updateActive_cases db c cond set with h | ⟨row, hrow, -, h⟩
  · rwa [h] at hv
  · rw [h, activeView_update] at hv
    split_ifs at hv with hc
    · obtain ⟨hstatus, hkey⟩ := Prod.mk.inj (Option.some.inj hv)
      obtain ⟨hspam, hsame⟩ := hset row hstatus
      rw [hc, activeView, hrow, Option.map_some, hspam, ← hkey, hsame]
    · exact hv

theorem view_of_subtable {db' : Db} {w : CallStatus × Option String}
    (hsub : ∀ row, db'.activeCalls callId = some row → db.activeCalls callId = some row)
    (hv : activeView db' callId = some w) : activeView db callId = some w := by
  obtain ⟨row, hrow, rfl⟩ := Option.map_eq_some_iff.mp hv
  rw [activeView, hsub row hrow, Option.map_some]

/-- No step but a report marks a call as spam. -/
theorem spam_of_view (h : step s e = some s') (hreports : callId ∉ reports s e)
    (hv : activeView s'.db callId = some (.spam, v)) :
    activeView s.db callId = some (.spam, v) := by
  cases e with
  | answerCall hubId c pubkey now =>
    obtain rfl := Option.some.inj h
    exact spam_of_update (fun _ hspam => by cases hspam) hv
  | createCallToken token callSid volunteerPubkey hubId now =>
    rw [step] at h
    cases hissued : s.issued token with
    | some _ => rw [hissued] at h; cases h
    | none =>
      rw [hissued] at h
      obtain rfl := Option.some.inj h
      exact hv
  | selectToken task token now =>
    rw [step] at h
    cases hrow : selectToken s.db token now with
    | none =>
      rw [hrow] at h
      obtain rfl := Option.some.inj h
      exact hv
    | some row =>
      rw [hrow] at h
      rwa [begin_db h] at hv
  | claimCall task now =>
    rw [step] at h
    rcases htask : s.tasks task with _ | _ | ⟨token, row⟩ | _ <;> rw [htask] at h
    all_goals try cases h
    exact spam_of_update (fun _ hspam => by cases hspam) hv
  | endCall hubId c content envelopes now =>
    rw [step, endCall] at h
    rcases hcall : (s.db.activeCalls c).filter (fun row => row.hubId = some hubId) with _ | call <;>
      rcases hrecord : s.db.callRecords c with _ | record <;>
      simp only [hcall, hrecord, Option.some.injEq] at h <;> subst h
    · exact hv
    · exact hv
    · refine view_of_subtable (fun row hrow => ?_) hv
      by_cases hc : callId = c
      · simp only [hc, Function.update_self] at hrow
        cases hrow
      · simpa only [Function.update_of_ne hc] using hrow
    · exact hv
  | markVoicemail task hubId c =>
    rw [step] at h
    rcases hmark : markVoicemailActive s.db hubId c with ⟨db', _ | row⟩ <;> rw [hmark] at h
    · rwa [begin_db h] at hv
    · obtain rfl := Option.some.inj h
      rw [show db' = (updateActive s.db c (fun row => row.hubId = some hubId)
          fun row => { row with hasVoicemail := some true }).1 from
        (congrArg Prod.fst hmark).symm] at hv
      exact spam_of_update (fun row hspam => by exact ⟨hspam, rfl⟩) hv
  | markVoicemailHistory task =>
    rw [step] at h
    rcases htask : s.tasks task with _ | _ | _ | ⟨hubId, c⟩ <;> rw [htask] at h
    all_goals try cases h
    simp only [markVoicemailHistory] at h
    rcases hrow : (s.db.callRecords c).filter (fun row => row.hubId = some hubId) with _ | row <;>
      rw [hrow] at h <;> obtain rfl := Option.some.inj h <;> exact hv
  | updateMetadata hubId c data =>
    obtain rfl := Option.some.inj h
    dsimp only [updateMetadata] at hv
    exact spam_of_update (fun row hspam => by exact ⟨hspam, rfl⟩) hv
  | reportSpam hubId c pubkey =>
    obtain rfl := Option.some.inj h
    dsimp only [reportSpam] at hv
    rcases updateActive_cases s.db c (fun row => row.hubId = some hubId)
      (fun row => { row with status := .spam, reportedBy := some pubkey }) with
      hdb | ⟨row, hrow, hhub, hdb⟩
    · rwa [hdb] at hv
    · have hfilter : (s.db.activeCalls c).filter (fun row => row.hubId = some hubId) = some row :=
        Option.filter_eq_some_iff.mpr ⟨hrow, hhub⟩
      simp only [reports, hfilter, List.mem_singleton] at hreports
      rwa [hdb, activeView_update, if_neg hreports] at hv
  | selectActive task hubId now => rwa [begin_db h] at hv
  | moveStale task now =>
    rw [step] at h
    rcases htask : s.tasks task with _ | stale | _ | _ <;> rw [htask] at h
    all_goals try cases h
    refine view_of_subtable (fun row hrow => ?_) hv
    simp only [System.finish, moveStale] at hrow
    split_ifs at hrow
    exact hrow

/-! ## What a row says of its call -/

/-- The row of a call is in progress exactly while its answer has neither ended nor been reported,
and names who has answered; while it rings it names nobody. -/
structure Tells (callId : String) (db : Db) (history : List Happening) : Prop where
  onCall : ∀ pubkey, OnCall history callId pubkey ↔
    ∃ status, activeView db callId = some (status, some pubkey)
  unreported : ∀ pubkey, Unreported history callId pubkey ↔
    activeView db callId = some (.inProgress, some pubkey)
  ringing : ∀ v, activeView db callId = some (.ringing, v) → v = none

variable {hs : List Happening} {db' : Db}

/-- What happens to a call in a step: nothing; an answer; a report; its end; or its arrival. -/
inductive Fate (callId : String) (db : Db) (hs : List Happening) (db' : Db) : Prop where
  | same (hanswers : ∀ w ∈ hs, ∀ pubkey, ¬ Answers callId pubkey w)
      (hends : ∀ w ∈ hs, ¬ Ends callId w) (hreports : .reported callId ∉ hs)
      (hview : activeView db' callId = activeView db callId)
  | answered (pubkey : String) (hanswer : ∃ w ∈ hs, Answers callId pubkey w)
      (honly : ∀ w ∈ hs, ∀ other, Answers callId other w → other = pubkey)
      (hends : ∀ w ∈ hs, ¬ Ends callId w) (hreports : .reported callId ∉ hs)
      (v : Option String) (hview : activeView db callId = some (.ringing, v))
      (hview' : activeView db' callId = some (.inProgress, some pubkey))
  | reported (hanswers : ∀ w ∈ hs, ∀ pubkey, ¬ Answers callId pubkey w)
      (hends : ∀ w ∈ hs, ¬ Ends callId w) (hreports : .reported callId ∈ hs)
      (v : CallStatus × Option String) (hview : activeView db callId = some v)
      (hview' : activeView db' callId = some (.spam, v.2))
  | ended (hanswers : ∀ w ∈ hs, ∀ pubkey, ¬ Answers callId pubkey w)
      (hends : ∃ w ∈ hs, Ends callId w) (hview' : activeView db' callId = none)
  | arrived (hanswers : ∀ w ∈ hs, ∀ pubkey, ¬ Answers callId pubkey w)
      (hends : ∀ w ∈ hs, ¬ Ends callId w) (hreports : .reported callId ∉ hs)
      (hview : activeView db callId = none) (status : CallStatus)
      (hview' : activeView db' callId = some (status, none))

theorem onCall_append (hanswers : ∀ w ∈ hs, ¬ Answers callId pubkey w)
    (hends : ∀ w ∈ hs, ¬ Ends callId w) :
    OnCall (history ++ hs) callId pubkey ↔ OnCall history callId pubkey :=
  since_append (fun w hw _ => hanswers w hw) hends

theorem unreported_append (hanswers : ∀ w ∈ hs, ¬ Answers callId pubkey w)
    (hends : ∀ w ∈ hs, ¬ Ends callId w) (hreports : .reported callId ∉ hs) :
    Unreported (history ++ hs) callId pubkey ↔ Unreported history callId pubkey :=
  since_append (fun w hw _ => hanswers w hw) fun w hw hstops =>
    hstops.elim (hends w hw) fun heq => hreports (heq ▸ hw)

/-- **What a row says of its call**, one step. -/
theorem Fate.tells (h : Fate callId db hs db') (ht : Tells callId db history) :
    Tells callId db' (history ++ hs) := by
  cases h with
  | same hanswers hends hreports hview =>
    refine ⟨fun pubkey => ?_, fun pubkey => ?_, fun v => ?_⟩
    · rw [onCall_append (fun w hw => hanswers w hw pubkey) hends, ht.onCall, hview]
    · rw [unreported_append (fun w hw => hanswers w hw pubkey) hends hreports, ht.unreported, hview]
    · rw [hview]
      exact ht.ringing v
  | answered pubkey hanswer honly hends hreports v hview hview' =>
    obtain ⟨w, hw, hanswer⟩ := hanswer
    obtain rfl := ht.ringing v hview
    have hother : ∀ other, other ≠ pubkey → ∀ w ∈ hs, ¬ Answers callId other w :=
      fun other hne w hw hanswer => hne (honly w hw other hanswer)
    refine ⟨fun other => ?_, fun other => ?_, fun v hv => ?_⟩
    · by_cases hkey : other = pubkey
      · rw [hkey]
        exact iff_of_true (since_of_mem hw (fun _ => hanswer) hends) ⟨.inProgress, hview'⟩
      · rw [onCall_append (hother other hkey) hends, ht.onCall, hview, hview']
        simp [Ne.symm hkey]
    · by_cases hkey : other = pubkey
      · rw [hkey]
        refine iff_of_true (since_of_mem hw (fun _ => hanswer) fun u hu hstops => ?_) hview'
        exact hstops.elim (hends u hu) fun heq => hreports (heq ▸ hu)
      · rw [unreported_append (hother other hkey) hends hreports, ht.unreported, hview, hview']
        simp [Ne.symm hkey]
    · rw [hview'] at hv
      cases hv
  | reported hanswers hends hreports v hview hview' =>
    refine ⟨fun pubkey => ?_, fun pubkey => ?_, fun w hw => ?_⟩
    · rw [onCall_append (fun w hw => hanswers w hw pubkey) hends, ht.onCall, hview, hview']
      simp [Prod.ext_iff]
    · refine iff_of_false (not_since_append (fun w hw _ => hanswers w hw pubkey)
        ⟨_, hreports, .inr rfl⟩) ?_
      rw [hview']
      simp
    · rw [hview'] at hw
      cases hw
  | ended hanswers hends hview' =>
    obtain ⟨w, hw, hend⟩ := hends
    refine ⟨fun pubkey => ?_, fun pubkey => ?_, fun v hv => ?_⟩
    · refine iff_of_false (not_since_append (fun w hw _ => hanswers w hw pubkey) ⟨w, hw, hend⟩) ?_
      simp [hview']
    · refine iff_of_false (not_since_append (fun w hw _ => hanswers w hw pubkey)
        ⟨w, hw, .inl hend⟩) ?_
      simp [hview']
    · rw [hview'] at hv
      cases hv
  | arrived hanswers hends hreports hview status hview' =>
    refine ⟨fun pubkey => ?_, fun pubkey => ?_, fun v hv => ?_⟩
    · rw [onCall_append (fun w hw => hanswers w hw pubkey) hends, ht.onCall, hview, hview']
      simp
    · rw [unreported_append (fun w hw => hanswers w hw pubkey) hends hreports, ht.unreported,
        hview, hview']
      simp
    · rw [hview'] at hv
      exact (congrArg Prod.snd (Option.some.inj hv)).symm

/-! ## Steps -/

theorem mem_happenings {e : CallEvent} (h : callStep s e = some s') {w : Happening} :
    w ∈ happenings s e ↔ w = .ended (gone s s') ∨ ∃ m, e = .method m ∧
      ((∃ a ∈ answers s m, w = .answered a) ∨ ∃ c ∈ reports s m, w = .reported c) := by
  cases e with
  | method m =>
    simp only [happenings, h, Option.map_some, Option.toList_some, List.mem_append, List.mem_map,
      List.mem_singleton, CallEvent.method.injEq, exists_eq_left', eq_comm (a := w)]
    exact or_comm
  | _ =>
    simp only [happenings, h, Option.map_some, Option.toList_some, List.mem_singleton, reduceCtorEq,
      false_and, exists_false, or_false]

theorem ends_iff {e : CallEvent} (h : callStep s e = some s') :
    (∃ w ∈ happenings s e, Ends callId w) ↔ gone s s' callId = true := by
  constructor
  · rintro ⟨w, hw, hends⟩
    rcases (mem_happenings h).mp hw with rfl | ⟨m, -, ⟨a, -, rfl⟩ | ⟨c, -, rfl⟩⟩
    · exact hends
    · cases hends
    · cases hends
  · exact fun hgone => ⟨_, (mem_happenings h).mpr (.inl rfl), hgone⟩

theorem gone_iff : gone s s' callId = true ↔
    activeView s.db callId ≠ none ∧ activeView s'.db callId = none := by
  rw [gone, Bool.and_eq_true, activeView, activeView]
  cases s.db.activeCalls callId <;> cases s'.db.activeCalls callId <;> simp

theorem answers_iff {m : Event} (h : step s m = some s') :
    (∃ w ∈ happenings s (.method m), Answers callId pubkey w) ↔
      ∃ a ∈ answersTo callId (answers s m), a.pubkey = pubkey := by
  constructor
  · rintro ⟨w, hw, hanswer⟩
    rcases (mem_happenings (e := .method m) h).mp hw with
      rfl | ⟨_, ⟨rfl⟩, ⟨a, ha, rfl⟩ | ⟨c, -, rfl⟩⟩
    · cases hanswer
    · exact ⟨a, List.mem_filter.mpr ⟨ha, decide_eq_true hanswer.1⟩, hanswer.2⟩
    · cases hanswer
  · rintro ⟨a, ha, hkey⟩
    obtain ⟨hmem, hcall⟩ := List.mem_filter.mp ha
    have hw : .answered a ∈ happenings s (.method m) :=
      (mem_happenings (e := .method m) h).mpr (.inr ⟨m, rfl, .inl ⟨a, hmem, rfl⟩⟩)
    exact ⟨.answered a, hw, of_decide_eq_true hcall, hkey⟩

theorem reported_iff {m : Event} (h : step s m = some s') :
    .reported callId ∈ happenings s (.method m) ↔ callId ∈ reports s m := by
  rw [mem_happenings (e := .method m) h]
  simp

theorem not_ends_of_same {e : CallEvent} (h : callStep s e = some s')
    (hview : activeView s'.db callId = activeView s.db callId) :
    ∀ w ∈ happenings s e, ¬ Ends callId w := by
  intro w hw hends
  obtain ⟨hne, hnone⟩ := gone_iff.mp ((ends_iff h).mp ⟨w, hw, hends⟩)
  exact hne (hview ▸ hnone)

theorem not_ends_of_some {e : CallEvent} (h : callStep s e = some s')
    (hview : activeView s'.db callId ≠ none) : ∀ w ∈ happenings s e, ¬ Ends callId w := by
  intro w hw hends
  exact hview (gone_iff.mp ((ends_iff h).mp ⟨w, hw, hends⟩)).2

/-- A call that is not in the table after a step has ended in it, or was not there before. -/
theorem fate_of_none {e : CallEvent} (h : callStep s e = some s')
    (hanswers : ∀ w ∈ happenings s e, ∀ pubkey, ¬ Answers callId pubkey w)
    (hreports : .reported callId ∉ happenings s e) (hview : activeView s'.db callId = none) :
    Fate callId s.db (happenings s e) s'.db := by
  by_cases hbefore : activeView s.db callId = none
  · have hsame := hview.trans hbefore.symm
    exact .same hanswers (not_ends_of_same h hsame) hreports hsame
  · exact .ended hanswers ((ends_iff h).mpr (gone_iff.mpr ⟨hbefore, hview⟩)) hview

theorem method_fate {m : Event} (h : step s m = some s') :
    Fate callId s.db (happenings s (.method m)) s'.db := by
  have hcall : callStep s (.method m) = some s' := h
  have hnone (hempty : answersTo callId (answers s m) = []) :
      ∀ w ∈ happenings s (.method m), ∀ pubkey, ¬ Answers callId pubkey w := by
    intro w hw pubkey hanswer
    obtain ⟨a, ha, -⟩ := (answers_iff h).mp ⟨w, hw, hanswer⟩
    rw [hempty] at ha
    cases ha
  by_cases hreports : callId ∈ reports s m
  · obtain ⟨hempty, v, hview, hview'⟩ := reported_view h hreports
    refine .reported (hnone (by rw [hempty, answersTo_nil])) (not_ends_of_some hcall ?_)
      ((reported_iff h).mpr hreports) v hview hview'
    rw [hview']
    exact Option.some_ne_none _
  · have hreports' := mt (reported_iff h).mp hreports
    cases step_view callId h with
    | same hempty hview => exact .same (hnone hempty) (not_ends_of_same hcall hview) hreports' hview
    | answered a hone v hview hview' =>
      have hkeys : ∀ other, (∃ w ∈ happenings s (.method m), Answers callId other w) ↔
          a.pubkey = other := by
        intro other
        rw [answers_iff h, hone]
        simp
      refine .answered a.pubkey ((hkeys _).mpr rfl)
        (fun w hw other hanswer => ((hkeys other).mp ⟨w, hw, hanswer⟩).symm)
        (not_ends_of_some hcall ?_) hreports' v hview hview'
      rw [hview']
      exact Option.some_ne_none _
    | spam hempty v hview hview' =>
      have hsame := hview'.trans (spam_of_view h hreports hview').symm
      exact .same (hnone hempty) (not_ends_of_same hcall hsame) hreports' hsame
    | ended hempty _ _ _ _ _ _ _ _ _ hview' =>
      exact fate_of_none hcall (hnone hempty) hreports' hview'
    | swept hempty _ _ _ _ _ _ _ hview' => exact fate_of_none hcall (hnone hempty) hreports' hview'

/-- **What a step does to a call**, and what the history has of it. -/
theorem callStep_fate {e : CallEvent} (h : callStep s e = some s') :
    Fate callId s.db (happenings s e) s'.db := by
  have hquiet (hmethod : ∀ m, e ≠ .method m) :
      (∀ w ∈ happenings s e, ∀ pubkey, ¬ Answers callId pubkey w) ∧
        .reported callId ∉ happenings s e := by
    have hended : ∀ w ∈ happenings s e, w = .ended (gone s s') := fun w hw =>
      ((mem_happenings h).mp hw).resolve_right fun ⟨m, hm, _⟩ => hmethod m hm
    refine ⟨fun w hw pubkey hanswer => ?_, fun hmem => by cases hended _ hmem⟩
    rw [hended w hw] at hanswer
    cases hanswer
  have hsame (hmethod : ∀ m, e ≠ .method m)
      (hview : activeView s'.db callId = activeView s.db callId) :
      Fate callId s.db (happenings s e) s'.db :=
    .same (hquiet hmethod).1 (not_ends_of_same h hview) (hquiet hmethod).2 hview
  cases e with
  | method m => exact method_fate h
  | addCall hubId c callerNumber callerLast4 status now =>
    have hmethod : ∀ m, CallEvent.addCall hubId c callerNumber callerLast4 status now ≠
      .method m := fun m hm => by cases hm
    have hadd := h
    rw [callStep, addCall] at hadd
    cases hrow : s.db.activeCalls c with
    | some row =>
      rw [hrow] at hadd
      exact hsame hmethod (by rw [← Option.some.inj hadd])
    | none =>
      rw [hrow] at hadd
      obtain rfl := Option.some.inj hadd
      by_cases hc : callId = c
      · subst hc
        have hview' := @activeView_update s.db callId callId
          { hubId := some hubId, callerNumber, callerLast4, status := status.getD .ringing,
            startedAt := now }
        rw [if_pos rfl] at hview'
        refine .arrived (hquiet hmethod).1 (not_ends_of_some h ?_) (hquiet hmethod).2
          (by rw [activeView, hrow, Option.map_none]) _ hview'
        dsimp only
        rw [hview']
        exact Option.some_ne_none _
      · refine hsame hmethod ?_
        dsimp only
        rw [activeView_update, if_neg hc]
  | deleteActive hubId =>
    have hmethod : ∀ m, CallEvent.deleteActive hubId ≠ .method m := fun m hm => by cases hm
    have hdelete := h
    obtain rfl := Option.some.inj hdelete
    cases hview : activeView (deleteActive s.db hubId) callId with
    | none => exact fate_of_none h (hquiet hmethod).1 (hquiet hmethod).2 hview
    | some v =>
      have hsub : activeView s.db callId = some v :=
        view_of_subtable (fun row hrow => (Option.filter_eq_some_iff.mp hrow).1) hview
      exact hsame hmethod (hview.trans hsub.symm)
  | deleteRecords hubId =>
    obtain rfl := Option.some.inj h
    exact hsame (fun m hm => by cases hm) rfl
  | deleteTokens before =>
    obtain rfl := Option.some.inj h
    exact hsame (fun m hm => by cases hm) rfl

/-! ## Runs -/

theorem run_tells {events : List CallEvent} {history : List Happening}
    (h : run (recording callStep happenings) (start {}, []) events = some (s, history)) :
    Tells callId s.db history := by
  refine run_inv (I := fun p => Tells callId p.1.db p.2) (fun p e q hp hq => ?_) ?_ h
  · obtain ⟨hstep, hhistory⟩ := recording_eq_some.mp hq
    rw [hhistory]
    exact (callStep_fate hstep).tells hp
  · exact ⟨fun _ => by simp [OnCall, since_nil, activeView, start],
      fun _ => by simp [Unreported, since_nil, activeView, start],
      fun _ hv => by simp [activeView, start] at hv⟩

/-- Who is busy, as the history tells it. -/
theorem mem_getBusyPubkeys_iff {events : List CallEvent} {rows : List ActiveCall} {now : Int}
    (h : run (recording callStep happenings) (start {}, []) events = some (s, history))
    (hrows : Lists s.db rows) :
    pubkey ∈ getBusyPubkeys rows now ↔ pubkey ≠ "" ∧
      ∃ callId, Unreported history callId pubkey ∧ InTime s.db now callId := by
  rw [mem_getBusyPubkeys]
  refine and_congr_right fun _ => ?_
  simp only [(run_tells h).unreported, InTime, isInProgress, Bool.and_eq_true, decide_eq_true_eq]
  constructor
  · rintro ⟨row, hrow, ⟨hstatus, htime⟩, hkey⟩
    obtain ⟨callId, hactive⟩ := (hrows row).mp hrow
    exact ⟨callId, by rw [activeView, hactive, Option.map_some, hstatus, hkey], row, hactive, htime⟩
  · rintro ⟨callId, hview, row, hactive, htime⟩
    rw [activeView, hactive, Option.map_some] at hview
    obtain ⟨hstatus, hkey⟩ := Prod.mk.inj (Option.some.inj hview)
    exact ⟨row, (hrows row).mpr ⟨callId, hactive⟩, ⟨hstatus, htime⟩, hkey⟩

end Facts

/-- A call that amy answers. -/
def answeredEvents : List CallEvent :=
  [.addCall "hub" "call" "caller" none none 0, .method (.answerCall "hub" "call" "amy" 1000)]

/-- She reports it as spam, and goes on talking. -/
def reportedEvents : List CallEvent :=
  answeredEvents ++ [.method (.reportSpam "hub" "call" "amy")]

/-- The row that the events leave. -/
def sampleRow (status : CallStatus) (reportedBy : Option String) : ActiveCall :=
  { hubId := some "hub"
    callerNumber := "caller"
    answeredBy := some "amy"
    status := status
    reportedBy := reportedBy
    startedAt := 0
    answeredAt := some 1000 }

/-- The events leave this row alone. -/
theorem lists_sampleRow {s : System} {status : CallStatus} {reportedBy : Option String}
    (h : s.db.activeCalls =
      Function.update (fun _ => none) "call" (some (sampleRow status reportedBy))) :
    Lists s.db [sampleRow status reportedBy] := by
  intro r
  rw [h, List.mem_singleton]
  constructor
  · rintro rfl
    exact ⟨"call", Function.update_self ..⟩
  · rintro ⟨callId, hr⟩
    by_cases hc : callId = "call"
    · rw [hc, Function.update_self] at hr
      exact (Option.some.inj hr).symm
    · rw [Function.update_of_ne hc] at hr
      cases hr

theorem run_answered : ∃ s history,
    run (recording callStep happenings) (start {}, []) answeredEvents = some (s, history) ∧
      s.db.activeCalls =
        Function.update (fun _ => none) "call" (some (sampleRow .inProgress none)) := by
  refine ⟨_, _, rfl, ?_⟩
  exact Function.update_idem _ _ _

theorem run_reported : ∃ s history,
    run (recording callStep happenings) (start {}, []) reportedEvents = some (s, history) ∧
      s.db.activeCalls =
        Function.update (fun _ => none) "call" (some (sampleRow .spam (some "amy"))) := by
  refine ⟨_, _, rfl, ?_⟩
  exact (Function.update_idem ..).trans (Function.update_idem ..)

end Llamenos.Worker.Calls
