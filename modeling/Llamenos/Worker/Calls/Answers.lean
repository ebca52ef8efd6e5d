import Llamenos.Worker.Calls
import Mathlib.Data.List.Nodup

/-!
# First pickup wins

A call is answered by `answerCall`, whose `UPDATE` asks for a ringing and unanswered row, or by
`answerCallWithToken`, whose `UPDATE` asks for a ringing one. Either leaves the row `in-progress`,
and no statement makes a call ring again; so a second answer finds no row, whichever path it takes
and whatever has happened to the call in between.

A token is not deleted when it is redeemed. It names one call for as long as it exists, so what it
can redeem is that call's one answer.

Results:
* `first_pickup_wins`: **each call has at most one accepted answer**, the row holds that answer's
  pubkey, and no token is redeemed twice.
-/

namespace Llamenos.Worker.Calls

open Llamenos.Lib

variable {s s' : System} {e : Event} {as : List Answer}

/-! ## One answer to each call -/

/-- No call has two answers, and an answered call that is still active does not ring and holds its
answer. -/
structure Settled (s : System) (as : List Answer) : Prop where
  once : (as.map Answer.callId).Nodup
  winner : ∀ a ∈ as, ∀ v, activeView s.db a.callId = some v →
    v.1 ≠ .ringing ∧ v.2 = some a.pubkey

theorem answers_cases (s : System) (e : Event) : answers s e = [] ∨ ∃ a, answers s e = [a] := by
  cases e with
  | answerCall hubId callId pubkey now =>
    rw [answers]
    cases (answerCall s.db hubId callId pubkey now).2 <;> simp
  | claimCall task now =>
    rw [answers]
    rcases s.tasks task with _ | _ | ⟨token, row⟩ | _
    · exact .inl rfl
    · exact .inl rfl
    · cases h : (claimCall s.db row now).2 <;> simp [h]
    · exact .inl rfl
  | _ => exact .inl rfl

theorem mem_answersTo {a : Answer} (h : a ∈ as) : a ∈ answersTo a.callId as :=
  List.mem_filter.mpr ⟨h, decide_eq_true rfl⟩

theorem length_answersTo (honce : (as.map Answer.callId).Nodup) (callId : String) :
    (answersTo callId as).length ≤ 1 := by
  have hnodup : ((answersTo callId as).map Answer.callId).Nodup :=
    honce.sublist (List.filter_sublist.map _)
  have hsame : ∀ c ∈ (answersTo callId as).map Answer.callId, c = callId := by
    intro c hc
    obtain ⟨a, ha, rfl⟩ := List.mem_map.mp hc
    exact of_decide_eq_true (List.mem_filter.mp ha).2
  rw [List.eq_replicate_of_mem hsame, List.nodup_replicate] at hnodup
  simpa using hnodup

/-- A step that accepts an answer finds the call ringing and leaves it answered. -/
theorem ringing_of_answer (h : step s e = some s') {a : Answer} (ha : a ∈ answers s e) :
    (∃ v, activeView s.db a.callId = some (.ringing, v)) ∧
      activeView s'.db a.callId = some (.inProgress, some a.pubkey) := by
  have hmem := mem_answersTo ha
  cases step_view a.callId h with
  | same h => rw [h] at hmem; cases hmem
  | spam h => rw [h] at hmem; cases hmem
  | ended h => rw [h] at hmem; cases hmem
  | swept h => rw [h] at hmem; cases hmem
  | answered b h v hv hv' =>
    rw [h, List.mem_singleton] at hmem
    subst hmem
    exact ⟨⟨v, hv⟩, hv'⟩

/-- A call that does not ring keeps its answer for as long as it is active. -/
theorem view_of_not_ringing (h : step s e = some s') {a : Answer}
    (ha : ∀ v, activeView s.db a.callId = some v → v.1 ≠ .ringing ∧ v.2 = some a.pubkey) :
    ∀ v, activeView s'.db a.callId = some v → v.1 ≠ .ringing ∧ v.2 = some a.pubkey := by
  intro v hv
  cases step_view a.callId h with
  | same _ hview => exact ha v (hview ▸ hv)
  | answered b _ w hw => exact absurd rfl (ha _ hw).1
  | spam _ w hw hview =>
    obtain rfl := Option.some.inj (hview.symm.trans hv)
    exact ⟨(fun h => by cases h), (ha w hw).2⟩
  | ended _ _ _ _ _ _ _ _ _ _ hview => rw [hview] at hv; cases hv
  | swept _ _ _ _ _ _ _ _ hview => rw [hview] at hv; cases hv

theorem step_settled (hs : Settled s as) (h : step s e = some s') :
    Settled s' (as ++ answers s e) := by
  have hkept : ∀ a ∈ as, ∀ v, activeView s'.db a.callId = some v →
      v.1 ≠ .ringing ∧ v.2 = some a.pubkey := fun a ha => view_of_not_ringing h (hs.winner a ha)
  rcases answers_cases s e with hnone | ⟨a, hone⟩
  · rw [hnone, List.append_nil]
    exact ⟨hs.once, hkept⟩
  · obtain ⟨⟨v, hringing⟩, hanswered⟩ := ringing_of_answer h (hone ▸ List.mem_singleton_self a)
    have hnew : a.callId ∉ as.map Answer.callId := by
      intro hmem
      obtain ⟨b, hb, hcall⟩ := List.mem_map.mp hmem
      exact (hs.winner b hb _ (hcall ▸ hringing)).1 rfl
    rw [hone]
    constructor
    · rw [List.map_append, List.map_singleton, ← List.concat_eq_append]
      exact hs.once.concat hnew
    · intro b hb w hw
      rcases List.mem_append.mp hb with hb | hb
      · exact hkept b hb w hw
      · rw [List.mem_singleton.mp hb] at hw ⊢
        obtain rfl := Option.some.inj (hanswered.symm.trans hw)
        exact ⟨(fun h => by cases h), rfl⟩

theorem run_settled {db : Db} {events : List Event} {t : System}
    (hrun : Runs.run step (start db) events = some t) :
    Settled t (Runs.emitted step answers (start db) events) :=
  Runs.run_emitted (I := Settled) (fun _ _ _ _ hs h => step_settled hs h) []
    ⟨List.nodup_nil, fun _ ha => by cases ha⟩ hrun

/-! ## Tokens -/

/-- What is stored or read of a token is what it was made with, and its answers are of its call. -/
structure Issued (s : System) (as : List Answer) : Prop where
  stored : ∀ token row, s.db.callTokens token = some row → s.issued token = some row
  read : ∀ task token row, s.tasks task = some (.claim token row) → s.issued token = some row
  redeemed : ∀ a ∈ as, ∀ token, a.token = some token →
    ∃ row, s.issued token = some row ∧ row.callSid = a.callId

theorem updateActive_callTokens (db : Db) (callId : String) (cond : ActiveCall → Bool)
    (set : ActiveCall → ActiveCall) :
    (updateActive db callId cond set).1.callTokens = db.callTokens := by
  rcases updateActive_cases db callId cond set with
    h | ⟨_, _, _, h⟩ <;> rw [h]

/-- A step that makes no token: tokens may go, and a task may begin with one that is stored. -/
theorem Issued.of_shrink (hs : Issued s as) (hissued : s'.issued = s.issued)
    (hstored : ∀ token row, s'.db.callTokens token = some row → s.db.callTokens token = some row)
    (hread : ∀ task token row, s'.tasks task = some (.claim token row) →
      s.tasks task = some (.claim token row) ∨ s.db.callTokens token = some row) :
    Issued s' as := by
  constructor
  · intro token row h
    rw [hissued]
    exact hs.stored token row (hstored token row h)
  · intro task token row h
    rw [hissued]
    rcases hread task token row h with h | h
    · exact hs.read task token row h
    · exact hs.stored token row h
  · rw [hissued]
    exact hs.redeemed

/-- A new token is none of those that are stored, read or redeemed. -/
theorem Issued.create (hs : Issued s as) {token : String} (hnew : s.issued token = none)
    (callSid volunteerPubkey hubId : String) (now : Int) :
    Issued { s with
      db := createCallToken s.db token callSid volunteerPubkey hubId now
      issued :=
        Function.update s.issued token (some ⟨callSid, volunteerPubkey, hubId, now⟩) } as := by
  have hold : ∀ t row, s.issued t = some row →
      Function.update s.issued token (some ⟨callSid, volunteerPubkey, hubId, now⟩) t =
        some row := by
    intro t row h
    have hne : t ≠ token := by
      rintro rfl
      rw [hnew] at h
      cases h
    rwa [Function.update_of_ne hne]
  constructor
  · intro t row h
    rcases Runs.update_eq_some h with ⟨rfl, hrow⟩ | ⟨-, hrow⟩
    · dsimp only
      rw [Function.update_self, hrow]
    · exact hold t row (hs.stored t row hrow)
  · intro task t row h
    exact hold t row (hs.read task t row h)
  · intro a ha t ht
    obtain ⟨row, hrow, hcall⟩ := hs.redeemed a ha t ht
    exact ⟨row, hold t row hrow, hcall⟩

theorem tasks_of_begin {task : Nat} {t : Task} (h : s.begin task t = some s') :
    s'.tasks = Function.update s.tasks task (some t) ∧ s'.issued = s.issued := by
  rw [System.begin] at h
  cases htask : s.tasks task with
  | some _ => rw [htask] at h; cases h
  | none =>
    rw [htask] at h
    exact Option.some.inj h ▸ ⟨rfl, rfl⟩

/-- A task that begins leaves the tokens; one that holds a token has read it. -/
theorem Issued.begin (hs : Issued s as) {task : Nat} {t : Task} (h : s.begin task t = some s')
    (ht : ∀ token row, t = .claim token row → s.db.callTokens token = some row) :
    Issued s' as := by
  obtain ⟨htasks, hissued⟩ := tasks_of_begin h
  refine hs.of_shrink hissued (fun token row h' => by rwa [begin_db h] at h') ?_
  intro i token row hi
  rw [htasks] at hi
  rcases Runs.update_eq_some hi with ⟨-, hbegun⟩ | ⟨-, hi⟩
  · exact .inr (ht token row (Option.some.inj hbegun))
  · exact .inl hi

/-- A task that ends takes no token along. -/
theorem Issued.finish (hs : Issued s as) (task : Nat) {db : Db}
    (hstored : ∀ token row, db.callTokens token = some row → s.db.callTokens token = some row) :
    Issued (s.finish task db) as := by
  refine hs.of_shrink rfl hstored fun i token row hi => .inl ?_
  rcases Runs.update_eq_some hi with ⟨-, hended⟩ | ⟨-, hi⟩
  · cases hended
  · exact hi

theorem step_issued_before (hs : Issued s as) (h : step s e = some s') : Issued s' as := by
  cases e with
  | answerCall hubId c pubkey now =>
    obtain rfl := Option.some.inj h
    refine hs.of_shrink rfl (fun token row h => ?_) fun _ _ _ h => .inl h
    exact updateActive_callTokens .. ▸ h
  | createCallToken token callSid volunteerPubkey hubId now =>
    rw [step] at h
    cases hissued : s.issued token with
    | some _ => rw [hissued] at h; cases h
    | none =>
      rw [hissued] at h
      exact Option.some.inj h ▸ hs.create hissued callSid volunteerPubkey hubId now
  | selectToken task token now =>
    rw [step] at h
    cases hrow : selectToken s.db token now with
    | none =>
      rw [hrow] at h
      exact Option.some.inj h ▸ hs
    | some row =>
      rw [hrow] at h
      refine hs.begin h fun t r ht => ?_
      cases ht
      exact (Option.filter_eq_some_iff.mp hrow).1
  | claimCall task now =>
    rw [step] at h
    rcases htask : s.tasks task with _ | _ | ⟨token, row⟩ | _ <;> rw [htask] at h
    all_goals try cases h
    exact hs.finish task fun token row h => updateActive_callTokens .. ▸ h
  | endCall hubId c content envelopes now =>
    rw [step, endCall] at h
    cases hcall : (s.db.activeCalls c).filter fun row => row.hubId = some hubId with
    | none => simp only [hcall, Option.some.injEq] at h; exact h ▸ hs
    | some call =>
      cases hrecord : s.db.callRecords c with
      | some _ => simp only [hcall, hrecord, Option.some.injEq] at h; exact h ▸ hs
      | none =>
        simp only [hcall, hrecord, Option.some.injEq] at h
        subst h
        exact hs.of_shrink rfl (fun _ _ h => (Option.filter_eq_some_iff.mp h).1)
          fun _ _ _ h => .inl h
  | markVoicemail task hubId c =>
    rw [step] at h
    rcases hmark : markVoicemailActive s.db hubId c with ⟨db', _ | row⟩ <;> rw [hmark] at h
    · exact hs.begin h fun _ _ ht => by cases ht
    · obtain rfl := Option.some.inj h
      refine hs.of_shrink rfl (fun token row h => ?_) fun _ _ _ h => .inl h
      have hdb : (markVoicemailActive s.db hubId c).1.callTokens = s.db.callTokens :=
        updateActive_callTokens ..
      rw [hmark] at hdb
      exact hdb ▸ h
  | markVoicemailHistory task =>
    rw [step] at h
    rcases htask : s.tasks task with _ | _ | _ | ⟨hubId, c⟩ <;> rw [htask] at h
    all_goals try cases h
    simp only [markVoicemailHistory] at h
    cases hrow : (s.db.callRecords c).filter fun row => row.hubId = some hubId with
    | none =>
      rw [hrow] at h
      exact Option.some.inj h ▸ hs.finish task fun _ _ h => h
    | some row =>
      rw [hrow] at h
      exact Option.some.inj h ▸ hs.finish task fun _ _ h => h
  | updateMetadata hubId c data =>
    obtain rfl := Option.some.inj h
    refine hs.of_shrink rfl (fun token row h => ?_) fun _ _ _ h => .inl h
    exact updateActive_callTokens .. ▸ h
  | reportSpam hubId c pubkey =>
    obtain rfl := Option.some.inj h
    refine hs.of_shrink rfl (fun token row h => ?_) fun _ _ _ h => .inl h
    exact updateActive_callTokens .. ▸ h
  | selectActive task hubId now => exact hs.begin h fun _ _ ht => by cases ht
  | moveStale task now =>
    rw [step] at h
    rcases htask : s.tasks task with _ | stale | _ | _ <;> rw [htask] at h
    all_goals try cases h
    exact hs.finish task fun _ _ h => (Option.filter_eq_some_iff.mp h).1

/-- The answer that redeems a token is of the call that the token was made for. -/
theorem issued_of_answer (hs : Issued s as) {a : Answer} (ha : a ∈ answers s e) {token : String}
    (htoken : a.token = some token) :
    ∃ row, s.issued token = some row ∧ row.callSid = a.callId := by
  cases e with
  | answerCall hubId c pubkey now =>
    rw [answers] at ha
    cases hrow : (answerCall s.db hubId c pubkey now).2 with
    | none => rw [hrow] at ha; cases ha
    | some _ =>
      rw [hrow, List.mem_singleton] at ha
      rw [ha] at htoken
      cases htoken
  | claimCall task now =>
    rw [answers] at ha
    rcases htask : s.tasks task with _ | _ | ⟨t, row⟩ | _ <;> simp only [htask] at ha
    · cases ha
    · cases ha
    · cases hrow : (claimCall s.db row now).2 with
      | none => rw [hrow] at ha; cases ha
      | some _ =>
        rw [hrow, List.mem_singleton] at ha
        subst ha
        obtain rfl := Option.some.inj htoken
        exact ⟨row, hs.read task t row htask, rfl⟩
    · cases ha
  | _ => cases ha

theorem step_issued (hs : Issued s as) (h : step s e = some s') :
    Issued s' (as ++ answers s e) := by
  have hboth : Issued s (as ++ answers s e) := by
    refine ⟨hs.stored, hs.read, fun a ha token htoken => ?_⟩
    rcases List.mem_append.mp ha with ha | ha
    · exact hs.redeemed a ha token htoken
    · exact issued_of_answer hs ha htoken
  exact step_issued_before hboth h

theorem run_issued {db : Db} {events : List Event} {t : System}
    (hrun : Runs.run step (start db) events = some t) :
    Issued t (Runs.emitted step answers (start db) events) :=
  Runs.run_emitted (I := Issued) (fun _ _ _ _ hs h => step_issued hs h) []
    ⟨fun _ _ h => h, (fun _ _ _ h => by cases h), fun _ ha => by cases ha⟩ hrun

/-- Answers to different calls redeem different tokens. -/
theorem Issued.redeems_once (hs : Issued s as) (honce : (as.map Answer.callId).Nodup) :
    (as.filterMap Answer.token).Nodup := by
  refine List.pairwise_filterMap.mpr ?_
  refine (List.pairwise_map.mp honce).imp_of_mem ?_
  rintro a b ha hb hcalls token htoken token' htoken' rfl
  obtain ⟨row, hrow, hcall⟩ := hs.redeemed a ha token htoken
  obtain ⟨row', hrow', hcall'⟩ := hs.redeemed b hb token htoken'
  obtain rfl := Option.some.inj (hrow.symm.trans hrow')
  exact hcalls (hcall.symm.trans hcall')

/-! ## Runs of answer requests -/

/-- The statements of `answerCall`, `createCallToken` and `answerCallWithToken`. -/
def IsAnswering : Event → Prop
  | .answerCall .. | .createCallToken .. | .selectToken .. | .claimCall .. => True
  | _ => False

/-- A request to answer leaves an active call active. -/
theorem active_of_answering (he : IsAnswering e) (h : step s e = some s') {callId : String}
    (hactive : (activeView s.db callId).isSome) : (activeView s'.db callId).isSome := by
  cases step_view callId h with
  | same _ hview => rwa [hview]
  | answered _ _ _ _ hview => rw [hview]; rfl
  | spam _ _ _ hview => rw [hview]; rfl
  | ended _ _ _ _ _ hend => subst hend; exact he.elim
  | swept _ _ _ _ hsweep => subst hsweep; exact he.elim

theorem run_active {db : Db} {events : List Event} {t : System}
    (hanswering : ∀ e ∈ events, IsAnswering e)
    (hrun : Runs.run step (start db) events = some t) :
    ∀ a ∈ Runs.emitted step answers (start db) events, (activeView t.db a.callId).isSome := by
  refine Runs.run_emitted_inv
    (I := fun s (as : List Answer) => ∀ a ∈ as, (activeView s.db a.callId).isSome)
    (P := fun _ e => IsAnswering e) ?_ [] (fun _ ha => by cases ha)
    (Runs.along_of_mem fun e he _ => hanswering e he) hrun
  intro s as e s' hs he h a ha
  rcases List.mem_append.mp ha with ha | ha
  · exact active_of_answering he h (hs a ha)
  · rw [(ringing_of_answer h ha).2]
    rfl

/-! ## The race -/

theorem answeredBy_of_view {db : Db} {callId : String} {row : ActiveCall}
    (h : db.activeCalls callId = some row) :
    activeView db callId = some (row.status, row.answeredBy) := by
  rw [activeView, h, Option.map_some]

/-- **First pickup wins.** Whatever requests are made of the service, in whatever order their
statements come, a call has at most one accepted answer, an active row has the pubkey of the
answer its call had, and a token is redeemed at most once; and while there are only requests to
answer, the answered call's row is there. -/
theorem first_pickup_wins {db : Db} {events : List Event} {t : System}
    (hrun : Runs.run step (start db) events = some t) :
    let accepted : List Answer := Runs.emitted step answers (start db) events
    (∀ callId, (answersTo callId accepted).length ≤ 1) ∧
      (∀ a ∈ accepted, ∀ row, t.db.activeCalls a.callId = some row →
        row.answeredBy = some a.pubkey) ∧
      ((∀ e ∈ events, IsAnswering e) → ∀ a ∈ accepted,
        ∃ row, t.db.activeCalls a.callId = some row ∧ row.answeredBy = some a.pubkey) ∧
      (accepted.filterMap Answer.token).Nodup := by
  intro accepted
  have hsettled : Settled t accepted := run_settled hrun
  have hwinner : ∀ a ∈ accepted, ∀ row, t.db.activeCalls a.callId = some row →
      row.answeredBy = some a.pubkey := fun a ha row hrow =>
    (hsettled.winner a ha _ (answeredBy_of_view hrow)).2
  refine ⟨fun callId => ?_, hwinner, fun hanswering a ha => ?_,
    (run_issued hrun).redeems_once hsettled.once⟩
  · exact length_answersTo hsettled.once callId
  · obtain ⟨row, hrow, -⟩ := Option.map_eq_some_iff.mp
      (Option.some_get (run_active hanswering hrun a ha)).symm
    exact ⟨row, hrow, hwinner a ha row hrow⟩

/-- A call that rings. -/
def ringing : Db where
  activeCalls := fun callId => if callId = "call" then
    some { hubId := some "hub", callerNumber := "+15550100", startedAt := 0 } else none

/-- Two requests with one token, and one of another volunteer between their statements. -/
def race : List Event :=
  [.createCallToken "token" "call" "amy" "hub" 0, .selectToken 0 "token" 1,
    .selectToken 1 "token" 2, .claimCall 1 3, .answerCall "hub" "call" "bob" 4, .claimCall 0 5]

theorem race_answers :
    Runs.emitted step answers (start ringing) race = [⟨"call", "amy", some "token"⟩] ∧
      (answersTo "call" (Runs.emitted step answers (start ringing) race)).length ≤ 1 :=
  ⟨rfl, (first_pickup_wins (show Runs.run step (start ringing) race = some _ from rfl)).1 "call"⟩

end Llamenos.Worker.Calls
