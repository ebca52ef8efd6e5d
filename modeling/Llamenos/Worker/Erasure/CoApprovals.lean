import Llamenos.Crypto.Erasure
import Llamenos.Worker.Date
import Llamenos.Worker.Erasure

/-!
# Co-approvals of emergency erasures

A co-approver signs with `sign_erasure_override` of the crypto core, and `createSelfRequest` checks
the signature. What is signed ends with the justification, and what is checked with the time. Nothing
is kept of a signature that has been accepted but the row of its request.

Results:
* `coApproverSigned_override`: a signature of the core is only accepted with a time that has the
  justification in it.
* `runs_twice`: after a request is cancelled, its co-approval is accepted for the next one.
* `coApprovals_unsound`: **no signature of the core is accepted for its own time, and every accepted
  one can be used again**.
-/

namespace Llamenos.Worker.Erasure

open Llamenos.Lib Llamenos.Crypto Llamenos.Crypto.Erasure

variable {ed25519 : Ed25519}

/-! ## The property -/

/-- An override of the crypto core, as it is sent to the server with a text for its time. -/
def overrideOf (secrets : DeviceSecrets) (target : String) (timestampMs : UInt64)
    (justification timestamp : String) : Emergency where
  coApproverPubkey := hexEncode secrets.signingPubkey.bytes
  coApproverSignature := hexEncode (signErasureOverride secrets target timestampMs justification)
  timestamp := timestamp

/-- A text for a time: its milliseconds, as in the core, or its date in ISO 8601. -/
inductive TimeText (timestampMs : UInt64) : String → Prop where
  | millis : TimeText timestampMs (toString timestampMs.toNat)
  | iso (date : Date) : date.getTime = timestampMs.toNat → TimeText timestampMs (toISOString date)

/-- The server accepts the override for the same target and time. -/
def Agrees (ed25519 : Ed25519) (secrets : DeviceSecrets) (target : String) (timestampMs : UInt64)
    (justification : String) : Prop :=
  ∃ timestamp, TimeText timestampMs timestamp ∧
    coApproverSigned ed25519 target (overrideOf secrets target timestampMs justification timestamp)

/-- The statements of a request with a co-approval, with nobody in between. -/
def creation (userId hubId : String) (justification : Option String) (e : Emergency) (now : Int)
    (id : String) : List Event :=
  [.call 0 (.createSelfRequest userId hubId justification (some e)) { now },
    .resume 0 { now }, .resume 0 { now, id }, .resume 0 { now }]

/-- The server accepts the co-approval: the request is created. -/
def Accepts (ed25519 : Ed25519) (db : Db) (userId hubId : String) (justification : Option String)
    (e : Emergency) : Prop :=
  ∃ now id t, Runs.run (step ed25519) (start db now) (creation userId hubId justification e now id) =
    some t

/-- In every run, one request at most is created with the signature. -/
def SingleUse (ed25519 : Ed25519) (db : Db) (signature : String) : Prop :=
  ∀ now events t, Runs.run (step ed25519) (start db now) events = some t →
    ∀ row ∈ t.db.requests, ∀ row' ∈ t.db.requests, row.coApproverSignature = some signature →
      row'.coApproverSignature = some signature → row = row'

/-! ## What is signed and what is checked -/

theorem TimeText.prefix_notMem {timestampMs : UInt64} {timestamp : String}
    (h : TimeText timestampMs timestamp) {digits rest : List Char} (hdigits : ∀ c ∈ digits, c.isDigit) :
    timestamp.toList ≠ digits ++ ':' :: rest := by
  have hcolon : ':' ∉ digits := fun hmem => absurd (hdigits _ hmem) (by decide)
  intro heq
  cases h with
  | millis =>
    rw [toList_toString] at heq
    refine Auth.colon_not_mem_decimal timestampMs.toNat ?_
    rw [heq]
    exact List.mem_append_right _ List.mem_cons_self
  | iso date =>
    rw [toISOString, String.toList_ofList] at heq
    have hday : ':' ∉ dayText (calendarDay (date.getTime / 86400000))
        ((date.getTime % 86400000).toNat / 3600000) := fun hmem =>
      absurd (isDateChar_spec (isDateChar_of_mem_dayText _ hmem)).2 (not_not_intro rfl)
    have hsame := ((append_cons_inj_of_notMem_left hday hcolon).mp heq).1
    have hdash : '-' ∈ digits := by
      rw [← hsame, dayText]
      exact List.mem_append_right _ List.mem_cons_self
    exact absurd (hdigits _ hdash) (by decide)

/-- **A signature of the core is only accepted with a time that has the justification in it.** -/
theorem coApproverSigned_override {secrets : DeviceSecrets} {target justification : String}
    {timestampMs : UInt64}
    (h : SignsOnly secrets ed25519 (buildErasureOverrideMessage target timestampMs justification))
    {timestamp : String} (hsigned : coApproverSigned ed25519 target
      (overrideOf secrets target timestampMs justification timestamp)) :
    timestamp.toList = decimal timestampMs.toNat ++ ':' :: justification.toList := by
  have hkey : hexToBytes (hexEncode secrets.signingPubkey.bytes) = some secrets.signingPubkey.bytes :=
    hexToBytes_eq_some.mpr (hexDecode_hexEncode _)
  have hsig : hexToBytes (hexEncode (signErasureOverride secrets target timestampMs justification)) =
      some (signErasureOverride secrets target timestampMs justification) :=
    hexToBytes_eq_some.mpr (hexDecode_hexEncode _)
  simp only [coApproverSigned, overrideOf, hkey, hsig] at hsigned
  obtain ⟨key, signature, verify, hpubkey, hsignature, hverify, htrue⟩ :=
    ed25519Verify_true (Option.getD_eq_iff.mp hsigned |>.resolve_right (by simp))
  obtain rfl : key = secrets.signingPubkey := U8Array.ext' hpubkey
  have hmessage := h.verifies_signed_iff.mp
    ⟨secrets.signingPubkey, verify, signature, hexDecode_hexEncode _, hverify, hsignature.symm, htrue⟩
  have hchars := congrArg String.toList (asBytes_injective hmessage)
  rw [toList_message] at hchars
  have htoString : ∀ s : String, toString s = s := fun _ => rfl
  have hlabel : labelErasureOverrideSig = LABEL_ERASURE_OVERRIDE_SIG := rfl
  have hcolon : (":" : String).toList = [':'] := rfl
  simpa [htoString, hlabel, hcolon] using hchars

/-- **No signature of the core is accepted for its own target and time.** -/
theorem not_agrees {secrets : DeviceSecrets} {target justification : String} {timestampMs : UInt64}
    (h : SignsOnly secrets ed25519
      (buildErasureOverrideMessage target timestampMs justification)) :
    ¬ Agrees ed25519 secrets target timestampMs justification := by
  rintro ⟨timestamp, htext, hsigned⟩
  exact htext.prefix_notMem (fun c => isDigit_of_mem_decimal) (coApproverSigned_override h hsigned)

/-! ## What a request with a co-approval needs -/

/-- The checks of `createSelfRequest` on an emergency. -/
structure Passes (ed25519 : Ed25519) (db : Db) (userId hubId : String) (e : Emergency) : Prop where
  enabled : (db.configs hubId).any (!·.emergencyOverrideEnabled) = false
  other : e.coApproverPubkey ≠ userId
  signed : coApproverSigned ed25519 userId e
  admin : ((getUserInternal db e.coApproverPubkey).getD []).any (ADMIN_ROLES.contains ·)

variable {db : Db} {userId hubId : String} {justification : Option String} {e : Emergency}

theorem createConfig_passes (h : Passes ed25519 db userId hubId e) (input : Input) :
    createConfig ed25519 userId justification (some e) (db.configs hubId) input =
      .more (.createApprover userId justification e) := by
  unfold createConfig
  simp [h.enabled, h.other, h.signed]

theorem createApprover_passes (h : Passes ed25519 db userId hubId e) (input : Input) :
    createApprover userId justification e (getUserInternal db e.coApproverPubkey) input =
      .more (.createInsert (newRequest userId justification (some e) EMERGENCY_MIN_HOURS input)) :=
  if_pos h.admin

theorem createConfig_more {config : Option ErasureConfig} {input : Input} {task : Task}
    (h : createConfig ed25519 userId justification (some e) config input = .more task) :
    config.any (!·.emergencyOverrideEnabled) = false ∧ e.coApproverPubkey ≠ userId ∧
      coApproverSigned ed25519 userId e = true ∧ task = .createApprover userId justification e := by
  unfold createConfig at h
  dsimp only at h
  split_ifs at h with henabled hother hsigned
  · cases h
  · cases h
  · cases h
  · injection h with h
    exact ⟨by simpa using henabled, hother, by simpa using hsigned, h.symm⟩

theorem createApprover_more {roles : Option (List String)} {input : Input} {task : Task}
    (h : createApprover userId justification e roles input = .more task) :
    (roles.getD []).any (ADMIN_ROLES.contains ·) := by
  unfold createApprover at h
  split_ifs at h with hadmin
  · exact hadmin
  · cases h

/-- The checks do not look at the requests. -/
theorem Passes.requests (h : Passes ed25519 db userId hubId e) (requests : List Request) :
    Passes ed25519 { db with requests } userId hubId e :=
  ⟨h.enabled, h.other, h.signed, h.admin⟩

/-- The state after a call has gone on. -/
def System.goesOn (s : System) (now : Int) (progress : Progress) : System :=
  { s with
    tasks := Function.update s.tasks 0 progress.task?
    latest := max s.latest now }

variable {s : System} {now : Int} {id : String}

theorem step_create (hfree : s.tasks 0 = none)
    (hnone : ∀ row ∈ s.db.requests, ¬ (row.userId = userId ∧ row.status = .pending)) :
    step ed25519 s (.call 0 (.createSelfRequest userId hubId justification (some e)) { now }) =
      some (s.goesOn now (.more (.createConfig userId hubId justification (some e)))) := by
  have hmine : getMyRequest s.db userId 0 = none := by
    have hrows : s.db.requests.filter (fun row => row.userId = userId ∧ row.status = .pending) =
        [] := by
      simpa [List.filter_eq_nil_iff] using hnone
    dsimp only [getMyRequest]
    rw [hrows]
    rfl
  simp [step, hfree, call, hmine, System.goesOn]

theorem step_goesOn {task : Task} {input : Input} {progress : Progress}
    (h : resume ed25519 s.db input task = (s.db, progress)) (hnow : input.now = now) :
    step ed25519 (s.goesOn now (.more task)) (.resume 0 input) = some (s.goesOn now progress) := by
  simp [step, System.goesOn, Progress.task?, h, hnow]

/-- **A request that passes is inserted**, if none of the user's is pending. -/
theorem run_creation (hfree : s.tasks 0 = none)
    (hnone : ∀ row ∈ s.db.requests, ¬ (row.userId = userId ∧ row.status = .pending))
    (hid : id ∉ s.db.requests.map Request.id) (h : Passes ed25519 s.db userId hubId e) :
    Runs.run (step ed25519) s (creation userId hubId justification e now id) = some
      { s with
        db := { s.db with
          requests := s.db.requests ++
            [newRequest userId justification (some e) EMERGENCY_MIN_HOURS { now, id }] }
        latest := max s.latest now } := by
  have hconfig : resume ed25519 s.db { now } (.createConfig userId hubId justification (some e)) =
      (s.db, .more (.createApprover userId justification e)) :=
    congrArg (Prod.mk s.db) (createConfig_passes h { now })
  have happrover : resume ed25519 s.db { now, id } (.createApprover userId justification e) =
      (s.db, .more (.createInsert
        (newRequest userId justification (some e) EMERGENCY_MIN_HOURS { now, id }))) :=
    congrArg (Prod.mk s.db) (createApprover_passes h { now, id })
  refine Runs.run_cons.mpr ⟨_, step_create hfree hnone, ?_⟩
  refine Runs.run_cons.mpr ⟨_, step_goesOn hconfig rfl, ?_⟩
  refine Runs.run_cons.mpr ⟨_, step_goesOn happrover rfl, ?_⟩
  refine Runs.run_cons.mpr ⟨_, ?_, rfl⟩
  have hid' : (newRequest userId justification (some e) EMERGENCY_MIN_HOURS { now, id }).id ∉
      s.db.requests.map Request.id := hid
  have hidle : Function.update s.tasks 0 none = s.tasks := by rw [← hfree, Function.update_eq_self]
  simp only [step, System.goesOn, Progress.task?, Function.update_self, Option.map_some, resume,
    Bool.false_eq_true, false_or, if_neg hid', Function.update_idem, max_self, max_assoc, hidle]

theorem more_of_run {progress : Progress} {input : Input} {events : List Event} {t : System}
    (h : Runs.run (step ed25519) (s.goesOn now progress) (.resume 0 input :: events) = some t) :
    ∃ task, progress = .more task := by
  obtain ⟨s', hs', -⟩ := Runs.run_cons.mp h
  cases progress with
  | more task => exact ⟨task, rfl⟩
  | done reply => simp [step, System.goesOn, Progress.task?] at hs'

/-- **What a request with a co-approval needs.** -/
theorem accepts_iff :
    Accepts ed25519 db userId hubId justification e ↔ Passes ed25519 db userId hubId e := by
  constructor
  · rintro ⟨now, id, t, hrun⟩
    have hcreate : step ed25519 (start db now)
        (.call 0 (.createSelfRequest userId hubId justification (some e)) { now }) =
        some ((start db now).goesOn now (.more (.createConfig userId hubId justification (some e)))) :=
      step_create rfl (by simp [start])
    obtain ⟨s₁, hs₁, hrun⟩ := Runs.run_cons.mp hrun
    obtain rfl := Option.some.inj (hcreate.symm.trans hs₁)
    -- the statement after `getConfig`
    have hconfig : resume ed25519 (start db now).db { now }
        (.createConfig userId hubId justification (some e)) = ((start db now).db,
          createConfig ed25519 userId justification (some e) (db.configs hubId) { now }) := rfl
    obtain ⟨s₂, hs₂, hrun⟩ := Runs.run_cons.mp hrun
    obtain rfl := Option.some.inj ((step_goesOn hconfig rfl).symm.trans hs₂)
    obtain ⟨task, htask⟩ := more_of_run hrun
    rw [htask] at hrun
    obtain ⟨henabled, hother, hsigned, rfl⟩ := createConfig_more htask
    -- the statement that reads the co-approver
    have happrover : resume ed25519 (start db now).db { now, id }
        (.createApprover userId justification e) = ((start db now).db,
          createApprover userId justification e (getUserInternal db e.coApproverPubkey)
            { now, id }) := rfl
    obtain ⟨s₃, hs₃, hrun⟩ := Runs.run_cons.mp hrun
    obtain rfl := Option.some.inj ((step_goesOn happrover rfl).symm.trans hs₃)
    obtain ⟨task, htask⟩ := more_of_run hrun
    exact ⟨henabled, hother, hsigned, createApprover_more htask⟩
  · intro h
    have hstart : Passes ed25519 (start db 0).db userId hubId e := h.requests []
    exact ⟨0, "", _, run_creation rfl (by simp [start]) (by simp [start]) hstart⟩

/-! ## A co-approval that is used twice -/

/-- The user withdraws the request. -/
def withdrawal (userId : String) : List Event :=
  [.call 0 (.cancelSelfRequest userId) { now := 0 }, .resume 0 { now := 0 }]

theorem run_withdrawal {row : Request} (hfree : s.tasks 0 = none) (hlatest : s.latest = 0)
    (hrequests : s.db.requests = [row]) (huser : row.userId = userId)
    (hpending : row.status = .pending) :
    Runs.run (step ed25519) s (withdrawal userId) = some
      { s with
        db := { s.db with requests := [{ row with status := .cancelled, cancelledAt := some 0 }] } } := by
  have hmine : getMyRequest s.db userId 0 = some row := by
    simp [getMyRequest, hrequests, huser, hpending]
  have hidle : Function.update s.tasks 0 none = s.tasks := by rw [← hfree, Function.update_eq_self]
  simp [withdrawal, Runs.run, step, hfree, call, hmine, resume, Progress.task?, hlatest,
    updateRequest, hrequests, hidle]

/-- **After a request is cancelled, its co-approval is accepted for the next one.** -/
theorem runs_twice (h : Passes ed25519 db userId hubId e) (justification : Option String) :
    ∃ t, Runs.run (step ed25519) (start db 0) (creation userId hubId justification e 0 "1" ++
        (withdrawal userId ++ creation userId hubId justification e 0 "2")) = some t ∧
      t.db.requests =
        [{ newRequest userId justification (some e) EMERGENCY_MIN_HOURS { now := 0, id := "1" } with
            status := .cancelled
            cancelledAt := some 0 },
          newRequest userId justification (some e) EMERGENCY_MIN_HOURS { now := 0, id := "2" }] := by
  have hfirst : Runs.run (step ed25519) (start db 0)
      (creation userId hubId justification e 0 "1") = _ :=
    run_creation rfl (by simp [start]) (by simp [start]) (h.requests [])
  refine ⟨_, Runs.run_append.mpr ⟨_, hfirst, Runs.run_append.mpr ⟨_, run_withdrawal rfl rfl rfl rfl rfl,
    run_creation rfl ?_ ?_ (h.requests _)⟩⟩, rfl⟩
  · simp
  · simp [newRequest]

/-- **A co-approval that is accepted is accepted again.** -/
theorem not_singleUse (h : Accepts ed25519 db userId hubId justification e) :
    ¬ SingleUse ed25519 db e.coApproverSignature := by
  intro hsingle
  obtain ⟨t, hrun, hrequests⟩ := runs_twice (accepts_iff.mp h) justification
  have hsame := hsingle 0 _ t hrun _ (by rw [hrequests]; exact List.mem_cons_self) _
    (by rw [hrequests]; exact List.mem_cons_of_mem _ List.mem_cons_self) rfl rfl
  exact absurd (congrArg Request.id hsame) (by simp [newRequest])

/-- **No signature of the core is accepted for its own target and time, and every signature that is
accepted can be used again.** -/
theorem coApprovals_unsound {secrets : DeviceSecrets} {target justification : String}
    {timestampMs : UInt64} (h : SignsOnly secrets ed25519
      (buildErasureOverrideMessage target timestampMs justification)) :
    ¬ Agrees ed25519 secrets target timestampMs justification ∧
      ∀ db userId hubId justification e, Accepts ed25519 db userId hubId justification e →
        ¬ SingleUse ed25519 db e.coApproverSignature :=
  ⟨not_agrees h, fun _ _ _ _ _ => not_singleUse⟩

/-- Ed25519 on one signature of the co-approver. -/
def overrideEd25519 : Ed25519 :=
  approverEd25519 (buildErasureOverrideMessage "ada" 1767225660001 "left the group")

theorem sampleOverride_unsound :
    ¬ Agrees overrideEd25519 sampleApprover "ada" 1767225660001 "left the group" ∧
      ∀ db userId hubId justification e, Accepts overrideEd25519 db userId hubId justification e →
        ¬ SingleUse overrideEd25519 db e.coApproverSignature :=
  coApprovals_unsound (sampleApprover_signsOnly _)

/-- A database with the co-approver as an administrator. -/
def sampleDb : Db where
  users pubkey :=
    if pubkey = "ea4a6c63e29c520abef5507b132ec5f9954776aebebe7b92421eea691446d22c" then
      some ["role-admin"]
    else none

/-- The override is refused at the server with its own time. With the justification in its time it
is accepted, and accepted again. -/
theorem sampleOverride_refused :
    ¬ Agrees overrideEd25519 sampleApprover "ada" 1767225660001 "left the group" ∧
      ∃ e, Accepts overrideEd25519 sampleDb "ada" "hub" (some "left the group") e ∧
        ¬ SingleUse overrideEd25519 sampleDb e.coApproverSignature := by
  have hpasses : Passes overrideEd25519 sampleDb "ada" "hub" (overrideOf sampleApprover "ada"
      1767225660001 "left the group" "1767225660001:left the group") :=
    ⟨rfl, by decide +kernel, by decide +kernel, by decide +kernel⟩
  have haccepts : Accepts overrideEd25519 sampleDb "ada" "hub" (some "left the group") _ :=
    accepts_iff.mpr hpasses
  exact ⟨not_agrees (sampleApprover_signsOnly _), _, haccepts, not_singleUse haccepts⟩

end Llamenos.Worker.Erasure
