import Llamenos.Lib.Upserts
import Llamenos.Worker.RecoveryGroup

/-!
# The envelopes and the group key

`enrollHub`, `rotateGroup` and `putUserEnvelope` of one hub, statement by statement. The first two
replace the row of the hub's recovery group, which has its key, within a transaction; a rotation
also stores the users' envelopes, wrapped to its key by the caller. A user's own envelope is stored
by a statement of its own, wrapped to the key that the user has read last.

A transaction sees what is committed when its statement begins, and what it has written itself. Its
`DELETE` finds the row that is there, and waits where another transaction has that row deleted: if
that one commits, the row is gone, and the one that it has inserted is not found. An `INSERT` waits
for such a transaction too, and fails where there is a committed row then. A stored envelope that
a transaction has updated cannot be written by others before that transaction ends.

What an envelope is wrapped to, and whose key a share is of, is ghost state.

Results:
* `statement_cases`: what a statement does to what is stored: nothing, or it stores an envelope, or
  it is the commit of a transaction.
* `sharing_run`: the shares stored are those of the group key that is stored, enough of them.
* `wrapped_step_iff`: the steps that keep all envelopes wrapped to that key.
* `always_openable_iff`: **when every envelope can be opened by the share holders**, in all states
  of a run.
* `envelope_lost`: an envelope that is stored between the statements of a rotation.
-/

namespace Llamenos.Worker.RecoveryGroup.Envelopes

open Llamenos.Lib.Runs Llamenos.Lib.Upserts

/-! ## The tables -/

/-- A row of `user_recovery_envelopes`, of the hub, with the key that it is wrapped to. -/
structure UserEnvelope where
  userPubkey : String
  envelope : String
  wrappedTo : String

/-- A row of `hub_recovery_group_shares`, of the hub, with the key that it is a share of. -/
structure HeldShare where
  share : Share
  shareOf : String

/-- The check constraints of `hub_recovery_groups`. -/
def allowed (group : Group) : Bool :=
  2 ≤ group.threshold && group.threshold ≤ 5 && 3 ≤ group.totalShares && group.totalShares ≤ 5 &&
    group.threshold ≤ group.totalShares && 4 ≤ group.delayHours && group.delayHours ≤ 168 &&
    1 ≤ group.emergencyFloorHours && group.emergencyFloorHours ≤ 24 &&
    group.emergencyFloorHours ≤ group.delayHours

/-! ## The calls -/

/-- What `enrollHub` and `rotateGroup` are given of a group. -/
structure GroupParams where
  threshold : Nat
  totalShares : Nat
  groupPublicKey : String
  shareEnvelopes : List Share
  shareCommitments : List String
  duressCommitments : Option (List (Option String))
  sigchainLinkHash : String
  delayHours : Nat := 24
  emergencyFloorHours : Nat := 4

/-- What both check first. -/
def GroupParams.check (params : GroupParams) : Except RecoveryError Unit :=
  if params.shareEnvelopes.length ≠ params.totalShares then
    .error (.recoveryGroup
      s!"Expected {params.totalShares} share envelopes, got {params.shareEnvelopes.length}" 400)
  else if params.shareCommitments.length ≠ params.totalShares then
    .error (.recoveryGroup
      s!"Expected {params.totalShares} share commitments, got {params.shareCommitments.length}" 400)
  else if params.totalShares < params.threshold then
    .error (.recoveryGroup "Threshold cannot exceed totalShares" 400)
  else if params.delayHours < params.emergencyFloorHours then
    .error (.recoveryGroup "Emergency floor cannot exceed delay hours" 400)
  else .ok ()

/-- The row that is inserted. -/
def GroupParams.row (params : GroupParams) (rotatedAt : Option Int) : Group where
  groupPublicKey := params.groupPublicKey
  threshold := params.threshold
  totalShares := params.totalShares
  shareCommitments := params.shareCommitments
  duressCommitments := params.duressCommitments
  sigchainLinkHash := params.sigchainLinkHash
  delayHours := params.delayHours
  emergencyFloorHours := params.emergencyFloorHours
  rotatedAt := rotatedAt

def GroupParams.shares (params : GroupParams) : List HeldShare :=
  params.shareEnvelopes.map fun share => { share, shareOf := params.groupPublicKey }

/-- A user, and the envelope that is wrapped to the new key. -/
abbrev Rewrapped := List (String × String)

/-- The next statement of a call. For an enrollment, nothing is rewrapped. -/
inductive Task where
  | selectGroup (params : GroupParams) (rewrapped : Rewrapped)
  | selectEnvelopes (params : GroupParams) (rewrapped : Rewrapped)
  | deleteGroup (params : GroupParams) (rotation : Option Rewrapped)
  /-- The `DELETE` has found the version of the row, and goes on. -/
  | deleting (found : Option Nat) (params : GroupParams) (rotation : Option Rewrapped)
  | insertGroup (params : GroupParams) (rotation : Option Rewrapped)
  | insertShares (group : Group) (params : GroupParams) (rotation : Option Rewrapped)
  /-- The next `UPDATE` of an envelope, and in the end the commit. -/
  | updateEnvelopes (group : Group) (shares : List HeldShare) (updated : List UserEnvelope)
      (rest : Rewrapped)
  | putEnvelope (envelope : UserEnvelope)

/-- What is committed; the call whose transaction has deleted the row of the group, or inserted one,
if one has; the calls in progress, and the group keys that the users have read last. -/
structure State where
  group : Option (Nat × Group) := none
  shares : List HeldShare := []
  envelopes : List UserEnvelope := []
  next : Nat := 0
  holder : Option Nat := none
  tasks : Nat → Option Task := fun _ => none
  known : String → Option String := fun _ => none

/-- `UPDATE user_recovery_envelopes SET … WHERE user_pubkey = …`, one after the other. -/
def updateAll (envelopes updated : List UserEnvelope) : List UserEnvelope :=
  updated.foldl (fun envelopes new =>
    envelopes.map fun e => if e.userPubkey = new.userPubkey then new else e) envelopes

/-- The users whose envelopes an open transaction has updated. -/
def State.lockedUsers (s : State) : List String :=
  match s.holder.bind s.tasks with
  | some (.updateEnvelopes _ _ updated _) => updated.map UserEnvelope.userPubkey
  | _ => []

/-- A call goes on, or is over. -/
inductive Progress where
  | more (task : Task)
  | done (reply : Except RecoveryError Unit)

def notEnrolled : RecoveryError :=
  .recoveryGroup "No recovery group configured for this hub — use enroll for initial setup" 404

def notRewrapped : RecoveryError :=
  .recoveryGroup
    "rewrappedUserEnvelopes must re-wrap exactly the set of users currently enrolled for this hub"
    409

/-- The statement of a call at a time, unless it waits: what it makes of the state, but for the
tasks, and how the call goes on. -/
def statement (s : State) (c : Nat) (now : Int) : Task → Option (State × Progress)
  | .selectGroup params rewrapped =>
    match s.group with
    | none => some (s, .done (.error notEnrolled))
    | some _ => some (s, .more (.selectEnvelopes params rewrapped))
  | .selectEnvelopes params rewrapped =>
    let currentUserPubkeys := (s.envelopes.map UserEnvelope.userPubkey).eraseDups
    let rewrappedUserPubkeys := (rewrapped.map Prod.fst).eraseDups
    if currentUserPubkeys.length ≠ rewrappedUserPubkeys.length ∨
        currentUserPubkeys.any fun pk => !rewrappedUserPubkeys.contains pk then
      some (s, .done (.error notRewrapped))
    else some (s, .more (.deleteGroup params (some rewrapped)))
  | .deleteGroup params rotation =>
    some (s, .more (.deleting (s.group.map Prod.fst) params rotation))
  | .deleting found params rotation =>
    if found.isSome ∧ found = s.group.map Prod.fst then
      -- It waits for the one that has the row deleted.
      if s.holder = none then
        some ({ s with holder := some c }, .more (.insertGroup params rotation))
      else none
    else some (s, .more (.insertGroup params rotation))
  | .insertGroup params rotation =>
    let group := params.row (rotation.map fun _ => now)
    if !allowed group then some (s, .done (.error .database))
    else if s.holder = some c then some (s, .more (.insertShares group params rotation))
    else if s.holder ≠ none then none
    else if s.group.isSome then some (s, .done (.error .database))
    else some ({ s with holder := some c }, .more (.insertShares group params rotation))
  | .insertShares group params rotation =>
    if (params.shareEnvelopes.map Share.holderPubkey).Nodup then
      some (s, .more (.updateEnvelopes group params.shares [] (rotation.getD [])))
    else some (s, .done (.error .database))
  | .updateEnvelopes group shares updated ((userPubkey, envelope) :: rest) =>
    if s.envelopes.any fun e => e.userPubkey = userPubkey then
      let new := { userPubkey, envelope, wrappedTo := group.groupPublicKey }
      some (s, .more (.updateEnvelopes group shares (updated ++ [new]) rest))
    else some (s, .more (.updateEnvelopes group shares updated rest))
  | .updateEnvelopes group shares updated [] =>
    some ({ s with
      group := some (s.next, group)
      shares := shares
      envelopes := updateAll s.envelopes updated
      next := s.next + 1 }, .done (.ok ()))
  | .putEnvelope envelope =>
    if envelope.userPubkey ∈ s.lockedUsers then none
    else
      some ({ s with
        envelopes := upsert UserEnvelope.userPubkey (fun _ new => new) s.envelopes envelope },
        .done (.ok ()))

/-- The call is over: its transaction has ended. -/
def State.finish (s : State) (c : Nat) : State :=
  { s with
    holder := if s.holder = some c then none else s.holder
    tasks := Function.update s.tasks c none }

def State.goOn (s : State) (c : Nat) (task : Task) : State :=
  { s with tasks := Function.update s.tasks c (some task) }

/-! ## Runs -/

inductive Event where
  /-- A user reads the group. -/
  | getGroup (userPubkey : String)
  | enrollHub (c : Nat) (params : GroupParams)
  | rotateGroup (c : Nat) (params : GroupParams) (rewrappedUserEnvelopes : Rewrapped)
  | putUserEnvelope (c : Nat) (userPubkey envelope : String)
  | resume (c : Nat) (now : Int)
  /-- The database fails the statement of the call. -/
  | fail (c : Nat)

/-- A call begins, unless its number is taken. -/
def State.begin (s : State) (c : Nat) (task : Task) : Option State :=
  if s.tasks c = none then some (s.goOn c task) else none

def step (s : State) : Event → Option State
  | .getGroup userPubkey =>
    match s.group with
    | none => some s
    | some (_, group) =>
      some { s with known := Function.update s.known userPubkey (some group.groupPublicKey) }
  | .enrollHub c params =>
    match params.check with
    | .error _ => some s
    | .ok () => s.begin c (.deleteGroup params none)
  | .rotateGroup c params rewrapped =>
    match params.check with
    | .error _ => some s
    | .ok () => s.begin c (.selectGroup params rewrapped)
  | .putUserEnvelope c userPubkey envelope =>
    match s.known userPubkey with
    | none => none
    | some wrappedTo => s.begin c (.putEnvelope { userPubkey, envelope, wrappedTo })
  | .resume c now =>
    match s.tasks c with
    | none => none
    | some task =>
      match statement s c now task with
      | none => none
      | some (s', .more task) => some (s'.goOn c task)
      | some (s', .done _) => some (s'.finish c)
  | .fail c => if (s.tasks c).isSome then some (s.finish c) else none

/-! ## Purpose -/

/-- The shares are of the group's key, each with a holder of its own, and they are enough. -/
structure Held (group : Group) (shares : List HeldShare) : Prop where
  enough : group.threshold ≤ shares.length
  holders : (shares.map fun held => held.share.holderPubkey).Nodup
  shareOf : ∀ held ∈ shares, held.shareOf = group.groupPublicKey

/-- The envelope is wrapped to the group key that is stored, the shares of which are held. -/
def Openable (s : State) (e : UserEnvelope) : Prop :=
  ∃ version group, s.group = some (version, group) ∧ e.wrappedTo = group.groupPublicKey ∧
    Held group s.shares

/-- A transaction commits only when all envelopes are of users whom it has re-wrapped, unless they
are wrapped to its key; an envelope is stored only while the key that it is wrapped to is. -/
def Task.Careful (s : State) : Task → Prop
  | .updateEnvelopes group _ updated [] =>
    ∀ e ∈ s.envelopes, e.userPubkey ∈ updated.map UserEnvelope.userPubkey ∨
      e.wrappedTo = group.groupPublicKey
  | .putEnvelope envelope =>
    s.group.map (fun version => version.2.groupPublicKey) = some envelope.wrappedTo
  | _ => True

instance (s : State) : DecidablePred (Task.Careful s)
  | .updateEnvelopes _ _ _ [] => inferInstanceAs (Decidable (∀ e ∈ s.envelopes, _))
  | .putEnvelope _ => inferInstanceAs (Decidable (_ = _))
  | .updateEnvelopes _ _ _ (_ :: _) | .selectGroup _ _ | .selectEnvelopes _ _ | .deleteGroup _ _
  | .deleting _ _ _ | .insertGroup _ _ | .insertShares _ _ _ => isTrue trivial

def Careful (s : State) : Event → Prop
  | .resume c _ => ∀ task ∈ s.tasks c, task.Careful s
  | _ => True

instance (s : State) : DecidablePred (Careful s)
  | .resume c _ => inferInstanceAs (Decidable (∀ task ∈ s.tasks c, _))
  | .getGroup _ | .enrollHub _ _ | .rotateGroup _ _ _ | .putUserEnvelope _ _ _ | .fail _ =>
    isTrue trivial

/-! ## What a statement does -/

/-- What a call knows when it comes to its next statement. -/
def Task.Sound : Task → Prop
  | .selectGroup params _ | .selectEnvelopes params _ | .deleteGroup params _
  | .deleting _ params _ | .insertGroup params _ => params.check = .ok ()
  | .insertShares group params _ =>
    params.check = .ok () ∧ ∃ rotatedAt, group = params.row rotatedAt
  | .updateEnvelopes group shares updated _ =>
    Held group shares ∧ ∀ new ∈ updated, new.wrappedTo = group.groupPublicKey
  | .putEnvelope _ => True

theorem held_of_check {params : GroupParams} (hcheck : params.check = .ok ())
    (hholders : (params.shareEnvelopes.map Share.holderPubkey).Nodup) (rotatedAt : Option Int) :
    Held (params.row rotatedAt) params.shares := by
  unfold GroupParams.check at hcheck
  split_ifs at hcheck with hshares hcommitments hthreshold hdelay
  refine ⟨?_, ?_, ?_⟩
  · rw [GroupParams.shares, List.length_map]
    exact (Nat.le_of_not_lt hthreshold).trans_eq (not_not.mp hshares).symm
  · rw [GroupParams.shares, List.map_map]
    exact hholders
  · intro held hheld
    obtain ⟨share, -, rfl⟩ := List.mem_map.mp hheld
    rfl

variable {s s' t : State} {c : Nat} {now : Int} {task : Task} {progress : Progress}

/-- What is stored stays as it is. -/
def Same (s s' : State) : Prop :=
  s'.group = s.group ∧ s'.shares = s.shares ∧ s'.envelopes = s.envelopes

/-- **What a statement does to what is stored.** -/
inductive Effect (s s' : State) : Task → Progress → Prop where
  | none {task : Task} {progress : Progress} (hsame : Same s s') (htasks : s'.tasks = s.tasks)
      (hcareful : task.Careful s)
      (hsound : ∀ next, progress = .more next → task.Sound → next.Sound) :
      Effect s s' task progress
  | commit {group : Group} {shares : List HeldShare} {updated : List UserEnvelope}
      (hafter : s' = { s with
        group := some (s.next, group), shares := shares,
        envelopes := updateAll s.envelopes updated, next := s.next + 1 }) :
      Effect s s' (.updateEnvelopes group shares updated []) (.done (.ok ()))
  | put {envelope : UserEnvelope}
      (hafter : s' = { s with
        envelopes := upsert UserEnvelope.userPubkey (fun _ new => new) s.envelopes envelope }) :
      Effect s s' (.putEnvelope envelope) (.done (.ok ()))

theorem statement_cases (h : statement s c now task = some (s', progress)) :
    Effect s s' task progress := by
  cases task with
  | selectGroup params rewrapped =>
    simp only [statement] at h
    split at h <;> obtain ⟨rfl, rfl⟩ := Prod.mk.inj (Option.some.inj h)
    · exact .none ⟨rfl, rfl, rfl⟩ rfl trivial (by nofun)
    · exact .none ⟨rfl, rfl, rfl⟩ rfl trivial fun next hnext hsound =>
        Progress.more.inj hnext ▸ hsound
  | selectEnvelopes params rewrapped =>
    simp only [statement] at h
    split at h <;> obtain ⟨rfl, rfl⟩ := Prod.mk.inj (Option.some.inj h)
    · exact .none ⟨rfl, rfl, rfl⟩ rfl trivial (by nofun)
    · exact .none ⟨rfl, rfl, rfl⟩ rfl trivial fun next hnext hsound =>
        Progress.more.inj hnext ▸ hsound
  | deleteGroup params rotation =>
    obtain ⟨rfl, rfl⟩ := Prod.mk.inj (Option.some.inj h)
    exact .none ⟨rfl, rfl, rfl⟩ rfl trivial fun next hnext hsound =>
      Progress.more.inj hnext ▸ hsound
  | deleting found params rotation =>
    simp only [statement] at h
    split_ifs at h <;> obtain ⟨rfl, rfl⟩ := Prod.mk.inj (Option.some.inj h) <;>
      exact .none ⟨rfl, rfl, rfl⟩ rfl trivial fun next hnext hsound =>
        Progress.more.inj hnext ▸ hsound
  | insertGroup params rotation =>
    simp only [statement] at h
    split_ifs at h <;> obtain ⟨rfl, rfl⟩ := Prod.mk.inj (Option.some.inj h)
    · exact .none ⟨rfl, rfl, rfl⟩ rfl trivial (by nofun)
    · exact .none ⟨rfl, rfl, rfl⟩ rfl trivial fun next hnext hsound =>
        Progress.more.inj hnext ▸ ⟨hsound, _, rfl⟩
    · exact .none ⟨rfl, rfl, rfl⟩ rfl trivial (by nofun)
    · exact .none ⟨rfl, rfl, rfl⟩ rfl trivial fun next hnext hsound =>
        Progress.more.inj hnext ▸ ⟨hsound, _, rfl⟩
  | insertShares group params rotation =>
    simp only [statement] at h
    split_ifs at h with hholders <;> obtain ⟨rfl, rfl⟩ := Prod.mk.inj (Option.some.inj h)
    · refine .none ⟨rfl, rfl, rfl⟩ rfl trivial fun next hnext hsound => ?_
      obtain ⟨hcheck, rotatedAt, rfl⟩ := hsound
      rw [← Progress.more.inj hnext]
      exact ⟨held_of_check hcheck hholders rotatedAt, by simp⟩
    · exact .none ⟨rfl, rfl, rfl⟩ rfl trivial (by nofun)
  | updateEnvelopes group shares updated rest =>
    cases rest with
    | nil =>
      obtain ⟨rfl, rfl⟩ := Prod.mk.inj (Option.some.inj h)
      exact .commit rfl
    | cons entry rest =>
      simp only [statement] at h
      split_ifs at h <;> obtain ⟨rfl, rfl⟩ := Prod.mk.inj (Option.some.inj h)
      · refine .none ⟨rfl, rfl, rfl⟩ rfl trivial fun next hnext hsound => ?_
        rw [← Progress.more.inj hnext]
        refine ⟨hsound.1, List.forall_mem_append.mpr ⟨hsound.2, ?_⟩⟩
        exact List.forall_mem_singleton.mpr rfl
      · exact .none ⟨rfl, rfl, rfl⟩ rfl trivial fun next hnext hsound =>
          Progress.more.inj hnext ▸ hsound
  | putEnvelope envelope =>
    simp only [statement] at h
    split_ifs at h
    obtain ⟨rfl, rfl⟩ := Prod.mk.inj (Option.some.inj h)
    exact .put rfl

/-! ## What a step does -/

/-- How the call goes on after a statement. -/
def Progress.apply (c : Nat) (s : State) : Progress → State
  | .more task => s.goOn c task
  | .done _ => s.finish c

/-- The calls in progress are those of before, but for one that is sound. -/
def Tasks (s s' : State) : Prop :=
  ∀ c task, s'.tasks c = some task → s.tasks c = some task ∨ task.Sound

/-- Beyond the statements of calls, a step leaves what is stored. -/
inductive Move (s s' : State) : Event → Prop where
  | aside {e : Event} (hsame : Same s s') (hcareful : Careful s e) (htasks : Tasks s s') :
      Move s s' e
  | statement {c : Nat} {now : Int} {task : Task} {mid : State} {progress : Progress}
      (htask : s.tasks c = some task) (heffect : Effect s mid task progress)
      (hafter : s' = progress.apply c mid) : Move s s' (.resume c now)

theorem tasks_goOn (hsound : task.Sound) : Tasks s (s.goOn c task) := by
  intro d other hother
  change Function.update s.tasks c (some task) d = some other at hother
  by_cases hd : d = c
  · subst hd
    rw [Function.update_self] at hother
    exact .inr (Option.some.inj hother ▸ hsound)
  · rw [Function.update_of_ne hd] at hother
    exact .inl hother

theorem tasks_finish : Tasks s (s.finish c) := by
  intro d other hother
  change Function.update s.tasks c none d = some other at hother
  by_cases hd : d = c
  · subst hd
    rw [Function.update_self] at hother
    cases hother
  · rw [Function.update_of_ne hd] at hother
    exact .inl hother

theorem begin_move {e : Event} (h : s.begin c task = some s') (hsound : task.Sound)
    (hcareful : Careful s e) : Move s s' e := by
  unfold State.begin at h
  split_ifs at h
  obtain rfl := Option.some.inj h
  exact .aside ⟨rfl, rfl, rfl⟩ hcareful (tasks_goOn hsound)

/-- **What a step does.** -/
theorem step_move {e : Event} (h : step s e = some s') : Move s s' e := by
  cases e with
  | getGroup userPubkey =>
    simp only [step] at h
    split at h <;> obtain rfl := Option.some.inj h <;>
      exact .aside ⟨rfl, rfl, rfl⟩ trivial fun _ _ => .inl
  | enrollHub c params =>
    simp only [step] at h
    split at h
    · obtain rfl := Option.some.inj h
      exact .aside ⟨rfl, rfl, rfl⟩ trivial fun _ _ => .inl
    · next hcheck => exact begin_move h hcheck trivial
  | rotateGroup c params rewrapped =>
    simp only [step] at h
    split at h
    · obtain rfl := Option.some.inj h
      exact .aside ⟨rfl, rfl, rfl⟩ trivial fun _ _ => .inl
    · next hcheck => exact begin_move h hcheck trivial
  | putUserEnvelope c userPubkey envelope =>
    simp only [step] at h
    split at h
    · cases h
    · exact begin_move h trivial trivial
  | resume c now =>
    simp only [step] at h
    split at h
    · cases h
    · next task htask =>
      split at h
      · cases h
      · next hstatement =>
        exact .statement htask (statement_cases hstatement) (Option.some.inj h).symm
      · next hstatement =>
        exact .statement htask (statement_cases hstatement) (Option.some.inj h).symm
  | fail c =>
    simp only [step] at h
    split_ifs at h
    obtain rfl := Option.some.inj h
    exact .aside ⟨rfl, rfl, rfl⟩ trivial tasks_finish

/-! ## The shares -/

/-- The shares stored are those of the group that is, and the calls know what they go on. -/
structure Inv (s : State) : Prop where
  sharing : ∀ version group, s.group = some (version, group) → Held group s.shares
  tasks : ∀ c task, s.tasks c = some task → task.Sound

theorem Same.inv (hs : Inv s) (hsame : Same s s') (htasks : Tasks s s') : Inv s' where
  sharing := by
    intro version group hgroup
    rw [hsame.1] at hgroup
    rw [hsame.2.1]
    exact hs.sharing version group hgroup
  tasks := fun d task htask => (htasks d task htask).elim (hs.tasks d task) id

theorem apply_stored (progress : Progress) : (progress.apply c s).group = s.group ∧
    (progress.apply c s).shares = s.shares ∧ (progress.apply c s).envelopes = s.envelopes := by
  cases progress <;> exact ⟨rfl, rfl, rfl⟩

theorem inv_step {e : Event} (hs : Inv s) (h : step s e = some s') : Inv s' := by
  cases step_move h with
  | aside hsame _ htasks => exact Same.inv hs hsame htasks
  | @statement c now task mid progress htask heffect hafter =>
    subst hafter
    cases heffect with
    | none hsame hkept _ hsound =>
      refine Same.inv hs ?_ ?_
      · obtain ⟨hgroup, hshares, henvelopes⟩ := apply_stored (c := c) (s := mid) progress
        exact ⟨hgroup.trans hsame.1, hshares.trans hsame.2.1, henvelopes.trans hsame.2.2⟩
      · have hmid : Tasks s mid := fun d other hother => .inl (hkept ▸ hother)
        cases progress with
        | more next =>
          intro d other hother
          refine (tasks_goOn (hsound next rfl (hs.tasks c _ htask)) d other hother).imp ?_ id
          exact fun h => hkept ▸ h
        | done reply =>
          intro d other hother
          exact (tasks_finish d other hother).imp (fun h => hkept ▸ h) id
    | @commit group shares updated hmid =>
      subst hmid
      refine ⟨?_, fun d other hother => ?_⟩
      · rintro version group' hgroup
        obtain ⟨-, rfl⟩ := Prod.mk.inj (Option.some.inj hgroup)
        exact (hs.tasks c _ htask).1
      · exact (tasks_finish d other hother).elim (hs.tasks d other) id
    | put hmid =>
      subst hmid
      refine ⟨hs.sharing, fun d other hother => ?_⟩
      exact (tasks_finish d other hother).elim (hs.tasks d other) id

theorem inv_init : Inv {} where
  sharing := fun _ _ h => by cases h
  tasks := fun _ _ h => by cases h

/-- **The shares stored are those of the group key that is stored**, in every run. -/
theorem sharing_run {events : List Event} (h : run step {} events = some s) : Inv s :=
  run_inv (fun _ _ _ hs he => inv_step hs he) inv_init h

/-! ## The envelopes -/

/-- Every envelope is wrapped to the group key that is stored. -/
def Wrapped (s : State) : Prop :=
  ∀ e ∈ s.envelopes, s.group.map (fun version => version.2.groupPublicKey) = some e.wrappedTo

theorem wrapped_iff_openable (hs : Inv s) : Wrapped s ↔ ∀ e ∈ s.envelopes, Openable s e := by
  refine forall₂_congr fun e _ => ?_
  constructor
  · intro hkey
    obtain ⟨⟨version, group⟩, hgroup, hwrapped⟩ := Option.map_eq_some_iff.mp hkey
    exact ⟨version, group, hgroup, hwrapped.symm, hs.sharing version group hgroup⟩
  · rintro ⟨version, group, hgroup, hwrapped, -⟩
    rw [hgroup, hwrapped]
    rfl

/-- What envelopes are wrapped to once some have been re-wrapped. -/
theorem forall_mem_updateAll {key : String} {envelopes updated : List UserEnvelope}
    (hupdated : ∀ new ∈ updated, new.wrappedTo = key) :
    (∀ e ∈ updateAll envelopes updated, e.wrappedTo = key) ↔
      ∀ e ∈ envelopes, e.userPubkey ∈ updated.map UserEnvelope.userPubkey ∨ e.wrappedTo = key := by
  induction updated generalizing envelopes with
  | nil => simp [updateAll]
  | cons new updated ih =>
    obtain ⟨hnew, hrest⟩ := List.forall_mem_cons.mp hupdated
    have hcons : updateAll envelopes (new :: updated) = updateAll (envelopes.map fun e =>
        if e.userPubkey = new.userPubkey then new else e) updated := rfl
    rw [hcons, ih hrest, List.forall_mem_map]
    refine forall₂_congr fun e _ => ?_
    by_cases hsame : e.userPubkey = new.userPubkey
    · simp [hsame, hnew]
    · simp [hsame]

theorem wrapped_step_iff {e : Event} (hs : Inv s) (hw : Wrapped s) (h : step s e = some s') :
    Wrapped s' ↔ Careful s e := by
  cases step_move h with
  | aside hsame hcareful _ =>
    refine iff_of_true ?_ hcareful
    unfold Wrapped
    rw [hsame.1, hsame.2.2]
    exact hw
  | @statement c now task mid progress htask heffect hafter =>
    have hcareful : Careful s (.resume c now) ↔ task.Careful s := by
      simp [Careful, htask]
    have hwrapped : Wrapped s' ↔ Wrapped mid := by
      obtain ⟨hgroup, -, henvelopes⟩ := apply_stored (c := c) (s := mid) progress
      rw [hafter, Wrapped, hgroup, henvelopes, Wrapped]
    rw [hcareful, hwrapped]
    cases heffect with
    | none hsame _ hcareful _ =>
      refine iff_of_true ?_ hcareful
      unfold Wrapped
      rw [hsame.1, hsame.2.2]
      exact hw
    | @commit group shares updated hmid =>
      subst hmid
      refine Iff.trans ?_ (forall_mem_updateAll (hs.tasks c _ htask).2)
      refine forall₂_congr fun e _ => ?_
      simp [eq_comm]
    | @put envelope hmid =>
      subst hmid
      constructor
      · intro hall
        obtain ⟨row, hrow, hnew⟩ := exists_mem_upsert UserEnvelope.userPubkey
          (fun _ new : UserEnvelope => new) s.envelopes envelope
        have heq : row = envelope := hnew.elim And.left fun ⟨_, _, _, heq⟩ => heq
        exact heq ▸ hall row hrow
      · intro hkey e he
        have hrow : e ∈ upsert UserEnvelope.userPubkey (fun _ new => new) s.envelopes envelope := he
        rcases mem_upsert hrow with ⟨hold, -⟩ | ⟨old, -, -, rfl⟩ | ⟨rfl, -⟩
        · exact hw e hold
        · exact hkey
        · exact hkey

/-- **The envelopes can be opened in every state of a run exactly if all steps are careful.** -/
theorem always_openable_iff {events : List Event} (h : run step {} events = some t) :
    (∀ before after s, events = before ++ after → run step {} before = some s →
      ∀ e ∈ s.envelopes, Openable s e) ↔ Along step Careful {} events := by
  have hwrapped := inv_iff_along (I := Inv) (G := Wrapped) (P := Careful)
    (fun s e s' hs he => inv_step hs he) (fun s e s' hs hw he => wrapped_step_iff hs hw he)
    inv_init (fun e he => absurd he List.not_mem_nil) h
  rw [← hwrapped]
  refine forall₃_congr fun before after s => forall₂_congr fun _ hrun => ?_
  exact (wrapped_iff_openable (sharing_run hrun)).symm

/-! ## Runs of a hub -/

/-- Two of three shares of a key. -/
def sampleParams (groupPublicKey : String) : GroupParams where
  threshold := 2
  totalShares := 3
  groupPublicKey := groupPublicKey
  shareEnvelopes := [⟨"bea", "s1"⟩, ⟨"cleo", "s2"⟩, ⟨"dora", "s3"⟩]
  shareCommitments := ["c1", "c2", "c3"]
  duressCommitments := none
  sigchainLinkHash := "link"

/-- A hub is enrolled, and Amy reads its key. -/
def enrolled : List Event :=
  .enrollHub 0 (sampleParams "k1") :: List.replicate 5 (.resume 0 0) ++ [.getGroup "amy"]

/-- Amy stores her envelope, which a rotation then re-wraps. -/
def rewrappedEvents : List Event :=
  enrolled ++ [.putUserEnvelope 1 "amy" "x", .resume 1 0,
    .rotateGroup 2 (sampleParams "k2") [("amy", "y")]] ++ List.replicate 8 (.resume 2 0)

/-- Amy stores it once a rotation has found no envelope. -/
def strandedEvents : List Event :=
  enrolled ++ [.rotateGroup 2 (sampleParams "k2") [], .resume 2 0, .resume 2 0,
    .putUserEnvelope 1 "amy" "x", .resume 1 0] ++ List.replicate 5 (.resume 2 0)

/-- Amy's envelope can be opened all along. -/
theorem rewrapped_openable : ∃ t, run step {} rewrappedEvents = some t ∧
    ∀ before after s, rewrappedEvents = before ++ after → run step {} before = some s →
      ∀ e ∈ s.envelopes, Openable s e := by
  have hrun : (run step {} rewrappedEvents).isSome := by decide +kernel
  obtain ⟨t, ht⟩ := Option.isSome_iff_exists.mp hrun
  exact ⟨t, ht, (always_openable_iff ht).mpr (by decide +kernel)⟩

/-- **A rotation strands the envelope that is stored while it goes on.** -/
theorem envelope_lost : ∃ s, run step {} strandedEvents = some s ∧ (∀ c, s.tasks c = none) ∧
    ∃ e ∈ s.envelopes, ¬ Openable s e := by
  refine ⟨_, rfl, ?_, ⟨"amy", "x", "k1"⟩, List.mem_singleton.mpr rfl, ?_⟩
  · rintro (- | - | - | c) <;> rfl
  · rintro ⟨version, group, hgroup, hkey, -⟩
    obtain ⟨-, rfl⟩ := Prod.mk.inj (Option.some.inj hgroup)
    exact absurd hkey (by decide)

end Llamenos.Worker.RecoveryGroup.Envelopes
