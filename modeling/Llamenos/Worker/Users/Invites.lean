import Llamenos.Worker.Users.Calls

/-!
# Redeeming an invite

`redeemInvite` claims the invite, selects or inserts the user and records the use in one
transaction. What it has done before its commit is seen by nobody, and is undone if it fails.

Results:
* `redeemed_once_step`: a commit redeems an invite that no one has redeemed.
* `redemptions_hold`: single use, no effect of a failure, and roles that only grow, in every run.
-/

namespace Llamenos.Worker.Users

open Llamenos.Lib Llamenos.Lib.Locking Llamenos.Shared.Permissions

variable {server : Server} {s s' : State} {c : Nat}

/-! ## Single use -/

/-- A call has redeemed a code for a key. -/
structure Redemption where
  call : Nat
  code : String
  pubkey : String
  deriving DecidableEq

def redeemed (s : State) : Event → List Redemption
  | .commit c _ =>
    match s.calls c with
    | some (.written invite pubkey _) => [⟨c, invite.code, pubkey⟩]
    | _ => []
  | _ => []

/-- What is stored of the redemptions: that each code's row, if it is still there, is used, and by
whom; and that each one's call has ended well. -/
structure Recorded (s : State) (redemptions : List Redemption) : Prop where
  once : (redemptions.map Redemption.code).Nodup
  drawn : ∀ r ∈ redemptions, r.code ∈ s.drawnCodes
  used : ∀ r ∈ redemptions, ∀ row ∈ s.invites, row.code = r.code →
    row.usedAt ≠ none ∧ row.usedBy = some r.pubkey
  ended : ∀ r ∈ redemptions, s.calls r.call = some (.answered (.ok ()))

/-- A step that redeems nothing: the codes stay drawn, a new invite's code is a new one, and the
calls that have ended well stay as they are. -/
structure Leaves (s s' : State) : Prop where
  drawn : ∀ code ∈ s.drawnCodes, code ∈ s'.drawnCodes
  invites : ∀ row ∈ s'.invites, row ∈ s.invites ∨ row.code ∉ s.drawnCodes
  ended : ∀ d, s.calls d = some (.answered (.ok ())) → s'.calls d = s.calls d
variable {redemptions : List Redemption}

theorem Recorded.keep (h : Recorded s redemptions)
    (hleaves : Leaves s s') : Recorded s' redemptions where
  once := h.once
  drawn r hr := hleaves.drawn r.code (h.drawn r hr)
  used r hr row hrow hcode := by
    rcases hleaves.invites row hrow with hold | hnew
    · exact h.used r hr row hold hcode
    · rw [hcode] at hnew
      exact absurd (h.drawn r hr) hnew
  ended r hr := (hleaves.ended r.call (h.ended r hr)).trans (h.ended r hr)

/-- A step of a call that has not ended leaves the calls that have. -/
theorem ended_update {call : Call} (hc : s.calls c ≠ some (.answered (.ok ()))) (d : Nat)
    (hd : s.calls d = some (.answered (.ok ()))) :
    Function.update s.calls c (some call) d = s.calls d := by
  refine Function.update_of_ne ?_ _ _
  rintro rfl
  exact hc hd

theorem leaves_goOn {call : Call} (hc : s.calls c ≠ some (.answered (.ok ()))) (locks : Locks Key)
    (users : List UserRow) : Leaves s { s.goOn c call with locks, users } :=
  ⟨fun _ => id, fun _ => .inl, ended_update hc⟩
variable {pubkey : String}

theorem leaves_write {users : List UserRow}
    (h : s.write pubkey users = some s') : Leaves s s' := by
  obtain ⟨-, rfl⟩ := of_write h
  exact ⟨fun _ => id, fun _ => .inl, fun _ _ => rfl⟩

theorem leaves_insert {users : List UserRow}
    (h : s.insert pubkey users = some s') : Leaves s s' := by
  unfold State.insert at h
  split_ifs at h
  · obtain rfl := Option.some.inj h
    exact ⟨fun _ => id, fun _ => .inl, fun _ _ => rfl⟩
  · exact leaves_write h

theorem ne_ended {call : Call} (hc : s.calls c = some call) (hcall : call ≠ .answered (.ok ())) :
    s.calls c ≠ some (.answered (.ok ())) := by
  rw [hc]
  exact fun h => hcall (Option.some.inj h)

theorem ne_ended_of_none (hc : s.calls c = none) : s.calls c ≠ some (.answered (.ok ())) := by
  rw [hc]
  nofun

theorem leaves_step {e : Event} (he : ∀ c now, e ≠ .commit c now)
    (hstep : step server s e = some s') : Leaves s s' := by
  cases e with
  | bootstrapAdmin c pubkey =>
    obtain ⟨hc, rfl | ⟨-, rfl⟩⟩ := of_bootstrapAdmin hstep
    · exact leaves_goOn (ne_ended_of_none hc) s.locks s.users
    · exact leaves_goOn (ne_ended_of_none hc) s.locks s.users
  | insertAdmin c now =>
    obtain ⟨pubkey, u, hc, hu, rfl⟩ := of_insertAdmin hstep
    obtain ⟨-, rfl⟩ := of_write hu
    exact leaves_goOn (ne_ended hc nofun) s.locks _
  | ensureInit adminPubkey now => exact leaves_write hstep
  | ensurePlatformAdmin now => exact leaves_write hstep
  | ensureDemoAccount boot account now =>
    obtain ⟨-, hstep⟩ := Option.ite_none_right_eq_some.mp hstep
    exact leaves_insert hstep
  | createUser data now => exact leaves_insert hstep
  | updateUser pubkey data isAdmin now => exact leaves_write hstep
  | deleteUser pubkey => exact leaves_write hstep
  | changeHubRole c pubkey change =>
    obtain ⟨hc, rfl | ⟨hubRoles, -, rfl⟩⟩ := of_changeHubRole hstep
    · exact leaves_goOn (ne_ended_of_none hc) s.locks s.users
    · exact leaves_goOn (ne_ended_of_none hc) _ s.users
  | updateHubRoles c now =>
    obtain ⟨pubkey, hubRoles, hc, rfl⟩ := of_updateHubRoles hstep
    exact leaves_goOn (ne_ended hc nofun) _ _
  | createInvite data code now =>
    obtain ⟨hnew, rfl⟩ := of_createInvite hstep
    refine ⟨fun _ => List.mem_cons_of_mem code, fun row hrow => ?_, fun _ _ => rfl⟩
    rcases List.mem_append.mp hrow with hold | hlast
    · exact .inl hold
    · rw [List.mem_singleton.mp hlast]
      exact .inr hnew
  | redeemInvite c code pubkey now databaseNow =>
    obtain ⟨hc, ⟨-, rfl⟩ | ⟨invite, -, -, rfl⟩⟩ := of_redeemInvite hstep
    · exact leaves_goOn (ne_ended_of_none hc) s.locks s.users
    · exact leaves_goOn (ne_ended_of_none hc) _ s.users
  | resolveHub c hubs =>
    obtain ⟨invite, pubkey, hc, rfl⟩ := of_resolveHub hstep
    exact leaves_goOn (ne_ended hc nofun) s.locks s.users
  | selectUser c =>
    obtain ⟨invite, pubkey, hubId, hc, ⟨-, rfl⟩ | ⟨row, -, -, rfl⟩⟩ := of_selectUser hstep
    · exact leaves_goOn (ne_ended hc nofun) s.locks s.users
    · exact leaves_goOn (ne_ended hc nofun) _ s.users
  | writeUser c now =>
    obtain ⟨invite, pubkey, hubId, existing, hc, hwrite⟩ := of_writeUser hstep
    rcases hwrite with ⟨e, rfl⟩ | ⟨row, hub, -, rfl⟩ | ⟨hub, -, -, -, rfl⟩
    · exact leaves_goOn (ne_ended hc nofun) _ s.users
    · exact leaves_goOn (ne_ended hc nofun) s.locks s.users
    · exact leaves_goOn (ne_ended hc nofun) _ s.users
  | commit c now => exact absurd rfl (he c now)
  | fail c =>
    obtain ⟨⟨call, hc, hrunning⟩, rfl⟩ := of_fail hstep
    exact leaves_goOn (ne_ended hc (hrunning (.ok ()))) _ s.users
  | revokeInvite code =>
    obtain ⟨-, hstep⟩ := Option.ite_none_right_eq_some.mp hstep
    obtain rfl := Option.some.inj hstep
    exact ⟨fun _ => id, fun row hrow => .inl (List.mem_of_mem_filter hrow), fun _ _ => rfl⟩
  | validateInvite code now =>
    obtain rfl := Option.some.inj hstep
    exact ⟨fun _ => id, fun _ => .inl, fun _ _ => rfl⟩

/-- **What a commit redeems, nobody has.** -/
theorem redeemed_once_step (hs : Sound s)
    (h : Recorded s redemptions) {invite : InviteRow} {write : UserWrite}
    (hc : s.calls c = some (.written invite pubkey write)) (now : Int) :
    Recorded (State.finish { s with
        users := write.apply s.users now, invites := replaceInvite s.invites invite } c (.ok ()))
      (redemptions ++ [⟨c, invite.code, pubkey⟩]) := by
  obtain ⟨⟨row, hrow, hunused, used, hinvite⟩, -⟩ := hs.calls c _ hc
  have hcode : row.code = invite.code := by rw [hinvite]
  have hfresh : ∀ r ∈ redemptions, r.code ≠ invite.code := fun r hr hsame =>
    (h.used r hr row hrow (hcode.trans hsame.symm)).1 hunused
  refine ⟨?_, fun r hr => ?_, fun r hr row' hrow' hcode' => ?_, fun r hr => ?_⟩
  · rw [List.map_append]
    refine h.once.append (List.nodup_singleton _) fun code hmem hlast => ?_
    obtain ⟨r, hr, rfl⟩ := List.mem_map.mp hmem
    exact hfresh r hr (List.mem_singleton.mp hlast)
  · rcases List.mem_append.mp hr with hr | hr
    · exact h.drawn r hr
    · rw [List.mem_singleton.mp hr]
      exact hcode ▸ hs.drawn row hrow
  · rcases List.mem_append.mp hr with hr | hr
    · have hne : row'.code ≠ invite.code := fun hsame => hfresh r hr (hcode'.symm.trans hsame)
      exact h.used r hr row' ((mem_replaceInvite hne).mp hrow') hcode'
    · rw [List.mem_singleton.mp hr] at hcode' ⊢
      obtain ⟨old, hold, rfl⟩ := List.mem_map.mp hrow'
      by_cases hsame : old.code = invite.code
      · rw [if_pos hsame, hinvite]
        exact ⟨nofun, rfl⟩
      · rw [if_neg hsame] at hcode'
        exact absurd hcode' hsame
  · rcases List.mem_append.mp hr with hr | hr
    · exact (ended_update (ne_ended hc nofun) r.call (h.ended r hr)).trans (h.ended r hr)
    · rw [List.mem_singleton.mp hr]
      exact Function.update_self ..

theorem recorded_step (hs : Sound s)
    (h : Recorded s redemptions) {e : Event} (hstep : step server s e = some s') :
    Recorded s' (redemptions ++ redeemed s e) := by
  by_cases he : ∃ c now, e = .commit c now
  · obtain ⟨c, now, rfl⟩ := he
    obtain ⟨invite, pubkey, write, hc, rfl⟩ := of_commit hstep
    simp only [redeemed, hc]
    exact redeemed_once_step hs h hc now
  · have hnone : redeemed s e = [] := by
      cases e with
      | commit c now => exact absurd ⟨c, now, rfl⟩ he
      | _ => rfl
    rw [hnone, List.append_nil]
    exact h.keep (leaves_step (fun c now hcommit => he ⟨c, now, hcommit⟩) hstep)

theorem recorded_run {es : List Event} {t : State}
    (h : Runs.run (step server) start es = some t) :
    Sound t ∧ Recorded t (Runs.emitted (step server) redeemed start es) := by
  have hstart : Sound start ∧ Recorded start [] :=
    ⟨sound_start, List.nodup_nil, nofun, nofun, nofun⟩
  refine Runs.run_emitted (I := fun s redemptions => Sound s ∧ Recorded s redemptions) ?_ []
    hstart h
  intro s redemptions e s' hI hstep
  exact ⟨sound_step hI.1 hstep, recorded_step hI.1 hI.2 hstep⟩

/-! ## A failure -/

/-- What the call has claimed. -/
def Call.claim : Call → Option InviteRow
  | .claimed invite _ => some invite
  | .resolved invite _ _ => some invite
  | .selected invite _ _ _ => some invite
  | .written invite _ _ => some invite
  | _ => none

/-- A call that begins claims an invite of the code. -/
def Redeemable (server : Server) (s : State) (code : String) (databaseNow : Int) : Prop :=
  ∀ c pubkey now, s.calls c = none →
    ∃ s' invite, step server s (.redeemInvite c code pubkey now databaseNow) = some s' ∧
      s'.calls c = some (.claimed invite pubkey) ∧ invite.code = code

/-- An event of `redeemInvite`. -/
def Event.redeems : Event → Prop
  | .redeemInvite _ _ _ _ _ => True
  | .resolveHub _ _ => True
  | .selectUser _ => True
  | .writeUser _ _ => True
  | .commit _ _ => True
  | .fail _ => True
  | _ => False

/-- **Before its commit, nothing that a redemption does is seen.** -/
theorem tables_of_redeems {e : Event} (he : e.redeems) (hnone : redeemed s e = [])
    (hstep : step server s e = some s') : s'.users = s.users ∧ s'.invites = s.invites := by
  cases e with
  | redeemInvite c code pubkey now databaseNow =>
    obtain ⟨-, ⟨-, rfl⟩ | ⟨invite, -, -, rfl⟩⟩ := of_redeemInvite hstep <;> exact ⟨rfl, rfl⟩
  | resolveHub c hubs =>
    obtain ⟨invite, pubkey, -, rfl⟩ := of_resolveHub hstep
    exact ⟨rfl, rfl⟩
  | selectUser c =>
    obtain ⟨_, _, _, -, ⟨-, rfl⟩ | ⟨row, -, -, rfl⟩⟩ := of_selectUser hstep <;> exact ⟨rfl, rfl⟩
  | writeUser c now =>
    obtain ⟨_, _, _, _, -, ⟨e, rfl⟩ | ⟨row, hub, -, rfl⟩ | ⟨hub, -, -, -, rfl⟩⟩ :=
      of_writeUser hstep <;> exact ⟨rfl, rfl⟩
  | commit c now =>
    obtain ⟨invite, pubkey, write, hc, -⟩ := of_commit hstep
    simp [redeemed, hc] at hnone
  | fail c =>
    obtain ⟨-, rfl⟩ := of_fail hstep
    exact ⟨rfl, rfl⟩
  | _ => cases he

/-- A step of another call, or one of no call, leaves the claim. -/
def Keeps (s' : State) (c : Nat) (invite : InviteRow) : Prop :=
  ∃ call, s'.calls c = some call ∧ call.claim = some invite

section Claims

variable {call : Call} {invite : InviteRow} (hc : s.calls c = some call)
  (hclaim : call.claim = some invite)

include hc hclaim

theorem keeps_goOn {d : Nat} (hd : ∀ other, s.calls d = some other → other.claim = none)
    (other : Call) (locks : Locks Key) (users : List UserRow) :
    Keeps { s.goOn d other with locks, users } c invite := by
  have hne : c ≠ d := by
    rintro rfl
    rw [hd call hc] at hclaim
    cases hclaim
  exact ⟨call, (Function.update_of_ne hne _ _).trans hc, hclaim⟩

theorem keeps_write {pubkey : String} {users : List UserRow} (h : s.write pubkey users = some s') :
    Keeps s' c invite := by
  obtain ⟨-, rfl⟩ := of_write h
  exact ⟨call, hc, hclaim⟩

theorem keeps_insert {pubkey : String} {users : List UserRow}
    (h : s.insert pubkey users = some s') : Keeps s' c invite := by
  unfold State.insert at h
  split_ifs at h
  · exact Option.some.inj h ▸ ⟨call, hc, hclaim⟩
  · exact keeps_write hc hclaim h

/-- The call goes on with its claim, or another call does something. -/
theorem keeps_update {d : Nat} {old new : Call} (hd : s.calls d = some old)
    (hnew : new.claim = old.claim) (locks : Locks Key) :
    Keeps { s.goOn d new with locks } c invite := by
  by_cases hcd : c = d
  · subst hcd
    obtain rfl := Option.some.inj (hc.symm.trans hd)
    exact ⟨new, Function.update_self .., hnew.trans hclaim⟩
  · exact ⟨call, (Function.update_of_ne hcd _ _).trans hc, hclaim⟩

theorem keeps_finish (d : Nat) (result : Except UserError Unit) :
    Keeps (s.finish d result) c invite ∨ c = d := by
  by_cases hcd : c = d
  · exact .inr hcd
  · exact .inl ⟨call, (Function.update_of_ne hcd _ _).trans hc, hclaim⟩

/-- **A claim is kept until its call fails, or commits.** -/
theorem claim_step {e : Event} (hstep : step server s e = some s') :
    Keeps s' c invite ∨ (∃ err, s' = s.finish c (.error err)) ∨
      s'.calls c = some (.answered (.ok ())) := by
  have hnone : ∀ {d : Nat}, s.calls d = none → ∀ other, s.calls d = some other →
      other.claim = none := by
    intro d hd other hother
    rw [hd] at hother
    cases hother
  have hfirst : ∀ {d : Nat} {old : Call}, s.calls d = some old → old.claim = none → ∀ other,
      s.calls d = some other → other.claim = none := by
    intro d old hd hold other hother
    rwa [Option.some.inj (hother.symm.trans hd)]
  cases e with
  | bootstrapAdmin d pubkey =>
    obtain ⟨hd, rfl | ⟨-, rfl⟩⟩ := of_bootstrapAdmin hstep
    · exact .inl (keeps_goOn hc hclaim (hnone hd) _ s.locks s.users)
    · exact .inl (keeps_goOn hc hclaim (hnone hd) _ s.locks s.users)
  | insertAdmin d now =>
    obtain ⟨pubkey, u, hd, hu, rfl⟩ := of_insertAdmin hstep
    obtain ⟨-, rfl⟩ := of_write hu
    exact .inl (keeps_goOn hc hclaim (hfirst hd rfl) _ s.locks _)
  | ensureInit adminPubkey now => exact .inl (keeps_write hc hclaim hstep)
  | ensurePlatformAdmin now => exact .inl (keeps_write hc hclaim hstep)
  | ensureDemoAccount boot account now =>
    obtain ⟨-, hstep⟩ := Option.ite_none_right_eq_some.mp hstep
    exact .inl (keeps_insert hc hclaim hstep)
  | createUser data now => exact .inl (keeps_insert hc hclaim hstep)
  | updateUser pubkey data isAdmin now => exact .inl (keeps_write hc hclaim hstep)
  | deleteUser pubkey => exact .inl (keeps_write hc hclaim hstep)
  | changeHubRole d pubkey change =>
    obtain ⟨hd, rfl | ⟨hubRoles, -, rfl⟩⟩ := of_changeHubRole hstep
    · exact .inl (keeps_goOn hc hclaim (hnone hd) _ s.locks s.users)
    · exact .inl (keeps_goOn hc hclaim (hnone hd) _ _ s.users)
  | updateHubRoles d now =>
    obtain ⟨pubkey, hubRoles, hd, rfl⟩ := of_updateHubRoles hstep
    exact .inl (keeps_goOn hc hclaim (hfirst hd rfl) _ _ _)
  | createInvite data code now =>
    obtain ⟨-, rfl⟩ := of_createInvite hstep
    exact .inl ⟨call, hc, hclaim⟩
  | redeemInvite d code pubkey now databaseNow =>
    obtain ⟨hd, ⟨-, rfl⟩ | ⟨invite, -, -, rfl⟩⟩ := of_redeemInvite hstep
    · exact .inl (keeps_goOn hc hclaim (hnone hd) _ s.locks s.users)
    · exact .inl (keeps_goOn hc hclaim (hnone hd) _ _ s.users)
  | resolveHub d hubs =>
    obtain ⟨_, pubkey, hd, rfl⟩ := of_resolveHub hstep
    refine .inl (keeps_update hc hclaim hd ?_ s.locks)
    rfl
  | selectUser d =>
    obtain ⟨_, pubkey, hubId, hd, ⟨-, rfl⟩ | ⟨row, -, -, rfl⟩⟩ := of_selectUser hstep
    · refine .inl (keeps_update hc hclaim hd ?_ s.locks)
      rfl
    · refine .inl (keeps_update hc hclaim hd ?_ _)
      rfl
  | writeUser d now =>
    obtain ⟨_, pubkey, hubId, existing, hd, hwrite⟩ := of_writeUser hstep
    rcases hwrite with ⟨e, rfl⟩ | ⟨row, hub, -, rfl⟩ | ⟨hub, -, -, -, rfl⟩
    · rcases keeps_finish hc hclaim d (.error e) with hkeep | rfl
      · exact .inl hkeep
      · exact .inr (.inl ⟨e, rfl⟩)
    · refine .inl (keeps_update hc hclaim hd ?_ s.locks)
      rfl
    · refine .inl (keeps_update hc hclaim hd ?_ _)
      rfl
  | commit d now =>
    obtain ⟨_, pubkey, write, hd, rfl⟩ := of_commit hstep
    by_cases hcd : c = d
    · exact .inr (.inr (hcd ▸ Function.update_self ..))
    · exact .inl ⟨call, (Function.update_of_ne hcd _ _).trans hc, hclaim⟩
  | fail d =>
    obtain ⟨-, rfl⟩ := of_fail hstep
    rcases keeps_finish hc hclaim d (.error .database) with hkeep | rfl
    · exact .inl hkeep
    · exact .inr (.inl ⟨_, rfl⟩)
  | revokeInvite code =>
    obtain ⟨-, hstep⟩ := Option.ite_none_right_eq_some.mp hstep
    exact .inl (Option.some.inj hstep ▸ ⟨call, hc, hclaim⟩)
  | validateInvite code now => exact .inl (Option.some.inj hstep ▸ ⟨call, hc, hclaim⟩)

end Claims

theorem CallSound.claimed {call : Call} {invite : InviteRow} (h : CallSound s call)
    (hclaim : call.claim = some invite) :
    (∃ pubkey, Claimed s invite pubkey) ∧ call.holds (.invite invite.code) := by
  cases call with
  | bootstrapping => cases hclaim
  | changing => cases hclaim
  | answered => cases hclaim
  | claimed own pubkey =>
    obtain rfl := Option.some.inj hclaim
    exact ⟨⟨pubkey, h⟩, rfl⟩
  | resolved own pubkey hubId =>
    obtain rfl := Option.some.inj hclaim
    exact ⟨⟨pubkey, h⟩, rfl⟩
  | selected own pubkey hubId existing =>
    obtain rfl := Option.some.inj hclaim
    refine ⟨⟨pubkey, h.1⟩, ?_⟩
    cases existing with
    | none => rfl
    | some row => exact .inr rfl
  | written own pubkey write =>
    obtain rfl := Option.some.inj hclaim
    exact ⟨⟨pubkey, h.1⟩, .inr rfl⟩

/-- **What a failed call had claimed can be redeemed**, as long as it does not expire. -/
theorem redeemable_of_finish (hs : Sound s) {call : Call} {invite : InviteRow}
    (hc : s.calls c = some call) (hclaim : call.claim = some invite) (err : UserError)
    {databaseNow : Int} (hexpires : databaseNow < invite.expiresAt) :
    Redeemable server (s.finish c (.error err)) invite.code databaseNow := by
  obtain ⟨⟨owner, row, hrow, hunused, used, rfl⟩, hholds⟩ := (hs.calls c call hc).claimed hclaim
  have hfree : (s.finish c (.error err)).locks (.invite row.code) = none :=
    if_pos ((hs.held.locked_iff hc _).mpr hholds)
  intro d pubkey now hd
  have hsome : (s.invites.find? (Claimable row.code databaseNow)).isSome := by
    rw [List.find?_isSome]
    exact ⟨row, hrow, by simpa [Claimable] using ⟨hunused, hexpires⟩⟩
  obtain ⟨found, hfound⟩ := Option.isSome_iff_exists.mp hsome
  have hcode : Claimable row.code databaseNow found := by simpa using List.find?_some hfound
  have hinvites : (s.finish c (.error err)).invites = s.invites := rfl
  have hstep : step server (s.finish c (.error err))
      (.redeemInvite d row.code pubkey now databaseNow) =
        some ((s.finish c (.error err)).lock d (.invite row.code)
          (.claimed { found with usedAt := some now, usedBy := some pubkey } pubkey)) := by
    simp only [step, hd, hinvites, hfound]
    exact if_pos hfree
  exact ⟨_, _, hstep, Function.update_self .., hcode.1⟩

/-- **A commit takes no hub role away.** -/
theorem hubRoles_commit (hs : Sound s) {invite : InviteRow} {write : UserWrite}
    (hc : s.calls c = some (.written invite pubkey write)) (now : Int) {row : UserRow}
    (hrow : row ∈ s.users) : ∃ row' ∈ write.apply s.users now, row'.pubkey = row.pubkey ∧
      ∀ hub role, HasHubRole row hub role → HasHubRole row' hub role := by
  obtain ⟨-, hwrite⟩ := hs.calls c _ hc
  cases write with
  | insert new => exact ⟨row, List.mem_append_left [new] hrow, rfl, fun _ _ => id⟩
  | hubRoles key hubRoles =>
    obtain ⟨rfl, selected, hselected, hkey, hubId, rfl⟩ := hwrite
    by_cases hsame : row.pubkey = key
    · obtain rfl : row = selected :=
        List.inj_on_of_nodup_map hs.keys hrow hselected (hsame.trans hkey.symm)
      refine ⟨_, List.mem_map.mpr ⟨row, hrow, if_pos hsame⟩, rfl, fun hub role hhas => ?_⟩
      exact mem_mergeHubRole hhas hubId invite.roleIds now
    · exact ⟨row, List.mem_map.mpr ⟨row, hrow, if_neg hsame⟩, rfl, fun _ _ => id⟩

/-- **An invite is redeemed once, a redemption that fails does nothing, and one that does not takes
no hub role away.** In every run: each code is redeemed by at most one call, whose key the used row
names; a call that fails has redeemed nothing. And in each step that may come next: a redemption
leaves the users and the invites as they are until it commits; if it fails, the code that it had
claimed can be redeemed; if it commits, every user keeps the hub roles. -/
theorem redemptions_hold (server : Server) {es : List Event} {t : State}
    (h : Runs.run (step server) start es = some t) :
    ((Runs.emitted (step server) redeemed start es).map Redemption.code).Nodup ∧
    (∀ r ∈ Runs.emitted (step server) redeemed start es, ∀ row ∈ t.invites, row.code = r.code →
      row.usedAt ≠ none ∧ row.usedBy = some r.pubkey) ∧
    (∀ c err, t.calls c = some (.answered (.error err)) →
      ∀ r ∈ Runs.emitted (step server) redeemed start es, r.call ≠ c) ∧
    ∀ e u, step server t e = some u →
      (e.redeems → redeemed t e = [] → u.users = t.users ∧ u.invites = t.invites) ∧
      (∀ c call invite err, t.calls c = some call → call.claim = some invite →
        u.calls c = some (.answered (.error err)) →
          u.users = t.users ∧ u.invites = t.invites ∧
          ∀ databaseNow < invite.expiresAt, Redeemable server u invite.code databaseNow) ∧
      (redeemed t e ≠ [] → ∀ row ∈ t.users, ∃ row' ∈ u.users, row'.pubkey = row.pubkey ∧
        ∀ hub role, HasHubRole row hub role → HasHubRole row' hub role) := by
  obtain ⟨hs, hrecorded⟩ := recorded_run h
  refine ⟨hrecorded.once, hrecorded.used, fun c err hc r hr hcall => ?_, fun e u hu => ⟨?_, ?_, ?_⟩⟩
  · have hended := hrecorded.ended r hr
    rw [hcall, hc] at hended
    cases hended
  · exact fun he hnone => tables_of_redeems he hnone hu
  · intro c call invite err hc hclaim hfailed
    rcases claim_step hc hclaim hu with ⟨call', hc', hclaim'⟩ | ⟨err', rfl⟩ | hended
    · obtain rfl := Option.some.inj (hc'.symm.trans hfailed)
      cases hclaim'
    · exact ⟨rfl, rfl, fun _ => redeemable_of_finish hs hc hclaim err'⟩
    · rw [hended] at hfailed
      cases hfailed
  · intro hredeemed row hrow
    cases e with
    | commit c now =>
      obtain ⟨invite, pubkey, write, hc, rfl⟩ := of_commit hu
      exact hubRoles_commit hs hc now hrow
    | _ => exact absurd rfl hredeemed

/-- Ann's call fails, Bob redeems the code, and Ann comes too late. -/
def failedAndRedeemed : List Event :=
  [.createInvite ⟨"Bob", "", ["role-volunteer"], some "hub-1", "admin"⟩ "code" 0,
    .redeemInvite 0 "code" "ann" 1 1, .resolveHub 0 [], .selectUser 0, .fail 0,
    .redeemInvite 1 "code" "bob" 2 2, .resolveHub 1 [], .selectUser 1, .writeUser 1 2, .commit 1 2,
    .redeemInvite 2 "code" "ann" 3 3]

theorem failedAndRedeemed_hold :
    ∃ t, Runs.run (step sampleServer) start failedAndRedeemed = some t ∧
      Runs.emitted (step sampleServer) redeemed start failedAndRedeemed = [⟨1, "code", "bob"⟩] ∧
      t.users.map (fun row => (row.pubkey, row.hubRoles)) =
        [("bob", [⟨"hub-1", ["role-volunteer"]⟩])] ∧
      ∀ c err, t.calls c = some (.answered (.error err)) → c ≠ 1 := by
  obtain ⟨t, ht, hredeemed, husers⟩ :
      ∃ t ∈ Runs.run (step sampleServer) start failedAndRedeemed,
        Runs.emitted (step sampleServer) redeemed start failedAndRedeemed =
          [⟨1, "code", "bob"⟩] ∧
        t.users.map (fun row => (row.pubkey, row.hubRoles)) =
          [("bob", [⟨"hub-1", ["role-volunteer"]⟩])] := by
    decide +kernel
  refine ⟨t, ht, hredeemed, husers, fun c err hc => Ne.symm ?_⟩
  refine (redemptions_hold sampleServer ht).2.2.1 c err hc ⟨1, "code", "bob"⟩ ?_
  rw [hredeemed]
  exact List.mem_singleton_self _

end Llamenos.Worker.Users
