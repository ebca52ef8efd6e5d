import Llamenos.Worker.Users

/-!
# What overlapping calls leave of each other

A statement that writes a user leaves the rows of the other users alone, and what a transaction has
read of a row that it holds the lock of is still so when it commits.

Results:
* `Writes`: what every write of `users` does, at most.
* `Sound`: the rows and the calls, in every state a run comes to (`sound_run`).
-/

namespace Llamenos.Worker.Users

open Llamenos.Lib Llamenos.Lib.Locking Llamenos.Shared.Permissions

/-! ## Writes of one user -/

/-- Only rows of the key are written, and no key gets a second row. -/
structure Writes (pubkey : String) (users users' : List UserRow) : Prop where
  others : ∀ row, row.pubkey ≠ pubkey → (row ∈ users' ↔ row ∈ users)
  keys : (users.map UserRow.pubkey).Nodup → (users'.map UserRow.pubkey).Nodup

theorem writes_self (pubkey : String) (users : List UserRow) : Writes pubkey users users :=
  ⟨fun _ _ => Iff.rfl, id⟩

theorem writes_upsert {merge : UserRow → UserRow → UserRow}
    (hmerge : ∀ old new, (merge old new).pubkey = old.pubkey) (users : List UserRow)
    (new : UserRow) : Writes new.pubkey users (Upserts.upsert UserRow.pubkey merge users new) :=
  ⟨fun _ hne => Upserts.mem_upsert_of_ne hmerge hne, Upserts.nodup_upsert hmerge⟩
variable {users : List UserRow}

theorem writes_append {new : UserRow}
    (hnone : ∀ row ∈ users, row.pubkey ≠ new.pubkey) :
    Writes new.pubkey users (users ++ [new]) where
  others row hne := by
    rw [List.mem_append, List.mem_singleton, or_iff_left]
    rintro rfl
    exact hne rfl
  keys h := by
    rw [List.map_append]
    refine h.append (List.nodup_singleton _) fun key hkey hnew => ?_
    obtain ⟨row, hrow, rfl⟩ := List.mem_map.mp hkey
    exact hnone row hrow (List.mem_singleton.mp hnew)

theorem writes_updateRow {set : UserRow → UserRow} (hset : ∀ row, (set row).pubkey = row.pubkey)
    (users : List UserRow) (pubkey : String) :
    Writes pubkey users (updateRow users pubkey set) where
  others row hne := by
    unfold updateRow
    rw [List.mem_map]
    constructor
    · rintro ⟨old, hold, rfl⟩
      by_cases hkey : old.pubkey = pubkey
      · rw [if_pos hkey] at hne
        exact absurd ((hset old).trans hkey) hne
      · rwa [if_neg hkey]
    · exact fun hrow => ⟨row, hrow, if_neg hne⟩
  keys h := by
    have hkeys : (updateRow users pubkey set).map UserRow.pubkey = users.map UserRow.pubkey := by
      unfold updateRow
      rw [List.map_map]
      refine List.map_congr_left fun row _ => ?_
      by_cases hkey : row.pubkey = pubkey <;> simp [hkey, hset]
    rwa [hkeys]

theorem writes_delete (users : List UserRow) (pubkey : String) :
    Writes pubkey users (deleteUser users pubkey) where
  others row hne := by
    simp [deleteUser, hne]
  keys h := h.sublist (List.filter_sublist.map UserRow.pubkey)

theorem writes_insertUser (users : List UserRow) (new : UserRow) :
    Writes new.pubkey users (insertUser users new) := by
  unfold insertUser
  split_ifs with hthere
  · exact writes_self _ users
  · exact writes_append fun row hrow hkey => hthere ⟨row, hrow, hkey⟩

theorem restored_pubkey (old new : UserRow) : (restored old new).pubkey = old.pubkey := rfl

theorem writes_insertAdmin (users : List UserRow) (pubkey : String) (now : Int) :
    Writes pubkey users (insertAdmin users pubkey now) :=
  writes_upsert restored_pubkey users { platformAdminRow pubkey now with profileCompleted := false }

theorem writes_ensureInit (users : List UserRow) (adminPubkey : String) (now : Int) :
    Writes adminPubkey users (ensureInit users adminPubkey now) := by
  unfold ensureInit
  split_ifs
  · exact writes_self _ users
  · exact writes_upsert restored_pubkey users (platformAdminRow adminPubkey now)

theorem appended_pubkey (now : Int) (old new : UserRow) :
    (appended now old new).pubkey = old.pubkey := by
  unfold appended
  split_ifs <;> rfl

theorem writes_ensurePlatformAdmin (server : Server) (users : List UserRow) (now : Int) :
    Writes server.adminPubkey users (ensurePlatformAdmin server users now) :=
  writes_upsert (appended_pubkey now) users (platformAdminRow server.adminPubkey now)

theorem writes_createUser (server : Server) (users : List UserRow) (data : NewUser) (now : Int) :
    Writes data.pubkey users (createUser server users data now).1 := by
  unfold createUser
  split_ifs with _ hthere
  · exact writes_self _ users
  · exact writes_self _ users
  · have hnone : ∀ row ∈ users, row.pubkey ≠ (newUserRow server data now).pubkey :=
      fun row hrow hkey => hthere ⟨row, hrow, hkey⟩
    exact writes_append hnone

theorem apply_pubkey (data : UserPatch) (server : Server) (now : Int) (row : UserRow) :
    (data.apply server now row).pubkey = row.pubkey := rfl

theorem writes_updateUser (server : Server) (users : List UserRow) (pubkey : String)
    (data : UserPatch) (isAdmin : Bool) (now : Int) :
    Writes pubkey users (updateUser server users pubkey data isAdmin now).1 := by
  unfold updateUser
  by_cases hrefused : data.active.isSome && !isAdmin
  · rw [if_pos hrefused]
    exact writes_self _ users
  · rw [if_neg hrefused]
    cases userOf users pubkey with
    | none => exact writes_self _ users
    | some row => exact writes_updateRow (apply_pubkey _ server now) users pubkey

/-! ## What a call holds, and has read -/

def Call.holds : Call → Key → Prop
  | .changing pubkey _, k => k = .user pubkey
  | .claimed invite _, k => k = .invite invite.code
  | .resolved invite _ _, k => k = .invite invite.code
  | .selected invite _ _ none, k => k = .invite invite.code
  | .selected invite pubkey _ (some _), k => k = .user pubkey ∨ k = .invite invite.code
  | .written invite pubkey _, k => k = .user pubkey ∨ k = .invite invite.code
  | .bootstrapping _, _ => False
  | .answered _, _ => False

/-- The invite's row is there, and not used by anyone yet. -/
def Claimed (s : State) (invite : InviteRow) (pubkey : String) : Prop :=
  ∃ row ∈ s.invites, row.usedAt = none ∧
    ∃ now, invite = { row with usedAt := some now, usedBy := some pubkey }

/-- The write is of the user that was selected, as it still is. -/
def WriteSound (users : List UserRow) (invite : InviteRow) (pubkey : String) : UserWrite → Prop
  | .insert row => row.pubkey = pubkey ∧ ∀ other ∈ users, other.pubkey ≠ pubkey
  | .hubRoles key hubRoles => key = pubkey ∧ ∃ row ∈ users, row.pubkey = pubkey ∧
      ∃ hubId, hubRoles = mergeHubRole row.hubRoles hubId invite.roleIds

theorem writes_hubRoles (users : List UserRow) (pubkey : String) (hubRoles : List HubRole)
    (now : Int) : Writes pubkey users (UserWrite.apply users now (.hubRoles pubkey hubRoles)) := by
  refine writes_updateRow ?_ users pubkey
  exact fun _ => rfl
variable {pubkey : String}

theorem WriteSound.writes {invite : InviteRow}
    {write : UserWrite} (h : WriteSound users invite pubkey write) (now : Int) :
    Writes pubkey users (write.apply users now) := by
  cases write with
  | insert row =>
    obtain ⟨rfl, hnone⟩ := h
    exact writes_append hnone
  | hubRoles key hubRoles =>
    obtain ⟨rfl, -⟩ := h
    exact writes_hubRoles users key hubRoles now

def CallSound (s : State) : Call → Prop
  | .claimed invite pubkey => Claimed s invite pubkey
  | .resolved invite pubkey _ => Claimed s invite pubkey
  | .selected invite pubkey _ existing =>
    Claimed s invite pubkey ∧ ∀ row, existing = some row → row ∈ s.users ∧ row.pubkey = pubkey
  | .written invite pubkey write =>
    Claimed s invite pubkey ∧ WriteSound s.users invite pubkey write
  | _ => True

structure Sound (s : State) : Prop where
  keys : (s.users.map UserRow.pubkey).Nodup
  drawn : ∀ invite ∈ s.invites, invite.code ∈ s.drawnCodes
  held : Held Call.holds s.locks s.calls
  calls : ∀ c call, s.calls c = some call → CallSound s call

/-! ## What a step does -/

section Steps

variable {server : Server} {s s' : State} {c : Nat}

theorem of_bootstrapAdmin {pubkey : String}
    (h : step server s (.bootstrapAdmin c pubkey) = some s') : s.calls c = none ∧
      (s' = s.goOn c (.answered (.error (.service 403 "Admin already exists"))) ∨
        hasAdmin s.users = false ∧ s' = s.goOn c (.bootstrapping pubkey)) := by
  simp only [step] at h
  split at h
  next hc =>
    split_ifs at h with hadmin
    · exact ⟨hc, .inl (Option.some.inj h).symm⟩
    · exact ⟨hc, .inr ⟨by simpa using hadmin, (Option.some.inj h).symm⟩⟩
  next => cases h

theorem of_insertAdmin {now : Int} (h : step server s (.insertAdmin c now) = some s') :
    ∃ pubkey u, s.calls c = some (.bootstrapping pubkey) ∧
      s.write pubkey (insertAdmin s.users pubkey now) = some u ∧
      s' = u.goOn c (.answered (.ok ())) := by
  simp only [step] at h
  split at h
  next pubkey hc =>
    obtain ⟨u, hu, rfl⟩ := Option.map_eq_some_iff.mp h
    exact ⟨pubkey, u, hc, hu, rfl⟩
  next => cases h

theorem of_changeHubRole {pubkey : String} {change : HubRoleChange}
    (h : step server s (.changeHubRole c pubkey change) = some s') : s.calls c = none ∧
      (s' = s.goOn c (.answered (.error (.service 404 "User not found"))) ∨
        ∃ hubRoles, s.locks (.user pubkey) = none ∧
          s' = s.lock c (.user pubkey) (.changing pubkey hubRoles)) := by
  simp only [step] at h
  split at h
  next hc =>
    cases hrow : userOf s.users pubkey with
    | none =>
      simp only [hrow] at h
      exact ⟨hc, .inl (Option.some.inj h).symm⟩
    | some row =>
      simp only [hrow] at h
      obtain ⟨hfree, h⟩ := Option.ite_none_right_eq_some.mp h
      exact ⟨hc, .inr ⟨_, hfree, (Option.some.inj h).symm⟩⟩
  next => cases h

theorem of_updateHubRoles {now : Int} (h : step server s (.updateHubRoles c now) = some s') :
    ∃ pubkey hubRoles, s.calls c = some (.changing pubkey hubRoles) ∧
      s' = State.finish { s with
        users := UserWrite.apply s.users now (.hubRoles pubkey hubRoles) } c (.ok ()) := by
  simp only [step] at h
  split at h
  next pubkey hubRoles hc => exact ⟨pubkey, hubRoles, hc, (Option.some.inj h).symm⟩
  next => cases h

theorem of_createInvite {data : NewInvite} {code : String} {now : Int}
    (h : step server s (.createInvite data code now) = some s') : code ∉ s.drawnCodes ∧
      s' = { s with
        invites := s.invites ++ [newInvite data code now]
        drawnCodes := code :: s.drawnCodes } := by
  simp only [step] at h
  obtain ⟨hnew, h⟩ := Option.ite_none_left_eq_some.mp h
  exact ⟨hnew, (Option.some.inj h).symm⟩

theorem of_redeemInvite {code pubkey : String} {now databaseNow : Int}
    (h : step server s (.redeemInvite c code pubkey now databaseNow) = some s') :
    s.calls c = none ∧
      ((s.invites.find? (Claimable code databaseNow) = none ∧ s' = s.goOn c (.answered (.error
          (.service 400 "Invalid, expired, or already-used invite code")))) ∨
        ∃ invite, s.invites.find? (Claimable code databaseNow) = some invite ∧
          s.locks (.invite code) = none ∧ s' = s.lock c (.invite code)
            (.claimed { invite with usedAt := some now, usedBy := some pubkey } pubkey)) := by
  simp only [step] at h
  split at h
  next hc =>
    cases hfind : s.invites.find? (Claimable code databaseNow) with
    | none =>
      simp only [hfind] at h
      exact ⟨hc, .inl ⟨rfl, (Option.some.inj h).symm⟩⟩
    | some invite =>
      simp only [hfind] at h
      obtain ⟨hfree, h⟩ := Option.ite_none_right_eq_some.mp h
      exact ⟨hc, .inr ⟨invite, rfl, hfree, (Option.some.inj h).symm⟩⟩
  next => cases h

theorem of_resolveHub {hubs : List Hub} (h : step server s (.resolveHub c hubs) = some s') :
    ∃ invite pubkey, s.calls c = some (.claimed invite pubkey) ∧
      s' = s.goOn c (.resolved invite pubkey (invite.hubId.or (resolveSoleActiveHubId hubs))) := by
  simp only [step] at h
  split at h
  next invite pubkey hc => exact ⟨invite, pubkey, hc, (Option.some.inj h).symm⟩
  next => cases h

theorem of_selectUser (h : step server s (.selectUser c) = some s') :
    ∃ invite pubkey hubId, s.calls c = some (.resolved invite pubkey hubId) ∧
      ((userOf s.users pubkey = none ∧ s' = s.goOn c (.selected invite pubkey hubId none)) ∨
        ∃ row, userOf s.users pubkey = some row ∧ s.locks (.user pubkey) = none ∧
          s' = s.lock c (.user pubkey) (.selected invite pubkey hubId (some row))) := by
  simp only [step] at h
  split at h
  next invite pubkey hubId hc =>
    refine ⟨invite, pubkey, hubId, hc, ?_⟩
    cases hrow : userOf s.users pubkey with
    | none =>
      simp only [hrow] at h
      exact .inl ⟨rfl, (Option.some.inj h).symm⟩
    | some row =>
      simp only [hrow] at h
      obtain ⟨hfree, h⟩ := Option.ite_none_right_eq_some.mp h
      exact .inr ⟨row, rfl, hfree, (Option.some.inj h).symm⟩
  next => cases h

theorem of_writeUser {now : Int} (h : step server s (.writeUser c now) = some s') :
    ∃ invite pubkey hubId existing, s.calls c = some (.selected invite pubkey hubId existing) ∧
      ((∃ e, s' = s.finish c (.error e)) ∨
        (∃ row hub, existing = some row ∧ s' = s.goOn c (.written invite pubkey
          (.hubRoles pubkey (mergeHubRole row.hubRoles hub invite.roleIds)))) ∨
        ∃ hub, existing = none ∧ (∀ other ∈ s.users, other.pubkey ≠ pubkey) ∧
          s.locks (.user pubkey) = none ∧ s' = s.lock c (.user pubkey)
            (.written invite pubkey (.insert (redeemerRow server invite pubkey hub now)))) := by
  simp only [step] at h
  split at h
  next invite pubkey hubId existing hc =>
    refine ⟨invite, pubkey, hubId, existing, hc, ?_⟩
    cases existing with
    | none =>
      simp only [redeemerWrite] at h
      split_ifs at h with hthere hfree
      · exact .inl ⟨_, (Option.some.inj h).symm⟩
      · refine .inr (.inr ⟨hubId.filter (· ≠ ""), rfl, fun other hother hkey => ?_, hfree, ?_⟩)
        · exact hthere ⟨other, hother, hkey⟩
        · exact (Option.some.inj h).symm
    | some row =>
      cases hhub : hubId.filter (· ≠ "") with
      | none =>
        simp only [redeemerWrite, hhub] at h
        exact .inl ⟨_, (Option.some.inj h).symm⟩
      | some hub =>
        simp only [redeemerWrite, hhub] at h
        exact .inr (.inl ⟨row, hub, rfl, (Option.some.inj h).symm⟩)
  next => cases h

theorem of_commit {now : Int} (h : step server s (.commit c now) = some s') :
    ∃ invite pubkey write, s.calls c = some (.written invite pubkey write) ∧
      s' = State.finish { s with
        users := write.apply s.users now
        invites := replaceInvite s.invites invite } c (.ok ()) := by
  simp only [step] at h
  split at h
  next invite pubkey write hc => exact ⟨invite, pubkey, write, hc, (Option.some.inj h).symm⟩
  next => cases h

theorem of_fail (h : step server s (.fail c) = some s') :
    (∃ call, s.calls c = some call ∧ ∀ result, call ≠ .answered result) ∧
      s' = s.finish c (.error .database) := by
  simp only [step] at h
  split at h
  next => cases h
  next => cases h
  next call hrunning hc => exact ⟨⟨call, hc, hrunning⟩, (Option.some.inj h).symm⟩

theorem of_write {pubkey : String} {users : List UserRow}
    (h : s.write pubkey users = some s') :
    s.locks (.user pubkey) = none ∧ s' = { s with users } := by
  unfold State.write at h
  obtain ⟨hfree, h⟩ := Option.ite_none_right_eq_some.mp h
  exact ⟨hfree, (Option.some.inj h).symm⟩

end Steps

/-! ## What the others leave of it -/

/-- The rows that the key locks are the same. -/
def Same (s s' : State) : Key → Prop
  | .invite code => ∀ row, row.code = code → (row ∈ s'.invites ↔ row ∈ s.invites)
  | .user pubkey => ∀ row, row.pubkey = pubkey → (row ∈ s'.users ↔ row ∈ s.users)

variable {server : Server} {s s' : State} {c : Nat} {call : Call}

theorem same_of_eq (husers : s'.users = s.users) (hinvites : s'.invites = s.invites) (k : Key) :
    Same s s' k := by
  cases k with
  | invite code => exact fun row _ => by rw [hinvites]
  | user pubkey => exact fun row _ => by rw [husers]

theorem Claimed.frame {invite : InviteRow} (h : Claimed s invite pubkey)
    (hsame : Same s s' (.invite invite.code)) : Claimed s' invite pubkey := by
  obtain ⟨row, hrow, hunused, now, hinvite⟩ := h
  have hcode : row.code = invite.code := by rw [hinvite]
  exact ⟨row, (hsame row hcode).mpr hrow, hunused, now, hinvite⟩

/-- **What is said of a call is said of rows that it holds.** -/
theorem CallSound.frame (h : CallSound s call) (hsame : ∀ k, call.holds k → Same s s' k) :
    CallSound s' call := by
  cases call with
  | bootstrapping => trivial
  | changing => trivial
  | answered => trivial
  | claimed invite pubkey => exact Claimed.frame h (hsame _ rfl)
  | resolved invite pubkey hubId => exact Claimed.frame h (hsame _ rfl)
  | selected invite pubkey hubId existing =>
    obtain ⟨hclaim, hexisting⟩ := h
    cases existing with
    | none => exact ⟨hclaim.frame (hsame _ rfl), fun _ hrow => by cases hrow⟩
    | some old =>
      refine ⟨hclaim.frame (hsame _ (.inr rfl)), fun row hrow => ?_⟩
      obtain ⟨hmem, hkey⟩ := hexisting row hrow
      exact ⟨(hsame (.user pubkey) (.inl rfl) row hkey).mpr hmem, hkey⟩
  | written invite pubkey write =>
    obtain ⟨hclaim, hwrite⟩ := h
    have huser : Same s s' (.user pubkey) := hsame _ (.inl rfl)
    refine ⟨hclaim.frame (hsame _ (.inr rfl)), ?_⟩
    cases write with
    | insert row =>
      exact ⟨hwrite.1, fun other hother hkey => hwrite.2 other ((huser other hkey).mp hother) hkey⟩
    | hubRoles key hubRoles =>
      obtain ⟨hkey, row, hrow, hrowkey, hmerged⟩ := hwrite
      exact ⟨hkey, row, (huser row hrowkey).mpr hrow, hrowkey, hmerged⟩

/-- The row of an invite that is held is there. -/
theorem CallSound.exists_mem (h : CallSound s call) {code : String}
    (hk : call.holds (.invite code)) : ∃ row ∈ s.invites, row.code = code := by
  have hclaim : ∀ invite pubkey, Claimed s invite pubkey → code = invite.code →
      ∃ row ∈ s.invites, row.code = code := by
    rintro invite pubkey ⟨row, hrow, -, now, rfl⟩ hcode
    exact ⟨row, hrow, hcode.symm⟩
  cases call with
  | bootstrapping => cases hk
  | changing => cases hk
  | answered => cases hk
  | claimed invite pubkey => exact hclaim invite pubkey h (Key.invite.inj hk)
  | resolved invite pubkey hubId => exact hclaim invite pubkey h (Key.invite.inj hk)
  | selected invite pubkey hubId existing =>
    refine hclaim invite pubkey h.1 ?_
    cases existing with
    | none => exact Key.invite.inj hk
    | some row =>
      rcases hk with hk | hk
      · cases hk
      · exact Key.invite.inj hk
  | written invite pubkey write =>
    refine hclaim invite pubkey h.1 ?_
    rcases hk with hk | hk
    · cases hk
    · exact Key.invite.inj hk

/-- **A call moves.** The rows that the others hold are to be the same. -/
theorem Sound.move (h : Sound s) (hkeys : (s'.users.map UserRow.pubkey).Nodup)
    (hdrawn : ∀ invite ∈ s'.invites, invite.code ∈ s'.drawnCodes)
    (hheld : Held Call.holds s'.locks (Function.update s.calls c (some call)))
    (hcalls : s'.calls = Function.update s.calls c (some call)) (hcall : CallSound s' call)
    (hsame : ∀ d k, d ≠ c → s.locks k = some d → Same s s' k) : Sound s' where
  keys := hkeys
  drawn := hdrawn
  held := hcalls ▸ hheld
  calls d call' hd := by
    rw [hcalls] at hd
    rcases Runs.update_eq_some hd with ⟨-, hcall'⟩ | ⟨hne, hd⟩
    · exact Option.some.inj hcall' ▸ hcall
    · exact (h.calls d call' hd).frame fun k hk => hsame d k hne ((h.held.locked_iff hd k).mpr hk)

theorem Sound.goOn (h : Sound s) (hholds : ∀ k, s.locks k = some c ↔ call.holds k)
    (hcall : CallSound s call) : Sound (s.goOn c call) :=
  h.move h.keys h.drawn (h.held.keep hholds) rfl
    (hcall.frame fun k _ => same_of_eq rfl rfl k) fun _ k _ _ => same_of_eq rfl rfl k

theorem Sound.lock (h : Sound s) {k : Key} (hfree : s.locks k = none)
    (hmore : ∀ j, call.holds j ↔ j = k ∨ s.locks j = some c) (hcall : CallSound s call) :
    Sound (s.lock c k call) :=
  h.move h.keys h.drawn (h.held.take hfree hmore) rfl
    (hcall.frame fun k _ => same_of_eq rfl rfl k) fun _ k _ _ => same_of_eq rfl rfl k

/-- A call that has not begun holds no lock. -/
theorem Sound.fresh (h : Sound s) (hc : s.calls c = none) (hnone : ∀ k, ¬ call.holds k) (k : Key) :
    s.locks k = some c ↔ call.holds k :=
  iff_of_false (h.held.not_locked hc k) (hnone k)

theorem Sound.finish (h : Sound s) (result : Except UserError Unit) : Sound (s.finish c result) :=
  h.move h.keys h.drawn (h.held.release fun _ => id) rfl trivial fun _ k _ _ => same_of_eq rfl rfl k

/-- **A statement writes a user that no call holds.** -/
theorem Sound.write (h : Sound s)
    (hwrites : Writes pubkey s.users users) (hw : s.write pubkey users = some s') : Sound s' := by
  obtain ⟨hfree, rfl⟩ := of_write hw
  refine ⟨hwrites.keys h.keys, h.drawn, h.held, fun d call hd => (h.calls d call hd).frame ?_⟩
  intro k hk
  cases k with
  | invite code => exact fun row _ => Iff.rfl
  | user key =>
    refine fun row hrow => hwrites.others row fun hkey => ?_
    have hlocked := (h.held.locked_iff hd (.user key)).mpr hk
    rw [← hrow, hkey, hfree] at hlocked
    cases hlocked

theorem Sound.insert (h : Sound s)
    (hwrites : Writes pubkey s.users users) (hw : s.insert pubkey users = some s') : Sound s' := by
  unfold State.insert at hw
  split_ifs at hw
  · exact Option.some.inj hw ▸ h
  · exact h.write hwrites hw

theorem mem_replaceInvite {invites : List InviteRow} {invite row : InviteRow}
    (hne : row.code ≠ invite.code) : row ∈ replaceInvite invites invite ↔ row ∈ invites := by
  unfold replaceInvite
  rw [List.mem_map]
  constructor
  · rintro ⟨old, hold, rfl⟩
    by_cases hcode : old.code = invite.code
    · rw [if_pos hcode] at hne
      exact absurd rfl hne
    · rwa [if_neg hcode]
  · exact fun hrow => ⟨row, hrow, if_neg hne⟩

theorem code_of_mem_replaceInvite {invites : List InviteRow} {invite row : InviteRow}
    (h : row ∈ replaceInvite invites invite) : ∃ old ∈ invites, old.code = row.code := by
  obtain ⟨old, hold, rfl⟩ := List.mem_map.mp h
  refine ⟨old, hold, ?_⟩
  split_ifs with hcode
  · exact hcode
  · rfl

/-- A lock that another holds is not of what the call holds. -/
theorem Sound.others (h : Sound s) (hc : s.calls c = some call) {d : Nat} (hne : d ≠ c) {k : Key}
    (hd : s.locks k = some d) : ¬ call.holds k := by
  intro hk
  rw [(h.held.locked_iff hc k).mpr hk] at hd
  exact hne (Option.some.inj hd).symm

/-- **A commit writes what the call holds.** -/
theorem Sound.commit (h : Sound s) {invite : InviteRow} {write : UserWrite}
    (hc : s.calls c = some (.written invite pubkey write)) (now : Int) :
    Sound (State.finish { s with
      users := write.apply s.users now
      invites := replaceInvite s.invites invite } c (.ok ())) := by
  obtain ⟨-, hwrite⟩ := h.calls c _ hc
  have hwrites := hwrite.writes now
  refine h.move (hwrites.keys h.keys) (fun row hrow => ?_) (h.held.release fun _ => id) rfl trivial
    fun d k hne hd => ?_
  · obtain ⟨old, hold, hcode⟩ := code_of_mem_replaceInvite hrow
    exact hcode ▸ h.drawn old hold
  · have hnot := h.others hc hne hd
    cases k with
    | invite code =>
      refine fun row hrow => mem_replaceInvite fun hcode => hnot (.inr ?_)
      rw [← hrow, hcode]
    | user key =>
      refine fun row hrow => hwrites.others row fun hkey => hnot (.inl ?_)
      rw [← hrow, hkey]

theorem Sound.updateHubRoles (h : Sound s) {hubRoles : List HubRole}
    (hc : s.calls c = some (.changing pubkey hubRoles)) (now : Int) :
    Sound (State.finish { s with
      users := UserWrite.apply s.users now (.hubRoles pubkey hubRoles) } c (.ok ())) := by
  have hwrites := writes_hubRoles s.users pubkey hubRoles now
  refine h.move (hwrites.keys h.keys) h.drawn (h.held.release fun _ => id) rfl trivial
    fun d k hne hd => ?_
  have hnot := h.others hc hne hd
  cases k with
  | invite code => exact fun _ _ => Iff.rfl
  | user key =>
    refine fun row hrow => hwrites.others row fun hkey => hnot ?_
    rw [← hrow, hkey]
    rfl

/-! ## Every step -/

theorem Sound.createInvite (h : Sound s) (data : NewInvite) {code : String}
    (hnew : code ∉ s.drawnCodes) (now : Int) : Sound { s with
      invites := s.invites ++ [newInvite data code now], drawnCodes := code :: s.drawnCodes } := by
  refine ⟨h.keys, fun invite hinvite => ?_, h.held, fun d call hd => ?_⟩
  · rcases List.mem_append.mp hinvite with hold | hlast
    · exact List.mem_cons_of_mem _ (h.drawn invite hold)
    · rw [List.mem_singleton.mp hlast]
      exact List.mem_cons_self
  · refine (h.calls d call hd).frame fun k hk => ?_
    cases k with
    | user key => exact fun _ _ => Iff.rfl
    | invite locked =>
      obtain ⟨held, hheld, hcode⟩ := (h.calls d call hd).exists_mem hk
      refine fun row hrow => ?_
      rw [List.mem_append, or_iff_left]
      intro hlast
      rw [List.mem_singleton.mp hlast] at hrow
      have hsame : held.code = code := hcode.trans hrow.symm
      exact hnew (hsame ▸ h.drawn held hheld)

theorem Sound.revokeInvite (h : Sound s) {code : String}
    (hstep : step server s (.revokeInvite code) = some s') : Sound s' := by
  simp only [step] at hstep
  obtain ⟨hfree, hstep⟩ := Option.ite_none_right_eq_some.mp hstep
  obtain rfl := Option.some.inj hstep
  refine ⟨h.keys, fun invite hinvite => h.drawn invite (List.mem_of_mem_filter hinvite), h.held,
    fun d call hd => (h.calls d call hd).frame fun k hk => ?_⟩
  cases k with
  | user key => exact fun _ _ => Iff.rfl
  | invite locked =>
    have hlocked := (h.held.locked_iff hd (.invite locked)).mpr hk
    refine fun row hrow => ?_
    have hne : row.code ≠ code := by
      rintro rfl
      rw [← hrow, hfree] at hlocked
      cases hlocked
    simp [hne]

theorem mem_of_userOf {row : UserRow}
    (h : userOf users pubkey = some row) : row ∈ users ∧ row.pubkey = pubkey :=
  ⟨List.mem_of_find?_eq_some h, by simpa using List.find?_some h⟩

theorem sound_redeemInvite (h : Sound s) {code pubkey : String} {now databaseNow : Int}
    (hstep : step server s (.redeemInvite c code pubkey now databaseNow) = some s') : Sound s' := by
  obtain ⟨hc, ⟨-, rfl⟩ | ⟨invite, hfind, hfree, rfl⟩⟩ := of_redeemInvite hstep
  · exact h.goOn (h.fresh hc fun _ => id) trivial
  · have hclaimable : Claimable code databaseNow invite := by simpa using List.find?_some hfind
    refine h.lock hfree (fun j => ?_) ?_
    · rw [or_iff_left (h.held.not_locked hc j), ← hclaimable.1]
      rfl
    · exact ⟨invite, List.mem_of_find?_eq_some hfind, hclaimable.2.1, now, rfl⟩

theorem sound_resolveHub (h : Sound s) {hubs : List Hub}
    (hstep : step server s (.resolveHub c hubs) = some s') : Sound s' := by
  obtain ⟨invite, pubkey, hc, rfl⟩ := of_resolveHub hstep
  have hclaim : Claimed s invite pubkey := h.calls c _ hc
  exact h.goOn (fun k => h.held.locked_iff hc k) hclaim

theorem sound_selectUser (h : Sound s) (hstep : step server s (.selectUser c) = some s') :
    Sound s' := by
  obtain ⟨invite, pubkey, hubId, hc, ⟨-, rfl⟩ | ⟨row, hrow, hfree, rfl⟩⟩ := of_selectUser hstep
  · refine h.goOn (fun k => h.held.locked_iff hc k) ⟨h.calls c _ hc, ?_⟩
    exact fun _ hrow => by cases hrow
  · refine h.lock hfree (fun j => ?_) ⟨h.calls c _ hc, ?_⟩
    · rw [h.held.locked_iff hc]
      rfl
    · exact fun row' hrow' => Option.some.inj hrow' ▸ mem_of_userOf hrow

theorem sound_writeUser (h : Sound s) {now : Int}
    (hstep : step server s (.writeUser c now) = some s') : Sound s' := by
  obtain ⟨invite, pubkey, hubId, existing, hc, hwrite⟩ := of_writeUser hstep
  obtain ⟨hclaim, hexisting⟩ := h.calls c _ hc
  rcases hwrite with ⟨e, rfl⟩ | ⟨row, hub, rfl, rfl⟩ | ⟨hub, rfl, hnone, hfree, rfl⟩
  · exact h.finish _
  · obtain ⟨hrow, hkey⟩ := hexisting row rfl
    exact h.goOn (fun k => h.held.locked_iff hc k) ⟨hclaim, rfl, row, hrow, hkey, hub, rfl⟩
  · refine h.lock hfree (fun j => ?_) ⟨hclaim, rfl, hnone⟩
    rw [h.held.locked_iff hc]
    rfl

/-- **A step leaves everything sound.** -/
theorem sound_step {e : Event} (h : Sound s) (hstep : step server s e = some s') : Sound s' := by
  cases e with
  | bootstrapAdmin c pubkey =>
    obtain ⟨hc, rfl | ⟨-, rfl⟩⟩ := of_bootstrapAdmin hstep
    · exact h.goOn (h.fresh hc fun _ => id) trivial
    · exact h.goOn (h.fresh hc fun _ => id) trivial
  | insertAdmin c now =>
    obtain ⟨pubkey, u, hc, hu, rfl⟩ := of_insertAdmin hstep
    have hu' := h.write (writes_insertAdmin s.users pubkey now) hu
    obtain ⟨-, rfl⟩ := of_write hu
    exact hu'.goOn (fun k => hu'.held.locked_iff hc k) trivial
  | ensureInit adminPubkey now => exact h.write (writes_ensureInit s.users adminPubkey now) hstep
  | ensurePlatformAdmin now =>
    exact h.write (writes_ensurePlatformAdmin server s.users now) hstep
  | ensureDemoAccount boot account now =>
    obtain ⟨-, hstep⟩ := Option.ite_none_right_eq_some.mp hstep
    exact h.insert (writes_insertUser s.users (demoRow account now)) hstep
  | createUser data now => exact h.insert (writes_createUser server s.users data now) hstep
  | updateUser pubkey data isAdmin now =>
    exact h.write (writes_updateUser server s.users pubkey data isAdmin now) hstep
  | deleteUser pubkey => exact h.write (writes_delete s.users pubkey) hstep
  | changeHubRole c pubkey change =>
    obtain ⟨hc, rfl | ⟨hubRoles, hfree, rfl⟩⟩ := of_changeHubRole hstep
    · exact h.goOn (h.fresh hc fun _ => id) trivial
    · refine h.lock hfree (fun j => ?_) trivial
      rw [or_iff_left (h.held.not_locked hc j)]
      rfl
  | updateHubRoles c now =>
    obtain ⟨pubkey, hubRoles, hc, rfl⟩ := of_updateHubRoles hstep
    exact h.updateHubRoles hc now
  | createInvite data code now =>
    obtain ⟨hnew, rfl⟩ := of_createInvite hstep
    exact h.createInvite data hnew now
  | redeemInvite c code pubkey now databaseNow => exact sound_redeemInvite h hstep
  | resolveHub c hubs => exact sound_resolveHub h hstep
  | selectUser c => exact sound_selectUser h hstep
  | writeUser c now => exact sound_writeUser h hstep
  | commit c now =>
    obtain ⟨invite, pubkey, write, hc, rfl⟩ := of_commit hstep
    exact h.commit hc now
  | fail c =>
    obtain ⟨-, rfl⟩ := of_fail hstep
    exact h.finish _
  | revokeInvite code => exact h.revokeInvite hstep
  | validateInvite code now => exact Option.some.inj hstep ▸ h

theorem sound_start : Sound start where
  keys := List.nodup_nil
  drawn := by
    intro invite hinvite
    cases hinvite
  held := held_none
  calls := by
    intro c call hc
    cases hc

/-- **In every run, every step leaves everything sound.** -/
theorem sound_run {es : List Event} {t : State}
    (h : Runs.run (step server) start es = some t) : Sound t :=
  Runs.run_inv (fun _ _ _ => sound_step) sound_start h

end Llamenos.Worker.Users
