import Llamenos.Worker.RecoveryGroup.Origin

/-!
# The terminal statuses of a session

`cancelled`, `completed` and `expired` are meant to be final: no operation goes on with a session
that it reads in one of them. But an operation stores its status with `WHERE session_id = …` alone.
Between its read and its write another may have ended the session, which then comes back to life,
or ends in another way.

Results:
* `run_sessionState`: a session's status is the one it had, or one that was stored since.
* `absorbing_iff`: **a terminal status stays exactly if no operation is overtaken**: between the
  read of an operation and the status that it stores, nobody stores another terminal one.
* `cancelled_comes_back`: a session is cancelled while its verification is under way.
-/

namespace Llamenos.Worker.RecoveryGroup

open Llamenos.Lib Llamenos.Crypto Llamenos.Worker.CryptoKeys

variable {N : Type} {prims : RecoveryPrims N} {s s' t : System N} {e : Event N}
  {events : List (Event N)}

/-! ## What runs store -/

/-- The tables as they are, and no operation under way. -/
def start (db : Db N) : System N := { db := db }

/-- The status that a step stores. -/
def writes (prims : RecoveryPrims N) (s : System N) (e : Event N) :
    List (String × SessionStatus) := (storedBy prims s e).toList
variable {sessionId : String} {db : Db N}

theorem sessionState_of_row {row : Session}
    (h : db.sessions sessionId = some row) :
    sessionState db sessionId = some (row.hubId, row.status) := by
  rw [sessionState, h, Option.map_some]
variable {status : SessionStatus}

theorem row_of_sessionState {sessionId hubId : String}
    (h : sessionState db sessionId = some (hubId, status)) :
    ∃ row, db.sessions sessionId = some row ∧ row.hubId = hubId ∧ row.status = status := by
  obtain ⟨row, hrow, hstate⟩ := Option.map_eq_some_iff.mp h
  exact ⟨row, hrow, congrArg Prod.fst hstate, congrArg Prod.snd hstate⟩

/-- **A session's status** is the one it had, or one that was stored since. -/
theorem run_sessionState {sessionId hubId : String}
    (hstate : sessionState s.db sessionId = some (hubId, status))
    (hrun : Runs.run (step prims) s events = some t) :
    ∃ status', sessionState t.db sessionId = some (hubId, status') ∧
      (status' = status ∨
        (sessionId, status') ∈ Runs.emitted (step prims) (writes prims) s events) := by
  refine Runs.run_emitted
    (I := fun u ws => ∃ status', sessionState u.db sessionId = some (hubId, status') ∧
      (status' = status ∨ (sessionId, status') ∈ ws)) ?_ [] ⟨status, hstate, .inl rfl⟩ hrun
  rintro u ws e u' ⟨status', hstate', hfrom⟩ hstep
  refine ⟨_, step_sessionState hstep hstate', ?_⟩
  cases hstored : storedBy prims u e with
  | none =>
    rw [writes, hstored, Option.toList_none, List.append_nil]
    exact hfrom
  | some stored =>
    rw [writes, hstored, Option.toList_some, List.mem_append, List.mem_singleton]
    by_cases hid : sessionId = stored.1
    · rw [statusAfter, if_pos hid]
      exact .inr (.inr (Prod.ext hid rfl))
    · rw [statusAfter, if_neg hid]
      exact hfrom.imp_right .inl

theorem stores_sessionId {insert : Insert} {task : Task N}
    {new : SessionStatus} (h : stores prims db insert task = some (sessionId, new)) :
    task.sessionId = sessionId ∧ task.storing = true := by
  cases task with
  | contributeCommit params session count threshold =>
    rw [stores] at h
    split_ifs at h
    cases h
    exact ⟨rfl, rfl⟩
  | completeCommit params session =>
    rw [stores] at h
    cases hrow : recoveryRow prims db params session insert <;> rw [hrow] at h <;> cases h
    exact ⟨rfl, rfl⟩
  | _ =>
    cases h
    try exact ⟨rfl, rfl⟩

/-- An operation that stores a status has read the session, and not as a terminal one. -/
theorem read_of_stored (hrun : Runs.run (step prims) (start db) events = some s)
    {i : Nat} {now : Int} {insert : Insert} {new : SessionStatus}
    (h : storedBy prims s (.resume i now insert) = some (sessionId, new)) :
    ∃ before op now' between s₁ hubId status, events = before ++ .call i op now' :: between ∧
      Runs.run (step prims) (start db) before = some s₁ ∧
      Runs.run (step prims) s₁ (.call i op now' :: between) = some s ∧
      (∀ op' now', .call i op' now' ∉ between) ∧
      sessionState s₁.db sessionId = some (hubId, status) ∧ status.terminal = false := by
  obtain ⟨task, htask, hstores⟩ := Option.bind_eq_some_iff.mp h
  obtain ⟨hid, hstoring⟩ := stores_sessionId hstores
  obtain ⟨before, op, now', between, s₁, row, rfl, hbefore, hbetween, hrow, hadmits⟩ :=
    run_origin (fun _ => rfl) hrun i task htask
  have hrest := Runs.run_rest hrun hbefore
  have hsession : op.sessionId = sessionId := hadmits.sessionId_eq.symm.trans hid
  exact ⟨before, op, now', between, s₁, row.hubId, row.status, rfl, hbefore, hrest, hbetween,
    hsession ▸ sessionState_of_row hrow, hadmits.storing hstoring⟩

/-- A session whose status is stored is there. -/
theorem state_of_stored {e : Event N}
    (hrun : Runs.run (step prims) (start db) events = some s)
    {new : SessionStatus} (h : storedBy prims s e = some (sessionId, new)) :
    ∃ hubId status, sessionState s.db sessionId = some (hubId, status) := by
  cases e with
  | resume i now insert =>
    obtain ⟨_, _, _, _, _, hubId, _, _, _, hrest, _, hread, _⟩ := read_of_stored hrun h
    obtain ⟨status, hstate, _⟩ := run_sessionState hread hrest
    exact ⟨hubId, status, hstate⟩
  | _ => cases h

/-! ## Overtaken operations -/

/-- Once a session has a terminal status, it keeps it. -/
def Absorbing (prims : RecoveryPrims N) (s : System N) (events : List (Event N)) : Prop :=
  ∀ before between after s₁ s₂, events = before ++ between ++ after →
    Runs.run (step prims) s before = some s₁ → Runs.run (step prims) s₁ between = some s₂ →
      ∀ sessionId row, s₁.db.sessions sessionId = some row → row.status.terminal = true →
        ∃ row', s₂.db.sessions sessionId = some row' ∧ row'.status = row.status

/-- No operation is overtaken: from its call to the statement that stores its status, no terminal
status is stored to its session but that one. -/
def NeverOvertaken (prims : RecoveryPrims N) (s : System N) (events : List (Event N)) : Prop :=
  ∀ before i op now between now' insert after s₁ s₂,
    events = before ++ .call i op now :: between ++ .resume i now' insert :: after →
    Runs.run (step prims) s before = some s₁ →
    Runs.run (step prims) s₁ (.call i op now :: between) = some s₂ →
    (∀ op' now', .call i op' now' ∉ between) →
    ∀ sessionId new, storedBy prims s₂ (.resume i now' insert) = some (sessionId, new) →
      ∀ other, (sessionId, other) ∈
          Runs.emitted (step prims) (writes prims) s₁ (.call i op now :: between) →
        other.terminal = true → other = new

/-- A step that stores nothing else to a session that has ended. -/
def LeavesTerminal (prims : RecoveryPrims N) (s : System N) (e : Event N) : Prop :=
  ∀ sessionId new, storedBy prims s e = some (sessionId, new) →
    ∀ hubId status, sessionState s.db sessionId = some (hubId, status) →
      status.terminal = true → status = new

instance (prims : RecoveryPrims N) (s : System N) (e : Event N) :
    Decidable (LeavesTerminal prims s e) :=
  match hstored : storedBy prims s e with
  | none => isTrue fun _ _ h => by rw [hstored] at h; cases h
  | some (sessionId, new) =>
    match hstate : sessionState s.db sessionId with
    | none => isTrue fun _ _ h _ _ h' => by
        rw [hstored, Option.some.injEq] at h
        cases h
        rw [hstate] at h'
        cases h'
    | some (hubId, status) =>
      decidable_of_iff (status.terminal = true → status = new) <| by
        constructor
        · intro hsame id new' h hub status' h' hterminal
          rw [hstored, Option.some.injEq] at h
          cases h
          rw [hstate, Option.some.injEq] at h'
          cases h'
          exact hsame hterminal
        · exact fun h => h sessionId new hstored hubId status hstate

theorem step_terminal (hleaves : LeavesTerminal prims s e) (h : step prims s e = some s')
    {sessionId hubId : String}
    (hstate : sessionState s.db sessionId = some (hubId, status))
    (hterminal : status.terminal = true) :
    sessionState s'.db sessionId = some (hubId, status) := by
  rw [step_sessionState h hstate]
  cases hstored : storedBy prims s e with
  | none => rfl
  | some stored =>
    by_cases hid : sessionId = stored.1
    · have hnew := hleaves stored.1 stored.2 hstored hubId status (hid ▸ hstate) hterminal
      rw [statusAfter, if_pos hid, hnew]
    · rw [statusAfter, if_neg hid]

theorem absorbing_of_leaves
    (hleaves : Runs.Along (step prims) (LeavesTerminal prims) s events) :
    Absorbing prims s events := by
  intro before between after s₁ s₂ hevents hbefore hbetween sessionId row hrow hterminal
  rw [hevents, List.append_assoc] at hleaves
  have hstays : sessionState s₂.db sessionId = some (row.hubId, row.status) :=
    Runs.run_inv_along (I := fun u => sessionState u.db sessionId = some (row.hubId, row.status))
      (fun _ _ _ hstate hleaves h => step_terminal hleaves h hstate hterminal)
      (sessionState_of_row hrow) (hleaves.right hbefore).left hbetween
  obtain ⟨row', hrow', -, hsame⟩ := row_of_sessionState hstays
  exact ⟨row', hrow', hsame⟩

/-- Where no operation is overtaken, what it finds ended has ended as it is about to. -/
theorem leaves_of_neverOvertaken
    (hnever : NeverOvertaken prims (start db) events) :
    Runs.Along (step prims) (LeavesTerminal prims) (start db) events := by
  refine Runs.along_iff_split.mpr fun upto e after s₂ hevents hupto => ?_
  intro sessionId new hstored hubId status hstate hterminal
  cases e with
  | resume i now insert =>
    obtain ⟨before, op, now', between, s₁, hubId₁, status₁, rfl, hbefore, hrest, hbetween, hread,
      hnot⟩ := read_of_stored hupto hstored
    obtain ⟨status', hstate', hfrom⟩ := run_sessionState hread hrest
    have hsame : status' = status := by
      rw [hstate, Option.some.injEq] at hstate'
      exact (congrArg Prod.snd hstate').symm
    subst hsame
    rcases hfrom with rfl | hmem
    · rw [hnot] at hterminal
      cases hterminal
    · exact hnever before i op now' between now insert after s₁ s₂ hevents hbefore hrest hbetween
        sessionId new hstored status' hmem hterminal
  | _ => cases hstored

/-- Where terminal statuses stay, one that overtakes an operation is the operation's own. -/
theorem neverOvertaken_of_absorbing
    (hrun : Runs.run (step prims) (start db) events = some t)
    (habsorbing : Absorbing prims (start db) events) :
    NeverOvertaken prims (start db) events := by
  intro before i op now between now' insert after s₁ s₂ hevents hbefore hrest hbetween sessionId
    new hstored other hmem hterminal
  obtain ⟨m₁, d, m₂, u, hsplit, hu, hd⟩ := Runs.mem_emitted hmem hrest
  have hother : storedBy prims u d = some (sessionId, other) := Option.mem_toList.mp hd
  have hupto : Runs.run (step prims) (start db) (before ++ m₁) = some u :=
    Runs.run_append.mpr ⟨s₁, hbefore, hu⟩
  have hs₂ : Runs.run (step prims) (start db) (before ++ .call i op now :: between) = some s₂ :=
    Runs.run_append.mpr ⟨s₁, hbefore, hrest⟩
  obtain ⟨s₃, hs₃, hupto₃⟩ := Runs.step_of_run hrun hevents hs₂
  have hd' : events = (before ++ m₁) ++ d :: (m₂ ++ .resume i now' insert :: after) := by
    rw [hevents, hsplit]
    simp
  obtain ⟨u', hu', huptod⟩ := Runs.step_of_run hrun hd' hupto
  -- the session has ended as the other operation stored
  obtain ⟨hubId, status, hstate⟩ := state_of_stored hupto hother
  have hended := step_sessionState hu' hstate
  rw [hother, statusAfter, if_pos rfl] at hended
  obtain ⟨row, hrow, -, hstatus⟩ := row_of_sessionState hended
  -- so it has when the operation stores its own
  have hlast : Runs.run (step prims) u' (m₂ ++ [.resume i now' insert]) = some s₃ := by
    refine Runs.run_rest ?_ huptod
    rw [hsplit] at hupto₃
    simpa using hupto₃
  obtain ⟨row', hrow', hsame⟩ := habsorbing (before ++ m₁ ++ [d]) (m₂ ++ [.resume i now' insert])
    after u' s₃ (by rw [hd']; simp) huptod hlast sessionId row hrow (hstatus ▸ hterminal)
  have hended₂ : Runs.run (step prims) u (d :: m₂) = some s₂ := Runs.run_rest (hsplit ▸ hrest) hu
  obtain ⟨status₂, hstate₂, -⟩ := run_sessionState hstate hended₂
  have hnew := step_sessionState hs₃ hstate₂
  rw [hstored, statusAfter, if_pos rfl, sessionState_of_row hrow', Option.some.injEq] at hnew
  rw [← hstatus, ← hsame]
  exact congrArg Prod.snd hnew

/-- **Terminal statuses are absorbing exactly in the runs in which no operation is overtaken.** -/
theorem absorbing_iff {db : Db N} (hrun : Runs.run (step prims) (start db) events = some t) :
    Absorbing prims (start db) events ↔ NeverOvertaken prims (start db) events :=
  ⟨neverOvertaken_of_absorbing hrun,
    fun hnever => absorbing_of_leaves (leaves_of_neverOvertaken hnever)⟩

/-! ## A session that comes back -/

/-- A second approver, and their signature of the session's id. -/
def approverKey : String := "d75a980182b10ab7d54bfed3c964073a0ee172f3daa62325af021a68f707511a"

def approverSignature : String :=
  "3f97d8c45551921d451a7aee37b6bd01288f6fcf5c0a918bbf718a054e8562c9" ++
    "3656d6943d6e97b2416158cfdcde3e4788938468c02a8d33428f0deaebdf1506"

/-- The sample runtime, with the digest of the one code that is sent, and the one signature. -/
def samplePrims : RecoveryPrims Int where
  keys := { CryptoKeys.samplePrims with
    ed25519 := fun key => some fun message signature =>
      key == U8Array.ofHex 32 approverKey && message == asBytes "session" &&
        signature == U8Array.ofHex 64 approverSignature }
  hmac secret text := if secret = "secret" ∧ text = "123456" then
    "4a83854cf6f0112b4295bddd535a9b3fbe54a3f90e853b59d42e4bed553c55a4" else ""

/-- A group of three, of which two are enough. -/
def sampleGroup : GroupParams where
  hubId := "hub"
  threshold := 2
  totalShares := 3
  groupPublicKey := "group"
  shareEnvelopes := [⟨"ann", "share-1"⟩, ⟨"bob", "share-2"⟩, ⟨"cay", "share-3"⟩]
  shareCommitments := ["commitment-1", "commitment-2", "commitment-3"]
  sigchainLinkHash := "link"

def noInsert : Insert := ⟨"", "", false⟩

/-- A hub enrolls, and a session begins. -/
def begun : List (Event Int) :=
  [.enrollHub sampleGroup,
    .initiateRecovery "session" "hub" "user" "device" "123456" "secret" 24 0]

/-- The code is verified, and before that is stored, the session is cancelled. -/
def cancelledMeanwhile : List (Event Int) :=
  begun ++ [.call 0 (.verifyInitiation "session" "123456" "secret") 1000, .resume 0 1000 noInsert,
    .call 1 (.cancelSession "session" "user" "user" false) 1001, .resume 1 1002 noInsert,
    .resume 0 1003 noInsert]

/-- **A cancelled session is verified.** -/
theorem cancelled_comes_back : ¬ Absorbing samplePrims (start {}) cancelledMeanwhile := by
  intro h
  obtain ⟨row, hrow, hsame⟩ := h (cancelledMeanwhile.take 6) [.resume 0 1003 noInsert] [] _ _ rfl
    rfl rfl "session" _ rfl rfl
  cases hrow
  cases hsame

/-- The session is cancelled before the code is sent in. -/
def cancelledBefore : List (Event Int) :=
  begun ++ [.call 1 (.cancelSession "session" "user" "user" false) 1001, .resume 1 1002 noInsert,
    .call 0 (.verifyInitiation "session" "123456" "secret") 1003]

theorem cancelledBefore_neverOvertaken :
    NeverOvertaken samplePrims (start {}) cancelledBefore := by
  have hleaves : Runs.Along (step samplePrims) (LeavesTerminal samplePrims) (start {})
      cancelledBefore := by decide +kernel
  exact (absorbing_iff rfl).mp (absorbing_of_leaves hleaves)

end Llamenos.Worker.RecoveryGroup
