import Llamenos.Lib.Noninterference
import Llamenos.Lib.Upserts
import Mathlib.Data.List.MinMax

/-!
# PUK envelopes

`distributePukEnvelopes` and `getPukEnvelopeForDevice` of `apps/worker/services/crypto-keys.ts`, on
the table `puk_envelopes`. A device reads the envelopes that are its user's; but a call may name any
device that there is, and an envelope is told by its device and generation, not by its user. The
devices are there before the first call. What the database draws for a row, and whether a statement
fails for a reason of its own, is an argument.

Results:
* `distribute_envelopesFor`: what a call leaves of a device's envelopes.
* `own_envelopes_iff`: **what a device reads comes of its user's calls alone, and no other call
  touches its envelopes, exactly if each call names its own user's devices**.
* `envelope_replaced`: another user's call replaces an envelope, or comes first and takes its place.
-/

namespace Llamenos.Worker.PukEnvelopes

open Llamenos.Lib Llamenos.Lib.Upserts

/-! ## The code -/

/-- A row of `puk_envelopes`. -/
structure PukEnvelope where
  id : String
  userPubkey : String
  deviceId : String
  generation : Nat
  envelope : String
  createdAt : String
  deriving DecidableEq

/-- The unique index, `puk_envelopes_device_gen_uniq`. -/
def PukEnvelope.key (row : PukEnvelope) : String × Nat := (row.deviceId, row.generation)

structure NewEnvelope where
  deviceId : String
  generation : Nat
  envelope : String

/-- What the database draws for the rows of a statement, and that it fails for a reason of its
own. -/
structure Insert where
  ids : Nat → String
  now : String
  fails : Bool

/-- A call of `distributePukEnvelopes`. -/
structure Call where
  userPubkey : String
  envelopes : List NewEnvelope
  insert : Insert

/-- `values(envelopes.map(...))`. -/
def Call.rows (call : Call) : List PukEnvelope :=
  call.envelopes.mapIdx fun i e =>
    { id := call.insert.ids i, userPubkey := call.userPubkey, deviceId := e.deviceId,
      generation := e.generation, envelope := e.envelope, createdAt := call.insert.now }

/-- `onConflictDoUpdate({ set: ... })`. -/
def excluded (old new : PukEnvelope) : PukEnvelope :=
  { old with envelope := new.envelope, createdAt := new.createdAt }

/-- The statement fails: of itself, for a device that is not there, for a generation that the column
does not hold, or because it would write one row twice. -/
def Call.Rejected (owner : String → Option String) (call : Call) : Prop :=
  call.insert.fails = true ∨
    (∃ e ∈ call.envelopes, owner e.deviceId = none ∨ e.generation > 2147483647) ∨
    ¬ (call.rows.map PukEnvelope.key).Nodup

instance (owner : String → Option String) (call : Call) : Decidable (call.Rejected owner) :=
  inferInstanceAs (Decidable (_ ∨ _ ∨ _))

/-- `distributePukEnvelopes`: the table, and what is returned. Who owns a device is in `devices`. -/
def distributePukEnvelopes (owner : String → Option String) (table : List PukEnvelope)
    (call : Call) : List PukEnvelope × Option (List PukEnvelope) :=
  if call.envelopes.length = 0 then (table, some [])
  else if call.Rejected owner then (table, none)
  else
    let stored := upsertAll PukEnvelope.key excluded table call.rows
    (stored, some (call.rows.filterMap fun row => stored.find? fun other => other.key = row.key))

/-- `getPukEnvelopeForDevice`. -/
def getPukEnvelopeForDevice (table : List PukEnvelope) (userPubkey deviceId : String) :
    Option PukEnvelope :=
  (table.filter fun row => row.userPubkey = userPubkey ∧ row.deviceId = deviceId).argmax
    (·.generation)

/-! ## The property -/

/-- The table after a call. -/
def step (owner : String → Option String) (table : List PukEnvelope) (call : Call) :
    List PukEnvelope := (distributePukEnvelopes owner table call).1

/-- The envelopes for a device. -/
def envelopesFor (deviceId : String) (table : List PukEnvelope) : List PukEnvelope :=
  table.filter fun row => row.deviceId = deviceId

/-- The device reads what its user's own calls would have left, and no other call touches its
envelopes. -/
structure OwnOnly (owner : String → Option String) (table : List PukEnvelope) (calls : List Call)
    (user device : String) : Prop where
  reads : ∀ before after, calls = before ++ after →
    getPukEnvelopeForDevice (before.foldl (step owner) table) user device =
      getPukEnvelopeForDevice
        ((before.filter fun call => call.userPubkey = user).foldl (step owner) table) user device
  untouched : ∀ before call after, calls = before ++ call :: after → ¬ call.userPubkey = user →
    envelopesFor device (step owner (before.foldl (step owner) table) call) =
      envelopesFor device (before.foldl (step owner) table)

/-- The envelope is there already, from the same moment. -/
def Stored (table : List PukEnvelope) (now : String) (e : NewEnvelope) : Prop :=
  (∃ row ∈ table, row.key = (e.deviceId, e.generation)) ∧
    ∀ row ∈ table, row.key = (e.deviceId, e.generation) →
      row.envelope = e.envelope ∧ row.createdAt = now

/-- What a call must be, to leave the devices of others alone: it fails, or it names its own user's
devices only, or of another's what is there anyway. -/
def Harmless (owner : String → Option String) (table : List PukEnvelope) (call : Call) : Prop :=
  call.Rejected owner ∨ ∀ e ∈ call.envelopes,
    owner e.deviceId = some call.userPubkey ∨ Stored table call.insert.now e

/-! ## One call -/

section Distribute

variable {owner : String → Option String} {table : List PukEnvelope} {call : Call}

theorem excluded_key (old new : PukEnvelope) : (excluded old new).key = old.key := rfl

theorem byKey_device (deviceId : String) :
    ByKey PukEnvelope.key fun row => row.deviceId = deviceId := by
  intro a b hkey
  have hdevice : a.deviceId = b.deviceId := (Prod.mk.inj hkey).1
  dsimp only
  rw [hdevice]

/-- The rows of a call, one for each envelope. -/
theorem mem_rows {row : PukEnvelope} : row ∈ call.rows ↔
    ∃ i e, call.envelopes[i]? = some e ∧ row =
      { id := call.insert.ids i, userPubkey := call.userPubkey, deviceId := e.deviceId,
        generation := e.generation, envelope := e.envelope, createdAt := call.insert.now } := by
  unfold Call.rows
  rw [List.mem_iff_getElem?]
  simp only [List.getElem?_mapIdx, Option.map_eq_some_iff]
  constructor
  · rintro ⟨i, e, he, rfl⟩
    exact ⟨i, e, he, rfl⟩
  · rintro ⟨i, e, he, rfl⟩
    exact ⟨i, e, he, rfl⟩

/-- A call that fails leaves the table as it is, and one that does not upserts its rows. -/
theorem step_eq (owner : String → Option String) (table : List PukEnvelope) (call : Call) :
    step owner table call =
      if call.Rejected owner then table
      else upsertAll PukEnvelope.key excluded table call.rows := by
  unfold step distributePukEnvelopes
  by_cases hnone : call.envelopes.length = 0
  · have hrows : call.rows = [] := by
      rw [Call.rows, List.length_eq_zero_iff.mp hnone, List.mapIdx_nil]
    rw [if_pos hnone, hrows]
    simp [upsertAll]
  · rw [if_neg hnone]
    split_ifs <;> rfl

/-- **What a call leaves of a device's envelopes**: what there was of them, and the call's own. -/
theorem distribute_envelopesFor (owner : String → Option String) (table : List PukEnvelope)
    (call : Call) (deviceId : String) :
    envelopesFor deviceId (step owner table call) =
      if call.Rejected owner then envelopesFor deviceId table
      else upsertAll PukEnvelope.key excluded (envelopesFor deviceId table)
        (envelopesFor deviceId call.rows) := by
  rw [step_eq]
  split_ifs
  · rfl
  · exact filter_upsertAll excluded_key (byKey_device deviceId) table call.rows

/-- A row changes nothing exactly if its envelope is stored already. -/
theorem upsert_eq_self_iff_stored {row : PukEnvelope} {e : NewEnvelope}
    (hkey : row.key = (e.deviceId, e.generation)) (henvelope : row.envelope = e.envelope) :
    upsert PukEnvelope.key excluded table row = table ↔ Stored table row.createdAt e := by
  rw [upsert_eq_self_iff, hkey, Stored]
  refine and_congr_right fun _ => ?_
  constructor
  · intro h old hold hsame
    have hmerged := h old hold hsame
    rw [← henvelope]
    exact ⟨(congrArg PukEnvelope.envelope hmerged).symm,
      (congrArg PukEnvelope.createdAt hmerged).symm⟩
  · intro h old hold hsame
    obtain ⟨henv, hcreated⟩ := h old hold hsame
    unfold excluded
    rw [henvelope, ← henv, ← hcreated]

/-- A call leaves a device's envelopes as they are exactly if it fails, or what it names of the
device is there anyway. -/
theorem untouched_iff {deviceId : String} :
    envelopesFor deviceId (step owner table call) = envelopesFor deviceId table ↔
      call.Rejected owner ∨
        ∀ e ∈ call.envelopes, e.deviceId = deviceId → Stored table call.insert.now e := by
  rw [step_eq]
  by_cases hrejected : call.Rejected owner
  · rw [if_pos hrejected]
    exact iff_of_true rfl (.inl hrejected)
  rw [if_neg hrejected, or_iff_right hrejected]
  have hkeys : (call.rows.map PukEnvelope.key).Nodup :=
    not_not.mp fun h => hrejected (.inr (.inr h))
  refine (filter_upsertAll_eq_iff excluded_key (byKey_device deviceId) hkeys).trans ?_
  constructor
  · intro h e he hdevice
    obtain ⟨i, hi⟩ := List.mem_iff_getElem?.mp he
    have hrow := mem_rows.mpr ⟨i, e, hi, rfl⟩
    exact (upsert_eq_self_iff_stored rfl rfl).mp (h _ hrow hdevice)
  · intro h row hrow hdevice
    obtain ⟨i, e, hi, rfl⟩ := mem_rows.mp hrow
    have he := List.mem_of_getElem? hi
    exact (upsert_eq_self_iff_stored rfl rfl).mpr (h e he hdevice)

/-- A call is harmless exactly if it leaves every device of another user as it is. -/
theorem harmless_iff : Harmless owner table call ↔
    ∀ user device, owner device = some user → ¬ call.userPubkey = user →
      envelopesFor device (step owner table call) = envelopesFor device table := by
  simp only [untouched_iff, Harmless]
  constructor
  · rintro (hrejected | h) user device howner huser
    · exact .inl hrejected
    · refine .inr fun e he hdevice => (h e he).resolve_left fun hown => ?_
      rw [hdevice, howner] at hown
      exact huser (Option.some.inj hown).symm
  · intro h
    by_cases hrejected : call.Rejected owner
    · exact .inl hrejected
    refine .inr fun e he => or_iff_not_imp_left.mpr fun hother => ?_
    -- a device that a statement names is there, or it would have failed
    cases howner : owner e.deviceId with
    | none => exact absurd (.inr (.inl ⟨e, he, .inl howner⟩)) hrejected
    | some user =>
      have huser : ¬ call.userPubkey = user := by
        rintro rfl
        exact hother howner
      exact (h user e.deviceId howner huser).resolve_left hrejected e he rfl

end Distribute

/-! ## Every sequence of calls -/

/-- A user's calls do to a device's envelopes what they do without the others' rows. -/
theorem step_consistent (owner : String → Option String) (user device : String) :
    Noninterference.Consistent (step owner) (fun call => call.userPubkey = user)
      (envelopesFor device) := by
  intro table table' call _ hsame
  rw [distribute_envelopesFor, distribute_envelopesFor, hsame]

/-- A device reads among its own envelopes. -/
theorem getPukEnvelopeForDevice_congr {table table' : List PukEnvelope} {user device : String}
    (h : envelopesFor device table = envelopesFor device table') :
    getPukEnvelopeForDevice table user device = getPukEnvelopeForDevice table' user device := by
  have hrows : ∀ table : List PukEnvelope,
      (table.filter fun row => row.userPubkey = user ∧ row.deviceId = device) =
        (envelopesFor device table).filter fun row => row.userPubkey = user := by
    intro table
    rw [envelopesFor, List.filter_filter]
    refine List.filter_congr fun row _ => ?_
    simp [Bool.decide_and]
  unfold getPukEnvelopeForDevice
  rw [hrows, hrows, h]

/-- **Every device reads what comes of its user's calls alone, and no other call touches its
envelopes, exactly if each call is harmless**: it names its own user's devices, or fails. -/
theorem own_envelopes_iff (owner : String → Option String) (table : List PukEnvelope)
    (calls : List Call) :
    (∀ user device, owner device = some user → OwnOnly owner table calls user device) ↔
      ∀ before call after, calls = before ++ call :: after →
        Harmless owner (before.foldl (step owner) table) call := by
  constructor
  · intro h before call after hcalls
    refine harmless_iff.mpr fun user device howner huser => ?_
    exact (h user device howner).untouched before call after hcalls huser
  · intro h user device howner
    have huntouched : ∀ before call after, calls = before ++ call :: after →
        ¬ call.userPubkey = user →
          envelopesFor device (step owner (before.foldl (step owner) table) call) =
            envelopesFor device (before.foldl (step owner) table) :=
      fun before call after hcalls =>
        harmless_iff.mp (h before call after hcalls) user device howner
    refine ⟨fun before after hcalls => getPukEnvelopeForDevice_congr ?_, huntouched⟩
    exact (Noninterference.sees_own_iff (step_consistent owner user device)).mpr huntouched before
      after hcalls

/-- Two users, with a device each. -/
def sampleOwner (deviceId : String) : Option String :=
  [("phone", "ann"), ("tablet", "bob")].lookup deviceId

/-- A call with one envelope for the phone. -/
def toPhone (userPubkey envelope : String) : Call where
  userPubkey := userPubkey
  envelopes := [⟨"phone", 1, envelope⟩]
  insert := ⟨fun _ => userPubkey, "2026-01-01T00:00:00Z", false⟩

/-- **An envelope of another.** Who calls after the phone's user replaces its envelope; and who
calls first has the row, and its user's envelope is not read. -/
theorem envelope_replaced : sampleOwner "phone" = some "ann" ∧
    ¬ OwnOnly sampleOwner [] [toPhone "ann" "good", toPhone "bob" "bad"] "ann" "phone" ∧
    ¬ OwnOnly sampleOwner [] [toPhone "bob" "bad", toPhone "ann" "good"] "ann" "phone" := by
  refine ⟨rfl, fun h => ?_, fun h => ?_⟩
  · have hread := h.reads [toPhone "ann" "good", toPhone "bob" "bad"] [] rfl
    exact absurd hread (by decide)
  · have hread := h.reads [toPhone "bob" "bad", toPhone "ann" "good"] [] rfl
    exact absurd hread (by decide)

end Llamenos.Worker.PukEnvelopes
