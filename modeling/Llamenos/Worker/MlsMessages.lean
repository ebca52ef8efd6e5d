import Llamenos.Lib.Deletes

/-!
# Pending MLS messages

`enqueueMlsMessages` and `fetchAndClearMlsMessages` of `apps/worker/services/crypto-keys.ts`, each
one statement on the table `mls_pending_messages`. A fetch is a delete that returns its rows: it
takes them one after the other, overlapping with other fetches and with inserts, and has them when
it commits; or it fails, and has none.

Results:
* `each_message_once`: **every queued message is stored or returned by one fetch**, and a fetch
  returns and removes those of its hub and device alone.
* `overlapping_fetches`: two fetches of one device.
-/

namespace Llamenos.Worker.MlsMessages

open Llamenos.Lib

variable {P : Type}

/-! ## The code -/

/-- A row of `mls_pending_messages`. -/
structure Message (P : Type) where
  id : String
  hubId : String
  recipientDeviceId : String
  messageType : String
  payload : P
  createdAt : String

structure NewMessage (P : Type) where
  recipientDeviceId : String
  messageType : String
  payload : P

/-- What the database draws for the rows of a statement. -/
structure Insert where
  ids : Nat → String
  now : String

/-- `values(messages.map(...))`. -/
def rows (hubId : String) (messages : List (NewMessage P)) (insert : Insert) : List (Message P) :=
  messages.mapIdx fun i m =>
    { id := insert.ids i, hubId, recipientDeviceId := m.recipientDeviceId,
      messageType := m.messageType, payload := m.payload, createdAt := insert.now }

/-- The hub and the device of a fetch. -/
structure Address where
  hubId : String
  deviceId : String

/-- `where(and(eq(hubId), eq(recipientDeviceId)))`. -/
def Address.Matches (address : Address) (m : Message P) : Prop :=
  m.hubId = address.hubId ∧ m.recipientDeviceId = address.deviceId

instance (address : Address) : DecidablePred (address.Matches (P := P)) :=
  fun _ => inferInstanceAs (Decidable (_ ∧ _))

/-! ## Overlapping calls -/

/-- A call's statement: an insert, or what the delete of a fetch does next. -/
inductive Event (P : Type) where
  | enqueueMlsMessages (hubId : String) (messages : List (NewMessage P)) (insert : Insert)
  | fetchAndClearMlsMessages (fetch : Nat) (hubId deviceId : String)
  | visit (fetch : Nat)
  | commit (fetch : Nat)
  | abort (fetch : Nat)

/-- The statement, to the table. No messages are no statement, and so an insert of no rows. -/
def Event.statement : Event P → Deletes.Event (Message P) Address
  | .enqueueMlsMessages hubId messages insert => .insert (rows hubId messages insert)
  | .fetchAndClearMlsMessages fetch hubId deviceId => .delete fetch ⟨hubId, deviceId⟩
  | .visit fetch => .visit fetch
  | .commit fetch => .commit fetch
  | .abort fetch => .abort fetch

abbrev State (P : Type) := Deletes.State (Message P) String Address

abbrev Out (P : Type) := Deletes.Out (Message P) Address

def step (s : State P) (e : Event P) : Option (State P) :=
  Deletes.step Message.id Address.Matches s e.statement

/-- The messages that a call has queued, and those that a fetch returns. -/
def out (s : State P) (e : Event P) : List (Out P) := Deletes.out Message.id s e.statement

/-- What a run queues and returns, from the empty table. -/
def told (events : List (Event P)) : List (Out P) :=
  Runs.emitted step out Deletes.start events

/-! ## Every run -/

theorem told_eq (events : List (Event P)) : told events =
    Runs.emitted (Deletes.step Message.id Address.Matches) (Deletes.out Message.id) Deletes.start
      (events.map Event.statement) :=
  Runs.emitted_map Event.statement Deletes.start events

theorem run_eq (events : List (Event P)) : Runs.run step Deletes.start events =
    Runs.run (Deletes.step Message.id Address.Matches) Deletes.start
      (events.map Event.statement) :=
  Runs.run_map Event.statement Deletes.start events

theorem run_sound {events : List (Event P)} {s : State P}
    (h : Runs.run step Deletes.start events = some s) :
    Deletes.Sound Message.id Address.Matches s := by
  rw [run_eq] at h
  exact (Deletes.run_conserves h).1

/-- A fetch returns messages of its hub and device. -/
theorem mem_told_matches {events : List (Event P)} {s : State P}
    (h : Runs.run step Deletes.start events = some s) {fetch : Nat} {address : Address}
    {m : Message P} (hm : .returned fetch address m ∈ told events) : address.Matches m := by
  obtain ⟨before, e, after, u, -, hu, hout⟩ := Runs.mem_emitted hm h
  exact Deletes.mem_returned_matches (run_sound hu) hout

/-- **Every queued message is stored, or one fetch has returned it**: as many times as it was
queued, and just once where the drawn ids are all different. What leaves the table in a step is
returned in it, to a fetch for the message's hub and device. -/
theorem each_message_once {events : List (Event P)} {s : State P}
    (h : Runs.run step Deletes.start events = some s) :
    (Deletes.inserted (told events)).Perm (s.stored ++ Deletes.returned (told events)) ∧
    (((Deletes.inserted (told events)).map Message.id).Nodup →
      ∀ m ∈ Deletes.inserted (told events),
        (m ∈ s.stored ∧ ∀ fetch address, .returned fetch address m ∉ told events) ∨
          m ∉ s.stored ∧ ∃ fetch address, .returned fetch address m ∈ told events ∧
            ∀ fetch' address', .returned fetch' address' m ∈ told events → fetch' = fetch) ∧
    (∀ before e after u u', events = before ++ e :: after →
      Runs.run step Deletes.start before = some u → step u e = some u' →
        ∀ m ∈ u.stored, m ∈ u'.stored ∨
          ∃ fetch address, .returned fetch address m ∈ out u e ∧ address.Matches m) ∧
    ∀ fetch address m, .returned fetch address m ∈ told events → address.Matches m := by
  have hperm : (Deletes.inserted (told events)).Perm
      (s.stored ++ Deletes.returned (told events)) := by
    have hrun := h
    rw [run_eq] at hrun
    rw [told_eq]
    exact (Deletes.run_conserves hrun).2
  refine ⟨hperm, fun hids m hm => ?_, fun before e after u u' _ hu hstep m hm => ?_,
    fun fetch address m hm => mem_told_matches h hm⟩
  · obtain ⟨-, hreturned, hdisjoint⟩ := List.nodup_append'.mp (hperm.nodup_iff.mp hids.of_map)
    rcases List.mem_append.mp (hperm.subset hm) with hstored | hfetched
    · refine .inl ⟨hstored, fun fetch address hreturn => hdisjoint hstored ?_⟩
      exact Deletes.mem_returned.mpr ⟨fetch, address, hreturn⟩
    · obtain ⟨fetch, address, hreturn⟩ := Deletes.mem_returned.mp hfetched
      refine .inr ⟨fun hstored => hdisjoint hstored hfetched, fetch, address, hreturn, ?_⟩
      intro fetch' address' hreturn'
      exact (Deletes.eq_of_returned hreturned hreturn' hreturn).1
  · rcases Deletes.kept_of_step (run_sound hu) hstep hm with hkept | ⟨fetch, address, hreturn⟩
    · exact .inl hkept
    · exact .inr ⟨fetch, address, hreturn, Deletes.mem_returned_matches (run_sound hu) hreturn⟩

/-- Two messages for a phone and one for a tablet; two fetches of the phone overlap. -/
def sampleEvents : List (Event String) :=
  [.enqueueMlsMessages "hub" [⟨"phone", "commit", "c1"⟩, ⟨"tablet", "commit", "c1"⟩]
      ⟨fun i => ["a", "b"].getD i "", "2026-01-01T00:00:00Z"⟩,
    .fetchAndClearMlsMessages 0 "hub" "phone", .visit 0,
    .enqueueMlsMessages "hub" [⟨"phone", "welcome", "w1"⟩]
      ⟨fun _ => "c", "2026-01-01T00:00:01Z"⟩,
    .fetchAndClearMlsMessages 1 "hub" "phone", .commit 0, .visit 1, .visit 1, .commit 1]

/-- **The first fetch returns the first message, and the second the other.** -/
theorem overlapping_fetches :
    ∃ s, Runs.run step Deletes.start sampleEvents = some s ∧
      (s.stored.map Message.id = ["b"] ∧
        (Deletes.returned (told sampleEvents)).map Message.id = ["a", "c"]) ∧
      ∀ m ∈ Deletes.inserted (told sampleEvents),
        (m ∈ s.stored ∧ ∀ fetch address, .returned fetch address m ∉ told sampleEvents) ∨
          m ∉ s.stored ∧ ∃ fetch address, .returned fetch address m ∈ told sampleEvents ∧
            ∀ fetch' address', .returned fetch' address' m ∈ told sampleEvents →
              fetch' = fetch := by
  obtain ⟨s, hs, hwhere⟩ : ∃ s ∈ Runs.run step Deletes.start sampleEvents,
      s.stored.map Message.id = ["b"] ∧
        (Deletes.returned (told sampleEvents)).map Message.id = ["a", "c"] := by
    decide +kernel
  exact ⟨s, hs, hwhere, (each_message_once hs).2.1 (by decide +kernel)⟩

end Llamenos.Worker.MlsMessages
