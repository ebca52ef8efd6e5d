import Llamenos.Worker.Erasure
import Mathlib

/-!
# When erasures keep to their requests

A cancelled request is not executed, an executed one ends as completed, nothing is erased before its
time, and a user has one pending request at most, as long as no statement comes too late: a new
request is inserted after another of the user's, a request is cancelled after a pass has claimed it,
or marked as failed when its erasure has run or another pass has claimed it. Each of the three
statements writes what an earlier one has found without asking again.

Results:
* `step_sound`: what a step in turn preserves.
* `lawful_of_inTurn`: **erasures keep to their requests in every run of such steps.**
* `cancelled_erased`: a request is cancelled while a pass is on its way to execute it.
-/

namespace Llamenos.Worker.Erasure

open Llamenos.Lib Llamenos.Crypto

variable {ed25519 : Ed25519}

/-! ## The property -/

/-- What becomes of requests. An erasure executes the request that its pass has claimed, and every
request that it completes; `time` is the greatest reading of the clock so far. -/
inductive Fact where
  | cancelled (requestId : String)
  | erased (requestId : String) (time : Int)
  deriving DecidableEq

def Write.facts (requests : List Request) (latest : Int) : Write → List Fact
  | .cancel requestId _ => [.cancelled requestId]
  | .complete claimed userId _ =>
    (claimed ++ (requests.filter fun row =>
      row.userId = userId ∧ row.status = .executing).map Request.id).map (.erased · latest)
  | _ => []

def facts (s : System) (e : Event) : List Fact :=
  (written s e).facts s.db.requests (max s.latest e.input.now)

/-- No erasure of a cancelled request; executed requests are completed, and were due; and one
pending request for each user. -/
structure Lawful (requests : List Request) (facts : List Fact) : Prop where
  spared : facts.Pairwise fun a b => ∀ requestId time, a = .cancelled requestId →
    b ≠ .erased requestId time
  executed : ∀ requestId time, .erased requestId time ∈ facts →
    ∃ row ∈ requests, row.id = requestId ∧ row.status = .completed ∧ row.executeAt < time
  single : ∀ row ∈ requests, ∀ row' ∈ requests, row.status = .pending → row'.status = .pending →
    row.userId = row'.userId → row = row'

/-- A request is claimed, or its erasure has run. -/
def Request.Taken (row : Request) : Prop := row.status = .executing ∨ row.status = .completed

/-- A request is over, without an erasure. -/
def Request.Spared (row : Request) : Prop := row.status = .cancelled ∨ row.status = .failed

/-- The write does not come too late. -/
def Write.InTurn (requests : List Request) : Write → Prop
  | .insert new => ∀ row ∈ requests, row.userId = new.userId → row.status ≠ .pending
  | .cancel requestId _ => ∀ row ∈ requests, row.id = requestId → ¬ row.Taken
  | .fail claimed requestId => ∀ row ∈ requests, row.id = requestId →
    row.status ≠ .completed ∧ (claimed = false → row.status ≠ .executing)
  | .nothing | .claim _ | .complete .. => True

def InTurn (s : System) (e : Event) : Prop := (written s e).InTurn s.db.requests

/-! ## One write -/

/-- What holds of the requests and of what has become of them, all along. -/
structure Sound (requests : List Request) (latest : Int) (facts : List Fact) : Prop where
  lawful : Lawful requests facts
  ids : (requests.map Request.id).Nodup
  due : ∀ row ∈ requests, row.Taken → row.executeAt < latest
  spared : ∀ requestId, .cancelled requestId ∈ facts →
    ∃ row ∈ requests, row.id = requestId ∧ row.Spared

variable {requests : List Request} {latest latest' : Int} {fs : List Fact}
variable {row : Request}

theorem Request.Spared.not_taken (h : row.Spared) : ¬ row.Taken := by
  rintro (htaken | htaken) <;> rcases h with h | h <;> rw [h] at htaken <;> cases htaken

theorem Sound.row_unique (hs : Sound requests latest fs) {row row' : Request}
    (hrow : row ∈ requests) (hrow' : row' ∈ requests) (h : row.id = row'.id) : row = row' :=
  List.inj_on_of_nodup_map hs.ids hrow hrow' h

/-- A cancelled request is not taken. -/
theorem Sound.not_cancelled (hs : Sound requests latest fs)
    (hrow : row ∈ requests) (htaken : row.Taken) : .cancelled row.id ∉ fs := by
  intro hmem
  obtain ⟨row', hrow', hid, hspared⟩ := hs.spared row.id hmem
  rw [hs.row_unique hrow' hrow hid] at hspared
  exact hspared.not_taken htaken

/-- What an `UPDATE` keeps of a row. -/
structure Updates (f : Request → Request) : Prop where
  id : ∀ row, (f row).id = row.id
  userId : ∀ row, (f row).userId = row.userId
  executeAt : ∀ row, (f row).executeAt = row.executeAt

variable {f : Request → Request}

/-- Rows may be updated, but not back to pending, from completed, or from cancelled or failed. -/
theorem Sound.map (hs : Sound requests latest fs) (hf : Updates f)
    (hpending : ∀ row ∈ requests, (f row).status = .pending → row.status = .pending)
    (hdue : ∀ row ∈ requests, (f row).Taken → row.executeAt < latest')
    (hcompleted : ∀ row ∈ requests, row.status = .completed → (f row).status = .completed)
    (hspared : ∀ row ∈ requests, row.Spared → (f row).Spared) :
    Sound (requests.map f) latest' fs := by
  refine ⟨⟨hs.lawful.spared, fun requestId time hmem => ?_, ?_⟩, ?_, ?_, fun requestId hmem => ?_⟩
  · obtain ⟨row, hrow, hid, hstatus, hlt⟩ := hs.lawful.executed requestId time hmem
    exact ⟨f row, List.mem_map_of_mem hrow, (hf.id row).trans hid, hcompleted row hrow hstatus,
      hf.executeAt row ▸ hlt⟩
  · intro row hrow row' hrow' hstatus hstatus' huser
    obtain ⟨old, hold, rfl⟩ := List.mem_map.mp hrow
    obtain ⟨old', hold', rfl⟩ := List.mem_map.mp hrow'
    rw [hf.userId, hf.userId] at huser
    rw [hs.lawful.single old hold old' hold' (hpending old hold hstatus)
      (hpending old' hold' hstatus') huser]
  · rw [List.map_map, show Request.id ∘ f = Request.id from funext hf.id]
    exact hs.ids
  · intro row hrow htaken
    obtain ⟨old, hold, rfl⟩ := List.mem_map.mp hrow
    rw [hf.executeAt]
    exact hdue old hold htaken
  · obtain ⟨row, hrow, hid, hrowSpared⟩ := hs.spared requestId hmem
    exact ⟨f row, List.mem_map_of_mem hrow, (hf.id row).trans hid, hspared row hrow hrowSpared⟩

/-- A cancelled row may be recorded as such. -/
theorem Sound.cancelled (hs : Sound requests latest fs) (hrow : row ∈ requests)
    (hspared : row.Spared) : Sound requests latest (fs ++ [.cancelled row.id]) := by
  refine ⟨⟨?_, fun requestId time hmem => ?_, hs.lawful.single⟩, hs.ids, hs.due,
    fun requestId hmem => ?_⟩
  · refine List.pairwise_append.mpr ⟨hs.lawful.spared, List.pairwise_singleton _ _, ?_⟩
    intro a _ b hb requestId time _
    rw [List.mem_singleton.mp hb]
    exact nofun
  · rcases List.mem_append.mp hmem with hmem | hmem
    · exact hs.lawful.executed requestId time hmem
    · cases List.mem_singleton.mp hmem
  · rcases List.mem_append.mp hmem with hmem | hmem
    · exact hs.spared requestId hmem
    · cases List.mem_singleton.mp hmem
      exact ⟨row, hrow, rfl, hspared⟩

/-- Completed rows may be recorded as erased. -/
theorem Sound.erased (hs : Sound requests latest fs) {ids : List String}
    (h : ∀ id ∈ ids, ∃ row ∈ requests, row.id = id ∧ row.status = .completed) :
    Sound requests latest (fs ++ ids.map (.erased · latest)) := by
  have hnew : ∀ fact ∈ ids.map (Fact.erased · latest), ∃ row ∈ requests,
      fact = .erased row.id latest ∧ row.status = .completed := by
    intro fact hfact
    obtain ⟨id, hid, rfl⟩ := List.mem_map.mp hfact
    obtain ⟨row, hrow, rfl, hstatus⟩ := h id hid
    exact ⟨row, hrow, rfl, hstatus⟩
  refine ⟨⟨?_, fun requestId time hmem => ?_, hs.lawful.single⟩, hs.ids, hs.due,
    fun requestId hmem => ?_⟩
  · refine List.pairwise_append.mpr ⟨hs.lawful.spared, ?_, ?_⟩
    · refine List.pairwise_map.mpr (List.pairwise_of_forall fun id id' requestId time h => ?_)
      cases h
    · intro a ha b hb requestId time hcancelled herased
      obtain ⟨row, hrow, rfl, hstatus⟩ := hnew b hb
      cases herased
      exact hs.not_cancelled hrow (.inr hstatus) (hcancelled ▸ ha)
  · rcases List.mem_append.mp hmem with hmem | hmem
    · exact hs.lawful.executed requestId time hmem
    · obtain ⟨row, hrow, herased, hstatus⟩ := hnew _ hmem
      cases herased
      exact ⟨row, hrow, rfl, hstatus, hs.due row hrow (.inr hstatus)⟩
  · rcases List.mem_append.mp hmem with hmem | hmem
    · exact hs.spared requestId hmem
    · obtain ⟨row, -, herased, -⟩ := hnew _ hmem
      cases herased

/-- What the task that writes knows of the requests. -/
def Write.Known (requests : List Request) (latest : Int) : Write → Prop
  | .insert new => new.status = .pending ∧ new.id ∉ requests.map Request.id
  | .cancel requestId _ => ∃ row ∈ requests, row.id = requestId
  | .claim requestId => ∀ row ∈ requests, row.id = requestId → row.executeAt < latest
  | .complete claimed userId _ => ∀ id ∈ claimed, ∃ row ∈ requests,
    row.id = id ∧ row.userId = userId ∧ row.Taken
  | .nothing | .fail .. => True

/-- With time, nothing else is due. -/
theorem Sound.mono (hs : Sound requests latest fs) (hle : latest ≤ latest') :
    Sound requests latest' fs :=
  ⟨hs.lawful, hs.ids, fun row hrow htaken => lt_of_lt_of_le (hs.due row hrow htaken) hle,
    hs.spared⟩

/-- An `UPDATE` with a condition keeps what its `SET` keeps. -/
theorem updates_where (p : Request → Prop) [DecidablePred p]
    (h : Updates f) : Updates fun row => if p row then f row else row := by
  constructor <;> intro row <;> split
  · exact h.id row
  · rfl
  · exact h.userId row
  · rfl
  · exact h.executeAt row
  · rfl

theorem updates_cancel (requestId : String) (cancelledAt : Int) :
    Updates fun row : Request => if row.id = requestId then
      { row with status := .cancelled, cancelledAt := some cancelledAt } else row :=
  updates_where (·.id = requestId)
    (f := fun row => { row with status := .cancelled, cancelledAt := some cancelledAt })
    ⟨fun _ => rfl, fun _ => rfl, fun _ => rfl⟩

theorem updates_fail (requestId : String) :
    Updates fun row : Request => if row.id = requestId then { row with status := .failed }
      else row :=
  updates_where (·.id = requestId) (f := fun row => { row with status := .failed })
    ⟨fun _ => rfl, fun _ => rfl, fun _ => rfl⟩

theorem updates_claim (requestId : String) :
    Updates fun row : Request => if row.id = requestId ∧ row.status = .pending then
      { row with status := .executing } else row :=
  updates_where (fun row => row.id = requestId ∧ row.status = .pending)
    (f := fun row => { row with status := .executing }) ⟨fun _ => rfl, fun _ => rfl, fun _ => rfl⟩

theorem updates_complete (userId : String) (now : Int) :
    Updates fun row : Request => if row.userId = userId ∧ row.status = .executing then
      { row with status := .completed, executedAt := some now } else row :=
  updates_where (fun row => row.userId = userId ∧ row.status = .executing)
    (f := fun row => { row with status := .completed, executedAt := some now })
    ⟨fun _ => rfl, fun _ => rfl, fun _ => rfl⟩

theorem sound_insert (hs : Sound requests latest fs) {new : Request}
    (hstatus : new.status = .pending) (hid : new.id ∉ requests.map Request.id)
    (hturn : ∀ row ∈ requests, row.userId = new.userId → row.status ≠ .pending) :
    Sound (requests ++ [new]) latest fs := by
  have hold : ∀ {row}, row ∈ requests → row ∈ requests ++ [new] := List.mem_append_left _
  refine ⟨⟨hs.lawful.spared, fun requestId time hmem => ?_, ?_⟩, ?_, fun row hrow htaken => ?_,
    fun requestId hmem => ?_⟩
  · obtain ⟨row, hrow, h⟩ := hs.lawful.executed requestId time hmem
    exact ⟨row, hold hrow, h⟩
  · intro row hrow row' hrow' hpending hpending' huser
    rcases List.mem_append.mp hrow with hrow | hrow <;>
      rcases List.mem_append.mp hrow' with hrow' | hrow'
    · exact hs.lawful.single row hrow row' hrow' hpending hpending' huser
    · rw [List.mem_singleton.mp hrow'] at huser
      exact absurd hpending (hturn row hrow huser)
    · rw [List.mem_singleton.mp hrow] at huser
      exact absurd hpending' (hturn row' hrow' huser.symm)
    · rw [List.mem_singleton.mp hrow, List.mem_singleton.mp hrow']
  · rw [List.map_append, List.map_singleton]
    refine List.nodup_append.mpr ⟨hs.ids, List.nodup_singleton _, fun id hmem id' hid' => ?_⟩
    rw [List.mem_singleton.mp hid']
    rintro rfl
    exact hid hmem
  · rcases List.mem_append.mp hrow with hrow | hrow
    · exact hs.due row hrow htaken
    · rw [List.mem_singleton.mp hrow, Request.Taken, hstatus] at htaken
      rcases htaken with h | h <;> cases h
  · obtain ⟨row, hrow, h⟩ := hs.spared requestId hmem
    exact ⟨row, hold hrow, h⟩

variable {requestId : String}

/-- A request that is not completed may be spared. -/
theorem sound_spare (hs : Sound requests latest fs)
    (hf : Updates fun row => if row.id = requestId then f row else row)
    (hspares : ∀ row, (f row).Spared)
    (hturn : ∀ row ∈ requests, row.id = requestId → row.status ≠ .completed) :
    Sound (updateRequest requests requestId f) latest fs := by
  refine hs.map hf ?_ ?_ ?_ ?_ <;> intro row hrow h <;>
    by_cases hid : row.id = requestId
  · simp only [hid, if_true] at h
    rcases hspares row with hspared | hspared <;> rw [hspared] at h <;> cases h
  · simpa only [hid, if_false] using h
  · simp only [hid, if_true] at h
    exact absurd h (hspares row).not_taken
  · exact hs.due row hrow (by simpa only [hid, if_false] using h)
  · exact absurd h (hturn row hrow hid)
  · simpa only [hid, if_false] using h
  · simpa only [hid, if_true] using hspares row
  · simpa only [hid, if_false] using h

theorem sound_cancel (hs : Sound requests latest fs) (cancelledAt : Int)
    (hrow : ∃ row ∈ requests, row.id = requestId)
    (hturn : ∀ row ∈ requests, row.id = requestId → ¬ row.Taken) :
    Sound ((Write.cancel requestId cancelledAt).apply requests) latest
      (fs ++ [.cancelled requestId]) := by
  have hmap : Sound ((Write.cancel requestId cancelledAt).apply requests) latest fs :=
    sound_spare hs (updates_cancel requestId cancelledAt) (fun _ => .inl rfl)
      fun row hrow hid hcompleted => hturn row hrow hid (.inr hcompleted)
  obtain ⟨row, hrow, rfl⟩ := hrow
  have hcancelled : { row with status := .cancelled, cancelledAt := some cancelledAt } ∈
      (Write.cancel row.id cancelledAt).apply requests :=
    List.mem_map.mpr ⟨row, hrow, if_pos rfl⟩
  have hrecorded := hmap.cancelled hcancelled (.inl rfl)
  exact hrecorded

theorem sound_claim (hs : Sound requests latest fs)
    (hdue : ∀ row ∈ requests, row.id = requestId → row.executeAt < latest) :
    Sound ((Write.claim requestId).apply requests) latest fs := by
  refine hs.map (updates_claim requestId) ?_ ?_ ?_ ?_ <;> intro row hrow h <;>
    by_cases hid : row.id = requestId ∧ row.status = .pending
  · exact hid.2
  · simpa [hid] using h
  · exact hdue row hrow hid.1
  · exact hs.due row hrow (by simpa [hid] using h)
  · rw [hid.2] at h
    cases h
  · simpa [hid] using h
  · rw [Request.Spared, hid.2] at h
    rcases h with h | h <;> cases h
  · simpa [hid] using h

theorem sound_fail (hs : Sound requests latest fs) {claimed : Bool}
    (hturn : ∀ row ∈ requests, row.id = requestId → row.status ≠ .completed) :
    Sound ((Write.fail claimed requestId).apply requests) latest fs :=
  sound_spare hs (updates_fail requestId) (fun _ => .inr rfl) hturn

theorem sound_complete (hs : Sound requests latest fs) {claimed : List String} {userId : String}
    (now : Int) (hclaimed : ∀ id ∈ claimed, ∃ row ∈ requests,
      row.id = id ∧ row.userId = userId ∧ row.Taken) :
    Sound ((Write.complete claimed userId now).apply requests) latest
      (fs ++ (Write.complete claimed userId now).facts requests latest) := by
  have hmap : Sound ((Write.complete claimed userId now).apply requests) latest fs := by
    refine hs.map (updates_complete userId now) ?_ ?_ ?_ ?_ <;> intro row hrow h <;>
      by_cases hexec : row.userId = userId ∧ row.status = .executing
    · simp [hexec] at h
    · simpa [hexec] using h
    · exact hs.due row hrow (.inl hexec.2)
    · exact hs.due row hrow (by simpa [hexec] using h)
    · simp [hexec]
    · simpa [hexec] using h
    · rw [Request.Spared, hexec.2] at h
      rcases h with h | h <;> cases h
    · simpa [hexec] using h
  -- a taken request of the user is completed now
  have hdone : ∀ row ∈ requests, row.userId = userId → row.Taken →
      ∃ row' ∈ (Write.complete claimed userId now).apply requests,
        row'.id = row.id ∧ row'.status = .completed := by
    intro row hrow huser htaken
    refine ⟨_, List.mem_map_of_mem hrow, (updates_complete userId now).id row, ?_⟩
    by_cases hexec : row.status = .executing
    · simp [huser, hexec]
    · simpa [hexec] using htaken.resolve_left hexec
  refine hmap.erased fun id hid => ?_
  rcases List.mem_append.mp hid with hid | hid
  · obtain ⟨row, hrow, rfl, huser, htaken⟩ := hclaimed id hid
    exact hdone row hrow huser htaken
  · obtain ⟨row, hrow, rfl⟩ := List.mem_map.mp hid
    obtain ⟨hrow, hexec⟩ := List.mem_filter.mp hrow
    obtain ⟨huser, hexec⟩ := of_decide_eq_true hexec
    exact hdone row hrow huser (.inl hexec)

/-- **A write that does not come too late keeps the requests sound.** -/
theorem sound_write (hs : Sound requests latest fs) (hle : latest ≤ latest') {w : Write}
    (hknown : w.Known requests latest') (hturn : w.InTurn requests) :
    Sound (w.apply requests) latest' (fs ++ w.facts requests latest') := by
  have hs' := hs.mono hle
  cases w with
  | nothing => simpa [Write.facts, Write.apply] using hs'
  | insert new =>
    simpa [Write.facts, Write.apply] using sound_insert hs' hknown.1 hknown.2 hturn
  | cancel requestId cancelledAt => exact sound_cancel hs' cancelledAt hknown hturn
  | claim requestId => simpa [Write.facts] using sound_claim hs' hknown
  | complete claimed userId now => exact sound_complete hs' now hknown
  | fail claimed requestId =>
    simpa [Write.facts] using sound_fail hs' fun row hrow hid => (hturn row hrow hid).1

/-! ## Statements under way -/

/-- The requests that a pass goes through. -/
def Task.due : Task → List Request
  | .markExecuting request rest | .passMemberships request rest | .passCommit request rest _
  | .markFailed _ request rest => request :: rest
  | _ => []

/-- The request that is about to be inserted. -/
def Task.new? : Task → Option Request
  | .createInsert row => some row
  | _ => none

/-- The request that is about to be cancelled. -/
def Task.cancels? : Task → Option String
  | .cancelStore requestId _ => some requestId
  | _ => none

/-- The request that a pass has claimed. -/
def Task.claimed? : Task → Option String
  | .passMemberships request _ | .passCommit request _ _ | .markFailed true request _ =>
    some request.id
  | _ => none

/-- The row of a request that a pass has read. -/
structure RowOf (requests : List Request) (request row : Request) : Prop where
  mem : row ∈ requests
  id : row.id = request.id
  userId : row.userId = request.userId
  executeAt : row.executeAt = request.executeAt

/-- What holds of the requests as long as a statement is under way. -/
structure Task.Known (requests : List Request) (latest : Int) (task : Task) : Prop where
  insert : ∀ row, task.new? = some row → row.status = .pending
  store : ∀ requestId, task.cancels? = some requestId → ∃ row ∈ requests, row.id = requestId
  due : ∀ request ∈ task.due, request.executeAt < latest ∧ ∃ row, RowOf requests request row
  claimed : ∀ requestId, task.claimed? = some requestId →
    ∃ row ∈ requests, row.id = requestId ∧ row.Taken

theorem exists_map (hf : Updates f)
    (hrow : row ∈ requests) : ∃ row', RowOf (requests.map f) row row' :=
  ⟨f row, List.mem_map_of_mem hrow, hf.id row, hf.userId row, hf.executeAt row⟩

/-- No write takes a row away. -/
theorem Write.exists_row (w : Write) (hrow : row ∈ requests) :
    ∃ row', RowOf (w.apply requests) row row' := by
  cases w with
  | nothing => exact ⟨row, hrow, rfl, rfl, rfl⟩
  | insert new => exact ⟨row, List.mem_append_left _ hrow, rfl, rfl, rfl⟩
  | cancel requestId cancelledAt => exact exists_map (updates_cancel requestId cancelledAt) hrow
  | claim requestId => exact exists_map (updates_claim requestId) hrow
  | complete claimed userId now => exact exists_map (updates_complete userId now) hrow
  | fail claimed requestId => exact exists_map (updates_fail requestId) hrow

/-- A taken request stays so, unless the pass that has claimed it fails. -/
theorem Write.taken {w : Write} (hturn : w.InTurn requests)
    (hrow : row ∈ requests) (htaken : row.Taken)
    (hfail : ∀ requestId, w = .fail true requestId → row.id ≠ requestId) :
    ∃ row' ∈ w.apply requests, row'.id = row.id ∧ row'.Taken := by
  cases w with
  | nothing => exact ⟨row, hrow, rfl, htaken⟩
  | insert new => exact ⟨row, List.mem_append_left _ hrow, rfl, htaken⟩
  | cancel requestId cancelledAt =>
    have hne : row.id ≠ requestId := fun hid => hturn row hrow hid htaken
    exact ⟨row, List.mem_map.mpr ⟨row, hrow, if_neg hne⟩, rfl, htaken⟩
  | claim requestId =>
    have hne : ¬ (row.id = requestId ∧ row.status = .pending) := by
      rintro ⟨-, hpending⟩
      rw [Request.Taken, hpending] at htaken
      rcases htaken with h | h <;> cases h
    exact ⟨row, List.mem_map.mpr ⟨row, hrow, if_neg hne⟩, rfl, htaken⟩
  | complete claimed userId now =>
    refine ⟨_, List.mem_map_of_mem hrow, (updates_complete userId now).id row, ?_⟩
    split
    · exact .inr rfl
    · exact htaken
  | fail claimed requestId =>
    have hne : row.id ≠ requestId := by
      intro hid
      obtain ⟨hcompleted, hexecuting⟩ := hturn row hrow hid
      cases claimed with
      | true => exact hfail requestId rfl hid
      | false => exact htaken.elim (hexecuting rfl) hcompleted
    exact ⟨row, List.mem_map.mpr ⟨row, hrow, if_neg hne⟩, rfl, htaken⟩

variable {task : Task}

/-- What is known stays known while others write. -/
theorem Task.Known.write (hknown : task.Known requests latest)
    (hle : latest ≤ latest') {w : Write} (hturn : w.InTurn requests)
    (hfail : ∀ requestId, w = .fail true requestId → task.claimed? ≠ some requestId) :
    task.Known (w.apply requests) latest' where
  insert := hknown.insert
  store requestId h := by
    obtain ⟨row, hrow, rfl⟩ := hknown.store requestId h
    obtain ⟨row', hrow'⟩ := w.exists_row hrow
    exact ⟨row', hrow'.mem, hrow'.id⟩
  due request hmem := by
    obtain ⟨hlt, row, hrow⟩ := hknown.due request hmem
    obtain ⟨row', hrow'⟩ := w.exists_row hrow.mem
    exact ⟨lt_of_lt_of_le hlt hle, row', hrow'.mem, hrow'.id.trans hrow.id,
      hrow'.userId.trans hrow.userId, hrow'.executeAt.trans hrow.executeAt⟩
  claimed requestId h := by
    obtain ⟨row, hrow, rfl, htaken⟩ := hknown.claimed requestId h
    exact Write.taken hturn hrow htaken fun id hw hid => hfail id hw (hid ▸ h)

/-- What a statement leaves to the next one. -/
structure Follows (db : Db) (input : Input) (before next : Task) : Prop where
  insert : ∀ row, next.new? = some row → row.status = .pending
  store : next.cancels? = none
  due : next.due ⊆ before.due
  claimed : ∀ requestId, next.claimed? = some requestId →
    (before.claimed? = some requestId ∧ ∀ claimed id, before.write db input ≠ .fail claimed id) ∨
      (before.write db input = .claim requestId ∧
        ∃ row ∈ db.requests, row.id = requestId ∧ row.status = .pending)
variable {input : Input} {before next : Task} {db : Db}

theorem follows_nextRequest {rest : List Request}
    (h : nextRequest rest = .more next) (hrest : rest ⊆ before.due) :
    Follows db input before next := by
  cases rest with
  | nil => cases h
  | cons request rest =>
    cases h
    exact ⟨fun _ => nofun, rfl, hrest, fun _ => nofun⟩

theorem createConfig_follows {userId : String} {justification : Option String}
    {emergency : Option Emergency} {config : Option ErasureConfig}
    (h : createConfig ed25519 userId justification emergency config input = .more next) :
    Follows db input before next := by
  unfold createConfig at h
  cases emergency with
  | none =>
    cases h
    refine ⟨fun row hrow => ?_, rfl, List.nil_subset _, fun _ => nofun⟩
    cases hrow
    rfl
  | some emergency =>
    dsimp only at h
    split_ifs at h <;> cases h
    exact ⟨fun _ => nofun, rfl, List.nil_subset _, fun _ => nofun⟩

theorem createApprover_follows {userId : String} {justification : Option String}
    {emergency : Emergency} {roles : Option (List String)}
    (h : createApprover userId justification emergency roles input = .more next) :
    Follows db input before next := by
  unfold createApprover at h
  split_ifs at h <;> cases h
  refine ⟨fun row hrow => ?_, rfl, List.nil_subset _, fun _ => nofun⟩
  cases hrow
  rfl

theorem resume_follows
    (h : (resume ed25519 db input before).2 = .more next) : Follows db input before next := by
  cases before with
  | createConfig userId hubId justification emergency =>
    simp only [resume] at h
    split at h
    · cases h
    · exact createConfig_follows h
  | createApprover userId justification emergency =>
    simp only [resume] at h
    split at h
    · cases h
    · exact createApprover_follows h
  | createInsert row =>
    simp only [resume] at h
    split at h <;> cases h
  | cancelStore requestId cancelledAt =>
    simp only [resume] at h
    split at h <;> cases h
  | executeCommit userId hubs =>
    simp only [resume] at h
    split at h <;> cases h
  | markExecuting request rest =>
    simp only [resume] at h
    split at h
    · cases h
      exact ⟨by simp [Task.new?], rfl, List.Subset.refl _, by simp [Task.claimed?]⟩
    · rename_i hfails
      split at h
      · exact follows_nextRequest h (List.subset_cons_self request rest)
      · rename_i requests hclaim
        cases h
        refine ⟨by simp [Task.new?], rfl, List.Subset.refl _, fun requestId hid => .inr ?_⟩
        obtain rfl := Option.some.inj hid
        obtain ⟨hany, -⟩ := Option.ite_none_right_eq_some.mp hclaim
        obtain ⟨row, hrow, hpending⟩ := List.any_eq_true.mp hany
        refine ⟨?_, row, hrow, of_decide_eq_true hpending⟩
        simp [Task.write, hfails, hclaim]
  | passMemberships request rest =>
    simp only [resume] at h
    have hwrite : ∀ claimed id, Task.write db input (.passMemberships request rest) ≠
        .fail claimed id := fun _ _ h => by cases h
    split at h <;> cases h <;>
      exact ⟨by simp [Task.new?], rfl, List.Subset.refl _, fun _ hid => .inl ⟨hid, hwrite⟩⟩
  | passCommit request rest hubs =>
    have hwrite : ∀ claimed id, Task.write db input (.passCommit request rest hubs) ≠
        .fail claimed id := by
      intro claimed id
      rw [Task.write]
      split <;> intro h <;> cases h
    simp only [resume] at h
    split at h
    · cases h
      exact ⟨by simp [Task.new?], rfl, List.Subset.refl _, fun _ hid => .inl ⟨hid, hwrite⟩⟩
    · dsimp only at h
      split at h
      · cases h
        exact ⟨by simp [Task.new?], rfl, List.Subset.refl _, fun _ hid => .inl ⟨hid, hwrite⟩⟩
      · exact follows_nextRequest h (List.subset_cons_self request rest)
  | markFailed claimed request rest =>
    simp only [resume] at h
    split at h
    · cases h
    · exact follows_nextRequest h (List.subset_cons_self request rest)

/-- What the first statement of a call leaves. -/
theorem call_known {op : Op}
    (h : call db input op = some (.more task)) :
    task.Known db.requests (max latest input.now) ∧ task.claimed? = none := by
  unfold call at h
  split at h
  · cases Option.some.inj h
  cases op with
  | createSelfRequest userId hubId justification emergency =>
    simp only [Option.some.injEq] at h
    split at h <;> cases h
    exact ⟨⟨fun _ => nofun, fun _ => nofun, fun _ => nofun,
      fun _ => nofun⟩, rfl⟩
  | cancelSelfRequest userId =>
    simp only [Option.some.injEq] at h
    split at h <;> cases h
    rename_i existing hexisting
    refine ⟨⟨fun _ => nofun, fun requestId hstore => ?_, fun _ => nofun, fun _ => nofun⟩, rfl⟩
    cases hstore
    have hmem := List.mem_of_getElem? hexisting
    exact ⟨existing, (List.mem_filter.mp hmem).1, rfl⟩
  | executeErasure userId =>
    cases h
    exact ⟨⟨fun _ => nofun, fun _ => nofun, fun _ => nofun,
      fun _ => nofun⟩, rfl⟩
  | processExpiredErasures =>
    obtain ⟨hperm, h⟩ := Option.ite_none_right_eq_some.mp h
    cases hdue : input.due with
    | nil => rw [hdue] at h; cases h
    | cons request rest =>
      rw [hdue] at h hperm
      cases h
      refine ⟨⟨fun _ => nofun, fun _ => nofun, fun q hq => ?_, fun _ => nofun⟩, rfl⟩
      obtain ⟨hrow, hcond⟩ := List.mem_filter.mp (hperm.mem_iff.mp hq)
      exact ⟨lt_of_lt_of_le (of_decide_eq_true hcond).2 (le_max_right _ _), q, hrow, rfl, rfl, rfl⟩

/-- What is known before a statement is known to the one that follows. -/
theorem Follows.known
    (hf : Follows db input before next) (hknown : before.Known db.requests latest)
    (hle : latest ≤ latest') (hturn : (before.write db input).InTurn db.requests) :
    next.Known ((before.write db input).apply db.requests) latest' where
  insert := hf.insert
  store requestId h := by
    rw [hf.store] at h
    cases h
  due request hmem := by
    obtain ⟨hlt, row, hrow⟩ := hknown.due request (hf.due hmem)
    obtain ⟨row', hrow'⟩ := (before.write db input).exists_row hrow.mem
    exact ⟨lt_of_lt_of_le hlt hle, row', hrow'.mem, hrow'.id.trans hrow.id,
      hrow'.userId.trans hrow.userId, hrow'.executeAt.trans hrow.executeAt⟩
  claimed requestId h := by
    rcases hf.claimed requestId h with ⟨hbefore, hfail⟩ | ⟨hclaim, row, hrow, hid, hpending⟩
    · obtain ⟨row, hrow, rfl, htaken⟩ := hknown.claimed requestId hbefore
      exact Write.taken hturn hrow htaken fun id hw => absurd hw (hfail true id)
    · rw [hclaim]
      refine ⟨{ row with status := .executing }, ?_, hid, .inl rfl⟩
      exact List.mem_map.mpr ⟨row, hrow, if_pos ⟨hid, hpending⟩⟩

/-- A statement knows what it writes. -/
theorem Task.Known.write_known
    (hs : Sound db.requests latest fs) (hknown : task.Known db.requests latest)
    (hle : latest ≤ latest') : (task.write db input).Known db.requests latest' := by
  cases task with
  | createConfig | createApprover | passMemberships => trivial
  | createInsert row =>
    rw [Task.write]
    split
    · trivial
    · rename_i hfree
      exact ⟨hknown.insert row rfl, fun hid => hfree (.inr hid)⟩
  | cancelStore requestId cancelledAt =>
    rw [Task.write]
    split
    · trivial
    · exact hknown.store requestId rfl
  | executeCommit userId hubs =>
    rw [Task.write]
    split
    · exact fun id hid => absurd hid List.not_mem_nil
    · trivial
  | markExecuting request rest =>
    rw [Task.write]
    split
    · intro row hrow hid
      obtain ⟨hlt, row', hrow'⟩ := hknown.due request List.mem_cons_self
      rw [hs.row_unique hrow hrow'.mem (hid.trans hrow'.id.symm), hrow'.executeAt]
      exact lt_of_lt_of_le hlt hle
    · trivial
  | passCommit request rest hubs =>
    rw [Task.write]
    split
    · intro id hid
      obtain rfl := List.mem_singleton.mp hid
      obtain ⟨-, row, hrow⟩ := hknown.due request List.mem_cons_self
      obtain ⟨row', hrow', hid', htaken⟩ := hknown.claimed request.id rfl
      obtain rfl := hs.row_unique hrow' hrow.mem (hid'.trans hrow.id.symm)
      exact ⟨row', hrow', hid', hrow.userId, htaken⟩
    · trivial
  | markFailed claimed request rest =>
    rw [Task.write]
    split <;> trivial

/-- A pass that fails has claimed its request, if it says so. -/
theorem claimed_of_write_fail
    (h : task.write db input = .fail true requestId) : task.claimed? = some requestId := by
  cases task with
  | createConfig | createApprover | passMemberships => cases h
  | createInsert | cancelStore | executeCommit | markExecuting | passCommit =>
    rw [Task.write] at h
    split at h <;> cases h
  | markFailed claimed request rest =>
    rw [Task.write] at h
    split at h
    · cases h
    · cases h
      rfl

/-! ## Runs -/

/-- What holds in every state: the requests are sound, each statement under way has what it has
read, and no request is claimed by two passes. -/
structure Inv (s : System) (fs : List Fact) : Prop where
  sound : Sound s.db.requests s.latest fs
  known : ∀ i task, s.tasks i = some task → task.Known s.db.requests s.latest
  unique : ∀ i task j task' requestId, s.tasks i = some task → s.tasks j = some task' →
    task.claimed? = some requestId → task'.claimed? = some requestId → i = j

theorem start_inv (db : Db) (now : Int) : Inv (start db now) [] where
  sound := by
    refine ⟨⟨List.Pairwise.nil, ?_, ?_⟩, List.nodup_nil, ?_, ?_⟩
    · exact fun _ _ h => absurd h List.not_mem_nil
    · exact fun _ h => absurd h List.not_mem_nil
    · exact fun _ h => absurd h List.not_mem_nil
    · exact fun _ h => absurd h List.not_mem_nil
  known i task h := by cases h
  unique i task j task' requestId h := by cases h

/-- What the step's statement knows. -/
theorem Inv.written_known {s : System} (hinv : Inv s fs) (e : Event) (hle : s.latest ≤ latest') :
    (written s e).Known s.db.requests latest' := by
  cases e with
  | call i op input => trivial
  | resume i input =>
    rw [written]
    cases hi : s.tasks i with
    | none => trivial
    | some task => exact (hinv.known i task hi).write_known hinv.sound hle

/-- A pass marks as failed what no other has claimed. -/
theorem Inv.written_fail {s : System} (hinv : Inv s fs) {e : Event}
    (hw : written s e = .fail true requestId) {j : Nat} (hj : s.tasks j = some task)
    (hother : ∀ input, e ≠ .resume j input) : task.claimed? ≠ some requestId := by
  intro hclaimed
  cases e with
  | call i op input => cases hw
  | resume i input =>
    rw [written] at hw
    cases hi : s.tasks i with
    | none => rw [hi] at hw; cases hw
    | some before =>
      rw [hi, Option.elim_some] at hw
      obtain rfl := hinv.unique i before j task requestId hi hj (claimed_of_write_fail hw) hclaimed
      exact hother input rfl

/-- A claimed request is not pending. -/
theorem Inv.not_pending {s : System} (hinv : Inv s fs) {i : Nat}
    (hi : s.tasks i = some task) (hclaimed : task.claimed? = some requestId) :
    ¬ ∃ row ∈ s.db.requests, row.id = requestId ∧ row.status = .pending := by
  rintro ⟨row, hrow, hid, hpending⟩
  obtain ⟨row', hrow', hid', htaken⟩ := (hinv.known i task hi).claimed requestId hclaimed
  obtain rfl := hinv.sound.row_unique hrow hrow' (hid.trans hid'.symm)
  rw [Request.Taken, hpending] at htaken
  rcases htaken with h | h <;> cases h

/-- Where a claim comes from: the pass had made it, or makes it in this step. -/
theorem claim_origin {s s' : System} {e : Event} (h : step ed25519 s e = some s') {i : Nat}
    (hi : s'.tasks i = some task)
    (hclaimed : task.claimed? = some requestId) :
    (∃ before, s.tasks i = some before ∧ before.claimed? = some requestId) ∨
      ((∃ input, e = .resume i input) ∧
        ∃ row ∈ s.db.requests, row.id = requestId ∧ row.status = .pending) := by
  rcases step_tasks h hi with ⟨hkept, -⟩ | ⟨op, input, -, hcall⟩ |
    ⟨input, before, he, hbefore, hresume⟩
  · exact .inl ⟨task, hkept, hclaimed⟩
  · have hfirst : task.Known s.db.requests (max s.latest input.now) ∧ task.claimed? = none :=
      call_known hcall
    rw [hfirst.2] at hclaimed
    cases hclaimed
  · rcases (resume_follows hresume).claimed requestId hclaimed with ⟨hold, -⟩ | ⟨-, hrow⟩
    · exact .inl ⟨before, hbefore, hold⟩
    · exact .inr ⟨⟨input, he⟩, hrow⟩

/-- **What a step in turn keeps.** -/
theorem step_sound {s s' : System} {e : Event} (h : step ed25519 s e = some s') (hinv : Inv s fs)
    (hturn : InTurn s e) : Inv s' (fs ++ facts s e) := by
  obtain ⟨hrequests, hlatest⟩ := step_spec h
  have hle : s.latest ≤ max s.latest e.input.now := le_max_left _ _
  refine ⟨?_, fun i task hi => ?_, fun i task j task' requestId hi hj hclaimed hclaimed' => ?_⟩
  · rw [hrequests, hlatest]
    exact sound_write hinv.sound hle (hinv.written_known e hle) hturn
  · rw [hrequests, hlatest]
    rcases step_tasks h hi with ⟨hkept, hother⟩ | ⟨op, input, rfl, hcall⟩ |
      ⟨input, before, rfl, hbefore, hresume⟩
    · exact (hinv.known i task hkept).write hle hturn fun requestId hw =>
        hinv.written_fail hw hkept hother
    · exact (call_known hcall).1
    · have hw : written s (.resume i input) = before.write s.db input := by
        rw [written, hbefore, Option.elim_some]
      rw [InTurn, hw] at hturn
      rw [hw]
      exact (resume_follows hresume).known (hinv.known i before hbefore) hle hturn
  · -- two passes with one claim: both had it before, or one step would have made both
    rcases claim_origin h hi hclaimed with ⟨before, hi, hbefore⟩ | ⟨⟨input, rfl⟩, hrow⟩ <;>
      rcases claim_origin h hj hclaimed' with ⟨before', hj, hbefore'⟩ | ⟨⟨input', he⟩, hrow'⟩
    · exact hinv.unique i before j before' requestId hi hj hbefore hbefore'
    · exact absurd hrow' (hinv.not_pending hi hbefore)
    · exact absurd hrow (hinv.not_pending hj hbefore')
    · cases he
      rfl

/-- **Erasures keep to their requests** in every run of steps in turn. -/
theorem lawful_of_inTurn {db : Db} {now : Int} {es : List Event} {s : System}
    (hturn : Runs.Along (step ed25519) InTurn (start db now) es)
    (h : Runs.run (step ed25519) (start db now) es = some s) :
    Lawful s.db.requests (Runs.emitted (step ed25519) facts (start db now) es) :=
  (Runs.run_emitted_inv (I := Inv) (fun _ _ _ _ hinv hturn hstep => step_sound hstep hinv hturn)
    [] (start_inv db now) hturn h).sound.lawful

instance (requests : List Request) (w : Write) : Decidable (w.InTurn requests) := by
  cases w <;> unfold Write.InTurn <;> unfold Request.Taken <;> infer_instance

instance (s : System) (e : Event) : Decidable (InTurn s e) :=
  inferInstanceAs (Decidable (Write.InTurn s.db.requests (written s e)))

/-- A user asks for an erasure in the default time. -/
def requested : List Event :=
  [.call 0 (.createSelfRequest "ann" "hub" none none) { now := 0 },
    .resume 0 { now := 0, id := "request" },
    .resume 0 { now := 0 }]

/-- The request as a pass reads it. -/
def overdue : Input where
  now := 73 * HOUR_MS
  due := [newRequest "ann" none none DEFAULT_ERASURE_DELAY_HOURS { now := 0, id := "request" }]

/-- A pass claims the request, and the user withdraws another. -/
def executed : List Event :=
  requested ++
    [.call 1 .processExpiredErasures overdue,
      .resume 1 overdue,
      .call 0 (.createSelfRequest "ann" "hub" none none) overdue,
      .resume 0 { overdue with id := "second" },
      .resume 0 overdue,
      .resume 1 overdue,
      .call 0 (.cancelSelfRequest "ann") overdue,
      .resume 1 overdue,
      .resume 0 overdue]

theorem executed_lawful :
    ∃ s ∈ Runs.run (step Crypto.Auth.nonceEd25519) (start {} 0) executed,
      Runs.emitted (step Crypto.Auth.nonceEd25519) facts (start {} 0) executed =
          [.erased "request" overdue.now, .erased "request" overdue.now, .cancelled "second"] ∧
        Lawful s.db.requests
          (Runs.emitted (step Crypto.Auth.nonceEd25519) facts (start {} 0) executed) := by
  have hturn : Runs.Along (step Crypto.Auth.nonceEd25519) InTurn (start {} 0) executed := by
    decide +kernel
  have hrun : ∃ s ∈ Runs.run (step Crypto.Auth.nonceEd25519) (start {} 0) executed,
      Runs.emitted (step Crypto.Auth.nonceEd25519) facts (start {} 0) executed =
        [.erased "request" overdue.now, .erased "request" overdue.now, .cancelled "second"] := by
    decide +kernel
  obtain ⟨s, hs, hfacts⟩ := hrun
  exact ⟨s, hs, hfacts, lawful_of_inTurn hturn hs⟩

/-- A pass reads the request, then the user's cancellation does; the pass claims it, and executes
it when it has been cancelled. -/
def cancelledLate : List Event :=
  requested ++
    [.call 1 .processExpiredErasures overdue,
      .call 0 (.cancelSelfRequest "ann") overdue,
      .resume 1 overdue,
      .resume 0 overdue,
      .resume 1 overdue,
      .resume 1 overdue]

/-- **A cancelled request is executed.** -/
theorem cancelled_erased :
    ∃ s ∈ Runs.run (step Crypto.Auth.nonceEd25519) (start {} 0) cancelledLate,
      ¬ Lawful s.db.requests
        (Runs.emitted (step Crypto.Auth.nonceEd25519) facts (start {} 0) cancelledLate) := by
  have hrun : ∃ s ∈ Runs.run (step Crypto.Auth.nonceEd25519) (start {} 0) cancelledLate,
      Runs.emitted (step Crypto.Auth.nonceEd25519) facts (start {} 0) cancelledLate =
        [.cancelled "request", .erased "request" overdue.now] := by
    decide +kernel
  obtain ⟨s, hs, hfacts⟩ := hrun
  refine ⟨s, hs, fun hlawful => ?_⟩
  rw [hfacts] at hlawful
  have hspared := List.rel_of_pairwise_cons hlawful.spared List.mem_cons_self
  exact hspared "request" overdue.now rfl rfl

end Llamenos.Worker.Erasure
