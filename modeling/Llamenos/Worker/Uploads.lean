import Llamenos.Lib.Histories
import Llamenos.Lib.Runs
import Llamenos.Lib.Text
import Mathlib.Data.List.Perm.Subperm

/-!
# Chunked uploads

The chunk and the complete requests of `routes/uploads.ts` for one upload, with `markChunkComplete`
and `markFileComplete` of `services/conversations.ts`. A request is served in operations of the blob
store and the database, and requests are interleaved at these. An operation can fail, after it has
had its effect or without; `withRetry` makes a put up to three times.

The record counts the chunk uploads, whatever their index. A complete request reads the chunks one
by one, stores their concatenation, deletes them, and marks the record last.

Results:
* `blobKey_injective`: no two blobs of an upload have one key.
* `act_inv`: what every step keeps.
* `succeeds_iff`: a complete request that is let through succeeds exactly if all chunks are there.
* `upload_sound_iff`: **in which runs uploads are sound**.
* `repeatedChunk_unsound`: two runs after which they are not.
-/

namespace Llamenos.Worker.Uploads

open Llamenos.Lib Llamenos.Lib.Runs Llamenos.Lib.Histories

/-! ## The code -/

abbrev Bytes := List UInt8

/-- What an upload has in the blob store. -/
inductive Key where
  | chunk (index : Nat)
  | content
  | envelopes
  | metadata
  deriving DecidableEq

/-- `String(index).padStart(6, '0')`. -/
def padded (index : Nat) : List Char :=
  List.replicate (6 - (decimal index).length) '0' ++ decimal index

/-- The key of a blob, under `files/<uploadId>/`. -/
def blobKey : Key → List Char
  | .chunk index => "chunk-".toList ++ padded index
  | .content => "content".toList
  | .envelopes => "envelopes".toList
  | .metadata => "metadata".toList

def maxChunkSize : Nat := 10 * 1024 * 1024

inductive Reply where
  | error (status : Nat) (error : String)
  | chunkStored (chunkIndex completedChunks totalChunks : Nat)
  | notAllChunks (completedChunks totalChunks : Nat)
  | complete
  deriving DecidableEq

/-- The operation that a request has come to. A put knows how many times it has been tried. -/
inductive Stage where
  | putChunk (index : Nat) (body : Bytes) (attempt : Nat)
  | markChunkComplete (index : Nat)
  | readChunk (chunks : List Bytes)
  | putContent (assembled : Bytes) (attempt : Nat)
  | putEnvelopes (attempt : Nat)
  | putMetadata (attempt : Nat)
  | deleteChunk (index : Nat)
  | markFileComplete

/-- The record of the upload, its blobs, and the requests in progress. -/
structure Upload where
  totalChunks : Nat
  recipientEnvelopes : Bytes
  encryptedMetadata : Bytes
  completedChunks : Nat := 0
  complete : Bool := false
  blobs : Key → Option Bytes := fun _ => none
  requests : Nat → Option Stage := fun _ => none

/-- What happens: a request comes in, with whether its sender may upload; or a request in progress
goes on, makes its put again after a failure, or fails. A failed operation may have had its
effect. -/
inductive Action where
  | upload (request : Nat) (allowed : Bool) (chunkIndex : Option Int) (body : Bytes)
  | complete (request : Nat) (allowed : Bool)
  | proceed (request : Nat)
  | retry (request : Nat) (effected : Bool)
  | fail (request : Nat) (effected : Bool)

/-- What is observed of an upload. -/
inductive Event where
  | stored (index : Nat) (body : Bytes)
  | counted (index : Nat)
  | deleted (index : Nat)
  | reply (request : Nat) (reply : Reply)
  deriving DecidableEq

/-- A blob is written, or deleted. -/
def Upload.put (s : Upload) (key : Key) (blob : Option Bytes) : Upload :=
  { s with blobs := fun k => if k = key then blob else s.blobs k }

/-- A request comes to a stage, or is over. -/
def Upload.goto (s : Upload) (request : Nat) (stage : Option Stage) : Upload :=
  { s with requests := Function.update s.requests request stage }

/-- What an operation does to the store and the record. -/
def effect (s : Upload) : Stage → Upload × List Event
  | .putChunk index body _ => (s.put (.chunk index) (some body), [.stored index body])
  | .markChunkComplete index =>
    ({ s with completedChunks := s.completedChunks + 1 }, [.counted index])
  | .readChunk _ => (s, [])
  | .putContent assembled _ => (s.put .content (some assembled), [])
  | .putEnvelopes _ => (s.put .envelopes (some s.recipientEnvelopes), [])
  | .putMetadata _ => (s.put .metadata (some s.encryptedMetadata), [])
  | .deleteChunk index => (s.put (.chunk index) none, [.deleted index])
  | .markFileComplete => ({ s with complete := true }, [])

/-- Where reading goes on. -/
def afterRead (totalChunks : Nat) (chunks : List Bytes) : Stage :=
  if chunks.length < totalChunks then .readChunk chunks else .putContent chunks.flatten 1

/-- Where deleting goes on. -/
def afterDelete (totalChunks index : Nat) : Stage :=
  if index < totalChunks then .deleteChunk index else .markFileComplete

/-- What a request does after an operation: it goes on, or answers. -/
def next (s : Upload) : Stage → Except Reply Stage
  | .putChunk index _ _ => .ok (.markChunkComplete index)
  | .markChunkComplete index =>
    .error (.chunkStored index s.completedChunks s.totalChunks)
  | .readChunk chunks =>
    match s.blobs (.chunk chunks.length) with
    | some chunk => .ok (afterRead s.totalChunks (chunks ++ [chunk]))
    | none => .error (.error 500 s!"Missing chunk {chunks.length}")
  | .putContent _ _ => .ok (.putEnvelopes 1)
  | .putEnvelopes attempt => .ok (.putMetadata attempt)
  | .putMetadata _ => .ok (afterDelete s.totalChunks 0)
  | .deleteChunk index => .ok (afterDelete s.totalChunks (index + 1))
  | .markFileComplete => .error .complete

/-- Where a put is made again. Envelopes and metadata are one block. -/
def again : Stage → Option Stage
  | .putChunk index body attempt =>
    if attempt < 3 then some (.putChunk index body (attempt + 1)) else none
  | .putContent assembled attempt =>
    if attempt < 3 then some (.putContent assembled (attempt + 1)) else none
  | .putEnvelopes attempt | .putMetadata attempt =>
    if attempt < 3 then some (.putEnvelopes (attempt + 1)) else none
  | _ => none

/-- A request in progress goes on. -/
def proceed (s : Upload) (request : Nat) (stage : Stage) : Upload × List Event :=
  let (s', events) := effect s stage
  match next s' stage with
  | .ok stage' => (s'.goto request (some stage'), events)
  | .error reply => (s'.goto request none, events ++ [.reply request reply])

/-- An operation fails. -/
def failed (s : Upload) (stage : Stage) (effected : Bool) : Upload × List Event :=
  if effected then effect s stage else (s, [])

/-- `PUT /:id/chunks/:chunkIndex`, up to its first put. -/
def beginUpload (s : Upload) (request : Nat) (allowed : Bool) (chunkIndex : Option Int)
    (body : Bytes) : Upload × List Event :=
  let refuse := fun status error => (s, [Event.reply request (.error status error)])
  match chunkIndex with
  | none => refuse 400 "Invalid chunk index"
  | some index =>
    if index < 0 then refuse 400 "Invalid chunk index"
    else if !allowed then refuse 403 "Forbidden"
    else if body = [] then refuse 400 "Empty chunk"
    else if maxChunkSize < body.length then
      refuse 400 s!"Chunk too large (max {maxChunkSize / 1024 / 1024}MB)"
    else (s.goto request (some (.putChunk index.toNat body 1)), [])

/-- `POST /:id/complete`, up to its first read. -/
def beginComplete (s : Upload) (request : Nat) (allowed : Bool) : Upload × List Event :=
  if !allowed then (s, [.reply request (.error 403 "Forbidden")])
  else if s.completedChunks < s.totalChunks then
    (s, [.reply request (.notAllChunks s.completedChunks s.totalChunks)])
  else (s.goto request (some (afterRead s.totalChunks [])), [])

/-- What an action does, if it can happen. -/
def act (s : Upload) : Action → Option (Upload × List Event)
  | .upload request allowed chunkIndex body =>
    if s.requests request = none then some (beginUpload s request allowed chunkIndex body) else none
  | .complete request allowed =>
    if s.requests request = none then some (beginComplete s request allowed) else none
  | .proceed request => do
    let stage ← s.requests request
    pure (proceed s request stage)
  | .retry request effected => do
    let stage ← s.requests request
    let stage' ← again stage
    let (s', events) := failed s stage effected
    pure (s'.goto request (some stage'), events)
  | .fail request effected => do
    let stage ← s.requests request
    let (s', events) := failed s stage effected
    pure (s'.goto request none, events ++ [.reply request (.error 500 "Internal server error")])

def step (s : Upload) (a : Action) : Option Upload := (act s a).map Prod.fst

def out (s : Upload) (a : Action) : List Event := ((act s a).map Prod.snd).getD []

/-! ## Purpose -/

/-- The versions that have been stored. -/
def versions (ws : List Event) : List (Nat × Bytes) :=
  ws.filterMap fun
    | .stored index body => some (index, body)
    | _ => none

/-- The indices of the uploads that have been counted. -/
def counted (ws : List Event) : List Nat :=
  ws.filterMap fun
    | .counted index => some index
    | _ => none

/-- The chunks that have been stored and deleted. -/
def changes (ws : List Event) : List (Change Nat) :=
  ws.filterMap fun
    | .stored index _ => some (.add index)
    | .deleted index => some (.remove index)
    | _ => none

/-- The concatenation of a stored version of each chunk. -/
def Assembled (ws : List Event) (totalChunks : Nat) (content : Bytes) : Prop :=
  ∃ chunks : List Bytes, chunks.length = totalChunks ∧
    (∀ i b, chunks[i]? = some b → (i, b) ∈ versions ws) ∧ content = chunks.flatten

/-- An upload begins. -/
def started (totalChunks : Nat) (recipientEnvelopes encryptedMetadata : Bytes) :
    Upload × List Event :=
  ({ totalChunks, recipientEnvelopes, encryptedMetadata }, [])

/-- The upload, with what has been observed of it. -/
def recorded : Upload × List Event → Action → Option (Upload × List Event) := recording step out

/-- Every chunk has been uploaded. -/
def AllUploaded (ws : List Event) (totalChunks : Nat) : Prop :=
  ∀ i < totalChunks, i ∈ counted ws

/-- A complete request that goes on alone, and does not fail, comes to its end. -/
def Succeeds (s : Upload) (request : Nat) : Prop :=
  ∃ n t, run step s (.complete request true :: List.replicate n (.proceed request)) = some t ∧
    .reply request .complete ∈
      emitted step out s (.complete request true :: List.replicate n (.proceed request))

/-- A complete request is refused exactly if a chunk has not been uploaded, and otherwise succeeds
if it goes on alone. -/
def RequestSound (p : Upload × List Event) : Action → Prop
  | .complete request true =>
    ((∃ completed, .reply request (.notAllChunks completed p.1.totalChunks) ∈
        out p.1 (.complete request true)) ↔ ¬ AllUploaded p.2 p.1.totalChunks) ∧
      (AllUploaded p.2 p.1.totalChunks → Succeeds p.1 request)
  | _ => True

/-- The content of a complete file is the concatenation of a version of each chunk. -/
def ContentSound (p : Upload × List Event) : Prop :=
  p.1.complete = true → ∃ content, p.1.blobs .content = some content ∧
    Assembled p.2 p.1.totalChunks content

/-- At a complete request, the uploads that have been counted are not as many as the chunks unless
every chunk is among them, and then every chunk has been stored again after a deletion. -/
def Orderly (p : Upload × List Event) : Action → Prop
  | .complete _ true =>
    ((counted p.2).length < p.1.totalChunks ∨ AllUploaded p.2 p.1.totalChunks) ∧
      (AllUploaded p.2 p.1.totalChunks → ∀ i < p.1.totalChunks, Standing (changes p.2) i)
  | _ => True

instance (ws : List Event) (totalChunks : Nat) : Decidable (AllUploaded ws totalChunks) :=
  inferInstanceAs (Decidable (∀ i < totalChunks, i ∈ counted ws))

instance (p : Upload × List Event) : ∀ a, Decidable (Orderly p a)
  | .complete _ true => inferInstanceAs (Decidable (_ ∧ (_ → ∀ i < p.1.totalChunks, _)))
  | .complete _ false | .upload .. | .proceed _ | .retry .. | .fail .. => .isTrue trivial

/-! ## Keys -/

/-- **No two blobs of an upload have one key.** -/
theorem blobKey_injective : Function.Injective blobKey := by
  intro k l h
  cases k with
  | chunk i =>
    cases l with
    | chunk j =>
      have hpadded : padded i = padded j := List.append_cancel_left h
      rw [zeros_decimal_inj hpadded]
    | content | envelopes | metadata => cases h
  | content | envelopes | metadata =>
    cases l with
    | chunk j => cases h
    | content | envelopes | metadata => first | rfl | cases h

/-! ## What steps keep -/

/-- What is known of a request that has come to a stage. -/
def StageInv (s : Upload) (ws : List Event) : Stage → Prop
  | .readChunk chunks => chunks.length < s.totalChunks ∧
      ∀ i b, chunks[i]? = some b → (i, b) ∈ versions ws
  | .putContent assembled _ => Assembled ws s.totalChunks assembled
  | .putEnvelopes _ | .putMetadata _ | .deleteChunk _ | .markFileComplete =>
    ∃ b, s.blobs .content = some b
  | .putChunk _ _ _ | .markChunkComplete _ => True

/-- What the store and the record tell of what has happened. -/
structure StoreInv (s : Upload) (ws : List Event) : Prop where
  chunks : ∀ i b, s.blobs (.chunk i) = some b → (i, b) ∈ versions ws
  present : ∀ i, (∃ b, s.blobs (.chunk i) = some b) ↔ Standing (changes ws) i
  count : s.completedChunks = (counted ws).length
  content : ∀ b, s.blobs .content = some b → Assembled ws s.totalChunks b
  complete : s.complete = true → ∃ b, s.blobs .content = some b

structure Inv (s : Upload) (ws : List Event) : Prop extends StoreInv s ws where
  stages : ∀ r stage, s.requests r = some stage → StageInv s ws stage

/-- What was known is still known: nothing that has happened is undone. -/
structure Later (s : Upload) (ws : List Event) (s' : Upload) (ws' : List Event) : Prop where
  total : s'.totalChunks = s.totalChunks
  versions : versions ws ⊆ versions ws'
  content : (∃ b, s.blobs .content = some b) → ∃ b, s'.blobs .content = some b

theorem Assembled.mono {ws ws' : List Event} (hsub : versions ws ⊆ versions ws') {n : Nat}
    {content : Bytes} (h : Assembled ws n content) : Assembled ws' n content := by
  obtain ⟨chunks, hlen, hchunks, rfl⟩ := h
  exact ⟨chunks, hlen, fun i b hb => hsub (hchunks i b hb), rfl⟩
variable {stage : Stage}

theorem StageInv.later {s s' : Upload} {ws ws' : List Event} (hlater : Later s ws s' ws')
    (h : StageInv s ws stage) : StageInv s' ws' stage := by
  cases stage with
  | putChunk index body attempt | markChunkComplete index => trivial
  | readChunk chunks =>
    exact ⟨hlater.total ▸ h.1, fun i b hb => hlater.versions (h.2 i b hb)⟩
  | putContent assembled attempt =>
    unfold StageInv at h ⊢
    rw [hlater.total]
    exact h.mono hlater.versions
  | putEnvelopes attempt | putMetadata attempt | deleteChunk index | markFileComplete =>
    exact hlater.content h

@[simp] theorem versions_append (ws ws' : List Event) :
    versions (ws ++ ws') = versions ws ++ versions ws' := List.filterMap_append

@[simp] theorem counted_append (ws ws' : List Event) :
    counted (ws ++ ws') = counted ws ++ counted ws' := List.filterMap_append

@[simp] theorem changes_append (ws ws' : List Event) :
    changes (ws ++ ws') = changes ws ++ changes ws' := List.filterMap_append

@[simp] theorem put_blobs (s : Upload) (key key' : Key) (blob : Option Bytes) :
    (s.put key blob).blobs key' = if key' = key then blob else s.blobs key' := rfl

/-- An operation leaves what was known. -/
theorem effect_later (s : Upload) (ws : List Event) (stage : Stage) :
    Later s ws (effect s stage).1 (ws ++ (effect s stage).2) := by
  refine ⟨?_, by rw [versions_append]; exact List.subset_append_left _ _, ?_⟩
  · cases stage <;> rfl
  · rintro ⟨b, hb⟩
    cases stage <;> simp [effect, hb]

theorem effect_requests (s : Upload) (stage : Stage) :
    (effect s stage).1.requests = s.requests := by
  cases stage <;> rfl

/-- A chunk is stored, or deleted. -/
def chunkEvent (index : Nat) : Option Bytes → Event
  | some body => .stored index body
  | none => .deleted index

theorem standing_chunkEvent (ws : List Event) (index i : Nat) (blob : Option Bytes) :
    Standing (changes (ws ++ [chunkEvent index blob])) i ↔
      if i = index then blob.isSome = true else Standing (changes ws) i := by
  rw [changes_append]
  cases blob with
  | some body =>
    have hadd : Standing (changes ws ++ [.add index]) i ↔ i ∈ [index] ∨ Standing (changes ws) i :=
      standing_add [index]
    rw [List.mem_singleton] at hadd
    refine hadd.trans ?_
    split_ifs with hi
    · exact iff_of_true (.inl hi) rfl
    · exact or_iff_right hi
  | none =>
    refine (standing_remove index).trans ?_
    split_ifs with hi
    · exact iff_of_false (fun hne => hne.1 hi) (by simp)
    · exact and_iff_right hi

variable {s : Upload} {ws : List Event}

/-- Storing or deleting a chunk keeps what the store tells. -/
theorem StoreInv.putChunk (h : StoreInv s ws) (index : Nat)
    (blob : Option Bytes) :
    StoreInv (s.put (.chunk index) blob) (ws ++ [chunkEvent index blob]) := by
  have hsub : versions ws ⊆ versions (ws ++ [chunkEvent index blob]) := by
    rw [versions_append]
    exact List.subset_append_left _ _
  refine ⟨fun i b hb => ?_, fun i => ?_, ?_, fun b hb => ?_, fun hcomplete => ?_⟩
  · rw [put_blobs] at hb
    split_ifs at hb with hi
    · obtain rfl : i = index := by simpa using hi
      rw [hb, versions_append]
      exact List.mem_append_right _ List.mem_cons_self
    · exact hsub (h.chunks i b hb)
  · rw [standing_chunkEvent, put_blobs, ← h.present]
    by_cases hi : i = index
    · rw [if_pos hi, if_pos (congrArg Key.chunk hi), Option.isSome_iff_exists]
    · rw [if_neg hi, if_neg (by simpa using hi)]
  · rw [counted_append]
    cases blob <;> exact h.count.trans (congrArg List.length (List.append_nil _).symm)
  · exact (h.content b (by simpa using hb)).mono hsub
  · obtain ⟨b, hb⟩ := h.complete hcomplete
    exact ⟨b, by simpa using hb⟩

/-- Storing something else keeps what the store tells of the chunks. -/
theorem StoreInv.putOther (h : StoreInv s ws) {key : Key}
    (hkey : key = .envelopes ∨ key = .metadata) (blob : Option Bytes) :
    StoreInv (s.put key blob) ws := by
  have hchunk : ∀ i, (s.put key blob).blobs (.chunk i) = s.blobs (.chunk i) := by
    rcases hkey with rfl | rfl <;> simp
  have hcontent : (s.put key blob).blobs .content = s.blobs .content := by
    rcases hkey with rfl | rfl <;> simp
  refine ⟨fun i b hb => h.chunks i b (hchunk i ▸ hb), fun i => ?_, h.count,
    fun b hb => h.content b (hcontent ▸ hb), fun hcomplete => ?_⟩
  · rw [hchunk]
    exact h.present i
  · rw [hcontent]
    exact h.complete hcomplete

/-- Storing an assembled content. -/
theorem StoreInv.putContent (h : StoreInv s ws) {assembled : Bytes}
    (hassembled : Assembled ws s.totalChunks assembled) :
    StoreInv (s.put .content (some assembled)) ws := by
  refine ⟨fun i b hb => h.chunks i b (by simpa using hb), fun i => ?_, h.count, fun b hb => ?_,
    fun _ => ⟨assembled, by simp⟩⟩
  · simpa using h.present i
  · obtain rfl : assembled = b := by simpa using hb
    exact hassembled

/-- **An operation keeps what the store tells.** -/
theorem effect_inv (h : StoreInv s ws)
    (hstage : StageInv s ws stage) : StoreInv (effect s stage).1 (ws ++ (effect s stage).2) := by
  cases stage with
  | putChunk index body attempt => exact h.putChunk index (some body)
  | deleteChunk index => exact h.putChunk index none
  | markChunkComplete index =>
    have hversions : versions (ws ++ [.counted index]) = versions ws := by
      rw [versions_append]
      exact List.append_nil _
    have hchanges : changes (ws ++ [.counted index]) = changes ws := by
      rw [changes_append]
      exact List.append_nil _
    change StoreInv _ (ws ++ [.counted index])
    refine ⟨fun i b hb => hversions ▸ h.chunks i b hb, fun i => hchanges ▸ h.present i, ?_,
      fun b hb => (h.content b hb).mono ?_, h.complete⟩
    · rw [counted_append, List.length_append, ← h.count]
      rfl
    · rw [hversions]
      exact List.Subset.refl _
  | readChunk chunks =>
    rw [effect, List.append_nil]
    exact h
  | putContent assembled attempt =>
    rw [effect, List.append_nil]
    exact h.putContent hstage
  | putEnvelopes attempt =>
    rw [effect, List.append_nil]
    exact h.putOther (.inl rfl) _
  | putMetadata attempt =>
    rw [effect, List.append_nil]
    exact h.putOther (.inr rfl) _
  | markFileComplete =>
    rw [effect, List.append_nil]
    exact ⟨h.chunks, h.present, h.count, h.content, fun _ => hstage⟩

/-- An operation that fails keeps it too, whether it has had its effect or not. -/
theorem failed_inv (h : StoreInv s ws)
    (hstage : StageInv s ws stage) (effected : Bool) :
    StoreInv (failed s stage effected).1 (ws ++ (failed s stage effected).2) ∧
      Later s ws (failed s stage effected).1 (ws ++ (failed s stage effected).2) ∧
      (failed s stage effected).1.requests = s.requests := by
  cases effected with
  | true => exact ⟨effect_inv h hstage, effect_later s ws stage, effect_requests s stage⟩
  | false =>
    rw [failed, if_neg Bool.false_ne_true, List.append_nil]
    exact ⟨h, ⟨rfl, List.Subset.refl _, id⟩, rfl⟩

/-- A reply is no news of the chunks. -/
theorem StoreInv.reply (h : StoreInv s ws) (r : Nat)
    (reply : Reply) : StoreInv s (ws ++ [.reply r reply]) := by
  have hversions : versions (ws ++ [.reply r reply]) = versions ws := by
    rw [versions_append]
    exact List.append_nil _
  have hchanges : changes (ws ++ [.reply r reply]) = changes ws := by
    rw [changes_append]
    exact List.append_nil _
  have hcounted : counted (ws ++ [.reply r reply]) = counted ws := by
    rw [counted_append]
    exact List.append_nil _
  refine ⟨fun i b hb => hversions ▸ h.chunks i b hb, fun i => hchanges ▸ h.present i,
    hcounted ▸ h.count, fun b hb => (h.content b hb).mono ?_, h.complete⟩
  rw [hversions]
  exact List.Subset.refl _

/-- After an operation, a request comes to a stage with what is known there. -/
theorem next_inv (h : StoreInv s ws) {stage stage' : Stage}
    (hstage : StageInv s ws stage)
    (hnext : next (effect s stage).1 stage = .ok stage') :
    StageInv (effect s stage).1 (ws ++ (effect s stage).2) stage' := by
  have hlater := effect_later s ws stage
  cases stage with
  | putChunk index body attempt =>
    obtain rfl := Except.ok.inj hnext
    trivial
  | markChunkComplete index => cases hnext
  | readChunk chunks =>
    rw [effect, List.append_nil]
    rw [effect, next] at hnext
    split at hnext
    · rename_i chunk hchunk
      obtain rfl := Except.ok.inj hnext
      have hchunks : ∀ i b, (chunks ++ [chunk])[i]? = some b → (i, b) ∈ versions ws := by
        intro i b hb
        rcases Nat.lt_trichotomy i chunks.length with hlt | heq | hgt
        · exact hstage.2 i b ((List.getElem?_append_left hlt).symm.trans hb)
        · rw [heq, List.getElem?_concat_length] at hb
          rw [heq, ← Option.some.inj hb]
          exact h.chunks _ _ hchunk
        · rw [List.getElem?_eq_none (by simp; omega)] at hb
          cases hb
      unfold afterRead
      split_ifs with hlt
      · exact ⟨hlt, hchunks⟩
      · refine ⟨chunks ++ [chunk], ?_, hchunks, rfl⟩
        have hbefore : chunks.length < s.totalChunks := hstage.1
        have hafter : ¬ (chunks ++ [chunk]).length < s.totalChunks := hlt
        change (chunks ++ [chunk]).length = s.totalChunks
        rw [List.length_append, List.length_singleton] at hafter ⊢
        omega
    · cases hnext
  | putContent assembled attempt =>
    obtain rfl := Except.ok.inj hnext
    exact ⟨assembled, by simp [effect]⟩
  | putEnvelopes attempt =>
    obtain rfl := Except.ok.inj hnext
    exact hlater.content hstage
  | putMetadata attempt =>
    obtain rfl := Except.ok.inj hnext
    have hcontent := hlater.content hstage
    unfold afterDelete
    split_ifs <;> exact hcontent
  | deleteChunk index =>
    obtain rfl := Except.ok.inj hnext
    have hcontent := hlater.content hstage
    unfold afterDelete
    split_ifs <;> exact hcontent
  | markFileComplete => cases hnext

/-- A request moves to a stage, or is over; the others are where they were. -/
theorem goto_inv {s s' : Upload} {ws ws' : List Event} (h : Inv s ws) (hstore : StoreInv s' ws')
    (hlater : Later s ws s' ws') (hrequests : s'.requests = s.requests) (r : Nat)
    {stage : Option Stage} (hstage : ∀ st, stage = some st → StageInv s' ws' st) :
    Inv (s'.goto r stage) ws' := by
  refine ⟨⟨hstore.chunks, hstore.present, hstore.count, hstore.content, hstore.complete⟩, ?_⟩
  intro r' st hst
  rcases update_eq_some hst with ⟨-, heq⟩ | ⟨-, hold⟩
  · exact (hstage st heq).later ⟨rfl, List.Subset.refl _, id⟩
  · rw [hrequests] at hold
    exact ((h.stages r' st hold).later hlater).later ⟨rfl, List.Subset.refl _, id⟩

theorem Later.reply {s s' : Upload} {ws ws' : List Event} (h : Later s ws s' ws') (r : Nat)
    (reply : Reply) : Later s ws s' (ws' ++ [.reply r reply]) := by
  refine ⟨h.total, ?_, h.content⟩
  rw [versions_append]
  exact List.subset_append_of_subset_left _ h.versions

theorem Later.refl (s : Upload) (ws : List Event) : Later s ws s ws :=
  ⟨rfl, List.Subset.refl _, id⟩

/-- A reply alone changes nothing. -/
theorem reply_inv (h : Inv s ws) (r : Nat) (reply : Reply) :
    Inv s (ws ++ [.reply r reply]) :=
  ⟨h.toStoreInv.reply r reply, fun r' st hst =>
    (h.stages r' st hst).later ((Later.refl s ws).reply r reply)⟩
variable {r : Nat}

theorem proceed_inv (h : Inv s ws)
    (hstage : s.requests r = some stage) :
    Inv (proceed s r stage).1 (ws ++ (proceed s r stage).2) := by
  have hknown := h.stages r stage hstage
  have hstore := effect_inv h.toStoreInv hknown
  have hlater := effect_later s ws stage
  have hrequests := effect_requests s stage
  unfold proceed
  dsimp only
  cases hnext : next (effect s stage).1 stage with
  | ok stage' =>
    refine goto_inv h hstore hlater hrequests r fun st hst => ?_
    rw [← Option.some.inj hst]
    exact next_inv h.toStoreInv hknown hnext
  | error reply =>
    dsimp only
    rw [← List.append_assoc]
    exact goto_inv h (hstore.reply r reply) (hlater.reply r reply) hrequests r (by simp)

theorem beginUpload_inv (h : Inv s ws) (r : Nat) (allowed : Bool)
    (chunkIndex : Option Int) (body : Bytes) :
    Inv (beginUpload s r allowed chunkIndex body).1
      (ws ++ (beginUpload s r allowed chunkIndex body).2) := by
  unfold beginUpload
  cases chunkIndex with
  | none => exact reply_inv h r _
  | some index =>
    dsimp only
    split_ifs
    · exact reply_inv h r _
    · exact reply_inv h r _
    · exact reply_inv h r _
    · exact reply_inv h r _
    · rw [List.append_nil]
      refine goto_inv h h.toStoreInv (Later.refl s ws) rfl r fun st hst => ?_
      rw [← Option.some.inj hst]
      trivial

theorem beginComplete_inv (h : Inv s ws) (r : Nat)
    (allowed : Bool) :
    Inv (beginComplete s r allowed).1 (ws ++ (beginComplete s r allowed).2) := by
  unfold beginComplete
  split_ifs
  · exact reply_inv h r _
  · exact reply_inv h r _
  · rw [List.append_nil]
    refine goto_inv h h.toStoreInv (Later.refl s ws) rfl r fun st hst => ?_
    rw [← Option.some.inj hst]
    unfold afterRead
    split_ifs with hlt
    · exact ⟨hlt, by simp⟩
    · refine ⟨[], ?_, by simp, rfl⟩
      rw [List.length_nil] at hlt ⊢
      omega

/-- An operation that is made again has what the first attempt had. -/
theorem again_inv {stage stage' : Stage}
    (hagain : again stage = some stage') (h : StageInv s ws stage) : StageInv s ws stage' := by
  cases stage with
  | putChunk | putContent | putEnvelopes | putMetadata =>
    unfold again at hagain
    dsimp only at hagain
    split_ifs at hagain
    rw [← Option.some.inj hagain]
    exact h
  | markChunkComplete | readChunk | deleteChunk | markFileComplete => cases hagain

/-- **What every step keeps.** -/
theorem act_inv {s s' : Upload} {a : Action} (h : Inv s ws)
    (hstep : step s a = some s') : Inv s' (ws ++ out s a) := by
  obtain ⟨⟨t, events⟩, hact, rfl⟩ := Option.map_eq_some_iff.mp hstep
  rw [out, hact]
  cases a with
  | upload r allowed chunkIndex body =>
    unfold act at hact
    dsimp only at hact
    split_ifs at hact
    rw [← Option.some.inj hact]
    exact beginUpload_inv h r allowed chunkIndex body
  | complete r allowed =>
    unfold act at hact
    dsimp only at hact
    split_ifs at hact
    rw [← Option.some.inj hact]
    exact beginComplete_inv h r allowed
  | proceed r =>
    obtain ⟨stage, hstage, hact⟩ := Option.bind_eq_some_iff.mp hact
    rw [← Option.some.inj hact]
    exact proceed_inv h hstage
  | retry r effected =>
    obtain ⟨stage, hstage, hact⟩ := Option.bind_eq_some_iff.mp hact
    obtain ⟨stage', hagain, hact⟩ := Option.bind_eq_some_iff.mp hact
    rw [← Option.some.inj hact]
    have hknown := h.stages r stage hstage
    obtain ⟨hstore, hlater, hrequests⟩ := failed_inv h.toStoreInv hknown effected
    refine goto_inv h hstore hlater hrequests r fun st hst => ?_
    rw [← Option.some.inj hst]
    exact (again_inv hagain hknown).later hlater
  | fail r effected =>
    obtain ⟨stage, hstage, hact⟩ := Option.bind_eq_some_iff.mp hact
    rw [← Option.some.inj hact]
    obtain ⟨hstore, hlater, hrequests⟩ := failed_inv h.toStoreInv (h.stages r stage hstage) effected
    dsimp only [Option.map_some, Option.getD_some]
    rw [← List.append_assoc]
    exact goto_inv h (hstore.reply r _) (hlater.reply r _) hrequests r (by simp)

/-! ## A complete request alone -/

/-- What an action does, as a step with what it shows. -/
theorem act_step {s s' : Upload} {a : Action} {events : List Event}
    (h : act s a = some (s', events)) : step s a = some s' ∧ out s a = events := by
  rw [step, out, h]
  exact ⟨rfl, rfl⟩

theorem act_proceed (h : s.requests r = some stage) :
    act s (.proceed r) = some (proceed s r stage) := by
  rw [act, h]
  rfl

/-- A request that goes on alone, without a failure, comes to its end. -/
def Finishes (s : Upload) (r : Nat) : Prop :=
  ∃ n t, run step s (List.replicate n (.proceed r)) = some t ∧
    .reply r .complete ∈ emitted step out s (List.replicate n (.proceed r))

/-- A request that comes to its end after the next operation. -/
theorem Finishes.next {s s' : Upload} (hstep : step s (.proceed r) = some s')
    (h : Finishes s' r) : Finishes s r := by
  obtain ⟨n, t, hrun, hreply⟩ := h
  refine ⟨n + 1, t, ?_, ?_⟩
  · rw [List.replicate_succ]
    exact run_cons.mpr ⟨s', hstep, hrun⟩
  · rw [List.replicate_succ, emitted_cons hstep]
    exact List.mem_append_right _ hreply

/-- A request that goes on to a stage from which it comes to its end. -/
theorem finishes_of_next {stage stage' : Stage}
    (hstage : s.requests r = some stage) (hnext : next (effect s stage).1 stage = .ok stage')
    (h : Finishes ((effect s stage).1.goto r (some stage')) r) : Finishes s r := by
  have hact : act s (.proceed r) = some ((effect s stage).1.goto r (some stage'), (effect s stage).2) := by
    rw [act_proceed hstage, proceed]
    dsimp only
    rw [hnext]
  exact Finishes.next (act_step hact).1 h

theorem goto_self (s : Upload) (r : Nat) (stage : Option Stage) :
    (s.goto r stage).requests r = stage := Function.update_self _ _ _

/-- From the deletions on, nothing can be missing. -/
theorem finishes_afterDelete {r i : Nat}
    (h : s.requests r = some (afterDelete s.totalChunks i)) : Finishes s r := by
  induction hleft : s.totalChunks - i generalizing s i with
  | succ k ih =>
    rw [afterDelete, if_pos (by omega)] at h
    refine finishes_of_next h rfl (ih (goto_self _ _ _) ?_)
    change s.totalChunks - (i + 1) = k
    omega
  | zero =>
    rw [afterDelete, if_neg (by omega)] at h
    have hact : act s (.proceed r) = some ((effect s .markFileComplete).1.goto r none,
        [.reply r .complete]) := act_proceed h
    obtain ⟨hstep, hout⟩ := act_step hact
    refine ⟨1, _, run_cons.mpr ⟨_, hstep, rfl⟩, ?_⟩
    rw [List.replicate_one, emitted_cons hstep, hout]
    exact List.mem_append_left _ List.mem_cons_self
variable {chunks : List Bytes}

theorem next_readChunk_some {chunk : Bytes}
    (h : s.blobs (.chunk chunks.length) = some chunk) :
    next s (.readChunk chunks) = .ok (afterRead s.totalChunks (chunks ++ [chunk])) := by
  unfold next
  dsimp only
  rw [h]

theorem next_readChunk_none
    (h : s.blobs (.chunk chunks.length) = none) :
    next s (.readChunk chunks) = .error (.error 500 s!"Missing chunk {chunks.length}") := by
  unfold next
  dsimp only
  rw [h]

/-- Reading goes on to the end if all chunks are there. -/
theorem finishes_afterRead
    (h : s.requests r = some (afterRead s.totalChunks chunks))
    (hthere : ∀ i < s.totalChunks, ∃ b, s.blobs (.chunk i) = some b) : Finishes s r := by
  induction hleft : s.totalChunks - chunks.length generalizing s chunks with
  | succ k ih =>
    obtain ⟨chunk, hchunk⟩ := hthere chunks.length (by omega)
    rw [afterRead, if_pos (by omega)] at h
    refine finishes_of_next h (next_readChunk_some hchunk) (ih (goto_self _ _ _) hthere ?_)
    change s.totalChunks - (chunks ++ [chunk]).length = k
    rw [List.length_append, List.length_singleton]
    omega
  | zero =>
    rw [afterRead, if_neg (by omega)] at h
    refine finishes_of_next h rfl (finishes_of_next (goto_self _ _ _) rfl ?_)
    exact finishes_of_next (goto_self _ _ _) rfl (finishes_afterDelete (goto_self _ _ _))

/-- Reading comes to no end if a chunk is missing. -/
theorem not_finishes_of_missing {r i : Nat}
    (h : s.requests r = some (.readChunk chunks)) (hle : chunks.length ≤ i)
    (hlt : i < s.totalChunks) (hmissing : s.blobs (.chunk i) = none) : ¬ Finishes s r := by
  rintro ⟨n, t, hrun, hreply⟩
  induction n generalizing s chunks with
  | zero => cases hreply
  | succ n ih =>
    rw [List.replicate_succ] at hrun hreply
    obtain ⟨s', hstep, hrest⟩ := run_cons.mp hrun
    rw [emitted_cons hstep] at hreply
    cases hchunk : s.blobs (.chunk chunks.length) with
    | some chunk =>
      have hne : chunks.length ≠ i := by
        rintro rfl
        rw [hchunk] at hmissing
        cases hmissing
      have hmore : (chunks ++ [chunk]).length ≤ i := by
        rw [List.length_append, List.length_singleton]
        omega
      have hact : act s (.proceed r) =
          some (s.goto r (some (.readChunk (chunks ++ [chunk]))), []) := by
        rw [act_proceed h, proceed]
        dsimp only [effect]
        rw [next_readChunk_some hchunk, afterRead, if_pos (by omega)]
      obtain ⟨hgoto, hout⟩ := act_step hact
      obtain rfl := Option.some.inj (hstep.symm.trans hgoto)
      rw [hout, List.nil_append] at hreply
      exact ih (goto_self _ _ _) hmore hlt hmissing hrest hreply
    | none =>
      have hact : act s (.proceed r) = some (s.goto r none,
          [.reply r (.error 500 s!"Missing chunk {chunks.length}")]) := by
        rw [act_proceed h, proceed]
        dsimp only [effect]
        rw [next_readChunk_none hchunk]
        rfl
      obtain ⟨hgoto, hout⟩ := act_step hact
      obtain rfl := Option.some.inj (hstep.symm.trans hgoto)
      rw [hout] at hreply
      rcases List.mem_append.mp hreply with hfirst | hlater
      · cases List.mem_singleton.mp hfirst
      · cases n with
        | zero => cases hlater
        | succ n =>
          rw [List.replicate_succ] at hrest
          obtain ⟨_, hgone, -⟩ := run_cons.mp hrest
          rw [step, act, goto_self] at hgone
          cases hgone

/-- **A complete request that is let through succeeds exactly if all chunks are there.** -/
theorem succeeds_iff (hnew : s.requests r = none)
    (hcount : s.totalChunks ≤ s.completedChunks) :
    Succeeds s r ↔ ∀ i < s.totalChunks, ∃ b, s.blobs (.chunk i) = some b := by
  have hact : act s (.complete r true) =
      some (s.goto r (some (afterRead s.totalChunks [])), []) := by
    rw [act, if_pos hnew, beginComplete, Bool.not_true, if_neg Bool.false_ne_true,
      if_neg (by omega)]
  obtain ⟨hstep, hout⟩ := act_step hact
  have hfinishes : Succeeds s r ↔ Finishes (s.goto r (some (afterRead s.totalChunks []))) r := by
    refine exists_congr fun n => exists_congr fun t => ?_
    rw [run_cons, emitted_cons hstep, hout, List.nil_append, hstep]
    simp
  rw [hfinishes]
  constructor
  · intro h i hi
    by_contra hmissing
    have hnone : s.blobs (.chunk i) = none := by
      rw [← Option.not_isSome_iff_eq_none, Option.isSome_iff_exists]
      exact hmissing
    have hpos : ([] : List Bytes).length < s.totalChunks := Nat.lt_of_le_of_lt (Nat.zero_le i) hi
    have hread : (s.goto r (some (afterRead s.totalChunks []))).requests r =
        some (.readChunk []) := by
      rw [goto_self, afterRead, if_pos hpos]
    exact not_finishes_of_missing hread (Nat.zero_le i) hi hnone h
  · intro hthere
    exact finishes_afterRead (goto_self s r _) hthere

/-! ## Runs -/

theorem started_inv (totalChunks : Nat) (recipientEnvelopes encryptedMetadata : Bytes) :
    Inv (started totalChunks recipientEnvelopes encryptedMetadata).1
      (started totalChunks recipientEnvelopes encryptedMetadata).2 := by
  refine ⟨⟨?_, ?_, rfl, ?_, ?_⟩, ?_⟩
  · intro i b hb
    cases hb
  · intro i
    exact iff_of_false (fun ⟨b, hb⟩ => by cases hb) standing_nil
  · intro b hb
    cases hb
  · intro hcomplete
    cases hcomplete
  · intro r stage hstage
    cases hstage

/-- What every run keeps. -/
theorem recorded_inv {totalChunks : Nat} {recipientEnvelopes encryptedMetadata : Bytes}
    {p : Upload × List Event} {es : List Action}
    (h : run recorded (started totalChunks recipientEnvelopes encryptedMetadata) es = some p) :
    Inv p.1 p.2 := by
  refine run_inv (I := fun p => Inv p.1 p.2) ?_ (started_inv _ _ _) h
  intro p a q hp hstep
  obtain ⟨hstep, hws⟩ := recording_eq_some.mp hstep
  rw [hws]
  exact act_inv hp hstep

theorem Inv.contentSound {p : Upload × List Event} (h : Inv p.1 p.2) : ContentSound p := by
  intro hcomplete
  obtain ⟨content, hcontent⟩ := h.complete hcomplete
  exact ⟨content, hcontent, h.content content hcontent⟩

/-- When every chunk has been uploaded, as many uploads have been counted. -/
theorem AllUploaded.le_length {n : Nat} (h : AllUploaded ws n) :
    n ≤ (counted ws).length := by
  have hsub : List.range n ⊆ counted ws := fun i hi => h i (List.mem_range.mp hi)
  calc n = (List.range n).length := List.length_range.symm
    _ ≤ (counted ws).length := (List.nodup_range.subperm hsub).length_le

/-- A complete request is refused if the count is below the number of chunks. -/
theorem refused_iff (hnew : s.requests r = none) :
    (∃ completed, .reply r (.notAllChunks completed s.totalChunks) ∈ out s (.complete r true)) ↔
      s.completedChunks < s.totalChunks := by
  have hact : act s (.complete r true) = some (beginComplete s r true) := if_pos hnew
  rw [out, hact, beginComplete, Bool.not_true, if_neg Bool.false_ne_true]
  split_ifs with hlt
  · exact iff_of_true ⟨_, List.mem_cons_self⟩ hlt
  · exact iff_of_false (fun ⟨_, hmem⟩ => by cases hmem) hlt

/-- **When a request is sound.** -/
theorem requestSound_iff {p q : Upload × List Event} {a : Action} (h : Inv p.1 p.2)
    (hstep : recorded p a = some q) : RequestSound p a ↔ Orderly p a := by
  cases a with
  | upload r allowed chunkIndex body => exact Iff.rfl
  | proceed r | retry r effected | fail r effected => exact Iff.rfl
  | complete r allowed =>
    cases allowed with
    | false => exact Iff.rfl
    | true =>
      have hnew : p.1.requests r = none := by
        obtain ⟨hstep, -⟩ := recording_eq_some.mp hstep
        by_contra hne
        rw [step, act, if_neg hne] at hstep
        cases hstep
      unfold RequestSound Orderly
      dsimp only
      rw [refused_iff hnew, h.count]
      refine and_congr ?_ (forall_congr' fun hall => ?_)
      · -- when every chunk has been uploaded, the count cannot be below
        constructor
        · intro hiff
          by_cases hall : AllUploaded p.2 p.1.totalChunks
          · exact .inr hall
          · exact .inl (hiff.mpr hall)
        · rintro (hlt | hall)
          · exact iff_of_true hlt fun hall => Nat.not_lt.mpr hall.le_length hlt
          · exact iff_of_false (Nat.not_lt.mpr hall.le_length) (not_not_intro hall)
      · rw [succeeds_iff hnew (by rw [h.count]; exact hall.le_length)]
        exact forall₂_congr fun i _ => h.present i

/-- **In which runs uploads are sound.** -/
theorem upload_sound_iff {totalChunks : Nat} {recipientEnvelopes encryptedMetadata : Bytes}
    {p : Upload × List Event} {es : List Action}
    (h : run recorded (started totalChunks recipientEnvelopes encryptedMetadata) es = some p) :
    ((∀ before after q, es = before ++ after →
        run recorded (started totalChunks recipientEnvelopes encryptedMetadata) before = some q →
          ContentSound q) ∧
      Along recorded RequestSound (started totalChunks recipientEnvelopes encryptedMetadata) es) ↔
    Along recorded Orderly (started totalChunks recipientEnvelopes encryptedMetadata) es := by
  rw [and_iff_right fun before after q _ hq => (recorded_inv hq).contentSound, along_iff_split,
    along_iff_split]
  refine forall₄_congr fun before a after q => forall₂_congr fun hes hq => ?_
  obtain ⟨q', hstep, -⟩ := step_of_run h hes hq
  exact requestSound_iff (recorded_inv hq) hstep

/-- Chunk 0 of two is uploaded, and uploaded again. -/
def chunkTwice : List Action :=
  [.upload 1 true (some 0) [97], .proceed 1, .proceed 1,
    .upload 2 true (some 0) [97], .proceed 2, .proceed 2]

/-- Both chunks are uploaded; a complete request deletes chunk 0, and fails at chunk 1. -/
def interrupted : List Action :=
  [.upload 1 true (some 0) [97], .proceed 1, .proceed 1,
    .upload 2 true (some 1) [98], .proceed 2, .proceed 2,
    .complete 3 true, .proceed 3, .proceed 3, .proceed 3, .proceed 3, .proceed 3, .proceed 3,
    .fail 3 false]

/-- Both chunks are uploaded, the second one first, and the file is completed. -/
def wellUploaded : List Action :=
  [.upload 1 true (some 1) [98], .upload 2 true (some 0) [97], .proceed 1, .retry 2 true,
    .proceed 2, .proceed 1, .proceed 2, .complete 3 true] ++ List.replicate 8 (.proceed 3)

theorem wellUploaded_sound : Along recorded RequestSound (started 2 [] []) wellUploaded :=
  ((upload_sound_iff rfl).mpr (by decide +kernel)).2

/-- **A chunk that comes twice stands for another, and a complete that failed cannot be repeated.**
After the first run the request is let through, though chunk 1 was never uploaded; after the second
one it is answered by "Missing chunk 0". -/
theorem repeatedChunk_unsound :
    (∃ p, run recorded (started 2 [] []) chunkTwice = some p ∧
      ¬ RequestSound p (.complete 3 true)) ∧
    (∃ p, run recorded (started 2 [] []) interrupted = some p ∧
      .reply 3 (.error 500 "Internal server error") ∈ p.2 ∧
      ¬ RequestSound p (.complete 3 true)) := by
  have htwice : run recorded (started 2 [] []) chunkTwice = some _ := rfl
  have hinterrupted : run recorded (started 2 [] []) interrupted = some _ := rfl
  refine ⟨⟨_, htwice, fun hsound => ?_⟩, ⟨_, hinterrupted, by decide, fun hsound => ?_⟩⟩
  · have horderly := (requestSound_iff (recorded_inv htwice) rfl).mp hsound
    exact absurd horderly (by decide +kernel)
  · have horderly := (requestSound_iff (recorded_inv hinterrupted) rfl).mp hsound
    exact absurd horderly (by decide +kernel)

end Llamenos.Worker.Uploads
