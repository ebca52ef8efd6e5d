import Llamenos.Worker.Blasts
import Mathlib.Data.List.Chain

/-!
# The statuses of a blast

A blast goes from draft, which may be scheduled, to sending and to sent, and may be cancelled before
it is sent; and what is sent does not change any more. `send` asks for the status in the `UPDATE`
itself. `updateBlast`, `schedule`, `cancel` and `syncBlastStats` ask in a statement of its own, and
then write by id alone: their writes may come too late.

Results:
* `makes_onBlast`: what a write makes of a blast.
* `lawful_snoc`: what the next row of a lawful history has to be.
* `lawful_iff`: **a blast keeps to its statuses exactly in the runs where no write comes too late.**
* `cancelled_scheduled`: a blast is scheduled after it was cancelled.
-/

namespace Llamenos.Worker.Blasts

open Llamenos.Lib Llamenos.Crypto Llamenos.Worker.Subscribers

variable {keys : Keys} {prims : Prims}

/-! ## The property -/

/-- The arrows between statuses. -/
def BlastStatus.Arrow : BlastStatus → BlastStatus → Prop
  | .draft, .scheduled | .draft, .sending | .scheduled, .sending | .sending, .sent => True
  | .draft, .cancelled | .scheduled, .cancelled | .sending, .cancelled => True
  | _, _ => False

/-- A status is kept, or an arrow is taken. -/
def BlastStatus.Moves (a b : BlastStatus) : Prop := a = b ∨ a.Arrow b

/-- What `updateBlast` edits. -/
structure Body where
  name : String
  content : Content
  defaultLanguage : String
  targetChannels : List MessagingChannelType
  targetTags : List String
  targetLanguages : List String
  deriving DecidableEq

def Blast.body (blast : Blast) : Body where
  name := blast.name
  content := blast.content
  defaultLanguage := blast.defaultLanguage
  targetChannels := blast.targetChannels
  targetTags := blast.targetTags
  targetLanguages := blast.targetLanguages

/-- How often the rows enter `sending`. -/
def entries : List Blast → Nat
  | a :: b :: rows =>
    (if a.status ≠ .sending ∧ b.status = .sending then 1 else 0) + entries (b :: rows)
  | _ => 0

/-- The successive rows of a blast keep to the statuses. -/
structure Lawful (rows : List Blast) : Prop where
  path : rows.IsChain fun a b => a.status.Moves b.status
  final : rows.Pairwise fun a b => a.status = .sent ∨ a.status = .cancelled → b.status = a.status
  once : entries rows ≤ 1
  content : rows.Pairwise fun a b => a.status = .sending → b.body = a.body

/-- The row of a blast after a step. -/
def stored (keys : Keys) (prims : Prims) (id : String) (s : System) (e : Event) : List Blast :=
  ((step keys prims s e).bind fun s' => getBlast s'.db id).toList

/-- The rows of a blast in a run, one after the other. -/
def history (keys : Keys) (prims : Prims) (id : String) (s : System) (es : List Event) :
    List Blast :=
  (getBlast s.db id).toList ++ Runs.emitted (step keys prims) (stored keys prims id) s es

/-- What the write has been decided for is still so. -/
def Write.InTurn (blast : Blast) : Write → Prop
  | .update id input => blast.id = id → blast.sentAt = none ∨ (input.set blast).body = blast.body
  | .schedule id _ => blast.id = id → blast.status = .draft ∨ blast.status = .scheduled
  | .cancel id => blast.id = id → blast.status ≠ .sent
  | .sync id _ completed =>
    blast.id = id → completed = true → blast.status = .sending ∨ blast.status = .sent
  | _ => True

def InTurn (id : String) (s : System) (e : Event) : Prop :=
  ∀ blast ∈ getBlast s.db id, (written s e).InTurn blast

/-! ## What a write makes of a blast -/

/-- A write that leaves the body and the time of the sending. -/
structure Moved (blast blast' : Blast) (status : BlastStatus) : Prop where
  status : blast'.status = status
  sentAt : blast'.sentAt = blast.sentAt
  body : blast'.body = blast.body

/-- What a write makes of a blast: one case for each that is about it. -/
inductive Makes (blast : Blast) : Write → Blast → Prop
  | update (input : UpdateBlastInput) : Makes blast (.update blast.id input) (input.set blast)
  | schedule (scheduledAt : Int) {blast' : Blast} (h : Moved blast blast' .scheduled) :
    Makes blast (.schedule blast.id scheduledAt) blast'
  | cancel {blast' : Blast} (h : Moved blast blast' .cancelled) :
    Makes blast (.cancel blast.id) blast'
  | sync (stats : BlastStats) {blast' : Blast} (h : Moved blast blast' .sent) :
    Makes blast (.sync blast.id stats true) blast'
  | send (w : Write) {blast' : Blast} (hsendable : blast.sendable)
    (hstatus : blast'.status = .sending) (hsentAt : blast'.sentAt.isSome)
    (hbody : blast'.body = blast.body) (hturn : w.InTurn blast) : Makes blast w blast'
  | kept (w : Write) {blast' : Blast} (h : Moved blast blast' blast.status)
    (hturn : w.InTurn blast) : Makes blast w blast'

/-- **What a write makes of a blast.** -/
theorem makes_onBlast (blast : Blast) (w : Write) : Makes blast w (w.onBlast blast) := by
  have hkept : Moved blast blast blast.status := ⟨rfl, rfl, rfl⟩
  cases w with
  | update id input =>
    rw [Write.onBlast]
    split
    · rename_i hid
      exact hid ▸ .update input
    · rename_i hid
      exact .kept _ hkept fun h => absurd h hid
  | schedule id scheduledAt =>
    rw [Write.onBlast]
    split
    · rename_i hid
      exact hid ▸ .schedule scheduledAt ⟨rfl, rfl, rfl⟩
    · rename_i hid
      exact .kept _ hkept fun h => absurd h hid
  | send id sentAt =>
    rw [Write.onBlast]
    split
    · rename_i hsend
      exact .send _ hsend.2 rfl rfl rfl trivial
    · exact .kept _ hkept trivial
  | cancel id =>
    rw [Write.onBlast]
    split
    · rename_i hid
      exact hid ▸ .cancel ⟨rfl, rfl, rfl⟩
    · rename_i hid
      exact .kept _ hkept fun h => absurd h hid
  | total id deliveryCount =>
    rw [Write.onBlast]
    split
    · exact .kept _ ⟨rfl, rfl, rfl⟩ trivial
    · exact .kept _ hkept trivial
  | sync id stats completed =>
    rw [Write.onBlast]
    split
    · rename_i hid
      cases completed with
      | true => exact hid ▸ .sync stats ⟨rfl, rfl, rfl⟩
      | false => exact .kept _ ⟨rfl, rfl, rfl⟩ fun _ h => by cases h
    · rename_i hid
      exact .kept _ hkept fun h => absurd h hid
  | nothing | cancelDeliveries | insert | drain | markSent | markDelivered | markFailed
  | markOptedOut | unsubscribe => exact .kept _ hkept trivial

/-! ## Histories -/

/-- How far a status is. -/
def BlastStatus.rank : BlastStatus → Nat
  | .draft => 0
  | .scheduled => 1
  | .sending => 2
  | .sent | .cancelled => 3

theorem BlastStatus.Moves.rank_le {a b : BlastStatus} (h : a.Moves b) : a.rank ≤ b.rank := by
  rcases h with rfl | h
  · exact le_rfl
  · cases a <;> cases b <;> first | exact h.elim | decide

/-- Nothing follows on sent and cancelled. -/
theorem BlastStatus.Moves.final {a b : BlastStatus} (h : a.Moves b)
    (ha : a = .sent ∨ a = .cancelled) :
    b = a := by
  rcases h with rfl | h
  · rfl
  · rcases ha with rfl | rfl <;> cases b <;> exact h.elim

variable {rows : List Blast}

/-- Along a path no status is followed by one before it. -/
theorem Lawful.rank_le {a b : Blast} (h : Lawful rows) (ha : a ∈ rows)
    (hb : rows.getLast? = some b) : a.status.rank ≤ b.status.rank := by
  have hpairwise : rows.Pairwise fun a b => a.status.rank ≤ b.status.rank := by
    have : IsTrans Blast fun a b => a.status.rank ≤ b.status.rank := ⟨fun _ _ _ => le_trans⟩
    exact (h.path.imp fun _ _ h => h.rank_le).pairwise
  obtain ⟨init, rfl⟩ := List.getLast?_eq_some_iff.mp hb
  rcases List.mem_append.mp ha with ha | ha
  · exact (List.pairwise_append.mp hpairwise).2.2 a ha b (List.mem_singleton_self b)
  · rw [List.mem_singleton.mp ha]

theorem entries_snoc {a : Blast} (ha : rows.getLast? = some a) (b : Blast) :
    entries (rows ++ [b]) =
      entries rows + if a.status ≠ .sending ∧ b.status = .sending then 1 else 0 := by
  induction rows with
  | nil => cases ha
  | cons r rows ih =>
    cases rows with
    | nil =>
      obtain rfl : r = a := Option.some.inj ha
      exact Nat.add_comm _ _
    | cons r' rows =>
      rw [List.getLast?_cons_cons] at ha
      have := ih ha
      simp only [List.cons_append, entries] at this ⊢
      omega

theorem entries_eq_zero (h : ∀ a ∈ rows, a.status ≠ .sending) :
    entries rows = 0 := by
  induction rows with
  | nil => rfl
  | cons r rows ih =>
    cases rows with
    | nil => rfl
    | cons r' rows =>
      have hr' : r'.status ≠ .sending := h r' (List.mem_cons_of_mem _ List.mem_cons_self)
      simp only [entries, hr', and_false, if_false, Nat.zero_add]
      exact ih fun a ha => h a (List.mem_cons_of_mem _ ha)

/-- **A lawful history goes on lawfully** by an arrow, and with the body it was sent with. -/
theorem lawful_snoc {a b : Blast} (h : Lawful rows)
    (ha : rows.getLast? = some a) :
    Lawful (rows ++ [b]) ↔
      a.status.Moves b.status ∧ ∀ r ∈ rows, r.status = .sending → b.body = r.body := by
  have hmem : a ∈ rows := List.mem_of_getLast? ha
  constructor
  · intro hall
    refine ⟨?_, fun r hr => ?_⟩
    · exact (List.isChain_append.mp hall.path).2.2 a ha b rfl
    · exact (List.pairwise_append.mp hall.content).2.2 r hr b (List.mem_singleton_self b)
  · rintro ⟨hmoves, hbody⟩
    refine ⟨?_, ?_, ?_, ?_⟩
    · refine List.isChain_append.mpr ⟨h.path, List.isChain_singleton _, fun x hx y hy => ?_⟩
      obtain rfl := Option.some.inj (ha.symm.trans hx)
      obtain rfl := Option.some.inj hy
      exact hmoves
    · refine List.pairwise_append.mpr ⟨h.final, List.pairwise_singleton _ _, fun r hr x hx => ?_⟩
      intro hfinal
      rw [List.mem_singleton.mp hx]
      have hlast : a.status = r.status := by
        obtain ⟨init, rfl⟩ := List.getLast?_eq_some_iff.mp ha
        rcases List.mem_append.mp hr with hr | hr
        · exact (List.pairwise_append.mp h.final).2.2 r hr a (List.mem_singleton_self a) hfinal
        · rw [List.mem_singleton.mp hr]
      rw [hmoves.final (hlast ▸ hfinal), hlast]
    · rw [entries_snoc ha]
      split
      · -- it enters `sending` from below, where no row before has been
        rename_i henters
        have hfresh : ∀ r ∈ rows, r.status ≠ .sending := by
          intro r hr hsending
          have hle := h.rank_le hr ha
          have hle' := hmoves.rank_le
          rw [hsending] at hle
          rw [henters.2] at hle'
          have hrank : a.status.rank = 2 := le_antisymm hle' hle
          revert henters hrank
          cases a.status <;> simp [BlastStatus.rank]
        rw [entries_eq_zero hfresh]
      · exact h.once
    · refine List.pairwise_append.mpr ⟨h.content, List.pairwise_singleton _ _, fun r hr x hx => ?_⟩
      rw [List.mem_singleton.mp hx]
      exact hbody r hr

/-! ## Runs -/

/-- What the rows of a blast in a run have to do with the state it is in. -/
structure Track (id : String) (s : System) (rows : List Blast) : Prop where
  last : rows.getLast? = getBlast s.db id
  entered : ∀ blast ∈ getBlast s.db id,
    blast.sentAt.isSome ↔ ∃ r ∈ rows, r.status = .sending

theorem start_track (db : Subscribers.Db) (created : List (String × CreateBlastInput))
    (id : String) : Track id (start db created) (getBlast (start db created).db id).toList := by
  cases hrow : getBlast (start db created).db id with
  | none => exact ⟨hrow.symm, fun _ h => by rw [hrow] at h; cases h⟩
  | some blast =>
    refine ⟨hrow.symm, fun blast' h => ?_⟩
    obtain rfl : blast = blast' := Option.some.inj (hrow.symm.trans h)
    obtain ⟨⟨id', input⟩, -, rfl⟩ := List.mem_map.mp (List.mem_of_find?_eq_some hrow)
    simp [createBlast]

/-- The body of the last row is that of the sending. -/
theorem Lawful.body_eq {a r : Blast} (h : Lawful rows)
    (ha : rows.getLast? = some a) (hr : r ∈ rows) (hsending : r.status = .sending) :
    a.body = r.body := by
  obtain ⟨init, rfl⟩ := List.getLast?_eq_some_iff.mp ha
  rcases List.mem_append.mp hr with hr | hr
  · exact (List.pairwise_append.mp h.content).2.2 r hr a (List.mem_singleton_self a) hsending
  · rw [List.mem_singleton.mp hr]

/-- **What one write keeps.** -/
theorem lawful_onBlast {blast : Blast} (h : Lawful rows)
    (hlast : rows.getLast? = some blast)
    (hentered : blast.sentAt.isSome ↔ ∃ r ∈ rows, r.status = .sending) (w : Write) :
    Lawful (rows ++ [w.onBlast blast]) ↔ w.InTurn blast := by
  rw [lawful_snoc h hlast]
  have hbody : ∀ r ∈ rows, r.status = .sending → blast.body = r.body :=
    fun r hr hsending => h.body_eq hlast hr hsending
  -- the body only matters for `update`, the status for the others
  have hmoved : ∀ {blast' : Blast}, blast'.body = blast.body →
      ((blast.status.Moves blast'.status ∧ ∀ r ∈ rows, r.status = .sending →
        blast'.body = r.body) ↔ blast.status.Moves blast'.status) := by
    intro blast' hsame
    exact and_iff_left fun r hr hsending => hsame.trans (hbody r hr hsending)
  generalize hblast' : w.onBlast blast = blast'
  have hmakes : Makes blast w blast' := hblast' ▸ makes_onBlast blast w
  cases hmakes with
  | update input =>
    have hmoves : blast.status.Moves (input.set blast).status := .inl rfl
    rw [and_iff_right hmoves]
    constructor
    · intro hkeeps _
      cases hsent : blast.sentAt with
      | none => exact .inl rfl
      | some time =>
        obtain ⟨r, hr, hsending⟩ := hentered.mp (by rw [hsent]; rfl)
        exact .inr ((hkeeps r hr hsending).trans (hbody r hr hsending).symm)
    · intro hturn r hr hsending
      rcases hturn rfl with hnone | hsame
      · have hsome := hentered.mpr ⟨r, hr, hsending⟩
        rw [hnone] at hsome
        cases hsome
      · exact hsame.trans (hbody r hr hsending)
  | schedule scheduledAt hmakes =>
    rw [hmoved hmakes.body, hmakes.status]
    unfold Write.InTurn
    cases blast.status <;> simp [BlastStatus.Moves, BlastStatus.Arrow]
  | cancel hmakes =>
    rw [hmoved hmakes.body, hmakes.status]
    unfold Write.InTurn
    cases blast.status <;> simp [BlastStatus.Moves, BlastStatus.Arrow]
  | sync stats hmakes =>
    rw [hmoved hmakes.body, hmakes.status]
    unfold Write.InTurn
    cases blast.status <;> simp [BlastStatus.Moves, BlastStatus.Arrow]
  | send w hsendable hstatus hsentAt hsame hturn =>
    rw [hmoved hsame, hstatus]
    refine iff_of_true ?_ hturn
    revert hsendable
    unfold Blast.sendable
    cases blast.status <;> simp [BlastStatus.Moves, BlastStatus.Arrow]
  | kept w hmakes hturn =>
    rw [hmoved hmakes.body, hmakes.status]
    exact iff_of_true (.inl rfl) hturn

theorem stored_eq {id : String} {s s' : System} {e : Event} (h : step keys prims s e = some s') :
    stored keys prims id s e = ((getBlast s.db id).map (written s e).onBlast).toList := by
  rw [stored, h, Option.bind_some, step_spec h, getBlast_apply]

/-- **What a step keeps.** -/
theorem track_step {id : String} {s s' : System} {e : Event}
    (htrack : Track id s rows) (h : step keys prims s e = some s') :
    Track id s' (rows ++ stored keys prims id s e) := by
  rw [stored_eq h]
  have hrow : getBlast s'.db id = (getBlast s.db id).map (written s e).onBlast := by
    rw [step_spec h, getBlast_apply]
  cases hblast : getBlast s.db id with
  | none =>
    rw [hblast] at hrow
    refine ⟨?_, fun _ h => by rw [hrow] at h; cases h⟩
    rw [hrow, Option.map_none, Option.toList_none, List.append_nil, htrack.last, hblast]
  | some blast =>
    rw [hblast, Option.map_some] at hrow
    rw [Option.map_some, Option.toList_some]
    refine ⟨by rw [List.getLast?_concat, hrow], fun blast' h => ?_⟩
    obtain rfl : (written s e).onBlast blast = blast' := Option.some.inj (hrow.symm.trans h)
    have hentered := htrack.entered blast hblast
    have hlast : blast ∈ rows := List.mem_of_getLast? (htrack.last.trans hblast)
    have hsnoc : ∀ new : Blast, (∃ r ∈ rows ++ [new], r.status = .sending) ↔
        blast.sentAt.isSome ∨ new.status = .sending := by
      intro new
      rw [hentered]
      simp only [List.mem_append, List.mem_singleton, or_and_right, exists_or, exists_eq_left]
    have hkeeps : ∀ new : Blast, new.sentAt = blast.sentAt →
        (new.status = .sending → blast.status = .sending) →
        (new.sentAt.isSome ↔ ∃ r ∈ rows ++ [new], r.status = .sending) := by
      intro new hsentAt hstatus
      rw [hsnoc, hsentAt]
      exact (or_iff_left_of_imp fun h => hentered.mpr ⟨blast, hlast, hstatus h⟩).symm
    have hmakes := makes_onBlast blast (written s e)
    generalize (written s e).onBlast blast = new at hmakes ⊢
    generalize written s e = w at hmakes
    cases hmakes with
    | update input => exact hkeeps _ rfl fun hs => hs
    | schedule scheduledAt h => exact hkeeps new h.sentAt fun hs => by rw [h.status] at hs; cases hs
    | cancel h => exact hkeeps new h.sentAt fun hs => by rw [h.status] at hs; cases hs
    | sync stats h => exact hkeeps new h.sentAt fun hs => by rw [h.status] at hs; cases hs
    | send w _ hstatus hsentAt =>
      rw [hsnoc]
      exact iff_of_true hsentAt (.inr hstatus)
    | kept w h => exact hkeeps new h.sentAt fun hs => h.status ▸ hs

theorem entries_le_append (rows more : List Blast) : entries rows ≤ entries (rows ++ more) := by
  induction rows with
  | nil => exact Nat.zero_le _
  | cons r rows ih =>
    cases rows with
    | nil => exact Nat.zero_le _
    | cons r' rows => exact Nat.add_le_add_left ih _

/-- The beginning of a lawful history is lawful. -/
theorem Lawful.left {rows more : List Blast} (h : Lawful (rows ++ more)) : Lawful rows where
  path := h.path.left_of_append
  final := (List.pairwise_append.mp h.final).1
  once := (entries_le_append rows more).trans h.once
  content := (List.pairwise_append.mp h.content).1

theorem lawful_toList (blast : Option Blast) : Lawful blast.toList := by
  cases blast with
  | none => exact ⟨.nil, .nil, Nat.zero_le _, .nil⟩
  | some blast =>
    exact ⟨.singleton _, List.pairwise_singleton _ _, Nat.zero_le _, List.pairwise_singleton _ _⟩

/-- **What each step keeps exactly in turn.** -/
theorem lawful_step_iff {id : String} {s s' : System} {e : Event}
    (htrack : Track id s rows) (hlawful : Lawful rows) (h : step keys prims s e = some s') :
    Lawful (rows ++ stored keys prims id s e) ↔ InTurn id s e := by
  rw [stored_eq h]
  unfold InTurn
  cases hblast : getBlast s.db id with
  | none =>
    rw [Option.map_none, Option.toList_none, List.append_nil]
    exact iff_of_true hlawful fun _ h => by cases h
  | some blast =>
    rw [Option.map_some, Option.toList_some]
    refine (lawful_onBlast hlawful (htrack.last.trans hblast) (htrack.entered blast hblast) _).trans
      ⟨fun hturn blast' h => Option.some.inj h ▸ hturn, fun hturn => hturn blast rfl⟩

/-- **A blast keeps to its statuses exactly in the runs** where no `UPDATE` comes too late. -/
theorem lawful_iff {db : Subscribers.Db} {created : List (String × CreateBlastInput)} {id : String}
    {es : List Event} {s : System} (h : Runs.run (step keys prims) (start db created) es = some s) :
    Lawful (history keys prims id (start db created) es) ↔
      Runs.Along (step keys prims) (InTurn id) (start db created) es := by
  refine Iff.trans ?_ (Runs.always_iff_along (stored keys prims id) (I := Track id)
    (G := fun _ rows => Lawful rows) (fun _ _ _ _ => track_step)
    (fun _ _ _ _ => lawful_step_iff) _ (start_track db created id) (lawful_toList _) h)
  constructor
  · rintro hlawful before after m rfl hm
    unfold history at hlawful
    rw [Runs.emitted_append hm, ← List.append_assoc] at hlawful
    exact hlawful.left
  · exact fun hall => hall es [] s (List.append_nil es).symm h

instance (blast : Blast) (w : Write) : Decidable (w.InTurn blast) := by
  cases w <;> unfold Write.InTurn <;> infer_instance

instance (id : String) (s : System) (e : Event) : Decidable (InTurn id s e) :=
  inferInstanceAs (Decidable (∀ blast ∈ getBlast s.db id, (written s e).InTurn blast))

/-- A blast is scheduled, found by the poller, and sent; when it is cancelled it is sending. -/
def sentByPoller : List Event :=
  [.call 0 (.schedule "blast" (some 10)), .resume 0 { now := 0 }, .resume 0 { now := 0 },
    .call 1 .checkScheduledBlasts,
    .resume 1 {
      now := 10
      due := [{
        createBlast news.1 news.2 with status := .scheduled, scheduledAt := some 10 }] },
    .call 2 (.cancel "blast"), .resume 1 { now := 11 }, .resume 1 { now := 12 },
    .resume 1 { now := 13 }, .resume 1 { now := 14 }, .resume 2 { now := 15 },
    .resume 2 { now := 16 }, .resume 2 { now := 17 }]

theorem sentByPoller_lawful :
    ((history .columns plainPrims "blast" (start {} [news]) sentByPoller).map Blast.status).dedup =
        [.draft, .scheduled, .sending, .cancelled] ∧
      Lawful (history .columns plainPrims "blast" (start {} [news]) sentByPoller) := by
  have hrun : (Runs.run (step .columns plainPrims) (start {} [news]) sentByPoller).isSome := by
    decide +kernel
  obtain ⟨s, hs⟩ := Option.isSome_iff_exists.mp hrun
  have hturn : Runs.Along (step .columns plainPrims) (InTurn "blast") (start {} [news])
      sentByPoller := by
    decide +kernel
  exact ⟨by decide +kernel, (lawful_iff hs).mpr hturn⟩

/-- Two calls of `schedule` read a draft; one of them stores, the blast is cancelled, and the other
stores. -/
def scheduledTwice : List Event :=
  [.call 0 (.schedule "blast" (some 10)), .call 1 (.schedule "blast" (some 10)),
    .resume 0 { now := 0 }, .resume 1 { now := 0 }, .resume 1 { now := 1 },
    .call 2 (.cancel "blast"), .resume 2 { now := 2 }, .resume 2 { now := 3 },
    .resume 2 { now := 4 }, .resume 0 { now := 5 }]

/-- **A cancelled blast is scheduled.** -/
theorem cancelled_scheduled :
    ¬ Lawful (history .columns plainPrims "blast" (start {} [news]) scheduledTwice) := by
  intro h
  have hleft : ¬ ((history .columns plainPrims "blast" (start {} [news]) scheduledTwice).map
      Blast.status).Pairwise fun a b => a = .sent ∨ a = .cancelled → b = a := by
    decide +kernel
  exact hleft (List.pairwise_map.mpr h.final)

end Llamenos.Worker.Blasts
