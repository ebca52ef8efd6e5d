import Llamenos.Worker.Audit.Log
import Llamenos.Worker.Retention

/-!
# Purges of the audit log

The purge of the audit log deletes the rows of a hub from before its cutoff, which are the first
ones of its chain. `verifyChain` takes it that a chain's first row has no predecessor. A row that is
left has one, and that is reported as tampering.

A run is any interleaving of calls of `log`, erasures and purges, on any table whose chains verify.
The purge does not take the lock of a chain: a call of `log` can have read the last row when it is
deleted.

Results:
* `happen_ordered`: whatever happens, a chain is sound from its first row on.
* `happen_verifies`: what a step must not do for the chains to verify after it.
* `verifies_iff`: **every chain verifies all along exactly if each purge leaves its chain as it is
  or nothing of it, and no row is logged after one that has been purged**.
* `expired_prefix`: a hub's first row expires, and its chain is broken.
-/

namespace Llamenos.Worker.Retention

open Llamenos.Lib
open Llamenos.Worker.Audit

variable {N : Type}

/-! ## What happens to the audit log -/

inductive Happening (N : Type) where
  | logging (e : Event N)
  | erasure (userId : String) (now : Int)
  /-- `DELETE FROM audit_log` of a purge. -/
  | purge (hubId : String) (cutoff : Int)

section Model

variable (prims : AuditPrims N)

def happen (s : System N) : Happening N → Option (System N)
  | .logging e => step prims s e
  | .erasure userId now => some { s with table := eraseUser s.table userId now }
  | .purge hubId cutoff =>
    some { s with table := (deleteWhere s.table (auditRowGone hubId cutoff)).1 }

/-- Every chain verifies, page by page and in full. -/
structure Verifies (table : List (Row N)) : Prop where
  pages : ∀ hubId limit offset, (verifyChain prims table hubId limit offset).valid = true
  chains : ∀ hubId pageSize, ∃ result, verifyFullChain prims table hubId pageSize = some result ∧
    result.valid = true

/-- The details of a row that is inserted come back with the same stable text. -/
def DetailsKept (s : System N) : Happening N → Prop
  | .logging (.insert i _ _) => ∀ task ∈ s.tasks i,
      stableJsonStringify prims (orEmpty (prims.jsonb task.call.details)) =
        stableJsonStringify prims (orEmpty task.call.details)
  | _ => True

end Model

/-- The tip that a call has read is the last row of its chain. -/
def TipLast (s : System N) : Audit.Task N → Prop
  | .read call tip => call.hubId ≠ some "" → tip = tipOf (chainRows s.table call.hubId)
  | .locked _ => True

/-- A purge leaves its chain as it is, or nothing of it; and a row that is inserted comes after the
last one that is there. -/
def Whole (s : System N) : Happening N → Prop
  | .purge hubId cutoff => hubId ≠ "" →
      (∀ row ∈ chainRows s.table (some hubId), cutoff ≤ row.createdAt.getTime) ∨
        ∀ row ∈ chainRows s.table (some hubId), row.createdAt.getTime < cutoff
  | .logging (.insert i _ _) => ∀ task ∈ s.tasks i, TipLast s task
  | _ => True

/-! ## Chains that verify -/

variable {prims : AuditPrims N}

/-- Every page of a chain is valid exactly if it is sound from its start. -/
theorem verifies_iff_sound {table : List (Row N)}
    (h : ∀ chain, chain ≠ some "" → Increasing (chainRows table chain)) :
    Verifies prims table ↔
      ∀ chain, chain ≠ some "" → Sound prims none (chainRows table chain) := by
  have hselect (hubId : Option String) :
      selectChain prims table hubId = chainRows table (chainName hubId) :=
    selectChain_eq (h _ (chainName_ne hubId))
  constructor
  · intro hverifies chain hchain
    obtain ⟨result, hresult, hvalid⟩ := hverifies.chains chain 1
    rw [verifyFullChain, hselect, chainName_of_ne hchain] at hresult
    exact sound_of_verifyPages Nat.one_pos hresult hvalid
  · intro hsound
    refine ⟨fun hubId limit offset => ?_, fun hubId pageSize => ?_⟩
    · rw [verifyChain, hselect, verifyPage_of_sound (hsound _ (chainName_ne hubId))]
    · rw [verifyFullChain, hselect]
      exact ⟨_, verifyPages_eq (hsound _ (chainName_ne hubId)) pageSize, rfl⟩

theorem increasing_nil (chain : Option String) :
    Increasing (chainRows ([] : List (Row N)) chain) :=
  List.Pairwise.nil

theorem verifies_nil (prims : AuditPrims N) : Verifies prims [] :=
  (verifies_iff_sound fun chain _ => increasing_nil chain).mpr fun _ _ => sound_nil none

/-- The end of a sound chain. -/
theorem sound_suffix_iff {rows rows' : List (Row N)} (h : Sound prims none (rows ++ rows')) :
    Sound prims none rows' ↔ rows = [] ∨ rows' = [] := by
  refine ⟨fun hsound => h.chained.suffix_iff.mp hsound.chained, fun hwhole => ⟨?_, ?_⟩⟩
  · exact h.chained.suffix_iff.mpr hwhole
  · exact (List.forall_mem_append.mp h.hashed).2

/-- What is before a time comes first. -/
theorem exists_expired {rows : List (Row N)} (h : Increasing rows) (cutoff : Int) :
    ∃ expired, rows = expired ++ rows.filter (fun row => cutoff ≤ row.createdAt.getTime) ∧
      ∀ row ∈ expired, row.createdAt.getTime < cutoff := by
  induction rows with
  | nil => exact ⟨[], rfl, fun _ hrow => absurd hrow List.not_mem_nil⟩
  | cons row rows ih =>
    obtain ⟨hrow, hrows⟩ := List.pairwise_cons.mp h
    by_cases hle : cutoff ≤ row.createdAt.getTime
    · refine ⟨[], ?_, fun _ hrow => absurd hrow List.not_mem_nil⟩
      rw [List.nil_append, eq_comm, List.filter_eq_self]
      intro r hr
      rcases List.mem_cons.mp hr with rfl | hr
      · simpa using hle
      · have := hrow r hr
        simpa using (by omega : cutoff ≤ r.createdAt.getTime)
    · obtain ⟨expired, heq, hexpired⟩ := ih hrows
      refine ⟨row :: expired, ?_, ?_⟩
      · rw [List.filter_cons_of_neg (by simpa using hle), List.cons_append, ← heq]
      · exact List.forall_mem_cons.mpr ⟨by omega, hexpired⟩

/-- What a purge leaves of a chain. -/
theorem chainRows_purge (table : List (Row N)) (hubId : String) (cutoff : Int)
    (chain : Option String) :
    chainRows (deleteWhere table (auditRowGone hubId cutoff)).1 chain =
      if chain = some hubId then
        (chainRows table chain).filter fun row => cutoff ≤ row.createdAt.getTime
      else chainRows table chain := by
  rw [deleteWhere, chainRows, chainRows, List.filter_filter]
  split_ifs with hchain
  · rw [List.filter_filter]
    refine List.filter_congr fun row _ => ?_
    by_cases hhub : row.hubId = chain
    · have hle : (!decide (row.createdAt.getTime < cutoff)) =
          decide (cutoff ≤ row.createdAt.getTime) := by
        rw [← decide_not]
        exact decide_eq_decide.mpr Int.not_lt
      simp [auditRowGone, hhub, hchain, hle]
    · simp [hhub]
  · refine List.filter_congr fun row _ => ?_
    by_cases hhub : row.hubId = chain
    · simp [auditRowGone, hhub, hchain]
    · simp [hhub]

/-! ## What every step preserves -/

/-- What holds in every state: the chains are in order and sound from their first rows on, whoever
is in a transaction holds the lock of its chain, and whoever has read the last row of a chain knows
it, unless nothing of the chain is left. -/
structure Ordered (prims : AuditPrims N) (s : System N) : Prop where
  increasing : ∀ chain, chain ≠ some "" → Increasing (chainRows s.table chain)
  sound : ∀ chain, chain ≠ some "" → ∃ last, Sound prims last (chainRows s.table chain)
  holds : ∀ i task, s.tasks i = some task → s.holders (lockOf prims task.call) = some i
  tips : ∀ i call tip, s.tasks i = some (.read call tip) → call.hubId ≠ some "" →
    tip = tipOf (chainRows s.table call.hubId) ∨ chainRows s.table call.hubId = []

variable {s s' : System N}

theorem ordered_start {table : List (Row N)}
    (hincreasing : ∀ chain, chain ≠ some "" → Increasing (chainRows table chain))
    (hverifies : Verifies prims table) : Ordered prims { table := table } where
  increasing := hincreasing
  sound chain hchain := ⟨none, (verifies_iff_sound hincreasing).mp hverifies chain hchain⟩
  holds _ _ h := by cases h
  tips _ _ _ h := by cases h

theorem purge_ordered (hs : Ordered prims s) {hubId : String} {cutoff : Int}
    (h : happen prims s (.purge hubId cutoff) = some s') : Ordered prims s' := by
  obtain rfl := Option.some.inj h
  refine ⟨fun chain hchain => ?_, fun chain hchain => ?_, hs.holds, fun i call tip hi hhub => ?_⟩
  · rw [chainRows_purge]
    split_ifs
    · exact List.Pairwise.filter _ (hs.increasing chain hchain)
    · exact hs.increasing chain hchain
  · rw [chainRows_purge]
    obtain ⟨last, hsound⟩ := hs.sound chain hchain
    split_ifs
    · obtain ⟨expired, heq, -⟩ := exists_expired (hs.increasing chain hchain) cutoff
      rw [heq] at hsound
      exact ⟨_, (sound_append.mp hsound).2⟩
    · exact ⟨last, hsound⟩
  · dsimp only
    rw [chainRows_purge]
    rcases hs.tips i call tip hi hhub with htip | hnil
    · split_ifs
      · obtain ⟨expired, heq, -⟩ := exists_expired (hs.increasing _ hhub) cutoff
        by_cases hnil : (chainRows s.table call.hubId).filter
            (fun row => cutoff ≤ row.createdAt.getTime) = []
        · exact .inr hnil
        · left
          rw [htip, heq, tipOf, List.getLast?_append_of_ne_nil _ hnil, ← heq, tipOf]
      · exact .inl htip
    · rw [hnil, List.filter_nil, ite_self]
      exact .inr rfl

/-- The tip of a chain is what it was, whatever has been erased. -/
theorem tipOf_map {erase : Row N → Row N} (h : ∀ row, Erased prims row (erase row))
    (rows : List (Row N)) : tipOf (rows.map erase) = tipOf rows := by
  rw [tipOf, tipOf, List.getLast?_map, Option.map_map]
  refine Option.map_congr fun row _ => ?_
  rw [Function.comp_apply, (h row).entryHash, (h row).createdAt]

/-- An erasure rewrites the rows one by one. -/
theorem exists_eraseUser (prims : AuditPrims N) (table : List (Row N)) (userId : String)
    (now : Int) : ∃ erase : Row N → Row N, eraseUser table userId now = table.map erase ∧
      ∀ row, Erased prims row (erase row) :=
  exists_eraseUsers prims table [(userId, now)]

theorem erasure_ordered (hs : Ordered prims s) {userId : String} {now : Int}
    (h : happen prims s (.erasure userId now) = some s') : Ordered prims s' := by
  obtain rfl := Option.some.inj h
  obtain ⟨erase, htable, herase⟩ := exists_eraseUser prims s.table userId now
  refine ⟨fun chain hchain => ?_, fun chain hchain => ?_, hs.holds, fun i call tip hi hhub => ?_⟩
  · dsimp only
    rw [htable, chainRows_map herase]
    exact (hs.increasing chain hchain).map herase
  · obtain ⟨last, hsound⟩ := hs.sound chain hchain
    dsimp only
    rw [htable, chainRows_map herase]
    exact ⟨last, hsound.map herase⟩
  · dsimp only
    rw [htable, chainRows_map herase, tipOf_map herase, List.map_eq_nil_iff]
    exact hs.tips i call tip hi hhub

/-- The chain that a row is logged to. -/
theorem logged_ordered {rows : List (Row N)} (hincreasing : Increasing rows)
    (hsound : ∃ last, Sound prims last rows) {call : LogCall N} {tip : Option Tip} {id : String}
    {now : Int} {row : Row N} (hrow : newRow prims call tip id now = some row)
    (hok : HashOk prims row) (htip : tip = tipOf rows ∨ rows = []) :
    Increasing (rows ++ [row]) ∧ ∃ last, Sound prims last (rows ++ [row]) := by
  obtain ⟨-, -, -, hprev, -, htime, -⟩ := newRow_eq_some hrow
  rcases List.eq_nil_or_concat' rows with rfl | ⟨init, final, rfl⟩
  · exact ⟨List.pairwise_singleton _ _, row.previousEntryHash,
      sound_cons.mpr ⟨rfl, hok, sound_nil _⟩⟩
  · have htip := htip.resolve_right (by simp)
    obtain ⟨last, hsound⟩ := hsound
    refine ⟨hincreasing.concat (htip ▸ htime), last, sound_append.mpr ⟨hsound, ?_⟩⟩
    refine sound_cons.mpr ⟨?_, hok, sound_nil _⟩
    rw [hprev, htip, tipOf_entryHash]
    simp [HashChain.lastDigest]

theorem logging_ordered (hs : Ordered prims s) {e : Event N}
    (hkept : DetailsKept prims s (.logging e)) (h : step prims s e = some s') :
    Ordered prims s' := by
  rcases step_table h with heq | ⟨i, id, now, call, tip, row, rfl, hi, -, -, hrow, heq⟩
  · refine ⟨heq ▸ hs.increasing, heq ▸ hs.sound, step_held hs.holds h,
      fun j call tip hj hhub => ?_⟩
    rw [heq]
    rcases read_of_step h hj with hj | ⟨-, rfl⟩
    · exact hs.tips j call tip hj hhub
    · have hincreasing := hs.increasing _ hhub
      rw [← chainName_of_ne hhub] at hincreasing
      rw [latest_eq hincreasing, chainName_of_ne hhub]
      exact .inl rfl
  · have hok : HashOk prims row := hashOk_newRow hrow (hkept _ hi)
    obtain ⟨-, hrowHub, -⟩ := newRow_eq_some hrow
    have hchain : ∀ chain, chain ≠ some "" → Increasing (chainRows s'.table chain) ∧
        ∃ last, Sound prims last (chainRows s'.table chain) := by
      intro chain hchain
      rw [heq, chainRows_concat, hrowHub]
      split_ifs with hhub
      · subst hhub
        exact logged_ordered (hs.increasing _ hchain) (hs.sound _ hchain) hrow hok
          (hs.tips i call tip hi hchain)
      · exact ⟨hs.increasing chain hchain, hs.sound chain hchain⟩
    refine ⟨fun chain h => (hchain chain h).1, fun chain h => (hchain chain h).2,
      step_held hs.holds h, fun j call' tip' hj hhub => ?_⟩
    obtain ⟨hj, hne⟩ := Held.insert_ne hs.holds h hi hj
    rw [heq, chainRows_concat, hrowHub, if_neg hne]
    exact hs.tips j call' tip' hj hhub

/-- **Whatever happens, a chain is in order, and sound from its first row on.** -/
theorem happen_ordered (hs : Ordered prims s) {e : Happening N} (hkept : DetailsKept prims s e)
    (h : happen prims s e = some s') : Ordered prims s' := by
  cases e with
  | logging e => exact logging_ordered hs hkept h
  | erasure userId now => exact erasure_ordered hs h
  | purge hubId cutoff => exact purge_ordered hs h

/-! ## What a step must not do -/

theorem Ordered.table_sound_iff (hs : Ordered prims s) : Verifies prims s.table ↔
    ∀ chain, chain ≠ some "" → Sound prims none (chainRows s.table chain) :=
  verifies_iff_sound hs.increasing

/-- Of a chain that verifies, what a purge leaves does exactly if it leaves all or nothing. -/
theorem sound_filter_iff {rows : List (Row N)} (hincreasing : Increasing rows)
    (hsound : Sound prims none rows) (cutoff : Int) :
    Sound prims none (rows.filter fun row => cutoff ≤ row.createdAt.getTime) ↔
      (∀ row ∈ rows, cutoff ≤ row.createdAt.getTime) ∨
        ∀ row ∈ rows, row.createdAt.getTime < cutoff := by
  obtain ⟨expired, heq, hexpired⟩ := exists_expired hincreasing cutoff
  rw [heq] at hsound
  rw [sound_suffix_iff hsound]
  refine or_congr ?_ ?_
  · constructor
    · rintro rfl
      rw [List.nil_append, eq_comm, List.filter_eq_self] at heq
      simpa using heq
    · intro hall
      refine List.eq_nil_iff_forall_not_mem.mpr fun row hrow => ?_
      have := hall row (heq ▸ List.mem_append_left _ hrow)
      exact absurd (hexpired row hrow) (Int.not_lt.mpr this)
  · simp [List.filter_eq_nil_iff]

theorem purge_verifies (hs : Ordered prims s) (hverifies : Verifies prims s.table)
    {hubId : String} {cutoff : Int} (h : happen prims s (.purge hubId cutoff) = some s') :
    Verifies prims s'.table ↔ Whole s (.purge hubId cutoff) := by
  have hsound := hs.table_sound_iff.mp hverifies
  rw [(purge_ordered hs h).table_sound_iff]
  obtain rfl := Option.some.inj h
  simp only [chainRows_purge, Whole]
  constructor
  · intro hafter hne
    have hchain : some hubId ≠ some "" := fun heq => hne (Option.some.inj heq)
    have := hafter (some hubId) hchain
    rw [if_pos rfl] at this
    exact (sound_filter_iff (hs.increasing _ hchain) (hsound _ hchain) cutoff).mp this
  · intro hwhole chain hchain
    split_ifs with heq
    · subst heq
      exact (sound_filter_iff (hs.increasing _ hchain) (hsound _ hchain) cutoff).mpr
        (hwhole fun heq => hchain (by rw [heq]))
    · exact hsound chain hchain

theorem insert_verifies (hs : Ordered prims s) (hverifies : Verifies prims s.table) {i : Nat}
    {id : String} {now : Int} (hkept : DetailsKept prims s (.logging (.insert i id now)))
    (h : step prims s (.insert i id now) = some s') :
    Verifies prims s'.table ↔ Whole s (.logging (.insert i id now)) := by
  have hsound := hs.table_sound_iff.mp hverifies
  rw [(logging_ordered hs hkept h).table_sound_iff]
  obtain ⟨call, tip, row, hi, -, hrow, rfl⟩ := insert_eq_some h
  have hok : HashOk prims row := hashOk_newRow hrow (hkept _ hi)
  obtain ⟨-, hrowHub, -, hprev, -⟩ := newRow_eq_some hrow
  have hlast (hhub : call.hubId ≠ some "") :
      Sound prims none (chainRows s.table call.hubId ++ [row]) ↔
        tip = tipOf (chainRows s.table call.hubId) := by
    rw [sound_append, and_iff_right (hsound _ hhub), sound_cons, hprev, ← tipOf_entryHash]
    constructor
    · rintro ⟨htip, -⟩
      rcases hs.tips i call tip hi hhub with heq | hnil
      · exact heq
      · rw [hnil] at htip ⊢
        exact Option.map_eq_none_iff.mp htip
    · rintro rfl
      exact ⟨rfl, hok, sound_nil _⟩
  simp only [Whole, TipLast, hi, Option.mem_def, Option.some.injEq, forall_eq', chainRows_concat,
    hrowHub]
  constructor
  · intro hafter hhub
    have := hafter call.hubId hhub
    rw [if_pos rfl] at this
    exact (hlast hhub).mp this
  · intro hwhole chain hchain
    split_ifs with heq
    · subst heq
      exact (hlast hchain).mpr (hwhole hchain)
    · exact hsound chain hchain

/-- **The chains verify after a step exactly if it leaves them whole.** -/
theorem happen_verifies (hs : Ordered prims s) (hverifies : Verifies prims s.table)
    {e : Happening N} (hkept : DetailsKept prims s e) (h : happen prims s e = some s') :
    Verifies prims s'.table ↔ Whole s e := by
  cases e with
  | purge hubId cutoff => exact purge_verifies hs hverifies h
  | erasure userId now =>
    refine iff_of_true ?_ trivial
    have hsound := hs.table_sound_iff.mp hverifies
    rw [(erasure_ordered hs h).table_sound_iff]
    obtain rfl := Option.some.inj h
    obtain ⟨erase, htable, herase⟩ := exists_eraseUser prims s.table userId now
    intro chain hchain
    dsimp only
    rw [htable, chainRows_map herase]
    exact (hsound chain hchain).map herase
  | logging e =>
    have hstep : step prims s e = some s' := h
    cases e with
    | insert i id now => exact insert_verifies hs hverifies hkept h
    | lock | readTip | abort =>
      rcases step_table hstep with heq | ⟨_, _, _, _, _, _, hinsert, -⟩
      · exact iff_of_true (heq ▸ hverifies) trivial
      · cases hinsert

/-! ## Runs -/

/-- **Every chain verifies all along exactly if each purge leaves its chain as it is or nothing of
it, and no row is logged after one that has been purged.** -/
theorem verifies_iff {table : List (Row N)} {events : List (Happening N)} {t : System N}
    (hincreasing : ∀ chain, chain ≠ some "" → Increasing (chainRows table chain))
    (hverifies : Verifies prims table)
    (hkept : Runs.Along (happen prims) (DetailsKept prims) { table } events)
    (hrun : Runs.run (happen prims) { table } events = some t) :
    (∀ before after m, events = before ++ after →
        Runs.run (happen prims) { table } before = some m → Verifies prims m.table) ↔
      Runs.Along (happen prims) Whole { table } events :=
  Runs.inv_iff_along_of (I := Ordered prims) (G := fun s => Verifies prims s.table)
    (fun _ _ _ hs hkept h => happen_ordered hs hkept h)
    (fun _ _ _ hs hv hkept h => happen_verifies hs hv hkept h)
    (ordered_start hincreasing hverifies) hverifies hkept hrun

/-- The chains verify after a run that leaves them whole. -/
theorem run_verifies {table : List (Row N)} {events : List (Happening N)} {t : System N}
    (hincreasing : ∀ chain, chain ≠ some "" → Increasing (chainRows table chain))
    (hverifies : Verifies prims table)
    (hkept : Runs.Along (happen prims) (DetailsKept prims) { table } events)
    (hwhole : Runs.Along (happen prims) Whole { table } events)
    (hrun : Runs.run (happen prims) { table } events = some t) : Verifies prims t.table := by
  refine (Runs.run_inv_along (I := fun s => Ordered prims s ∧ Verifies prims s.table)
    (fun s e s' hs he h => ?_) ⟨ordered_start hincreasing hverifies, hverifies⟩
    (hkept.and hwhole) hrun).2
  exact ⟨happen_ordered hs.1 he.1 h, (happen_verifies hs.1 hs.2 he.1 h).mpr he.2⟩

/-- A call of `log` that nothing interrupts. -/
def logEvents (call : LogCall N) (id : String) (now : Int) : List (Happening N) :=
  [.logging (.lock 0 call), .logging (.readTip 0), .logging (.insert 0 id now)]

/-! A hub logs on its first and its fortieth day. -/

instance (prims : AuditPrims N) (s : System N) (e : Happening N) :
    Decidable (DetailsKept prims s e) :=
  match e with
  | .logging (.insert i _ _) => inferInstanceAs (Decidable (∀ task ∈ s.tasks i, _ = _))
  | .logging (.lock ..) | .logging (.readTip _) | .logging (.abort _) => isTrue trivial
  | .erasure .. | .purge .. => isTrue trivial

instance (s : System N) (task : Audit.Task N) : Decidable (TipLast s task) :=
  match task with
  | .read .. => inferInstanceAs (Decidable (_ → _ = _))
  | .locked _ => isTrue trivial

instance (s : System N) (e : Happening N) : Decidable (Whole s e) :=
  match e with
  | .purge .. => inferInstanceAs (Decidable (_ → _ ∨ _))
  | .logging (.insert i _ _) => inferInstanceAs (Decidable (∀ task ∈ s.tasks i, TipLast s task))
  | .logging (.lock ..) | .logging (.readTip _) | .logging (.abort _) => isTrue trivial
  | .erasure .. => isTrue trivial

def sampleCall : LogCall Int := ⟨"login", sampleUser, .obj [("a", .num 1)], some "hub"⟩

def sampleEvents : List (Happening Int) :=
  logEvents sampleCall "a0" 0 ++ logEvents sampleCall "a1" 3456000000

/-- A purge for which nothing is old enough, one for which all is, and a row that is logged then. -/
def wholePurges : List (Happening Int) :=
  sampleEvents ++ .purge "hub" 0 :: .purge "hub" 4320000000 :: logEvents sampleCall "a2" 4320000001

theorem wholePurges_verify : ∃ t,
    Runs.run (happen samplePrims.toAuditPrims) {} wholePurges = some t ∧
      t.table.map Row.id = ["a2"] ∧
      ∀ before after m, wholePurges = before ++ after →
        Runs.run (happen samplePrims.toAuditPrims) {} before = some m →
          Verifies samplePrims.toAuditPrims m.table := by
  have hsome : ((Runs.run (happen samplePrims.toAuditPrims) {} wholePurges).map
      fun t => t.table.map Row.id) = some ["a2"] := by
    decide +kernel
  obtain ⟨t, ht, hids⟩ := Option.map_eq_some_iff.mp hsome
  exact ⟨t, ht, hids, (verifies_iff (fun chain _ => increasing_nil chain) (verifies_nil _)
    (by decide +kernel) ht).mpr (by decide +kernel)⟩

/-- The hub keeps its audit log for thirty days. -/
def auditSchedule : List (Setting × Moment) :=
  [({ hubId := "hub", category := .auditLog, retentionDays := 30 },
    { now := 4320000000, id := "a2", loggedAt := 4320000001 })]

/-- **The first row of a hub expires, and its chain is reported as tampered with.** -/
theorem expired_prefix : ∃ s,
    Runs.run (happen samplePrims.toAuditPrims) {} sampleEvents = some s ∧
      Verifies samplePrims.toAuditPrims s.table ∧
      ∃ t, executePurge samplePrims { auditLog := s.table } auditSchedule = some t ∧
        verifyFullChain samplePrims.toAuditPrims t.1.auditLog (some "hub") 2000 = some
          { valid := false
            totalEntries := 2
            checkedEntries := 0
            firstBrokenEntry := some
              { id := "a1"
                seqIndex := 0
                expected := none
                actual := some (sampleHash 0)
                reason := "previousEntryHash mismatch" } } := by
  have hsome : ((Runs.run (happen samplePrims.toAuditPrims) {} sampleEvents).bind fun s =>
      (executePurge samplePrims { auditLog := s.table } auditSchedule).map fun t =>
        verifyFullChain samplePrims.toAuditPrims t.1.auditLog (some "hub") 2000) = some (some
          { valid := false
            totalEntries := 2
            checkedEntries := 0
            firstBrokenEntry := some
              { id := "a1"
                seqIndex := 0
                expected := none
                actual := some (sampleHash 0)
                reason := "previousEntryHash mismatch" } }) := by
    decide +kernel
  obtain ⟨s, hs, ht⟩ := Option.bind_eq_some_iff.mp hsome
  obtain ⟨t, ht, hresult⟩ := Option.map_eq_some_iff.mp ht
  exact ⟨s, hs, run_verifies (fun chain _ => increasing_nil chain) (verifies_nil _)
    (by decide +kernel) (by decide +kernel) hs, t, ht, hresult⟩

end Llamenos.Worker.Retention
