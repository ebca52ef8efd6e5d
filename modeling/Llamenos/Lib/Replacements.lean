import Llamenos.Lib.Runs

/-!
# Overlapping replacements

Transactions that replace all the rows of a table: `DELETE` without a condition, and then an
`INSERT` for each new row, under READ COMMITTED. The `DELETE` finds the rows that are committed
when it begins, and visits them one after the other: it waits where another transaction has a row
deleted, and passes over it once that has committed. An `INSERT` fails where its key is that of a
committed row, and waits where it is that of a row that another transaction has inserted or
deleted. Where transactions wait for each other, one of them fails.

Results:
* `sound_step`: what a transaction has inserted so far is what the table holds of it.
* `rowsOf_commit`: what a commit leaves.
* `given_step`: a transaction has what it was given at its beginning.
* `lastWins_step`: **a step after which the last commit has not won**, or a transaction has failed
  because of another.
* `stored_cases`: where the last commit wins, what is stored is what one transaction was given.
-/

namespace Llamenos.Lib.Replacements

variable {ρ κ : Type}

/-- A version of a row, with the transactions that have inserted or deleted it and not ended. -/
structure Version (ρ : Type) where
  id : Nat
  row : ρ
  insertedBy : Option Nat
  deletedBy : Option Nat

inductive Transaction (ρ : Type) where
  | deleting (todo : List Nat) (rows : List ρ)
  | inserting (inserted rest : List ρ)
  | committed (rows : List ρ)
  | aborted
  /-- It has failed because of another. -/
  | failed

structure State (ρ : Type) where
  versions : List (Version ρ)
  next : Nat
  transactions : Nat → Option (Transaction ρ)

inductive Event (ρ : Type) where
  | replace (c : Nat) (rows : List ρ)
  | visit (c : Nat)
  | insert (c : Nat)
  | commit (c : Nat)
  | abort (c : Nat)
  /-- Each waits for the next, and the last one for the first, which fails. -/
  | deadlock (cycle : List Nat)

def start (rows : List ρ) : State ρ where
  versions := rows.mapIdx fun id row => ⟨id, row, none, none⟩
  next := rows.length
  transactions _ := none

/-- The rows that the transaction has inserted, or those that are committed. -/
def rowsOf (versions : List (Version ρ)) (insertedBy : Option Nat) : List ρ :=
  (versions.filter fun v => v.insertedBy = insertedBy).map Version.row

/-- The committed rows. -/
def State.stored (s : State ρ) : List ρ := rowsOf s.versions none

/-- The rows that it has inserted, as it knows them. -/
def insertedSoFar : Option (Transaction ρ) → List ρ
  | some (.inserting inserted _) => inserted
  | _ => []

def State.goOn (s : State ρ) (c : Nat) (t : Transaction ρ) (versions : List (Version ρ)) :
    State ρ :=
  { s with versions := versions, transactions := Function.update s.transactions c (some t) }

def Version.unlock (c : Nat) (v : Version ρ) : Version ρ :=
  if v.deletedBy = some c then { v with deletedBy := none } else v

def Version.publish (c : Nat) (v : Version ρ) : Version ρ :=
  if v.insertedBy = some c then { v with insertedBy := none } else v

/-- What a transaction that ends in failure leaves. -/
def State.rollback (s : State ρ) (c : Nat) (t : Transaction ρ) : State ρ :=
  s.goOn c t ((s.versions.filter fun v => v.insertedBy ≠ some c).map (Version.unlock c))

/-- It has begun, and not ended. -/
def Transaction.isOpen : Transaction ρ → Bool
  | .deleting _ _ | .inserting _ _ => true
  | .committed _ | .aborted | .failed => false

/-- The rows that it was given. -/
def Transaction.given : Transaction ρ → Option (List ρ)
  | .deleting _ rows | .committed rows => some rows
  | .inserting inserted rest => some (inserted ++ rest)
  | .aborted | .failed => none

section Step

variable [DecidableEq κ] (key : ρ → κ)

/-- The transaction cannot go on before the other ends. -/
def State.WaitsFor (s : State ρ) (c d : Nat) : Prop :=
  match s.transactions c with
  | some (.deleting (id :: _) _) =>
    ∃ v ∈ s.versions, v.id = id ∧ v.insertedBy = none ∧ v.deletedBy = some d
  | some (.inserting _ (row :: _)) =>
    ∃ v ∈ s.versions, key v.row = key row ∧ (v.insertedBy = some d ∨ v.deletedBy = some d)
  | _ => False

instance (s : State ρ) (c d : Nat) : Decidable (s.WaitsFor key c d) :=
  match h : s.transactions c with
  | some (.deleting (id :: _) _) =>
    decidable_of_iff
      (∃ v ∈ s.versions, v.id = id ∧ v.insertedBy = none ∧ v.deletedBy = some d) <| by
      simp [State.WaitsFor, h]
  | some (.inserting _ (row :: _)) =>
    decidable_of_iff (∃ v ∈ s.versions, key v.row = key row ∧
        (v.insertedBy = some d ∨ v.deletedBy = some d)) <| by
      simp [State.WaitsFor, h]
  | some (.deleting [] _) | some (.inserting _ []) | some (.committed _) | some .aborted
  | some .failed | none => isFalse <| by simp [State.WaitsFor, h]

def State.Deadlocked (s : State ρ) (cycle : List Nat) : Prop :=
  ∀ pair ∈ cycle.zip (cycle.rotate 1), pair.1 ≠ pair.2 ∧ s.WaitsFor key pair.1 pair.2

instance (s : State ρ) (cycle : List Nat) : Decidable (s.Deadlocked key cycle) :=
  inferInstanceAs (Decidable (∀ pair ∈ _, _))

/-- The versions that stand in the way of a row that the transaction inserts. -/
def State.rivals (s : State ρ) (c : Nat) (row : ρ) : List (Version ρ) :=
  s.versions.filter fun v => key v.row = key row ∧ v.deletedBy ≠ some c

/-- A committed row has the key. -/
def State.Conflicts (s : State ρ) (row : ρ) : Prop :=
  ∃ v ∈ s.versions, key v.row = key row ∧ v.insertedBy = none ∧ v.deletedBy = none

instance (s : State ρ) (row : ρ) : Decidable (s.Conflicts key row) :=
  inferInstanceAs (Decidable (∃ v ∈ _, _))

def step (s : State ρ) : Event ρ → Option (State ρ)
  | .replace c rows =>
    match s.transactions c with
    | none => some (s.goOn c (.deleting ((s.versions.filter fun v => v.insertedBy = none).map
        Version.id) rows) s.versions)
    | some _ => none
  | .visit c =>
    match s.transactions c with
    | some (.deleting [] rows) => some (s.goOn c (.inserting [] rows) s.versions)
    | some (.deleting (id :: todo) rows) =>
      match s.versions.find? fun v => v.id = id ∧ v.insertedBy = none with
      | none => some (s.goOn c (.deleting todo rows) s.versions)
      | some v =>
        if v.deletedBy = none then
          some (s.goOn c (.deleting todo rows) (s.versions.map fun w =>
            if w.id = id ∧ w.insertedBy = none then { w with deletedBy := some c } else w))
        -- it waits for the one that has the row deleted
        else none
    | _ => none
  | .insert c =>
    match s.transactions c with
    | some (.inserting inserted (row :: rest)) =>
      if s.Conflicts key row then some (s.rollback c .failed)
      else if ∃ v ∈ s.rivals key c row, v.insertedBy = some c then some (s.rollback c .aborted)
      else if s.rivals key c row = [] then
        some { s.goOn c (.inserting (inserted ++ [row]) rest)
            (s.versions ++ [⟨s.next, row, some c, none⟩]) with next := s.next + 1 }
      -- it waits for those that have inserted or deleted rows of the key
      else none
    | _ => none
  | .commit c =>
    match s.transactions c with
    | some (.inserting inserted []) =>
      some (s.goOn c (.committed inserted)
        ((s.versions.filter fun v => v.deletedBy ≠ some c).map (Version.publish c)))
    | _ => none
  | .abort c =>
    match s.transactions c with
    | some t => if t.isOpen then some (s.rollback c .aborted) else none
    | none => none
  | .deadlock cycle =>
    match cycle with
    | c :: _ => if s.Deadlocked key cycle then some (s.rollback c .failed) else none
    | [] => none

/-- What the ends of transactions tell. -/
inductive Out (ρ : Type) where
  | committed (c : Nat) (rows : List ρ)
  | failed (c : Nat)
  deriving DecidableEq

def out (s : State ρ) : Event ρ → List (Out ρ)
  | .insert c =>
    match s.transactions c with
    | some (.inserting _ (row :: _)) => if s.Conflicts key row then [.failed c] else []
    | _ => []
  | .commit c =>
    match s.transactions c with
    | some (.inserting inserted []) => [.committed c inserted]
    | _ => []
  | .deadlock (c :: _) => [.failed c]
  | .replace _ _ | .visit _ | .abort _ | .deadlock [] => []

end Step

/-! ## What the table holds -/

section Rows

variable {versions : List (Version ρ)} {whose : Option Nat} {c : Nat}

/-- What keeps the rows and who has inserted them. -/
theorem rowsOf_map {f : Version ρ → Version ρ} (hrow : ∀ v, (f v).row = v.row)
    (hby : ∀ v, (f v).insertedBy = v.insertedBy) :
    rowsOf (versions.map f) whose = rowsOf versions whose := by
  unfold rowsOf
  rw [List.filter_map, List.map_map]
  simp [Function.comp_def, hrow, hby]

theorem rowsOf_lock {id : Nat} : rowsOf (versions.map fun w =>
    if w.id = id ∧ w.insertedBy = none then { w with deletedBy := some c } else w) whose =
      rowsOf versions whose :=
  rowsOf_map (fun v => by split_ifs <;> rfl) fun v => by split_ifs <;> rfl

theorem rowsOf_append (more : List (Version ρ)) :
    rowsOf (versions ++ more) whose = rowsOf versions whose ++ rowsOf more whose := by
  simp [rowsOf]

@[simp] theorem unlock_row (v : Version ρ) : (v.unlock c).row = v.row := by
  unfold Version.unlock
  split_ifs <;> rfl

@[simp] theorem unlock_insertedBy (v : Version ρ) : (v.unlock c).insertedBy = v.insertedBy := by
  unfold Version.unlock
  split_ifs <;> rfl

@[simp] theorem publish_row (v : Version ρ) : (v.publish c).row = v.row := by
  unfold Version.publish
  split_ifs <;> rfl

@[simp] theorem publish_deletedBy (v : Version ρ) : (v.publish c).deletedBy = v.deletedBy := by
  unfold Version.publish
  split_ifs <;> rfl

theorem publish_insertedBy (v : Version ρ) :
    (v.publish c).insertedBy = if v.insertedBy = some c then none else v.insertedBy := by
  unfold Version.publish
  split_ifs <;> rfl

/-- A transaction that ends in failure takes its own rows away, and no other's. -/
theorem rowsOf_rollback :
    rowsOf ((versions.filter fun v => v.insertedBy ≠ some c).map (Version.unlock c)) whose =
      if whose = some c then [] else rowsOf versions whose := by
  rw [rowsOf_map unlock_row unlock_insertedBy]
  unfold rowsOf
  rw [List.filter_filter]
  split_ifs with hby
  · simp [hby]
  · congr 2
    funext v
    by_cases hv : v.insertedBy = whose <;> simp [hv, hby]

/-- The committed rows that the transaction has not deleted. -/
def leftovers (versions : List (Version ρ)) (c : Nat) : List ρ :=
  (versions.filter fun v => v.insertedBy = none ∧ v.deletedBy ≠ some c).map Version.row

/-- **A commit** leaves the other's rows as they are, and of the committed ones those that the
transaction has not deleted, with its own. -/
theorem rowsOf_commit (hunlocked : ∀ v ∈ versions, v.insertedBy ≠ none → v.deletedBy = none) :
    (∀ d, rowsOf ((versions.filter fun v => v.deletedBy ≠ some c).map (Version.publish c))
        (some d) = if d = c then [] else rowsOf versions (some d)) ∧
      (rowsOf ((versions.filter fun v => v.deletedBy ≠ some c).map (Version.publish c))
        none).Perm (leftovers versions c ++ rowsOf versions (some c)) := by
  constructor
  · intro d
    unfold rowsOf
    rw [List.filter_map, List.map_map, List.filter_filter]
    split_ifs with hd
    · rw [hd, List.map_eq_nil_iff, List.filter_eq_nil_iff]
      intro v _
      simp only [Function.comp_apply, publish_insertedBy]
      split_ifs <;> simp_all
    · have hrow : Version.row ∘ Version.publish c = (Version.row : Version ρ → ρ) :=
        funext fun v => publish_row v
      rw [hrow]
      congr 1
      refine List.filter_congr fun v hv => ?_
      simp only [Function.comp_apply, publish_insertedBy]
      by_cases hby : v.insertedBy = some d
      · have hfree : v.deletedBy = none := hunlocked v hv (by simp [hby])
        have hne : some d ≠ some c := fun heq => hd (Option.some.inj heq)
        simp [hby, hfree, hd]
      · split_ifs <;> simp [hby]
  · unfold rowsOf leftovers
    rw [← List.map_append, List.filter_map, List.map_map]
    have hrow : Version.row ∘ Version.publish c = (Version.row : Version ρ → ρ) :=
      funext fun v => publish_row v
    rw [hrow, List.filter_filter]
    refine List.Perm.map _ ?_
    -- the kept ones are those that were committed, and the transaction's own
    have hsplit := List.filter_append_perm (fun v : Version ρ => decide (v.insertedBy = none))
      (versions.filter fun v =>
        decide ((v.publish c).insertedBy = none) && decide (v.deletedBy ≠ some c))
    refine hsplit.symm.trans (.of_eq ?_)
    rw [List.filter_filter, List.filter_filter]
    congr 1
    · refine List.filter_congr fun v _ => ?_
      rw [publish_insertedBy]
      by_cases hby : v.insertedBy = none <;> simp [hby]
    · refine List.filter_congr fun v hv => ?_
      rw [publish_insertedBy]
      by_cases hby : v.insertedBy = some c
      · have hfree : v.deletedBy = none := hunlocked v hv (by simp [hby])
        simp [hby, hfree]
      · by_cases hnone : v.insertedBy = none <;> simp [hby, hnone]

end Rows

/-! ## What steps keep -/

/-- The table holds of each transaction what it has inserted, and no other has that deleted. -/
structure Sound (s : State ρ) : Prop where
  own : ∀ c, rowsOf s.versions (some c) = insertedSoFar (s.transactions c)
  unlocked : ∀ v ∈ s.versions, v.insertedBy ≠ none → v.deletedBy = none

variable {s s' : State ρ} {c : Nat} {t : Transaction ρ} {versions : List (Version ρ)}

theorem start_committed (rows : List ρ) : ∀ v ∈ (start rows).versions, v.insertedBy = none := by
  intro v hv
  obtain ⟨i, hi, rfl⟩ := List.mem_mapIdx.mp hv
  rfl

theorem start_stored (rows : List ρ) : (start rows).stored = rows := by
  have hall : (start rows).versions.filter (fun v => v.insertedBy = none) = (start rows).versions :=
    List.filter_eq_self.mpr fun v hv => by simpa using start_committed rows v hv
  rw [State.stored, rowsOf, hall]
  simp [start, List.mapIdx_eq_zipIdx_map, Function.comp_def]

theorem sound_start (rows : List ρ) : Sound (start rows) := by
  refine ⟨fun c => ?_, fun v hv hne => absurd (start_committed rows v hv) hne⟩
  rw [rowsOf, List.filter_eq_nil_iff.mpr]
  · rfl
  · intro v hv
    simp [start_committed rows v hv]

/-- A transaction that goes on, with what it has inserted. -/
theorem Sound.goOn (hs : Sound s) (howns : rowsOf versions (some c) = insertedSoFar (some t))
    (hothers : ∀ d ≠ c, rowsOf versions (some d) = rowsOf s.versions (some d))
    (hunlocked : ∀ v ∈ versions, v.insertedBy ≠ none → v.deletedBy = none) (next : Nat) :
    Sound { s.goOn c t versions with next := next } := by
  refine ⟨fun d => ?_, hunlocked⟩
  by_cases hd : d = c
  · simpa [State.goOn, hd] using howns
  · simpa [State.goOn, hd] using (hothers d hd).trans (hs.own d)

theorem Sound.keep (hs : Sound s) (hc : insertedSoFar (s.transactions c) = [])
    (ht : insertedSoFar (some t) = []) : Sound (s.goOn c t s.versions) :=
  hs.goOn (by rw [hs.own c, hc, ht]) (fun _ _ => rfl) hs.unlocked s.next

theorem Sound.rollback (hs : Sound s) (ht : insertedSoFar (some t) = []) :
    Sound (s.rollback c t) := by
  refine hs.goOn ?_ (fun d hd => ?_) (fun v hv hne => ?_) s.next
  · rw [rowsOf_rollback, if_pos rfl, ht]
  · rw [rowsOf_rollback, if_neg fun heq => hd (Option.some.inj heq)]
  · obtain ⟨w, hw, rfl⟩ := List.mem_map.mp hv
    rw [unlock_insertedBy] at hne
    have hfree := hs.unlocked w (List.mem_filter.mp hw).1 hne
    simp [Version.unlock, hfree]

/-- A committed row is marked as deleted. -/
theorem Sound.lock (hs : Sound s) (id : Nat) (hc : insertedSoFar (s.transactions c) = [])
    (ht : insertedSoFar (some t) = []) : Sound (s.goOn c t (s.versions.map fun w =>
      if w.id = id ∧ w.insertedBy = none then { w with deletedBy := some c } else w)) := by
  refine hs.goOn ?_ (fun d _ => rowsOf_lock) (fun v hv hne => ?_) s.next
  · rw [rowsOf_lock, hs.own c, hc, ht]
  · obtain ⟨w, hw, rfl⟩ := List.mem_map.mp hv
    split_ifs at hne ⊢ with hlocked
    · exact absurd hlocked.2 hne
    · exact hs.unlocked w hw hne

/-- A row is inserted. -/
theorem Sound.insert (hs : Sound s) {inserted rest : List ρ} {row : ρ}
    (hc : s.transactions c = some (.inserting inserted (row :: rest))) (next : Nat) :
    Sound { s.goOn c (.inserting (inserted ++ [row]) rest)
      (s.versions ++ [⟨s.next, row, some c, none⟩]) with next := next } := by
  refine hs.goOn ?_ (fun d hd => ?_) (fun v hv hne => ?_) next
  · rw [rowsOf_append, hs.own c, hc]
    simp [rowsOf, insertedSoFar]
  · rw [rowsOf_append]
    simp [rowsOf, Ne.symm hd]
  · rcases List.mem_append.mp hv with hold | hnew
    · exact hs.unlocked v hold hne
    · rw [List.mem_singleton.mp hnew]

/-- What has been inserted is committed. -/
theorem Sound.commit (hs : Sound s) (inserted : List ρ) :
    Sound (s.goOn c (.committed inserted)
      ((s.versions.filter fun v => v.deletedBy ≠ some c).map (Version.publish c))) := by
  obtain ⟨hothers, -⟩ := rowsOf_commit (c := c) hs.unlocked
  refine hs.goOn ?_ (fun d hd => ?_) (fun v hv hne => ?_) s.next
  · rw [hothers, if_pos rfl]
    rfl
  · rw [hothers, if_neg hd]
  · obtain ⟨w, hw, rfl⟩ := List.mem_map.mp hv
    rw [publish_deletedBy]
    refine hs.unlocked w (List.mem_filter.mp hw).1 fun hnone => hne ?_
    simp [publish_insertedBy, hnone]

theorem rollback_stored : (s.rollback c t).stored = s.stored := by
  unfold State.stored State.rollback State.goOn
  rw [rowsOf_rollback, if_neg (by simp)]

section Step

variable [DecidableEq κ] {key : ρ → κ} {e : Event ρ}

/-- What is inserted meets no committed row of its key, what commits has deleted all the committed
rows, and no transactions wait for each other. -/
def Alone (key : ρ → κ) (s : State ρ) : Event ρ → Prop
  | .insert c => ∀ inserted row rest,
      s.transactions c = some (.inserting inserted (row :: rest)) → ¬ s.Conflicts key row
  | .commit c => leftovers s.versions c = []
  | .deadlock _ => False
  | .replace _ _ | .visit _ | .abort _ => True

instance (s : State ρ) : ∀ e, Decidable (Alone key s e)
  | .insert c =>
    match hc : s.transactions c with
    | some (.inserting inserted (row :: rest)) =>
      decidable_of_iff (¬ s.Conflicts key row) <| by
        constructor
        · intro h inserted' row' rest' hc'
          rw [hc] at hc'
          cases hc'
          exact h
        · exact fun h => h inserted row rest hc
    | some (.inserting _ []) | some (.deleting _ _) | some (.committed _) | some .aborted
    | some .failed | none => isTrue fun _ _ _ h => by rw [hc] at h; cases h
  | .commit c => inferInstanceAs (Decidable (leftovers s.versions c = []))
  | .deadlock _ => isFalse id
  | .replace _ _ | .visit _ | .abort _ => isTrue trivial

/-- What a step is: it leaves the committed rows, it fails because of another, or it commits. -/
inductive Moves (key : ρ → κ) (s s' : State ρ) : Event ρ → Prop where
  | quiet (e : Event ρ) (halone : Alone key s e) (hstored : s'.stored = s.stored)
      (hout : out key s e = []) : Moves key s s' e
  | conflicts (c : Nat) (inserted rest : List ρ) (row : ρ)
      (hc : s.transactions c = some (.inserting inserted (row :: rest)))
      (hconflicts : s.Conflicts key row) (hstored : s'.stored = s.stored)
      (hout : out key s (.insert c) = [.failed c]) : Moves key s s' (.insert c)
  | commits (c : Nat) (inserted : List ρ) (hc : s.transactions c = some (.inserting inserted []))
      (hstored : s'.stored.Perm (leftovers s.versions c ++ inserted))
      (hout : out key s (.commit c) = [.committed c inserted]) : Moves key s s' (.commit c)
  | deadlock (c : Nat) (cycle : List Nat) (hstored : s'.stored = s.stored)
      (hout : out key s (.deadlock (c :: cycle)) = [.failed c]) :
      Moves key s s' (.deadlock (c :: cycle))

/-- **What a step keeps**, and what it is. -/
theorem sound_step (hs : Sound s) (h : step key s e = some s') : Sound s' ∧ Moves key s s' e := by
  cases e with
  | replace c rows =>
    simp only [step] at h
    split at h
    next hc =>
      obtain rfl := Option.some.inj h
      exact ⟨hs.keep (by rw [hc]; rfl) rfl, .quiet _ trivial rfl rfl⟩
    next => cases h
  | visit c =>
    simp only [step] at h
    split at h
    next rows hc =>
      obtain rfl := Option.some.inj h
      exact ⟨hs.keep (by rw [hc]; rfl) rfl, .quiet _ trivial rfl rfl⟩
    next id todo rows hc =>
      split at h
      · obtain rfl := Option.some.inj h
        exact ⟨hs.keep (by rw [hc]; rfl) rfl, .quiet _ trivial rfl rfl⟩
      · split_ifs at h
        obtain rfl := Option.some.inj h
        exact ⟨hs.lock id (by rw [hc]; rfl) rfl, .quiet _ trivial rowsOf_lock rfl⟩
    next => cases h
  | insert c =>
    simp only [step] at h
    split at h
    next inserted row rest hc =>
      have halone : ¬ s.Conflicts key row → Alone key s (.insert c) := by
        intro hconflicts inserted' row' rest' hc'
        rw [hc] at hc'
        cases hc'
        exact hconflicts
      split_ifs at h with hconflicts howns hfree
      · obtain rfl := Option.some.inj h
        refine ⟨hs.rollback rfl, .conflicts c inserted rest row hc hconflicts rollback_stored ?_⟩
        simp [out, hc, hconflicts]
      · obtain rfl := Option.some.inj h
        exact ⟨hs.rollback rfl,
          .quiet _ (halone hconflicts) rollback_stored (by simp [out, hc, hconflicts])⟩
      · obtain rfl := Option.some.inj h
        refine ⟨hs.insert hc _, .quiet _ (halone hconflicts) ?_ ?_⟩
        · simp [State.stored, State.goOn, rowsOf]
        · simp [out, hc, hconflicts]
    next => cases h
  | commit c =>
    simp only [step] at h
    split at h
    next inserted hc =>
      obtain rfl := Option.some.inj h
      have hstored := (rowsOf_commit (c := c) hs.unlocked).2
      refine ⟨hs.commit inserted, .commits c inserted hc ?_ ?_⟩
      · rwa [hs.own c, hc] at hstored
      · simp [out, hc]
    next => cases h
  | abort c =>
    simp only [step] at h
    split at h
    · split_ifs at h
      obtain rfl := Option.some.inj h
      exact ⟨hs.rollback rfl, .quiet _ trivial rollback_stored rfl⟩
    · cases h
  | deadlock cycle =>
    simp only [step] at h
    split at h
    · split_ifs at h
      obtain rfl := Option.some.inj h
      exact ⟨hs.rollback rfl, .deadlock _ _ rollback_stored rfl⟩
    · cases h

/-- A transaction that goes on has what it had been given. -/
theorem goOn_given {d : Nat} {t u : Transaction ρ} {rows : List ρ}
    (hd : Function.update s.transactions c (some t) d = some u) (hu : u.given = some rows)
    (ht : ∀ rows, t.given = some rows → ∃ t', s.transactions c = some t' ∧ t'.given = some rows) :
    ∃ t', s.transactions d = some t' ∧ t'.given = some rows := by
  rcases Runs.update_eq_some hd with ⟨rfl, hnew⟩ | ⟨-, hold⟩
  · exact ht rows (Option.some.inj hnew ▸ hu)
  · exact ⟨u, hold, hu⟩

/-- **What a transaction has been given**, it has from its beginning. -/
theorem given_step (h : step key s e = some s') {c : Nat} {t : Transaction ρ} {rows : List ρ}
    (hc : s'.transactions c = some t) (ht : t.given = some rows) :
    e = .replace c rows ∨ ∃ t', s.transactions c = some t' ∧ t'.given = some rows := by
  cases e with
  | replace d new =>
    simp only [step] at h
    split at h
    · obtain rfl := Option.some.inj h
      rcases Runs.update_eq_some hc with ⟨rfl, hnew⟩ | ⟨-, hold⟩
      · obtain rfl := Option.some.inj hnew
        exact .inl (congrArg _ (Option.some.inj ht))
      · exact .inr ⟨t, hold, ht⟩
    · cases h
  | visit d =>
    simp only [step] at h
    split at h
    next new hd =>
      obtain rfl := Option.some.inj h
      exact .inr (goOn_given hc ht fun rows hrows => ⟨_, hd, hrows⟩)
    next id todo new hd =>
      split at h
      · obtain rfl := Option.some.inj h
        exact .inr (goOn_given hc ht fun rows hrows => ⟨_, hd, hrows⟩)
      · split_ifs at h
        obtain rfl := Option.some.inj h
        exact .inr (goOn_given hc ht fun rows hrows => ⟨_, hd, hrows⟩)
    next => cases h
  | insert d =>
    simp only [step] at h
    split at h
    next inserted row rest hd =>
      split_ifs at h
      · obtain rfl := Option.some.inj h
        exact .inr (goOn_given hc ht fun rows hrows => by cases hrows)
      · obtain rfl := Option.some.inj h
        exact .inr (goOn_given hc ht fun rows hrows => by cases hrows)
      · obtain rfl := Option.some.inj h
        refine .inr (goOn_given hc ht fun rows hrows => ⟨_, hd, ?_⟩)
        simpa [Transaction.given] using hrows
    next => cases h
  | commit d =>
    simp only [step] at h
    split at h
    next inserted hd =>
      obtain rfl := Option.some.inj h
      refine .inr (goOn_given hc ht fun rows hrows => ⟨_, hd, ?_⟩)
      simpa [Transaction.given] using hrows
    next => cases h
  | abort d =>
    simp only [step] at h
    split at h
    · split_ifs at h
      obtain rfl := Option.some.inj h
      exact .inr (goOn_given hc ht fun rows hrows => by cases hrows)
    · cases h
  | deadlock cycle =>
    simp only [step] at h
    split at h
    · split_ifs at h
      obtain rfl := Option.some.inj h
      exact .inr (goOn_given hc ht fun rows hrows => by cases hrows)
    · cases h

/-! ## The last commit wins -/

/-- The rows that the last commit was given, or those at the beginning. -/
def lastRows (initial : List ρ) (outs : List (Out ρ)) : List ρ :=
  outs.foldl (fun rows w => match w with | .committed _ new => new | .failed _ => rows) initial

/-- No transaction has failed because of another, and what is stored is what the last one to commit
was given. -/
def LastWins (initial : List ρ) (p : State ρ × List (Out ρ)) : Prop :=
  (∀ c, .failed c ∉ p.2) ∧ p.1.stored.Perm (lastRows initial p.2)

/-- **The last commit wins after a step** exactly if the transaction is alone in it. -/
theorem lastWins_step {initial : List ρ} {outs : List (Out ρ)} (hmoves : Moves key s s' e)
    (h : LastWins initial (s, outs)) :
    LastWins initial (s', outs ++ out key s e) ↔ Alone key s e := by
  cases hmoves with
  | quiet e halone hstored hout =>
    rw [hout, List.append_nil]
    exact iff_of_true ⟨h.1, hstored ▸ h.2⟩ halone
  | conflicts c inserted rest row hc hconflicts hstored hout =>
    rw [hout]
    exact iff_of_false (fun hwins => hwins.1 c (by simp)) fun halone =>
      halone inserted row rest hc hconflicts
  | commits c inserted hc hstored hout =>
    have hlast : lastRows initial (outs ++ [.committed c inserted]) = inserted := by
      simp [lastRows]
    rw [hout]
    constructor
    · rintro ⟨-, hwins⟩
      rw [hlast] at hwins
      have hlength := (hstored.symm.trans hwins).length_eq
      rw [List.length_append] at hlength
      exact List.eq_nil_of_length_eq_zero (by omega)
    · intro halone
      rw [show leftovers s.versions c = [] from halone, List.nil_append] at hstored
      refine ⟨fun d => by simpa using h.1 d, ?_⟩
      rw [hlast]
      exact hstored
  | deadlock c cycle hstored hout =>
    rw [hout]
    exact iff_of_false (fun hwins => hwins.1 c (by simp)) id

end Step

/-- What the last commit was given is what one transaction was, or nothing has been committed. -/
theorem stored_cases (initial : List ρ) (outs : List (Out ρ)) :
    (lastRows initial outs = initial ∧ ∀ c rows, .committed c rows ∉ outs) ∨
      ∃ c, .committed c (lastRows initial outs) ∈ outs := by
  induction outs using List.reverseRecOn with
  | nil => exact .inl ⟨rfl, by simp⟩
  | append_singleton outs w ih =>
    cases w with
    | committed c rows => exact .inr ⟨c, by simp [lastRows]⟩
    | failed c =>
      have hsame : lastRows initial (outs ++ [.failed c]) = lastRows initial outs := by
        simp [lastRows]
      rw [hsame]
      refine ih.imp (fun hnone => ⟨hnone.1, ?_⟩) fun ⟨d, hd⟩ => ⟨d, List.mem_append_left _ hd⟩
      simpa using hnone.2

end Llamenos.Lib.Replacements
