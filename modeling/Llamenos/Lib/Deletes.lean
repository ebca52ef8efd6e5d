import Llamenos.Lib.Runs
import Mathlib.Data.List.Nodup

/-!
# Overlapping deletes

`DELETE ... RETURNING` in a table whose rows have a name. A delete finds the rows that meet its
condition, and visits them one after the other: it locks the row if it is still there, and waits
where another has it locked. When it commits, its rows leave the table, and it returns them; if it
is aborted, it leaves them as they were. Inserts and other deletes come in between as they like.

Results:
* `step_conserves`: a step's inserted rows are added to those that are stored, and its returned ones
  are taken from them.
* `run_conserves`: **every inserted row is stored or returned**, as many times as it was inserted.
* `mem_returned_matches`: a delete returns rows that meet its condition.
* `kept_of_step`: what a delete does not return, it leaves stored.
-/

namespace Llamenos.Lib.Deletes

variable {ρ κ γ : Type}

/-- A row of the table, and the delete that has it locked. -/
structure Entry (ρ : Type) where
  row : ρ
  lockedBy : Option Nat

/-- A delete: it has some rows to visit, and others got. -/
inductive Delete (ρ κ γ : Type) where
  | running (cond : γ) (todo : List κ) (got : List ρ)
  | returned (got : List ρ)
  | failed

structure State (ρ κ γ : Type) where
  entries : List (Entry ρ)
  deletes : Nat → Option (Delete ρ κ γ)

inductive Event (ρ γ : Type) where
  | insert (rows : List ρ)
  | delete (d : Nat) (cond : γ)
  | visit (d : Nat)
  | commit (d : Nat)
  | abort (d : Nat)

/-- What a step tells: rows that it has inserted, and rows that a delete returns. -/
inductive Out (ρ γ : Type) where
  | inserted (row : ρ)
  | returned (d : Nat) (cond : γ) (row : ρ)

def start : State ρ κ γ := ⟨[], fun _ => none⟩

def State.stored (s : State ρ κ γ) : List ρ := s.entries.map Entry.row

/-- The rows that the delete has locked. -/
def State.lockedRows (s : State ρ κ γ) (d : Nat) : List ρ :=
  (s.entries.filter fun entry => entry.lockedBy = some d).map Entry.row

def Entry.unlock (d : Nat) (entry : Entry ρ) : Entry ρ :=
  if entry.lockedBy = some d then { entry with lockedBy := none } else entry

def State.update (s : State ρ κ γ) (d : Nat) (delete : Delete ρ κ γ) (entries : List (Entry ρ)) :
    State ρ κ γ :=
  ⟨entries, Function.update s.deletes d (some delete)⟩

section Step

variable [DecidableEq κ] (name : ρ → κ) (Matches : γ → ρ → Prop)
  [∀ cond, DecidablePred (Matches cond)]

def Entry.lock (d : Nat) (k : κ) (entry : Entry ρ) : Entry ρ :=
  if name entry.row = k then { entry with lockedBy := some d } else entry

/-- The names of the new rows are free. -/
def State.Admits (s : State ρ κ γ) (rows : List ρ) : Prop :=
  (rows.map name).Nodup ∧ ∀ row ∈ rows, name row ∉ s.stored.map name

instance (s : State ρ κ γ) (rows : List ρ) : Decidable (s.Admits name rows) :=
  inferInstanceAs (Decidable (_ ∧ _))

def step (s : State ρ κ γ) : Event ρ γ → Option (State ρ κ γ)
  | .insert rows =>
    if s.Admits name rows then
      some { s with entries := s.entries ++ rows.map fun row => ⟨row, none⟩ }
    else some s
  | .delete d cond =>
    match s.deletes d with
    | none => some (s.update d (.running cond ((s.stored.filter (Matches cond)).map name) [])
        s.entries)
    | some _ => none
  | .visit d =>
    match s.deletes d with
    | some (.running cond (k :: todo) got) =>
      match s.entries.find? fun entry => name entry.row = k ∧ Matches cond entry.row with
      | none => some (s.update d (.running cond todo got) s.entries)
      | some ⟨row, none⟩ =>
        some (s.update d (.running cond todo (got ++ [row])) (s.entries.map (Entry.lock name d k)))
      -- it waits for the one that has the row locked
      | some ⟨_, some _⟩ => none
    | _ => none
  | .commit d =>
    match s.deletes d with
    | some (.running _ [] got) =>
      some (s.update d (.returned got) (s.entries.filter fun entry => entry.lockedBy ≠ some d))
    | _ => none
  | .abort d =>
    match s.deletes d with
    | some (.running _ _ _) => some (s.update d .failed (s.entries.map (Entry.unlock d)))
    | _ => none

def out (s : State ρ κ γ) : Event ρ γ → List (Out ρ γ)
  | .insert rows => if s.Admits name rows then rows.map .inserted else []
  | .commit d =>
    match s.deletes d with
    | some (.running cond [] got) => got.map (.returned d cond)
    | _ => []
  | _ => []

end Step

def inserted (outs : List (Out ρ γ)) : List ρ :=
  outs.filterMap fun | .inserted row => some row | .returned _ _ _ => none

def returned (outs : List (Out ρ γ)) : List ρ :=
  outs.filterMap fun | .inserted _ => none | .returned _ _ row => some row

/-! ## What the deletes have -/

/-- The names are those of one row each, a running delete has got just the rows that it has locked,
which meet its condition, and no other has rows locked. -/
structure Sound (name : ρ → κ) (Matches : γ → ρ → Prop) (s : State ρ κ γ) : Prop where
  names : (s.stored.map name).Nodup
  got : ∀ d cond todo got, s.deletes d = some (.running cond todo got) → got.Perm (s.lockedRows d)
  matching : ∀ d cond todo got, s.deletes d = some (.running cond todo got) →
    ∀ row ∈ got, Matches cond row
  idle : ∀ d, (∀ cond todo got, s.deletes d ≠ some (.running cond todo got)) → s.lockedRows d = []

variable {name : ρ → κ} {Matches : γ → ρ → Prop} {s s' : State ρ κ γ}

theorem start_sound : Sound name Matches (start : State ρ κ γ) where
  names := List.nodup_nil
  got _ _ _ _ h := by cases h
  matching _ _ _ _ h := by cases h
  idle _ _ := rfl

/-- The rows that a delete has locked after another has moved. -/
theorem Sound.update_other (hs : Sound name Matches s) {d : Nat} {delete : Delete ρ κ γ}
    {entries : List (Entry ρ)}
    (hnames : ((entries.map Entry.row).map name).Nodup)
    (hlocked : ∀ d', d' ≠ d → (s.update d delete entries).lockedRows d' = s.lockedRows d')
    (hgot : ∀ cond todo got, delete = .running cond todo got →
      got.Perm ((s.update d delete entries).lockedRows d) ∧ ∀ row ∈ got, Matches cond row)
    (hidle : (∀ cond todo got, delete ≠ .running cond todo got) →
      (s.update d delete entries).lockedRows d = []) :
    Sound name Matches (s.update d delete entries) where
  names := hnames
  got d' cond todo got h := by
    rcases Runs.update_eq_some h with ⟨rfl, hnew⟩ | ⟨hne, hold⟩
    · exact (hgot cond todo got (Option.some.inj hnew)).1
    · rw [hlocked d' hne]
      exact hs.got d' cond todo got hold
  matching d' cond todo got h := by
    rcases Runs.update_eq_some h with ⟨rfl, hnew⟩ | ⟨hne, hold⟩
    · exact (hgot cond todo got (Option.some.inj hnew)).2
    · exact hs.matching d' cond todo got hold
  idle d' h := by
    by_cases hd : d' = d
    · subst hd
      refine hidle fun cond todo got hrunning => h cond todo got ?_
      exact (Function.update_self d' _ _).trans (congrArg some hrunning)
    · rw [hlocked d' hd]
      refine hs.idle d' fun cond todo got hold => h cond todo got ?_
      exact (Function.update_of_ne hd _ _).trans hold

/-- A delete that has moved on with its rows to visit. -/
theorem Sound.skip (hs : Sound name Matches s) {d : Nat} {cond : γ} {todo todo' : List κ}
    {got : List ρ} (hd : s.deletes d = some (.running cond todo' got)) :
    Sound name Matches (s.update d (.running cond todo got) s.entries) := by
  refine hs.update_other hs.names (fun _ _ => rfl) ?_ fun h => absurd rfl (h cond todo got)
  intro cond' todo'' got' h
  cases h
  exact ⟨hs.got d cond todo' got hd, hs.matching d cond todo' got hd⟩

section Entries

variable {entries : List (Entry ρ)} {d d' : Nat}

@[simp] theorem unlock_row (entry : Entry ρ) : (entry.unlock d).row = entry.row := by
  unfold Entry.unlock
  split_ifs <;> rfl

/-- A delete that lets go leaves the locks of the others. -/
theorem lockedRows_unlock_of_ne (h : d' ≠ d) :
    ((entries.map (Entry.unlock d)).filter fun entry => entry.lockedBy = some d').map Entry.row =
      (entries.filter fun entry => entry.lockedBy = some d').map Entry.row := by
  have hlock : ((fun entry : Entry ρ => decide (entry.lockedBy = some d')) ∘ Entry.unlock d) =
      fun entry => decide (entry.lockedBy = some d') := by
    funext entry
    by_cases hd : entry.lockedBy = some d
    · simp [Entry.unlock, hd, Ne.symm h]
    · simp [Entry.unlock, hd]
  have hrow : (Entry.row ∘ Entry.unlock d : Entry ρ → ρ) = Entry.row := by
    funext entry
    exact unlock_row entry
  rw [List.filter_map, List.map_map, hlock, hrow]

theorem lockedRows_unlock_self :
    ((entries.map (Entry.unlock d)).filter fun entry => entry.lockedBy = some d) = [] := by
  rw [List.filter_eq_nil_iff]
  intro entry hentry
  obtain ⟨old, -, rfl⟩ := List.mem_map.mp hentry
  unfold Entry.unlock
  split_ifs with h
  · simp
  · simpa using h

variable [DecidableEq κ]

/-- The row of a name is locked, and no other. -/
theorem map_lock_eq {before after : List (Entry ρ)} {row : ρ}
    (hnames : (((before ++ ⟨row, none⟩ :: after).map Entry.row).map name).Nodup) :
    (before ++ ⟨row, none⟩ :: after).map (Entry.lock name d (name row)) =
      before ++ ⟨row, some d⟩ :: after := by
  have hothers : ∀ entry ∈ before ++ after, name entry.row ≠ name row := by
    rw [List.map_map, List.map_append, List.map_cons, List.nodup_middle, List.nodup_cons] at hnames
    intro entry hentry hname
    refine hnames.1 ?_
    rw [← List.map_append]
    exact List.mem_map.mpr ⟨entry, hentry, hname⟩
  have hkeep : ∀ entries : List (Entry ρ), entries ⊆ before ++ after →
      entries.map (Entry.lock name d (name row)) = entries := by
    intro entries hsub
    refine (List.map_congr_left fun entry hentry => ?_).trans (List.map_id entries)
    exact if_neg (hothers entry (hsub hentry))
  rw [List.map_append, List.map_cons, hkeep before (List.subset_append_left _ _),
    hkeep after (List.subset_append_right _ _)]
  simp [Entry.lock]

end Entries

/-- New rows are not locked. -/
theorem insert_sound (hs : Sound name Matches s) {rows : List ρ} (hadmits : s.Admits name rows) :
    Sound name Matches { s with entries := s.entries ++ rows.map fun row => ⟨row, none⟩ } := by
  have hlocked : ∀ d, State.lockedRows
      { s with entries := s.entries ++ rows.map fun row => ⟨row, none⟩ } d = s.lockedRows d := by
    intro d
    have hnone : (rows.map fun row => (⟨row, none⟩ : Entry ρ)).filter
        (fun entry => entry.lockedBy = some d) = [] := by
      rw [List.filter_map, List.map_eq_nil_iff, List.filter_eq_nil_iff]
      intro row _
      simp
    rw [State.lockedRows, List.filter_append, hnone, List.append_nil]
    rfl
  refine ⟨?_, fun d cond todo got h => ?_, hs.matching, fun d h => ?_⟩
  · have hstored : State.stored { s with entries := s.entries ++ rows.map fun row => ⟨row, none⟩ } =
        s.stored ++ rows := by
      simp [State.stored, Function.comp_def]
    rw [hstored, List.map_append]
    refine hs.names.append hadmits.1 fun k hold hnew => ?_
    obtain ⟨row, hrow, rfl⟩ := List.mem_map.mp hnew
    exact hadmits.2 row hrow hold
  · rw [hlocked]
    exact hs.got d cond todo got h
  · rw [hlocked]
    exact hs.idle d h

/-- A delete that commits leaves the rows of the others. -/
theorem commit_sound (hs : Sound name Matches s) (d : Nat) (got : List ρ) :
    Sound name Matches
      (s.update d (.returned got) (s.entries.filter fun entry => entry.lockedBy ≠ some d)) := by
  have hnames : (((s.entries.filter fun entry => entry.lockedBy ≠ some d).map Entry.row).map
      name).Nodup := hs.names.sublist ((List.filter_sublist.map _).map _)
  refine hs.update_other hnames (fun d' hne => ?_) (fun _ _ _ hrun => by cases hrun) fun _ => ?_
  · simp only [State.lockedRows, State.update, List.filter_filter]
    congr 1
    refine List.filter_congr fun entry _ => ?_
    by_cases hd' : entry.lockedBy = some d'
    · simp [hd', hne]
    · simp [hd']
  · simp [State.lockedRows, State.update, List.filter_filter]

/-- A delete that is aborted lets its rows go. -/
theorem abort_sound (hs : Sound name Matches s) (d : Nat) :
    Sound name Matches (s.update d .failed (s.entries.map (Entry.unlock d))) := by
  have hrows : (s.entries.map (Entry.unlock d)).map Entry.row = s.stored := by
    rw [List.map_map]
    exact List.map_congr_left fun entry _ => unlock_row entry
  refine hs.update_other (hrows ▸ hs.names) (fun d' hne => lockedRows_unlock_of_ne hne)
    (fun _ _ _ hrun => by cases hrun) fun _ => ?_
  exact (congrArg (List.map Entry.row) lockedRows_unlock_self).trans List.map_nil

theorem mem_returned {outs : List (Out ρ γ)} {row : ρ} :
    row ∈ returned outs ↔ ∃ d cond, .returned d cond row ∈ outs := by
  unfold returned
  rw [List.mem_filterMap]
  constructor
  · rintro ⟨_ | ⟨d, cond, _⟩, hmem, heq⟩
    · cases heq
    · cases heq
      exact ⟨d, cond, hmem⟩
  · rintro ⟨d, cond, hmem⟩
    exact ⟨_, hmem, rfl⟩

/-- A row that is returned once is returned by one delete. -/
theorem eq_of_returned {outs : List (Out ρ γ)} (hnodup : (returned outs).Nodup) {d d' : Nat}
    {cond cond' : γ} {row : ρ} (h : .returned d cond row ∈ outs)
    (h' : .returned d' cond' row ∈ outs) : d = d' ∧ cond = cond' := by
  induction outs with
  | nil => cases h
  | cons o outs ih =>
    have hrest : ∀ d cond, .returned d cond row ∈ outs → row ∈ returned outs :=
      fun d cond hmem => mem_returned.mpr ⟨d, cond, hmem⟩
    rcases List.mem_cons.mp h with rfl | hin <;> rcases List.mem_cons.mp h' with heq | hin'
    · cases heq
      exact ⟨rfl, rfl⟩
    · exact absurd (hrest d' cond' hin') (List.nodup_cons.mp hnodup).1
    · rw [← heq] at hnodup
      exact absurd (hrest d cond hin) (List.nodup_cons.mp hnodup).1
    · exact ih (hnodup.sublist ((List.sublist_cons_self o outs).filterMap _)) hin hin'

/-- **A delete returns rows that meet its condition.** -/
theorem mem_returned_matches [DecidableEq κ] (hs : Sound name Matches s) {e : Event ρ γ} {d : Nat}
    {cond : γ} {row : ρ} (h : .returned d cond row ∈ out name s e) : Matches cond row := by
  cases e with
  | commit d' =>
    dsimp only [out] at h
    split at h
    · rename_i cond' got hd
      obtain ⟨other, hother, heq⟩ := List.mem_map.mp h
      cases heq
      exact hs.matching d cond [] got hd row hother
    · cases h
  | insert rows =>
    dsimp only [out] at h
    split_ifs at h
    · obtain ⟨_, _, heq⟩ := List.mem_map.mp h
      cases heq
    · cases h
  | delete _ _ | visit _ | abort _ => cases h

/-- What has come in, and what comes in next, is there or has gone out. -/
theorem conserves_trans {came there went came' there' went' : List ρ}
    (h : came.Perm (there ++ went)) (h' : (there ++ came').Perm (there' ++ went')) :
    (came ++ came').Perm (there' ++ (went ++ went')) := by
  have hcame : (there ++ went ++ came').Perm (there ++ came' ++ went) := by
    rw [List.append_assoc, List.append_assoc]
    exact List.perm_append_comm.append_left there
  have hwent : (there' ++ went' ++ went).Perm (there' ++ (went ++ went')) := by
    rw [List.append_assoc]
    exact List.perm_append_comm.append_left there'
  exact (h.append_right came').trans (hcame.trans ((h'.append_right went).trans hwent))

section Steps

variable [DecidableEq κ] [∀ cond, DecidablePred (Matches cond)] {d : Nat}

/-- A visit takes no row from the table. -/
theorem visit_sound (hs : Sound name Matches s) (h : step name Matches s (.visit d) = some s') :
    Sound name Matches s' ∧ s'.stored = s.stored := by
  dsimp only [step] at h
  split at h
  · rename_i cond k todo got hd
    split at h
    · obtain rfl := Option.some.inj h
      exact ⟨hs.skip hd, rfl⟩
    · rename_i row hfind
      obtain rfl := Option.some.inj h
      have hfound := List.find?_some hfind
      rw [decide_eq_true_eq] at hfound
      obtain ⟨before, after, hentries⟩ := List.append_of_mem (List.mem_of_find?_eq_some hfind)
      have hnames := hs.names
      rw [State.stored, hentries] at hnames
      have hlock : s.entries.map (Entry.lock name d k) = before ++ ⟨row, some d⟩ :: after := by
        rw [hentries, ← hfound.1]
        exact map_lock_eq hnames
      rw [hlock]
      have hgot : (got ++ [row]).Perm (((before ++ ⟨row, some d⟩ :: after).filter
          fun entry => entry.lockedBy = some d).map Entry.row) := by
        have hold := (hs.got d cond (k :: todo) got hd).append_right [row]
        rw [State.lockedRows, hentries] at hold
        refine hold.trans ((List.perm_append_singleton row _).trans ?_)
        simpa using List.perm_middle.symm
      refine ⟨hs.update_other (by simpa using hnames) (fun d' hne => ?_) (fun _ _ _ hrun => ?_)
        fun hidle => absurd rfl (hidle cond todo _), ?_⟩
      · simp [State.lockedRows, State.update, hentries, Ne.symm hne]
      · cases hrun
        refine ⟨hgot, fun other hother => ?_⟩
        rcases List.mem_append.mp hother with hold | hnew
        · exact hs.matching d cond (k :: todo) got hd other hold
        · exact List.mem_singleton.mp hnew ▸ hfound.2
      · simp [State.stored, State.update, hentries]
    · cases h
  · cases h

theorem step_sound (hs : Sound name Matches s) (e : Event ρ γ)
    (h : step name Matches s e = some s') : Sound name Matches s' := by
  cases e with
  | insert rows =>
    dsimp only [step] at h
    split_ifs at h with hadmits
    · exact Option.some.inj h ▸ insert_sound hs hadmits
    · exact Option.some.inj h ▸ hs
  | delete d cond =>
    dsimp only [step] at h
    split at h
    · rename_i hd
      obtain rfl := Option.some.inj h
      have hnone : s.lockedRows d = [] := by
        refine hs.idle d fun cond todo got hrunning => ?_
        rw [hd] at hrunning
        cases hrunning
      refine hs.update_other hs.names (fun _ _ => rfl) (fun _ _ _ hrun => ?_)
        fun hidle => absurd rfl (hidle _ _ _)
      cases hrun
      exact ⟨(congrArg (List.Perm []) hnone).mpr (.refl _), nofun⟩
    · cases h
  | visit d => exact (visit_sound hs h).1
  | commit d =>
    dsimp only [step] at h
    split at h
    · exact Option.some.inj h ▸ commit_sound hs d _
    · cases h
  | abort d =>
    dsimp only [step] at h
    split at h
    · exact Option.some.inj h ▸ abort_sound hs d
    · cases h

/-- **A step's inserted rows come to those that are stored, and its returned ones go.** -/
theorem step_conserves (hs : Sound name Matches s) (e : Event ρ γ)
    (h : step name Matches s e = some s') :
    (s.stored ++ inserted (out name s e)).Perm (s'.stored ++ returned (out name s e)) := by
  cases e with
  | insert rows =>
    dsimp only [step, out] at h ⊢
    split_ifs at h with hadmits
    · obtain rfl := Option.some.inj h
      rw [if_pos hadmits]
      simp [State.stored, inserted, returned, Function.comp_def, List.filterMap_map]
    · obtain rfl := Option.some.inj h
      rw [if_neg hadmits]
      exact .refl _
  | delete d cond =>
    dsimp only [step, out] at h ⊢
    split at h
    · obtain rfl := Option.some.inj h
      exact .refl _
    · cases h
  | visit d => exact (congrArg (· ++ []) (visit_sound hs h).2.symm) ▸ .refl _
  | commit d =>
    dsimp only [step, out] at h ⊢
    split at h
    · rename_i cond got hd
      obtain rfl := Option.some.inj h
      have hinserted : inserted (got.map (Out.returned d cond)) = [] := by
        simp [inserted, List.filterMap_map]
      have hreturned : returned (got.map (Out.returned d cond)) = got := by
        simp [returned, List.filterMap_map]
      rw [hinserted, hreturned, List.append_nil]
      have hsplit := (List.filter_append_perm (fun entry => entry.lockedBy = some d) s.entries).map
        Entry.row
      rw [List.map_append] at hsplit
      refine hsplit.symm.trans (List.perm_append_comm.trans ?_)
      refine List.Perm.append (.of_eq ?_) (hs.got d cond [] got hd).symm
      simp [State.stored, State.update]
    · cases h
  | abort d =>
    dsimp only [step, out] at h ⊢
    split at h
    · obtain rfl := Option.some.inj h
      have hrows : (s.entries.map (Entry.unlock d)).map Entry.row = s.stored := by
        rw [List.map_map]
        exact List.map_congr_left fun entry _ => unlock_row entry
      exact .of_eq (congrArg (· ++ []) hrows.symm)
    · cases h

/-- **Every inserted row is stored or returned**, as many times as it was inserted. -/
theorem run_conserves {events : List (Event ρ γ)}
    (h : Runs.run (step name Matches) start events = some s) :
    Sound name Matches s ∧
      (inserted (Runs.emitted (step name Matches) (out name) start events)).Perm
        (s.stored ++ returned (Runs.emitted (step name Matches) (out name) start events)) := by
  refine Runs.run_emitted
    (I := fun s outs => Sound name Matches s ∧ (inserted outs).Perm (s.stored ++ returned outs))
    (fun s outs e s' hs hstep => ⟨step_sound hs.1 e hstep, ?_⟩) [] ⟨start_sound, .refl _⟩ h
  have hall := conserves_trans hs.2 (step_conserves hs.1 e hstep)
  simpa only [inserted, returned, List.filterMap_append] using hall

/-- **What a step does not return, it leaves stored.** -/
theorem kept_of_step (hs : Sound name Matches s) {e : Event ρ γ}
    (h : step name Matches s e = some s') {row : ρ} (hrow : row ∈ s.stored) :
    row ∈ s'.stored ∨ ∃ d cond, .returned d cond row ∈ out name s e := by
  have hmem := (step_conserves hs e h).subset (List.mem_append_left _ hrow)
  exact (List.mem_append.mp hmem).imp_right mem_returned.mp

end Steps

end Llamenos.Lib.Deletes
