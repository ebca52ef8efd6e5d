import Llamenos.Worker.Audit
import Mathlib.Data.List.Dedup
import Mathlib.Data.List.Pairwise
import Mathlib.Data.List.TakeWhile

/-!
# Every row that is logged is in a chain that verifies

After any interleaving of calls of `log` and any erasures, every page of every chain is valid, and
every row is in exactly one of the chains that `listChainHubIds` leads to, provided that each row
inserted is `Kept`: it has no empty hub, and its details come back from the database with the same
stable text.

For an empty hub, `log` stores the hub as it is, but `chainCondition` takes it for no hub. So the
row is hashed to the platform's chain and is in none. And `localeCompare` finds some distinct keys
equal; the order of those in the text is the order in which they come, which is not the same before
and after they have been stored.

Results:
* `step_inv`: what every step preserves: the lock's holder knows the tip of its chain.
* `complete_of_kept`: **the rows are complete and their chains valid.**
-/

namespace Llamenos.Worker.Audit

open Llamenos.Lib Llamenos.Crypto

variable {N : Type} {prims : AuditPrims N}

/-! ## The property -/

/-- The rows of a chain, in the order of their insertion. -/
def chainRows (table : List (Row N)) (chain : Option String) : List (Row N) :=
  table.filter fun row => row.hubId = chain

/-- Every page of every chain is valid, and so is every chain page by page; and every row inserted
is still there, in exactly one of the chains that are verified. -/
structure Complete (prims : AuditPrims N) (inserted table : List (Row N)) : Prop where
  pages : ∀ hubId limit offset, (verifyChain prims table hubId limit offset).valid = true
  chains : ∀ hubId pageSize, ∃ result, verifyFullChain prims table hubId pageSize = some result ∧
    result.valid = true
  rows : ∀ row ∈ inserted, ∃! chain, chain ∈ (listChainHubIds table).map chainName ∧
    ∃ row' ∈ chainRows table chain, row'.id = row.id

/-- A call with no empty hub, whose details have the same stable text after they have been
stored. -/
structure Kept (prims : AuditPrims N) (call : LogCall N) : Prop where
  hub : call.hubId ≠ some ""
  details : stableJsonStringify prims (orEmpty (prims.jsonb call.details)) =
    stableJsonStringify prims (orEmpty call.details)

/-- The call whose row is inserted is kept. -/
def InsertsKept (prims : AuditPrims N) (s : System N) : Event N → Prop
  | .insert i _ _ => ∀ task, s.tasks i = some task → Kept prims task.call
  | _ => True

/-! ## Which details are kept -/

/-! ## Chains in append order -/

/-- Rows that were inserted one after the other. -/
def Increasing (rows : List (Row N)) : Prop :=
  rows.Pairwise fun a b => a.createdAt.getTime < b.createdAt.getTime

theorem chainName_ne (hubId : Option String) : chainName hubId ≠ some "" := by
  cases hubId with
  | none => exact nofun
  | some hub =>
    rw [chainName, Option.filter_some]
    split
    · rename_i h
      simpa using h
    · exact nofun

theorem chainName_of_ne {hubId : Option String} (h : hubId ≠ some "") :
    chainName hubId = hubId := by
  cases hubId with
  | none => rfl
  | some hub =>
    have hne : hub ≠ "" := fun hub' => h (by rw [hub'])
    rw [chainName, Option.filter_some, if_pos (by simpa using hne)]

theorem filter_chainCondition (table : List (Row N)) (hubId : Option String) :
    table.filter (chainCondition hubId) = chainRows table (chainName hubId) := rfl

variable {table : List (Row N)}

/-- Rows with increasing times are in append order. -/
theorem selectChain_eq {hubId : Option String}
    (h : Increasing (chainRows table (chainName hubId))) :
    selectChain prims table hubId = chainRows table (chainName hubId) := by
  rw [selectChain, filter_chainCondition]
  exact List.Pairwise.insertionSort_eq (h.imp fun hab => Or.inl hab)

variable {rows : List (Row N)}

/-- The last one comes first in descending order. -/
theorem insertionSort_descending (h : Increasing rows) :
    rows.insertionSort (fun a b => AppendLe prims b a) = rows.reverse := by
  induction rows with
  | nil => rfl
  | cons row rows ih =>
    obtain ⟨hrow, hrows⟩ := List.pairwise_cons.mp h
    rw [List.insertionSort_cons, ih hrows, List.reverse_cons]
    have hnot : ∀ r ∈ rows.reverse, ¬ AppendLe prims r row := by
      intro r hr
      have hlt := hrow r (List.mem_reverse.mp hr)
      rintro (hle | ⟨heq, -⟩) <;> omega
    rw [List.orderedInsert_eq_take_drop, List.takeWhile_eq_self_iff.mpr (by simpa using hnot),
      List.dropWhile_eq_nil_iff.mpr (by simpa using hnot)]

/-- The last row of a chain, as `log` reads it. -/
def tipOf (rows : List (Row N)) : Option Tip :=
  rows.getLast?.map fun row => { entryHash := row.entryHash, createdAt := row.createdAt }

theorem latest_eq {hubId : Option String}
    (h : Increasing (chainRows table (chainName hubId))) :
    latest prims table hubId = tipOf (chainRows table (chainName hubId)) := by
  rw [latest, filter_chainCondition, insertionSort_descending h, List.head?_reverse]
  rfl

theorem tipOf_entryHash (rows : List (Row N)) :
    (tipOf rows).map Tip.entryHash = HashChain.lastDigest Row.entryHash none rows := by
  rw [tipOf, HashChain.lastDigest]
  cases rows.getLast? <;> rfl

/-- A chain whose pages are valid, in append order. -/
structure ChainOk (prims : AuditPrims N) (rows : List (Row N)) : Prop where
  sound : Sound prims none rows
  increasing : Increasing rows

variable {row : Row N} {call : LogCall N} {tip : Option Tip} {now : Int} {id : String}

/-- What a new row is. -/
theorem newRow_eq_some
    (h : newRow prims call tip id now = some row) :
    row.id = id ∧ row.hubId = call.hubId ∧ row.details = prims.jsonb call.details ∧
      row.previousEntryHash = tip.map Tip.entryHash ∧ row.erasedAt = none ∧
      row.createdAt.getTime = createdAtMs tip now ∧
      row.entryHash = computeEntryHash prims { row.hashed with details := call.details } := by
  unfold newRow at h
  obtain ⟨createdAt, hdate, h⟩ := Option.bind_eq_some_iff.mp h
  have hrow := Option.some.inj h
  subst hrow
  exact ⟨rfl, rfl, rfl, rfl, rfl, getTime_newDate hdate, rfl⟩

theorem content_congr {entry entry' : HashedEntry N} (hid : entry.id = entry'.id)
    (haction : entry.action = entry'.action) (hactor : entry.actorPubkey = entry'.actorPubkey)
    (htime : entry.createdAt = entry'.createdAt)
    (hdetails : stableJsonStringify prims (orEmpty entry.details) =
      stableJsonStringify prims (orEmpty entry'.details))
    (hprev : entry.previousEntryHash = entry'.previousEntryHash) :
    content prims entry = content prims entry' := by
  rw [content, content, hid, haction, hactor, htime, hdetails, hprev]

/-- A row whose details keep their stable text has the hash of its content. -/
theorem hashOk_newRow
    (h : newRow prims call tip id now = some row)
    (hkept : stableJsonStringify prims (orEmpty (prims.jsonb call.details)) =
      stableJsonStringify prims (orEmpty call.details)) :
    HashOk prims row := by
  obtain ⟨-, -, hdetails, -, -, -, hhash⟩ := newRow_eq_some h
  refine .inr (hhash ▸ ?_)
  have hcontent : content prims row.hashed =
      content prims { row.hashed with details := call.details } := by
    refine content_congr rfl rfl rfl rfl ?_ rfl
    rw [orEmpty_hashed, hdetails, hkept]
  rw [computeEntryHash, computeEntryHash, hcontent]

/-- A row made from the tip of a chain is later than all of it. -/
theorem Increasing.concat (hrows : Increasing rows)
    (htime : row.createdAt.getTime = createdAtMs (tipOf rows) now) :
    Increasing (rows ++ [row]) := by
  refine List.pairwise_append.mpr ⟨hrows, List.pairwise_singleton _ _, fun a ha b hb => ?_⟩
  rw [List.mem_singleton.mp hb, htime]
  rcases List.eq_nil_or_concat' rows with rfl | ⟨init, last, rfl⟩
  · cases ha
  have hle : a.createdAt.getTime ≤ last.createdAt.getTime := by
    rcases List.mem_append.mp ha with ha | ha
    · have := (List.pairwise_append.mp hrows).2.2 a ha last (List.mem_singleton_self _)
      exact Int.le_of_lt this
    · rw [List.mem_singleton.mp ha]
  rw [tipOf, List.getLast?_concat, Option.map_some, createdAtMs]
  dsimp only
  split <;> omega

/-- **A row made from the tip of a chain goes on with it.** -/
theorem ChainOk.concat (hrows : ChainOk prims rows)
    (h : newRow prims call (tipOf rows) id now = some row)
    (hkept : Kept prims call) : ChainOk prims (rows ++ [row]) := by
  obtain ⟨-, -, -, hprev, -, htime, -⟩ := newRow_eq_some h
  rw [tipOf_entryHash] at hprev
  exact ⟨sound_append.mpr ⟨hrows.sound, sound_cons.mpr
    ⟨hprev, hashOk_newRow h hkept.details, sound_nil _⟩⟩, hrows.increasing.concat htime⟩

/-! ## Runs -/

theorem chainRows_concat (table : List (Row N)) (row : Row N) (chain : Option String) :
    chainRows (table ++ [row]) chain =
      if row.hubId = chain then chainRows table chain ++ [row] else chainRows table chain := by
  unfold chainRows
  rw [List.filter_append]
  by_cases h : row.hubId = chain <;> simp [h]

/-- What holds in every state: the chains are as they should be, whoever is in a transaction holds
the lock of its chain, and whoever has read the tip of a chain knows it. -/
structure Inv (prims : AuditPrims N) (s : System N) : Prop where
  ids : (s.table.map Row.id).Nodup
  hubs : ∀ row ∈ s.table, row.hubId ≠ some ""
  chains : ∀ chain, ChainOk prims (chainRows s.table chain)
  holds : ∀ i task, s.tasks i = some task → s.holders (lockOf prims task.call) = some i
  tips : ∀ i call tip, s.tasks i = some (.read call tip) → call.hubId ≠ some "" →
    tip = tipOf (chainRows s.table call.hubId)

theorem inv_start : Inv prims ({} : System N) where
  ids := List.nodup_nil
  hubs _ h := absurd h List.not_mem_nil
  chains _ := ⟨sound_nil none, List.Pairwise.nil⟩
  holds _ _ h := by cases h
  tips _ _ _ h := by cases h

variable {s s' : System N} {e : Event N}

/-- What an insert does. -/
theorem insert_eq_some {i : Nat}
    (h : step prims s (.insert i id now) = some s') :
    ∃ call tip row, s.tasks i = some (.read call tip) ∧ (∀ r ∈ s.table, r.id ≠ id) ∧
      newRow prims call tip id now = some row ∧
      s' = { s.release prims i call with table := s.table ++ [row] } := by
  simp only [step] at h
  split at h
  · rename_i call tip hi
    split at h
    · cases h
    · rename_i hid
      obtain ⟨row, hrow, rfl⟩ := Option.map_eq_some_iff.mp h
      exact ⟨call, tip, row, hi, by simpa using hid, hrow, rfl⟩
  · cases h

/-- Nothing but an insert changes the table, and it ends its call. -/
theorem step_table (h : step prims s e = some s') :
    s'.table = s.table ∨ ∃ i id now call tip row, e = .insert i id now ∧
      s.tasks i = some (.read call tip) ∧ s'.tasks i = none ∧ (∀ r ∈ s.table, r.id ≠ id) ∧
      newRow prims call tip id now = some row ∧ s'.table = s.table ++ [row] := by
  cases e with
  | lock i call =>
    simp only [step] at h
    split at h
    · exact .inl (Option.some.inj h ▸ rfl)
    · cases h
  | readTip i =>
    simp only [step] at h
    split at h
    · exact .inl (Option.some.inj h ▸ rfl)
    · cases h
  | insert i id now =>
    obtain ⟨call, tip, row, hi, hid, hrow, rfl⟩ := insert_eq_some h
    exact .inr ⟨i, id, now, call, tip, row, rfl, hi, Function.update_self .., hid, hrow, rfl⟩
  | abort i =>
    obtain ⟨task, -, rfl⟩ := Option.map_eq_some_iff.mp h
    exact .inl rfl

/-- The end of a transaction leaves the others as they are. -/
theorem release_tasks {i j : Nat} {task : Task N}
    (h : Function.update s.tasks i none j = some task) : i ≠ j ∧ s.tasks j = some task := by
  rcases Runs.update_eq_some h with ⟨-, hended⟩ | ⟨hji, hj⟩
  · cases hended
  · exact ⟨hji.symm, hj⟩

/-- A call that has read the tip of its chain has done so in this step, or before. -/
theorem read_of_step (h : step prims s e = some s') {j : Nat}
    (hj : s'.tasks j = some (.read call tip)) :
    s.tasks j = some (.read call tip) ∨
      e = .readTip j ∧ tip = latest prims s.table call.hubId := by
  cases e with
  | lock i call =>
    simp only [step] at h
    split at h
    · obtain rfl := Option.some.inj h
      rcases Runs.update_eq_some hj with ⟨-, hlocked⟩ | ⟨-, hj⟩
      · cases hlocked
      · exact .inl hj
    · cases h
  | readTip i =>
    simp only [step] at h
    split at h
    · obtain rfl := Option.some.inj h
      rcases Runs.update_eq_some hj with ⟨rfl, hread⟩ | ⟨-, hj⟩
      · cases Option.some.inj hread
        exact .inr ⟨rfl, rfl⟩
      · exact .inl hj
    · cases h
  | insert i id now =>
    obtain ⟨_, _, _, -, -, -, rfl⟩ := insert_eq_some h
    exact .inl (release_tasks hj).2
  | abort i =>
    obtain ⟨_, -, rfl⟩ := Option.map_eq_some_iff.mp h
    exact .inl (release_tasks hj).2

/-- Whoever is in a transaction holds the lock of its chain. -/
def Held (prims : AuditPrims N) (s : System N) : Prop :=
  ∀ i task, s.tasks i = some task → s.holders (lockOf prims task.call) = some i

/-- No two calls in their transactions hold one lock. -/
theorem Held.task_unique (hs : Held prims s) {i j : Nat} {task task' : Task N}
    (hi : s.tasks i = some task) (hj : s.tasks j = some task')
    (hlock : lockOf prims task.call = lockOf prims task'.call) : i = j := by
  have h := hs j task' hj
  rw [← hlock, hs i task hi] at h
  exact Option.some.inj h

theorem Held.release (hs : Held prims s) {i : Nat} {task : Task N} (hi : s.tasks i = some task) :
    Held prims (s.release prims i task.call) := by
  intro j task' hj
  obtain ⟨hij, hj⟩ := release_tasks hj
  have hne : lockOf prims task'.call ≠ lockOf prims task.call :=
    fun hlock => hij (hs.task_unique hi hj hlock.symm)
  unfold System.release
  dsimp only
  rw [Function.update_of_ne hne]
  exact hs j task' hj

theorem step_held (hs : Held prims s) (h : step prims s e = some s') : Held prims s' := by
  cases e with
  | lock i call =>
    simp only [step] at h
    split at h
    · rename_i hlock
      obtain rfl := Option.some.inj h
      intro j task hj
      rcases Runs.update_eq_some hj with ⟨rfl, hlocked⟩ | ⟨-, hj⟩
      · obtain rfl := Option.some.inj hlocked
        exact Function.update_self ..
      · have hheld := hs j task hj
        have hne : lockOf prims task.call ≠ lockOf prims call := by
          intro heq
          rw [heq, hlock] at hheld
          cases hheld
        dsimp only
        rw [Function.update_of_ne hne]
        exact hheld
    · cases h
  | readTip i =>
    simp only [step] at h
    split at h
    · rename_i call hi
      obtain rfl := Option.some.inj h
      intro j task hj
      rcases Runs.update_eq_some hj with ⟨rfl, hread⟩ | ⟨-, hj⟩
      · obtain rfl := Option.some.inj hread
        exact hs j (.locked call) hi
      · exact hs j task hj
    · cases h
  | insert i id now =>
    obtain ⟨call, tip, _, hi, -, -, rfl⟩ := insert_eq_some h
    exact hs.release hi
  | abort i =>
    obtain ⟨_, hi, rfl⟩ := Option.map_eq_some_iff.mp h
    exact hs.release hi

/-- A call that has read the tip of a chain is not disturbed by the insert of another one. -/
theorem Held.insert_ne (hs : Held prims s) {i : Nat}
    (h : step prims s (.insert i id now) = some s') (hi : s.tasks i = some (.read call tip)) {j : Nat}
    {call' : LogCall N} {tip' : Option Tip} (hj : s'.tasks j = some (.read call' tip')) :
    s.tasks j = some (.read call' tip') ∧ call.hubId ≠ call'.hubId := by
  obtain ⟨_, _, _, -, -, -, rfl⟩ := insert_eq_some h
  obtain ⟨hij, hj⟩ := release_tasks hj
  refine ⟨hj, fun heq => hij (hs.task_unique hi hj ?_)⟩
  rw [Task.call, Task.call, lockOf, lockOf, heq]

/-- **Every step keeps the chains**, if the row it inserts is kept. -/
theorem step_inv (s : System N) (e : Event N) (s' : System N) (hs : Inv prims s)
    (hkept : InsertsKept prims s e) (h : step prims s e = some s') : Inv prims s' := by
  rcases step_table h with heq | ⟨i, id, now, call, tip, row, rfl, hi, -, hid, hrow, heq⟩
  · refine ⟨heq ▸ hs.ids, heq ▸ hs.hubs, heq ▸ hs.chains, step_held hs.holds h,
      fun j call tip hj hhub => ?_⟩
    rw [heq]
    rcases read_of_step h hj with hj | ⟨-, rfl⟩
    · exact hs.tips j call tip hj hhub
    · rw [latest_eq (hs.chains _).increasing, chainName_of_ne hhub]
  · have hcall : Kept prims call := hkept _ hi
    obtain ⟨hrowId, hrowHub, -⟩ := newRow_eq_some hrow
    obtain rfl := hs.tips i call tip hi hcall.hub
    refine ⟨?_, fun r hr => ?_, fun chain => ?_, step_held hs.holds h,
      fun j call' tip' hj hhub => ?_⟩
    · rw [heq, List.map_append, List.map_singleton, hrowId]
      exact List.nodup_append.mpr ⟨hs.ids, List.nodup_singleton id, by simpa using hid⟩
    · rw [heq] at hr
      rcases List.mem_append.mp hr with hr | hr
      · exact hs.hubs r hr
      · rw [List.mem_singleton.mp hr, hrowHub]
        exact hcall.hub
    · rw [heq, chainRows_concat, hrowHub]
      split
      · rename_i hchain
        subst hchain
        exact (hs.chains _).concat hrow hcall
      · exact hs.chains chain
    · obtain ⟨hj, hne⟩ := Held.insert_ne hs.holds h hi hj
      rw [heq, chainRows_concat, hrowHub, if_neg hne]
      exact hs.tips j call' tip' hj hhub

theorem run_inv {events : List (Event N)}
    (hkept : Runs.Along (step prims) (InsertsKept prims) {} events)
    (h : Runs.run (step prims) {} events = some s) : Inv prims s :=
  Runs.run_inv_along step_inv inv_start hkept h

/-! ## Erasures -/

/-- What erasures leave of a row. -/
structure Erased (prims : AuditPrims N) (row row' : Row N) : Prop where
  id : row'.id = row.id
  hubId : row'.hubId = row.hubId
  createdAt : row'.createdAt = row.createdAt
  previousEntryHash : row'.previousEntryHash = row.previousEntryHash
  entryHash : row'.entryHash = row.entryHash
  hashOk : HashOk prims row → HashOk prims row'

theorem erased_refl (row : Row N) : Erased prims row row := ⟨rfl, rfl, rfl, rfl, rfl, id⟩

theorem Erased.trans {row row' row'' : Row N} (h : Erased prims row row')
    (h' : Erased prims row' row'') : Erased prims row row'' :=
  ⟨h'.id.trans h.id, h'.hubId.trans h.hubId, h'.createdAt.trans h.createdAt,
    h'.previousEntryHash.trans h.previousEntryHash, h'.entryHash.trans h.entryHash,
    fun hok => h'.hashOk (h.hashOk hok)⟩

theorem eraseActor_erased (userId : String) (now : Int) (row : Row N) :
    Erased prims row (eraseActor userId now row) := by
  unfold eraseActor
  split
  · exact ⟨rfl, rfl, rfl, rfl, rfl, fun _ => .inl rfl⟩
  · exact erased_refl row

theorem scrubDetails_erased (now : Int) (row : Row N) :
    Erased prims row (scrubDetails now row) := by
  unfold scrubDetails
  split
  · exact erased_refl row
  · split
    · exact ⟨rfl, rfl, rfl, rfl, rfl, fun _ => .inl rfl⟩
    · exact erased_refl row

/-- **Erasures rewrite the rows one by one**, and keep what the chains are made of. -/
theorem exists_eraseUsers (prims : AuditPrims N) (table : List (Row N))
    (erasures : List (String × Int)) :
    ∃ erase : Row N → Row N, eraseUsers table erasures = table.map erase ∧
      ∀ row, Erased prims row (erase row) := by
  induction erasures generalizing table with
  | nil => exact ⟨id, (List.map_id table).symm, erased_refl⟩
  | cons erasure erasures ih =>
    obtain ⟨userId, now⟩ := erasure
    obtain ⟨erase, htable, herase⟩ := ih (eraseUser table userId now)
    refine ⟨erase ∘ scrubDetails now ∘ eraseActor userId now, ?_, fun row => ?_⟩
    · rw [eraseUsers, List.foldl_cons, ← eraseUsers, htable, eraseUser, List.map_map, List.map_map]
      rfl
    · exact ((eraseActor_erased userId now row).trans (scrubDetails_erased now _)).trans (herase _)
variable {erase : Row N → Row N}

theorem chainRows_map (h : ∀ row, Erased prims row (erase row))
    (table : List (Row N)) (chain : Option String) :
    chainRows (table.map erase) chain = (chainRows table chain).map erase := by
  have hhub : ((fun row : Row N => decide (row.hubId = chain)) ∘ erase) =
      fun row => decide (row.hubId = chain) := by
    funext row
    rw [Function.comp_apply, (h row).hubId]
  rw [chainRows, List.filter_map, hhub, chainRows]

theorem Sound.map {last : Option String} (hrows : Sound prims last rows)
    (h : ∀ row, Erased prims row (erase row)) :
    Sound prims last (rows.map erase) := by
  induction rows generalizing last with
  | nil => exact sound_nil last
  | cons row rows ih =>
    obtain ⟨hprev, hrow, hrest⟩ := sound_cons.mp hrows
    refine sound_cons.mpr ⟨(h row).previousEntryHash.trans hprev, (h row).hashOk hrow, ?_⟩
    rw [(h row).entryHash]
    exact ih hrest

theorem Increasing.map (hrows : Increasing rows)
    (h : ∀ row, Erased prims row (erase row)) : Increasing (rows.map erase) := by
  refine List.pairwise_map.mpr (hrows.imp fun hab => ?_)
  rwa [(h _).createdAt, (h _).createdAt]

theorem ChainOk.map (hrows : ChainOk prims rows)
    (h : ∀ row, Erased prims row (erase row)) : ChainOk prims (rows.map erase) :=
  ⟨hrows.sound.map h, hrows.increasing.map h⟩

/-! ## Completeness -/

theorem mem_listChainHubIds (h : row ∈ table) :
    row.hubId ∈ listChainHubIds table :=
  List.mem_dedup.mpr (List.mem_map_of_mem h)

theorem mem_chainRows {chain : Option String} :
    row ∈ chainRows table chain ↔ row ∈ table ∧ row.hubId = chain := by
  simp [chainRows]

/-- A table in order is complete, whatever has been erased in it. -/
theorem Inv.complete (hs : Inv prims s) (erasures : List (String × Int)) :
    Complete prims s.table (eraseUsers s.table erasures) := by
  obtain ⟨erase, htable, herase⟩ := exists_eraseUsers prims s.table erasures
  rw [htable]
  have hchain : ∀ hubId, ChainOk prims (selectChain prims (s.table.map erase) hubId) := by
    intro hubId
    have hok := (hs.chains (chainName hubId)).map herase
    rw [← chainRows_map herase] at hok
    rwa [selectChain_eq hok.increasing]
  refine ⟨fun hubId limit offset => ?_, fun hubId pageSize => ?_, fun row hrow => ?_⟩
  · rw [verifyChain, verifyPage_of_sound (hchain hubId).sound]
  · exact ⟨_, verifyPages_eq (hchain hubId).sound pageSize, rfl⟩
  have hrow' : erase row ∈ s.table.map erase := List.mem_map_of_mem hrow
  refine ⟨row.hubId, ⟨?_, erase row, ?_, (herase row).id⟩, ?_⟩
  · refine List.mem_map.mpr ⟨row.hubId, ?_, chainName_of_ne (hs.hubs row hrow)⟩
    exact (herase row).hubId ▸ mem_listChainHubIds hrow'
  · exact mem_chainRows.mpr ⟨hrow', (herase row).hubId⟩
  · rintro chain ⟨-, row', hmem, hid⟩
    obtain ⟨hmem, hhub⟩ := mem_chainRows.mp hmem
    obtain ⟨other, hother, rfl⟩ := List.mem_map.mp hmem
    obtain rfl : other = row :=
      List.inj_on_of_nodup_map hs.ids hother hrow ((herase other).id.symm.trans hid)
    exact hhub.symm.trans (herase other).hubId

/-- **Every row is in exactly one chain, and every chain is valid**, page by page, after any
interleaving of calls whose rows are kept, and any erasures. -/
theorem complete_of_kept {events : List (Event N)}
    (hkept : Runs.Along (step prims) (InsertsKept prims) {} events)
    (h : Runs.run (step prims) {} events = some s) (erasures : List (String × Int)) :
    Complete prims s.table (eraseUsers s.table erasures) :=
  (run_inv hkept h).complete erasures

/-- Two calls for one hub, and one for the platform in between, with a clock that goes back. -/
def interleaved : List (Event Int) :=
  [.lock 0 ⟨"login", sampleUser, .obj [("b", .num 1), ("a", .null)], some "hub-1"⟩,
    .lock 1 ⟨"logout", "system", .obj [], none⟩, .readTip 1, .readTip 0, .insert 1 "e0" 5000,
    .insert 0 "e1" 5000, .lock 2 ⟨"logout", sampleUser, .obj [], some "hub-1"⟩, .readTip 2,
    .insert 2 "e2" 4000]

/-- What is hashed for them. -/
def interleavedEntries : List (HashedEntry Int) :=
  [⟨"e0", "logout", "system", "1970-01-01T00:00:05.000Z", .obj [], none⟩,
    ⟨"e1", "login", sampleUser, "1970-01-01T00:00:05.000Z",
      .obj [("b", .num 1), ("a", .null)], none⟩,
    ⟨"e2", "logout", sampleUser, "1970-01-01T00:00:05.001Z", .obj [], some (sampleHash 1)⟩]

def interleavedPrims : AuditPrims Int :=
  samplePrims (interleavedEntries.map (content (samplePrims [])))

instance (prims : AuditPrims N) (call : LogCall N) : Decidable (Kept prims call) :=
  decidable_of_iff (call.hubId ≠ some "" ∧
    stableJsonStringify prims (orEmpty (prims.jsonb call.details)) =
      stableJsonStringify prims (orEmpty call.details))
    ⟨fun h => ⟨h.1, h.2⟩, fun h => ⟨h.hub, h.details⟩⟩

instance (prims : AuditPrims N) (s : System N) (e : Event N) :
    Decidable (InsertsKept prims s e) :=
  match e with
  | .insert i _ _ => inferInstanceAs (Decidable (∀ task ∈ s.tasks i, Kept prims task.call))
  | .lock .. | .readTip _ | .abort _ => isTrue trivial

theorem interleaved_complete : ∃ s ∈ Runs.run (step interleavedPrims) {} interleaved,
    s.table.map Row.entryHash = [sampleHash 0, sampleHash 1, sampleHash 2] ∧
      Complete interleavedPrims s.table (eraseUsers s.table [(sampleUser, 9000)]) := by
  have hkept :
      Runs.Along (step interleavedPrims) (InsertsKept interleavedPrims) {} interleaved := by
    decide +kernel
  have hrun : ∃ s ∈ Runs.run (step interleavedPrims) {} interleaved,
      s.table.map Row.entryHash = [sampleHash 0, sampleHash 1, sampleHash 2] := by
    decide +kernel
  obtain ⟨s, hs, hhashes⟩ := hrun
  exact ⟨s, hs, hhashes, complete_of_kept hkept hs _⟩

/-! ## Only rows that are kept -/

theorem step_ids (s : System N) (e : Event N) (s' : System N)
    (hs : (s.table.map Row.id).Nodup) (h : step prims s e = some s') :
    (s'.table.map Row.id).Nodup := by
  rcases step_table h with heq | ⟨_, _, _, _, _, row, -, -, -, hnew, hrow, heq⟩
  · rwa [heq]
  · rw [heq, List.map_append, List.map_singleton, (newRow_eq_some hrow).1]
    exact List.nodup_append.mpr ⟨hs, List.nodup_singleton _, by simpa using hnew⟩

/-- In a complete table no row has an empty hub. -/
theorem Complete.hub_ne (h : Complete prims table table)
    (hids : (table.map Row.id).Nodup) (hrow : row ∈ table) :
    row.hubId ≠ some "" := by
  obtain ⟨chain, ⟨hchain, row', hmem, hid⟩, -⟩ := h.rows row hrow
  obtain ⟨hmem, hhub⟩ := mem_chainRows.mp hmem
  obtain rfl := List.inj_on_of_nodup_map hids hmem hrow hid
  obtain ⟨hubId, -, hname⟩ := List.mem_map.mp hchain
  rw [hhub, ← hname]
  exact chainName_ne hubId

/-- A call with an empty hub. -/
def emptyHub : List (Event Int) :=
  [.lock 0 ⟨"login", sampleUser, .obj [], some ""⟩, .readTip 0, .insert 0 "e0" 5000]

/-- **A row with an empty hub is in no chain that is verified.** -/
theorem emptyHub_lost : ∃ s ∈ Runs.run (step (samplePrims [])) {} emptyHub,
    ¬ ∀ erasures, Complete (samplePrims []) s.table (eraseUsers s.table erasures) := by
  have hrun : ∃ s ∈ Runs.run (step (samplePrims [])) {} emptyHub,
      ∃ row ∈ s.table, row.hubId = some "" := by
    decide +kernel
  obtain ⟨s, hs, row, hrow, hhub⟩ := hrun
  have hids := Runs.run_inv step_ids (s := ({} : System Int)) List.nodup_nil hs
  exact ⟨s, hs, fun hcomplete => (hcomplete []).hub_ne hids hrow hhub⟩

end Llamenos.Worker.Audit
