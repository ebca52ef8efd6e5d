import Llamenos.Lib.Histories
import Llamenos.Lib.Runs

/-!
# Bans

`addBan`, `bulkAddBans`, `removeBan`, `checkBan` of `RecordsService`, and `deletePlatformBan`, of
`apps/worker/services/records.ts` over the table `bans` of `apps/worker/db/schema/records.ts`. A ban
is of a phone's hash, in a hub or on the whole platform. The unique index is over the hub and the
phone, and a row without a hub is in no conflict with another; `addBan` looks for the row itself,
`bulkAddBans` leaves it to the index. A call runs to its end before the next one begins.

Results:
* `bans_stand_iff_along`: **in exactly which histories** a phone is banned if the last change of
  its ban, in the hub or on the platform, was an addition.
-/

namespace Llamenos.Worker.Bans

open Llamenos.Lib
open Histories

/-! ## The table and the methods -/

/-- A row of `bans`. -/
structure Ban where
  id : String
  hubId : Option String
  phone : String
  phoneDisplay : Option String := none
  reason : Option String := none
  bannedBy : Option String := none

structure AddBanInput where
  hubId : Option String := none
  phone : String
  phoneDisplay : Option String := none
  reason : String
  bannedBy : String

structure BanEntry where
  phoneHash : String
  phoneDisplay : String

inductive RecordsError where
  | uniqueViolation

/-- `hubId || null`. -/
def scope (hubId : Option String) : Option String := hubId.filter (· ≠ "")

/-- Where and whom a row bans. -/
def Ban.key (row : Ban) : Option String × String := (row.hubId, row.phone)

variable (bans : List Ban)

/-- The primary key or the unique index refuses the row. -/
def conflicts (ban : Ban) : Bool :=
  bans.any fun row => row.id = ban.id || (ban.hubId.isSome && row.key = ban.key)

def addBan (id : String) (input : AddBanInput) : Except RecordsError (List Ban × Ban) :=
  match bans.find? fun row => row.key = (scope input.hubId, input.phone) with
  | some existing => .ok (bans, existing)
  | none =>
    let ban : Ban :=
      { id := id
        hubId := scope input.hubId
        phone := input.phone
        phoneDisplay := input.phoneDisplay
        reason := some input.reason
        bannedBy := some input.bannedBy }
    if conflicts bans ban then .error .uniqueViolation else .ok (bans ++ [ban], ban)

/-- The first entry of each phone; those of `seen` have been met. -/
def uniqueEntries (seen : List String) : List BanEntry → List BanEntry
  | [] => []
  | e :: entries =>
    if e.phoneHash ∈ seen then uniqueEntries seen entries
    else e :: uniqueEntries (e.phoneHash :: seen) entries

/-- The rows that `bulkAddBans` inserts, under the ids that they are given. -/
def banRows (ids : Nat → String) (entries : List BanEntry) (reason bannedBy : String)
    (hubId : Option String) : List Ban :=
  (uniqueEntries [] entries).mapIdx fun i entry =>
    { id := ids i
      hubId := scope hubId
      phone := entry.phoneHash
      phoneDisplay := some entry.phoneDisplay
      reason := some reason
      bannedBy := some bannedBy }

/-- `INSERT … ON CONFLICT DO NOTHING`, of one row. -/
def insertOrIgnore (ban : Ban) : List Ban :=
  if conflicts bans ban then bans else bans ++ [ban]

/-- `bulkAddBans`, with the number of rows it has inserted. -/
def bulkAddBans (ids : Nat → String) (entries : List BanEntry) (reason bannedBy : String)
    (hubId : Option String) : List Ban × Nat :=
  let inserted := (banRows ids entries reason bannedBy hubId).foldl insertOrIgnore bans
  (inserted, inserted.length - bans.length)

def removeBan (phone : String) (hubId : Option String) : List Ban :=
  bans.filter fun row => row.key ≠ (scope hubId, phone)

/-- `deletePlatformBan`, with the row it has deleted. -/
def deletePlatformBan (banId : String) : List Ban × Option Ban :=
  (bans.filter fun row => !(row.id = banId && row.hubId = none),
    bans.find? fun row => row.id = banId && row.hubId = none)

def checkBan (phone : String) (hubId : Option String) : Bool :=
  bans.any fun row => row.phone = phone &&
    match scope hubId with
    | some hub => row.hubId = some hub || row.hubId = none
    | none => row.hubId = none

/-! ## Histories -/

inductive Call where
  | addBan (id : String) (input : AddBanInput)
  | bulkAddBans (ids : Nat → String) (entries : List BanEntry) (reason bannedBy : String)
      (hubId : Option String)
  | removeBan (phone : String) (hubId : Option String)
  | deletePlatformBan (banId : String)

/-- Ids that `crypto.randomUUID()` may give rows. -/
def Fresh (ids : List String) : Prop := ids.Nodup ∧ ∀ id ∈ ids, ∀ row ∈ bans, row.id ≠ id

instance (ids : List String) : Decidable (Fresh bans ids) :=
  inferInstanceAs (Decidable (_ ∧ _))

/-- A call; what throws leaves the table. -/
def step (bans : List Ban) : Call → Option (List Ban)
  | .addBan id input =>
    if Fresh bans [id] then
      match addBan bans id input with
      | .ok (bans', _) => some bans'
      | .error _ => some bans
    else none
  | .bulkAddBans ids entries reason bannedBy hubId =>
    if Fresh bans ((banRows ids entries reason bannedBy hubId).map Ban.id) then
      some (bulkAddBans bans ids entries reason bannedBy hubId).1
    else none
  | .removeBan phone hubId => some (removeBan bans phone hubId)
  | .deletePlatformBan banId => some (deletePlatformBan bans banId).1

/-- The bans that the call adds or removes. -/
def changes (bans : List Ban) : Call → List (Change (Option String × String))
  | .addBan _ input => [.add (scope input.hubId, input.phone)]
  | .bulkAddBans _ entries _ _ hubId =>
    (entries.map fun entry => (scope hubId, entry.phoneHash)).map .add
  | .removeBan phone hubId => [.remove (scope hubId, phone)]
  | .deletePlatformBan banId =>
    match (deletePlatformBan bans banId).2 with
    | some row => [.remove (none, row.phone)]
    | none => []

/-- A phone is banned in a hub if its ban stands there, or on the platform. -/
def Right (bans : List Ban) (ws : List (Change (Option String × String))) : Prop :=
  ∀ phone hubId, checkBan bans phone hubId = true ↔
    Standing ws (scope hubId, phone) ∨ Standing ws (none, phone)

/-- A platform ban is deleted that is the only row of its phone. -/
def DeletesLast (bans : List Ban) : Call → Prop
  | .deletePlatformBan banId => ∀ row ∈ bans, row.id = banId → row.hubId = none →
      ∀ other ∈ bans, other.id ≠ banId → other.key ≠ row.key
  | _ => True

/-! ## What is held -/

/-- A row bans the phone there. -/
def Held (bans : List Ban) (key : Option String × String) : Prop := ∃ row ∈ bans, row.key = key

instance (c : Call) : Decidable (DeletesLast bans c) := by
  unfold DeletesLast
  split <;> infer_instance

variable {bans} {bans' : List Ban} {key : Option String × String}

theorem checkBan_iff (phone : String) (hubId : Option String) :
    checkBan bans phone hubId = true ↔
      Held bans (scope hubId, phone) ∨ Held bans (none, phone) := by
  rw [checkBan, List.any_eq_true]
  cases scope hubId with
  | none =>
    rw [or_self]
    refine exists_congr fun row => and_congr_right fun _ => ?_
    simp [Ban.key, and_comm]
  | some hub =>
    constructor
    · rintro ⟨row, hrow, hban⟩
      simp only [Bool.and_eq_true, decide_eq_true_eq, Bool.or_eq_true] at hban
      rcases hban with ⟨rfl, hhub | hnone⟩
      · exact .inl ⟨row, hrow, by rw [Ban.key, hhub]⟩
      · exact .inr ⟨row, hrow, by rw [Ban.key, hnone]⟩
    · rintro (⟨row, hrow, hkey⟩ | ⟨row, hrow, hkey⟩) <;> obtain ⟨hhub, rfl⟩ := Prod.mk.inj hkey
      · exact ⟨row, hrow, by simp [hhub]⟩
      · exact ⟨row, hrow, by simp [hhub]⟩

theorem held_concat (ban : Ban) : Held (bans ++ [ban]) key ↔ key = ban.key ∨ Held bans key := by
  constructor
  · rintro ⟨row, hrow, hkey⟩
    rcases List.mem_append.mp hrow with hold | hnew
    · exact .inr ⟨row, hold, hkey⟩
    · rw [List.mem_singleton.mp hnew] at hkey
      exact .inl hkey.symm
  · rintro (rfl | ⟨row, hrow, hkey⟩)
    · exact ⟨ban, by simp, rfl⟩
    · exact ⟨row, List.mem_append_left _ hrow, hkey⟩

theorem nodup_concat {ban : Ban} (hids : (bans.map Ban.id).Nodup)
    (hfresh : ∀ row ∈ bans, row.id ≠ ban.id) : ((bans ++ [ban]).map Ban.id).Nodup := by
  rw [List.map_append, List.map_singleton, ← List.concat_eq_append]
  refine hids.concat fun hmem => ?_
  obtain ⟨row, hrow, hid⟩ := List.mem_map.mp hmem
  exact hfresh row hrow hid

/-- A row under a new id is refused only where its ban is held. -/
theorem held_of_conflicts {ban : Ban} (hfresh : ∀ row ∈ bans, row.id ≠ ban.id)
    (h : conflicts bans ban = true) : ban.hubId.isSome ∧ Held bans ban.key := by
  obtain ⟨row, hrow, hsame⟩ := List.any_eq_true.mp h
  simp only [Bool.or_eq_true, decide_eq_true_eq, Bool.and_eq_true] at hsame
  rcases hsame with hid | ⟨hhub, hkey⟩
  · exact absurd hid (hfresh row hrow)
  · exact ⟨hhub, row, hrow, hkey⟩

/-- **`addBan` adds the ban**, once. -/
theorem addBan_spec {id : String} (input : AddBanInput) (hfresh : ∀ row ∈ bans, row.id ≠ id)
    (hids : (bans.map Ban.id).Nodup) :
    ∃ bans' ban, addBan bans id input = .ok (bans', ban) ∧ (bans'.map Ban.id).Nodup ∧
      ∀ key, Held bans' key ↔ key = (scope input.hubId, input.phone) ∨ Held bans key := by
  unfold addBan
  cases hfind : bans.find? fun row => row.key = (scope input.hubId, input.phone) with
  | some existing =>
    refine ⟨bans, existing, rfl, hids, fun key => (or_iff_right_of_imp ?_).symm⟩
    rintro rfl
    exact ⟨existing, List.mem_of_find?_eq_some hfind, by simpa using List.find?_some hfind⟩
  | none =>
    dsimp only
    split_ifs with hconflict
    · obtain ⟨-, row, hrow, hkey⟩ := held_of_conflicts hfresh hconflict
      exact absurd (decide_eq_true hkey) (List.find?_eq_none.mp hfind row hrow)
    · exact ⟨_, _, rfl, nodup_concat hids hfresh, fun key => held_concat _⟩

theorem mem_uniqueEntries {phone : String} (seen : List String) (entries : List BanEntry) :
    phone ∈ (uniqueEntries seen entries).map BanEntry.phoneHash ↔
      phone ∈ entries.map BanEntry.phoneHash ∧ phone ∉ seen := by
  induction entries generalizing seen with
  | nil => simp [uniqueEntries]
  | cons e entries ih =>
    rw [uniqueEntries]
    split_ifs with hseen
    · rw [ih, List.map_cons, List.mem_cons]
      refine and_congr_left fun hphone => (or_iff_right ?_).symm
      rintro rfl
      exact hphone hseen
    · rw [List.map_cons, List.mem_cons, ih, List.map_cons, List.mem_cons, List.mem_cons, not_or]
      by_cases hphone : phone = e.phoneHash
      · simp [hphone, hseen]
      · simp [hphone]

/-- The rows of `bulkAddBans` ban the phones of the entries. -/
theorem mem_banRows {ids : Nat → String} {entries : List BanEntry} {reason bannedBy : String}
    {hubId : Option String} :
    key ∈ (banRows ids entries reason bannedBy hubId).map Ban.key ↔
      key ∈ entries.map fun entry => (scope hubId, entry.phoneHash) := by
  have hkeys : (banRows ids entries reason bannedBy hubId).map Ban.key =
      ((uniqueEntries [] entries).map BanEntry.phoneHash).map
        fun phone => (scope hubId, phone) := by
    refine List.ext_getElem (by simp [banRows]) fun i _ _ => ?_
    simp [banRows, Ban.key]
  have hentries : (entries.map fun entry => (scope hubId, entry.phoneHash)) =
      (entries.map BanEntry.phoneHash).map fun phone => (scope hubId, phone) := by
    rw [List.map_map]
    rfl
  rw [hkeys, hentries, List.mem_map, List.mem_map]
  refine exists_congr fun phone => and_congr_left fun _ => ?_
  rw [mem_uniqueEntries]
  simp

theorem insertOrIgnore_spec {ban : Ban} (hfresh : ∀ row ∈ bans, row.id ≠ ban.id)
    (hids : (bans.map Ban.id).Nodup) :
    ((insertOrIgnore bans ban).map Ban.id).Nodup ∧
      (∀ row ∈ insertOrIgnore bans ban, row ∈ bans ∨ row = ban) ∧
      ∀ key, Held (insertOrIgnore bans ban) key ↔ key = ban.key ∨ Held bans key := by
  unfold insertOrIgnore
  split_ifs with hconflict
  · obtain ⟨-, hheld⟩ := held_of_conflicts hfresh hconflict
    refine ⟨hids, fun row hrow => .inl hrow, fun key => (or_iff_right_of_imp ?_).symm⟩
    rintro rfl
    exact hheld
  · refine ⟨nodup_concat hids hfresh, fun row hrow => ?_, fun key => held_concat ban⟩
    exact (List.mem_append.mp hrow).imp_right List.mem_singleton.mp

/-- **Rows under new ids add their bans**, whichever of them the index refuses. -/
theorem foldl_insert_spec {rows : List Ban} (hfresh : Fresh bans (rows.map Ban.id))
    (hids : (bans.map Ban.id).Nodup) :
    ((rows.foldl insertOrIgnore bans).map Ban.id).Nodup ∧
      ∀ key, Held (rows.foldl insertOrIgnore bans) key ↔
        key ∈ rows.map Ban.key ∨ Held bans key := by
  induction rows generalizing bans with
  | nil => exact ⟨hids, fun key => by simp⟩
  | cons ban rows ih =>
    obtain ⟨hnotin, hnodup⟩ := List.nodup_cons.mp hfresh.1
    obtain ⟨hids', hmem, hheld⟩ :=
      insertOrIgnore_spec (hfresh.2 ban.id List.mem_cons_self) hids
    have hfresh' : Fresh (insertOrIgnore bans ban) (rows.map Ban.id) := by
      refine ⟨hnodup, fun id hid row hrow => ?_⟩
      rcases hmem row hrow with hold | rfl
      · exact hfresh.2 id (List.mem_cons_of_mem _ hid) row hold
      · exact fun hsame => hnotin (hsame ▸ hid)
    obtain ⟨hids'', hheld'⟩ := ih hfresh' hids'
    refine ⟨hids'', fun key => (hheld' key).trans ?_⟩
    rw [hheld key, List.map_cons, List.mem_cons, or_left_comm, or_assoc]

theorem held_removeBan (phone : String) (hubId : Option String) :
    Held (removeBan bans phone hubId) key ↔ key ≠ (scope hubId, phone) ∧ Held bans key := by
  constructor
  · rintro ⟨row, hrow, rfl⟩
    obtain ⟨hmem, hne⟩ := List.mem_filter.mp hrow
    exact ⟨of_decide_eq_true hne, row, hmem, rfl⟩
  · rintro ⟨hne, row, hrow, rfl⟩
    exact ⟨row, List.mem_filter.mpr ⟨hrow, decide_eq_true hne⟩, rfl⟩

theorem kept_iff {banId : String} {row : Ban} :
    (!(decide (row.id = banId) && decide (row.hubId = none))) = true ↔
      ¬ (row.id = banId ∧ row.hubId = none) := by
  rw [Bool.not_eq_true', ← Bool.not_eq_true, Bool.and_eq_true, decide_eq_true_eq, decide_eq_true_eq]

theorem held_deletePlatformBan (banId : String) :
    Held (deletePlatformBan bans banId).1 key ↔
      ∃ row ∈ bans, row.key = key ∧ ¬ (row.id = banId ∧ row.hubId = none) := by
  constructor
  · rintro ⟨row, hrow, hkey⟩
    obtain ⟨hmem, hkept⟩ := List.mem_filter.mp hrow
    exact ⟨row, hmem, hkey, kept_iff.mp hkept⟩
  · rintro ⟨row, hrow, hkey, hkept⟩
    exact ⟨row, List.mem_filter.mpr ⟨hrow, kept_iff.mpr hkept⟩, hkey⟩

/-! ## Every history -/

/-- The bans of hubs are those that stand, and an id is of one row. -/
structure HubsRight (bans : List Ban) (ws : List (Change (Option String × String))) : Prop where
  ids : (bans.map Ban.id).Nodup
  hubs : ∀ hub phone, Held bans (some hub, phone) ↔ Standing ws (some hub, phone)

variable {ws : List (Change (Option String × String))}

theorem right_iff (h : HubsRight bans ws) :
    Right bans ws ↔ ∀ phone, Held bans (none, phone) ↔ Standing ws (none, phone) := by
  constructor
  · intro hright phone
    have hplatform := hright phone none
    rwa [checkBan_iff, show scope none = none from rfl, or_self, or_self] at hplatform
  · intro hplatform phone hubId
    rw [checkBan_iff, hplatform phone]
    refine or_congr_left ?_
    cases scope hubId with
    | none => exact hplatform phone
    | some hub => exact h.hubs hub phone

theorem held_iff_standing (h : HubsRight bans ws) (hright : Right bans ws)
    (key : Option String × String) : Held bans key ↔ Standing ws key := by
  obtain ⟨_ | hub, phone⟩ := key
  · exact (right_iff h).mp hright phone
  · exact h.hubs hub phone

/-- A call that changes every ban as the history does. -/
theorem call_right (h : HubsRight bans ws) {cs : List (Change (Option String × String))}
    (hids : (bans'.map Ban.id).Nodup) {P : Option String × String → Prop → Prop}
    (hheld : ∀ key, Held bans' key ↔ P key (Held bans key))
    (hstands : ∀ key, Standing (ws ++ cs) key ↔ P key (Standing ws key)) :
    HubsRight bans' (ws ++ cs) ∧ (Right bans ws → Right bans' (ws ++ cs)) := by
  have hhubs : HubsRight bans' (ws ++ cs) :=
    ⟨hids, fun hub phone => by rw [hheld, hstands, propext (h.hubs hub phone)]⟩
  refine ⟨hhubs, fun hright => (right_iff hhubs).mpr fun phone => ?_⟩
  rw [hheld, hstands, propext (held_iff_standing h hright (none, phone))]

/-- **Deleting a platform ban by its row** is right exactly if that is the only row of its phone. -/
theorem deletePlatformBan_right (h : HubsRight bans ws) (banId : String) :
    HubsRight (deletePlatformBan bans banId).1 (ws ++ changes bans (.deletePlatformBan banId)) ∧
      (Right bans ws → (Right (deletePlatformBan bans banId).1
        (ws ++ changes bans (.deletePlatformBan banId)) ↔
          DeletesLast bans (.deletePlatformBan banId))) := by
  have hids : ((deletePlatformBan bans banId).1.map Ban.id).Nodup :=
    h.ids.sublist (List.filter_sublist.map _)
  have hfound : (deletePlatformBan bans banId).2 =
      bans.find? fun row => row.id = banId && row.hubId = none := rfl
  cases hfind : bans.find? fun row => row.id = banId && row.hubId = none with
  | none =>
    have hother : ∀ row ∈ bans, ¬ (row.id = banId ∧ row.hubId = none) := fun row hrow => by
      simpa using List.find?_eq_none.mp hfind row hrow
    have hsame : (deletePlatformBan bans banId).1 = bans :=
      List.filter_eq_self.mpr fun row hrow => kept_iff.mpr (hother row hrow)
    have hnothing : changes bans (.deletePlatformBan banId) = [] := by
      simp only [changes, hfound, hfind]
    rw [hsame, hnothing, List.append_nil]
    refine ⟨h, fun hright => iff_of_true hright fun row hrow hid hhub => ?_⟩
    exact absurd ⟨hid, hhub⟩ (hother row hrow)
  | some banned =>
    have hmem : banned ∈ bans := List.mem_of_find?_eq_some hfind
    obtain ⟨hid, hhub⟩ : banned.id = banId ∧ banned.hubId = none := by
      simpa using List.find?_some hfind
    have hremoved : changes bans (.deletePlatformBan banId) = [.remove (none, banned.phone)] := by
      simp only [changes, hfound, hfind]
    have hkey : banned.key = (none, banned.phone) := by rw [Ban.key, hhub]
    -- a row that goes is the one that was found
    have hgone : ∀ row ∈ bans, row.id = banId → row = banned := fun row hrow hrowid =>
      List.inj_on_of_nodup_map h.ids hrow hmem (hrowid.trans hid.symm)
    have hkeep : ∀ key, key ≠ (none, banned.phone) →
        (Held (deletePlatformBan bans banId).1 key ↔ Held bans key) := by
      intro key hne
      rw [held_deletePlatformBan]
      refine exists_congr fun row => and_congr_right fun hrow => and_iff_left_of_imp ?_
      rintro rfl ⟨hrowid, -⟩
      exact hne (hgone row hrow hrowid ▸ hkey)
    rw [hremoved]
    have hhubs : HubsRight (deletePlatformBan bans banId).1
        (ws ++ [.remove (none, banned.phone)]) := by
      refine ⟨hids, fun hub phone => ?_⟩
      have hne : ((some hub, phone) : Option String × String) ≠ (none, banned.phone) := by simp
      rw [hkeep _ hne, standing_remove, and_iff_right hne]
      exact h.hubs hub phone
    refine ⟨hhubs, fun hright => (right_iff hhubs).trans ?_⟩
    constructor
    · intro hall row hrow hrowid _ other hother hotherid hsame
      rw [hgone row hrow hrowid, hkey] at hsame
      have hheld := (hall banned.phone).mp
        ((held_deletePlatformBan banId).mpr ⟨other, hother, hsame, fun hsome => hotherid hsome.1⟩)
      exact (standing_remove _).mp hheld |>.1 rfl
    · intro hlast phone
      rw [standing_remove, ← held_iff_standing h hright]
      by_cases hphone : phone = banned.phone
      · subst hphone
        refine iff_of_false ?_ fun hne => hne.1 rfl
        rw [held_deletePlatformBan]
        rintro ⟨other, hother, hsame, hkept⟩
        by_cases hotherid : other.id = banId
        · exact hkept ⟨hotherid, (Prod.mk.inj hsame).1⟩
        · exact hlast banned hmem hid hhub other hother hotherid (hsame.trans hkey.symm)
      · have hne : ((none, phone) : Option String × String) ≠ (none, banned.phone) := by simpa
        rw [hkeep _ hne, and_iff_right hne]

/-- **What a call does**: the bans of hubs stay right, and those of the platform do exactly if no
row is left of a platform ban that is deleted. -/
theorem step_right {c : Call} (h : HubsRight bans ws) (hstep : step bans c = some bans') :
    HubsRight bans' (ws ++ changes bans c) ∧
      (Right bans ws → (Right bans' (ws ++ changes bans c) ↔ DeletesLast bans c)) := by
  cases c with
  | addBan id input =>
    rw [step] at hstep
    split_ifs at hstep with hfresh
    obtain ⟨added, ban, hadd, hids, hheld⟩ :=
      addBan_spec input (hfresh.2 id (List.mem_singleton_self id)) h.ids
    rw [hadd] at hstep
    obtain rfl := Option.some.inj hstep
    have hstands : ∀ key, Standing (ws ++ changes bans (.addBan id input)) key ↔
        key = (scope input.hubId, input.phone) ∨ Standing ws key := by
      intro key
      rw [show changes bans (.addBan id input) =
        [(scope input.hubId, input.phone)].map .add from rfl, standing_add, List.mem_singleton]
    obtain ⟨hhubs, hright⟩ := call_right h hids hheld hstands
    exact ⟨hhubs, fun hbefore => iff_of_true (hright hbefore) trivial⟩
  | bulkAddBans ids entries reason bannedBy hubId =>
    rw [step] at hstep
    split_ifs at hstep with hfresh
    obtain rfl := Option.some.inj hstep
    obtain ⟨hids, hheld⟩ := foldl_insert_spec hfresh h.ids
    obtain ⟨hhubs, hright⟩ := call_right h hids
      (fun key => (hheld key).trans (or_congr_left mem_banRows)) fun key => standing_add _
    exact ⟨hhubs, fun hbefore => iff_of_true (hright hbefore) trivial⟩
  | removeBan phone hubId =>
    obtain rfl := Option.some.inj hstep
    have hids : ((removeBan bans phone hubId).map Ban.id).Nodup :=
      h.ids.sublist (List.filter_sublist.map _)
    obtain ⟨hhubs, hright⟩ := call_right h hids (fun key => held_removeBan phone hubId)
      fun key => standing_remove _
    exact ⟨hhubs, fun hbefore => iff_of_true (hright hbefore) trivial⟩
  | deletePlatformBan banId =>
    obtain rfl := Option.some.inj hstep
    exact deletePlatformBan_right h banId

/-- **A phone is banned if its ban stands**, in the hub or on the platform, in exactly the
histories that delete no platform ban of which another row is left. -/
theorem bans_stand_iff_along {calls : List Call} {t : List Ban}
    (hrun : Runs.run step [] calls = some t) :
    (∀ before after bans, calls = before ++ after → Runs.run step [] before = some bans →
        Right bans (Runs.emitted step changes [] before)) ↔
      Runs.Along step DeletesLast [] calls := by
  refine Runs.always_iff_along changes (I := HubsRight) (G := Right) ?_ ?_ [] ?_ ?_ hrun
  · exact fun bans ws c bans' h hstep => (step_right h hstep).1
  · exact fun bans ws c bans' h hright hstep => (step_right h hstep).2 hright
  · refine ⟨List.nodup_nil, fun hub phone => iff_of_false ?_ standing_nil⟩
    rintro ⟨row, hrow, -⟩
    cases hrow
  · exact fun phone hubId => iff_of_false (by simp [checkBan]) (by simp [standing_nil])

/-- A phone is banned twice in a hub and on the platform, and unbanned in both. -/
def lifted : List Call :=
  [.addBan "1" { hubId := some "hub", phone := "p", reason := "", bannedBy := "ann" },
    .bulkAddBans (fun _ => "2") [⟨"p", "***"⟩, ⟨"p", "***"⟩] "" "ann" (some "hub"),
    .bulkAddBans (fun _ => "3") [⟨"p", "***"⟩] "" "ann" none,
    .addBan "4" { phone := "p", reason := "", bannedBy := "ann" },
    .removeBan "p" (some "hub"), .deletePlatformBan "3"]

theorem lifted_right : ∃ t, Runs.run step [] lifted = some t ∧
    ∀ before after bans, lifted = before ++ after → Runs.run step [] before = some bans →
      Right bans (Runs.emitted step changes [] before) := by
  have hrun : (Runs.run step [] lifted).isSome := by decide +kernel
  obtain ⟨t, ht⟩ := Option.isSome_iff_exists.mp hrun
  exact ⟨t, ht, (bans_stand_iff_along ht).mpr (by decide +kernel)⟩

/-- A phone is imported twice for the platform, and the first ban is deleted. -/
def importedTwice : List Call :=
  [.bulkAddBans (fun _ => "1") [⟨"p", "***"⟩] "" "ann" none,
    .bulkAddBans (fun _ => "2") [⟨"p", "***"⟩] "" "ann" none, .deletePlatformBan "1"]

/-- **A phone stays banned** when its platform ban has been deleted: the index has let a second row
in. -/
theorem banned_after_delete : ∃ bans ∈ Runs.run step [] importedTwice,
    checkBan bans "p" none = true ∧
      ¬ Standing (Runs.emitted step changes [] importedTwice) (none, "p") ∧
      ¬ Right bans (Runs.emitted step changes [] importedTwice) := by
  have hrun : ∃ bans ∈ Runs.run step [] importedTwice, checkBan bans "p" none = true := by
    decide +kernel
  have hstands : ¬ Standing (Runs.emitted step changes [] importedTwice) (none, "p") := by
    decide +kernel
  obtain ⟨bans, hbans, hcheck⟩ := hrun
  refine ⟨bans, hbans, hcheck, hstands, fun hright => ?_⟩
  exact ((hright "p" none).mp hcheck).elim hstands hstands

end Llamenos.Worker.Bans
