import Llamenos.Crypto.Sigchain
import Llamenos.Worker.CanonicalJson

/-!
# The hash of a link, on either side

A link's hash is computed twice: by the device, with `compute_entry_hash` of
`packages/crypto/src/sigchain.rs`, and by the server, with `computeEntryHash` of
`apps/worker/services/crypto-keys.ts`. Both are to hash the same bytes for the same link.

The payload is one JSON text that both read. What a number literal is read as, and how that is
written, differs: so the payload is a value over its number literals, with a reading on each side.
`serde_json` keeps an object's members in a `BTreeMap`, by the bytes of their keys; the server sorts
them by code units, and then has them in the order of own keys.

Results:
* `sortFields_eq_iff`: when an object's members come in the same order.
* `canonicalizeJson_eq_iff`: **both sides have the same value exactly if they agree on its keys and
  its numbers**.
* `entryHash_iff`: so with the bytes that they hash.
* `keys_differ`: keys on which they do not: array indices, names beyond U+FFFF, and `__proto__`.
-/

namespace Llamenos.Worker.EntryHash

open Llamenos.Lib Llamenos.Crypto

variable {L M N F : Type}

/-! ## The order of members -/

/-- The order of a `BTreeMap` of texts: by their bytes. -/
def utf8Le (a b : String) : Prop :=
  codesLe ((asBytes a).map UInt8.toNat) ((asBytes b).map UInt8.toNat) = true

instance (a b : String) : Decidable (utf8Le a b) :=
  inferInstanceAs (Decidable (codesLe _ _ = true))

/-- The order of own keys that were assigned in the order of their code units: first the array
indices, by number. -/
def ownKeyLe (a b : String) : Prop :=
  match arrayIndex? a, arrayIndex? b with
  | some m, some n => m ≤ n
  | some _, none => True
  | none, some _ => False
  | none, none => codesLe (charCodes a) (charCodes b) = true

instance (a b : String) : Decidable (ownKeyLe a b) := by
  unfold ownKeyLe
  cases arrayIndex? a <;> cases arrayIndex? b <;> infer_instance

/-- The members of an object in a `BTreeMap`. -/
def byBytes (fields : List (String × Json N)) : List (String × Json N) :=
  fields.insertionSort fun a b => utf8Le a.1 b.1

mutual

/-- `serde_json::Value`: the members of every object are in a `BTreeMap`. -/
def btree : Json N → Json N
  | .arr xs => .arr (btreeElems xs)
  | .obj fields => .obj (byBytes (btreeFields fields))
  | v => v

def btreeElems : List (Json N) → List (Json N)
  | [] => []
  | x :: xs => btree x :: btreeElems xs

def btreeFields : List (String × Json N) → List (String × Json N)
  | [] => []
  | (key, x) :: fields => (key, btree x) :: btreeFields fields

end

theorem codesLe_antisymm {cs ds : List Nat} (h : codesLe cs ds = true) (h' : codesLe ds cs = true) :
    cs = ds := by
  induction cs generalizing ds with
  | nil =>
    cases ds with
    | nil => rfl
    | cons d ds => cases h'
  | cons c cs ih =>
    cases ds with
    | nil => cases h
    | cons d ds =>
      simp only [codesLe, Bool.or_eq_true, decide_eq_true_eq, Bool.and_eq_true, beq_iff_eq] at h h'
      rcases h with h | ⟨rfl, h⟩
      · omega
      · rw [ih h (h'.resolve_left (Nat.lt_irrefl c)).2]
variable {a b : String}

theorem utf8Le_antisymm (h : utf8Le a b) (h' : utf8Le b a) : a = b :=
  asBytes_injective (List.map_injective_iff.mpr (fun _ _ => UInt8.toNat_inj.mp)
    (codesLe_antisymm h h'))

theorem eq_of_arrayIndex {n : Nat} (ha : arrayIndex? a = some n)
    (hb : arrayIndex? b = some n) : a = b := by
  have hdecimal : ∀ {key : String}, arrayIndex? key = some n → key.toList = decimal n := by
    intro key h
    unfold arrayIndex? at h
    dsimp only at h
    split_ifs at h with hkey
    exact Option.some.inj h ▸ hkey.1
  exact String.toList_injective ((hdecimal ha).trans (hdecimal hb).symm)

theorem ownKeyLe_antisymm (h : ownKeyLe a b) (h' : ownKeyLe b a) : a = b := by
  unfold ownKeyLe at h h'
  cases ha : arrayIndex? a with
  | none =>
    cases hb : arrayIndex? b with
    | none =>
      rw [ha, hb] at h h'
      exact charCodes_injective (codesLe_antisymm h h')
    | some n =>
      rw [ha, hb] at h
      exact h.elim
  | some m =>
    cases hb : arrayIndex? b with
    | none =>
      rw [ha, hb] at h'
      exact h'.elim
    | some n =>
      rw [ha, hb] at h h'
      exact eq_of_arrayIndex ha (Nat.le_antisymm h h' ▸ hb)

instance : IsTrans (String × Json N) fun a b => utf8Le a.1 b.1 := ⟨fun _ _ _ => codesLe_trans⟩

instance : Std.Total fun a b : String × Json N => utf8Le a.1 b.1 := ⟨fun _ _ => codesLe_total _ _⟩

theorem byBytes_pairwise (fields : List (String × Json N)) :
    (byBytes fields).Pairwise fun a b => utf8Le a.1 b.1 :=
  List.pairwise_insertionSort _ fields

theorem byBytes_perm (fields : List (String × Json N)) : (byBytes fields).Perm fields :=
  List.perm_insertionSort _ fields

/-! ## The same order -/

theorem index_le_iff {m n : Nat} (ha : arrayIndex? a = some m)
    (hb : arrayIndex? b = some n) : ownKeyLe a b ↔ m ≤ n := by
  unfold ownKeyLe
  rw [ha, hb]

theorem index_of_mem {r : String × Json N → String × Json N → Prop} [DecidableRel r]
    {own : List (String × Json N)} {field : String × Json N}
    (h : field ∈ (own.filter fun field => (arrayIndex? field.1).isSome).insertionSort r) :
    ∃ n, arrayIndex? field.1 = some n :=
  Option.isSome_iff_exists.mp
    (List.mem_filter.mp ((List.perm_insertionSort r _).mem_iff.mp h)).2

/-- **The own keys are in their order.** -/
theorem sortFields_pairwise (fields : List (String × Json N)) :
    (sortFields fields).Pairwise fun a b => ownKeyLe a.1 b.1 := by
  unfold sortFields ownFields
  refine List.pairwise_append.mpr ⟨?_, ?_, ?_⟩
  · have hsorted := List.pairwise_insertionSort
      (fun a b : String × Json N => (arrayIndex? a.1).getD 0 ≤ (arrayIndex? b.1).getD 0)
      (((fields.insertionSort keyLe).filter fun field => field.1 ≠ "__proto__").filter
        fun field => (arrayIndex? field.1).isSome)
    refine hsorted.imp_of_mem fun {a b} ha hb hle => ?_
    obtain ⟨m, hm⟩ := index_of_mem ha
    obtain ⟨n, hn⟩ := index_of_mem hb
    rw [hm, hn] at hle
    exact (index_le_iff hm hn).mpr hle
  · have hsorted := (List.pairwise_insertionSort keyLe fields).filter
      (fun field : String × Json N => decide (field.1 ≠ "__proto__"))
    refine (hsorted.filter _).imp_of_mem fun {a b} ha hb hle => ?_
    have ha' := Option.isNone_iff_eq_none.mp (List.mem_filter.mp ha).2
    have hb' := Option.isNone_iff_eq_none.mp (List.mem_filter.mp hb).2
    unfold ownKeyLe
    rw [ha', hb']
    exact hle
  · intro a ha b hb
    obtain ⟨m, hm⟩ := index_of_mem ha
    have hb' := Option.isNone_iff_eq_none.mp (List.mem_filter.mp hb).2
    unfold ownKeyLe
    rw [hm, hb']
    trivial

theorem sortFields_perm (fields : List (String × Json N)) :
    (sortFields fields).Perm (fields.filter fun field => field.1 ≠ "__proto__") := by
  unfold sortFields ownFields
  refine ((List.perm_insertionSort _ _).append_right _).trans ?_
  have hsplit := List.filter_append_perm (fun field : String × Json N =>
    (arrayIndex? field.1).isSome) ((fields.insertionSort keyLe).filter
      fun field => field.1 ≠ "__proto__")
  refine List.Perm.trans ?_ (hsplit.trans ((List.perm_insertionSort keyLe fields).filter _))
  refine List.Perm.append_left _ (List.Perm.of_eq (List.filter_congr fun field _ => ?_))
  cases arrayIndex? field.1 <;> rfl

/-- An object's keys come in the same order by their bytes and as own keys, and all of them are
kept. -/
def SameOrder (keys : List String) : Prop :=
  ∀ a ∈ keys, a ≠ "__proto__" ∧ ∀ b ∈ keys, ownKeyLe a b ↔ utf8Le a b

instance (keys : List String) : Decidable (SameOrder keys) :=
  inferInstanceAs (Decidable (∀ a ∈ keys, a ≠ "__proto__" ∧ ∀ b ∈ keys, (_ ↔ _)))

/-- Members of the same keys, none of them twice, are the same if they are so in some order. -/
theorem eq_of_perm {fields fields' : List (String × Json N)}
    (hkeys : fields.map Prod.fst = fields'.map Prod.fst) (hnodup : (fields.map Prod.fst).Nodup)
    (hperm : fields.Perm fields') : fields = fields' := by
  induction fields generalizing fields' with
  | nil => exact (List.map_eq_nil_iff.mp hkeys.symm).symm
  | cons f fields ih =>
    cases fields' with
    | nil => cases hkeys
    | cons g fields' =>
      obtain ⟨hfst, hrest⟩ := List.cons.inj hkeys
      obtain ⟨hnotin, hnodup⟩ := List.nodup_cons.mp hnodup
      have hfg : f = g := by
        rcases List.mem_cons.mp (hperm.mem_iff.mp List.mem_cons_self) with hfg | hmem
        · exact hfg
        · exact absurd (hrest ▸ List.mem_map_of_mem hmem) hnotin
      subst hfg
      rw [ih hrest hnodup ((List.perm_cons f).mp hperm)]

theorem utf8Le_refl (a : String) : utf8Le a a := (codesLe_total _ _).elim id id

theorem ownKeyLe_refl (a : String) : ownKeyLe a a := by
  unfold ownKeyLe
  cases arrayIndex? a with
  | none => exact (codesLe_total _ _).elim id id
  | some n => exact Nat.le_refl n

/-- The two orders are the same on a list that is in both. -/
theorem sameOrder_of_pairwise {keys : List String} (hown : keys.Pairwise ownKeyLe)
    (hutf8 : keys.Pairwise utf8Le) (ha : a ∈ keys) (hb : b ∈ keys) :
    ownKeyLe a b ↔ utf8Le a b := by
  have hboth := hown.and hutf8
  have hforward : keys.Pairwise fun a b => ownKeyLe a b ↔ utf8Le a b :=
    hboth.imp fun h => iff_of_true h.1 h.2
  have hbackward : keys.Pairwise fun a b => ownKeyLe b a ↔ utf8Le b a := by
    refine hboth.imp fun {a b} h => ⟨fun hba => ?_, fun hba => ?_⟩
    · rw [ownKeyLe_antisymm h.1 hba]
      exact utf8Le_refl b
    · rw [utf8Le_antisymm h.2 hba]
      exact ownKeyLe_refl b
  have hrefl : ∀ a ∈ keys, ownKeyLe a a ↔ utf8Le a a := fun a _ =>
    iff_of_true (ownKeyLe_refl a) (utf8Le_refl a)
  exact hforward.forall_of_forall_of_flip hrefl hbackward ha hb

/-- **An object's members are the same on both sides exactly if their keys come in the same order
and their values are the same.** -/
theorem sortFields_eq_iff {fields fields' : List (String × Json N)}
    (hkeys : fields.map Prod.fst = fields'.map Prod.fst) (hnodup : (fields.map Prod.fst).Nodup) :
    sortFields fields = byBytes fields' ↔
      SameOrder (fields.map Prod.fst) ∧ fields = fields' := by
  constructor
  · intro heq
    have hperm : (fields.filter fun field => field.1 ≠ "__proto__").Perm fields' :=
      (sortFields_perm fields).symm.trans (heq ▸ byBytes_perm fields')
    have hall : (fields.filter fun field => field.1 ≠ "__proto__") = fields := by
      refine (List.filter_sublist).eq_of_length ?_
      rw [hperm.length_eq, ← List.length_map (f := Prod.fst), ← hkeys, List.length_map]
    have hsame : fields = fields' := eq_of_perm hkeys hnodup (hall ▸ hperm)
    have hkept : (sortFields fields).Perm fields :=
      (sortFields_perm fields).trans (List.Perm.of_eq hall)
    have hmem : ∀ {a}, a ∈ fields.map Prod.fst → a ∈ (sortFields fields).map Prod.fst :=
      fun ha => (hkept.map Prod.fst).mem_iff.mpr ha
    have hown := List.pairwise_map.mpr (sortFields_pairwise fields)
    have hutf8 := List.pairwise_map.mpr (byBytes_pairwise fields')
    refine ⟨fun a ha => ⟨?_, fun b hb => ?_⟩, hsame⟩
    · obtain ⟨field, hfield, rfl⟩ := List.mem_map.mp ha
      have := List.filter_eq_self.mp hall field hfield
      simpa using this
    · exact sameOrder_of_pairwise hown (heq ▸ hutf8) (hmem ha) (hmem hb)
  · rintro ⟨hsame, rfl⟩
    have hall : (fields.filter fun field => field.1 ≠ "__proto__") = fields :=
      List.filter_eq_self.mpr fun field hfield => by
        simpa using (hsame field.1 (List.mem_map_of_mem hfield)).1
    have hperm : (sortFields fields).Perm fields :=
      (sortFields_perm fields).trans (List.Perm.of_eq hall)
    have hutf8 : (sortFields fields).Pairwise fun a b => utf8Le a.1 b.1 := by
      refine (sortFields_pairwise fields).imp_of_mem fun {a b} ha hb hle => ?_
      have ha' := List.mem_map_of_mem (f := Prod.fst) (hperm.mem_iff.mp ha)
      have hb' := List.mem_map_of_mem (f := Prod.fst) (hperm.mem_iff.mp hb)
      exact ((hsame a.1 ha').2 b.1 hb').mp hle
    refine (hperm.trans (byBytes_perm fields).symm).eq_of_pairwise (fun a b ha hb hab hba => ?_)
      hutf8 (byBytes_pairwise fields)
    exact List.inj_on_of_nodup_map hnodup (hperm.mem_iff.mp ha)
      ((byBytes_perm fields).mem_iff.mp hb) (utf8Le_antisymm hab hba)

/-! ## Values -/

theorem canonicalizeElems_eq (xs : List (Json N)) :
    canonicalizeElems xs = xs.map canonicalizeJson := by
  induction xs with
  | nil => rfl
  | cons x xs ih => rw [canonicalizeElems, ih, List.map_cons]

theorem canonicalizeFields_eq (fields : List (String × Json N)) :
    canonicalizeFields fields = fields.map fun field => (field.1, canonicalizeJson field.2) := by
  induction fields with
  | nil => rfl
  | cons field fields ih => rw [canonicalizeFields, ih, List.map_cons]

theorem btreeElems_eq (xs : List (Json N)) : btreeElems xs = xs.map btree := by
  induction xs with
  | nil => rfl
  | cons x xs ih => rw [btreeElems, ih, List.map_cons]

theorem btreeFields_eq (fields : List (String × Json N)) :
    btreeFields fields = fields.map fun field => (field.1, btree field.2) := by
  induction fields with
  | nil => rfl
  | cons field fields ih => rw [btreeFields, ih, List.map_cons]

/-- Both sides agree on a value: on the order of the keys of its objects, and on its numbers. -/
inductive Agree (same : L → Prop) : Json L → Prop where
  | null : Agree same .null
  | bool (b : Bool) : Agree same (.bool b)
  | num {n : L} (h : same n) : Agree same (.num n)
  | str (s : String) : Agree same (.str s)
  | arr {elems : List (Json L)} (h : ∀ x ∈ elems, Agree same x) : Agree same (.arr elems)
  | obj {fields : List (String × Json L)} (hkeys : SameOrder (fields.map Prod.fst))
      (h : ∀ field ∈ fields, Agree same field.2) : Agree same (.obj fields)

theorem agree_arr {same : L → Prop} {xs : List (Json L)} :
    Agree same (.arr xs) ↔ ∀ x ∈ xs, Agree same x :=
  ⟨fun h => by cases h; assumption, .arr⟩

theorem agree_obj {same : L → Prop} {fields : List (String × Json L)} :
    Agree same (.obj fields) ↔
      SameOrder (fields.map Prod.fst) ∧ ∀ field ∈ fields, Agree same field.2 :=
  ⟨fun h => by cases h with | obj hkeys h => exact ⟨hkeys, h⟩, fun h => .obj h.1 h.2⟩

/-- **Both sides have the same value exactly if they agree on its keys and its numbers.** -/
theorem canonicalizeJson_eq_iff {f g : L → M} {v : Json L} (hv : v.UniqueKeys) :
    canonicalizeJson (v.mapNum f) = btree (v.mapNum g) ↔ Agree (fun n => f n = g n) v := by
  induction v using Json.memberInduction with
  | null => exact iff_of_true rfl .null
  | bool b => exact iff_of_true rfl (.bool b)
  | str s => exact iff_of_true rfl (.str s)
  | num n =>
    constructor
    · exact fun h => .num (Json.num.inj h)
    · intro h
      cases h with
      | num h => exact congrArg Json.num h
  | arr xs ih =>
    cases hv with
    | arr hxs =>
      rw [Json.mapNum, Json.mapNum, Json.mapElems_eq, Json.mapElems_eq, canonicalizeJson, btree,
        canonicalizeElems_eq, btreeElems_eq, List.map_map, List.map_map, Json.arr.injEq,
        List.map_inj_left, agree_arr]
      exact forall₂_congr fun x hx => ih x hx (hxs x hx)
  | obj fields ih =>
    cases hv with
    | obj hkeys hfields =>
      have hkeep : ∀ h : Json L → Json M,
          (fields.map fun field => (field.1, h field.2)).map Prod.fst = fields.map Prod.fst := by
        intro h
        rw [List.map_map]
        rfl
      rw [Json.mapNum, Json.mapNum, Json.mapFields_eq, Json.mapFields_eq, canonicalizeJson, btree,
        canonicalizeFields_eq, btreeFields_eq, List.map_map, List.map_map, Json.obj.injEq,
        agree_obj]
      have hiff := sortFields_eq_iff
        ((hkeep fun x => canonicalizeJson (x.mapNum f)).trans
          (hkeep fun x => btree (x.mapNum g)).symm)
        ((hkeep fun x => canonicalizeJson (x.mapNum f)).symm ▸ hkeys)
      refine hiff.trans ?_
      rw [hkeep fun x => canonicalizeJson (x.mapNum f), List.map_inj_left]
      refine and_congr_right fun _ => forall₂_congr fun field hfield => ?_
      rw [← ih field hfield (hfields field hfield)]
      exact ⟨fun h => congrArg Prod.snd h, fun h => Prod.ext rfl h⟩

/-! ## Values over the texts of their numbers -/

theorem sortFields_map (h : Json N → Json M) (fields : List (String × Json N)) :
    sortFields (fields.map fun field => (field.1, h field.2)) =
      (sortFields fields).map fun field => (field.1, h field.2) := by
  unfold sortFields ownFields
  rw [← List.map_insertionSort keyLe keyLe (fun field : String × Json N => (field.1, h field.2))
    fields fun _ _ _ _ => Iff.rfl]
  simp only [List.filter_map, List.map_append]
  congr 1
  exact (List.map_insertionSort _ _ (fun field : String × Json N => (field.1, h field.2)) _
    fun _ _ _ _ => Iff.rfl).symm

theorem byBytes_map (h : Json N → Json M) (fields : List (String × Json N)) :
    byBytes (fields.map fun field => (field.1, h field.2)) =
      (byBytes fields).map fun field => (field.1, h field.2) :=
  (List.map_insertionSort _ _ (fun field : String × Json N => (field.1, h field.2)) fields
    fun _ _ _ _ => Iff.rfl).symm

/-- The numbers have no part in the order of keys. -/
theorem canonicalizeJson_mapNum (f : N → M) (v : Json N) :
    canonicalizeJson (v.mapNum f) = (canonicalizeJson v).mapNum f := by
  induction v using Json.memberInduction with
  | null => rfl
  | bool b => rfl
  | num n => rfl
  | str s => rfl
  | arr xs ih =>
    simp only [Json.mapNum, Json.mapElems_eq, canonicalizeJson, canonicalizeElems_eq, List.map_map,
      Json.arr.injEq]
    exact List.map_congr_left ih
  | obj fields ih =>
    simp only [Json.mapNum, Json.mapFields_eq, canonicalizeJson, canonicalizeFields_eq,
      Json.obj.injEq, ← sortFields_map, List.map_map]
    refine congrArg sortFields (List.map_congr_left fun field hfield => ?_)
    exact Prod.ext rfl (ih field hfield)

theorem btree_mapNum (f : N → M) (v : Json N) : btree (v.mapNum f) = (btree v).mapNum f := by
  induction v using Json.memberInduction with
  | null => rfl
  | bool b => rfl
  | num n => rfl
  | str s => rfl
  | arr xs ih =>
    simp only [Json.mapNum, Json.mapElems_eq, btree, btreeElems_eq, List.map_map, Json.arr.injEq]
    exact List.map_congr_left ih
  | obj fields ih =>
    simp only [Json.mapNum, Json.mapFields_eq, btree, btreeFields_eq, Json.obj.injEq,
      ← byBytes_map, List.map_map]
    refine congrArg byBytes (List.map_congr_left fun field hfield => ?_)
    exact Prod.ext rfl (ih field hfield)

/-- A text that a number may have. -/
def IsNumberText (text : Bytes) : Prop := text ≠ [] ∧ ∀ b ∈ text, Json.isNumberByte b

theorem unambiguous_texts :
    Json.Unambiguous (Subtype.val : { text : Bytes // IsNumberText text } → Bytes) :=
  ⟨fun n => n.2.1, fun n => n.2.2, Subtype.val_injective⟩

/-- **The bytes are the same exactly if both sides agree** on the order of keys, and on the texts of
numbers. -/
theorem render_eq_iff {number : N → Bytes} {number' : M → Bytes} {f : L → N} {g : L → M}
    (hf : ∀ n, IsNumberText (number (f n))) (hg : ∀ n, IsNumberText (number' (g n))) {v : Json L}
    (hv : v.UniqueKeys) :
    (canonicalizeJson (v.mapNum f)).render number = (btree (v.mapNum g)).render number' ↔
      Agree (fun n => number (f n) = number' (g n)) v := by
  let text (n : L) : { text : Bytes // IsNumberText text } := ⟨number (f n), hf n⟩
  let text' (n : L) : { text : Bytes // IsNumberText text } := ⟨number' (g n), hg n⟩
  have hleft : (canonicalizeJson (v.mapNum f)).render number =
      (canonicalizeJson (v.mapNum text)).render Subtype.val := by
    rw [canonicalizeJson_mapNum, canonicalizeJson_mapNum, Json.render_mapNum, Json.render_mapNum]
    rfl
  have hright : (btree (v.mapNum g)).render number' =
      (btree (v.mapNum text')).render Subtype.val := by
    rw [btree_mapNum, btree_mapNum, Json.render_mapNum, Json.render_mapNum]
    rfl
  have hsame : (fun n => text n = text' n) = fun n => number (f n) = number' (g n) :=
    funext fun n => propext Subtype.mk_eq_mk
  rw [hleft, hright, (Json.render_injective unambiguous_texts).eq_iff, canonicalizeJson_eq_iff hv,
    hsame]

/-! ## Links -/

/-- The object that both sides make of a link, over its number literals. -/
def linkObject (payload : Json L) (prevHash : Option String) (seq : L)
    (signerDeviceId signerPubkey timestamp : String) : Json L :=
  .obj [("payload", payload), ("prevHash", prevHash.elim .null .str), ("seq", .num seq),
    ("signerDeviceId", .str signerDeviceId), ("signerPubkey", .str signerPubkey),
    ("timestamp", .str timestamp)]

/-- The bytes that `computeEntryHash` hashes. -/
def serverBytes (js : Js N) (seq : N) (prevHash : Option String)
    (timestamp signerDeviceId signerPubkey : String) (payload : Json N) : Bytes :=
  stringify js
    (canonicalizeJson (linkObject payload prevHash seq signerDeviceId signerPubkey timestamp))

/-- The bytes that `compute_entry_hash` hashes, once it has read the payload. -/
def deviceBytes (floatText : Sigchain.FloatText F) (seq : UInt64) (prevHash : Option String)
    (timestamp signerDeviceId signerPubkey : String) (payload : Sigchain.Value F) : Bytes :=
  Sigchain.toBytes floatText
    (Sigchain.canonical payload prevHash seq signerDeviceId signerPubkey timestamp)

variable {js : Js N} {prims : Sigchain.SigchainPrims F} {jsNumber : L → N}
  {serdeNumber : L → Sigchain.Number F} {payload : Json L} {seq : L} {seqNo : UInt64}
  {prevHash : Option String} {timestamp signerDeviceId signerPubkey payloadJson : String}

theorem deviceBytes_eq {floatText : Sigchain.FloatText F} {n : Sigchain.Number F}
    (hseq : n = .int seqNo.toNat) (payload : Sigchain.Value F) :
    deviceBytes floatText seqNo prevHash timestamp signerDeviceId signerPubkey payload =
      (linkObject payload prevHash n signerDeviceId signerPubkey timestamp).render
        (Sigchain.numberText floatText) := by
  rw [hseq]
  rfl

theorem server_hash (sha256 : Bytes → U8Array 32) (seq : N) (payload : Json N) :
    computeEntryHash js sha256 seq prevHash timestamp signerDeviceId signerPubkey payload =
      hexEncode (sha256 (serverBytes js seq prevHash timestamp signerDeviceId signerPubkey
        payload)).bytes := rfl

theorem device_hash {payload : Sigchain.Value F}
    (hparse : prims.fromStr payloadJson = .ok payload) :
    Sigchain.computeEntryHash prims seqNo prevHash timestamp signerDeviceId signerPubkey
        payloadJson =
      .ok (hexEncode (prims.sha256 (deviceBytes prims.floatText seqNo prevHash timestamp
        signerDeviceId signerPubkey payload)).bytes) := by
  unfold Sigchain.computeEntryHash
  rw [hparse]
  rfl

theorem linkObject_mapNum (f : L → N) :
    (linkObject payload prevHash seq signerDeviceId signerPubkey timestamp).mapNum f =
      linkObject (payload.mapNum f) prevHash (f seq) signerDeviceId signerPubkey timestamp := by
  cases prevHash <;> rfl

theorem linkObject_unique (hpayload : payload.UniqueKeys) :
    (linkObject payload prevHash seq signerDeviceId signerPubkey timestamp).UniqueKeys := by
  refine .obj (by simp) ?_
  simp only [List.forall_mem_cons]
  refine ⟨hpayload, ?_, .num seq, .str _, .str _, .str _, fun _ h => by cases h⟩
  cases prevHash
  · exact .null
  · exact .str _

/-- The keys of a link are in order. -/
theorem agree_linkObject {same : L → Prop} :
    Agree same (linkObject payload prevHash seq signerDeviceId signerPubkey timestamp) ↔
      Agree same payload ∧ same seq := by
  have hkeys : SameOrder ["payload", "prevHash", "seq", "signerDeviceId", "signerPubkey",
      "timestamp"] := by decide +kernel
  rw [linkObject, agree_obj]
  constructor
  · rintro ⟨-, h⟩
    refine ⟨h ("payload", payload) (by simp), ?_⟩
    cases h ("seq", .num seq) (by simp) with
    | num h => exact h
  · rintro ⟨hpayload, hseq⟩
    refine ⟨hkeys, ?_⟩
    simp only [List.forall_mem_cons]
    refine ⟨hpayload, ?_, .num hseq, .str _, .str _, .str _, fun _ h => by cases h⟩
    cases prevHash
    · exact .null
    · exact .str _

/-- A link is written with its keys in the order of a `BTreeMap`. -/
theorem btree_linkObject (seq : N) (payload : Json N) :
    btree (linkObject payload prevHash seq signerDeviceId signerPubkey timestamp) =
      linkObject (btree payload) prevHash seq signerDeviceId signerPubkey timestamp := by
  have hsorted : ["payload", "prevHash", "seq", "signerDeviceId", "signerPubkey",
      "timestamp"].Pairwise utf8Le := by decide +kernel
  have hnull : btree (prevHash.elim .null .str : Json N) = prevHash.elim .null .str := by
    cases prevHash <;> rfl
  rw [linkObject, btree, btreeFields_eq, byBytes, List.Pairwise.insertionSort_eq]
  · simp only [List.map_cons, hnull]
    rfl
  · rw [← List.pairwise_map (f := Prod.fst) (R := utf8Le)]
    exact hsorted

/-- **Both sides hash the same bytes exactly if they agree on the payload's keys and on the texts of
its numbers**, and of the link's own; then they compute the same hash. -/
theorem entryHash_iff (hnumbers : ∀ n, IsNumberText (stringifyNumber js (jsNumber n)))
    (hpayload : payload.UniqueKeys)
    (hparse : prims.fromStr payloadJson = .ok (btree (payload.mapNum serdeNumber)))
    (hseq : serdeNumber seq = .int seqNo.toNat) :
    let same n :=
      stringifyNumber js (jsNumber n) = Sigchain.numberText prims.floatText (serdeNumber n)
    (serverBytes js (jsNumber seq) prevHash timestamp signerDeviceId signerPubkey
          (payload.mapNum jsNumber) =
        deviceBytes prims.floatText seqNo prevHash timestamp signerDeviceId signerPubkey
          (btree (payload.mapNum serdeNumber)) ↔
      Agree same payload ∧ same seq) ∧
    (Agree same payload ∧ same seq →
      Sigchain.computeEntryHash prims seqNo prevHash timestamp signerDeviceId signerPubkey
          payloadJson =
        .ok (computeEntryHash js prims.sha256 (jsNumber seq) prevHash timestamp signerDeviceId
          signerPubkey (payload.mapNum jsNumber))) := by
  intro same
  have hserde : ∀ n, IsNumberText (Sigchain.numberText prims.floatText (serdeNumber n)) := fun n =>
    ⟨(Sigchain.numberText_unambiguous prims.floatText).ne_nil _,
      (Sigchain.numberText_unambiguous prims.floatText).bytes _⟩
  have hbytes : serverBytes js (jsNumber seq) prevHash timestamp signerDeviceId signerPubkey
        (payload.mapNum jsNumber) =
      deviceBytes prims.floatText seqNo prevHash timestamp signerDeviceId signerPubkey
        (btree (payload.mapNum serdeNumber)) ↔ Agree same payload ∧ same seq := by
    have hrender := render_eq_iff
      (v := linkObject payload prevHash seq signerDeviceId signerPubkey timestamp) hnumbers hserde
      (linkObject_unique hpayload)
    rw [linkObject_mapNum, linkObject_mapNum, btree_linkObject, agree_linkObject] at hrender
    rw [deviceBytes_eq hseq]
    exact hrender
  refine ⟨hbytes, fun hagree => ?_⟩
  rw [device_hash hparse, server_hash, hbytes.mpr hagree]

/-! ## Keys on which they do not agree -/

/-- A payload whose members have these keys. -/
def keyed (keys : List String) : Json Int := .obj (keys.map fun key => (key, .null))

/-- The bytes that the server and a device hash for a first link with the payload, where all numbers
are integers. -/
def sampleBytes (payload : Json Int) : Bytes × Bytes :=
  (serverBytes (integerJs fun _ => none) 1 none "2026-01-01T00:00:00Z" "dev-1" Sigchain.sampleKey
      payload,
    deviceBytes Sigchain.noFloats 1 none "2026-01-01T00:00:00Z" "dev-1" Sigchain.sampleKey
      (btree (payload.mapNum .int)))

/-- **Two array indices are hashed in another order**, as a name is that begins beyond U+FFFF, and a
key `__proto__` is left out. -/
theorem keys_differ : [["10", "9"], ["～", "𐀀"], ["__proto__"]].Forall fun keys =>
    (keyed keys).UniqueKeys ∧
      (sampleBytes (keyed keys)).1 ≠ (sampleBytes (keyed keys)).2 := by
  refine List.forall_iff_forall_mem.mpr fun keys hkeys => ?_
  constructor
  · refine .obj ?_ ?_
    · revert keys
      decide +kernel
    · intro field hfield
      obtain ⟨key, -, rfl⟩ := List.mem_map.mp hfield
      exact .null
  · revert keys
    decide +kernel

/-- The payload of the first link, as it is sent. -/
def samplePayload : Json Int :=
  .obj [("type", .str "user_init"), ("deviceId", .str "dev-1")]

theorem samplePayload_unique : samplePayload.UniqueKeys := by
  refine .obj (by decide) ?_
  simp only [List.forall_mem_cons]
  exact ⟨.str _, .str _, fun _ h => by cases h⟩

theorem samplePayload_agree (same : Int → Prop) : Agree same samplePayload := by
  refine .obj (by decide +kernel) ?_
  simp only [List.forall_mem_cons]
  exact ⟨.str _, .str _, fun _ h => by cases h⟩

theorem samplePayload_parsed : Sigchain.samplePrims.fromStr Sigchain.initPayload =
    .ok (btree (samplePayload.mapNum .int)) := by
  have hread : Sigchain.samplePrims.fromStr Sigchain.initPayload =
      .ok (.obj [("deviceId", .str "dev-1"), ("type", .str "user_init")]) := by
    change Sigchain.sampleFromStr Sigchain.initPayload = _
    rw [Sigchain.sampleFromStr, if_pos rfl]
  rw [hread]
  refine congrArg Except.ok ?_
  have hnot : ¬ utf8Le "type" "deviceId" := by decide +kernel
  simp only [samplePayload, Json.mapNum, Json.mapFields_eq, btree, btreeFields_eq, List.map_cons,
    List.map_nil, byBytes, List.insertionSort_cons, List.insertionSort_nil, List.orderedInsert,
    if_neg hnot]

theorem integerJs_numbers (n : Int) :
    IsNumberText (stringifyNumber (integerJs fun _ => none) (id n)) :=
  ⟨(unambiguous_integerJs _).ne_nil n, (unambiguous_integerJs _).bytes n⟩

theorem samplePayload_hashed :
    Sigchain.computeEntryHash Sigchain.samplePrims 1 none "2026-01-01T00:00:00Z" "dev-1"
        Sigchain.sampleKey Sigchain.initPayload =
      .ok (computeEntryHash (integerJs fun _ => none) Sigchain.samplePrims.sha256 1 none
        "2026-01-01T00:00:00Z" "dev-1" Sigchain.sampleKey samplePayload) :=
  (@entryHash_iff Int Int Empty _ _ id .int samplePayload 1 1 none "2026-01-01T00:00:00Z" "dev-1"
    Sigchain.sampleKey Sigchain.initPayload integerJs_numbers samplePayload_unique
    samplePayload_parsed rfl).2 ⟨samplePayload_agree _, by decide +kernel⟩

end Llamenos.Worker.EntryHash
