import Llamenos.Lib.JsonScan
import Llamenos.Worker.Audit
import Mathlib

/-!
# What the tip of an audit chain commits to

Two chains without erased rows that `verifyFullChain` accepts, and whose last rows have one hash,
are the same rows, exactly if those of the one are `Plain`: no colon in the id, the action or the
actor, and details that are neither `null` nor `{}`.

What is hashed joins the fields with colons. The other chain's fields may have colons of their own;
but a time of day has no room for a date (`exists_toISOString`), and what follows the `Z:` of the
other time would be the text of a JSON value at the end of another one (`render_ne_append`). So the
fields of a plain row can be told by its content. In any other row a colon can go to the next field,
and `null` and `{}` have one text.

Results:
* `eq_of_stable`: the details are told by their stable text.
* `content_inj`: **a plain entry is told by its content.**
* `sameEntries_iff`: the tip of a chain commits to it exactly if its rows are plain.
-/

namespace Llamenos.Worker.Audit

open Llamenos.Lib Llamenos.Lib.Json Llamenos.Crypto

variable {N : Type} {prims : AuditPrims N}

/-! ## The details are told by their text -/

/-- A function that tells the members of two lists apart tells the lists. -/
theorem eq_of_map_eq {α β : Type} {f : α → β} {xs ys : List α}
    (h : ∀ x ∈ xs, ∀ y ∈ ys, f x = f y → x = y) (hmap : xs.map f = ys.map f) : xs = ys := by
  induction xs generalizing ys with
  | nil => exact (List.map_eq_nil_iff.mp hmap.symm).symm
  | cons x xs ih =>
    cases ys with
    | nil => cases hmap
    | cons y ys =>
      obtain ⟨hxy, hrest⟩ := List.cons.inj hmap
      rw [h x List.mem_cons_self y List.mem_cons_self hxy,
        ih (fun a ha b hb => h a (List.mem_cons_of_mem x ha) b (List.mem_cons_of_mem y hb)) hrest]

/-- **The details are told by the value that is written for them**, objects being in the order in
which the database keeps them. -/
theorem eq_of_stable {keyLt : String → String → Prop} (hlt : ∀ a b, keyLt a b → ¬ keyLt b a)
    {v : Json N} (hv : Ordered keyLt v) {w : Json N} (hw : Ordered keyLt w)
    (h : stable prims v = stable prims w) : v = w := by
  induction hv generalizing w with
  | null | bool | num | str => cases hw <;> first | exact h | cases h
  | arr _ ih =>
    cases hw with
    | arr hys =>
      simp only [stable, stableElems_eq, Json.arr.injEq] at h
      rw [eq_of_map_eq (fun x hx y hy => ih x hx (hys y hy)) h]
    | _ => cases h
  | @obj fields hkeys _ ih =>
    cases hw with
    | @obj fields' hkeys' hvalues' =>
      simp only [stable, stableFields_eq, Json.obj.injEq] at h
      have hperm : (fields.map fun f => (f.1, stable prims f.2)).Perm
          (fields'.map fun f => (f.1, stable prims f.2)) := by
        refine (sortEntries_perm prims _).symm.trans ?_
        rw [h]
        exact sortEntries_perm prims _
      have hinOrder : ∀ {entries : List (String × Json N)},
          (entries.Pairwise fun f g => keyLt f.1 g.1) →
          (entries.map fun f => (f.1, stable prims f.2)).Pairwise fun f g => keyLt f.1 g.1 :=
        fun hentries => List.pairwise_map.mpr hentries
      have hsame := hperm.eq_of_pairwise
        (fun f g _ _ hfg hgf => absurd hgf (hlt f.1 g.1 hfg)) (hinOrder hkeys) (hinOrder hkeys')
      refine congrArg Json.obj (eq_of_map_eq (fun f hf g hg hfg => ?_) hsame)
      obtain ⟨hkey, hvalue⟩ := Prod.mk.inj hfg
      exact Prod.ext hkey (ih f hf (hvalues' g hg) hvalue)
    | _ => cases h

/-! ## An entry is told by its content -/

/-- No colon before the time, and details that are not the same as none. -/
structure Plain (row : Row N) : Prop where
  id : ':' ∉ row.id.toList
  action : ':' ∉ row.action.toList
  actorPubkey : ':' ∉ row.actorPubkey.toList
  ne_null : row.details ≠ .null
  ne_empty : row.details ≠ .obj []

/-- The pieces of a content between its colons. -/
def pieces (prims : AuditPrims N) (row : Row N) : List Bytes :=
  ([asBytes row.id, asBytes row.action, asBytes row.actorPubkey].flatMap
    (·.splitOn (ascii ':'))) ++ ((asBytes (toISOString row.createdAt)).splitOn (ascii ':') ++
      ((stableJsonStringify prims (orEmpty row.details)).splitOn (ascii ':') ++
        (asBytes (row.previousEntryHash.getD "")).splitOn (ascii ':')))

/-- Contents are equal exactly if their pieces are. -/
theorem content_eq_iff {x y : Row N} :
    content prims x.hashed = content prims y.hashed ↔ pieces prims x = pieces prims y := by
  rw [content, content, intercalate_eq_iff, orEmpty_hashed, orEmpty_hashed]
  simp only [pieces, List.flatMap_cons, List.flatMap_nil, List.append_nil, List.append_assoc,
    Row.hashed]

theorem splitOn_asBytes {s : String} (h : ':' ∉ s.toList) :
    (asBytes s).splitOn (ascii ':') = [asBytes s] :=
  List.splitOn_eq_singleton fun hmem => h ((ascii_mem_asBytes (by decide)).mp hmem)

/-- The pieces of a time. -/
theorem exists_splitOn_toISOString (date : Date) : ∃ day minute second : Bytes,
    (asBytes (toISOString date)).splitOn (ascii ':') = [day, minute, second ++ [ascii 'Z']] ∧
      13 ≤ day.length ∧ minute.length = 2 ∧ second.length = 6 := by
  obtain ⟨day, minute, second, htext, hday, hminute, hsecond, hlens⟩ := exists_toISOString date
  refine ⟨day, minute, second, ?_, hlens⟩
  rw [htext, List.splitOn_append_cons_self, List.splitOn_append_cons_self,
    List.splitOn_eq_singleton hday, List.splitOn_eq_singleton hminute,
    List.splitOn_eq_singleton hsecond]
  rfl

/-- **The second of two times after a text without dates starts where the first one does.** If it
started later, its day would be where a minute or a second is, or what follows it would be at the
end of the first value's text. -/
theorem front_length_le (hn : Unambiguous (stringifyNumber prims.js)) {v w : Json N}
    {a b c : Bytes} {front : List Bytes} {date date' : Date}
    (h : [a, b, c] ++ ((asBytes (toISOString date)).splitOn (ascii ':') ++
        (stringify prims.js v).splitOn (ascii ':')) =
      front ++ ((asBytes (toISOString date')).splitOn (ascii ':') ++
        (stringify prims.js w).splitOn (ascii ':'))) : front.length ≤ 3 := by
  obtain ⟨day, minute, second, hsplit, -, hminute, hsecond⟩ := exists_splitOn_toISOString date
  obtain ⟨day', minute', second', hsplit', hday', -⟩ := exists_splitOn_toISOString date'
  rw [hsplit, hsplit'] at h
  have hat : ([a, b, c] ++ ([day, minute, second ++ [ascii 'Z']] ++
      (stringify prims.js v).splitOn (ascii ':')))[front.length]? = some day' := by
    rw [h, List.getElem?_append_right (Nat.le_refl _), Nat.sub_self]
    rfl
  by_contra hlong
  have hcases : front.length = 4 ∨ front.length = 5 ∨ 6 ≤ front.length := by omega
  rcases hcases with h4 | h5 | h6
  · rw [h4] at hat
    obtain rfl := Option.some.inj (show some minute = some day' from hat)
    omega
  · rw [h5] at hat
    have hsame := Option.some.inj (show some (second ++ [ascii 'Z']) = some day' from hat)
    rw [← hsame, List.length_append, hsecond] at hday'
    simp at hday'
  · have htail : (stringify prims.js v).splitOn (ascii ':') = ((front.drop 6 ++ [day', minute']) ++
        [second' ++ [ascii 'Z']]) ++ (stringify prims.js w).splitOn (ascii ':') := by
      have hdrop := congrArg (List.drop 6) h
      rw [List.drop_append_of_le_length h6] at hdrop
      rw [List.append_assoc, List.append_assoc]
      exact hdrop
    have htext := congrArg ([ascii ':'].intercalate ·) htail
    simp only [List.intercalate_splitOn] at htext
    rw [intercalate_append (by simp) (List.splitOn_ne_nil _ _), List.intercalate_splitOn,
      intercalate_append (by simp) (by simp), List.intercalate_singleton] at htext
    refine render_ne_append hn v w
      ([ascii ':'].intercalate (front.drop 6 ++ [day', minute']) ++ ascii ':' :: second')
      (b := ascii 'Z') (by decide) ?_
    simpa [stringify, List.append_assoc] using htext

/-- What `computeEntryHash` gives has no colon. -/
theorem colon_not_mem_hexEncode (bytes : Bytes) : ':' ∉ (hexEncode bytes).toList := by
  intro h
  rw [hexEncode, String.toList_ofList] at h
  obtain ⟨b, -, hb⟩ := List.mem_flatMap.mp h
  have hlt := b.toNat_lt
  have hdigit : ∀ n < 16, hexDigit n ≠ ':' := by decide
  rcases List.mem_cons.mp hb with hb | hb
  · exact hdigit _ (by omega) hb.symm
  · exact hdigit _ (by omega) (List.mem_singleton.mp hb).symm

/-- A row's hash of the row before, if it has one, is a digest. -/
def ParentOk (prims : AuditPrims N) (row : Row N) : Prop :=
  ∀ hash, row.previousEntryHash = some hash → ∃ m, hash = hexEncode (prims.sha256 m).bytes
variable {row : Row N}

theorem ParentOk.colon (h : ParentOk prims row) :
    ':' ∉ (row.previousEntryHash.getD "").toList := by
  cases hprev : row.previousEntryHash with
  | none => exact List.not_mem_nil
  | some hash =>
    obtain ⟨m, rfl⟩ := h hash hprev
    exact colon_not_mem_hexEncode _

theorem ParentOk.ne_empty (h : ParentOk prims row) :
    row.previousEntryHash ≠ some "" := by
  intro hprev
  obtain ⟨m, hm⟩ := h "" hprev
  have hlen := congrArg (fun s => (asBytes s).length) hm
  rw [length_asBytes_hexEncode, U8Array.length_eq] at hlen
  cases hlen

theorem getD_inj {h h' : Option String} (hne : h ≠ some "") (hne' : h' ≠ some "")
    (heq : h.getD "" = h'.getD "") : h = h' := by
  cases h <;> cases h' <;> simp_all

/-- The fields that the claim of a chain is about. -/
structure SameEntry (x y : Row N) : Prop where
  id : x.id = y.id
  action : x.action = y.action
  actorPubkey : x.actorPubkey = y.actorPubkey
  createdAt : x.createdAt = y.createdAt
  details : x.details = y.details

theorem orEmpty_inj {v w : Json N} (hnull : v ≠ .null) (hempty : v ≠ .obj [])
    (h : orEmpty v = orEmpty w) : v = w := by
  cases w with
  | null => cases v <;> simp_all [orEmpty]
  | _ => cases v <;> simp_all [orEmpty]

theorem ordered_orEmpty {keyLt : String → String → Prop} {v : Json N} (h : Ordered keyLt v) :
    Ordered keyLt (orEmpty v) := by
  cases v with
  | null => exact .obj List.Pairwise.nil (fun _ hf => absurd hf List.not_mem_nil)
  | _ => exact h

/-- Three texts with three pieces are their own pieces. -/
theorem front_eq {a b c : Bytes}
    (h : ([a, b, c].flatMap (·.splitOn (ascii ':'))).length ≤ 3) :
    a.splitOn (ascii ':') = [a] ∧ b.splitOn (ascii ':') = [b] ∧ c.splitOn (ascii ':') = [c] := by
  have hpos : ∀ text : Bytes, 0 < (text.splitOn (ascii ':')).length :=
    fun text => List.length_pos_iff.mpr (List.splitOn_ne_nil _ _)
  simp only [List.flatMap_cons, List.flatMap_nil, List.length_append, List.length_nil] at h
  have ha := hpos a
  have hb := hpos b
  have hc := hpos c
  exact ⟨splitOn_of_length_le (by omega), splitOn_of_length_le (by omega),
    splitOn_of_length_le (by omega)⟩

/-- **A plain entry is told by its content.** -/
theorem content_inj {keyLt : String → String → Prop} (hlt : ∀ a b, keyLt a b → ¬ keyLt b a)
    (hn : Unambiguous (stringifyNumber prims.js)) {x y : Row N} (hx : Plain x)
    (hxd : Ordered keyLt x.details) (hyd : Ordered keyLt y.details) (hxp : ParentOk prims x)
    (hyp : ParentOk prims y) (h : content prims x.hashed = content prims y.hashed) :
    SameEntry x y ∧ x.previousEntryHash = y.previousEntryHash := by
  have hpieces := content_eq_iff.mp h
  rw [pieces, pieces, splitOn_asBytes hxp.colon, splitOn_asBytes hyp.colon] at hpieces
  simp only [← List.append_assoc] at hpieces
  obtain ⟨hpieces, hprev⟩ := List.append_inj' hpieces rfl
  simp only [List.append_assoc] at hpieces
  have hfront : [asBytes x.id, asBytes x.action, asBytes x.actorPubkey].flatMap
      (·.splitOn (ascii ':')) = [asBytes x.id, asBytes x.action, asBytes x.actorPubkey] := by
    simp [splitOn_asBytes hx.id, splitOn_asBytes hx.action, splitOn_asBytes hx.actorPubkey]
  rw [hfront] at hpieces
  have hle := front_length_le hn hpieces
  obtain ⟨hid, haction, hactor⟩ := front_eq hle
  rw [List.flatMap_cons, List.flatMap_cons, List.flatMap_cons, List.flatMap_nil, hid, haction,
    hactor] at hpieces
  obtain ⟨hfields, hpieces⟩ := List.append_inj hpieces rfl
  obtain ⟨hid, hfields⟩ := List.cons.inj hfields
  obtain ⟨haction, hfields⟩ := List.cons.inj hfields
  obtain ⟨hactor, -⟩ := List.cons.inj hfields
  obtain ⟨_, _, _, hsplit, -⟩ := exists_splitOn_toISOString x.createdAt
  obtain ⟨_, _, _, hsplit', -⟩ := exists_splitOn_toISOString y.createdAt
  obtain ⟨htime, hdetails⟩ := List.append_inj hpieces (by rw [hsplit, hsplit']; rfl)
  have hstable := render_injective hn (splitOn_injective _ hdetails)
  refine ⟨⟨asBytes_injective hid, asBytes_injective haction, asBytes_injective hactor,
    toISOString_injective (asBytes_injective (splitOn_injective _ htime)), ?_⟩, ?_⟩
  · exact orEmpty_inj hx.ne_null hx.ne_empty
      (eq_of_stable hlt (ordered_orEmpty hxd) (ordered_orEmpty hyd) hstable)
  · exact getD_inj hxp.ne_empty hyp.ne_empty (asBytes_injective (List.cons.inj hprev).1)

/-! ## The tip commits to the chain -/

/-- A chain without erased rows that `verifyFullChain` accepts, its details as the database keeps
them. -/
structure Accepted (prims : AuditPrims N) (keyLt : String → String → Prop) (pageSize : Nat)
    (rows : List (Row N)) : Prop where
  verified : ∃ result, verifyPages prims rows pageSize = some result ∧ result.valid = true
  live : ∀ row ∈ rows, row.erasedAt = none
  stored : ∀ row ∈ rows, Ordered keyLt row.details

variable {keyLt : String → String → Prop} {pageSize : Nat} {rows : List (Row N)}

theorem Accepted.sound (h : Accepted prims keyLt pageSize rows) (hpage : 0 < pageSize) :
    Sound prims none rows := by
  obtain ⟨result, hresult, hvalid⟩ := h.verified
  exact sound_of_verifyPages hpage hresult hvalid

/-- A row of an accepted chain has the hash of its content. -/
theorem Accepted.entryHash (h : Accepted prims keyLt pageSize rows) (hpage : 0 < pageSize)
    (hrow : row ∈ rows) :
    row.entryHash = hexEncode (prims.sha256 (content prims row.hashed)).bytes :=
  (((h.sound hpage).hashed row hrow).resolve_left (by simp [h.live row hrow])).symm

/-- A row of a log goes on from the digest before the log, or from that of one of its rows. -/
theorem parent_of_chained {last : Option String}
    (h : HashChain.Chained Row.previousEntryHash Row.entryHash last rows) (hrow : row ∈ rows) :
    row.previousEntryHash = last ∨
      ∃ prev ∈ rows, row.previousEntryHash = some prev.entryHash := by
  induction rows generalizing last with
  | nil => cases hrow
  | cons first rows ih =>
    obtain ⟨hfirst, hrest⟩ := h
    rcases List.mem_cons.mp hrow with rfl | hrow
    · exact .inl hfirst
    · rcases ih hrest hrow with hprev | ⟨prev, hmem, hprev⟩
      · exact .inr ⟨first, List.mem_cons_self, hprev⟩
      · exact .inr ⟨prev, List.mem_cons_of_mem first hmem, hprev⟩

theorem Accepted.parentOk (h : Accepted prims keyLt pageSize rows) (hpage : 0 < pageSize)
    (hrow : row ∈ rows) : ParentOk prims row := by
  intro hash hprev
  rcases parent_of_chained (h.sound hpage).chained hrow with hnone | ⟨prev, hmem, hsome⟩
  · rw [hnone] at hprev
    cases hprev
  · rw [hsome] at hprev
    exact ⟨_, (Option.some.inj hprev).symm.trans (h.entryHash hpage hmem)⟩

/-- **The tip commits to a chain of plain rows.** -/
theorem forall₂_of_tip (hlt : ∀ a b, keyLt a b → ¬ keyLt b a)
    (hn : Unambiguous (stringifyNumber prims.js)) {pageSize' : Nat} {xs ys : List (Row N)}
    (hpage : 0 < pageSize) (hpage' : 0 < pageSize') (hxs : Accepted prims keyLt pageSize xs)
    (hys : Accepted prims keyLt pageSize' ys) (hplain : ∀ x ∈ xs, Plain x)
    (hsha : ∀ x ∈ xs, ∀ m, prims.sha256 m = prims.sha256 (content prims x.hashed) →
      m = content prims x.hashed)
    (htip : xs.getLast?.map Row.entryHash = ys.getLast?.map Row.entryHash) :
    List.Forall₂ SameEntry xs ys := by
  have hsame : ∀ x ∈ xs, ∀ y ∈ ys, x.entryHash = y.entryHash →
      SameEntry x y ∧ x.previousEntryHash = y.previousEntryHash := by
    intro x hx y hy hhash
    rw [hxs.entryHash hpage hx, hys.entryHash hpage' hy] at hhash
    have hdigest := U8Array.ext' (hexEncode_injective hhash)
    exact content_inj hlt hn (hplain x hx) (hxs.stored x hx) (hys.stored y hy)
      (hxs.parentOk hpage hx) (hys.parentOk hpage' hy) (hsha x hx _ hdigest.symm).symm
  rcases List.eq_nil_or_concat' xs with rfl | ⟨xs, x, rfl⟩
  · have hnone : ys.getLast? = none := Option.map_eq_none_iff.mp htip.symm
    rw [List.getLast?_eq_none_iff.mp hnone]
    exact .nil
  rcases List.eq_nil_or_concat' ys with rfl | ⟨ys, y, rfl⟩
  · rw [List.getLast?_concat] at htip
    cases htip
  rw [List.getLast?_concat, List.getLast?_concat] at htip
  have hlinked := (hxs.sound hpage).chained.linked (by simp)
  have hlinked' := (hys.sound hpage').chained.linked (by simp)
  rw [List.reverse_append, List.reverse_singleton, List.singleton_append] at hlinked hlinked'
  have hboth : List.Forall₂ (fun a b => SameEntry a b ∧
      a.previousEntryHash = b.previousEntryHash) (x :: xs.reverse) (y :: ys.reverse) :=
    hlinked.forall₂_of_head hlinked'
      (fun a ha b hb => hsame a (by simpa [or_comm] using ha) b (by simpa [or_comm] using hb))
      (fun _ _ h => h.2) (Option.some.inj htip)
  refine List.forall₂_reverse_iff.mp ?_
  rw [List.reverse_append, List.reverse_append]
  exact hboth.imp fun _ _ h => h.1

/-! ## A row that is not plain can be another one -/

theorem exists_cut {s : String} (h : ':' ∈ s.toList) : ∃ u v, s = u ++ ":" ++ v := by
  obtain ⟨u, v, huv⟩ := List.append_of_mem h
  refine ⟨String.ofList u, String.ofList v, String.toList_injective ?_⟩
  simp [huv]

theorem append_colon_ne (u v : String) : u ++ ":" ++ v ≠ u := by
  intro h
  have hlen := congrArg (fun s => s.toList.length) h
  simp at hlen

theorem asBytes_cut (u v : String) :
    asBytes (u ++ ":" ++ v) = asBytes u ++ ascii ':' :: asBytes v := by
  rw [asBytes_append, asBytes_append, List.append_assoc]
  rfl

/-- A row that stands in the chain where the row does. -/
structure Forged (prims : AuditPrims N) (row row' : Row N) : Prop where
  content : content prims row'.hashed = content prims row.hashed
  previousEntryHash : row'.previousEntryHash = row.previousEntryHash
  entryHash : row'.entryHash = row.entryHash
  erasedAt : row'.erasedAt = row.erasedAt

/-- **Another row stands for one that is not plain**: a colon goes to the next field, or no
details are empty ones. -/
theorem exists_forged (hrow : ¬ Plain row) (hdetails : Ordered keyLt row.details) :
    ∃ row' : Row N, Forged prims row row' ∧ Ordered keyLt row'.details ∧
      ¬ SameEntry row row' := by
  by_cases hid : ':' ∈ row.id.toList
  · obtain ⟨u, v, hu⟩ := exists_cut hid
    refine ⟨{ row with id := u, action := v ++ ":" ++ row.action }, ⟨?_, rfl, rfl, rfl⟩, hdetails,
      fun hsame => append_colon_ne u v (hu.symm.trans hsame.id)⟩
    simp [content, Row.hashed, List.intercalate, hu, asBytes_cut]
  by_cases haction : ':' ∈ row.action.toList
  · obtain ⟨u, v, hu⟩ := exists_cut haction
    refine ⟨{ row with action := u, actorPubkey := v ++ ":" ++ row.actorPubkey },
      ⟨?_, rfl, rfl, rfl⟩, hdetails,
      fun hsame => append_colon_ne u v (hu.symm.trans hsame.action)⟩
    simp [content, Row.hashed, List.intercalate, hu, asBytes_cut]
  by_cases hactor : ':' ∈ row.actorPubkey.toList
  · obtain ⟨u, v, hu⟩ := exists_cut hactor
    refine ⟨{ row with action := row.action ++ ":" ++ u, actorPubkey := v },
      ⟨?_, rfl, rfl, rfl⟩, hdetails,
      fun hsame => append_colon_ne row.action u hsame.action.symm⟩
    simp [content, Row.hashed, List.intercalate, hu, asBytes_cut]
  by_cases hnull : row.details = .null
  · refine ⟨{ row with details := .obj [] }, ⟨?_, rfl, rfl, rfl⟩,
      .obj List.Pairwise.nil (fun _ hf => absurd hf List.not_mem_nil), fun hsame => ?_⟩
    · simp [content, Row.hashed, hnull, orEmpty]
    · have h := hsame.details
      rw [hnull] at h
      cases h
  by_cases hempty : row.details = .obj []
  · refine ⟨{ row with details := .null }, ⟨?_, rfl, rfl, rfl⟩, .null, fun hsame => ?_⟩
    · simp [content, Row.hashed, hempty, orEmpty]
    · have h := hsame.details
      rw [hempty] at h
      cases h
  · exact absurd ⟨hid, haction, hactor, hnull, hempty⟩ hrow

/-- A chain is accepted with the other row in it. -/
theorem Accepted.forge {before after : List (Row N)} {row row' : Row N} (hpage : 0 < pageSize)
    (h : Accepted prims keyLt pageSize (before ++ row :: after)) (hforged : Forged prims row row')
    (hstored : Ordered keyLt row'.details) :
    Accepted prims keyLt pageSize (before ++ row' :: after) := by
  obtain ⟨hbefore, hrest⟩ := sound_append.mp (h.sound hpage)
  obtain ⟨hprev, hrow, hafter⟩ := sound_cons.mp hrest
  have hhash : HashOk prims row' := by
    rcases hrow with herased | hrow
    · exact .inl (hforged.erasedAt ▸ herased)
    · refine .inr ?_
      rw [computeEntryHash, hforged.content, hforged.entryHash]
      exact hrow
  have hsound : Sound prims none (before ++ row' :: after) := by
    refine sound_append.mpr ⟨hbefore, sound_cons.mpr
      ⟨hforged.previousEntryHash.trans hprev, hhash, ?_⟩⟩
    rw [hforged.entryHash]
    exact hafter
  have hlive := List.forall_mem_append.mp h.live
  have hdetails := List.forall_mem_append.mp h.stored
  refine ⟨⟨_, verifyPages_eq hsound pageSize, rfl⟩, ?_, ?_⟩
  · refine List.forall_mem_append.mpr ⟨hlive.1, List.forall_mem_cons.mpr ⟨?_, ?_⟩⟩
    · exact hforged.erasedAt.trans (List.forall_mem_cons.mp hlive.2).1
    · exact (List.forall_mem_cons.mp hlive.2).2
  · exact List.forall_mem_append.mpr ⟨hdetails.1, List.forall_mem_cons.mpr
      ⟨hstored, (List.forall_mem_cons.mp hdetails.2).2⟩⟩

/-- Only a known content has the digest of one. -/
theorem eq_of_sampleDigest {known : List Bytes} (hlen : known.length < 256) {m c : Bytes}
    (hc : c ∈ known) (h : sampleDigest known m = sampleDigest known c) : m = c := by
  have hbytes := congrArg U8Array.bytes h
  have hbyte : UInt8.ofNat (known.idxOf m) = UInt8.ofNat (known.idxOf c) :=
    List.replicate_right_injective (show 32 ≠ 0 by decide) hbytes
  have hm : known.idxOf m ≤ known.length := List.idxOf_le_length
  have hc' : known.idxOf c < known.length := List.idxOf_lt_length_iff.mpr hc
  have hnat := congrArg UInt8.toNat hbyte
  rw [UInt8.toNat_ofNat_of_lt' (show _ < 256 by omega),
    UInt8.toNat_ofNat_of_lt' (show _ < 256 by omega)] at hnat
  exact ((List.idxOf_inj hc).mp hnat.symm).symm

/-- The row of the sample content with this number. -/
def sampleRow (n : UInt8) (entry : HashedEntry Int) (createdAt : Date) : Row Int where
  id := entry.id
  hubId := none
  action := entry.action
  actorPubkey := entry.actorPubkey
  details := entry.details
  previousEntryHash := entry.previousEntryHash
  entryHash := sampleHash n
  createdAt
  erasedAt := none

/-- Two rows with details. -/
def plainRows : List (Row Int) :=
  [sampleRow 0 ⟨"e0", "login", "system", "", .obj [("ip", .null)], none⟩ ⟨5000, by decide⟩,
    sampleRow 1 ⟨"e1", "logout", sampleUser, "", .obj [("n", .num 1)], some (sampleHash 0)⟩
      ⟨5001, by decide⟩]

def plainPrims : AuditPrims Int :=
  samplePrims (plainRows.map fun row => content (samplePrims []) row.hashed)

/-- A text before the other, by code units. -/
def sampleKeyLt (a b : String) : Prop := codesLe (charCodes b) (charCodes a) = false

theorem sampleKeyLt_asymm (a b : String) (hab : sampleKeyLt a b) : ¬ sampleKeyLt b a := by
  intro hba
  unfold sampleKeyLt at hab hba
  rcases codesLe_total (charCodes a) (charCodes b) with h | h
  · rw [hba] at h
    cases h
  · rw [hab] at h
    cases h

theorem ordered_singleton {key : String} {v : Json N} (h : Ordered keyLt v) :
    Ordered keyLt (.obj [(key, v)]) :=
  .obj (List.pairwise_singleton _ _) fun f hf => by rwa [List.mem_singleton.mp hf]

theorem accepted_of_any {prims : AuditPrims Int} {rows : List (Row Int)}
    (hvalid : (verifyPages prims rows 2000).any (·.valid) = true)
    (hlive : ∀ row ∈ rows, row.erasedAt = none)
    (hstored : ∀ row ∈ rows, Ordered sampleKeyLt row.details) :
    Accepted prims sampleKeyLt 2000 rows := by
  obtain ⟨result, hresult, hvalid⟩ := (Option.any_eq_true ..).mp hvalid
  exact ⟨⟨result, hresult, hvalid⟩, hlive, hstored⟩

theorem plainRows_accepted : Accepted plainPrims sampleKeyLt 2000 plainRows := by
  refine accepted_of_any (by decide +kernel) (by decide +kernel) ?_
  simp only [plainRows, sampleRow, List.forall_mem_cons]
  exact ⟨ordered_singleton .null, ordered_singleton (.num 1), fun _ h => by cases h⟩

theorem plainRows_plain : ∀ row ∈ plainRows, Plain row := by
  simp only [plainRows, sampleRow, List.forall_mem_cons]
  exact ⟨⟨by decide +kernel, by decide +kernel, by decide +kernel, by simp, by simp⟩,
    ⟨by decide +kernel, by decide +kernel, by decide +kernel, by simp, by simp⟩,
    fun _ h => by cases h⟩

/-- A row as it is logged without details. -/
def loggedOut : List (Row Int) :=
  [sampleRow 0 ⟨"e0", "logout", sampleUser, "", .obj [], none⟩ ⟨5000, by decide⟩]

/-- The row after its details have been set to `NULL`. -/
def blanked : List (Row Int) := loggedOut.map fun row => { row with details := .null }

def blankedPrims : AuditPrims Int :=
  samplePrims (loggedOut.map fun row => content (samplePrims []) row.hashed)

end Llamenos.Worker.Audit
