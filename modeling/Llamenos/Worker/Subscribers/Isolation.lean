import Llamenos.Worker.Subscribers

/-!
# What other hubs decide of a hub's subscribers

The preference token of a subscriber is derived from the hash of the identifier, which is the same
in every hub, and the tokens have a unique index over all hubs: an identifier that one hub has
cannot be inserted by another. So the rows of other hubs decide whether `importBulk` and
`handleSubscriberKeyword` throw, and at which entry.

Results:
* `importEntry_spec`: what an entry of an import does, in terms of the hub's own rows.
* `isolated_iff`: **two states that agree on a hub give the same exactly if the same row is the
  first that other hubs block**, among those that the hub would insert.
* `otherHub_throws`: an import throws since another hub has the identifier.
-/

namespace Llamenos.Worker.Subscribers

open Llamenos.Lib Llamenos.Crypto

variable {prims : Prims}

/-! ## The property -/

/-- The rows of a hub. -/
def rowsOf (hubId : String) (rows : List Subscriber) : List Subscriber :=
  rows.filter (·.hubId = some hubId)

/-- The states agree on the hub. -/
structure Agree (hubId : String) (db db' : Db) : Prop where
  rows : rowsOf hubId db.subscribers = rowsOf hubId db'.subscribers
  settings : db.settings hubId = db'.settings hubId

/-- A call for a hub. -/
inductive Call where
  | importBulk (entries : List (ImportSubscriberEntry × Input))
  | handleSubscriberKeyword (data : KeywordData) (input : Input)

inductive Answer where
  | imported (result : ImportResult)
  | keyword (reply : KeywordReply)
  deriving DecidableEq

/-- The subscribers after the call, and what it returns or throws. -/
def Call.execute (prims : Prims) (db : Db) (hubId : String) :
    Call → List Subscriber × Except ServiceError Answer
  | .importBulk entries =>
    let (rows, result) := Subscribers.importBulk prims db.subscribers hubId entries
    (rows, result.map .imported)
  | .handleSubscriberKeyword data input =>
    let (rows, result) := Subscribers.handleSubscriberKeyword prims db hubId data input
    (rows, result.map .keyword)

/-- The call gives the same result, and the same rows of the hub. -/
structure Isolated (prims : Prims) (hubId : String) (call : Call) (db db' : Db) : Prop where
  result : (call.execute prims db hubId).2 = (call.execute prims db' hubId).2
  rows : rowsOf hubId (call.execute prims db hubId).1 =
    rowsOf hubId (call.execute prims db' hubId).1

/-! ## What a call inserts -/

/-- The rows of the identifiers that the hub does not have yet, up to an entry that throws by
itself. -/
def newRows (prims : Prims) (hubId : String) (rows : List Subscriber) :
    List (ImportSubscriberEntry × Input) → List Subscriber
  | [] => []
  | (entry, input) :: rest =>
    match newSubscriber prims hubId entry input with
    | .error _ => []
    | .ok new =>
      if rows.any (·.isFor hubId new.identifierHash) then newRows prims hubId rows rest
      else if rows.any (conflicts new) then []
      else new :: newRows prims hubId (rows ++ [new]) rest

/-- The row of who subscribes by a keyword, and is not there yet. -/
def keywordRows (prims : Prims) (settings : BlastSettings) (hubId : String) (rows : List Subscriber)
    (data : KeywordData) (input : Input) : List Subscriber :=
  if isUnsubscribe prims settings data.keyword then []
  else if prims.toUpperCase data.keyword ≠ prims.toUpperCase settings.subscribeKeyword then []
  else if rows.any (·.identifierHash = data.identifierHash) then []
  else match keywordSubscriber prims settings hubId data input with
    | .error _ => []
    | .ok new => if rows.any (conflicts new) then [] else [new]

/-- The rows that the call would insert if there were no other hubs. -/
def Call.newRows (prims : Prims) (db : Db) (hubId : String) : Call → List Subscriber
  | .importBulk entries => Subscribers.newRows prims hubId (rowsOf hubId db.subscribers) entries
  | .handleSubscriberKeyword data input =>
    keywordRows prims (getBlastSettings db hubId) hubId (rowsOf hubId db.subscribers) data input

/-- A row of another hub has the token of the new one, or its id. -/
def blocked (hubId : String) (rows : List Subscriber) (new : Subscriber) : Bool :=
  rows.any fun row => row.hubId ≠ some hubId && conflicts new row

/-! ## The hub's own rows -/

theorem any_split (hubId : String) (rows : List Subscriber) (new : Subscriber) :
    rows.any (conflicts new) =
      ((rowsOf hubId rows).any (conflicts new) || blocked hubId rows new) := by
  unfold rowsOf blocked
  induction rows with
  | nil => rfl
  | cons row rows ih =>
    by_cases hhub : row.hubId = some hubId
    · simp [hhub, ih, Bool.or_assoc]
    · simp [hhub, ih, Bool.or_left_comm]

theorem any_isFor (hubId identifierHash : String) (rows : List Subscriber) :
    rows.any (·.isFor hubId identifierHash) =
      (rowsOf hubId rows).any (·.isFor hubId identifierHash) := by
  unfold rowsOf
  rw [List.any_filter]
  congr 1
  funext row
  by_cases hhub : row.hubId = some hubId <;> simp [Subscriber.isFor, hhub]

theorem rowsOf_map (hubId : String) (rows : List Subscriber) {f : Subscriber → Subscriber}
    (hf : ∀ row : Subscriber, row.Same (f row)) :
    rowsOf hubId (rows.map f) = (rowsOf hubId rows).map f := by
  unfold rowsOf
  rw [List.filter_map]
  congr 2
  funext row
  simp [(hf row).hubId]

theorem blocked_map (hubId : String) (rows : List Subscriber) (new : Subscriber)
    {f : Subscriber → Subscriber} (hf : ∀ row : Subscriber, row.Same (f row)) :
    blocked hubId (rows.map f) new = blocked hubId rows new := by
  unfold blocked
  rw [List.any_map]
  congr 1
  funext row
  simp [conflicts, (hf row).hubId, (hf row).id, (hf row).preferenceToken]
variable {hubId : String} {new : Subscriber}

theorem rowsOf_insert (hhub : new.hubId = some hubId)
    (rows : List Subscriber) : rowsOf hubId (rows ++ [new]) = rowsOf hubId rows ++ [new] := by
  unfold rowsOf
  simp [hhub]

theorem blocked_insert (hhub : new.hubId = some hubId)
    (rows : List Subscriber) (other : Subscriber) :
    blocked hubId (rows ++ [new]) other = blocked hubId rows other := by
  unfold blocked
  simp [hhub]

/-- What the hub would insert depends on identifiers, tokens and ids. -/
theorem newRows_congr {rows rows' : List Subscriber}
    (hfor : ∀ identifierHash, rows.any (·.isFor hubId identifierHash) =
      rows'.any (·.isFor hubId identifierHash))
    (hconflicts : ∀ new, rows.any (conflicts new) = rows'.any (conflicts new))
    (entries : List (ImportSubscriberEntry × Input)) :
    newRows prims hubId rows entries = newRows prims hubId rows' entries := by
  induction entries generalizing rows rows' with
  | nil => rfl
  | cons first rest ih =>
    obtain ⟨entry, input⟩ := first
    unfold newRows
    cases newSubscriber prims hubId entry input with
    | error e => rfl
    | ok new =>
      have hinserted : newRows prims hubId (rows ++ [new]) rest =
          newRows prims hubId (rows' ++ [new]) rest := by
        refine ih (fun identifierHash => ?_) fun other => ?_
        · rw [List.any_append, List.any_append, hfor]
        · rw [List.any_append, List.any_append, hconflicts]
      dsimp only
      rw [hfor, hconflicts, ih hfor hconflicts, hinserted]

/-- The `DO UPDATE` of an entry. -/
def mergeEntry (hubId : String) (new row : Subscriber) : Subscriber :=
  if row.isFor hubId new.identifierHash then
    { row with
      channels := mergeChannels row.channels new.channels
      tags := if new.tags = [] then row.tags else (row.tags ++ new.tags).dedup }
  else row

theorem same_mergeEntry (hubId : String) (new row : Subscriber) :
    row.Same (mergeEntry hubId new row) := by
  unfold mergeEntry
  split <;> exact ⟨rfl, rfl, rfl, rfl, rfl⟩

theorem newRows_merge (hubId : String) (new : Subscriber) (rows : List Subscriber)
    (entries : List (ImportSubscriberEntry × Input)) :
    newRows prims hubId (rows.map (mergeEntry hubId new)) entries =
      newRows prims hubId rows entries := by
  have hsame := same_mergeEntry hubId new
  refine newRows_congr (fun identifierHash => ?_) (fun other => ?_) entries
  · rw [List.any_map]
    congr 1
    funext row
    exact (hsame row).isFor_eq hubId identifierHash
  · rw [List.any_map]
    congr 1
    funext row
    simp [conflicts, (hsame row).id, (hsame row).preferenceToken]

/-- What stops the insertion of an identifier that the hub does not have. -/
theorem insert_spec {rows : List Subscriber}
    (hunknown : ¬ (rowsOf hubId rows).any (·.isFor hubId new.identifierHash)) :
    Subscribers.insert rows hubId new =
      if (rowsOf hubId rows).any (conflicts new) || blocked hubId rows new then none
      else some (rows ++ [new]) := by
  rw [← any_isFor] at hunknown
  rw [← any_split]
  unfold Subscribers.insert
  congr 2
  refine Bool.eq_iff_iff.mpr ?_
  simp only [List.any_eq_true, Bool.or_eq_true]
  refine exists_congr fun row => and_congr_right fun hrow => or_iff_right fun hfor => ?_
  exact hunknown (List.any_eq_true.mpr ⟨row, hrow, hfor⟩)

/-- **What an entry of an import does**, in terms of the hub's own rows. -/
theorem importEntry_spec (rows : List Subscriber) (hubId : String) (entry : ImportSubscriberEntry)
    (input : Input) :
    importEntry prims rows hubId entry input =
      match newSubscriber prims hubId entry input with
      | .error e => .error e
      | .ok new =>
        if (rowsOf hubId rows).any (·.isFor hubId new.identifierHash) then
          .ok (rows.map (mergeEntry hubId new), false)
        else if (rowsOf hubId rows).any (conflicts new) || blocked hubId rows new then
          .error .thrown
        else .ok (rows ++ [new], true) := by
  unfold importEntry
  cases newSubscriber prims hubId entry input with
  | error e => rfl
  | ok new =>
    dsimp only
    unfold upsert
    by_cases hknown : (rowsOf hubId rows).any (·.isFor hubId new.identifierHash)
    · rw [any_isFor, if_pos hknown, if_pos hknown]
      rfl
    · rw [any_isFor, if_neg hknown, if_neg hknown, insert_spec hknown]
      cases (rowsOf hubId rows).any (conflicts new) || blocked hubId rows new <;> rfl

/-! ## Imports -/

/-- The first of the rows that other hubs block. -/
def firstBlocked (hubId : String) (rows news : List Subscriber) : Option Nat :=
  news.findIdx? (blocked hubId rows)

theorem firstBlocked_merge (hubId : String) (new : Subscriber) (rows news : List Subscriber) :
    firstBlocked hubId (rows.map (mergeEntry hubId new)) news = firstBlocked hubId rows news := by
  unfold firstBlocked
  congr 1
  funext other
  exact blocked_map hubId rows other (same_mergeEntry hubId new)

theorem firstBlocked_insert (hhub : new.hubId = some hubId)
    (rows news : List Subscriber) :
    firstBlocked hubId (rows ++ [new]) news = firstBlocked hubId rows news := by
  unfold firstBlocked
  congr 1
  funext other
  exact blocked_insert hhub rows other

/-- An import does not lose rows of the hub. -/
theorem length_importBulk (rows : List Subscriber) (hubId : String)
    (entries : List (ImportSubscriberEntry × Input)) :
    (rowsOf hubId rows).length ≤ (rowsOf hubId (importBulk prims rows hubId entries).1).length := by
  induction entries generalizing rows with
  | nil => exact Nat.le_refl _
  | cons first rest ih =>
    obtain ⟨entry, input⟩ := first
    unfold importBulk
    rw [importEntry_spec]
    cases hnew : newSubscriber prims hubId entry input with
    | error e => exact Nat.le_refl _
    | ok new =>
      dsimp only
      split
      · exact Nat.le_refl _
      · rename_i rows' fresh hentry
        refine Nat.le_trans ?_ (ih rows')
        split at hentry
        · cases hentry
          rw [rowsOf_map hubId rows (same_mergeEntry hubId new), List.length_map]
        · split at hentry
          · cases hentry
          · cases hentry
            rw [rowsOf_insert (newSubscriber_eq_ok hnew).1, List.length_append]
            exact Nat.le_add_right _ _

theorem some_zero_ne (later : Option Nat) : some 0 ≠ later.map (· + 1) := by
  cases later with
  | none => nofun
  | some n => simp

/-- The import stops where other hubs block a row, and nowhere else. -/
theorem importBulk_same (prims : Prims) {rows rows' : List Subscriber}
    (hagree : rowsOf hubId rows = rowsOf hubId rows')
    (entries : List (ImportSubscriberEntry × Input)) :
    (rowsOf hubId (importBulk prims rows hubId entries).1 =
        rowsOf hubId (importBulk prims rows' hubId entries).1 ↔
      firstBlocked hubId rows (newRows prims hubId (rowsOf hubId rows) entries) =
        firstBlocked hubId rows' (newRows prims hubId (rowsOf hubId rows) entries)) ∧
    (firstBlocked hubId rows (newRows prims hubId (rowsOf hubId rows) entries) =
        firstBlocked hubId rows' (newRows prims hubId (rowsOf hubId rows) entries) →
      (importBulk prims rows hubId entries).2 = (importBulk prims rows' hubId entries).2) := by
  induction entries generalizing rows rows' with
  | nil => exact ⟨iff_of_true hagree rfl, fun _ => rfl⟩
  | cons first rest ih =>
    obtain ⟨entry, input⟩ := first
    unfold importBulk newRows
    rw [importEntry_spec, importEntry_spec, ← hagree]
    cases hnew : newSubscriber prims hubId entry input with
    | error e => exact ⟨iff_of_true hagree rfl, fun _ => rfl⟩
    | ok new =>
      have hhub := (newSubscriber_eq_ok hnew).1
      dsimp only
      by_cases hknown : (rowsOf hubId rows).any (·.isFor hubId new.identifierHash)
      · -- the row is merged into the hub's own
        have hsame := same_mergeEntry hubId new
        have hmerged : rowsOf hubId (rows.map (mergeEntry hubId new)) =
            rowsOf hubId (rows'.map (mergeEntry hubId new)) := by
          rw [rowsOf_map hubId rows hsame, rowsOf_map hubId rows' hsame, hagree]
        obtain ⟨hrows, hresult⟩ := ih hmerged
        rw [rowsOf_map hubId rows hsame, newRows_merge, firstBlocked_merge,
          firstBlocked_merge] at hrows hresult
        rw [if_pos hknown, if_pos hknown, if_pos hknown]
        exact ⟨hrows, fun h => congrArg (Except.map _) (hresult h)⟩
      · rw [if_neg hknown, if_neg hknown, if_neg hknown]
        by_cases hconflict : (rowsOf hubId rows).any (conflicts new)
        · -- the hub itself has the id or the token
          rw [hconflict, Bool.true_or, Bool.true_or, if_pos rfl, if_pos rfl]
          exact ⟨iff_of_true hagree rfl, fun _ => rfl⟩
        · rw [Bool.eq_false_iff.mpr hconflict, Bool.false_or, Bool.false_or,
            if_neg Bool.false_ne_true]
          have hinserted : rowsOf hubId (rows ++ [new]) = rowsOf hubId (rows' ++ [new]) := by
            rw [rowsOf_insert hhub, rowsOf_insert hhub, hagree]
          have hlonger (rows : List Subscriber) : (rowsOf hubId rows).length <
              (rowsOf hubId (importBulk prims (rows ++ [new]) hubId rest).1).length := by
            refine Nat.lt_of_lt_of_le ?_ (length_importBulk (rows ++ [new]) hubId rest)
            rw [rowsOf_insert hhub, List.length_append]
            exact Nat.lt_succ_self _
          obtain ⟨hrows, hresult⟩ := ih hinserted
          rw [rowsOf_insert hhub, firstBlocked_insert hhub, firstBlocked_insert hhub]
            at hrows hresult
          unfold firstBlocked at hrows hresult ⊢
          rw [List.findIdx?_cons, List.findIdx?_cons]
          by_cases hblocked : blocked hubId rows new
          · rw [if_pos hblocked, if_pos hblocked]
            by_cases hblocked' : blocked hubId rows' new
            · rw [if_pos hblocked', if_pos hblocked']
              exact ⟨iff_of_true hagree rfl, fun _ => rfl⟩
            · rw [if_neg hblocked', if_neg hblocked']
              have hlater := some_zero_ne ((newRows prims hubId (rowsOf hubId rows ++ [new])
                rest).findIdx? (blocked hubId rows'))
              refine ⟨iff_of_false (fun h => ?_) hlater, fun h => absurd h hlater⟩
              exact absurd (congrArg List.length (hagree ▸ h)) (Nat.ne_of_lt (hlonger rows'))
          · rw [if_neg hblocked, if_neg hblocked]
            by_cases hblocked' : blocked hubId rows' new
            · rw [if_pos hblocked', if_pos hblocked']
              have hlater := (some_zero_ne ((newRows prims hubId (rowsOf hubId rows ++ [new])
                rest).findIdx? (blocked hubId rows))).symm
              refine ⟨iff_of_false (fun h => ?_) hlater, fun h => absurd h hlater⟩
              exact absurd (congrArg List.length (hagree ▸ h)) (Nat.ne_of_gt (hlonger rows))
            · rw [if_neg hblocked', if_neg hblocked']
              have hsucc := (Option.map_injective Nat.succ_injective).eq_iff
                (a := (newRows prims hubId (rowsOf hubId rows ++ [new]) rest).findIdx?
                  (blocked hubId rows))
                (b := (newRows prims hubId (rowsOf hubId rows ++ [new]) rest).findIdx?
                  (blocked hubId rows'))
              exact ⟨hrows.trans hsucc.symm,
                fun h => congrArg (Except.map _) (hresult (hsucc.mp h))⟩

/-! ## Keywords -/

/-- A lookup in a hub looks at the hub's own rows. -/
theorem lookup_eq (hhub : hubId ≠ "") (db : Db) (identifierHash : String)
    (pick : Nat) :
    getSubscriberByIdentifierHash db identifierHash hubId pick =
      let rows := (rowsOf hubId db.subscribers).filter (·.identifierHash = identifierHash)
      rows[pick % rows.length]? := by
  unfold getSubscriberByIdentifierHash rowsOf
  rw [List.filter_filter]
  simp only [hhub, decide_false, Bool.false_or]

theorem lookup_agree (hhub : hubId ≠ "") {db db' : Db} (h : Agree hubId db db')
    (identifierHash : String) (pick : Nat) :
    getSubscriberByIdentifierHash db identifierHash hubId pick =
      getSubscriberByIdentifierHash db' identifierHash hubId pick := by
  rw [lookup_eq hhub, lookup_eq hhub, h.rows]

/-- It finds somebody, where there is somebody. -/
theorem lookup_isSome (hhub : hubId ≠ "") (db : Db) (identifierHash : String)
    (pick : Nat) : (getSubscriberByIdentifierHash db identifierHash hubId pick).isSome =
      (rowsOf hubId db.subscribers).any (·.identifierHash = identifierHash) := by
  rw [lookup_eq hhub]
  dsimp only
  refine Bool.eq_iff_iff.mpr ⟨fun h => ?_, fun h => ?_⟩
  · obtain ⟨row, hrow⟩ := Option.isSome_iff_exists.mp h
    obtain ⟨hmem, hhash⟩ := List.mem_filter.mp (List.mem_of_getElem? hrow)
    exact List.any_eq_true.mpr ⟨row, hmem, hhash⟩
  · obtain ⟨row, hmem, hhash⟩ := List.any_eq_true.mp h
    have hfiltered : row ∈ (rowsOf hubId db.subscribers).filter
        (·.identifierHash = identifierHash) := List.mem_filter.mpr ⟨hmem, hhash⟩
    simpa using Nat.mod_lt pick (List.length_pos_of_mem hfiltered)

theorem rowsOf_update (hubId : String) (rows : List Subscriber) (id : String)
    {set : Subscriber → Subscriber} (hset : ∀ row : Subscriber, row.Same (set row)) :
    rowsOf hubId (updateSubscriber rows id set) = updateSubscriber (rowsOf hubId rows) id set :=
  rowsOf_map hubId rows fun row => Subscriber.same_ite (hset row)

theorem getBlastSettings_agree {db db' : Db} (h : Agree hubId db db') :
    getBlastSettings db' hubId = getBlastSettings db hubId := by
  unfold getBlastSettings
  rw [h.settings]

/-- A new subscriber is stopped where other hubs block the row. -/
theorem subscribe_same {db db' : Db} (hagree : Agree hubId db db')
    {data : KeywordData} (input : Input)
    (hunknown : ¬ (rowsOf hubId db.subscribers).any (·.identifierHash = data.identifierHash))
    {news : List Subscriber}
    (hnews : news = match keywordSubscriber prims (getBlastSettings db hubId) hubId data input with
      | .error _ => []
      | .ok new => if (rowsOf hubId db.subscribers).any (conflicts new) then [] else [new]) :
    (rowsOf hubId (subscribe prims db hubId data input).1 =
        rowsOf hubId (subscribe prims db' hubId data input).1 ↔
      firstBlocked hubId db.subscribers news = firstBlocked hubId db'.subscribers news) ∧
    (firstBlocked hubId db.subscribers news = firstBlocked hubId db'.subscribers news →
      (subscribe prims db hubId data input).2 = (subscribe prims db' hubId data input).2) := by
  unfold subscribe
  dsimp only
  rw [getBlastSettings_agree hagree, hnews]
  cases hnew : keywordSubscriber prims (getBlastSettings db hubId) hubId data input with
  | error e => exact ⟨iff_of_true hagree.rows rfl, fun _ => rfl⟩
  | ok new =>
    obtain ⟨hhub, -, hhash, -⟩ := keywordSubscriber_eq_ok hnew
    have hfree : ¬ (rowsOf hubId db.subscribers).any (·.isFor hubId new.identifierHash) := by
      intro hfor
      obtain ⟨row, hrow, hfor⟩ := List.any_eq_true.mp hfor
      refine hunknown (List.any_eq_true.mpr ⟨row, hrow, ?_⟩)
      rw [decide_eq_true_eq, (Subscriber.isFor_iff.mp hfor).2, hhash]
    dsimp only
    rw [insert_spec hfree, insert_spec (hagree.rows ▸ hfree), ← hagree.rows]
    by_cases hconflict : (rowsOf hubId db.subscribers).any (conflicts new)
    · rw [if_pos hconflict, hconflict]
      exact ⟨iff_of_true hagree.rows rfl, fun _ => rfl⟩
    · have hlonger : rowsOf hubId db.subscribers ≠ rowsOf hubId db.subscribers ++ [new] := by
        simp
      rw [if_neg hconflict, Bool.eq_false_iff.mpr hconflict, Bool.false_or, Bool.false_or]
      unfold firstBlocked
      by_cases hblocked : blocked hubId db.subscribers new <;>
        by_cases hblocked' : blocked hubId db'.subscribers new <;>
        simp [hblocked, hblocked', rowsOf_insert hhub, ← hagree.rows]

/-- A keyword is stopped where other hubs block the row of who subscribes. -/
theorem keyword_same (prims : Prims) (hhub : hubId ≠ "") {db db' : Db}
    (hagree : Agree hubId db db') (data : KeywordData) (input : Input) :
    (rowsOf hubId (handleSubscriberKeyword prims db hubId data input).1 =
        rowsOf hubId (handleSubscriberKeyword prims db' hubId data input).1 ↔
      firstBlocked hubId db.subscribers (keywordRows prims (getBlastSettings db hubId) hubId
          (rowsOf hubId db.subscribers) data input) =
        firstBlocked hubId db'.subscribers (keywordRows prims (getBlastSettings db hubId) hubId
          (rowsOf hubId db.subscribers) data input)) ∧
    (firstBlocked hubId db.subscribers (keywordRows prims (getBlastSettings db hubId) hubId
          (rowsOf hubId db.subscribers) data input) =
        firstBlocked hubId db'.subscribers (keywordRows prims (getBlastSettings db hubId) hubId
          (rowsOf hubId db.subscribers) data input) →
      (handleSubscriberKeyword prims db hubId data input).2 =
        (handleSubscriberKeyword prims db' hubId data input).2) := by
  have hfound := lookup_isSome hhub db data.identifierHash input.pick
  unfold handleSubscriberKeyword keywordRows
  dsimp only
  rw [getBlastSettings_agree hagree, ← lookup_agree hhub hagree]
  generalize getSubscriberByIdentifierHash db data.identifierHash hubId input.pick = existing
    at hfound ⊢
  have hupdate (id : String) {set : Subscriber → Subscriber}
      (hset : ∀ row : Subscriber, row.Same (set row)) :
      rowsOf hubId (updateSubscriber db.subscribers id set) =
        rowsOf hubId (updateSubscriber db'.subscribers id set) := by
    rw [rowsOf_update hubId _ id hset, rowsOf_update hubId _ id hset, hagree.rows]
  by_cases hunsubscribe : isUnsubscribe prims (getBlastSettings db hubId) data.keyword
  · rw [if_pos hunsubscribe, if_pos hunsubscribe, if_pos hunsubscribe]
    refine ⟨iff_of_true ?_ rfl, fun _ => rfl⟩
    cases existing with
    | none => exact hagree.rows
    | some row => exact hupdate row.id fun row => ⟨rfl, rfl, rfl, rfl, rfl⟩
  · rw [if_neg hunsubscribe, if_neg hunsubscribe, if_neg hunsubscribe]
    by_cases hsubscribe : prims.toUpperCase data.keyword =
        prims.toUpperCase (getBlastSettings db hubId).subscribeKeyword
    · rw [if_pos hsubscribe, if_pos hsubscribe, if_neg (not_not_intro hsubscribe), ← hfound]
      cases existing with
      | some row =>
        exact ⟨iff_of_true (hupdate row.id fun row => ⟨rfl, rfl, rfl, rfl, rfl⟩) rfl, fun _ => rfl⟩
      | none =>
        have hunknown : ¬ (rowsOf hubId db.subscribers).any
            (·.identifierHash = data.identifierHash) := by
          rw [← hfound]
          nofun
        exact subscribe_same hagree input hunknown rfl
    · rw [if_neg hsubscribe, if_neg hsubscribe, if_pos hsubscribe]
      exact ⟨iff_of_true hagree.rows rfl, fun _ => rfl⟩

/-! ## Isolation -/

/-- **Two states that agree on a hub give the same exactly if the same row is the first that other
hubs block**, or none is in either. -/
theorem isolated_iff {hubId : String} (hhub : hubId ≠ "") {db db' : Db}
    (hagree : Agree hubId db db') (call : Call) :
    Isolated prims hubId call db db' ↔
      firstBlocked hubId db.subscribers (call.newRows prims db hubId) =
        firstBlocked hubId db'.subscribers (call.newRows prims db hubId) := by
  cases call with
  | importBulk entries =>
    obtain ⟨hrows, hresult⟩ := importBulk_same prims hagree.rows entries
    exact ⟨fun h => hrows.mp h.rows, fun h => ⟨congrArg (Except.map _) (hresult h), hrows.mpr h⟩⟩
  | handleSubscriberKeyword data input =>
    obtain ⟨hrows, hresult⟩ := keyword_same prims hhub hagree data input
    exact ⟨fun h => hrows.mp h.rows, fun h => ⟨congrArg (Except.map _) (hresult h), hrows.mpr h⟩⟩

/-- A state in which another hub has imported an identifier. -/
def imported (identifier : String) : Db where
  subscribers :=
    (importBulk plainPrims [] "other" [(⟨identifier, .sms, [], none⟩, ⟨"ann", 0, 0⟩)]).1

/-- The import of an identifier. -/
def importOf (identifier : String) : Call :=
  .importBulk [({ identifier, channel := .sms }, { id := "bea" })]

theorem otherIdentifier_isolated :
    Isolated plainPrims "hub" (importOf "+200") {} (imported "+100") := by
  have hhub : "hub" ≠ "" := by decide
  have hagree : Agree "hub" {} (imported "+100") := ⟨by decide +kernel, rfl⟩
  refine (isolated_iff hhub hagree (importOf "+200")).mpr ?_
  decide +kernel

/-- **An import throws since another hub has the identifier.** -/
theorem otherHub_throws :
    Agree "hub" {} (imported "+100") ∧
      ¬ Isolated plainPrims "hub" (importOf "+100") {} (imported "+100") := by
  refine ⟨⟨by decide +kernel, rfl⟩, fun h => ?_⟩
  have hresult := h.result
  revert hresult
  decide +kernel

end Llamenos.Worker.Subscribers
