import Llamenos.Lib.SnapshotWrites
import Llamenos.Worker.Runtime

/-!
# The settings of a hub

One JSON column holds all the settings of a hub, and with them its usage counters, by month.
`updateHubSettings`, `updateHubQuotas` and `incrementHubUsage` select the column, and store it in a
statement of its own, with what they change.

Results:
* `apply_eq_iff`: what a call makes of two states of the settings is the same.
* `keys_of_kept`, `counters_of_kept`: what it means that no update is lost.
* `hubSettings_iff`: **no update is lost** exactly if what a call has read is still stored when it
  writes, but for what it sets.
-/

namespace Llamenos.Worker.Settings.HubSettings

open Llamenos.Lib

variable {N : Type}

/-- The members of the JSON object. -/
abbrev Members (N : Type) := String → Option (Json N)

def ALLOWED_HUB_SETTINGS : List String :=
  ["hubName", "timezone", "language", "welcomeMessage", "emergencyMessage", "maxConcurrentCalls",
    "callSettings", "spamSettings", "transcriptionEnabled", "autoAssignment", "fallbackGroup",
    "caseManagementEnabled", "providerSetupComplete", "channels", "quotas", "usage",
    "subAccountEnabled", "subAccountConfigId", "heartbeatTimeout", "ivrLanguages"]

/-- A member that is `undefined` is not stored. -/
abbrev Data (N : Type) := List (String × Option (Json N))

def sanitize (data : Data N) : Data N := data.filter fun field => field.1 ∈ ALLOWED_HUB_SETTINGS

/-- `{ ...existing, ...sanitized }`. -/
def merge (existing : Members N) (sanitized : Data N) : Members N :=
  fun k => (sanitized.lookup k).getD (existing k)

/-- `fields[key] = value`. -/
def setField (key : String) (value : Json N) : List (String × Json N) → List (String × Json N)
  | [] => [(key, value)]
  | (k, old) :: rest =>
    if k = key then (k, value) :: rest else (k, old) :: setField key value rest

/-- `record.month === name`. -/
def isMonth (fields : List (String × Json N)) (name : String) : Bool :=
  match fields.lookup "month" with
  | some (.str month) => month = name
  | _ => false

/-- `${year}-${String(month).padStart(2, '0')}`. -/
def monthName (year : Int) (month : Nat) : String :=
  String.ofList (intChars year ++ '-' :: padStart 2 '0' (decimal month))

/-- A call, and what it has been given; `incrementHubUsage` reads the clock. -/
inductive Update (N : Type) where
  | updateHubSettings (data : Data N)
  | updateHubQuotas (quotas : Json N)
  | incrementHubUsage (resource : String) (amount : N) (year : Int) (month : Nat)

section Apply

variable [Zero N] [Add N] [IntCast N] (concat : Json N → N → Json N)

/-- `(value ?? 0) + amount`; what is not a number is joined as a text, by `concat`. -/
def plus : Option (Json N) → N → Json N
  | none, amount | some .null, amount => .num (0 + amount)
  | some (.num n), amount => .num (n + amount)
  | some other, amount => concat other amount

/-- The month's record, with more of the resource used. -/
def useMore (fields : List (String × Json N)) (resource : String) (amount : N) : Json N :=
  .obj (setField resource (plus concat (fields.lookup resource) amount) fields)

/-- The usage after `incrementHubUsage`; the member of a `null` throws. -/
def increment (resource : String) (amount : N) (year : Int) (month : Nat) :
    List (Json N) → Option (List (Json N))
  | [] => some [useMore concat [("month", .str (monthName year month)), ("year", .num year)]
      resource amount]
  | .null :: _ => none
  | .obj fields :: rest =>
    if isMonth fields (monthName year month) then
      some (useMore concat fields resource amount :: rest)
    else (increment resource amount year month rest).map (.obj fields :: ·)
  | other :: rest => (increment resource amount year month rest).map (other :: ·)

/-- `settings.usage ?? []`; what is not an array has no `find`, and throws. -/
def usageOf (settings : Members N) : Option (List (Json N)) :=
  match settings "usage" with
  | none | some .null => some []
  | some (.arr usage) => some usage
  | some _ => none

/-- What the call makes of the settings, if it does not throw. -/
def Update.apply (settings : Members N) : Update N → Option (Members N)
  | .updateHubSettings data => some (merge settings (sanitize data))
  | .updateHubQuotas quotas => some (Function.update settings "quotas" (some quotas))
  | .incrementHubUsage resource amount year month =>
    ((usageOf settings).bind (increment concat resource amount year month)).map fun usage =>
      Function.update settings "usage" (some (.arr usage))

abbrev Event (N : Type) := SnapshotWrites.Event (Update N)

abbrev Recorded (N : Type) := SnapshotWrites.Recorded (Members N) (Update N)

def recorded : Recorded N → Event N → Option (Recorded N) :=
  SnapshotWrites.recorded fun update settings => update.apply concat settings

/-- No update is lost: the settings are what the calls make of the first ones, one after the other,
in the order in which they write. -/
def NoneLost (initial : Members N) : Recorded N → Prop :=
  SnapshotWrites.Kept (fun update settings => update.apply concat settings) initial

end Apply

/-- The call sets the key. -/
def Update.Sets : Update N → String → Prop
  | .updateHubSettings data, k => k ∈ (sanitize data).map Prod.fst
  | .updateHubQuotas _, k => k = "quotas"
  | .incrementHubUsage _ _ _ _, k => k = "usage"

theorem lookup_eq_none_iff {k : String} {sanitized : Data N} :
    sanitized.lookup k = none ↔ k ∉ sanitized.map Prod.fst := by
  rw [List.lookup_eq_none_iff, List.mem_map]
  constructor
  · rintro h ⟨field, hfield, rfl⟩
    simpa using h field hfield
  · intro h field hfield
    exact bne_iff_ne.mpr fun hk => h ⟨field, hfield, hk.symm⟩

theorem update_inj_iff {f g : Members N} {k : String} {a b : Option (Json N)} :
    Function.update f k a = Function.update g k b ↔ (∀ j ≠ k, f j = g j) ∧ a = b := by
  rw [Function.update_eq_iff, Function.update_self, and_comm]
  refine and_congr_left fun _ => forall₂_congr fun j hj => ?_
  rw [Function.update_of_ne hj]

theorem lookup_cons (j k : String) (v : Json N) (fields : List (String × Json N)) :
    ((j, v) :: fields).lookup k = if k = j then some v else fields.lookup k := by
  rw [List.lookup_cons]
  by_cases hk : k = j
  · simp [hk]
  · simp [hk, beq_eq_false_iff_ne.mpr hk]

theorem lookup_setField (fields : List (String × Json N)) (key k : String) (v : Json N) :
    (setField key v fields).lookup k = if k = key then some v else fields.lookup k := by
  induction fields with
  | nil => rw [setField, lookup_cons]
  | cons field fields ih =>
    obtain ⟨j, old⟩ := field
    unfold setField
    split_ifs with hj hk hk
    · rw [lookup_cons, if_pos (hk.trans hj.symm)]
    · rw [lookup_cons, lookup_cons, if_neg (hj ▸ hk), if_neg (hj ▸ hk)]
    · rw [lookup_cons, ih, if_pos hk, if_neg fun heq => hj (heq.symm.trans hk)]
    · rw [lookup_cons, lookup_cons, ih, if_neg hk]

/-- A record of a month, with numbers. -/
structure IsRecord (fields : List (String × Json N)) (name : String) : Prop where
  month : fields.lookup "month" = some (.str name)
  numbers : ∀ k v, k ≠ "month" → fields.lookup k = some v → ∃ n, v = .num n

def Regular (usage : List (Json N)) : Prop :=
  ∀ r ∈ usage, ∃ fields name, r = .obj fields ∧ IsRecord fields name

theorem isMonth_record {fields : List (String × Json N)} {name other : String}
    (h : IsRecord fields name) : isMonth fields other = decide (name = other) := by
  rw [isMonth, h.month]

section Fresh

variable [Zero N] [Add N] [IntCast N] (concat : Json N → N → Json N)

/-- The usage that the call stores, if it is one that counts. -/
def Update.newUsage (settings : Members N) : Update N → Option (List (Json N))
  | .incrementHubUsage resource amount year month =>
    (usageOf settings).bind (increment concat resource amount year month)
  | .updateHubSettings _ | .updateHubQuotas _ => none

/-- What the call does not set is as it has read it, and so is the usage, for what it counts. -/
def Undisturbed (update : Update N) (snapshot settings : Members N) : Prop :=
  (∀ k, ¬ update.Sets k → settings k = snapshot k) ∧
    update.newUsage concat settings = update.newUsage concat snapshot

/-- A call that stores settings finds what it has read. -/
def WritesFresh (p : Recorded N) : Event N → Prop
  | .read _ _ => True
  | .write c => ∀ update snapshot, p.1.calls c = some (.read update snapshot) →
      (update.apply concat snapshot).isSome → Undisturbed concat update snapshot p.1.value

variable {concat} {update : Update N} {snapshot settings value initial : Members N}
  {p q : Recorded N} {e : Event N}

/-- **Two states of the settings become the same** exactly if they agree on what the call does not
set, and on what it counts. -/
theorem apply_eq_iff (h : update.apply concat snapshot = some value) :
    update.apply concat settings = some value ↔ Undisturbed concat update snapshot settings := by
  rw [← h]
  cases update with
  | updateHubSettings data =>
    simp only [Update.apply, Option.some.injEq, Undisturbed, Update.newUsage, and_true]
    constructor
    · intro hsame k hk
      have hk' := congrFun hsame k
      rwa [merge, merge, lookup_eq_none_iff.mpr hk] at hk'
    · intro hsame
      funext k
      unfold merge
      cases hlookup : (sanitize data).lookup k with
      | some v => rfl
      | none => rw [hsame k (lookup_eq_none_iff.mp hlookup)]
  | updateHubQuotas quotas =>
    simp only [Update.apply, Option.some.injEq, Undisturbed, Update.newUsage, and_true]
    rw [update_inj_iff, and_iff_left rfl]
    rfl
  | incrementHubUsage resource amount year month =>
    simp only [Update.apply, Undisturbed, Update.newUsage] at h ⊢
    obtain ⟨usage, husage, -⟩ := Option.map_eq_some_iff.mp h
    rw [husage, Option.map_some, Option.map_eq_some_iff]
    constructor
    · rintro ⟨usage', husage', hsame⟩
      obtain ⟨hothers, harr⟩ := update_inj_iff.mp hsame
      rw [Option.some.injEq, Json.arr.injEq] at harr
      exact ⟨hothers, harr ▸ husage'⟩
    · rintro ⟨hothers, husage'⟩
      exact ⟨usage, husage', update_inj_iff.mpr ⟨hothers, rfl⟩⟩

theorem fresh_iff :
    SnapshotWrites.Fresh (fun update settings => update.apply concat settings) p.1 e ↔
    WritesFresh concat p e := by
  cases e with
  | read c update => exact Iff.rfl
  | write c =>
    constructor
    · intro h update snapshot hc hsome
      obtain ⟨value, hvalue⟩ := Option.isSome_iff_exists.mp hsome
      exact (apply_eq_iff hvalue).mp (h update snapshot value hc hvalue)
    · intro h update snapshot value hc hvalue
      exact (apply_eq_iff hvalue).mpr
        (h update snapshot hc (Option.isSome_iff_exists.mpr ⟨value, hvalue⟩))

/-- A call that writes as soon as it has read finds what it has read. -/
theorem fresh_after_read {c : Nat} {update : Update N}
    (h : recorded concat p (.read c update) = some q) : WritesFresh concat q (.write c) :=
  fresh_iff.mp (SnapshotWrites.fresh_of_read h)

/-! ## What it means that no update is lost -/

/-- The value that the last call to set the key has set. -/
def lastSet (initial : Members N) (k : String) (updates : List (Update N)) : Option (Json N) :=
  updates.foldl (fun value update => match update with
    | .updateHubSettings data => ((sanitize data).lookup k).getD value
    | .updateHubQuotas quotas => if k = "quotas" then some quotas else value
    | .incrementHubUsage _ _ _ _ => value) (initial k)

/-- **Every key holds the value of the last call that set it.** -/
theorem keys_of_kept (h : NoneLost concat initial p) {k : String} (hk : k ≠ "usage") :
    p.1.value k = lastSet initial k p.2 := by
  refine SnapshotWrites.kept_mono (I := fun updates value => value k = lastSet initial k updates)
    rfl ?_ h
  intro updates value update value' hvalue happly
  rw [lastSet, List.foldl_append, ← lastSet, ← hvalue, List.foldl_cons, List.foldl_nil]
  cases update with
  | updateHubSettings data => rw [← Option.some.inj happly, merge]
  | updateHubQuotas quotas =>
    rw [← Option.some.inj happly, Function.update_apply]
  | incrementHubUsage resource amount year month =>
    obtain ⟨usage, -, rfl⟩ := Option.map_eq_some_iff.mp happly
    rw [Function.update_of_ne hk]

/-- The number that a record has of the resource. -/
def numberOf (fields : List (String × Json N)) (resource : String) : N :=
  match fields.lookup resource with
  | some (.num n) => n
  | _ => 0

/-- The month's usage counter of the resource. -/
def counterOf : List (Json N) → String → String → N
  | [], _, _ => 0
  | .obj fields :: rest, name, resource =>
    if isMonth fields name then numberOf fields resource else counterOf rest name resource
  | _ :: rest, name, resource => counterOf rest name resource

def counter (settings : Members N) (name resource : String) : N :=
  counterOf ((usageOf settings).getD []) name resource

/-- The sum of the increments of a counter. -/
def total (name resource : String) (updates : List (Update N)) : N :=
  updates.foldl (fun n update => match update with
    | .incrementHubUsage r amount year month =>
      if name = monthName year month ∧ resource = r then n + amount else n
    | .updateHubSettings _ | .updateHubQuotas _ => n) 0

omit [IntCast N] in
/-- **More is used of a record's resource.** -/
theorem useMore_record (concat : Json N → N → Json N) {fields : List (String × Json N)}
    {name resource : String}
    (h : IsRecord fields name) (hresource : resource ≠ "month") (amount : N) :
    ∃ fields', useMore concat fields resource amount = .obj fields' ∧ IsRecord fields' name ∧
      ∀ k, numberOf fields' k = if k = resource then numberOf fields k + amount
        else numberOf fields k := by
  have hplus : plus concat (fields.lookup resource) amount =
      .num (numberOf fields resource + amount) := by
    unfold numberOf
    cases hlookup : fields.lookup resource with
    | none => rfl
    | some v =>
      obtain ⟨n, rfl⟩ := h.numbers resource v hresource hlookup
      rfl
  refine ⟨_, rfl, ⟨?_, fun k v hk hv => ?_⟩, fun k => ?_⟩
  · rw [lookup_setField, if_neg (Ne.symm hresource), h.month]
  · rw [lookup_setField] at hv
    split_ifs at hv
    · rw [hplus] at hv
      exact ⟨_, (Option.some.inj hv).symm⟩
    · exact h.numbers k v hk hv
  · rw [numberOf, lookup_setField]
    split_ifs with hk
    · rw [hplus, hk]
    · rfl

/-- **`incrementHubUsage` counts** for its month and resource, and for no other. -/
theorem increment_regular {usage usage' : List (Json N)} (h : Regular usage) {resource : String}
    {amount : N} {year : Int} {month : Nat} (hresource : resource ≠ "month")
    (hnew : increment concat resource amount year month usage = some usage') :
    Regular usage' ∧ ∀ name k, k ≠ "month" → k ≠ "year" → counterOf usage' name k =
      if name = monthName year month ∧ k = resource then counterOf usage name k + amount
      else counterOf usage name k := by
  induction usage generalizing usage' with
  | nil =>
    rw [increment, Option.some.injEq] at hnew
    have hrecord : IsRecord [("month", Json.str (monthName year month)), ("year", .num (year : N))]
        (monthName year month) := by
      refine ⟨by rw [lookup_cons, if_pos rfl], fun k v hk hv => ?_⟩
      rw [lookup_cons, if_neg hk, lookup_cons] at hv
      split_ifs at hv
      · exact ⟨_, (Option.some.inj hv).symm⟩
      · cases hv
    obtain ⟨fields', hfields, hrecord', hnumber⟩ := useMore_record concat hrecord
      hresource amount
    rw [hfields] at hnew
    obtain rfl := hnew
    refine ⟨?_, fun name k hk hyear => ?_⟩
    · intro r hr
      exact ⟨fields', _, List.mem_singleton.mp hr, hrecord'⟩
    · have hnone : numberOf [("month", Json.str (monthName year month)), ("year", .num (year : N))]
          k = 0 := by
        rw [numberOf, lookup_cons, if_neg hk, lookup_cons, if_neg hyear]
        rfl
      simp only [counterOf, isMonth_record hrecord', hnumber, hnone]
      by_cases hname : monthName year month = name
      · simp [hname]
      · simp [hname, Ne.symm hname]
  | cons r rest ih =>
    obtain ⟨fields, name, rfl, hrecord⟩ := h r List.mem_cons_self
    have hrest : Regular rest := fun r hr => h r (List.mem_cons_of_mem _ hr)
    rw [increment, isMonth_record hrecord] at hnew
    by_cases hname : name = monthName year month
    · obtain ⟨fields', hfields, hrecord', hnumber⟩ := useMore_record concat hrecord
        hresource amount
      rw [if_pos (decide_eq_true hname), hfields, Option.some.injEq] at hnew
      obtain rfl := hnew
      refine ⟨?_, fun name' k _ _ => ?_⟩
      · intro r hr
        rcases List.mem_cons.mp hr with rfl | hr
        · exact ⟨fields', name, rfl, hrecord'⟩
        · exact hrest r hr
      · rw [counterOf, counterOf, isMonth_record hrecord', isMonth_record hrecord, hnumber]
        by_cases hname' : name = name'
        · simp [← hname', hname]
        · simp [hname', hname ▸ Ne.symm hname']
    · rw [if_neg (by simpa using hname)] at hnew
      obtain ⟨rest', hrest', rfl⟩ := Option.map_eq_some_iff.mp hnew
      obtain ⟨hregular, hcounts⟩ := ih hrest hrest'
      refine ⟨?_, fun name' k hk hyear => ?_⟩
      · intro r hr
        rcases List.mem_cons.mp hr with rfl | hr
        · exact ⟨fields, name, rfl, hrecord⟩
        · exact hregular r hr
      · rw [counterOf, counterOf, isMonth_record hrecord]
        by_cases hname' : name = name'
        · simp [← hname', hname]
        · simp [hname', hcounts name' k hk hyear]

/-- The updates count, and set no usage. -/
def Update.Counts : Update N → Prop
  | .updateHubSettings data => "usage" ∉ (sanitize data).map Prod.fst
  | .updateHubQuotas _ => True
  | .incrementHubUsage resource _ _ _ => resource ≠ "month" ∧ resource ≠ "year"

instance : ∀ update : Update N, Decidable update.Counts
  | .updateHubSettings data => inferInstanceAs (Decidable ("usage" ∉ (sanitize data).map Prod.fst))
  | .updateHubQuotas _ => isTrue trivial
  | .incrementHubUsage resource _ _ _ =>
    inferInstanceAs (Decidable (resource ≠ "month" ∧ resource ≠ "year"))

/-- **Each usage counter is the sum of its increments**, where there was no usage at the beginning,
and no call has set it as a whole. -/
theorem counters_of_kept (h : NoneLost concat initial p) (hinitial : initial "usage" = none)
    (hcounts : ∀ update ∈ p.2, update.Counts) {name resource : String} (hmonth : resource ≠ "month")
    (hyear : resource ≠ "year") : counter p.1.value name resource = total name resource p.2 := by
  have hall : (∀ update ∈ p.2, update.Counts) → (∃ usage, usageOf p.1.value = some usage ∧
      Regular usage ∧ counterOf usage name resource = total name resource p.2) := by
    refine SnapshotWrites.kept_mono (I := fun updates value => (∀ update ∈ updates, update.Counts) →
      ∃ usage, usageOf value = some usage ∧ Regular usage ∧
        counterOf usage name resource = total name resource updates) ?_ ?_ h
    · intro _
      refine ⟨[], by rw [usageOf, hinitial], fun r hr => (by cases hr), rfl⟩
    · intro updates value update value' ih happly hcounts
      obtain ⟨usage, husage, hregular, htotal⟩ :=
        ih fun update hupdate => hcounts update (List.mem_append_left _ hupdate)
      have hupdate := hcounts update (by simp)
      rw [total, List.foldl_append, ← total, ← htotal, List.foldl_cons, List.foldl_nil]
      have hsame : value' "usage" = value "usage" → usageOf value' = some usage := by
        intro hsame
        rw [usageOf, hsame]
        exact husage
      cases update with
      | updateHubSettings data =>
        refine ⟨usage, hsame ?_, hregular, rfl⟩
        rw [← Option.some.inj happly, merge, lookup_eq_none_iff.mpr hupdate, Option.getD_none]
      | updateHubQuotas quotas =>
        refine ⟨usage, hsame ?_, hregular, rfl⟩
        rw [← Option.some.inj happly, Function.update_of_ne (by decide)]
      | incrementHubUsage r amount year month =>
        obtain ⟨usage', husage', rfl⟩ := Option.map_eq_some_iff.mp happly
        rw [husage, Option.bind_some] at husage'
        obtain ⟨hregular', hcount⟩ := increment_regular hregular hupdate.1 husage'
        refine ⟨usage', by rw [usageOf, Function.update_self], hregular', ?_⟩
        exact hcount name resource hmonth hyear
  obtain ⟨usage, husage, -, htotal⟩ := hall hcounts
  rw [counter, husage, Option.getD_some, htotal]

/-- **No update is lost** all along a run exactly if each call finds what it has read, but for what
it sets. Then every key holds the value of the last call that set it, and each usage counter is the
sum of its increments. -/
theorem hubSettings_iff {es : List (Event N)}
    (h : Runs.run (recorded concat) (SnapshotWrites.start initial, []) es = some q) :
    ((∀ before after m, es = before ++ after →
        Runs.run (recorded concat) (SnapshotWrites.start initial, []) before = some m →
          NoneLost concat initial m) ↔
      Runs.Along (recorded concat) (WritesFresh concat) (SnapshotWrites.start initial, []) es) ∧
    (NoneLost concat initial q → (∀ k ≠ "usage", q.1.value k = lastSet initial k q.2) ∧
      (initial "usage" = none → (∀ update ∈ q.2, update.Counts) →
        ∀ name resource, resource ≠ "month" → resource ≠ "year" →
          counter q.1.value name resource = total name resource q.2)) := by
  refine ⟨(SnapshotWrites.kept_iff h).trans ⟨?_, ?_⟩, fun hkept => ⟨fun k hk => ?_, ?_⟩⟩
  · exact Runs.Along.mono fun p e => fresh_iff.mp
  · exact Runs.Along.mono fun p e => fresh_iff.mpr
  · exact keys_of_kept hkept hk
  · intro hinitial hcounts name resource hmonth hyear
    exact counters_of_kept hkept hinitial hcounts hmonth hyear

end Fresh

def noText (_ : Json Int) (_ : Int) : Json Int := .null

def noSettings : Members Int := fun _ => none

def setTimezone : Update Int := .updateHubSettings [("timezone", some (.str "UTC"))]

def setLanguage : Update Int := .updateHubSettings [("language", some (.str "en"))]

def oneCall : Update Int := .incrementHubUsage "calls" 1 2026 1

/-- Two calls, one after the other. -/
def inTurn (first second : Update Int) : List (Event Int) :=
  [.read 0 first, .write 0, .read 1 second, .write 1]

/-- Two calls that both read before one writes. -/
def overlapping (first second : Update Int) : List (Event Int) :=
  [.read 0 first, .read 1 second, .write 0, .write 1]

theorem inTurn_kept : ∃ q,
    Runs.run (recorded noText) (SnapshotWrites.start noSettings, []) (inTurn oneCall oneCall) =
      some q ∧ counter q.1.value "2026-01" "calls" = 2 ∧ NoneLost noText noSettings q := by
  obtain ⟨q, hq, hcounter⟩ : ∃ q ∈ Runs.run (recorded noText)
      (SnapshotWrites.start noSettings, []) (inTurn oneCall oneCall),
        counter q.1.value "2026-01" "calls" = 2 := by
    decide +kernel
  refine ⟨q, hq, hcounter, ?_⟩
  refine (hubSettings_iff hq).1.mpr ⟨trivial, fun p hp => ⟨fresh_after_read hp, fun p' hp' => ?_⟩⟩
    _ [] q (List.append_nil _).symm hq
  exact ⟨trivial, fun p'' hp'' => ⟨fresh_after_read hp'', fun _ _ => trivial⟩⟩

/-- **A setting and an increment that are lost.** Two calls that set different keys overlap, and the
first one's key is not set; two calls count, and one is counted. -/
theorem overlapping_lost :
    (¬ ∀ initial es q,
      Runs.run (recorded noText) (SnapshotWrites.start initial, []) es = some q →
        ∀ k ≠ "usage", q.1.value k = lastSet initial k q.2) ∧
    ¬ ∀ initial es q,
      Runs.run (recorded noText) (SnapshotWrites.start initial, []) es = some q →
        initial "usage" = none → (∀ update ∈ q.2, update.Counts) →
          ∀ name resource, resource ≠ "month" → resource ≠ "year" →
            counter q.1.value name resource = total name resource q.2 := by
  constructor
  · intro h
    obtain ⟨q, hq, hvalue, hlast⟩ : ∃ q ∈ Runs.run (recorded noText)
        (SnapshotWrites.start noSettings, []) (overlapping setTimezone setLanguage),
          (q.1.value "timezone").isSome = false ∧
            (lastSet noSettings "timezone" q.2).isSome = true := by
      decide +kernel
    rw [h noSettings _ q hq "timezone" (by decide), hlast] at hvalue
    cases hvalue
  · intro h
    obtain ⟨q, hq, hlog, hvalue, htotal⟩ : ∃ q ∈ Runs.run (recorded noText)
        (SnapshotWrites.start noSettings, []) (overlapping oneCall oneCall),
          (∀ update ∈ q.2, update.Counts) ∧ counter q.1.value "2026-01" "calls" = 1 ∧
            total "2026-01" "calls" q.2 = 2 := by
      decide +kernel
    rw [h noSettings _ q hq rfl hlog "2026-01" "calls" (by decide) (by decide), htotal] at hvalue
    cases hvalue

end Llamenos.Worker.Settings.HubSettings
