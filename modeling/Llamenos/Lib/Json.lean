import Llamenos.Lib.Text

/-!
# JSON values and their compact text

`Json N` is a JSON value over a type `N` of numbers, an object being its fields in the order in
which they are written. `render` gives the UTF-8 bytes of the compact text that both
`serde_json::to_string` and `JSON.stringify` write: no white space, the short escapes and `\u00xx`
for the other control characters, everything else as it is. How numbers are written is a
parameter.

A number ends only where something else begins, so the text of a value is read off a longer text
only if what follows is no part of a number (`Delimited`).

Results:
* `escape_inj`, `quote_inj`: a quoted text is read back, whatever follows.
* `render_append_inj`: so is a value, before a delimiter.
* `render_injective`: **distinct values have distinct texts**, if distinct numbers have.
* `render_mapNum`: the text of a value with other numbers is its text with theirs.
-/

namespace Llamenos.Lib

/-- A JSON value. -/
inductive Json (N : Type) where
  | null
  | bool (b : Bool)
  | num (n : N)
  | str (s : String)
  | arr (elems : List (Json N))
  | obj (fields : List (String × Json N))

namespace Json

variable {N : Type}

/-- A value in which the members of every object are in the order of their keys. -/
inductive Ordered (keyLt : String → String → Prop) : Json N → Prop where
  | null : Ordered keyLt null
  | bool (b : Bool) : Ordered keyLt (bool b)
  | num (n : N) : Ordered keyLt (num n)
  | str (s : String) : Ordered keyLt (str s)
  | arr {elems : List (Json N)} (h : ∀ x ∈ elems, Ordered keyLt x) : Ordered keyLt (arr elems)
  | obj {fields : List (String × Json N)} (hkeys : fields.Pairwise fun f g => keyLt f.1 g.1)
      (h : ∀ f ∈ fields, Ordered keyLt f.2) : Ordered keyLt (obj fields)

/-- A value in which no object has a key twice. -/
inductive UniqueKeys : Json N → Prop where
  | null : UniqueKeys null
  | bool (b : Bool) : UniqueKeys (bool b)
  | num (n : N) : UniqueKeys (num n)
  | str (s : String) : UniqueKeys (str s)
  | arr {elems : List (Json N)} (h : ∀ x ∈ elems, UniqueKeys x) : UniqueKeys (arr elems)
  | obj {fields : List (String × Json N)} (hkeys : (fields.map Prod.fst).Nodup)
      (h : ∀ f ∈ fields, UniqueKeys f.2) : UniqueKeys (obj fields)

/-- `value.get(key)`: the member of an object. -/
def get? (key : String) : Json N → Option (Json N)
  | obj fields => fields.lookup key
  | _ => none

/-- `value.as_str()`. -/
def asStr? : Json N → Option String
  | str s => some s
  | _ => none

/-! ## The text of a value -/

/-- The text of one byte inside quotes; the bytes of a longer character stand for themselves. -/
def escapeByte (b : UInt8) : List UInt8 :=
  if b = ascii '"' then [ascii '\\', ascii '"']
  else if b = ascii '\\' then [ascii '\\', ascii '\\']
  else if b = 8 then [ascii '\\', ascii 'b']
  else if b = 9 then [ascii '\\', ascii 't']
  else if b = 10 then [ascii '\\', ascii 'n']
  else if b = 12 then [ascii '\\', ascii 'f']
  else if b = 13 then [ascii '\\', ascii 'r']
  else if b < 32 then
    [ascii '\\', ascii 'u', ascii '0', ascii '0', ascii (hexDigit (b.toNat / 16)),
      ascii (hexDigit (b.toNat % 16))]
  else [b]

def escape (bs : List UInt8) : List UInt8 := bs.flatMap escapeByte

/-- A text in quotes. -/
def quote (s : String) : List UInt8 := ascii '"' :: (escape (asBytes s) ++ [ascii '"'])

mutual

/-- The text of a value. -/
def render (number : N → List UInt8) : Json N → List UInt8
  | null => [ascii 'n', ascii 'u', ascii 'l', ascii 'l']
  | bool true => [ascii 't', ascii 'r', ascii 'u', ascii 'e']
  | bool false => [ascii 'f', ascii 'a', ascii 'l', ascii 's', ascii 'e']
  | num n => number n
  | str s => quote s
  | arr [] => [ascii '[', ascii ']']
  | arr (x :: xs) => ascii '[' :: (render number x ++ renderElems number xs)
  | obj [] => [ascii '{', ascii '}']
  | obj ((key, x) :: fields) =>
    ascii '{' :: (quote key ++ ascii ':' :: (render number x ++ renderFields number fields))

/-- The elements after the first, and the closing bracket. -/
def renderElems (number : N → List UInt8) : List (Json N) → List UInt8
  | [] => [ascii ']']
  | x :: xs => ascii ',' :: (render number x ++ renderElems number xs)

/-- The fields after the first, and the closing brace. -/
def renderFields (number : N → List UInt8) : List (String × Json N) → List UInt8
  | [] => [ascii '}']
  | (key, x) :: fields =>
    ascii ',' :: (quote key ++ ascii ':' :: (render number x ++ renderFields number fields))

end

/-! ## Quoted texts -/

/-- Reads one escaped byte back. -/
def unescapeByte : List UInt8 → Option (UInt8 × List UInt8)
  | [] => none
  | b :: t =>
    if b = ascii '\\' then
      match t with
      | [] => none
      | e :: t =>
        if e = ascii 'b' then some (8, t)
        else if e = ascii 't' then some (9, t)
        else if e = ascii 'n' then some (10, t)
        else if e = ascii 'f' then some (12, t)
        else if e = ascii 'r' then some (13, t)
        else if e = ascii 'u' then
          match t with
          | _ :: _ :: h :: l :: t =>
            match hexVal h.toNat, hexVal l.toNat with
            | some h, some l => some (UInt8.ofNat (h * 16 + l), t)
            | _, _ => none
          | _ => none
        else some (e, t)
    else some (b, t)

theorem hexVal_ascii_hexDigit {n : Nat} (h : n < 16) :
    hexVal (ascii (hexDigit n)).toNat = some n := by
  have hspec := hexDigit_spec n h
  rw [toNat_ascii hspec.1, hspec.2]

theorem unescapeByte_escapeByte (b : UInt8) (t : List UInt8) :
    unescapeByte (escapeByte b ++ t) = some (b, t) := by
  unfold escapeByte
  split
  · rename_i h
    rw [h]
    rfl
  split
  · rename_i h
    rw [h]
    rfl
  split
  · rename_i h
    rw [h]
    rfl
  split
  · rename_i h
    rw [h]
    rfl
  split
  · rename_i h
    rw [h]
    rfl
  split
  · rename_i h
    rw [h]
    rfl
  split
  · rename_i h
    rw [h]
    rfl
  split
  · rename_i h
    have hlt := UInt8.lt_iff_toNat_lt.mp h
    have hhi : b.toNat / 16 < 16 := by
      have := b.toNat_lt
      omega
    show (match hexVal (ascii (hexDigit (b.toNat / 16))).toNat,
        hexVal (ascii (hexDigit (b.toNat % 16))).toNat with
      | some h, some l => some (UInt8.ofNat (h * 16 + l), t)
      | _, _ => none) = some (b, t)
    rw [hexVal_ascii_hexDigit hhi, hexVal_ascii_hexDigit (Nat.mod_lt _ (by decide))]
    simp only [Nat.div_add_mod', UInt8.ofNat_toNat]
  · rename_i h _ _ _ _ _ _
    exact if_neg h

theorem escapeByte_head (b : UInt8) : ∃ d t, escapeByte b = d :: t ∧ d ≠ ascii '"' := by
  unfold escapeByte
  repeat' split
  all_goals first
    | exact ⟨_, _, rfl, by decide⟩
    | exact ⟨b, [], rfl, by assumption⟩

/-- **A text up to the closing quote is read back, whatever follows.** -/
theorem escape_inj {bs ds t u : List UInt8}
    (h : escape bs ++ ascii '"' :: t = escape ds ++ ascii '"' :: u) : bs = ds ∧ t = u := by
  have hquote : ∀ (b : UInt8) (bs t u : List UInt8),
      escape (b :: bs) ++ t ≠ ascii '"' :: u := by
    intro b bs t u h
    obtain ⟨d, s, hd, hne⟩ := escapeByte_head b
    rw [escape, List.flatMap_cons, hd] at h
    exact hne (List.cons.inj h).1
  induction bs generalizing ds with
  | nil =>
    cases ds with
    | nil => exact ⟨rfl, (List.cons.inj h).2⟩
    | cons d ds => exact absurd h.symm (hquote d ds _ t)
  | cons b bs ih =>
    cases ds with
    | nil => exact absurd h (hquote b bs _ u)
    | cons d ds =>
      have hb : escape (b :: bs) = escapeByte b ++ escape bs := List.flatMap_cons
      have hd : escape (d :: ds) = escapeByte d ++ escape ds := List.flatMap_cons
      rw [hb, hd, List.append_assoc, List.append_assoc] at h
      have hread := congrArg unescapeByte h
      rw [unescapeByte_escapeByte, unescapeByte_escapeByte] at hread
      injection hread with hread
      injection hread with hbd hrest
      obtain ⟨hbs, ht⟩ := ih hrest
      exact ⟨by rw [hbd, hbs], ht⟩

theorem quote_inj {r s : String} {t u : List UInt8} (h : quote r ++ t = quote s ++ u) :
    r = s ∧ t = u := by
  simp only [quote, List.cons_append, List.append_assoc, List.nil_append, List.cons.injEq,
    true_and] at h
  obtain ⟨hrs, htu⟩ := escape_inj h
  exact ⟨asBytes_injective hrs, htu⟩

/-! ## Values -/

/-- **Induction over a value**, with the claim for every element and every field's value. -/
@[elab_as_elim]
theorem memberInduction {P : Json N → Prop} (null : P null) (bool : ∀ b, P (bool b))
    (num : ∀ n, P (num n)) (str : ∀ s, P (str s))
    (arr : ∀ xs, (∀ x ∈ xs, P x) → P (arr xs))
    (obj : ∀ fields, (∀ f ∈ fields, P f.2) → P (obj fields)) (v : Json N) : P v :=
  @Json.rec N P (fun xs => ∀ x ∈ xs, P x) (fun fields => ∀ f ∈ fields, P f.2) (fun f => P f.2)
    null bool num str arr obj (fun _ h => absurd h List.not_mem_nil)
    (fun _ _ hx hxs => List.forall_mem_cons.mpr ⟨hx, hxs⟩) (fun _ h => absurd h List.not_mem_nil)
    (fun _ _ hf hfs => List.forall_mem_cons.mpr ⟨hf, hfs⟩) (fun _ _ h => h) v

/-- The bytes that numbers are written with: digits, signs, point and exponent. -/
def isNumberByte (b : UInt8) : Bool :=
  (ascii '0' ≤ b && b ≤ ascii '9') || b = ascii '-' || b = ascii '+' || b = ascii '.' ||
    b = ascii 'e' || b = ascii 'E'

/-- Numbers are written with the bytes of numbers, and distinct ones differently. -/
structure Unambiguous (number : N → List UInt8) : Prop where
  ne_nil : ∀ n, number n ≠ []
  bytes : ∀ n, ∀ b ∈ number n, isNumberByte b
  injective : Function.Injective number

/-- An integer is written with the bytes of numbers, and without a point or an exponent. -/
theorem isNumberByte_intBytes (i : Int) : ∀ b ∈ (intChars i).map ascii,
    isNumberByte b ∧ b ≠ ascii '.' ∧ b ≠ ascii 'e' := by
  intro b hb
  obtain ⟨c, hc, rfl⟩ := List.mem_map.mp hb
  rcases mem_intChars hc with hd | rfl
  · obtain ⟨hlo, hhi⟩ := isDigit_iff_toNat.mp hd
    have hbyte := toNat_ascii (toNat_intChars_lt i c hc)
    refine ⟨?_, fun h => ?_, fun h => ?_⟩
    · have hlo' : ascii '0' ≤ ascii c := UInt8.le_iff_toNat_le.mpr (hbyte ▸ hlo)
      have hhi' : ascii c ≤ ascii '9' := UInt8.le_iff_toNat_le.mpr (hbyte ▸ hhi)
      simp [isNumberByte, hlo', hhi']
    · rw [h] at hbyte
      exact absurd (hbyte ▸ hlo) (by decide)
    · rw [h] at hbyte
      exact absurd (hbyte ▸ hhi) (by decide)
  · decide

/-- Integers are told apart by their digits. -/
theorem unambiguous_intBytes : Unambiguous fun i : Int => (intChars i).map ascii where
  ne_nil i := by
    cases i with
    | ofNat n => exact fun h => decimal_ne_nil n (List.map_eq_nil_iff.mp h)
    | negSucc n => exact List.cons_ne_nil _ _
  bytes i b hb := (isNumberByte_intBytes i b hb).1
  injective _ _ h := intBytes_inj.mp h

/-- What follows does not go on with a number. -/
def Delimited (t : List UInt8) : Prop := t.takeWhile isNumberByte = []

variable {number : N → List UInt8}

theorem delimited_renderElems (xs : List (Json N)) (t : List UInt8) :
    Delimited (renderElems number xs ++ t) := by
  cases xs <;> (rw [renderElems]; rfl)

theorem delimited_renderFields (fields : List (String × Json N)) (t : List UInt8) :
    Delimited (renderFields number fields ++ t) := by
  cases fields <;> (rw [renderFields]; rfl)

theorem number_append_inj (hn : Unambiguous number) {m n : N} {t u : List UInt8}
    (ht : Delimited t) (hu : Delimited u) (h : number m ++ t = number n ++ u) : m = n ∧ t = u := by
  have hwhile : ∀ (k : N) (r : List UInt8), Delimited r →
      (number k ++ r).takeWhile isNumberByte = number k := fun k r hr => by
    rw [List.takeWhile_append_of_pos (hn.bytes k), hr, List.append_nil]
  have hmn : number m = number n := by rw [← hwhile m t ht, h, hwhile n u hu]
  rw [hmn] at h
  exact ⟨hn.injective hmn, List.append_cancel_left h⟩

/-- What the first byte says about a value. -/
def lead (b : UInt8) : Nat :=
  if b = ascii 'n' then 0
  else if b = ascii 't' ∨ b = ascii 'f' then 1
  else if isNumberByte b then 2
  else if b = ascii '"' then 3
  else if b = ascii '[' then 4
  else if b = ascii '{' then 5
  else 6

/-- Which constructor a value is built with. -/
def kind : Json N → Nat
  | null => 0
  | bool _ => 1
  | num _ => 2
  | str _ => 3
  | arr _ => 4
  | obj _ => 5

theorem lead_of_isNumberByte {b : UInt8} (h : isNumberByte b) : lead b = 2 := by
  have hn : b ≠ ascii 'n' := fun hb => absurd h (by rw [hb]; decide)
  have htf : ¬ (b = ascii 't' ∨ b = ascii 'f') := by
    rintro (hb | hb) <;> exact absurd h (by rw [hb]; decide)
  rw [lead, if_neg hn, if_neg htf, if_pos h]

theorem render_head (hn : Unambiguous number) (v : Json N) :
    ∃ b t, render number v = b :: t ∧ lead b = kind v := by
  cases v with
  | null => exact ⟨ascii 'n', _, rfl, rfl⟩
  | bool b => cases b <;> exact ⟨_, _, rfl, rfl⟩
  | num n =>
    obtain ⟨b, t, hbt⟩ := List.exists_cons_of_ne_nil (hn.ne_nil n)
    exact ⟨b, t, hbt, lead_of_isNumberByte (hn.bytes n b (hbt ▸ List.mem_cons_self))⟩
  | str s => exact ⟨ascii '"', _, rfl, rfl⟩
  | arr xs => cases xs <;> exact ⟨ascii '[', _, rfl, rfl⟩
  | obj fields => cases fields <;> exact ⟨ascii '{', _, rfl, rfl⟩

theorem kind_eq_of_render (hn : Unambiguous number) {v w : Json N} {t u : List UInt8}
    (h : render number v ++ t = render number w ++ u) : kind v = kind w := by
  obtain ⟨c, s, hv, hc⟩ := render_head hn v
  obtain ⟨d, r, hw, hd⟩ := render_head hn w
  rw [hv, hw] at h
  rw [← hc, ← hd, (List.cons.inj h).1]

/-- A value is read back off its text and what follows. -/
def ReadsBack (number : N → List UInt8) (v : Json N) : Prop :=
  ∀ (w : Json N) (t u : List UInt8), Delimited t → Delimited u →
    render number v ++ t = render number w ++ u → v = w ∧ t = u

theorem renderElems_inj {xs : List (Json N)} (hx : ∀ x ∈ xs, ReadsBack number x) :
    ∀ (ys : List (Json N)) (t u : List UInt8),
      renderElems number xs ++ t = renderElems number ys ++ u → xs = ys ∧ t = u := by
  induction xs with
  | nil =>
    intro ys t u h
    cases ys with
    | nil => exact ⟨rfl, (List.cons.inj h).2⟩
    | cons y ys =>
      rw [renderElems, renderElems] at h
      exact absurd (List.cons.inj h).1 (by decide)
  | cons x xs ih =>
    intro ys t u h
    cases ys with
    | nil =>
      rw [renderElems, renderElems] at h
      exact absurd (List.cons.inj h).1 (by decide)
    | cons y ys =>
      simp only [renderElems, List.cons_append, List.append_assoc, List.cons.injEq, true_and] at h
      obtain ⟨rfl, hrest⟩ := hx x List.mem_cons_self y _ _ (delimited_renderElems xs t)
        (delimited_renderElems ys u) h
      obtain ⟨rfl, rfl⟩ := ih (fun z hz => hx z (List.mem_cons_of_mem x hz)) ys t u hrest
      exact ⟨rfl, rfl⟩
variable {fields : List (String × Json N)}

theorem renderFields_inj
    (hf : ∀ f ∈ fields, ReadsBack number f.2) :
    ∀ (fields' : List (String × Json N)) (t u : List UInt8),
      renderFields number fields ++ t = renderFields number fields' ++ u →
        fields = fields' ∧ t = u := by
  induction fields with
  | nil =>
    intro fields' t u h
    cases fields' with
    | nil => exact ⟨rfl, (List.cons.inj h).2⟩
    | cons f' fields' =>
      rw [renderFields, renderFields] at h
      exact absurd (List.cons.inj h).1 (by decide)
  | cons f fields ih =>
    obtain ⟨key, x⟩ := f
    intro fields' t u h
    cases fields' with
    | nil =>
      rw [renderFields, renderFields] at h
      exact absurd (List.cons.inj h).1 (by decide)
    | cons f' fields' =>
      obtain ⟨key', x'⟩ := f'
      simp only [renderFields, List.cons_append, List.append_assoc, List.cons.injEq,
        true_and] at h
      obtain ⟨rfl, hvalue⟩ := quote_inj h
      obtain ⟨rfl, hrest⟩ := hf (key, x) List.mem_cons_self x' _ _
        (delimited_renderFields fields t) (delimited_renderFields fields' u)
        (List.cons.inj hvalue).2
      obtain ⟨rfl, rfl⟩ := ih (fun f hf' => hf f (List.mem_cons_of_mem _ hf')) fields' t u hrest
      exact ⟨rfl, rfl⟩

theorem render_ne_close (hn : Unambiguous number) (v : Json N) (t u : List UInt8) :
    render number v ++ t ≠ ascii ']' :: u := by
  intro h
  obtain ⟨c, s, hv, hc⟩ := render_head hn v
  rw [hv] at h
  rw [(List.cons.inj h).1, show lead (ascii ']') = 6 by decide] at hc
  cases v <;> cases hc

theorem readsBack_arr (hn : Unambiguous number) {xs : List (Json N)}
    (hx : ∀ x ∈ xs, ReadsBack number x) : ReadsBack number (arr xs) := by
  intro w t u _ _ h
  have hkind := kind_eq_of_render hn h
  cases w with
  | arr ys =>
    cases xs with
    | nil =>
      cases ys with
      | nil => exact ⟨rfl, List.append_cancel_left h⟩
      | cons y ys =>
        simp only [render, List.cons_append, List.append_assoc, List.cons.injEq, true_and] at h
        exact absurd h.symm (render_ne_close hn y _ _)
    | cons x xs =>
      cases ys with
      | nil =>
        simp only [render, List.cons_append, List.append_assoc, List.cons.injEq, true_and] at h
        exact absurd h (render_ne_close hn x _ _)
      | cons y ys =>
        have htail : renderElems number (x :: xs) ++ t = renderElems number (y :: ys) ++ u := by
          simp only [render, List.cons_append, List.append_assoc, List.cons.injEq, true_and] at h
          simp only [renderElems, List.cons_append, List.append_assoc, h]
        obtain ⟨hxs, htu⟩ := renderElems_inj hx (y :: ys) t u htail
        exact ⟨by rw [hxs], htu⟩
  | _ => exact absurd hkind (by simp [kind])

theorem readsBack_obj (hn : Unambiguous number)
    (hf : ∀ f ∈ fields, ReadsBack number f.2) : ReadsBack number (obj fields) := by
  intro w t u _ _ h
  have hkind := kind_eq_of_render hn h
  cases w with
  | obj fields' =>
    cases fields with
    | nil =>
      cases fields' with
      | nil => exact ⟨rfl, List.append_cancel_left h⟩
      | cons f' fields' => exact absurd (List.cons.inj (List.cons.inj h).2).1 (by decide)
    | cons f fields =>
      cases fields' with
      | nil => exact absurd (List.cons.inj (List.cons.inj h).2).1 (by decide)
      | cons f' fields' =>
        have htail : renderFields number (f :: fields) ++ t =
            renderFields number (f' :: fields') ++ u := by
          simp only [render, List.cons_append, List.append_assoc, List.cons.injEq, true_and] at h
          simp only [renderFields, List.cons_append, List.append_assoc, h]
        obtain ⟨hfs, htu⟩ := renderFields_inj hf (f' :: fields') t u htail
        exact ⟨by rw [hfs], htu⟩
  | _ => exact absurd hkind (by simp [kind])

/-- **A value is read back off its text and what follows**, up to a delimiter. -/
theorem render_append_inj (hn : Unambiguous number) (v : Json N) : ReadsBack number v := by
  induction v using memberInduction with
  | null =>
    intro w t u _ _ h
    have hkind := kind_eq_of_render hn h
    cases w with
    | null => exact ⟨rfl, List.append_cancel_left h⟩
    | _ => exact absurd hkind (by simp [kind])
  | bool b =>
    intro w t u _ _ h
    have hkind := kind_eq_of_render hn h
    cases w with
    | bool c =>
      cases b <;> cases c <;>
        first
        | exact ⟨rfl, List.append_cancel_left h⟩
        | exact absurd (List.cons.inj h).1 (by decide)
    | _ => exact absurd hkind (by simp [kind])
  | num m =>
    intro w t u ht hu h
    have hkind := kind_eq_of_render hn h
    cases w with
    | num n =>
      obtain ⟨rfl, htu⟩ := number_append_inj hn ht hu h
      exact ⟨rfl, htu⟩
    | _ => exact absurd hkind (by simp [kind])
  | str r =>
    intro w t u _ _ h
    have hkind := kind_eq_of_render hn h
    cases w with
    | str s =>
      obtain ⟨rfl, htu⟩ := quote_inj h
      exact ⟨rfl, htu⟩
    | _ => exact absurd hkind (by simp [kind])
  | arr xs ih => exact readsBack_arr hn ih
  | obj fields ih => exact readsBack_obj hn ih

/-- **Distinct values have distinct texts.** -/
theorem render_injective (hn : Unambiguous number) : Function.Injective (render number) := by
  intro v w h
  exact (render_append_inj hn v w [] [] rfl rfl (by rw [h])).1

/-! ## Other numbers -/

section MapNum

variable {M : Type}

mutual

/-- The value with other numbers. -/
def mapNum (f : N → M) : Json N → Json M
  | null => null
  | bool b => bool b
  | num n => num (f n)
  | str s => str s
  | arr elems => arr (mapElems f elems)
  | obj fields => obj (mapFields f fields)

def mapElems (f : N → M) : List (Json N) → List (Json M)
  | [] => []
  | x :: xs => mapNum f x :: mapElems f xs

def mapFields (f : N → M) : List (String × Json N) → List (String × Json M)
  | [] => []
  | (key, x) :: fields => (key, mapNum f x) :: mapFields f fields

end

theorem mapElems_eq (f : N → M) (xs : List (Json N)) : mapElems f xs = xs.map (mapNum f) := by
  induction xs with
  | nil => rfl
  | cons x xs ih => rw [mapElems, ih, List.map_cons]

theorem mapFields_eq (f : N → M) (fields : List (String × Json N)) :
    mapFields f fields = fields.map fun field => (field.1, mapNum f field.2) := by
  induction fields with
  | nil => rfl
  | cons field fields ih => rw [mapFields, ih, List.map_cons]

theorem renderElems_map {number : M → List UInt8} {f : N → M} {xs : List (Json N)}
    (h : ∀ x ∈ xs, render number (x.mapNum f) = render (number ∘ f) x) :
    renderElems number (xs.map (mapNum f)) = renderElems (number ∘ f) xs := by
  induction xs with
  | nil => rfl
  | cons x xs ih =>
    rw [List.map_cons, renderElems, renderElems, h x List.mem_cons_self,
      ih fun y hy => h y (List.mem_cons_of_mem x hy)]

theorem renderFields_map {number : M → List UInt8} {f : N → M}
    (h : ∀ field ∈ fields, render number (field.2.mapNum f) = render (number ∘ f) field.2) :
    renderFields number (fields.map fun field => (field.1, mapNum f field.2)) =
      renderFields (number ∘ f) fields := by
  induction fields with
  | nil => rfl
  | cons field fields ih =>
    rw [List.map_cons, renderFields, renderFields, h field List.mem_cons_self,
      ih fun other hother => h other (List.mem_cons_of_mem field hother)]

/-- **The text of a value with other numbers** is its text with theirs. -/
theorem render_mapNum (number : M → List UInt8) (f : N → M) (v : Json N) :
    render number (v.mapNum f) = render (number ∘ f) v := by
  induction v using memberInduction with
  | null => rfl
  | bool b => cases b <;> rfl
  | num n => rfl
  | str s => rfl
  | arr xs ih =>
    rw [mapNum, mapElems_eq]
    cases xs with
    | nil => rfl
    | cons x xs =>
      rw [List.map_cons, render, render, ih x List.mem_cons_self,
        renderElems_map fun y hy => ih y (List.mem_cons_of_mem x hy)]
  | obj fields ih =>
    rw [mapNum, mapFields_eq]
    cases fields with
    | nil => rfl
    | cons field fields =>
      rw [List.map_cons, render, render, ih field List.mem_cons_self,
        renderFields_map fun other hother => ih other (List.mem_cons_of_mem field hother)]

end MapNum

end Json

end Llamenos.Lib
