import Llamenos.Lib.Json

/-!
# Inside and outside of the quotes of a JSON text

A scanner that goes over a JSON text byte by byte and tells which bytes are inside quotes (`Scan`).
It needs no grammar: an unescaped quote opens or closes, whatever is around it. It also notes
whether a colon outside of quotes came after anything but a quote (`stray`).

The text of a value leaves the scanner where it was, inside of quotes or outside, and outside it
has no stray colon (`Closed`). So no text of a value ends in the text of another one after a colon,
unless a quote is before that colon.

Results:
* `closed_render`: the text of a value is closed.
* `render_ne_append`: **no value's text goes on, after a byte and a colon, with the text of a
  value to its end**, unless that byte is a quote or a backslash.
-/

namespace Llamenos.Lib.Json

/-- Where the scanner is. -/
structure Scan where
  inText : Bool := false
  escaped : Bool := false
  last : UInt8 := 0
  stray : Bool := false

/-- One byte on. -/
def Scan.next (s : Scan) (b : UInt8) : Scan :=
  if s.escaped then { s with escaped := false, last := b }
  else if b = ascii '\\' then { s with escaped := true, last := b }
  else if b = ascii '"' then { s with inText := !s.inText, last := b }
  else { s with
    last := b
    stray := s.stray || (b = ascii ':' && !s.inText && s.last ≠ ascii '"') }

def scan (s : Scan) (bs : List UInt8) : Scan := bs.foldl Scan.next s

@[simp] theorem scan_nil (s : Scan) : scan s [] = s := rfl

@[simp] theorem scan_cons (s : Scan) (b : UInt8) (bs : List UInt8) :
    scan s (b :: bs) = scan (s.next b) bs := rfl

theorem scan_append (s : Scan) (bs ds : List UInt8) : scan s (bs ++ ds) = scan (scan s bs) ds :=
  List.foldl_append

/-- A byte that neither escapes nor quotes. -/
def Ordinary (b : UInt8) : Prop := b ≠ ascii '\\' ∧ b ≠ ascii '"'

instance (b : UInt8) : Decidable (Ordinary b) :=
  inferInstanceAs (Decidable (b ≠ ascii '\\' ∧ b ≠ ascii '"'))

theorem Scan.next_ordinary {s : Scan} {b : UInt8} (hs : s.escaped = false) (hb : Ordinary b) :
    s.next b = { s with
      last := b
      stray := s.stray || (b = ascii ':' && !s.inText && s.last ≠ ascii '"') } := by
  rw [Scan.next, if_neg (by simp [hs]), if_neg hb.1, if_neg hb.2]

/-- A text over which the scanner comes back to where it was, and notes no stray colon if that is
on this side of the quotes. -/
def Keeps (inText : Bool) (bs : List UInt8) : Prop :=
  ∀ s : Scan, s.escaped = false → (scan s bs).escaped = false ∧ (scan s bs).inText = s.inText ∧
    (s.inText = inText → (scan s bs).stray = s.stray)

/-- A text that keeps to its place, and has no stray colon. -/
abbrev Closed (bs : List UInt8) : Prop := Keeps false bs

variable {inText : Bool}

theorem keeps_nil : Keeps inText [] := fun _ hs => ⟨hs, rfl, fun _ => rfl⟩

theorem Keeps.append {bs ds : List UInt8} (hbs : Keeps inText bs) (hds : Keeps inText ds) :
    Keeps inText (bs ++ ds) := by
  intro s hs
  obtain ⟨hesc, hin, hstray⟩ := hbs s hs
  obtain ⟨hesc', hin', hstray'⟩ := hds _ hesc
  rw [scan_append]
  refine ⟨hesc', hin'.trans hin, fun hside => ?_⟩
  rw [hstray' (hin.trans hside), hstray hside]

theorem keeps_singleton {b : UInt8} (hb : Ordinary b) (hcolon : inText = false → b ≠ ascii ':') :
    Keeps inText [b] := by
  intro s hs
  rw [scan_cons, scan_nil, Scan.next_ordinary hs hb]
  refine ⟨hs, rfl, fun hside => ?_⟩
  cases inText with
  | false => simp [hcolon rfl]
  | true => simp [hside]

theorem keeps_of_forall {bs : List UInt8} (h : ∀ b ∈ bs, Ordinary b ∧ b ≠ ascii ':') :
    Keeps inText bs := by
  induction bs with
  | nil => exact keeps_nil
  | cons b bs ih =>
    obtain ⟨hb, hcolon⟩ := h b List.mem_cons_self
    exact (keeps_singleton hb fun _ => hcolon).append
      (ih fun c hc => h c (List.mem_cons_of_mem b hc))

theorem keeps_of_all {bs : List UInt8}
    (h : bs.all (fun b => decide (Ordinary b ∧ b ≠ ascii ':')) = true) : Keeps inText bs :=
  keeps_of_forall fun b hb => of_decide_eq_true (List.all_eq_true.mp h b hb)

/-! ## Quoted texts -/

/-- An escape takes the byte after it, whatever it is. -/
theorem keeps_escape (b : UInt8) : Keeps inText [ascii '\\', b] := by
  intro s hs
  have hfirst : s.next (ascii '\\') = { s with escaped := true, last := ascii '\\' } := by
    rw [Scan.next, if_neg (by simp [hs]), if_pos rfl]
  rw [scan_cons, scan_cons, scan_nil, hfirst, Scan.next, if_pos rfl]
  exact ⟨rfl, rfl, fun _ => rfl⟩

theorem ordinary_hexDigit :
    ∀ n < 16, Ordinary (ascii (hexDigit n)) ∧ ascii (hexDigit n) ≠ ascii ':' := by
  decide

theorem keeps_escapeByte (b : UInt8) : Keeps true (escapeByte b) := by
  unfold escapeByte
  split
  · exact keeps_escape _
  rename_i hquote
  split
  · exact keeps_escape _
  rename_i hbackslash
  split
  · exact keeps_escape _
  split
  · exact keeps_escape _
  split
  · exact keeps_escape _
  split
  · exact keeps_escape _
  split
  · exact keeps_escape _
  split
  · have hlt := b.toNat_lt
    refine (keeps_escape (ascii 'u')).append (keeps_of_forall ?_)
    simp only [List.forall_mem_cons, List.not_mem_nil, false_implies, implies_true, and_true]
    exact ⟨by decide, by decide, ordinary_hexDigit (b.toNat / 16) (by omega),
      ordinary_hexDigit (b.toNat % 16) (by omega)⟩
  · exact keeps_singleton ⟨hbackslash, hquote⟩ (fun h => by cases h)

theorem keeps_escape_bytes (bs : List UInt8) : Keeps true (escape bs) := by
  induction bs with
  | nil => exact keeps_nil
  | cons b bs ih =>
    rw [escape, List.flatMap_cons]
    exact (keeps_escapeByte b).append ih

theorem Scan.next_quote {s : Scan} (hs : s.escaped = false) :
    s.next (ascii '"') = { s with inText := !s.inText, last := ascii '"' } := by
  rw [Scan.next, if_neg (by simp [hs]), if_neg (by decide), if_pos rfl]

/-- After a quoted text the scanner is where it was, with the closing quote behind it. -/
theorem scan_quote (text : String) {s : Scan} (hs : s.escaped = false) :
    (scan s (quote text)).escaped = false ∧ (scan s (quote text)).inText = s.inText ∧
      (scan s (quote text)).last = ascii '"' ∧
      (s.inText = false → (scan s (quote text)).stray = s.stray) := by
  obtain ⟨hesc, hin, hstray⟩ := keeps_escape_bytes (asBytes text)
    { s with inText := !s.inText, last := ascii '"' } hs
  rw [quote, scan_cons, Scan.next_quote hs, scan_append, scan_cons, scan_nil,
    Scan.next_quote hesc]
  refine ⟨hesc, ?_, rfl, fun hout => ?_⟩
  · rw [hin, Bool.not_not]
  · exact hstray (by simp [hout])

theorem closed_quote (text : String) : Closed (quote text) := fun _ hs =>
  have h := scan_quote text hs
  ⟨h.1, h.2.1, h.2.2.2⟩

/-- A key and its colon. -/
theorem closed_key (key : String) : Closed (quote key ++ [ascii ':']) := by
  intro s hs
  obtain ⟨hesc, hin, hlast, hstray⟩ := scan_quote key hs
  have hcolon : Ordinary (ascii ':') := by decide
  rw [scan_append, scan_cons, scan_nil, Scan.next_ordinary hesc hcolon]
  exact ⟨hesc, hin, fun hout => by simp [hlast, hstray hout]⟩

/-! ## Values -/

variable {N : Type} {number : N → List UInt8}

theorem closed_byte {b : UInt8} (hb : Ordinary b ∧ b ≠ ascii ':') : Closed [b] :=
  keeps_singleton hb.1 fun _ => hb.2

theorem closed_of_isNumberByte {bs : List UInt8} (h : ∀ b ∈ bs, isNumberByte b) : Closed bs := by
  refine keeps_of_forall fun b hb => ?_
  have hne : ∀ c : UInt8, isNumberByte c = false → b ≠ c := by
    rintro c hc rfl
    rw [h b hb] at hc
    cases hc
  exact ⟨⟨hne _ (by decide), hne _ (by decide)⟩, hne _ (by decide)⟩

theorem closed_renderElems {xs : List (Json N)} (h : ∀ x ∈ xs, Closed (render number x)) :
    Closed (renderElems number xs) := by
  induction xs with
  | nil => exact closed_byte (by decide)
  | cons x xs ih =>
    rw [renderElems]
    refine (closed_byte (b := ascii ',') (by decide)).append ?_
    exact (h x List.mem_cons_self).append (ih fun y hy => h y (List.mem_cons_of_mem x hy))

theorem closed_renderFields {fields : List (String × Json N)}
    (h : ∀ f ∈ fields, Closed (render number f.2)) : Closed (renderFields number fields) := by
  induction fields with
  | nil => exact closed_byte (by decide)
  | cons f fields ih =>
    obtain ⟨key, x⟩ := f
    rw [renderFields, List.append_cons (quote key)]
    refine (closed_byte (b := ascii ',') (by decide)).append ((closed_key key).append ?_)
    exact (h (key, x) List.mem_cons_self).append
      (ih fun f hf => h f (List.mem_cons_of_mem _ hf))

/-- **The text of a value is closed.** -/
theorem closed_render (hn : Unambiguous number) (v : Json N) : Closed (render number v) := by
  induction v using memberInduction with
  | null =>
    rw [render]
    exact keeps_of_all (by decide)
  | bool b => cases b <;> (rw [render]; exact keeps_of_all (by decide))
  | num n => exact closed_of_isNumberByte (hn.bytes n)
  | str s => exact closed_quote s
  | arr xs ih =>
    cases xs with
    | nil =>
      rw [render]
      exact keeps_of_all (by decide)
    | cons x xs =>
      rw [render]
      refine (closed_byte (b := ascii '[') (by decide)).append ?_
      exact (ih x List.mem_cons_self).append
        (closed_renderElems fun y hy => ih y (List.mem_cons_of_mem x hy))
  | obj fields ih =>
    cases fields with
    | nil =>
      rw [render]
      exact keeps_of_all (by decide)
    | cons f fields =>
      obtain ⟨key, x⟩ := f
      rw [render, List.append_cons (quote key)]
      refine (closed_byte (b := ascii '{') (by decide)).append ((closed_key key).append ?_)
      exact (ih (key, x) List.mem_cons_self).append
        (closed_renderFields fun f hf => ih f (List.mem_cons_of_mem _ hf))

/-- **No value's text goes on, after a byte and a colon, with the text of a value to its end**,
unless that byte is a quote or a backslash: inside quotes, the second value would not close them,
and outside, the colon would be stray. -/
theorem render_ne_append (hn : Unambiguous number) (v w : Json N) (front : List UInt8) {b : UInt8}
    (hb : Ordinary b) : render number v ≠ front ++ b :: ascii ':' :: render number w := by
  intro h
  obtain ⟨-, hin, hstray⟩ := closed_render hn v {} rfl
  rw [h, scan_append, scan_cons, scan_cons] at hin hstray
  generalize scan {} front = s at hin hstray
  have hesc : (s.next b).escaped = false := by
    unfold Scan.next
    split
    · rfl
    · rename_i hs
      rw [if_neg hb.1, if_neg hb.2]
      exact Bool.not_eq_true _ ▸ hs
  have hlast : (s.next b).last = b := by
    unfold Scan.next
    split_ifs <;> rfl
  have hcolon : Ordinary (ascii ':') := by decide
  have hnext := Scan.next_ordinary hesc hcolon
  obtain ⟨-, hin', hstray'⟩ := closed_render hn w ((s.next b).next (ascii ':'))
    (by rw [hnext]; exact hesc)
  rw [hin'] at hin
  rw [hstray' hin] at hstray
  rw [hnext] at hin hstray
  simpa [show (s.next b).inText = false from hin, hlast, hb.2] using hstray rfl

end Llamenos.Lib.Json
