import Mathlib.Data.List.Basic

/-!
# Texts: bytes, decimal and hexadecimal

A text is a sequence of characters; programs see it as UTF-8 bytes (`asBytes`) or as UTF-16 code
units (`charCodes`). Hexadecimal is written in lower case (`hexEncode`) and read in either case:
`hexPairs` reads a sequence of character codes, and tells the code and the position of the first
one that is no digit.

Results:
* `asBytes_injective`, `charCodes_injective`; `asBytes_ofList`, `charCodes_ofList`: on ASCII, both
  views are the characters, and only there are all bytes or all code units below 128
  (`ascii_of_asBytes`, `ascii_of_charCodes`); `ascii_mem_asBytes`: an ASCII character is found by
  its byte.
* `intercalate_eq_iff`: texts joined with a separator are equal exactly when they split into the
  same pieces.
* `append_cons_inj_of_notMem_right`: the last separator splits a text.
* `decimal_inj`, `intChars_inj`, `intBytes_inj`: decimal numbers are told apart by their digits,
  with zeros before them too (`zeros_decimal_inj`).
* `hexPairs_hexChars`: what was written is read back.
* `hexPairs_charCodes_iff`: digits are read alike through either view of the text.
-/

namespace Llamenos.Lib

/-! ## Views of a text -/

/-- The UTF-8 bytes of a text. -/
def asBytes (s : String) : List UInt8 := s.toUTF8.data.toList

/-- The UTF-16 code units of a text. -/
def charCodes (s : String) : List Nat := s.toList.flatMap fun c =>
  if c.toNat < 0x10000 then [c.toNat]
  else [0xD800 + (c.toNat - 0x10000) / 0x400, 0xDC00 + (c.toNat - 0x10000) % 0x400]

theorem asBytes_injective : Function.Injective asBytes := by
  intro s t h
  have hdata : s.toUTF8.data = t.toUTF8.data := Array.toList_inj.mp h
  exact String.toByteArray_inj.mp (ByteArray.ext hdata)

/-- A character is read back off its code units, whatever follows. -/
theorem codeUnits_append_inj {c d : Char} {t u : List Nat}
    (h : (if c.toNat < 0x10000 then [c.toNat]
        else [0xD800 + (c.toNat - 0x10000) / 0x400, 0xDC00 + (c.toNat - 0x10000) % 0x400]) ++ t =
      (if d.toNat < 0x10000 then [d.toNat]
        else [0xD800 + (d.toNat - 0x10000) / 0x400, 0xDC00 + (d.toNat - 0x10000) % 0x400]) ++ u) :
    c = d ∧ t = u := by
  have hc : c.toNat < 0xD800 ∨ 0xDFFF < c.toNat ∧ c.toNat < 0x110000 := c.valid
  have hd : d.toNat < 0xD800 ∨ 0xDFFF < d.toNat ∧ d.toNat < 0x110000 := d.valid
  split_ifs at h <;> simp only [List.cons_append, List.nil_append, List.cons.injEq] at h
  · exact ⟨Char.toNat_inj.mp h.1, h.2⟩
  · omega
  · omega
  · obtain ⟨hhigh, hlow, htu⟩ := h
    refine ⟨Char.toNat_inj.mp ?_, htu⟩
    omega

theorem charCodes_injective : Function.Injective charCodes := by
  intro s t h
  apply String.toList_injective
  unfold charCodes at h
  generalize s.toList = cs at h ⊢
  generalize t.toList = ds at h ⊢
  induction cs generalizing ds with
  | nil =>
    cases ds with
    | nil => rfl
    | cons d ds =>
      rw [List.flatMap_nil, List.flatMap_cons] at h
      split_ifs at h <;> cases h
  | cons c cs ih =>
    cases ds with
    | nil =>
      rw [List.flatMap_nil, List.flatMap_cons] at h
      split_ifs at h <;> cases h
    | cons d ds =>
      rw [List.flatMap_cons, List.flatMap_cons] at h
      obtain ⟨rfl, hrest⟩ := codeUnits_append_inj h
      rw [ih ds hrest]

theorem asBytes_eq_flatMap (s : String) : asBytes s = s.toList.flatMap String.utf8EncodeChar := by
  have h : s.toByteArray = s.toList.utf8Encode := by
    rw [← String.toByteArray_ofList, String.ofList_toList]
  show s.toByteArray.data.toList = _
  rw [h, List.utf8Encode]
  simp

theorem asBytes_append (s t : String) : asBytes (s ++ t) = asBytes s ++ asBytes t := by
  rw [asBytes_eq_flatMap, String.toList_append, List.flatMap_append, ← asBytes_eq_flatMap,
    ← asBytes_eq_flatMap]

/-- The byte of an ASCII character. -/
def ascii (c : Char) : UInt8 := UInt8.ofNat c.toNat
variable {c : Char}

theorem toNat_ascii (h : c.toNat < 128) : (ascii c).toNat = c.toNat :=
  UInt8.toNat_ofNat_of_lt (Nat.lt_trans h (by decide))

theorem utf8EncodeChar_ascii (h : c.toNat < 128) :
    String.utf8EncodeChar c = [ascii c] :=
  String.utf8EncodeChar_eq_singleton (Char.utf8Size_eq_one_iff.mpr
    (UInt32.le_iff_toNat_le.mpr (Nat.lt_succ_iff.mp h)))

/-- A text of ASCII characters is the bytes of its characters. -/
theorem asBytes_ofList {cs : List Char} (h : ∀ c ∈ cs, c.toNat < 128) :
    asBytes (String.ofList cs) = cs.map ascii := by
  rw [asBytes_eq_flatMap, String.toList_ofList]
  induction cs with
  | nil => rfl
  | cons c cs ih =>
    rw [List.flatMap_cons, ih fun d hd => h d (List.mem_cons_of_mem c hd),
      utf8EncodeChar_ascii (h c List.mem_cons_self), List.map_cons, List.singleton_append]

theorem charCodes_ofList {cs : List Char} (h : ∀ c ∈ cs, c.toNat < 128) :
    charCodes (String.ofList cs) = cs.map Char.toNat := by
  unfold charCodes
  rw [String.toList_ofList]
  induction cs with
  | nil => rfl
  | cons c cs ih =>
    have hc : c.toNat < 0x10000 := Nat.lt_trans (h c List.mem_cons_self) (by decide)
    rw [List.flatMap_cons, if_pos hc, ih fun d hd => h d (List.mem_cons_of_mem c hd),
      List.map_cons, List.singleton_append]

/-- A character above ASCII is written in bytes above it. -/
theorem byte_ge_of_mem (h : 128 ≤ c.toNat) :
    ∀ b ∈ String.utf8EncodeChar c, 128 ≤ b.toNat := by
  have hv : c.val.toNat = c.toNat := rfl
  have hmod : ∀ lead m n : Nat, 128 ≤ lead → lead + m ≤ 256 → 0 < m →
      128 ≤ (UInt8.ofNat (n % m + lead)).toNat := by
    intro lead m n hlead hsum hm
    have := Nat.mod_lt n hm
    rw [UInt8.toNat_ofNat_of_lt' (show _ < 256 by omega)]
    omega
  unfold String.utf8EncodeChar
  simp only [hv]
  split
  · omega
  split
  · simp only [List.forall_mem_cons, List.not_mem_nil, false_implies, implies_true, and_true]
    exact ⟨hmod 192 32 _ (by omega) (by omega) (by omega),
      hmod 128 64 _ (by omega) (by omega) (by omega)⟩
  split
  · simp only [List.forall_mem_cons, List.not_mem_nil, false_implies, implies_true, and_true]
    exact ⟨hmod 224 16 _ (by omega) (by omega) (by omega),
      hmod 128 64 _ (by omega) (by omega) (by omega),
      hmod 128 64 _ (by omega) (by omega) (by omega)⟩
  · simp only [List.forall_mem_cons, List.not_mem_nil, false_implies, implies_true, and_true]
    exact ⟨hmod 240 8 _ (by omega) (by omega) (by omega),
      hmod 128 64 _ (by omega) (by omega) (by omega),
      hmod 128 64 _ (by omega) (by omega) (by omega),
      hmod 128 64 _ (by omega) (by omega) (by omega)⟩

theorem exists_byte_ge (h : 128 ≤ c.toNat) :
    ∃ b ∈ String.utf8EncodeChar c, 128 ≤ b.toNat := by
  obtain ⟨b, hb⟩ := List.exists_mem_of_ne_nil _ (String.utf8EncodeChar_ne_nil (c := c))
  exact ⟨b, hb, byte_ge_of_mem h b hb⟩

variable {s : String}

/-- **An ASCII character is in a text exactly if its byte is.** -/
theorem ascii_mem_asBytes (hc : c.toNat < 128) :
    ascii c ∈ asBytes s ↔ c ∈ s.toList := by
  rw [asBytes_eq_flatMap, List.mem_flatMap]
  constructor
  · rintro ⟨d, hd, hmem⟩
    rcases Nat.lt_or_ge d.toNat 128 with hlt | hge
    · rw [utf8EncodeChar_ascii hlt] at hmem
      have hnat := congrArg UInt8.toNat (List.mem_singleton.mp hmem)
      rw [toNat_ascii hc, toNat_ascii hlt] at hnat
      exact Char.toNat_inj.mp hnat ▸ hd
    · have hbyte := byte_ge_of_mem hge _ hmem
      rw [toNat_ascii hc] at hbyte
      omega
  · intro hmem
    exact ⟨c, hmem, utf8EncodeChar_ascii hc ▸ List.mem_singleton_self _⟩

theorem ascii_of_asBytes (h : ∀ b ∈ asBytes s, b.toNat < 128) :
    ∀ c ∈ s.toList, c.toNat < 128 := by
  intro c hc
  by_contra hge
  obtain ⟨b, hb, hb'⟩ := exists_byte_ge (Nat.not_lt.mp hge)
  have := h b (asBytes_eq_flatMap s ▸ List.mem_flatMap.mpr ⟨c, hc, hb⟩)
  omega

theorem ascii_of_charCodes (h : ∀ n ∈ charCodes s, n < 128) :
    ∀ c ∈ s.toList, c.toNat < 128 := by
  intro c hc
  by_cases hlt : c.toNat < 0x10000
  · refine h c.toNat (List.mem_flatMap.mpr ⟨c, hc, ?_⟩)
    rw [if_pos hlt]
    exact List.mem_singleton_self _
  · have := h (0xD800 + (c.toNat - 0x10000) / 0x400) (List.mem_flatMap.mpr ⟨c, hc, by
      rw [if_neg hlt]
      exact List.mem_cons_self⟩)
    omega

theorem charCodes_eq_of_ascii (h : ∀ c ∈ s.toList, c.toNat < 128) :
    charCodes s = (asBytes s).map UInt8.toNat := by
  rw [← String.ofList_toList (s := s)] at h ⊢
  rw [String.toList_ofList] at h
  rw [charCodes_ofList h, asBytes_ofList h, List.map_map]
  exact List.map_congr_left fun c hc => (toNat_ascii (h c hc)).symm

/-! ## Joining with a separator -/

section Joining

variable {α : Type} [BEq α] [LawfulBEq α]

/-- Splitting a joined text splits each of the texts. -/
theorem splitOn_intercalate_eq_flatMap (sep : α) {xs : List α} {xss : List (List α)} :
    ([sep].intercalate (xs :: xss)).splitOn sep = (xs :: xss).flatMap (·.splitOn sep) := by
  induction xss generalizing xs with
  | nil => simp
  | cons ys xss ih =>
    rw [List.intercalate_cons_cons, List.append_assoc, List.singleton_append,
      List.splitOn_append_cons_self, ih, ← List.flatMap_cons]

/-- **Two joined texts are equal exactly when their texts split into the same pieces.** -/
theorem intercalate_eq_iff {sep : α} {xs ys : List α} {xss yss : List (List α)} :
    [sep].intercalate (xs :: xss) = [sep].intercalate (ys :: yss) ↔
      (xs :: xss).flatMap (·.splitOn sep) = (ys :: yss).flatMap (·.splitOn sep) := by
  rw [← splitOn_intercalate_eq_flatMap, ← splitOn_intercalate_eq_flatMap]
  constructor
  · intro h
    rw [h]
  · intro h
    have hjoin : ∀ l : List α, [sep].intercalate (l.splitOn sep) = l :=
      fun l => List.intercalate_splitOn sep
    rw [← hjoin ([sep].intercalate (xs :: xss)), h, hjoin]

/-- The pieces tell the text. -/
theorem splitOn_injective (sep : α) : Function.Injective fun l : List α => l.splitOn sep := by
  intro l l' h
  have hjoin := congrArg ([sep].intercalate ·) h
  simpa only [List.intercalate_splitOn] using hjoin

/-- A text in one piece is that piece. -/
theorem splitOn_of_length_le {sep : α} {l : List α} (h : (l.splitOn sep).length ≤ 1) :
    l.splitOn sep = [l] := by
  match hsplit : l.splitOn sep with
  | [] => exact absurd hsplit (List.splitOn_ne_nil _ _)
  | [piece] =>
    have hjoin : [sep].intercalate (l.splitOn sep) = l := List.intercalate_splitOn sep
    rw [hsplit, List.intercalate_singleton] at hjoin
    rw [hjoin]
  | _ :: _ :: _ =>
    rw [hsplit] at h
    simp at h

omit [BEq α] [LawfulBEq α] in
/-- Two joined texts, joined. -/
theorem intercalate_append {sep : α} {xss yss : List (List α)} (hx : xss ≠ []) (hy : yss ≠ []) :
    [sep].intercalate (xss ++ yss) =
      [sep].intercalate xss ++ sep :: [sep].intercalate yss := by
  induction xss with
  | nil => exact absurd rfl hx
  | cons xs xss ih =>
    cases xss with
    | nil =>
      rw [List.singleton_append, List.intercalate_cons_of_ne_nil hy, List.intercalate_singleton,
        List.append_assoc, List.singleton_append]
    | cons zs xss =>
      rw [List.cons_append, List.cons_append, List.intercalate_cons_cons, ← List.cons_append,
        ih (List.cons_ne_nil _ _), List.intercalate_cons_cons]
      simp only [List.append_assoc]

end Joining

/-- **The last separator splits a text.** -/
theorem append_cons_inj_of_notMem_right {α : Type} {sep : α} {xs xs' ys ys' : List α}
    (hys : sep ∉ ys) (hys' : sep ∉ ys') :
    xs ++ sep :: ys = xs' ++ sep :: ys' ↔ xs = xs' ∧ ys = ys' := by
  refine ⟨fun h => ?_, fun ⟨hx, hy⟩ => by rw [hx, hy]⟩
  rcases List.append_eq_append_iff.mp h with ⟨mid, hmid, hrest⟩ | ⟨mid, hmid, hrest⟩
  · cases mid with
    | nil => simpa [hmid, eq_comm] using hrest
    | cons a mid =>
      have hmem : sep ∈ ys := (List.cons.inj hrest).2 ▸ by simp
      exact absurd hmem hys
  · cases mid with
    | nil => simpa [hmid, eq_comm] using hrest
    | cons a mid =>
      have hmem : sep ∈ ys' := (List.cons.inj hrest).2 ▸ by simp
      exact absurd hmem hys'

/-- **The first separator splits a text.** -/
theorem append_cons_inj_of_notMem_left {α : Type} {sep : α} {xs xs' ys ys' : List α}
    (hxs : sep ∉ xs) (hxs' : sep ∉ xs') :
    xs ++ sep :: ys = xs' ++ sep :: ys' ↔ xs = xs' ∧ ys = ys' := by
  have h : ys.reverse ++ sep :: xs.reverse = ys'.reverse ++ sep :: xs'.reverse ↔
      ys.reverse = ys'.reverse ∧ xs.reverse = xs'.reverse := append_cons_inj_of_notMem_right
    (fun hmem => hxs (List.mem_reverse.mp hmem)) fun hmem => hxs' (List.mem_reverse.mp hmem)
  rw [List.reverse_inj, List.reverse_inj] at h
  rw [← List.reverse_inj, and_comm, ← h]
  simp only [List.reverse_append, List.reverse_cons, List.append_assoc, List.singleton_append]

/-! ## Decimal -/

/-- The decimal digits of a number. -/
def decimal (n : Nat) : List Char := Nat.toDigits 10 n

/-- The decimal digits of an integer, with a sign if it is negative. -/
def intChars : Int → List Char
  | .ofNat n => decimal n
  | .negSucc n => '-' :: decimal (n + 1)

theorem toList_toString (n : Nat) : (toString n).toList = decimal n := Nat.toList_repr

theorem decimal_inj {m n : Nat} : decimal m = decimal n ↔ m = n := by
  refine ⟨fun h => ?_, fun h => by rw [h]⟩
  rw [← Nat.ofDigitChars_ten_toDigits (n := m), ← Nat.ofDigitChars_ten_toDigits (n := n)]
  exact congrArg (Nat.ofDigitChars 10 · 0) h

theorem isDigit_of_mem_decimal {n : Nat} (h : c ∈ decimal n) : c.isDigit :=
  Nat.isDigit_of_mem_toDigits (by decide) (by decide) h

theorem hyphen_notMem_decimal (n : Nat) : '-' ∉ decimal n := fun h => by
  have hd : ('-' : Char).isDigit := isDigit_of_mem_decimal h
  exact absurd hd (by decide)

/-- Zeros before the digits do not change the number. -/
theorem zeros_decimal_inj {a b m n : Nat}
    (h : List.replicate a '0' ++ decimal m = List.replicate b '0' ++ decimal n) : m = n := by
  have hvalue : ∀ c k : Nat, Nat.ofDigitChars 10 (List.replicate c '0' ++ decimal k) 0 = k := by
    intro c k
    rw [Nat.ofDigitChars_append, Nat.ofDigitChars_replicate_zero, Nat.mul_zero]
    exact Nat.ofDigitChars_ten_toDigits
  rw [← hvalue a m, h, hvalue]

theorem decimal_ne_nil (n : Nat) : decimal n ≠ [] := Nat.toDigits_ne_nil

theorem intChars_inj {i j : Int} : intChars i = intChars j ↔ i = j := by
  refine ⟨fun h => ?_, fun h => by rw [h]⟩
  have hsign : ∀ m n, decimal m ≠ '-' :: decimal n := fun m n h =>
    hyphen_notMem_decimal m (h ▸ List.mem_cons_self)
  cases i with
  | ofNat m =>
    cases j with
    | ofNat n => rw [decimal_inj.mp h]
    | negSucc n => exact absurd h (hsign m (n + 1))
  | negSucc m =>
    cases j with
    | ofNat n => exact absurd h.symm (hsign n (m + 1))
    | negSucc n => rw [Nat.succ.inj (decimal_inj.mp (List.cons.inj h).2)]

theorem mem_intChars {i : Int} (h : c ∈ intChars i) : c.isDigit ∨ c = '-' := by
  cases i with
  | ofNat n => exact .inl (isDigit_of_mem_decimal h)
  | negSucc n =>
    rcases List.mem_cons.mp h with rfl | h
    · exact .inr rfl
    · exact .inl (isDigit_of_mem_decimal h)

theorem isDigit_iff_toNat : c.isDigit ↔ 48 ≤ c.toNat ∧ c.toNat ≤ 57 := by
  unfold Char.isDigit
  rw [Bool.and_eq_true, decide_eq_true_eq, decide_eq_true_eq, ge_iff_le,
    UInt32.le_iff_toNat_le, UInt32.le_iff_toNat_le]
  rfl

theorem toNat_intChars_lt (i : Int) : ∀ c ∈ intChars i, c.toNat < 128 := by
  intro c hc
  rcases mem_intChars hc with hd | rfl
  · have := (isDigit_iff_toNat.mp hd).2
    omega
  · decide

/-- The bytes of an integer's digits tell it. -/
theorem intBytes_inj {i j : Int} : (intChars i).map ascii = (intChars j).map ascii ↔ i = j := by
  refine ⟨fun h => ?_, fun h => by rw [h]⟩
  rw [← asBytes_ofList (toNat_intChars_lt i), ← asBytes_ofList (toNat_intChars_lt j)] at h
  exact intChars_inj.mp (String.ofList_injective (asBytes_injective h))

/-! ## Hexadecimal -/

/-- The digit of a number below 16. -/
def hexDigit (n : Nat) : Char := if n < 10 then Char.ofNat (48 + n) else Char.ofNat (87 + n)

/-- The value of a character code, `0`-`9`, `a`-`f` or `A`-`F`. -/
def hexVal (c : Nat) : Option Nat :=
  if 48 ≤ c ∧ c ≤ 57 then some (c - 48)
  else if 97 ≤ c ∧ c ≤ 102 then some (c - 87)
  else if 65 ≤ c ∧ c ≤ 70 then some (c - 55)
  else none

/-- The digits of a byte string, high half first. -/
def hexChars (bytes : List UInt8) : List Char :=
  bytes.flatMap fun b => [hexDigit (b.toNat / 16), hexDigit (b.toNat % 16)]

def hexEncode (bytes : List UInt8) : String := String.ofList (hexChars bytes)

/-- Two codes to a byte. The error is the first code that is no digit, with its position; a last
code without a partner is left out. -/
def hexPairs : List Nat → Nat → Except (Nat × Nat) (List UInt8)
  | hi :: lo :: codes, i =>
    match hexVal hi with
    | none => .error (hi, i)
    | some h =>
      match hexVal lo with
      | none => .error (lo, i + 1)
      | some l =>
        match hexPairs codes (i + 2) with
        | .error e => .error e
        | .ok bytes => .ok (UInt8.ofNat (h * 16 + l) :: bytes)
  | _, _ => .ok []

theorem hexDigit_spec :
    ∀ n < 16, (hexDigit n).toNat < 128 ∧ hexVal (hexDigit n).toNat = some n := by
  decide

theorem toNat_hexChars_lt (bytes : List UInt8) : ∀ c ∈ hexChars bytes, c.toNat < 128 := by
  intro c hc
  obtain ⟨b, -, hb⟩ := List.mem_flatMap.mp hc
  have hlt := b.toNat_lt
  rcases List.mem_cons.mp hb with rfl | hb
  · exact (hexDigit_spec _ (by omega)).1
  · rw [List.mem_singleton.mp hb]
    exact (hexDigit_spec _ (by omega)).1

@[simp] theorem length_hexChars (bytes : List UInt8) :
    (hexChars bytes).length = 2 * bytes.length := by
  induction bytes with
  | nil => rfl
  | cons b bytes ih =>
    rw [hexChars, List.flatMap_cons, List.length_append, ← hexChars, ih, List.length_cons,
      List.length_cons, List.length_cons, List.length_nil]
    omega

/-- **Reading undoes writing.** -/
theorem hexPairs_hexChars (bytes : List UInt8) (i : Nat) :
    hexPairs ((hexChars bytes).map Char.toNat) i = .ok bytes := by
  induction bytes generalizing i with
  | nil => rfl
  | cons b bytes ih =>
    have hlt := b.toNat_lt
    have hhi := (hexDigit_spec (b.toNat / 16) (by omega)).2
    have hlo := (hexDigit_spec (b.toNat % 16) (by omega)).2
    have hb : UInt8.ofNat (b.toNat / 16 * 16 + b.toNat % 16) = b := by
      rw [Nat.div_add_mod', UInt8.ofNat_toNat]
    have hcons : (hexChars (b :: bytes)).map Char.toNat = (hexDigit (b.toNat / 16)).toNat ::
        (hexDigit (b.toNat % 16)).toNat :: (hexChars bytes).map Char.toNat := rfl
    rw [hcons, hexPairs, hhi, hlo]
    simp only [ih, hb]

theorem hexEncode_injective : Function.Injective hexEncode := by
  intro bytes bytes' h
  have hread := hexPairs_hexChars bytes 0
  rw [String.ofList_injective h, hexPairs_hexChars] at hread
  exact (Except.ok.inj hread).symm

/-- The codes of a text through its UTF-8 bytes. -/
theorem hexCodes_asBytes (bytes : List UInt8) :
    (asBytes (hexEncode bytes)).map UInt8.toNat = (hexChars bytes).map Char.toNat := by
  have hlt := toNat_hexChars_lt bytes
  rw [hexEncode, asBytes_ofList hlt, List.map_map]
  exact List.map_congr_left fun c hc => toNat_ascii (hlt c hc)

@[simp] theorem length_asBytes_hexEncode (bytes : List UInt8) :
    (asBytes (hexEncode bytes)).length = 2 * bytes.length := by
  have h := congrArg List.length (hexCodes_asBytes bytes)
  simpa using h

theorem hexVal_lt {c n : Nat} (h : hexVal c = some n) : c < 128 := by
  unfold hexVal at h
  split_ifs at h <;> omega

/-- What was read in pairs was all digits. -/
theorem lt_of_hexPairs_ok {codes : List Nat} {i : Nat} {bytes : List UInt8}
    (heven : codes.length % 2 = 0) (h : hexPairs codes i = .ok bytes) : ∀ c ∈ codes, c < 128 := by
  fun_induction hexPairs codes i generalizing bytes with
  | case1 | case2 | case3 => cases h
  | case4 hi lo codes i a hhi b hlo rest hrest ih =>
    intro c hc
    rcases List.mem_cons.mp hc with rfl | hc
    · exact hexVal_lt hhi
    rcases List.mem_cons.mp hc with rfl | hc
    · exact hexVal_lt hlo
    · exact ih (by simp at heven; omega) hrest c hc
  | case5 codes i hshort =>
    cases codes with
    | nil => simp
    | cons c codes =>
      cases codes with
      | nil => simp at heven
      | cons d codes => exact absurd rfl (hshort c d codes)

/-- **Digits in pairs are read alike through either view of the text.** -/
theorem hexPairs_charCodes_iff {bytes : List UInt8} :
    (charCodes s).length % 2 = 0 ∧ hexPairs (charCodes s) 0 = .ok bytes ↔
      (asBytes s).length % 2 = 0 ∧ hexPairs ((asBytes s).map UInt8.toNat) 0 = .ok bytes := by
  constructor
  · rintro ⟨heven, h⟩
    have hcodes := charCodes_eq_of_ascii (ascii_of_charCodes (lt_of_hexPairs_ok heven h))
    rw [hcodes] at heven h
    exact ⟨by simpa using heven, h⟩
  · rintro ⟨heven, h⟩
    have hlt := lt_of_hexPairs_ok (by simpa using heven) h
    have hcodes := charCodes_eq_of_ascii (ascii_of_asBytes fun b hb =>
      hlt b.toNat (List.mem_map_of_mem hb))
    rw [hcodes]
    exact ⟨by simpa using heven, h⟩

end Llamenos.Lib
