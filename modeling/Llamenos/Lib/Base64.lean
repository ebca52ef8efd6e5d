import Llamenos.Lib.Text

/-!
# Base64 for URLs, without padding

Three bytes are four symbols of six bits; a last group of two bytes is three symbols, of one byte
two, and the bits that no byte uses are zero. The decoder takes nothing else.

Results:
* `decodeBytes_symbols`, `decode_encode`: reading undoes writing.
-/

namespace Llamenos.Lib.Base64

/-- The symbol of a number below 64. -/
def symbol (n : Nat) : Char :=
  if n < 26 then Char.ofNat (65 + n)
  else if n < 52 then Char.ofNat (71 + n)
  else if n < 62 then Char.ofNat (n - 4)
  else if n = 62 then '-'
  else '_'

/-- The number of a byte that is a symbol. -/
def value (c : Nat) : Option Nat :=
  if 65 ≤ c ∧ c ≤ 90 then some (c - 65)
  else if 97 ≤ c ∧ c ≤ 122 then some (c - 71)
  else if 48 ≤ c ∧ c ≤ 57 then some (c + 4)
  else if c = 45 then some 62
  else if c = 95 then some 63
  else none

/-- The symbols of a byte string. -/
def symbols : List UInt8 → List Char
  | a :: b :: c :: bytes =>
    symbol (a.toNat / 4) :: symbol (a.toNat % 4 * 16 + b.toNat / 16) ::
      symbol (b.toNat % 16 * 4 + c.toNat / 64) :: symbol (c.toNat % 64) :: symbols bytes
  | [a, b] =>
    [symbol (a.toNat / 4), symbol (a.toNat % 4 * 16 + b.toNat / 16), symbol (b.toNat % 16 * 4)]
  | [a] => [symbol (a.toNat / 4), symbol (a.toNat % 4 * 16)]
  | [] => []

def encode (bytes : List UInt8) : String := String.ofList (symbols bytes)

/-- Why a text is refused. -/
inductive DecodeError where
  | invalidByte (offset byte : Nat)
  | invalidLength (length : Nat)
  | invalidLastSymbol (offset byte : Nat)

def DecodeError.display : DecodeError → String
  | .invalidByte offset byte => s!"Invalid symbol {byte}, offset {offset}."
  | .invalidLength length => s!"Invalid input length: {length}"
  | .invalidLastSymbol offset byte => s!"Invalid last symbol {byte}, offset {offset}."

/-- The number of the symbol at an offset. -/
def sextet (offset byte : Nat) : Except DecodeError Nat :=
  match value byte with
  | some n => .ok n
  | none => .error (.invalidByte offset byte)

/-- The bytes of the symbols from an offset on. -/
def decodeBytes : Nat → List Nat → Except DecodeError (List UInt8)
  | i, a :: b :: c :: d :: rest => do
    let w ← sextet i a
    let x ← sextet (i + 1) b
    let y ← sextet (i + 2) c
    let z ← sextet (i + 3) d
    let bytes ← decodeBytes (i + 4) rest
    pure (UInt8.ofNat (w * 4 + x / 16) :: UInt8.ofNat (x % 16 * 16 + y / 4) ::
      UInt8.ofNat (y % 4 * 64 + z) :: bytes)
  | i, [a, b, c] => do
    let w ← sextet i a
    let x ← sextet (i + 1) b
    let y ← sextet (i + 2) c
    if y % 4 ≠ 0 then throw (.invalidLastSymbol (i + 2) c)
    else pure [UInt8.ofNat (w * 4 + x / 16), UInt8.ofNat (x % 16 * 16 + y / 4)]
  | i, [a, b] => do
    let w ← sextet i a
    let x ← sextet (i + 1) b
    if x % 16 ≠ 0 then throw (.invalidLastSymbol (i + 1) b)
    else pure [UInt8.ofNat (w * 4 + x / 16)]
  | i, [a] => do
    let _ ← sextet i a
    throw (.invalidLength (i + 1))
  | _, [] => pure []

def decode (text : String) : Except DecodeError (List UInt8) :=
  decodeBytes 0 ((asBytes text).map UInt8.toNat)

theorem ok_bind {α β : Type} (a : α) (f : α → Except DecodeError β) :
    (Except.ok a >>= f) = f a := rfl

theorem symbol_spec : ∀ n < 64, (symbol n).toNat < 128 ∧ value (symbol n).toNat = some n := by
  decide

/-- A written symbol is read back. -/
theorem sextet_symbol {n : Nat} (h : n < 64) (i : Nat) :
    sextet i (symbol n).toNat = .ok n := by
  rw [sextet, (symbol_spec n h).2]

theorem toNat_symbols_lt (bytes : List UInt8) : ∀ c ∈ symbols bytes, c.toNat < 128 := by
  induction bytes using symbols.induct with
  | case1 a b c bytes ih =>
    have ha := a.toNat_lt
    have hb := b.toNat_lt
    have hc := c.toNat_lt
    simp only [symbols, List.forall_mem_cons]
    exact ⟨(symbol_spec _ (by omega)).1, (symbol_spec _ (by omega)).1,
      (symbol_spec _ (by omega)).1, (symbol_spec _ (by omega)).1, ih⟩
  | case2 a b =>
    have ha := a.toNat_lt
    have hb := b.toNat_lt
    simp only [symbols, List.forall_mem_cons]
    exact ⟨(symbol_spec _ (by omega)).1, (symbol_spec _ (by omega)).1,
      (symbol_spec _ (by omega)).1, by simp⟩
  | case3 a =>
    have ha := a.toNat_lt
    simp only [symbols, List.forall_mem_cons]
    exact ⟨(symbol_spec _ (by omega)).1, (symbol_spec _ (by omega)).1, by simp⟩
  | case4 => simp [symbols]

/-- A byte put together again from a number that is its own. -/
theorem ofNat_eq {b : UInt8} {n : Nat} (h : n = b.toNat) : UInt8.ofNat n = b := by
  rw [h, UInt8.ofNat_toNat]

/-- **Reading undoes writing**, group by group. -/
theorem decodeBytes_symbols (bytes : List UInt8) (i : Nat) :
    decodeBytes i ((symbols bytes).map Char.toNat) = .ok bytes := by
  induction bytes using symbols.induct generalizing i with
  | case1 a b c bytes ih =>
    have ha := a.toNat_lt
    have hb := b.toNat_lt
    have hc := c.toNat_lt
    have h1 := sextet_symbol (n := a.toNat / 4) (by omega) i
    have h2 := sextet_symbol (n := a.toNat % 4 * 16 + b.toNat / 16) (by omega) (i + 1)
    have h3 := sextet_symbol (n := b.toNat % 16 * 4 + c.toNat / 64) (by omega) (i + 2)
    have h4 := sextet_symbol (n := c.toNat % 64) (by omega) (i + 3)
    simp only [symbols, List.map_cons, decodeBytes, h1, h2, h3, h4, ih]
    refine congrArg Except.ok ?_
    rw [ofNat_eq (b := a) (by omega), ofNat_eq (b := b) (by omega), ofNat_eq (b := c) (by omega)]
  | case2 a b =>
    have ha := a.toNat_lt
    have hb := b.toNat_lt
    have h1 := sextet_symbol (n := a.toNat / 4) (by omega) i
    have h2 := sextet_symbol (n := a.toNat % 4 * 16 + b.toNat / 16) (by omega) (i + 1)
    have h3 := sextet_symbol (n := b.toNat % 16 * 4) (by omega) (i + 2)
    have hlast : ¬ b.toNat % 16 * 4 % 4 ≠ 0 := by omega
    simp only [symbols, List.map_cons, List.map_nil, decodeBytes, h1, h2, h3, ok_bind,
      if_neg hlast]
    refine congrArg Except.ok ?_
    rw [ofNat_eq (b := a) (by omega), ofNat_eq (b := b) (by omega)]
  | case3 a =>
    have ha := a.toNat_lt
    have h1 := sextet_symbol (n := a.toNat / 4) (by omega) i
    have h2 := sextet_symbol (n := a.toNat % 4 * 16) (by omega) (i + 1)
    have hlast : ¬ a.toNat % 4 * 16 % 16 ≠ 0 := by omega
    simp only [symbols, List.map_cons, List.map_nil, decodeBytes, h1, h2, ok_bind,
      if_neg hlast]
    refine congrArg Except.ok ?_
    rw [ofNat_eq (b := a) (by omega)]
  | case4 => rfl

@[simp] theorem decode_encode (bytes : List UInt8) : decode (encode bytes) = .ok bytes := by
  have hlt := toNat_symbols_lt bytes
  have hcodes : (asBytes (encode bytes)).map UInt8.toNat = (symbols bytes).map Char.toNat := by
    rw [encode, asBytes_ofList hlt, List.map_map]
    exact List.map_congr_left fun c hc => toNat_ascii (hlt c hc)
  rw [decode, hcodes, decodeBytes_symbols]

end Llamenos.Lib.Base64
