import Llamenos.Lib.Text

/-!
# Decoding UTF-8 in pieces

A decoder as the Encoding standard has it: what is not UTF-8 becomes U+FFFD, and a byte order mark
at the start is left out. A text that comes in pieces, each decoded by itself, is damaged where
a piece ends inside a character or begins with a byte order mark.

Results:
* `decode_encode`: a text that is encoded and decoded.
* `damaged_of_pieces`: what the pieces of a text decode to.
* `Damaged.cases_eq`: a damaged text is the text, or has more replacement characters, or is shorter.
* `pieces_iff`: **pieces decode to the text exactly if each is whole**.
* `units_length_eq_iff`: a text has as many code units as bytes exactly if it is ASCII.
-/

namespace Llamenos.Lib.Utf8Stream

/-! ## The decoder -/

/-- A character of which some bytes have come: how many are missing, the least and the greatest that
the next one may be, and the bits of the others. -/
structure Partial where
  missing : Nat
  lower : Nat
  upper : Nat
  bits : Nat

def replacement : Char := Char.ofNat 0xFFFD

def byteOrderMark : Char := Char.ofNat 0xFEFF

/-- The first byte of a character. -/
def first (b : Nat) : List Char × Option Partial :=
  if b ≤ 0x7F then ([Char.ofNat b], none)
  else if 0xC2 ≤ b ∧ b ≤ 0xDF then ([], some ⟨1, 0x80, 0xBF, b % 32⟩)
  else if 0xE0 ≤ b ∧ b ≤ 0xEF then
    ([], some ⟨2, if b = 0xE0 then 0xA0 else 0x80, if b = 0xED then 0x9F else 0xBF, b % 16⟩)
  else if 0xF0 ≤ b ∧ b ≤ 0xF4 then
    ([], some ⟨3, if b = 0xF0 then 0x90 else 0x80, if b = 0xF4 then 0x8F else 0xBF, b % 8⟩)
  else ([replacement], none)

/-- One more byte. A byte that does not go on with the character begins another one. -/
def more (p : Partial) (b : Nat) : List Char × Option Partial :=
  if p.lower ≤ b ∧ b ≤ p.upper then
    if p.missing = 1 then ([Char.ofNat (p.bits * 64 + b % 64)], none)
    else ([], some ⟨p.missing - 1, 0x80, 0xBF, p.bits * 64 + b % 64⟩)
  else (replacement :: (first b).1, (first b).2)

def byte : Option Partial → UInt8 → List Char × Option Partial
  | none, b => first b.toNat
  | some p, b => more p b.toNat

/-- The characters of bytes, and what is incomplete after them. -/
def feed : Option Partial → List UInt8 → List Char × Option Partial
  | p, [] => ([], p)
  | p, b :: bs => ((byte p b).1 ++ (feed (byte p b).2 bs).1, (feed (byte p b).2 bs).2)

/-- The text of bytes, with a byte order mark that it begins with. -/
def decodeAll (bytes : List UInt8) : List Char :=
  (feed none bytes).1 ++ if (feed none bytes).2.isSome then [replacement] else []

def withoutMark : List Char → List Char
  | [] => []
  | c :: cs => if c = byteOrderMark then cs else c :: cs

/-- The text of bytes. -/
def decode (bytes : List UInt8) : List Char := withoutMark (decodeAll bytes)

/-- The bytes of a text. -/
def encode (text : List Char) : List UInt8 := text.flatMap String.utf8EncodeChar

/-- The UTF-16 code units of a text. -/
def units (text : List Char) : List Nat := charCodes (String.ofList text)

/-! ## Characters -/

theorem feed_append (p : Option Partial) (xs ys : List UInt8) :
    feed p (xs ++ ys) =
      ((feed p xs).1 ++ (feed (feed p xs).2 ys).1, (feed (feed p xs).2 ys).2) := by
  induction xs generalizing p with
  | nil => rfl
  | cons x xs ih => rw [List.cons_append, feed, ih, feed, List.append_assoc]

theorem first_two {b : Nat} (h : 0xC2 ≤ b ∧ b ≤ 0xDF) :
    first b = ([], some ⟨1, 0x80, 0xBF, b % 32⟩) := by
  rw [first, if_neg (by omega), if_pos h]

theorem first_three {b : Nat} (h : 0xE0 ≤ b ∧ b ≤ 0xEF) :
    first b = ([], some ⟨2, if b = 0xE0 then 0xA0 else 0x80, if b = 0xED then 0x9F else 0xBF,
      b % 16⟩) := by
  rw [first, if_neg (by omega), if_neg (by omega), if_pos h]

theorem first_four {b : Nat} (h : 0xF0 ≤ b ∧ b ≤ 0xF4) :
    first b = ([], some ⟨3, if b = 0xF0 then 0x90 else 0x80, if b = 0xF4 then 0x8F else 0xBF,
      b % 8⟩) := by
  rw [first, if_neg (by omega), if_neg (by omega), if_neg (by omega), if_pos h]

theorem more_on {p : Partial} {b : Nat} (h : p.lower ≤ b ∧ b ≤ p.upper) (hmissing : p.missing ≠ 1) :
    more p b = ([], some ⟨p.missing - 1, 0x80, 0xBF, p.bits * 64 + b % 64⟩) := by
  rw [more, if_pos h, if_neg hmissing]

theorem more_last {p : Partial} {b : Nat} (h : p.lower ≤ b ∧ b ≤ p.upper)
    (hmissing : p.missing = 1) :
    more p b = ([Char.ofNat (p.bits * 64 + b % 64)], none) := by
  rw [more, if_pos h, if_pos hmissing]

/-- How a character's bytes are read: the ones before the last show nothing, and leave the
character incomplete. -/
def Reads (c : Char) : Option Partial → List UInt8 → Prop
  | _, [] => False
  | p, [b] => byte p b = ([c], none)
  | p, b :: bs => ∃ q, byte p b = ([], some q) ∧ Reads c (some q) bs

theorem toNat_ofNat_byte {n : Nat} (h : n < 256) : (UInt8.ofNat n).toNat = n :=
  UInt8.toNat_ofNat_of_lt' h

/-- **A character's bytes are read as the character.** -/
theorem reads_encodeChar (c : Char) : Reads c none (String.utf8EncodeChar c) := by
  have hvalid : c.toNat < 0xD800 ∨ 0xDFFF < c.toNat ∧ c.toNat < 0x110000 := c.valid
  have hv : c.val.toNat = c.toNat := rfl
  have hc : Char.ofNat c.toNat = c := Char.ofNat_toNat c
  unfold String.utf8EncodeChar
  simp only [hv]
  generalize c.toNat = v at hvalid hc
  split_ifs with h1 h2 h3
  · change first _ = _
    rw [toNat_ofNat_byte (by omega), first, if_pos h1, hc]
  · have h0 := toNat_ofNat_byte (show v / 64 % 0x20 + 0xC0 < 256 by omega)
    have h1 := toNat_ofNat_byte (show v % 0x40 + 0x80 < 256 by omega)
    simp only [Reads, byte, h0, h1]
    refine ⟨_, first_two (by omega), (more_last ?_ rfl).trans ?_⟩
    · dsimp only
      omega
    · dsimp only
      rw [show (v / 64 % 0x20 + 0xC0) % 32 * 64 + (v % 0x40 + 0x80) % 64 = v by omega, hc]
  · have h0 := toNat_ofNat_byte (show v / 4096 % 0x10 + 0xE0 < 256 by omega)
    have h1 := toNat_ofNat_byte (show v / 64 % 0x40 + 0x80 < 256 by omega)
    have h2 := toNat_ofNat_byte (show v % 0x40 + 0x80 < 256 by omega)
    simp only [Reads, byte, h0, h1, h2]
    refine ⟨_, first_three (by omega), _, more_on ?_ (by simp), (more_last ?_ rfl).trans ?_⟩
    · dsimp only
      split_ifs <;> omega
    · dsimp only
      omega
    · dsimp only
      rw [show ((v / 4096 % 0x10 + 0xE0) % 16 * 64 + (v / 64 % 0x40 + 0x80) % 64) * 64 +
        (v % 0x40 + 0x80) % 64 = v by omega, hc]
  · have h0 := toNat_ofNat_byte (show v / 262144 % 0x08 + 0xF0 < 256 by omega)
    have h1 := toNat_ofNat_byte (show v / 4096 % 0x40 + 0x80 < 256 by omega)
    have h2 := toNat_ofNat_byte (show v / 64 % 0x40 + 0x80 < 256 by omega)
    have h3 := toNat_ofNat_byte (show v % 0x40 + 0x80 < 256 by omega)
    simp only [Reads, byte, h0, h1, h2, h3]
    refine ⟨_, first_four (by omega), _, more_on ?_ (by simp), _, more_on ?_ (by simp),
      (more_last ?_ rfl).trans ?_⟩
    · dsimp only
      split_ifs <;> omega
    · dsimp only
      omega
    · dsimp only
      omega
    · dsimp only
      rw [show (((v / 262144 % 0x08 + 0xF0) % 8 * 64 + (v / 4096 % 0x40 + 0x80) % 64) * 64 +
        (v / 64 % 0x40 + 0x80) % 64) * 64 + (v % 0x40 + 0x80) % 64 = v by omega, hc]

variable {bs : List UInt8} {c : Char}

/-- A character that is complete. -/
theorem Reads.feed {p : Option Partial} (h : Reads c p bs) :
    feed p bs = ([c], none) := by
  induction bs generalizing p with
  | nil => cases h
  | cons b bs ih =>
    cases bs with
    | nil =>
      have hb : byte p b = ([c], none) := h
      rw [Utf8Stream.feed, hb]
      rfl
    | cons b' bs =>
      obtain ⟨q, hb, hrest⟩ := h
      rw [Utf8Stream.feed, hb, ih hrest]
      rfl

/-- A character that is not. -/
theorem Reads.feed_start {p : Option Partial} {bs cs : List UInt8}
    (h : Reads c p (bs ++ cs)) (hbs : bs ≠ []) (hcs : cs ≠ []) :
    ∃ q, Utf8Stream.feed p bs = ([], some q) := by
  induction bs generalizing p with
  | nil => exact absurd rfl hbs
  | cons b bs ih =>
    have hne : bs ++ cs ≠ [] := List.append_ne_nil_of_right_ne_nil bs hcs
    obtain ⟨d, rest, hrest⟩ := List.exists_cons_of_ne_nil hne
    rw [List.cons_append, hrest] at h
    obtain ⟨q, hb, h⟩ := h
    rw [Utf8Stream.feed, hb]
    by_cases hnil : bs = []
    · rw [hnil]
      exact ⟨q, rfl⟩
    · rw [← hrest] at h
      obtain ⟨q', hq'⟩ := ih h hnil
      rw [hq']
      exact ⟨q', rfl⟩

/-- A character's bytes other than its first. -/
def Continuation (b : UInt8) : Prop := 0x80 ≤ b.toNat ∧ b.toNat ≤ 0xBF

theorem feed_continuation (h : ∀ b ∈ bs, Continuation b) :
    feed none bs = (List.replicate bs.length replacement, none) := by
  induction bs with
  | nil => rfl
  | cons b bs ih =>
    obtain ⟨⟨hlower, hupper⟩, hrest⟩ := List.forall_mem_cons.mp h
    have hb : byte none b = ([replacement], none) := by
      rw [byte, first, if_neg (by omega), if_neg (by omega), if_neg (by omega), if_neg (by omega)]
    rw [feed, hb, ih hrest]
    rfl

theorem continuation_of_encodeChar {b : UInt8}
    (h : String.utf8EncodeChar c = b :: bs) : ∀ d ∈ bs, Continuation d := by
  have hmod : ∀ n : Nat, Continuation (UInt8.ofNat (n % 0x40 + 0x80)) := by
    intro n
    unfold Continuation
    rw [toNat_ofNat_byte (by omega)]
    omega
  unfold String.utf8EncodeChar at h
  simp only at h
  split_ifs at h <;> obtain ⟨-, rfl⟩ := List.cons.inj h <;>
    simp only [List.forall_mem_cons, List.not_mem_nil, false_implies, implies_true, hmod, and_self]

theorem ge_of_encodeChar_cons_cons {b b' : UInt8}
    (h : String.utf8EncodeChar c = b :: b' :: bs) : 128 ≤ c.toNat := by
  by_contra hlt
  rw [utf8EncodeChar_ascii (by omega)] at h
  cases h

/-! ## Texts -/

@[simp] theorem encode_nil : encode [] = [] := rfl

@[simp] theorem encode_cons (c : Char) (cs : List Char) :
    encode (c :: cs) = String.utf8EncodeChar c ++ encode cs := rfl

@[simp] theorem encode_append (cs ds : List Char) : encode (cs ++ ds) = encode cs ++ encode ds :=
  List.flatMap_append

theorem encode_injective : Function.Injective encode := by
  intro cs ds h
  refine String.ofList_injective (asBytes_injective ?_)
  rw [asBytes_eq_flatMap, asBytes_eq_flatMap, String.toList_ofList, String.toList_ofList]
  exact h

@[simp] theorem units_nil : units [] = [] := rfl

theorem units_append (cs ds : List Char) : units (cs ++ ds) = units cs ++ units ds := by
  unfold units charCodes
  simp only [String.toList_ofList, List.flatMap_append]

theorem feed_encode (cs : List Char) : feed none (encode cs) = (cs, none) := by
  induction cs with
  | nil => rfl
  | cons c cs ih => rw [encode_cons, feed_append, (reads_encodeChar c).feed, ih]; rfl

/-- **A text that is encoded and decoded.** -/
theorem decode_encode (cs : List Char) : decode (encode cs) = withoutMark cs := by
  rw [decode, decodeAll, feed_encode, Option.isSome_none, if_neg Bool.false_ne_true,
    List.append_nil]

/-! ## Damage -/

/-- What a text may have become, in code units: some of its characters, none of them ASCII, have
been replaced by more replacement characters than they were, or were byte order marks and have been
left out. -/
inductive Damaged : List Nat → List Nat → Prop
  | nil : Damaged [] []
  | keep (u : Nat) {us vs : List Nat} : Damaged us vs → Damaged (u :: us) (u :: vs)
  | cut (c : List Nat) (k : Nat) {us vs : List Nat} : c ≠ [] → (∀ u ∈ c, 128 ≤ u) →
      c.count 0xFFFD < k → Damaged us vs → Damaged (c ++ us) (List.replicate k 0xFFFD ++ vs)
  | mark {us vs : List Nat} : Damaged us vs → Damaged (0xFEFF :: us) vs

variable {us vs : List Nat}

theorem Damaged.of_nil (h : Damaged [] vs) : vs = [] := by
  generalize hnil : ([] : List Nat) = xs at h
  cases h with
  | nil => rfl
  | keep | mark => cases hnil
  | cut c k hne => exact absurd (List.append_eq_nil_iff.mp hnil.symm).1 hne

/-- No ASCII character appears. -/
theorem Damaged.mem_of_mem {u : Nat} (hu : u < 128) (h : Damaged us vs) (hmem : u ∈ vs) :
    u ∈ us := by
  induction h with
  | nil => exact hmem
  | keep v _ ih =>
    rcases List.mem_cons.mp hmem with rfl | hmem
    · exact List.mem_cons_self
    · exact List.mem_cons_of_mem v (ih hmem)
  | cut c k _ _ _ _ ih =>
    rcases List.mem_append.mp hmem with hrep | hmem
    · have := List.eq_of_mem_replicate hrep
      omega
    · exact List.mem_append_right c (ih hmem)
  | mark _ ih => exact List.mem_cons_of_mem _ (ih hmem)

theorem Damaged.keep_append (ws : List Nat) (h : Damaged us vs) :
    Damaged (ws ++ us) (ws ++ vs) := by
  induction ws with
  | nil => exact h
  | cons w ws ih => exact .keep w ih

/-- **A damaged text is the text, or has more replacement characters, or is shorter.** -/
theorem Damaged.cases_eq (h : Damaged us vs) :
    vs = us ∨ us.count 0xFFFD < vs.count 0xFFFD ∨
      us.count 0xFFFD = vs.count 0xFFFD ∧ vs.length < us.length := by
  induction h with
  | nil => exact .inl rfl
  | keep u _ ih =>
    rw [List.count_cons, List.count_cons, List.length_cons, List.length_cons]
    rcases ih with rfl | hlt | ⟨heq, hlt⟩
    · exact .inl rfl
    · exact .inr (.inl (by omega))
    · exact .inr (.inr (by omega))
  | cut c k _ _ hk _ ih =>
    refine .inr (.inl ?_)
    rw [List.count_append, List.count_append, List.count_replicate_self]
    rcases ih with rfl | hlt | ⟨heq, -⟩ <;> omega
  | mark _ ih =>
    rw [List.count_cons, List.length_cons]
    rcases ih with rfl | hlt | ⟨heq, hlt⟩
    · exact .inr (.inr ⟨by simp, by omega⟩)
    · exact .inr (.inl (by simpa using hlt))
    · exact .inr (.inr ⟨by simpa using heq, by omega⟩)

/-- An ASCII character is kept. -/
theorem Damaged.cons_inv {u : Nat} (hu : u < 128) (h : Damaged (u :: us) vs) :
    ∃ ws, vs = u :: ws ∧ Damaged us ws := by
  generalize hxs : u :: us = xs at h
  cases h with
  | nil => cases hxs
  | keep v h =>
    obtain ⟨rfl, rfl⟩ := List.cons.inj hxs
    exact ⟨_, rfl, h⟩
  | cut c k hne hc hk h =>
    obtain ⟨v, c, rfl⟩ := List.exists_cons_of_ne_nil hne
    obtain ⟨rfl, -⟩ := List.cons.inj hxs
    have := hc u List.mem_cons_self
    omega
  | mark h =>
    obtain ⟨rfl, -⟩ := List.cons.inj hxs
    omega

/-- A damaged text ends where the text does, and comes apart at its ASCII characters. -/
theorem Damaged.split {u : Nat} (hu : u < 128) {xs ys : List Nat} (h : Damaged (xs ++ u :: ys) vs) :
    ∃ xs' ys', vs = xs' ++ u :: ys' ∧ Damaged xs xs' ∧ Damaged ys ys' := by
  generalize hall : xs ++ u :: ys = all at h
  induction h generalizing xs with
  | nil => simp at hall
  | @keep w us vs h ih =>
    rcases List.append_eq_cons_iff.mp hall with ⟨rfl, hcons⟩ | ⟨xs, rfl, hus⟩
    · obtain ⟨rfl, rfl⟩ := List.cons.inj hcons
      exact ⟨[], vs, rfl, .nil, h⟩
    · obtain ⟨xs', ys', rfl, hxs, hys⟩ := ih hus.symm
      exact ⟨w :: xs', ys', rfl, .keep w hxs, hys⟩
  | @cut c k us vs hne hc hk h ih =>
    rcases List.append_eq_append_iff.mp hall with ⟨c', hsplit, hcons⟩ | ⟨xs, rfl, hus⟩
    · cases c' with
      | nil =>
        rw [List.append_nil] at hsplit
        obtain ⟨xs', ys', rfl, hxs, hys⟩ := @ih [] hcons
        refine ⟨List.replicate k 0xFFFD ++ xs', ys', by rw [List.append_assoc], ?_, hys⟩
        have hcut := Damaged.cut c k hne hc hk hxs
        rwa [List.append_nil, hsplit] at hcut
      | cons w c' =>
        obtain ⟨rfl, -⟩ := List.cons.inj hcons
        have := hc u (hsplit ▸ List.mem_append_right _ List.mem_cons_self)
        omega
    · obtain ⟨xs', ys', rfl, hxs, hys⟩ := ih hus.symm
      exact ⟨List.replicate k 0xFFFD ++ xs', ys', by rw [List.append_assoc],
        .cut c k hne hc hk hxs, hys⟩
  | @mark us vs h ih =>
    rcases List.append_eq_cons_iff.mp hall with ⟨rfl, hcons⟩ | ⟨xs, rfl, hus⟩
    · obtain ⟨rfl, -⟩ := List.cons.inj hcons
      omega
    · obtain ⟨xs', ys', rfl, hxs, hys⟩ := ih hus.symm
      exact ⟨xs', ys', rfl, .mark hxs, hys⟩

/-- ASCII texts are kept. -/
theorem Damaged.append_inv {xs : List Nat} (hxs : ∀ u ∈ xs, u < 128) (h : Damaged (xs ++ us) vs) :
    ∃ ws, vs = xs ++ ws ∧ Damaged us ws := by
  induction xs generalizing vs with
  | nil => exact ⟨vs, rfl, h⟩
  | cons u xs ih =>
    obtain ⟨hu, hxs⟩ := List.forall_mem_cons.mp hxs
    obtain ⟨ws, rfl, hws⟩ := h.cons_inv hu
    obtain ⟨rest, rfl, hrest⟩ := ih hxs hws
    exact ⟨rest, rfl, hrest⟩

/-! ## Pieces -/

/-- A piece that neither begins nor ends inside a character, and does not begin with a byte order
mark. -/
def Whole (piece : List UInt8) : Prop :=
  ∃ cs, piece = encode cs ∧ cs.head? ≠ some byteOrderMark

/-- Where a text's bytes are split: between two characters, or inside one. -/
theorem encode_split {cs : List Char} {xs ys : List UInt8} (h : encode cs = xs ++ ys) :
    ∃ ds es ps, cs = ds ++ es ∧ xs = encode ds ++ ps ∧
      (ps = [] ∧ ys = encode es ∨
        ∃ c es' qs, es = c :: es' ∧ String.utf8EncodeChar c = ps ++ qs ∧ ps ≠ [] ∧ qs ≠ [] ∧
          ys = qs ++ encode es') := by
  induction cs generalizing xs with
  | nil =>
    obtain ⟨rfl, rfl⟩ := List.nil_eq_append_iff.mp h
    exact ⟨[], [], [], rfl, rfl, .inl ⟨rfl, rfl⟩⟩
  | cons c cs ih =>
    rw [encode_cons] at h
    rcases List.append_eq_append_iff.mp h with ⟨rest, rfl, hrest⟩ | ⟨rest, hc, rfl⟩
    · obtain ⟨ds, es, ps, rfl, rfl, hsplit⟩ := ih hrest
      exact ⟨c :: ds, es, ps, rfl, by rw [encode_cons, List.append_assoc], hsplit⟩
    · by_cases hxs : xs = []
      · subst hxs
        exact ⟨[], c :: cs, [], rfl, rfl, .inl ⟨rfl, by rw [encode_cons, hc, List.nil_append]⟩⟩
      · by_cases hrest : rest = []
        · subst hrest
          refine ⟨[c], cs, [], rfl, ?_, .inl ⟨rfl, rfl⟩⟩
          rw [encode_cons, hc]
          simp
        · exact ⟨[], c :: cs, xs, rfl, rfl, .inr ⟨c, cs, rest, rfl, hc, hxs, hrest, rfl⟩⟩

theorem decodeAll_piece {ss : List UInt8} (hss : ∀ b ∈ ss, Continuation b) (ds : List Char)
    {ps : List UInt8}
    (hps : ps = [] ∨ ∃ c qs, String.utf8EncodeChar c = ps ++ qs ∧ ps ≠ [] ∧ qs ≠ []) :
    decodeAll (ss ++ (encode ds ++ ps)) =
      List.replicate ss.length replacement ++ (ds ++ if ps = [] then [] else [replacement]) := by
  have hfeed : feed none (ss ++ (encode ds ++ ps)) =
      (List.replicate ss.length replacement ++ (ds ++ (feed none ps).1), (feed none ps).2) := by
    rw [feed_append, feed_continuation hss, feed_append, feed_encode]
  rw [decodeAll, hfeed]
  rcases hps with rfl | ⟨c, qs, hc, hps, hqs⟩
  · simp [feed]
  · obtain ⟨q, hq⟩ := (hc ▸ reads_encodeChar c).feed_start hps hqs
    rw [hq, if_neg hps]
    simp

theorem units_replicate (n : Nat) :
    units (List.replicate n replacement) = List.replicate n 0xFFFD := by
  induction n with
  | zero => rfl
  | succ n ih =>
    rw [List.replicate_succ, ← List.singleton_append, units_append, ih]
    rfl

/-- What leaving out a mark does to a text that begins with it. -/
theorem withoutMark_append (ds : List Char) {rest : List Char}
    (hrest : rest = [] ∨ rest = [replacement]) :
    (ds.head? ≠ some byteOrderMark ∧ withoutMark (ds ++ rest) = ds ++ rest) ∨
      ∃ ds', ds = byteOrderMark :: ds' ∧ withoutMark (ds ++ rest) = ds' ++ rest := by
  cases ds with
  | nil =>
    refine .inl ⟨by simp, ?_⟩
    rcases hrest with rfl | rfl
    · rfl
    · decide
  | cons d ds =>
    rw [List.cons_append, withoutMark]
    by_cases hd : d = byteOrderMark
    · exact .inr ⟨ds, by rw [hd], if_pos hd⟩
    · exact .inl ⟨by simpa using hd, if_neg hd⟩

theorem withoutMark_replicate {n : Nat} (hn : n ≠ 0) (rest : List Char) :
    withoutMark (List.replicate n replacement ++ rest) = List.replicate n replacement ++ rest := by
  obtain ⟨n, rfl⟩ := Nat.exists_eq_succ_of_ne_zero hn
  rw [List.replicate_succ, List.cons_append, withoutMark, if_neg (by decide)]

/-- A character above ASCII has no unit below, and is at most one replacement character. -/
theorem units_singleton (h : 128 ≤ c.toNat) :
    units [c] ≠ [] ∧ (∀ u ∈ units [c], 128 ≤ u) ∧ (units [c]).count 0xFFFD ≤ 1 := by
  have hunits : units [c] = if c.toNat < 0x10000 then [c.toNat]
      else [0xD800 + (c.toNat - 0x10000) / 0x400, 0xDC00 + (c.toNat - 0x10000) % 0x400] := by
    unfold units charCodes
    rw [String.toList_ofList, List.flatMap_singleton]
  have hvalid : c.toNat < 0xD800 ∨ 0xDFFF < c.toNat ∧ c.toNat < 0x110000 := c.valid
  rw [hunits]
  split_ifs
  · refine ⟨List.cons_ne_nil _ _, ?_, List.count_le_length⟩
    simpa using h
  · refine ⟨List.cons_ne_nil _ _, ?_, ?_⟩
    · simp only [List.forall_mem_cons, List.not_mem_nil, false_implies, implies_true, and_true]
      omega
    · rw [List.count_eq_zero_of_not_mem]
      · omega
      · simp only [List.mem_cons, List.not_mem_nil, or_false]
        omega

/-- A character that is cut: a replacement for what the first piece has of it, and one for each of
the other bytes. -/
theorem Damaged.cut_char {ps qs : List UInt8} (hc : String.utf8EncodeChar c = ps ++ qs)
    (hps : ps ≠ []) (hqs : qs ≠ []) {es : List Char} (h : Damaged (units es) vs) :
    Damaged (units (c :: es)) (0xFFFD :: (List.replicate qs.length 0xFFFD ++ vs)) ∧
      0xFFFD :: (List.replicate qs.length 0xFFFD ++ vs) ≠ units (c :: es) := by
  have hc128 : 128 ≤ c.toNat := by
    obtain ⟨b, ps, rfl⟩ := List.exists_cons_of_ne_nil hps
    have hne : ps ++ qs ≠ [] := List.append_ne_nil_of_right_ne_nil ps hqs
    obtain ⟨d, rest, hrest⟩ := List.exists_cons_of_ne_nil hne
    rw [List.cons_append, hrest] at hc
    exact ge_of_encodeChar_cons_cons hc
  obtain ⟨hne, hunits, hcount⟩ := units_singleton hc128
  have hlength : 0 < qs.length := List.length_pos_of_ne_nil hqs
  rw [← List.singleton_append, units_append]
  refine ⟨Damaged.cut (units [c]) (qs.length + 1) hne hunits (by omega) h, fun heq => ?_⟩
  have hequal := congrArg (List.count 0xFFFD) heq
  rw [List.count_cons_self, List.count_append, List.count_append, List.count_replicate_self]
    at hequal
  rcases h.cases_eq with rfl | hlt | ⟨hsame, -⟩ <;> omega

/-- A byte order mark that is left out. -/
theorem Damaged.mark_ne {us vs ws : List Nat} (h : Damaged us vs) :
    ws ++ vs ≠ 0xFEFF :: (ws ++ us) := by
  intro heq
  have hlength := congrArg List.length heq
  have hcount := congrArg (List.count 0xFFFD) heq
  rw [List.count_cons_of_ne (by decide), List.count_append, List.count_append] at hcount
  rw [List.length_cons, List.length_append, List.length_append] at hlength
  rcases h.cases_eq with rfl | hlt | ⟨-, hlt⟩ <;> omega

variable {pieces : List (List UInt8)}

/-- **What the pieces of a text decode to**, if the first of them may begin inside a character. -/
theorem damaged_of_pieces {ss : List UInt8} {cs : List Char}
    (hss : ∀ b ∈ ss, Continuation b) (h : pieces.flatten = ss ++ encode cs) :
    ∃ vs, units (pieces.flatMap decode) = List.replicate ss.length 0xFFFD ++ vs ∧
      Damaged (units cs) vs ∧ (vs = units cs → ss = [] → ∀ piece ∈ pieces, Whole piece) := by
  induction pieces generalizing ss cs with
  | nil =>
    obtain ⟨rfl, hcs⟩ := List.nil_eq_append_iff.mp h
    obtain rfl : cs = [] := encode_injective hcs
    exact ⟨[], rfl, .nil, by simp⟩
  | cons piece pieces ih =>
    rw [List.flatten_cons] at h
    rw [List.flatMap_cons, units_append]
    rcases List.append_eq_append_iff.mp h with ⟨ss', rfl, hrest⟩ | ⟨xs, rfl, hrest⟩
    · -- the piece ends before the character does
      obtain ⟨hpiece, hss'⟩ := List.forall_mem_append.mp hss
      obtain ⟨vs, hvs, hdamaged, hwhole⟩ := ih hss' hrest
      have hdecode : decode piece = List.replicate piece.length replacement := by
        have hall : decodeAll piece = List.replicate piece.length replacement ++ [] := by
          rw [decodeAll, feed_continuation hpiece]
          rfl
        rw [decode, hall]
        cases piece with
        | nil => rfl
        | cons b piece =>
          have hne : (b :: piece).length ≠ 0 := Nat.succ_ne_zero _
          rw [withoutMark_replicate hne, List.append_nil]
      refine ⟨vs, ?_, hdamaged, fun heq hnil => ?_⟩
      · rw [hdecode, hvs, units_replicate, List.length_append, ← List.replicate_append_replicate,
          List.append_assoc]
      · obtain ⟨rfl, rfl⟩ := List.append_eq_nil_iff.mp hnil
        exact List.forall_mem_cons.mpr ⟨⟨[], rfl, by simp⟩, hwhole heq rfl⟩
    · obtain ⟨ds, es, ps, rfl, rfl, hsplit⟩ := encode_split hrest
      -- what comes of the rest, with the replacement of what the piece has of a character
      obtain ⟨vs, hvs, hdamaged, hwhole⟩ : ∃ vs,
          units (if ps = [] then [] else [replacement]) ++ units (pieces.flatMap decode) = vs ∧
            Damaged (units es) vs ∧
            (vs = units es → ps = [] ∧ ∀ piece ∈ pieces, Whole piece) := by
        rcases hsplit with ⟨rfl, hflat⟩ | ⟨c, es', qs, rfl, hc, hps, hqs, hflat⟩
        · obtain ⟨vs, hvs, hdamaged, hwhole⟩ := ih (List.forall_mem_nil _) hflat
          exact ⟨vs, by rw [if_pos rfl, hvs]; rfl, hdamaged, fun heq => ⟨rfl, hwhole heq rfl⟩⟩
        · have hcont : ∀ b ∈ qs, Continuation b := by
            obtain ⟨b, ps, rfl⟩ := List.exists_cons_of_ne_nil hps
            exact fun d hd => continuation_of_encodeChar hc d (List.mem_append_right ps hd)
          obtain ⟨vs, hvs, hdamaged, -⟩ := ih hcont hflat
          obtain ⟨hcut, hne⟩ := hdamaged.cut_char hc hps hqs
          refine ⟨_, ?_, hcut, fun heq => absurd heq hne⟩
          rw [if_neg hps, hvs]
          rfl
      have hps : ps = [] ∨ ∃ c qs, String.utf8EncodeChar c = ps ++ qs ∧ ps ≠ [] ∧ qs ≠ [] := by
        rcases hsplit with ⟨hps, -⟩ | ⟨c, -, qs, -, hc, hps, hqs, -⟩
        · exact .inl hps
        · exact .inr ⟨c, qs, hc, hps, hqs⟩
      have hrest : (if ps = [] then [] else [replacement]) = [] ∨
          (if ps = [] then [] else [replacement]) = [replacement] := by
        split_ifs
        · exact .inl rfl
        · exact .inr rfl
      have hkeep : Damaged (units ds ++ units es) (units ds ++ vs) := hdamaged.keep_append _
      rw [decode, decodeAll_piece hss ds hps, units_append]
      by_cases hnil : ss = []
      · subst hnil
        rw [List.length_nil, List.replicate_zero, List.nil_append, List.replicate_zero,
          List.nil_append]
        rcases withoutMark_append ds hrest with ⟨hmark, hsame⟩ | ⟨ds, rfl, hless⟩
        · refine ⟨units ds ++ vs, ?_, hkeep, fun heq _ => ?_⟩
          · rw [hsame, units_append, List.append_assoc, hvs]
            rfl
          · obtain ⟨rfl, hpieces⟩ := hwhole (List.append_cancel_left heq)
            exact List.forall_mem_cons.mpr ⟨⟨ds, by simp, hmark⟩, hpieces⟩
        · have hunits : units (byteOrderMark :: ds) = 0xFEFF :: units ds := by
            rw [← List.singleton_append, units_append]
            rfl
          rw [hunits]
          refine ⟨units ds ++ vs, ?_, .mark (hdamaged.keep_append _), fun heq => ?_⟩
          · rw [hless, units_append, List.append_assoc, hvs]
            rfl
          · exact absurd heq hdamaged.mark_ne
      · refine ⟨units ds ++ vs, ?_, hkeep, fun _ hss => absurd hss hnil⟩
        rw [withoutMark_replicate (mt List.length_eq_zero_iff.mp hnil), units_append, units_append,
          units_replicate, List.append_assoc, List.append_assoc, hvs]

/-- A character has no more code units than bytes, and as many only if it is ASCII. -/
theorem units_singleton_length (c : Char) :
    (units [c]).length ≤ (String.utf8EncodeChar c).length ∧
      ((units [c]).length = (String.utf8EncodeChar c).length ↔ c.toNat < 128) := by
  have hunits : units [c] = if c.toNat < 0x10000 then [c.toNat]
      else [0xD800 + (c.toNat - 0x10000) / 0x400, 0xDC00 + (c.toNat - 0x10000) % 0x400] := by
    unfold units charCodes
    rw [String.toList_ofList, List.flatMap_singleton]
  have hv : c.val.toNat = c.toNat := rfl
  unfold String.utf8EncodeChar
  simp only [hv]
  rw [hunits]
  split_ifs
  · exact ⟨Nat.le_refl 1, iff_of_true rfl (by omega)⟩
  · exact ⟨by simp, iff_of_false (by simp) (by omega)⟩
  · exact ⟨by simp, iff_of_false (by simp) (by omega)⟩
  · omega
  · omega
  · omega
  · omega
  · exact ⟨by simp, iff_of_false (by simp) (by omega)⟩

theorem units_length_le (cs : List Char) : (units cs).length ≤ (encode cs).length := by
  induction cs with
  | nil => exact Nat.le_refl 0
  | cons c cs ih =>
    have hc := (units_singleton_length c).1
    rw [← List.singleton_append, units_append, List.singleton_append, encode_cons,
      List.length_append, List.length_append]
    omega

/-- **A text has as many code units as bytes exactly if it is ASCII.** -/
theorem units_length_eq_iff (cs : List Char) :
    (units cs).length = (encode cs).length ↔ ∀ c ∈ cs, c.toNat < 128 := by
  induction cs with
  | nil => simp
  | cons c cs ih =>
    obtain ⟨hle, hiff⟩ := units_singleton_length c
    have hrest := units_length_le cs
    rw [← List.singleton_append, units_append, List.singleton_append, encode_cons,
      List.length_append, List.length_append, List.forall_mem_cons, ← ih, ← hiff]
    omega

theorem Whole.encode_decode {piece : List UInt8} (h : Whole piece) :
    encode (decode piece) = piece := by
  obtain ⟨ds, rfl, hmark⟩ := h
  have hsame : withoutMark ds = ds := by
    cases ds with
    | nil => rfl
    | cons d ds => exact if_neg fun hd => hmark (by rw [hd]; rfl)
  rw [decode_encode, hsame]

theorem whole_iff {piece : List UInt8} : Whole piece ↔ encode (decode piece) = piece := by
  refine ⟨Whole.encode_decode, fun h => ⟨decode piece, h.symm, fun hmark => ?_⟩⟩
  have hsame : decode piece = withoutMark (decode piece) := by
    rw [← decode_encode, h]
  obtain ⟨ds, hds⟩ : ∃ ds, decode piece = byteOrderMark :: ds := List.head?_eq_some_iff.mp hmark
  rw [hds, withoutMark, if_pos rfl] at hsame
  exact absurd (congrArg List.length hsame) (by simp)

instance (piece : List UInt8) : Decidable (Whole piece) :=
  decidable_of_iff (encode (decode piece) = piece) whole_iff.symm

theorem encode_flatMap_decode (h : ∀ piece ∈ pieces, Whole piece) :
    encode (pieces.flatMap decode) = pieces.flatten := by
  induction pieces with
  | nil => rfl
  | cons piece pieces ih =>
    obtain ⟨hpiece, hrest⟩ := List.forall_mem_cons.mp h
    rw [List.flatMap_cons, encode_append, ih hrest, hpiece.encode_decode, List.flatten_cons]

/-- A text whose bytes begin with those of another begins with the other. -/
theorem encode_append_inv {cs ds : List Char} {ys : List UInt8} (h : encode cs = encode ds ++ ys) :
    ∃ es, cs = ds ++ es ∧ ys = encode es := by
  obtain ⟨ds', es, ps, rfl, hds, hsplit⟩ := encode_split h
  rcases hsplit with ⟨rfl, rfl⟩ | ⟨c, es', qs, -, hc, hps, hqs, -⟩
  · rw [List.append_nil] at hds
    exact ⟨es, by rw [encode_injective hds], rfl⟩
  · obtain ⟨q, hq⟩ := (hc ▸ reads_encodeChar c).feed_start hps hqs
    have hstate : (feed none (encode ds)).2 = (feed none (encode ds' ++ ps)).2 := by rw [hds]
    rw [feed_encode, feed_append, feed_encode, hq] at hstate
    cases hstate

/-- **Pieces decode to the text exactly if each is whole.** -/
theorem pieces_iff {cs : List Char} (h : pieces.flatten = encode cs) :
    units (pieces.flatMap decode) = units cs ↔ ∀ piece ∈ pieces, Whole piece := by
  constructor
  · intro heq
    obtain ⟨vs, hvs, -, hwhole⟩ := damaged_of_pieces (List.forall_mem_nil _) h
    exact hwhole (hvs.symm.trans heq) rfl
  · intro hwhole
    rw [encode_injective ((encode_flatMap_decode hwhole).trans h)]

end Llamenos.Lib.Utf8Stream
