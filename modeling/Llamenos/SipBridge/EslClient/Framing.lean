import Llamenos.SipBridge.EslClient
import Mathlib.Data.List.Forall2
import Mathlib.Data.List.TakeWhile

/-!
# Which messages the client takes from what it receives

The messages of the switch as it sends them, their bytes cut into chunks anywhere. A chunk that is
cut inside a character is seen in the headers or the body; a body of which the bytes are not as many
as the code units is never taken as it was sent.

Results:
* `decodeWithin_damaged`: what becomes of a damaged text that is unescaped.
* `parseHeaders_block`: the headers of lines.
* `headersOf_damaged`: **damage to the headers is seen**.
* `framing_iff`: **exactly the messages are handed over, exactly if no chunk is cut inside a
  character or begins with a byte order mark, and bodies are ASCII**.
-/

namespace Llamenos.SipBridge.Esl

open Llamenos.Lib Llamenos.Lib.Utf8Stream

/-! ## Messages as they are sent -/

/-- A message as the switch sends it: its header lines, and its body if it has one. -/
structure Packet where
  lines : List (List Char × List Char)
  body : Option (List Char)

def Packet.text (p : Packet) : List Char :=
  ['\n'].intercalate (p.lines.map fun l => l.1 ++ ':' :: ' ' :: l.2) ++
    '\n' :: '\n' :: p.body.getD []

/-- The names and values of the lines, as texts. -/
def Packet.pairs (p : Packet) : List (Text × Text) := p.lines.map fun l => (units l.1, units l.2)

/-- A text with no white space at its ends. -/
def Trimmed (us : Text) : Prop :=
  (∀ u ∈ us.head?, isSpace u = false) ∧ ∀ u ∈ us.getLast?, isSpace u = false

/-- A header line that is well-formed: its name is of visible ASCII characters other than the colon
(and is not the one property that cannot be set), its value is in one line, without white space at
its ends. -/
structure Fine (l : Text × Text) : Prop where
  name : ∀ u ∈ l.1, 33 ≤ u ∧ u ≤ 126 ∧ u ≠ 58
  value : 10 ∉ l.2
  trimmed : Trimmed l.2
  settable : l.1 ≠ charCodes "__proto__"

instance decidableAscii (cs : List Char) : Decidable (∀ c ∈ cs, c.toNat < 128) :=
  List.decidableBAll _ _

instance (us : Text) : Decidable (Trimmed us) := inferInstanceAs (Decidable (_ ∧ _))

instance (l : Text × Text) : Decidable (Fine l) :=
  decidable_of_iff ((∀ u ∈ l.1, 33 ≤ u ∧ u ≤ 126 ∧ u ≠ 58) ∧ 10 ∉ l.2 ∧ Trimmed l.2 ∧
      l.1 ≠ charCodes "__proto__")
    ⟨fun ⟨name, value, trimmed, settable⟩ => ⟨name, value, trimmed, settable⟩,
      fun h => ⟨h.name, h.value, h.trimmed, h.settable⟩⟩

/-- A well-formed message: no name comes twice, and a body comes with the number of its bytes. -/
structure Packet.WellFormed (p : Packet) : Prop where
  fine : ∀ l ∈ p.pairs, Fine l
  nodup : (p.pairs.map Prod.fst).Nodup
  body : match p.body with
    | none => charCodes "Content-Length" ∉ p.pairs.map Prod.fst
    | some b => (charCodes "Content-Length", units (decimal (encode b).length)) ∈ p.pairs

/-- What the lines say, by their names. -/
def headersOf (ls : List (Text × Text)) : Headers := fun key =>
  (ls.find? fun l => l.1 = key).map fun l => decoded l.2

/-- The message that is to be handed over. -/
def Packet.handed (p : Packet) : Message := ⟨headersOf p.pairs, units (p.body.getD [])⟩

/-! ## Unescaping damaged texts -/

theorem percentByte_spec {us rest : Text} {b : Nat} (h : percentByte us = some (b, rest)) :
    ∃ xs, us = xs ++ rest ∧ xs.length = 3 ∧ (∀ u ∈ xs, u < 128) ∧
      ∀ rest', percentByte (xs ++ rest') = some (b, rest') := by
  unfold percentByte at h
  split at h
  · rename_i p hi lo us
    split_ifs at h with hp
    obtain ⟨m, hm, h⟩ := Option.bind_eq_some_iff.mp h
    obtain ⟨n, hn, h⟩ := Option.bind_eq_some_iff.mp h
    obtain ⟨rfl, rfl⟩ := Prod.mk.inj (Option.some.inj h)
    refine ⟨[p, hi, lo], rfl, rfl, ?_, fun rest' => ?_⟩
    · have hhi := hexVal_lt hm
      have hlo := hexVal_lt hn
      simp only [List.forall_mem_cons, List.not_mem_nil, false_implies, implies_true, and_true]
      omega
    · rw [List.cons_append, List.cons_append, List.cons_append, List.nil_append, percentByte,
        if_pos hp, hm, hn]
      rfl
  · cases h

theorem percentBytes_spec {n : Nat} {us rest : Text} {bs : List Nat}
    (h : percentBytes n us = some (bs, rest)) :
    ∃ xs, us = xs ++ rest ∧ xs.length = 3 * n ∧ bs.length = n ∧ (∀ u ∈ xs, u < 128) ∧
      ∀ rest', percentBytes n (xs ++ rest') = some (bs, rest') := by
  induction n generalizing us bs with
  | zero =>
    obtain ⟨rfl, rfl⟩ := Prod.mk.inj (Option.some.inj h)
    exact ⟨[], rfl, rfl, rfl, by simp, fun _ => rfl⟩
  | succ n ih =>
    obtain ⟨⟨b, us'⟩, hb, h⟩ := Option.bind_eq_some_iff.mp h
    obtain ⟨⟨cs, us''⟩, hcs, h⟩ := Option.bind_eq_some_iff.mp h
    obtain ⟨rfl, rfl⟩ := Prod.mk.inj (Option.some.inj h)
    obtain ⟨xs, rfl, hxs, hascii, hbyte⟩ := percentByte_spec hb
    obtain ⟨ys, rfl, hys, hlen, hascii', hbytes⟩ := ih hcs
    refine ⟨xs ++ ys, by rw [List.append_assoc], ?_, ?_, ?_, fun rest' => ?_⟩
    · rw [List.length_append, hxs, hys]
      omega
    · rw [List.length_cons, hlen]
    · exact List.forall_mem_append.mpr ⟨hascii, hascii'⟩
    · rw [List.append_assoc, percentBytes, hbyte]
      dsimp only [Option.bind_eq_bind, Option.bind_some]
      rw [hbytes]
      rfl

/-- An escape sequence is ASCII, is at least as long as its character, and is read by itself. -/
theorem escape_spec {us rest cs : Text} (h : escape us = some (cs, rest)) :
    ∃ xs, us = xs ++ rest ∧ xs ≠ [] ∧ (∀ u ∈ xs, u < 128) ∧ cs.length ≤ xs.length ∧
      ∀ rest', escape (xs ++ rest') = some (cs, rest') := by
  unfold escape at h
  obtain ⟨⟨b, after⟩, hb, h⟩ := Option.bind_eq_some_iff.mp h
  obtain ⟨n, hn, h⟩ := Option.bind_eq_some_iff.mp h
  obtain ⟨⟨bs, rest'⟩, hbs, h⟩ := Option.bind_eq_some_iff.mp h
  dsimp only at h
  split_ifs at h with hvalid
  obtain ⟨rfl, rfl⟩ := Prod.mk.inj (Option.some.inj h)
  obtain ⟨xs, rfl, hlen, hbslen, hascii, hread⟩ := percentBytes_spec hbs
  obtain ⟨ys, hys, hyslen, -, hfirst⟩ := percentByte_spec hb
  -- the first byte is at the beginning of the sequence
  obtain ⟨zs, rfl⟩ : ys <+: xs :=
    List.prefix_of_prefix_length_le ⟨after, hys.symm⟩ ⟨rest', rfl⟩ (by omega)
  refine ⟨ys ++ zs, rfl, ?_, hascii, ?_, fun rest'' => ?_⟩
  · rintro hnil
    rw [hnil, List.length_nil] at hlen
    omega
  · calc (units (feed none (bs.map UInt8.ofNat)).1).length
        ≤ (encode (feed none (bs.map UInt8.ofNat)).1).length := units_length_le _
      _ = bs.length := by rw [hvalid, List.length_map]
      _ ≤ (ys ++ zs).length := by omega
  · unfold escape
    rw [List.append_assoc, hfirst, ← List.append_assoc]
    dsimp only [Option.bind_eq_bind, Option.bind_some]
    rw [hn]
    dsimp only [Option.bind_some]
    rw [hread]
    dsimp only [Option.bind_some]
    rw [if_pos hvalid]
    rfl

/-- Text without escape sequences is as it is. -/
theorem decodeWithin_raw {xs us : Text} (hxs : 37 ∉ xs) (n : Nat) :
    decodeWithin (xs.length + n) (xs ++ us) = (decodeWithin n us).map (xs ++ ·) := by
  induction xs with
  | nil => simp
  | cons x xs ih =>
    obtain ⟨hx, hxs⟩ := List.ne_and_not_mem_of_not_mem_cons hxs
    rw [List.length_cons, Nat.succ_add, List.cons_append, decodeWithin, if_neg (Ne.symm hx), ih hxs]
    cases decodeWithin n us <;> rfl

/-- An escape sequence, and what follows. -/
theorem decodeWithin_escape {n : Nat} {us ws : Text}
    (h : decodeWithin (n + 1) (37 :: us) = some ws) :
    ∃ cs rest more, escape (37 :: us) = some (cs, rest) ∧ decodeWithin n rest = some more ∧
      ws = cs ++ more := by
  rw [decodeWithin, if_pos rfl] at h
  obtain ⟨⟨cs, rest⟩, hescape, h⟩ := Option.bind_eq_some_iff.mp h
  obtain ⟨more, hmore, h⟩ := Option.bind_eq_some_iff.mp h
  exact ⟨cs, rest, more, hescape, hmore, (Option.some.inj h).symm⟩

theorem notMem_of_ge {c : List Nat} (h : ∀ u ∈ c, 128 ≤ u) : 37 ∉ c := fun hmem => by
  have := h 37 hmem
  omega

theorem count_ascii {xs : List Nat} (h : ∀ u ∈ xs, u < 128) : xs.count 0xFFFD = 0 :=
  List.count_eq_zero_of_not_mem fun hmem => by
    have := h _ hmem
    omega

/-- **What becomes of a damaged text that is unescaped**: the same as of the text before. -/
theorem decodeWithin_damaged {n m : Nat} {us vs ws : Text} (h : Damaged us vs)
    (hn : us.length ≤ n) (hm : vs.length ≤ m) (hdecode : decodeWithin n us = some ws) :
    ∃ xs, decodeWithin m vs = some xs ∧
      ws.count 0xFFFD + vs.count 0xFFFD = xs.count 0xFFFD + us.count 0xFFFD ∧
      ws.length + vs.length = xs.length + us.length := by
  induction hlen : us.length using Nat.strong_induction_on generalizing us vs ws n m with
  | _ l ih =>
  subst hlen
  cases h with
  | nil =>
    cases n <;> cases m <;> exact ⟨[], rfl, by cases hdecode; rfl, by cases hdecode; rfl⟩
  | @keep u us vs h =>
    obtain ⟨n, rfl⟩ := Nat.exists_eq_add_one_of_ne_zero (Nat.ne_of_gt (Nat.lt_of_lt_of_le
      (Nat.succ_pos us.length) hn))
    obtain ⟨m, rfl⟩ := Nat.exists_eq_add_one_of_ne_zero (Nat.ne_of_gt (Nat.lt_of_lt_of_le
      (Nat.succ_pos vs.length) hm))
    rw [List.length_cons] at hn hm
    by_cases hu : u = 37
    · subst hu
      obtain ⟨cs, rest, more, hescape, hmore, rfl⟩ := decodeWithin_escape hdecode
      obtain ⟨es, hes, hne, hascii, -, hread⟩ := escape_spec hescape
      have hcount := count_ascii hascii
      have hpos : 0 < es.length := List.length_pos_of_ne_nil hne
      have hsplit : Damaged (es ++ rest) (37 :: vs) := hes ▸ Damaged.keep 37 h
      obtain ⟨rest', hrest', hdamaged⟩ := hsplit.append_inv hascii
      have hus := congrArg List.length hes
      have hvs := congrArg List.length hrest'
      have hus' := congrArg (List.count 0xFFFD) hes
      have hvs' := congrArg (List.count 0xFFFD) hrest'
      rw [List.length_append, List.length_cons] at hus hvs
      rw [List.count_append] at hus' hvs'
      have hshort : rest.length < (37 :: us).length := by
        rw [List.length_cons]
        omega
      have hn' : rest.length ≤ n := by omega
      have hm' : rest'.length ≤ m := by omega
      obtain ⟨xs, hxs, hcounts, hlengths⟩ := ih _ hshort hdamaged hn' hm' hmore rfl
      refine ⟨cs ++ xs, ?_, ?_, ?_⟩
      · rw [decodeWithin, if_pos rfl, hrest', hread]
        dsimp only [Option.bind_eq_bind, Option.bind_some]
        rw [hxs]
        rfl
      · rw [hus', hvs', List.count_append, List.count_append]
        omega
      · simp only [List.length_append, List.length_cons]
        omega
    · rw [decodeWithin, if_neg hu] at hdecode
      obtain ⟨more, hmore, hws⟩ := Option.bind_eq_some_iff.mp hdecode
      obtain rfl := Option.some.inj hws
      obtain ⟨xs, hxs, hcounts, hlengths⟩ := ih _ (Nat.lt_succ_self _) h
        (Nat.le_of_succ_le_succ hn) (Nat.le_of_succ_le_succ hm) hmore rfl
      refine ⟨u :: xs, ?_, ?_, ?_⟩
      · rw [decodeWithin, if_neg hu, hxs]
        rfl
      · simp only [List.count_cons]
        omega
      · simp only [List.length_cons]
        omega
  | @cut c k us vs hne hc hk h =>
    rw [List.length_append] at hn hm ih
    have hpos : 0 < c.length := List.length_pos_of_ne_nil hne
    obtain ⟨n, rfl⟩ := Nat.exists_eq_add_of_le (Nat.le_of_add_right_le hn)
    obtain ⟨m, rfl⟩ := Nat.exists_eq_add_of_le (Nat.le_of_add_right_le hm)
    rw [decodeWithin_raw (notMem_of_ge hc)] at hdecode
    obtain ⟨more, hmore, rfl⟩ := Option.map_eq_some_iff.mp hdecode
    have hshort : us.length < c.length + us.length := by omega
    obtain ⟨xs, hxs, hcounts, hlengths⟩ := ih _ hshort h (Nat.le_of_add_le_add_left hn)
      (Nat.le_of_add_le_add_left hm) hmore rfl
    refine ⟨List.replicate k 0xFFFD ++ xs, ?_, ?_, ?_⟩
    · rw [decodeWithin_raw (by simp), hxs]
      rfl
    · simp only [List.count_append]
      omega
    · simp only [List.length_append]
      omega
  | @mark us vs h =>
    obtain ⟨n, rfl⟩ := Nat.exists_eq_add_one_of_ne_zero (Nat.ne_of_gt (Nat.lt_of_lt_of_le
      (Nat.succ_pos us.length) hn))
    rw [List.length_cons] at hn
    rw [decodeWithin, if_neg (by decide)] at hdecode
    obtain ⟨more, hmore, hws⟩ := Option.bind_eq_some_iff.mp hdecode
    obtain rfl := Option.some.inj hws
    obtain ⟨xs, hxs, hcounts, hlengths⟩ := ih _ (Nat.lt_succ_self _) h
      (Nat.le_of_succ_le_succ hn) hm hmore rfl
    refine ⟨xs, hxs, ?_, ?_⟩
    · rw [List.count_cons_of_ne (by decide), List.count_cons_of_ne (by decide)]
      exact hcounts
    · simp only [List.length_cons]
      omega

/-- What is unescaped has no fewer replacement characters, and is no longer. -/
theorem decodeWithin_bounds {n : Nat} {us ws : Text} (h : decodeWithin n us = some ws) :
    us.count 0xFFFD ≤ ws.count 0xFFFD ∧ ws.length ≤ us.length := by
  induction n generalizing us ws with
  | zero =>
    cases us with
    | nil =>
      cases h
      exact ⟨Nat.le_refl _, Nat.le_refl _⟩
    | cons u us => cases h
  | succ n ih =>
    cases us with
    | nil =>
      cases h
      exact ⟨Nat.le_refl _, Nat.le_refl _⟩
    | cons u us =>
      by_cases hu : u = 37
      · subst hu
        obtain ⟨cs, rest, more, hescape, hmore, rfl⟩ := decodeWithin_escape h
        obtain ⟨es, hes, -, hascii, hle, -⟩ := escape_spec hescape
        obtain ⟨hcount, hlength⟩ := ih hmore
        rw [hes]
        simp only [List.count_append, List.length_append, count_ascii hascii]
        omega
      · rw [decodeWithin, if_neg hu] at h
        obtain ⟨more, hmore, hws⟩ := Option.bind_eq_some_iff.mp h
        obtain rfl := Option.some.inj hws
        obtain ⟨hcount, hlength⟩ := ih hmore
        simp only [List.count_cons, List.length_cons]
        omega

/-- **Damage to a value is seen.** -/
theorem decoded_damaged {us vs : Text} (h : Damaged us vs) (heq : decoded vs = decoded us) :
    vs = us := by
  unfold decoded decodeURIComponent at heq
  have hcases := h.cases_eq
  cases hus : decodeWithin us.length us with
  | some ws =>
    obtain ⟨xs, hxs, hcounts, hlengths⟩ :=
      decodeWithin_damaged h (Nat.le_refl _) (Nat.le_refl _) hus
    rw [hus, hxs] at heq
    obtain rfl : xs = ws := heq
    rcases hcases with hsame | hlt | ⟨-, hlt⟩
    · exact hsame
    · omega
    · omega
  | none =>
    rw [hus] at heq
    cases hvs : decodeWithin vs.length vs with
    | none =>
      rw [hvs] at heq
      exact heq
    | some xs =>
      rw [hvs] at heq
      obtain rfl : xs = us := heq
      obtain ⟨hcount, hlength⟩ := decodeWithin_bounds hvs
      rcases hcases with hsame | hlt | ⟨-, hlt⟩
      · exact hsame
      · omega
      · omega

/-! ## Header blocks -/

theorem dropWhile_of_head {us : Text} (h : ∀ u ∈ us.head?, isSpace u = false) :
    us.dropWhile isSpace = us := by
  cases us with
  | nil => rfl
  | cons u us =>
    have hu : isSpace u = false := h u rfl
    rw [List.dropWhile_cons, hu, if_neg Bool.false_ne_true]

theorem Trimmed.trim {us : Text} (h : Trimmed us) : Esl.trim us = us := by
  rw [Esl.trim, dropWhile_of_head h.1, dropWhile_of_head, List.reverse_reverse]
  rw [List.head?_reverse]
  exact h.2

theorem isSpace_visible : ∀ u ≤ 126, 33 ≤ u → isSpace u = false := by decide
variable {l : Text × Text}

theorem Fine.name_trimmed (h : Fine l) : Trimmed l.1 := by
  have hname : ∀ u ∈ l.1, isSpace u = false := fun u hu =>
    isSpace_visible u (h.name u hu).2.1 (h.name u hu).1
  exact ⟨fun u hu => hname u (List.mem_of_mem_head? hu),
    fun u hu => hname u (List.mem_of_mem_getLast? hu)⟩

def lineText (l : Text × Text) : Text := l.1 ++ 58 :: 32 :: l.2

def blockText (ls : List (Text × Text)) : Text := [10].intercalate (ls.map lineText)

theorem Fine.line (h : Fine l) : 10 ∉ lineText l := by
  intro hmem
  rcases List.mem_append.mp hmem with hname | hmem
  · have := (h.name 10 hname).1
    omega
  · simp only [List.mem_cons] at hmem
    rcases hmem with h10 | h10 | hvalue
    · cases h10
    · cases h10
    · exact h.value hvalue

/-- A well-formed line sets its header. -/
theorem parseLine_lineText (h : Fine l) (result : Headers) :
    parseLine result (lineText l) = Function.update result l.1 (some (decoded l.2)) := by
  have hcolon : 58 ∉ l.1 := fun hmem => (h.name 58 hmem).2.2 rfl
  have hindex : indexOf (charCodes ": ") (lineText l) = some l.1.length :=
    @indexOf_append 58 [32] l.1 hcolon l.2
  have hvalue : (lineText l).drop (l.1.length + 2) = l.2 := by
    rw [lineText, ← List.drop_drop, List.drop_left]
    rfl
  unfold parseLine
  rw [hindex]
  dsimp only
  rw [hvalue, lineText, List.take_left, h.name_trimmed.trim, h.trimmed.trim, Headers.set,
    if_neg h.settable]
variable {ls : List (Text × Text)}

theorem foldl_parseLine (hfine : ∀ l ∈ ls, Fine l)
    (hnodup : (ls.map Prod.fst).Nodup) (result : Headers) (key : Text) :
    (ls.map lineText).foldl parseLine result key = (headersOf ls key).or (result key) := by
  induction ls generalizing result with
  | nil => rfl
  | cons l ls ih =>
    obtain ⟨hl, hls⟩ := List.forall_mem_cons.mp hfine
    rw [List.map_cons, List.nodup_cons] at hnodup
    rw [List.map_cons, List.foldl_cons, parseLine_lineText hl, ih hls hnodup.2]
    unfold headersOf
    rw [List.find?_cons]
    by_cases hkey : l.1 = key
    · have hnone : ls.find? (fun l => l.1 = key) = none := by
        rw [List.find?_eq_none]
        intro l' hl' heq
        rw [decide_eq_true_eq] at heq
        exact hnodup.1 (List.mem_map.mpr ⟨l', hl', heq.trans hkey.symm⟩)
      subst hkey
      rw [hnone, Function.update_self, decide_eq_true rfl]
      rfl
    · rw [Function.update_of_ne (Ne.symm hkey), decide_eq_false hkey]

/-- **The headers of lines.** -/
theorem parseHeaders_block (hfine : ∀ l ∈ ls, Fine l)
    (hnodup : (ls.map Prod.fst).Nodup) : parseHeaders (blockText ls) = headersOf ls := by
  funext key
  have hlines : (blockText ls).splitOn 10 = if ls = [] then [[]] else ls.map lineText := by
    split_ifs with hnil
    · rw [hnil]
      rfl
    · refine List.splitOn_intercalate 10 ?_ (by simpa using hnil)
      intro line hline
      obtain ⟨l, hl, rfl⟩ := List.mem_map.mp hline
      exact (hfine l hl).line
  rw [parseHeaders, hlines]
  split_ifs with hnil
  · rw [hnil]
    rfl
  · rw [foldl_parseLine hfine hnodup]
    exact Option.or_none

/-- No line is empty. -/
theorem noBreak_cons {xs ys : Text} (hxs : 10 ∉ xs) (hne : xs ≠ []) (hhead : ys.head? ≠ some 10)
    (hys : ¬ [10, 10] <:+: ys) : ¬ [10, 10] <:+: xs ++ 10 :: ys := by
  induction xs with
  | nil => exact absurd rfl hne
  | cons x xs ih =>
    obtain ⟨hx, hxs⟩ := List.ne_and_not_mem_of_not_mem_cons hxs
    rw [List.cons_append, List.infix_cons_iff, not_or]
    refine ⟨fun hprefix => hx (List.cons_prefix_cons.mp hprefix).1, ?_⟩
    by_cases hnil : xs = []
    · rw [hnil, List.nil_append, List.infix_cons_iff, not_or]
      refine ⟨fun hprefix => ?_, hys⟩
      obtain ⟨rest, hrest⟩ := (List.cons_prefix_cons.mp hprefix).2
      exact hhead (by rw [← hrest]; rfl)
    · exact ih hxs hnil

theorem lineText_ne_nil (l : Text × Text) : lineText l ≠ [] := by
  simp [lineText]

theorem blockText_singleton (l : Text × Text) : blockText [l] = lineText l :=
  List.intercalate_singleton

theorem blockText_cons_cons (l l' : Text × Text) (ls : List (Text × Text)) :
    blockText (l :: l' :: ls) = lineText l ++ 10 :: blockText (l' :: ls) := by
  rw [blockText, List.map_cons, List.map_cons, List.intercalate_cons_cons, List.append_assoc]
  rfl

theorem blockText_noBreak (hfine : ∀ l ∈ ls, Fine l) :
    ¬ [10, 10] <:+: blockText ls ++ [10] := by
  induction ls with
  | nil =>
    intro hinfix
    have := hinfix.length_le
    simp [blockText] at this
  | cons l ls ih =>
    obtain ⟨hl, hls⟩ := List.forall_mem_cons.mp hfine
    cases ls with
    | nil =>
      rw [blockText_singleton]
      exact noBreak_cons hl.line (lineText_ne_nil l) (by simp) (by simp)
    | cons l' ls =>
      rw [blockText_cons_cons, List.append_assoc, List.cons_append]
      refine noBreak_cons hl.line (lineText_ne_nil l) ?_ (ih hls)
      intro hhead
      have hmem : 10 ∈ lineText l' := by
        obtain ⟨u, us, hu⟩ := List.exists_cons_of_ne_nil (lineText_ne_nil l')
        have hstart : ∃ rest, blockText (l' :: ls) ++ [10] = lineText l' ++ rest := by
          cases ls with
          | nil => exact ⟨[10], by rw [blockText_singleton]⟩
          | cons l'' ls => exact ⟨_, by rw [blockText_cons_cons, List.append_assoc]⟩
        obtain ⟨rest, hrest⟩ := hstart
        rw [hrest, hu] at hhead
        rw [hu, Option.some.inj hhead]
        exact List.mem_cons_self
      exact (hls l' List.mem_cons_self).line hmem

/-! ## Damaged header blocks -/

/-- A text whose last unit is no white space still ends in none. -/
theorem damaged_getLast {us vs : Text} (h : Damaged us vs) {u : Nat} (hlast : us.getLast? = some u)
    (hu : isSpace u = false) : ∃ v, vs.getLast? = some v ∧ isSpace v = false := by
  induction h with
  | nil => cases hlast
  | @keep w us vs h ih =>
    by_cases hnil : us = []
    · subst hnil
      rw [h.of_nil]
      exact ⟨u, hlast, hu⟩
    · obtain ⟨v, hv, hspace⟩ := ih (by rwa [List.getLast?_cons_of_ne_nil hnil] at hlast)
      refine ⟨v, ?_, hspace⟩
      rw [List.getLast?_cons, hv]
      rfl
  | @cut c k us vs _ _ hk h ih =>
    by_cases hnil : us = []
    · subst hnil
      rw [h.of_nil, List.append_nil, List.getLast?_replicate, if_neg (by omega)]
      exact ⟨0xFFFD, rfl, by decide⟩
    · obtain ⟨v, hv, hspace⟩ := ih (by rwa [List.getLast?_append_of_ne_nil c hnil] at hlast)
      refine ⟨v, ?_, hspace⟩
      rw [List.getLast?_append, hv]
      rfl
  | @mark us vs h ih =>
    by_cases hnil : us = []
    · subst hnil
      obtain rfl := Option.some.inj hlast
      exact absurd hu (by decide)
    · exact ih (by rwa [List.getLast?_cons_of_ne_nil hnil] at hlast)

theorem Trimmed.damaged {us vs : Text} (htrimmed : Trimmed us) (h : Damaged us vs) :
    Trimmed vs := by
  refine ⟨fun v hv => ?_, fun v hv => ?_⟩
  · cases h with
    | nil => exact htrimmed.1 v hv
    | keep u h => exact htrimmed.1 v hv
    | cut c k hne hc hk h =>
      obtain ⟨k, rfl⟩ := Nat.exists_eq_add_one_of_ne_zero (Nat.ne_of_gt (Nat.zero_lt_of_lt hk))
      obtain rfl : 0xFFFD = v := Option.some.inj hv
      decide
    | mark h => exact absurd (htrimmed.1 0xFEFF rfl) (by decide)
  · cases hlast : us.getLast? with
    | none =>
      rw [List.getLast?_eq_none_iff] at hlast
      subst hlast
      rw [h.of_nil] at hv
      cases hv
    | some u =>
      obtain ⟨w, hw, hspace⟩ := damaged_getLast h hlast (htrimmed.2 u hlast)
      rw [Option.mem_def, hw] at hv
      rw [← Option.some.inj hv]
      exact hspace

/-- What a line may have become. -/
def DamagedLine (l l' : Text × Text) : Prop := l'.1 = l.1 ∧ Damaged l.2 l'.2

theorem Fine.damaged {l l' : Text × Text} (hl : Fine l) (h : DamagedLine l l') : Fine l' := by
  refine ⟨h.1 ▸ hl.name, fun hmem => ?_, hl.trimmed.damaged h.2, h.1 ▸ hl.settable⟩
  exact hl.value (h.2.mem_of_mem (by decide) hmem)

theorem damaged_lineText (hl : Fine l) {vs : Text}
    (h : Damaged (lineText l) vs) : ∃ l', vs = lineText l' ∧ DamagedLine l l' := by
  have hsplit : lineText l = (l.1 ++ [58, 32]) ++ l.2 := by simp [lineText]
  have hascii : ∀ u ∈ l.1 ++ [58, 32], u < 128 := by
    intro u hu
    rcases List.mem_append.mp hu with hname | hsep
    · have := (hl.name u hname).2.1
      omega
    · simp only [List.mem_cons, List.not_mem_nil, or_false] at hsep
      omega
  rw [hsplit] at h
  obtain ⟨value, rfl, hvalue⟩ := h.append_inv hascii
  exact ⟨(l.1, value), by simp [lineText], rfl, hvalue⟩

/-- A damaged block is the block of damaged lines. -/
theorem damaged_blockText (hfine : ∀ l ∈ ls, Fine l) {vs : Text}
    (h : Damaged (blockText ls) vs) :
    ∃ ls', vs = blockText ls' ∧ List.Forall₂ DamagedLine ls ls' := by
  induction ls generalizing vs with
  | nil => exact ⟨[], Damaged.of_nil h, .nil⟩
  | cons l ls ih =>
    obtain ⟨hl, hls⟩ := List.forall_mem_cons.mp hfine
    cases ls with
    | nil =>
      rw [blockText_singleton] at h
      obtain ⟨l', rfl, hl'⟩ := damaged_lineText hl h
      exact ⟨[l'], (blockText_singleton l').symm, .cons hl' .nil⟩
    | cons k ls =>
      rw [blockText_cons_cons] at h
      obtain ⟨line, block, rfl, hline, hblock⟩ := h.split (by decide)
      obtain ⟨l', rfl, hl'⟩ := damaged_lineText hl hline
      obtain ⟨ls', rfl, hls'⟩ := ih hls hblock
      cases hls' with
      | @cons _ k' _ ls' hk hrest =>
        exact ⟨l' :: k' :: ls', (blockText_cons_cons l' k' ls').symm, .cons hl' (.cons hk hrest)⟩

theorem fine_of_damaged {ls ls' : List (Text × Text)} (hfine : ∀ l ∈ ls, Fine l)
    (h : List.Forall₂ DamagedLine ls ls') :
    (∀ l ∈ ls', Fine l) ∧ ls'.map Prod.fst = ls.map Prod.fst := by
  induction h with
  | nil => exact ⟨by simp, rfl⟩
  | @cons l l' ls ls' hl _ ih =>
    obtain ⟨hfl, hfls⟩ := List.forall_mem_cons.mp hfine
    obtain ⟨hls, hnames⟩ := ih hfls
    exact ⟨List.forall_mem_cons.mpr ⟨hfl.damaged hl, hls⟩, by
      rw [List.map_cons, List.map_cons, hl.1, hnames]⟩

theorem headersOf_cons (l : Text × Text) (ls : List (Text × Text)) (key : Text) :
    headersOf (l :: ls) key = if l.1 = key then some (decoded l.2) else headersOf ls key := by
  unfold headersOf
  rw [List.find?_cons]
  split_ifs with hkey
  · rw [decide_eq_true hkey]
    rfl
  · rw [decide_eq_false hkey]

theorem headersOf_eq_none {key : Text} (h : key ∉ ls.map Prod.fst) :
    headersOf ls key = none := by
  unfold headersOf
  rw [Option.map_eq_none_iff, List.find?_eq_none]
  intro l hl heq
  rw [decide_eq_true_eq] at heq
  exact h (List.mem_map.mpr ⟨l, hl, heq⟩)

/-- **Damage to the headers is seen.** -/
theorem headersOf_damaged {ls ls' : List (Text × Text)} (hnodup : (ls.map Prod.fst).Nodup)
    (hfine : ∀ l ∈ ls, Fine l) (h : List.Forall₂ DamagedLine ls ls')
    (heq : headersOf ls' = headersOf ls) : ls' = ls := by
  induction h with
  | nil => rfl
  | @cons l l' ls ls' hl hrest ih =>
    obtain ⟨-, hfls⟩ := List.forall_mem_cons.mp hfine
    rw [List.map_cons, List.nodup_cons] at hnodup
    have hvalue : decoded l'.2 = decoded l.2 := by
      have hkey := congrFun heq l.1
      rw [headersOf_cons, headersOf_cons, if_pos hl.1, if_pos rfl] at hkey
      exact Option.some.inj hkey
    have hline : l' = l := Prod.ext hl.1 (decoded_damaged hl.2 hvalue)
    have hnames := (fine_of_damaged hfls hrest).2
    have hothers : headersOf ls' = headersOf ls := by
      funext key
      by_cases hkey : l.1 = key
      · subst hkey
        rw [headersOf_eq_none hnodup.1, headersOf_eq_none (hnames ▸ hnodup.1)]
      · have hboth := congrFun heq key
        rwa [headersOf_cons, headersOf_cons, hl.1, if_neg hkey, if_neg hkey] at hboth
    rw [hline, ih hnodup.2 hfls hothers]

/-! ## Messages -/

theorem units_text (p : Packet) :
    units p.text = blockText p.pairs ++ 10 :: 10 :: units (p.body.getD []) := by
  have hline : ∀ l : List Char × List Char,
      units (l.1 ++ ':' :: ' ' :: l.2) = lineText (units l.1, units l.2) := by
    intro l
    rw [units_append, ← List.singleton_append, ← List.singleton_append (l := l.2), units_append,
      units_append]
    rfl
  have hblock : ∀ ls : List (List Char × List Char),
      units (['\n'].intercalate (ls.map fun l => l.1 ++ ':' :: ' ' :: l.2)) =
        blockText (ls.map fun l => (units l.1, units l.2)) := by
    intro ls
    induction ls with
    | nil => rfl
    | cons l ls ih =>
      cases ls with
      | nil =>
        rw [List.map_singleton, List.map_singleton, List.intercalate_singleton, blockText_singleton]
        exact hline l
      | cons k ls =>
        simp only [List.map_cons] at ih ⊢
        rw [List.intercalate_cons_cons, units_append, units_append, ih, hline, blockText_cons_cons,
          List.append_assoc]
        rfl
  rw [Packet.text, units_append, hblock, ← List.singleton_append,
    ← List.singleton_append (l := p.body.getD []), units_append, units_append]
  rfl

theorem decoded_raw {us : Text} (h : 37 ∉ us) : decoded us = us := by
  have hraw := @decodeWithin_raw us [] h 0
  rw [List.append_nil, Nat.add_zero] at hraw
  rw [decoded, decodeURIComponent, hraw]
  exact List.append_nil us

theorem units_decimal (n : Nat) : units (decimal n) = (decimal n).map Char.toNat := by
  refine charCodes_ofList fun c hc => ?_
  have := (isDigit_iff_toNat.mp (isDigit_of_mem_decimal hc)).2
  omega

theorem digit_of_mem {n u : Nat} (h : u ∈ units (decimal n)) : 48 ≤ u ∧ u ≤ 57 := by
  rw [units_decimal] at h
  obtain ⟨c, hc, rfl⟩ := List.mem_map.mp h
  exact isDigit_iff_toNat.mp (isDigit_of_mem_decimal hc)

/-- The number that is written is read. -/
theorem parseInt_decimal (n : Nat) : parseInt (units (decimal n)) = some (n : Int) := by
  have hdigit := fun u (hu : u ∈ units (decimal n)) => digit_of_mem hu
  have hvalue : (units (decimal n)).foldl (fun n u => 10 * n + (u - 48)) 0 = n := by
    rw [units_decimal, List.foldl_map]
    exact Nat.ofDigitChars_eq_foldl.symm.trans Nat.ofDigitChars_ten_toDigits
  have hne : units (decimal n) ≠ [] := by
    rw [units_decimal]
    simpa using decimal_ne_nil n
  revert hdigit hvalue hne
  generalize units (decimal n) = us
  intro hdigit hvalue hne
  have hspace : us.dropWhile isSpace = us := dropWhile_of_head fun u hu => by
    have := hdigit u (List.mem_of_mem_head? hu)
    exact isSpace_visible u (by omega) (by omega)
  have hsign : sign us = (false, us) := by
    cases us with
    | nil => rfl
    | cons u us =>
      have := hdigit u List.mem_cons_self
      rw [sign, if_neg (by omega), if_neg (by omega)]
  have htake : us.takeWhile isDigit = us := by
    rw [List.takeWhile_eq_self_iff]
    intro u hu
    simpa [isDigit] using hdigit u hu
  unfold parseInt
  rw [hspace, hsign]
  dsimp only
  rw [htake]
  cases us with
  | nil => exact absurd rfl hne
  | cons u us =>
    dsimp only
    rw [hvalue, if_neg Bool.false_ne_true]

theorem headersOf_mem (hnodup : (ls.map Prod.fst).Nodup)
    (hl : l ∈ ls) : headersOf ls l.1 = some (decoded l.2) := by
  induction ls with
  | nil => cases hl
  | cons k ls ih =>
    rw [List.map_cons, List.nodup_cons] at hnodup
    rw [headersOf_cons]
    rcases List.mem_cons.mp hl with rfl | hmem
    · rw [if_pos rfl]
    · rw [if_neg, ih hnodup.2 hmem]
      rintro heq
      exact hnodup.1 (heq ▸ List.mem_map_of_mem hmem)

variable {p : Packet}

/-- What a well-formed message says of its length. -/
theorem Packet.WellFormed.contentLength (h : p.WellFormed) :
    p.handed.headers.get "Content-Length" >>= parseInt =
      p.body.map fun b => ((encode b).length : Int) := by
  have hbody := h.body
  cases hb : p.body with
  | none =>
    rw [hb] at hbody
    have hget : p.handed.headers.get "Content-Length" = none := headersOf_eq_none hbody
    rw [hget]
    rfl
  | some b =>
    rw [hb] at hbody
    have hget : p.handed.headers.get "Content-Length" =
        some (decoded (units (decimal (encode b).length))) := headersOf_mem h.nodup hbody
    have hraw : 37 ∉ units (decimal (encode b).length) := fun hmem => by
      have := digit_of_mem hmem
      omega
    rw [hget, decoded_raw hraw]
    exact parseInt_decimal _

/-- The message that is to be handed over is measured right exactly if its body is ASCII. -/
theorem measured_iff (h : p.WellFormed) :
    p.handed.Measured ↔ ∀ c ∈ p.body.getD [], c.toNat < 128 := by
  unfold Message.Measured
  rw [h.contentLength]
  cases hb : p.body with
  | none =>
    rw [Packet.handed, hb]
    simp
  | some b =>
    rw [Packet.handed, hb, Option.map_some, Option.getD_some, ← units_length_eq_iff]
    dsimp only
    omega

/-- **Where a message is in a text is told by the text.** -/
theorem Framed.inv {block rest last : Text} {m : Message}
    (h : Framed (block ++ 10 :: 10 :: rest) m last) (hblock : ¬ [10, 10] <:+: block ++ [10]) :
    m.headers = parseHeaders block ∧ rest = m.body ++ last ∧ m.Measured := by
  obtain ⟨block', htext, hbreak, hheaders, hmeasured⟩ := h
  have hindex : indexOf [10, 10] (block ++ 10 :: 10 :: rest) = some block.length :=
    indexOf_break hblock
  rw [htext, indexOf_break hbreak] at hindex
  obtain ⟨rfl, hrest⟩ := List.append_inj htext (Option.some.inj hindex).symm
  exact ⟨hheaders, (List.cons.inj (List.cons.inj hrest).2).2, hmeasured⟩

theorem units_ascii {cs : List Char} (h : ∀ c ∈ cs, c.toNat < 128) : ∀ u ∈ units cs, u < 128 := by
  have hunits : units cs = cs.map Char.toNat := charCodes_ofList h
  rw [hunits]
  intro u hu
  obtain ⟨c, hc, rfl⟩ := List.mem_map.mp hu
  exact h c hc

/-- A text that begins with a message. -/
theorem units_flatMap_cons (p : Packet) (ps : List Packet) :
    units ((p :: ps).flatMap Packet.text) = blockText p.pairs ++
      10 :: 10 :: (units (p.body.getD []) ++ units (ps.flatMap Packet.text)) := by
  rw [List.flatMap_cons, units_append, units_text]
  simp

variable {ps : List Packet}

/-- If the messages are handed over as they were sent, nothing was damaged. -/
theorem eq_of_handed (hps : ∀ p ∈ ps, p.WellFormed) {text rest : Text}
    (hdamaged : Damaged (units (ps.flatMap Packet.text)) text)
    (h : Frames text (ps.map Packet.handed) rest) :
    text = units (ps.flatMap Packet.text) ∧ ∀ p ∈ ps, ∀ c ∈ p.body.getD [], c.toNat < 128 := by
  induction ps generalizing text with
  | nil => exact ⟨Damaged.of_nil hdamaged, by simp⟩
  | cons p ps ih =>
    obtain ⟨hp, hps⟩ := List.forall_mem_cons.mp hps
    rw [units_flatMap_cons] at hdamaged ⊢
    obtain ⟨block, after, rfl, hblock, hafter⟩ := hdamaged.split (by decide)
    obtain ⟨body, rfl, hbody⟩ := hafter.cons_inv (by decide)
    obtain ⟨ls, rfl, hls⟩ := damaged_blockText hp.fine hblock
    obtain ⟨hfine, hnames⟩ := fine_of_damaged hp.fine hls
    rw [List.map_cons] at h
    cases h with
    | cons hm hrest =>
      obtain ⟨hheaders, hsplit, hmeasured⟩ := hm.inv (blockText_noBreak hfine)
      -- the headers are seen as they were sent, and the body is measured right
      rw [parseHeaders_block hfine (hnames ▸ hp.nodup)] at hheaders
      have hlines : ls = p.pairs := headersOf_damaged hp.nodup hp.fine hls hheaders.symm
      have hascii := (measured_iff hp).mp hmeasured
      obtain ⟨others, rfl, hothers⟩ := hbody.append_inv (units_ascii hascii)
      have hlast := List.append_cancel_left hsplit
      subst hlast
      obtain ⟨htext, hbodies⟩ := ih hps hothers hrest
      exact ⟨by rw [hlines, htext], List.forall_mem_cons.mpr ⟨hascii, hbodies⟩⟩

/-- A message that an undamaged text begins with is as it is to be handed over. -/
theorem framed_packet (hp : p.WellFormed)
    (hascii : ∀ c ∈ p.body.getD [], c.toNat < 128) (ps : List Packet) :
    Framed (units ((p :: ps).flatMap Packet.text)) p.handed (units (ps.flatMap Packet.text)) := by
  rw [units_flatMap_cons]
  exact ⟨_, rfl, blockText_noBreak hp.fine, (parseHeaders_block hp.fine hp.nodup).symm,
    (measured_iff hp).mpr hascii⟩

theorem takeMessage_packet (hp : p.WellFormed)
    (hascii : ∀ c ∈ p.body.getD [], c.toNat < 128) (ps : List Packet) :
    takeMessage (units ((p :: ps).flatMap Packet.text)) =
      some (p.handed, units (ps.flatMap Packet.text)) := by
  refine takeMessage_framed (framed_packet hp hascii ps) fun len hlen => ?_
  rw [hp.contentLength] at hlen
  obtain ⟨b, -, rfl⟩ := Option.map_eq_some_iff.mp hlen
  exact Int.natCast_nonneg _

/-- No other message is at the beginning of an undamaged text. -/
theorem Framed.unique (hp : p.WellFormed)
    (hascii : ∀ c ∈ p.body.getD [], c.toNat < 128) {m : Message} {rest : Text}
    (h : Framed (units ((p :: ps).flatMap Packet.text)) m rest) :
    m = p.handed ∧ rest = units (ps.flatMap Packet.text) := by
  have hmeasured := (measured_iff hp).mpr hascii
  rw [units_flatMap_cons] at h
  obtain ⟨hheaders, hsplit, hlength⟩ := h.inv (blockText_noBreak hp.fine)
  have hsame : m.headers = p.handed.headers := hheaders.trans (parseHeaders_block hp.fine hp.nodup)
  have hequal : (units (p.body.getD [])).length = m.body.length := by
    unfold Message.Measured at hlength hmeasured
    rw [hsame, hp.contentLength] at hlength
    rw [hp.contentLength] at hmeasured
    cases hb : p.body with
    | none =>
      rw [hb] at hlength
      have hnil : m.body = [] := hlength
      rw [hnil]
      rfl
    | some b =>
      rw [hb] at hlength hmeasured
      have hm' := hlength (Int.natCast_nonneg _)
      have hp' := hmeasured (Int.natCast_nonneg _)
      rw [Packet.handed, hb] at hp'
      exact Int.ofNat_inj.mp (hp'.trans hm'.symm)
  obtain ⟨hbody, hrest⟩ := List.append_inj hsplit hequal
  refine ⟨?_, hrest.symm⟩
  cases m
  exact congrArg₂ Message.mk hsame hbody.symm

/-- The messages in an undamaged text are those that were sent. -/
theorem handed_of_eq (hps : ∀ p ∈ ps, p.WellFormed)
    (hascii : ∀ p ∈ ps, ∀ c ∈ p.body.getD [], c.toNat < 128) {ms : List Message} {rest : Text}
    (h : Frames (units (ps.flatMap Packet.text)) ms rest) (hdone : takeMessage rest = none) :
    ms = ps.map Packet.handed := by
  induction ps generalizing ms with
  | nil =>
    cases h with
    | nil => rfl
    | cons hm => exact absurd hm.length_lt (Nat.not_lt_zero _)
  | cons p ps ih =>
    obtain ⟨hp, hps⟩ := List.forall_mem_cons.mp hps
    obtain ⟨hpascii, hascii⟩ := List.forall_mem_cons.mp hascii
    cases h with
    | nil =>
      rw [takeMessage_packet hp hpascii] at hdone
      cases hdone
    | cons hm hrest =>
      obtain ⟨rfl, rfl⟩ := hm.unique hp hpascii
      rw [List.map_cons, ih hps hascii hrest]

theorem units_flatMap (chunks : List (List UInt8)) :
    chunks.flatMap chunkText = units (chunks.flatMap decode) := by
  induction chunks with
  | nil => rfl
  | cons chunk chunks ih => rw [List.flatMap_cons, List.flatMap_cons, units_append, ih]; rfl

/-- **Exactly the messages are handed over, exactly if no chunk is cut inside a character or begins
with a byte order mark, and bodies are ASCII.** -/
theorem framing_iff {chunks : List (List UInt8)}
    (hps : ∀ p ∈ ps, p.WellFormed) (hchunks : chunks.flatten = encode (ps.flatMap Packet.text)) :
    (received chunks).1 = ps.map Packet.handed ↔
      (∀ chunk ∈ chunks, Whole chunk) ∧ ∀ p ∈ ps, ∀ c ∈ p.body.getD [], c.toNat < 128 := by
  obtain ⟨hframes, hdone⟩ := received_frames chunks
  rw [units_flatMap] at hframes
  rw [← pieces_iff hchunks]
  constructor
  · intro heq
    rw [heq] at hframes
    obtain ⟨vs, hvs, hdamaged, -⟩ := damaged_of_pieces (List.forall_mem_nil _) hchunks
    rw [← List.nil_append vs] at hdamaged
    exact eq_of_handed hps (hvs ▸ hdamaged) hframes
  · rintro ⟨hwhole, hascii⟩
    rw [hwhole] at hframes
    exact handed_of_eq hps hascii hframes hdone

end Llamenos.SipBridge.Esl
