import Mathlib.Data.List.Forall2
import Mathlib.Data.List.Induction

/-!
# Hash chains

A chain is a list of entries, newest first. Each entry has a digest and records the digest of its
parent; the oldest one records none (`Linked`).

If equal digests come from entries that agree, and entries that agree record the same parent, then
the digest of the newest entry determines the whole chain: walking back from two equal digests,
every pair of entries agrees, and both chains end at the same step, because an oldest entry agrees
with no other.

A log is read the other way round, oldest entry first, and in pieces: `Chained` says that a piece
goes on from the digest before it.

Results:
* `Linked.forall₂_of_head`: **the head's digest commits to the history**.
* `chained_append`: a log is chained piece by piece.
* `Chained.suffix_iff`: what is left of a log goes on from nothing only if none of it is missing.
* `Chained.linked`: a log from its start, newest entry first, is a chain.
-/

namespace Llamenos.Lib.HashChain

variable {E D : Type}

/-- A nonempty chain, newest entry first. -/
inductive Linked (parent : E → Option D) (digest : E → D) : List E → Prop where
  | genesis {e : E} (h : parent e = none) : Linked parent digest [e]
  | next {e prev : E} {older : List E} (h : parent e = some (digest prev))
      (hs : Linked parent digest (prev :: older)) : Linked parent digest (e :: prev :: older)

variable {parent : E → Option D} {digest : E → D}

/-- **The head's digest commits to the history.** -/
theorem Linked.forall₂_of_head {Same : E → E → Prop} {e e' : E} {es es' : List E}
    (hs : Linked parent digest (e :: es)) (hs' : Linked parent digest (e' :: es'))
    (hsame : ∀ a ∈ e :: es, ∀ b ∈ e' :: es', digest a = digest b → Same a b)
    (hparent : ∀ a b, Same a b → parent a = parent b) (hhead : digest e = digest e') :
    List.Forall₂ Same (e :: es) (e' :: es') := by
  induction es generalizing e e' es' with
  | nil =>
    have hee := hsame e List.mem_cons_self e' List.mem_cons_self hhead
    cases hs with
    | genesis h =>
      cases hs' with
      | genesis h' => exact .cons hee .nil
      | next h' _ =>
        rw [hparent e e' hee, h'] at h
        cases h
  | cons prev older ih =>
    have hee := hsame e List.mem_cons_self e' List.mem_cons_self hhead
    cases hs with
    | next h hs =>
      cases hs' with
      | genesis h' =>
        rw [hparent e e' hee, h'] at h
        cases h
      | next h' hs' =>
        rw [hparent e e' hee, h'] at h
        refine .cons hee (ih hs hs' (fun a ha b hb => ?_) (Option.some.inj h).symm)
        exact hsame a (List.mem_cons_of_mem e ha) b (List.mem_cons_of_mem e' hb)

/-! ## Logs -/

/-- A piece of a log, oldest entry first, that goes on from the digest `last`. -/
def Chained (parent : E → Option D) (digest : E → D) : Option D → List E → Prop
  | _, [] => True
  | last, e :: es => parent e = last ∧ Chained parent digest (some (digest e)) es

/-- The digest that a piece of a log ends with. -/
def lastDigest (digest : E → D) (last : Option D) (es : List E) : Option D :=
  es.getLast?.elim last fun e => some (digest e)

theorem lastDigest_cons (last : Option D) (e : E) (es : List E) :
    lastDigest digest last (e :: es) = lastDigest digest (some (digest e)) es := by
  cases es with
  | nil => rfl
  | cons d ds =>
    rw [lastDigest, lastDigest, List.getLast?_cons_cons, List.getLast?_cons, Option.elim_some,
      Option.elim_some]

/-- **A log is chained piece by piece.** -/
theorem chained_append {last : Option D} {es fs : List E} :
    Chained parent digest last (es ++ fs) ↔
      Chained parent digest last es ∧ Chained parent digest (lastDigest digest last es) fs := by
  induction es generalizing last with
  | nil => exact ⟨fun h => ⟨trivial, h⟩, fun h => h.2⟩
  | cons e es ih =>
    rw [List.cons_append, lastDigest_cons]
    constructor
    · rintro ⟨he, h⟩
      exact ⟨⟨he, (ih.mp h).1⟩, (ih.mp h).2⟩
    · rintro ⟨⟨he, hes⟩, hfs⟩
      exact ⟨he, ih.mpr ⟨hes, hfs⟩⟩

theorem chained_singleton {last : Option D} {e : E} :
    Chained parent digest last [e] ↔ parent e = last :=
  ⟨fun h => h.1, fun h => ⟨h, trivial⟩⟩

/-- **The end of a log goes on from nothing** exactly if it is all of the log, or none. -/
theorem Chained.suffix_iff {es fs : List E} (h : Chained parent digest none (es ++ fs)) :
    Chained parent digest none fs ↔ es = [] ∨ fs = [] := by
  obtain ⟨-, hfs⟩ := chained_append.mp h
  cases fs with
  | nil => exact iff_of_true trivial (.inr rfl)
  | cons f fs =>
    rcases List.eq_nil_or_concat' es with rfl | ⟨init, e, rfl⟩
    · exact iff_of_true hfs (.inl rfl)
    · rw [lastDigest, List.getLast?_concat, Option.elim_some] at hfs
      refine iff_of_false (fun hnone => ?_) (by simp)
      exact absurd (hfs.1.symm.trans hnone.1) (Option.some_ne_none _)

/-- **A log from its start is a chain**, read newest entry first. -/
theorem Chained.linked {es : List E} (h : Chained parent digest none es) (hne : es ≠ []) :
    Linked parent digest es.reverse := by
  induction es using List.reverseRecOn with
  | nil => exact absurd rfl hne
  | append_singleton init e ih =>
    obtain ⟨hinit, he⟩ := chained_append.mp h
    rw [chained_singleton] at he
    rw [List.reverse_append, List.reverse_singleton, List.singleton_append]
    rcases List.eq_nil_or_concat' init with rfl | ⟨older, prev, rfl⟩
    · exact .genesis he
    · have hlinked := ih hinit (by simp)
      rw [List.reverse_append, List.reverse_singleton, List.singleton_append] at hlinked ⊢
      rw [lastDigest, List.getLast?_concat] at he
      exact .next he hlinked

end Llamenos.Lib.HashChain
