import Llamenos.Lib.Runs
import Llamenos.Worker.Runtime

/-!
# The scheduler's lock

`orchestrator/src/lock.ts`: a file that holds the number of the process that created it. Each call
of the file system, and each probe of a process, is a step of its own, and any process may crash
before any of them. A file has an inode, which a process that has it open writes to although it may
have been removed. A process is its number; where it is started again, another process has the same
number.

A process that finds the file reads it, probes the number and, if no process has it, removes the
file that is there by then. Between the creation of a file and the write of the number, the file
cannot be read as anyone's; and between the reading and the removal, another process may have
removed the stale file and created its own.

Results:
* `step_inv`: what every step keeps, if it does not remove a file in use.
* `exclusive`: **at most one process holds the lock, in every run in which no reaper removes a file
  whose process is about to write its number, holds the lock, or is about to remove the file**.
* `reapers_race`: two processes that reap one stale file.
-/

namespace Llamenos.Orchestrator.Lock

open Llamenos.Lib Llamenos.Lib.Runs

/-! ## The code -/

/-- What a process does next. A process that has created a file keeps its inode; one that has read
the file keeps the inode that it has read. Only `writeSync` depends on it. -/
inductive Phase where
  | crashed
  | idle
  | opening (allowReap : Bool)
  | writing (inode : Nat)
  | closing (inode : Nat)
  | held (inode : Nat)
  | reading (allowReap : Bool)
  | probing (allowReap : Bool) (seen : Option Nat) (holder : Int)
  | reaping (seen : Option Nat)
  | checking (inode : Nat)
  | rereading (inode : Nat)
  | deleting (inode : Nat)
  deriving DecidableEq

structure File where
  content : String
  /-- The process that has created it, if it was not there from the start. -/
  creator : Option Nat

structure State where
  /-- The inode of `LOCK_FILE`. -/
  lockFile : Option Nat
  files : Nat → File
  next : Nat
  phase : Nat → Phase

/-- `Number.parseInt(text, 10)` of a text without white space around it; `none` for `NaN`. -/
def parseInt (text : String) : Option Int :=
  let (negative, chars) := match text.toList with
    | '-' :: chars => (true, chars)
    | '+' :: chars => (false, chars)
    | chars => (false, chars)
  match chars.takeWhile Char.isDigit with
  | [] => none
  | digits =>
    let n : Int := digits.foldl (fun n c => n * 10 + (c.toNat - 48 : Nat)) 0
    some (if negative then -n else n)

/-- `safeRead`: an empty text where the file cannot be read. -/
def safeRead (s : State) (ok : Bool) : String :=
  if ok then s.lockFile.elim "" fun i => Worker.trim (s.files i).content else ""

def goto (s : State) (p : Nat) (phase : Phase) : State :=
  { s with phase := Function.update s.phase p phase }

/-- The process's next call of the file system, or its probe. It fails, or the answer is no, if it
is not `ok`; an error other than of a file that is there is thrown. -/
def call (s : State) (p : Nat) (ok : Bool) : Option State :=
  match s.phase p with
  | .crashed | .idle | .held _ => none
  | .opening allowReap =>
    some <|
      if !ok then goto s p .idle
      else match s.lockFile with
        | some _ => goto s p (.reading allowReap)
        | none => goto
          { s with
            lockFile := some s.next
            files := Function.update s.files s.next ⟨"", some p⟩
            next := s.next + 1 } p (.writing s.next)
  | .writing i =>
    some <|
      if ok then
        goto { s with files := Function.update s.files i { s.files i with content := toString p } } p
          (.closing i)
      else goto s p .idle
  | .closing i => some <| goto s p (if ok then .held i else .idle)
  | .reading allowReap =>
    some <| goto s p <|
      match parseInt (safeRead s ok) with
      | some holder => .probing allowReap s.lockFile holder
      | none => if allowReap then .reaping s.lockFile else .idle
  | .probing allowReap seen _ =>
    some <| goto s p (if ok then .idle else if allowReap then .reaping seen else .idle)
  | .reaping _ =>
    some <| if ok then goto { s with lockFile := none } p (.opening false) else goto s p .idle
  | .checking i =>
    some <| goto s p (if ok && s.lockFile.isSome then .rereading i else .idle)
  | .rereading i =>
    some <| goto s p (if safeRead s ok = toString p then .deleting i else .idle)
  | .deleting _ =>
    some <| if ok then goto { s with lockFile := none } p .idle else goto s p .idle

/-! ## Runs -/

inductive Event where
  | start (p : Nat)
  | crash (p : Nat)
  /-- `acquire`, whose directory is there or has been made. -/
  | acquire (p : Nat)
  | call (p : Nat) (ok : Bool)
  /-- `release`, by the process that holds the lock. -/
  | release (p : Nat)

def step (s : State) : Event → Option State
  | .start p => if s.phase p = .crashed then some (goto s p .idle) else none
  | .crash p => some (goto s p .crashed)
  | .acquire p => if s.phase p = .idle then some (goto s p (.opening true)) else none
  | .call p ok => call s p ok
  | .release p =>
    match s.phase p with
    | .held i => some (goto s p (.checking i))
    | _ => none

/-- No process is at work, and there may be a file with any text. -/
structure Initial (s : State) : Prop where
  phase : ∀ p, s.phase p = .crashed ∨ s.phase p = .idle
  lockFile : s.lockFile = none ∨ s.lockFile = some 0
  next : s.next = 1
  creator : ∀ j, (s.files j).creator = none

/-- The process has created the file, and has not released the lock yet. -/
def Phase.Busy (i : Nat) : Phase → Prop
  | .writing j | .closing j | .held j | .checking j | .rereading j | .deleting j => j = i
  | _ => False

/-- The process has created the file, and is about to write its number, holds the lock, or is about
to remove the file. -/
def Phase.Uses (i : Nat) : Phase → Prop
  | .writing j | .closing j | .held j | .deleting j => j = i
  | _ => False

instance (i : Nat) (phase : Phase) : Decidable (phase.Uses i) := by
  unfold Phase.Uses
  split <;> infer_instance

theorem Phase.Uses.busy {i : Nat} {phase : Phase} (h : phase.Uses i) : phase.Busy i := by
  unfold Phase.Uses at h
  split at h <;> first | exact h | exact h.elim

/-- A reaper does not remove a file that its creator uses. -/
def Reaps (s : State) : Event → Prop
  | .call p true =>
    match s.phase p with
    | .reaping _ => ∀ i ∈ s.lockFile, ∀ c ∈ (s.files i).creator, ¬ (s.phase c).Uses i
    | _ => True
  | _ => True

instance (s : State) (e : Event) : Decidable (Reaps s e) := by
  unfold Reaps
  split
  · split <;> infer_instance
  · infer_instance

/-! ## What every step keeps -/

/-- A file in use is the lock file. A process at work has created its file, and none since; and no
older file is the lock file. What a file holds is its creator's number, or nothing yet. -/
structure Inv (s : State) : Prop where
  uses : ∀ p i, (s.phase p).Uses i → s.lockFile = some i
  creator : ∀ p i, (s.phase p).Busy i → (s.files i).creator = some p
  last : ∀ p i, (s.phase p).Busy i → ∀ j, i < j → (s.files j).creator ≠ some p
  older : ∀ p i, (s.phase p).Busy i → ∀ j ∈ s.lockFile, i ≤ j
  content : ∀ j c, (s.files j).creator = some c →
    (s.files j).content = "" ∨ (s.files j).content = toString c
  created : ∀ j, 0 < j → j < s.next → (s.files j).creator.isSome
  next : ∀ j ∈ s.lockFile, j < s.next
  fresh : ∀ j, s.next ≤ j → (s.files j).creator = none
  pos : 0 < s.next

variable {s s' : State} {p : Nat} {e : Event}

theorem goto_phase (s : State) (p q : Nat) (phase : Phase) :
    (goto s p phase).phase q = if q = p then phase else s.phase q := by
  exact Function.update_apply s.phase p phase q

/-- A process that goes on with its own file, if it has one. -/
theorem Inv.goto (h : Inv s) (p : Nat) {phase : Phase}
    (hbusy : ∀ i, phase.Busy i → (s.phase p).Busy i)
    (huses : ∀ i, phase.Uses i → s.lockFile = some i) : Inv (goto s p phase) := by
  have hof : ∀ q i, ((Lock.goto s p phase).phase q).Busy i → (s.phase q).Busy i := by
    intro q i hq
    rw [goto_phase] at hq
    split_ifs at hq with hqp
    · rw [hqp]
      exact hbusy i hq
    · exact hq
  refine ⟨fun q i hq => ?_, fun q i hq => h.creator q i (hof q i hq),
    fun q i hq => h.last q i (hof q i hq), fun q i hq => h.older q i (hof q i hq), h.content,
    h.created, h.next, h.fresh, h.pos⟩
  rw [goto_phase] at hq
  split_ifs at hq with hqp
  · exact huses i hq
  · exact h.uses q i hq

/-- A process that has no file goes on without. -/
theorem Inv.goto_off (h : Inv s) (p : Nat) {phase : Phase} (hoff : ∀ i, ¬ phase.Busy i) :
    Inv (Lock.goto s p phase) :=
  h.goto p (fun i hi => absurd hi (hoff i)) fun i hi => absurd hi.busy (hoff i)

/-- A process that creates the lock file. -/
theorem Inv.create (h : Inv s) (p : Nat) (hnone : s.lockFile = none) :
    Inv (Lock.goto
      { s with
        lockFile := some s.next
        files := Function.update s.files s.next ⟨"", some p⟩
        next := s.next + 1 } p (.writing s.next)) := by
  have hphase (q : Nat) := goto_phase
    { s with
      lockFile := some s.next
      files := Function.update s.files s.next ⟨"", some p⟩
      next := s.next + 1 } p q (.writing s.next)
  have hfile (j : Nat) : Function.update s.files s.next ⟨"", some p⟩ j =
      if j = s.next then ⟨"", some p⟩ else s.files j := Function.update_apply _ _ _ j
  -- the files of the processes at work are older
  have hlt : ∀ q i, (s.phase q).Busy i → i < s.next := by
    intro q i hq
    by_contra hge
    have hcreator := h.creator q i hq
    rw [h.fresh i (Nat.le_of_not_lt hge)] at hcreator
    cases hcreator
  constructor
  · intro q i hq
    rw [hphase] at hq
    split_ifs at hq
    · exact congrArg some hq
    · exact absurd ((h.uses q i hq).symm.trans hnone) (by simp)
  · intro q i hq
    rw [hphase] at hq
    dsimp only [Lock.goto]
    rw [hfile]
    split_ifs at hq with hqp
    · obtain rfl : s.next = i := hq
      rw [if_pos rfl, hqp]
    · rw [if_neg (Nat.ne_of_lt (hlt q i hq))]
      exact h.creator q i hq
  · intro q i hq j hj
    rw [hphase] at hq
    dsimp only [Lock.goto]
    rw [hfile]
    split_ifs at hq with hqp
    · obtain rfl : s.next = i := hq
      rw [if_neg (Nat.ne_of_gt hj), h.fresh j (Nat.le_of_lt hj)]
      simp
    · split_ifs
      · exact fun heq => hqp (Option.some.inj heq).symm
      · exact h.last q i hq j hj
  · intro q i hq j hj
    obtain rfl := Option.some.inj hj
    rw [hphase] at hq
    split_ifs at hq
    · exact Nat.le_of_eq hq.symm
    · exact Nat.le_of_lt (hlt q i hq)
  · intro j c hc
    dsimp only [Lock.goto] at hc ⊢
    rw [hfile] at hc ⊢
    split_ifs at hc ⊢
    · exact .inl rfl
    · exact h.content j c hc
  · intro j hj hlt
    dsimp only [Lock.goto] at hlt ⊢
    rw [hfile]
    split_ifs
    · rfl
    · exact h.created j hj (by omega)
  · intro j hj
    obtain rfl := Option.some.inj hj
    exact Nat.lt_succ_self s.next
  · intro j hj
    dsimp only [Lock.goto] at hj ⊢
    rw [hfile, if_neg (by omega)]
    exact h.fresh j (by omega)
  · exact Nat.succ_pos s.next

/-- A process that writes its number into the file that it has created. -/
theorem Inv.write (h : Inv s) {p i : Nat} (hp : s.phase p = .writing i) :
    Inv (Lock.goto
      { s with
        files := Function.update s.files i { s.files i with content := toString p } } p
      (.closing i)) := by
  have hown : (s.files i).creator = some p := h.creator p i (hp ▸ rfl)
  have hcreator (j : Nat) : (Function.update s.files i { s.files i with content := toString p }
      j).creator = (s.files j).creator := by
    rw [Function.update_apply]
    split_ifs with hj
    · rw [hj]
    · rfl
  have hwritten : Inv { s with
      files := Function.update s.files i { s.files i with content := toString p } } := by
    refine ⟨h.uses, fun q j hq => ?_, fun q j hq k hk => ?_, h.older, fun j c hc => ?_,
      fun j hj hlt => ?_, h.next, fun j hj => ?_, h.pos⟩
    · exact (hcreator j).trans (h.creator q j hq)
    · exact (hcreator k).symm ▸ h.last q j hq k hk
    · have hc' : (s.files j).creator = some c := (hcreator j).symm.trans hc
      dsimp only
      rw [Function.update_apply]
      split_ifs with hj
      · rw [hj, hown] at hc'
        exact .inr (congrArg toString (Option.some.inj hc'))
      · exact h.content j c hc'
    · exact (hcreator j).symm ▸ h.created j hj hlt
    · exact (hcreator j).trans (h.fresh j hj)
  refine hwritten.goto p (fun j hj => ?_) fun j hj => ?_
  · exact hp ▸ hj
  · exact h.uses p j (hp ▸ hj)

/-- The lock file is removed, when no process uses it. -/
theorem Inv.remove (h : Inv s) {p : Nat} {phase : Phase} (hoff : ∀ i, ¬ phase.Busy i)
    (hfree : ∀ q, q ≠ p → ∀ i, ¬ (s.phase q).Uses i) :
    Inv (Lock.goto { s with lockFile := none } p phase) := by
  have hof : ∀ q i, ((Lock.goto { s with lockFile := none } p phase).phase q).Busy i →
      q ≠ p ∧ (s.phase q).Busy i := by
    intro q i hq
    rw [goto_phase] at hq
    split_ifs at hq with hqp
    · exact absurd hq (hoff i)
    · exact ⟨hqp, hq⟩
  refine ⟨fun q i hq => ?_, fun q i hq => h.creator q i (hof q i hq).2,
    fun q i hq => h.last q i (hof q i hq).2, fun q i _ j hj => ?_, h.content, h.created,
    fun j hj => ?_, h.fresh, h.pos⟩
  · rw [goto_phase] at hq
    split_ifs at hq with hqp
    · exact absurd hq.busy (hoff i)
    · exact absurd hq (hfree q hqp i)
  · cases hj
  · cases hj

/-- A file is used by its creator only. -/
theorem Inv.uses_creator (h : Inv s) {p q i j : Nat} (hp : (s.phase p).Uses i)
    (hq : (s.phase q).Uses j) : q = p := by
  have hfile := (h.uses p i hp).symm.trans (h.uses q j hq)
  have hcreator := h.creator q j hq.busy
  rw [← Option.some.inj hfile, h.creator p i hp.busy] at hcreator
  exact (Option.some.inj hcreator).symm

theorem trim_toString (p : Nat) : Worker.trim (toString p) = toString p := by
  have hspace : ∀ c ∈ decimal p, Worker.isSpace c = false := by
    intro c hc
    have hdigit := isDigit_iff_toNat.mp (isDigit_of_mem_decimal hc)
    simp only [Worker.isSpace, Bool.or_eq_false_iff, Bool.and_eq_false_iff, decide_eq_false_iff_not]
    refine ⟨?_, .inl (by omega)⟩
    simp only [List.contains_cons, List.contains_nil, Bool.or_false, Bool.or_eq_false_iff,
      beq_eq_false_iff_ne]
    omega
  have hdrop : ∀ {cs : List Char}, (∀ c ∈ cs, Worker.isSpace c = false) →
      cs.dropWhile Worker.isSpace = cs := by
    intro cs hcs
    cases cs with
    | nil => rfl
    | cons c cs => exact List.dropWhile_cons_of_neg (by simp [hcs c List.mem_cons_self])
  have hlist : (toString p).toList = decimal p := toList_toString p
  rw [Worker.trim, hlist, hdrop hspace,
    hdrop fun c hc => hspace c (List.mem_reverse.mp hc), List.reverse_reverse, ← hlist,
    String.ofList_toList]

/-- A process that finds its number in the lock file finds its own file there. -/
theorem Inv.own (h : Inv s) {p i : Nat} (hp : (s.phase p).Busy i) {ok : Bool}
    (hread : safeRead s ok = toString p) : s.lockFile = some i := by
  have hdigits : (toString p).toList = decimal p := toList_toString p
  have hne : toString p ≠ "" := by
    intro hempty
    rw [hempty] at hdigits
    exact decimal_ne_nil p hdigits.symm
  unfold safeRead at hread
  split_ifs at hread
  · cases hfile : s.lockFile with
    | none =>
      rw [hfile] at hread
      exact absurd hread.symm hne
    | some j =>
      rw [hfile] at hread
      have hij := h.older p i hp j hfile
      rcases Nat.eq_or_lt_of_le hij with rfl | hlt
      · rfl
      obtain ⟨c, hc⟩ :=
        Option.isSome_iff_exists.mp (h.created j (Nat.zero_lt_of_lt hlt) (h.next j hfile))
      rcases h.content j c hc with hempty | hnumber
      · rw [Option.elim_some, hempty] at hread
        exact absurd hread.symm hne
      · rw [Option.elim_some, hnumber, trim_toString] at hread
        have hcp : decimal c = decimal p := by
          have hlist := congrArg String.toList hread
          rwa [toList_toString, toList_toString] at hlist
        exact absurd (decimal_inj.mp hcp ▸ hc) (h.last p i hp j hlt)
  · exact absurd hread.symm hne

/-- A call keeps the invariant, if it does not remove a file in use. -/
theorem call_inv {ok : Bool} (h : Inv s) (hreaps : Reaps s (.call p ok))
    (hstep : call s p ok = some s') : Inv s' := by
  cases hp : s.phase p with
  | crashed | idle | held i =>
    simp only [call, hp] at hstep
    cases hstep
  | «opening» allowReap =>
    simp only [call, hp, Option.some.injEq] at hstep
    subst hstep
    split_ifs
    · exact h.goto_off p fun i => id
    · split
      · exact h.goto_off p fun i => id
      · exact h.create p ‹_›
  | writing i =>
    simp only [call, hp, Option.some.injEq] at hstep
    subst hstep
    split_ifs
    · exact h.write hp
    · exact h.goto_off p fun i => id
  | closing i =>
    simp only [call, hp, Option.some.injEq] at hstep
    subst hstep
    split_ifs
    · exact h.goto p (fun j hj => hp ▸ hj) fun j hj => h.uses p j (hp ▸ hj)
    · exact h.goto_off p fun i => id
  | reading allowReap =>
    simp only [call, hp, Option.some.injEq] at hstep
    subst hstep
    refine h.goto_off p fun i => ?_
    split
    · exact id
    · split_ifs <;> exact id
  | probing allowReap seen holder =>
    simp only [call, hp, Option.some.injEq] at hstep
    subst hstep
    refine h.goto_off p fun i => ?_
    split_ifs <;> exact id
  | reaping seen =>
    simp only [call, hp, Option.some.injEq] at hstep
    subst hstep
    split_ifs with hok
    · subst hok
      simp only [Reaps, hp] at hreaps
      refine h.remove (fun i => id) fun q _ i hq => ?_
      exact hreaps i (h.uses q i hq) q (h.creator q i hq.busy) hq
    · exact h.goto_off p fun i => id
  | checking i =>
    simp only [call, hp, Option.some.injEq] at hstep
    subst hstep
    split_ifs
    · exact h.goto p (fun j hj => hp ▸ hj) fun j => False.elim
    · exact h.goto_off p fun i => id
  | rereading i =>
    simp only [call, hp, Option.some.injEq] at hstep
    subst hstep
    have hbusy : (s.phase p).Busy i := hp ▸ rfl
    split_ifs with hread
    · refine h.goto p (fun j hj => hp ▸ hj) fun j hj => ?_
      rw [h.own hbusy hread]
      exact congrArg some hj
    · exact h.goto_off p fun i => id
  | deleting i =>
    simp only [call, hp, Option.some.injEq] at hstep
    subst hstep
    have huses : (s.phase p).Uses i := hp ▸ rfl
    split_ifs
    · exact h.remove (fun i => id) fun q hqp j hq => hqp (h.uses_creator huses hq)
    · exact h.goto_off p fun i => id

/-- **What every step keeps**, if it does not remove a file in use. -/
theorem step_inv (h : Inv s) (hreaps : Reaps s e) (hstep : step s e = some s') : Inv s' := by
  cases e with
  | start p =>
    simp only [step] at hstep
    split_ifs at hstep
    obtain rfl := Option.some.inj hstep
    exact h.goto_off p fun i => id
  | crash p =>
    obtain rfl := Option.some.inj hstep
    exact h.goto_off p fun i => id
  | acquire p =>
    simp only [step] at hstep
    split_ifs at hstep
    obtain rfl := Option.some.inj hstep
    exact h.goto_off p fun i => id
  | call p ok => exact call_inv h hreaps hstep
  | release p =>
    simp only [step] at hstep
    split at hstep
    · rename_i i hp
      obtain rfl := Option.some.inj hstep
      exact h.goto p (fun j hj => hp ▸ hj) fun j => False.elim
    · cases hstep

theorem Initial.inv (h : Initial s) : Inv s := by
  have hoff : ∀ p i, ¬ (s.phase p).Busy i := by
    intro p i
    rcases h.phase p with hp | hp <;> rw [hp] <;> exact id
  have hnone : ∀ {j c}, (s.files j).creator ≠ some c := by
    intro j c
    rw [h.creator j]
    simp
  refine ⟨fun p i hi => absurd hi.busy (hoff p i), fun p i hi => absurd hi (hoff p i),
    fun p i hi => absurd hi (hoff p i), fun p i hi => absurd hi (hoff p i),
    fun j c hc => absurd hc hnone, fun j hj hlt => ?_, fun j hj => ?_, fun j _ => h.creator j, ?_⟩
  · rw [h.next] at hlt
    omega
  · rw [h.next]
    rcases h.lockFile with hfile | hfile
    · rw [hfile] at hj
      cases hj
    · rw [hfile] at hj
      obtain rfl := Option.some.inj hj
      exact Nat.zero_lt_one
  · rw [h.next]
    exact Nat.zero_lt_one

/-- **At most one process holds the lock**, if no reaper removes a file that its creator uses. -/
theorem exclusive {t : State} {events : List Event} (hs : Initial s)
    (hreaps : Along step Reaps s events) (h : run step s events = some t) {p q i j : Nat}
    (hp : t.phase p = .held i) (hq : t.phase q = .held j) : p = q := by
  have hinv : Inv t :=
    run_inv_along (fun _ _ _ hi hr hstep => step_inv hi hr hstep) hs.inv hreaps h
  have hpuses : (t.phase p).Uses i := hp ▸ rfl
  have hquses : (t.phase q).Uses j := hq ▸ rfl
  exact hinv.uses_creator hquses hpuses

/-! ## Two runs -/

/-- A stale file of the process 7, and idle processes. -/
def stale : State where
  lockFile := some 0
  files _ := ⟨"7", none⟩
  next := 1
  phase _ := .idle

theorem stale_initial : Initial stale where
  phase _ := .inr rfl
  lockFile := .inr rfl
  next := rfl
  creator _ := rfl

/-- A process that finds the file, reads it, and is told that its process is gone. -/
def findsStale (p : Nat) : List Event :=
  [.acquire p, .call p true, .call p true, .call p false]

/-- A process that removes the file and creates its own. -/
def takesOver (p : Nat) : List Event :=
  [.call p true, .call p true, .call p true, .call p true]

/-- One process takes over, and another one then finds its file. -/
theorem takeover_exclusive : ∃ t, run step stale (findsStale 1 ++ takesOver 1 ++
      [.acquire 2, .call 2 true, .call 2 true, .call 2 true]) = some t ∧
    t.phase 1 = .held 1 ∧ ∀ p i, t.phase p = .held i → p = 1 := by
  have hreaps : Along step Reaps stale (findsStale 1 ++ takesOver 1 ++
      [.acquire 2, .call 2 true, .call 2 true, .call 2 true]) := by decide
  exact ⟨_, rfl, rfl, fun p i hp => exclusive stale_initial hreaps rfl hp rfl⟩

/-- Two processes find the stale file; the second one removes the file of the first, and both hold
the lock. -/
theorem reapers_race :
    (run step stale (findsStale 1 ++ findsStale 2 ++ takesOver 1 ++ takesOver 2)).map
      (fun t => (t.phase 1, t.phase 2)) = some (.held 1, .held 2) := by
  decide

end Llamenos.Orchestrator.Lock
