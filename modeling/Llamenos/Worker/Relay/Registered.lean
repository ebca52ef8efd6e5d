import Llamenos.Worker.Relay

/-!
# Registered connections

A connection is registered when the user of an auth message has been found, and unregistered by the
close event of its socket, which knows the last connection that the socket was given. So a
connection stays for good if it is registered after the close event, or if its socket is given
another one.

The server may call `ws.close` at any time. A socket counts as open until its close event. The
events here are those of sockets and lookups: `terminateUser` takes connections away from sockets
that are still open.

Results:
* `move_sound`, `run_sound`: which socket a connection is of.
* `move_matches`, `move_broken`: what keeps the registered connections those of the open sockets,
  and that there is no way back.
* `registered_iff`: **the registered connections are those of the open sockets that have been
  accepted exactly if each accepted socket was open, and had no connection**.
* `registered_after_close`: a socket closes while its user is looked up.
-/

namespace Llamenos.Worker.Relay

open Llamenos.Lib
open Llamenos.Worker.Ws (mem_add mem_delete)

/-! ## What is to hold -/

/-- The socket is open, and it has been accepted with this connection. -/
def Seat.Holds (seat : Seat) (id : Nat) : Prop :=
  seat.phase ≠ .closed ∧ seat.accepted = true ∧ seat.connState = some id

def Held (v : View) (id : Nat) : Prop := ∃ k seat, v.sockets k = some seat ∧ seat.Holds id

/-- The registered connections are those of the open sockets that have been accepted, each
registered once. -/
structure Matches (v : View) : Prop where
  registered : ∀ pubkey id, id ∈ v.connections pubkey ↔ Held v id ∧ v.pubkeys id = some pubkey
  once : ∀ pubkey, (v.connections pubkey).Nodup

/-- A registered connection is no open socket's. -/
def Broken (v : View) : Prop :=
  ∃ pubkey, ∃ id ∈ v.connections pubkey, ∀ k seat, v.sockets k = some seat →
    seat.phase ≠ .closed → seat.connState ≠ some id

/-- Where the user has room for another connection, the socket is open and has not been accepted
before; where not, it is not an open one that has. -/
def Seat.Admits (seat : Seat) (full : Prop) : Prop :=
  (full ∧ seat.phase = .closed) ∨ (seat.accepted = false ∧ (full ∨ seat.phase ≠ .closed))

def Move.InTurn (v : View) : Move → Prop
  | .authenticate k pubkey => ∀ seat ∈ v.sockets k,
      seat.Admits (Ws.MAX_CONNECTIONS_PER_USER ≤ (v.connections pubkey).length)
  | _ => True

/-- A socket opens once, and closes once. -/
def Move.Possible (v : View) : Move → Prop
  | .open k => v.sockets k = none
  | .close k => ∀ seat, v.sockets k = some seat → seat.phase ≠ .closed
  | _ => True

def InTurn (prims : RelayPrims) (r : Server) (e : Event) : Prop :=
  (moveOf prims r e).InTurn (view r)

instance (seat : Seat) (full : Prop) [Decidable full] : Decidable (seat.Admits full) := by
  unfold Seat.Admits
  infer_instance

instance (v : View) (m : Move) : Decidable (m.InTurn v) := by
  cases m <;> unfold Move.InTurn <;> infer_instance

instance (prims : RelayPrims) (r : Server) (e : Event) : Decidable (InTurn prims r e) := by
  unfold InTurn
  infer_instance

/-! ## Whose connections there are -/

structure Sound (v : View) : Prop where
  fresh : ∀ id, v.next ≤ id → v.pubkeys id = none
  own : ∀ k seat id, v.sockets k = some seat → seat.connState = some id →
    v.ws id = some k ∧ (v.pubkeys id).isSome
  accepted : ∀ k seat, v.sockets k = some seat → seat.accepted = true → seat.connState.isSome
  keyed : ∀ pubkey, ∀ id ∈ v.connections pubkey, v.pubkeys id = some pubkey
  nodup : ∀ pubkey, (v.connections pubkey).Nodup

variable {v : View}

theorem Sound.ne_next (hv : Sound v) {id : Nat} (h : (v.pubkeys id).isSome) : id ≠ v.next := by
  rintro rfl
  rw [hv.fresh _ le_rfl] at h
  cases h

theorem Sound.mem_ne_next (hv : Sound v) {pubkey : String} {id : Nat}
    (h : id ∈ v.connections pubkey) : id ≠ v.next :=
  hv.ne_next (Option.isSome_iff_exists.mpr ⟨pubkey, hv.keyed pubkey id h⟩)

/-- A connection is one socket's only. -/
theorem Sound.socket_eq (hv : Sound v) {k k' id : Nat} {seat seat' : Seat}
    (hk : v.sockets k = some seat) (hid : seat.connState = some id)
    (hk' : v.sockets k' = some seat') (hid' : seat'.connState = some id) : k = k' :=
  Option.some.inj ((hv.own k seat id hk hid).1.symm.trans (hv.own k' seat' id hk' hid').1)

/-- Sockets that keep their connections. -/
theorem Sound.of_sockets (hv : Sound v) {v' : View} (hnext : v'.next = v.next) (hws : v'.ws = v.ws)
    (hpubkeys : v'.pubkeys = v.pubkeys)
    (hconns : ∀ pubkey, (v'.connections pubkey).Sublist (v.connections pubkey))
    (hsockets : ∀ k seat', v'.sockets k = some seat' → seat' = {} ∨
      ∃ seat, v.sockets k = some seat ∧ seat'.connState = seat.connState ∧
        (seat'.accepted = true → seat.accepted = true)) : Sound v' where
  fresh id hid := by
    rw [hpubkeys]
    exact hv.fresh id (hnext ▸ hid)
  own k seat' id hk hid := by
    rw [hws, hpubkeys]
    rcases hsockets k seat' hk with rfl | ⟨seat, hseat, hconn, -⟩
    · cases hid
    · exact hv.own k seat id hseat (hconn ▸ hid)
  accepted k seat' hk haccepted := by
    rcases hsockets k seat' hk with rfl | ⟨seat, hseat, hconn, hbefore⟩
    · cases haccepted
    · exact hconn ▸ hv.accepted k seat hseat (hbefore haccepted)
  keyed pubkey id hid := by
    rw [hpubkeys]
    exact hv.keyed pubkey id ((hconns pubkey).subset hid)
  nodup pubkey := (hv.nodup pubkey).sublist (hconns pubkey)

theorem authenticate_sound (hv : Sound v) {k : Nat} {seat : Seat} (pubkey : String) :
    Sound (v.authenticate k pubkey seat) where
  fresh id hid := by
    have hne : id ≠ v.next := Nat.ne_of_gt hid
    simp only [View.authenticate, Function.update_of_ne hne]
    exact hv.fresh id (Nat.le_of_succ_le hid)
  own j seat' id hj hid := by
    simp only [View.authenticate] at hj ⊢
    rcases Runs.update_eq_some hj with ⟨rfl, hnew⟩ | ⟨hne, hold⟩
    · obtain rfl : v.next = id := by
        obtain rfl := Option.some.inj hnew
        split_ifs at hid <;> exact Option.some.inj hid
      exact ⟨Function.update_self _ _ _, by rw [Function.update_self]; rfl⟩
    · obtain ⟨hws, hkey⟩ := hv.own j seat' id hold hid
      have hid' := hv.ne_next hkey
      rw [Function.update_of_ne hid', Function.update_of_ne hid']
      exact ⟨hws, hkey⟩
  accepted j seat' hj haccepted := by
    simp only [View.authenticate] at hj
    rcases Runs.update_eq_some hj with ⟨-, hnew⟩ | ⟨-, hold⟩
    · obtain rfl := Option.some.inj hnew
      split_ifs <;> rfl
    · exact hv.accepted j seat' hold haccepted
  keyed key id hid := by
    have hold : ∀ id ∈ v.connections key, Function.update v.pubkeys v.next (some pubkey) id =
        some key := by
      intro id hid
      rw [Function.update_of_ne (hv.mem_ne_next hid)]
      exact hv.keyed key id hid
    simp only [View.authenticate] at hid ⊢
    split_ifs at hid with hfull
    · exact hold id hid
    · by_cases hkey : key = pubkey
      · subst hkey
        rw [Function.update_self, mem_add] at hid
        rcases hid with hid | rfl
        · exact hold id hid
        · exact Function.update_self _ _ _
      · rw [Function.update_of_ne hkey] at hid
        exact hold id hid
  nodup key := by
    have hnew : v.next ∉ v.connections pubkey := fun hid => hv.mem_ne_next hid rfl
    simp only [View.authenticate]
    split_ifs with hfull
    · exact hv.nodup key
    · by_cases hkey : key = pubkey
      · rw [hkey, Function.update_self, Ws.add, if_neg hnew, ← List.concat_eq_append,
          List.nodup_concat]
        exact ⟨hnew, hv.nodup pubkey⟩
      · rw [Function.update_of_ne hkey]
        exact hv.nodup key

/-- What a socket's close event leaves. -/
theorem unregister_spec (v : View) (seat : Seat) :
    (v.unregister seat).next = v.next ∧ (v.unregister seat).ws = v.ws ∧
      (v.unregister seat).pubkeys = v.pubkeys ∧ (v.unregister seat).sockets = v.sockets ∧
      ∀ pubkey, (v.unregister seat).connections pubkey = (v.connections pubkey).filter fun id =>
        ¬ (seat.connState = some id ∧ v.pubkeys id = some pubkey) := by
  have hkeep : ∀ (ids : List Nat) (p : Nat → Prop) [DecidablePred p], (∀ id, ¬ p id) →
      ids = ids.filter fun id => ¬ p id := by
    intro ids p _ hp
    exact (List.filter_eq_self.mpr fun id _ => decide_eq_true (hp id)).symm
  unfold View.unregister
  cases hconn : seat.connState with
  | none =>
    refine ⟨rfl, rfl, rfl, rfl, fun pubkey => hkeep _ _ fun id h => ?_⟩
    cases h.1
  | some id =>
    cases hkey : v.pubkeys id with
    | none =>
      simp only [hkey, Option.elim_none, true_and]
      refine fun pubkey => hkeep _ _ fun i h => ?_
      obtain rfl := Option.some.inj h.1
      rw [hkey] at h
      cases h.2
    | some key =>
      simp only [hkey, Option.elim_some, true_and]
      intro pubkey
      by_cases hpubkey : pubkey = key
      · subst hpubkey
        rw [Function.update_self, Ws.delete]
        refine List.filter_congr fun i _ => decide_eq_decide.mpr (not_congr ?_)
        constructor
        · rintro rfl
          exact ⟨rfl, hkey⟩
        · rintro ⟨hi, -⟩
          exact (Option.some.inj hi).symm
      · rw [Function.update_of_ne hpubkey]
        refine hkeep _ _ fun i h => ?_
        obtain rfl := Option.some.inj h.1
        rw [hkey] at h
        exact hpubkey (Option.some.inj h.2).symm

/-- The socket that `ws.close` is called on, and no other one, may have another phase. -/
theorem shut_sockets {k k' : Nat} {seat' : Seat}
    (h : (v.move (.shut k)).sockets k' = some seat') : ∃ seat, v.sockets k' = some seat ∧
      (seat' = seat ∨ seat' = seat.close) := by
  rcases Runs.update_eq_some h with ⟨rfl, hshut⟩ | ⟨-, hsame⟩
  · obtain ⟨seat, hseat, rfl⟩ := Option.map_eq_some_iff.mp hshut
    exact ⟨seat, hseat, .inr rfl⟩
  · exact ⟨seat', hsame, .inl rfl⟩

/-- **A move keeps each connection its socket's.** -/
theorem move_sound (hv : Sound v) (m : Move) : Sound (v.move m) := by
  cases m with
  | stay => exact hv
  | «open» k =>
    refine hv.of_sockets rfl rfl rfl (fun _ => List.Sublist.refl _) fun j seat' hj => ?_
    rcases Runs.update_eq_some hj with ⟨-, hnew⟩ | ⟨-, hold⟩
    · exact .inl (Option.some.inj hnew).symm
    · exact .inr ⟨seat', hold, rfl, id⟩
  | shut k =>
    refine hv.of_sockets rfl rfl rfl (fun _ => List.Sublist.refl _) fun j seat' hj => ?_
    obtain ⟨seat, hseat, rfl | rfl⟩ := shut_sockets hj
    · exact .inr ⟨_, hseat, rfl, id⟩
    · exact .inr ⟨seat, hseat, rfl, id⟩
  | authenticate k pubkey =>
    rw [View.move]
    cases hseat : v.sockets k with
    | none => exact hv
    | some seat => exact authenticate_sound hv pubkey
  | close k =>
    rw [View.move]
    cases hseat : v.sockets k with
    | none => exact hv
    | some seat =>
      rw [Option.elim_some]
      obtain ⟨hnext, hws, hpubkeys, hsockets, hconns⟩ := unregister_spec
        { v with
          sockets := Function.update v.sockets k
            (some { seat with phase := .closed, accepted := false }) } seat
      refine hv.of_sockets hnext hws hpubkeys (fun pubkey => ?_) fun j seat' hj => ?_
      · rw [hconns]
        exact List.filter_sublist
      · rw [hsockets] at hj
        rcases Runs.update_eq_some hj with ⟨rfl, hnew⟩ | ⟨-, hold⟩
        · obtain rfl := Option.some.inj hnew
          exact .inr ⟨seat, hseat, rfl, fun h => by cases h⟩
        · exact .inr ⟨seat', hold, rfl, id⟩
  | terminate pubkey =>
    refine hv.of_sockets rfl rfl rfl (fun key => ?_) fun j seat' hj => ?_
    · simp only [View.move]
      by_cases hkey : key = pubkey
      · rw [hkey, Function.update_self]
        exact List.nil_sublist _
      · rw [Function.update_of_ne hkey]
    · simp only [View.move] at hj
      split_ifs at hj
      · obtain ⟨seat, hseat, rfl⟩ := Option.map_eq_some_iff.mp hj
        exact .inr ⟨seat, hseat, rfl, id⟩
      · exact .inr ⟨seat', hj, rfl, id⟩

/-! ## What keeps connections with their sockets -/

theorem Seat.close_holds {seat : Seat} {id : Nat} : seat.close.Holds id ↔ seat.Holds id := by
  unfold Seat.Holds Seat.close
  cases seat.phase <;> simp

/-- Who holds a connection, after one socket has changed. -/
theorem held_update {v' : View} {k : Nat} {seat : Seat} {id : Nat}
    (h : v'.sockets = Function.update v.sockets k (some seat)) :
    Held v' id ↔ seat.Holds id ∨ ∃ j seat', j ≠ k ∧ v.sockets j = some seat' ∧ seat'.Holds id := by
  unfold Held
  rw [h]
  constructor
  · rintro ⟨j, seat', hj, hholds⟩
    rcases Runs.update_eq_some hj with ⟨-, hnew⟩ | ⟨hne, hold⟩
    · obtain rfl := Option.some.inj hnew
      exact .inl hholds
    · exact .inr ⟨j, seat', hne, hold, hholds⟩
  · rintro (hholds | ⟨j, seat', hne, hold, hholds⟩)
    · exact ⟨k, seat, Function.update_self _ _ _, hholds⟩
    · exact ⟨j, seat', (Function.update_of_ne hne _ _).trans hold, hholds⟩

/-- A socket that holds what it held. -/
theorem held_congr {v' : View} {k : Nat} {seat seat' : Seat} {id : Nat}
    (h : v'.sockets = Function.update v.sockets k (some seat')) (hseat : v.sockets k = some seat)
    (hholds : seat'.Holds id ↔ seat.Holds id) : Held v' id ↔ Held v id := by
  have hsame : v.sockets = Function.update v.sockets k (some seat) := by
    rw [← hseat, Function.update_eq_self]
  rw [held_update h, held_update hsame, hholds]

theorem Held.pubkey (hv : Sound v) {id : Nat} (h : Held v id) : (v.pubkeys id).isSome := by
  obtain ⟨k, seat, hseat, -, -, hid⟩ := h
  exact (hv.own k seat id hseat hid).2

theorem Matches.of_held (hm : Matches v) {v' : View} (hconns : v'.connections = v.connections)
    (hpubkeys : v'.pubkeys = v.pubkeys) (hheld : ∀ id, Held v' id ↔ Held v id) : Matches v' where
  registered pubkey id := by
    rw [hconns, hpubkeys, hheld]
    exact hm.registered pubkey id
  once pubkey := hconns ▸ hm.once pubkey

/-- A user that has no room: nothing is held, and nothing registered, that was not before. -/
theorem refused_matches (hv : Sound v) (hm : Matches v) {k : Nat} {seat : Seat}
    (hseat : v.sockets k = some seat) {pubkey : String}
    (hfull : Ws.MAX_CONNECTIONS_PER_USER ≤ (v.connections pubkey).length)
    (hadmits : seat.phase = .closed ∨ seat.accepted = false) :
    Matches (v.authenticate k pubkey seat) := by
  have hconns : (v.authenticate k pubkey seat).connections = v.connections := if_pos hfull
  have hheld : ∀ id, Held (v.authenticate k pubkey seat) id ↔ Held v id := by
    intro id
    have hsockets : (v.authenticate k pubkey seat).sockets = Function.update v.sockets k
        (some { seat with connState := some v.next }.close) := by
      simp only [View.authenticate, hfull, if_true]
    refine held_congr hsockets hseat ?_
    rw [Seat.close_holds]
    unfold Seat.Holds
    rcases hadmits with hclosed | hno
    · exact iff_of_false (fun h => h.1 hclosed) fun h => h.1 hclosed
    · rw [hno]
      exact iff_of_false (fun h => by cases h.2.1) fun h => by cases h.2.1
  refine ⟨fun key id => ?_, fun key => hconns ▸ hm.once key⟩
  rw [hconns, hheld, hm.registered key id]
  refine and_congr_right fun hid => ?_
  rw [show (v.authenticate k pubkey seat).pubkeys id = v.pubkeys id from
    Function.update_of_ne (hv.ne_next (hid.pubkey hv)) _ _]

/-- A user that has room: the new connection is held, and registered. -/
theorem accepted_matches (hv : Sound v) (hm : Matches v) {k : Nat} {seat : Seat}
    (hseat : v.sockets k = some seat) {pubkey : String}
    (hroom : ¬ Ws.MAX_CONNECTIONS_PER_USER ≤ (v.connections pubkey).length)
    (hopen : seat.phase ≠ .closed) (hno : seat.accepted = false) :
    Matches (v.authenticate k pubkey seat) := by
  have hnone : ∀ id, ¬ seat.Holds id := fun id h => by
    rw [Seat.Holds, hno] at h
    cases h.2.1
  have hheld : ∀ id, Held (v.authenticate k pubkey seat) id ↔ v.next = id ∨ Held v id := by
    intro id
    have hsockets : (v.authenticate k pubkey seat).sockets = Function.update v.sockets k
        (some { seat with connState := some v.next, accepted := true }) := by
      simp only [View.authenticate, hroom, if_false]
    have hsame : v.sockets = Function.update v.sockets k (some seat) := by
      rw [← hseat, Function.update_eq_self]
    rw [held_update hsockets, held_update hsame, or_iff_right (hnone id)]
    refine or_congr_left ?_
    exact ⟨fun h => Option.some.inj h.2.2, fun h => ⟨hopen, rfl, congrArg some h⟩⟩
  refine ⟨fun key id => ?_, (authenticate_sound hv pubkey).nodup⟩
  have hconns : id ∈ (v.authenticate k pubkey seat).connections key ↔
      id ∈ v.connections key ∨ (key = pubkey ∧ id = v.next) := by
    simp only [View.authenticate, hroom, if_false]
    by_cases hkey : key = pubkey
    · rw [hkey, Function.update_self, mem_add]
      simp only [true_and]
    · rw [Function.update_of_ne hkey]
      exact (or_iff_left fun h => hkey h.1).symm
  rw [hconns, hheld, hm.registered key id]
  by_cases hid : id = v.next
  · subst hid
    have hkey : (v.authenticate k pubkey seat).pubkeys v.next = some pubkey :=
      Function.update_self _ _ _
    have hfree : ¬ (Held v v.next ∧ v.pubkeys v.next = some key) := fun h =>
      hv.ne_next (h.1.pubkey hv) rfl
    rw [hkey, or_iff_right hfree]
    simp only [and_true, true_or, true_and, Option.some.injEq]
    exact eq_comm
  · have hkey : (v.authenticate k pubkey seat).pubkeys id = v.pubkeys id :=
      Function.update_of_ne hid _ _
    rw [hkey, or_iff_left fun h => hid h.2, or_iff_right fun h => hid h.symm]

theorem close_matches (hv : Sound v) (hm : Matches v) (k : Nat) : Matches (v.move (.close k)) := by
  rw [View.move]
  cases hseat : v.sockets k with
  | none => exact hm
  | some seat =>
    rw [Option.elim_some]
    set v' : View := { v with
      sockets := Function.update v.sockets k
        (some { seat with phase := .closed, accepted := false }) } with hv'
    obtain ⟨-, -, hpubkeys, hsockets, hconns⟩ := unregister_spec v' seat
    refine ⟨fun pubkey id => ?_, fun pubkey => hconns pubkey ▸ (hm.once pubkey).filter _⟩
    have hheld : Held (v'.unregister seat) id ↔
        ∃ j seat', j ≠ k ∧ v.sockets j = some seat' ∧ seat'.Holds id := by
      refine (held_update (hsockets.trans rfl)).trans (or_iff_right ?_)
      exact fun h => h.1 rfl
    rw [hconns, hpubkeys, hheld, List.mem_filter, decide_eq_true_iff]
    constructor
    · rintro ⟨hid, hother⟩
      obtain ⟨⟨j, seat', hj, hholds⟩, hkey⟩ := (hm.registered pubkey id).mp hid
      refine ⟨⟨j, seat', ?_, hj, hholds⟩, hkey⟩
      rintro rfl
      obtain rfl := Option.some.inj (hseat.symm.trans hj)
      exact hother ⟨hholds.2.2, hkey⟩
    · rintro ⟨⟨j, seat', hne, hj, hholds⟩, hkey⟩
      refine ⟨(hm.registered pubkey id).mpr ⟨⟨j, seat', hj, hholds⟩, hkey⟩, fun h => hne ?_⟩
      exact hv.socket_eq hj hholds.2.2 hseat h.1

/-- **Registered and accepted stay the same where each answer comes in turn.** -/
theorem move_matches (hv : Sound v) (hm : Matches v) {m : Move}
    (hpossible : m.Possible v) (hkeeps : ∀ pubkey, m ≠ .terminate pubkey) (hturn : m.InTurn v) :
    Matches (v.move m) := by
  cases m with
  | stay => exact hm
  | «open» k =>
    refine hm.of_held rfl rfl fun id => ?_
    refine (held_update rfl).trans ?_
    constructor
    · rintro (hnew | ⟨j, seat, -, hj, hholds⟩)
      · cases hnew.2.1
      · exact ⟨j, seat, hj, hholds⟩
    · rintro ⟨j, seat, hj, hholds⟩
      refine .inr ⟨j, seat, ?_, hj, hholds⟩
      rintro rfl
      rw [show v.sockets j = none from hpossible] at hj
      cases hj
  | shut k =>
    refine hm.of_held rfl rfl fun id => ?_
    cases hseat : v.sockets k with
    | none =>
      have hsame : (v.move (.shut k)).sockets = v.sockets := by
        simp only [View.move]
        rw [hseat, Option.map_none, ← hseat, Function.update_eq_self]
      unfold Held
      rw [hsame]
    | some seat =>
      refine held_congr ?_ hseat Seat.close_holds
      rw [View.move, hseat]
      rfl
  | authenticate k pubkey =>
    rw [View.move]
    cases hseat : v.sockets k with
    | none => exact hm
    | some seat =>
      rw [Option.elim_some]
      rcases hturn seat hseat with ⟨hfull, hclosed⟩ | ⟨hno, hopen⟩
      · exact refused_matches hv hm hseat hfull (.inl hclosed)
      · by_cases hfull : Ws.MAX_CONNECTIONS_PER_USER ≤ (v.connections pubkey).length
        · exact refused_matches hv hm hseat hfull (.inr hno)
        · exact accepted_matches hv hm hseat hfull (hopen.resolve_left hfull) hno
  | close k => exact close_matches hv hm k
  | terminate pubkey => exact absurd rfl (hkeeps pubkey)

/-! ## What is not made good again -/

theorem Broken.not_matches (hb : Broken v) : ¬ Matches v := by
  intro hm
  obtain ⟨pubkey, id, hid, hnone⟩ := hb
  obtain ⟨⟨k, seat, hseat, hholds⟩, -⟩ := (hm.registered pubkey id).mp hid
  exact hnone k seat hseat hholds.1 hholds.2.2

theorem authenticate_mono {k : Nat} {seat : Seat} {pubkey key : String} {id : Nat}
    (h : id ∈ v.connections key) : id ∈ (v.authenticate k pubkey seat).connections key := by
  simp only [View.authenticate]
  split_ifs
  · exact h
  · by_cases hkey : key = pubkey
    · rw [hkey, Function.update_self, mem_add, ← hkey]
      exact .inl h
    · rwa [Function.update_of_ne hkey]

/-- What a socket is given is the new connection. -/
theorem authenticate_sockets {k j : Nat} {seat seat' : Seat} {pubkey : String}
    (h : (v.authenticate k pubkey seat).sockets j = some seat') :
    (j = k ∧ seat'.connState = some v.next ∧ (seat'.phase = .closed ↔ seat.phase = .closed)) ∨
      (j ≠ k ∧ v.sockets j = some seat') := by
  simp only [View.authenticate] at h
  rcases Runs.update_eq_some h with ⟨hj, hnew⟩ | hold
  · obtain rfl := Option.some.inj hnew
    refine .inl ⟨hj, ?_⟩
    split_ifs
    · refine ⟨rfl, ?_⟩
      unfold Seat.close
      cases seat.phase <;> simp
    · exact ⟨rfl, Iff.rfl⟩
  · exact .inr hold

/-- An answer out of turn leaves a connection behind: the new one, or the one before. -/
theorem authenticate_broken (hv : Sound v) (hm : Matches v) {k : Nat} {pubkey : String}
    (hturn : ¬ (Move.authenticate k pubkey).InTurn v) :
    Broken (v.move (.authenticate k pubkey)) := by
  simp only [Move.InTurn, Option.mem_def, not_forall] at hturn
  obtain ⟨seat, hseat, hno⟩ := hturn
  rw [View.move, hseat, Option.elim_some]
  by_cases hclosed : seat.phase = .closed
  · -- the new connection is of a closed socket
    have hroom : ¬ Ws.MAX_CONNECTIONS_PER_USER ≤ (v.connections pubkey).length := fun hfull =>
      hno (.inl ⟨hfull, hclosed⟩)
    refine ⟨pubkey, v.next, ?_, fun j seat' hj hopen hid => ?_⟩
    · simp only [View.authenticate, hroom, if_false, Function.update_self, mem_add, or_true]
    · rcases authenticate_sockets hj with ⟨-, -, hsame⟩ | ⟨-, hold⟩
      · exact hopen (hsame.mpr hclosed)
      · exact hv.ne_next (hv.own j seat' v.next hold hid).2 rfl
  · -- the socket has had another one
    have haccepted : seat.accepted = true := by
      refine Bool.not_eq_false _ ▸ fun hfalse => hno (.inr ⟨hfalse, .inr hclosed⟩)
    obtain ⟨id, hid⟩ := Option.isSome_iff_exists.mp (hv.accepted k seat hseat haccepted)
    obtain ⟨key, hkey⟩ := Option.isSome_iff_exists.mp (hv.own k seat id hseat hid).2
    have hmem : id ∈ v.connections key :=
      (hm.registered key id).mpr ⟨⟨k, seat, hseat, hclosed, haccepted, hid⟩, hkey⟩
    refine ⟨key, id, authenticate_mono hmem, fun j seat' hj _ hid' => ?_⟩
    rcases authenticate_sockets hj with ⟨-, hnew, -⟩ | ⟨hne, hold⟩
    · exact hv.ne_next (hkey ▸ rfl) (Option.some.inj (hid'.symm.trans hnew))
    · exact hne (hv.socket_eq hold hid' hseat hid)

/-- **A connection that is left behind stays.** -/
theorem move_broken (hv : Sound v) (hb : Broken v) {m : Move} (hpossible : m.Possible v)
    (hkeeps : ∀ pubkey, m ≠ .terminate pubkey) : Broken (v.move m) := by
  obtain ⟨pubkey, id, hid, hnone⟩ := hb
  cases m with
  | stay => exact ⟨pubkey, id, hid, hnone⟩
  | «open» k =>
    refine ⟨pubkey, id, hid, fun j seat' hj hopen hid' => ?_⟩
    rcases Runs.update_eq_some hj with ⟨-, hnew⟩ | ⟨-, hold⟩
    · obtain rfl := Option.some.inj hnew
      cases hid'
    · exact hnone j seat' hold hopen hid'
  | shut k =>
    refine ⟨pubkey, id, hid, fun j seat' hj hopen hid' => ?_⟩
    obtain ⟨seat, hseat, rfl | rfl⟩ := shut_sockets hj
    · exact hnone j _ hseat hopen hid'
    · refine hnone j seat hseat (fun hclosed => hopen ?_) hid'
      rw [Seat.close, hclosed]
      rfl
  | authenticate k key =>
    rw [View.move]
    cases hseat : v.sockets k with
    | none => exact ⟨pubkey, id, hid, hnone⟩
    | some seat =>
      refine ⟨pubkey, id, authenticate_mono hid, fun j seat' hj hopen hid' => ?_⟩
      rcases authenticate_sockets hj with ⟨-, hnew, -⟩ | ⟨-, hold⟩
      · exact hv.mem_ne_next hid (Option.some.inj (hid'.symm.trans hnew))
      · exact hnone j seat' hold hopen hid'
  | close k =>
    rw [View.move]
    cases hseat : v.sockets k with
    | none => exact ⟨pubkey, id, hid, hnone⟩
    | some seat =>
      rw [Option.elim_some]
      obtain ⟨-, -, -, hsockets, hconns⟩ := unregister_spec
        { v with
          sockets := Function.update v.sockets k
            (some { seat with phase := .closed, accepted := false }) } seat
      refine ⟨pubkey, id, ?_, fun j seat' hj hopen hid' => ?_⟩
      · rw [hconns, List.mem_filter]
        refine ⟨hid, decide_eq_true fun h => ?_⟩
        exact hnone k seat hseat (hpossible seat hseat) h.1
      · rw [hsockets] at hj
        rcases Runs.update_eq_some hj with ⟨-, hnew⟩ | ⟨-, hold⟩
        · obtain rfl := Option.some.inj hnew
          exact hopen rfl
        · exact hnone j seat' hold hopen hid'
  | terminate key => exact absurd rfl (hkeeps key)

/-! ## Steps -/

section Steps

variable {prims : RelayPrims} {r r' : Server} {e : Event}

/-- Sockets open, close and lose their connections by events of their own, and get one by an
answer. -/
theorem moveOf_cases (prims : RelayPrims) (r : Server) (e : Event) :
    (∃ k nonce, e = .open k nonce) ∨ (∃ k, e = .close k) ∨ (∃ pubkey, e = .terminateUser pubkey) ∨
      moveOf prims r e = .stay ∨ (∃ k, moveOf prims r e = .shut k) ∨
        ∃ k pubkey, (∃ lookup hubs, e = .answer lookup (.found hubs) ∧
          r.lookups lookup = some (.auth k pubkey)) ∧
          moveOf prims r e = .authenticate k pubkey := by
  cases e with
  | «open» k nonce => exact .inl ⟨k, nonce, rfl⟩
  | close k => exact .inr (.inl ⟨k, rfl⟩)
  | terminateUser pubkey => exact .inr (.inr (.inl ⟨pubkey, rfl⟩))
  | message k now lookup msg =>
    refine .inr (.inr (.inr ?_))
    cases msg with
    | auth msg =>
      rw [moveOf]
      cases r.sockets k with
      | none => exact .inl rfl
      | some socket =>
        simp only [Option.elim_some]
        split_ifs
        · exact .inl rfl
        · cases checkAuth prims socket.nonce msg now with
          | ok _ => exact .inl rfl
          | error _ => exact .inr (.inl ⟨k, rfl⟩)
    | _ => exact .inl rfl
  | authTimeout k =>
    refine .inr (.inr (.inr ?_))
    rw [moveOf]
    cases r.sockets k with
    | none => exact .inl rfl
    | some socket =>
      simp only [Option.elim_some]
      split_ifs
      · exact .inl rfl
      · exact .inr (.inl ⟨k, rfl⟩)
  | answer lookup answer =>
    refine .inr (.inr (.inr ?_))
    rw [moveOf]
    cases hlookup : r.lookups lookup with
    | none => exact .inl rfl
    | some pending =>
      cases pending with
      | auth k pubkey =>
        cases answer with
        | found hubs => exact .inr (.inr ⟨k, pubkey, ⟨lookup, hubs, rfl, hlookup⟩, rfl⟩)
        | missing => exact .inr (.inl ⟨k, rfl⟩)
        | error => exact .inr (.inl ⟨k, rfl⟩)
      | revalidate k pubkey =>
        simp only [Option.elim_some]
        split_ifs
        · exact .inr (.inl ⟨k, rfl⟩)
        · exact .inl rfl
  | revalidate k lookup => exact .inr (.inr (.inr (.inl rfl)))
  | publish hubId kind payload epoch now => exact .inr (.inr (.inr (.inl rfl)))
  | evictMember pubkey hubId => exact .inr (.inr (.inr (.inl rfl)))

theorem step_possible (h : step prims r e = some r') :
    (moveOf prims r e).Possible (view r) := by
  rcases moveOf_cases prims r e with
    ⟨k, nonce, rfl⟩ | ⟨k, rfl⟩ | ⟨pubkey, rfl⟩ | hstay | ⟨k, hshut⟩ | ⟨k, pubkey, -, hauth⟩
  · rw [step] at h
    split at h
    · rename_i hnone
      simp only [moveOf, Move.Possible, view, hnone, Option.map_none]
    · cases h
  · intro seat hseat
    obtain ⟨socket, hsocket, rfl⟩ := Option.map_eq_some_iff.mp hseat
    simp only [step, hsocket] at h
    split_ifs at h with hclosed
    exact hclosed
  · trivial
  · rw [hstay]
    trivial
  · rw [hshut]
    trivial
  · rw [hauth]
    trivial

/-- An event of a socket, a lookup or a hub. -/
def OfSockets : Event → Prop
  | .terminateUser _ => False
  | _ => True

instance (e : Event) : Decidable (OfSockets e) := by
  unfold OfSockets
  split <;> infer_instance

theorem moveOf_ne_terminate (he : OfSockets e) (key : String) :
    moveOf prims r e ≠ .terminate key := by
  rcases moveOf_cases prims r e with
    ⟨k, nonce, rfl⟩ | ⟨k, rfl⟩ | ⟨pubkey, rfl⟩ | hstay | ⟨k, hshut⟩ | ⟨k, pubkey, -, hauth⟩
  · exact fun h => by cases h
  · exact fun h => by cases h
  · exact he.elim
  · exact fun h => by cases hstay.symm.trans h
  · exact fun h => by cases hshut.symm.trans h
  · exact fun h => by cases hauth.symm.trans h

theorem step_broken (hv : Sound (view r)) (hm : Matches (view r)) (h : step prims r e = some r')
    (hturn : ¬ InTurn prims r e) : Broken (view r') := by
  rw [step_view h]
  unfold InTurn at hturn
  cases hmove : moveOf prims r e with
  | authenticate k pubkey =>
    rw [hmove] at hturn
    exact authenticate_broken hv hm hturn
  | _ =>
    rw [hmove] at hturn
    exact absurd trivial hturn

end Steps

/-! ## Runs -/

section Runs

variable {prims : RelayPrims} {r r' t : Server} {e : Event} {events : List Event}

theorem start_sound : Sound (view {}) where
  fresh _ _ := rfl
  own _ _ _ h := by cases h
  accepted _ _ h := by cases h
  keyed _ _ h := by cases h
  nodup _ := List.nodup_nil

theorem start_matches : Matches (view {}) where
  registered pubkey id := by
    refine iff_of_false (fun h => by cases h) ?_
    rintro ⟨⟨k, seat, hseat, -⟩, -⟩
    cases hseat
  once _ := List.nodup_nil

theorem step_sound (hv : Sound (view r)) (h : step prims r e = some r') : Sound (view r') :=
  step_view h ▸ move_sound hv _

theorem run_sound (h : Runs.run (step prims) {} events = some t) : Sound (view t) :=
  Runs.run_inv (I := fun r => Sound (view r)) (fun _ _ _ hv h => step_sound hv h) start_sound h

/-- **The registered connections are those of the open sockets that have been accepted exactly if
each accepted socket was open, and had no connection.** -/
theorem registered_iff (hevents : ∀ e ∈ events, OfSockets e)
    (hrun : Runs.run (step prims) {} events = some t) :
    Matches (view t) ↔ Runs.Along (step prims) (InTurn prims) {} events :=
  Runs.end_iff_along (I := fun r => Sound (view r)) (G := fun r => Matches (view r))
    (B := fun r => Broken (view r)) (Q := fun _ e => OfSockets e)
    (fun _ _ _ hv _ h => step_sound hv h)
    (fun _ _ _ hv hm he h hturn =>
      step_view h ▸ move_matches hv hm (step_possible h) (moveOf_ne_terminate he) hturn)
    (fun _ _ _ hv hm _ h hturn => step_broken hv hm h hturn)
    (fun _ _ _ hv hb he h =>
      step_view h ▸ move_broken hv hb (step_possible h) (moveOf_ne_terminate he))
    (fun _ hb => hb.not_matches) start_sound start_matches
    (Runs.along_of_mem fun e he _ => hevents e he) hrun

/-! One user opens sockets. -/

/-- All signatures are good. -/
def samplePrims : RelayPrims where
  ed25519 := fun _ => some fun _ _ => true
  sign := fun _ => ""

def sampleKey : String := String.ofList (List.replicate 64 'a')

def sampleAuth (nonce : String) : ClientMessage :=
  .auth { pubkey := sampleKey, nonce, ts := 0, sig := String.ofList (List.replicate 128 '0') }

/-- Two sockets authenticate, with answers the other way round, and one of them closes. -/
def twoSockets : List Event :=
  [.open 0 "m", .open 1 "n", .message 0 0 0 (sampleAuth "m"), .message 1 0 1 (sampleAuth "n"),
   .answer 1 (.found ["hub"]), .answer 0 (.found ["hub"]), .close 1]

theorem twoSockets_matches : ∃ t, Runs.run (step samplePrims) {} twoSockets = some t ∧
    t.manager.connections sampleKey = [1] ∧ Matches (view t) := by
  have hsome : ((Runs.run (step samplePrims) {} twoSockets).map fun t =>
      t.manager.connections sampleKey) = some [1] := by decide +kernel
  obtain ⟨t, ht, hconns⟩ := Option.map_eq_some_iff.mp hsome
  exact ⟨t, ht, hconns, (registered_iff (by decide) ht).mpr (by decide +kernel)⟩

/-- The connection of a closed socket is left behind. -/
theorem broken_of_closed {v : View} (hv : Sound v) (pubkey : String) {id k : Nat}
    (hid : id ∈ v.connections pubkey) (hws : v.ws id = some k)
    (hclosed : (v.sockets k).map Seat.phase = some .closed) : Broken v := by
  refine ⟨pubkey, id, hid, fun j seat hj hopen hconn => hopen ?_⟩
  obtain rfl := Option.some.inj (hws.symm.trans (hv.own j seat id hj hconn).1)
  rw [hj] at hclosed
  exact Option.some.inj hclosed

/-- The socket closes before its user has been found. -/
def closedWhilePending : List Event :=
  [.open 0 "m", .message 0 0 0 (sampleAuth "m"), .close 0, .answer 0 (.found ["hub"])]

/-- The socket sends two auth messages before its user has been found. -/
def twiceWhilePending : List Event :=
  [.open 0 "m", .message 0 0 0 (sampleAuth "m"), .message 0 0 1 (sampleAuth "m"),
   .answer 0 (.found ["hub"]), .answer 1 (.found ["hub"]), .close 0]

/-- **A connection stays registered when its socket has closed**, with no user being looked up. -/
theorem registered_after_close : [closedWhilePending, twiceWhilePending].Forall fun events =>
    ∃ t, Runs.run (step samplePrims) {} events = some t ∧
      (t.lookups 0 = none ∧ t.lookups 1 = none) ∧ t.manager.connections sampleKey = [0] ∧
      (t.sockets 0).map Socket.phase = some .closed ∧ ¬ Matches (view t) := by
  refine List.forall_iff_forall_mem.mpr fun events hevents => ?_
  have hend : ((Runs.run (step samplePrims) {} events).map fun t => ((t.lookups 0, t.lookups 1),
      t.manager.connections sampleKey, (t.sockets 0).map Socket.phase, t.ws 0)) =
        some ((none, none), [0], some .closed, some 0) := by
    simp only [List.mem_cons, List.not_mem_nil, or_false] at hevents
    rcases hevents with rfl | rfl
    · decide +kernel
    · decide +kernel
  obtain ⟨t, ht, hfields⟩ := Option.map_eq_some_iff.mp hend
  simp only [Prod.mk.injEq] at hfields
  obtain ⟨hlookups, hconns, hphase, hws⟩ := hfields
  refine ⟨t, ht, hlookups, hconns, hphase, Broken.not_matches ?_⟩
  refine broken_of_closed (run_sound ht) sampleKey ?_ hws ?_
  · rw [show (view t).connections sampleKey = [0] from hconns]
    exact List.mem_singleton_self 0
  · simp only [view, Option.map_map]
    exact hphase

end Runs

end Llamenos.Worker.Relay
