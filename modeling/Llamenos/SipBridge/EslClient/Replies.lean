import Llamenos.Lib.Runs
import Llamenos.SipBridge.EslClient.Framing

/-!
# Which reply settles a command

The client with the switch over connections that come and go. The switch greets each connection and
answers what the client writes on it in order; its messages are delivered in chunks, and what has
not been delivered when the connection closes is lost. Between two messages of a chunk the client
may send commands, from the handlers of events.

The client matches replies to commands by their order alone. The replies to its authentication and
its subscription count as replies to commands once it has connected for the first time.

Results:
* `handleMessage_quiet`, `handleMessage_own`: what a message does to the queue.
* `act_inv`: what a step that meets the condition keeps.
* `replies_owned`: in runs whose steps meet it, **a command is settled only by its own reply**.
* `client_sound`: this, with the messages that are handed over.
* `strayReply_settles`: a body and a run for which it fails.
-/

namespace Llamenos.SipBridge.Esl

open Llamenos.Lib Llamenos.Lib.Runs Llamenos.Lib.Utf8Stream

/-! ## The switch -/

/-- What a message of the switch is. -/
inductive Role where
  | greeting
  | reply (text : Sent)
  | other

/-- The types of messages, by their roles. A command is answered by an `api/response`, or by a
`command/reply` that accepts or refuses it. -/
def Speaks (m : Message) : Role → Prop
  | .greeting => m.contentType = some (charCodes "auth/request")
  | .reply .auth | .reply .subscribe => m.contentType = some (charCodes "command/reply")
  | .reply (.api _) =>
    m.contentType = some (charCodes "api/response") ∨
      m.contentType = some (charCodes "command/reply") ∧
        (startsWith "+OK" m.replyText ∨ startsWith "-ERR" m.replyText)
  | .other =>
    m.contentType ≠ some (charCodes "auth/request") ∧
      m.contentType ≠ some (charCodes "command/reply") ∧
      m.contentType ≠ some (charCodes "api/response")

instance (m : Message) : ∀ role, Decidable (Speaks m role)
  | .greeting | .reply .auth | .reply .subscribe => inferInstanceAs (Decidable (_ = _))
  | .reply (.api _) => inferInstanceAs (Decidable (_ ∨ _))
  | .other => inferInstanceAs (Decidable (_ ∧ _))

/-- A message of the switch, well-formed and of the type of its role. -/
structure Spoken where
  role : Role
  packet : Packet
  wellFormed : packet.WellFormed
  speaks : Speaks packet.handed role

/-- The client and the switch: what has been sent and not delivered, what has been written on this
connection and not answered, and the messages that have been sent and not handled. -/
structure System where
  client : Client := {}
  wire : List UInt8 := []
  greeted : Bool := false
  unanswered : List Sent := []
  inflight : List Spoken := []

inductive Event where
  | opened
  | closed
  | send (command : Nat)
  | speak (message : Spoken)
  | deliver (chunk : List UInt8)
  | handle

/-- What is observed: the reply that the switch has given to a command, and how a command was
settled. -/
inductive Observed where
  | replied (command : Nat) (message : Message)
  | settled (command : Nat) (result : Except Text Text)

def written (outputs : List Output) : List Sent :=
  outputs.filterMap fun
    | .write text => some text
    | _ => none

def settlements (outputs : List Output) : List Observed :=
  outputs.filterMap fun
    | .settle command result => some (.settled command result)
    | _ => none

/-- The client goes on, and the switch receives what it writes. -/
def System.goesOn (s : System) (p : Client × List Output) : System :=
  { s with
    client := p.1
    unanswered := s.unanswered ++ written p.2 }

/-- `processBuffer` has come to its end. -/
def System.idle (s : System) : Bool := (takeMessage s.client.buffer).isNone

/-- The switch sends a message. -/
def System.sends (s : System) (m : Spoken) : System :=
  { s with
    wire := s.wire ++ encode m.packet.text
    inflight := s.inflight ++ [m] }

/-- A reply is observed if it is to a command. -/
def observed (m : Spoken) : Sent → List Observed
  | .api command => [.replied command m.packet.handed]
  | .auth | .subscribe => []

/-- The switch greets a connection once, and answers what has been written first. -/
def speak (s : System) (m : Spoken) : Option (System × List Observed) :=
  match m.role with
  | .greeting => if s.greeted then none else some ({ s.sends m with greeted := true }, [])
  | .other => some (s.sends m, [])
  | .reply text =>
    match s.unanswered with
    | [] => none
    | sent :: unanswered =>
      if text = sent then some ({ s.sends m with unanswered := unanswered }, observed m text)
      else none

/-- What an event does, if it can happen. -/
def act (s : System) : Event → Option (System × List Observed)
  | .opened =>
    if !s.client.socket && s.idle then
      some ({ client := { s.client with socket := true } }, [])
    else none
  | .closed =>
    if s.client.socket && s.idle then
      some ({ client := { s.client with
                socket := false
                connected := false } }, [])
    else none
  | .send command => some (s.goesOn (sendCommand s.client command), [])
  | .speak m =>
    if s.client.socket then speak s m else none
  | .deliver chunk =>
    if s.client.socket && s.idle && chunk.isPrefixOf s.wire then
      some ({ s with
        client := { s.client with buffer := s.client.buffer ++ chunkText chunk }
        wire := s.wire.drop chunk.length }, [])
    else none
  | .handle => do
    let (m, rest) ← takeMessage s.client.buffer
    let p := handleMessage { s.client with buffer := rest } m
    pure ({ s.goesOn p with inflight := s.inflight.tail }, settlements p.2)

def step (s : System) (e : Event) : Option System := (act s e).map Prod.fst

def out (s : System) (e : Event) : List Observed := ((act s e).map Prod.snd).getD []

def recorded : System × List Observed → Event → Option (System × List Observed) :=
  recording step out

/-! ## Purpose -/

/-- What a reply says of its command. -/
def resultOf (m : Message) : Except Text Text :=
  if m.contentType = some (charCodes "api/response") then responseResult m.body
  else replyResult m.replyText

/-- A command is settled only by its own reply. -/
def Owned (ws : List Observed) : Prop :=
  ∀ command result, .settled command result ∈ ws →
    ∃ m, .replied command m ∈ ws ∧ result = resultOf m

/-- A reply to the client's own requests is handled while no command is pending, once the client has
connected; and a command that is answered by a `command/reply` is so after that. -/
def HandledInOrder (c : Client) (m : Message) : Role → Prop
  | .reply .auth | .reply .subscribe => c.hasConnected = true → c.commandQueue = []
  | .reply (.api _) => m.contentType = some (charCodes "command/reply") → c.hasConnected = true
  | .greeting | .other => True

instance (c : Client) (m : Message) : ∀ role, Decidable (HandledInOrder c m role)
  | .reply .auth | .reply .subscribe | .reply (.api _) => inferInstanceAs (Decidable (_ → _))
  | .greeting | .other => .isTrue trivial

/-- The condition: a connection is opened when no command is pending and no part of a message is in
the buffer; commands are sent over an open connection; chunks are whole and bodies ASCII; and
messages are handled in order. -/
def Orderly (p : System × List Observed) : Event → Prop
  | .opened => p.1.client.commandQueue = [] ∧ p.1.client.buffer = []
  | .send _ => p.1.client.socket = true
  | .speak m => ∀ c ∈ m.packet.body.getD [], c.toNat < 128
  | .deliver chunk => Whole chunk
  | .handle => ∀ m ∈ p.1.inflight.head?, HandledInOrder p.1.client m.packet.handed m.role
  | .closed => True

instance (p : System × List Observed) : ∀ e, Decidable (Orderly p e)
  | .opened => inferInstanceAs (Decidable (_ ∧ _))
  | .send _ => inferInstanceAs (Decidable (_ = _))
  | .speak m => inferInstanceAs (Decidable (∀ c ∈ m.packet.body.getD [], c.toNat < 128))
  | .deliver chunk => inferInstanceAs (Decidable (Whole chunk))
  | .handle => inferInstanceAs (Decidable (∀ m ∈ p.1.inflight.head?, _))
  | .closed => .isTrue trivial

/-! ## What a message does -/

@[simp] theorem written_nil : written [] = [] := rfl

@[simp] theorem settlements_nil : settlements [] = [] := rfl

theorem written_append (xs ys : List Output) : written (xs ++ ys) = written xs ++ written ys :=
  List.filterMap_append

theorem settlements_append (xs ys : List Output) :
    settlements (xs ++ ys) = settlements xs ++ settlements ys := List.filterMap_append

/-- What leaves the commands as they are. -/
structure Quiet (c : Client) (p : Client × List Output) : Prop where
  queue : p.1.commandQueue = c.commandQueue
  buffer : p.1.buffer = c.buffer
  socket : p.1.socket = c.socket
  written : ∀ command, .api command ∉ written p.2
  settled : settlements p.2 = []

theorem Quiet.refl (c : Client) : Quiet c (c, []) :=
  ⟨rfl, rfl, rfl, fun _ => List.not_mem_nil, rfl⟩

theorem quiet_sendRaw (c : Client) {text : Sent} (h : ∀ command, text ≠ .api command) :
    Quiet c (c, sendRaw c text) := by
  unfold sendRaw
  split_ifs
  · refine ⟨rfl, rfl, rfl, fun command hmem => ?_, rfl⟩
    exact h command (List.mem_singleton.mp hmem).symm
  · exact Quiet.refl c
variable {c : Client}

theorem quiet_detect {p : Client × List Output} (h : Quiet c p) (reply : Text) :
    Quiet c ((detectConnection p.1 reply).1, p.2 ++ (detectConnection p.1 reply).2) := by
  unfold detectConnection
  split_ifs
  · refine ⟨h.queue, h.buffer, h.socket, fun command hmem => ?_, ?_⟩
    · rw [written_append] at hmem
      rcases List.mem_append.mp hmem with hmem | hmem
      · exact h.written command hmem
      · cases hmem
    · rw [settlements_append, h.settled]
      rfl
  · rw [List.append_nil]
    exact h

theorem quiet_settleFirst (h : c.commandQueue = []) (result : Except Text Text) :
    Quiet c (settleFirst c result) := by
  unfold settleFirst
  rw [h]
  exact Quiet.refl c

theorem quiet_commandReply (h : c.hasConnected = true → c.commandQueue = [])
    (reply : Text) : Quiet c (commandReply c reply) := by
  unfold commandReply
  cases hc : c.hasConnected with
  | true =>
    rw [Bool.not_true, if_neg Bool.false_ne_true, if_neg Bool.false_ne_true]
    split_ifs
    · exact quiet_settleFirst (h hc) _
    · exact quiet_settleFirst (h hc) _
    · exact Quiet.refl c
  | false =>
    rw [Bool.not_false, if_pos rfl, if_pos rfl]
    split_ifs
    · exact quiet_sendRaw c (by simp)
    · exact ⟨rfl, rfl, rfl, by simp [written], rfl⟩
    · exact Quiet.refl c

/-- **A message that is no reply to a command leaves the commands as they are.** -/
theorem handleMessage_quiet {m : Spoken}
    (hrole : ∀ command, m.role ≠ .reply (.api command))
    (horder : HandledInOrder c m.packet.handed m.role) :
    Quiet c (handleMessage c m.packet.handed) := by
  have hspeaks := m.speaks
  unfold handleMessage
  cases hr : m.role with
  | greeting =>
    rw [hr] at hspeaks
    have hauth : m.packet.handed.contentType = some (charCodes "auth/request") := hspeaks
    rw [if_pos hauth]
    exact quiet_sendRaw c (by simp)
  | other =>
    rw [hr] at hspeaks
    obtain ⟨hauth, hreply, hresponse⟩ := hspeaks
    rw [if_neg hauth, if_neg hreply, if_neg hresponse]
    split_ifs
    · exact ⟨rfl, rfl, rfl, by simp [written], rfl⟩
    · exact Quiet.refl c
  | reply text =>
    have hcommand : m.packet.handed.contentType = some (charCodes "command/reply") := by
      rw [hr] at hspeaks
      cases text with
      | auth | subscribe => exact hspeaks
      | api command => exact absurd hr (hrole command)
    have hempty : c.hasConnected = true → c.commandQueue = [] := by
      rw [hr] at horder
      cases text with
      | auth | subscribe => exact horder
      | api command => exact absurd hr (hrole command)
    rw [hcommand, if_neg (by decide), if_pos rfl]
    exact quiet_detect (quiet_commandReply hempty _) _

/-- **A reply to the first command settles it.** -/
theorem handleMessage_own {m : Spoken} {command : Nat} {rest : List Nat}
    (hrole : m.role = .reply (.api command)) (hqueue : c.commandQueue = command :: rest)
    (horder : HandledInOrder c m.packet.handed m.role) :
    handleMessage c m.packet.handed =
      ({ c with commandQueue := rest }, [.settle command (resultOf m.packet.handed)]) := by
  have hspeaks := m.speaks
  rw [hrole] at hspeaks horder
  have hsettle : ∀ result, settleFirst c result =
      ({ c with commandQueue := rest }, [.settle command result]) := by
    intro result
    rw [settleFirst, hqueue]
  unfold handleMessage resultOf
  rcases hspeaks with hresponse | ⟨hreply, hstart⟩
  · rw [hresponse, if_neg (by decide), if_neg (by decide), if_pos rfl, if_pos rfl, hsettle]
  · have hc : ¬ (!c.hasConnected) = true := by
      rw [horder hreply]
      decide
    have hcommand : commandReply c m.packet.handed.replyText =
        ({ c with commandQueue := rest },
          [.settle command (replyResult m.packet.handed.replyText)]) := by
      unfold commandReply
      rw [if_neg hc, if_neg hc, hsettle]
      split_ifs
      · rfl
      · rfl
      · rename_i hok herr
        exact absurd hstart (not_or.mpr ⟨hok, herr⟩)
    have hdetect : ∀ reply, detectConnection { c with commandQueue := rest } reply =
        ({ c with commandQueue := rest }, []) := by
      intro reply
      rw [detectConnection, if_neg]
      intro h
      rw [Bool.and_eq_true, Bool.and_eq_true] at h
      exact hc h.1.1
    rw [hreply, if_neg (by decide), if_pos rfl, if_neg (by decide), hcommand]
    dsimp only
    rw [hdetect]
    rfl

/-! ## What steps keep -/

/-- The command that a text is, or that a message replies to. -/
def Sent.command : Sent → Option Nat
  | .api command => some command
  | .auth | .subscribe => none

def Spoken.command (m : Spoken) : Option Nat :=
  match m.role with
  | .reply text => text.command
  | .greeting | .other => none

def texts (ms : List Spoken) : List Char := (ms.map Spoken.packet).flatMap Packet.text

/-- While a connection is open, the queue is the commands that have been answered or are to be, in
order, and the buffer with what is to come is the messages that have not been handled. -/
structure Inv (s : System) (ws : List Observed) : Prop where
  closed : s.client.socket = false → s.idle = true
  queue : s.client.socket = true →
    s.client.commandQueue = s.inflight.filterMap Spoken.command ++
      s.unanswered.filterMap Sent.command
  text : s.client.socket = true →
    ∃ text, s.wire = encode text ∧ s.client.buffer ++ units text = units (texts s.inflight)
  ascii : ∀ m ∈ s.inflight, ∀ c ∈ m.packet.body.getD [], c.toNat < 128
  replied : ∀ m ∈ s.inflight, ∀ command, m.role = .reply (.api command) →
    .replied command m.packet.handed ∈ ws
  owned : Owned ws
variable {ws ws' : List Observed}

theorem Owned.append (h : Owned ws)
    (h' : ∀ command result, .settled command result ∈ ws' →
      ∃ m, .replied command m ∈ ws ++ ws' ∧ result = resultOf m) : Owned (ws ++ ws') := by
  intro command result hmem
  rcases List.mem_append.mp hmem with hmem | hmem
  · obtain ⟨m, hm, hresult⟩ := h command result hmem
    exact ⟨m, List.mem_append_left ws' hm, hresult⟩
  · exact h' command result hmem
variable {s s' : System}

theorem inv_opened (h : Inv s ws)
    (horderly : Orderly (s, ws) .opened) (hact : act s .opened = some (s', ws')) :
    Inv s' (ws ++ ws') := by
  unfold act at hact
  dsimp only at hact
  split_ifs at hact
  obtain ⟨rfl, rfl⟩ := Prod.mk.inj (Option.some.inj hact)
  obtain ⟨hqueue, hbuffer⟩ := horderly
  rw [List.append_nil]
  refine ⟨(fun hsocket => by cases hsocket), fun _ => hqueue, fun _ => ⟨[], rfl, ?_⟩, by simp,
    by simp, h.owned⟩
  rw [units_nil, List.append_nil]
  exact hbuffer

theorem inv_closed (h : Inv s ws)
    (hact : act s .closed = some (s', ws')) : Inv s' (ws ++ ws') := by
  unfold act at hact
  dsimp only at hact
  split_ifs at hact with hguard
  obtain ⟨rfl, rfl⟩ := Prod.mk.inj (Option.some.inj hact)
  rw [List.append_nil]
  exact ⟨fun _ => (Bool.and_eq_true_iff.mp hguard).2, (fun hsocket => by cases hsocket),
    (fun hsocket => by cases hsocket), by simp, by simp, h.owned⟩

theorem inv_send {command : Nat} (h : Inv s ws)
    (horderly : Orderly (s, ws) (.send command)) (hact : act s (.send command) = some (s', ws')) :
    Inv s' (ws ++ ws') := by
  have hsocket : s.client.socket = true := horderly
  obtain ⟨rfl, rfl⟩ := Prod.mk.inj (Option.some.inj hact)
  have hwritten : written (sendCommand s.client command).2 = [.api command] := by
    rw [sendCommand, sendRaw, if_pos hsocket]
    rfl
  rw [List.append_nil]
  refine ⟨fun hclosed => ?_, fun _ => ?_, fun _ => h.text hsocket, h.ascii, h.replied, h.owned⟩
  · exact absurd (hsocket.symm.trans hclosed) (by decide)
  · rw [System.goesOn, hwritten, List.filterMap_append, ← List.append_assoc, ← h.queue hsocket]
    rfl

theorem texts_concat (ms : List Spoken) (m : Spoken) :
    texts (ms ++ [m]) = texts ms ++ m.packet.text := by
  unfold texts
  rw [List.map_append, List.flatMap_append, List.map_singleton, List.flatMap_singleton]

/-- The switch sends a message: the commands that are answered or to be answered stay the same. -/
theorem inv_sends {m : Spoken} (h : Inv s ws)
    (hsocket : s.client.socket = true) (hascii : ∀ c ∈ m.packet.body.getD [], c.toNat < 128)
    (hclient : s'.client = s.client) (hwire : s'.wire = s.wire ++ encode m.packet.text)
    (hinflight : s'.inflight = s.inflight ++ [m])
    (hcommands : m.command.toList ++ s'.unanswered.filterMap Sent.command =
      s.unanswered.filterMap Sent.command)
    (hreplied : ∀ command, m.role = .reply (.api command) →
      .replied command m.packet.handed ∈ ws')
    (hsettled : ∀ command result, .settled command result ∉ ws') : Inv s' (ws ++ ws') := by
  refine ⟨fun hclosed => ?_, fun _ => ?_, fun _ => ?_, ?_, ?_, ?_⟩
  · rw [hclient, hsocket] at hclosed
    cases hclosed
  · rw [hclient, hinflight, h.queue hsocket, List.filterMap_append, List.append_assoc, ← hcommands]
    cases hm : m.command <;> simp [hm]
  · obtain ⟨text, hencode, hunits⟩ := h.text hsocket
    refine ⟨text ++ m.packet.text, by rw [hwire, hencode, encode_append], ?_⟩
    rw [hclient, hinflight, texts_concat, units_append, units_append, ← hunits, List.append_assoc]
  · rw [hinflight]
    exact List.forall_mem_append.mpr ⟨h.ascii, by simpa using hascii⟩
  · rw [hinflight]
    refine List.forall_mem_append.mpr ⟨fun m' hm' command hrole => ?_, ?_⟩
    · exact List.mem_append_left ws' (h.replied m' hm' command hrole)
    · intro m' hm' command hrole
      obtain rfl := List.mem_singleton.mp hm'
      exact List.mem_append_right ws (hreplied command hrole)
  · exact h.owned.append fun command result hmem => absurd hmem (hsettled command result)

theorem inv_speak {m : Spoken} (h : Inv s ws)
    (horderly : Orderly (s, ws) (.speak m)) (hact : act s (.speak m) = some (s', ws')) :
    Inv s' (ws ++ ws') := by
  have hascii : ∀ c ∈ m.packet.body.getD [], c.toNat < 128 := horderly
  unfold act at hact
  dsimp only at hact
  split_ifs at hact with hsocket
  unfold speak at hact
  cases hrole : m.role with
  | greeting =>
    rw [hrole] at hact
    dsimp only at hact
    split_ifs at hact
    obtain ⟨rfl, rfl⟩ := Prod.mk.inj (Option.some.inj hact)
    refine inv_sends h hsocket hascii rfl rfl rfl ?_ (by simp [hrole]) (by simp)
    rw [Spoken.command, hrole]
    rfl
  | other =>
    rw [hrole] at hact
    obtain ⟨rfl, rfl⟩ := Prod.mk.inj (Option.some.inj hact)
    refine inv_sends h hsocket hascii rfl rfl rfl ?_ (by simp [hrole]) (by simp)
    rw [Spoken.command, hrole]
    rfl
  | reply text =>
    rw [hrole] at hact
    dsimp only at hact
    cases hunanswered : s.unanswered with
    | nil =>
      rw [hunanswered] at hact
      cases hact
    | cons sent unanswered =>
      rw [hunanswered] at hact
      dsimp only at hact
      split_ifs at hact with hsent
      obtain ⟨rfl, rfl⟩ := Prod.mk.inj (Option.some.inj hact)
      subst hsent
      refine inv_sends h hsocket hascii rfl rfl rfl ?_ ?_ ?_
      · have hcommand : m.command = text.command := by rw [Spoken.command, hrole]
        rw [hcommand, hunanswered, List.filterMap_cons]
        cases text.command <;> rfl
      · intro command hapi
        rw [hrole] at hapi
        injection hapi with hapi
        rw [hapi]
        exact List.mem_cons_self
      · intro command result
        cases text <;> simp [observed]

theorem inv_deliver {chunk : List UInt8} (h : Inv s ws)
    (horderly : Orderly (s, ws) (.deliver chunk))
    (hact : act s (.deliver chunk) = some (s', ws')) : Inv s' (ws ++ ws') := by
  have hwhole : Whole chunk := horderly
  unfold act at hact
  dsimp only at hact
  split_ifs at hact with hguard
  obtain ⟨rfl, rfl⟩ := Prod.mk.inj (Option.some.inj hact)
  obtain ⟨hopen, hprefix⟩ := Bool.and_eq_true_iff.mp hguard
  have hsocket := (Bool.and_eq_true_iff.mp hopen).1
  obtain ⟨rest, hrest⟩ := List.isPrefixOf_iff_prefix.mp hprefix
  rw [List.append_nil]
  refine ⟨fun hclosed => ?_, fun _ => h.queue hsocket, fun _ => ?_, h.ascii, h.replied, h.owned⟩
  · exact absurd (hsocket.symm.trans hclosed) (by decide)
  · obtain ⟨text, hencode, hunits⟩ := h.text hsocket
    have hsplit : encode text = encode (decode chunk) ++ rest := by
      rw [hwhole.encode_decode, hrest, hencode]
    obtain ⟨later, rfl, rfl⟩ := encode_append_inv hsplit
    refine ⟨later, ?_, ?_⟩
    · dsimp only
      rw [← hrest, List.drop_left]
    · rw [← hunits, units_append, List.append_assoc]
      rfl

/-- What the client takes from the buffer is the first message that has not been handled. -/
theorem Inv.head {s : System} {ws : List Observed} (h : Inv s ws) {m : Message} {rest : Text}
    (htake : takeMessage s.client.buffer = some (m, rest)) :
    s.client.socket = true ∧ ∃ x xs, s.inflight = x :: xs ∧ m = x.packet.handed ∧
      ∃ text, s.wire = encode text ∧ rest ++ units text = units (texts xs) := by
  have hsocket : s.client.socket = true := by
    cases hs : s.client.socket with
    | true => rfl
    | false =>
      have hidle := h.closed hs
      rw [System.idle, htake] at hidle
      cases hidle
  obtain ⟨text, hencode, hunits⟩ := h.text hsocket
  have hframed := (takeMessage_eq_some htake).append (units text)
  rw [hunits] at hframed
  refine ⟨hsocket, ?_⟩
  cases hinflight : s.inflight with
  | nil =>
    rw [hinflight] at hframed
    exact absurd hframed.length_lt (Nat.not_lt_zero _)
  | cons x xs =>
    rw [hinflight] at hframed
    have hascii := h.ascii x (hinflight ▸ List.mem_cons_self)
    obtain ⟨hm, hrest⟩ := Framed.unique x.wellFormed hascii hframed
    exact ⟨x, xs, rfl, hm, text, hencode, hrest⟩

theorem filterMap_written {sent : List Sent} (h : ∀ command, .api command ∉ sent) :
    sent.filterMap Sent.command = [] := by
  rw [List.filterMap_eq_nil_iff]
  intro text htext
  cases text with
  | auth | subscribe => rfl
  | api command => exact absurd htext (h command)

theorem inv_handle (h : Inv s ws)
    (horderly : Orderly (s, ws) .handle) (hact : act s .handle = some (s', ws')) :
    Inv s' (ws ++ ws') := by
  obtain ⟨⟨m, rest⟩, htake, hact⟩ := Option.bind_eq_some_iff.mp hact
  obtain ⟨rfl, rfl⟩ := Prod.mk.inj (Option.some.inj hact)
  obtain ⟨hsocket, x, xs, hinflight, rfl, text, hencode, hunits⟩ := h.head htake
  have hascii := fun y hy => h.ascii y (hinflight ▸ List.mem_cons_of_mem x hy)
  have hreplied := fun y hy command hrole => List.mem_append_left
    (settlements (handleMessage { s.client with buffer := rest } x.packet.handed).2)
    (h.replied y (hinflight ▸ List.mem_cons_of_mem x hy) command hrole)
  have horder : HandledInOrder s.client x.packet.handed x.role :=
    horderly x (by rw [hinflight]; rfl)
  have hqueue := h.queue hsocket
  rw [hinflight, List.filterMap_cons] at hqueue
  by_cases hrole : ∃ command, x.role = .reply (.api command)
  · -- its own reply settles the first command
    obtain ⟨command, hrole⟩ := hrole
    have hcommand : x.command = some command := by
      rw [Spoken.command, hrole]
      rfl
    rw [hcommand] at hqueue
    have hown := handleMessage_own (c := { s.client with buffer := rest }) hrole hqueue horder
    rw [hown] at hreplied ⊢
    refine ⟨fun hclosed => ?_, fun _ => ?_, fun _ => ⟨text, hencode, ?_⟩, ?_, ?_, ?_⟩
    · exact absurd (hsocket.symm.trans hclosed) (by decide)
    · rw [System.goesOn, hinflight]
      simp [written]
    · rw [hinflight]
      exact hunits
    · rw [hinflight]
      exact hascii
    · rw [hinflight]
      exact hreplied
    · refine h.owned.append fun command' result hmem => ?_
      obtain ⟨rfl, rfl⟩ : command' = command ∧ result = resultOf x.packet.handed := by
        simpa [settlements] using hmem
      exact ⟨x.packet.handed, List.mem_append_left _
        (h.replied x (hinflight ▸ List.mem_cons_self) command' hrole), rfl⟩
  · have hcommand : x.command = none := by
      unfold Spoken.command
      cases hr : x.role with
      | greeting | other => rfl
      | reply sent =>
        cases sent with
        | auth | subscribe => rfl
        | api command => exact absurd ⟨command, hr⟩ hrole
    rw [hcommand] at hqueue
    have hquiet := handleMessage_quiet (c := { s.client with buffer := rest }) (m := x)
      (fun command hr => hrole ⟨command, hr⟩) horder
    refine ⟨fun hclosed => ?_, fun _ => ?_, fun _ => ⟨text, hencode, ?_⟩, ?_, ?_, ?_⟩
    · exact absurd (hsocket.symm.trans (hquiet.socket.symm.trans hclosed)) (by decide)
    · rw [System.goesOn, hinflight, List.filterMap_append, filterMap_written hquiet.written,
        List.append_nil]
      exact hquiet.queue.trans hqueue
    · rw [hinflight, System.goesOn, hquiet.buffer]
      exact hunits
    · rw [hinflight]
      exact hascii
    · rw [hinflight]
      exact hreplied
    · rw [hquiet.settled, List.append_nil]
      exact h.owned

/-- **What a step that meets the condition keeps.** -/
theorem act_inv {e : Event} (h : Inv s ws)
    (horderly : Orderly (s, ws) e) (hact : act s e = some (s', ws')) : Inv s' (ws ++ ws') := by
  cases e with
  | opened => exact inv_opened h horderly hact
  | closed => exact inv_closed h hact
  | send command => exact inv_send h horderly hact
  | speak m => exact inv_speak h horderly hact
  | deliver chunk => exact inv_deliver h horderly hact
  | handle => exact inv_handle h horderly hact

/-! ## Runs -/

theorem inv_start : Inv {} [] :=
  ⟨fun _ => rfl, (fun hsocket => by cases hsocket), (fun hsocket => by cases hsocket), by simp,
    by simp, fun _ _ hmem => by cases hmem⟩

/-- **In runs whose steps meet the condition, a command is settled only by its own reply.** -/
theorem replies_owned {p : System × List Observed} {es : List Event}
    (h : run recorded ({}, []) es = some p) (horderly : Along recorded Orderly ({}, []) es) :
    Owned p.2 := by
  have hinv : Inv p.1 p.2 := by
    refine run_inv_along (I := fun p => Inv p.1 p.2) ?_ inv_start horderly h
    intro p e q hp he hstep
    obtain ⟨hstep, hws⟩ := recording_eq_some.mp hstep
    obtain ⟨⟨s', ws'⟩, hact, hs'⟩ := Option.map_eq_some_iff.mp hstep
    have hout : out p.1 e = ws' := by
      rw [out, hact]
      rfl
    rw [hws, hout, ← hs']
    exact act_inv hp he hact
  exact hinv.owned

/-- **Exactly the messages are handed over, exactly if no chunk is cut inside a character or begins
with a byte order mark, and bodies are ASCII; and in runs whose steps meet the condition, a command
is settled only by its own reply.** -/
theorem client_sound {ps : List Packet} {chunks : List (List UInt8)}
    (hps : ∀ p ∈ ps, p.WellFormed) (hchunks : chunks.flatten = encode (ps.flatMap Packet.text))
    {es : List Event} {p : System × List Observed} (h : run recorded ({}, []) es = some p) :
    ((received chunks).1 = ps.map Packet.handed ↔
      (∀ chunk ∈ chunks, Whole chunk) ∧ ∀ p ∈ ps, ∀ c ∈ p.body.getD [], c.toNat < 128) ∧
    (Along recorded Orderly ({}, []) es → Owned p.2) :=
  ⟨framing_iff hps hchunks, replies_owned h⟩

/-! ## Examples of runs -/

def authRequest : Spoken where
  role := .greeting
  packet := ⟨[("Content-Type".toList, "auth/request".toList)], none⟩
  wellFormed := ⟨by decide, by decide, by decide +kernel⟩
  speaks := by decide +kernel

/-- The reply to the authentication. -/
def authAccepted : Spoken where
  role := .reply .auth
  packet := ⟨[("Content-Type".toList, "command/reply".toList),
    ("Reply-Text".toList, "+OK accepted".toList)], none⟩
  wellFormed := ⟨by decide, by decide, by decide +kernel⟩
  speaks := by decide +kernel

/-- The reply to the subscription. -/
def subscribed : Spoken where
  role := .reply .subscribe
  packet := ⟨[("Content-Type".toList, "command/reply".toList),
    ("Reply-Text".toList, "+OK Event Listener enabled plain".toList)], none⟩
  wellFormed := ⟨by decide, by decide, by decide +kernel⟩
  speaks := by decide +kernel

/-- The response to the first command. -/
def status : Spoken where
  role := .reply (.api 1)
  packet := ⟨[("Content-Type".toList, "api/response".toList),
    ("Content-Length".toList, "3".toList)], some "UP\n".toList⟩
  wellFormed := ⟨by decide, by decide, by decide +kernel⟩
  speaks := by decide +kernel

/-- A message is sent, delivered and handled. -/
def exchange (m : Spoken) : List Event := [.speak m, .deliver (encode m.packet.text), .handle]

/-- The client connects; its subscription is sent twice. -/
def connecting : List Event :=
  .opened :: ([authRequest, authAccepted, subscribed, subscribed].flatMap exchange)

def answered : List Event := connecting ++ .send 1 :: exchange status

/-- The connection is lost; a command is sent before the authentication is renewed. -/
def renewed : List Event :=
  connecting ++ [.closed, .opened] ++ exchange authRequest ++ .send 1 :: exchange authAccepted

/-- A message with a body of two bytes and one code unit. -/
def accented : Packet :=
  ⟨[("Content-Type".toList, "text/event-plain".toList), ("Content-Length".toList, "2".toList)],
    some "é".toList⟩

theorem client_sound_answered :
    (received [encode status.packet.text]).1 = [status.packet.handed] ∧
      ∃ p, run recorded ({}, []) answered = some p ∧ Owned p.2 := by
  obtain ⟨p, hp⟩ : ∃ p, run recorded ({}, []) answered = some p :=
    Option.isSome_iff_exists.mp (by decide +kernel)
  have hps : ∀ q ∈ [status.packet], q.WellFormed := by simpa using status.wellFormed
  have hchunks : [encode status.packet.text].flatten =
      encode ([status.packet].flatMap Packet.text) := by simp
  obtain ⟨hframed, howned⟩ := client_sound hps hchunks hp
  refine ⟨hframed.mpr ⟨?_, ?_⟩, p, hp, howned (by decide +kernel)⟩
  · decide +kernel
  · decide +kernel

def settledCommands (ws : List Observed) : List Nat :=
  ws.filterMap fun
    | .settled command _ => some command
    | .replied _ _ => none

def repliedCommands (ws : List Observed) : List Nat :=
  ws.filterMap fun
    | .replied command _ => some command
    | .settled _ _ => none

theorem Owned.subset {ws : List Observed} (h : Owned ws) :
    settledCommands ws ⊆ repliedCommands ws := by
  intro command hmem
  obtain ⟨w, hw, hsettled⟩ := List.mem_filterMap.mp hmem
  cases w with
  | replied => cases hsettled
  | settled command' result =>
    obtain rfl := Option.some.inj hsettled
    obtain ⟨m, hm, -⟩ := h command' result hw
    exact List.mem_filterMap.mpr ⟨_, hm, rfl⟩

/-- **A body that is not ASCII is not handed over as it was sent, and the reply to a renewed
authentication settles a command.** -/
theorem strayReply_settles :
    (accented.WellFormed ∧ (received [encode accented.text]).1 ≠ [accented.handed]) ∧
      ∃ p, run recorded ({}, []) renewed = some p ∧ ¬ Owned p.2 := by
  have hbody : (charCodes "Content-Length", units (decimal (encode "é".toList).length)) ∈
      accented.pairs := by
    decide +kernel
  have hformed : accented.WellFormed := ⟨by decide, by decide, hbody⟩
  refine ⟨⟨hformed, fun heq => ?_⟩, ?_⟩
  · have hpackets : ∀ p ∈ [accented], p.WellFormed := List.forall_mem_singleton.mpr hformed
    have hascii := ((framing_iff hpackets (by simp)).mp heq).2
    exact absurd hascii (by decide +kernel)
  · have hcommands : (run recorded ({}, []) renewed).map
        (fun p => (settledCommands p.2, repliedCommands p.2)) = some ([1], []) := by
      decide +kernel
    obtain ⟨p, hp, hboth⟩ := Option.map_eq_some_iff.mp hcommands
    refine ⟨p, hp, fun howned => ?_⟩
    obtain ⟨hsettled, hreplied⟩ := Prod.mk.inj hboth
    have hsubset := howned.subset
    rw [hsettled, hreplied] at hsubset
    exact absurd (hsubset List.mem_cons_self) List.not_mem_nil

end Llamenos.SipBridge.Esl
