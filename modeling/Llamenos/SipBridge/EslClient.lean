import Llamenos.Lib.Utf8Stream
import Llamenos.Worker.Runtime
import Mathlib.Logic.Function.Basic

/-!
# The event socket client

`esl-client.ts` of the SIP bridge, up to the translation of events: what comes over the connection
is decoded, cut into messages and handed to `handleMessage`, which signs in, subscribes to events,
and settles the commands that wait for a reply. Texts are JavaScript's, lists of code units.

A command is the number of its call of `sendCommand`. What is written to the socket is which of the
client's texts it was. The timer of the reconnection and the connection's deadline are left out: a
connection is opened again when it is.

Results:
* `takeMessage_eq_some`: what a message that is taken from the buffer was there.
* `processBuffer_rest`: the loop goes on until no message is complete.
* `received_frames`: what is handed over is in the text that was received.
-/

namespace Llamenos.SipBridge.Esl

open Llamenos.Lib Llamenos.Lib.Utf8Stream

/-! ## Texts -/

/-- A text: its code units. -/
abbrev Text := List Nat

/-- `text.indexOf(part)`, `none` for -1. -/
def indexOf (part : Text) : Text → Option Nat
  | [] => if part = [] then some 0 else none
  | u :: us => if part.isPrefixOf (u :: us) then some 0 else (indexOf part us).map (· + 1)

/-- `text.startsWith(start)`. -/
def startsWith (start : String) (us : Text) : Bool := (charCodes start).isPrefixOf us

/-- `text.includes(part)`. -/
def includes (part : String) (us : Text) : Bool := (indexOf (charCodes part) us).isSome

def isSpace (u : Nat) : Bool := Worker.isSpace (Char.ofNat u)

/-- `text.trim()`. -/
def trim (us : Text) : Text := ((us.dropWhile isSpace).reverse.dropWhile isSpace).reverse

def isDigit (u : Nat) : Bool := 48 ≤ u && u ≤ 57

/-- A text without its sign, and whether it was a minus. -/
def sign : Text → Bool × Text
  | [] => (false, [])
  | u :: us => if u = 45 then (true, us) else if u = 43 then (false, us) else (false, u :: us)

/-- `Number.parseInt(text, 10)`, `none` for `NaN`. -/
def parseInt (us : Text) : Option Int :=
  let (negative, us) := sign (us.dropWhile isSpace)
  match us.takeWhile isDigit with
  | [] => none
  | digits =>
    let n : Nat := digits.foldl (fun n u => 10 * n + (u - 48)) 0
    some (if negative then -n else n)

/-- Where `text.slice` cuts: a negative position counts from the end. -/
def position (us : Text) (n : Int) : Nat := if n < 0 then (us.length + n).toNat else n.toNat

/-- One `%XX`, and what follows. -/
def percentByte : Text → Option (Nat × Text)
  | p :: hi :: lo :: us =>
    if p = 37 then do
      let hi ← hexVal hi
      let lo ← hexVal lo
      pure (16 * hi + lo, us)
    else none
  | _ => none

def percentBytes : Nat → Text → Option (List Nat × Text)
  | 0, us => some ([], us)
  | n + 1, us => do
    let (b, us) ← percentByte us
    let (bs, us) ← percentBytes n us
    pure (b :: bs, us)

/-- How many bytes follow the first one of a character, by its leading ones. -/
def following (b : Nat) : Option Nat :=
  if b < 0x80 then some 0
  else if b < 0xC0 then none
  else if b < 0xE0 then some 1
  else if b < 0xF0 then some 2
  else if b < 0xF8 then some 3
  else none

/-- The character of an escape sequence, and what follows. -/
def escape (us : Text) : Option (Text × Text) := do
  let (b, _) ← percentByte us
  let n ← following b
  let (bs, rest) ← percentBytes (n + 1) us
  let bytes := bs.map UInt8.ofNat
  let cs := (feed none bytes).1
  if encode cs = bytes then pure (units cs, rest) else none

/-- `decodeURIComponent`, with no more steps than a limit. -/
def decodeWithin : Nat → Text → Option Text
  | _, [] => some []
  | 0, _ :: _ => none
  | n + 1, u :: us =>
    if u = 37 then do
      let (cs, rest) ← escape (u :: us)
      let more ← decodeWithin n rest
      pure (cs ++ more)
    else do
      let more ← decodeWithin n us
      pure (u :: more)

/-- `decodeURIComponent`, `none` if it throws. Each step takes a unit at least. -/
def decodeURIComponent (us : Text) : Option Text := decodeWithin us.length us

/-! ## Messages -/

abbrev Headers := Text → Option Text

/-- `headers[name]`. -/
def Headers.get (headers : Headers) (name : String) : Option Text := headers (charCodes name)

/-- `result[key] = value`. Setting `__proto__` to a text does nothing. -/
def Headers.set (headers : Headers) (key value : Text) : Headers :=
  if key = charCodes "__proto__" then headers else Function.update headers key (some value)

structure Message where
  headers : Headers
  body : Text

/-- What a header's value is read as. -/
def decoded (value : Text) : Text := (decodeURIComponent value).getD value

/-- One line of `parseHeaders`. -/
def parseLine (result : Headers) (line : Text) : Headers :=
  match indexOf (charCodes ": ") line with
  | none => result
  | some colonIdx =>
    result.set (trim (line.take colonIdx)) (decoded (trim (line.drop (colonIdx + 2))))

def parseHeaders (headerBlock : Text) : Headers :=
  (headerBlock.splitOn 10).foldl parseLine fun _ => none

/-- One iteration of `processBuffer`: the message that the buffer begins with, if it is complete,
and the buffer after it. -/
def takeMessage (buffer : Text) : Option (Message × Text) :=
  match indexOf (charCodes "\n\n") buffer with
  | none => none
  | some separatorIdx =>
    let rest := buffer.drop (separatorIdx + 2)
    let headers := parseHeaders (buffer.take separatorIdx)
    match headers.get "Content-Length" with
    | none => some (⟨headers, []⟩, rest)
    | some contentLength =>
      match parseInt contentLength with
      | none => some (⟨headers, []⟩, rest)
      | some len =>
        if rest.length < len then none
        else some (⟨headers, rest.take (position rest len)⟩, rest.drop (position rest len))

/-- `processBuffer`, with no more iterations than a limit: the messages that are handed over, and
the buffer that is left. -/
def processWithin : Nat → Text → List Message × Text
  | 0, buffer => ([], buffer)
  | n + 1, buffer =>
    match takeMessage buffer with
    | none => ([], buffer)
    | some (message, rest) => (message :: (processWithin n rest).1, (processWithin n rest).2)

/-- `processBuffer`. Each message takes two units at least. -/
def processBuffer (buffer : Text) : List Message × Text := processWithin buffer.length buffer

/-- What a chunk becomes: `data` decodes each by itself. -/
def chunkText (chunk : List UInt8) : Text := units (decode chunk)

/-- A chunk is received. -/
def receive (p : List Message × Text) (chunk : List UInt8) : List Message × Text :=
  let (messages, buffer) := processBuffer (p.2 ++ chunkText chunk)
  (p.1 ++ messages, buffer)

/-- The messages that are handed to `handleMessage` when chunks come one after the other, and the
buffer after them. -/
def received (chunks : List (List UInt8)) : List Message × Text := chunks.foldl receive ([], [])

/-! ## The client -/

/-- What the client writes. -/
inductive Sent where
  | auth
  | subscribe
  | api (command : Nat)
  deriving DecidableEq

inductive Output where
  | write (text : Sent)
  | connected
  | connectFailed (reply : Text)
  | settle (command : Nat) (result : Except Text Text)
  | event (headers : Headers)

structure Client where
  socket : Bool := false
  connected : Bool := false
  shouldReconnect : Bool := true
  hasConnected : Bool := false
  buffer : Text := []
  commandQueue : List Nat := []

/-- `sendRaw`: without a socket nothing is sent. -/
def sendRaw (c : Client) (text : Sent) : List Output := if c.socket then [.write text] else []

/-- `sendCommand`. -/
def sendCommand (c : Client) (command : Nat) : Client × List Output :=
  ({ c with commandQueue := c.commandQueue ++ [command] }, sendRaw c (.api command))

/-- The first command of the queue is resolved or rejected, if there is one. -/
def settleFirst (c : Client) (result : Except Text Text) : Client × List Output :=
  match c.commandQueue with
  | [] => (c, [])
  | command :: commandQueue =>
    ({ c with commandQueue := commandQueue }, [.settle command result])

/-- What a `command/reply` says of a command. -/
def replyResult (reply : Text) : Except Text Text :=
  if startsWith "+OK" reply then .ok reply else .error (charCodes "ESL command failed: " ++ reply)

/-- What an `api/response` says of a command. -/
def responseResult (body : Text) : Except Text Text :=
  let result := trim body
  if startsWith "-ERR" result then .error (charCodes "ESL api error: " ++ result) else .ok result

/-- The `command/reply` case of the switch. -/
def commandReply (c : Client) (reply : Text) : Client × List Output :=
  if startsWith "+OK" reply then
    if !c.hasConnected then (c, sendRaw c .subscribe) else settleFirst c (replyResult reply)
  else if startsWith "-ERR" reply then
    if !c.hasConnected then ({ c with shouldReconnect := false }, [.connectFailed reply])
    else settleFirst c (replyResult reply)
  else (c, [])

/-- After the switch: a successful connection is detected. -/
def detectConnection (c : Client) (reply : Text) : Client × List Output :=
  if !c.hasConnected && startsWith "+OK" reply && includes "Event Listener" reply then
    ({ c with
        hasConnected := true
        connected := true }, [.connected])
  else (c, [])

def Message.contentType (m : Message) : Option Text := m.headers.get "Content-Type"

def Message.replyText (m : Message) : Text := (m.headers.get "Reply-Text").getD []

def handleMessage (c : Client) (m : Message) : Client × List Output :=
  if m.contentType = some (charCodes "auth/request") then (c, sendRaw c .auth)
  else if m.contentType = some (charCodes "command/reply") then
    let (c, outputs) := commandReply c m.replyText
    let (c, detected) := detectConnection c m.replyText
    (c, outputs ++ detected)
  else if m.contentType = some (charCodes "api/response") then
    settleFirst c (responseResult m.body)
  else if m.contentType = some (charCodes "text/event-plain") then
    (c, [.event (parseHeaders m.body)])
  else (c, [])

/-! ## What is found in texts -/

theorem indexOf_append {p : Nat} {ps xs : Text} (hxs : p ∉ xs) (ys : Text) :
    indexOf (p :: ps) (xs ++ p :: (ps ++ ys)) = some xs.length := by
  induction xs with
  | nil => rw [List.nil_append, indexOf, if_pos (by simp)]; rfl
  | cons x xs ih =>
    obtain ⟨hx, hxs⟩ := List.ne_and_not_mem_of_not_mem_cons hxs
    have hne : ¬ (p :: ps).isPrefixOf (x :: (xs ++ p :: (ps ++ ys))) := by
      simp [hx]
    rw [List.cons_append, indexOf, if_neg hne, ih hxs]
    rfl

/-- The first empty line is found. -/
theorem indexOf_break {block rest : Text} (h : ¬ [10, 10] <:+: block ++ [10]) :
    indexOf [10, 10] (block ++ 10 :: 10 :: rest) = some block.length := by
  induction block with
  | nil => rfl
  | cons u us ih =>
    rw [List.cons_append, List.infix_cons_iff, not_or] at h
    have hne : ¬ List.isPrefixOf [10, 10] (u :: (us ++ 10 :: 10 :: rest)) := by
      rw [List.isPrefixOf_iff_prefix]
      intro hprefix
      refine h.1 (List.prefix_of_prefix_length_le hprefix ⟨10 :: rest, by simp⟩ (by simp))
    rw [List.cons_append, indexOf, if_neg hne, ih h.2]
    rfl

theorem exists_of_indexOf_break {buffer : Text} {i : Nat} (h : indexOf [10, 10] buffer = some i) :
    ∃ block rest, buffer = block ++ 10 :: 10 :: rest ∧ i = block.length ∧
      ¬ [10, 10] <:+: block ++ [10] := by
  induction buffer generalizing i with
  | nil => cases h
  | cons u us ih =>
    rw [indexOf] at h
    split_ifs at h with hprefix
    · obtain ⟨rest, hrest⟩ := List.isPrefixOf_iff_prefix.mp hprefix
      refine ⟨[], rest, hrest.symm, (Option.some.inj h).symm, fun hinfix => ?_⟩
      have := hinfix.length_le
      simp at this
    · obtain ⟨j, hj, rfl⟩ := Option.map_eq_some_iff.mp h
      obtain ⟨block, rest, rfl, rfl, hbreak⟩ := ih hj
      refine ⟨u :: block, rest, rfl, rfl, ?_⟩
      rw [List.cons_append, List.infix_cons_iff, not_or]
      refine ⟨fun hlater => hprefix ?_, hbreak⟩
      exact List.isPrefixOf_iff_prefix.mpr (hlater.trans ⟨10 :: rest, by simp⟩)

/-! ## Messages in the buffer -/

/-- The length of a body is what the headers say, if they do. -/
def Message.Measured (m : Message) : Prop :=
  match m.headers.get "Content-Length" >>= parseInt with
  | none => m.body = []
  | some len => 0 ≤ len → m.body.length = len

/-- A buffer begins with a message, and what follows it. -/
def Framed (buffer : Text) (m : Message) (rest : Text) : Prop :=
  ∃ block, buffer = block ++ 10 :: 10 :: (m.body ++ rest) ∧ ¬ [10, 10] <:+: block ++ [10] ∧
    m.headers = parseHeaders block ∧ m.Measured

variable {buffer rest : Text}

/-- **What a message that is taken from the buffer was there.** -/
theorem takeMessage_eq_some {m : Message}
    (h : takeMessage buffer = some (m, rest)) : Framed buffer m rest := by
  unfold takeMessage at h
  split at h
  · cases h
  · rename_i i hi
    obtain ⟨block, after, rfl, rfl, hbreak⟩ := exists_of_indexOf_break hi
    have hblock : (block ++ 10 :: 10 :: after).take block.length = block := List.take_left
    have hafter : (block ++ 10 :: 10 :: after).drop (block.length + 2) = after := by
      rw [← List.drop_drop, List.drop_left]
      rfl
    rw [hblock, hafter] at h
    dsimp only at h
    split at h
    · rename_i hnone
      obtain ⟨rfl, rfl⟩ := Prod.mk.inj (Option.some.inj h)
      refine ⟨block, rfl, hbreak, rfl, ?_⟩
      unfold Message.Measured
      rw [hnone]
      rfl
    · rename_i contentLength hsome
      split at h
      · rename_i hnan
        obtain ⟨rfl, rfl⟩ := Prod.mk.inj (Option.some.inj h)
        refine ⟨block, rfl, hbreak, rfl, ?_⟩
        unfold Message.Measured
        rw [hsome, Option.bind_eq_bind, Option.bind_some, hnan]
      · rename_i len hlen
        split_ifs at h with hshort
        obtain ⟨rfl, rfl⟩ := Prod.mk.inj (Option.some.inj h)
        refine ⟨block, by rw [List.take_append_drop], hbreak, rfl, ?_⟩
        unfold Message.Measured
        rw [hsome, Option.bind_eq_bind, Option.bind_some, hlen]
        intro hpos
        rw [List.length_take, position, if_neg (by omega)]
        omega

/-- A message that the buffer begins with is taken from it. -/
theorem takeMessage_framed {m : Message} (h : Framed buffer m rest)
    (hlen : ∀ len, m.headers.get "Content-Length" >>= parseInt = some len → 0 ≤ len) :
    takeMessage buffer = some (m, rest) := by
  obtain ⟨block, rfl, hbreak, hheaders, hmeasured⟩ := h
  have hblock : (block ++ 10 :: 10 :: (m.body ++ rest)).take block.length = block := List.take_left
  have hafter : (block ++ 10 :: 10 :: (m.body ++ rest)).drop (block.length + 2) =
      m.body ++ rest := by
    rw [← List.drop_drop, List.drop_left]
    rfl
  unfold takeMessage
  rw [show indexOf (charCodes "\n\n") _ = some block.length from indexOf_break hbreak]
  dsimp only
  rw [hblock, hafter, ← hheaders]
  unfold Message.Measured at hmeasured
  cases hget : m.headers.get "Content-Length" with
  | none =>
    rw [hget] at hmeasured
    have hbody : m.body = [] := hmeasured
    dsimp only
    rw [hbody, List.nil_append]
    rw [← hbody]
  | some contentLength =>
    rw [hget, Option.bind_eq_bind, Option.bind_some] at hmeasured hlen
    dsimp only
    cases hparse : parseInt contentLength with
    | none =>
      rw [hparse] at hmeasured
      have hbody : m.body = [] := hmeasured
      dsimp only
      rw [hbody, List.nil_append]
      rw [← hbody]
    | some len =>
      rw [hparse] at hmeasured
      have hpos := hlen len hparse
      have hbody : (m.body.length : Int) = len := hmeasured hpos
      have hposition : position (m.body ++ rest) len = m.body.length := by
        rw [position, if_neg (by omega)]
        omega
      have hlong : ¬ ((m.body ++ rest).length : Int) < len := by
        rw [List.length_append]
        omega
      dsimp only
      rw [if_neg hlong, hposition, List.take_left, List.drop_left]

theorem Framed.length_lt {m : Message} (h : Framed buffer m rest) :
    rest.length < buffer.length := by
  obtain ⟨block, rfl, -, -, -⟩ := h
  simp only [List.length_append, List.length_cons]
  omega

theorem Framed.append {m : Message} (h : Framed buffer m rest) (more : Text) :
    Framed (buffer ++ more) m (rest ++ more) := by
  obtain ⟨block, rfl, hbreak, hheaders, hmeasured⟩ := h
  exact ⟨block, by simp, hbreak, hheaders, hmeasured⟩

/-- **The loop goes on until no message is complete.** -/
theorem processBuffer_rest (buffer : Text) : takeMessage (processBuffer buffer).2 = none := by
  have hwithin : ∀ n, buffer.length ≤ n → takeMessage (processWithin n buffer).2 = none := by
    intro n hn
    induction n generalizing buffer with
    | zero =>
      obtain rfl := List.length_eq_zero_iff.mp (Nat.le_zero.mp hn)
      rfl
    | succ n ih =>
      rw [processWithin]
      cases htake : takeMessage buffer with
      | none => exact htake
      | some taken =>
        have hlt := (takeMessage_eq_some htake).length_lt
        exact ih taken.2 (by omega)
  exact hwithin buffer.length (Nat.le_refl _)

/-- Messages that follow each other in a text, and what is left. -/
inductive Frames : Text → List Message → Text → Prop
  | nil (text : Text) : Frames text [] text
  | cons {text rest last : Text} {m : Message} {ms : List Message} : Framed text m rest →
      Frames rest ms last → Frames text (m :: ms) last

theorem Frames.append {text rest last : Text} {ms ms' : List Message} (h : Frames text ms rest)
    (h' : Frames rest ms' last) : Frames text (ms ++ ms') last := by
  induction h with
  | nil => exact h'
  | cons hm _ ih => exact .cons hm (ih h')

theorem Frames.extend {text rest : Text} {ms : List Message} (h : Frames text ms rest)
    (more : Text) : Frames (text ++ more) ms (rest ++ more) := by
  induction h with
  | nil => exact .nil _
  | cons hm _ ih => exact .cons (hm.append more) ih

theorem processWithin_frames (n : Nat) (buffer : Text) :
    Frames buffer (processWithin n buffer).1 (processWithin n buffer).2 := by
  induction n generalizing buffer with
  | zero => exact .nil buffer
  | succ n ih =>
    rw [processWithin]
    cases htake : takeMessage buffer with
    | none => exact .nil buffer
    | some taken => exact .cons (takeMessage_eq_some htake) (ih taken.2)

/-- **What is handed over is in the text that was received**, in order and without gaps, and no
further message is complete. -/
theorem received_frames (chunks : List (List UInt8)) :
    Frames (chunks.flatMap chunkText) (received chunks).1 (received chunks).2 ∧
      takeMessage (received chunks).2 = none := by
  induction chunks using List.reverseRecOn with
  | nil => exact ⟨.nil [], rfl⟩
  | append_singleton chunks chunk ih =>
    have hreceived : received (chunks ++ [chunk]) = receive (received chunks) chunk := by
      rw [received, List.foldl_append]
      rfl
    rw [hreceived, List.flatMap_append, List.flatMap_singleton]
    exact ⟨(ih.1.extend _).append (processWithin_frames _ _), processBuffer_rest _⟩

end Llamenos.SipBridge.Esl
