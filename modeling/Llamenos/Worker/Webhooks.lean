import Llamenos.Crypto.Primitives
import Llamenos.Lib.Runs
import Mathlib.Data.List.Pairwise

/-!
# The messaging webhook and its replay guard

A request to a channel's webhook goes through `webhookAuth` of `middleware/webhook-auth.ts`, as
`messaging/router.ts` sets it up, and then through the handler there, up to where it begins to
process the message. Both call `checkWebhookReplay` of `services/webhook-replay.ts`, the middleware
before the signature has been validated. Nothing calls `cleanupExpiredNonces`, so a nonce stays.

A run is any interleaving of the requests to one channel's endpoint: each arrives at the middleware,
enters the handler, and is processed or fails. What the checks of a request find (the address, the
configuration, the signature) is given with the request, SHA-256 is a parameter.

Results:
* `replays_justified_iff_along`: **exactly which runs** answer a request as a replay only if one of
  its body has been processed.
-/

namespace Llamenos.Worker.Webhooks

open Llamenos.Lib Llamenos.Crypto

/-! ## The checks -/

/-- A request, with the media type of its `content-type` header and with what is found of it. -/
structure Request where
  mediaType : Option String := some "application/json"
  messagingIp : Bool := true
  configured : Bool := true
  channelIp : Bool := true
  signatureValid : Bool := true
  body : String
  deriving DecidableEq

/-- An answer before the message is processed; `ok` is the one to a replay. -/
inductive Response where
  | unsupportedMediaType
  | forbidden
  | notFound
  | ok
  deriving DecidableEq

structure WebhookAuthOptions where
  provider : String
  allowedContentTypes : Option (List String) := none
  skipReplay : Bool := false

/-- The options of the messaging webhook. -/
def messagingAuth : WebhookAuthOptions where
  provider := "messaging"
  allowedContentTypes := some ["application/json"]

def validChannels : List String := ["sms", "whatsapp", "signal", "rcs", "telegram"]

variable (sha256 : Bytes → U8Array 32)

/-- The nonce that `checkWebhookReplay` stores. -/
def nonceHash (text : String) : String := hexEncode (sha256 (asBytes text)).bytes

def nonceInput (provider bodyText : String) : String := provider ++ ":" ++ bodyText

/-- `checkWebhookReplay`: the nonces after its `INSERT`, or none if there was the nonce. -/
def checkWebhookReplay (nonces : List String) (provider bodyText : String) :
    Option (List String) :=
  let hash := nonceHash sha256 (nonceInput provider bodyText)
  if hash ∈ nonces then none else some (nonces ++ [hash])

/-- The checks of `webhookAuth` before the replay protection. -/
def turnedAway (options : WebhookAuthOptions) (r : Request) : Option Response :=
  if ∃ allowed ∈ options.allowedContentTypes, ∃ type ∈ r.mediaType,
      type ≠ "" ∧ type ∉ allowed then
    some .unsupportedMediaType
  else if r.messagingIp = false then some .forbidden
  else none

/-- `webhookAuth`, with the nonces it leaves where it goes on. -/
def webhookAuth (options : WebhookAuthOptions) (nonces : List String) (r : Request) :
    Except Response (List String) :=
  match turnedAway options r with
  | some response => .error response
  | none =>
    if options.skipReplay then .ok nonces
    else
      match checkWebhookReplay sha256 nonces options.provider r.body with
      | none => .error .ok
      | some nonces => .ok nonces

/-- The checks of the handler before the replay protection. -/
def refused (channel : String) (r : Request) : Option Response :=
  if channel ∉ validChannels then some .notFound
  else if r.configured = false then some .notFound
  else if r.channelIp = false then some .forbidden
  else if r.signatureValid = false then some .forbidden
  else none

/-- The handler up to where it processes the message. -/
def webhookEntry (channel : String) (nonces : List String) (r : Request) :
    Except Response (List String) :=
  match refused channel r with
  | some response => .error response
  | none =>
    match checkWebhookReplay sha256 nonces channel r.body with
    | none => .error .ok
    | some nonces => .ok nonces

/-! ## Runs -/

/-- Where a request has come to: the middleware has answered it or let it in, the handler has
answered it or is processing it, or the processing has ended. -/
inductive Stage where
  | stopped (r : Request) (response : Response)
  | admitted (r : Request)
  | refused (r : Request) (response : Response)
  | processing (r : Request)
  | handled (r : Request)
  | failed (r : Request)
  deriving DecidableEq

def Stage.request : Stage → Request
  | .stopped r _ | .admitted r | .refused r _ | .processing r | .handled r | .failed r => r

structure System where
  nonces : List String := []
  requests : List Stage := []

/-- A request arrives; the `i`th that has arrived enters the handler, or its processing ends. -/
inductive Event where
  | arrive (r : Request)
  | enter (i : Nat)
  | finish (i : Nat) (ok : Bool)

variable (channel : String)

def step (s : System) : Event → Option System
  | .arrive r =>
    match webhookAuth sha256 messagingAuth s.nonces r with
    | .error response => some { s with requests := s.requests ++ [.stopped r response] }
    | .ok nonces => some ⟨nonces, s.requests ++ [.admitted r]⟩
  | .enter i =>
    match s.requests[i]? with
    | some (.admitted r) =>
      match webhookEntry sha256 channel s.nonces r with
      | .error response => some { s with requests := s.requests.set i (.refused r response) }
      | .ok nonces => some ⟨nonces, s.requests.set i (.processing r)⟩
    | _ => none
  | .finish i ok =>
    match s.requests[i]? with
    | some (.processing r) =>
      some { s with requests := s.requests.set i (if ok then .handled r else .failed r) }
    | _ => none

inductive Answer where
  | replay (r : Request)
  | handled (r : Request)
  deriving DecidableEq

/-- What the step answers as a replay, or has processed without an error. -/
def answers (s : System) : Event → List Answer
  | .arrive r =>
    if webhookAuth sha256 messagingAuth s.nonces r = .error .ok then [.replay r] else []
  | .enter i =>
    match s.requests[i]? with
    | some (.admitted r) =>
      if webhookEntry sha256 channel s.nonces r = .error .ok then [.replay r] else []
    | _ => []
  | .finish i ok =>
    match s.requests[i]? with
    | some (.processing r) => if ok then [.handled r] else []
    | _ => []

/-- What is answered as a replay has been processed before, with a valid signature. -/
def Justified (ws : List Answer) : Prop :=
  ∀ before r after, ws = before ++ .replay r :: after →
    ∃ r', .handled r' ∈ before ∧ r'.body = r.body ∧ r'.signatureValid = true

/-- The body of a request that the middleware has let in. -/
def Stage.noted : Stage → Option String
  | .stopped _ _ => none
  | st => some st.request.body

/-- A request that the middleware does not turn away comes when every request of its body that has
been let in is processed. -/
def DeliversFirst (s : System) : Event → Prop
  | .arrive r => turnedAway messagingAuth r = none →
      ∀ st ∈ s.requests, st.noted = some r.body → st = .handled st.request
  | _ => True

/-- The texts that the requests of the run are known by. -/
def nonceTexts (events : List Event) : List String :=
  events.flatMap fun
    | .arrive r => [nonceInput "messaging" r.body, nonceInput channel r.body]
    | _ => []

/-! ## Nonces and bodies -/

/-- The body of a request that the handler has let in. -/
def Stage.entered : Stage → Option String
  | .processing r | .handled r | .failed r => some r.body
  | _ => none

variable {sha256} {channel} {texts : List String} {s s' : System} {e : Event} {ws : List Answer}

theorem nonceHash_inj (hsha : ∀ a ∈ texts, ∀ b ∈ texts,
    sha256 (asBytes a) = sha256 (asBytes b) → a = b) {a b : String} (ha : a ∈ texts)
    (hb : b ∈ texts) (h : nonceHash sha256 a = nonceHash sha256 b) : a = b :=
  hsha a ha b hb (U8Array.ext' (hexEncode_injective h))

theorem nonceInput_inj {provider a b : String} (h : nonceInput provider a = nonceInput provider b) :
    a = b := by
  have hlist := congrArg String.toList h
  simp only [nonceInput, String.toList_append] at hlist
  exact String.toList_inj.mp (List.append_cancel_left hlist)

/-- No channel is called as the middleware's nonces are. -/
theorem nonceInput_ne {a b : String} (hchannel : channel ∈ validChannels) :
    nonceInput "messaging" a ≠ nonceInput channel b := by
  intro h
  have hlist := congrArg String.toList h
  simp only [nonceInput, String.toList_append] at hlist
  simp only [validChannels, List.mem_cons, List.not_mem_nil, or_false] at hchannel
  rcases hchannel with rfl | rfl | rfl | rfl | rfl <;> simp at hlist
variable {r : Request}

theorem turnedAway_ne_ok {options : WebhookAuthOptions} :
    turnedAway options r ≠ some .ok := by
  unfold turnedAway
  split_ifs <;> simp

theorem refused_ne_ok : refused channel r ≠ some .ok := by
  unfold refused
  split_ifs <;> simp

theorem of_refused_eq_none (h : refused channel r = none) :
    channel ∈ validChannels ∧ r.signatureValid = true := by
  unfold refused at h
  split_ifs at h with hchannel _ _ hsignature
  exact ⟨hchannel, by simpa using hsignature⟩

/-- What the stores and the answers tell of the requests. -/
structure Recorded (sha256 : Bytes → U8Array 32) (channel : String) (texts : List String)
    (s : System) (ws : List Answer) : Prop where
  texts : ∀ st ∈ s.requests, nonceInput "messaging" st.request.body ∈ texts ∧
    nonceInput channel st.request.body ∈ texts
  nonces : ∀ hash, hash ∈ s.nonces ↔
    (∃ st ∈ s.requests, ∃ b ∈ st.noted, nonceHash sha256 (nonceInput "messaging" b) = hash) ∨
      ∃ st ∈ s.requests, ∃ b ∈ st.entered, nonceHash sha256 (nonceInput channel b) = hash
  once : (s.requests.filterMap Stage.noted).Nodup
  valid : ∀ st ∈ s.requests, st.entered.isSome → refused channel st.request = none
  handled : ∀ r, .handled r ∈ ws ↔ .handled r ∈ s.requests

theorem noted_body {st : Stage} {b : String} (h : st.noted = some b) : st.request.body = b := by
  cases st <;> simp_all [Stage.noted, Stage.request]

theorem entered_body {st : Stage} {b : String} (h : st.entered = some b) :
    st.request.body = b ∧ st.noted = some b := by
  cases st <;> simp_all [Stage.entered, Stage.noted, Stage.request]

/-- **The middleware finds its nonce** exactly if it has let in a request of the body. -/
theorem noted_iff (hsha : ∀ a ∈ texts, ∀ b ∈ texts, sha256 (asBytes a) = sha256 (asBytes b) → a = b)
    (hs : Recorded sha256 channel texts s ws) {body : String}
    (hbody : nonceInput "messaging" body ∈ texts) :
    nonceHash sha256 (nonceInput "messaging" body) ∈ s.nonces ↔
      ∃ st ∈ s.requests, st.noted = some body := by
  rw [hs.nonces]
  constructor
  · rintro (⟨st, hst, b, hb, hhash⟩ | ⟨st, hst, b, hb, hhash⟩)
    · have htext := (hs.texts st hst).1
      rw [noted_body hb] at htext
      exact ⟨st, hst, nonceInput_inj (nonceHash_inj hsha htext hbody hhash) ▸ hb⟩
    · have htext := (hs.texts st hst).2
      rw [(entered_body hb).1] at htext
      have hvalid := hs.valid st hst (by rw [Option.mem_def.mp hb]; rfl)
      exact absurd (nonceHash_inj hsha hbody htext hhash.symm)
        (nonceInput_ne (of_refused_eq_none hvalid).1)
  · rintro ⟨st, hst, hnoted⟩
    exact .inl ⟨st, hst, body, hnoted, rfl⟩

/-- Two requests that have been let in with one body are the same. -/
theorem noted_unique (hs : Recorded sha256 channel texts s ws) {st st' : Stage} {b : String}
    (hst : st ∈ s.requests) (hst' : st' ∈ s.requests) (hb : st.noted = some b)
    (hb' : st'.noted = some b) : st = st' := by
  by_contra hne
  have hpairs := List.pairwise_filterMap.mp hs.once
  have hsymm : Std.Symm fun a a' : Stage => ∀ b, a.noted = some b → ∀ b', a'.noted = some b' →
      b ≠ b' := ⟨fun _ _ h b hb b' hb' => (h b' hb' b hb).symm⟩
  exact hpairs.forall hst hst' hne b hb b hb' rfl

/-- **The handler does not find its nonce**: what it has let in, the middleware has before. -/
theorem fresh_entry
    (hsha : ∀ a ∈ texts, ∀ b ∈ texts, sha256 (asBytes a) = sha256 (asBytes b) → a = b)
    (hs : Recorded sha256 channel texts s ws) (hr : .admitted r ∈ s.requests)
    (hvalid : refused channel r = none) :
    nonceHash sha256 (nonceInput channel r.body) ∉ s.nonces := by
  have hbody := (hs.texts _ hr).2
  rw [hs.nonces]
  rintro (⟨st, hst, b, hb, hhash⟩ | ⟨st, hst, b, hb, hhash⟩)
  · have htext := (hs.texts st hst).1
    rw [noted_body hb] at htext
    exact nonceInput_ne (of_refused_eq_none hvalid).1 (nonceHash_inj hsha htext hbody hhash)
  · have htext := (hs.texts st hst).2
    rw [(entered_body hb).1] at htext
    have hsame : b = r.body := nonceInput_inj (nonceHash_inj hsha htext hbody hhash)
    have hst' := noted_unique hs hst hr (hsame ▸ (entered_body hb).2) rfl
    rw [hst'] at hb
    cases hb

/-! ## One step -/

/-- What becomes of a request that arrives. -/
theorem step_arrive (hstep : step sha256 channel s (.arrive r) = some s') :
    (turnedAway messagingAuth r ≠ none ∧ answers sha256 channel s (.arrive r) = [] ∧
      ∃ response, s' = { s with requests := s.requests ++ [.stopped r response] }) ∨
    (turnedAway messagingAuth r = none ∧
      nonceHash sha256 (nonceInput "messaging" r.body) ∈ s.nonces ∧
      answers sha256 channel s (.arrive r) = [.replay r] ∧
      s' = { s with requests := s.requests ++ [.stopped r .ok] }) ∨
    (turnedAway messagingAuth r = none ∧
      nonceHash sha256 (nonceInput "messaging" r.body) ∉ s.nonces ∧
      answers sha256 channel s (.arrive r) = [] ∧
      s' = ⟨s.nonces ++ [nonceHash sha256 (nonceInput "messaging" r.body)],
        s.requests ++ [.admitted r]⟩) := by
  cases haway : turnedAway messagingAuth r with
  | some response =>
    have hauth : webhookAuth sha256 messagingAuth s.nonces r = .error response := by
      rw [webhookAuth, haway]
    have hne : response ≠ .ok := fun hok => turnedAway_ne_ok (hok ▸ haway)
    simp only [step, hauth] at hstep
    refine .inl ⟨by simp, ?_, response, (Option.some.inj hstep).symm⟩
    simp [answers, hauth, hne]
  | none =>
    by_cases hnonce : nonceHash sha256 (nonceInput "messaging" r.body) ∈ s.nonces
    · have hauth : webhookAuth sha256 messagingAuth s.nonces r = .error .ok := by
        rw [webhookAuth, haway]
        simp [messagingAuth, checkWebhookReplay, hnonce]
      simp only [step, hauth] at hstep
      refine .inr (.inl ⟨rfl, hnonce, ?_, (Option.some.inj hstep).symm⟩)
      simp [answers, hauth]
    · have hauth : webhookAuth sha256 messagingAuth s.nonces r =
          .ok (s.nonces ++ [nonceHash sha256 (nonceInput "messaging" r.body)]) := by
        rw [webhookAuth, haway]
        simp [messagingAuth, checkWebhookReplay, hnonce]
      simp only [step, hauth] at hstep
      refine .inr (.inr ⟨rfl, hnonce, ?_, (Option.some.inj hstep).symm⟩)
      simp [answers, hauth]

/-- What becomes of a request that enters the handler. -/
theorem step_enter {i : Nat}
    (hsha : ∀ a ∈ texts, ∀ b ∈ texts, sha256 (asBytes a) = sha256 (asBytes b) → a = b)
    (hs : Recorded sha256 channel texts s ws)
    (hstep : step sha256 channel s (.enter i) = some s') :
    ∃ r, s.requests[i]? = some (.admitted r) ∧ answers sha256 channel s (.enter i) = [] ∧
      ((∃ response, s' = { s with requests := s.requests.set i (.refused r response) }) ∨
        (refused channel r = none ∧
          s' = ⟨s.nonces ++ [nonceHash sha256 (nonceInput channel r.body)],
            s.requests.set i (.processing r)⟩)) := by
  rw [step] at hstep
  split at hstep
  case h_2 => cases hstep
  case h_1 r hr =>
    refine ⟨r, hr, ?_⟩
    cases hrefused : refused channel r with
    | some response =>
      have hentry : webhookEntry sha256 channel s.nonces r = .error response := by
        rw [webhookEntry, hrefused]
      have hne : response ≠ .ok := fun hok => refused_ne_ok (hok ▸ hrefused)
      simp only [hentry] at hstep
      exact ⟨by simp [answers, hr, hentry, hne], .inl ⟨response, (Option.some.inj hstep).symm⟩⟩
    | none =>
      have hnonce := fresh_entry hsha hs (List.mem_of_getElem? hr) hrefused
      have hentry : webhookEntry sha256 channel s.nonces r =
          .ok (s.nonces ++ [nonceHash sha256 (nonceInput channel r.body)]) := by
        simp [webhookEntry, hrefused, checkWebhookReplay, hnonce]
      simp only [hentry] at hstep
      exact ⟨by simp [answers, hr, hentry], .inr ⟨rfl, (Option.some.inj hstep).symm⟩⟩

/-- What becomes of a request whose processing ends. -/
theorem step_finish {i : Nat} {ok : Bool} (hstep : step sha256 channel s (.finish i ok) = some s') :
    ∃ r, s.requests[i]? = some (.processing r) ∧
      answers sha256 channel s (.finish i ok) = (if ok then [.handled r] else []) ∧
      s' = { s with requests := s.requests.set i (if ok then .handled r else .failed r) } := by
  rw [step] at hstep
  split at hstep
  case h_2 => cases hstep
  case h_1 r hr => exact ⟨r, hr, by simp only [answers, hr], (Option.some.inj hstep).symm⟩

/-- A request that comes last. -/
theorem Recorded.arrive (hs : Recorded sha256 channel texts s ws) {st : Stage}
    {nonces : List String} {out : List Answer}
    (htexts : nonceInput "messaging" st.request.body ∈ texts ∧
      nonceInput channel st.request.body ∈ texts)
    (hnonces : ∀ hash, hash ∈ nonces ↔ hash ∈ s.nonces ∨
      ∃ b ∈ st.noted, nonceHash sha256 (nonceInput "messaging" b) = hash)
    (hfresh : ∀ b ∈ st.noted, ∀ st' ∈ s.requests, st'.noted ≠ some b) (hentered : st.entered = none)
    (hout : ∀ r, .handled r ∉ out) (hst : ∀ r, st ≠ .handled r) :
    Recorded sha256 channel texts ⟨nonces, s.requests ++ [st]⟩ (ws ++ out) where
  texts st' hst' := by
    rcases List.mem_append.mp hst' with hold | hnew
    · exact hs.texts st' hold
    · exact List.mem_singleton.mp hnew ▸ htexts
  nonces hash := by
    rw [hnonces, hs.nonces]
    simp [or_and_right, exists_or, hentered, or_right_comm]
  once := by
    rw [List.filterMap_append, List.nodup_append]
    refine ⟨hs.once, ?_, ?_⟩
    · cases hnoted : st.noted <;> simp [hnoted]
    · intro b hb b' hb' heq
      obtain ⟨st', hst', hnoted⟩ := List.mem_filterMap.mp hb
      obtain ⟨last, hlast, hnoted'⟩ := List.mem_filterMap.mp hb'
      rw [List.mem_singleton.mp hlast] at hnoted'
      exact hfresh b' hnoted' st' hst' (heq ▸ hnoted)
  valid st' hst' hsome := by
    rcases List.mem_append.mp hst' with hold | hnew
    · exact hs.valid st' hold hsome
    · rw [List.mem_singleton.mp hnew, hentered] at hsome
      cases hsome
  handled r := by
    rw [List.mem_append, List.mem_append, hs.handled, List.mem_singleton, or_iff_left (hout r),
      or_iff_left fun h => hst r h.symm]

theorem exists_mem_split {before after : List Stage} {st : Stage} {P : Stage → Prop} :
    (∃ st' ∈ before ++ st :: after, P st') ↔ P st ∨ ∃ st' ∈ before ++ after, P st' := by
  simp [or_and_right, exists_or, or_left_comm]

/-- A request that goes on. -/
theorem Recorded.goOn (hs : Recorded sha256 channel texts s ws) {i : Nat} {st st' : Stage}
    (hi : s.requests[i]? = some st) {nonces : List String} {out : List Answer}
    (hrequest : st'.request = st.request) (hnoted : st'.noted = st.noted)
    (hkeep : ∀ b ∈ st.entered, st'.entered = some b)
    (hnonces : ∀ hash, hash ∈ nonces ↔ hash ∈ s.nonces ∨
      ∃ b ∈ st'.entered, nonceHash sha256 (nonceInput channel b) = hash)
    (hvalid : st'.entered.isSome → refused channel st'.request = none)
    (hst : ∀ r, st ≠ .handled r) (hout : ∀ r, .handled r ∈ out ↔ st' = .handled r) :
    Recorded sha256 channel texts ⟨nonces, s.requests.set i st'⟩ (ws ++ out) := by
  obtain ⟨hlt, hget⟩ := List.getElem?_eq_some_iff.mp hi
  obtain ⟨before, after, hsplit, -, hset⟩ : ∃ before after,
      s.requests = before ++ s.requests[i] :: after ∧ before.length = i ∧
        s.requests.set i st' = before ++ st' :: after :=
    List.exists_of_set hlt
  rw [hget] at hsplit
  rw [hset]
  have hmem : ∀ x, x ∈ before ++ st' :: after → x = st' ∨ x ∈ s.requests := by
    intro x hx
    rw [hsplit]
    simp only [List.mem_append, List.mem_cons] at hx ⊢
    tauto
  refine ⟨fun x hx => ?_, fun hash => ?_, ?_, fun x hx hsome => ?_, fun r => ?_⟩
  · rcases hmem x hx with rfl | hold
    · rw [hrequest]
      exact hs.texts st (List.mem_of_getElem? hi)
    · exact hs.texts x hold
  · have himp : (∃ b ∈ st.entered, nonceHash sha256 (nonceInput channel b) = hash) →
        ∃ b ∈ st'.entered, nonceHash sha256 (nonceInput channel b) = hash :=
      fun ⟨b, hb, hhash⟩ => ⟨b, hkeep b hb, hhash⟩
    rw [hnonces, hs.nonces, hsplit, exists_mem_split, exists_mem_split, exists_mem_split,
      exists_mem_split, hnoted, or_assoc]
    refine or_congr_right ?_
    constructor
    · rintro ((hold | hother) | hnew)
      · exact .inl (himp hold)
      · exact .inr hother
      · exact .inl hnew
    · rintro (hnew | hother)
      · exact .inr hnew
      · exact .inl (.inr hother)
  · have honce := hs.once
    rw [hsplit] at honce
    simpa only [List.filterMap_append, List.filterMap_cons, hnoted] using honce
  · rcases hmem x hx with rfl | hold
    · exact hvalid hsome
    · exact hs.valid x hold hsome
  · rw [List.mem_append, hs.handled, hout, hsplit]
    simp only [List.mem_append, List.mem_cons]
    have hne : Stage.handled r ≠ st := (hst r).symm
    rw [eq_comm (a := st')]
    tauto

/-- **A step is recorded.** -/
theorem step_recorded
    (hsha : ∀ a ∈ texts, ∀ b ∈ texts, sha256 (asBytes a) = sha256 (asBytes b) → a = b)
    (hs : Recorded sha256 channel texts s ws) (he : ∀ text ∈ nonceTexts channel [e], text ∈ texts)
    (hstep : step sha256 channel s e = some s') :
    Recorded sha256 channel texts s' (ws ++ answers sha256 channel s e) := by
  cases e with
  | arrive r =>
    have htexts : nonceInput "messaging" r.body ∈ texts ∧ nonceInput channel r.body ∈ texts :=
      ⟨he _ (by simp [nonceTexts]), he _ (by simp [nonceTexts])⟩
    rcases step_arrive hstep with ⟨-, hout, response, rfl⟩ | ⟨-, -, hout, rfl⟩ |
      ⟨-, hnonce, hout, rfl⟩
    · rw [hout]
      exact hs.arrive htexts (by simp [Stage.noted]) (by simp [Stage.noted]) rfl (by simp) (by simp)
    · rw [hout]
      exact hs.arrive htexts (by simp [Stage.noted]) (by simp [Stage.noted]) rfl (by simp) (by simp)
    · rw [hout]
      rw [noted_iff hsha hs htexts.1] at hnonce
      refine hs.arrive htexts (fun hash => ?_) (fun b hb st' hst' hnoted => ?_) rfl (by simp)
        (by simp)
      · simp [Stage.noted, Stage.request, eq_comm]
      · obtain rfl := Option.some.inj hb
        exact hnonce ⟨st', hst', hnoted⟩
  | enter i =>
    obtain ⟨r, hr, hout, ⟨response, rfl⟩ | ⟨hvalid, rfl⟩⟩ := step_enter hsha hs hstep
    · rw [hout]
      exact hs.goOn hr rfl rfl (by simp [Stage.entered]) (by simp [Stage.entered])
        (by simp [Stage.entered]) (by simp) (by simp)
    · rw [hout]
      exact hs.goOn hr rfl rfl (by simp [Stage.entered]) (by simp [Stage.entered, eq_comm])
        (fun _ => hvalid) (by simp) (by simp)
  | finish i ok =>
    obtain ⟨r, hr, hout, rfl⟩ := step_finish hstep
    have hvalid := hs.valid _ (List.mem_of_getElem? hr) rfl
    rw [hout]
    cases ok with
    | true =>
      refine hs.goOn hr rfl rfl (by simp [Stage.entered]) (fun hash => ?_) (fun _ => hvalid)
        (by simp) (by simp [eq_comm])
      refine (or_iff_left_of_imp fun ⟨b, hb, hhash⟩ => ?_).symm
      exact (hs.nonces hash).mpr (.inr ⟨_, List.mem_of_getElem? hr, b, hb, hhash⟩)
    | false =>
      refine hs.goOn hr rfl rfl (by simp [Stage.entered]) (fun hash => ?_) (fun _ => hvalid)
        (by simp) (by simp)
      refine (or_iff_left_of_imp fun ⟨b, hb, hhash⟩ => ?_).symm
      exact (hs.nonces hash).mpr (.inr ⟨_, List.mem_of_getElem? hr, b, hb, hhash⟩)

/-- One more answer is justified, if a replay comes after its request has been processed. -/
theorem justified_concat (h : Justified ws) (w : Answer) :
    Justified (ws ++ [w]) ↔ ∀ r, w = .replay r →
      ∃ r', .handled r' ∈ ws ∧ r'.body = r.body ∧ r'.signatureValid = true := by
  constructor
  · rintro hall r rfl
    exact hall ws r [] rfl
  · intro hlast before r after hsplit
    rcases List.eq_nil_or_concat after with rfl | ⟨after, last, rfl⟩
    · obtain ⟨rfl, hw⟩ := List.append_inj' hsplit rfl
      exact hlast r (List.cons.inj hw).1
    · rw [List.concat_eq_append, ← List.cons_append, ← List.append_assoc] at hsplit
      exact h before r after (List.append_inj' hsplit rfl).1

/-- A step's answer is justified exactly if what it answers comes after what it repeats. -/
theorem step_justified_iff
    (hsha : ∀ a ∈ texts, ∀ b ∈ texts, sha256 (asBytes a) = sha256 (asBytes b) → a = b)
    (hs : Recorded sha256 channel texts s ws) (hg : Justified ws)
    (he : ∀ text ∈ nonceTexts channel [e], text ∈ texts)
    (hstep : step sha256 channel s e = some s') :
    Justified (ws ++ answers sha256 channel s e) ↔ DeliversFirst s e := by
  cases e with
  | arrive r =>
    have htext : nonceInput "messaging" r.body ∈ texts := he _ (by simp [nonceTexts])
    rcases step_arrive hstep with ⟨haway, hout, -⟩ | ⟨haway, hnonce, hout, -⟩ |
      ⟨haway, hnonce, hout, -⟩
    · rw [hout, List.append_nil]
      exact iff_of_true hg fun hnone => absurd hnone haway
    · obtain ⟨st, hst, hnoted⟩ := (noted_iff hsha hs htext).mp hnonce
      rw [hout, justified_concat hg]
      constructor
      · intro hall _ st' hst' hnoted'
        obtain ⟨r', hr', hbody, -⟩ := hall r rfl
        have hhandled := (hs.handled r').mp hr'
        have hsame : (Stage.handled r').noted = some r.body := congrArg some hbody
        rw [noted_unique hs hst' hhandled hnoted' hsame]
        rfl
      · rintro hfirst _ ⟨⟩
        have hhandled := hfirst haway st hst hnoted
        rw [hhandled] at hst
        refine ⟨st.request, (hs.handled _).mpr hst, noted_body hnoted, ?_⟩
        exact (of_refused_eq_none (hs.valid _ hst rfl)).2
    · rw [hout, List.append_nil]
      refine iff_of_true hg fun _ st hst hnoted => ?_
      exact absurd ((noted_iff hsha hs htext).mpr ⟨st, hst, hnoted⟩) hnonce
  | enter i =>
    obtain ⟨r, -, hout, -⟩ := step_enter hsha hs hstep
    rw [hout, List.append_nil]
    exact iff_of_true hg trivial
  | finish i ok =>
    obtain ⟨r, -, hout, -⟩ := step_finish hstep
    refine iff_of_true ?_ trivial
    rw [hout]
    cases ok with
    | true => exact (justified_concat hg _).mpr fun _ h => by cases h
    | false => simpa using hg

/-! ## Which runs answer as they should -/

instance (s : System) : ∀ e, Decidable (DeliversFirst s e)
  | .arrive r => inferInstanceAs (Decidable (turnedAway messagingAuth r = none →
      ∀ st ∈ s.requests, st.noted = some r.body → st = .handled st.request))
  | .enter _ | .finish _ _ => isTrue trivial

theorem mem_nonceTexts {events : List Event} {e : Event} (he : e ∈ events) :
    ∀ text ∈ nonceTexts channel [e], text ∈ nonceTexts channel events := by
  intro text htext
  rw [nonceTexts, List.flatMap_singleton] at htext
  exact List.mem_flatMap.mpr ⟨e, he, htext⟩

/-- **The runs in which a replay is one**: what is answered as a replay has been processed before,
all along the run, exactly if no request comes while another of its body that the middleware has let
in has been refused, has failed, or is not processed yet. -/
theorem replays_justified_iff_along (sha256 : Bytes → U8Array 32) (channel : String)
    {events : List Event} {t : System}
    (hsha : ∀ a ∈ nonceTexts channel events, ∀ b ∈ nonceTexts channel events,
      sha256 (asBytes a) = sha256 (asBytes b) → a = b)
    (hrun : Runs.run (step sha256 channel) {} events = some t) :
    (∀ before after m, events = before ++ after →
        Runs.run (step sha256 channel) {} before = some m →
        Justified (Runs.emitted (step sha256 channel) (answers sha256 channel) {} before)) ↔
      Runs.Along (step sha256 channel) DeliversFirst {} events := by
  have hnil : Recorded sha256 channel (nonceTexts channel events) {} [] :=
    ⟨by simp, by simp, by simp, by simp, by simp⟩
  have hjustified : Justified [] := fun before r after h => by simp at h
  exact Runs.always_iff_along_mem (answers sha256 channel) (G := fun _ ws => Justified ws) []
    (fun s ws s' e he hs hstep => step_recorded hsha hs (mem_nonceTexts he) hstep)
    (fun s ws s' e he hs hg hstep => step_justified_iff hsha hs hg (mem_nonceTexts he) hstep)
    hnil hjustified hrun

/-! ### A delivery, its repetition, and another one -/

/-- SHA-256 at the texts that two messages are known by. -/
def sampleSha256 (bytes : Bytes) : U8Array 32 :=
  if bytes = asBytes "messaging:hi" then
    U8Array.ofHex 32 "5344cdd62893faa4ba3fb75ea589126ac8c432c81990c6c0910bce9f3f49ccc2"
  else if bytes = asBytes "sms:hi" then
    U8Array.ofHex 32 "5b4be43e545aa7a29fb1af41d992fd0fcc81362f9f84a6396a2528552dc73e84"
  else if bytes = asBytes "messaging:ho" then
    U8Array.ofHex 32 "a11c7d469e89304527bc4f696efcd733061453af60aa7a7ae3161e9e8e3bea2d"
  else U8Array.ofHex 32 "19e591b4c0b2885ce73d32354825f436f87e2ef36cb65e8f94a53beae58ad0e8"

/-- A message is processed and comes again, another comes too. -/
def delivered : List Event :=
  [.arrive { body := "hi" }, .enter 0, .finish 0 true, .arrive { body := "hi" },
    .arrive { body := "ho" }, .enter 2]

theorem delivered_justified : ∃ t, Runs.run (step sampleSha256 "sms") {} delivered = some t ∧
    ∀ before after m, delivered = before ++ after →
      Runs.run (step sampleSha256 "sms") {} before = some m →
      Justified
        (Runs.emitted (step sampleSha256 "sms") (answers sampleSha256 "sms") {} before) := by
  have hrun : (Runs.run (step sampleSha256 "sms") {} delivered).isSome := by decide +kernel
  obtain ⟨t, ht⟩ := Option.isSome_iff_exists.mp hrun
  refine ⟨t, ht, ?_⟩
  exact (replays_justified_iff_along sampleSha256 "sms" (by decide +kernel) ht).mpr
    (by decide +kernel)

/-- A forged request comes, and then the provider's of the same body. -/
def forgedBefore : List Event :=
  [.arrive { body := "hi", signatureValid := false }, .enter 0, .arrive { body := "hi" }]

/-- The processing of a request fails, and the provider sends it again. -/
def sentAgain : List Event :=
  [.arrive { body := "hi" }, .enter 0, .finish 0 false, .arrive { body := "hi" }]

/-- What nothing has been processed before is not justified. -/
theorem not_justified_replay : ¬ Justified [.replay r] := by
  intro h
  obtain ⟨r', hr', -⟩ := h [] r [] rfl
  cases hr'

/-- **A forged request and a failed attempt drop the delivery** that comes after them. -/
theorem delivery_dropped :
    (∃ t ∈ Runs.run (step sampleSha256 "sms") {} forgedBefore,
      t.requests[1]? = some (.stopped { body := "hi" } .ok) ∧
      ¬ Justified
        (Runs.emitted (step sampleSha256 "sms") (answers sampleSha256 "sms") {} forgedBefore)) ∧
    ∃ t ∈ Runs.run (step sampleSha256 "sms") {} sentAgain,
      t.requests[1]? = some (.stopped { body := "hi" } .ok) ∧
      ¬ Justified
        (Runs.emitted (step sampleSha256 "sms") (answers sampleSha256 "sms") {} sentAgain) := by
  have hanswers : ∀ events ∈ [forgedBefore, sentAgain],
      Runs.emitted (step sampleSha256 "sms") (answers sampleSha256 "sms") {} events =
        [.replay { body := "hi" }] := by
    decide +kernel
  rw [hanswers forgedBefore (by simp), hanswers sentAgain (by simp)]
  have hforged : ∃ t ∈ Runs.run (step sampleSha256 "sms") {} forgedBefore,
      t.requests[1]? = some (.stopped { body := "hi" } .ok) := by
    decide +kernel
  have hagain : ∃ t ∈ Runs.run (step sampleSha256 "sms") {} sentAgain,
      t.requests[1]? = some (.stopped { body := "hi" } .ok) := by
    decide +kernel
  obtain ⟨t, ht, hstopped⟩ := hforged
  obtain ⟨t', ht', hstopped'⟩ := hagain
  exact ⟨⟨t, ht, hstopped, not_justified_replay⟩, t', ht', hstopped', not_justified_replay⟩

end Llamenos.Worker.Webhooks
