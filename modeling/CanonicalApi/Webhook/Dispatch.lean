import CanonicalApi.Lib.Retry
import CanonicalApi.Record
import CanonicalApi.Webhook

/-!
# `CanonicalApi.Webhook.Dispatch`: one delivery

`WebhookEvent` is what a receiver gets to see of an event, and `dispatch` sends it. The request is
made once, so all attempts carry the same id, timestamp, signature and body. The HTTP client is
represented by the reply that each attempt gets, as for the call of the model.

`dispatch_outcome` says how the replies decide the outcome of a delivery.
-/

set_option autoImplicit false

namespace CanonicalApi

/-- `AssessmentEventRecord`. -/
structure AssessmentEventRecord where
  assessmentId : Uuid
  frameworkIds : List String
  occurredAt : String
  status : String
deriving DecidableEq

/-- `WebhookEventData`. -/
inductive WebhookEventData where
  | assessment (assessmentId : String) (frameworkIds : List String) (status : String)
  | quote (quoteId : String) (sequence : Nat) (status : String)
deriving DecidableEq

/-- `WebhookEvent`. The id tells the receiver two deliveries of one event from two events. -/
structure WebhookEvent where
  data : WebhookEventData
  id : String
  occurredAt : String
  source : String
  specVersion : String
  eventType : String
deriving DecidableEq

namespace WebhookEvent

/-- `format!("quote:{}:{}", ..)`. -/
def quoteEventId (quoteId : Uuid) (sequence : Nat) : String :=
  "quote:" ++ quoteId.toText ++ ":" ++ toString sequence

/-- `From<QuoteEventRecord>`. The receiver is told `ready` for a quote that is `completed`, and the
number of the event is a part of its id. -/
def ofQuote (event : QuoteEventRecord) : WebhookEvent where
  data := .quote event.quoteId.toText event.sequence
    (if event.status = "completed" then "ready" else event.status)
  id := quoteEventId event.quoteId event.sequence
  occurredAt := event.occurredAt
  source := "api.canonical.plus"
  specVersion := "1.0"
  eventType := "canonical.quote.status.changed"

/-- `From<AssessmentEventRecord>`. An assessment has one event, so its id is enough for that of the
event. -/
def ofAssessment (event : AssessmentEventRecord) : WebhookEvent where
  data := .assessment event.assessmentId.toText event.frameworkIds event.status
  id := "readiness-assessment:" ++ event.assessmentId.toText
  occurredAt := event.occurredAt
  source := "api.canonical.plus"
  specVersion := "1.0"
  eventType := "readiness.assessment.received"

/-- The members of the data, which is serialized without a tag, in the order of their names. -/
def dataValue : WebhookEventData → JsonValue
  | .assessment assessmentId frameworkIds status =>
      .object [
        ("assessmentId", .string assessmentId),
        ("frameworkIds", .array (frameworkIds.map .string)),
        ("status", .string status)]
  | .quote quoteId sequence status =>
      .object [
        ("quoteId", .string quoteId),
        ("sequence", .number (.posInt (UInt64.ofNat sequence))),
        ("status", .string status)]

/-- `serde_json::to_vec`, with the members in the order of their names. The signature is over these
bytes. -/
def body (event : WebhookEvent) : List UInt8 :=
  bytes (JsonValue.compact (.object [
    ("data", dataValue event.data),
    ("id", .string event.id),
    ("occurredAt", .string event.occurredAt),
    ("source", .string event.source),
    ("specVersion", .string event.specVersion),
    ("type", .string event.eventType)]))

end WebhookEvent

/-- What `dispatch` posts: the three headers of its own and the body. -/
structure WebhookRequest where
  id : String
  timestamp : String
  signature : String
  body : List UInt8
deriving DecidableEq

/-- The request for an event. -/
def WebhookEvent.request [CryptoCrates] (event : WebhookEvent) (secret : List UInt8)
    (timestamp : String) : WebhookRequest where
  id := event.id
  timestamp
  signature := Webhook.signature secret timestamp event.body
  body := event.body

/-! ### The attempts -/

/-- `DELIVERY_ATTEMPTS`. -/
def deliveryAttempts : Nat := 3

/-- What an attempt gets from the HTTP client. -/
inductive WebhookReply where
  | response (status : Nat)
  | failure
deriving DecidableEq, Repr

/-- `DeliveryError`. The body of an event can always be serialized. -/
inductive DeliveryError where
  | rejected (status : Nat)
  | unavailable (last : Option Nat)
deriving DecidableEq, Repr

/-- The status in a reply. -/
def WebhookReply.status? : WebhookReply → Option Nat
  | response status => some status
  | failure => none

/-- `StatusCode::is_success`. -/
def isSuccess (status : Nat) : Bool :=
  200 ≤ status && status ≤ 299

/-- `StatusCode::is_client_error`. -/
def isClientError (status : Nat) : Bool :=
  400 ≤ status && status ≤ 499

/-- The status rejects the event for good. -/
def rejects (status : Nat) : Bool :=
  isClientError status && !(status == 408 || status == 429)

/-- One turn of the loop of `dispatch`: its result, unless the loop goes on. A success and a status
that rejects the event end it at once; every other reply ends it only at the last attempt. -/
def WebhookReply.decides (attempt : Nat) : WebhookReply → Option (Except DeliveryError Unit)
  | response status =>
      if isSuccess status = true then some (.ok ())
      else if rejects status = true then some (.error (.rejected status))
      else if attempt + 1 = deliveryAttempts then some (.error (.unavailable (some status)))
      else none
  | failure =>
      if attempt + 1 = deliveryAttempts then some (.error (.unavailable none)) else none

/-- The loop of `dispatch`, with the number of its requests. -/
def dispatch (replies : Nat → WebhookReply) : Except DeliveryError Unit × Nat :=
  Retry.attempts WebhookReply.decides (.error (.unavailable none)) replies 0 deliveryAttempts

/-- The reply leaves it to another attempt. -/
def WebhookReply.transient : WebhookReply → Bool
  | response status => !isSuccess status && !rejects status
  | failure => true

/-- The loop goes on exactly after a transient reply to an attempt that is not the last one. -/
theorem decides_eq_none_iff {attempt : Nat} {reply : WebhookReply} :
    reply.decides attempt = none ↔
      reply.transient = true ∧ attempt + 1 ≠ deliveryAttempts := by
  cases reply with
  | response status =>
    simp only [WebhookReply.decides, WebhookReply.transient]
    cases isSuccess status <;> cases rejects status <;> simp
  | failure => simp [WebhookReply.decides, WebhookReply.transient]

/-- What ends the loop. -/
theorem decides_eq_some_iff {attempt : Nat} {reply : WebhookReply}
    {result : Except DeliveryError Unit} :
    reply.decides attempt = some result ↔
      (∃ status, reply = .response status ∧ isSuccess status = true ∧ result = .ok ()) ∨
      (∃ status, reply = .response status ∧ isSuccess status = false ∧ rejects status = true ∧
        result = .error (.rejected status)) ∨
      (reply.transient = true ∧ attempt + 1 = deliveryAttempts ∧
        result = .error (.unavailable reply.status?)) := by
  cases reply with
  | response status =>
    simp only [WebhookReply.decides, WebhookReply.transient, WebhookReply.status?,
      WebhookReply.response.injEq, exists_eq_left', eq_comm (a := result)]
    cases isSuccess status <;> cases rejects status <;> simp
  | failure =>
    simp only [WebhookReply.decides, WebhookReply.transient, WebhookReply.status?,
      eq_comm (a := result)]
    simp

/-- A delivery ends with the first reply that is not transient, or with its third request. -/
theorem dispatch_cases (replies : Nat → WebhookReply) :
    ∃ last, last < deliveryAttempts ∧ (dispatch replies).2 = last + 1 ∧
      (∀ i, i < last → (replies i).transient = true) ∧
      (replies last).decides last = some (dispatch replies).1 := by
  have hrun := Retry.attempts_cases WebhookReply.decides (.error (.unavailable none)) replies 0
    deliveryAttempts
  simp only [Nat.zero_add] at hrun
  rcases hrun with ⟨last, hmade, hlt, hdecides, hnone⟩ | ⟨-, -, hnone⟩
  · exact ⟨last, hlt, hmade, fun i hi => (decides_eq_none_iff.mp (hnone i hi)).1, hdecides⟩
  · -- The third attempt always decides, so the loop never runs out of attempts.
    have hlast := hnone 2 (by decide)
    exact absurd rfl (decides_eq_none_iff.mp hlast).2

/-- The outcome of a delivery, whatever the endpoint replies. There are one to three requests. All
replies before the last one are transient: they are transport errors and statuses other than a
success and a terminal client error. The last reply alone decides: the delivery succeeds on a
success, it is rejected on a terminal client error, and a transient reply leaves the endpoint
unavailable, with the status of this reply, but only after the third request. Replies after the
last one do not matter. -/
theorem dispatch_outcome (replies : Nat → WebhookReply) :
    ∃ last, last < deliveryAttempts ∧ (dispatch replies).2 = last + 1 ∧
      (∀ i, i < last → (replies i).transient = true) ∧
      ((dispatch replies).1 = .ok () ↔
        ∃ status, replies last = .response status ∧ isSuccess status = true) ∧
      (∀ status, (dispatch replies).1 = .error (.rejected status) ↔
        replies last = .response status ∧ rejects status = true) ∧
      (∀ code, (dispatch replies).1 = .error (.unavailable code) ↔
        last + 1 = deliveryAttempts ∧ (replies last).transient = true ∧
          code = (replies last).status?) ∧
      ∀ replies', (∀ i, i ≤ last → replies' i = replies i) →
        dispatch replies' = dispatch replies := by
  obtain ⟨last, hlt, hmade, hbefore, hdecides⟩ := dispatch_cases replies
  -- No status is both a success and a terminal client error.
  have hdisjoint : ∀ status, rejects status = true → isSuccess status = false := by
    intro status hrejects
    rw [rejects, isClientError, Bool.and_eq_true, Bool.and_eq_true, decide_eq_true_eq,
      decide_eq_true_eq] at hrejects
    rw [isSuccess, Bool.and_eq_false_iff, decide_eq_false_iff_not, decide_eq_false_iff_not]
    omega
  refine ⟨last, hlt, hmade, hbefore, ?_, ?_, ?_, ?_⟩
  · constructor
    · intro hok
      rw [hok, decides_eq_some_iff] at hdecides
      rcases hdecides with ⟨status, hreply, hsuccess, -⟩ | ⟨_, -, -, -, heq⟩ | ⟨-, -, heq⟩
      · exact ⟨status, hreply, hsuccess⟩
      · cases heq
      · cases heq
    · rintro ⟨status, hreply, hsuccess⟩
      have hresult : (replies last).decides last = some (.ok ()) :=
        decides_eq_some_iff.mpr (.inl ⟨status, hreply, hsuccess, rfl⟩)
      exact Option.some.inj (hdecides.symm.trans hresult)
  · intro status
    constructor
    · intro hrejected
      rw [hrejected, decides_eq_some_iff] at hdecides
      rcases hdecides with ⟨_, -, -, heq⟩ | ⟨status', hreply, -, hrejects, heq⟩ | ⟨-, -, heq⟩
      · cases heq
      · cases heq
        exact ⟨hreply, hrejects⟩
      · cases heq
    · rintro ⟨hreply, hrejects⟩
      have hresult : (replies last).decides last = some (.error (.rejected status)) :=
        decides_eq_some_iff.mpr
          (.inr (.inl ⟨status, hreply, hdisjoint status hrejects, hrejects, rfl⟩))
      exact Option.some.inj (hdecides.symm.trans hresult)
  · intro code
    constructor
    · intro hunavailable
      rw [hunavailable, decides_eq_some_iff] at hdecides
      rcases hdecides with ⟨_, -, -, heq⟩ | ⟨_, -, -, -, heq⟩ | ⟨htransient, hlast, heq⟩
      · cases heq
      · cases heq
      · cases heq
        exact ⟨hlast, htransient, rfl⟩
    · rintro ⟨hlast, htransient, rfl⟩
      have hresult : (replies last).decides last =
          some (.error (.unavailable (replies last).status?)) :=
        decides_eq_some_iff.mpr (.inr (.inr ⟨htransient, hlast, rfl⟩))
      exact Option.some.inj (hdecides.symm.trans hresult)
  · intro replies' hsame
    refine Retry.attempts_congr fun i hi => ?_
    have hi : i < (dispatch replies).2 := hi
    rw [Nat.zero_add]
    exact hsame i (by omega)

end CanonicalApi
