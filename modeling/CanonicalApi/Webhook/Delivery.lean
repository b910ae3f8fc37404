import CanonicalApi.Webhook.Feed
import Mathlib.Data.List.GetD

/-!
# `CanonicalApi.Webhook.Delivery`: deliveries and a receiver that deduplicates

The webhook as a protocol. `publish_event` starts a task for each event, and the task sends its
request up to three times. The network may lose a request or a reply, it may deliver a request late,
and it may deliver it more than once; only the receiver replies with a success. Any number of
deliveries run beside the handlers and workers.

The `Receiver` does what the documentation of the webhook asks of one: it verifies the signature,
it looks at the age of the timestamp, and it records the id before it applies the event. It is not
part of the repository. `webhook_delivery` says what such a receiver gets out of the protocol.

`Sound` is the invariant. A delivery is the run of `dispatch` on the replies that it got
(`RunsDispatch`), and the receiver has applied the events whose ids it has recorded, each of them
once.
-/

set_option autoImplicit false

namespace CanonicalApi

open Transition (System)

/-- The task of one event: its request, the replies so far, whether a request waits for its reply,
and the result. -/
structure OutboundDelivery where
  request : WebhookRequest
  replies : List WebhookReply
  waiting : Bool
  result : Option (Except DeliveryError Unit)
deriving DecidableEq

/-- A receiver: the ids that it has recorded, and the bodies that it has applied. -/
structure Receiver where
  seen : List String
  applied : List (List UInt8)

/-- The protocol: a feed, the deliveries by the number of their event, the requests that were sent,
each with the number of its delivery, those that the receiver has acknowledged, and the receiver. -/
structure Outbound (feed : EventFeed) where
  feed : feed.State
  deliveries : Nat → Option OutboundDelivery
  sent : List (Nat × WebhookRequest)
  acknowledged : List WebhookRequest
  receiver : Receiver

/-- A step of the feed, of the delivery with a number, or of the receiver. -/
inductive OutboundAction (feed : EventFeed) where
  | publish (a : feed.Action)
  | begin (number : Nat) (timestamp : String)
  | post (number : Nat)
  | handle (request : WebhookRequest) (fresh : Bool)
  | reply (number : Nat) (reply : WebhookReply)

section

variable [CryptoCrates] (secret : List UInt8)

/-- A receiver handles a request. `fresh` tells whether its timestamp is in the window. It is the
receiver that the documentation asks for: it verifies, remembers the ids that it has applied, and
answers a repetition like the first delivery. -/
def Receiver.handle (receiver : Receiver) (request : WebhookRequest) (fresh : Bool) :
    Nat × Receiver :=
  if request.signature ≠ Webhook.signature secret request.timestamp request.body then
    (401, receiver)
  else if fresh = false then (400, receiver)
  else if request.id ∈ receiver.seen then (200, receiver)
  else (200, ⟨request.id :: receiver.seen, receiver.applied ++ [request.body]⟩)

namespace Outbound

variable {feed : EventFeed}

/-- The step function. A request that was posted may reach the receiver at any later time, several
times or never, and a reply may be lost. Only a success comes from the receiver alone. -/
def next (s : Outbound feed) : OutboundAction feed → Option (Outbound feed)
  | .publish a => (feed.next s.feed a).map fun after => { s with feed := after }
  | .begin number timestamp =>
      match (feed.published s.feed)[number]?, s.deliveries number with
      | some event, none =>
          let request := event.request secret timestamp
          some { s with
            deliveries := Function.update s.deliveries number (some ⟨request, [], false, none⟩) }
      | _, _ => none
  | .post number =>
      match s.deliveries number with
      | some delivery =>
          if delivery.waiting = false ∧ delivery.result = none then
            some { s with
              deliveries := Function.update s.deliveries number
                (some { delivery with waiting := true })
              sent := s.sent ++ [(number, delivery.request)] }
          else none
      | none => none
  | .handle request fresh =>
      if request ∈ s.sent.map Prod.snd then
        let (status, receiver) := s.receiver.handle secret request fresh
        some { s with
          acknowledged := if isSuccess status then request :: s.acknowledged else s.acknowledged
          receiver }
      else none
  | .reply number reply =>
      match s.deliveries number with
      | some delivery =>
          -- Nobody but the receiver reports a success.
          if delivery.waiting = true ∧
              (reply.status?.any isSuccess = true → delivery.request ∈ s.acknowledged) then
            some { s with
              deliveries := Function.update s.deliveries number (some {
                delivery with
                replies := delivery.replies ++ [reply]
                waiting := false
                result := reply.decides delivery.replies.length }) }
          else none
      | none => none

/-- Nothing is published, sent or received. -/
def initial : Outbound feed where
  feed := feed.start
  deliveries _ := none
  sent := []
  acknowledged := []
  receiver := ⟨[], []⟩

/-- The transition system of the protocol. -/
def system : System (Outbound feed) (OutboundAction feed) := System.ofFun initial (next secret)

/-! ### What a step does -/

/-- The step of a delivery, from what it was, with the posted requests after it. A delivery waits
for the reply to its last post before it posts again. -/
inductive Advances (s : Outbound feed) (number : Nat) :
    Option OutboundDelivery → Option OutboundDelivery → List (Nat × WebhookRequest) → Prop where
  | begins {event : WebhookEvent} {timestamp : String} :
      (feed.published s.feed)[number]? = some event →
      Advances s number none
        (some ⟨event.request secret timestamp, [], false, none⟩) s.sent
  | posts {delivery : OutboundDelivery} : delivery.waiting = false → delivery.result = none →
      Advances s number (some delivery) (some { delivery with waiting := true })
        (s.sent ++ [(number, delivery.request)])
  | hears {delivery : OutboundDelivery} {reply : WebhookReply} : delivery.waiting = true →
      (reply.status?.any isSuccess = true → delivery.request ∈ s.acknowledged) →
      Advances s number (some delivery)
        (some { delivery with
          replies := delivery.replies ++ [reply]
          waiting := false
          result := reply.decides delivery.replies.length })
        s.sent

/-- What a step does: the feed moves, a delivery moves, or the receiver handles a request. Of a
request it refuses the receiver keeps nothing. -/
inductive Moves (s : Outbound feed) : Outbound feed → Prop where
  | publishes {a : feed.Action} {after : feed.State} : feed.next s.feed a = some after →
      Moves s { s with feed := after }
  | delivers {number : Nat} {delivery? : Option OutboundDelivery}
      {sent : List (Nat × WebhookRequest)} :
      Advances secret s number (s.deliveries number) delivery? sent →
      Moves s { s with deliveries := Function.update s.deliveries number delivery?, sent }
  | refuses {number : Nat} {request : WebhookRequest} : (number, request) ∈ s.sent →
      Moves s s
  | repeats {number : Nat} {request : WebhookRequest} : (number, request) ∈ s.sent →
      request.id ∈ s.receiver.seen →
      Moves s { s with acknowledged := request :: s.acknowledged }
  | applies {number : Nat} {request : WebhookRequest} : (number, request) ∈ s.sent →
      request.id ∉ s.receiver.seen →
      Moves s { s with
        acknowledged := request :: s.acknowledged
        receiver := ⟨request.id :: s.receiver.seen, s.receiver.applied ++ [request.body]⟩ }

/-- The step function makes these steps. -/
theorem moves_of_next {s s' : Outbound feed} {a : OutboundAction feed}
    (h : next secret s a = some s') : Moves secret s s' := by
  cases a with
  | publish a =>
    obtain ⟨after, hafter, rfl⟩ := Option.map_eq_some_iff.mp h
    exact .publishes hafter
  | begin number timestamp =>
    simp only [next] at h
    split at h
    · next event hevent hnone =>
      cases h
      refine .delivers ?_
      rw [hnone]
      exact .begins hevent
    · cases h
  | post number =>
    simp only [next] at h
    split at h
    · next delivery hdelivery =>
      rw [Option.ite_none_right_eq_some] at h
      obtain ⟨⟨hwaiting, hresult⟩, ⟨⟩⟩ := h
      refine .delivers ?_
      rw [hdelivery]
      exact .posts hwaiting hresult
    · cases h
  | handle request fresh =>
    simp only [next, Option.ite_none_right_eq_some] at h
    obtain ⟨hsent, h⟩ := h
    obtain ⟨⟨number, request'⟩, hmem, rfl⟩ := List.mem_map.mp hsent
    -- The receiver refuses by signature, then by clock, and looks at the id last.
    unfold Receiver.handle at h
    split at h
    · cases h
      exact .refuses hmem
    · split at h
      · cases h
        exact .refuses hmem
      · split at h
        · next hseen =>
          cases h
          exact .repeats hmem hseen
        · next hnew =>
          cases h
          exact .applies hmem hnew
  | reply number reply =>
    simp only [next] at h
    split at h
    · next delivery hdelivery =>
      rw [Option.ite_none_right_eq_some] at h
      obtain ⟨⟨hwaiting, hsuccess⟩, ⟨⟩⟩ := h
      refine .delivers ?_
      rw [hdelivery]
      exact .hears hwaiting hsuccess
    · cases h

/-! ### The invariant -/

end Outbound

/-- The replies of a delivery, by the number of the attempt. -/
def OutboundDelivery.reply (delivery : OutboundDelivery) (attempt : Nat) : WebhookReply :=
  delivery.replies.getD attempt .failure

/-- A delivery is a run of `dispatch`: none of its replies so far has ended the loop, or it has the
result of the loop. -/
structure RunsDispatch (delivery : OutboundDelivery) : Prop where
  running : delivery.result = none → delivery.replies.length < deliveryAttempts ∧
    ∀ i, i < delivery.replies.length → (delivery.reply i).decides i = none
  ended : ∀ result, delivery.result = some result → delivery.waiting = false ∧
    dispatch delivery.reply = (result, delivery.replies.length)

omit [CryptoCrates] in
/-- The next reply is the next turn of the loop. -/
theorem RunsDispatch.hear {delivery : OutboundDelivery} (h : RunsDispatch delivery)
    (hwaiting : delivery.waiting = true) (reply : WebhookReply) :
    RunsDispatch { delivery with
      replies := delivery.replies ++ [reply]
      waiting := false
      result := reply.decides delivery.replies.length } := by
  have hnone : delivery.result = none := by
    cases hresult : delivery.result with
    | none => rfl
    | some result =>
      rw [(h.ended result hresult).1] at hwaiting
      cases hwaiting
  obtain ⟨hlt, hbefore⟩ := h.running hnone
  -- The replies before the new one are read as before,
  have hold : ∀ i, i < delivery.replies.length →
      ((delivery.replies ++ [reply]).getD i .failure).decides i = none := by
    intro i hi
    rw [List.getD_append _ _ _ _ hi]
    exact hbefore i hi
  -- and the new one stands at the end.
  have hnew : (delivery.replies ++ [reply]).getD delivery.replies.length .failure = reply := by
    rw [List.getD_append_right _ _ _ _ le_rfl, Nat.sub_self]
    rfl
  constructor
  · intro hresult
    have hresult : reply.decides delivery.replies.length = none := hresult
    obtain ⟨-, hne⟩ := decides_eq_none_iff.mp hresult
    show (delivery.replies ++ [reply]).length < _ ∧
      ∀ i, i < (delivery.replies ++ [reply]).length →
        ((delivery.replies ++ [reply]).getD i .failure).decides i = none
    rw [List.length_append, List.length_singleton]
    refine ⟨by omega, fun i hi => ?_⟩
    by_cases hlast : i = delivery.replies.length
    · subst hlast
      rwa [hnew]
    · exact hold i (by omega)
  · intro result hresult
    have hresult : reply.decides delivery.replies.length = some result := hresult
    refine ⟨rfl, ?_⟩
    show Retry.attempts WebhookReply.decides _
      (fun i => (delivery.replies ++ [reply]).getD i .failure) 0 deliveryAttempts =
        (result, (delivery.replies ++ [reply]).length)
    rw [Retry.attempts_eq_iff, List.length_append, List.length_singleton]
    refine .inl ⟨delivery.replies.length, rfl, hlt, ?_, fun i hi => ?_⟩
    · rw [Nat.zero_add, hnew]
      exact hresult
    · rw [Nat.zero_add]
      exact hold i hi

namespace Outbound

variable {feed : EventFeed}

/-- The requests of a delivery. -/
def requests (s : Outbound feed) (number : Nat) : List (Nat × WebhookRequest) :=
  s.sent.filter fun x => x.1 = number

/-- The invariant. `applied` are the events that the receiver has applied, in their order: published
ones, each once, and exactly those whose ids it remembers. -/
structure Sound (s : Outbound feed) (applied : List WebhookEvent) : Prop where
  reached : (System.ofFun feed.start feed.next).Reachable s.feed
  event : ∀ number delivery, s.deliveries number = some delivery → ∃ event timestamp,
    (feed.published s.feed)[number]? = some event ∧
      delivery.request = event.request secret timestamp
  sent : ∀ number request, (number, request) ∈ s.sent → ∃ delivery,
    s.deliveries number = some delivery ∧ request = delivery.request
  posted : ∀ number delivery, s.deliveries number = some delivery →
    (s.requests number).length = delivery.replies.length + delivery.waiting.toNat
  runs : ∀ number delivery, s.deliveries number = some delivery → RunsDispatch delivery
  nodup : applied.Nodup
  published : ∀ event ∈ applied, event ∈ feed.published s.feed
  seen : ∀ id, id ∈ s.receiver.seen ↔ ∃ event ∈ applied, event.id = id
  effects : s.receiver.applied = applied.map WebhookEvent.body
  acknowledged : ∀ request ∈ s.acknowledged, request.id ∈ s.receiver.seen
  confirmed : ∀ number delivery, s.deliveries number = some delivery →
    delivery.result = some (.ok ()) → delivery.request ∈ s.acknowledged

/-! ### Steps -/

variable {secret} {s s' : Outbound feed} {applied : List WebhookEvent}

/-- A step of the feed. -/
theorem Sound.publish (h : Sound secret s applied) {a : feed.Action} {after : feed.State}
    (hnext : feed.next s.feed a = some after) : Sound secret { s with feed := after } applied where
  reached := .step h.reached trivial hnext
  event number delivery hdelivery := by
    obtain ⟨event, timestamp, hevent, hrequest⟩ := h.event number delivery hdelivery
    refine ⟨event, timestamp, ?_, hrequest⟩
    obtain ⟨rest, hrest⟩ := feed.grows hnext
    show (feed.published after)[number]? = some event
    rw [← hrest]
    exact List.getElem?_append_left (List.getElem?_eq_some_iff.mp hevent).1 ▸ hevent
  sent := h.sent
  posted := h.posted
  runs := h.runs
  nodup := h.nodup
  published event hevent := (feed.grows hnext).subset (h.published event hevent)
  seen := h.seen
  effects := h.effects
  acknowledged := h.acknowledged
  confirmed := h.confirmed

omit [CryptoCrates] in
/-- The requests of the deliveries after one of them has posted its own. -/
theorem requests_append (s : Outbound feed) (number i : Nat) (request : WebhookRequest) :
    (s.sent ++ [(number, request)]).filter (fun x => x.1 = i) =
      if number = i then s.requests i ++ [(number, request)] else s.requests i := by
  rw [List.filter_append]
  by_cases hi : number = i
  · rw [if_pos hi, List.filter_singleton, decide_eq_true hi]
    rfl
  · rw [if_neg hi, List.filter_singleton, decide_eq_false hi]
    exact List.append_nil _

/-- The delivery with a number is replaced, and its request stays the same. -/
theorem Sound.replace (h : Sound secret s applied) {number : Nat} {delivery : OutboundDelivery}
    {sent : List (Nat × WebhookRequest)}
    (hevent : ∃ event timestamp, (feed.published s.feed)[number]? = some event ∧
      delivery.request = event.request secret timestamp)
    (hsame : ∀ old, s.deliveries number = some old → old.request = delivery.request)
    (hsent : ∀ x ∈ sent, x ∈ s.sent ∨ x = (number, delivery.request))
    (hposted : (sent.filter fun x => x.1 = number).length =
      delivery.replies.length + delivery.waiting.toNat)
    (hothers : ∀ i, i ≠ number → sent.filter (fun x => x.1 = i) = s.requests i)
    (hruns : RunsDispatch delivery)
    (hconfirmed : delivery.result = some (.ok ()) → delivery.request ∈ s.acknowledged) :
    Sound secret { s with
      deliveries := Function.update s.deliveries number (some delivery), sent } applied := by
  -- A delivery is the new one or was there before.
  have hcases : ∀ {i : Nat} {delivery' : OutboundDelivery},
      Function.update s.deliveries number (some delivery) i = some delivery' →
        i = number ∧ delivery' = delivery ∨ i ≠ number ∧ s.deliveries i = some delivery' := by
    intro i delivery' hi
    by_cases hne : i = number
    · subst hne
      rw [Function.update_self] at hi
      exact .inl ⟨rfl, (Option.some.inj hi).symm⟩
    · rw [Function.update_of_ne hne] at hi
      exact .inr ⟨hne, hi⟩
  constructor
  · exact h.reached
  · intro i delivery' hi
    rcases hcases hi with ⟨rfl, rfl⟩ | ⟨-, hi⟩
    · exact hevent
    · exact h.event i delivery' hi
  · intro i request hmem
    show ∃ delivery', Function.update s.deliveries number (some delivery) i = some delivery' ∧ _
    by_cases hi : i = number
    · subst hi
      rw [Function.update_self]
      refine ⟨delivery, rfl, ?_⟩
      rcases hsent _ hmem with hold | hnew
      · obtain ⟨old, hold, hrequest⟩ := h.sent i request hold
        rw [hrequest, hsame old hold]
      · exact (Prod.mk.inj hnew).2
    · rw [Function.update_of_ne hi]
      rcases hsent _ hmem with hold | hnew
      · exact h.sent i request hold
      · exact absurd (Prod.mk.inj hnew).1 hi
  · intro i delivery' hi
    rcases hcases hi with ⟨rfl, rfl⟩ | ⟨hne, hi⟩
    · exact hposted
    · show (sent.filter fun x => x.1 = i).length = _
      rw [hothers i hne]
      exact h.posted i delivery' hi
  · intro i delivery' hi
    rcases hcases hi with ⟨rfl, rfl⟩ | ⟨-, hi⟩
    · exact hruns
    · exact h.runs i delivery' hi
  · exact h.nodup
  · exact h.published
  · exact h.seen
  · exact h.effects
  · exact h.acknowledged
  · intro i delivery' hi hresult
    rcases hcases hi with ⟨rfl, rfl⟩ | ⟨-, hi⟩
    · exact hconfirmed hresult
    · exact h.confirmed i delivery' hi hresult

/-- A step of a delivery. -/
theorem Sound.deliver (h : Sound secret s applied) {number : Nat}
    {delivery? : Option OutboundDelivery} {sent : List (Nat × WebhookRequest)}
    (hstep : Advances secret s number (s.deliveries number) delivery? sent) :
    Sound secret
      { s with deliveries := Function.update s.deliveries number delivery?, sent } applied := by
  have hsame : ∀ {delivery delivery' : OutboundDelivery}, s.deliveries number = some delivery →
      delivery.request = delivery'.request →
        ∀ old, s.deliveries number = some old → old.request = delivery'.request := by
    intro delivery delivery' hdelivery hrequest old hold
    rw [hdelivery] at hold
    cases hold
    exact hrequest
  generalize hbefore : s.deliveries number = before at hstep
  cases hstep with
  | @begins event timestamp hevent =>
    -- No request was sent under a number without a delivery.
    have hempty : s.requests number = [] := by
      rw [requests, List.filter_eq_nil_iff]
      rintro ⟨i, request⟩ hmem hi
      have hi : i = number := of_decide_eq_true hi
      subst hi
      obtain ⟨delivery, hdelivery, -⟩ := h.sent i request hmem
      rw [hbefore] at hdelivery
      cases hdelivery
    refine h.replace ⟨event, timestamp, hevent, rfl⟩ ?_ (fun x hx => .inl hx)
      (congrArg List.length hempty) (fun i _ => rfl) ⟨fun _ => ⟨?_, ?_⟩, ?_⟩ ?_
    · intro old hold
      rw [hbefore] at hold
      cases hold
    · exact Nat.zero_lt_succ 2
    · intro i hi
      exact absurd hi (Nat.not_lt_zero i)
    · intro result hresult
      cases hresult
    · intro hresult
      cases hresult
  | @posts delivery hwaiting hresult =>
    have hruns := h.runs number delivery hbefore
    refine h.replace (h.event number delivery hbefore) (hsame hbefore rfl) ?_ ?_ ?_
      ⟨hruns.running, ?_⟩ (h.confirmed number delivery hbefore)
    · intro x hx
      rcases List.mem_append.mp hx with hx | hx
      · exact .inl hx
      · exact .inr (List.mem_singleton.mp hx)
    · rw [requests_append, if_pos rfl, List.length_append, h.posted number delivery hbefore,
        hwaiting]
      rfl
    · intro i hi
      rw [requests_append, if_neg (Ne.symm hi)]
    · intro result hsome
      have hsome : delivery.result = some result := hsome
      rw [hresult] at hsome
      cases hsome
  | @hears delivery reply hwaiting hsuccess =>
    refine h.replace (h.event number delivery hbefore) (hsame hbefore rfl)
      (fun x hx => .inl hx) ?_ (fun i _ => rfl)
      ((h.runs number delivery hbefore).hear hwaiting reply) ?_
    · have hposted := h.posted number delivery hbefore
      rw [hwaiting] at hposted
      show (s.requests number).length = (delivery.replies ++ [reply]).length + 0
      rw [hposted, List.length_append]
      rfl
    · -- The loop ends with `Ok` only on a success.
      intro hresult
      have hresult : reply.decides delivery.replies.length = some (.ok ()) := hresult
      apply hsuccess
      rcases decides_eq_some_iff.mp hresult with
        ⟨status, rfl, hok, -⟩ | ⟨_, -, -, -, heq⟩ | ⟨-, -, heq⟩
      · exact hok
      · cases heq
      · cases heq

/-- A request that was sent is the one of a published event. -/
theorem Sound.genuine (h : Sound secret s applied) {number : Nat} {request : WebhookRequest}
    (hsent : (number, request) ∈ s.sent) : ∃ event timestamp,
      event ∈ feed.published s.feed ∧
        request = event.request secret timestamp := by
  obtain ⟨delivery, hdelivery, rfl⟩ := h.sent number request hsent
  obtain ⟨event, timestamp, hevent, hrequest⟩ := h.event number delivery hdelivery
  exact ⟨event, timestamp, List.mem_of_getElem? hevent, hrequest⟩

/-- A step keeps the invariant. -/
theorem Sound.step (h : Sound secret s applied) (hstep : Moves secret s s') :
    ∃ applied', Sound secret s' applied' := by
  cases hstep with
  | publishes hnext => exact ⟨applied, h.publish hnext⟩
  | delivers hdelivers => exact ⟨applied, h.deliver hdelivers⟩
  | refuses hsent => exact ⟨applied, h⟩
  | @repeats number request hsent hseen =>
    refine ⟨applied, { h with acknowledged := ?_, confirmed := ?_ }⟩
    · intro other hother
      rcases List.mem_cons.mp hother with rfl | hother
      · exact hseen
      · exact h.acknowledged other hother
    · intro i delivery hi hresult
      exact List.mem_cons_of_mem _ (h.confirmed i delivery hi hresult)
  | @applies number request hsent hnew =>
    -- What is applied was posted for a published event.
    obtain ⟨event, timestamp, hpublished, hrequest⟩ := h.genuine hsent
    have hid : request.id = event.id := by
      rw [hrequest, WebhookEvent.request]
    have hbody : request.body = event.body := by
      rw [hrequest, WebhookEvent.request]
    refine ⟨applied ++ [event], { h with
      nodup := ?_, published := ?_, seen := ?_, effects := ?_, acknowledged := ?_,
      confirmed := ?_ }⟩
    · -- The receiver has not seen the id, so no event applied before has it.
      rw [List.nodup_append]
      refine ⟨h.nodup, List.pairwise_singleton _ _, ?_⟩
      intro old hold new hmem heq
      rw [List.mem_singleton.mp hmem] at heq
      apply hnew
      rw [h.seen, hid]
      exact ⟨old, hold, by rw [heq]⟩
    · intro other hother
      rcases List.mem_append.mp hother with hother | hother
      · exact h.published other hother
      · rw [List.mem_singleton.mp hother]
        exact hpublished
    · intro id
      rw [List.mem_cons, h.seen, hid]
      constructor
      · rintro (rfl | ⟨old, hold, hold'⟩)
        · exact ⟨event, List.mem_append_right _ (List.mem_singleton_self event), rfl⟩
        · exact ⟨old, List.mem_append_left _ hold, hold'⟩
      · rintro ⟨other, hother, hother'⟩
        rcases List.mem_append.mp hother with hother | hother
        · exact .inr ⟨other, hother, hother'⟩
        · rw [List.mem_singleton.mp hother] at hother'
          exact .inl hother'.symm
    · rw [hbody, h.effects, List.map_append, List.map_singleton]
    · intro other hother
      rcases List.mem_cons.mp hother with rfl | hother
      · exact List.mem_cons_self
      · exact List.mem_cons_of_mem _ (h.acknowledged other hother)
    · intro i delivery hi hresult
      exact List.mem_cons_of_mem _ (h.confirmed i delivery hi hresult)

/-- In every run the invariant holds. -/
theorem sound_of_reachable (h : (system secret).Reachable s) :
    ∃ applied, Sound secret s applied := by
  refine System.ReachableWith.induct (I := fun s => ∃ applied, Sound secret s applied) ?_ ?_ h
  · intro s hs
    obtain rfl := hs
    exact ⟨[], {
      reached := .init rfl
      event := fun number delivery hdelivery => by cases hdelivery
      sent := fun number request hmem => absurd hmem List.not_mem_nil
      posted := fun number delivery hdelivery => by cases hdelivery
      runs := fun number delivery hdelivery => by cases hdelivery
      nodup := .nil
      published := fun event hmem => absurd hmem List.not_mem_nil
      seen := fun id => by simp [initial]
      effects := rfl
      acknowledged := fun request hmem => absurd hmem List.not_mem_nil
      confirmed := fun number delivery hdelivery => by cases hdelivery }⟩
  · intro s a s' _ hs _ hnext
    obtain ⟨applied, hs⟩ := hs
    exact hs.step (moves_of_next secret hnext)

end Outbound

/-- The webhook in both storage modes, in every run: however handlers and workers publish the events
of quotes and assessments, requests and replies are lost, delayed or repeated, and deliveries
overlap. A receiver that verifies the signature and records the id before it applies an event
applies each published event at most once. A delivery sends one to three requests, and all of them
are the same request for its event. It ends as `dispatch` does on the replies that it got, and if it
ends with `Ok`, its event has been applied. -/
theorem webhook_delivery [CanonicalLib] [Postgres] (mode : StorageMode) (s : Outbound mode.feed)
    (h : (Outbound.system secret).Reachable s) :
    ∃ applied : List WebhookEvent, applied.Nodup ∧
      (∀ event ∈ applied, event ∈ mode.feed.published s.feed) ∧
      s.receiver.applied = applied.map WebhookEvent.body ∧
      ∀ number delivery, s.deliveries number = some delivery →
        ∃ event timestamp, (mode.feed.published s.feed)[number]? = some event ∧
          (∀ request, (number, request) ∈ s.sent →
            request = event.request secret timestamp) ∧
          (s.requests number).length ≤ deliveryAttempts ∧
          ∀ result, delivery.result = some result →
            dispatch delivery.reply = (result, (s.requests number).length) ∧
            (result = .ok () → event ∈ applied) := by
  obtain ⟨applied, hsound⟩ := Outbound.sound_of_reachable h
  refine ⟨applied, hsound.nodup, hsound.published, hsound.effects, ?_⟩
  intro number delivery hdelivery
  obtain ⟨event, timestamp, hevent, hrequest⟩ := hsound.event number delivery hdelivery
  have hposted := hsound.posted number delivery hdelivery
  have hruns := hsound.runs number delivery hdelivery
  refine ⟨event, timestamp, hevent, ?_, ?_, ?_⟩
  · intro request hsent
    obtain ⟨delivery', hdelivery', rfl⟩ := hsound.sent number request hsent
    rw [hdelivery] at hdelivery'
    cases hdelivery'
    exact hrequest
  · rw [hposted]
    cases hresult : delivery.result with
    | none =>
      obtain ⟨hlt, -⟩ := hruns.running hresult
      have hwaiting := Bool.toNat_le delivery.waiting
      omega
    | some result =>
      obtain ⟨hwaiting, hdispatch⟩ := hruns.ended result hresult
      obtain ⟨last, hlt, hmade, -, -⟩ := dispatch_cases delivery.reply
      rw [hdispatch] at hmade
      have hmade : delivery.replies.length = last + 1 := hmade
      rw [hwaiting, Bool.toNat_false]
      omega
  · intro result hresult
    obtain ⟨hwaiting, hdispatch⟩ := hruns.ended result hresult
    refine ⟨?_, ?_⟩
    · rw [hposted, hwaiting]
      exact hdispatch
    · rintro rfl
      -- What the receiver has acknowledged it has applied, under this id or before.
      have hacknowledged := hsound.confirmed number delivery hdelivery hresult
      have hseen := hsound.acknowledged delivery.request hacknowledged
      have hid : delivery.request.id = event.id := by
        rw [hrequest, WebhookEvent.request]
      rw [hid, hsound.seen] at hseen
      obtain ⟨event', hevent', hsame⟩ := hseen
      have hknown := mode.feed.keyed hsound.reached _ (hsound.published event' hevent') _
        (List.mem_of_getElem? hevent) hsame
      rwa [← hknown]

end

/-! ### A delivery whose first reply is lost -/

section

attribute [local instance] fixtureLib openServer testCrypto

/-- The request for the first event of the fixture. -/
def testWebhook : WebhookRequest :=
  (WebhookEvent.ofQuote {
    ownerSubject := "customer-1"
    quoteId := testQuote
    sequence := 1
    status := "queued"
    occurredAt := "2026-09-09T05:00:00Z" }).request [] "1700000000"

/-- A quote is created. The reply to the first request for its event is lost, and the delivery sends
a second one. -/
def testPosted : List (OutboundAction StorageMode.memory.feed) :=
  [.publish (.arrive 0 (.handler (memoryCreate testQuote) .lookup)), .publish (testPoll 0 9),
    .publish (testPoll 0 9), .publish (testPoll 0 1), .begin 0 "1700000000", .post 0,
    .reply 0 .failure, .post 0]

/-- A delivery whose first request fails and whose second is answered with 204. It ends with the
second reply, and the receiver has applied no event twice. -/
theorem webhook_delivery_test : ∃ s : Outbound StorageMode.memory.feed,
    (Outbound.system []).Reachable s ∧
    ∃ (applied : List WebhookEvent) (delivery : OutboundDelivery) (event : WebhookEvent),
      s.deliveries 0 = some delivery ∧ delivery.replies = [.failure, .response 204] ∧
      dispatch delivery.reply = (.ok (), (s.requests 0).length) ∧ event ∈ applied ∧
      applied.Nodup ∧
      s.receiver.applied = applied.map WebhookEvent.body := by
  have hposted : ∃ s : Outbound StorageMode.memory.feed,
      System.run (Outbound.next []) Outbound.initial testPosted = some s ∧
      s.deliveries 0 = some ⟨testWebhook, [.failure], true, none⟩ ∧
      s.sent = [(0, testWebhook), (0, testWebhook)] ∧ s.receiver.seen = [] :=
    ⟨_, rfl, rfl, rfl, rfl⟩
  obtain ⟨s, hrun, hdelivery, hsent, hseen⟩ := hposted
  -- The receiver accepts the request, and then a success may come back.
  obtain ⟨s', hhandled, hdelivery', hacknowledged⟩ : ∃ s',
      Outbound.next [] s (.handle testWebhook true) = some s' ∧ s'.deliveries = s.deliveries ∧
      testWebhook ∈ s'.acknowledged := by
    have hmem : testWebhook ∈ s.sent.map Prod.snd := by
      rw [hsent]
      exact List.mem_cons_self
    have hhandle : (s.receiver.handle [] testWebhook true).1 = 200 := by
      rw [Receiver.handle, if_neg (by exact not_not.mpr rfl), if_neg Bool.noConfusion, hseen,
        if_neg List.not_mem_nil]
    refine ⟨_, if_pos hmem, rfl, ?_⟩
    show testWebhook ∈ if isSuccess (s.receiver.handle [] testWebhook true).1 = true then _ else _
    rw [hhandle, if_pos (by decide)]
    exact List.mem_cons_self
  obtain ⟨s'', hreplied, hdelivered⟩ : ∃ s'',
      Outbound.next [] s' (.reply 0 (.response 204)) = some s'' ∧
      s''.deliveries 0 = some ⟨testWebhook, [.failure, .response 204], false, some (.ok ())⟩ := by
    refine ⟨{ s' with
      deliveries := Function.update s'.deliveries 0
        (some ⟨testWebhook, [.failure, .response 204], false, some (.ok ())⟩) }, ?_, ?_⟩
    · simp only [Outbound.next, hdelivery', hdelivery]
      exact if_pos ⟨trivial, fun _ => hacknowledged⟩
    · exact Function.update_self 0 _ s'.deliveries
  have hreachable : (Outbound.system []).Reachable s'' :=
    .step (.step (System.reachable_of_run hrun) trivial hhandled) trivial hreplied
  obtain ⟨applied, hnodup, -, heffects, hdeliveries⟩ :=
    webhook_delivery [] StorageMode.memory s'' hreachable
  obtain ⟨event, timestamp, -, -, -, hresult⟩ := hdeliveries 0 _ hdelivered
  obtain ⟨hdispatch, happlied⟩ := hresult (.ok ()) rfl
  exact ⟨s'', hreachable, applied, _, event, hdelivered, rfl, hdispatch, happlied rfl, hnodup,
    heffects⟩

end

end CanonicalApi
