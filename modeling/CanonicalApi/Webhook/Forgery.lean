import CanonicalApi.JsonPretty.Compact
import CanonicalApi.Observation.Signature
import CanonicalApi.Webhook.Delivery

/-!
# `CanonicalApi.Webhook.Forgery`: a network that forges requests

The receiver of `Hostile` gets whatever an attacker posts: copies of requests at any time, requests
with members of other requests, and requests of its own. All that is assumed is that the attacker
cannot make signatures (`Unforged`): when the signature of a request is the right one, `dispatch`
has signed the same text. The text may be split in another way, because the timestamp and the body
both have points in them for all that the signature tells.

The id header is not signed, so the receiver takes the id from the signed body. `handle_renamed`
says what happens to one that trusts the header.
-/

set_option autoImplicit false

namespace CanonicalApi

open Transition (System)

/-! ### The timestamp -/

/-- The digits of a number are read as the number. -/
theorem decimalDigits_toDigits (n : Nat) : decimalDigits (Nat.toDigits 10 n) = some n := by
  have hall : ((Nat.toDigits 10 n).all fun c => '0' ≤ c && c ≤ '9') = true := by
    rw [List.all_eq_true]
    intro c hc
    have hdigit := JsonValue.isDigit_of_mem_digits hc
    simpa [Char.isDigit, Char.le_def] using hdigit
  have hvalue : (Nat.toDigits 10 n).foldl (fun n c => 10 * n + (c.toNat - 48)) 0 = n :=
    Nat.ofDigitChars_eq_foldl.symm.trans Nat.ofDigitChars_ten_toDigits
  rw [decimalDigits, if_pos ⟨Nat.toDigits_ne_nil, hall⟩, hvalue]

/-- `parse::<i64>` reads the text that `to_string` writes. -/
theorem parseI64_toString (t : Int64) : parseI64 (toString t.toInt) = some t.toInt := by
  have hlow := t.le_toInt
  have hhigh := t.toInt_lt
  have hrange : decide (-(2 ^ 63) ≤ t.toInt ∧ t.toInt < 2 ^ 63) = true :=
    decide_eq_true ⟨hlow, hhigh⟩
  -- A decimal text starts with a digit, so it has no sign.
  have hsign : ∀ {n : Nat} {c : Char} {digits : List Char},
      Nat.toDigits 10 n = c :: digits → c.isDigit = true := by
    intro n c digits h
    exact JsonValue.isDigit_of_mem_digits (h ▸ List.mem_cons_self)
  unfold parseI64
  rw [Int.toString_eq_repr]
  cases ht : t.toInt with
  | ofNat n =>
    have htext : (Int.repr (Int.ofNat n)).toList = Nat.toDigits 10 n := Nat.toList_repr
    rw [htext]
    rw [ht] at hrange
    split
    · next digits h => exact absurd (hsign h) (by decide)
    · next digits h => exact absurd (hsign h) (by decide)
    · rw [decimalDigits_toDigits, Option.map_some, Option.filter_some]
      exact if_pos hrange
  | negSucc n =>
    have htext : (Int.repr (Int.negSucc n)).toList = '-' :: Nat.toDigits 10 (n + 1) := by
      rw [Int.repr]
      simp [Nat.toList_repr]
    rw [htext]
    rw [ht] at hrange
    show Option.filter _ (Option.map (fun n : Int => -n)
      ((decimalDigits (Nat.toDigits 10 (n + 1))).bind fun n => some (n : Int))) = _
    rw [decimalDigits_toDigits, Option.bind_some, Option.map_some, Option.filter_some]
    exact if_pos hrange

/-! ### The body -/

/-- An event is serialized with numbers as `serde_json` holds them. -/
theorem proper_dataValue (data : WebhookEventData) :
    (WebhookEvent.dataValue data).proper = true := by
  cases data with
  | assessment assessmentId frameworkIds status =>
    have hitems : JsonValue.properItems (frameworkIds.map .string) = true := by
      induction frameworkIds with
      | nil => rfl
      | cons _ _ ih => simpa [JsonValue.properItems, JsonValue.proper] using ih
    simp [WebhookEvent.dataValue, JsonValue.proper, JsonValue.properMembers, hitems]
  | quote quoteId sequence status =>
    simp [WebhookEvent.dataValue, JsonValue.proper, JsonValue.properMembers, JsonNumber.proper]

/-- The body has the id of its event in it. -/
theorem id_eq_of_body {event event' : WebhookEvent} (h : event.body = event'.body) :
    event.id = event'.id := by
  have hproper : ∀ event : WebhookEvent, (JsonValue.object [
      ("data", WebhookEvent.dataValue event.data),
      ("id", .string event.id),
      ("occurredAt", .string event.occurredAt),
      ("source", .string event.source),
      ("specVersion", .string event.specVersion),
      ("type", .string event.eventType)]).proper = true := by
    intro event
    simp [JsonValue.proper, JsonValue.properMembers, proper_dataValue]
  have hvalue := JsonValue.compact_injective (hproper event) (hproper event') (bytes_injective h)
  simp only [JsonValue.object.injEq, List.cons.injEq, Prod.mk.injEq, JsonValue.string.injEq]
    at hvalue
  exact hvalue.2.1.2

/-! ### The receiver -/

/-- A request that a receiver has applied, as far as it is signed. -/
structure AppliedRequest where
  now : Int
  seconds : Int
  body : List UInt8

/-- A receiver with the ids that it has seen and the requests that it has applied. -/
structure SignedReceiver where
  seen : List String
  applied : List AppliedRequest

section

variable [CryptoCrates] (secret : List UInt8) (readId : List UInt8 → Option String) (window : Nat)

/-- A receiver handles a request as the README demands: the signature first, then the window of the
timestamp, then the id. `readId` reads the id of a body. -/
def SignedReceiver.handle (receiver : SignedReceiver) (request : WebhookRequest) (now : Int) :
    Nat × SignedReceiver :=
  if request.signature ≠ Webhook.signature secret request.timestamp request.body then
    (401, receiver)
  else
    match parseI64 request.timestamp, readId request.body with
    | some seconds, some id =>
        if window < (now - seconds).natAbs then (400, receiver)
        else if id ∈ receiver.seen then (200, receiver)
        else (200, ⟨id :: receiver.seen, receiver.applied ++ [⟨now, seconds, request.body⟩]⟩)
    | _, _ => (400, receiver)

/-- A request is ignored, or it is verified and its body is applied under a new id. -/
theorem SignedReceiver.handle_cases (receiver : SignedReceiver) (request : WebhookRequest)
    (now : Int) :
    (receiver.handle secret readId window request now).2 = receiver ∨
    ∃ seconds id,
      request.signature = Webhook.signature secret request.timestamp request.body ∧
      parseI64 request.timestamp = some seconds ∧ readId request.body = some id ∧
      (now - seconds).natAbs ≤ window ∧ id ∉ receiver.seen ∧
      (receiver.handle secret readId window request now).2 =
        ⟨id :: receiver.seen, receiver.applied ++ [⟨now, seconds, request.body⟩]⟩ := by
  unfold SignedReceiver.handle
  by_cases hsignature :
      request.signature = Webhook.signature secret request.timestamp request.body
  · rw [if_neg (not_not.mpr hsignature)]
    split
    · next seconds id hseconds hid =>
      by_cases hstale : window < (now - seconds).natAbs
      · rw [if_pos hstale]
        exact .inl rfl
      · rw [if_neg hstale]
        by_cases hseen : id ∈ receiver.seen
        · rw [if_pos hseen]
          exact .inl rfl
        · rw [if_neg hseen]
          exact .inr ⟨seconds, id, hsignature, hseconds, hid, Nat.le_of_not_lt hstale, hseen, rfl⟩
    · exact .inl rfl
  · rw [if_pos hsignature]
    exact .inl rfl

/-! ### The network -/

/-- The feed, what `dispatch` has signed (events with the times), and the receiver. -/
structure Hostile (feed : EventFeed) where
  feed : feed.State
  signed : List (WebhookEvent × Int64)
  receiver : SignedReceiver

/-- A step of the feed, a `dispatch` of the event with a number, or a request of the attacker. -/
inductive HostileAction (feed : EventFeed) where
  | publish (a : feed.Action)
  | sign (number : Nat) (timestamp : Int64)
  | inject (request : WebhookRequest) (now : Int)

namespace Hostile

variable {feed : EventFeed}

/-- The step function. Whatever was signed before, the attacker can deliver any request at any time,
an old one, an altered one or one of its own. -/
def next (s : Hostile feed) : HostileAction feed → Option (Hostile feed)
  | .publish a => (feed.next s.feed a).map fun after => { s with feed := after }
  | .sign number timestamp =>
      (feed.published s.feed)[number]?.map fun event =>
        { s with signed := s.signed ++ [(event, timestamp)] }
  | .inject request now =>
      some { s with receiver := (s.receiver.handle secret readId window request now).2 }

/-- Nothing has happened. -/
def initial : Hostile feed where
  feed := feed.start
  signed := []
  receiver := ⟨[], []⟩

/-- The receiver on a hostile network. -/
def system : System (Hostile feed) (HostileAction feed) :=
  System.ofFun initial (next secret readId window)

/-- A request with the right signature carries a text that was signed. -/
def Unforged (s : Hostile feed) : HostileAction feed → Prop
  | .inject request _ =>
      request.signature = Webhook.signature secret request.timestamp request.body →
        ∃ entry ∈ s.signed, signedText request.timestamp request.body =
          signedText (toString entry.2.toInt) entry.1.body
  | _ => True

/-- What was applied is what was signed for the event, and it was applied in the window. -/
structure Genuine (signed : List (WebhookEvent × Int64)) (effect : AppliedRequest)
    (event : WebhookEvent) : Prop where
  body : effect.body = event.body
  window : (effect.now - effect.seconds).natAbs ≤ window
  signed : ∃ timestamp, (event, timestamp) ∈ signed ∧ effect.seconds = timestamp.toInt

/-- The receiver has applied these events: published ones, each once, in spite of what was
injected. -/
structure Sound (s : Hostile feed) (events : List WebhookEvent) : Prop where
  reached : (System.ofFun feed.start feed.next).Reachable s.feed
  signed : ∀ entry ∈ s.signed, entry.1 ∈ feed.published s.feed
  published : ∀ event ∈ events, event ∈ feed.published s.feed
  nodup : events.Nodup
  effects : List.Forall₂ (Genuine window s.signed) s.receiver.applied events
  seen : ∀ id, id ∈ s.receiver.seen ↔ ∃ event ∈ events, event.id = id

variable {secret readId window} {s s' : Hostile feed} {events : List WebhookEvent}

omit [CryptoCrates] in
/-- More may be signed. -/
theorem Genuine.mono {signed signed' : List (WebhookEvent × Int64)} {effect : AppliedRequest}
    {event : WebhookEvent} (h : Genuine window signed effect event)
    (hsub : ∀ entry ∈ signed, entry ∈ signed') : Genuine window signed' effect event := by
  obtain ⟨timestamp, hmem, hseconds⟩ := h.signed
  exact ⟨h.body, h.window, timestamp, hsub _ hmem, hseconds⟩

/-- What the receiver applies next is an event that was signed, and it is a new one. -/
theorem Sound.inject (h : Sound window s events)
    (hreads : ∀ event : WebhookEvent, readId event.body = some event.id) {request : WebhookRequest}
    {now : Int} (hunforged : Unforged secret s (.inject request now)) :
    ∃ events', Sound window
      { s with receiver := (s.receiver.handle secret readId window request now).2 } events' := by
  rcases s.receiver.handle_cases secret readId window request now with hsame |
    ⟨seconds, id, hsignature, hseconds, hid, hwindow, hnew, hreceiver⟩
  · rw [hsame]
    exact ⟨events, h⟩
  · obtain ⟨⟨event, timestamp⟩, hentry, htext⟩ := hunforged hsignature
    -- Both timestamps are numbers, so the text cannot be split in two ways.
    obtain ⟨htime, hbody⟩ := signedText_injective hseconds (parseI64_toString timestamp) htext
    rw [htime, parseI64_toString] at hseconds
    cases hseconds
    rw [hbody, hreads] at hid
    cases hid
    have hfresh : ∀ old ∈ events, old.id ≠ event.id := by
      intro old hold heq
      exact hnew ((h.seen _).mpr ⟨old, hold, heq⟩)
    rw [hreceiver]
    refine ⟨events ++ [event], h.reached, h.signed, ?_, ?_, ?_, ?_⟩
    · intro old hold
      rcases List.mem_append.mp hold with hold | hold
      · exact h.published old hold
      · rw [List.mem_singleton.mp hold]
        exact h.signed _ hentry
    · rw [List.nodup_append_comm, List.singleton_append, List.nodup_cons]
      exact ⟨fun hmem => hfresh event hmem rfl, h.nodup⟩
    · exact List.rel_append h.effects
        (.cons ⟨hbody, hwindow, timestamp, hentry, rfl⟩ .nil)
    · intro id
      rw [List.mem_cons, h.seen]
      constructor
      · rintro (rfl | ⟨old, hold, rfl⟩)
        · exact ⟨event, List.mem_append_right _ (List.mem_singleton_self _), rfl⟩
        · exact ⟨old, List.mem_append_left _ hold, rfl⟩
      · intro ⟨old, hold, hsame⟩
        rcases List.mem_append.mp hold with hold | hold
        · exact .inr ⟨old, hold, hsame⟩
        · rw [List.mem_singleton.mp hold] at hsame
          exact .inl hsame.symm

/-- Every step keeps the receiver sound. -/
theorem Sound.step (h : Sound window s events)
    (hreads : ∀ event : WebhookEvent, readId event.body = some event.id) {a : HostileAction feed}
    (hunforged : Unforged secret s a) (hstep : next secret readId window s a = some s') :
    ∃ events', Sound window s' events' := by
  cases a with
  | publish a =>
    obtain ⟨after, hafter, rfl⟩ := Option.map_eq_some_iff.mp hstep
    -- The feed only grows, so that what was signed or published before still is.
    have hgrows := feed.grows hafter
    exact ⟨events, .step h.reached trivial hafter,
      fun entry hentry => hgrows.subset (h.signed entry hentry),
      fun event hevent => hgrows.subset (h.published event hevent), h.nodup, h.effects, h.seen⟩
  | sign number timestamp =>
    obtain ⟨event, hevent, rfl⟩ := Option.map_eq_some_iff.mp hstep
    refine ⟨events, h.reached, ?_, h.published, h.nodup, ?_, h.seen⟩
    · intro entry hentry
      -- A new signature is that of a published event.
      rcases List.mem_append.mp hentry with hentry | hentry
      · exact h.signed entry hentry
      · rw [List.mem_singleton.mp hentry]
        exact List.mem_of_getElem? hevent
    · exact h.effects.imp fun _ _ hgenuine =>
        hgenuine.mono fun _ => List.mem_append_left _
  | inject request now =>
    cases hstep
    exact h.inject hreads hunforged

/-- The receiver is sound in every run in which no signature is forged. -/
theorem sound_of_reachable
    (hreads : ∀ event : WebhookEvent, readId event.body = some event.id)
    (h : (system secret readId window).ReachableWith (Unforged secret) s) :
    ∃ events, Sound window s events := by
  refine System.ReachableWith.induct (I := fun s => ∃ events, Sound window s events) ?_ ?_ h
  · rintro s rfl
    refine ⟨[], .init rfl, ?_, ?_, .nil, .nil, ?_⟩
    · intro entry hentry
      cases hentry
    · intro event hevent
      cases hevent
    · intro id
      simp [initial]
  · intro s a s' _ hsound hunforged hstep
    obtain ⟨events, hsound⟩ := hsound
    exact hsound.step hreads hunforged hstep

/-- The feed may go on while nothing else happens. -/
theorem reachable_publish (h : (system secret readId window).ReachableWith (Unforged secret) s)
    {actions : List feed.Action} {after : feed.State}
    (hrun : System.run feed.next s.feed actions = some after) :
    (system secret readId window).ReachableWith (Unforged secret) { s with feed := after } := by
  induction actions generalizing s with
  | nil =>
    cases hrun
    exact h
  | cons a actions ih =>
    obtain ⟨first, hfirst, hrest⟩ := Option.bind_eq_some_iff.mp hrun
    have hstep : next secret readId window s (.publish a) = some { s with feed := first } :=
      Option.map_eq_some_iff.mpr ⟨first, hfirst, rfl⟩
    have hnext : (system secret readId window).ReachableWith (Unforged secret)
        { s with feed := first } := .step (a := .publish a) h trivial hstep
    have hrest := ih hnext hrest
    exact hrest

/-- A copy of a signed request, with any id in its header, that arrives in the window. -/
theorem handle_copy (hreads : ∀ event : WebhookEvent, readId event.body = some event.id)
    (receiver : SignedReceiver) (event : WebhookEvent) (timestamp : Int64) (header : String)
    {now : Int} (hwindow : (now - timestamp.toInt).natAbs ≤ window) :
    receiver.handle secret readId window
      { event.request secret (toString timestamp.toInt) with id := header } now =
        (200, if event.id ∈ receiver.seen then receiver
          else ⟨event.id :: receiver.seen,
            receiver.applied ++ [⟨now, timestamp.toInt, event.body⟩]⟩) := by
  simp only [SignedReceiver.handle, WebhookEvent.request, parseI64_toString, hreads]
  rw [if_neg (not_not.mpr rfl), if_neg (Nat.not_lt_of_le hwindow)]
  split
  · rfl
  · rfl

end Hostile

/-- The webhook on a network that replays, alters and invents requests, with and without a
database, in every run in which nobody but `dispatch` makes signatures: a receiver that verifies the
signature, the time and the id in the body applies each published event at most once, with the body
and the time that `dispatch` signed for it, and only within the window around this time. It
answers a copy of a signed request that comes within the window with 200, whatever id the copy has
in its header, and applies the event if it has not done so before. -/
theorem webhook_forgery [CanonicalLib] [Postgres] (mode : StorageMode)
    (hreads : ∀ event : WebhookEvent, readId event.body = some event.id)
    (s : Hostile mode.feed)
    (h : (Hostile.system secret readId window).ReachableWith (Hostile.Unforged secret) s) :
    ∃ events : List WebhookEvent, events.Nodup ∧
      (∀ event ∈ events, event ∈ mode.feed.published s.feed) ∧
      List.Forall₂ (Hostile.Genuine window s.signed) s.receiver.applied events ∧
      ∀ event timestamp, (event, timestamp) ∈ s.signed →
        ∀ header now, (now - timestamp.toInt).natAbs ≤ window →
          ∃ receiver, s.receiver.handle secret readId window
              { event.request secret (toString timestamp.toInt) with id := header } now =
                (200, receiver) ∧
            (event ∈ events → receiver = s.receiver) ∧
            (event ∉ events → receiver.applied =
              s.receiver.applied ++ [⟨now, timestamp.toInt, event.body⟩]) := by
  obtain ⟨events, hsound⟩ := Hostile.sound_of_reachable hreads h
  refine ⟨events, hsound.nodup, hsound.published, hsound.effects, ?_⟩
  intro event timestamp hentry header now hwindow
  refine ⟨_, Hostile.handle_copy hreads s.receiver event timestamp header hwindow, ?_, ?_⟩
  · intro hevent
    exact if_pos ((hsound.seen _).mpr ⟨event, hevent, rfl⟩)
  · intro hevent
    have hnew : event.id ∉ s.receiver.seen := by
      intro hseen
      obtain ⟨old, hold, hid⟩ := (hsound.seen _).mp hseen
      -- A published event is known by its id.
      have hsame := mode.feed.keyed hsound.reached old (hsound.published old hold) event
        (hsound.signed _ hentry) hid
      exact hevent (hsame ▸ hold)
    rw [if_neg hnew]

/-- A receiver that trusts the id of the header applies a copied request once for each id that an
attacker writes into it. -/
theorem handle_renamed {request : WebhookRequest}
    (hsignature : request.signature = Webhook.signature secret request.timestamp request.body)
    {ids : List String} (hids : ids.Nodup) {receiver : Receiver}
    (hnew : ∀ id ∈ ids, id ∉ receiver.seen) :
    (ids.foldl (fun receiver id =>
        (receiver.handle secret { request with id } true).2) receiver).applied =
      receiver.applied ++ List.replicate ids.length request.body := by
  induction ids generalizing receiver with
  | nil => simp
  | cons id ids ih =>
    obtain ⟨hid, hids⟩ := List.nodup_cons.mp hids
    have hhandle : (receiver.handle secret { request with id } true).2 =
        ⟨id :: receiver.seen, receiver.applied ++ [request.body]⟩ := by
      rw [Receiver.handle, if_neg (not_not.mpr hsignature), if_neg (by decide),
        if_neg (hnew id List.mem_cons_self)]
    have hrest : ∀ other ∈ ids, other ∉ id :: receiver.seen := by
      intro other hother hmem
      rcases List.mem_cons.mp hmem with rfl | hmem
      · exact hid hother
      · exact hnew other (List.mem_cons_of_mem _ hother) hmem
    rw [List.foldl_cons, hhandle, ih hids hrest, List.append_assoc, List.length_cons,
      List.replicate_succ, List.singleton_append]

end

/-! ### A copied request -/

section

attribute [local instance] fixtureLib openServer testCrypto

open Classical in
/-- A reader of bodies. It knows the events by their bodies. -/
noncomputable def bodyId (body : List UInt8) : Option String :=
  if h : ∃ event : WebhookEvent, event.body = body then some h.choose.id else none

/-- A body tells the id of its event. -/
theorem bodyId_body (event : WebhookEvent) : bodyId event.body = some event.id := by
  have hknown : ∃ other : WebhookEvent, other.body = event.body := ⟨event, rfl⟩
  rw [bodyId, dif_pos hknown, id_eq_of_body hknown.choose_spec]

/-- A quote is created, `dispatch` signs its event, and the attacker posts a copy of the request
with another id in the header. The event is applied once. -/
theorem webhook_forgery_test : ∃ (s : Hostile StorageMode.memory.feed) (event : WebhookEvent),
    (Hostile.system [] bodyId 300).ReachableWith (Hostile.Unforged []) s ∧
    s.signed = [(event, 1700000000)] ∧ s.receiver.applied.length = 1 ∧
    ∃ events : List WebhookEvent, events.Nodup ∧
      List.Forall₂ (Hostile.Genuine 300 s.signed) s.receiver.applied events := by
  obtain ⟨after, event, hrun, hpublished⟩ : ∃ after event,
      System.run memoryFeed.next memoryFeed.start
        [.arrive 0 (.handler (memoryCreate testQuote) .lookup), testPoll 0 9, testPoll 0 9,
          testPoll 0 1] = some after ∧ memoryFeed.published after = [event] :=
    ⟨_, _, rfl, rfl⟩
  let signed : Hostile StorageMode.memory.feed := ⟨after, [(event, 1700000000)], ⟨[], []⟩⟩
  have hsigned : (Hostile.system [] bodyId 300).ReachableWith (Hostile.Unforged []) signed := by
    refine .step (a := .sign 0 1700000000) (Hostile.reachable_publish (.init rfl) hrun) trivial ?_
    refine Option.map_eq_some_iff.mpr ⟨event, ?_, rfl⟩
    show (memoryFeed.published after)[0]? = some event
    rw [hpublished]
    rfl
  -- The copy has the text of the request for the event.
  let copy := { event.request [] (toString (1700000000 : Int64).toInt) with id := "copied" }
  have hhandle : (SignedReceiver.mk [] []).handle [] bodyId 300 copy 1700000060 = _ :=
    Hostile.handle_copy bodyId_body ⟨[], []⟩ event 1700000000 "copied" (by decide)
  have hreachable : (Hostile.system [] bodyId 300).ReachableWith (Hostile.Unforged [])
      { signed with receiver := (signed.receiver.handle [] bodyId 300 copy 1700000060).2 } :=
    .step (a := .inject copy 1700000060) hsigned
      (fun _ => ⟨(event, 1700000000), List.mem_singleton_self _, rfl⟩) rfl
  refine ⟨_, event, hreachable, rfl, ?_, ?_⟩
  · show ((SignedReceiver.mk [] []).handle [] bodyId 300 copy 1700000060).2.applied.length = 1
    rw [hhandle, if_neg List.not_mem_nil]
    rfl
  · obtain ⟨events, hnodup, -, heffects, -⟩ :=
      webhook_forgery [] bodyId 300 StorageMode.memory bodyId_body _ hreachable
    exact ⟨events, hnodup, heffects⟩

end

end CanonicalApi
