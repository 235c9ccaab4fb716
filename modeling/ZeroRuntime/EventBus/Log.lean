import ZeroRuntime.Lib.Dict
import ZeroRuntime.Lib.Machine
import ZeroRuntime.Lib.Paging
import ZeroRuntime.Lib.Reasons
import ZeroRuntime.Lib.Value

/-!
# ZeroRuntime.EventBus.Log

The durable event bus (`core/runtime/runtime_event_bus.py`): a log of events with an order list, the
subscriptions, and the functions on its state.

* `BusDigest` stands for `fingerprint` on each kind of value it is applied to; the identities of
  buses, events and subscriptions are what their ids are made from.
* `now` is what `time_text(now)` answers, which raises on a time that does not parse. A time that was
  written down is never blank.
* The machine `eventBus` takes one call at a time; a call that raises leaves the state as it was.
-/

namespace ZeroRuntime
namespace EventBus

open Lib

abbrev Entries := List (String × Val)

/-! ## Records -/

inductive BusStatus where
  | created | running | paused | stopped | blocked | failed
deriving DecidableEq, Repr

structure Event where
  contract : String
  eventId : String
  sequence : ℕ
  eventType : String
  topic : String
  source : String
  payload : Entries
  idempotencyKey : Option String
  correlationId : Option String
  causationId : Option String
  createdAt : ℕ
  eventFingerprint : String

structure Subscription where
  subscriptionId : String
  topic : String
  subscriber : String
  createdAt : ℕ
  active : Bool
deriving DecidableEq, Repr

structure EventBusState where
  contract : String
  busId : String
  busName : String
  busStatus : BusStatus
  statePath : String
  events : Dict String Event
  eventOrder : List String
  nextSequence : ℕ
  subscriptions : Dict String Subscription
  publishedCount : ℕ
  duplicatePublishCount : ℕ
  replayedCount : ℕ
  createdAt : ℕ
  updatedAt : ℕ
  lastEventAt : Option ℕ
  failure : Val := .none
  busFingerprint : String

structure BusIdentity where
  busName : String
  statePath : String
deriving DecidableEq, Repr

structure SubscriptionIdentity where
  busId : String
  topic : String
  subscriber : String
deriving DecidableEq, Repr

structure EventIdentity where
  busId : String
  sequence : ℕ
  eventType : String
  topic : String
  source : String
  idempotencyKey : Option String
  createdAt : ℕ
  payload : Entries

structure BusDigest where
  state : EventBusState → String
  event : Event → String
  busIdentity : BusIdentity → String
  subscriptionIdentity : SubscriptionIdentity → String
  eventIdentity : EventIdentity → String

/-- Of an injective fingerprint: events with different sequence numbers have different ids. -/
def BusDigest.Separates (F : BusDigest) : Prop :=
  ∀ i j, F.eventIdentity i = F.eventIdentity j → i.sequence = j.sequence

/-- `CONTRACT` -/
def busContract : String := "zero.runtime.event_bus.v1"

def eventContract : String := "zero.runtime.event.v1"

def validEventTypes : List String := ["audit", "daemon", "memory", "mission", "scheduler", "worker"]

/-- `not str(x or "").strip()` -/
def blank (x : String) : Bool := Text.strip x = ""

/-- `str(x or "").strip() or None` -/
def textOrNone (x : Val) : Option String := if x.text = "" then none else some x.text

section Digest

variable (F : BusDigest)

/-! ## Seals and validation -/

def unsignedEvent (e : Event) : Event := { e with eventFingerprint := "" }

def sealEvent (e : Event) : Event := { e with eventFingerprint := F.event (unsignedEvent e) }

def validateEvent (e : Event) : List String :=
  (if e.contract = eventContract then [] else ["invalid_event_contract"]) ++
  (if e.eventFingerprint = F.event (unsignedEvent e) then [] else ["event_fingerprint_mismatch"]) ++
  (if blank e.eventId then ["event_id_required"] else []) ++
  (if blank e.eventType then ["event_type_required"] else []) ++
  (if blank e.topic then ["topic_required"] else []) ++
  (if blank e.source then ["source_required"] else []) ++
  (if e.eventType ∈ validEventTypes then [] else ["invalid_event_type"]) ++
  (if e.sequence < 1 then ["invalid_event_sequence"] else [])

def unsignedBus (s : EventBusState) : EventBusState := { s with busFingerprint := "" }

/-- `seal_event_bus_state` -/
def sealState (s : EventBusState) : EventBusState :=
  { s with busFingerprint := F.state (unsignedBus s) }

/-- What is found about the subscription under a key. -/
def subscriptionReasons (id : String) (item : Subscription) : List String :=
  (if item.subscriptionId = id then [] else ["subscription_identity_mismatch:" ++ id]) ++
  (if blank item.topic then [id ++ ":subscription_topic_required"] else []) ++
  (if blank item.subscriber then [id ++ ":subscriber_required"] else [])

/-- `validate_event_bus_state` -/
def validateState (s : EventBusState) : List String :=
  (if s.contract = busContract then [] else ["invalid_event_bus_contract"]) ++
  (if s.busFingerprint = F.state (unsignedBus s) then [] else ["event_bus_fingerprint_mismatch"]) ++
  (if blank s.busId then ["event_bus_id_required"] else []) ++
  (if blank s.busName then ["event_bus_name_required"] else []) ++
  (if SameKeys s.eventOrder s.events.keys then [] else ["event_bus_event_order_mismatch"]) ++
  (if s.nextSequence = s.eventOrder.length + 1 then [] else ["event_bus_next_sequence_mismatch"]) ++
  s.eventOrder.flatMap
    (keyedReasons "event_identity_mismatch:" Event.eventId (validateEvent F) s.events) ++
  s.subscriptions.entries.flatMap (fun entry => subscriptionReasons entry.1 entry.2)

/-! ## Calls -/

def newBus (statePath identityPath name : String) (at' : ℕ) : EventBusState :=
  sealState F
    { contract := busContract,
      busId := "runtime-event-bus-" ++ F.busIdentity { busName := name, statePath := identityPath },
      busName := name, busStatus := .created, statePath := statePath, events := .empty,
      eventOrder := [], nextSequence := 1, subscriptions := .empty, publishedCount := 0,
      duplicatePublishCount := 0, replayedCount := 0, createdAt := at', updatedAt := at',
      lastEventAt := none, busFingerprint := "" }

/-- `create_event_bus_state`, with the path resolved and as it stands in the identity. -/
def createEventBusState (statePath identityPath : String) (busName : Val) (now : Except Err ℕ) :
    Except Err EventBusState :=
  if busName.text = "" then .error (.valueError "event_bus_name_required")
  else
    match now with
    | .error e => .error e
    | .ok at' => .ok (newBus F statePath identityPath busName.text at')

def subscribe (s : EventBusState) (topic subscriber : Val) (now : Except Err ℕ) :
    Except Err EventBusState :=
  if topic.text = "" then .error (.valueError "subscription_topic_required")
  else if subscriber.text = "" then .error (.valueError "subscriber_required")
  else
    let subscriptionId := "event-subscription-" ++ F.subscriptionIdentity
      { busId := s.busId, topic := topic.text, subscriber := subscriber.text }
    if s.subscriptions.contains subscriptionId then .ok s
    else
      match now with
      | .error e => .error e
      | .ok at' =>
        .ok (sealState F
          { s with
            subscriptions := s.subscriptions.set subscriptionId
              { subscriptionId := subscriptionId, topic := topic.text, subscriber := subscriber.text,
                createdAt := at', active := true }
            updatedAt := at' })

def unsubscribe (s : EventBusState) (subscriptionId : String) (now : Except Err ℕ) :
    Except Err EventBusState :=
  if s.subscriptions.contains subscriptionId then
    match now with
    | .error e => .error e
    | .ok at' =>
      .ok (sealState F
        { s with subscriptions := s.subscriptions.erase subscriptionId, updatedAt := at' })
  else .ok s

/-- The arguments of `publish`. -/
structure Publication where
  eventType : Val
  topic : Val
  source : Val
  payload : Val
  idempotencyKey : Val := .none
  correlationId : Val := .none
  causationId : Val := .none
  now : Except Err ℕ

/-- The key of a publication, empty if it has none. -/
def Publication.key (p : Publication) : String := p.idempotencyKey.text

def log (s : EventBusState) : List Event := s.eventOrder.filterMap s.events.get?

/-- The first event with that key, if the key is not empty. -/
def published (s : EventBusState) (key : String) : Option Event :=
  if key = "" then none else (log s).find? fun e => e.idempotencyKey = some key

/-- `int(value.get("next_sequence") or 1)` -/
def newSequence (s : EventBusState) : ℕ := if s.nextSequence = 0 then 1 else s.nextSequence

def newIdentity (s : EventBusState) (p : Publication) (payload : Entries) (at' : ℕ) :
    EventIdentity where
  busId := s.busId
  sequence := newSequence s
  eventType := p.eventType.text
  topic := p.topic.text
  source := p.source.text
  idempotencyKey := textOrNone p.idempotencyKey
  createdAt := at'
  payload := payload

def newEvent (s : EventBusState) (p : Publication) (payload : Entries) (at' : ℕ) : Event :=
  sealEvent F
    { contract := eventContract,
      eventId := "runtime-event-" ++ F.eventIdentity (newIdentity s p payload at'),
      sequence := newSequence s, eventType := p.eventType.text, topic := p.topic.text,
      source := p.source.text, payload := payload, idempotencyKey := textOrNone p.idempotencyKey,
      correlationId := textOrNone p.correlationId, causationId := textOrNone p.causationId,
      createdAt := at', eventFingerprint := "" }

def withEvent (s : EventBusState) (e : Event) : EventBusState :=
  sealState F
    { s with
      events := s.events.set e.eventId e
      eventOrder := s.eventOrder ++ [e.eventId]
      nextSequence := e.sequence + 1
      publishedCount := s.publishedCount + 1
      lastEventAt := some e.createdAt
      updatedAt := e.createdAt
      busStatus := .running }

/-- The state after a publication whose key was there already. -/
def withDuplicate (s : EventBusState) (at' : ℕ) : EventBusState :=
  sealState F { s with duplicatePublishCount := s.duplicatePublishCount + 1, updatedAt := at' }

def publish (s : EventBusState) (p : Publication) : Except Err (EventBusState × Event) :=
  if p.eventType.text ∉ validEventTypes then .error (.valueError "invalid_event_type")
  else if p.topic.text = "" then .error (.valueError "event_topic_required")
  else if p.source.text = "" then .error (.valueError "event_source_required")
  else
    match p.payload with
    | .dict payload =>
      match published s p.key, p.now with
      | _, .error e => .error e
      | some existing, .ok at' => .ok (withDuplicate F s at', existing)
      | none, .ok at' => .ok (withEvent F s (newEvent F s p payload at'), newEvent F s p payload at')
    | _ => .error (.valueError "event_payload_required")

/-! ## Reading -/

/-- Which events a replay is about; an empty text is no filter. -/
def wanted (topic eventType : String) (afterSequence : ℕ) (e : Event) : Bool :=
  afterSequence < e.sequence && (topic = "" || e.topic = topic) &&
    (eventType = "" || e.eventType = eventType)

/-- The loop of `replay`, with what it has collected. -/
def collect (events : Dict String Event) (keep : Event → Bool) (limit : Option ℕ) :
    List String → List Event → List Event
  | [], result => result
  | id :: ids, result =>
    match events.get? id with
    | none => collect events keep limit ids result
    | some e =>
      if keep e then
        if limit.any (· ≤ result.length + 1) then result ++ [e]
        else collect events keep limit ids (result ++ [e])
      else collect events keep limit ids result

def replay (s : EventBusState) (topic eventType : Val) (afterSequence : ℤ) (limit : Option ℤ) :
    Except Err (List Event) :=
  if afterSequence < 0 then .error (.valueError "invalid_after_sequence")
  else if limit.any (· < 1) then .error (.valueError "invalid_replay_limit")
  else
    .ok (collect s.events (wanted topic.text eventType.text afterSequence.toNat)
      (limit.map Int.toNat) s.eventOrder [])

/-- Replays of at most `limit` events each, every one after the last event of the one before. -/
def replayPages (s : EventBusState) (topic eventType : Val) (limit : ℤ) (requests : ℕ) :
    Except Err (List Event) :=
  pages Event.sequence (fun n => replay s topic eventType n (some limit)) requests 0

/-! ## Runs -/

inductive Call where
  | subscribe (topic subscriber : Val) (now : Except Err ℕ)
  | unsubscribe (subscriptionId : String) (now : Except Err ℕ)
  | publish (p : Publication)

/-- The state a call leaves, with the event it answers if it publishes. -/
def call (s : EventBusState) : Call → Except Err (EventBusState × Option Event)
  | .subscribe topic subscriber now => do
    let s' ← subscribe F s topic subscriber now
    pure (s', none)
  | .unsubscribe subscriptionId now => do
    let s' ← unsubscribe F s subscriptionId now
    pure (s', none)
  | .publish p => do
    let answer ← publish F s p
    pure (answer.1, some answer.2)

def eventBus : Machine EventBusState Call (Except Err (Option Event)) where
  step s c :=
    match call F s c with
    | .error e => (.error e, s)
    | .ok (s', answer) => (.ok answer, s')

end Digest

end EventBus
end ZeroRuntime
