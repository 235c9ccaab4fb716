import ZeroRuntime.EventBus.Intact

/-!
# ZeroRuntime.EventBus.Object

The object over the durable bus (`RuntimeEventBus`): it publishes on the state it holds, caches the
events it has projected, and calls the handlers that are subscribed to the channel.

* A subscription stands for its handler; which handlers raise is an argument of every publication.
  Handlers do not call the bus themselves.
* `Projection`: what other modules make of a payload. `written`: how writing the state file ends.
* Calls answer with the bus as they leave it, for they may raise after they have changed it.
-/

namespace ZeroRuntime
namespace EventBus

open Lib

structure RuntimeBusEvent where
  channel : String
  eventType : String
  payload : Val
  metadata : Val
  sequence : ℕ
  eventId : String
  timestamp : ℕ

structure RuntimeBusSubscription where
  channel : String
  subscriptionId : String
  active : Bool := true
deriving DecidableEq, Repr

/-- `saving` is `auto_save` with a path to save to. -/
structure RuntimeEventBus where
  saving : Bool
  state : EventBusState
  subscriptions : List RuntimeBusSubscription := []
  eventCache : Dict String RuntimeBusEvent := .empty

structure Projection where
  /-- The canonical form of the payload of an `execution_result_recorded` event, with its metadata. -/
  executionResult : Val → Val → Except Err Val
  /-- `to_runtime_safe_schema` -/
  safe : Val → Except Err Val

section Digest

variable (F : BusDigest)

/-! ## Construction and saving -/

/-- Where the state of a new object comes from. -/
inductive Origin where
  | state (s : EventBusState)
  | file (loaded : Except Err EventBusState)
  | new (statePath identityPath : String) (busName : Val) (now : Except Err ℕ)

/-- `load_event_bus_state`, after reading the file. -/
def loadEventBusState (loaded : Except Err EventBusState) : Except Err EventBusState :=
  match loaded with
  | .error e => .error e
  | .ok s =>
    if validateState F s = [] then .ok s
    else .error (.valueError (String.intercalate ";" (validateState F s)))

def init (saving : Bool) : Origin → Except Err RuntimeEventBus
  | .state s =>
    if validateState F (sealState F s) = [] then .ok { saving, state := sealState F s }
    else .error (.raised (String.intercalate ";" (validateState F (sealState F s))))
  | .file loaded =>
    match loadEventBusState F loaded with
    | .error _ => .error (.raised "event_bus_load_failed")
    | .ok s => .ok { saving, state := s }
  | .new statePath identityPath busName now =>
    match createEventBusState F statePath identityPath busName now with
    | .error e => .error e
    | .ok s => .ok { saving, state := s }

def saveEventBusState (s : EventBusState) (written : Except Err Unit) : Except Err EventBusState :=
  if validateState F (sealState F s) = [] then
    match written with
    | .error e => .error e
    | .ok () => .ok (sealState F s)
  else .error (.valueError (String.intercalate ";" (validateState F (sealState F s))))

def maybeSave (b : RuntimeEventBus) (written : Except Err Unit) : Except Err RuntimeEventBus :=
  if b.saving then
    match saveEventBusState F b.state written with
    | .error _ => .error (.raised "event_bus_save_failed")
    | .ok s => .ok { b with state := s }
  else .ok b

/-! ## Publishing -/

variable (H : Projection)

/-- The arguments of `RuntimeEventBus.publish`, the clock, the file, and which handlers raise. -/
structure Emission where
  channel : Val
  eventType : Val
  payload : Val := .none
  metadata : Val := .none
  idempotencyKey : Val := .none
  source : Val := .str "runtime.compatibility"
  correlationId : Val := .none
  causationId : Val := .none
  now : Except Err ℕ
  written : Except Err Unit := .ok ()
  raises : ℕ → Bool := fun _ => false

def projectedPayload (p : Emission) : Except Err Val :=
  if p.payload.isDict && p.eventType.text = "execution_result_recorded" then
    H.executionResult p.payload p.metadata
  else .ok p.payload

/-- What is published on the durable bus, with the payload as the caller's event has it. -/
def envelope (p : Emission) : Except Err (Val × Publication) := do
  let payload ← projectedPayload H p
  let safePayload ← H.safe payload
  let safeMetadata ← H.safe p.metadata
  pure (payload,
    { eventType := .str "audit", topic := .str p.channel.text, source := p.source,
      payload := .dict [("compatibility_event_type", .str p.eventType.text),
        ("compatibility_payload", safePayload), ("compatibility_metadata", safeMetadata)],
      idempotencyKey := p.idempotencyKey, correlationId := p.correlationId,
      causationId := p.causationId, now := p.now })

/-- `str(x or "")` -/
def textOf (x : Val) : String := if x.truthy then x.toText else ""

/-- The event that the object makes of a stored one. -/
def projected (raw : Event) : RuntimeBusEvent where
  channel := raw.topic
  eventType := textOf ((Val.getIn "compatibility_event_type" raw.payload).orElse (.str raw.eventType))
  payload := Val.getIn "compatibility_payload" raw.payload
  metadata := Val.getIn "compatibility_metadata" raw.payload
  sequence := raw.sequence
  eventId := raw.eventId
  timestamp := raw.createdAt

/-- `_project`, with the cache it leaves. -/
def project (cache : Dict String RuntimeBusEvent) (raw : Event) :
    RuntimeBusEvent × Dict String RuntimeBusEvent :=
  match cache.get? raw.eventId with
  | some event => (event, cache)
  | none => (projected raw, cache.set raw.eventId (projected raw))

def callerEvent (p : Emission) (payload : Val) (raw : Event) : RuntimeBusEvent where
  channel := p.channel.text
  eventType := p.eventType.text
  payload := payload
  metadata := p.metadata
  sequence := raw.sequence
  eventId := raw.eventId
  timestamp := raw.createdAt

def handedOut (cache : Dict String RuntimeBusEvent) (p : Emission) (payload : Val) (raw : Event) :
    RuntimeBusEvent × Dict String RuntimeBusEvent :=
  let (event, cache') := project cache raw
  if cache.contains event.eventId then (event, cache')
  else
    let event := callerEvent p payload raw
    (event, cache'.set event.eventId event)

def activeOn (subscriptions : List RuntimeBusSubscription) (channel : String) : List ℕ :=
  (List.range subscriptions.length).filter fun i =>
    subscriptions[i]?.any fun subscription => subscription.active && subscription.channel = channel

/-- The handlers that are called, one after the other until one raises. -/
def untilRaise (raises : ℕ → Bool) : List ℕ → List ℕ
  | [] => []
  | i :: is => if raises i then [i] else i :: untilRaise raises is

structure Published where
  answer : Except Err RuntimeBusEvent
  bus : RuntimeEventBus
  invoked : List (ℕ × RuntimeBusEvent) := []

/-- The state that the durable bus leaves, with its event and the caller's payload. -/
def stored (b : RuntimeEventBus) (p : Emission) : Except Err (EventBusState × Event × Val) :=
  if p.channel.text = "" ∨ p.eventType.text = "" then
    .error (.raised "event_bus_channel_and_event_type_required")
  else
    match envelope H p with
    | .error e => .error e
    | .ok (payload, publication) =>
      match publish F b.state publication with
      | .error _ => .error (.raised "runtime_event_publish_failed")
      | .ok (state, raw) => .ok (state, raw, payload)

def RuntimeEventBus.publish (b : RuntimeEventBus) (p : Emission) : Published :=
  match stored F H b p with
  | .error e => { answer := .error e, bus := b }
  | .ok (state, raw, payload) =>
    let (event, cache) := handedOut b.eventCache p payload raw
    let b' := { b with state := state, eventCache := cache }
    match maybeSave F b' p.written with
    | .error e => { answer := .error e, bus := b' }
    | .ok b' =>
      let due := activeOn b'.subscriptions p.channel.text
      { answer := if due.any p.raises then .error (.raised "runtime_event_handler_failed") else .ok event
        bus := b'
        invoked := (untilRaise p.raises due).map fun i => (i, event) }

/-! ## Subscribing -/

def matchingKey (s : EventBusState) (subscriber : String) : Option String :=
  ((s.subscriptions.entries.find? fun entry => entry.2.subscriber = subscriber).map Prod.fst).filter
    (· ≠ "")

/-- `RuntimeEventBus.subscribe`; the subscription is listed before anything can raise. -/
def RuntimeEventBus.subscribe (b : RuntimeEventBus) (channel : Val) (callable : Bool)
    (now : Except Err ℕ) (written : Except Err Unit) :
    Except Err RuntimeBusSubscription × RuntimeEventBus :=
  if channel.text = "" ∨ callable = false then
    (.error (.raised "invalid_runtime_event_subscription"), b)
  else
    let id := "compat-subscription-" ++ toString (b.subscriptions.length + 1)
    let listed := { b with
      subscriptions := b.subscriptions ++ [{ channel := channel.text, subscriptionId := id }] }
    match EventBus.subscribe F b.state (.str channel.text) (.str id) now with
    | .error e => (.error e, listed)
    | .ok state =>
      let subscription : RuntimeBusSubscription :=
        { channel := channel.text, subscriptionId := (matchingKey state id).getD id }
      let b' := { b with state := state, subscriptions := b.subscriptions ++ [subscription] }
      match maybeSave F b' written with
      | .error e => (.error e, b')
      | .ok b' => (.ok subscription, b')

/-- What is unsubscribed: a subscription of this bus, one of another bus, or what has an id. -/
inductive Target where
  | own (i : ℕ)
  | foreign (subscriptionId : String)
  | byId (subscriptionId : String)

/-- The position in the list, if it is in it, and the id; nothing if no subscription has the id. -/
def Target.find (b : RuntimeEventBus) : Target → Option (Option ℕ × String)
  | own i => b.subscriptions[i]?.map fun subscription => (some i, subscription.subscriptionId)
  | foreign id => some (none, id)
  | byId id => (b.subscriptions.findIdx? fun entry => entry.subscriptionId = id).map fun i => (some i, id)

def deactivate (subscriptions : List RuntimeBusSubscription) : Option ℕ → List RuntimeBusSubscription
  | none => subscriptions
  | some i => subscriptions.modify i fun subscription => { subscription with active := false }

/-- `RuntimeEventBus.unsubscribe`; it answers whether there was one. -/
def RuntimeEventBus.unsubscribe (b : RuntimeEventBus) (target : Target) (now : Except Err ℕ)
    (written : Except Err Unit) : Except Err Bool × RuntimeEventBus :=
  match target.find b with
  | none => (.ok false, b)
  | some (position, id) =>
    let b' := { b with subscriptions := deactivate b.subscriptions position }
    match EventBus.unsubscribe F b'.state id now with
    | .error e => (.error e, b')
    | .ok state =>
      let b' := { b' with state := state }
      match maybeSave F b' written with
      | .error e => (.error e, b')
      | .ok b' => (.ok true, b')

end Digest

end EventBus
end ZeroRuntime
