import ZeroRuntime.EventBus.Object
import Mathlib.Data.List.Count

/-!
# ZeroRuntime.EventBus.Delivered

How often a handler is called for an event.

* `Watched`: the bus, for every event that was stored the handlers that were active on its channel at
  that moment, and the calls that were made.
* `Once`: each of these handlers has been called exactly once for the event.
* `Careful`: an event is stored only if its file is written and no handler but the last one raises,
  and it is published again only while none of its handlers can be reached.
* `once_iff_careful`: in every state of a run every handler is called once, if and only if every call
  is careful.
-/

namespace ZeroRuntime
namespace EventBus

open Lib

variable {F : BusDigest} {H : Projection}

/-! ## Handlers until one raises -/

theorem prefix_untilRaise (raises : ℕ → Bool) (is : List ℕ) : untilRaise raises is <+: is := by
  induction is with
  | nil => exact List.nil_prefix
  | cons i is ih =>
    rw [untilRaise]
    split
    · exact List.cons_prefix_cons.mpr ⟨rfl, List.nil_prefix⟩
    · exact List.cons_prefix_cons.mpr ⟨rfl, ih⟩

/-- The first handler is always called. -/
theorem head_mem_untilRaise (raises : ℕ → Bool) (i : ℕ) (is : List ℕ) :
    i ∈ untilRaise raises (i :: is) := by
  rw [untilRaise]
  split
  · exact List.mem_singleton_self i
  · exact List.mem_cons_self

variable {raises : ℕ → Bool}

theorem untilRaise_eq_self_iff {is : List ℕ} :
    untilRaise raises is = is ↔ ∀ i ∈ is.dropLast, raises i = false := by
  induction is with
  | nil => exact ⟨fun _ i hi => absurd hi List.not_mem_nil, fun _ => rfl⟩
  | cons i is ih =>
    cases is with
    | nil =>
      refine ⟨fun _ j hj => absurd hj List.not_mem_nil, fun _ => ?_⟩
      rw [untilRaise]
      split <;> rfl
    | cons j is =>
      rw [untilRaise, List.dropLast_cons_cons]
      split
      · rename_i hi
        refine ⟨(fun h => by cases (List.cons.inj h).2), fun h => ?_⟩
        rw [h i List.mem_cons_self] at hi
        cases hi
      · rename_i hi
        rw [List.cons.injEq, ih, List.forall_mem_cons]
        exact ⟨fun h => ⟨(Bool.not_eq_true _).mp hi, h.2⟩, fun h => ⟨rfl, h.2⟩⟩

/-- Every handler is called once, if and only if none is left out. -/
theorem count_untilRaise {is : List ℕ} (his : is.Nodup) :
    (∀ i ∈ is, (untilRaise raises is).count i = 1) ↔ ∀ i ∈ is.dropLast, raises i = false := by
  have hprefix := prefix_untilRaise raises is
  have hnodup : (untilRaise raises is).Nodup := his.sublist hprefix.sublist
  rw [← untilRaise_eq_self_iff]
  constructor
  · intro h
    have hsub : is ⊆ untilRaise raises is :=
      fun i hi => List.count_pos_iff.mp (by rw [h i hi]; exact Nat.one_pos)
    exact hprefix.eq_of_length_le (his.length_le_of_subset hsub)
  · intro h i hi
    rw [h]
    exact List.count_eq_one_of_mem his hi

/-! ## Active subscriptions -/

variable {subscriptions : List RuntimeBusSubscription} {channel : String}

theorem mem_activeOn {i : ℕ} : i ∈ activeOn subscriptions channel ↔
    ∃ subscription, subscriptions[i]? = some subscription ∧ subscription.active = true ∧
      subscription.channel = channel := by
  unfold activeOn
  rw [List.mem_filter, List.mem_range, Option.any_eq_true]
  simp only [Bool.and_eq_true, decide_eq_true_eq]
  constructor
  · rintro ⟨-, subscription, hget, hactive⟩
    exact ⟨subscription, hget, hactive⟩
  · rintro ⟨subscription, hget, hactive⟩
    exact ⟨(List.getElem?_eq_some_iff.mp hget).1, subscription, hget, hactive⟩

theorem nodup_activeOn : (activeOn subscriptions channel).Nodup :=
  List.Nodup.filter _ List.nodup_range

/-- The active subscriptions are listed by their place. -/
theorem sorted_activeOn : (activeOn subscriptions channel).Pairwise (· < ·) :=
  List.pairwise_lt_range.filter _

/-! ## Watching -/

structure Watched where
  bus : RuntimeEventBus
  due : Dict String (List ℕ) := .empty
  calls : List (ℕ × String) := []

inductive ObjectCall where
  | publish (p : Emission)
  | subscribe (channel : Val) (callable : Bool) (now : Except Err ℕ) (written : Except Err Unit)
  | unsubscribe (target : Target) (now : Except Err ℕ) (written : Except Err Unit)

section Watch

variable (F H)

/-- The handlers of the events, after a publication that may have stored one. -/
def dueAfter (t : Watched) (p : Emission) : Dict String (List ℕ) :=
  match stored F H t.bus p with
  | .error _ => t.due
  | .ok (_, raw, _) =>
    if t.bus.state.events.contains raw.eventId then t.due
    else t.due.set raw.eventId (activeOn t.bus.subscriptions p.channel.text)

def Watched.next (t : Watched) : ObjectCall → Watched
  | .publish p =>
    let outcome := t.bus.publish F H p
    { bus := outcome.bus
      due := dueAfter F H t p
      calls := t.calls ++ outcome.invoked.map fun call => (call.1, call.2.eventId) }
  | .subscribe channel callable now written =>
    { t with bus := (t.bus.subscribe F channel callable now written).2 }
  | .unsubscribe target now written => { t with bus := (t.bus.unsubscribe F target now written).2 }

def watchedBus : Machine Watched ObjectCall Unit := ⟨fun t c => ((), t.next F H c)⟩

end Watch

/-- Each handler of an event has been called exactly once for it. -/
def Once (t : Watched) : Prop :=
  ∀ id handlers, t.due.get? id = some handlers → ∀ i ∈ handlers, t.calls.count (i, id) = 1

instance (t : Watched) : Decidable (Once t) :=
  decidable_of_iff (∀ entry ∈ t.due.entries, ∀ i ∈ entry.2, t.calls.count (i, entry.1) = 1)
    ⟨fun h id handlers hget => h (id, handlers) (Dict.mem_entries.mpr hget),
      fun h entry hentry => h entry.1 entry.2 (Dict.mem_entries.mp hentry)⟩

/-- Saving does not fail. -/
def Saves (b : RuntimeEventBus) (written : Except Err Unit) : Prop :=
  b.saving = true → written = .ok ()

variable (H) in
/-- A publication that gets as far as the durable bus and is accepted there. -/
structure Attempt (p : Emission) (publication : Publication) (entries : Entries) (at' : ℕ)
    (payload : Val) : Prop where
  channel : p.channel.text ≠ ""
  eventType : p.eventType.text ≠ ""
  envelope : envelope H p = .ok (payload, publication)
  accepted : Accepted publication
  entries : publication.payload = .dict entries
  now : publication.now = .ok at'

variable (F) in
def addressed (s : EventBusState) (publication : Publication) (entries : Entries) (at' : ℕ) : Event :=
  match published s publication.key with
  | some e => e
  | none => newEvent F s publication entries at'

variable (F H) in
def CarefulPublish (t : Watched) (p : Emission) : Prop :=
  ∀ publication entries at' payload, Attempt H p publication entries at' payload →
    let id := (addressed F t.bus.state publication entries at').eventId
    let active := activeOn t.bus.subscriptions p.channel.text
    if t.bus.state.events.contains id then
      ∀ handlers, t.due.get? id = some handlers → Saves t.bus p.written → ∀ i ∈ handlers, i ∉ active
    else active = [] ∨ Saves t.bus p.written ∧ ∀ i ∈ active.dropLast, p.raises i = false

variable (F H) in
def Careful (t : Watched) : ObjectCall → Prop
  | .publish p => CarefulPublish F H t p
  | _ => True

/-! ## What a publication does -/

variable {b b' : RuntimeEventBus} {t : Watched} {p : Emission}

theorem maybeSave_cases (hvalid : validateState F b.state = []) (written : Except Err Unit) :
    (¬ Saves b written ∧ ∃ e, maybeSave F b written = .error e) ∨
      (Saves b written ∧ ∃ s, maybeSave F b written = .ok { b with state := s } ∧
        validateState F s = [] ∧ s.events = b.state.events) := by
  have hsealed := valid_sealState (validateState_eq_nil.mp hvalid).2
  unfold maybeSave saveEventBusState Saves
  by_cases hsaving : b.saving = true
  · rw [if_pos hsaving, if_pos hsealed]
    cases written with
    | error e => exact .inl ⟨(fun h => by cases h hsaving), _, rfl⟩
    | ok u => exact .inr ⟨fun _ => rfl, _, rfl, hsealed, rfl⟩
  · rw [if_neg hsaving]
    exact .inr ⟨fun h => absurd h hsaving, _, rfl, hvalid, rfl⟩

def Keyed (cache : Dict String RuntimeBusEvent) : Prop :=
  ∀ id event, cache.get? id = some event → event.eventId = id

variable {cache : Dict String RuntimeBusEvent}

theorem Keyed.set (h : Keyed cache) (event : RuntimeBusEvent) :
    Keyed (cache.set event.eventId event) := by
  intro id event' hget
  rw [Dict.get?_set] at hget
  split at hget
  · rename_i hid
    cases hget
    exact hid.symm
  · exact h id event' hget

theorem keyed_project (h : Keyed cache) (raw : Event) :
    (project cache raw).1.eventId = raw.eventId ∧ Keyed (project cache raw).2 := by
  unfold project
  split
  · rename_i event hevent
    exact ⟨h _ _ hevent, h⟩
  · exact ⟨rfl, h.set (projected raw)⟩

theorem keyed_handedOut {cache : Dict String RuntimeBusEvent} (h : Keyed cache) (payload : Val)
    (raw : Event) :
    (handedOut cache p payload raw).1.eventId = raw.eventId ∧
      Keyed (handedOut cache p payload raw).2 := by
  have hproject := keyed_project h raw
  unfold handedOut
  dsimp only
  split
  · exact hproject
  · exact ⟨rfl, hproject.2.set (callerEvent p payload raw)⟩

variable {payload : Val}

theorem stored_eq_error {e : Err} (h : stored F H b p = .error e) {publication : Publication}
    {entries : Entries} {at' : ℕ} : ¬ Attempt H p publication entries at' payload := by
  intro hattempt
  unfold stored at h
  rw [if_neg (not_or.mpr ⟨hattempt.channel, hattempt.eventType⟩), hattempt.envelope] at h
  dsimp only at h
  unfold publish at h
  rw [if_neg (not_not.mpr hattempt.accepted.eventType), if_neg hattempt.accepted.topic,
    if_neg hattempt.accepted.source, hattempt.entries, hattempt.now] at h
  cases hpublished : published b.state publication.key with
  | none =>
    rw [hpublished] at h
    cases h
  | some e =>
    rw [hpublished] at h
    cases h

variable {state : EventBusState} {raw : Event}

theorem stored_eq_ok (hvalid : validateState F b.state = [])
    (h : stored F H b p = .ok (state, raw, payload)) :
    validateState F state = [] ∧
      (∀ id, state.events.contains id = true ↔
        id = raw.eventId ∨ b.state.events.contains id = true) ∧
      ∃ publication entries at', Attempt H p publication entries at' payload ∧
        raw = addressed F b.state publication entries at' := by
  unfold stored at h
  split at h
  · cases h
  rename_i htexts
  obtain ⟨hchannel, htype⟩ := not_or.mp htexts
  cases henvelope : envelope H p with
  | error e =>
    rw [henvelope] at h
    cases h
  | ok answer =>
    obtain ⟨payload', publication⟩ := answer
    rw [henvelope] at h
    dsimp only at h
    cases hpublish : publish F b.state publication with
    | error e =>
      rw [hpublish] at h
      cases h
    | ok answer =>
      obtain ⟨state', raw'⟩ := answer
      rw [hpublish] at h
      cases h
      refine ⟨valid_publish hvalid hpublish, ?_⟩
      obtain ⟨haccepted, entries, at', hentries, hnow, hcases⟩ := publish_cases hpublish
      have hattempt : Attempt H p publication entries at' payload :=
        ⟨hchannel, htype, henvelope, haccepted, hentries, hnow⟩
      rcases hcases with ⟨hexisting, rfl⟩ | ⟨hnone, rfl, rfl⟩
      · have hraw := (mem_log (validateState_eq_nil.mp hvalid).2).mp (published_some hexisting).2.1
        have hcontains : b.state.events.contains raw.eventId = true := Dict.contains_iff.mpr ⟨_, hraw⟩
        refine ⟨fun id => ⟨.inr, fun hid => ?_⟩, publication, entries, at', hattempt, ?_⟩
        · rcases hid with rfl | hid
          · exact hcontains
          · exact hid
        · unfold addressed
          rw [hexisting]
      · refine ⟨fun id => Dict.contains_set .., publication, entries, at', hattempt, ?_⟩
        unfold addressed
        rw [hnone]

variable (F) in
/-- The bus after a publication that the durable bus answered with `state` and `raw`. -/
structure After (t t' : Watched) (p : Emission) (state : EventBusState) (raw : Event) : Prop where
  valid : validateState F t'.bus.state = []
  events : t'.bus.state.events = state.events
  subscriptions : t'.bus.subscriptions = t.bus.subscriptions
  keyed : Keyed t'.bus.eventCache
  due : t'.due = if t.bus.state.events.contains raw.eventId then t.due
    else t.due.set raw.eventId (activeOn t.bus.subscriptions p.channel.text)
  calls : ∃ reached, t'.calls = t.calls ++ reached.map (fun i => (i, raw.eventId)) ∧
    (Saves t.bus p.written →
      reached = untilRaise p.raises (activeOn t.bus.subscriptions p.channel.text)) ∧
    (¬ Saves t.bus p.written → reached = [])

theorem next_of_error {e : Err} (h : stored F H t.bus p = .error e) : t.next F H (.publish p) = t := by
  have hpublish : t.bus.publish F H p = { answer := .error e, bus := t.bus } := by
    unfold RuntimeEventBus.publish
    rw [h]
  have hdue : dueAfter F H t p = t.due := by
    unfold dueAfter
    rw [h]
  unfold Watched.next
  dsimp only
  rw [hpublish, hdue, List.map_nil, List.append_nil]

theorem next_of_ok (hkeyed : Keyed t.bus.eventCache) (hstate : validateState F state = [])
    (h : stored F H t.bus p = .ok (state, raw, payload)) :
    After F t (t.next F H (.publish p)) p state raw := by
  have hdue : dueAfter F H t p = if t.bus.state.events.contains raw.eventId then t.due
      else t.due.set raw.eventId (activeOn t.bus.subscriptions p.channel.text) := by
    unfold dueAfter
    rw [h]
  obtain ⟨hid, hcache⟩ := @keyed_handedOut p t.bus.eventCache hkeyed payload raw
  have hsaved := @maybeSave_cases F
    { t.bus with state := state, eventCache := (handedOut t.bus.eventCache p payload raw).2 } hstate
    p.written
  rcases hsaved with ⟨hfails, e, hsave⟩ | ⟨hsaves, s, hsave, hvalid, hevents⟩
  · have hpublish : t.bus.publish F H p = { answer := .error e, bus :=
        { t.bus with state := state, eventCache := (handedOut t.bus.eventCache p payload raw).2 } } := by
      unfold RuntimeEventBus.publish
      rw [h]
      dsimp only
      rw [hsave]
    unfold Watched.next
    dsimp only
    rw [hpublish]
    exact ⟨hstate, rfl, rfl, hcache, hdue, [], rfl, fun hsaves => absurd hsaves hfails, fun _ => rfl⟩
  · have hinvoked : (t.bus.publish F H p).invoked =
          (untilRaise p.raises (activeOn t.bus.subscriptions p.channel.text)).map
            fun i => (i, (handedOut t.bus.eventCache p payload raw).1) := by
      unfold RuntimeEventBus.publish
      rw [h]
      dsimp only
      rw [hsave]
    have hbus : (t.bus.publish F H p).bus =
        { t.bus with state := s, eventCache := (handedOut t.bus.eventCache p payload raw).2 } := by
      unfold RuntimeEventBus.publish
      rw [h]
      dsimp only
      rw [hsave]
    unfold Watched.next
    dsimp only
    rw [hbus, hinvoked, List.map_map]
    refine ⟨hvalid, hevents, rfl, hcache, hdue, _, ?_, fun _ => rfl, fun hfails => absurd hsaves hfails⟩
    exact congrArg (t.calls ++ ·) (List.map_congr_left fun i _ => Prod.ext rfl hid)

/-! ## Subscribing and unsubscribing -/

variable (F) in
/-- What a call that publishes nothing does to the bus. -/
structure Resubscribed (b b' : RuntimeEventBus) : Prop where
  valid : validateState F b'.state = []
  events : b'.state.events = b.state.events
  cache : b'.eventCache = b.eventCache
  length : b.subscriptions.length ≤ b'.subscriptions.length
  active : ∀ i channel, i < b.subscriptions.length → i ∈ activeOn b'.subscriptions channel →
    i ∈ activeOn b.subscriptions channel

theorem Resubscribed.refl (hvalid : validateState F b.state = []) : Resubscribed F b b :=
  ⟨hvalid, rfl, rfl, le_rfl, fun _ _ _ h => h⟩

variable {s : EventBusState}

theorem Resubscribed.listed (hs : validateState F s = []) (hevents : s.events = b.state.events)
    (subscription : RuntimeBusSubscription) :
    Resubscribed F b { b with state := s, subscriptions := b.subscriptions ++ [subscription] } := by
  refine ⟨hs, hevents, rfl, ?_, fun i channel hi hmem => ?_⟩
  · rw [List.length_append]
    exact Nat.le_add_right ..
  · rw [mem_activeOn] at hmem ⊢
    dsimp only at hmem
    rwa [List.getElem?_append_left hi] at hmem

theorem mem_activeOn_deactivate {subscriptions : List RuntimeBusSubscription} {position : Option ℕ}
    {i : ℕ} {channel : String} (h : i ∈ activeOn (deactivate subscriptions position) channel) :
    i ∈ activeOn subscriptions channel := by
  cases position with
  | none => exact h
  | some j =>
    rw [mem_activeOn] at h ⊢
    obtain ⟨subscription, hget, hactive, hchannel⟩ := h
    unfold deactivate at hget
    rw [List.getElem?_modify] at hget
    obtain ⟨before, hbefore, heq⟩ := Option.map_eq_some_iff.mp hget
    split at heq
    · rw [← heq] at hactive
      cases hactive
    · rw [← heq] at hactive hchannel
      exact ⟨before, hbefore, hactive, hchannel⟩

theorem Resubscribed.deactivated (hs : validateState F s = []) (hevents : s.events = b.state.events)
    (position : Option ℕ) :
    Resubscribed F b { b with state := s, subscriptions := deactivate b.subscriptions position } := by
  refine ⟨hs, hevents, rfl, ?_, fun i channel _ hmem => mem_activeOn_deactivate hmem⟩
  cases position with
  | none => exact le_rfl
  | some j => exact le_of_eq (List.length_modify ..).symm

theorem Resubscribed.saved (h : Resubscribed F b b') (hs : validateState F s = [])
    (hevents : s.events = b'.state.events) : Resubscribed F b { b' with state := s } :=
  ⟨hs, hevents.trans h.events, h.cache, h.length, h.active⟩

theorem resubscribed_subscribe (hvalid : validateState F b.state = []) (channel : Val)
    (callable : Bool) (now : Except Err ℕ) (written : Except Err Unit) :
    Resubscribed F b (b.subscribe F channel callable now written).2 := by
  unfold RuntimeEventBus.subscribe
  split
  · exact .refl hvalid
  · dsimp only
    cases hsubscribe : EventBus.subscribe F b.state (.str channel.text)
        (.str ("compat-subscription-" ++ toString (b.subscriptions.length + 1))) now with
    | error e => exact .listed hvalid rfl _
    | ok s =>
      have hs := valid_subscribe hvalid hsubscribe
      have hlisted := Resubscribed.listed hs (sameLog_subscribe hsubscribe).events
      dsimp only
      split
      · exact hlisted _
      · rename_i b' hsave
        rcases maybeSave_cases (hlisted _).valid written with ⟨-, e, herror⟩ | ⟨-, s', hok, hs', hevents⟩
        · rw [herror] at hsave
          cases hsave
        · rw [hok] at hsave
          cases hsave
          exact (hlisted _).saved hs' hevents

theorem resubscribed_unsubscribe (hvalid : validateState F b.state = []) (target : Target)
    (now : Except Err ℕ) (written : Except Err Unit) :
    Resubscribed F b (b.unsubscribe F target now written).2 := by
  unfold RuntimeEventBus.unsubscribe
  cases target.find b with
  | none => exact .refl hvalid
  | some found =>
    obtain ⟨position, id⟩ := found
    dsimp only
    cases hunsubscribe : EventBus.unsubscribe F b.state id now with
    | error e => exact .deactivated hvalid rfl position
    | ok s =>
      have hs := valid_unsubscribe hvalid hunsubscribe
      have hquiet := Resubscribed.deactivated hs (sameLog_unsubscribe hunsubscribe).events position
      dsimp only
      split
      · exact hquiet
      · rename_i b' hsave
        rcases maybeSave_cases hquiet.valid written with ⟨-, e, herror⟩ | ⟨-, s', hok, hs', hevents⟩
        · rw [herror] at hsave
          cases hsave
        · rw [hok] at hsave
          cases hsave
          exact hquiet.saved hs' hevents

/-! ## The invariant -/

variable (F) in
structure Inv (t : Watched) : Prop where
  valid : validateState F t.bus.state = []
  keyed : Keyed t.bus.eventCache
  known : ∀ id handlers, t.due.get? id = some handlers → t.bus.state.events.contains id = true
  called : ∀ i id, (i, id) ∈ t.calls → t.bus.state.events.contains id = true
  bounded : ∀ id handlers, t.due.get? id = some handlers →
    ∀ i ∈ handlers, i < t.bus.subscriptions.length
  /-- What stands before a handler of an event on its channel is a handler of the event, too. -/
  closed : ∀ id handlers, t.due.get? id = some handlers → ∀ i ∈ handlers, ∀ j ≤ i, ∀ channel,
    i ∈ activeOn t.bus.subscriptions channel → j ∈ activeOn t.bus.subscriptions channel → j ∈ handlers

theorem activeOn_channel {subscriptions : List RuntimeBusSubscription} {channel channel' : String}
    {i : ℕ} (h : i ∈ activeOn subscriptions channel) (h' : i ∈ activeOn subscriptions channel') :
    channel = channel' := by
  obtain ⟨subscription, hget, -, hchannel⟩ := mem_activeOn.mp h
  obtain ⟨subscription', hget', -, hchannel'⟩ := mem_activeOn.mp h'
  rw [hget] at hget'
  cases hget'
  exact hchannel.symm.trans hchannel'

variable {t' : Watched}

theorem Inv.published (h : Inv F t) (hstate : ∀ id, state.events.contains id = true ↔
      id = raw.eventId ∨ t.bus.state.events.contains id = true) (hafter : After F t t' p state raw)
    : Inv F t' := by
  have hcontains : ∀ id, t'.bus.state.events.contains id = true ↔
      id = raw.eventId ∨ t.bus.state.events.contains id = true := by
    rw [hafter.events]
    exact hstate
  -- an event's handlers are those it had, or the ones that are active now
  have hdue : ∀ id handlers, t'.due.get? id = some handlers → t.due.get? id = some handlers ∨
      id = raw.eventId ∧ handlers = activeOn t.bus.subscriptions p.channel.text := by
    intro id handlers hget
    rw [hafter.due] at hget
    split at hget
    · exact .inl hget
    · rw [Dict.get?_set] at hget
      split at hget
      · rename_i hid
        cases hget
        exact .inr ⟨hid, rfl⟩
      · exact .inl hget
  refine ⟨hafter.valid, hafter.keyed, fun id handlers hget => ?_, fun i id hmem => ?_,
    fun id handlers hget i hi => ?_, fun id handlers hget i hi j hj channel hiactive hjactive => ?_⟩
  · rw [hcontains]
    rcases hdue id handlers hget with hold | ⟨hid, -⟩
    · exact .inr (h.known id handlers hold)
    · exact .inl hid
  · rw [hcontains]
    obtain ⟨reached, hcalls, -⟩ := hafter.calls
    rw [hcalls] at hmem
    rcases List.mem_append.mp hmem with hmem | hmem
    · exact .inr (h.called i id hmem)
    · obtain ⟨j, -, heq⟩ := List.mem_map.mp hmem
      exact .inl (congrArg Prod.snd heq).symm
  · rw [hafter.subscriptions]
    rcases hdue id handlers hget with hold | ⟨-, rfl⟩
    · exact h.bounded id handlers hold i hi
    · exact List.mem_range.mp (List.mem_of_mem_filter hi)
  · rw [hafter.subscriptions] at hiactive hjactive
    rcases hdue id handlers hget with hold | ⟨-, rfl⟩
    · exact h.closed id handlers hold i hi j hj channel hiactive hjactive
    · rw [activeOn_channel hi hiactive]
      exact hjactive

theorem Inv.resubscribed (h : Inv F t) (hbus : Resubscribed F t.bus b) :
    Inv F { t with bus := b } := by
  have hcontains : ∀ id, t.bus.state.events.contains id = true → b.state.events.contains id = true := by
    rw [hbus.events]
    exact fun _ h => h
  refine ⟨hbus.valid, ?_, fun id handlers hget => hcontains id (h.known id handlers hget),
    fun i id hmem => hcontains id (h.called i id hmem), fun id handlers hget i hi => ?_,
    fun id handlers hget i hi j hj channel hiactive hjactive => ?_⟩
  · have hcache : Keyed b.eventCache := by
      rw [hbus.cache]
      exact h.keyed
    exact hcache
  · exact Nat.lt_of_lt_of_le (h.bounded id handlers hget i hi) hbus.length
  · have hbound := h.bounded id handlers hget i hi
    exact h.closed id handlers hget i hi j hj channel (hbus.active i channel hbound hiactive)
      (hbus.active j channel (Nat.lt_of_le_of_lt hj hbound) hjactive)

theorem inv_next (h : Inv F t) (c : ObjectCall) : Inv F (t.next F H c) := by
  cases c with
  | publish p =>
    cases hstored : stored F H t.bus p with
    | error e =>
      rw [next_of_error hstored]
      exact h
    | ok answer =>
      obtain ⟨state, raw, payload⟩ := answer
      obtain ⟨hvalid, hcontains, -⟩ := stored_eq_ok h.valid hstored
      exact h.published hcontains (next_of_ok h.keyed hvalid hstored)
  | subscribe channel callable now written =>
    exact h.resubscribed (resubscribed_subscribe h.valid channel callable now written)
  | unsubscribe target now written =>
    exact h.resubscribed (resubscribed_unsubscribe h.valid target now written)

/-! ## One step -/

theorem count_calls (reached : List ℕ) (i : ℕ) (id : String) :
    (reached.map fun j => (j, id)).count (i, id) = reached.count i :=
  List.count_map_of_injective reached (fun j => (j, id)) (fun _ _ h => congrArg Prod.fst h) i

theorem count_calls_of_ne {id id' : String} (h : id' ≠ id) (reached : List ℕ) (i : ℕ) :
    (reached.map fun j => (j, id)).count (i, id') = 0 := by
  refine List.count_eq_zero_of_not_mem fun hmem => ?_
  obtain ⟨j, -, heq⟩ := List.mem_map.mp hmem
  exact h (congrArg Prod.snd heq).symm

/-- A new event: its handlers are called once, if and only if none of them is left out. -/
theorem once_new (h : Inv F t) (honce : Once t)
    (hnew : t.bus.state.events.contains raw.eventId = false) (hafter : After F t t' p state raw) :
    Once t' ↔ activeOn t.bus.subscriptions p.channel.text = [] ∨ Saves t.bus p.written ∧
      ∀ i ∈ (activeOn t.bus.subscriptions p.channel.text).dropLast, p.raises i = false := by
  obtain ⟨reached, hcalls, hsaves, hfails⟩ := hafter.calls
  have hdue := hafter.due
  rw [if_neg ((Bool.not_eq_true _).mpr hnew)] at hdue
  have hzero : ∀ i, t.calls.count (i, raw.eventId) = 0 := by
    refine fun i => List.count_eq_zero_of_not_mem fun hmem => ?_
    rw [h.called i raw.eventId hmem] at hnew
    cases hnew
  -- the law for the new event; nothing changes for the others
  have hiff : Once t' ↔
      ∀ i ∈ activeOn t.bus.subscriptions p.channel.text, reached.count i = 1 := by
    constructor
    · intro honce' i hi
      have hone := honce' raw.eventId _ (by rw [hdue, Dict.get?_set, if_pos rfl]) i hi
      rwa [hcalls, List.count_append, hzero, count_calls, Nat.zero_add] at hone
    · intro hreached id handlers hget i hi
      rw [hdue, Dict.get?_set] at hget
      rw [hcalls, List.count_append]
      split at hget
      · rename_i hid
        cases hget
        rw [hid, hzero, count_calls, Nat.zero_add]
        exact hreached i hi
      · rename_i hid
        rw [count_calls_of_ne hid, Nat.add_zero]
        exact honce id handlers hget i hi
  rw [hiff]
  by_cases hok : Saves t.bus p.written
  · rw [hsaves hok, count_untilRaise nodup_activeOn]
    constructor
    · exact fun hquiet => .inr ⟨hok, hquiet⟩
    · rintro (hempty | ⟨-, hquiet⟩)
      · rw [hempty]
        exact fun i hi => absurd hi List.not_mem_nil
      · exact hquiet
  · rw [hfails hok]
    constructor
    · refine fun hnone => .inl (List.eq_nil_iff_forall_not_mem.mpr fun i hi => ?_)
      exact absurd (hnone i hi) (by simp)
    · rintro (hempty | ⟨hsaved, -⟩)
      · rw [hempty]
        exact fun i hi => absurd hi List.not_mem_nil
      · exact absurd hsaved hok

/-- An event that is published again must not reach any of its handlers. -/
theorem once_again (h : Inv F t) (honce : Once t)
    (hold : t.bus.state.events.contains raw.eventId = true) (hafter : After F t t' p state raw) :
    Once t' ↔ ∀ handlers, t.due.get? raw.eventId = some handlers → Saves t.bus p.written →
      ∀ i ∈ handlers, i ∉ activeOn t.bus.subscriptions p.channel.text := by
  obtain ⟨reached, hcalls, hsaves, hfails⟩ := hafter.calls
  have hdue := hafter.due
  rw [if_pos hold] at hdue
  constructor
  · intro honce' handlers hget hok i hi hactive
    cases hlist : activeOn t.bus.subscriptions p.channel.text with
    | nil =>
      rw [hlist] at hactive
      exact List.not_mem_nil hactive
    | cons a rest =>
      -- the first active subscription is a handler of the event, and it is called again
      have ha : a ∈ activeOn t.bus.subscriptions p.channel.text := by
        rw [hlist]
        exact List.mem_cons_self
      have hle : a ≤ i := by
        have hsorted := @sorted_activeOn t.bus.subscriptions p.channel.text
        rw [hlist] at hsorted hactive
        rcases List.mem_cons.mp hactive with rfl | hrest
        · exact le_rfl
        · exact le_of_lt (List.rel_of_pairwise_cons hsorted hrest)
      have hhandler := h.closed raw.eventId handlers hget i hi a hle _ hactive ha
      have hbefore := honce raw.eventId handlers hget a hhandler
      have hafter' := honce' raw.eventId handlers (by rw [hdue]; exact hget) a hhandler
      have hpos : 0 < reached.count a := by
        rw [List.count_pos_iff, hsaves hok, hlist]
        exact head_mem_untilRaise p.raises a rest
      rw [hcalls, List.count_append, hbefore, count_calls] at hafter'
      omega
  · intro hquiet id handlers hget i hi
    rw [hdue] at hget
    rw [hcalls, List.count_append, honce id handlers hget i hi]
    by_cases hid : id = raw.eventId
    · subst hid
      have hnone : reached.count i = 0 := by
        refine List.count_eq_zero_of_not_mem fun hmem => ?_
        by_cases hok : Saves t.bus p.written
        · rw [hsaves hok] at hmem
          exact hquiet handlers hget hok i hi ((prefix_untilRaise _ _).subset hmem)
        · rw [hfails hok] at hmem
          exact List.not_mem_nil hmem
      rw [count_calls, hnone]
    · rw [count_calls_of_ne hid]

theorem careful_iff_once (h : Inv F t) (honce : Once t) (c : ObjectCall) :
    Careful F H t c ↔ Once (t.next F H c) := by
  cases c with
  | publish p =>
    change CarefulPublish F H t p ↔ _
    cases hstored : stored F H t.bus p with
    | error e =>
      rw [next_of_error hstored]
      exact ⟨fun _ => honce, fun _ publication entries at' payload hattempt =>
        absurd hattempt (stored_eq_error hstored)⟩
    | ok answer =>
      obtain ⟨state, raw, payload⟩ := answer
      obtain ⟨hvalid, -, publication, entries, at', hattempt, hraw⟩ := stored_eq_ok h.valid hstored
      have hafter := next_of_ok h.keyed hvalid hstored
      have honly : CarefulPublish F H t p ↔
          if t.bus.state.events.contains raw.eventId then
            ∀ handlers, t.due.get? raw.eventId = some handlers → Saves t.bus p.written →
              ∀ i ∈ handlers, i ∉ activeOn t.bus.subscriptions p.channel.text
          else activeOn t.bus.subscriptions p.channel.text = [] ∨ Saves t.bus p.written ∧
            ∀ i ∈ (activeOn t.bus.subscriptions p.channel.text).dropLast, p.raises i = false := by
        rw [hraw]
        refine ⟨fun hcareful => hcareful publication entries at' payload hattempt, ?_⟩
        intro hclause publication' entries' at'' payload' hattempt'
        obtain ⟨rfl, rfl⟩ : payload' = payload ∧ publication' = publication := by
          have := hattempt'.envelope.symm.trans hattempt.envelope
          cases this
          exact ⟨rfl, rfl⟩
        cases hattempt'.entries.symm.trans hattempt.entries
        cases hattempt'.now.symm.trans hattempt.now
        exact hclause
      rw [honly]
      cases hcontains : t.bus.state.events.contains raw.eventId with
      | true =>
        rw [if_pos rfl]
        exact (once_again h honce hcontains hafter).symm
      | false =>
        rw [if_neg Bool.false_ne_true]
        exact (once_new h honce hcontains hafter).symm
  | subscribe channel callable now written => exact ⟨fun _ => honce, fun _ => trivial⟩
  | unsubscribe target now written => exact ⟨fun _ => honce, fun _ => trivial⟩

/-! ## Whole runs -/

theorem inv_init {saving : Bool} {origin : Origin} (h : init F saving origin = .ok b) :
    Inv F ⟨b, .empty, []⟩ := by
  have hnew : ∀ s, validateState F s = [] → Inv F ⟨{ saving, state := s }, .empty, []⟩ := by
    intro s hs
    exact ⟨hs, (fun id event hget => by cases hget), (fun id handlers hget => by cases hget),
      (fun i id hmem => absurd hmem List.not_mem_nil), (fun id handlers hget => by cases hget),
      (fun id handlers hget => by cases hget)⟩
  unfold init at h
  split at h
  · split at h
    · rename_i hvalid
      cases h
      exact hnew _ hvalid
    · cases h
  · rename_i loaded
    unfold loadEventBusState at h
    cases loaded with
    | error e => cases h
    | ok s =>
      dsimp only at h
      by_cases hvalid : validateState F s = []
      · rw [if_pos hvalid] at h
        cases h
        exact hnew _ hvalid
      · rw [if_neg hvalid] at h
        cases h
  · split at h
    · cases h
    · rename_i s hcreate
      cases h
      exact hnew _ (kept_created hcreate).valid

/-- Every handler is called once for its events in all states of a run, if and only if every call of
the run is careful. -/
theorem once_iff_careful {saving : Bool} {origin : Origin} (hb : init F saving origin = .ok b)
    (calls : List ObjectCall) :
    (∀ before, before <+: calls → Once ((watchedBus F H).run ⟨b, .empty, []⟩ before)) ↔
      (watchedBus F H).Guarded (Careful F H) ⟨b, .empty, []⟩ calls := by
  have hstep : ∀ t c, Inv F t → Inv F ((watchedBus F H).step t c).2 := fun _ c h => inv_next h c
  have hiff : ∀ t c, Inv F t → Once t → (Careful F H t c ↔ Once ((watchedBus F H).step t c).2) :=
    fun _ c h honce => careful_iff_once h honce c
  have hstart : Once ⟨b, .empty, []⟩ := fun id handlers hget => by cases hget
  exact (Machine.guarded_iff_always hstep hiff (inv_init hb) hstart).symm

def plainProjection : Projection where
  executionResult payload _ := .ok payload
  safe := .ok

def plainBus : RuntimeEventBus where
  saving := false
  state := newBus plainDigest "bus.json" "bus.json" (Val.str "default").text 0

theorem init_plain :
    init plainDigest false (.new "bus.json" "bus.json" (.str "default") (.ok 0)) = .ok plainBus := by
  unfold init
  dsimp only
  rw [created_plain]
  rfl

/-- Two handlers on one channel, and a publication with the first of them raising or not. -/
def subscribedTwice : List ObjectCall :=
  [.subscribe (.str "a") true (.ok 1) (.ok ()), .subscribe (.str "a") true (.ok 1) (.ok ())]

def emission (raises : Bool) : ObjectCall :=
  .publish
    { channel := .str "a", eventType := .str "created", idempotencyKey := .str "one", now := .ok 2,
      raises := fun i => raises && i == 0 }

/-- A handler that raises keeps the next one from being called; publishing again with the same key
calls every handler again. -/
theorem skipped_and_repeated :
    init plainDigest false (.new "bus.json" "bus.json" (.str "default") (.ok 0)) = .ok plainBus ∧
      ¬ Once ((watchedBus plainDigest plainProjection).run ⟨plainBus, .empty, []⟩
        (subscribedTwice ++ [emission true])) ∧
      ¬ Once ((watchedBus plainDigest plainProjection).run ⟨plainBus, .empty, []⟩
        (subscribedTwice ++ [emission false, emission false])) :=
  ⟨init_plain, by decide +kernel, by decide +kernel⟩

theorem once_iff_careful_plain :
    (∀ before, before <+: subscribedTwice ++ [emission false] →
        Once ((watchedBus plainDigest plainProjection).run ⟨plainBus, .empty, []⟩ before)) ↔
      (watchedBus plainDigest plainProjection).Guarded (Careful plainDigest plainProjection)
        ⟨plainBus, .empty, []⟩ (subscribedTwice ++ [emission false]) :=
  once_iff_careful init_plain _

end EventBus
end ZeroRuntime
