import ZeroRuntime.EventBus.Log
import ZeroRuntime.Lib.Digest

/-!
# ZeroRuntime.EventBus.Intact

The log over whole runs.

* `Sound` is what the validator asks for beside the fingerprint of the state.
* `Numbered`: the sequence numbers in order, where the ids come from, and whose the keys are.
* `publish_cases`: a publication answers the event that has its key, or appends a new one.
* `event_log_intact`: all of this holds after every run, repeated keys change nothing in the log, and
  reading by pages is reading at once.
-/

namespace ZeroRuntime
namespace EventBus

open Lib

variable {F : BusDigest} {s s' : EventBusState} {p : Publication} {e : Event}

/-! ## What the validator asks for -/

variable (F) in
structure EventSound (id : String) (e : Event) : Prop where
  keyed : e.eventId = id
  contract : e.contract = eventContract
  signed : e.eventFingerprint = F.event (unsignedEvent e)
  identified : blank e.eventId = false
  typed : e.eventType ∈ validEventTypes
  topic : blank e.topic = false
  source : blank e.source = false
  positive : 1 ≤ e.sequence

variable (F) in
def Signed (s : EventBusState) : Prop := s.busFingerprint = F.state (unsignedBus s)

variable (F) in
structure Sound (s : EventBusState) : Prop where
  contract : s.contract = busContract
  identified : blank s.busId = false
  named : blank s.busName = false
  order : ∀ id, id ∈ s.eventOrder ↔ s.events.contains id = true
  next : s.nextSequence = s.eventOrder.length + 1
  event : ∀ id e, s.events.get? id = some e → EventSound F id e
  subscription : ∀ id item, s.subscriptions.get? id = some item → subscriptionReasons id item = []

theorem blank_of_valid {t : String} (h : t ∈ validEventTypes) : blank t = false := by
  revert t
  decide

variable {id : String}

theorem validateEvent_eq_nil : e.eventId = id ∧ validateEvent F e = [] ↔ EventSound F id e := by
  unfold validateEvent
  simp only [List.append_eq_nil_iff, missing_eq_nil, found_eq_nil, Bool.not_eq_true, not_lt,
    and_assoc]
  constructor
  · rintro ⟨hid, hcontract, hsigned, hidentified, -, htopic, hsource, htyped, hpositive⟩
    exact ⟨hid, hcontract, hsigned, hidentified, htyped, htopic, hsource, hpositive⟩
  · intro h
    exact ⟨h.keyed, h.contract, h.signed, h.identified, blank_of_valid h.typed, h.topic, h.source,
      h.typed, h.positive⟩

theorem validateState_eq_nil : validateState F s = [] ↔ Signed F s ∧ Sound F s := by
  unfold validateState
  simp only [List.append_eq_nil_iff, missing_eq_nil, found_eq_nil, Bool.not_eq_true, and_assoc,
    sameKeys_iff]
  constructor
  · rintro ⟨hcontract, hsigned, hid, hname, horder, hnext, hevents, hsubscriptions⟩
    refine ⟨hsigned, ⟨hcontract, hid, hname, horder, hnext, fun id e he => ?_, fun id item hitem => ?_⟩⟩
    · exact validateEvent_eq_nil.mp ((registry_eq_nil horder).mp hevents id e he)
    · exact List.flatMap_eq_nil_iff.mp hsubscriptions (id, item) (Dict.mem_entries.mpr hitem)
  · rintro ⟨hsigned, h⟩
    refine ⟨h.contract, hsigned, h.identified, h.named, h.order, h.next, ?_, ?_⟩
    · exact (registry_eq_nil h.order).mpr fun id e he => validateEvent_eq_nil.mpr (h.event id e he)
    · exact List.flatMap_eq_nil_iff.mpr fun entry hentry =>
        h.subscription entry.1 entry.2 (Dict.mem_entries.mp hentry)

theorem sound_sealState (h : Sound F s) : Sound F (sealState F s) :=
  ⟨h.contract, h.identified, h.named, h.order, h.next, h.event, h.subscription⟩

theorem valid_sealState (h : Sound F s) : validateState F (sealState F s) = [] :=
  validateState_eq_nil.mpr ⟨rfl, sound_sealState h⟩

/-- Every id that is made starts with a word. -/
theorem blank_prefixed {head : String} {c : Char} (hc : c ∈ head.toList)
    (hspace : Text.isSpace c = false) (x : String) : blank (head ++ x) = false := by
  have hne : Text.strip (head ++ x) ≠ "" := by
    refine Text.strip_ne_empty ?_ hspace
    rw [String.toList_append]
    exact List.mem_append_left _ hc
  unfold blank
  exact decide_eq_false hne

theorem blank_text {x : Val} (h : x.text ≠ "") : blank x.text = false := by
  unfold blank
  rw [Val.strip_text]
  exact decide_eq_false h

/-! ## What each call does -/

/-- The checks a publication passes. -/
structure Accepted (p : Publication) : Prop where
  eventType : p.eventType.text ∈ validEventTypes
  topic : p.topic.text ≠ ""
  source : p.source.text ≠ ""

theorem publish_cases (h : publish F s p = .ok (s', e)) :
    Accepted p ∧ ∃ payload at', p.payload = .dict payload ∧ p.now = .ok at' ∧
      ((published s p.key = some e ∧ s' = withDuplicate F s at') ∨
        (published s p.key = none ∧ e = newEvent F s p payload at' ∧ s' = withEvent F s e)) := by
  unfold publish at h
  split at h
  · cases h
  rename_i htype
  split at h
  · cases h
  rename_i htopic
  split at h
  · cases h
  rename_i hsource
  refine ⟨⟨not_not.mp htype, htopic, hsource⟩, ?_⟩
  split at h
  · rename_i payload hpayload
    split at h
    · cases h
    · rename_i existing at' hexisting hnow
      cases h
      exact ⟨payload, at', hpayload, hnow, .inl ⟨hexisting, rfl⟩⟩
    · rename_i at' hnone hnow
      cases h
      exact ⟨payload, at', hpayload, hnow, .inr ⟨hnone, rfl, rfl⟩⟩
  · cases h

variable {now : Except Err ℕ}

variable {subscriber : Val}

theorem subscribe_cases {topic : Val} (h : subscribe F s topic subscriber now = .ok s') :
    s' = s ∨ ∃ id item at', subscriptionReasons id item = [] ∧ s' = sealState F
      { s with subscriptions := s.subscriptions.set id item, updatedAt := at' } := by
  unfold subscribe at h
  split at h
  · cases h
  rename_i htopic
  split at h
  · cases h
  rename_i hsubscriber
  dsimp only at h
  split at h
  · cases h
    exact .inl rfl
  · cases now with
    | error e => cases h
    | ok at' =>
      cases h
      refine .inr ⟨_, _, at', ?_, rfl⟩
      unfold subscriptionReasons
      simp [blank_text htopic, blank_text hsubscriber]

theorem unsubscribe_cases (h : unsubscribe F s id now = .ok s') :
    s' = s ∨ ∃ at', s' = sealState F
      { s with subscriptions := s.subscriptions.erase id, updatedAt := at' } := by
  unfold unsubscribe at h
  split at h
  · cases now with
    | error e => cases h
    | ok at' =>
      cases h
      exact .inr ⟨at', rfl⟩
  · cases h
    exact .inl rfl

/-! ## The log -/

theorem mem_log (h : Sound F s) : e ∈ log s ↔ s.events.get? e.eventId = some e := by
  unfold log
  rw [List.mem_filterMap]
  constructor
  · rintro ⟨id, -, he⟩
    rwa [(h.event id e he).keyed]
  · intro he
    exact ⟨e.eventId, (h.order e.eventId).mpr (Dict.contains_iff.mpr ⟨e, he⟩), he⟩

variable {key : String}

theorem published_some (h : published s key = some e) :
    key ≠ "" ∧ e ∈ log s ∧ e.idempotencyKey = some key := by
  unfold published at h
  split at h
  · cases h
  · rename_i hkey
    exact ⟨hkey, List.mem_of_find?_eq_some h, by simpa using List.find?_some h⟩

theorem published_none (hkey : key ≠ "") (h : published s key = none) :
    ∀ e ∈ log s, e.idempotencyKey ≠ some key := by
  unfold published at h
  rw [if_neg hkey, List.find?_eq_none] at h
  intro e he hsome
  exact h e he (by simpa using hsome)

/-- Where its id is new, an event is appended. -/
theorem log_withEvent (hnew : e.eventId ∉ s.eventOrder) : log (withEvent F s e) = log s ++ [e] := by
  unfold log withEvent sealState
  dsimp only
  rw [List.filterMap_append]
  congr 1
  · refine List.filterMap_congr fun id hid => ?_
    rw [Dict.get?_set, if_neg]
    rintro rfl
    exact hnew hid
  · simp

variable (F) in
/-- The sequence numbers count the events, ids are made from them, and no two events share a key. -/
structure Numbered (s : EventBusState) : Prop where
  sequences : (log s).map Event.sequence = List.range' 1 s.eventOrder.length
  made : ∀ e ∈ log s, ∃ i, e.eventId = "runtime-event-" ++ F.eventIdentity i ∧
    i.sequence = e.sequence
  keys : ∀ key, key ≠ "" → ∀ e ∈ log s, ∀ e' ∈ log s,
    e.idempotencyKey = some key → e'.idempotencyKey = some key → e = e'

theorem Numbered.congr (h : Numbered F s) (hevents : s'.events = s.events)
    (horder : s'.eventOrder = s.eventOrder) : Numbered F s' := by
  have hlog : log s' = log s := by
    unfold log
    rw [hevents, horder]
  refine ⟨?_, ?_, ?_⟩
  · rw [hlog, horder]
    exact h.sequences
  · rw [hlog]
    exact h.made
  · rw [hlog]
    exact h.keys

theorem Numbered.sequence_le (h : Numbered F s) (he : e ∈ log s) :
    e.sequence ≤ s.eventOrder.length := by
  have hmem : e.sequence ∈ List.range' 1 s.eventOrder.length := by
    rw [← h.sequences]
    exact List.mem_map_of_mem he
  rw [List.mem_range'_1] at hmem
  omega

theorem newSequence_eq (h : Sound F s) : newSequence s = s.eventOrder.length + 1 := by
  unfold newSequence
  rw [h.next, if_neg (Nat.succ_ne_zero _)]

theorem newEvent_fresh (hF : F.Separates) (hs : Sound F s) (hn : Numbered F s) (payload : Entries)
    (at' : ℕ) : (newEvent F s p payload at').eventId ∉ s.eventOrder := by
  intro hmem
  obtain ⟨e, he⟩ := Dict.contains_iff.mp ((hs.order _).mp hmem)
  have hkeyed := (hs.event _ e he).keyed
  have hlog : e ∈ log s := by
    rw [mem_log hs, hkeyed]
    exact he
  obtain ⟨i, hi, hsequence⟩ := hn.made e hlog
  have hids : "runtime-event-" ++ F.eventIdentity i =
      "runtime-event-" ++ F.eventIdentity (newIdentity s p payload at') := hi.symm.trans hkeyed
  have hsame : i.sequence = newSequence s := hF _ _ (String.append_right_inj _ |>.mp hids)
  have hle := hn.sequence_le hlog
  rw [hsequence, newSequence_eq hs] at hsame
  omega

/-! ## Steps -/

theorem sound_newEvent (hs : Sound F s) (hp : Accepted p) (payload : Entries) (at' : ℕ) :
    EventSound F (newEvent F s p payload at').eventId (newEvent F s p payload at') where
  keyed := rfl
  contract := rfl
  signed := rfl
  identified := @blank_prefixed "runtime-event-" 'r' (by decide) (by decide) _
  typed := hp.eventType
  topic := blank_text hp.topic
  source := blank_text hp.source
  positive := by
    have h : (newEvent F s p payload at').sequence = newSequence s := rfl
    rw [h, newSequence_eq hs]
    omega

theorem sound_withEvent (hs : Sound F s) (he : EventSound F e.eventId e)
    (hsequence : e.sequence = s.eventOrder.length + 1) : Sound F (withEvent F s e) := by
  refine sound_sealState ⟨hs.contract, hs.identified, hs.named, fun id => ?_, ?_, fun id e' he' => ?_,
    hs.subscription⟩
  · rw [List.mem_append, List.mem_singleton, Dict.contains_set, hs.order, or_comm]
  · rw [List.length_append, List.length_singleton, hsequence]
  · rw [Dict.get?_set] at he'
    split at he'
    · rename_i hid
      cases he'
      rw [hid]
      exact he
    · exact hs.event id e' he'

theorem textOrNone_eq_some {x : Val} (h : textOrNone x = some key) : x.text = key ∧ key ≠ "" := by
  unfold textOrNone at h
  split at h
  · cases h
  · rename_i hne
    cases h
    exact ⟨rfl, hne⟩

variable {at' : ℕ}

theorem numbered_withEvent (hs : Sound F s) (hn : Numbered F s) {payload : Entries}
    (hnew : (newEvent F s p payload at').eventId ∉ s.eventOrder) (hkey : published s p.key = none) :
    Numbered F (withEvent F s (newEvent F s p payload at')) := by
  -- an old event with the key of the new one would have been answered
  have hother : ∀ key, ∀ e ∈ log s, e.idempotencyKey = some key →
      (newEvent F s p payload at').idempotencyKey ≠ some key := by
    intro key e he hold hkey'
    obtain ⟨htext, hne⟩ := textOrNone_eq_some hkey'
    have hpkey : p.key = key := htext
    rw [hpkey] at hkey
    exact published_none hne hkey e he hold
  refine ⟨?_, ?_, ?_⟩
  · have hlength : (withEvent F s (newEvent F s p payload at')).eventOrder.length =
        s.eventOrder.length + 1 := List.length_append
    have hsequence : (newEvent F s p payload at').sequence = newSequence s := rfl
    rw [log_withEvent hnew, List.map_append, hn.sequences, List.map_singleton, hlength, hsequence,
      newSequence_eq hs, List.range'_1_concat, Nat.add_comm 1]
  · rw [log_withEvent hnew]
    intro e he
    rcases List.mem_append.mp he with he | he
    · exact hn.made e he
    · rw [List.mem_singleton.mp he]
      exact ⟨newIdentity s p payload at', rfl, rfl⟩
  · rw [log_withEvent hnew]
    intro key hne e he e' he' hk hk'
    rcases List.mem_append.mp he with he | he
    · rcases List.mem_append.mp he' with he' | he'
      · exact hn.keys key hne e he e' he' hk hk'
      · rw [List.mem_singleton.mp he'] at hk'
        exact absurd hk' (hother key e he hk)
    · rw [List.mem_singleton.mp he] at hk ⊢
      rcases List.mem_append.mp he' with he' | he'
      · exact absurd hk (hother key e' he' hk')
      · exact (List.mem_singleton.mp he').symm

theorem valid_subscribe {topic : Val} (h : validateState F s = [])
    (hs' : subscribe F s topic subscriber now = .ok s') : validateState F s' = [] := by
  rcases subscribe_cases hs' with rfl | ⟨id, item, at', hitem, rfl⟩
  · exact h
  have hs := (validateState_eq_nil.mp h).2
  refine valid_sealState ⟨hs.contract, hs.identified, hs.named, hs.order, hs.next, hs.event, ?_⟩
  intro id' item' hitem'
  rw [Dict.get?_set] at hitem'
  split at hitem'
  · rename_i hid
    cases hitem'
    rw [hid]
    exact hitem
  · exact hs.subscription id' item' hitem'

theorem valid_unsubscribe (h : validateState F s = []) (hs' : unsubscribe F s id now = .ok s') :
    validateState F s' = [] := by
  rcases unsubscribe_cases hs' with rfl | ⟨at', rfl⟩
  · exact h
  have hs := (validateState_eq_nil.mp h).2
  refine valid_sealState ⟨hs.contract, hs.identified, hs.named, hs.order, hs.next, hs.event, ?_⟩
  intro id' item' hitem'
  rw [Dict.get?_erase] at hitem'
  split at hitem'
  · cases hitem'
  · exact hs.subscription id' item' hitem'

theorem valid_publish (h : validateState F s = []) (hs' : publish F s p = .ok (s', e)) :
    validateState F s' = [] := by
  have hs := (validateState_eq_nil.mp h).2
  obtain ⟨hp, payload, at', -, -, ⟨-, rfl⟩ | ⟨-, rfl, rfl⟩⟩ := publish_cases hs'
  · exact valid_sealState ⟨hs.contract, hs.identified, hs.named, hs.order, hs.next, hs.event,
      hs.subscription⟩
  · have hsound := sound_withEvent hs (sound_newEvent hs hp payload at') (newSequence_eq hs)
    exact validateState_eq_nil.mpr ⟨rfl, hsound⟩

/-- The log as it was. -/
structure SameLog (s s' : EventBusState) : Prop where
  events : s'.events = s.events
  order : s'.eventOrder = s.eventOrder
  next : s'.nextSequence = s.nextSequence

theorem sameLog_subscribe {topic : Val} (hs' : subscribe F s topic subscriber now = .ok s') :
    SameLog s s' := by
  rcases subscribe_cases hs' with rfl | ⟨id, item, at', -, rfl⟩
  · exact ⟨rfl, rfl, rfl⟩
  · exact ⟨rfl, rfl, rfl⟩

theorem sameLog_unsubscribe (hs' : unsubscribe F s id now = .ok s') : SameLog s s' := by
  rcases unsubscribe_cases hs' with rfl | ⟨at', rfl⟩
  · exact ⟨rfl, rfl, rfl⟩
  · exact ⟨rfl, rfl, rfl⟩

variable (F) in
structure Kept (s : EventBusState) : Prop where
  valid : validateState F s = []
  numbered : Numbered F s

theorem Kept.sound (h : Kept F s) : Sound F s := (validateState_eq_nil.mp h.valid).2

theorem kept_publish (hF : F.Separates) (h : Kept F s) (hs' : publish F s p = .ok (s', e)) :
    Kept F s' := by
  refine ⟨valid_publish h.valid hs', ?_⟩
  obtain ⟨-, payload, at', -, -, ⟨-, rfl⟩ | ⟨hnone, rfl, rfl⟩⟩ := publish_cases hs'
  · exact h.numbered.congr rfl rfl
  · have hnew := @newEvent_fresh F s p hF h.sound h.numbered payload at'
    exact numbered_withEvent h.sound h.numbered hnew hnone

theorem kept_step (hF : F.Separates) (h : Kept F s) (c : Call) : Kept F ((eventBus F).step s c).2 := by
  cases hcall : call F s c with
  | error err =>
    simp only [eventBus, hcall]
    exact h
  | ok answer =>
    obtain ⟨s', event⟩ := answer
    simp only [eventBus, hcall]
    cases c with
    | subscribe topic subscriber now =>
      obtain ⟨t, ht, heq⟩ := bind_eq_ok.mp hcall
      cases heq
      have hlog := sameLog_subscribe ht
      exact ⟨valid_subscribe h.valid ht, h.numbered.congr hlog.events hlog.order⟩
    | unsubscribe id now =>
      obtain ⟨t, ht, heq⟩ := bind_eq_ok.mp hcall
      cases heq
      have hlog := sameLog_unsubscribe ht
      exact ⟨valid_unsubscribe h.valid ht, h.numbered.congr hlog.events hlog.order⟩
    | publish p =>
      obtain ⟨t, ht, heq⟩ := bind_eq_ok.mp hcall
      cases heq
      exact kept_publish hF h ht

theorem kept_newBus {statePath identityPath name : String} (hname : blank name = false) :
    Kept F (newBus F statePath identityPath name at') := by
  refine ⟨valid_sealState ⟨rfl, ?_, hname, ?_, rfl, ?_, ?_⟩, ⟨rfl, ?_, ?_⟩⟩
  · exact @blank_prefixed "runtime-event-bus-" 'r' (by decide) (by decide) _
  · exact fun id => ⟨(fun h => absurd h List.not_mem_nil), (fun h => by cases h)⟩
  · exact fun id e he => by cases he
  · exact fun id item hitem => by cases hitem
  · exact fun e he => absurd he List.not_mem_nil
  · exact fun key _ e he => absurd he List.not_mem_nil

theorem kept_created {statePath identityPath : String} {busName : Val}
    (h : createEventBusState F statePath identityPath busName now = .ok s) : Kept F s := by
  unfold createEventBusState at h
  split at h
  · cases h
  rename_i hname
  cases now with
  | error e => cases h
  | ok at' =>
    cases h
    exact kept_newBus (blank_text hname)

theorem kept_run (hF : F.Separates) (h : Kept F s) (calls : List Call) :
    Kept F ((eventBus F).run s calls) :=
  have hstep : ∀ t c, Kept F t → Kept F ((eventBus F).step t c).2 := fun _ c ht => kept_step hF ht c
  Machine.run_invariant hstep calls h

/-! ## Repeated keys -/

theorem Numbered.published_eq (h : Numbered F s) {first : Event} (hkey : key ≠ "")
    (hmem : first ∈ log s) (hfirst : first.idempotencyKey = some key) :
    published s key = some first := by
  cases hfound : published s key with
  | none => exact absurd hfirst (published_none hkey hfound first hmem)
  | some e =>
    obtain ⟨-, he, hekey⟩ := published_some hfound
    rw [h.keys key hkey e he first hmem hekey hfirst]

theorem publish_repeated (h : Numbered F s) {payload : Entries} {first : Event} (hp : Accepted p)
    (hpayload : p.payload = .dict payload) (hnow : p.now = .ok at') (hkey : p.key ≠ "")
    (hmem : first ∈ log s) (hfirst : first.idempotencyKey = some p.key) :
    ∃ s', publish F s p = .ok (s', first) ∧ SameLog s s' := by
  refine ⟨withDuplicate F s at', ?_, ⟨rfl, rfl, rfl⟩⟩
  unfold publish
  rw [if_neg (not_not.mpr hp.eventType), if_neg hp.topic, if_neg hp.source, hpayload,
    h.published_eq hkey hmem hfirst, hnow]

/-! ## Pages -/

theorem collect_unlimited (events : Dict String Event) (keep : Event → Bool) (ids : List String)
    (result : List Event) :
    collect events keep none ids result =
      result ++ (ids.filterMap events.get?).filter keep := by
  induction ids generalizing result with
  | nil => exact (List.append_nil result).symm
  | cons id ids ih =>
    rw [collect]
    cases he : events.get? id with
    | none => rw [List.filterMap_cons_none he, ih]
    | some e =>
      rw [List.filterMap_cons_some he, List.filter_cons]
      dsimp only
      split
      · rw [Option.any_none, if_neg (by decide), ih, List.append_assoc]
        rfl
      · exact ih result

theorem collect_limited (events : Dict String Event) (keep : Event → Bool) {limit : ℕ}
    (ids : List String) {result : List Event} (h : result.length < limit) :
    collect events keep (some limit) ids result =
      result ++ ((ids.filterMap events.get?).filter keep).take (limit - result.length) := by
  induction ids generalizing result with
  | nil => simp [collect]
  | cons id ids ih =>
    rw [collect]
    cases he : events.get? id with
    | none => rw [List.filterMap_cons_none he, ih h]
    | some e =>
      rw [List.filterMap_cons_some he, List.filter_cons]
      dsimp only
      split
      · obtain ⟨left, hleft⟩ : ∃ left, limit - result.length = left + 1 :=
          ⟨limit - result.length - 1, by omega⟩
        rw [hleft, List.take_succ_cons, Option.any_some]
        split
        · rename_i hfull
          have hzero : left = 0 := by
            have := of_decide_eq_true hfull
            omega
          rw [hzero, List.take_zero]
        · rename_i hroom
          have hlt : (result ++ [e]).length < limit := by
            have := of_decide_eq_false ((Bool.not_eq_true _).mp hroom)
            rw [List.length_append, List.length_singleton]
            omega
          have hleft' : limit - (result ++ [e]).length = left := by
            rw [List.length_append, List.length_singleton]
            omega
          rw [ih hlt, hleft', List.append_assoc]
          rfl
      · exact ih h

/-- The events of the log that a replay is about, wherever it starts. -/
def matching (s : EventBusState) (topic eventType : Val) : List Event :=
  (log s).filter fun e => (topic.text = "" || e.topic = topic.text) &&
    (eventType.text = "" || e.eventType = eventType.text)

theorem filter_wanted (s : EventBusState) (topic eventType : Val) (n : ℕ) :
    (log s).filter (wanted topic.text eventType.text n) =
      beyond Event.sequence (matching s topic eventType) n := by
  unfold beyond matching wanted
  rw [List.filter_filter]
  simp only [Bool.and_assoc]

theorem replay_unlimited (s : EventBusState) (topic eventType : Val) (n : ℕ) :
    replay s topic eventType n none =
      .ok (beyond Event.sequence (matching s topic eventType) n) := by
  unfold replay
  rw [if_neg (by omega), if_neg (by simp), Option.map_none, collect_unlimited, Int.toNat_natCast]
  exact congrArg Except.ok (filter_wanted s topic eventType n)

theorem replay_limited (s : EventBusState) (topic eventType : Val) {limit : ℤ} (h : 1 ≤ limit)
    (n : ℕ) : replay s topic eventType n (some limit) =
      .ok ((beyond Event.sequence (matching s topic eventType) n).take limit.toNat) := by
  have hpos : ([] : List Event).length < limit.toNat := by
    rw [List.length_nil]
    omega
  unfold replay
  rw [if_neg (by omega), if_neg (by simpa using h), Option.map_some, collect_limited _ _ _ hpos,
    Int.toNat_natCast, List.nil_append, List.length_nil, Nat.sub_zero]
  exact congrArg (fun xs => Except.ok (xs.take limit.toNat)) (filter_wanted s topic eventType n)

theorem Numbered.sorted (h : Numbered F s) (topic eventType : Val) :
    (matching s topic eventType).Pairwise fun x y => x.sequence < y.sequence := by
  have hlog : ((log s).map Event.sequence).Pairwise (· < ·) := by
    rw [h.sequences]
    exact List.pairwise_lt_range'
  exact (List.pairwise_map.mp hlog).filter _

theorem Numbered.positive (h : Numbered F s) (he : e ∈ log s) : 0 < e.sequence := by
  have hmem : e.sequence ∈ List.range' 1 s.eventOrder.length := by
    rw [← h.sequences]
    exact List.mem_map_of_mem he
  exact (List.mem_range'_1.mp hmem).1

theorem length_matching_le (s : EventBusState) (topic eventType : Val) :
    (matching s topic eventType).length ≤ s.eventOrder.length :=
  le_trans (List.length_filter_le ..) (List.length_filterMap_le ..)

theorem replayPages_eq (h : Numbered F s) (topic eventType : Val) {limit : ℤ} (hlimit : 1 ≤ limit)
    {requests : ℕ} (hrequests : s.eventOrder.length < requests) :
    replayPages s topic eventType limit requests = replay s topic eventType 0 none := by
  have hsize : 0 < limit.toNat := by omega
  have hfetch := fun n => replay_limited s topic eventType hlimit n
  have henough : (beyond Event.sequence (matching s topic eventType) 0).length < requests :=
    Nat.lt_of_le_of_lt (le_trans (List.length_filter_le ..) (length_matching_le s topic eventType))
      hrequests
  have hpages := pages_eq hsize (h.sorted topic eventType) hfetch henough
  exact hpages.trans (replay_unlimited s topic eventType 0).symm

/-! ## Whole runs -/

variable (F) in
/-- The integrity of a log: it is valid and numbered from 1, its keys are unique and answered by
their first event, and it can be read by pages of any size. -/
structure LogIntact (s : EventBusState) : Prop where
  valid : validateState F s = []
  sequences : s.eventOrder.map (fun id => (s.events.get? id).map Event.sequence) =
    (List.range' 1 s.eventOrder.length).map some
  next : s.nextSequence = s.eventOrder.length + 1
  keys : ∀ key, key ≠ "" → ∀ id e, s.events.get? id = some e → ∀ id' e', s.events.get? id' = some e' →
    e.idempotencyKey = some key → e'.idempotencyKey = some key → id = id'
  repeated : ∀ p payload at', Accepted p → p.payload = .dict payload → p.now = .ok at' →
    ∀ id first, s.events.get? id = some first → p.key ≠ "" → first.idempotencyKey = some p.key →
      ∃ s', publish F s p = .ok (s', first) ∧ SameLog s s'
  paged : ∀ topic eventType limit, 1 ≤ limit → ∀ requests, s.eventOrder.length < requests →
    replayPages s topic eventType limit requests = replay s topic eventType 0 none
  complete : ∀ topic eventType, replay s topic eventType 0 none = .ok (matching s topic eventType)

theorem replay_all (h : Numbered F s) (topic eventType : Val) :
    replay s topic eventType 0 none = .ok (matching s topic eventType) := by
  have habove : ∀ e ∈ matching s topic eventType, 0 < e.sequence :=
    fun e he => h.positive (List.mem_of_mem_filter he)
  exact (replay_unlimited s topic eventType 0).trans (congrArg Except.ok (beyond_eq_self habove))

/-- The order list leads to an event at every place. -/
theorem map_order (h : Sound F s) :
    s.eventOrder.map (fun id => (s.events.get? id).map Event.sequence) =
      ((log s).map Event.sequence).map some := by
  have hall : ∀ id ∈ s.eventOrder, ∃ e, s.events.get? id = some e :=
    fun id hid => Dict.contains_iff.mp ((h.order id).mp hid)
  unfold log
  revert hall
  generalize s.eventOrder = ids
  intro hall
  induction ids with
  | nil => rfl
  | cons id ids ih =>
    obtain ⟨e, he⟩ := hall id List.mem_cons_self
    rw [List.filterMap_cons_some he, List.map_cons, List.map_cons, List.map_cons, he,
      ih fun id' hid' => hall id' (List.mem_cons_of_mem id hid')]
    rfl

theorem Kept.intact (h : Kept F s) : LogIntact F s where
  valid := h.valid
  sequences := by rw [map_order h.sound, h.numbered.sequences]
  next := h.sound.next
  keys key hkey id e he id' e' he' hk hk' := by
    have hid := (h.sound.event id e he).keyed
    have hid' := (h.sound.event id' e' he').keyed
    have hmem : e ∈ log s := by rwa [mem_log h.sound, hid]
    have hmem' : e' ∈ log s := by rwa [mem_log h.sound, hid']
    rw [← hid, ← hid', h.numbered.keys key hkey e hmem e' hmem' hk hk']
  repeated p payload at' hp hpayload hnow id first hfirst hkey hk := by
    have hmem : first ∈ log s := by rwa [mem_log h.sound, (h.sound.event id first hfirst).keyed]
    exact publish_repeated h.numbered hp hpayload hnow hkey hmem hk
  paged topic eventType limit hlimit requests hrequests :=
    replayPages_eq h.numbered topic eventType hlimit hrequests
  complete topic eventType := replay_all h.numbered topic eventType

theorem event_log_intact (hF : F.Separates) {statePath identityPath : String} {busName : Val}
    {now : Except Err ℕ}
    (hs : createEventBusState F statePath identityPath busName now = .ok s) (calls : List Call) :
    LogIntact F ((eventBus F).run s calls) :=
  (kept_run hF (kept_created hs) calls).intact

/-- The identity as `publish` writes it. -/
def EventIdentity.value (i : EventIdentity) : Val :=
  .dict [("bus_id", .str i.busId), ("sequence", .int i.sequence), ("event_type", .str i.eventType),
    ("topic", .str i.topic), ("source", .str i.source),
    ("idempotency_key", (i.idempotencyKey.map Val.str).getD .none), ("created_at", .int i.createdAt),
    ("payload", .dict i.payload)]

def plainDigest : BusDigest where
  state s := s.busId
  event e := e.eventId
  busIdentity i := i.busName ++ i.statePath
  subscriptionIdentity i := i.topic ++ i.subscriber
  eventIdentity i := Val.tagged (fun _ => "") i.value

theorem plainDigest_separates : plainDigest.Separates := by
  intro i j h
  have hvalue : i.value = j.value := @Val.tagged_injective (fun _ => "") i.value j.value h
  simp only [EventIdentity.value, Val.dict.injEq, List.cons.injEq, Prod.mk.injEq, Val.int.injEq] at hvalue
  exact Int.ofNat.inj hvalue.2.1.2

theorem created_plain : createEventBusState plainDigest "bus.json" "bus.json" (.str "default")
    (.ok 0) = .ok (newBus plainDigest "bus.json" "bus.json" (Val.str "default").text 0) := by
  unfold createEventBusState
  rw [if_neg (by rw [Val.text_str]; decide)]

/-- Two events, the second published twice. -/
theorem event_log_intact_repeated :
    LogIntact plainDigest ((eventBus plainDigest).run
      (newBus plainDigest "bus.json" "bus.json" (Val.str "default").text 0)
      [.publish ⟨.str "audit", .str "a", .str "test", .dict [], .none, .none, .none, .ok 1⟩,
        .publish ⟨.str "worker", .str "b", .str "test", .dict [], .str "one", .none, .none, .ok 2⟩,
        .publish ⟨.str "worker", .str "b", .str "test", .dict [], .str "one", .none, .none, .ok 3⟩]) :=
  event_log_intact plainDigest_separates created_plain _

end EventBus
end ZeroRuntime
