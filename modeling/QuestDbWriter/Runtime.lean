import QuestDbWriter.Worker.Admission
import QuestDbWriter.Payload

/-!
# The listener for state changes

`runtime.py`: the callback that Home Assistant calls for every state change, and the counters that
account for its calls. Attribute values are of any type, and `json_dumps` is a parameter.

The `except` clause misses the error of a stack that `json.loads` exhausts on the attributes, and
`submit()` is behind it. `asyncStateChanged_accounted` is the exact condition under which a call
returns with the accounts balanced, and `events_accounted` carries it to every run of the listener
and the writer service.
-/

namespace QuestDbWriter

open Lib Json

/-! ## Datetimes -/

/-- A `datetime`: the microseconds from the epoch on its own clock, and the UTC offset of that clock
if the value is aware. -/
structure Datetime where
  micros : Int
  utcoffset : Option Int

/-- `datetime.min`. -/
def datetimeMin : Int := -62135596800 * 1000000

/-- `datetime.max`. -/
def datetimeMax : Int := 253402300800 * 1000000 - 1

/-- `datetime_to_epoch_ns`. -/
def datetimeToEpochNs (value : Datetime) : Except Exc Int :=
  match value.utcoffset with
  | none =>
    .error { type := .valueError, message := py "timestamp must be a timezone-aware datetime" }
  | some utcoffset => do
    let delta := value.micros - utcoffset
    -- `astimezone` raises where the UTC time is not a `datetime`
    raiseUnless (datetimeMin ≤ delta ∧ delta ≤ datetimeMax)
      { type := .overflowError, message := py "date value out of range" }
    let days := delta / 86400000000
    let seconds := delta % 86400000000 / 1000000
    let microseconds := delta % 1000000
    pure ((days * 86400 + seconds) * 1000000000 + microseconds * 1000)

/-- **The nanoseconds are those of the UTC time.** -/
theorem datetimeToEpochNs_ok {value : Datetime} {n : Int} (h : datetimeToEpochNs value = .ok n) :
    ∃ utcoffset, value.utcoffset = some utcoffset ∧ n = (value.micros - utcoffset) * 1000 := by
  unfold datetimeToEpochNs at h
  split at h
  · cases h
  · next utcoffset hoffset =>
    obtain ⟨_, -, h⟩ := bind_ok.mp h
    refine ⟨utcoffset, hoffset, ?_⟩
    have hn := Except.ok.inj h
    omega

theorem datetimeToEpochNs_raises (value : Datetime) :
    RaisesOnly (fun e => e.type = .valueError ∨ e.type = .overflowError)
      (datetimeToEpochNs value) := by
  unfold datetimeToEpochNs
  split
  · intro e he
    cases he
    exact .inl rfl
  · exact (RaisesOnly.raiseUnless fun _ => .inr rfl).bind fun _ _ => .pure _

/-! ## The callback -/

/-- The state of an entity, as the bus reports it. -/
structure StateObject (α : Type) where
  entityId : PyStr
  state : PyStr
  attributes : List (PyStr × α)
  lastChanged : Datetime
  lastUpdated : Datetime
  contextId : PyStr

/-- A call of the callback: the state that the event reports, the id that `_event_id_factory` makes,
and what `_wall_time_ns` returns. -/
structure Delivery (α : Type) where
  newState : Option (StateObject α)
  eventId : PyStr
  wallTimeNs : Int

/-- The interpreter that the callback runs on, the filters of the configuration, and
`json_dumps`. -/
structure Listener (α : Type) where
  interpreter : Interpreter
  entityFilter : Option (PyStr → Bool)
  attributeFilter : Option (PyStr → Bool)
  jsonDumps : List (PyStr × α) → Except Exc PyStr

/-- The counters of the runtime. -/
structure ListenerCounters where
  eventsSeen : Nat := 0
  eventsAccepted : Nat := 0
  eventsWithoutNewState : Nat := 0
  eventsSkippedUnknown : Nat := 0
  eventsExcluded : Nat := 0
  attributeEntriesRemoved : Nat := 0
  conversionErrors : Nat := 0
  submissionRejections : Nat := 0

/-- The runtime, with the writer service that it owns. -/
structure HassQuestDbRuntime where
  counters : ListenerCounters
  service : World

def HassQuestDbRuntime.count (r : HassQuestDbRuntime) (f : ListenerCounters → ListenerCounters) :
    HassQuestDbRuntime :=
  { r with counters := f r.counters }

/-- What `submit()` returns or raises. -/
def World.submitReturns (w : World) (event : EventEnvelope) : Except Exc Bool := do
  let event ← event.toSpoolEvent
  if w.config.settings.maxSerializedEventBytes < event.payload.length then return false
  return w.shared.accepting && decide (w.ingress.length < w.config.settings.ingressQueueCapacity)

/-- `except (EventEnvelopeError, TypeError, ValueError, OverflowError)`. -/
def isConversionError (e : Exc) : Bool :=
  match e.type with
  | .eventEnvelopeError | .typeError | .valueError | .unicodeEncodeError | .overflowError => true
  | _ => false

namespace Listener

variable {α : Type}

/-- The entity filter leaves the entity out. -/
def excludes (l : Listener α) (entityId : PyStr) : Bool :=
  l.entityFilter.any fun f => !f entityId

/-- The attributes that the attribute filter keeps. -/
def keep (l : Listener α) (attributes : List (PyStr × α)) : List (PyStr × α) :=
  l.attributeFilter.elim attributes fun f => attributes.filter fun a => f a.1

/-- The `try` block: the envelope of a state. -/
def convert (l : Listener α) (d : Delivery α) (s : StateObject α) : Except Exc EventEnvelope := do
  let attributesJson ← l.jsonDumps (l.keep s.attributes)
  let lastChangedNs ← datetimeToEpochNs s.lastChanged
  let lastUpdatedNs ← datetimeToEpochNs s.lastUpdated
  EventEnvelope.ofArguments
    { eventId := .str d.eventId, entityId := .str s.entityId, state := .str s.state,
      attributesJson := .str attributesJson, ingestedAtNs := .int d.wallTimeNs,
      lastChangedNs := .int lastChangedNs, lastUpdatedNs := .int lastUpdatedNs,
      contextId := .str s.contextId } l.interpreter

/-- The end of the callback, with `submit()`. -/
def submit (envelope : EventEnvelope) (r : HassQuestDbRuntime) :
    Except Exc Unit × HassQuestDbRuntime :=
  match r.service.submitReturns envelope with
  | .error e => (.error e, r)
  | .ok accepted =>
    let r := { r with service := r.service.submit envelope }
    if accepted then (.ok (), r.count fun c => { c with eventsAccepted := c.eventsAccepted + 1 })
    else (.ok (), r.count fun c => { c with submissionRejections := c.submissionRejections + 1 })

/-- `_async_state_changed`. -/
def asyncStateChanged (l : Listener α) (d : Delivery α) (r : HassQuestDbRuntime) :
    Except Exc Unit × HassQuestDbRuntime :=
  let r := r.count fun c => { c with eventsSeen := c.eventsSeen + 1 }
  match d.newState with
  | none => (.ok (), r.count fun c =>
    { c with eventsWithoutNewState := c.eventsWithoutNewState + 1 })
  | some s =>
    if l.excludes s.entityId then
      (.ok (), r.count fun c => { c with eventsExcluded := c.eventsExcluded + 1 })
    else if s.state = py "unknown" then
      (.ok (), r.count fun c => { c with eventsSkippedUnknown := c.eventsSkippedUnknown + 1 })
    else
      let removed := s.attributes.length - (l.keep s.attributes).length
      let r := r.count fun c =>
        { c with attributeEntriesRemoved := c.attributeEntriesRemoved + removed }
      match l.convert d s with
      | .error e =>
        if isConversionError e then
          (.ok (), r.count fun c => { c with conversionErrors := c.conversionErrors + 1 })
        else (.error e, r)
      | .ok envelope => submit envelope r

end Listener

/-! ## submit() -/

namespace World

/-- `submit()` returns `True` exactly where it takes the event. -/
theorem submitReturns_true {w : World} {event : EventEnvelope} :
    w.submitReturns event = .ok true ↔ ∃ e, w.Accepts event e := by
  unfold submitReturns Accepts World.submit
  cases he : event.toSpoolEvent with
  | error x =>
    refine ⟨nofun, ?_⟩
    rintro ⟨e, h⟩
    cases List.self_eq_append_right.mp h
  | ok e =>
    rw [bind_of_ok rfl]
    dsimp only
    have hsame : ∀ shared, ¬ ∃ e, { w with shared }.history = w.history ++ [Obs.accepted e] := by
      rintro shared ⟨e, h⟩
      cases List.self_eq_append_right.mp h
    split
    · exact ⟨nofun, fun h => absurd h (hsame _)⟩
    · unfold submitAccept
      split
      · next haccepting =>
        split
        · next hroom =>
          refine ⟨fun _ => ⟨e, rfl⟩, fun _ => ?_⟩
          rw [haccepting, decide_eq_true hroom]
          rfl
        · next hroom =>
          refine ⟨fun h => ?_, fun h => absurd h (hsame _)⟩
          rw [haccepting, decide_eq_false hroom] at h
          cases h
      · next hclosed =>
        refine ⟨fun h => ?_, fun h => absurd h (hsame w.shared)⟩
        rw [Bool.eq_false_iff.mpr hclosed] at h
        cases h

/-- `submit()` raises exactly where the event has a lone surrogate. -/
theorem submitReturns_ok {w : World} {event : EventEnvelope} :
    (∃ accepted, w.submitReturns event = .ok accepted) ↔ event.fields.SurrogateFree := by
  rw [← EventEnvelope.toBytes_iff]
  unfold submitReturns EventEnvelope.toSpoolEvent
  cases he : event.toBytes with
  | error x => exact ⟨nofun, nofun⟩
  | ok payload =>
    rw [bind_of_ok rfl]
    refine ⟨fun _ => ⟨payload, rfl⟩, fun _ => ?_⟩
    by_cases hsize : w.config.settings.maxSerializedEventBytes < payload.length
    · exact ⟨false, if_pos hsize⟩
    · exact ⟨_, if_neg hsize⟩

end World

/-! ## What a call does -/

/-- `json_dumps` returns a text without lone surrogates, or raises `TypeError` or `ValueError`. -/
structure JsonDumps {α : Type} (jsonDumps : List (PyStr × α) → Except Exc PyStr) : Prop where
  text : ∀ attributes text, jsonDumps attributes = .ok text → Encodable text
  raises : ∀ attributes, RaisesOnly (fun e => e.type = .typeError ∨ e.type = .valueError)
    (jsonDumps attributes)

/-- Every call is accounted for. -/
def ListenerCounters.Accounted (c : ListenerCounters) : Prop :=
  c.eventsSeen = c.eventsAccepted + c.eventsWithoutNewState + c.eventsExcluded +
    c.eventsSkippedUnknown + c.conversionErrors + c.submissionRejections

namespace Listener

variable {α : Type} {l : Listener α} {d : Delivery α} {s : StateObject α}

/-- The conversion gets to `json.loads` with a text of the attributes: there is one, the times are
known, and the checks that come before pass. -/
structure LoadsAttributes (l : Listener α) (d : Delivery α) (s : StateObject α) (text : PyStr) :
    Prop where
  dumped : l.jsonDumps (l.keep s.attributes) = .ok text
  changed : ∃ ns, datetimeToEpochNs s.lastChanged = .ok ns
  updated : ∃ ns, datetimeToEpochNs s.lastUpdated = .ok ns
  reads : ReadsAttributes d.eventId s.entityId s.state text

/-- The event is dropped; or `json.loads` does not exhaust the stack on its attributes, and it
cannot be converted, or none of its texts has a lone surrogate. -/
def Clean (l : Listener α) (d : Delivery α) : Prop :=
  ∀ s, d.newState = some s → l.excludes s.entityId = false → s.state ≠ py "unknown" →
    (∀ text, l.LoadsAttributes d s text → l.interpreter.exhausts text = false) ∧
    ((∃ envelope, l.convert d s = .ok envelope) →
      Encodable d.eventId ∧ Encodable s.entityId ∧ Encodable s.state ∧ Encodable s.contextId)

/-- The texts of an envelope are those of the event. -/
theorem convert_ok {envelope : EventEnvelope} (h : l.convert d s = .ok envelope) :
    envelope.fields.eventId = d.eventId ∧ envelope.fields.entityId = s.entityId ∧
      envelope.fields.state = s.state ∧ envelope.fields.contextId = some s.contextId ∧
      l.jsonDumps (l.keep s.attributes) = .ok envelope.fields.attributesJson := by
  obtain ⟨attributesJson, hjson, h⟩ := bind_ok.mp h
  obtain ⟨lastChangedNs, -, h⟩ := bind_ok.mp h
  obtain ⟨lastUpdatedNs, -, h⟩ := bind_ok.mp h
  unfold EventEnvelope.ofArguments at h
  split at h
  · cases h
  · next fields hpost =>
    cases h
    obtain ⟨hargs, -⟩ := postInit_ok ((postInit_limited _ _).ok hpost)
    simp only [EventFields.arguments, EventArguments.mk.injEq, Value.str.injEq] at hargs
    obtain ⟨heventId, hentityId, hstate, hattributes, -, -, -, hcontext⟩ := hargs
    refine ⟨heventId.symm, hentityId.symm, hstate.symm, ?_, hattributes ▸ hjson⟩
    dsimp only
    cases hc : fields.contextId with
    | none =>
      rw [hc] at hcontext
      cases hcontext
    | some t =>
      rw [hc] at hcontext
      cases hcontext
      rfl

/-- What the `try` block raises: an error that is caught, or that of an exhausted stack where
`json.loads` exhausts it on the attributes. -/
theorem convert_raises (hjson : JsonDumps l.jsonDumps) :
    RaisesOnly (fun e => isConversionError e = true ∨ e = recursionError ∧
      ∃ text, l.LoadsAttributes d s text ∧ l.interpreter.exhausts text = true) (l.convert d s) := by
  have hcaught {e : Exc} (h : e.type = .typeError ∨ e.type = .valueError ∨
      e.type = .overflowError ∨ e.type = .eventEnvelopeError) : isConversionError e = true := by
    unfold isConversionError
    rcases h with h | h | h | h <;> rw [h]
  have hdatetime : ∀ value, RaisesOnly (isConversionError · = true) (datetimeToEpochNs value) :=
    fun value e he => hcaught (by have := datetimeToEpochNs_raises value e he; tauto)
  refine RaisesOnly.bind (fun e he => .inl (hcaught (by have := hjson.raises _ e he; tauto)))
    fun text hdumped => ?_
  refine RaisesOnly.bind (fun e he => .inl (hdatetime _ e he)) fun changed hchanged => ?_
  refine RaisesOnly.bind (fun e he => .inl (hdatetime _ e he)) fun updated hupdated => ?_
  intro e he
  unfold EventEnvelope.ofArguments at he
  split at he
  · next e' hpost =>
    cases he
    by_cases hstack : e = recursionError
    · subst hstack
      obtain ⟨hreads, hex⟩ := (postInit_exhausts rfl rfl rfl rfl).mp hpost
      exact .inr ⟨rfl, text, ⟨hdumped, ⟨changed, hchanged⟩, ⟨updated, hupdated⟩, hreads⟩, hex⟩
    · have hplain := (postInit_limited _ _).error hpost hstack
      exact .inl (hcaught (.inr (.inr (.inr (postInit_raises _ e hplain).type))))
  · cases he

/-- **What the `try` block raises is caught**, but for an exhausted stack. -/
theorem convert_caught (hjson : JsonDumps l.jsonDumps) {e : Exc} (h : l.convert d s = .error e)
    (hstack : e ≠ recursionError) : isConversionError e = true :=
  (convert_raises hjson e h).resolve_right fun h => hstack h.1

/-- **The stack suffices for the attributes exactly where the `try` block does not raise the error
of an exhausted stack.** -/
theorem suffices_iff (hjson : JsonDumps l.jsonDumps) :
    (∀ text, l.LoadsAttributes d s text → l.interpreter.exhausts text = false) ↔
      l.convert d s ≠ .error recursionError := by
  constructor
  · intro h hraised
    rcases convert_raises hjson _ hraised with hcaught | ⟨-, text, hloads, hex⟩
    · cases hcaught
    · rw [h text hloads] at hex
      cases hex
  · intro h text hloads
    refine Bool.eq_false_iff.mpr fun hex => h ?_
    obtain ⟨changed, hchanged⟩ := hloads.changed
    obtain ⟨updated, hupdated⟩ := hloads.updated
    rw [convert, bind_of_ok hloads.dumped, bind_of_ok hchanged, bind_of_ok hupdated]
    exact EventEnvelope.ofArguments_error
      ((postInit_exhausts rfl rfl rfl rfl).mpr ⟨hloads.reads, hex⟩)

/-- An envelope that is made of a clean event has no lone surrogates. -/
theorem surrogateFree_iff (hjson : JsonDumps l.jsonDumps) {envelope : EventEnvelope}
    (h : l.convert d s = .ok envelope) : envelope.fields.SurrogateFree ↔
      Encodable d.eventId ∧ Encodable s.entityId ∧ Encodable s.state ∧ Encodable s.contextId := by
  obtain ⟨heventId, hentityId, hstate, hcontext, hattributes⟩ := convert_ok h
  constructor
  · intro hs
    exact ⟨heventId ▸ hs.eventId, hentityId ▸ hs.entityId, hstate ▸ hs.state,
      hs.context _ hcontext⟩
  · rintro ⟨heventId', hentityId', hstate', hcontext'⟩
    refine ⟨heventId ▸ heventId', hentityId ▸ hentityId', hstate ▸ hstate',
      hjson.text _ _ hattributes, fun t ht => ?_⟩
    rw [hcontext] at ht
    cases ht
    exact hcontext'

/-- One event is left to be accounted for, and `submit()` does it unless it raises. -/
theorem submit_accounted {envelope : EventEnvelope} {r : HassQuestDbRuntime}
    (h : r.counters.eventsSeen = r.counters.eventsAccepted + r.counters.eventsWithoutNewState +
      r.counters.eventsExcluded + r.counters.eventsSkippedUnknown + r.counters.conversionErrors +
      r.counters.submissionRejections + 1) :
    ((submit envelope r).1 = .ok () ∧ (submit envelope r).2.counters.Accounted) ↔
      envelope.fields.SurrogateFree := by
  rw [← World.submitReturns_ok (w := r.service)]
  unfold submit
  cases hsubmit : r.service.submitReturns envelope with
  | error e => exact ⟨nofun, nofun⟩
  | ok accepted =>
    refine ⟨fun _ => ⟨accepted, rfl⟩, fun _ => ?_⟩
    cases accepted
    · refine ⟨rfl, ?_⟩
      simp only [ListenerCounters.Accounted, HassQuestDbRuntime.count, Bool.false_eq_true, if_false]
      omega
    · refine ⟨rfl, ?_⟩
      simp only [ListenerCounters.Accounted, HassQuestDbRuntime.count, if_true]
      omega

/-- **A call returns with every call accounted for exactly where the event is clean**: it is
dropped, or `json.loads` does not exhaust the stack on its attributes, and it cannot be converted or
none of its texts has a lone surrogate. -/
theorem asyncStateChanged_accounted (hjson : JsonDumps l.jsonDumps) {r : HassQuestDbRuntime}
    (h : r.counters.Accounted) :
    ((l.asyncStateChanged d r).1 = .ok () ∧ (l.asyncStateChanged d r).2.counters.Accounted) ↔
      l.Clean d := by
  unfold ListenerCounters.Accounted at h
  unfold asyncStateChanged Clean
  cases hnew : d.newState with
  | none =>
    refine ⟨fun _ => nofun, fun _ => ⟨rfl, ?_⟩⟩
    simp only [ListenerCounters.Accounted, HassQuestDbRuntime.count]
    omega
  | some s =>
    dsimp only
    split
    · next hexcluded =>
      refine ⟨fun _ t ht hnot => ?_, fun _ => ⟨rfl, ?_⟩⟩
      · cases ht
        rw [hexcluded] at hnot
        cases hnot
      · simp only [ListenerCounters.Accounted, HassQuestDbRuntime.count]
        omega
    · next hincluded =>
      split
      · next hunknown =>
        refine ⟨fun _ t ht _ hnot => ?_, fun _ => ⟨rfl, ?_⟩⟩
        · cases ht
          exact absurd hunknown hnot
        · simp only [ListenerCounters.Accounted, HassQuestDbRuntime.count]
          omega
      · next hknown =>
        cases hconvert : l.convert d s with
        | error e =>
          dsimp only
          by_cases hstack : e = recursionError
          · subst hstack
            rw [if_neg (by decide)]
            refine ⟨nofun, fun hclean => ?_⟩
            have hsuffices := (hclean s rfl (Bool.eq_false_iff.mpr hincluded) hknown).1
            exact absurd hconvert ((suffices_iff hjson).mp hsuffices)
          rw [if_pos (convert_caught hjson hconvert hstack)]
          refine ⟨fun _ t ht _ _ => ?_, fun _ => ⟨rfl, ?_⟩⟩
          · cases ht
            rw [suffices_iff hjson, hconvert]
            exact ⟨fun h => hstack (Except.error.inj h), nofun⟩
          · simp only [ListenerCounters.Accounted, HassQuestDbRuntime.count]
            omega
        | ok envelope =>
          dsimp only
          rw [submit_accounted (by simp only [HassQuestDbRuntime.count]; omega),
            surrogateFree_iff hjson hconvert]
          refine ⟨fun hs t ht _ _ => ?_, fun hs =>
            (hs s rfl (Bool.eq_false_iff.mpr hincluded) hknown).2 ⟨envelope, hconvert⟩⟩
          cases ht
          rw [suffices_iff hjson, hconvert]
          exact ⟨nofun, fun _ => hs⟩

end Listener

/-! ## Runs -/

/-- What happens to the runtime: a step of the service, or a state change. -/
inductive RuntimeAction (α : Type) where
  | worker (a : Action)
  | stateChanged (d : Delivery α)

/-- The runtime, when its listener is registered. -/
def HassQuestDbRuntime.start (service : World) : HassQuestDbRuntime := ⟨{}, service⟩

namespace Listener

variable {α : Type}

/-- One step of the runtime. An exception of the callback ends in the event bus, which goes on. -/
def step (l : Listener α) (r : HassQuestDbRuntime) :
    RuntimeAction α → Option HassQuestDbRuntime
  | .worker a => (QuestDbWriter.step r.service a).map fun service => { r with service }
  | .stateChanged d => some (l.asyncStateChanged d r).2

/-- A state change is clean. -/
def CleanAction (l : Listener α) : RuntimeAction α → Prop
  | .worker _ => True
  | .stateChanged d => l.Clean d

/-- **Every state change is accounted for exactly where the events are clean**: in every run of
clean events, whatever the service does, the counters account for every call; and from every state
of such a run a call returns with its event accounted for if and only if the event is clean. -/
theorem events_accounted (l : Listener α) (hjson : JsonDumps l.jsonDumps) (service : World)
    (r : HassQuestDbRuntime)
    (hrun : Steps l.step (fun _ a => l.CleanAction a) (.start service) r) :
    r.counters.Accounted ∧ ∀ d,
      (l.asyncStateChanged d r).1 = .ok () ∧ (l.asyncStateChanged d r).2.counters.Accounted ↔
        l.Clean d := by
  have haccounted : r.counters.Accounted := by
    refine hrun.invariant (I := fun r => r.counters.Accounted) rfl fun u a v hu hclean hstep => ?_
    cases a with
    | worker a =>
      obtain ⟨service, -, rfl⟩ := Option.map_eq_some_iff.mp hstep
      exact hu
    | stateChanged d =>
      cases hstep
      exact ((asyncStateChanged_accounted hjson hu).mpr hclean).2
  exact ⟨haccounted, fun d => asyncStateChanged_accounted hjson haccounted⟩

/-- A listener without filters, for states without attributes. -/
def plain : Listener Empty where
  interpreter := .plain
  entityFilter := none
  attributeFilter := none
  jsonDumps _ := .ok (py "\x7b\x7d")

theorem plain_jsonDumps : JsonDumps plain.jsonDumps where
  text := by
    rintro _ _ ⟨⟩
    exact .py (by decide)
  raises _ := .pure _

/-- A light reports a state. -/
def lightReports (state : PyStr) : Delivery Empty where
  newState := some
    { entityId := py "light.hall", state, attributes := [], lastChanged := ⟨2, some 0⟩,
      lastUpdated := ⟨2, some 0⟩, contextId := py "c" }
  eventId := py "1"
  wallTimeNs := 3000

/-- Where the stack suffices for every text, a report in ASCII is clean. -/
theorem plain_clean : plain.Clean (lightReports (py "on")) := by
  rintro s ⟨⟩ _ _
  exact ⟨fun _ _ => rfl,
    fun _ => ⟨.py (by decide), .py (by decide), .py (by decide), .py (by decide)⟩⟩

/-- The light is switched on. -/
theorem events_accounted_light :
    (plain.asyncStateChanged (lightReports (py "on"))
      (.start (.boot .provisional .quiet .fresh []))).1 = .ok () ∧
    (plain.asyncStateChanged (lightReports (py "on"))
      (.start (.boot .provisional .quiet .fresh []))).2.counters.Accounted :=
  ((events_accounted plain plain_jsonDumps _ _ .refl).2 _).mpr plain_clean

/-- **Not every state change is accounted for**: the state is a lone surrogate, and `submit()`
raises behind the `try` block. -/
theorem surrogate_unaccounted : ¬ ∀ (l : Listener Empty), JsonDumps l.jsonDumps →
    ∀ (service : World) (r : HassQuestDbRuntime),
      Steps l.step (fun _ _ => True) (.start service) r →
      r.counters.Accounted ∧ ∀ d, (l.asyncStateChanged d r).1 = .ok () ∧
        (l.asyncStateChanged d r).2.counters.Accounted := by
  intro h
  obtain ⟨hreturns, -⟩ := (h plain plain_jsonDumps (.boot .provisional .quiet .fresh []) _ .refl).2
    (lightReports [⟨0xD800, by decide⟩])
  have hraises : (plain.asyncStateChanged (lightReports [⟨0xD800, by decide⟩])
      (.start (.boot .provisional .quiet .fresh []))).1.isOk = false := by
    decide +kernel
  rw [hreturns] at hraises
  cases hraises

end Listener

end QuestDbWriter
