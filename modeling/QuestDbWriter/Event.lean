import QuestDbWriter.Json.Dump
import QuestDbWriter.Ilp.Total
import QuestDbWriter.Spool.Database

/-!
# Events

`event.py`: the versioned immutable events of the spool. A value of `EventEnvelope` has passed
`__post_init__`. The round trip of the payload (`fromBytes_toBytes`) and the row of an event that
has a payload (`toIlp_of_toBytes`) are what acceptance at the queue means for the delivery; the
error of any other payload is an `EventEnvelopeError` whose text can be stored (`fromBytes_raises`).
-/

namespace QuestDbWriter

open Lib Json

/-- An `EventEnvelopeError`. -/
def eventError (message : PyStr) : Exc := { type := .eventEnvelopeError, message }

/-- `EVENT_PAYLOAD_VERSION`. -/
def eventPayloadVersion : Int := 2

/-- `_SIGNED_64_MAX`. -/
def signed64Max : Int := 2 ^ 63 - 1

/-- The fields of an event. -/
structure EventFields where
  eventId : PyStr
  entityId : PyStr
  state : PyStr
  attributesJson : PyStr
  ingestedAtNs : Int
  lastChangedNs : Int
  lastUpdatedNs : Int
  contextId : Option PyStr
deriving DecidableEq

/-- The fields as a document or a caller gives them, of any type. -/
structure EventArguments where
  eventId : Value
  entityId : Value
  state : Value
  attributesJson : Value
  ingestedAtNs : Value
  lastChangedNs : Value
  lastUpdatedNs : Value
  contextId : Value

/-- `None`, or a text. -/
def optionalText : Option PyStr → Scalar
  | none => .null
  | some s => .str s

/-- Fields as the arguments that would make them. -/
def EventFields.arguments (e : EventFields) : EventArguments where
  eventId := .str e.eventId
  entityId := .str e.entityId
  state := .str e.state
  attributesJson := .str e.attributesJson
  ingestedAtNs := .int e.ingestedAtNs
  lastChangedNs := .int e.lastChangedNs
  lastUpdatedNs := .int e.lastUpdatedNs
  contextId := (optionalText e.contextId).value

/-- What `_string` raises for a value of another type, or an empty one where it must not be. -/
def notString (name : String) (allowEmpty : Bool) : Exc :=
  eventError (py name ++ py " must be " ++
    py (if allowEmpty then "a string" else "a non-empty string"))

/-- `_string`. -/
def string (name : String) (value : Value) (allowEmpty : Bool) : Except Exc PyStr :=
  match value with
  | .str s => do
      raiseUnless (allowEmpty = true ∨ s ≠ []) (notString name allowEmpty)
      raiseUnless (ofChar '\x00' ∉ s) (eventError (py name ++ py " must not contain NUL"))
      pure s
  | _ => .error (notString name allowEmpty)

/-- The message for a field that holds no timestamp. -/
def notTimestamp (name : String) : Exc :=
  eventError (py name ++ py " must be a non-negative signed 64-bit integer")

/-- `_timestamp_ns`. -/
def timestampNs (name : String) (value : Value) : Except Exc Int :=
  match value with
  | .int n => do
      raiseUnless (0 ≤ n ∧ n ≤ signed64Max) (notTimestamp name)
      pure n
  | _ => .error (notTimestamp name)

/-- The first part of `entity_id.partition(".")`. -/
def domainOf (entityId : PyStr) : PyStr := entityId.takeWhile (· ≠ ofChar '.')

/-- The last part of `entity_id.partition(".")`. -/
def objectIdOf (entityId : PyStr) : PyStr := (entityId.dropWhile (· ≠ ofChar '.')).tail

/-- The check of `attributes_json`. Its `except` clause misses an exhausted stack. -/
def checkAttributes (attributesJson : PyStr) (interpreter : Interpreter := .plain) :
    Except Exc Unit := do
  match ← interpreter.loads attributesJson with
  | none => .error (eventError (py "attributes_json is not valid JSON"))
  | some (.object _) => .ok ()
  | some _ => .error (eventError (py "attributes_json must contain a JSON object"))

/-- The check of `context_id`. -/
def contextId : Value → Except Exc (Option PyStr)
  | .null => .ok none
  | value => do
      let s ← string "context_id" value false
      pure (some s)

/-- `EventEnvelope.__post_init__`. -/
def postInit (a : EventArguments) (interpreter : Interpreter := .plain) :
    Except Exc EventFields := do
  let eventId ← string "event_id" a.eventId false
  let entityId ← string "entity_id" a.entityId false
  raiseUnless (ofChar '.' ∈ entityId ∧ domainOf entityId ≠ [] ∧ objectIdOf entityId ≠ [])
    (eventError (py "entity_id must contain a non-empty domain and object ID"))
  let state ← string "state" a.state true
  let attributesJson ← string "attributes_json" a.attributesJson false
  checkAttributes attributesJson interpreter
  let ingestedAtNs ← timestampNs "ingested_at_ns" a.ingestedAtNs
  let lastChangedNs ← timestampNs "last_changed_ns" a.lastChangedNs
  let lastUpdatedNs ← timestampNs "last_updated_ns" a.lastUpdatedNs
  let contextId ← contextId a.contextId
  pure { eventId, entityId, state, attributesJson, ingestedAtNs, lastChangedNs, lastUpdatedNs,
         contextId }

/-- An event: fields that `__post_init__` accepts, on an interpreter whose stack suffices. -/
structure EventEnvelope where
  fields : EventFields
  valid : postInit fields.arguments = .ok fields

/-- A light that is switched on. -/
def lightEvent : EventEnvelope where
  fields :=
    { eventId := py "1", entityId := py "light.hall", state := py "on", attributesJson := py "{}",
      ingestedAtNs := 3000, lastChangedNs := 2000, lastUpdatedNs := 2000, contextId := none }
  valid := by rfl

/-! ## What the constructor accepts -/

/-- What `_string` accepts. -/
theorem string_ok {name : String} {value : Value} {allowEmpty : Bool} {s : PyStr}
    (h : string name value allowEmpty = .ok s) :
    value = .str s ∧ (allowEmpty = false → s ≠ []) ∧ ofChar '\x00' ∉ s := by
  unfold string at h
  split at h
  · obtain ⟨_, hne, h⟩ := bind_ok.mp h
    obtain ⟨_, hnul, h⟩ := bind_ok.mp h
    cases h
    refine ⟨rfl, fun ha => ?_, raiseUnless_ok.mp hnul⟩
    exact (raiseUnless_ok.mp hne).resolve_left (by simp [ha])
  · cases h

/-- A text within the bounds is accepted. -/
theorem string_str {name : String} {s : PyStr} {allowEmpty : Bool}
    (hne : allowEmpty = true ∨ s ≠ []) (hnul : ofChar '\x00' ∉ s) :
    string name (.str s) allowEmpty = .ok s := by
  unfold string
  dsimp only
  rw [bind_of_ok (a := ()) (raiseUnless_ok.mpr hne), bind_of_ok (a := ()) (raiseUnless_ok.mpr hnul)]
  rfl

/-- What `_timestamp_ns` accepts. -/
theorem timestampNs_ok {name : String} {value : Value} {n : Int}
    (h : timestampNs name value = .ok n) : value = .int n ∧ 0 ≤ n ∧ n ≤ signed64Max := by
  unfold timestampNs at h
  split at h
  · obtain ⟨_, hn, h⟩ := bind_ok.mp h
    cases h
    exact ⟨rfl, raiseUnless_ok.mp hn⟩
  · cases h

/-- What `_context_id` accepts. -/
theorem contextId_ok {value : Value} {s : Option PyStr} (h : contextId value = .ok s) :
    value = (optionalText s).value ∧ ∀ t ∈ s, t ≠ [] ∧ ofChar '\x00' ∉ t := by
  unfold contextId at h
  split at h
  · cases h
    exact ⟨rfl, by simp⟩
  · obtain ⟨t, ht, h⟩ := bind_ok.mp h
    cases h
    obtain ⟨rfl, hne, hnul⟩ := string_ok ht
    exact ⟨rfl, by simpa using ⟨hne rfl, hnul⟩⟩

/-- The bounds of the fields of an event. -/
structure EventFields.Valid (e : EventFields) : Prop where
  eventId_ne : e.eventId ≠ []
  eventId_nul : ofChar '\x00' ∉ e.eventId
  entityId_ne : e.entityId ≠ []
  entityId_nul : ofChar '\x00' ∉ e.entityId
  domain_ne : domainOf e.entityId ≠ []
  state_nul : ofChar '\x00' ∉ e.state
  attributes_nul : ofChar '\x00' ∉ e.attributesJson
  ingested : 0 ≤ e.ingestedAtNs ∧ e.ingestedAtNs ≤ signed64Max
  changed : 0 ≤ e.lastChangedNs ∧ e.lastChangedNs ≤ signed64Max
  updated : 0 ≤ e.lastUpdatedNs ∧ e.lastUpdatedNs ≤ signed64Max
  context : ∀ t ∈ e.contextId, t ≠ [] ∧ ofChar '\x00' ∉ t

/-- An interpreter only adds the failure by an exhausted stack. -/
theorem checkAttributes_limited (attributesJson : PyStr) (interpreter : Interpreter) :
    Limited (checkAttributes attributesJson interpreter) (checkAttributes attributesJson) :=
  (interpreter.loads_limited attributesJson).bind fun _ => .refl _

/-- The constructor accepts no more on a limited stack. -/
theorem postInit_limited (a : EventArguments) (interpreter : Interpreter) :
    Limited (postInit a interpreter) (postInit a) :=
  (Limited.refl _).bind fun _ => (Limited.refl _).bind fun _ => (Limited.refl _).bind fun _ =>
    (Limited.refl _).bind fun _ => (Limited.refl _).bind fun _ =>
      (checkAttributes_limited _ interpreter).bind fun _ => .refl _

/-- Accepted arguments are the fields that the constructor stores, within their bounds. -/
theorem postInit_ok {a : EventArguments} {e : EventFields} (h : postInit a = .ok e) :
    a = e.arguments ∧ e.Valid := by
  obtain ⟨eventId, h1, h⟩ := bind_ok.mp h
  obtain ⟨entityId, h2, h⟩ := bind_ok.mp h
  obtain ⟨_, h3, h⟩ := bind_ok.mp h
  obtain ⟨state, h4, h⟩ := bind_ok.mp h
  obtain ⟨attributesJson, h5, h⟩ := bind_ok.mp h
  obtain ⟨_, h6, h⟩ := bind_ok.mp h
  obtain ⟨ingestedAtNs, h7, h⟩ := bind_ok.mp h
  obtain ⟨lastChangedNs, h8, h⟩ := bind_ok.mp h
  obtain ⟨lastUpdatedNs, h9, h⟩ := bind_ok.mp h
  obtain ⟨contextId, h10, h⟩ := bind_ok.mp h
  cases h
  obtain ⟨hv1, hne1, hnul1⟩ := string_ok h1
  obtain ⟨hv2, hne2, hnul2⟩ := string_ok h2
  obtain ⟨-, hdomain, -⟩ := raiseUnless_ok.mp h3
  obtain ⟨hv4, -, hnul4⟩ := string_ok h4
  obtain ⟨hv5, -, hnul5⟩ := string_ok h5
  obtain ⟨hv7, hr7⟩ := timestampNs_ok h7
  obtain ⟨hv8, hr8⟩ := timestampNs_ok h8
  obtain ⟨hv9, hr9⟩ := timestampNs_ok h9
  obtain ⟨hv10, hc10⟩ := contextId_ok h10
  refine ⟨?_, hne1 rfl, hnul1, hne2 rfl, hnul2, hdomain, hnul4, hnul5, hr7, hr8, hr9, hc10⟩
  obtain ⟨v1, v2, v4, v5, v7, v8, v9, v10⟩ := a
  simp only at hv1 hv2 hv4 hv5 hv7 hv8 hv9 hv10
  simp only [EventFields.arguments, hv1, hv2, hv4, hv5, hv7, hv8, hv9, hv10]

/-- An envelope has valid fields. -/
theorem EventEnvelope.bounds (e : EventEnvelope) : e.fields.Valid := (postInit_ok e.valid).2

/-! ## The payload -/

/-- `{"version": EVENT_PAYLOAD_VERSION, **asdict(self)}`. -/
def EventFields.document (e : EventFields) : List (PyStr × Scalar) :=
  [(py "version", .int eventPayloadVersion), (py "event_id", .str e.eventId),
    (py "entity_id", .str e.entityId), (py "state", .str e.state),
    (py "attributes_json", .str e.attributesJson), (py "ingested_at_ns", .int e.ingestedAtNs),
    (py "last_changed_ns", .int e.lastChangedNs), (py "last_updated_ns", .int e.lastUpdatedNs),
    (py "context_id", optionalText e.contextId)]

/-- `EventEnvelope.to_bytes`. -/
def EventEnvelope.toBytes (e : EventEnvelope) : Except Exc Bytes :=
  encodeUtf8 (dumps e.fields.document)

/-- `document[key]`: the last of the members with that key. -/
def member (key : PyStr) (members : List (PyStr × Value)) : Option Value :=
  (members.reverse.find? (·.1 = key)).map (·.2)

/-- The float is `2.0`: its literal is nearer to it than to its neighbours, or in the middle,
where the even significand of `2.0` wins. -/
def isTwo : FloatLiteral → Bool
  | .decimal m e =>
      let scale := 10 ^ (-e).toNat
      let n := m * 10 ^ e.toNat
      decide ((2 ^ 54 - 1) * scale ≤ n * 2 ^ 53) && decide (n * 2 ^ 52 ≤ (2 ^ 53 + 1) * scale)
  | _ => false

/-- `document.pop("version", None) == EVENT_PAYLOAD_VERSION`. -/
def isPayloadVersion : Option Value → Bool
  | some (.int n) => n = eventPayloadVersion
  | some (.float x) => isTwo x
  | _ => false

/-- `cls.__dataclass_fields__`. -/
def fieldNames : List PyStr :=
  [py "event_id", py "entity_id", py "state", py "attributes_json", py "ingested_at_ns",
    py "last_changed_ns", py "last_updated_ns", py "context_id"]

/-- `set(document) == expected`, the version aside. -/
def hasExpectedFields (members : List (PyStr × Value)) : Bool :=
  fieldNames.all (fun name => members.any (·.1 = name)) &&
    members.all fun m => m.1 = py "version" || fieldNames.contains m.1

/-- `cls(**document)`; every key is there. -/
def argumentsOf (members : List (PyStr × Value)) : EventArguments :=
  let field (key : String) := (member (py key) members).getD .null
  { eventId := field "event_id"
    entityId := field "entity_id"
    state := field "state"
    attributesJson := field "attributes_json"
    ingestedAtNs := field "ingested_at_ns"
    lastChangedNs := field "last_changed_ns"
    lastUpdatedNs := field "last_updated_ns"
    contextId := field "context_id" }

/-- The fields that the constructor accepts make an event. -/
theorem postInit_valid {a : EventArguments} {interpreter : Interpreter} {e : EventFields}
    (h : postInit a interpreter = .ok e) : postInit e.arguments = .ok e := by
  have hplain := (postInit_limited a interpreter).ok h
  rwa [(postInit_ok hplain).1] at hplain

/-- The constructor. -/
def EventEnvelope.ofArguments (a : EventArguments) (interpreter : Interpreter := .plain) :
    Except Exc EventEnvelope :=
  match h : postInit a interpreter with
  | .error e => .error e
  | .ok fields => .ok ⟨fields, postInit_valid h⟩

/-- `json.loads(payload.decode("utf-8"))`; `none` is a `ValueError`. -/
def loadPayload (payload : Bytes) (interpreter : Interpreter) : Except Exc (Option Value) :=
  match Utf8.decode payload with
  | none => .ok none
  | some text => interpreter.loads text

/-- `EventEnvelope.from_bytes`. Its `except` clauses miss an exhausted stack. -/
def EventEnvelope.fromBytes (payload : Bytes) (interpreter : Interpreter := .plain) :
    Except Exc EventEnvelope := do
  raiseUnless (payload ≠ []) (eventError (py "event payload must be non-empty bytes"))
  match ← loadPayload payload interpreter with
  | none => .error (eventError (py "event payload is not valid UTF-8 JSON"))
  | some (.object members) => do
      raiseUnless (isPayloadVersion (member (py "version") members) = true)
        (eventError (py "unsupported event payload version"))
      raiseUnless (hasExpectedFields members = true)
        (eventError (py "event payload has unexpected fields"))
      ofArguments (argumentsOf members) interpreter
  | some _ => .error (eventError (py "event payload must contain a JSON object"))

/-- A payload as an interpreter without a limit reads it. -/
theorem loadPayload_plain (payload : Bytes) :
    loadPayload payload .plain = .ok ((Utf8.decode payload).bind loads) := by
  unfold loadPayload
  split <;> next h => rw [h]; rfl

/-- `EventEnvelope.to_spool_event`. -/
def EventEnvelope.toSpoolEvent (e : EventEnvelope) : Except Exc NewSpoolEvent := do
  let payload ← e.toBytes
  pure { eventId := e.fields.eventId, payload, createdNs := e.fields.ingestedAtNs }

/-! ## The row -/

/-- No field of an event is a float. -/
instance : PyFloat Empty where
  repr x := nomatch x
  isFinite x := nomatch x

/-- The value of an optional text field. -/
def textOrNone : Option PyStr → FieldValue Empty
  | none => .none
  | some s => .str s

/-- `EventEnvelope.to_ilp`. -/
def EventEnvelope.toIlp (e : EventEnvelope) (table : PyStr) : Except Exc Bytes :=
  Ilp.encodeRow (F := Empty) table
    [(py "entity_id", some e.fields.entityId), (py "domain", some (domainOf e.fields.entityId))]
    [(py "event_id", .str e.fields.eventId), (py "state", .str e.fields.state),
      (py "attributes", .str e.fields.attributesJson),
      (py "ingested_at", .timestamp (e.fields.ingestedAtNs / 1000)),
      (py "last_changed", .timestamp (e.fields.lastChangedNs / 1000)),
      (py "context_id", textOrNone e.fields.contextId)]
    e.fields.lastUpdatedNs

/-- A table name that the configuration accepts: not empty, without NUL, with UTF-8 bytes. -/
structure Table where
  name : PyStr
  nonempty : name ≠ []
  no_nul : ofChar '\x00' ∉ name
  encodable : (Utf8.encode name).isSome

/-! ## The round trip of the payload -/

/-- The document in the order of its keys. -/
theorem sortKeys_document (e : EventFields) : sortKeys e.document =
    [(py "attributes_json", .str e.attributesJson), (py "context_id", optionalText e.contextId),
      (py "entity_id", .str e.entityId), (py "event_id", .str e.eventId),
      (py "ingested_at_ns", .int e.ingestedAtNs), (py "last_changed_ns", .int e.lastChangedNs),
      (py "last_updated_ns", .int e.lastUpdatedNs), (py "state", .str e.state),
      (py "version", .int eventPayloadVersion)] := by
  rfl

/-- The members that the payload of an event is read as. -/
def EventFields.members (e : EventFields) : List (PyStr × Value) :=
  (sortKeys e.document).map fun m => (m.1, m.2.value)

/-- The members of an envelope name its arguments. -/
theorem argumentsOf_members (e : EventFields) : argumentsOf e.members = e.arguments := by
  rw [EventFields.members, sortKeys_document]
  rfl

/-- The constructor keeps what `__post_init__` accepts. -/
theorem EventEnvelope.ofArguments_ok {a : EventArguments} {interpreter : Interpreter}
    {e : EventEnvelope} (h : postInit a interpreter = .ok e.fields) :
    ofArguments a interpreter = .ok e := by
  unfold ofArguments
  split
  · next e' he => rw [he] at h; cases h
  · next fields hf =>
    rw [hf] at h
    obtain ⟨fields', valid⟩ := e
    cases h
    rfl

/-- It raises what `__post_init__` raises. -/
theorem EventEnvelope.ofArguments_error {a : EventArguments} {interpreter : Interpreter} {x : Exc}
    (h : postInit a interpreter = .error x) : ofArguments a interpreter = .error x := by
  unfold ofArguments
  split
  · next e he => rw [Except.error.inj (he.symm.trans h)]
  · next fields hf =>
    rw [hf] at h
    cases h

/-- The integers of a document are short enough to be written and read. -/
theorem EventEnvelope.document_int (e : EventEnvelope) :
    ∀ m ∈ e.fields.document, ∀ n, m.2 = .int n → n.natAbs < 10 ^ maxStrDigits := by
  have hlimit {n : Int} (h : 0 ≤ n ∧ n ≤ signed64Max) : n.natAbs < 10 ^ maxStrDigits := by
    have hpow : signed64Max.natAbs < 10 ^ maxStrDigits := by decide +kernel
    exact Nat.lt_of_le_of_lt (by omega) hpow
  have hb := e.bounds
  simp only [EventFields.document, List.forall_mem_cons]
  refine ⟨?_, nofun, nofun, nofun, nofun, ?_, ?_, ?_, ?_, nofun⟩
  · rintro n ⟨⟩
    exact hlimit (by decide)
  · rintro n ⟨⟩
    exact hlimit hb.ingested
  · rintro n ⟨⟩
    exact hlimit hb.changed
  · rintro n ⟨⟩
    exact hlimit hb.updated
  · intro n hn
    cases hc : e.fields.contextId <;> rw [hc] at hn <;> cases hn

/-- **The payload of an event reads back as the event.** -/
theorem EventEnvelope.fromBytes_toBytes {e : EventEnvelope} {payload : Bytes}
    (h : e.toBytes = .ok payload) : fromBytes payload = .ok e := by
  have henc := encodeUtf8_ok.mp h
  have hne : payload ≠ [] := by
    rintro rfl
    have := Utf8.decode_encode henc
    cases this
  have hdecode : (Utf8.decode payload).bind loads = some (.object e.fields.members) := by
    rw [Utf8.decode_encode henc, Option.bind_some, loads_dumps (by simp [EventFields.document])
      e.document_int]
    rfl
  have hversion : isPayloadVersion (member (py "version") e.fields.members) = true := by
    rw [EventFields.members, sortKeys_document]
    rfl
  have hfields : hasExpectedFields e.fields.members = true := by
    rw [EventFields.members, sortKeys_document]
    rfl
  unfold fromBytes
  rw [bind_of_ok (a := ()) (raiseUnless_ok.mpr hne), loadPayload_plain, hdecode, bind_of_ok rfl]
  dsimp only
  rw [bind_of_ok (a := ()) (raiseUnless_ok.mpr hversion),
    bind_of_ok (a := ()) (raiseUnless_ok.mpr hfields), argumentsOf_members]
  exact ofArguments_ok e.valid

/-! ## A limited stack -/

section
variable {interpreter : Interpreter}

/-- A stack that the attributes do not exhaust suffices for the constructor. -/
theorem postInit_suffices {a : EventArguments}
    (h : ∀ text, a.attributesJson = .str text → interpreter.exhausts text = false) :
    postInit a interpreter = postInit a := by
  refine bind_congr fun _ => bind_congr fun _ => bind_congr fun _ => bind_congr fun _ =>
    bind_congr_ok fun text htext => ?_
  rw [checkAttributes, checkAttributes, interpreter.loads_suffices (h text (string_ok htext).1)]

/-- A stack that suffices for the attributes is as good as none. -/
theorem EventEnvelope.ofArguments_suffices {a : EventArguments}
    (h : ∀ text, a.attributesJson = .str text → interpreter.exhausts text = false) :
    ofArguments a interpreter = ofArguments a := by
  have hpost := postInit_suffices h
  cases hplain : postInit a with
  | ok fields =>
    have hevent : ofArguments a = .ok ⟨fields, postInit_valid hplain⟩ := ofArguments_ok hplain
    exact (ofArguments_ok (hpost.trans hplain)).trans hevent.symm
  | error x => rw [ofArguments_error (hpost.trans hplain), ofArguments_error hplain]

/-- An interpreter only adds the failure by an exhausted stack. -/
theorem EventEnvelope.ofArguments_limited (a : EventArguments) (interpreter : Interpreter) :
    Limited (ofArguments a interpreter) (ofArguments a) := by
  cases hpost : postInit a interpreter with
  | ok fields =>
    have hplain := (postInit_limited a interpreter).ok hpost
    have hevent : ofArguments a interpreter = .ok ⟨fields, postInit_valid hpost⟩ :=
      ofArguments_ok hpost
    exact .inl (hevent.trans (ofArguments_ok hplain).symm)
  | error x =>
    rw [ofArguments_error hpost]
    rcases postInit_limited a interpreter with h | h
    · exact .inl (ofArguments_error (h.symm.trans hpost)).symm
    · exact .inr (by rw [Except.error.inj (hpost.symm.trans h)])

/-- What `from_bytes` returns on a limited stack, it returns on one that suffices. -/
theorem EventEnvelope.fromBytes_limited (payload : Bytes) (interpreter : Interpreter) :
    Limited (fromBytes payload interpreter) (fromBytes payload) := by
  refine (Limited.refl _).bind fun _ => Limited.bind ?_ fun value => ?_
  · unfold loadPayload
    split
    · exact .refl _
    · exact interpreter.loads_limited _
  · cases value with
    | none => exact .refl _
    | some value =>
      cases value with
      | object members =>
        exact (Limited.refl _).bind fun _ => (Limited.refl _).bind fun _ =>
          ofArguments_limited _ interpreter
      | _ => exact .refl _

/-- **A stack suffices for `from_bytes`** that neither the payload nor the attributes of the event
in it exhaust. -/
theorem EventEnvelope.fromBytes_suffices {payload : Bytes}
    (hpayload : ∀ text, Utf8.decode payload = some text → interpreter.exhausts text = false)
    (hattributes : ∀ members text, (Utf8.decode payload).bind loads = some (.object members) →
      (argumentsOf members).attributesJson = .str text → interpreter.exhausts text = false) :
    fromBytes payload interpreter = fromBytes payload := by
  have hload : loadPayload payload interpreter = loadPayload payload .plain := by
    unfold loadPayload
    split
    · rfl
    · next text htext => exact interpreter.loads_suffices (hpayload text htext)
  unfold fromBytes
  rw [hload, loadPayload_plain]
  refine bind_congr fun _ => bind_congr_ok fun value hvalue => ?_
  cases value with
  | none => rfl
  | some value =>
    cases value with
    | object members =>
      exact bind_congr fun _ => bind_congr fun _ =>
        ofArguments_suffices (hattributes members · (Except.ok.inj hvalue))
    | _ => rfl

end

/-! ## The row of an accepted event -/

/-- A surrogate is written as itself. -/
theorem escapeChar_surrogate {c : CodePoint} (hc : Utf8.isSurrogate c.val = true) :
    escapeChar c = [c] := by
  have hge : 0xD800 ≤ c.val := by
    simp only [Utf8.isSurrogate, Bool.and_eq_true, decide_eq_true_eq] at hc
    exact hc.1
  have hne (d : CodePoint) (hd : d.val < 0xD800) : c ≠ d := by
    rintro rfl
    omega
  rw [escapeChar, if_neg (hne _ (by decide)), if_neg (hne _ (by decide)),
    if_neg (hne _ (by decide)), if_neg (hne _ (by decide)), if_neg (hne _ (by decide)),
    if_neg (hne _ (by decide)), if_neg (hne _ (by decide)), if_neg (by omega)]

/-- A written text has UTF-8 bytes only if the text has them. -/
theorem Encodable.of_dumpString {s : PyStr} (h : Encodable (dumpString s)) : Encodable s := by
  intro c hc
  by_contra hs
  rw [Bool.not_eq_false] at hs
  have hmem : c ∈ dumpString s := List.mem_cons_of_mem _ <| List.mem_append_left _ <|
    List.mem_flatMap.mpr ⟨c, hc, by simp [escapeChar_surrogate hs]⟩
  rw [h c hmem] at hs
  cases hs

/-- A member stands in the dump. -/
theorem dumpMember_sublist : ∀ {ms : List (PyStr × Scalar)} {m : PyStr × Scalar}, m ∈ ms →
    (dumpMember m).Sublist (dumpMembers ms)
  | [_], _, .head _ => List.sublist_append_left ..
  | _ :: _ :: _, _, .head _ => List.sublist_append_left ..
  | _ :: _ :: _, _, .tail _ h =>
      (dumpMember_sublist h).trans
        ((List.sublist_cons_self ..).trans (List.sublist_append_right ..))

/-- The texts of an event that has a payload have UTF-8 bytes. -/
theorem EventEnvelope.encodable {e : EventEnvelope} {payload : Bytes}
    (h : e.toBytes = .ok payload) (key : PyStr) {s : PyStr}
    (hs : (key, .str s) ∈ e.fields.document) :
    Encodable s := by
  have hdumps : Encodable (dumps e.fields.document) := by
    rw [Encodable.iff_isSome, encodeUtf8_ok.mp h]
    rfl
  have hsorted : (key, .str s) ∈ sortKeys e.fields.document :=
    (List.perm_insertionSort ..).mem_iff.mpr hs
  have hmember : Encodable (dumpMember (key, .str s)) :=
    hdumps.sublist ((dumpMember_sublist hsorted).trans (List.sublist_cons_self ..))
  exact Encodable.of_dumpString (hmember.sublist
    ((List.sublist_cons_self ..).trans (List.sublist_append_right ..)))

/-- Microseconds of a timestamp are in the range of ILP's integers. -/
theorem inRange_micros {n : Int} (h : 0 ≤ n ∧ n ≤ signed64Max) : Ilp.InRange (n / 1000) := by
  unfold Ilp.InRange
  unfold signed64Max at h
  omega

/-- No text of the event has a lone surrogate. -/
structure EventFields.SurrogateFree (e : EventFields) : Prop where
  eventId : Encodable e.eventId
  entityId : Encodable e.entityId
  state : Encodable e.state
  attributes : Encodable e.attributesJson
  context : ∀ t ∈ e.contextId, Encodable t

/-- An event that has a payload has no lone surrogates. -/
theorem EventEnvelope.surrogateFree {e : EventEnvelope} {payload : Bytes}
    (h : e.toBytes = .ok payload) : e.fields.SurrogateFree where
  eventId := e.encodable h (py "event_id") (by simp [EventFields.document])
  entityId := e.encodable h (py "entity_id") (by simp [EventFields.document])
  state := e.encodable h (py "state") (by simp [EventFields.document])
  attributes := e.encodable h (py "attributes_json") (by simp [EventFields.document])
  context t ht := e.encodable h (py "context_id") (by
    rw [Option.mem_def] at ht
    simp [EventFields.document, ht, optionalText])

/-- **The row of an event is the UTF-8 text of a line**, which has one if no text of the event has
a lone surrogate. -/
theorem EventEnvelope.toIlp_text (e : EventEnvelope) (table : Table) :
    ∃ line, e.toIlp table.name = encodeUtf8 line ∧
      (e.fields.SurrogateFree → Encodable line) := by
  have hb := e.bounds
  have hpre : (domainOf e.fields.entityId).Sublist e.fields.entityId :=
    List.takeWhile_sublist _
  have hname : ∀ {s : String}, s ≠ "" →
      (s.toList.all fun c => decide (c.toNat < 128)) = true → '\x00' ∉ s.toList →
      Ilp.IsIdentifier (py s) := fun hne hascii hnul => (Ilp.IsName.py hne hascii hnul).identifier
  have hcontext : Ilp.Supported (textOrNone e.fields.contextId) := by
    cases hc : e.fields.contextId with
    | none => trivial
    | some s => exact (hb.context s hc).2
  have hpow : signed64Max.natAbs < 10 ^ maxStrDigits := by decide +kernel
  have hupdated : e.fields.lastUpdatedNs.natAbs < 10 ^ maxStrDigits := by
    have h := hb.updated
    exact Nat.lt_of_le_of_lt (by omega) hpow
  obtain ⟨line, hline, henc⟩ := @Ilp.encodeRow_text Empty _ table.name
    [(py "entity_id", some e.fields.entityId), (py "domain", some (domainOf e.fields.entityId))]
    [(py "event_id", .str e.fields.eventId), (py "state", .str e.fields.state),
      (py "attributes", .str e.fields.attributesJson),
      (py "ingested_at", .timestamp (e.fields.ingestedAtNs / 1000)),
      (py "last_changed", .timestamp (e.fields.lastChangedNs / 1000)),
      (py "context_id", textOrNone e.fields.contextId)]
    e.fields.lastUpdatedNs ⟨table.nonempty, table.no_nul⟩
    (by
      simp only [List.forall_mem_cons, Option.mem_def, Option.some.injEq, forall_eq']
      exact ⟨⟨hname (by decide) (by decide) (by decide), hb.entityId_ne, hb.entityId_nul⟩,
        ⟨hname (by decide) (by decide) (by decide), hb.domain_ne,
          fun hm => hb.entityId_nul (hpre.subset hm)⟩, nofun⟩)
    (by
      simp only [List.forall_mem_cons]
      exact ⟨⟨hname (by decide) (by decide) (by decide), hb.eventId_nul⟩,
        ⟨hname (by decide) (by decide) (by decide), hb.state_nul⟩,
        ⟨hname (by decide) (by decide) (by decide), hb.attributes_nul⟩,
        ⟨hname (by decide) (by decide) (by decide), inRange_micros hb.ingested⟩,
        ⟨hname (by decide) (by decide) (by decide), inRange_micros hb.changed⟩,
        ⟨hname (by decide) (by decide) (by decide), hcontext⟩, nofun⟩)
    ⟨_, List.mem_cons_self .., nofun⟩ hupdated
  refine ⟨line, hline, fun hs => henc (Encodable.iff_isSome.mpr table.encodable) ?_ ?_⟩
  · simp only [List.forall_mem_cons, Option.mem_def, Option.some.injEq, forall_eq']
    exact ⟨⟨.py (by decide), hs.entityId⟩, ⟨.py (by decide), hs.entityId.sublist hpre⟩, nofun⟩
  · simp only [List.forall_mem_cons]
    refine ⟨⟨.py (by decide), hs.eventId⟩, ⟨.py (by decide), hs.state⟩,
      ⟨.py (by decide), hs.attributes⟩, ⟨.py (by decide), trivial⟩,
      ⟨.py (by decide), trivial⟩, ⟨.py (by decide), ?_⟩, nofun⟩
    cases hc : e.fields.contextId with
    | none => trivial
    | some s => exact hs.context s hc

/-- **An event that has a payload has a row**, for every table name. -/
theorem EventEnvelope.toIlp_of_toBytes {e : EventEnvelope} {payload : Bytes}
    (h : e.toBytes = .ok payload) (table : Table) : ∃ row, e.toIlp table.name = .ok row := by
  obtain ⟨line, hline, henc⟩ := e.toIlp_text table
  obtain ⟨bs, hbs⟩ := Option.isSome_iff_exists.mp
    (Encodable.iff_isSome.mp (henc (e.surrogateFree h)))
  exact ⟨bs, hline.trans (encodeUtf8_ok.mpr hbs)⟩

/-! ## Errors -/

section
open Ilp (TextEncodable)

/-- An `EventEnvelopeError` whose text has UTF-8 bytes. -/
structure IsEnvelopeError (e : Exc) : Prop where
  type : e.type = .eventEnvelopeError
  text : TextEncodable e

/-- `_string` raises nothing but `EventEnvelopeError`. -/
theorem string_raises {name : String}
    (hname : (name.toList.all fun c => decide (c.toNat < 128)) = true)
    (value : Value) (allowEmpty : Bool) :
    RaisesOnly IsEnvelopeError (string name value allowEmpty) := by
  have hnot : IsEnvelopeError (notString name allowEmpty) := by
    refine ⟨rfl, ((Encodable.py hname).append (.py (by decide))).append ?_⟩
    cases allowEmpty <;> exact .py (by decide)
  unfold string
  split
  · exact (RaisesOnly.raiseUnless fun _ => hnot).bind fun _ _ =>
      (RaisesOnly.raiseUnless fun _ =>
        ⟨rfl, (Encodable.py hname).append (.py (by decide))⟩).bind fun _ _ => .pure _
  · intro e he
    cases he
    exact hnot

/-- Neither does `_timestamp_ns`. -/
theorem timestampNs_raises {name : String}
    (hname : (name.toList.all fun c => decide (c.toNat < 128)) = true) (value : Value) :
    RaisesOnly IsEnvelopeError (timestampNs name value) := by
  have hnot : IsEnvelopeError (notTimestamp name) :=
    ⟨rfl, (Encodable.py hname).append (.py (by decide))⟩
  unfold timestampNs
  split
  · exact (RaisesOnly.raiseUnless fun _ => hnot).bind fun _ _ => .pure _
  · intro e he
    cases he
    exact hnot

/-- Neither does `_context_id`. -/
theorem contextId_raises (value : Value) : RaisesOnly IsEnvelopeError (contextId value) := by
  unfold contextId
  split
  · exact .pure _
  · exact (string_raises (by decide) _ _).bind fun _ _ => .pure _

/-- Neither does the check of the attributes, within the stack. -/
theorem checkAttributes_raises (text : PyStr) :
    RaisesOnly IsEnvelopeError (checkAttributes text) := by
  intro e he
  unfold checkAttributes at he
  rw [bind_of_ok (show Interpreter.plain.loads text = .ok (loads text) from rfl)] at he
  split at he <;> cases he
  all_goals exact ⟨rfl, .py (by decide)⟩

/-- So `__post_init__` raises nothing else. -/
theorem postInit_raises (a : EventArguments) : RaisesOnly IsEnvelopeError (postInit a) :=
  (string_raises (by decide) _ _).bind fun _ _ => (string_raises (by decide) _ _).bind fun _ _ =>
    (RaisesOnly.raiseUnless fun _ => ⟨rfl, .py (by decide)⟩).bind fun _ _ =>
      (string_raises (by decide) _ _).bind fun _ _ =>
      (string_raises (by decide) _ _).bind fun _ _ =>
        (checkAttributes_raises _).bind fun _ _ =>
        (timestampNs_raises (by decide) _).bind fun _ _ =>
          (timestampNs_raises (by decide) _).bind fun _ _ =>
          (timestampNs_raises (by decide) _).bind fun _ _ =>
              (contextId_raises _).bind fun _ _ => .pure _

/-- The checks of `__post_init__` that come before `json.loads` pass. -/
structure ReadsAttributes (eventId entityId state attributesJson : PyStr) : Prop where
  parts : ofChar '.' ∈ entityId ∧ domainOf entityId ≠ [] ∧ objectIdOf entityId ≠ []
  event_text : eventId ≠ [] ∧ ofChar '\x00' ∉ eventId
  entity_text : entityId ≠ [] ∧ ofChar '\x00' ∉ entityId
  state_text : ofChar '\x00' ∉ state
  attributes_text : attributesJson ≠ [] ∧ ofChar '\x00' ∉ attributesJson

section
variable {interpreter : Interpreter} {a : EventArguments} {eventId entityId state text : PyStr}

/-- An exception of these checks is of another type than that of an exhausted stack. -/
theorem readsAttributes_of_exhausted (heventId : a.eventId = .str eventId)
    (hentityId : a.entityId = .str entityId) (hstate : a.state = .str state)
    (htext : a.attributesJson = .str text) (h : postInit a interpreter = .error recursionError) :
    ReadsAttributes eventId entityId state text := by
  have hnot {α : Type} {x : Except Exc α} {P : Exc → Prop} (hx : RaisesOnly IsEnvelopeError x) :
      RaisesOnly (fun e => e = recursionError → P e) x := by
    rintro e he rfl
    cases (hx _ he).type
  have hraises : RaisesOnly (fun e => e = recursionError →
      ReadsAttributes eventId entityId state text) (postInit a interpreter) := by
    rw [postInit, heventId, hentityId, hstate, htext]
    refine (hnot (string_raises (by decide) _ _)).bind fun eventId' h1 => ?_
    refine (hnot (string_raises (by decide) _ _)).bind fun entityId' h2 => ?_
    refine .bind (hnot (.raiseUnless fun _ => ⟨rfl, .py (by decide)⟩)) fun _ h3 => ?_
    refine (hnot (string_raises (by decide) _ _)).bind fun state' h4 => ?_
    refine (hnot (string_raises (by decide) _ _)).bind fun text' h5 => ?_
    obtain ⟨⟨⟩, hne1, hnul1⟩ := string_ok h1
    obtain ⟨⟨⟩, hne2, hnul2⟩ := string_ok h2
    obtain ⟨⟨⟩, -, hnul4⟩ := string_ok h4
    obtain ⟨⟨⟩, hne5, hnul5⟩ := string_ok h5
    exact fun _ _ _ => ⟨raiseUnless_ok.mp h3, ⟨hne1 rfl, hnul1⟩, ⟨hne2 rfl, hnul2⟩, hnul4,
      ⟨hne5 rfl, hnul5⟩⟩
  exact hraises _ h rfl

/-- **`__post_init__` raises the error of an exhausted stack exactly where it gets to `json.loads`,
and that exhausts the stack.** -/
theorem postInit_exhausts (heventId : a.eventId = .str eventId)
    (hentityId : a.entityId = .str entityId) (hstate : a.state = .str state)
    (htext : a.attributesJson = .str text) :
    postInit a interpreter = .error recursionError ↔
      ReadsAttributes eventId entityId state text ∧ interpreter.exhausts text = true := by
  constructor
  · intro h
    refine ⟨readsAttributes_of_exhausted heventId hentityId hstate htext h, ?_⟩
    by_contra hex
    have hsuffices : postInit a interpreter = postInit a := postInit_suffices fun text' ht => by
      rw [htext] at ht
      cases ht
      exact Bool.eq_false_iff.mpr hex
    rw [hsuffices] at h
    cases (postInit_raises a _ h).type
  · rintro ⟨h, hex⟩
    rw [postInit, heventId, hentityId, hstate, htext,
      bind_of_ok (string_str (.inr h.event_text.1) h.event_text.2),
      bind_of_ok (string_str (.inr h.entity_text.1) h.entity_text.2),
      bind_of_ok (a := ()) (raiseUnless_ok.mpr h.parts),
      bind_of_ok (string_str (.inl rfl) h.state_text),
      bind_of_ok (string_str (.inr h.attributes_text.1) h.attributes_text.2), checkAttributes,
      Interpreter.loads, if_pos hex]
    rfl

end

/-- Nor does the constructor. -/
theorem EventEnvelope.ofArguments_raises (a : EventArguments) :
    RaisesOnly IsEnvelopeError (ofArguments a) := by
  intro e he
  unfold ofArguments at he
  split at he
  · next e' hpost =>
    cases he
    exact postInit_raises _ _ hpost
  · cases he

/-- **A payload that is no event raises `EventEnvelopeError`**, with a text that has UTF-8 bytes. -/
theorem EventEnvelope.fromBytes_raises (payload : Bytes) :
    RaisesOnly IsEnvelopeError (fromBytes payload) := by
  unfold fromBytes
  refine (RaisesOnly.raiseUnless fun _ => ⟨rfl, .py (by decide)⟩).bind fun _ _ => ?_
  rw [loadPayload_plain, bind_of_ok rfl]
  split
  · intro e he
    cases he
    exact ⟨rfl, .py (by decide)⟩
  · refine (RaisesOnly.raiseUnless fun _ => ⟨rfl, .py (by decide)⟩).bind fun _ _ =>
      (RaisesOnly.raiseUnless fun _ => ⟨rfl, .py (by decide)⟩).bind fun _ _ => ?_
    exact ofArguments_raises _
  · intro e he
    cases he
    exact ⟨rfl, .py (by decide)⟩

/-- The error of an event that has no row, too: its fields are of supported types. -/
theorem EventEnvelope.toIlp_raises (e : EventEnvelope) (table : PyStr) :
    RaisesOnly TextEncodable (e.toIlp table) := by
  refine Ilp.encodeRow_raises _ _ ?_ _
  simp only [List.forall_mem_cons]
  refine ⟨nofun, nofun, nofun, nofun, nofun, ?_, nofun⟩
  cases e.fields.contextId <;> exact nofun

end

end QuestDbWriter
