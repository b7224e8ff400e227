import QuestDbWriter.Event

/-!
# The payloads of the spool

`to_bytes` writes every event without lone surrogates (`toBytes_iff`), and `from_bytes` reads it
back. What `from_bytes` reads is a document with the version and the eight fields of an event
(`fromBytes_iff`). Python's `json` reads an escape of a lone surrogate, too, which `to_bytes` never
writes: `toIlp_iff` says that such an event has no row, and `toIlp_error` what is raised.
-/

namespace QuestDbWriter

open Lib Json

/-! ## Writing -/

namespace Encodable

/-- An escape is of ASCII characters. -/
theorem escapeChar {c : CodePoint} (hc : Utf8.isSurrogate c.val = false) :
    Encodable (Json.escapeChar c) := by
  have hhex : ∀ n < 16, Utf8.isSurrogate (hexChar n).val = false := by decide
  unfold Json.escapeChar
  iterate 7
    split
    · exact .py (by decide)
  split
  · next hcontrol =>
    refine (Encodable.py (by decide)).append fun d hd => ?_
    simp only [List.mem_cons, List.not_mem_nil, or_false] at hd
    rcases hd with rfl | rfl
    · exact hhex _ (by omega)
    · exact hhex _ (Nat.mod_lt _ (by omega))
  · intro d hd
    rw [List.mem_singleton.mp hd]
    exact hc

/-- A dumped string. -/
theorem dumpString {s : PyStr} (h : Encodable s) : Encodable (Json.dumpString s) := by
  have hquote : Encodable [ofChar '"'] := .py (s := "\"") (by decide)
  refine (hquote.append ?_).append hquote
  intro c hc
  obtain ⟨d, hd, hcd⟩ := List.mem_flatMap.mp hc
  exact Encodable.escapeChar (h d hd) c hcd

/-- A dumped scalar. -/
theorem dumpScalar : ∀ {v : Scalar}, (∀ s, v = .str s → Encodable s) → Encodable (Json.dumpScalar v)
  | .null, _ => .py (by decide)
  | .int n, _ => Encodable.intText n
  | .str s, h => (h s rfl).dumpString

/-- Dumped members. -/
theorem dumpMembers : ∀ {ms : List (PyStr × Scalar)},
    (∀ m ∈ ms, Encodable m.1 ∧ ∀ s, m.2 = .str s → Encodable s) → Encodable (Json.dumpMembers ms)
  | [], _ => .py (s := "\x7d") (by decide)
  | [m], h => by
      obtain ⟨hkey, hvalue⟩ := h m (List.mem_cons_self ..)
      exact (hkey.dumpString.append ((Encodable.py (s := ":") (by decide)).append
        (dumpScalar hvalue))).append (.py (s := "\x7d") (by decide))
  | m :: m' :: ms, h => by
      obtain ⟨hkey, hvalue⟩ := h m (List.mem_cons_self ..)
      exact (hkey.dumpString.append ((Encodable.py (s := ":") (by decide)).append
        (dumpScalar hvalue))).append ((Encodable.py (s := ",") (by decide)).append
        (dumpMembers fun x hx => h x (List.mem_cons_of_mem m hx)))

end Encodable

namespace EventEnvelope

variable {e e' : EventEnvelope} {payload : Bytes}

/-- **An event is written exactly if no text of it has a lone surrogate.** -/
theorem toBytes_iff : (∃ payload, e.toBytes = .ok payload) ↔ e.fields.SurrogateFree := by
  constructor
  · rintro ⟨payload, h⟩
    exact e.surrogateFree h
  intro hs
  have hmembers : ∀ m ∈ e.fields.document, Encodable m.1 ∧ ∀ s, m.2 = .str s → Encodable s := by
    have hint : ∀ {n : Int} (s : PyStr), Scalar.int n = .str s → Encodable s := by
      rintro n s ⟨⟩
    simp only [EventFields.document, List.forall_mem_cons]
    refine ⟨⟨.py (by decide), hint⟩, ⟨.py (by decide), ?_⟩, ⟨.py (by decide), ?_⟩,
      ⟨.py (by decide), ?_⟩, ⟨.py (by decide), ?_⟩, ⟨.py (by decide), hint⟩,
      ⟨.py (by decide), hint⟩, ⟨.py (by decide), hint⟩, ⟨.py (by decide), ?_⟩,
      List.forall_mem_nil _⟩
    · rintro s ⟨⟩
      exact hs.eventId
    · rintro s ⟨⟩
      exact hs.entityId
    · rintro s ⟨⟩
      exact hs.state
    · rintro s ⟨⟩
      exact hs.attributes
    · intro s hcontext
      cases hc : e.fields.contextId with
      | none => rw [hc] at hcontext; cases hcontext
      | some t =>
        rw [hc] at hcontext
        cases hcontext
        exact hs.context s hc
  have hsorted : Encodable (Json.dumpMembers (sortKeys e.fields.document)) :=
    Encodable.dumpMembers fun m hm => hmembers m ((List.perm_insertionSort ..).mem_iff.mp hm)
  have hdumps : Encodable (dumps e.fields.document) :=
    (Encodable.py (s := "\x7b") (by decide)).append hsorted
  obtain ⟨bs, hbs⟩ := Option.isSome_iff_exists.mp (Encodable.iff_isSome.mp hdumps)
  exact ⟨bs, encodeUtf8_ok.mpr hbs⟩

/-- Events with the same payload are the same. -/
theorem toBytes_injective (h : e.toBytes = .ok payload) (h' : e'.toBytes = .ok payload) : e = e' :=
  Except.ok.inj ((fromBytes_toBytes h).symm.trans (fromBytes_toBytes h'))

end EventEnvelope

/-! ## Reading -/

/-- The value equals `EVENT_PAYLOAD_VERSION`, as an integer or as a float. -/
def EqualsVersion (v : Value) : Prop :=
  v = .int eventPayloadVersion ∨ ∃ x, v = .float x ∧ isTwo x = true

/-- The document of an event: its version, and the fields of the event and no others, with values
that `__post_init__` accepts. -/
structure IsDocument (members : List (PyStr × Value)) (e : EventEnvelope) : Prop where
  version : ∃ v, member (py "version") members = some v ∧ EqualsVersion v
  keys : ∀ key, key ∈ members.map (·.1) ↔ key = py "version" ∨ key ∈ fieldNames
  values : postInit (argumentsOf members) = .ok e.fields

/-- A version is the payload version where Python's `==` says so. -/
theorem isPayloadVersion_iff {v : Option Value} :
    isPayloadVersion v = true ↔ ∃ w, v = some w ∧ EqualsVersion w := by
  unfold isPayloadVersion EqualsVersion
  split
  · simp
  · simp
  · next hint hfloat =>
    refine ⟨nofun, ?_⟩
    rintro ⟨w, rfl, rfl | ⟨x, rfl, -⟩⟩
    · exact absurd rfl (hint _)
    · exact absurd rfl (hfloat _)

/-- A member that is found is there. -/
theorem mem_of_member {key : PyStr} {members : List (PyStr × Value)} {v : Value}
    (h : member key members = some v) : key ∈ members.map (·.1) := by
  obtain ⟨m, hm, -⟩ := Option.map_eq_some_iff.mp h
  have hkey : m.1 = key := by simpa using List.find?_some hm
  exact List.mem_map.mpr ⟨m, List.mem_reverse.mp (List.mem_of_find?_eq_some hm), hkey⟩

/-- The keys are the expected ones, and no others. -/
theorem hasExpectedFields_iff {members : List (PyStr × Value)}
    (hversion : py "version" ∈ members.map (·.1)) :
    hasExpectedFields members = true ↔
      ∀ key, key ∈ members.map (·.1) ↔ key = py "version" ∨ key ∈ fieldNames := by
  simp only [hasExpectedFields, Bool.and_eq_true, List.all_eq_true, List.any_eq_true,
    decide_eq_true_eq, Bool.or_eq_true, List.contains_iff_mem]
  constructor
  · rintro ⟨hall, honly⟩ key
    constructor
    · intro hkey
      obtain ⟨m, hm, rfl⟩ := List.mem_map.mp hkey
      exact honly m hm
    · rintro (rfl | hkey)
      · exact hversion
      · obtain ⟨m, hm, rfl⟩ := hall key hkey
        exact List.mem_map_of_mem hm
  · intro hkeys
    refine ⟨fun key hkey => ?_, fun m hm => (hkeys m.1).mp (List.mem_map_of_mem hm)⟩
    obtain ⟨m, hm, rfl⟩ := List.mem_map.mp ((hkeys key).mpr (.inr hkey))
    exact ⟨m, hm, rfl⟩

/-- **What `from_bytes` accepts is a document** of the present version. -/
theorem EventEnvelope.fromBytes_iff {payload : Bytes} {e : EventEnvelope} :
    fromBytes payload = .ok e ↔ payload ≠ [] ∧ ∃ members,
      (Utf8.decode payload).bind loads = some (.object members) ∧ IsDocument members e := by
  unfold fromBytes
  rw [bind_ok, loadPayload_plain, bind_of_ok rfl]
  constructor
  · rintro ⟨_, hne, h⟩
    refine ⟨raiseUnless_ok.mp hne, ?_⟩
    split at h
    · cases h
    · next members hloads =>
      obtain ⟨_, hversion, h⟩ := bind_ok.mp h
      obtain ⟨_, hfields, h⟩ := bind_ok.mp h
      obtain ⟨v, hv, heq⟩ := isPayloadVersion_iff.mp (raiseUnless_ok.mp hversion)
      refine ⟨members, hloads, ⟨v, hv, heq⟩,
        (hasExpectedFields_iff (mem_of_member hv)).mp (raiseUnless_ok.mp hfields), ?_⟩
      unfold ofArguments at h
      split at h
      · cases h
      · next fields hpost =>
        cases h
        exact hpost
    · cases h
  · rintro ⟨hne, members, hloads, ⟨v, hv, heq⟩, hkeys, hvalues⟩
    refine ⟨(), raiseUnless_ok.mpr hne, ?_⟩
    rw [hloads]
    exact bind_ok.mpr ⟨(), raiseUnless_ok.mpr (isPayloadVersion_iff.mpr ⟨v, hv, heq⟩),
      bind_ok.mpr ⟨(), raiseUnless_ok.mpr ((hasExpectedFields_iff (mem_of_member hv)).mpr hkeys),
        ofArguments_ok hvalues⟩⟩

/-- **The round trip.** An event without lone surrogates is written, and read back as itself, so
that its row is the one it had before; the payload tells it from every other event; and what is read
is a document of the present version with the fields of an event. -/
theorem payload_round_trip :
    (∀ e : EventEnvelope, e.fields.SurrogateFree → ∃ payload, e.toBytes = .ok payload ∧
      EventEnvelope.fromBytes payload = .ok e ∧
      ∀ table, (EventEnvelope.fromBytes payload >>= fun e => e.toIlp table) = e.toIlp table) ∧
    (∀ (e e' : EventEnvelope) (payload : Bytes), e.toBytes = .ok payload →
      e'.toBytes = .ok payload → e = e') ∧
    ∀ (payload : Bytes) (e : EventEnvelope), EventEnvelope.fromBytes payload = .ok e →
      ∃ members, (Utf8.decode payload).bind loads = some (.object members) ∧
        IsDocument members e := by
  refine ⟨fun e hs => ?_, fun e e' payload => EventEnvelope.toBytes_injective,
    fun payload e h => (EventEnvelope.fromBytes_iff.mp h).2⟩
  obtain ⟨payload, hpayload⟩ := EventEnvelope.toBytes_iff.mpr hs
  have hread := EventEnvelope.fromBytes_toBytes hpayload
  exact ⟨payload, hpayload, hread, fun table => bind_of_ok hread⟩

/-- The light that is switched on. -/
theorem payload_round_trip_light : ∃ payload, lightEvent.toBytes = .ok payload ∧
    EventEnvelope.fromBytes payload = .ok lightEvent := by
  have hs : lightEvent.fields.SurrogateFree :=
    ⟨.py (by decide), .py (by decide), .py (by decide), .py (by decide), nofun⟩
  obtain ⟨payload, hpayload, hread, -⟩ := payload_round_trip.1 lightEvent hs
  exact ⟨payload, hpayload, hread⟩

/-! ## Events without a row -/

namespace Encodable

/-- A text has UTF-8 bytes if its escaped form has them. -/
theorem of_escape {esc : CodePoint} {special : List CodePoint} {s : PyStr}
    (h : Encodable (Escape.escape esc special s)) : Encodable s := by
  intro c hc
  refine h c (List.mem_flatMap.mpr ⟨c, hc, ?_⟩)
  split
  · exact List.mem_cons_of_mem _ (List.mem_cons_self ..)
  · exact List.mem_cons_self ..

/-- A text has UTF-8 bytes where its escaped form has. -/
theorem of_replaceIdentifier {s : PyStr} (h : Encodable (Ilp.replaceIdentifier s)) :
    Encodable s := by
  rw [Ilp.replaceIdentifier_eq] at h
  exact h.of_escape

/-- A text has UTF-8 bytes where its escaped form has. -/
theorem of_replaceString {s : PyStr} (h : Encodable (Ilp.replaceString s)) : Encodable s := by
  rw [Ilp.replaceString_eq] at h
  exact h.of_escape

/-- The front of a text. -/
theorem left {s t : PyStr} (h : Encodable (s ++ t)) : Encodable s :=
  h.sublist (List.sublist_append_left s t)

/-- The rest of a text. -/
theorem right {s t : PyStr} (h : Encodable (s ++ t)) : Encodable t :=
  h.sublist (List.sublist_append_right s t)

/-- A text without its first character. -/
theorem tail {c : CodePoint} {s : PyStr} (h : Encodable (c :: s)) : Encodable s :=
  h.sublist (List.sublist_cons_self c s)

/-- The values of written symbols. -/
theorem of_symbolText : ∀ {symbols : List (PyStr × PyStr)}, Encodable (Ilp.symbolText symbols) →
    ∀ s ∈ symbols, Encodable s.2
  | [], _ => nofun
  | (_, _) :: _, h => by
      have hvalue := h.tail.right.tail
      exact List.forall_mem_cons.mpr ⟨hvalue.left.of_replaceIdentifier, of_symbolText hvalue.right⟩

/-- The texts of written fields. -/
theorem of_fieldText {F : Type} [PyFloat F] {fields : List (PyStr × FieldValue F)} {text : PyStr}
    (h : Ilp.FieldText fields text) (he : Encodable text) :
    ∀ f ∈ fields, ∀ s, f.2 = .str s → Encodable s := by
  induction h with
  | nil => exact nofun
  | cons hw _ ih =>
    have hvalue := he.tail.right.tail
    refine List.forall_mem_cons.mpr ⟨?_, ih hvalue.right⟩
    rintro s rfl
    cases hw with
    | plain hplain => cases hplain
    | str s => exact hvalue.left.tail.left.of_replaceString

end Encodable

namespace EventEnvelope

variable {e : EventEnvelope}

/-- **An event has a row exactly if no text of it has a lone surrogate.** -/
theorem toIlp_iff (table : Table) :
    (∃ row, e.toIlp table.name = .ok row) ↔ e.fields.SurrogateFree := by
  constructor
  · rintro ⟨bs, h⟩
    let row : Ilp.IlpRow Empty :=
      { table := table.name
        symbols := [(py "entity_id", some e.fields.entityId),
          (py "domain", some (domainOf e.fields.entityId))]
        fields := [(py "event_id", .str e.fields.eventId), (py "state", .str e.fields.state),
          (py "attributes", .str e.fields.attributesJson),
          (py "ingested_at", .timestamp (e.fields.ingestedAtNs / 1000)),
          (py "last_changed", .timestamp (e.fields.lastChangedNs / 1000)),
          (py "context_id", textOrNone e.fields.contextId)]
        timestampNs := e.fields.lastUpdatedNs }
    have hrow : row.encode = .ok bs := h
    obtain ⟨text, ⟨fields, hfields, rfl⟩, hbs⟩ := Ilp.IlpRow.encode_ok hrow
    have htext := Encodable.iff_isSome.mpr (by rw [hbs]; rfl)
    have hsymbols := Encodable.of_symbolText htext.right.left
    have htexts := Encodable.of_fieldText hfields
      ((Encodable.py (s := ",") (by decide)).append htext.right.right.tail.left)
    have hfield : ∀ (key : String) {s : PyStr}, (py key, FieldValue.str s) ∈ row.fields →
        Encodable s := fun _ _ hm => htexts _ (List.mem_filter.mpr ⟨hm, rfl⟩) _ rfl
    refine ⟨hfield "event_id" (by simp [row]), hsymbols (py "entity_id", _) ?_,
      hfield "state" (by simp [row]), hfield "attributes" (by simp [row]),
      fun t ht => hfield "context_id" ?_⟩
    · exact List.mem_filterMap.mpr ⟨(py "entity_id", some e.fields.entityId), by simp [row], rfl⟩
    · rw [Option.mem_def] at ht
      simp [row, ht, textOrNone]
  · intro hs
    obtain ⟨line, hline, henc⟩ := e.toIlp_text table
    obtain ⟨bs, hbs⟩ := Option.isSome_iff_exists.mp (Encodable.iff_isSome.mp (henc hs))
    exact ⟨bs, hline.trans (encodeUtf8_ok.mpr hbs)⟩

/-- What `to_ilp` raises is the error of the UTF-8 codec. -/
theorem toIlp_error {table : Table} {x : Exc} (h : e.toIlp table.name = .error x) :
    x.type = .unicodeEncodeError := by
  obtain ⟨line, hline, -⟩ := e.toIlp_text table
  rw [hline, encodeUtf8] at h
  split at h
  · cases h
  · cases h
    rfl

end EventEnvelope

end QuestDbWriter
