import QuestDbWriter.Options.Entry
import QuestDbWriter.Transport
import QuestDbWriter.Lib.Keyed
import QuestDbWriter.Lib.Separated
import QuestDbWriter.Lib.Transition

/-!
# The connection flows

`_async_connection_step` of `config_flow.py`, which the user flow, the reconfigure flow and the
reauth flow share, on the entries that Home Assistant stores. The identity of an entry is the
destination of its data (`_connection_unique_id`): two of the flows move it, and the third keeps it.
`str.lower()` is a parameter; no result depends on what it does.
-/

namespace QuestDbWriter

open Lib

/-! ## Entries -/

/-- A stored entry. -/
structure ConfigEntry where
  entryId : Nat
  uniqueId : PyStr
  title : PyStr
  data : EntryData
deriving DecidableEq

/-- The entries of the integration, and the next id that is free. -/
structure ConfigEntries where
  entries : List ConfigEntry
  nextId : Nat

namespace ConfigEntries

def empty : ConfigEntries := { entries := [], nextId := 0 }

/-- `_get_reconfigure_entry`, `_get_reauth_entry`. -/
def get (s : ConfigEntries) (entryId : Nat) : Option ConfigEntry :=
  s.entries.find? fun e => e.entryId = entryId

/-- `async_create_entry`. -/
def create (s : ConfigEntries) (uniqueId title : PyStr) (data : EntryData) : ConfigEntries where
  entries := s.entries ++ [{ entryId := s.nextId, uniqueId, title, data }]
  nextId := s.nextId + 1

/-- `async_update_reload_and_abort`, where a missing id leaves that of the entry. -/
def update (s : ConfigEntries) (entry : ConfigEntry) (data : EntryData) (uniqueId : Option PyStr) :
    ConfigEntries :=
  let updated := { entry with data, uniqueId := uniqueId.getD entry.uniqueId }
  { s with entries := replaceKey ConfigEntry.entryId updated s.entries }

end ConfigEntries

/-- `_connection_unique_id`. -/
def connectionUniqueId (lower : PyStr → PyStr) (data : EntryData) : PyStr :=
  py (if data.useTls then "https" else "http") ++ py "://" ++ lower data.host ++ py ":" ++
    natText data.port ++ py "/" ++ data.table

/-! ## A call of the step -/

/-- `self.source`, with the entry that the flow is for. -/
inductive FlowSource where
  | user
  | reconfigure (entryId : Nat)
  | reauth (entryId : Nat)
deriving DecidableEq

/-- How `_test_connection` ends. -/
inductive ProbeResult where
  | ok
  | error (e : IlpError)
  /-- Any other exception. -/
  | raised (e : Exc)

/-- The form of a step, with its defaults. -/
inductive ConnectionForm where
  /-- `_user_schema`. -/
  | connection (values : Option EntryData)
  /-- `_reauth_schema`. -/
  | credentials (username : Option PyStr)

/-- What a call of the step returns. -/
inductive FlowResult where
  | form (stepId : PyStr) (form : ConnectionForm) (error : Option PyStr)
  | abort (reason : PyStr)
  /-- The entry is stored, and the flow ends with that reason. -/
  | updated (reason : PyStr)
  | created (title : PyStr)
  | raised (e : Exc)

/-- The flow has stored an entry. -/
def FlowResult.stores : FlowResult → Bool
  | .updated _ | .created _ => true
  | _ => false

namespace FlowSource

/-- The step that a call is made for. -/
def stepId : FlowSource → PyStr
  | .user | .reconfigure _ => py "user"
  | .reauth _ => py "reauth_confirm"

/-- `_form_schema`. -/
def formSchema (source : FlowSource) (values : Option EntryData) : ConnectionForm :=
  match source with
  | .reauth _ => .credentials (values.bind (·.username))
  | _ => .connection values

end FlowSource

/-- A text, or `None` for an empty one. -/
def orNone (text : PyStr) : Option PyStr := if text = [] then none else some text

/-- The entered credential, or the stored one if nothing was entered. -/
def keepStored (entered stored : Option PyStr) : Option PyStr :=
  entered.orElse fun _ => stored.filter (· ≠ [])

/-- The input that the step works on: reauthentication takes the credentials only. -/
def effectiveInput (source : FlowSource) (sourceEntry : Option ConfigEntry) (input : EntryData) :
    EntryData :=
  match source, sourceEntry with
  | .reauth _, some entry =>
    { entry.data with
      username := some (input.username.getD []), password := some (input.password.getD []) }
  | _, _ => input

section
variable (lower : PyStr → PyStr)

/-- The end of the step, behind a connection test that passed. -/
def storeConnection (source : FlowSource) (sourceEntry : Option ConfigEntry) (newData : EntryData)
    (s : ConfigEntries) : FlowResult × ConfigEntries :=
  let uniqueId := connectionUniqueId lower newData
  match sourceEntry with
  | some entry =>
    match source with
    | .reauth _ => (.updated (py "reauth_successful"), s.update entry newData none)
    | _ =>
      if uniqueId ≠ entry.uniqueId then
        if s.entries.any fun other =>
            decide (other.entryId ≠ entry.entryId) && decide (other.uniqueId = uniqueId) then
          (.abort (py "already_configured"), s)
        else (.updated (py "reconfigure_successful"), s.update entry newData (some uniqueId))
      else (.updated (py "reconfigure_successful"), s.update entry newData none)
  | none =>
    if s.entries.any fun other => decide (other.uniqueId = uniqueId) then
      (.abort (py "already_configured"), s)
    else
      let title := py "QuestDB at " ++ newData.host
      (.created title, s.create uniqueId title newData)

/-- The step with an input. -/
def submitConnection (source : FlowSource) (sourceEntry : Option ConfigEntry)
    (userInput : EntryData)
    (probe : ProbeResult) (s : ConfigEntries) : FlowResult × ConfigEntries :=
  let input := effectiveInput source sourceEntry userInput
  let reject (error : PyStr) : FlowResult × ConfigEntries :=
    (.form source.stepId (source.formSchema (some input)) (some error), s)
  let host := strip input.host
  let table := strip input.table
  let existing := sourceEntry.map ConfigEntry.data
  let username := keepStored (orNone (strip (input.username.getD []))) (existing.bind (·.username))
  let password := keepStored (orNone (input.password.getD [])) (existing.bind (·.password))
  if host = [] ∨ table = [] then reject (py "invalid_connection")
  else
    match encodeUtf8 table with
    | .error e => (.raised e, s)
    | .ok encoded =>
      if 127 < encoded.length then reject (py "invalid_connection")
      else if username.isSome ≠ password.isSome then reject (py "invalid_auth_pair")
      else
        match probe with
        | .error e =>
          if e.kind = .authentication then reject (py "invalid_auth")
          else reject (py "cannot_connect")
        | .raised e => (.raised e, s)
        | .ok =>
          storeConnection lower source sourceEntry { input with host, table, username, password } s

/-- `UnknownEntry`. -/
def unknownEntry : Exc := { type := .other "UnknownEntry", message := [] }

/-- The entry that a flow is for. -/
def sourceEntry (s : ConfigEntries) : FlowSource → Except Exc (Option ConfigEntry)
  | .user => .ok none
  | .reconfigure entryId | .reauth entryId =>
    match s.get entryId with
    | some entry => .ok (some entry)
    | none => .error unknownEntry

/-- A call of the step: its flow, the submitted form, and how the connection test ends. -/
structure FlowCall where
  source : FlowSource
  userInput : Option EntryData
  probe : ProbeResult

/-- `_async_connection_step`. The awaited connection test is a part of the step: no other flow moves
while it runs. -/
def asyncConnectionStep (c : FlowCall) (s : ConfigEntries) : FlowResult × ConfigEntries :=
  match sourceEntry s c.source with
  | .error e => (.raised e, s)
  | .ok entry =>
    match c.userInput with
    | some userInput => submitConnection lower c.source entry userInput c.probe s
    | none =>
      let defaults := entry.map fun e => { e.data with password := some [] }
      (.form c.source.stepId (c.source.formSchema defaults) none, s)

/-- Home Assistant calls the step of a flow. -/
def flowStep (s : ConfigEntries) (c : FlowCall) : Option ConfigEntries :=
  some (asyncConnectionStep lower c s).2

end

/-! ## What a call stores -/

section
variable {lower : PyStr → PyStr} {s s' : ConfigEntries} {c : FlowCall} {entry : ConfigEntry}

theorem strip_strip (text : PyStr) : strip (strip text) = strip text :=
  Separated.trim_trim text

/-- The host and the table are stored without whitespace around them. -/
def EntryData.Stripped (data : EntryData) : Prop :=
  strip data.host = data.host ∧ strip data.table = data.table

/-- How a call ends: nothing is stored, or it is the data of a reauthentication, of an entry that
keeps its destination, of one that moves to a free one, or of a new one at a free destination. -/
inductive Stores (lower : PyStr → PyStr) (c : FlowCall) (s : ConfigEntries) :
    FlowResult × ConfigEntries → Prop
  | nothing (result : FlowResult) (h : result.stores = false) : Stores lower c s (result, s)
  | credentials (reason : PyStr) (entryId : Nat) (entry : ConfigEntry)
      (username password : Option PyStr) (hsource : c.source = .reauth entryId)
      (he : s.get entryId = some entry) :
      Stores lower c s (.updated reason, s.update entry
        { entry.data with
          host := strip entry.data.host, table := strip entry.data.table, username, password } none)
  | kept (reason : PyStr) (entryId : Nat) (entry : ConfigEntry) (data : EntryData)
      (hsource : c.source = .reconfigure entryId) (he : s.get entryId = some entry)
      (hdata : data.Stripped) (hid : connectionUniqueId lower data = entry.uniqueId) :
      Stores lower c s (.updated reason, s.update entry data none)
  | moved (reason : PyStr) (entryId : Nat) (entry : ConfigEntry) (data : EntryData)
      (hsource : c.source = .reconfigure entryId) (he : s.get entryId = some entry)
      (hdata : data.Stripped)
      (hfree : ∀ other ∈ s.entries, other.entryId ≠ entry.entryId →
        other.uniqueId ≠ connectionUniqueId lower data) :
      Stores lower c s
        (.updated reason, s.update entry data (some (connectionUniqueId lower data)))
  | added (title : PyStr) (data : EntryData) (hsource : c.source = .user) (hdata : data.Stripped)
      (hfree : ∀ other ∈ s.entries, other.uniqueId ≠ connectionUniqueId lower data) :
      Stores lower c s (.created title, s.create (connectionUniqueId lower data) title data)

/-- The entry that a flow is for is the one of its id. -/
theorem sourceEntry_ok {source : FlowSource} {found : Option ConfigEntry}
    (h : sourceEntry s source = .ok found) :
    source = .user ∧ found = none ∨ ∃ entryId entry, s.get entryId = some entry ∧
      found = some entry ∧ (source = .reconfigure entryId ∨ source = .reauth entryId) := by
  have hget : ∀ entryId, (match s.get entryId with
      | some entry => .ok (some entry)
      | none => .error unknownEntry : Except Exc (Option ConfigEntry)) = .ok found →
      ∃ entry, s.get entryId = some entry ∧ found = some entry := by
    intro entryId h
    split at h
    · next entry hentry => cases h; exact ⟨entry, hentry, rfl⟩
    · cases h
  cases source with
  | user => cases h; exact .inl ⟨rfl, rfl⟩
  | reconfigure entryId =>
    obtain ⟨entry, hentry, hfound⟩ := hget entryId h
    exact .inr ⟨entryId, entry, hentry, hfound, .inl rfl⟩
  | reauth entryId =>
    obtain ⟨entry, hentry, hfound⟩ := hget entryId h
    exact .inr ⟨entryId, entry, hentry, hfound, .inr rfl⟩

theorem storeConnection_stores {found : Option ConfigEntry}
    (hfound : sourceEntry s c.source = .ok found)
    (userInput : EntryData) (username password : Option PyStr) :
    Stores lower c s (storeConnection lower c.source found
      { effectiveInput c.source found userInput with
        host := strip (effectiveInput c.source found userInput).host
        table := strip (effectiveInput c.source found userInput).table
        username, password } s) := by
  unfold storeConnection
  dsimp only
  rcases sourceEntry_ok hfound with ⟨huser, rfl⟩ | ⟨entryId, entry, he, rfl, hsource | hsource⟩
  · dsimp only
    split
    · exact .nothing _ rfl
    · next hfree =>
      refine .added _ _ huser ⟨strip_strip _, strip_strip _⟩ fun other hmem hother => ?_
      exact hfree (List.any_eq_true.mpr ⟨other, hmem, decide_eq_true hother⟩)
  · rw [hsource]
    dsimp only
    split
    · next hmoves =>
      split
      · exact .nothing _ rfl
      · next hfree =>
        refine .moved _ entryId entry _ hsource he ⟨strip_strip _, strip_strip _⟩ ?_
        intro other hmem hne hother
        refine hfree (List.any_eq_true.mpr ⟨other, hmem, ?_⟩)
        rw [decide_eq_true hne, decide_eq_true hother]
        rfl
    · next hsame =>
      exact .kept _ entryId entry _ hsource he ⟨strip_strip _, strip_strip _⟩ (not_not.mp hsame)
  · rw [hsource]
    exact .credentials _ entryId entry _ _ hsource he

theorem asyncConnectionStep_stores (lower : PyStr → PyStr) (c : FlowCall) (s : ConfigEntries) :
    Stores lower c s (asyncConnectionStep lower c s) := by
  unfold asyncConnectionStep
  split
  · exact .nothing _ rfl
  · next found hfound =>
    split
    · next userInput _ =>
      unfold submitConnection
      dsimp only
      split
      · exact .nothing _ rfl
      · split
        · exact .nothing _ rfl
        · split
          · exact .nothing _ rfl
          · split
            · exact .nothing _ rfl
            · split
              · split <;> exact .nothing _ rfl
              · exact .nothing _ rfl
              · exact storeConnection_stores hfound userInput _ _
    · exact .nothing _ rfl

/-! ## Identities -/

/-- Every entry is identified by the destination of its data, and no two by the same. -/
structure Identified (lower : PyStr → PyStr) (s : ConfigEntries) : Prop where
  ids : (s.entries.map ConfigEntry.entryId).Nodup
  fresh : ∀ e ∈ s.entries, e.entryId < s.nextId
  distinct : (s.entries.map ConfigEntry.uniqueId).Nodup
  identity : ∀ e ∈ s.entries, e.uniqueId = connectionUniqueId lower e.data
  stripped : ∀ e ∈ s.entries, e.data.Stripped

namespace Identified

theorem empty : Identified lower .empty := ⟨.nil, nofun, .nil, nofun, nofun⟩

/-- An entry that is found is stored under that id. -/
theorem get_mem {entryId : Nat} (he : s.get entryId = some entry) :
    entry ∈ s.entries ∧ entry.entryId = entryId :=
  ⟨List.mem_of_find?_eq_some he, by simpa using List.find?_some he⟩

/-- An update keeps the identities where the new one is that of the new data, and is free. -/
theorem update (h : Identified lower s) (he : entry ∈ s.entries) {data : EntryData}
    {uniqueId : Option PyStr} (hdata : data.Stripped)
    (hid : uniqueId.getD entry.uniqueId = connectionUniqueId lower data)
    (hfree : ∀ other ∈ s.entries, other.entryId ≠ entry.entryId →
      other.uniqueId ≠ uniqueId.getD entry.uniqueId) :
    Identified lower (s.update entry data uniqueId) where
  ids := by
    unfold ConfigEntries.update
    dsimp only
    rw [map_replaceKey ConfigEntry.entryId fun _ _ hkey => hkey]
    exact h.ids
  fresh e hm := by
    rcases mem_replaceKey hm with rfl | ⟨hm, -⟩
    · exact h.fresh entry he
    · exact h.fresh e hm
  distinct := nodup_replaceKey h.ids h.distinct hfree
  identity e hm := by
    rcases mem_replaceKey hm with rfl | ⟨hm, -⟩
    · exact hid
    · exact h.identity e hm
  stripped e hm := by
    rcases mem_replaceKey hm with rfl | ⟨hm, -⟩
    · exact hdata
    · exact h.stripped e hm

/-- No other entry has the identity of an entry. -/
theorem others (h : Identified lower s) (he : entry ∈ s.entries) :
    ∀ other ∈ s.entries, other.entryId ≠ entry.entryId → other.uniqueId ≠ entry.uniqueId :=
  fun _ hm hne hid => hne (congrArg _ (eq_of_key h.distinct hm he hid))

theorem create (h : Identified lower s) {data : EntryData} (title : PyStr) (hdata : data.Stripped)
    (hfree : ∀ other ∈ s.entries, other.uniqueId ≠ connectionUniqueId lower data) :
    Identified lower (s.create (connectionUniqueId lower data) title data) where
  ids := by
    unfold ConfigEntries.create
    rw [List.map_append, List.map_singleton, List.nodup_append]
    refine ⟨h.ids, List.nodup_singleton _, fun a ha b hb => ?_⟩
    obtain ⟨e, he, rfl⟩ := List.mem_map.mp ha
    rw [List.mem_singleton.mp hb]
    exact Nat.ne_of_lt (h.fresh e he)
  fresh e hm := by
    rcases List.mem_append.mp hm with hm | hm
    · exact Nat.lt_succ_of_lt (h.fresh e hm)
    · rw [List.mem_singleton.mp hm]
      exact Nat.lt_succ_self _
  distinct := by
    unfold ConfigEntries.create
    rw [List.map_append, List.map_singleton, List.nodup_append]
    refine ⟨h.distinct, List.nodup_singleton _, fun a ha b hb => ?_⟩
    obtain ⟨e, he, rfl⟩ := List.mem_map.mp ha
    rw [List.mem_singleton.mp hb]
    exact hfree e he
  identity e hm := by
    rcases List.mem_append.mp hm with hm | hm
    · exact h.identity e hm
    · rw [List.mem_singleton.mp hm]
  stripped e hm := by
    rcases List.mem_append.mp hm with hm | hm
    · exact h.stripped e hm
    · rw [List.mem_singleton.mp hm]
      exact hdata

/-- The destination of stored data is that of the data with its texts stripped again. -/
theorem credentials_id (h : Identified lower s) (he : entry ∈ s.entries)
    (username password : Option PyStr) :
    connectionUniqueId lower { entry.data with
      host := strip entry.data.host, table := strip entry.data.table, username, password } =
      entry.uniqueId := by
  obtain ⟨hhost, htable⟩ := h.stripped entry he
  rw [h.identity entry he, hhost, htable]
  rfl

/-- **A call keeps the identities**, by cases on what it stores. -/
theorem stepped (h : Identified lower s) (c : FlowCall) :
    Identified lower (asyncConnectionStep lower c s).2 := by
  have hstores := asyncConnectionStep_stores lower c s
  generalize asyncConnectionStep lower c s = result at hstores
  cases hstores with
  | nothing => exact h
  | credentials reason entryId entry username password _ he =>
    have hm := (get_mem he).1
    exact h.update hm ⟨strip_strip _, strip_strip _⟩ (h.credentials_id hm username password).symm
      (h.others hm)
  | kept reason entryId entry data _ he hdata hid =>
    have hm := (get_mem he).1
    exact h.update hm hdata hid.symm (h.others hm)
  | moved reason entryId entry data _ he hdata hfree =>
    exact h.update (get_mem he).1 hdata rfl hfree
  | added title data _ hdata hfree => exact h.create title hdata hfree

end Identified

/-- The entry and its destination: everything but its title and its credentials. -/
def ConfigEntry.destination (e : ConfigEntry) : Nat × PyStr × PyStr × Nat × PyStr × Bool × Bool :=
  (e.entryId, e.uniqueId, e.data.host, e.data.port, e.data.table, e.data.useTls,
    e.data.tlsSelfSigned)

/-- A reauthentication moves no entry. -/
theorem Identified.reauth_destination (h : Identified lower s) (c : FlowCall) {entryId : Nat}
    (hsource : c.source = .reauth entryId) :
    (asyncConnectionStep lower c s).2.entries.map ConfigEntry.destination =
      s.entries.map ConfigEntry.destination := by
  have hstores := asyncConnectionStep_stores lower c s
  generalize asyncConnectionStep lower c s = result at hstores
  cases hstores with
  | nothing => rfl
  | credentials reason entryId entry username password _ he =>
    have hm := (get_mem he).1
    obtain ⟨hhost, htable⟩ := h.stripped entry hm
    refine map_replaceKey ConfigEntry.destination fun a ha hkey => ?_
    rw [eq_of_key h.ids ha hm hkey]
    simp [ConfigEntry.destination, hhost, htable]
  | kept _ _ _ _ hreconfigure => cases hsource.symm.trans hreconfigure
  | moved _ _ _ _ hreconfigure => cases hsource.symm.trans hreconfigure
  | added _ _ huser => cases hsource.symm.trans huser

/-- A call that does not store an entry changes none. -/
theorem unstored (lower : PyStr → PyStr) (c : FlowCall) (s : ConfigEntries)
    (h : (asyncConnectionStep lower c s).1.stores = false) :
    (asyncConnectionStep lower c s).2 = s := by
  have hstores := asyncConnectionStep_stores lower c s
  generalize asyncConnectionStep lower c s = result at h hstores
  cases hstores with
  | nothing => rfl
  | _ => cases h

end

/-- **The identities hold across the flows.** Behind every sequence of calls, from no entries on:
the entries have pairwise distinct unique ids, each that of its data; a reauthentication changes
nothing but credentials; and a call that does not store an entry changes none. -/
theorem flows_identified (lower : PyStr → PyStr) (s : ConfigEntries)
    (hrun : Steps (flowStep lower) (fun _ _ => True) .empty s) :
    (s.entries.map ConfigEntry.uniqueId).Nodup ∧
      (∀ e ∈ s.entries, e.uniqueId = connectionUniqueId lower e.data) ∧
      (∀ (c : FlowCall) (entryId : Nat), c.source = .reauth entryId →
        (asyncConnectionStep lower c s).2.entries.map ConfigEntry.destination =
          s.entries.map ConfigEntry.destination) ∧
      ∀ c : FlowCall, (asyncConnectionStep lower c s).1.stores = false →
        (asyncConnectionStep lower c s).2 = s := by
  have hidentified : Identified lower s := by
    refine hrun.invariant .empty fun t c t' h _ hs => ?_
    cases hs
    exact h.stepped c
  refine ⟨hidentified.distinct, hidentified.identity, ?_, ?_⟩
  · exact fun c entryId hsource => hidentified.reauth_destination c hsource
  · exact fun c hstores => unstored lower c s hstores

/-- `str.lower()` of ASCII texts. -/
def asciiLower (text : PyStr) : PyStr :=
  text.map fun c => if 65 ≤ c.val ∧ c.val ≤ 90 then Fin.ofNat 0x110000 (c.val + 32) else c

/-- A form without credentials. -/
def plainForm (host table : PyStr) : EntryData where
  host
  port := 9000
  table
  useTls := false
  tlsSelfSigned := false
  username := some []
  password := some []

/-- Two entries are added; the first moves, the second takes its old place, and the first is
reauthenticated. -/
def movingFlows : List FlowCall :=
  [⟨.user, some (plainForm (py " QuestDB ") (py "hass")), .ok⟩,
    ⟨.user, some (plainForm (py "questdb") (py "hass")), .ok⟩,
    ⟨.user, some (plainForm (py "backup") (py "hass")), .ok⟩,
    ⟨.reconfigure 0, some (plainForm (py "backup") (py "hass")), .ok⟩,
    ⟨.reconfigure 0, some (plainForm (py "questdb") (py "events")), .ok⟩,
    ⟨.reconfigure 1, some (plainForm (py "questdb") (py "hass")), .ok⟩,
    ⟨.reauth 0, some { plainForm (py "other") (py "other") with
      username := some (py "admin"), password := some (py "secret") }, .ok⟩]

/-- The second entry has the old identity of the first, and the two are distinct. -/
theorem movingFlows_identified : ∃ s : ConfigEntries,
    exec (flowStep asciiLower) movingFlows .empty = some s ∧
      s.entries.map ConfigEntry.uniqueId =
        [py "http://questdb:9000/events", py "http://questdb:9000/hass"] ∧
      (s.entries.map ConfigEntry.uniqueId).Nodup := by
  have hrun : ((exec (flowStep asciiLower) movingFlows .empty).any fun s =>
      decide (s.entries.map ConfigEntry.uniqueId =
        [py "http://questdb:9000/events", py "http://questdb:9000/hass"])) = true := by
    decide +kernel
  obtain ⟨s, hs, hids⟩ := (Option.any_eq_true _ _).mp hrun
  exact ⟨s, hs, of_decide_eq_true hids, (flows_identified asciiLower s (.of_exec hs)).1⟩

end QuestDbWriter
