import QuestDbWriter.Spool.Operations
import QuestDbWriter.Lib.Keyed

/-!
# The invariant of the spool's database, and what each statement does under it

`Database.Coherent` is the representation invariant: the counters are the row counts and the
payload-byte sums of the tables, keys grow in insertion order, and no event id and no sequence is
in both tables. Each statement gets one lemma that says what it does where the counters are right
(`Database.Counted`), in terms of the four changes of the tables: `appended`, `removed`, `evicted`
and `buried`.
-/

namespace QuestDbWriter

open Lib

namespace Database

/-- The counters, where there is a row of them, are the counts of the tables. -/
def Counted (db : Database) : Prop := ∀ s, db.spoolStats = some s → s = Sql.counts db

/-- The database with its counters set to the counts of its tables. -/
def recounted (db : Database) : Database :=
  { db with spoolStats := db.spoolStats.map fun _ => Sql.counts db }

/-- Recounting leaves the pending rows. -/
@[simp] theorem recounted_pending (db : Database) : db.recounted.pending = db.pending := rfl

/-- Recounting leaves the dead letters. -/
@[simp] theorem recounted_deadLetter (db : Database) :
    db.recounted.deadLetter = db.deadLetter := rfl

/-- Recounting leaves the last key of a pending row. -/
@[simp] theorem recounted_pendingSeq (db : Database) :
    db.recounted.pendingSeq = db.pendingSeq := rfl

/-- Recounting leaves the last key of a dead letter. -/
@[simp] theorem recounted_deadLetterSeq (db : Database) :
    db.recounted.deadLetterSeq = db.deadLetterSeq := rfl

/-- Recounting leaves the version of the schema. -/
@[simp] theorem recounted_userVersion (db : Database) :
    db.recounted.userVersion = db.userVersion := rfl

/-- Recounting leaves the row of the counters where it is. -/
@[simp] theorem recounted_isSome (db : Database) :
    db.recounted.spoolStats.isSome = db.spoolStats.isSome := by simp [recounted]

/-- Recounted counters count. -/
theorem recounted_counted (db : Database) : db.recounted.Counted := by
  intro s h
  obtain ⟨_, _, rfl⟩ := Option.map_eq_some_iff.mp h
  rfl

/-- Counters that count are those recounted. -/
theorem Counted.recounted_eq {db : Database} (h : db.Counted) : db.recounted = db := by
  have hs : db.spoolStats.map (fun _ => Sql.counts db) = db.spoolStats := by
    cases hst : db.spoolStats with
    | none => rfl
    | some s => rw [Option.map_some, h s hst]
  rw [recounted, hs]

/-- The pending row of an event inserted with the key `sequence`. -/
def newRow (sequence : Int) (e : NewSpoolEvent) : SpoolRecord :=
  { sequence, eventId := e.eventId, payload := e.payload, createdNs := e.createdNs,
    attemptCount := 0, lastError := none, deliveryUncertain := false }

/-- An event inserted into `pending`. -/
def appended (db : Database) (e : NewSpoolEvent) : Database :=
  recounted { db with pending := db.pending ++ [newRow (db.pendingSeq + 1) e],
                      pendingSeq := db.pendingSeq + 1 }

/-- The row of a sequence deleted from `pending`. -/
def removed (db : Database) (sequence : Int) : Database :=
  recounted { db with pending := db.pending.filter (·.sequence ≠ sequence) }

/-- One attempt recorded on the row of a sequence. -/
def attempted (db : Database) (lastError : PyStr) (deliveryUncertain : Bool) (sequence : Int) :
    Database :=
  { db with pending := db.pending.map fun r =>
      if r.sequence = sequence then Sql.attempted lastError deliveryUncertain r else r }

/-- The dead letters replaced by a part of them. -/
def evictedTo (db : Database) (deadLetter : List DeadLetterRecord) : Database :=
  recounted { db with deadLetter }

/-- A row inserted into `dead_letter`. -/
def buried (db : Database) (row : DeadLetterRecord) : Database :=
  recounted { db with
    deadLetter := db.deadLetter ++ [{ row with deadLetterId := db.deadLetterSeq + 1 }],
    deadLetterSeq := db.deadLetterSeq + 1 }

/-- What `INSERT INTO pending` accepts as the values of a row. -/
structure Storable (eventId : PyStr) (payload : Bytes) (createdNs : Int) : Prop where
  encodable : (Utf8.encode eventId).isSome
  nonempty : 0 < sqlLength eventId
  payload_ne : payload ≠ []
  created_ge : sqliteIntegerMin ≤ createdNs
  created_le : createdNs ≤ sqliteIntegerMax

/-- **The representation invariant of the spool.** -/
structure Coherent (db : Database) : Prop where
  counted : db.Counted
  version : db.userVersion = 0 ∨ db.userVersion = schemaVersion
  /-- Pending rows are in insertion order, and their keys grow with it. -/
  pendingSorted : (db.pending.map (·.sequence)).Pairwise (· < ·)
  /-- No key was assigned after the last assigned one. -/
  pendingKeys : ∀ r ∈ db.pending, 0 < r.sequence ∧ r.sequence ≤ db.pendingSeq
  deadKeys : ∀ d ∈ db.deadLetter, d.originalSequence ≤ db.pendingSeq
  pendingSeq_nonneg : 0 ≤ db.pendingSeq
  pendingSeq_le : db.pendingSeq ≤ sqliteIntegerMax
  deadSorted : (db.deadLetter.map (·.deadLetterId)).Pairwise (· < ·)
  deadIds : ∀ d ∈ db.deadLetter, 0 < d.deadLetterId ∧ d.deadLetterId ≤ db.deadLetterSeq
  deadLetterSeq_nonneg : 0 ≤ db.deadLetterSeq
  deadLetterSeq_le : db.deadLetterSeq ≤ sqliteIntegerMax
  /-- No event id occurs twice, in one table or in both. -/
  ids : (db.pending.map (·.eventId) ++ db.deadLetter.map (·.eventId)).Nodup
  /-- No sequence occurs twice, in one table or in both. -/
  sequences : (db.pending.map (·.sequence) ++ db.deadLetter.map (·.originalSequence)).Nodup
  storable : ∀ r ∈ db.pending, Storable r.eventId r.payload r.createdNs

/-- An empty file is coherent. -/
theorem fresh_coherent : fresh.Coherent := by
  constructor <;> simp [fresh, Counted, sqliteIntegerMax]

namespace Coherent

variable {db : Database}

/-- No two pending rows have one key. -/
theorem pendingNodup (h : db.Coherent) : (db.pending.map (·.sequence)).Nodup :=
  (List.nodup_append.mp h.sequences).1

/-- No two dead letters have one key. -/
theorem deadNodup (h : db.Coherent) : (db.deadLetter.map (·.deadLetterId)).Nodup :=
  h.deadSorted.imp fun hlt => ne_of_lt hlt

/-- A pending key is one that SQLite can bind. -/
theorem key_range (h : db.Coherent) {r : SpoolRecord} (hr : r ∈ db.pending) :
    sqliteIntegerMin ≤ r.sequence ∧ r.sequence ≤ sqliteIntegerMax := by
  have := h.pendingKeys r hr
  have := h.pendingSeq_le
  simp only [sqliteIntegerMin]
  omega

/-- The key of a dead letter is one that SQLite stores. -/
theorem deadId_range (h : db.Coherent) {d : DeadLetterRecord} (hd : d ∈ db.deadLetter) :
    sqliteIntegerMin ≤ d.deadLetterId ∧ d.deadLetterId ≤ sqliteIntegerMax := by
  have := h.deadIds d hd
  have := h.deadLetterSeq_le
  simp only [sqliteIntegerMin]
  omega

end Coherent

end Database

open Database

/-! ## Checks and bindings -/

/-- A text with UTF-8 bytes is bound. -/
theorem bindText_eq {s : PyStr} (h : (Utf8.encode s).isSome) : bindText s = .ok () := by
  obtain ⟨bs, hbs⟩ := Option.isSome_iff_exists.mp h
  simp [bindText, encodeUtf8, hbs, Except.map]

/-- An integer of 64 bits is bound. -/
theorem bindInteger_eq {n : Int} (h : sqliteIntegerMin ≤ n ∧ n ≤ sqliteIntegerMax) :
    bindInteger n = .ok () := by
  rw [bindInteger, raiseUnless, if_pos h]

/-- An integer of more than 64 bits cannot be bound. -/
theorem bindInteger_error {n : Int} (h : ¬ (sqliteIntegerMin ≤ n ∧ n ≤ sqliteIntegerMax)) :
    bindInteger n = .error
      { type := .overflowError,
        message := py "Python int too large to convert to SQLite INTEGER" } := by
  rw [bindInteger, raiseUnless, if_neg h]

/-- The exception is not a violated UNIQUE constraint. -/
def NotUnique (e : Exc) : Prop := ∀ column, e.cause ≠ some (.unique column)

/-- Binding a text is no clash of keys. -/
theorem bindText_raises (s : PyStr) : RaisesOnly NotUnique (bindText s) := by
  intro e h
  unfold bindText encodeUtf8 at h
  split at h <;> cases h
  simp [NotUnique]

/-- Binding an integer is no clash of keys. -/
theorem bindInteger_raises (n : Int) : RaisesOnly NotUnique (bindInteger n) :=
  .raiseUnless fun _ => by simp [NotUnique]

/-- A failed check of the schema is no clash of keys. -/
theorem requireCheck_raises {column : String} (p : Prop) [Decidable p] :
    RaisesOnly NotUnique (requireCheck column p) :=
  .raiseUnless fun _ => by simp [NotUnique, checkViolation]

/-- Running out of keys is no clash of keys. -/
theorem nextKey_raises (seq : Int) : RaisesOnly NotUnique (nextKey seq) := by
  intro e h
  unfold nextKey at h
  split at h <;> cases h
  simp [NotUnique, storageFailure]

/-- Updating the counters is no clash of keys. -/
theorem updateStats_raises (change : SpoolStats → SpoolStats) (db : Database) :
    RaisesOnly NotUnique (updateStats change db) := by
  unfold updateStats
  split
  · exact .pure _
  · exact (requireCheck_raises _).bind fun _ _ => (requireCheck_raises _).bind fun _ _ =>
      (requireCheck_raises _).bind fun _ _ => (requireCheck_raises _).bind fun _ _ => .pure _

/-- The triggers keep the counters right. -/
theorem updateStats_counted (change : SpoolStats → SpoolStats) {db : Database} (db' : Database)
    (h : db.Counted) (hs : db'.spoolStats = db.spoolStats)
    (hc : change (Sql.counts db) = Sql.counts db') :
    updateStats change db' = .ok db'.recounted := by
  cases hst : db.spoolStats with
  | none =>
      have hst' := hs.trans hst
      simp only [updateStats, recounted, hst', Option.map_none]
      rw [← hst']
  | some s =>
      have hst' := hs.trans hst
      rw [h s hst] at hst'
      simp only [updateStats, recounted, hst', hc, Option.map_some]
      simp [requireCheck, raiseUnless, Sql.counts, bind, Except.bind]

/-! ## Statements on `pending` -/

section
variable {db : Database}

/-- The trigger counts an inserted row. -/
theorem counts_appended (e : NewSpoolEvent) (row : SpoolRecord) (seq : Int)
    (h : row.payload = e.payload) :
    countPending 1 e.payload (Sql.counts db) =
      Sql.counts { db with pending := db.pending ++ [row], pendingSeq := seq } := by
  simp [countPending, Sql.counts, Sql.rowBytes, h]

/-- An event whose id is not pending is appended. -/
theorem insertPending_eq {e : NewSpoolEvent} (hc : db.Counted)
    (hs : Storable e.eventId e.payload e.createdNs)
    (hid : e.eventId ∉ db.pending.map (·.eventId)) (hk : db.pendingSeq < sqliteIntegerMax) :
    Sql.insertPending e db = .ok ((), db.appended e) := by
  have hstats := updateStats_counted (countPending 1 e.payload)
    { db with pending := db.pending ++ [newRow (db.pendingSeq + 1) e],
              pendingSeq := db.pendingSeq + 1 }
    hc rfl (counts_appended e _ _ rfl)
  have hp : 0 < e.payload.length := List.length_pos_of_ne_nil hs.payload_ne
  simp only [newRow] at hstats
  simp [Sql.insertPending, bindText_eq hs.encodable, bindInteger_eq ⟨hs.created_ge, hs.created_le⟩,
    nextKey, hk, requireCheck, requireUnique, raiseUnless, hs.nonempty, hp, hid, hstats, bind,
    Except.bind, pure, Except.pure, appended, newRow]

/-- With every key assigned, an insert fails with SQLITE_FULL. -/
theorem insertPending_full {e : NewSpoolEvent} (hs : Storable e.eventId e.payload e.createdNs)
    (hk : ¬ db.pendingSeq < sqliteIntegerMax) :
    Sql.insertPending e db = .error (storageFailure (some 13)) := by
  simp [Sql.insertPending, bindText_eq hs.encodable, bindInteger_eq ⟨hs.created_ge, hs.created_le⟩,
    nextKey, hk, bind, Except.bind]

/-- The trigger uncounts a deleted row. -/
theorem counts_removed (hn : (db.pending.map (·.sequence)).Nodup) {r : SpoolRecord}
    (hr : r ∈ db.pending) :
    countPending (-1) r.payload (Sql.counts db) =
      Sql.counts { db with pending := db.pending.filter (·.sequence ≠ r.sequence) } := by
  have hl := length_filter_key hn hr
  have hb := sum_filter_key hn hr (fun r : SpoolRecord => r.payload.length)
  simp only [countPending, Sql.counts, Sql.rowBytes, SpoolStats.mk.injEq, and_true]
  constructor <;> omega

/-- A pending row is deleted by its sequence. -/
theorem deletePending_eq (hc : db.Counted) (hn : (db.pending.map (·.sequence)).Nodup)
    {r : SpoolRecord} (hr : r ∈ db.pending)
    (hrange : sqliteIntegerMin ≤ r.sequence ∧ r.sequence ≤ sqliteIntegerMax) :
    Sql.deletePending r.sequence db = .ok (1, db.removed r.sequence) := by
  have hstats := updateStats_counted (countPending (-1) r.payload)
    { db with pending := db.pending.filter (·.sequence ≠ r.sequence) }
    hc rfl (counts_removed hn hr)
  simp only [Sql.deletePending, bindInteger_eq hrange, find?_key hn hr, hstats, bind, Except.bind,
    pure, Except.pure, removed]

/-- A sequence that is not pending deletes nothing. -/
theorem deletePending_absent {s : Int} (hs : s ∉ db.pending.map (·.sequence))
    (hrange : sqliteIntegerMin ≤ s ∧ s ≤ sqliteIntegerMax) :
    Sql.deletePending s db = .ok (0, db) := by
  simp only [Sql.deletePending, bindInteger_eq hrange, find?_no_key hs, bind, Except.bind, pure,
    Except.pure]

/-- An attempt is recorded on a pending row. -/
theorem updateAttempt_eq (hn : (db.pending.map (·.sequence)).Nodup) {text : PyStr} (flag : Bool)
    (ht : (Utf8.encode text).isSome) {r : SpoolRecord} (hr : r ∈ db.pending)
    (hrange : sqliteIntegerMin ≤ r.sequence ∧ r.sequence ≤ sqliteIntegerMax) :
    Sql.updateAttempt text flag r.sequence db = .ok (1, db.attempted text flag r.sequence) := by
  simp only [Sql.updateAttempt, bindText_eq ht, bindInteger_eq hrange, find?_key hn hr, bind,
    Except.bind, pure, Except.pure, attempted, Option.isSome_some, if_true]

/-- A sequence that is not pending records nothing. -/
theorem updateAttempt_absent {text : PyStr} (flag : Bool) (ht : (Utf8.encode text).isSome)
    {s : Int} (hs : s ∉ db.pending.map (·.sequence))
    (hrange : sqliteIntegerMin ≤ s ∧ s ≤ sqliteIntegerMax) :
    Sql.updateAttempt text flag s db = .ok (0, db) := by
  have hmap : (db.pending.map fun r =>
      if r.sequence = s then Sql.attempted text flag r else r) = db.pending := by
    rw [List.map_congr_left (g := id), List.map_id]
    intro r hr
    have : r.sequence ≠ s := fun h => hs (List.mem_map.mpr ⟨r, hr, h⟩)
    simp [this]
  simp [Sql.updateAttempt, bindText_eq ht, bindInteger_eq hrange, find?_no_key hs, hmap, bind,
    Except.bind, pure, Except.pure]

/-! ## Statements on `dead_letter` -/

/-- The trigger uncounts an evicted dead letter. -/
theorem counts_evicted {d : DeadLetterRecord} {rest : List DeadLetterRecord}
    (h : db.deadLetter.Perm (d :: rest)) :
    countDeadLetter (-1) d.payload (Sql.counts db) =
      Sql.counts { db with deadLetter := rest } := by
  have hl := h.length_eq
  have hb := (h.map fun d : DeadLetterRecord => d.payload.length).sum_nat
  simp only [List.length_cons, List.map_cons, List.sum_cons] at hl hb
  simp only [countDeadLetter, Sql.counts, Sql.deadBytes, SpoolStats.mk.injEq, true_and]
  constructor <;> omega

/-- A dead letter is deleted by a key that no other dead letter has. -/
theorem deleteDeadLetterBy_eq (key : DeadLetterRecord → Int) (hc : db.Counted)
    (hn : (db.deadLetter.map key).Nodup) {d : DeadLetterRecord} (hd : d ∈ db.deadLetter)
    (hrange : sqliteIntegerMin ≤ key d ∧ key d ≤ sqliteIntegerMax) :
    Sql.deleteDeadLetterBy key (key d) db =
      .ok (1, db.evictedTo (db.deadLetter.filter fun c => key c ≠ key d)) := by
  have hstats := updateStats_counted (countDeadLetter (-1) d.payload)
    { db with deadLetter := db.deadLetter.filter fun c => key c ≠ key d }
    hc rfl (counts_evicted (cons_filter_perm hn hd).symm)
  simp only [Sql.deleteDeadLetterBy, bindInteger_eq hrange, find?_key hn hd, hstats, bind,
    Except.bind, pure, Except.pure, evictedTo]

/-- A key that no dead letter has deletes nothing. -/
theorem deleteDeadLetterBy_absent {key : DeadLetterRecord → Int} {k : Int}
    (hk : k ∉ db.deadLetter.map key)
    (hrange : sqliteIntegerMin ≤ k ∧ k ≤ sqliteIntegerMax) :
    Sql.deleteDeadLetterBy key k db = .ok (0, db) := by
  simp only [Sql.deleteDeadLetterBy, bindInteger_eq hrange, find?_no_key hk, bind, Except.bind,
    pure, Except.pure]

/-- The trigger counts a new dead letter. -/
theorem counts_buried (row row' : DeadLetterRecord) (seq : Int) (h : row'.payload = row.payload) :
    countDeadLetter 1 row.payload (Sql.counts db) =
      Sql.counts { db with deadLetter := db.deadLetter ++ [row'], deadLetterSeq := seq } := by
  simp [countDeadLetter, Sql.counts, Sql.deadBytes, h]

/-- A row whose event and sequence are not in `dead_letter` is appended there. -/
theorem insertDeadLetter_eq {row : DeadLetterRecord} (hc : db.Counted)
    (hs : Storable row.eventId row.payload row.createdNs)
    (hfailed : sqliteIntegerMin ≤ row.failedNs ∧ row.failedNs ≤ sqliteIntegerMax)
    (htext : (Utf8.encode row.lastError).isSome) (hlen : 0 < sqlLength row.lastError)
    (hattempts : 0 < row.attemptCount)
    (hseq : row.originalSequence ∉ db.deadLetter.map (·.originalSequence))
    (hid : row.eventId ∉ db.deadLetter.map (·.eventId))
    (hk : db.deadLetterSeq < sqliteIntegerMax) :
    Sql.insertDeadLetter row db = .ok ((), db.buried row) := by
  have hstats := updateStats_counted (countDeadLetter 1 row.payload)
    { db with
      deadLetter := db.deadLetter ++ [{ row with deadLetterId := db.deadLetterSeq + 1 }],
      deadLetterSeq := db.deadLetterSeq + 1 }
    hc rfl (counts_buried row _ _ rfl)
  have hp : 0 < row.payload.length := List.length_pos_of_ne_nil hs.payload_ne
  simp [Sql.insertDeadLetter, bindText_eq hs.encodable,
    bindInteger_eq ⟨hs.created_ge, hs.created_le⟩, bindInteger_eq hfailed, bindText_eq htext,
    nextKey, hk, requireCheck, requireUnique, raiseUnless, hs.nonempty, hp, hattempts, hlen, hseq,
    hid, hstats, bind, Except.bind, pure, Except.pure, buried]

/-- What an insert into `dead_letter` raises for a row whose event and sequence are not there is
never a violated UNIQUE constraint. -/
theorem insertDeadLetter_raises {row : DeadLetterRecord}
    (hseq : row.originalSequence ∉ db.deadLetter.map (·.originalSequence))
    (hid : row.eventId ∉ db.deadLetter.map (·.eventId)) :
    RaisesOnly NotUnique (Sql.insertDeadLetter row db) := by
  refine (bindText_raises _).bind fun _ _ => (bindInteger_raises _).bind fun _ _ =>
    (bindInteger_raises _).bind fun _ _ => (bindText_raises _).bind fun _ _ =>
    (nextKey_raises _).bind fun _ _ => (requireCheck_raises _).bind fun _ _ =>
    (requireCheck_raises _).bind fun _ _ => (requireCheck_raises _).bind fun _ _ =>
    (requireCheck_raises _).bind fun _ _ => ?_
  refine RaisesOnly.bind (.raiseUnless fun h => absurd hseq h) fun _ _ => ?_
  refine RaisesOnly.bind (.raiseUnless fun h => absurd hid h) fun _ _ => ?_
  exact (updateStats_raises _ _).bind fun _ _ => .pure _

/-! ## Statements on both tables -/

/-- An id is stored in neither table. -/
def Unused (db : Database) (eventId : PyStr) : Prop :=
  eventId ∉ db.pending.map (·.eventId) ∧ eventId ∉ db.deadLetter.map (·.eventId)

/-- An event that is not stored is unused. -/
theorem stored_eq_none {eventId : PyStr} : Sql.stored eventId db = none ↔ Unused db eventId := by
  simp [Sql.stored, Unused]

/-- An event id with UTF-8 bytes is looked up. -/
theorem selectStored_eq {eventId : PyStr} (h : (Utf8.encode eventId).isSome) :
    Sql.selectStored eventId db = .ok (Sql.stored eventId db, db) := by
  simp [Sql.selectStored, bindText_eq h, bind, Except.bind, pure, Except.pure]

/-- **The overlap check on opening finds nothing.** -/
theorem overlap_eq_false (h : db.Coherent) : Sql.overlap db = false := by
  simp only [Sql.overlap, List.any_eq_false]
  intro p hp
  rw [Bool.not_eq_true, List.any_eq_false]
  intro d hd
  have hids := (List.nodup_append.mp h.ids).2.2
  have hseqs := (List.nodup_append.mp h.sequences).2.2
  simpa using ⟨hids _ (List.mem_map_of_mem hp) _ (List.mem_map_of_mem hd),
    hseqs _ (List.mem_map_of_mem hp) _ (List.mem_map_of_mem hd)⟩

end

/-! ## The changes keep the invariant -/

namespace Database

section
variable {db : Database}

/-- An inserted row is the last one. -/
@[simp] theorem appended_pending (e : NewSpoolEvent) :
    (db.appended e).pending = db.pending ++ [newRow (db.pendingSeq + 1) e] := rfl

/-- Inserting leaves the dead letters. -/
@[simp] theorem appended_deadLetter (e : NewSpoolEvent) :
    (db.appended e).deadLetter = db.deadLetter := rfl

/-- Inserting uses the next key. -/
@[simp] theorem appended_pendingSeq (e : NewSpoolEvent) :
    (db.appended e).pendingSeq = db.pendingSeq + 1 := rfl

/-- A deleted row is gone from the pending ones. -/
@[simp] theorem removed_pending (s : Int) :
    (db.removed s).pending = db.pending.filter (·.sequence ≠ s) := rfl

/-- Deleting a pending row leaves the dead letters. -/
@[simp] theorem removed_deadLetter (s : Int) : (db.removed s).deadLetter = db.deadLetter := rfl

/-- Deleting leaves the last key of a pending row. -/
@[simp] theorem removed_pendingSeq (s : Int) : (db.removed s).pendingSeq = db.pendingSeq := rfl

/-- Evicting leaves the pending rows. -/
@[simp] theorem evictedTo_pending (rest : List DeadLetterRecord) :
    (db.evictedTo rest).pending = db.pending := rfl

/-- Evicting leaves the given dead letters. -/
@[simp] theorem evictedTo_deadLetter (rest : List DeadLetterRecord) :
    (db.evictedTo rest).deadLetter = rest := rfl

/-- Evicting leaves the last key of a pending row. -/
@[simp] theorem evictedTo_pendingSeq (rest : List DeadLetterRecord) :
    (db.evictedTo rest).pendingSeq = db.pendingSeq := rfl

/-- Evicting leaves the last key of a dead letter. -/
@[simp] theorem evictedTo_deadLetterSeq (rest : List DeadLetterRecord) :
    (db.evictedTo rest).deadLetterSeq = db.deadLetterSeq := rfl

/-- A new dead letter leaves the pending rows. -/
@[simp] theorem buried_pending (row : DeadLetterRecord) :
    (db.buried row).pending = db.pending := rfl

/-- A pending row moved: inserted into `dead_letter` as `row` and deleted from `pending`. -/
def moved (db : Database) (row : DeadLetterRecord) : Database :=
  (db.buried row).removed row.originalSequence

/-- The spool has been opened: the row of the counters is there. -/
def Opened (db : Database) : Prop := db.spoolStats = some (Sql.counts db)

/-- A file whose counters count is open. -/
theorem Counted.opened (h : db.Counted) (hs : db.spoolStats.isSome) : db.Opened := by
  obtain ⟨s, hs⟩ := Option.isSome_iff_exists.mp hs
  rw [Opened, hs, h s hs]

/-- An open file has its counters. -/
theorem Opened.isSome (h : db.Opened) : db.spoolStats.isSome := by
  rw [show db.spoolStats = _ from h, Option.isSome_some]

/-- A file whose counters are recounted is open. -/
theorem Opened.recounted (h : db.spoolStats.isSome) : db.recounted.Opened :=
  db.recounted_counted.opened (by rwa [recounted_isSome])

namespace Coherent

/-- A new event keeps the invariant if its id is unused and a key is left. -/
theorem appended (h : db.Coherent) {e : NewSpoolEvent} (hid : Unused db e.eventId)
    (hs : Storable e.eventId e.payload e.createdNs) (hk : db.pendingSeq < sqliteIntegerMax) :
    (db.appended e).Coherent where
  counted := recounted_counted _
  version := h.version
  pendingSorted := by
    rw [appended_pending, List.map_append, List.pairwise_append]
    refine ⟨h.pendingSorted, List.pairwise_singleton _ _, fun s hs t ht => ?_⟩
    obtain ⟨r, hr, rfl⟩ := List.mem_map.mp hs
    have hle := (h.pendingKeys r hr).2
    rw [List.map_singleton, List.mem_singleton] at ht
    subst ht
    exact Int.lt_add_one_of_le hle
  pendingKeys r hr := by
    have h0 := h.pendingSeq_nonneg
    rw [appended_pending, List.mem_append, List.mem_singleton] at hr
    rw [appended_pendingSeq]
    rcases hr with hr | rfl
    · have := h.pendingKeys r hr
      omega
    · simp only [newRow]
      omega
  deadKeys d hd := by
    have := h.deadKeys d hd
    rw [appended_pendingSeq]
    omega
  pendingSeq_nonneg := by
    have := h.pendingSeq_nonneg
    rw [appended_pendingSeq]
    omega
  pendingSeq_le := by
    rw [appended_pendingSeq]
    omega
  deadSorted := h.deadSorted
  deadIds := h.deadIds
  deadLetterSeq_nonneg := h.deadLetterSeq_nonneg
  deadLetterSeq_le := h.deadLetterSeq_le
  ids := by
    rw [appended_pending, appended_deadLetter, List.map_append, List.append_assoc,
      List.map_singleton, List.singleton_append, List.nodup_middle, List.nodup_cons]
    refine ⟨fun hmem => ?_, h.ids⟩
    rcases List.mem_append.mp hmem with hmem | hmem
    · exact hid.1 hmem
    · exact hid.2 hmem
  sequences := by
    rw [appended_pending, appended_deadLetter, List.map_append, List.append_assoc,
      List.map_singleton, List.singleton_append, List.nodup_middle, List.nodup_cons]
    refine ⟨fun hmem => ?_, h.sequences⟩
    rcases List.mem_append.mp hmem with hmem | hmem
    · obtain ⟨r, hr, he⟩ := List.mem_map.mp hmem
      have := (h.pendingKeys r hr).2
      simp only [newRow] at he
      omega
    · obtain ⟨d, hd, he⟩ := List.mem_map.mp hmem
      have := h.deadKeys d hd
      simp only [newRow] at he
      omega
  storable r hr := by
    rw [appended_pending, List.mem_append, List.mem_singleton] at hr
    rcases hr with hr | rfl
    · exact h.storable r hr
    · exact hs

/-- Fewer rows in the two tables, in the same order, keep the invariant. -/
theorem sublist (h : db.Coherent) {db' : Database} (hc : db'.Counted)
    (hv : db'.userVersion = db.userVersion) (hp : db'.pending.Sublist db.pending)
    (hd : db'.deadLetter.Sublist db.deadLetter) (hps : db'.pendingSeq = db.pendingSeq)
    (hds : db'.deadLetterSeq = db.deadLetterSeq) : db'.Coherent where
  counted := hc
  version := by rw [hv]; exact h.version
  pendingSorted := h.pendingSorted.sublist (hp.map _)
  pendingKeys r hr := by rw [hps]; exact h.pendingKeys r (hp.subset hr)
  deadKeys d hmem := by rw [hps]; exact h.deadKeys d (hd.subset hmem)
  pendingSeq_nonneg := by rw [hps]; exact h.pendingSeq_nonneg
  pendingSeq_le := by rw [hps]; exact h.pendingSeq_le
  deadSorted := h.deadSorted.sublist (hd.map _)
  deadIds d hmem := by rw [hds]; exact h.deadIds d (hd.subset hmem)
  deadLetterSeq_nonneg := by rw [hds]; exact h.deadLetterSeq_nonneg
  deadLetterSeq_le := by rw [hds]; exact h.deadLetterSeq_le
  ids := h.ids.sublist ((hp.map _).append (hd.map _))
  sequences := h.sequences.sublist ((hp.map _).append (hd.map _))
  storable r hr := h.storable r (hp.subset hr)

/-- Deleting a row keeps a file coherent. -/
theorem removed (h : db.Coherent) (s : Int) : (db.removed s).Coherent :=
  h.sublist (recounted_counted _) rfl List.filter_sublist (List.Sublist.refl _) rfl rfl

/-- Evicting keeps a file coherent. -/
theorem evictedTo (h : db.Coherent) {rest : List DeadLetterRecord}
    (hr : rest.Sublist db.deadLetter) : (db.evictedTo rest).Coherent :=
  h.sublist (recounted_counted _) rfl (List.Sublist.refl _) hr rfl rfl

/-- Attempt metadata is not part of the invariant. -/
theorem attempted (h : db.Coherent) (text : PyStr) (flag : Bool) (s : Int) :
    (db.attempted text flag s).Coherent := by
  have hmap {β : Type} (f : SpoolRecord → β) (hf : ∀ r, f (Sql.attempted text flag r) = f r) :
      (db.attempted text flag s).pending.map f = db.pending.map f := by
    simp only [Database.attempted, List.map_map]
    refine List.map_congr_left fun r _ => ?_
    rw [Function.comp_apply]
    split
    · exact hf r
    · rfl
  have hmem {r : SpoolRecord} (hr : r ∈ (db.attempted text flag s).pending) :
      ∃ r₀ ∈ db.pending, r.sequence = r₀.sequence ∧ r.eventId = r₀.eventId ∧
        r.payload = r₀.payload ∧ r.createdNs = r₀.createdNs := by
    obtain ⟨r₀, hr₀, rfl⟩ := List.mem_map.mp hr
    refine ⟨r₀, hr₀, ?_⟩
    split <;> simp [Sql.attempted]
  refine
    { counted := fun st hst => ?_, version := h.version,
      pendingSorted := (hmap (·.sequence) fun _ => rfl) ▸ h.pendingSorted,
      pendingKeys := fun r hr => ?_, deadKeys := h.deadKeys,
      pendingSeq_nonneg := h.pendingSeq_nonneg, pendingSeq_le := h.pendingSeq_le,
      deadSorted := h.deadSorted, deadIds := h.deadIds,
      deadLetterSeq_nonneg := h.deadLetterSeq_nonneg, deadLetterSeq_le := h.deadLetterSeq_le,
      ids := (hmap (·.eventId) fun _ => rfl) ▸ h.ids,
      sequences := (hmap (·.sequence) fun _ => rfl) ▸ h.sequences, storable := fun r hr => ?_ }
  · rw [h.counted st hst]
    simp only [Sql.counts, Sql.rowBytes, hmap (·.payload.length) fun _ => rfl]
    simp [Database.attempted]
  · obtain ⟨r₀, hr₀, hs, -⟩ := hmem hr
    rw [hs]
    exact h.pendingKeys r₀ hr₀
  · obtain ⟨r₀, hr₀, -, hi, hp, hc⟩ := hmem hr
    rw [hi, hp, hc]
    exact h.storable r₀ hr₀

/-- The values of a key that is moved from one table to the other stay distinct. -/
theorem nodup_moved {β : Type} {r : SpoolRecord} (h : db.Coherent) (hr : r ∈ db.pending)
    (f : SpoolRecord → β) (ds : List β) (hn : (db.pending.map f ++ ds).Nodup) :
    ((db.pending.filter (·.sequence ≠ r.sequence)).map f ++ (ds ++ [f r])).Nodup := by
  have hperm := ((cons_filter_perm h.pendingNodup hr).map f).append_right ds
  refine (List.Perm.nodup_iff ?_).mp hn
  refine hperm.symm.trans ?_
  rw [List.map_cons, ← List.append_assoc]
  exact (List.perm_append_singleton _ _).symm

/-- A pending row moved to `dead_letter` keeps the invariant. -/
theorem moved (h : db.Coherent) {r : SpoolRecord} {row : DeadLetterRecord} (hr : r ∈ db.pending)
    (hseq : row.originalSequence = r.sequence) (hid : row.eventId = r.eventId)
    (hk : db.deadLetterSeq < sqliteIntegerMax) : (db.moved row).Coherent := by
  have h0 := h.deadLetterSeq_nonneg
  have hsub : (db.pending.filter (·.sequence ≠ row.originalSequence)).Sublist db.pending :=
    List.filter_sublist
  refine
    { counted := recounted_counted _, version := h.version,
      pendingSorted := h.pendingSorted.sublist (hsub.map _),
      pendingKeys := fun p hp => h.pendingKeys p (hsub.subset hp),
      deadKeys := fun d hd => ?_, pendingSeq_nonneg := h.pendingSeq_nonneg,
      pendingSeq_le := h.pendingSeq_le, deadSorted := ?_, deadIds := fun d hd => ?_,
      deadLetterSeq_nonneg := ?_, deadLetterSeq_le := ?_, ids := ?_, sequences := ?_,
      storable := fun p hp => h.storable p (hsub.subset hp) }
  · rcases List.mem_append.mp hd with hd | hd
    · exact h.deadKeys d hd
    · rw [List.mem_singleton] at hd
      subst hd
      exact hseq ▸ (h.pendingKeys r hr).2
  · show ((db.deadLetter ++ [_]).map _).Pairwise _
    rw [List.map_append, List.pairwise_append]
    refine ⟨h.deadSorted, List.pairwise_singleton _ _, fun s hs t ht => ?_⟩
    obtain ⟨d, hd, rfl⟩ := List.mem_map.mp hs
    rw [List.map_singleton, List.mem_singleton] at ht
    subst ht
    exact Int.lt_add_one_of_le (h.deadIds d hd).2
  · show 0 < d.deadLetterId ∧ d.deadLetterId ≤ db.deadLetterSeq + 1
    rcases List.mem_append.mp hd with hd | hd
    · have := h.deadIds d hd
      omega
    · rw [List.mem_singleton] at hd
      subst hd
      simp only
      omega
  · show 0 ≤ db.deadLetterSeq + 1
    omega
  · show db.deadLetterSeq + 1 ≤ sqliteIntegerMax
    omega
  · have := nodup_moved h hr (·.eventId) _ h.ids
    simpa [Database.moved, Database.removed, Database.buried, hseq, hid] using this
  · have := nodup_moved h hr (·.sequence) _ h.sequences
    simpa [Database.moved, Database.removed, Database.buried, hseq] using this

/-- Counting the rows again, as opening does, changes nothing but to provide the counters. -/
theorem reopened (h : db.Coherent) :
    ({ db with userVersion := schemaVersion, spoolStats := some (Sql.counts db) } :
      Database).Coherent :=
  { h with
    counted := fun s hs => by cases hs; rfl
    version := .inr rfl }

end Coherent

end

end Database

end QuestDbWriter
