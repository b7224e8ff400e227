import QuestDbWriter.Spool.Database

/-!
# The spool's operations

`SQLiteSpool` of `spool.py`: its limits, the classification of a failed statement, opening, and one
session for each operation, with every statement of the source in the source's order. A statement
may fail at any point (`Session.execute`); the transaction around it is then rolled back.
-/

namespace QuestDbWriter

open Lib

/-- `SCHEMA_VERSION`. -/
def schemaVersion : Int := 1

/-- The limits of a spool, as `SQLiteSpool.__init__` accepts them. -/
structure SpoolLimits where
  maxPendingRows : Nat
  maxPendingBytes : Nat
  maxEventBytes : Nat
  maxDeadLetterRows : Nat
  maxDeadLetterBytes : Nat
  pendingRows_pos : 0 < maxPendingRows
  pendingBytes_pos : 0 < maxPendingBytes
  eventBytes_pos : 0 < maxEventBytes
  deadLetterRows_pos : 0 < maxDeadLetterRows
  deadLetterBytes_pos : 0 < maxDeadLetterBytes
  event_le_pending : maxEventBytes ≤ maxPendingBytes
  event_le_deadLetter : maxEventBytes ≤ maxDeadLetterBytes

/-! ## Failures -/

/-- `_primary_sqlite_code`. -/
def primarySqliteCode (code : Nat) : Nat := code &&& 0xFF

/-- `_READ_ONLY_SQLITE_CODES`: SQLITE_READONLY. -/
def readOnlySqliteCodes : List Nat := [8]

/-- `_OUT_OF_SPACE_SQLITE_CODES`: SQLITE_CANTOPEN and SQLITE_IOERR. -/
def outOfSpaceSqliteCodes : List Nat := [14, 10]

/-- `_OUT_OF_SPACE_FREE_BYTES`. -/
def outOfSpaceFreeBytes : Int := 64 * 1024

/-- `sqlite_errorcode` of a raised error: 19 is SQLITE_CONSTRAINT. -/
def sqliteErrorcode (e : Exc) : Option Nat :=
  match e.cause with
  | some (.failure code) => code
  | some (.unique _) | some (.check _) => some 19
  | none => none

/-- `classify_storage_error`: only the conditions a retry can clear get a class of their own. -/
def classifyStorageError (e : Exc) (message : PyStr) (freeBytes : Option Int := none) : Exc :=
  let primary := (sqliteErrorcode e).map primarySqliteCode
  if primary = some 13 then
    { type := .spoolDiskFullError, message := message ++ py ": database or disk is full",
      cause := e.cause }
  else if primary.any (· ∈ readOnlySqliteCodes) then
    { type := .spoolReadOnlyError,
      message := message ++ py ": database or filesystem is read-only", cause := e.cause }
  else
    match freeBytes with
    | some free =>
      if primary.any (· ∈ outOfSpaceSqliteCodes) ∧ free < outOfSpaceFreeBytes then
        { type := .spoolDiskFullError,
          message := message ++ py ": database or disk is full (" ++ intText free ++
            py " free bytes)",
          cause := e.cause }
      else { type := .spoolError, message, cause := e.cause }
    | none => { type := .spoolError, message, cause := e.cause }

/-- `except SpoolError: raise` and `except sqlite3.Error: raise classify_storage_error(...)`. -/
def classified (message : PyStr) (freeBytes : Option Int := none) (e : Exc) : Exc :=
  if e.isSqliteError then classifyStorageError e message freeBytes else e

/-- `except sqlite3.Error: raise SpoolError(...)`. -/
def wrapped (message : PyStr) (e : Exc) : Exc :=
  if e.isSqliteError then { type := .spoolError, message, cause := e.cause } else e

/-! ## Argument checks -/

def valueError (message : PyStr) : Exc := { type := .valueError, message }

def spoolStateError (message : PyStr) : Exc := { type := .spoolStateError, message }

/-- `_positive_integer`. -/
def positiveInteger (name : String) (value : Int) : Except Exc Unit :=
  raiseUnless (0 < value) (valueError (py name ++ py " must be a positive integer"))

/-- `_sqlite_integer`. -/
def sqliteInteger (name : String) (value : Int) : Except Exc Unit :=
  raiseUnless (sqliteIntegerMin ≤ value ∧ value ≤ sqliteIntegerMax)
    (valueError (py name ++ py " must be a signed 64-bit integer"))

/-- `_error_text`. -/
def requireErrorText (value : PyStr) : Except Exc Unit :=
  raiseUnless (value ≠ []) (valueError (py "last_error must be a non-empty string"))

/-- `_sequence_tuple`. -/
def sequenceTuple (sequences : List Int) : Except Exc Unit := do
  sequences.forM (positiveInteger "sequence")
  raiseUnless sequences.Nodup (valueError (py "sequences must not contain duplicates"))

namespace SQLiteSpool

/-- Raise what a check on the arguments raises. -/
def check {α : Type} : Except Exc α → SpoolM α
  | .ok a => pure a
  | .error e => throw e

/-- `_transaction`. -/
def transaction {α : Type} (body : SpoolM α) : SpoolM α := Session.transaction storageFailure body

/-! ## Opening -/

/-- What SQLite answers when the mode of a connection is set: `PRAGMA journal_mode` and
`PRAGMA synchronous`. -/
structure Pragmas where
  journalMode : PyStr
  synchronous : Int
deriving DecidableEq

/-- The answers of a healthy SQLite. -/
def Pragmas.standard : Pragmas := { journalMode := py "wal", synchronous := 2 }

/-- `c.lower()`, where it is an ASCII letter. No other character than `A` to `Z` has one of the
letters of `wal` for its lower case. -/
def lowerAscii (c : CodePoint) : CodePoint :=
  if 65 ≤ c.val ∧ c.val ≤ 90 then Fin.ofNat 0x110000 (c.val + 32) else c

/-- `_stats_row`. -/
def statsRow : SpoolM SpoolStats := do
  match ← execute Sql.selectStats with
  | none => throw (spoolStateError (py "spool stats row is missing"))
  | some s => pure s

/-- `_reconcile_stats`: the counters are set to what the two tables hold. -/
def reconcileStats : SpoolM Unit := do
  let pending ← execute fun db => pure (Sql.counts db, db)
  let deadLetter ← execute fun db => pure (Sql.counts db, db)
  execute (Sql.setStats
    { pendingRows := pending.pendingRows, pendingBytes := pending.pendingBytes
      deadLetterRows := deadLetter.deadLetterRows, deadLetterBytes := deadLetter.deadLetterBytes })

/-- `_SCHEMA_STATEMENTS`: three tables and four triggers, each `IF NOT EXISTS`. -/
def schemaStatements : List Unit := List.replicate 7 ()

/-- The body of `_initialize_schema`. -/
def prepareSchema : SpoolM Unit := do
  let version ← execute Sql.selectUserVersion
  check <| raiseUnless (version = 0 ∨ version = schemaVersion)
    { type := .unsupportedSpoolVersionError,
      message := py "unsupported spool schema version " ++ intText version ++
        py "; expected " ++ intText schemaVersion }
  schemaStatements.forM fun _ => Session.touch storageFailure
  execute Sql.insertStats
  let overlap ← execute Sql.selectOverlap
  check <| raiseUnless (overlap = false)
    (spoolStateError (py "an event exists in both pending and dead-letter state"))
  reconcileStats
  if version = 0 then execute (Sql.setUserVersion schemaVersion)

/-- `_initialize_schema`. -/
def initializeSchema : SpoolM Unit := transaction prepareSchema

/-- `SQLiteSpool.__init__` after its argument checks: connect, set the modes, prepare the schema.
`freeBytes` is what `_free_bytes` measures, should opening fail. -/
def openSpool (pragmas : Pragmas) (freeBytes : Option Int) : SpoolM Unit :=
  Session.mapError (classified (py "failed to initialize SQLite spool") freeBytes) do
    Session.touch storageFailure -- connect
    Session.touch storageFailure -- PRAGMA auto_vacuum = INCREMENTAL
    Session.touch storageFailure -- PRAGMA auto_vacuum
    Session.touch storageFailure -- PRAGMA journal_mode = WAL
    check <| raiseUnless (pragmas.journalMode.map lowerAscii = py "wal")
      (spoolStateError (py "SQLite did not enable WAL mode: " ++ pragmas.journalMode))
    Session.touch storageFailure -- PRAGMA synchronous = FULL
    Session.touch storageFailure -- PRAGMA synchronous
    check <| raiseUnless (pragmas.synchronous = 2)
      (spoolStateError (py "SQLite did not enable synchronous=FULL: " ++
        intText pragmas.synchronous))
    initializeSchema

/-! ## Operations -/

/-- `stats`. -/
def stats : SpoolM SpoolStats :=
  Session.mapError (wrapped (py "failed to read spool stats")) statsRow

/-- `_validate_new_event`. -/
def validateNewEvent (limits : SpoolLimits) (event : NewSpoolEvent) : Except Exc Unit := do
  raiseUnless (event.eventId ≠ [] ∧ ofChar '\x00' ∉ event.eventId)
    (valueError (py "event_id must be a non-empty string without NUL"))
  raiseUnless (event.payload ≠ []) (valueError (py "payload must be non-empty bytes"))
  sqliteInteger "created_ns" event.createdNs
  raiseUnless (event.payload.length ≤ limits.maxEventBytes)
    { type := .eventTooLargeError,
      message := py "event payload is " ++ natText event.payload.length ++
        py " bytes; limit is " ++ natText limits.maxEventBytes }

/-- One step of the loop that fills `distinct_events`. -/
def addDistinct (distinct : List NewSpoolEvent) (event : NewSpoolEvent) :
    Except Exc (List NewSpoolEvent) :=
  match distinct.find? (·.eventId = event.eventId) with
  | none => .ok (distinct ++ [event])
  | some previous =>
    if previous ≠ event then
      .error (spoolStateError (py "event_id is repeated with different content in one batch"))
    else .ok distinct

/-- `distinct_events`: the first event of each id, in the order of the input. -/
def distinctEvents (events : List NewSpoolEvent) : Except Exc (List NewSpoolEvent) :=
  events.foldlM addDistinct []

/-- The loop that fills `new_events`: the events whose id is not stored. -/
def selectNew : List NewSpoolEvent → SpoolM (List NewSpoolEvent)
  | [] => pure []
  | event :: events => do
    match ← execute (Sql.selectStored event.eventId) with
    | some (payload, createdNs) =>
      check <| raiseUnless (payload = event.payload ∧ createdNs = event.createdNs)
        (spoolStateError (py "event_id already exists with different content"))
      selectNew events
    | none => return event :: (← selectNew events)

/-- The payload bytes of the events. -/
def eventBytes (events : List NewSpoolEvent) : Nat := (events.map (·.payload.length)).sum

/-- The capacity checks of `enqueue_many`. -/
def checkCapacity (limits : SpoolLimits) (s : SpoolStats) (newEvents : List NewSpoolEvent) :
    Except Exc Unit := do
  raiseUnless (s.pendingRows + newEvents.length ≤ limits.maxPendingRows)
    { type := .spoolFullError,
      message := py "pending row limit " ++ natText limits.maxPendingRows ++ py " reached" }
  raiseUnless (s.pendingBytes + eventBytes newEvents ≤ limits.maxPendingBytes)
    { type := .spoolFullError,
      message := py "pending payload-byte limit " ++ natText limits.maxPendingBytes ++
        py " reached" }

/-- The body of the transaction of `enqueue_many`. -/
def enqueueBody (limits : SpoolLimits) (distinct : List NewSpoolEvent) : SpoolM Nat := do
  let newEvents ← selectNew distinct
  let s ← statsRow
  check (checkCapacity limits s newEvents)
  newEvents.forM fun event => execute (Sql.insertPending event)
  pure newEvents.length

/-- The transaction of `enqueue_many`. -/
def enqueueDistinct (limits : SpoolLimits) (distinct : List NewSpoolEvent) : SpoolM Nat :=
  transaction (enqueueBody limits distinct)

/-- `enqueue_many`: one durable transaction; events already stored do not count as inserts. -/
def enqueueMany (limits : SpoolLimits) (events : List NewSpoolEvent) : SpoolM Nat := do
  check (events.forM (validateNewEvent limits))
  if events = [] then return 0
  let distinct ← check (distinctEvents events)
  Session.mapError (classified (py "failed to enqueue events")) (enqueueDistinct limits distinct)

/-- The loop of `peek_batch` over the rows, with the payload bytes taken so far. -/
def takeBatch (maxBytes : Nat) : Nat → List SpoolRecord → List SpoolRecord
  | _, [] => []
  | batchBytes, row :: rows =>
    if batchBytes + row.payload.length > maxBytes then []
    else row :: takeBatch maxBytes (batchBytes + row.payload.length) rows

/-- The first round of that loop raises when the oldest row alone is over the limit. -/
def oldestFits (maxBytes : Nat) (oldest : SpoolRecord) : Except Exc Unit :=
  raiseUnless (oldest.payload.length ≤ maxBytes)
    { type := .batchLimitTooSmallError,
      message := py "oldest event is " ++ natText oldest.payload.length ++
        py " bytes; batch limit is " ++ natText maxBytes }

/-- `peek_batch`: the oldest contiguous batch. -/
def peekBatch (maxRows maxBytes : Nat) : SpoolM (List SpoolRecord) := do
  check (positiveInteger "max_rows" maxRows)
  check (positiveInteger "max_bytes" maxBytes)
  let rows ← Session.mapError (wrapped (py "failed to read pending batch"))
    (execute (Sql.selectOldest maxRows))
  check (rows.head?.toList.forM (oldestFits maxBytes))
  pure (takeBatch maxBytes 0 rows)

/-- A statement on one pending row, which has to exist. -/
def onPending (stmt : Int → Database → Except Exc (Nat × Database)) (sequence : Int) :
    SpoolM Unit := do
  let rowcount ← execute (stmt sequence)
  check <| raiseUnless (rowcount = 1)
    (spoolStateError (py "pending sequence " ++ intText sequence ++ py " does not exist"))

/-- `mark_delivered`. -/
def markDelivered (sequences : List Int) : SpoolM Nat := do
  check (sequenceTuple sequences)
  if sequences = [] then return 0
  Session.mapError (classified (py "failed to mark events delivered")) <|
    transaction (sequences.forM (onPending Sql.deletePending))
  pure sequences.length

/-- `record_attempt`. -/
def recordAttempt (sequences : List Int) (lastError : PyStr) (deliveryUncertain : Bool) :
    SpoolM Nat := do
  check (sequenceTuple sequences)
  check (requireErrorText lastError)
  if sequences = [] then return 0
  Session.mapError (classified (py "failed to record delivery attempt")) <|
    transaction (sequences.forM (onPending (Sql.updateAttempt lastError deliveryUncertain)))
  pure sequences.length

/-- The rows that `move_to_dead_letter` moves. -/
def selectRecords : List Int → SpoolM (List SpoolRecord)
  | [] => pure []
  | sequence :: sequences => do
    match ← execute (Sql.selectPending sequence) with
    | none =>
      throw (spoolStateError (py "pending sequence " ++ intText sequence ++
        py " does not exist"))
    | some record => return record :: (← selectRecords sequences)

/-- The local variables of `move_to_dead_letter`. -/
structure Room where
  currentRows : Int
  currentBytes : Int
  moved : Nat
  evicted : Nat

/-- Their values before the loop. -/
def Room.start (s : SpoolStats) : Room :=
  { currentRows := s.deadLetterRows, currentBytes := s.deadLetterBytes, moved := 0, evicted := 0 }

/-- The condition of the eviction loop. -/
def Room.isShort (limits : SpoolLimits) (room : Room) (payloadBytes : Nat) : Bool :=
  room.currentRows + 1 > limits.maxDeadLetterRows ||
    room.currentBytes + payloadBytes > limits.maxDeadLetterBytes

def deadLetterFull : Exc :=
  { type := .deadLetterFullError,
    message := py "dead-letter store cannot accommodate an event within its configured limits" }

/-- The eviction loop. Each round removes one dead letter, so `rounds` is the number of dead
letters when the loop starts; in the round after the last one the table is empty. -/
def makeRoom (limits : SpoolLimits) (payloadBytes : Nat) : Nat → Room → SpoolM Room
  | 0, room =>
    if room.isShort limits payloadBytes then do
      let _ ← execute Sql.selectOldestDeadLetter
      throw deadLetterFull
    else pure room
  | rounds + 1, room =>
    if room.isShort limits payloadBytes then do
      match ← execute Sql.selectOldestDeadLetter with
      | none => throw deadLetterFull
      | some oldest =>
        let _ ← execute (Sql.deleteDeadLetterBy (·.deadLetterId) oldest.deadLetterId)
        makeRoom limits payloadBytes rounds
          { room with currentRows := room.currentRows - 1,
                      currentBytes := room.currentBytes - oldest.payload.length,
                      evicted := room.evicted + 1 }
    else pure room

/-- The number of dead letters: the bound of the eviction loop, not a statement. -/
def deadLetterCount : SpoolM Nat := fun c => (.ok c.db.deadLetter.length, c)

/-- The row that a moved record becomes; `dead_letter_id` is assigned by the insert. -/
def deadLetterOf (record : SpoolRecord) (lastError : PyStr) (failedNs : Int)
    (deliveryUncertain : Bool) : DeadLetterRecord :=
  { deadLetterId := 0, originalSequence := record.sequence, eventId := record.eventId,
    payload := record.payload, createdNs := record.createdNs, failedNs,
    attemptCount := record.attemptCount + 1, lastError,
    deliveryUncertain := record.deliveryUncertain || deliveryUncertain }

/-- One record of the loop of `move_to_dead_letter`. -/
def moveRecord (limits : SpoolLimits) (lastError : PyStr) (failedNs : Int)
    (deliveryUncertain : Bool) (record : SpoolRecord) (room : Room) : SpoolM Room := do
  let room ← makeRoom limits record.payload.length (← deadLetterCount) room
  execute (Sql.insertDeadLetter (deadLetterOf record lastError failedNs deliveryUncertain))
  let rowcount ← execute (Sql.deletePending record.sequence)
  check <| raiseUnless (rowcount = 1)
    (spoolStateError (py "pending sequence " ++ intText record.sequence ++ py " disappeared"))
  pure { room with currentRows := room.currentRows + 1,
                   currentBytes := room.currentBytes + record.payload.length,
                   moved := room.moved + 1 }

/-- The loop of `move_to_dead_letter`. -/
def moveRecords (limits : SpoolLimits) (lastError : PyStr) (failedNs : Int)
    (deliveryUncertain : Bool) : List SpoolRecord → Room → SpoolM Room
  | [], room => pure room
  | record :: records, room => do
    moveRecords limits lastError failedNs deliveryUncertain records
      (← moveRecord limits lastError failedNs deliveryUncertain record room)

/-- The body of the transaction of `move_to_dead_letter`. -/
def moveBody (limits : SpoolLimits) (sequences : List Int) (lastError : PyStr)
    (failedNs : Int) (deliveryUncertain : Bool) : SpoolM (Nat × Nat) := do
  let records ← selectRecords sequences
  let s ← statsRow
  let room ← moveRecords limits lastError failedNs deliveryUncertain records (.start s)
  pure (room.moved, room.evicted)

/-- The transaction of `move_to_dead_letter`. -/
def moveTransaction (limits : SpoolLimits) (sequences : List Int) (lastError : PyStr)
    (failedNs : Int) (deliveryUncertain : Bool) : SpoolM (Nat × Nat) :=
  transaction (moveBody limits sequences lastError failedNs deliveryUncertain)

/-- `move_to_dead_letter`: the numbers of moved and of evicted rows. -/
def moveToDeadLetter (limits : SpoolLimits) (sequences : List Int) (lastError : PyStr)
    (failedNs : Int) (deliveryUncertain : Bool) : SpoolM (Nat × Nat) := do
  check (sequenceTuple sequences)
  check (requireErrorText lastError)
  check (sqliteInteger "failed_ns" failedNs)
  if sequences = [] then return (0, 0)
  Session.mapError (classified (py "failed to move events to dead letter"))
    (moveTransaction limits sequences lastError failedNs deliveryUncertain)

/-- A statement that deletes one dead letter, which has to exist. -/
def deleteDeadLetter (sequence : Int) : SpoolM Unit := do
  let rowcount ← execute (Sql.deleteDeadLetterBy (·.originalSequence) sequence)
  check <| raiseUnless (rowcount = 1)
    (spoolStateError (py "dead-letter sequence " ++ intText sequence ++ py " does not exist"))

/-- `delete_dead_letters`. -/
def deleteDeadLetters (originalSequences : List Int) : SpoolM Nat := do
  check (sequenceTuple originalSequences)
  if originalSequences = [] then return 0
  Session.mapError (wrapped (py "failed to delete dead letters")) <|
    transaction (originalSequences.forM deleteDeadLetter)
  pure originalSequences.length

end SQLiteSpool

end QuestDbWriter
