import QuestDbWriter.Python
import QuestDbWriter.Lib.Session

/-!
# The spool's database

The tables of `_SCHEMA_STATEMENTS` and the statements the spool executes on them. A table is a list
in the order of its integer primary key: both keys are AUTOINCREMENT, so an inserted row has the
largest key and goes to the end. A statement returns its result and the new database, or raises:
a violated constraint, a value that cannot be bound, or an exhausted AUTOINCREMENT key
(SQLITE_FULL). The four triggers run inside the statement that fires them.
-/

namespace QuestDbWriter

open Lib

/-- `NewSpoolEvent`: one validated serialization unit waiting to enter the spool. -/
structure NewSpoolEvent where
  eventId : PyStr
  payload : Bytes
  createdNs : Int
deriving DecidableEq

/-- `SpoolRecord`: one pending event, ordered by its local sequence number. -/
structure SpoolRecord where
  sequence : Int
  eventId : PyStr
  payload : Bytes
  createdNs : Int
  attemptCount : Nat
  lastError : Option PyStr
  deliveryUncertain : Bool
deriving DecidableEq

/-- `DeadLetterRecord`, with the key of its row. -/
structure DeadLetterRecord where
  deadLetterId : Int
  originalSequence : Int
  eventId : PyStr
  payload : Bytes
  createdNs : Int
  failedNs : Int
  attemptCount : Nat
  lastError : PyStr
  deliveryUncertain : Bool
deriving DecidableEq

/-- `SpoolStats`: transactionally maintained payload counters. -/
structure SpoolStats where
  pendingRows : Int
  pendingBytes : Int
  deadLetterRows : Int
  deadLetterBytes : Int
deriving DecidableEq

/-- The contents of a spool file: `PRAGMA user_version`, the three tables and the last value that
AUTOINCREMENT assigned for each of the two keys. A file without the schema is one with no rows. -/
structure Database where
  userVersion : Int
  pending : List SpoolRecord
  deadLetter : List DeadLetterRecord
  spoolStats : Option SpoolStats
  pendingSeq : Int
  deadLetterSeq : Int
deriving DecidableEq

/-- A file that SQLite has just created. -/
def Database.fresh : Database :=
  { userVersion := 0, pending := [], deadLetter := [], spoolStats := none, pendingSeq := 0,
    deadLetterSeq := 0 }

/-- A failure of the storage: the (possibly extended) result code of the raised error, if it has
one. -/
abbrev StorageFault := Option Nat

/-- The spool's programs: sessions on its database. -/
abbrev SpoolM := Session Database StorageFault Exc

/-- What SQLite raises for a failure of the storage. -/
def storageFailure (f : StorageFault) : Exc :=
  { type := .operationalError, message := py "storage failure", cause := some (.failure f) }

/-- What SQLite raises for a violated UNIQUE constraint. -/
def uniqueViolation (column : String) : Exc :=
  { type := .integrityError, message := py "UNIQUE constraint failed",
    cause := some (.unique column) }

/-- What SQLite raises for a violated CHECK constraint. -/
def checkViolation (column : String) : Exc :=
  { type := .integrityError, message := py "CHECK constraint failed",
    cause := some (.check column) }

/-- Execute one statement on the spool's connection. -/
def execute {α : Type} (stmt : Database → Except Exc (α × Database)) : SpoolM α :=
  Session.execute storageFailure stmt

def sqliteIntegerMin : Int := -(2 ^ 63)
def sqliteIntegerMax : Int := 2 ^ 63 - 1

/-! ## Bound values -/

/-- Bind a Python `str` as TEXT. -/
def bindText (s : PyStr) : Except Exc Unit := (encodeUtf8 s).map fun _ => ()

/-- Bind a Python `int` as INTEGER. -/
def bindInteger (n : Int) : Except Exc Unit :=
  raiseUnless (sqliteIntegerMin ≤ n ∧ n ≤ sqliteIntegerMax)
    { type := .overflowError, message := py "Python int too large to convert to SQLite INTEGER" }

/-- SQLite's `length` of a TEXT value: the characters before the first NUL. -/
def sqlLength (s : PyStr) : Nat := (s.takeWhile (· ≠ ofChar '\x00')).length

/-- A row's CHECK constraint. -/
def requireCheck (column : String) (p : Prop) [Decidable p] : Except Exc Unit :=
  raiseUnless p (checkViolation column)

/-- A row's UNIQUE constraint. -/
def requireUnique (column : String) (p : Prop) [Decidable p] : Except Exc Unit :=
  raiseUnless p (uniqueViolation column)

/-- The next key of an AUTOINCREMENT column whose last assigned key is `seq`. -/
def nextKey (seq : Int) : Except Exc Int :=
  if seq < sqliteIntegerMax then .ok (seq + 1) else .error (storageFailure (some 13))

/-! ## The counters and their triggers -/

/-- The body of a trigger: add to the counters, where there is a row of them. -/
def updateStats (change : SpoolStats → SpoolStats) (db : Database) : Except Exc Database :=
  match db.spoolStats with
  | none => .ok db
  | some s => do
      let s := change s
      requireCheck "pending_rows" (0 ≤ s.pendingRows)
      requireCheck "pending_bytes" (0 ≤ s.pendingBytes)
      requireCheck "dead_letter_rows" (0 ≤ s.deadLetterRows)
      requireCheck "dead_letter_bytes" (0 ≤ s.deadLetterBytes)
      .ok { db with spoolStats := some s }

/-- `pending_stats_after_insert`, `pending_stats_after_delete`: `sign` is `1` or `-1`. -/
def countPending (sign : Int) (payload : Bytes) (s : SpoolStats) : SpoolStats :=
  { s with pendingRows := s.pendingRows + sign,
           pendingBytes := s.pendingBytes + sign * payload.length }

/-- `dead_letter_stats_after_insert`, `dead_letter_stats_after_delete`. -/
def countDeadLetter (sign : Int) (payload : Bytes) (s : SpoolStats) : SpoolStats :=
  { s with deadLetterRows := s.deadLetterRows + sign,
           deadLetterBytes := s.deadLetterBytes + sign * payload.length }

namespace Sql

/-- `PRAGMA user_version`. -/
def selectUserVersion (db : Database) : Except Exc (Int × Database) := pure (db.userVersion, db)

/-- `PRAGMA user_version = <version>`. -/
def setUserVersion (version : Int) (db : Database) : Except Exc (Unit × Database) :=
  pure ((), { db with userVersion := version })

/-! ## Statements on `pending` -/

/-- `INSERT INTO pending (event_id, payload, created_ns) VALUES (?, ?, ?)`. -/
def insertPending (e : NewSpoolEvent) (db : Database) : Except Exc (Unit × Database) := do
  bindText e.eventId
  bindInteger e.createdNs
  let sequence ← nextKey db.pendingSeq
  requireCheck "event_id" (0 < sqlLength e.eventId)
  requireCheck "payload" (0 < e.payload.length)
  requireUnique "pending.event_id" (e.eventId ∉ db.pending.map (·.eventId))
  let row : SpoolRecord :=
    { sequence, eventId := e.eventId, payload := e.payload, createdNs := e.createdNs,
      attemptCount := 0, lastError := none, deliveryUncertain := false }
  let db ← updateStats (countPending 1 e.payload)
    { db with pending := db.pending ++ [row], pendingSeq := sequence }
  pure ((), db)

/-- `SELECT ... FROM pending WHERE sequence = ?`, `fetchone()`. -/
def selectPending (sequence : Int) (db : Database) :
    Except Exc (Option SpoolRecord × Database) := do
  bindInteger sequence
  pure (db.pending.find? (·.sequence = sequence), db)

/-- `SELECT ... FROM pending ORDER BY sequence LIMIT ?`. -/
def selectOldest (limit : Nat) (db : Database) : Except Exc (List SpoolRecord × Database) := do
  bindInteger limit
  pure (db.pending.take limit, db)

/-- `DELETE FROM pending WHERE sequence = ?`; the result is `cursor.rowcount`. -/
def deletePending (sequence : Int) (db : Database) : Except Exc (Nat × Database) := do
  bindInteger sequence
  match db.pending.find? (·.sequence = sequence) with
  | none => pure (0, db)
  | some row =>
      let db ← updateStats (countPending (-1) row.payload)
        { db with pending := db.pending.filter (·.sequence ≠ sequence) }
      pure (1, db)

/-- One attempt recorded on a row, with the error text and the uncertainty flag. -/
def attempted (lastError : PyStr) (deliveryUncertain : Bool) (r : SpoolRecord) : SpoolRecord :=
  { r with attemptCount := r.attemptCount + 1, lastError := some lastError,
           deliveryUncertain := r.deliveryUncertain || deliveryUncertain }

/-- `UPDATE pending SET attempt_count = attempt_count + 1, ... WHERE sequence = ?`. -/
def updateAttempt (lastError : PyStr) (deliveryUncertain : Bool) (sequence : Int)
    (db : Database) : Except Exc (Nat × Database) := do
  bindText lastError
  bindInteger sequence
  let rowcount := if (db.pending.find? (·.sequence = sequence)).isSome then 1 else 0
  pure (rowcount, { db with pending := db.pending.map fun r =>
    if r.sequence = sequence then attempted lastError deliveryUncertain r else r })

/-! ## Statements on `dead_letter` -/

/-- `INSERT INTO dead_letter (...) VALUES (...)`; the key of `row` is assigned here. -/
def insertDeadLetter (row : DeadLetterRecord) (db : Database) : Except Exc (Unit × Database) := do
  bindText row.eventId
  bindInteger row.createdNs
  bindInteger row.failedNs
  bindText row.lastError
  let deadLetterId ← nextKey db.deadLetterSeq
  requireCheck "event_id" (0 < sqlLength row.eventId)
  requireCheck "payload" (0 < row.payload.length)
  requireCheck "attempt_count" (0 < row.attemptCount)
  requireCheck "last_error" (0 < sqlLength row.lastError)
  requireUnique "dead_letter.original_sequence"
    (row.originalSequence ∉ db.deadLetter.map (·.originalSequence))
  requireUnique "dead_letter.event_id" (row.eventId ∉ db.deadLetter.map (·.eventId))
  let db ← updateStats (countDeadLetter 1 row.payload)
    { db with deadLetter := db.deadLetter ++ [{ row with deadLetterId }],
              deadLetterSeq := deadLetterId }
  pure ((), db)

/-- `SELECT ... FROM dead_letter ORDER BY dead_letter_id LIMIT 1`, `fetchone()`. -/
def selectOldestDeadLetter (db : Database) : Except Exc (Option DeadLetterRecord × Database) :=
  pure (db.deadLetter.head?, db)

/-- `DELETE FROM dead_letter WHERE <key> = ?`; the result is `cursor.rowcount`. -/
def deleteDeadLetterBy (key : DeadLetterRecord → Int) (value : Int) (db : Database) :
    Except Exc (Nat × Database) := do
  bindInteger value
  match db.deadLetter.find? (key · = value) with
  | none => pure (0, db)
  | some row =>
      let db ← updateStats (countDeadLetter (-1) row.payload)
        { db with deadLetter := db.deadLetter.filter (key · ≠ value) }
      pure (1, db)

/-! ## Statements on both tables -/

/-- The content stored for an event id, in either table (`UNION ALL ... LIMIT 1`). -/
def stored (eventId : PyStr) (db : Database) : Option (Bytes × Int) :=
  ((db.pending.find? (·.eventId = eventId)).map fun r => (r.payload, r.createdNs)) <|>
    ((db.deadLetter.find? (·.eventId = eventId)).map fun r => (r.payload, r.createdNs))

/-- `SELECT payload, created_ns FROM pending WHERE event_id = ? UNION ALL ...`. -/
def selectStored (eventId : PyStr) (db : Database) :
    Except Exc (Option (Bytes × Int) × Database) := do
  bindText eventId
  pure (stored eventId db, db)

/-- Some event is in both tables, by its id or by its sequence. -/
def overlap (db : Database) : Bool :=
  db.pending.any fun p => db.deadLetter.any fun d =>
    p.eventId = d.eventId ∨ p.sequence = d.originalSequence

/-- `SELECT pending.event_id FROM pending JOIN dead_letter ON ... LIMIT 1` finds a row. -/
def selectOverlap (db : Database) : Except Exc (Bool × Database) := pure (overlap db, db)

/-- `SUM(length(payload))` of pending rows. -/
def rowBytes (rows : List SpoolRecord) : Nat := (rows.map (·.payload.length)).sum

/-- `SUM(length(payload))` of dead letters. -/
def deadBytes (rows : List DeadLetterRecord) : Nat := (rows.map (·.payload.length)).sum

/-- The row counts and payload-byte sums of the two tables. -/
def counts (db : Database) : SpoolStats :=
  { pendingRows := db.pending.length
    pendingBytes := rowBytes db.pending
    deadLetterRows := db.deadLetter.length
    deadLetterBytes := deadBytes db.deadLetter }

/-- `INSERT INTO spool_stats ... ON CONFLICT(singleton) DO NOTHING`. -/
def insertStats (db : Database) : Except Exc (Unit × Database) :=
  pure ((), { db with spoolStats := some (db.spoolStats.getD ⟨0, 0, 0, 0⟩) })

/-- `UPDATE spool_stats SET ... WHERE singleton = 1`, with the four counts. -/
def setStats (s : SpoolStats) (db : Database) : Except Exc (Unit × Database) := do
  let db ← updateStats (fun _ => s) db
  pure ((), db)

/-- `SELECT ... FROM spool_stats WHERE singleton = 1`, `fetchone()`. -/
def selectStats (db : Database) : Except Exc (Option SpoolStats × Database) :=
  pure (db.spoolStats, db)

end Sql

end QuestDbWriter
