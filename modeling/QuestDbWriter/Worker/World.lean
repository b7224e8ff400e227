import QuestDbWriter.Worker.Shared
import QuestDbWriter.Transport

/-!
# The worker's world

The state of one `WriterService` and of what it runs on: the configuration of the process, the
spool's connection, what the environment answers next, the fields under the lock, the ingress
queue, the events of the loop, and where each party stands: the callers of `submit()`, `stop()`
and `start()`, the worker thread, and the three coroutines of its loop (`_async_main`,
`_persist_loop`, `_delivery_loop`).

`history` is what an observer of the process and of the server has seen; no code reads it.
-/

namespace QuestDbWriter

open Lib

/-! ## The environment -/

/-- What `reclaim` answers; an error is one it carries or raises. -/
structure Reclaimed where
  error : Bool
  incremental : Bool
  moved : Bool
deriving DecidableEq

/-- What the environment answers until it changes: the two clocks, the usage of the filesystem
before and after a reclamation, what `reclaim` and `compact` do, the random source, and what
SQLite and the filesystem say when a spool is opened. -/
structure Env where
  monotonic : ℚ
  wallTimeNs : Int
  usage : Except PyStr StorageUsage
  usageAfter : Except PyStr StorageUsage
  reclaimed : Reclaimed
  compactFails : Bool
  random : RandomUnit
  pragmas : SQLiteSpool.Pragmas
  freeBytes : Option Int

/-- The configuration of a process. -/
structure Config where
  settings : WorkerSettings
  limits : SpoolLimits
  table : Table
  /-- A schema manager is given. -/
  hasSchema : Bool

/-! ## The development profile -/

/-- The `PROVISIONAL_` settings of `const.py`. -/
def WorkerSettings.provisional : WorkerSettings where
  ingressQueueCapacity := 1000
  maxSerializedEventBytes := 64 * 1024
  persistBatchRows := 100
  deliveryBatchRows := 1000
  deliveryBatchBytes := 512 * 1024
  flushIntervalSeconds := 1
  persistIdlePollSeconds := 1
  retryInitialSeconds := 1
  retryMaxSeconds := 60
  retryMultiplier := 2
  retryJitterRatio := 1 / 5
  flushOnShutdown := false
  minFreeBytes := 512 * 1024 * 1024
  minFreeRatio := 1 / 20
  ingressQueueCapacity_pos := by decide
  maxSerializedEventBytes_pos := by decide
  persistBatchRows_pos := by decide
  deliveryBatchRows_pos := by decide
  deliveryBatchBytes_pos := by decide
  flushIntervalSeconds_pos := by norm_num
  persistIdlePollSeconds_pos := by norm_num
  minFreeRatio_range := by norm_num
  retryInitialSeconds_pos := by norm_num
  retryMaxSeconds_ge := by norm_num
  retryMultiplier_ge := by norm_num
  retryJitterRatio_range := by norm_num

/-- The `PROVISIONAL_` limits of `const.py`. -/
def SpoolLimits.provisional : SpoolLimits where
  maxPendingRows := 100000
  maxPendingBytes := 64 * 1024 * 1024
  maxEventBytes := 64 * 1024
  maxDeadLetterRows := 1000
  maxDeadLetterBytes := 16 * 1024 * 1024
  pendingRows_pos := by decide
  pendingBytes_pos := by decide
  eventBytes_pos := by decide
  deadLetterRows_pos := by decide
  deadLetterBytes_pos := by decide
  event_le_pending := by decide
  event_le_deadLetter := by decide

/-- The development profile, for the table `DEFAULT_TABLE`, without a schema manager. -/
def Config.provisional : Config where
  settings := .provisional
  limits := .provisional
  table := { name := py "hass", nonempty := by decide, no_nul := by decide, encodable := by decide }
  hasSchema := false

/-- A machine with a large and empty disk, at time 0. -/
def Env.quiet : Env where
  monotonic := 0
  wallTimeNs := 0
  usage := .ok { totalBytes := 2 ^ 40, freeBytes := 2 ^ 40 }
  usageAfter := .ok { totalBytes := 2 ^ 40, freeBytes := 2 ^ 40 }
  reclaimed := { error := false, incremental := true, moved := false }
  compactFails := false
  random := { value := 1 / 2, range := by norm_num }
  pragmas := .standard
  freeBytes := some (2 ^ 40)

/-! ## Calls to QuestDB -/

/-- `_error_text`. -/
def IlpError.text (e : IlpError) : PyStr := errorTextOf (py e.kind.typeName) e.message

/-- The exception, where it is not caught. -/
def IlpError.exc (e : IlpError) : Exc :=
  { type := match e.kind with
      | .authentication => .authenticationIlpError
      | .permanent => .permanentIlpError
      | .retryable => .retryableIlpError
      | .transport => .ilpTransportError
    message := e.message }

/-- How a call of `send_batch` ends. -/
inductive SendResult where
  | ok
  | error (e : IlpError)
  /-- Any other exception. -/
  | raised (e : Exc)
deriving DecidableEq

/-- How a call of `schema.ensure` ends. -/
inductive EnsureResult where
  | ok
  | error (e : IlpError)
  /-- A `SchemaMismatchError`, or another `SchemaError`. -/
  | schema (mismatch : Bool) (message : PyStr)
  /-- Any other exception. -/
  | raised (e : Exc)
deriving DecidableEq

/-- A schema error as an exception. -/
def schemaExc (mismatch : Bool) (message : PyStr) : Exc :=
  { type := if mismatch then .schemaMismatchError else .schemaError, message }

/-! ## Batches -/

/-- `_BuiltBatch`. -/
structure BuiltBatch where
  payload : Bytes
  sequences : List Int
  uncertainSequences : List Int
deriving DecidableEq

/-- The batch before its first row. -/
def BuiltBatch.empty : BuiltBatch := { payload := [], sequences := [], uncertainSequences := [] }

/-- One more row in the batch. -/
def BuiltBatch.add (built : BuiltBatch) (record : SpoolRecord) (encoded : Bytes) : BuiltBatch where
  payload := built.payload ++ encoded
  sequences := built.sequences ++ [record.sequence]
  uncertainSequences :=
    if record.deliveryUncertain then built.uncertainSequences ++ [record.sequence]
    else built.uncertainSequences

/-- `_DeliveryOutcome`. -/
inductive DeliveryOutcome where
  | retry (delay : ℚ)
  | deadLetter
  | blocked
  | split
  | success
deriving DecidableEq

/-! ## Where the parties stand -/

/-- A callback scheduled with `call_soon_threadsafe`. -/
inductive Callback where
  | wakePersist
  | stopAsync
deriving DecidableEq

/-- A call of `stop()`: `seen` is whether it read a thread before its lock block. -/
inductive StopPc where
  | locking (seen : Bool) (timeout : ℚ)
  | setting
  | signalling
  | joining
  | returned (gone : Bool)
deriving DecidableEq

/-- The call of `start()`. -/
inductive StartPc where
  | idle
  | waiting
  | timedOut
  | signalling
  | returned
  | raised
deriving DecidableEq

/-- The worker thread, `_run`. -/
inductive ThreadPc where
  | absent
  | opening
  | opened
  | announcing
  | looping
  | raising (e : Exc)
  | closing (failed : Bool)
  | exiting (failed : Bool) (cleanup : Option Exc)
  /-- Behind its last lock block, and still alive. -/
  | ended
  | dead
deriving DecidableEq

/-- `_persist_loop`. -/
inductive PersistPc where
  /-- Created, or resumed: at the top of its loop, where it drains the queue. -/
  | top
  | draining
  | persisting
  | checking
  /-- Parked in `_wait_events`. -/
  | waiting (deadline : ℚ)
  /-- Parked in `asyncio.sleep`. -/
  | sleeping (deadline : ℚ)
  | returned
  | raised (e : Exc)
  | cancelled
deriving DecidableEq

/-- `_delivery_loop`. -/
inductive DeliverPc where
  | top
  /-- Awaiting `schema.ensure`. -/
  | ensuring
  /-- Parked after a failed `schema.ensure`. -/
  | gateWait (deadline : ℚ)
  /-- Awaiting `send_batch`. -/
  | sending (built : BuiltBatch)
  /-- Parked in its main wait. -/
  | waiting (deadline : ℚ)
  | returned
  | raised (e : Exc)
  | cancelled
deriving DecidableEq

/-- `_async_main`. -/
inductive MainPc where
  /-- The loop does not run. -/
  | idle
  | publishing
  | testing
  /-- Waiting for a stop request or the end of a task. -/
  | waiting
  | awaitPersist
  /-- The shutdown flush, awaiting `schema.ensure`. -/
  | flushEnsuring
  /-- The shutdown flush, awaiting `send_batch`. -/
  | flushSending (built : BuiltBatch)
  | ended
deriving DecidableEq

/-- Whether `_delivery_loop` awaits `send_batch`. -/
def DeliverPc.isSending : DeliverPc → Bool
  | .sending _ => true
  | _ => false

theorem DeliverPc.isSending_iff {d : DeliverPc} :
    d.isSending = true ↔ ∃ built, d = .sending built := by
  cases d <;> simp [isSending]

/-- Whether the shutdown flush awaits `send_batch`. -/
def MainPc.isFlushSending : MainPc → Bool
  | .flushSending _ => true
  | _ => false

theorem MainPc.isFlushSending_iff {m : MainPc} :
    m.isFlushSending = true ↔ ∃ built, m = .flushSending built := by
  cases m <;> simp [isFlushSending]

/-- The local variables of `_delivery_loop`. -/
structure DeliverLocals where
  pendingSince : Option ℚ
  retryAt : Option ℚ
  blocked : Bool
  isolateNext : Bool
  schemaReady : Bool
  backoff : Backoff
deriving DecidableEq

/-! ## Observations -/

/-- What tells a row apart from every other, in `pending` and in `dead_letter`. -/
structure RowIdentity where
  sequence : Int
  eventId : PyStr
  payload : Bytes
  createdNs : Int
deriving DecidableEq

/-- What the history keeps of a row. -/
def SpoolRecord.identity (r : SpoolRecord) : RowIdentity :=
  { sequence := r.sequence, eventId := r.eventId, payload := r.payload, createdNs := r.createdNs }

/-- What it keeps of a dead letter. -/
def DeadLetterRecord.identity (d : DeadLetterRecord) : RowIdentity :=
  { sequence := d.originalSequence, eventId := d.eventId, payload := d.payload,
    createdNs := d.createdNs }

/-- Something that an observer sees happen. -/
inductive Obs where
  /-- A process starts, for a table, on a spool with that many pending rows and dead letters. -/
  | started (table : PyStr) (pendingRows deadLetterRows : Nat)
  /-- `submit()` returned `True`. -/
  | accepted (event : NewSpoolEvent)
  /-- An `enqueue_many` was committed: what it was given, and the rows it inserted. -/
  | enqueued (events : List NewSpoolEvent) (rows : List RowIdentity)
  /-- A `schema.ensure` ended. -/
  | ensured (result : EnsureResult)
  /-- A `send_batch` ended, of that batch. -/
  | sent (built : BuiltBatch) (result : SendResult)
  /-- A `mark_delivered` was committed: the rows, and the sequences counted as uncertain. -/
  | delivered (rows : List RowIdentity) (uncertain : List Int)
  /-- A `move_to_dead_letter` was committed: the row moved, and the rows evicted. -/
  | moved (row : RowIdentity) (evicted : List RowIdentity)

/-! ## The state -/

structure World where
  config : Config
  spool : Conn Database StorageFault
  env : Env
  shared : Shared
  /-- `_ingress`. -/
  ingress : List NewSpoolEvent
  /-- The local variable `held` of `_persist_loop`. -/
  held : List NewSpoolEvent
  ready : Bool
  stopRequested : Bool
  /-- `_loop` is set and runs. -/
  loopRunning : Bool
  stopAsync : Bool
  wakePersist : Bool
  wakeDeliver : Bool
  /-- The scheduled callbacks, the next one first. -/
  callbacks : List Callback
  /-- The accepted calls of `submit()` that have not signalled the loop yet. -/
  submitSignals : Nat
  start : StartPc
  stops : List StopPc
  thread : ThreadPc
  main : MainPc
  persist : PersistPc
  deliver : DeliverPc
  locals : DeliverLocals
  /-- The backoff of the shutdown flush. -/
  flushBackoff : Backoff
  history : List Obs

/-- The local variables of `_delivery_loop` at its start. -/
def DeliverLocals.initial (config : Config) : DeliverLocals where
  pendingSince := none
  retryAt := none
  blocked := false
  isolateNext := false
  schemaReady := !config.hasSchema
  backoff := .initial config.settings

/-- A new process on a spool file, before `start()`. -/
def World.boot (config : Config) (env : Env) (db : Database) (history : List Obs) : World where
  config
  spool := { db, faults := [] }
  env
  shared := {}
  ingress := []
  held := []
  ready := false
  stopRequested := false
  loopRunning := false
  stopAsync := false
  wakePersist := false
  wakeDeliver := false
  callbacks := []
  submitSignals := 0
  start := .idle
  stops := []
  thread := .absent
  main := .idle
  persist := .top
  deliver := .top
  locals := .initial config
  flushBackoff := .initial config.settings
  history :=
    history ++ [.started config.table.name db.pending.length db.deadLetter.length]

namespace World

/-- An update of the fields under the lock. -/
def withShared (w : World) (f : Shared → Shared) : World := { w with shared := f w.shared }

/-- One more observation. -/
def observe (w : World) (o : Obs) : World := { w with history := w.history ++ [o] }

/-- A call of the spool. -/
def call {α : Type} (w : World) (p : SpoolM α) : Except Exc α × World :=
  let r := Session.run p w.spool
  (r.1, { w with spool := r.2 })

end World

end QuestDbWriter
