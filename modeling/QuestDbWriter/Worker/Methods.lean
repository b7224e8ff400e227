import QuestDbWriter.Worker.World

/-!
# The worker's methods

What `WriterService` does between two awaits. The methods act on the world; those that call the
spool return what they raise. A delivery is cut at its one await: `deliverStart` builds the batch,
`deliverFinish` takes the end of `send_batch`.
-/

namespace QuestDbWriter

open Lib

namespace World

/-- `_set_delivery_state`. -/
def setDeliveryState (w : World) (state : WorkerState) (lastError : Option PyStr)
    (retryDelay : Option ℚ) (blockReason : Option BlockReason := none) : World :=
  w.withShared (·.setDeliveryState w.env.wallTimeNs state lastError retryDelay blockReason)

/-- `_block_on_storage`. -/
def blockOnStorage (w : World) (reason : BlockReason) (error : PyStr) : World :=
  w.withShared (·.blockOnStorage w.env.wallTimeNs reason error)

/-- `_resume_after_storage_block`. -/
def resumeAfterStorageBlock (w : World) : World :=
  w.withShared (·.resumeAfterStorageBlock w.env.wallTimeNs)

/-- A call to the storage is made. -/
def logCall (w : World) (event : StorageEvent) : World :=
  w.withShared fun s => { s with storage := { s.storage with calls := s.storage.calls ++ [event] } }

@[simp] theorem logCall_spool (w : World) (event : StorageEvent) :
    (w.logCall event).spool = w.spool := rfl

/-- An update of the counters. -/
def count (w : World) (f : Counters → Counters) : World := w.withShared (·.count f)

/-- `self._set_spool_stats(spool.stats())`. -/
def readStats (w : World) : Except Exc SpoolStats × World :=
  match w.call SQLiteSpool.stats with
  | (.ok stats, w) => (.ok stats, w.withShared ({ · with spoolStats := stats }))
  | (.error e, w) => (.error e, w)

/-! ## Persistence -/

/-- `_check_storage`. -/
def checkStorage (w : World) (usage : Except PyStr StorageUsage) : StorageStatus × World :=
  let status := guardCheck w.config.settings usage
  (status, (w.logCall (.measured status)).withShared ({ · with diskStatus := some status }))

/-- `_RECLAIM_INTERVAL_SECONDS`. -/
def reclaimIntervalSeconds : ℚ := 1

/-- `_reclaim_spool`: whether space was given back. -/
def reclaimSpool (w : World) : Bool × World :=
  let now := w.env.monotonic
  if w.shared.storage.lastReclaim.any (now - · < reclaimIntervalSeconds) then (false, w)
  else
    let w := (w.logCall (.reclaim now)).withShared fun s =>
      { s with storage := { s.storage with lastReclaim := some now } }
    if w.env.reclaimed.error then (false, w)
    else if w.env.reclaimed.incremental = false ∧ w.shared.storage.rewriteAttempted = false then
      -- a database from before incremental auto-vacuum: one rewrite for each pause
      (!w.env.compactFails,
        (w.logCall .compact).withShared fun s =>
          { s with storage := { s.storage with rewriteAttempted := true } })
    else (w.env.reclaimed.moved, w)

/-- The free-space check of `_persist_held`, with its reclamation. -/
def freeSpace (w : World) : StorageStatus × World :=
  let checked := w.checkStorage w.env.usage
  if checked.1.blocked then
    let reclaimed := checked.2.reclaimSpool
    if reclaimed.1 then reclaimed.2.checkStorage w.env.usageAfter else (checked.1, reclaimed.2)
  else checked

/-- The rows that a transaction inserted. -/
def insertedRows (before after : Database) : List RowIdentity :=
  (after.pending.filter fun r => decide (before.pendingSeq < r.sequence)).map
    SpoolRecord.identity

/-- What follows a committed `enqueue_many` in `_persist_held`. -/
def heldPersisted (w : World) (before : Database) : World :=
  let w := (w.observe (.enqueued w.held (insertedRows before w.spool.db))).count fun c =>
    { c with persistedEvents := c.persistedEvents + w.held.length }
  { w with held := [] }.withShared ({ · with heldUnpersisted := 0 })

/-- The durable part of `_persist_held`. -/
def enqueueHeld (w : World) : Except Exc Bool × World :=
  match (w.logCall .enqueueMany).call (SQLiteSpool.enqueueMany w.config.limits w.held) with
  | (.ok _, w') =>
    match (w'.heldPersisted w.spool.db).readStats with
    | (.ok _, w) => (.ok true, w.resumeAfterStorageBlock)
    | (.error e, w) => (.error e, w)
  | (.error e, w') =>
    if e.type = .spoolFullError then (.ok false, w'.blockOnStorage .spoolFull (errorText e))
    else if e.isSpoolStorageError then
      (.ok false, w'.blockOnStorage (storageBlockReason e) (errorText e))
    else (.error e, w')

/-- `_persist_held`. -/
def persistHeld (w : World) : Except Exc Bool × World :=
  if w.held = [] then (.ok true, w)
  else
    let space := w.freeSpace
    if space.1.blocked then
      (.ok false, space.2.blockOnStorage .diskSpace (storageStatusText space.1))
    else space.2.enqueueHeld

/-! ## Building a batch -/

/-- `_MAX_SQLITE_BATCH_BYTES`. -/
def maxSqliteBatchBytes : Nat := 2 ^ 63 - 1

/-- `EventEnvelope.from_bytes(payload).to_ilp(table)`. -/
def encodePayload (table : PyStr) (payload : Bytes) (interpreter : Interpreter := .plain) :
    Except Exc Bytes := do
  (← EventEnvelope.fromBytes payload interpreter).toIlp table

/-- `except (EventEnvelopeError, IlpEncodingError)`. -/
def isUndecodable (e : Exc) : Bool :=
  match e.type with
  | .eventEnvelopeError | .ilpEncodingError => true
  | _ => false

/-- What the loop of `_build_batch` ends with. -/
inductive BatchPlan where
  | send (built : BuiltBatch)
  /-- The oldest row cannot be decoded or encoded. -/
  | bury (record : SpoolRecord) (e : Exc)
  | raise (e : Exc)

/-- `WorkerConfigurationError` of an oversized row. -/
def configurationError (encodedBytes limit : Nat) : Exc :=
  { type := .workerConfigurationError,
    message := py "encoded event is " ++ natText encodedBytes ++
      py " bytes; delivery batch limit is " ++ natText limit }

/-- The loop of `_build_batch` over the records. -/
def planBatch (table : PyStr) (limit : Nat) (records : List SpoolRecord) (built : BuiltBatch)
    (interpreter : Interpreter := .plain) : BatchPlan :=
  match records with
  | [] => .send built
  | record :: records =>
    match encodePayload table record.payload interpreter with
    | .error e =>
      if isUndecodable e then
        if built.sequences ≠ [] then .send built else .bury record e
      else .raise e
    | .ok encoded =>
      if built.payload.length + encoded.length > limit then
        if built.sequences = [] then .raise (configurationError encoded.length limit)
        else .send built
      else planBatch table limit records (built.add record encoded) interpreter

/-- The observation of a committed move of one row. -/
def movedRow (before after : Database) (sequence : Int) : Obs :=
  .moved
    ((before.pending.find? (·.sequence = sequence)).elim ⟨sequence, [], [], 0⟩
      SpoolRecord.identity)
    ((before.deadLetter.filter fun d =>
      d.originalSequence ∉ after.deadLetter.map (·.originalSequence)).map
      DeadLetterRecord.identity)

/-- The move of one row to dead letter, and what follows it: the move is counted, and its reason
is the worker's last error. -/
def moveToDeadLetter (w : World) (sequence : Int) (error : PyStr) (uncertain : Bool) :
    Except Exc Unit × World :=
  match w.call (SQLiteSpool.moveToDeadLetter w.config.limits [sequence] error w.env.wallTimeNs
      uncertain) with
  | (.ok (moved, evicted), w') =>
    (.ok (), ((w'.observe (movedRow w.spool.db w'.spool.db sequence)).count
      (Counters.deadLetterMove moved evicted)).setDeliveryState .running (some error) none)
  | (.error e, w') => (.error e, w')

/-- The undecodable oldest row of `_build_batch`. -/
def bury (w : World) (record : SpoolRecord) (e : Exc) : Except Exc (Option BuiltBatch) × World :=
  match w.moveToDeadLetter record.sequence (errorText e) false with
  | (.ok (), w) => (.ok (some .empty), w)
  | (.error e, w) =>
    if e.type = .deadLetterFullError then
      (.ok none, w.setDeliveryState .blocked (some (errorText e)) none)
    else (.error e, w)

/-- `_build_batch`. The steps of the service run it on a stack that suffices for the rows. -/
def buildBatch (w : World) (isolateNext : Bool) (interpreter : Interpreter := .plain) :
    Except Exc (Option BuiltBatch) × World :=
  let maxRows := if isolateNext then 1 else w.config.settings.deliveryBatchRows
  match w.call (SQLiteSpool.peekBatch maxRows maxSqliteBatchBytes) with
  | (.error e, w) => (.error e, w)
  | (.ok [], w) => (.ok none, w)
  | (.ok records, w) =>
    match planBatch w.config.table.name w.config.settings.deliveryBatchBytes records .empty
      interpreter with
    | .send built => (.ok (some built), w)
    | .bury record e => w.bury record e
    | .raise e => (.error e, w)

/-! ## Delivery -/

/-- How a delivery stands when `_deliver_once` first yields: it has an outcome, or it awaits
`send_batch`. -/
inductive Started where
  | done (outcome : DeliveryOutcome)
  | sending (built : BuiltBatch)

/-- The delay of a failed attempt, and the state that reports it. -/
def retryLater (w : World) (backoff : Backoff) (error : PyStr) :
    DeliveryOutcome × Backoff × World :=
  let next := backoff.nextDelay w.config.settings w.env.random
  (.retry next.1, next.2,
    (w.count Counters.retried).setDeliveryState .retryWait (some error) (some next.1))

/-- `_deliver_once` up to its await. -/
def deliverStart (w : World) (isolateNext : Bool) (backoff : Backoff) :
    Except Exc Started × Backoff × World :=
  match w.buildBatch isolateNext with
  | (.error e, w) => (.error e, backoff, w)
  | (.ok none, w) =>
    let error := (w.shared.lastError.filter (· ≠ [])).getD (py "dead-letter move failed")
    let r := w.retryLater backoff error
    (.ok (.done r.1), r.2.1, r.2.2)
  | (.ok (some built), w) =>
    if built.sequences = [] then (.ok (.done .deadLetter), backoff, w)
    else (.ok (.sending built), backoff, w)

/-- `spool.record_attempt` of a batch. -/
def recordAttempt (w : World) (built : BuiltBatch) (error : PyStr) (uncertain : Bool) :
    Except Exc Unit × World :=
  match w.call (SQLiteSpool.recordAttempt built.sequences error uncertain) with
  | (.ok _, w) => (.ok (), w)
  | (.error e, w) => (.error e, w)

/-- The rows with the given sequences. -/
def rowsOf (db : Database) (sequences : List Int) : List RowIdentity :=
  (db.pending.filter (·.sequence ∈ sequences)).map SpoolRecord.identity

/-- What follows a successful `send_batch`. -/
def batchDelivered (w : World) (built : BuiltBatch) : Except Exc Unit × World :=
  match w.call (SQLiteSpool.markDelivered built.sequences) with
  | (.error e, w) => (.error e, w)
  | (.ok _, w') =>
    let w' := (w'.observe (.delivered (rowsOf w.spool.db built.sequences)
      built.uncertainSequences)).resumeAfterStorageBlock
    let w' := w'.count fun c =>
      { c with
        deliveredEvents := c.deliveredEvents + built.sequences.length
        uncertainDeliveredEvents := c.uncertainDeliveredEvents + built.uncertainSequences.length }
    let w' := w'.withShared ({ · with lastSuccessNs := some w.env.wallTimeNs })
    (.ok (), w'.setDeliveryState .running none none)

/-- A batch that was rejected with status 400. -/
def batchRejected (w : World) (built : BuiltBatch) (backoff : Backoff) (e : IlpError) :
    Except Exc DeliveryOutcome × Backoff × World :=
  match built.sequences with
  | [sequence] =>
    match w.moveToDeadLetter sequence e.text e.deliveryUncertain with
    | (.ok (), w) => (.ok .deadLetter, backoff, w)
    | (.error x, w) =>
      if x.type = .deadLetterFullError then
        let r := w.retryLater backoff (errorText x)
        (.ok r.1, r.2.1, r.2.2)
      else (.error x, backoff, w)
  | _ =>
    match w.recordAttempt built e.text e.deliveryUncertain with
    | (.ok (), w) => (.ok .split, backoff, w.setDeliveryState .running (some e.text) none)
    | (.error x, w) => (.error x, backoff, w)

/-- `_deliver_once` from its await on. -/
def deliverFinish (w : World) (built : BuiltBatch) (backoff : Backoff) (result : SendResult) :
    Except Exc DeliveryOutcome × Backoff × World :=
  let w := w.observe (.sent built result)
  match result with
  | .ok =>
    match w.batchDelivered built with
    | (.ok (), w) => (.ok .success, .initial w.config.settings, w)
    | (.error e, w) => (.error e, backoff, w)
  | .raised e => (.error e, backoff, w)
  | .error e =>
    match e.kind with
    | .authentication =>
      (.ok .blocked, backoff, w.setDeliveryState .blocked (some e.text) none (some .auth))
    | .retryable =>
      match w.recordAttempt built e.text e.deliveryUncertain with
      | (.ok (), w) =>
        let r := w.retryLater backoff e.text
        (.ok r.1, r.2.1, r.2.2)
      | (.error x, w) => (.error x, backoff, w)
    | .permanent =>
      let backoff := .initial w.config.settings
      if e.statusCode = some 400 then w.batchRejected built backoff e
      else (.ok .blocked, backoff, w.setDeliveryState .blocked (some e.text) none)
    | .transport => (.error e.exc, backoff, w)

end World

end QuestDbWriter
