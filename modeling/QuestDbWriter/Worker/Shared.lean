import QuestDbWriter.Event
import QuestDbWriter.Spool.Operations

/-!
# What the worker's threads share

The settings of `worker.py`, the free-space guard of `storage_guard.py`, and the fields of
`WriterService` that its threads read and write under its lock (`Shared`), with one function for
each method that changes them. Seconds and ratios are exact rationals.
-/

namespace QuestDbWriter

open Lib

/-! ## Settings -/

/-- `WorkerSettings`: what `__post_init__` accepts. -/
structure WorkerSettings where
  ingressQueueCapacity : Nat
  maxSerializedEventBytes : Nat
  persistBatchRows : Nat
  deliveryBatchRows : Nat
  deliveryBatchBytes : Nat
  flushIntervalSeconds : ℚ
  persistIdlePollSeconds : ℚ
  retryInitialSeconds : ℚ
  retryMaxSeconds : ℚ
  retryMultiplier : ℚ
  retryJitterRatio : ℚ
  flushOnShutdown : Bool
  minFreeBytes : Nat
  minFreeRatio : ℚ
  ingressQueueCapacity_pos : 0 < ingressQueueCapacity
  maxSerializedEventBytes_pos : 0 < maxSerializedEventBytes
  persistBatchRows_pos : 0 < persistBatchRows
  deliveryBatchRows_pos : 0 < deliveryBatchRows
  deliveryBatchBytes_pos : 0 < deliveryBatchBytes
  flushIntervalSeconds_pos : 0 < flushIntervalSeconds
  persistIdlePollSeconds_pos : 0 < persistIdlePollSeconds
  minFreeRatio_range : 0 ≤ minFreeRatio ∧ minFreeRatio < 1
  retryInitialSeconds_pos : 0 < retryInitialSeconds
  retryMaxSeconds_ge : retryInitialSeconds ≤ retryMaxSeconds
  retryMultiplier_ge : 1 ≤ retryMultiplier
  retryJitterRatio_range : 0 ≤ retryJitterRatio ∧ retryJitterRatio ≤ 1

/-! ## The free-space guard -/

/-- `StorageUsage`. -/
structure StorageUsage where
  totalBytes : Nat
  freeBytes : Nat
deriving DecidableEq

/-- `StorageStatus`. -/
structure StorageStatus where
  freeBytes : Int
  totalBytes : Int
  reserveBytes : Int
  error : Option PyStr := none
deriving DecidableEq

/-- `StorageStatus.blocked`. -/
def StorageStatus.blocked (s : StorageStatus) : Bool :=
  s.error.isSome || decide (s.freeBytes < s.reserveBytes)

/-- `reserve_bytes_for`, with the exact product: the code rounds `total_bytes * min_free_ratio` to a
float before `ceil`, which can move the reserve by the bytes of that rounding. -/
def reserveBytesFor (totalBytes minFreeBytes : Nat) (minFreeRatio : ℚ) : Int :=
  max minFreeBytes ⌈totalBytes * minFreeRatio⌉

/-- `FilesystemGuard.check`, for what the filesystem answers: its usage, or the text of an
`OSError`. -/
def guardCheck (settings : WorkerSettings) : Except PyStr StorageUsage → StorageStatus
  | .error text =>
      { freeBytes := 0, totalBytes := 0, reserveBytes := settings.minFreeBytes, error := some text }
  | .ok usage =>
      { freeBytes := usage.freeBytes, totalBytes := usage.totalBytes
        reserveBytes :=
          reserveBytesFor usage.totalBytes settings.minFreeBytes settings.minFreeRatio }

/-- `_storage_status_text`. -/
def storageStatusText (status : StorageStatus) : PyStr :=
  match status.error with
  | some error => py "free space could not be read: " ++ error
  | none =>
      intText status.freeBytes ++ py " free bytes are below the " ++
        intText status.reserveBytes ++ py " byte reserve"

/-! ## Errors -/

/-- `_MAX_ERROR_TEXT`. -/
def maxErrorText : Nat := 4096

/-- `_error_text`, for the class and the text of an exception. -/
def errorTextOf (typeName message : PyStr) : PyStr :=
  let message := Escape.replaceChar (ofChar '\x00') [ofChar '\uFFFD']
    (typeName ++ py ": " ++ message)
  if maxErrorText < message.length then message.take maxErrorText ++ [ofChar '…'] else message

def errorText (e : Exc) : PyStr := errorTextOf (py e.type.name) e.message

/-- The reasons of a block: `_BLOCK_AUTH`, and `_STORAGE_BLOCK_REASONS`. -/
inductive BlockReason where
  | auth
  | spoolFull
  | diskFull
  | readOnly
  | diskSpace
  | storage
deriving DecidableEq

/-- `reason in _STORAGE_BLOCK_REASONS`. -/
def BlockReason.isStorage : BlockReason → Bool
  | auth => false
  | _ => true

/-- `_storage_block_reason`. -/
def storageBlockReason (e : Exc) : BlockReason :=
  match e.type with
  | .spoolDiskFullError => .diskFull
  | .spoolReadOnlyError => .readOnly
  | _ => .storage

/-! ## The fields under the lock -/

/-- `WorkerState`. -/
inductive WorkerState where
  | new
  | starting
  | running
  | retryWait
  | blocked
  | stopping
  | stopped
  | failed
deriving DecidableEq

/-- `WorkerErrorRecord`. -/
structure WorkerErrorRecord where
  tsNs : Int
  error : PyStr
deriving DecidableEq

/-- The counters of `WriterService`. -/
structure Counters where
  submittedEvents : Nat := 0
  persistedEvents : Nat := 0
  deliveredEvents : Nat := 0
  retryAttempts : Nat := 0
  deadLetteredEvents : Nat := 0
  deadLetterEvictedEvents : Nat := 0
  uncertainDeliveredEvents : Nat := 0
  overflowedEvents : Nat := 0
  oversizedEvents : Nat := 0
deriving DecidableEq

/-- What the service does to its storage. -/
inductive StorageEvent where
  /-- `FilesystemGuard.check` returned. -/
  | measured (status : StorageStatus)
  /-- `reclaim` is called, at that monotonic time. -/
  | reclaim (now : ℚ)
  | compact
  | enqueueMany
  /-- An ingress batch or a `mark_delivered` was committed. -/
  | written
deriving DecidableEq

/-- The fields of `WriterService` on storage pauses, each without its prefix `storage_`. `calls` is
what the methods have asked of the storage, the last call last; no code reads it. -/
structure StoragePauses where
  blocks : Nat := 0
  blockAttempts : Nat := 0
  recoveries : Nat := 0
  episode : Option BlockReason := none
  lastReclaim : Option ℚ := none
  rewriteAttempted : Bool := false
  calls : List StorageEvent := []
deriving DecidableEq

/-- The fields of `WriterService` that its methods change, other than its queue, its events and
its loop. -/
structure Shared where
  state : WorkerState := .new
  accepting : Bool := false
  heldUnpersisted : Nat := 0
  ingressHighWatermark : Nat := 0
  counters : Counters := {}
  spoolStats : SpoolStats := ⟨0, 0, 0, 0⟩
  retryDelaySeconds : Option ℚ := none
  lastError : Option PyStr := none
  lastSuccessNs : Option Int := none
  blockReason : Option BlockReason := none
  lastErrors : List WorkerErrorRecord := []
  storage : StoragePauses := {}
  diskStatus : Option StorageStatus := none
  failure : Option Exc := none
  shutdownDeadline : Option ℚ := none
deriving DecidableEq

namespace Shared

/-- `self._last_errors.append(...)`, with `maxlen=10`. -/
def appendError (errors : List WorkerErrorRecord) (record : WorkerErrorRecord) :
    List WorkerErrorRecord :=
  (errors ++ [record]).drop (errors.length + 1 - 10)

/-- `_set_delivery_state`. -/
def setDeliveryState (s : Shared) (now : Int) (state : WorkerState) (lastError : Option PyStr)
    (retryDelay : Option ℚ) (blockReason : Option BlockReason := none) : Shared :=
  { s with
    state := if s.state = .stopping ∨ s.state = .failed then s.state else state
    lastError
    retryDelaySeconds := retryDelay
    blockReason := if state = .blocked then blockReason else none
    lastErrors :=
      match lastError with
      | none => s.lastErrors
      | some error => appendError s.lastErrors { tsNs := now, error } }

/-- A pause is counted once for each condition, not once for each attempt. -/
def openEpisode (s : StoragePauses) (reason : BlockReason) : StoragePauses :=
  let s := { s with blockAttempts := s.blockAttempts + 1 }
  if s.episode = none then { s with episode := some reason, blocks := s.blocks + 1 } else s

/-- `_block_on_storage`. -/
def blockOnStorage (s : Shared) (now : Int) (reason : BlockReason) (error : PyStr) : Shared :=
  { s with storage := openEpisode s.storage reason }.setDeliveryState now .blocked (some error) none
    (some reason)

def closeEpisode (s : StoragePauses) : StoragePauses :=
  let s :=
    if s.episode.isSome then { s with recoveries := s.recoveries + 1, episode := none } else s
  { s with rewriteAttempted := false }

/-- `_resume_after_storage_block`. -/
def resumeAfterStorageBlock (s : Shared) (now : Int) : Shared :=
  let s := { s with storage := closeEpisode s.storage }
  if s.state = .blocked ∧ s.blockReason.any BlockReason.isStorage then
    s.setDeliveryState now .running none none
  else s

/-- An update of the counters. -/
def count (s : Shared) (f : Counters → Counters) : Shared := { s with counters := f s.counters }

end Shared

namespace Counters

/-- `_count_dead_letter_move`. -/
def deadLetterMove (moved evicted : Nat) (c : Counters) : Counters :=
  { c with
    deadLetteredEvents := c.deadLetteredEvents + moved
    deadLetterEvictedEvents := c.deadLetterEvictedEvents + evicted }

/-- `self._retry_attempts += 1`. -/
def retried (c : Counters) : Counters := { c with retryAttempts := c.retryAttempts + 1 }

end Counters

/-! ## Backoff -/

/-- `_Backoff`, by its `_base`. -/
structure Backoff where
  base : ℚ
deriving DecidableEq

/-- A value of the random source. -/
structure RandomUnit where
  value : ℚ
  range : 0 ≤ value ∧ value ≤ 1

namespace Backoff

/-- `_Backoff.__init__`, and `reset`. -/
def initial (settings : WorkerSettings) : Backoff := { base := settings.retryInitialSeconds }

/-- `next_delay`: the delay and the backoff after it. -/
def nextDelay (settings : WorkerSettings) (unit : RandomUnit) (b : Backoff) : ℚ × Backoff :=
  let factor := 1 + settings.retryJitterRatio * (2 * unit.value - 1)
  let delay := b.base * factor
  (max 0 (min settings.retryMaxSeconds delay),
    { base := min settings.retryMaxSeconds (b.base * settings.retryMultiplier) })

end Backoff

end QuestDbWriter
