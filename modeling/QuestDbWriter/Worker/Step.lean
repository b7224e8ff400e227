import QuestDbWriter.Worker.Methods

/-!
# The worker's steps

Every party moves in atomic steps: a lock block, a read or write outside the lock that another
thread can see, or what a coroutine does between two awaits. The persist loop, which shares the
ingress queue with the callers of `submit()`, moves in smaller ones (`draining`, `persisting`,
`checking`); while it does, no other coroutine and no callback of its loop runs (`busy`).

`step` is the whole system. An action that is not enabled has no successor. `restart` is the death
of the process at any moment and the start of a new one on the same file. The two tasks of the loop
may move in any order, which allows more than asyncio does: it starts the delivery loop only behind
the first turn of the persist loop.
-/

namespace QuestDbWriter

open Lib

namespace World

/-! ## The persist loop -/

/-- The loop of the worker thread runs no coroutine but this one. -/
def busy (w : World) : Bool :=
  match w.persist with
  | .draining | .persisting | .checking => true
  | _ =>
    match w.main with
    | .publishing | .testing => true
    | _ => false

/-- The coroutines of the loop have been created and not been torn down. -/
def tasksRun (w : World) : Bool :=
  match w.main with
  | .waiting | .awaitPersist | .flushEnsuring | .flushSending _ => true
  | _ => false

/-- One turn of `_drain_ingress`. -/
def persistDrain (w : World) : World :=
  match w.ingress with
  | event :: ingress =>
    if w.held.length < w.config.settings.persistBatchRows then
      { w with held := w.held ++ [event], ingress }
    else { w with persist := .persisting }.withShared ({ · with heldUnpersisted := w.held.length })
  | [] => { w with persist := .persisting }.withShared ({ · with heldUnpersisted := w.held.length })

/-- The durable part of one turn of `_persist_loop`. -/
def persistRound (w : World) : World :=
  match w.persistHeld with
  | (.error e, w) => { w with persist := .raised e }
  | (.ok _, w) =>
    match w.readStats with
    | (.error e, w) => { w with persist := .raised e }
    | (.ok _, w) => { w with wakeDeliver := true, persist := .checking }

/-- `_SHUTDOWN_RETRY_SECONDS`. -/
def shutdownRetrySeconds : ℚ := 1 / 20

def shutdownError (left : Nat) : Exc :=
  { type := .workerShutdownError,
    message := py "shutdown left " ++ natText left ++ py " accepted events unpersisted" }

/-- The end of one turn of `_persist_loop`: return, give up, or wait. -/
def persistCheck (w : World) : World :=
  let now := w.env.monotonic
  if w.stopAsync then
    if w.held = [] ∧ w.ingress = [] then { w with persist := .returned }
    else
      match w.shared.shutdownDeadline with
      | none => { w with persist := .sleeping (now + shutdownRetrySeconds) }
      | some deadline =>
        if deadline ≤ now then
          { w with persist := .raised (shutdownError (w.held.length + w.ingress.length)) }
        else
          { w with persist := .sleeping (now + min shutdownRetrySeconds (max 0 (deadline - now))) }
  else
    { w with wakePersist := false,
             persist := .waiting (now + w.config.settings.persistIdlePollSeconds) }

/-! ## The delivery loop -/

/-- The delivery loop's variable `pending_since` after it read the counters. -/
def pendingSinceAt (now : ℚ) (stats : SpoolStats) (since : Option ℚ) : Option ℚ :=
  if stats.pendingRows = 0 then none else some (since.getD now)

/-- `delivery_due`. -/
def deliveryDue (w : World) (stats : SpoolStats) : Bool :=
  let now := w.env.monotonic
  let settings := w.config.settings
  let retryReady := w.locals.retryAt.all (· ≤ now)
  let flushDue := decide (settings.deliveryBatchRows ≤ stats.pendingRows) ||
    decide (settings.deliveryBatchBytes ≤ stats.pendingBytes) ||
    w.locals.pendingSince.any fun since => settings.flushIntervalSeconds ≤ now - since
  let pressureDue := decide (0 < stats.pendingRows) && decide (w.ingress = []) &&
    decide (w.shared.heldUnpersisted = 0)
  decide (0 < stats.pendingRows) && !w.locals.blocked && retryReady && (flushDue || pressureDue)

/-- The main wait of `_delivery_loop`. -/
def deliverPark (w : World) : World :=
  let now := w.env.monotonic
  let flushInterval := w.config.settings.flushIntervalSeconds
  let flushAt := (w.locals.pendingSince.map (· + flushInterval)).filter (now < ·)
  let retryAt := w.locals.retryAt.filter (now < ·)
  let deadline := (flushAt.toList ++ retryAt.toList).foldl min (now + flushInterval)
  { w with wakeDeliver := false, deliver := .waiting (now + max 0 (deadline - now)) }

/-- What `_delivery_loop` does with an outcome. -/
def afterDelivery (w : World) (outcome : DeliveryOutcome) : World :=
  match w.readStats with
  | (.error e, w) => { w with deliver := .raised e }
  | (.ok stats, w) =>
    let now := w.env.monotonic
    { w with
      deliver := .top
      locals := { w.locals with
        retryAt := match outcome with
          | .retry delay => some (now + delay)
          | _ => none
        blocked := w.locals.blocked || decide (outcome = .blocked)
        isolateNext := decide (outcome = .split)
        pendingSince := match outcome with
          | .success | .deadLetter =>
            if stats.pendingRows ≠ 0 then some (now - w.config.settings.flushIntervalSeconds)
            else none
          | _ => w.locals.pendingSince } }

/-- What `_delivery_loop` does with an exception of `_deliver_once`. -/
def deliveryFailed (w : World) (e : Exc) : World :=
  if e.isSpoolStorageError then
    let w := w.blockOnStorage (storageBlockReason e) (errorText e)
    let next := w.locals.backoff.nextDelay w.config.settings w.env.random
    { w with
      deliver := .top
      locals := { w.locals with retryAt := some (w.env.monotonic + next.1), backoff := next.2 } }
  else { w with deliver := .raised e }

/-- The loop's backoff, which `_deliver_once` shares. -/
def withBackoff (w : World) (backoff : Backoff) : World :=
  { w with locals := { w.locals with backoff } }

/-- `_deliver_once` of the delivery loop, up to its await. -/
def deliverAttempt (w : World) : World :=
  match w.deliverStart w.locals.isolateNext w.locals.backoff with
  | (.ok (.sending built), backoff, w) => { w.withBackoff backoff with deliver := .sending built }
  | (.ok (.done outcome), backoff, w) => (w.withBackoff backoff).afterDelivery outcome
  | (.error e, backoff, w) => (w.withBackoff backoff).deliveryFailed e

/-- One turn of `_delivery_loop` behind the schema gate. -/
def deliverBody (w : World) : World :=
  match w.readStats with
  | (.error e, w) => { w with deliver := .raised e }
  | (.ok stats, w) =>
    let since := pendingSinceAt w.env.monotonic stats w.locals.pendingSince
    let w := { w with locals := { w.locals with pendingSince := since } }
    if w.deliveryDue stats then w.deliverAttempt else w.deliverPark

/-- The top of `_delivery_loop`. -/
def deliverTop (w : World) : World :=
  if w.stopAsync then { w with deliver := .returned }
  else if w.locals.schemaReady then w.deliverBody
  else { w with deliver := .ensuring }

/-- The wait of `_ensure_schema` after a failure. -/
def gateWait (w : World) (delay : ℚ) : World :=
  { w with wakeDeliver := false, deliver := .gateWait (w.env.monotonic + delay) }

/-- `_ensure_schema` after a failure that stays until something changes. -/
def gateBlocked (w : World) (error : PyStr) : World :=
  (w.setDeliveryState .blocked (some error) none).gateWait w.config.settings.retryMaxSeconds

/-- `_ensure_schema` from its await on. -/
def deliverEnsured (w : World) (result : EnsureResult) : World :=
  let w := w.observe (.ensured result)
  match result with
  | .ok =>
    ({ w.withBackoff (.initial w.config.settings) with
        locals := { (w.withBackoff (.initial w.config.settings)).locals with
          schemaReady := true } }.setDeliveryState .running none none).deliverBody
  | .error e =>
    match e.kind with
    | .authentication | .permanent => w.gateBlocked e.text
    | .retryable =>
      let r := w.retryLater w.locals.backoff e.text
      let delay := (w.locals.backoff.nextDelay w.config.settings w.env.random).1
      (r.2.2.withBackoff r.2.1).gateWait delay
    | .transport => { w with deliver := .raised e.exc }
  | .schema mismatch message =>
    if mismatch then w.gateBlocked (errorText (schemaExc mismatch message))
    else { w with deliver := .raised (schemaExc mismatch message) }
  | .raised e => { w with deliver := .raised e }

/-- The end of `send_batch` in the delivery loop. -/
def deliverSent (w : World) (built : BuiltBatch) (result : SendResult) : World :=
  match w.deliverFinish built w.locals.backoff result with
  | (.ok outcome, backoff, w) => (w.withBackoff backoff).afterDelivery outcome
  | (.error e, backoff, w) => (w.withBackoff backoff).deliveryFailed e

/-! ## The main coroutine -/

/-- A coroutine that has not ended is cancelled; a request in flight is forgotten. -/
def cancelPersist (w : World) : World :=
  match w.persist with
  | .returned | .raised _ => w
  | _ => { w with persist := .cancelled }

def cancelDeliver (w : World) : World :=
  match w.deliver with
  | .returned | .raised _ => w
  | _ => { w with deliver := .cancelled }

/-- `_async_main` raises: the loop is torn down, and the thread handles the exception. Before that
`asyncio.run` waits for a request still in flight on its executor; here the loop ends at once. -/
def mainRaise (w : World) (e : Exc) : World :=
  { w.cancelPersist.cancelDeliver with main := .ended, loopRunning := false, thread := .raising e }

/-- The end of `_async_main`: the delivery task is cancelled and awaited. As for `mainRaise`, a
request in flight is not waited for. -/
def mainFinish (w : World) : World :=
  match w.deliver with
  | .raised e => w.mainRaise e
  | _ => { w.cancelDeliver with main := .ended, loopRunning := false, thread := .closing false }

/-- `_deliver_once` of the shutdown flush, up to its await. -/
def flushStart (w : World) : World :=
  match w.deliverStart false (.initial w.config.settings) with
  | (.ok (.sending built), backoff, w) =>
    { w with main := .flushSending built, flushBackoff := backoff }
  | (.ok (.done _), _, w) => w.mainFinish
  | (.error e, _, w) => w.mainRaise e

/-- `_async_main` after the persist task has returned. -/
def mainPersisted (w : World) : World :=
  if w.config.settings.flushOnShutdown then
    match w.call SQLiteSpool.stats with
    | (.error e, w) => w.mainRaise e
    | (.ok stats, w) =>
      if stats.pendingRows = 0 then w.mainFinish
      else if w.config.hasSchema then { w with main := .flushEnsuring }
      else w.flushStart
  else w.mainFinish

/-- `_schema_is_ready` from its await on. -/
def flushEnsured (w : World) (result : EnsureResult) : World :=
  let w := w.observe (.ensured result)
  match result with
  | .ok => w.flushStart
  | .error _ | .schema _ _ => w.mainFinish
  | .raised e => w.mainRaise e

/-- The end of `send_batch` in the shutdown flush. -/
def flushSent (w : World) (built : BuiltBatch) (result : SendResult) : World :=
  match w.deliverFinish built w.flushBackoff result with
  | (.ok _, _, w) => w.mainFinish
  | (.error e, _, w) => w.mainRaise e

/-- A request to stop: `_async_main` no longer accepts events and awaits the persist task. -/
def mainStop (w : World) : World :=
  { w with main := .awaitPersist }.withShared ({ · with state := .stopping, accepting := false })

def taskExited : Exc :=
  { type := .workerError, message := py "worker task exited before stop was requested" }

/-- `_async_main` when a task ended before a stop was requested. -/
def mainTaskDone (w : World) : Option World :=
  match w.persist, w.deliver with
  | .raised e, _ => some (w.mainRaise e)
  | _, .raised e => some (w.mainRaise e)
  | .returned, _ | _, .returned => if w.stopAsync then none else some (w.mainRaise taskExited)
  | _, _ => none

/-! ## The worker thread -/

/-- `_run` up to its lock block: the spool is opened, the factories are called, the counters are
read. -/
def threadOpen (w : World) (factoryError : Option Exc) : World :=
  match w.call (SQLiteSpool.openSpool w.env.pragmas w.env.freeBytes) with
  | (.error e, w) => { w with thread := .raising e }
  | (.ok _, w) =>
    match factoryError with
    | some e => { w with thread := .raising e }
    | none =>
      match w.readStats with
      | (.error e, w) => { w with thread := .raising e }
      | (.ok _, w) => { w with thread := .opened }

/-- The lock block of `_run` before it signals that it is ready. -/
def threadStartup (w : World) : World :=
  { w with thread := .announcing }.withShared fun s =>
    if w.stopRequested then { s with state := .stopping, accepting := false }
    else { s with state := .running, accepting := true }

/-- The lock block of `_run` for an exception. -/
def threadFail (w : World) (e : Exc) : World :=
  { w with thread := .closing true }.withShared fun s =>
    { s with failure := some e, accepting := false, state := .failed,
             lastError := some (errorText e) }

/-- The last lock block of `_run`. -/
def threadExit (w : World) (failed : Bool) (cleanup : Option Exc) : World :=
  { w with thread := .ended }.withShared fun s =>
    let s := { s with accepting := false }
    if failed then s
    else
      match cleanup with
      | some e =>
        { s with failure := some e, state := .failed, lastError := some (errorText e) }
      | none => { s with state := .stopped }

/-! ## The callers -/

/-- `_signal_loop`. -/
def signalLoop (w : World) (callback : Callback) : World :=
  if w.loopRunning then { w with callbacks := w.callbacks ++ [callback] } else w

/-- `thread.is_alive()`. -/
def threadAlive (w : World) : Bool :=
  match w.thread with
  | .absent | .dead => false
  | _ => true

/-- The text for an oversized event. -/
def oversizedText (bytes limit : Nat) : PyStr :=
  py "serialized event is " ++ natText bytes ++ py " bytes; limit is " ++ natText limit

/-- The lock block of `submit()`. -/
def submitAccept (w : World) (event : NewSpoolEvent) : World :=
  if w.shared.accepting then
    if w.ingress.length < w.config.settings.ingressQueueCapacity then
      let ingress := w.ingress ++ [event]
      ({ w with ingress, submitSignals := w.submitSignals + 1 }.observe
        (.accepted event)).withShared fun s =>
        { s.count fun c => { c with submittedEvents := c.submittedEvents + 1 } with
          ingressHighWatermark := max s.ingressHighWatermark ingress.length }
    else
      w.withShared fun s =>
        { s.count fun c => { c with overflowedEvents := c.overflowedEvents + 1 } with
          lastError := some (py "ingress queue is full") }
  else w

/-- `submit()` up to its signal. An event without a payload raises before anything changes. -/
def submit (w : World) (event : EventEnvelope) : World :=
  match event.toSpoolEvent with
  | .error _ => w
  | .ok event =>
    if w.config.settings.maxSerializedEventBytes < event.payload.length then
      w.withShared fun s =>
        { s.count fun c => { c with oversizedEvents := c.oversizedEvents + 1 } with
          lastError := some
            (oversizedText event.payload.length w.config.settings.maxSerializedEventBytes) }
    else w.submitAccept event

/-- The lock block of `stop()`. -/
def stopLock (w : World) (i : Nat) (seen : Bool) (timeout : ℚ) : World :=
  let w := w.withShared ({ · with accepting := false })
  if w.shared.state = .new then
    { w with stops := w.stops.set i (.returned true) }.withShared ({ · with state := .stopped })
  else if !seen || !w.threadAlive then { w with stops := w.stops.set i (.returned true) }
  else
    { w with stops := w.stops.set i .setting }.withShared
      ({ · with state := .stopping, shutdownDeadline := some (w.env.monotonic + timeout) })

/-- The first lock block of `start()`. -/
def startCall (w : World) : World :=
  if w.shared.state = .new then
    { w with start := .waiting, thread := .opening }.withShared ({ · with state := .starting })
  else { w with start := .raised }

/-- The lock block of `start()` once the thread is ready. -/
def startReady (w : World) : World :=
  match w.shared.state with
  | .failed | .new | .starting => { w with start := .raised }
  | _ => { w with start := .returned }

end World

/-! ## The system -/

/-- What can happen next. -/
inductive Action where
  | environment (env : Env) (faults : List (Option StorageFault))
  | restart (config : Config) (env : Env)
  | submit (event : EventEnvelope)
  | submitSignal
  | startCall
  | startReady
  | startTimeout
  | startTimedOut
  | startSignal
  | stopCall (timeout : ℚ)
  | stopLock (i : Nat)
  | stopSet (i : Nat)
  | stopSignal (i : Nat)
  | stopReturn (i : Nat)
  | threadOpen (factoryError : Option Exc)
  | threadStartup
  | threadAnnounce
  | threadFail
  | threadClose (cleanup : Option Exc)
  | threadExit
  | threadDie
  | callback
  | mainPublish
  | mainTest
  | mainStop
  | mainTaskDone
  | mainPersistDone
  | flushEnsured (result : EnsureResult)
  | flushSent (result : SendResult)
  | persistRun
  | persistDrain
  | persistRound
  | persistCheck
  | persistWake
  | deliverRun
  | deliverEnsured (result : EnsureResult)
  | deliverSent (result : SendResult)
  | deliverWake

open World in
/-- One step of the system. -/
def step (w : World) : Action → Option World
  | .environment env faults => some { w with env, spool := { w.spool with faults } }
  | .restart config env => some (.boot config env w.spool.db w.history)
  | .submit event => some (w.submit event)
  | .submitSignal =>
    if 0 < w.submitSignals then
      some ({ w with submitSignals := w.submitSignals - 1 }.signalLoop .wakePersist)
    else none
  | .startCall => if w.start = .idle then some w.startCall else none
  | .startReady => if w.start = .waiting ∧ w.ready then some w.startReady else none
  | .startTimeout =>
    -- the wait may have returned `False` before the thread became ready
    if w.start = .waiting then
      some ({ w with start := .timedOut }.withShared
        ({ · with accepting := false, lastError := some (py "worker initialization timed out") }))
    else none
  | .startTimedOut =>
    if w.start = .timedOut then some { w with start := .signalling, stopRequested := true }
    else none
  | .startSignal =>
    if w.start = .signalling then some ({ w with start := .raised }.signalLoop .stopAsync)
    else none
  | .stopCall timeout =>
    if 0 < timeout then
      some { w with stops := w.stops ++ [.locking (decide (w.thread ≠ .absent)) timeout] }
    else none
  | .stopLock i =>
    match w.stops[i]? with
    | some (.locking seen timeout) => some (w.stopLock i seen timeout)
    | _ => none
  | .stopSet i =>
    if w.stops[i]? = some .setting then
      some { w with stops := w.stops.set i .signalling, stopRequested := true }
    else none
  | .stopSignal i =>
    if w.stops[i]? = some .signalling then
      some ({ w with stops := w.stops.set i .joining }.signalLoop .stopAsync)
    else none
  | .stopReturn i =>
    if w.stops[i]? = some .joining then
      some { w with stops := w.stops.set i (.returned (!w.threadAlive)) }
    else none
  | .threadOpen factoryError =>
    if w.thread = .opening then some (w.threadOpen factoryError) else none
  | .threadStartup => if w.thread = .opened then some w.threadStartup else none
  | .threadAnnounce =>
    if w.thread = .announcing then
      some { w with thread := .looping, ready := true, main := .publishing }
    else none
  | .threadFail =>
    match w.thread with
    | .raising e => some (w.threadFail e)
    | _ => none
  | .threadClose cleanup =>
    match w.thread with
    | .closing failed => some { w with ready := true, thread := .exiting failed cleanup }
    | _ => none
  | .threadExit =>
    match w.thread with
    | .exiting failed cleanup => some (w.threadExit failed cleanup)
    | _ => none
  | .threadDie => if w.thread = .ended then some { w with thread := .dead } else none
  | .callback =>
    if w.loopRunning ∧ w.busy = false then
      match w.callbacks with
      | .wakePersist :: callbacks => some { w with callbacks, wakePersist := true }
      | .stopAsync :: callbacks => some { w with callbacks, stopAsync := true }
      | [] => none
    else none
  | .mainPublish =>
    if w.main = .publishing then some { w with main := .testing, loopRunning := true } else none
  | .mainTest =>
    if w.main = .testing then
      some { w with main := .waiting, stopAsync := w.stopAsync || w.stopRequested }
    else none
  | .mainStop =>
    if w.main = .waiting ∧ w.stopAsync ∧ w.busy = false then some w.mainStop else none
  | .mainTaskDone => if w.main = .waiting ∧ w.busy = false then w.mainTaskDone else none
  | .mainPersistDone =>
    if w.main = .awaitPersist then
      match w.persist with
      | .returned => some w.mainPersisted
      | .raised e => some (w.mainRaise e)
      | _ => none
    else none
  | .flushEnsured result =>
    if w.main = .flushEnsuring then some (w.flushEnsured result) else none
  | .flushSent result =>
    match w.main with
    | .flushSending built => some (w.flushSent built result)
    | _ => none
  | .persistRun =>
    if w.tasksRun ∧ w.persist = .top then some { w with persist := .draining } else none
  | .persistDrain => if w.persist = .draining then some w.persistDrain else none
  | .persistRound => if w.persist = .persisting then some w.persistRound else none
  | .persistCheck => if w.persist = .checking then some w.persistCheck else none
  | .persistWake =>
    match w.persist with
    | .waiting deadline =>
      if w.wakePersist ∨ w.stopAsync ∨ deadline ≤ w.env.monotonic then
        some { w with persist := .top }
      else none
    | .sleeping deadline =>
      if deadline ≤ w.env.monotonic then some { w with persist := .top } else none
    | _ => none
  | .deliverRun =>
    if w.tasksRun ∧ w.busy = false ∧ w.deliver = .top then some w.deliverTop else none
  | .deliverEnsured result =>
    if w.busy = false ∧ w.deliver = .ensuring then some (w.deliverEnsured result) else none
  | .deliverSent result =>
    if w.busy then none
    else
      match w.deliver with
      | .sending built => some (w.deliverSent built result)
      | _ => none
  | .deliverWake =>
    if w.busy then none
    else
      match w.deliver with
      | .gateWait deadline | .waiting deadline =>
        if w.wakeDeliver ∨ w.stopAsync ∨ deadline ≤ w.env.monotonic then
          some { w with deliver := .top }
        else none
      | _ => none

end QuestDbWriter
