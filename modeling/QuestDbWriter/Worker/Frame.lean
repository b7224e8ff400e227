import QuestDbWriter.Worker.Step

/-!
# What a delivery leaves alone

A relation between worlds that holds across the few things a method does between two awaits holds
across every method (`Framed`), every turn of the delivery loop (`LoopFramed`) and every step of the
shutdown flush (`Flushed`).

The methods act on the spool's connection, on the fields under the lock and on the history only
(`Acts`), and what they change under the lock is not for them to change what the callers and the
threads coordinate by (`Shared.Kept`). `Delivers` is the same for a turn of the delivery loop, which
also has its own local variables.
-/

namespace QuestDbWriter

open Lib

/-! ## Under the lock -/

/-- A state that `_set_delivery_state` may set. -/
def WorkerState.IsDelivery : WorkerState → Prop
  | .running | .retryWait | .blocked => True
  | _ => False

/-- What a delivery keeps of the fields under the lock: the acceptance, the failure, the deadline
and what the callers are counted by. The state changes among those of a running worker. -/
structure Shared.Kept (s s' : Shared) : Prop where
  accepting : s'.accepting = s.accepting
  failure : s'.failure = s.failure
  shutdownDeadline : s'.shutdownDeadline = s.shutdownDeadline
  submitted : s'.counters.submittedEvents = s.counters.submittedEvents
  persisted : s'.counters.persistedEvents = s.counters.persistedEvents
  state : s'.state = s.state ∨
    s.state ≠ .stopping ∧ s.state ≠ .failed ∧ s'.state.IsDelivery

namespace Shared.Kept

/-- Nothing is changed. -/
theorem refl (s : Shared) : Kept s s := ⟨rfl, rfl, rfl, rfl, rfl, .inl rfl⟩

/-- What two changes keep, both together keep. -/
theorem trans {s t u : Shared} (h : Kept s t) (h' : Kept t u) : Kept s u where
  accepting := h'.accepting.trans h.accepting
  failure := h'.failure.trans h.failure
  shutdownDeadline := h'.shutdownDeadline.trans h.shutdownDeadline
  submitted := h'.submitted.trans h.submitted
  persisted := h'.persisted.trans h.persisted
  state := by
    rcases h'.state with he | ⟨h1, h2, h3⟩
    · rcases h.state with he' | ⟨h1, h2, h3⟩
      · exact .inl (he.trans he')
      · exact .inr ⟨h1, h2, he ▸ h3⟩
    · rcases h.state with he' | ⟨h4, h5, -⟩
      · exact .inr ⟨he' ▸ h1, he' ▸ h2, h3⟩
      · exact .inr ⟨h4, h5, h3⟩

/-- A delivery does not stop the worker. -/
theorem of_stopped {s s' : Shared} (h : s.Kept s') (hs : s'.state = .stopped) :
    s.state = .stopped := by
  rcases h.state with he | ⟨-, -, hd⟩
  · exact he.symm.trans hs
  · rw [hs] at hd
    exact hd.elim

/-- The state that a delivery reports is one of a running worker. -/
theorem setDeliveryState (s : Shared) (now : Int) {state : WorkerState} (hs : state.IsDelivery)
    (lastError : Option PyStr) (retryDelay : Option ℚ) (reason : Option BlockReason) :
    Kept s (s.setDeliveryState now state lastError retryDelay reason) where
  accepting := rfl
  failure := rfl
  shutdownDeadline := rfl
  submitted := rfl
  persisted := rfl
  state := by
    unfold Shared.setDeliveryState
    dsimp only
    split
    · exact .inl rfl
    · next h => exact .inr ⟨fun he => h (.inl he), fun he => h (.inr he), hs⟩

/-- The account of the pauses is for the delivery to change. -/
theorem ofStorage (s : Shared) (storage : StoragePauses) : Kept s { s with storage } :=
  ⟨rfl, rfl, rfl, rfl, rfl, .inl rfl⟩

/-- Opening a pause keeps what a delivery keeps. -/
theorem blockOnStorage (s : Shared) (now : Int) (reason : BlockReason) (error : PyStr) :
    Kept s (s.blockOnStorage now reason error) :=
  (ofStorage s (openEpisode s.storage reason)).trans
    (setDeliveryState _ now (by trivial) _ _ _)

/-- Closing a pause keeps what a delivery keeps. -/
theorem resumeAfterStorageBlock (s : Shared) (now : Int) :
    Kept s (s.resumeAfterStorageBlock now) := by
  unfold Shared.resumeAfterStorageBlock
  dsimp only
  split
  · exact (ofStorage s (closeEpisode s.storage)).trans
      (setDeliveryState _ now (by trivial) _ _ _)
  · exact ofStorage s (closeEpisode s.storage)

end Shared.Kept

/-! ## Methods -/

/-- An observation of the delivery side. -/
def Obs.IsDelivery : Obs → Prop
  | .ensured _ | .sent _ _ | .delivered _ _ | .moved _ _ => True
  | _ => False

/-- A durable write was committed. -/
def Obs.isWrite : Obs → Bool
  | .enqueued _ _ | .delivered _ _ => true
  | _ => false

namespace World

/-- A relation that holds across whatever a method of a delivery does: a call of the spool, a change
under the lock, an observation, and what opens and closes a pause of the storage. -/
structure Framed (R : World → World → Prop) : Prop where
  refl (w : World) : R w w
  trans {u v w : World} : R u v → R v w → R u w
  call {α : Type} (w : World) (p : SpoolM α) : R w (w.call p).2
  withShared (w : World) {f : Shared → Shared} : w.shared.Kept (f w.shared) →
    (f w.shared).storage = w.shared.storage → R w (w.withShared f)
  blockOnStorage (w : World) (reason : BlockReason) (error : PyStr) :
    R w (w.blockOnStorage reason error)
  observe (w : World) {o : Obs} : o.IsDelivery → o.isWrite = false → R w (w.observe o)
  delivered (w : World) (rows : List RowIdentity) (uncertain : List Int) :
    R w (w.observe (.delivered rows uncertain)).resumeAfterStorageBlock

namespace Framed

variable {R : World → World → Prop}

/-- A state is reported. -/
theorem setDeliveryState (h : Framed R) (w : World) {state : WorkerState} (hs : state.IsDelivery)
    (lastError : Option PyStr) (retryDelay : Option ℚ) (reason : Option BlockReason) :
    R w (w.setDeliveryState state lastError retryDelay reason) :=
  h.withShared w (.setDeliveryState _ _ hs _ _ _) rfl

/-- What is counted is neither a submitted nor a persisted event. -/
theorem count (h : Framed R) (w : World) {f : Counters → Counters}
    (hs : (f w.shared.counters).submittedEvents = w.shared.counters.submittedEvents)
    (hp : (f w.shared.counters).persistedEvents = w.shared.counters.persistedEvents) :
    R w (w.count f) :=
  h.withShared w ⟨rfl, rfl, rfl, hs, hp, .inl rfl⟩ rfl

/-- The counters are read and taken over. -/
theorem readStats (h : Framed R) (w : World) : R w w.readStats.2 := by
  have hcall := h.call w SQLiteSpool.stats
  unfold World.readStats
  split
  · next s w' he =>
    rw [he] at hcall
    refine h.trans hcall ?_
    dsimp only
    exact h.withShared w' ⟨rfl, rfl, rfl, rfl, rfl, .inl rfl⟩ rfl
  · next e w' he =>
    rw [he] at hcall
    exact hcall

/-- A retry is counted and reported. -/
theorem retryLater (h : Framed R) (w : World) (backoff : Backoff) (error : PyStr) :
    R w (w.retryLater backoff error).2.2 :=
  h.trans (h.count w rfl rfl) (h.setDeliveryState _ (by trivial) _ _ _)

/-- A row is moved, and the move counted. -/
theorem moveToDeadLetter (h : Framed R) (w : World) (sequence : Int) (error : PyStr)
    (uncertain : Bool) : R w (w.moveToDeadLetter sequence error uncertain).2 := by
  have hcall := h.call w (SQLiteSpool.moveToDeadLetter w.config.limits [sequence] error
    w.env.wallTimeNs uncertain)
  unfold World.moveToDeadLetter
  split
  · next moved evicted w' he =>
    rw [he] at hcall
    exact h.trans (h.trans (h.trans hcall (h.observe w' (by trivial) rfl)) (h.count _ rfl rfl))
      (h.setDeliveryState _ (by trivial) _ _ _)
  · next e w' he =>
    rw [he] at hcall
    exact hcall

/-- A row that cannot be encoded is moved. -/
theorem bury (h : Framed R) (w : World) (record : SpoolRecord) (e : Exc) :
    R w (w.bury record e).2 := by
  have hmove := h.moveToDeadLetter w record.sequence (errorText e) false
  unfold World.bury
  split
  · next w' he =>
    rw [he] at hmove
    exact hmove
  · next x w' he =>
    rw [he] at hmove
    split
    · exact h.trans hmove (h.setDeliveryState _ (by trivial) _ _ _)
    · exact hmove

/-- A batch is read, and rows that cannot be encoded are moved. -/
theorem buildBatch (h : Framed R) (w : World) (isolateNext : Bool) :
    R w (w.buildBatch isolateNext).2 := by
  have hcall := h.call w (SQLiteSpool.peekBatch
    (if isolateNext then 1 else w.config.settings.deliveryBatchRows) maxSqliteBatchBytes)
  unfold World.buildBatch
  dsimp only
  split
  · next e w' he =>
    rw [he] at hcall
    exact hcall
  · next w' he =>
    rw [he] at hcall
    exact hcall
  · next records w' _ he =>
    rw [he] at hcall
    split
    · exact hcall
    · exact h.trans hcall (h.bury _ _ _)
    · exact hcall

/-- A delivery up to its await. -/
theorem deliverStart (h : Framed R) (w : World) (isolateNext : Bool) (backoff : Backoff) :
    R w (w.deliverStart isolateNext backoff).2.2 := by
  have hbuild := h.buildBatch w isolateNext
  unfold World.deliverStart
  split
  · next e w' he =>
    rw [he] at hbuild
    exact hbuild
  · next w' he =>
    rw [he] at hbuild
    exact h.trans hbuild (h.retryLater _ _ _)
  · next built w' he =>
    rw [he] at hbuild
    split
    · exact hbuild
    · exact hbuild

/-- An attempt is recorded with its error. -/
theorem recordAttempt (h : Framed R) (w : World) (built : BuiltBatch) (error : PyStr)
    (uncertain : Bool) : R w (w.recordAttempt built error uncertain).2 := by
  have hcall := h.call w (SQLiteSpool.recordAttempt built.sequences error uncertain)
  unfold World.recordAttempt
  split
  · next n w' he =>
    rw [he] at hcall
    exact hcall
  · next e w' he =>
    rw [he] at hcall
    exact hcall

/-- A delivered batch is removed and counted. -/
theorem batchDelivered (h : Framed R) (w : World) (built : BuiltBatch) :
    R w (w.batchDelivered built).2 := by
  have hcall := h.call w (SQLiteSpool.markDelivered built.sequences)
  unfold World.batchDelivered
  split
  · next e w' he =>
    rw [he] at hcall
    exact hcall
  · next n w' he =>
    rw [he] at hcall
    refine h.trans (h.trans (h.trans (h.trans hcall (h.delivered w' _ _)) (h.count _ rfl rfl))
      (h.withShared _ ?_ rfl)) (h.setDeliveryState _ (by trivial) _ _ _)
    exact ⟨rfl, rfl, rfl, rfl, rfl, .inl rfl⟩

/-- A rejected batch is split, or its one row is moved. -/
theorem batchRejected (h : Framed R) (w : World) (built : BuiltBatch) (backoff : Backoff)
    (e : IlpError) : R w (w.batchRejected built backoff e).2.2 := by
  unfold World.batchRejected
  split
  · next sequence _ =>
    have hmove := h.moveToDeadLetter w sequence e.text e.deliveryUncertain
    split
    · next w' he =>
      rw [he] at hmove
      exact hmove
    · next x w' he =>
      rw [he] at hmove
      split
      · exact h.trans hmove (h.retryLater _ _ _)
      · exact hmove
  · have hrecord := h.recordAttempt w built e.text e.deliveryUncertain
    split
    · next w' he =>
      rw [he] at hrecord
      exact h.trans hrecord (h.setDeliveryState _ (by trivial) _ _ _)
    · next x w' he =>
      rw [he] at hrecord
      exact hrecord

/-- A delivery from its await on. -/
theorem deliverFinish (h : Framed R) (w : World) (built : BuiltBatch) (backoff : Backoff)
    (result : SendResult) : R w (w.deliverFinish built backoff result).2.2 := by
  have hsent : R w (w.observe (.sent built result)) := h.observe w (by trivial) rfl
  unfold World.deliverFinish
  dsimp only
  split
  · have hdone := h.batchDelivered (w.observe (.sent built .ok)) built
    split
    · next w' he =>
      rw [he] at hdone
      exact h.trans hsent hdone
    · next e w' he =>
      rw [he] at hdone
      exact h.trans hsent hdone
  · exact hsent
  · next e =>
    split
    · exact h.trans hsent (h.setDeliveryState _ (by trivial) _ _ _)
    · have hrecord := h.recordAttempt (w.observe (.sent built (.error e))) built e.text
        e.deliveryUncertain
      split
      · next w' he =>
        rw [he] at hrecord
        exact h.trans (h.trans hsent hrecord) (h.retryLater _ _ _)
      · next x w' he =>
        rw [he] at hrecord
        exact h.trans hsent hrecord
    · split
      · exact h.trans hsent (h.batchRejected _ _ _ _)
      · exact h.trans hsent (h.setDeliveryState _ (by trivial) _ _ _)
    · exact hsent

end Framed

/-! ## Turns of the delivery loop -/

/-- A relation that holds across the loop's own steps, too. -/
structure LoopFramed (R : World → World → Prop) : Prop extends Framed R where
  loop (w : World) (wakeDeliver : Bool) (deliver : DeliverPc) (locals : DeliverLocals) :
    R w { w with wakeDeliver, deliver, locals }

namespace LoopFramed

variable {R : World → World → Prop}

/-- What the loop does with an outcome. -/
theorem afterDelivery (h : LoopFramed R) (w : World) (outcome : DeliveryOutcome) :
    R w (w.afterDelivery outcome) := by
  have hstats := h.readStats w
  unfold World.afterDelivery
  split
  · next e w' he =>
    rw [he] at hstats
    exact h.trans hstats (h.loop w' _ _ _)
  · next stats w' he =>
    rw [he] at hstats
    exact h.trans hstats (h.loop w' _ _ _)

/-- What the loop does with an exception of its delivery. -/
theorem deliveryFailed (h : LoopFramed R) (w : World) (e : Exc) : R w (w.deliveryFailed e) := by
  unfold World.deliveryFailed
  split
  · exact h.trans (h.blockOnStorage w _ _) (h.loop _ _ _ _)
  · exact h.loop w _ _ _

/-- An attempt of the loop to deliver. -/
theorem deliverAttempt (h : LoopFramed R) (w : World) : R w w.deliverAttempt := by
  have hstart := h.deliverStart w w.locals.isolateNext w.locals.backoff
  unfold World.deliverAttempt
  split
  · next built backoff w' he =>
    rw [he] at hstart
    exact h.trans hstart (h.loop w' _ _ _)
  · next outcome backoff w' he =>
    rw [he] at hstart
    exact h.trans (h.trans hstart (h.loop w' _ _ _)) (h.afterDelivery _ _)
  · next e backoff w' he =>
    rw [he] at hstart
    exact h.trans (h.trans hstart (h.loop w' _ _ _)) (h.deliveryFailed _ _)

/-- The body of the loop. -/
theorem deliverBody (h : LoopFramed R) (w : World) : R w w.deliverBody := by
  have hstats := h.readStats w
  unfold World.deliverBody
  split
  · next e w' he =>
    rw [he] at hstats
    exact h.trans hstats (h.loop w' _ _ _)
  · next stats w' he =>
    rw [he] at hstats
    refine h.trans (h.trans hstats (h.loop w' w'.wakeDeliver w'.deliver { w'.locals with
      pendingSince := pendingSinceAt w'.env.monotonic stats w'.locals.pendingSince })) ?_
    dsimp only
    split
    · exact h.deliverAttempt _
    · exact h.loop _ _ _ _

/-- The loop from its top to its next await. -/
theorem deliverTop (h : LoopFramed R) (w : World) : R w w.deliverTop := by
  unfold World.deliverTop
  split
  · exact h.loop w _ _ _
  · split
    · exact h.deliverBody w
    · exact h.loop w _ _ _

/-- The gate waits out a delay. -/
theorem gateWait (h : LoopFramed R) (w : World) (delay : ℚ) : R w (w.gateWait delay) :=
  h.loop w _ _ _

/-- The gate is closed for a while. -/
theorem gateBlocked (h : LoopFramed R) (w : World) (error : PyStr) : R w (w.gateBlocked error) :=
  h.trans (h.setDeliveryState w (by trivial) _ _ _) (h.gateWait _ _)

/-- The loop from the schema check to its next await. -/
theorem deliverEnsured (h : LoopFramed R) (w : World) (result : EnsureResult) :
    R w (w.deliverEnsured result) := by
  have hended : R w (w.observe (.ensured result)) := h.observe w (by trivial) rfl
  unfold World.deliverEnsured
  dsimp only
  split
  · refine h.trans ?_ (h.deliverBody _)
    exact h.trans (h.trans hended (h.loop _ _ _ _)) (h.setDeliveryState _ (by trivial) _ _ _)
  · next e =>
    split
    · exact h.trans hended (h.gateBlocked _ _)
    · exact h.trans hended (h.gateBlocked _ _)
    · exact h.trans hended
        (h.trans (h.trans (h.retryLater _ _ _) (h.loop _ _ _ _)) (h.gateWait _ _))
    · exact h.trans hended (h.loop _ _ _ _)
  · split
    · exact h.trans hended (h.gateBlocked _ _)
    · exact h.trans hended (h.loop _ _ _ _)
  · exact h.trans hended (h.loop _ _ _ _)

/-- The loop from a request to its next await. -/
theorem deliverSent (h : LoopFramed R) (w : World) (built : BuiltBatch) (result : SendResult) :
    R w (w.deliverSent built result) := by
  have hfinish := h.deliverFinish w built w.locals.backoff result
  unfold World.deliverSent
  split
  · next outcome backoff w' he =>
    rw [he] at hfinish
    exact h.trans (h.trans hfinish (h.loop w' _ _ _)) (h.afterDelivery _ _)
  · next e backoff w' he =>
    rw [he] at hfinish
    exact h.trans (h.trans hfinish (h.loop w' _ _ _)) (h.deliveryFailed _ _)

end LoopFramed

/-! ## The end of the main coroutine -/

/-- What `_async_main` does once its persist task has returned: it ends, or it is at an await of
the shutdown flush, behind what `R` allows. -/
inductive Flushed (R : World → World → Prop) (w : World) : World → Prop where
  | raised (u : World) (e : Exc) (h : R w u) : Flushed R w (u.mainRaise e)
  | finished (u : World) (h : R w u) : Flushed R w u.mainFinish
  | ensuring (u : World) (h : R w u) : Flushed R w { u with main := .flushEnsuring }
  | sending (u : World) (built : BuiltBatch) (flushBackoff : Backoff) (h : R w u) :
      Flushed R w { u with main := .flushSending built, flushBackoff }

namespace Framed

variable {R : World → World → Prop}

/-- What comes before a step of the flush is a part of it. -/
theorem of_flushed (hR : Framed R) {u v w : World} (h : R u v) (h' : Flushed R v w) :
    Flushed R u w := by
  cases h' with
  | raised t e h' => exact .raised t e (hR.trans h h')
  | finished t h' => exact .finished t (hR.trans h h')
  | ensuring t h' => exact .ensuring t (hR.trans h h')
  | sending t built backoff h' => exact .sending t built backoff (hR.trans h h')

/-- The flush up to its request. -/
theorem flushStart (h : Framed R) (w : World) : Flushed R w w.flushStart := by
  have hstart := h.deliverStart w false (.initial w.config.settings)
  unfold World.flushStart
  split
  · next built backoff w' he =>
    rw [he] at hstart
    exact .sending w' built backoff hstart
  · next outcome backoff w' he =>
    rw [he] at hstart
    exact .finished w' hstart
  · next e backoff w' he =>
    rw [he] at hstart
    exact .raised w' e hstart

/-- The main coroutine from the persist task to its next await. -/
theorem mainPersisted (h : Framed R) (w : World) : Flushed R w w.mainPersisted := by
  have hcall := h.call w SQLiteSpool.stats
  unfold World.mainPersisted
  split
  · split
    · next e w' he =>
      rw [he] at hcall
      exact .raised w' e hcall
    · next stats w' he =>
      rw [he] at hcall
      split
      · exact .finished w' hcall
      · split
        · exact .ensuring w' hcall
        · exact h.of_flushed hcall (h.flushStart w')
  · exact .finished w (h.refl w)

/-- The flush from its schema check to its next await. -/
theorem flushEnsured (h : Framed R) (w : World) (result : EnsureResult) :
    Flushed R w (w.flushEnsured result) := by
  have hended : R w (w.observe (.ensured result)) := h.observe w (by trivial) rfl
  unfold World.flushEnsured
  dsimp only
  split
  · exact h.of_flushed hended (h.flushStart _)
  · exact .finished _ hended
  · exact .finished _ hended
  · exact .raised _ _ hended

/-- The flush from its request to the end. -/
theorem flushSent (h : Framed R) (w : World) (built : BuiltBatch) (result : SendResult) :
    Flushed R w (w.flushSent built result) := by
  have hfinish := h.deliverFinish w built w.flushBackoff result
  unfold World.flushSent
  split
  · next outcome backoff w' he =>
    rw [he] at hfinish
    exact .finished w' hfinish
  · next e backoff w' he =>
    rw [he] at hfinish
    exact .raised w' e hfinish

end Framed

/-! ## What the methods act on -/

/-- Reading the counters touches the connection and the counters only. -/
theorem readStats_eq (w : World) : ∃ spool spoolStats,
    w.readStats.2 = { w with spool, shared := { w.shared with spoolStats } } := by
  unfold readStats World.call
  dsimp only
  generalize Session.run SQLiteSpool.stats w.spool = r
  obtain ⟨res, spool⟩ := r
  cases res with
  | ok stats => exact ⟨_, _, rfl⟩
  | error e => exact ⟨_, _, rfl⟩

/-- Nothing but what the check of the free space keeps for itself has changed. -/
def Measures (w u : World) : Prop := ∃ diskStatus lastReclaim rewriteAttempted calls,
  u = { w with shared := { w.shared with
    diskStatus,
    storage := { w.shared.storage with lastReclaim, rewriteAttempted, calls } } }

namespace Measures

/-- Nothing is done. -/
theorem refl (w : World) : Measures w w := ⟨_, _, _, _, rfl⟩

/-- One update behind another. -/
theorem trans {u v w : World} (h : Measures u v) (h' : Measures v w) : Measures u w := by
  obtain ⟨_, _, _, _, rfl⟩ := h
  obtain ⟨_, _, _, _, rfl⟩ := h'
  exact ⟨_, _, _, _, rfl⟩

/-- The record of a call. -/
theorem logCall (w : World) (event : StorageEvent) : Measures w (w.logCall event) :=
  ⟨_, _, _, _, rfl⟩

/-- The last measurement. -/
theorem diskStatus (w : World) (status : Option StorageStatus) :
    Measures w (w.withShared ({ · with diskStatus := status })) := ⟨_, _, _, _, rfl⟩

/-- The time of the last reclamation. -/
theorem lastReclaim (w : World) (time : Option ℚ) : Measures w (w.withShared fun s =>
    { s with storage := { s.storage with lastReclaim := time } }) := ⟨_, _, _, _, rfl⟩

/-- The mark of a rewrite. -/
theorem rewriteAttempted (w : World) (attempted : Bool) : Measures w (w.withShared fun s =>
    { s with storage := { s.storage with rewriteAttempted := attempted } }) := ⟨_, _, _, _, rfl⟩

/-- A measurement. -/
theorem checkStorage (w : World) (usage : Except PyStr StorageUsage) :
    Measures w (w.checkStorage usage).2 := (logCall w _).trans (diskStatus _ _)

/-- A reclamation. -/
theorem reclaimSpool (w : World) : Measures w w.reclaimSpool.2 := by
  have hcalled := (logCall w (.reclaim w.env.monotonic)).trans
    (lastReclaim _ (some w.env.monotonic))
  unfold World.reclaimSpool
  dsimp only
  split
  · exact refl w
  · split
    · exact hcalled
    · split
      · exact hcalled.trans ((logCall _ .compact).trans (rewriteAttempted _ true))
      · exact hcalled

/-- The check, with its reclamation. -/
theorem freeSpace (w : World) : Measures w w.freeSpace.2 := by
  have hreclaimed := (checkStorage w w.env.usage).trans (reclaimSpool _)
  unfold World.freeSpace
  dsimp only
  split
  · split
    · exact hreclaimed.trans (checkStorage _ _)
    · exact hreclaimed
  · exact checkStorage w _

end Measures

/-- Nothing but the spool's connection, the fields under the lock and the history has changed. -/
structure Acts (w w' : World) : Prop where
  world : ∃ spool shared history, w' = { w with spool, shared, history }
  shared : w.shared.Kept w'.shared
  history : ∃ obs, w'.history = w.history ++ obs ∧ ∀ o ∈ obs, o.IsDelivery

namespace Acts

/-- Nothing is done. -/
theorem refl (w : World) : Acts w w where
  world := ⟨_, _, _, rfl⟩
  shared := .refl _
  history := ⟨[], by simp, nofun⟩

/-- Acts in a row. -/
theorem trans {u v w : World} (h : Acts u v) (h' : Acts v w) : Acts u w where
  world := by
    obtain ⟨_, _, _, rfl⟩ := h.world
    obtain ⟨_, _, _, rfl⟩ := h'.world
    exact ⟨_, _, _, rfl⟩
  shared := h.shared.trans h'.shared
  history := by
    obtain ⟨obs, ho, hd⟩ := h.history
    obtain ⟨obs', ho', hd'⟩ := h'.history
    refine ⟨obs ++ obs', by rw [ho', ho, List.append_assoc], fun o hm => ?_⟩
    exact (List.mem_append.mp hm).elim (hd o) (hd' o)

/-- A change under the lock that keeps what a delivery keeps. -/
theorem withShared (w : World) {f : Shared → Shared} (h : w.shared.Kept (f w.shared)) :
    Acts w (w.withShared f) where
  world := ⟨_, _, _, rfl⟩
  shared := h
  history := ⟨[], (List.append_nil _).symm, nofun⟩

/-- What a delivery shows is recorded. -/
theorem observe (w : World) {o : Obs} (h : o.IsDelivery) : Acts w (w.observe o) where
  world := ⟨_, _, _, rfl⟩
  shared := .refl _
  history := ⟨[o], rfl, by simpa using h⟩

/-- A call of the spool. -/
theorem call {α : Type} (w : World) (p : SpoolM α) : Acts w (w.call p).2 where
  world := ⟨_, _, _, rfl⟩
  shared := .refl _
  history := ⟨[], (List.append_nil _).symm, nofun⟩

/-- A pause is opened or goes on. -/
theorem blockOnStorage (w : World) (reason : BlockReason) (error : PyStr) :
    Acts w (w.blockOnStorage reason error) :=
  withShared w (.blockOnStorage _ _ _ _)

/-- A pause is over. -/
theorem resumeAfterStorageBlock (w : World) : Acts w w.resumeAfterStorageBlock :=
  withShared w (.resumeAfterStorageBlock _ _)

/-- The methods of a delivery act on nothing else. -/
theorem framed : Framed Acts where
  refl := refl
  trans := trans
  call := call
  withShared w _ h _ := withShared w h
  blockOnStorage := blockOnStorage
  observe w _ h _ := observe w h
  delivered w _ _ := (observe w (by trivial)).trans (resumeAfterStorageBlock _)

/-- Reading the counters is an act. -/
theorem readStats (w : World) : Acts w w.readStats.2 := framed.readStats w

/-- A delivery up to its await is an act. -/
theorem deliverStart (w : World) (isolateNext : Bool) (backoff : Backoff) :
    Acts w (w.deliverStart isolateNext backoff).2.2 := framed.deliverStart w isolateNext backoff

/-- A delivery from its await on is an act. -/
theorem deliverFinish (w : World) (built : BuiltBatch) (backoff : Backoff) (result : SendResult) :
    Acts w (w.deliverFinish built backoff result).2.2 := framed.deliverFinish w built backoff result

end Acts

/-- Nothing but what `Acts` allows and what belongs to the delivery loop has changed. -/
structure Delivers (w w' : World) : Prop where
  world : ∃ spool shared history wakeDeliver deliver locals,
    w' = { w with spool, shared, history, wakeDeliver, deliver, locals }
  shared : w.shared.Kept w'.shared
  history : ∃ obs, w'.history = w.history ++ obs ∧ ∀ o ∈ obs, o.IsDelivery

/-- What a method does is nothing a turn of the loop may not do. -/
theorem Acts.delivers {w w' : World} (h : Acts w w') : Delivers w w' where
  world := by
    obtain ⟨_, _, _, rfl⟩ := h.world
    exact ⟨_, _, _, _, _, _, rfl⟩
  shared := h.shared
  history := h.history

namespace Delivers

/-- Parts of a turn in a row. -/
theorem trans {u v w : World} (h : Delivers u v) (h' : Delivers v w) : Delivers u w where
  world := by
    obtain ⟨_, _, _, _, _, _, rfl⟩ := h.world
    obtain ⟨_, _, _, _, _, _, rfl⟩ := h'.world
    exact ⟨_, _, _, _, _, _, rfl⟩
  shared := h.shared.trans h'.shared
  history := by
    obtain ⟨obs, ho, hd⟩ := h.history
    obtain ⟨obs', ho', hd'⟩ := h'.history
    refine ⟨obs ++ obs', by rw [ho', ho, List.append_assoc], fun o hm => ?_⟩
    exact (List.mem_append.mp hm).elim (hd o) (hd' o)

/-- The loop's own step. -/
theorem loop (w : World) (wakeDeliver : Bool) (deliver : DeliverPc) (locals : DeliverLocals) :
    Delivers w { w with wakeDeliver, deliver, locals } where
  world := ⟨_, _, _, _, _, _, rfl⟩
  shared := .refl _
  history := ⟨[], (List.append_nil _).symm, nofun⟩

/-- The turns of the delivery loop act on nothing else. -/
theorem framed : LoopFramed Delivers where
  refl w := (Acts.refl w).delivers
  trans := trans
  call w p := (Acts.call w p).delivers
  withShared w _ h _ := (Acts.withShared w h).delivers
  blockOnStorage w reason error := (Acts.blockOnStorage w reason error).delivers
  observe w _ h _ := (Acts.observe w h).delivers
  delivered w rows uncertain := (Acts.framed.delivered w rows uncertain).delivers
  loop := loop

/-- The turn from the top of the loop. -/
theorem deliverTop (w : World) : Delivers w w.deliverTop := framed.deliverTop w

/-- The turn from the schema check. -/
theorem deliverEnsured (w : World) (result : EnsureResult) :
    Delivers w (w.deliverEnsured result) := framed.deliverEnsured w result

/-- The turn from a request. -/
theorem deliverSent (w : World) (built : BuiltBatch) (result : SendResult) :
    Delivers w (w.deliverSent built result) := framed.deliverSent w built result

end Delivers

/-! ## Turns of the persist loop -/

/-- The held events are in the spool, which inserted the given rows for them. -/
def heldTaken (w : World) (rows : List RowIdentity) : World :=
  { (w.observe (.enqueued w.held rows)).count fun c =>
      { c with persistedEvents := c.persistedEvents + w.held.length } with held := [] }

/-- What an attempt to persist the held events changes: what `Acts` allows, and once at most the
events are taken. -/
inductive Persists (w w' : World) : Prop where
  | kept (h : Acts w w')
  | taken (u : World) (rows : List RowIdentity) (h : Acts w u) (h' : Acts (u.heldTaken rows) w')

/-- An attempt to persist leaves every party and every request to stop where it is. -/
theorem Persists.frame {w w' : World} (h : Persists w w') :
    (∃ spool shared history held, w' = { w with spool, shared, history, held }) ∧
      w'.shared.accepting = w.shared.accepting ∧
      (w'.shared.state = .stopped → w.shared.state = .stopped) := by
  cases h with
  | kept h =>
    have hk := h.shared
    obtain ⟨_, _, _, rfl⟩ := h.world
    exact ⟨⟨_, _, _, _, rfl⟩, hk.accepting, hk.of_stopped⟩
  | taken u rows h h' =>
    have hk := h.shared
    have hk' := h'.shared
    obtain ⟨_, _, _, rfl⟩ := h.world
    obtain ⟨_, _, _, rfl⟩ := h'.world
    exact ⟨⟨_, _, _, _, rfl⟩, hk'.accepting.trans hk.accepting,
      fun hs => hk.of_stopped (hk'.of_stopped hs)⟩

/-- An act behind an attempt to persist is a part of it. -/
theorem Persists.trans_acts {u v w : World} (h : Persists u v) (h' : Acts v w) : Persists u w := by
  cases h with
  | kept h => exact .kept (h.trans h')
  | taken t rows h h'' => exact .taken t rows h (h''.trans h')

namespace Acts

/-- A recorded call is all that it is. -/
theorem logCall (w : World) (event : StorageEvent) : Acts w (w.logCall event) :=
  withShared w (.ofStorage _ _)

/-- Measuring the disk and reclaiming space is an act. -/
theorem freeSpace (w : World) : Acts w w.freeSpace.2 := by
  obtain ⟨_, _, _, _, he⟩ := Measures.freeSpace w
  rw [he]
  exact ⟨⟨_, _, _, rfl⟩, ⟨rfl, rfl, rfl, rfl, rfl, .inl rfl⟩,
    [], (List.append_nil _).symm, nofun⟩

end Acts

/-- The buffer is counted as persisted, and emptied. -/
theorem Persists.heldPersisted (w : World) (before : Database) :
    Persists w (w.heldPersisted before) :=
  .taken w (insertedRows before w.spool.db) (.refl w)
    (Acts.withShared (w.heldTaken _) (f := ({ · with heldUnpersisted := 0 }))
      ⟨rfl, rfl, rfl, rfl, rfl, .inl rfl⟩)

/-- An act in front of an attempt to persist is a part of it. -/
theorem Persists.of_acts {u v w : World} (h : Acts u v) (h' : Persists v w) : Persists u w := by
  cases h' with
  | kept h' => exact .kept (h.trans h')
  | taken t rows h' h'' => exact .taken t rows (h.trans h') h''

/-- The buffer goes to the spool, or the attempt ends in a pause. -/
theorem Persists.enqueueHeld (w : World) : Persists w w.enqueueHeld.2 := by
  have hcall := (Acts.logCall w .enqueueMany).trans
    (Acts.call _ (SQLiteSpool.enqueueMany w.config.limits w.held))
  unfold World.enqueueHeld
  split
  · next n w' he =>
    rw [he] at hcall
    have hheld : Persists w (w'.heldPersisted w.spool.db) := .of_acts hcall (.heldPersisted _ _)
    have hstats := Acts.readStats (w'.heldPersisted w.spool.db)
    split
    · next s v hv =>
      rw [hv] at hstats
      exact (hheld.trans_acts hstats).trans_acts (Acts.resumeAfterStorageBlock _)
    · next e v hv =>
      rw [hv] at hstats
      exact hheld.trans_acts hstats
  · next e w' he =>
    rw [he] at hcall
    split
    · exact .kept (hcall.trans (Acts.blockOnStorage _ _ _))
    · split
      · exact .kept (hcall.trans (Acts.blockOnStorage _ _ _))
      · exact .kept hcall

/-- The whole attempt to persist. -/
theorem Persists.persistHeld (w : World) : Persists w w.persistHeld.2 := by
  unfold World.persistHeld
  split
  · exact .kept (.refl w)
  · dsimp only
    split
    · exact .kept ((Acts.freeSpace w).trans (Acts.blockOnStorage _ _ _))
    · exact .of_acts (Acts.freeSpace w) (.enqueueHeld _)

/-- One turn of the persist loop ends in its last step, or raises. -/
theorem persistRound_eq (w : World) :
    (∃ u, Persists w u ∧ w.persistRound = { u with wakeDeliver := true, persist := .checking }) ∨
    (∃ u e, Persists w u ∧ w.persistRound = { u with persist := .raised e }) := by
  have hheld := Persists.persistHeld w
  unfold World.persistRound
  split
  · next e w' he =>
    rw [he] at hheld
    exact .inr ⟨w', e, hheld, rfl⟩
  · next r w' he =>
    rw [he] at hheld
    have hstats := Acts.readStats w'
    split
    · next e v hv =>
      rw [hv] at hstats
      exact .inr ⟨v, e, hheld.trans_acts hstats, rfl⟩
    · next s v hv =>
      rw [hv] at hstats
      exact .inl ⟨v, hheld.trans_acts hstats, rfl⟩

/-! ## The shutdown flush -/

/-- What `_async_main` does once its persist task has returned: it ends, or it is at an await of
the shutdown flush. -/
inductive Flushes (w : World) : World → Prop where
  | raised (u : World) (e : Exc) (h : Acts w u) : Flushes w (u.mainRaise e)
  | finished (u : World) (h : Acts w u) : Flushes w u.mainFinish
  | ensuring (u : World) (h : Acts w u) : Flushes w { u with main := .flushEnsuring }
  | sending (u : World) (built : BuiltBatch) (flushBackoff : Backoff) (h : Acts w u) :
      Flushes w { u with main := .flushSending built, flushBackoff }

/-- A step of the flush that is made of acts. -/
theorem Flushed.flushes {w w' : World} (h : Flushed Acts w w') : Flushes w w' := by
  cases h with
  | raised u e h => exact .raised u e h
  | finished u h => exact .finished u h
  | ensuring u h => exact .ensuring u h
  | sending u built backoff h => exact .sending u built backoff h

namespace Flushes

/-- The step of the main coroutine from the persist task. -/
theorem mainPersisted (w : World) : Flushes w w.mainPersisted :=
  (Acts.framed.mainPersisted w).flushes

/-- The step of the flush from its schema check. -/
theorem flushEnsured (w : World) (result : EnsureResult) : Flushes w (w.flushEnsured result) :=
  (Acts.framed.flushEnsured w result).flushes

/-- The step of the flush from its request. -/
theorem flushSent (w : World) (built : BuiltBatch) (result : SendResult) :
    Flushes w (w.flushSent built result) :=
  (Acts.framed.flushSent w built result).flushes

end Flushes

end World

end QuestDbWriter
