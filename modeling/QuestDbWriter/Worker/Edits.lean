import QuestDbWriter.Worker.Places

/-!
# Edits under the lock

Every lock block of the service makes one of five edits of the fields that it guards (`Edit`): the
spool and the disk are measured, events are counted, delivered rows are counted, a delivery reports
its state, or the state of the service turns. `Edited` says that a method, or a step, makes any
number of them and nothing else; what every edit keeps is then kept by every run.
-/

namespace QuestDbWriter

open Lib

/-! ## What only grows -/

/-- No counter has gone back. -/
structure Counters.Grows (c c' : Counters) : Prop where
  submitted : c.submittedEvents ≤ c'.submittedEvents
  persisted : c.persistedEvents ≤ c'.persistedEvents
  delivered : c.deliveredEvents ≤ c'.deliveredEvents
  retries : c.retryAttempts ≤ c'.retryAttempts
  deadLettered : c.deadLetteredEvents ≤ c'.deadLetteredEvents
  evicted : c.deadLetterEvictedEvents ≤ c'.deadLetterEvictedEvents
  uncertain : c.uncertainDeliveredEvents ≤ c'.uncertainDeliveredEvents
  overflowed : c.overflowedEvents ≤ c'.overflowedEvents
  oversized : c.oversizedEvents ≤ c'.oversizedEvents

/-- Counters have grown from themselves. -/
theorem Counters.Grows.refl (c : Counters) : c.Grows c := by
  constructor <;> exact le_refl _

/-- Counters that have grown twice have grown. -/
theorem Counters.Grows.trans {c c' c'' : Counters} (h : c.Grows c') (h' : c'.Grows c'') :
    c.Grows c'' where
  submitted := h.submitted.trans h'.submitted
  persisted := h.persisted.trans h'.persisted
  delivered := h.delivered.trans h'.delivered
  retries := h.retries.trans h'.retries
  deadLettered := h.deadLettered.trans h'.deadLettered
  evicted := h.evicted.trans h'.evicted
  uncertain := h.uncertain.trans h'.uncertain
  overflowed := h.overflowed.trans h'.overflowed
  oversized := h.oversized.trans h'.oversized

/-- No pause has been uncounted. -/
structure StoragePauses.Grows (s s' : StoragePauses) : Prop where
  blocks : s.blocks ≤ s'.blocks
  attempts : s.blockAttempts ≤ s'.blockAttempts
  recoveries : s.recoveries ≤ s'.recoveries

/-- The pauses have grown from themselves. -/
theorem StoragePauses.Grows.refl (s : StoragePauses) : s.Grows s := by
  constructor <;> exact le_refl _

/-- Pauses that have grown twice have grown. -/
theorem StoragePauses.Grows.trans {s s' s'' : StoragePauses} (h : s.Grows s') (h' : s'.Grows s'') :
    s.Grows s'' :=
  ⟨h.blocks.trans h'.blocks, h.attempts.trans h'.attempts, h.recoveries.trans h'.recoveries⟩

/-- Opening a pause, or counting an attempt in it, only counts up. -/
theorem openEpisode_grows (s : StoragePauses) (reason : BlockReason) :
    s.Grows (Shared.openEpisode s reason) := by
  unfold Shared.openEpisode
  dsimp only
  split <;> constructor <;> dsimp only <;> omega

/-- Closing a pause only counts up. -/
theorem closeEpisode_grows (s : StoragePauses) : s.Grows (Shared.closeEpisode s) := by
  unfold Shared.closeEpisode
  dsimp only
  split <;> constructor <;> dsimp only <;> omega

/-! ## Edits -/

/-- What `_set_delivery_state` is told: a running delivery retries nothing, one that waits says why
and how long, and one that is blocked says why. -/
inductive Reportable (settings : WorkerSettings) :
    WorkerState → Option PyStr → Option ℚ → Prop where
  | running (lastError : Option PyStr) : Reportable settings .running lastError none
  | retryWait (error : PyStr) (delay : ℚ) (h : 0 ≤ delay ∧ delay ≤ settings.retryMaxSeconds) :
      Reportable settings .retryWait (some error) (some delay)
  | blocked (error : PyStr) : Reportable settings .blocked (some error) none

/-- What a lock block does. -/
inductive Edit (settings : WorkerSettings) : Shared → Shared → Prop where
  | measured (s : Shared) (spoolStats : SpoolStats) (heldUnpersisted : Nat)
      (diskStatus : Option StorageStatus) (storage : StoragePauses) (h : s.storage.Grows storage) :
      Edit settings s { s with spoolStats, heldUnpersisted, diskStatus, storage }
  /-- Events are counted, and refused ones are told. -/
  | counted (s : Shared) (counters : Counters) (ingressHighWatermark : Nat)
      (lastError : Option PyStr) (h : s.counters.Grows counters)
      (hd : counters.deliveredEvents = s.counters.deliveredEvents)
      (hu : counters.uncertainDeliveredEvents = s.counters.uncertainDeliveredEvents)
      (hmax : s.ingressHighWatermark ≤ ingressHighWatermark)
      (hle : ingressHighWatermark ≤ max s.ingressHighWatermark settings.ingressQueueCapacity)
      (he : lastError = s.lastError ∨ lastError.isSome = true) :
      Edit settings s { s with counters, ingressHighWatermark, lastError }
  | delivered (s : Shared) (rows uncertain : Nat) (now : Int) (hrows : 0 < rows)
      (hu : uncertain ≤ rows) :
      Edit settings s
        { s with
          counters :=
            { s.counters with
              deliveredEvents := s.counters.deliveredEvents + rows
              uncertainDeliveredEvents := s.counters.uncertainDeliveredEvents + uncertain }
          lastSuccessNs := some now }
  | reported (s : Shared) (now : Int) {state : WorkerState} {lastError : Option PyStr}
      {retryDelay : Option ℚ} (blockReason : Option BlockReason)
      (h : Reportable settings state lastError retryDelay) :
      Edit settings s (s.setDeliveryState now state lastError retryDelay blockReason)
  /-- The service starts, stops or ends; it runs from its start on, when nothing is reported. -/
  | turned (s : Shared) (state : WorkerState) (accepting : Bool) (lastError : Option PyStr)
      (failure : Option Exc) (shutdownDeadline : Option ℚ)
      (hs : state = s.state ∨ state = .starting ∨ state = .stopping ∨ state = .stopped ∨
        state = .failed ∨ state = .running ∧ s.retryDelaySeconds = none ∧ s.blockReason = none)
      (ha : accepting = true → s.accepting = true ∧ state = s.state ∨ state = .running)
      (he : lastError = s.lastError ∨ lastError.isSome = true) :
      Edit settings s { s with state, accepting, lastError, failure, shutdownDeadline }

/-- Any number of edits. -/
abbrev Edits (settings : WorkerSettings) : Shared → Shared → Prop :=
  Relation.ReflTransGen (Edit settings)

namespace World

/-- The configuration stays, and the fields under the lock are edited. -/
structure Edited (w w' : World) : Prop where
  config : w'.config = w.config
  edits : Edits w.config.settings w.shared w'.shared

namespace Edited

variable {u v w w' : World}

/-- What leaves the settings and the shared state is no edit at all. -/
theorem of_eq (hc : w'.config = w.config) (hs : w'.shared = w.shared) : Edited w w' :=
  ⟨hc, hs ▸ .refl⟩

/-- Nothing is done. -/
theorem refl (w : World) : Edited w w := of_eq rfl rfl

/-- Edits in a row. -/
theorem trans (h : Edited u v) (h' : Edited v w) : Edited u w :=
  ⟨h'.config.trans h.config, h.edits.trans (h.config ▸ h'.edits)⟩

/-- One edit of the shared state. -/
theorem edit (w : World) {f : Shared → Shared} (h : Edit w.config.settings w.shared (f w.shared)) :
    Edited w (w.withShared f) := ⟨rfl, .single h⟩

/-- A call of the spool does not touch the shared state. -/
theorem call {α : Type} (w : World) (p : SpoolM α) : Edited w (w.call p).2 := of_eq rfl rfl

/-- An observation does not touch the shared state. -/
theorem observe (w : World) (o : Obs) : Edited w (w.observe o) := of_eq rfl rfl

/-! ## Reports -/

/-- A reportable state is reported. -/
theorem setDeliveryState (w : World) {state : WorkerState} {lastError : Option PyStr}
    {retryDelay : Option ℚ} (blockReason : Option BlockReason)
    (h : Reportable w.config.settings state lastError retryDelay) :
    Edited w (w.setDeliveryState state lastError retryDelay blockReason) :=
  edit w (.reported _ _ _ h)

/-- A pause is opened or goes on, and is reported as `BLOCKED` with an error. -/
theorem blockOnStorage (w : World) (reason : BlockReason) (error : PyStr) :
    Edited w (w.blockOnStorage reason error) := by
  refine ⟨rfl, .tail (.single (.measured w.shared w.shared.spoolStats w.shared.heldUnpersisted
    w.shared.diskStatus _ (openEpisode_grows w.shared.storage reason))) ?_⟩
  exact .reported _ _ _ (.blocked error)

/-- A pause that is over is reported as `RUNNING`. -/
theorem resumeAfterStorageBlock (w : World) : Edited w w.resumeAfterStorageBlock := by
  have hclosed : Edits w.config.settings w.shared
      { w.shared with storage := Shared.closeEpisode w.shared.storage } :=
    .single (.measured w.shared w.shared.spoolStats w.shared.heldUnpersisted w.shared.diskStatus _
      (closeEpisode_grows w.shared.storage))
  unfold World.resumeAfterStorageBlock Shared.resumeAfterStorageBlock
  refine ⟨rfl, ?_⟩
  unfold withShared
  dsimp only
  split
  · exact hclosed.tail (.reported _ _ _ (.running none))
  · exact hclosed

/-- Counters grow that say nothing of deliveries. -/
theorem count (w : World) {f : Counters → Counters} (h : w.shared.counters.Grows
      (f w.shared.counters))
    (hd : (f w.shared.counters).deliveredEvents = w.shared.counters.deliveredEvents)
    (hu : (f w.shared.counters).uncertainDeliveredEvents =
      w.shared.counters.uncertainDeliveredEvents) : Edited w (w.count f) :=
  edit w (.counted w.shared _ w.shared.ingressHighWatermark w.shared.lastError h hd hu (le_refl _)
    (le_max_left _ _) (.inl rfl))

/-- The counters of the spool are taken over, or nothing is. -/
theorem readStats (w : World) : Edited w w.readStats.2 := by
  have hcall := call w SQLiteSpool.stats
  unfold World.readStats
  split
  · next stats v hv =>
    rw [hv] at hcall
    refine hcall.trans ?_
    dsimp only
    exact edit v (.measured v.shared stats v.shared.heldUnpersisted v.shared.diskStatus
      v.shared.storage (.refl _))
  · next e v hv =>
    rw [hv] at hcall
    exact hcall

/-- The delay of a retry is within the bounds of the settings. -/
theorem nextDelay_range (settings : WorkerSettings) (unit : RandomUnit) (b : Backoff) :
    0 ≤ (b.nextDelay settings unit).1 ∧
      (b.nextDelay settings unit).1 ≤ settings.retryMaxSeconds := by
  have hmax : 0 ≤ settings.retryMaxSeconds :=
    settings.retryInitialSeconds_pos.le.trans settings.retryMaxSeconds_ge
  exact ⟨le_max_left _ _, max_le hmax (min_le_left _ _)⟩

/-- A retry is counted and reported with the delay of the backoff. -/
theorem retryLater (w : World) (backoff : Backoff) (error : PyStr) :
    Edited w (w.retryLater backoff error).2.2 := by
  have hcount : Edited w (w.count Counters.retried) := by
    refine count w ?_ rfl rfl
    constructor <;> simp [Counters.retried]
  exact hcount.trans (setDeliveryState _ none (.retryWait error _ (nextDelay_range ..)))

/-! ## Delivery -/

/-- A move is counted with its evictions. -/
theorem moveToDeadLetter (w : World) (sequence : Int) (error : PyStr) (uncertain : Bool) :
    Edited w (w.moveToDeadLetter sequence error uncertain).2 := by
  have hcall := call w (SQLiteSpool.moveToDeadLetter w.config.limits [sequence] error
    w.env.wallTimeNs uncertain)
  unfold World.moveToDeadLetter
  split
  · next moved evicted v hv =>
    rw [hv] at hcall
    refine (hcall.trans (observe v _)).trans ((count _ ?_ rfl rfl).trans
      (setDeliveryState _ none (.running _)))
    constructor <;> simp [Counters.deadLetterMove]
  · next e v hv =>
    rw [hv] at hcall
    exact hcall

/-- A row that cannot be encoded is moved, and the move counted. -/
theorem bury (w : World) (record : SpoolRecord) (e : Exc) : Edited w (w.bury record e).2 := by
  have hmove := moveToDeadLetter w record.sequence (errorText e) false
  unfold World.bury
  split
  · next v hv =>
    rw [hv] at hmove
    exact hmove
  · next x v hv =>
    rw [hv] at hmove
    split
    · exact hmove.trans (setDeliveryState _ none (.blocked _))
    · exact hmove

/-- Building a batch edits nothing, but for the moves of rows that cannot be encoded. -/
theorem buildBatch (w : World) (isolateNext : Bool) : Edited w (w.buildBatch isolateNext).2 := by
  have hcall := call w (SQLiteSpool.peekBatch
    (if isolateNext then 1 else w.config.settings.deliveryBatchRows) maxSqliteBatchBytes)
  unfold World.buildBatch
  dsimp only
  split
  · next e v hv =>
    rw [hv] at hcall
    exact hcall
  · next v hv =>
    rw [hv] at hcall
    exact hcall
  · next records v _ hv =>
    rw [hv] at hcall
    split
    · exact hcall
    · exact hcall.trans (bury _ _ _)
    · exact hcall

/-- A delivery up to its await. -/
theorem deliverStart (w : World) (isolateNext : Bool) (backoff : Backoff) :
    Edited w (w.deliverStart isolateNext backoff).2.2 := by
  have hbuild := buildBatch w isolateNext
  unfold World.deliverStart
  split
  · next e v hv =>
    rw [hv] at hbuild
    exact hbuild
  · next v hv =>
    rw [hv] at hbuild
    exact hbuild.trans (retryLater _ _ _)
  · next built v hv =>
    rw [hv] at hbuild
    split
    · exact hbuild
    · exact hbuild

/-- An attempt is recorded in the spool, and reported where that fails. -/
theorem recordAttempt (w : World) (built : BuiltBatch) (error : PyStr) (uncertain : Bool) :
    Edited w (w.recordAttempt built error uncertain).2 := by
  have hcall := call w (SQLiteSpool.recordAttempt built.sequences error uncertain)
  unfold World.recordAttempt
  split
  · next n v hv =>
    rw [hv] at hcall
    exact hcall
  · next e v hv =>
    rw [hv] at hcall
    exact hcall

/-- A batch has rows, and counts no more of them as uncertain than it has. -/
def Countable (built : BuiltBatch) : Prop :=
  0 < built.sequences.length ∧ built.uncertainSequences.length ≤ built.sequences.length

/-- A delivered batch is counted, with the time of its success. -/
theorem batchDelivered (w : World) {built : BuiltBatch} (hb : Countable built) :
    Edited w (w.batchDelivered built).2 := by
  have hcall := call w (SQLiteSpool.markDelivered built.sequences)
  unfold World.batchDelivered
  split
  · next e v hv =>
    rw [hv] at hcall
    exact hcall
  · next n v hv =>
    rw [hv] at hcall
    have hclosed : Edited v (v.observe (.delivered (rowsOf w.spool.db built.sequences)
        built.uncertainSequences)).resumeAfterStorageBlock :=
      (observe v _).trans (resumeAfterStorageBlock _)
    refine (hcall.trans hclosed).trans ?_
    dsimp only
    refine .trans ?_ (setDeliveryState _ none (.running none))
    exact ⟨rfl, .single (.delivered _ _ _ _ hb.1 hb.2)⟩

/-- A rejected batch is split, or its one row is moved or tried again. -/
theorem batchRejected (w : World) (built : BuiltBatch) (backoff : Backoff) (e : IlpError) :
    Edited w (w.batchRejected built backoff e).2.2 := by
  unfold World.batchRejected
  split
  · next sequence _ =>
    have hmove := moveToDeadLetter w sequence e.text e.deliveryUncertain
    split
    · next v hv =>
      rw [hv] at hmove
      exact hmove
    · next x v hv =>
      rw [hv] at hmove
      split
      · exact hmove.trans (retryLater _ _ _)
      · exact hmove
  · have hrecord := recordAttempt w built e.text e.deliveryUncertain
    split
    · next v hv =>
      rw [hv] at hrecord
      exact hrecord.trans (setDeliveryState _ none (.running _))
    · next x v hv =>
      rw [hv] at hrecord
      exact hrecord

/-- A delivery from its await on, whatever the server has answered. -/
theorem deliverFinish (w : World) {built : BuiltBatch} (hb : Countable built) (backoff : Backoff)
    (result : SendResult) : Edited w (w.deliverFinish built backoff result).2.2 := by
  have hsent : Edited w (w.observe (.sent built result)) := observe w _
  unfold World.deliverFinish
  dsimp only
  split
  · have hdone := batchDelivered (w.observe (.sent built .ok)) hb
    split
    · next v hv =>
      rw [hv] at hdone
      exact hsent.trans hdone
    · next e v hv =>
      rw [hv] at hdone
      exact hsent.trans hdone
  · exact hsent
  · next e =>
    split
    · exact hsent.trans (setDeliveryState _ _ (.blocked _))
    · have hrecord := recordAttempt (w.observe (.sent built (.error e))) built e.text
        e.deliveryUncertain
      split
      · next v hv =>
        rw [hv] at hrecord
        exact (hsent.trans hrecord).trans (retryLater _ _ _)
      · next x v hv =>
        rw [hv] at hrecord
        exact hsent.trans hrecord
    · split
      · exact hsent.trans (batchRejected _ _ _ _)
      · exact hsent.trans (setDeliveryState _ none (.blocked _))
    · exact hsent

/-! ## Turns of the delivery loop -/

/-- What the loop does behind a delivery edits the counters of the spool only. -/
theorem afterDelivery (w : World) (outcome : DeliveryOutcome) :
    Edited w (w.afterDelivery outcome) := by
  have hstats := readStats w
  unfold World.afterDelivery
  split
  · next e v hv =>
    rw [hv] at hstats
    exact hstats.trans (of_eq rfl rfl)
  · next stats v hv =>
    rw [hv] at hstats
    exact hstats.trans (of_eq rfl rfl)

/-- A storage failure of the delivery opens a pause. -/
theorem deliveryFailed (w : World) (e : Exc) : Edited w (w.deliveryFailed e) := by
  unfold World.deliveryFailed
  split
  · exact (blockOnStorage w _ _).trans (of_eq rfl rfl)
  · exact of_eq rfl rfl

/-- The backoff is the loop's own. -/
theorem withBackoff (w : World) (backoff : Backoff) : Edited w (w.withBackoff backoff) :=
  of_eq rfl rfl

/-- An attempt of the delivery loop to deliver. -/
theorem deliverAttempt (w : World) : Edited w w.deliverAttempt := by
  have hstart := deliverStart w w.locals.isolateNext w.locals.backoff
  unfold World.deliverAttempt
  split
  · next built backoff v hv =>
    rw [hv] at hstart
    exact hstart.trans (of_eq rfl rfl)
  · next outcome backoff v hv =>
    rw [hv] at hstart
    exact (hstart.trans (withBackoff v _)).trans (afterDelivery _ _)
  · next e backoff v hv =>
    rw [hv] at hstart
    exact (hstart.trans (withBackoff v _)).trans (deliveryFailed _ _)

/-- The body of the delivery loop. -/
theorem deliverBody (w : World) : Edited w w.deliverBody := by
  have hstats := readStats w
  unfold World.deliverBody
  split
  · next e v hv =>
    rw [hv] at hstats
    exact hstats.trans (of_eq rfl rfl)
  · next stats v hv =>
    rw [hv] at hstats
    have hlocals : Edited v { v with locals := { v.locals with
        pendingSince := pendingSinceAt v.env.monotonic stats v.locals.pendingSince } } :=
      of_eq rfl rfl
    refine (hstats.trans hlocals).trans ?_
    dsimp only
    split
    · exact deliverAttempt _
    · exact of_eq rfl rfl

/-- The delivery loop from its top on. -/
theorem deliverTop (w : World) : Edited w w.deliverTop := by
  unfold World.deliverTop
  split
  · exact of_eq rfl rfl
  · split
    · exact deliverBody w
    · exact of_eq rfl rfl

/-- A closed gate is reported as `BLOCKED`. -/
theorem gateBlocked (w : World) (error : PyStr) : Edited w (w.gateBlocked error) :=
  (setDeliveryState w none (.blocked _)).trans (of_eq rfl rfl)

/-- The gate of the delivery loop, whatever the schema check has found. -/
theorem deliverEnsured (w : World) (result : EnsureResult) :
    Edited w (w.deliverEnsured result) := by
  have hended : Edited w (w.observe (.ensured result)) := observe w _
  unfold World.deliverEnsured
  dsimp only
  split
  · refine .trans ?_ (deliverBody _)
    refine .trans ?_ (setDeliveryState _ none (.running none))
    exact hended.trans (of_eq rfl rfl)
  · next e =>
    split
    · exact hended.trans (gateBlocked _ _)
    · exact hended.trans (gateBlocked _ _)
    · exact hended.trans ((retryLater _ _ _).trans (of_eq rfl rfl))
    · exact hended.trans (of_eq rfl rfl)
  · split
    · exact hended.trans (gateBlocked _ _)
    · exact hended.trans (of_eq rfl rfl)
  · exact hended.trans (of_eq rfl rfl)

/-- The delivery loop behind a request. -/
theorem deliverSent (w : World) {built : BuiltBatch} (hb : Countable built) (result : SendResult) :
    Edited w (w.deliverSent built result) := by
  have hfinish := deliverFinish w hb w.locals.backoff result
  unfold World.deliverSent
  split
  · next outcome backoff v hv =>
    rw [hv] at hfinish
    exact (hfinish.trans (withBackoff v _)).trans (afterDelivery _ _)
  · next e backoff v hv =>
    rw [hv] at hfinish
    exact (hfinish.trans (withBackoff v _)).trans (deliveryFailed _ _)

/-! ## The shutdown flush -/

/-- The main coroutine raises, behind edits. -/
theorem mainRaise (h : Edited w v) (e : Exc) : Edited w (v.mainRaise e) := by
  obtain ⟨persist, deliver, he, -⟩ := mainRaise_eq v e
  rw [he]
  exact h.trans (of_eq rfl rfl)

/-- The main coroutine ends, behind edits. -/
theorem mainFinish (h : Edited w v) : Edited w v.mainFinish := by
  rcases mainFinish_eq v with ⟨e, he⟩ | ⟨deliver, he, -⟩
  · rw [he]
    exact h.mainRaise e
  · rw [he]
    exact h.trans (of_eq rfl rfl)

/-- The shutdown flush up to its await. -/
theorem flushStart (w : World) : Edited w w.flushStart := by
  have hstart := deliverStart w false (.initial w.config.settings)
  unfold World.flushStart
  split
  · next built backoff v hv =>
    rw [hv] at hstart
    exact hstart.trans (of_eq rfl rfl)
  · next outcome backoff v hv =>
    rw [hv] at hstart
    exact hstart.mainFinish
  · next e backoff v hv =>
    rw [hv] at hstart
    exact hstart.mainRaise e

/-- The main coroutine behind the persist task. -/
theorem mainPersisted (w : World) : Edited w w.mainPersisted := by
  have hcall := call w SQLiteSpool.stats
  unfold World.mainPersisted
  split
  · split
    · next e v hv =>
      rw [hv] at hcall
      exact hcall.mainRaise e
    · next stats v hv =>
      rw [hv] at hcall
      split
      · exact hcall.mainFinish
      · split
        · exact hcall.trans (of_eq rfl rfl)
        · exact hcall.trans (flushStart v)
  · exact (refl w).mainFinish

/-- The shutdown flush behind its schema check. -/
theorem flushEnsured (w : World) (result : EnsureResult) : Edited w (w.flushEnsured result) := by
  have hended : Edited w (w.observe (.ensured result)) := observe w _
  unfold World.flushEnsured
  dsimp only
  split
  · exact hended.trans (flushStart _)
  · exact hended.mainFinish
  · exact hended.mainFinish
  · exact hended.mainRaise _

/-- The shutdown flush behind its request. -/
theorem flushSent (w : World) {built : BuiltBatch} (hb : Countable built) (result : SendResult) :
    Edited w (w.flushSent built result) := by
  have hfinish := deliverFinish w hb w.flushBackoff result
  unfold World.flushSent
  split
  · next outcome backoff v hv =>
    rw [hv] at hfinish
    exact hfinish.mainFinish
  · next e backoff v hv =>
    rw [hv] at hfinish
    exact hfinish.mainRaise e

/-! ## Persistence -/

/-- A recorded call changes no counter. -/
theorem logCall (w : World) (event : StorageEvent) : Edited w (w.logCall event) :=
  ⟨rfl, .single (.measured _ _ _ _ _ ⟨le_refl _, le_refl _, le_refl _⟩)⟩

/-- The free-space check changes no counter. -/
theorem freeSpace (w : World) : Edited w w.freeSpace.2 := by
  obtain ⟨_, _, _, _, he⟩ := Measures.freeSpace w
  rw [he]
  refine ⟨rfl, .single (.measured w.shared w.shared.spoolStats w.shared.heldUnpersisted _ _ ?_)⟩
  exact ⟨le_refl _, le_refl _, le_refl _⟩

/-- What was persisted is counted, and the buffer is empty. -/
theorem heldPersisted (w : World) (before : Database) : Edited w (w.heldPersisted before) := by
  have hcount : Edited w ((w.observe (.enqueued w.held (insertedRows before w.spool.db))).count
      fun c => { c with persistedEvents := c.persistedEvents + w.held.length }) := by
    refine (observe w _).trans (count _ ?_ rfl rfl)
    constructor <;> dsimp only <;> omega
  refine hcount.trans ⟨rfl, .single ?_⟩
  exact .measured _ _ 0 _ _ (.refl _)

/-- The buffer goes to the spool, or a pause is opened. -/
theorem enqueueHeld (w : World) : Edited w w.enqueueHeld.2 := by
  have hcall := (logCall w .enqueueMany).trans
    (call _ (SQLiteSpool.enqueueMany w.config.limits w.held))
  unfold World.enqueueHeld
  split
  · next n v hv =>
    rw [hv] at hcall
    have hheld : Edited w (v.heldPersisted w.spool.db) := hcall.trans (heldPersisted _ _)
    have hstats := readStats (v.heldPersisted w.spool.db)
    split
    · next stats u hu =>
      rw [hu] at hstats
      exact (hheld.trans hstats).trans (resumeAfterStorageBlock _)
    · next e u hu =>
      rw [hu] at hstats
      exact hheld.trans hstats
  · next e v hv =>
    rw [hv] at hcall
    split
    · exact hcall.trans (blockOnStorage _ _ _)
    · split
      · exact hcall.trans (blockOnStorage _ _ _)
      · exact hcall

/-- The attempt to persist, with the checks of the disk in front of it. -/
theorem persistHeld (w : World) : Edited w w.persistHeld.2 := by
  unfold World.persistHeld
  split
  · exact refl w
  · dsimp only
    split
    · exact (freeSpace w).trans (blockOnStorage _ _ _)
    · exact (freeSpace w).trans (enqueueHeld _)

/-- The durable part of a turn of the persist loop. -/
theorem persistRound (w : World) : Edited w w.persistRound := by
  have hheld := persistHeld w
  unfold World.persistRound
  split
  · next e v hv =>
    rw [hv] at hheld
    exact hheld.trans (of_eq rfl rfl)
  · next v hv =>
    rw [hv] at hheld
    have hstats := readStats v
    split
    · next e u hu =>
      rw [hu] at hstats
      exact (hheld.trans hstats).trans (of_eq rfl rfl)
    · next stats u hu =>
      rw [hu] at hstats
      exact (hheld.trans hstats).trans (of_eq rfl rfl)

/-- An event is taken into the buffer, and the buffer counted at the end. -/
theorem persistDrain (w : World) : Edited w w.persistDrain := by
  have hmeasured : Edited w ({ w with persist := .persisting }.withShared
      ({ · with heldUnpersisted := w.held.length })) :=
    ⟨rfl, .single (.measured _ _ w.held.length _ _ (.refl _))⟩
  unfold World.persistDrain
  split
  · split
    · exact of_eq rfl rfl
    · exact hmeasured
  · exact hmeasured

end Edited

end World

end QuestDbWriter
