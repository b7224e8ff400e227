import QuestDbWriter.Worker.Edits
import QuestDbWriter.Worker.Turns
import QuestDbWriter.Worker.Queues
import QuestDbWriter.Worker.StartTimeout
import QuestDbWriter.Worker.Terminal
import QuestDbWriter.Worker.Blocking

/-!
# Snapshots

What `snapshot()` returns, which the sensors, the diagnostics and the watchdog automations read. A
snapshot can be taken between any two lock blocks of any thread; `snapshot_consistent` says that
none contradicts itself, and `snapshot_grows` that no total goes back while the process lives.
-/

namespace QuestDbWriter

open Lib

/-! ## snapshot -/

/-- `WorkerSnapshot`. -/
structure WorkerSnapshot where
  state : WorkerState
  threadAlive : Bool
  accepting : Bool
  ingressQueueDepth : Nat
  heldUnpersisted : Nat
  ingressHighWatermark : Nat
  submittedEvents : Nat
  persistedEvents : Nat
  deliveredEvents : Nat
  retryAttempts : Nat
  deadLetteredEvents : Nat
  deadLetterEvictedEvents : Nat
  uncertainDeliveredEvents : Nat
  overflowedEvents : Nat
  oversizedEvents : Nat
  pendingRows : Int
  pendingBytes : Int
  deadLetterRows : Int
  deadLetterBytes : Int
  retryDelaySeconds : Option ℚ
  lastError : Option PyStr
  lastSuccessNs : Option Int
  blockReason : Option BlockReason
  lastErrors : List WorkerErrorRecord
  storageBlocks : Nat
  storageBlockAttempts : Nat
  storageRecoveries : Nat
  diskFreeBytes : Option Int
  diskReserveBytes : Option Int
deriving DecidableEq

/-- `snapshot`, for whether the thread is alive and the size of the queue. -/
def Shared.snapshot (s : Shared) (threadAlive : Bool) (ingressQueueDepth : Nat) :
    WorkerSnapshot where
  state := s.state
  threadAlive
  accepting := s.accepting
  ingressQueueDepth
  heldUnpersisted := s.heldUnpersisted
  ingressHighWatermark := s.ingressHighWatermark
  submittedEvents := s.counters.submittedEvents
  persistedEvents := s.counters.persistedEvents
  deliveredEvents := s.counters.deliveredEvents
  retryAttempts := s.counters.retryAttempts
  deadLetteredEvents := s.counters.deadLetteredEvents
  deadLetterEvictedEvents := s.counters.deadLetterEvictedEvents
  uncertainDeliveredEvents := s.counters.uncertainDeliveredEvents
  overflowedEvents := s.counters.overflowedEvents
  oversizedEvents := s.counters.oversizedEvents
  pendingRows := s.spoolStats.pendingRows
  pendingBytes := s.spoolStats.pendingBytes
  deadLetterRows := s.spoolStats.deadLetterRows
  deadLetterBytes := s.spoolStats.deadLetterBytes
  retryDelaySeconds := s.retryDelaySeconds
  lastError := s.lastError
  lastSuccessNs := s.lastSuccessNs
  blockReason := s.blockReason
  lastErrors := s.lastErrors
  storageBlocks := s.storage.blocks
  storageBlockAttempts := s.storage.blockAttempts
  storageRecoveries := s.storage.recoveries
  diskFreeBytes := s.diskStatus.map (·.freeBytes)
  diskReserveBytes := s.diskStatus.map (·.reserveBytes)

/-- `snapshot()`. -/
def World.snapshot (w : World) : WorkerSnapshot :=
  w.shared.snapshot w.threadAlive w.ingress.length

/-! ## What a snapshot says -/

/-- A snapshot does not contradict itself. -/
structure WorkerSnapshot.Consistent (settings : WorkerSettings) (s : WorkerSnapshot) : Prop where
  depth : s.ingressQueueDepth ≤ s.ingressHighWatermark
  watermark : s.ingressHighWatermark ≤ settings.ingressQueueCapacity
  errors : s.lastErrors.length ≤ 10
  delay : ∀ d ∈ s.retryDelaySeconds, 0 ≤ d ∧ d ≤ settings.retryMaxSeconds
  exclusive : s.retryDelaySeconds = none ∨ s.blockReason = none
  running : s.state = .running → s.retryDelaySeconds = none ∧ s.blockReason = none
  retryWait : s.state = .retryWait → s.retryDelaySeconds.isSome = true ∧ s.lastError.isSome = true
  blocked : s.state = .blocked → s.retryDelaySeconds = none ∧ s.lastError.isSome = true
  accepting : s.accepting = true → s.state.IsDelivery
  success : s.lastSuccessNs = none ↔ s.deliveredEvents = 0
  uncertain : s.uncertainDeliveredEvents ≤ s.deliveredEvents

/-- No total of a later snapshot is below that of an earlier one, and a success is not forgotten. -/
structure WorkerSnapshot.Grows (s s' : WorkerSnapshot) : Prop where
  submitted : s.submittedEvents ≤ s'.submittedEvents
  persisted : s.persistedEvents ≤ s'.persistedEvents
  delivered : s.deliveredEvents ≤ s'.deliveredEvents
  retries : s.retryAttempts ≤ s'.retryAttempts
  deadLettered : s.deadLetteredEvents ≤ s'.deadLetteredEvents
  evicted : s.deadLetterEvictedEvents ≤ s'.deadLetterEvictedEvents
  uncertain : s.uncertainDeliveredEvents ≤ s'.uncertainDeliveredEvents
  overflowed : s.overflowedEvents ≤ s'.overflowedEvents
  oversized : s.oversizedEvents ≤ s'.oversizedEvents
  watermark : s.ingressHighWatermark ≤ s'.ingressHighWatermark
  storageBlocks : s.storageBlocks ≤ s'.storageBlocks
  storageBlockAttempts : s.storageBlockAttempts ≤ s'.storageBlockAttempts
  storageRecoveries : s.storageRecoveries ≤ s'.storageRecoveries
  success : s.lastSuccessNs.isSome = true → s'.lastSuccessNs.isSome = true

section
variable {settings : WorkerSettings} {s s' : Shared} {alive alive' : Bool} {depth depth' : Nat}

/-- The log of errors keeps the last ten. -/
theorem appendError_length (errors : List WorkerErrorRecord) (record : WorkerErrorRecord) :
    (Shared.appendError errors record).length ≤ 10 := by
  unfold Shared.appendError
  rw [List.length_drop, List.length_append, List.length_singleton]
  omega

/-- Ten errors are kept at most. -/
theorem setDeliveryState_errors (h : s.lastErrors.length ≤ 10) (now : Int) (state : WorkerState)
    (lastError : Option PyStr) (retryDelay : Option ℚ) (blockReason : Option BlockReason) :
    (s.setDeliveryState now state lastError retryDelay blockReason).lastErrors.length ≤ 10 := by
  cases lastError with
  | none => exact h
  | some error => exact appendError_length _ _

namespace WorkerSnapshot.Consistent

/-- Everything but the depth of the queue is under the lock. -/
theorem of_depth (h : (s.snapshot alive depth).Consistent settings)
    (hd : depth' ≤ s.ingressHighWatermark) : (s.snapshot alive' depth').Consistent settings :=
  { h with depth := hd }

/-- **Every edit leaves a consistent snapshot.** -/
theorem edit (h : (s.snapshot alive depth).Consistent settings) (he : Edit settings s s') :
    (s'.snapshot alive depth).Consistent settings := by
  cases he with
  | measured => exact { h with }
  | counted counters ingressHighWatermark lastError hc hd hu hmax hle herror =>
    have hsome : s.lastError.isSome = true → lastError.isSome = true := by
      rcases herror with rfl | herror
      · exact id
      · exact fun _ => herror
    have hsuccess := h.success
    have huncertain := h.uncertain
    refine { h with
      depth := h.depth.trans hmax, watermark := hle.trans (max_le h.watermark (le_refl _)),
      retryWait := fun hs => ?_, blocked := fun hs => ?_, success := ?_, uncertain := ?_ }
    · exact ⟨(h.retryWait hs).1, hsome (h.retryWait hs).2⟩
    · exact ⟨(h.blocked hs).1, hsome (h.blocked hs).2⟩
    · show s.lastSuccessNs = none ↔ counters.deliveredEvents = 0
      rw [hd]
      exact hsuccess
    · show counters.uncertainDeliveredEvents ≤ counters.deliveredEvents
      rw [hd, hu]
      exact huncertain
  | delivered rows uncertain now hrows hu =>
    have huncertain : s.counters.uncertainDeliveredEvents ≤ s.counters.deliveredEvents :=
      h.uncertain
    refine { h with success := ?_, uncertain := ?_ }
    · show some now = none ↔ s.counters.deliveredEvents + rows = 0
      simp
      omega
    · show s.counters.uncertainDeliveredEvents + uncertain ≤ s.counters.deliveredEvents + rows
      omega
  | @reported now state lastError retryDelay blockReason hr =>
    have herrors := setDeliveryState_errors h.errors now state lastError retryDelay blockReason
    -- a service that stops or has failed keeps its state, which is none of the three
    have hstate : (if s.state = .stopping ∨ s.state = .failed then s.state else state) = state ∨
        ((if s.state = .stopping ∨ s.state = .failed then s.state else state) = s.state ∧
          ¬ s.state.IsDelivery) := by
      split
      · next hover =>
        refine .inr ⟨rfl, ?_⟩
        rcases hover with hover | hover <;> rw [hover] <;> exact id
      · exact .inl rfl
    have hgone : ∀ {t : WorkerState}, t.IsDelivery →
        (if s.state = .stopping ∨ s.state = .failed then s.state else state) = t → state = t := by
      intro t ht he
      rcases hstate with hs | ⟨hs, hover⟩
      · exact hs.symm.trans he
      · exact absurd ((hs.symm.trans he) ▸ ht) hover
    have hdelivery : state.IsDelivery := by cases hr <;> trivial
    have haccepting : s.accepting = true →
        (if s.state = .stopping ∨ s.state = .failed then s.state else state).IsDelivery := by
      intro hacc
      split
      · exact h.accepting hacc
      · exact hdelivery
    refine ⟨h.depth, h.watermark, herrors, ?_, ?_, fun hs => ?_, fun hs => ?_, fun hs => ?_,
      haccepting, h.success, h.uncertain⟩
    · intro d hd
      cases hr with
      | running => cases hd
      | retryWait error delay hrange =>
        cases hd
        exact hrange
      | blocked => cases hd
    · cases hr with
      | running => exact .inl rfl
      | retryWait => exact .inr rfl
      | blocked => exact .inl rfl
    · cases hgone (by trivial) hs
      cases hr
      exact ⟨rfl, rfl⟩
    · cases hgone (by trivial) hs
      cases hr
      exact ⟨rfl, rfl⟩
    · cases hgone (by trivial) hs
      cases hr
      exact ⟨rfl, rfl⟩
  | turned state accepting lastError failure shutdownDeadline hs ha herror =>
    have hsome : s.lastError.isSome = true → lastError.isSome = true := by
      rcases herror with rfl | herror
      · exact id
      · exact fun _ => herror
    refine { h with
      running := fun hr => ?_, retryWait := fun hr => ?_, blocked := fun hr => ?_,
      accepting := fun hacc => ?_ }
    · have hr : state = .running := hr
      rcases hs with rfl | rfl | rfl | rfl | rfl | ⟨-, hnone⟩
      · exact h.running hr
      · cases hr
      · cases hr
      · cases hr
      · cases hr
      · exact hnone
    · have hr : state = .retryWait := hr
      rcases hs with rfl | rfl | rfl | rfl | rfl | ⟨rfl, -⟩
      · exact ⟨(h.retryWait hr).1, hsome (h.retryWait hr).2⟩
      all_goals cases hr
    · have hr : state = .blocked := hr
      rcases hs with rfl | rfl | rfl | rfl | rfl | ⟨rfl, -⟩
      · exact ⟨(h.blocked hr).1, hsome (h.blocked hr).2⟩
      all_goals cases hr
    · show state.IsDelivery
      rcases ha hacc with ⟨hold, rfl⟩ | rfl
      · exact h.accepting hold
      · trivial

/-- Any number of edits keep a snapshot consistent. -/
theorem edits (h : (s.snapshot alive depth).Consistent settings) (he : Edits settings s s') :
    (s'.snapshot alive depth).Consistent settings := by
  induction he with
  | refl => exact h
  | tail _ he ih => exact ih.edit he

end WorkerSnapshot.Consistent

namespace WorkerSnapshot.Grows

/-- A snapshot has grown from itself. -/
theorem refl (s : WorkerSnapshot) : s.Grows s := by
  constructor <;> first | exact le_refl _ | exact id

/-- A snapshot that has grown twice has grown. -/
theorem trans {s s' s'' : WorkerSnapshot} (h : s.Grows s') (h' : s'.Grows s'') : s.Grows s'' where
  submitted := h.submitted.trans h'.submitted
  persisted := h.persisted.trans h'.persisted
  delivered := h.delivered.trans h'.delivered
  retries := h.retries.trans h'.retries
  deadLettered := h.deadLettered.trans h'.deadLettered
  evicted := h.evicted.trans h'.evicted
  uncertain := h.uncertain.trans h'.uncertain
  overflowed := h.overflowed.trans h'.overflowed
  oversized := h.oversized.trans h'.oversized
  watermark := h.watermark.trans h'.watermark
  storageBlocks := h.storageBlocks.trans h'.storageBlocks
  storageBlockAttempts := h.storageBlockAttempts.trans h'.storageBlockAttempts
  storageRecoveries := h.storageRecoveries.trans h'.storageRecoveries
  success := fun hs => h'.success (h.success hs)

/-- The totals are under the lock. -/
theorem of_shared (hc : s.counters.Grows s'.counters) (hp : s.storage.Grows s'.storage)
    (hw : s.ingressHighWatermark ≤ s'.ingressHighWatermark)
    (hl : s.lastSuccessNs.isSome = true → s'.lastSuccessNs.isSome = true) :
    (s.snapshot alive depth).Grows (s'.snapshot alive' depth') where
  submitted := hc.submitted
  persisted := hc.persisted
  delivered := hc.delivered
  retries := hc.retries
  deadLettered := hc.deadLettered
  evicted := hc.evicted
  uncertain := hc.uncertain
  overflowed := hc.overflowed
  oversized := hc.oversized
  watermark := hw
  storageBlocks := hp.blocks
  storageBlockAttempts := hp.attempts
  storageRecoveries := hp.recoveries
  success := hl

/-- No edit takes a total back. -/
theorem edit (he : Edit settings s s') :
    (s.snapshot alive depth).Grows (s'.snapshot alive' depth') := by
  cases he with
  | measured spoolStats heldUnpersisted diskStatus storage hp =>
    exact of_shared (.refl _) hp (le_refl _) id
  | counted counters ingressHighWatermark lastError hc _ _ hmax =>
    exact of_shared hc (.refl _) hmax id
  | delivered rows uncertain now =>
    refine of_shared ?_ (.refl _) (le_refl _) fun _ => rfl
    constructor <;> dsimp only <;> omega
  | reported => exact of_shared (.refl _) (.refl _) (le_refl _) id
  | turned => exact of_shared (.refl _) (.refl _) (le_refl _) id

/-- Any number of edits only let a snapshot grow. -/
theorem edits (he : Edits settings s s') :
    (s.snapshot alive depth).Grows (s'.snapshot alive' depth') := by
  induction he with
  | refl => exact of_shared (.refl _) (.refl _) (le_refl _) id
  | @tail t u _ he ih => exact ih.trans (edit he)

end WorkerSnapshot.Grows

end

namespace World

/-! ## Steps -/

/-- What every snapshot rests on: nothing is reported before the thread has begun, a batch in flight
has rows to count, and events are accepted only while the thread is up. -/
structure Reported (w : World) : Prop where
  consistent : w.snapshot.Consistent w.config.settings
  unbegun : ¬ w.thread.IsBegun → w.shared.retryDelaySeconds = none ∧ w.shared.blockReason = none
  flight : ∀ built, w.deliver = .sending built ∨ w.main = .flushSending built →
    Edited.Countable built
  up : w.shared.accepting = true → w.thread.IsUp

section
variable {w w' : World} {a : Action} {built : BuiltBatch}

/-- A batch that has just been built has rows to count. -/
theorem Fresh.countable (hf : Fresh w built) : Edited.Countable built := by
  obtain ⟨hne, rows, rest, -, hbuilt⟩ := hf
  refine ⟨List.length_pos_of_ne_nil hne, ?_⟩
  rw [hbuilt.uncertain, hbuilt.sequences, List.length_map, List.length_map]
  exact List.length_filter_le _ _

namespace Edited

/-- `submit()` counts what it is given. -/
theorem submit (w : World) (event : EventEnvelope) : Edited w (w.submit event) := by
  have hsubmitted : w.shared.counters.Grows
      { w.shared.counters with
        submittedEvents := w.shared.counters.submittedEvents + 1 } := by
    constructor <;> simp
  have hoverflowed : w.shared.counters.Grows
      { w.shared.counters with
        overflowedEvents := w.shared.counters.overflowedEvents + 1 } := by
    constructor <;> simp
  have hoversized : w.shared.counters.Grows
      { w.shared.counters with
        oversizedEvents := w.shared.counters.oversizedEvents + 1 } := by
    constructor <;> simp
  unfold World.submit
  split
  · exact refl w
  · next e _ =>
    split
    · exact edit w (.counted _ _ _ _ hoversized rfl rfl (le_refl _) (le_max_left _ _) (.inr rfl))
    · unfold submitAccept
      split
      · split
        · next hroom =>
          refine ⟨rfl, .single (.counted w.shared _ _ w.shared.lastError hsubmitted rfl rfl
            (le_max_left _ _) ?_ (.inl rfl))⟩
          rw [List.length_append, List.length_singleton]
          exact max_le_max (le_refl _) hroom
        · exact edit w
            (.counted _ _ _ _ hoverflowed rfl rfl (le_refl _) (le_max_left _ _) (.inr rfl))
      · exact refl w

/-- The lock block of `stop()` turns the service. -/
theorem stopLock (w : World) (i : Nat) (seen : Bool) (timeout : ℚ) :
    Edited w (w.stopLock i seen timeout) := by
  obtain ⟨pc, state, deadline, he, hcase⟩ := stopLock_eq w i seen timeout
  rw [he]
  refine ⟨rfl, .single (.turned w.shared state false w.shared.lastError w.shared.failure deadline
    ?_ (absurd · Bool.false_ne_true) (.inl rfl))⟩
  rcases hcase with ⟨-, rfl, -⟩ | ⟨-, rfl, -⟩ | ⟨rfl, -⟩
  · exact .inr (.inr (.inr (.inl rfl)))
  · exact .inl rfl
  · exact .inr (.inr (.inl rfl))

/-- The thread takes the counters of the spool over. -/
theorem threadOpen (w : World) (factoryError : Option Exc) :
    Edited w (w.threadOpen factoryError) := by
  have hcall := call w (SQLiteSpool.openSpool w.env.pragmas w.env.freeBytes)
  unfold World.threadOpen
  split
  · next e v hv =>
    rw [hv] at hcall
    exact hcall.trans (of_eq rfl rfl)
  · next v hv =>
    rw [hv] at hcall
    split
    · exact hcall.trans (of_eq rfl rfl)
    · have hstats := readStats v
      split
      · next e u hu =>
        rw [hu] at hstats
        exact (hcall.trans hstats).trans (of_eq rfl rfl)
      · next stats u hu =>
        rw [hu] at hstats
        exact (hcall.trans hstats).trans (of_eq rfl rfl)

/-- The last lock block of the thread turns the service. -/
theorem threadExit (w : World) (failed : Bool) (cleanup : Option Exc) :
    Edited w (w.threadExit failed cleanup) := by
  unfold World.threadExit
  refine ⟨rfl, .single ?_⟩
  unfold withShared
  dsimp only
  split
  · exact .turned w.shared w.shared.state false _ _ _ (.inl rfl) (absurd · Bool.false_ne_true)
      (.inl rfl)
  · split
    · exact .turned w.shared .failed false _ _ _ (.inr (.inr (.inr (.inr (.inl rfl)))))
        (absurd · Bool.false_ne_true) (.inr rfl)
    · exact .turned w.shared .stopped false _ _ _ (.inr (.inr (.inr (.inl rfl))))
        (absurd · Bool.false_ne_true) (.inl rfl)

end Edited

/-- **Every step edits the fields under the lock.** -/
theorem Reported.edited (h : Reported w) (ht : Taken w a w') (hr : ¬ a.isRestart) :
    Edited w w' := by
  cases ht with
  | environment | startTimedOut | stopCall | stopSet | stopReturn | threadAnnounce | threadClose
  | threadDie | wakePersist | stopAsync | mainPublish | mainTest | persistRun | persistWake
  | deliverWake => exact .of_eq rfl rfl
  | restart => exact absurd rfl hr
  | submit event => exact .submit w event
  | submitSignal =>
    obtain ⟨callbacks, he, -⟩ :=
      signalLoop_eq { w with submitSignals := w.submitSignals - 1 } .wakePersist
    exact he ▸ .of_eq rfl rfl
  | startCall =>
    unfold startCall
    split
    · next hnew =>
      refine ⟨rfl, .single (.turned w.shared .starting w.shared.accepting _ _ _
        (.inr (.inl rfl)) (fun hacc => ?_) (.inl rfl))⟩
      have hdelivery : w.shared.state.IsDelivery := h.consistent.accepting hacc
      rw [hnew] at hdelivery
      exact hdelivery.elim
    · exact .of_eq rfl rfl
  | startReady => rcases startReady_eq w with he | he <;> exact he ▸ .of_eq rfl rfl
  | startTimeout =>
    exact ⟨rfl, .single (.turned w.shared w.shared.state false _ _ _ (.inl rfl)
      (absurd · Bool.false_ne_true) (.inr rfl))⟩
  | startSignal =>
    obtain ⟨callbacks, he, -⟩ := signalLoop_eq { w with start := .raised } .stopAsync
    exact he ▸ .of_eq rfl rfl
  | stopLock i seen timeout => exact .stopLock w i seen timeout
  | stopSignal i =>
    obtain ⟨callbacks, he, -⟩ := signalLoop_eq { w with stops := w.stops.set i .joining } .stopAsync
    exact he ▸ .of_eq rfl rfl
  | threadOpen factoryError => exact .threadOpen w factoryError
  | threadStartup hth =>
    have hnone := h.unbegun (hth ▸ id)
    unfold threadStartup
    refine ⟨rfl, .single ?_⟩
    unfold withShared
    dsimp only
    split
    · exact .turned w.shared .stopping false _ _ _ (.inr (.inr (.inl rfl)))
        (absurd · Bool.false_ne_true) (.inl rfl)
    · exact .turned w.shared .running true _ _ _
        (.inr (.inr (.inr (.inr (.inr ⟨rfl, hnone⟩))))) (fun _ => .inr rfl) (.inl rfl)
  | threadFail e =>
    exact ⟨rfl, .single (.turned w.shared .failed false _ _ _
      (.inr (.inr (.inr (.inr (.inl rfl))))) (absurd · Bool.false_ne_true) (.inr rfl))⟩
  | threadExit failed cleanup => exact .threadExit w failed cleanup
  | mainStop =>
    exact ⟨rfl, .single (.turned w.shared .stopping false _ _ _ (.inr (.inr (.inl rfl)))
      (absurd · Bool.false_ne_true) (.inl rfl))⟩
  | mainTaskDone e | mainPersistRaised e => exact (Edited.refl w).mainRaise e
  | mainPersisted => exact .mainPersisted w
  | flushEnsured result => exact .flushEnsured w result
  | flushSent built result hm => exact .flushSent w (h.flight built (.inr hm)) result
  | persistDrain => exact .persistDrain w
  | persistRound => exact .persistRound w
  | persistCheck =>
    rcases persistCheck_eq w with ⟨he, -⟩ | ⟨persist, wakePersist, he, -⟩
    · exact he ▸ .of_eq rfl rfl
    · exact he ▸ .of_eq rfl rfl
  | deliverRun => exact .deliverTop w
  | deliverEnsured result => exact .deliverEnsured w result
  | deliverSent built result _ hd => exact .deliverSent w (h.flight built (.inl hd)) result

/-- Reading the counters reports nothing. -/
theorem readStats_reports (w : World) :
    w.readStats.2.shared.retryDelaySeconds = w.shared.retryDelaySeconds ∧
      w.readStats.2.shared.blockReason = w.shared.blockReason := by
  have hcall : (w.call SQLiteSpool.stats).2.shared = w.shared := rfl
  unfold readStats
  split
  · next stats v hv =>
    rw [hv] at hcall
    rw [← hcall]
    exact ⟨rfl, rfl⟩
  · next e v hv =>
    rw [hv] at hcall
    rw [← hcall]
    exact ⟨rfl, rfl⟩

/-- Opening the spool reports nothing. -/
theorem threadOpen_reports (w : World) (factoryError : Option Exc) :
    (w.threadOpen factoryError).shared.retryDelaySeconds = w.shared.retryDelaySeconds ∧
      (w.threadOpen factoryError).shared.blockReason = w.shared.blockReason := by
  have hcall : (w.call (SQLiteSpool.openSpool w.env.pragmas w.env.freeBytes)).2.shared =
      w.shared := rfl
  unfold threadOpen
  split
  · next e v hv =>
    rw [hv] at hcall
    rw [← hcall]
    exact ⟨rfl, rfl⟩
  · next v hv =>
    rw [hv] at hcall
    split
    · rw [← hcall]
      exact ⟨rfl, rfl⟩
    · have hstats := readStats_reports v
      rw [hcall] at hstats
      split
      · next hu =>
        rw [hu] at hstats
        exact hstats
      · next hu =>
        rw [hu] at hstats
        exact hstats

/-- The coroutines run in the loop of the thread, but for a wakeup. -/
theorem looping_inside (hp : Placed w) (ht : Taken w a w') (ha : a.IsInside) :
    w.thread = .looping ∨ w'.thread = w.thread ∧ w'.shared = w.shared := by
  cases ht with
  | mainPublish hm | mainTest hm | mainStop hm | mainTaskDone e hm | mainPersisted hm
  | mainPersistRaised e hm | flushEnsured result hm | flushSent built result hm =>
    exact .inl (hp.looping (hm ▸ trivial))
  | persistRun hrun | deliverRun hrun => exact .inl (hp.looping (tasksRun_active hrun))
  | persistDrain hat | persistRound hat | persistCheck hat =>
    exact .inl (hp.looping (tasksRun_active (hp.persisting (hat ▸ trivial))))
  | deliverEnsured result hb hat | deliverSent built result hb hat =>
    exact .inl (hp.looping (tasksRun_active (hp.delivering (hat ▸ trivial))))
  | persistWake | deliverWake => exact .inr ⟨rfl, rfl⟩
  | _ => exact ha.elim

/-- Nothing is reported before the thread has begun. -/
theorem Reported.stays_unbegun (hp : Placed w) (h : Reported w) (ht : Taken w a w')
    (hn : ¬ w'.thread.IsBegun) :
    w'.shared.retryDelaySeconds = none ∧ w'.shared.blockReason = none := by
  rcases a.sides with ha | ha | ha
  · have ho := ht.outside ha
    have hold := h.unbegun (ho.thread ▸ hn)
    obtain ⟨_, _, _, _, _, _, _, _, _, _, _, _, _, _, _, rfl⟩ := ho.world
    exact hold
  · have hi := ht.inside hp ha
    rcases looping_inside hp ht ha with hl | ⟨hthread, hshared⟩
    · rcases hi.thread with hthread | ⟨-, ⟨e, hthread⟩ | hthread⟩
      · exact absurd (hthread.trans hl ▸ trivial) hn
      · exact absurd (hthread ▸ trivial) hn
      · exact absurd (hthread ▸ trivial) hn
    · exact hshared ▸ h.unbegun (hthread ▸ hn)
  cases ht with
  | restart => exact ⟨rfl, rfl⟩
  | environment => exact h.unbegun hn
  | startCall =>
    revert hn
    unfold startCall
    split
    · next hnew =>
      have habs := hp.fresh hnew
      exact fun _ => h.unbegun (habs ▸ id)
    · exact fun hn => h.unbegun hn
  | stopLock i seen timeout =>
    obtain ⟨pc, state, deadline, he, -⟩ := stopLock_eq w i seen timeout
    rw [he] at hn ⊢
    exact h.unbegun hn
  | threadOpen factoryError hth =>
    obtain ⟨hdelay, hreason⟩ := threadOpen_reports w factoryError
    rw [hdelay, hreason]
    exact h.unbegun (hth ▸ id)
  | threadStartup | threadAnnounce | threadFail | threadClose | threadExit | threadDie =>
    exact absurd trivial hn
  | _ => exact ha.elim

/-- No step but `submit()` makes the queue longer. -/
theorem ingress_length (ht : Taken w a w') (hr : ¬ a.isRestart)
    (hs : ∀ event, a ≠ .submit event) : w'.ingress.length ≤ w.ingress.length := by
  cases ht.queues with
  | aside hu => rw [hu.ingress]
  | restart config env ha => exact absurd (ha ▸ rfl) hr
  | accepted event e shared ha => exact absurd ha (hs event)
  | drained event ingress hi hroom he =>
    rw [he, hi]
    simp
  | round u ha hu hau =>
    obtain ⟨⟨_, _, _, _, rfl⟩, -⟩ := hu.frame
    rw [hau.ingress]

/-- `submit()` counts the depth that it leaves. -/
theorem submit_watermark (w : World) (event : EventEnvelope)
    (h : w.ingress.length ≤ w.shared.ingressHighWatermark) :
    (w.submit event).ingress.length ≤ (w.submit event).shared.ingressHighWatermark := by
  unfold submit
  split
  · exact h
  · split
    · exact h
    · unfold submitAccept
      split
      · split
        · exact le_max_right _ _
        · exact h
      · exact h

/-- Events are accepted only while the thread is up. -/
theorem Reported.stays_up (hp : Placed w) (h : Reported w) (ht : Taken w a w')
    (hacc : w'.shared.accepting = true) : w'.thread.IsUp := by
  rcases ht.accepting hp hacc with hold | ⟨rfl, -⟩
  · have hup := h.up hold
    rcases a.sides with ha | ha | ha
    · exact (ht.outside ha).thread ▸ hup
    · rcases (ht.inside hp ha).thread with hthread | ⟨-, ⟨e, hthread⟩ | hthread⟩
      · exact hthread ▸ hup
      · exact hthread ▸ trivial
      · exact hthread ▸ trivial
    cases ht with
    | restart => cases hacc
    | environment => exact hup
    | startCall =>
      unfold startCall
      split
      · next hnew =>
        rw [hp.fresh hnew] at hup
        exact hup.elim
      · exact hup
    | stopLock i seen timeout =>
      obtain ⟨pc, state, deadline, he, -⟩ := stopLock_eq w i seen timeout
      exact he ▸ hup
    | threadOpen factoryError hth | threadStartup hth =>
      rw [hth] at hup
      exact hup.elim
    | threadAnnounce | threadFail | threadClose => trivial
    | threadExit failed cleanup =>
      unfold threadExit withShared at hacc
      dsimp only at hacc
      split at hacc
      · cases hacc
      · split at hacc <;> cases hacc
    | threadDie hth =>
      rw [hth] at hup
      exact hup.elim
    | _ => exact ha.elim
  · cases ht with
    | threadStartup => trivial

namespace Reported

/-- A new process has reported nothing. -/
theorem boot (config : Config) (env : Env) (db : Database) (history : List Obs) :
    Reported (.boot config env db history) where
  consistent := by
    constructor <;> simp [snapshot, Shared.snapshot, World.boot]
  unbegun _ := ⟨rfl, rfl⟩
  flight := by simp [World.boot]
  up := by simp [World.boot]

/-- **Every step leaves a consistent snapshot.** -/
theorem step (hb : Bookkept w) (h : Reported w) (hs : QuestDbWriter.step w a = some w') :
    Reported w' := by
  have ht := Taken.of_step hs
  by_cases hr : a.isRestart
  · cases ht with
    | restart => exact boot _ _ _ _
    | _ => cases hr
  have hedited := h.edited ht hr
  have hedits : (w'.shared.snapshot w.threadAlive w.ingress.length).Consistent
      w'.config.settings := hedited.config ▸ h.consistent.edits hedited.edits
  have hc := hb.carries ht hr
  refine ⟨hedits.of_depth ?_, h.stays_unbegun hb.placed ht, ?_, h.stays_up hb.placed ht⟩
  · by_cases hsub : ∃ event, a = .submit event
    · obtain ⟨event, rfl⟩ := hsub
      cases ht with
      | submit => exact submit_watermark w event h.consistent.depth
    · exact (ingress_length ht hr fun event ha => hsub ⟨event, ha⟩).trans hedits.depth
  · rintro built (hd | hm)
    · exact (hc.sending built hd).elim (fun hd => h.flight built (.inl hd)) Fresh.countable
    · exact (hc.flushing built hm).elim (fun hm => h.flight built (.inr hm)) Fresh.countable

/-- What is reported in every state of every run. -/
theorem of_steps {config : Config} {env : Env}
    (hrun : Steps QuestDbWriter.step (fun _ _ => True) (.boot config env Database.fresh []) w) :
    Bookkept w ∧ Reported w := by
  refine hrun.invariant (I := fun w => Bookkept w ∧ Reported w)
    ⟨.of_books (.fresh config env), .boot ..⟩ ?_
  rintro u a v ⟨hb, h⟩ - hs
  exact ⟨hb.step hs, h.step hb hs⟩

end Reported

end

/-! ## Runs -/

/-- **No snapshot contradicts itself**: in every run from an empty spool file, through any number of
deaths of the process, what `snapshot()` returns between any two steps is consistent, and events
are accepted only while the thread is alive. -/
theorem snapshot_consistent (config : Config) (env : Env) (w : World)
    (hrun : Steps step (fun _ _ => True) (.boot config env Database.fresh []) w) :
    w.snapshot.Consistent w.config.settings ∧
      (w.snapshot.accepting = true → w.snapshot.threadAlive = true) := by
  have h := (Reported.of_steps hrun).2
  refine ⟨h.consistent, fun hacc => ?_⟩
  have hup := h.up hacc
  show w.threadAlive = true
  unfold threadAlive
  split
  · next he =>
    rw [he] at hup
    exact hup.elim
  · next he =>
    rw [he] at hup
    exact hup.elim
  · rfl

/-- A blocked delivery says why, and the thread goes on accepting events. -/
theorem oneDenied_consistent : ∃ w : World,
    exec step oneDenied (.boot .provisional .quiet .fresh []) = some w ∧
      w.snapshot.state = .blocked ∧ w.snapshot.retryDelaySeconds = none ∧
      w.snapshot.lastError.isSome = true ∧ w.snapshot.threadAlive = true := by
  have hrun : ((exec step oneDenied (.boot .provisional .quiet .fresh [])).any fun w =>
      decide (w.snapshot.state = .blocked ∧ w.snapshot.accepting = true)) = true := by
    decide +kernel
  obtain ⟨w, hw, hend⟩ := (Option.any_eq_true _ _).mp hrun
  obtain ⟨hblocked, hacc⟩ := of_decide_eq_true hend
  obtain ⟨hconsistent, halive⟩ := snapshot_consistent _ _ w (.of_exec (Option.mem_def.mp hw))
  obtain ⟨hdelay, herror⟩ := hconsistent.blocked hblocked
  exact ⟨w, hw, hblocked, hdelay, herror, halive hacc⟩

/-- **No total goes back while the process lives.** -/
theorem snapshot_grows (config : Config) (env : Env) (w w' : World)
    (hrun : Steps step (fun _ _ => True) (.boot config env Database.fresh []) w)
    (hlater : Steps step (fun _ a => ¬ a.isRestart) w w') :
    w.snapshot.Grows w'.snapshot := by
  have hend : (Bookkept w' ∧ Reported w') ∧ w.snapshot.Grows w'.snapshot := by
    refine hlater.invariant (I := fun v => (Bookkept v ∧ Reported v) ∧ w.snapshot.Grows v.snapshot)
      ⟨Reported.of_steps hrun, .refl _⟩ ?_
    rintro u a v ⟨⟨hb, h⟩, hg⟩ hr hs
    refine ⟨⟨hb.step hs, h.step hb hs⟩, hg.trans ?_⟩
    exact WorkerSnapshot.Grows.edits (h.edited (.of_step hs) hr).edits
  exact hend.2

/-- An event is on its way to QuestDB, and is delivered. -/
theorem oneSent_grows : ∃ w w' : World,
    exec step oneSent (.boot .provisional .quiet .fresh []) = some w ∧
      step w (.deliverSent .ok) = some w' ∧ w.snapshot.deliveredEvents = 0 ∧
      w'.snapshot.deliveredEvents = 1 ∧ w.snapshot.Grows w'.snapshot := by
  have hrun : ((exec step oneSent (.boot .provisional .quiet .fresh [])).any fun w =>
      (step w (.deliverSent .ok)).any fun w' =>
        decide (w.snapshot.deliveredEvents = 0 ∧ w'.snapshot.deliveredEvents = 1)) = true := by
    decide +kernel
  obtain ⟨w, hw, hsent⟩ := (Option.any_eq_true _ _).mp hrun
  obtain ⟨w', hw', hend⟩ := (Option.any_eq_true _ _).mp hsent
  obtain ⟨hbefore, hafter⟩ := of_decide_eq_true hend
  have hnot : ¬ (Action.deliverSent .ok).isRestart := Bool.false_ne_true
  exact ⟨w, w', hw, hw', hbefore, hafter, snapshot_grows _ _ w w' (.of_exec (Option.mem_def.mp hw))
    (.tail (.deliverSent .ok) .refl hnot (Option.mem_def.mp hw'))⟩

end World

end QuestDbWriter
