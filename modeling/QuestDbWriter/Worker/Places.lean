import QuestDbWriter.Worker.Frame

/-!
# Where the parties can stand

`Taken` is `step`, read backwards: one constructor for each way an action can be taken, with all
that is known when it is. Every invariant of the system is proved by cases on it. The first one,
`Placed`, relates the places of the worker thread, of its coroutines and of the state under the
lock.
-/

namespace QuestDbWriter

open Lib

/-! ## One step -/

/-- How the system can take an action, and where it leads. -/
inductive Taken (w : World) : Action → World → Prop where
  | environment (env : Env) (faults : List (Option StorageFault)) :
      Taken w (.environment env faults) { w with env, spool := { w.spool with faults } }
  | restart (config : Config) (env : Env) :
      Taken w (.restart config env) (.boot config env w.spool.db w.history)
  | submit (event : EventEnvelope) : Taken w (.submit event) (w.submit event)
  | submitSignal (h : 0 < w.submitSignals) :
      Taken w .submitSignal
        ({ w with submitSignals := w.submitSignals - 1 }.signalLoop .wakePersist)
  | startCall (h : w.start = .idle) : Taken w .startCall w.startCall
  | startReady (h : w.start = .waiting) (hr : w.ready) : Taken w .startReady w.startReady
  | startTimeout (h : w.start = .waiting) :
      Taken w .startTimeout ({ w with start := .timedOut }.withShared
        ({ · with accepting := false, lastError := some (py "worker initialization timed out") }))
  | startTimedOut (h : w.start = .timedOut) :
      Taken w .startTimedOut { w with start := .signalling, stopRequested := true }
  | startSignal (h : w.start = .signalling) :
      Taken w .startSignal ({ w with start := .raised }.signalLoop .stopAsync)
  | stopCall (timeout : ℚ) :
      Taken w (.stopCall timeout)
        { w with stops := w.stops ++ [.locking (decide (w.thread ≠ .absent)) timeout] }
  | stopLock (i : Nat) (seen : Bool) (timeout : ℚ)
      (h : w.stops[i]? = some (.locking seen timeout)) :
      Taken w (.stopLock i) (w.stopLock i seen timeout)
  | stopSet (i : Nat) (h : w.stops[i]? = some .setting) :
      Taken w (.stopSet i) { w with stops := w.stops.set i .signalling, stopRequested := true }
  | stopSignal (i : Nat) (h : w.stops[i]? = some .signalling) :
      Taken w (.stopSignal i) ({ w with stops := w.stops.set i .joining }.signalLoop .stopAsync)
  | stopReturn (i : Nat) (h : w.stops[i]? = some .joining) :
      Taken w (.stopReturn i) { w with stops := w.stops.set i (.returned (!w.threadAlive)) }
  | threadOpen (factoryError : Option Exc) (h : w.thread = .opening) :
      Taken w (.threadOpen factoryError) (w.threadOpen factoryError)
  | threadStartup (h : w.thread = .opened) : Taken w .threadStartup w.threadStartup
  | threadAnnounce (h : w.thread = .announcing) :
      Taken w .threadAnnounce { w with thread := .looping, ready := true, main := .publishing }
  | threadFail (e : Exc) (h : w.thread = .raising e) : Taken w .threadFail (w.threadFail e)
  | threadClose (failed : Bool) (cleanup : Option Exc) (h : w.thread = .closing failed) :
      Taken w (.threadClose cleanup) { w with ready := true, thread := .exiting failed cleanup }
  | threadExit (failed : Bool) (cleanup : Option Exc) (h : w.thread = .exiting failed cleanup) :
      Taken w .threadExit (w.threadExit failed cleanup)
  | threadDie (h : w.thread = .ended) : Taken w .threadDie { w with thread := .dead }
  | wakePersist (callbacks : List Callback) (hl : w.loopRunning) (hb : w.busy = false)
      (h : w.callbacks = .wakePersist :: callbacks) :
      Taken w .callback { w with callbacks, wakePersist := true }
  | stopAsync (callbacks : List Callback) (hl : w.loopRunning) (hb : w.busy = false)
      (h : w.callbacks = .stopAsync :: callbacks) :
      Taken w .callback { w with callbacks, stopAsync := true }
  | mainPublish (h : w.main = .publishing) :
      Taken w .mainPublish { w with main := .testing, loopRunning := true }
  | mainTest (h : w.main = .testing) :
      Taken w .mainTest
        { w with main := .waiting, stopAsync := w.stopAsync || w.stopRequested }
  | mainStop (h : w.main = .waiting) (hs : w.stopAsync) (hb : w.busy = false) :
      Taken w .mainStop w.mainStop
  | mainTaskDone (e : Exc) (h : w.main = .waiting) (hb : w.busy = false)
      (he : w.mainTaskDone = some (w.mainRaise e)) :
      Taken w .mainTaskDone (w.mainRaise e)
  | mainPersisted (h : w.main = .awaitPersist) (hp : w.persist = .returned) :
      Taken w .mainPersistDone w.mainPersisted
  | mainPersistRaised (e : Exc) (h : w.main = .awaitPersist) (hp : w.persist = .raised e) :
      Taken w .mainPersistDone (w.mainRaise e)
  | flushEnsured (result : EnsureResult) (h : w.main = .flushEnsuring) :
      Taken w (.flushEnsured result) (w.flushEnsured result)
  | flushSent (built : BuiltBatch) (result : SendResult) (h : w.main = .flushSending built) :
      Taken w (.flushSent result) (w.flushSent built result)
  | persistRun (ht : w.tasksRun) (h : w.persist = .top) :
      Taken w .persistRun { w with persist := .draining }
  | persistDrain (h : w.persist = .draining) : Taken w .persistDrain w.persistDrain
  | persistRound (h : w.persist = .persisting) : Taken w .persistRound w.persistRound
  | persistCheck (h : w.persist = .checking) : Taken w .persistCheck w.persistCheck
  | persistWake (deadline : ℚ)
      (h : w.persist = .waiting deadline ∨ w.persist = .sleeping deadline) :
      Taken w .persistWake { w with persist := .top }
  | deliverRun (ht : w.tasksRun) (hb : w.busy = false) (h : w.deliver = .top) :
      Taken w .deliverRun w.deliverTop
  | deliverEnsured (result : EnsureResult) (hb : w.busy = false) (h : w.deliver = .ensuring) :
      Taken w (.deliverEnsured result) (w.deliverEnsured result)
  | deliverSent (built : BuiltBatch) (result : SendResult) (hb : w.busy = false)
      (h : w.deliver = .sending built) :
      Taken w (.deliverSent result) (w.deliverSent built result)
  | deliverWake (deadline : ℚ) (hb : w.busy = false)
      (h : w.deliver = .gateWait deadline ∨ w.deliver = .waiting deadline)
      (hw : w.wakeDeliver ∨ w.stopAsync ∨ deadline ≤ w.env.monotonic) :
      Taken w .deliverWake { w with deliver := .top }

/-- An action that is taken is taken in one of these ways. -/
theorem Taken.of_step {w w' : World} {a : Action} (h : step w a = some w') : Taken w a w' := by
  cases a with
  | environment env faults => cases h; exact .environment env faults
  | restart config env => cases h; exact .restart config env
  | submit event => cases h; exact .submit event
  | submitSignal =>
    obtain ⟨hs, ⟨⟩⟩ := Option.ite_none_right_eq_some.mp h
    exact .submitSignal hs
  | startCall =>
    obtain ⟨hs, ⟨⟩⟩ := Option.ite_none_right_eq_some.mp h
    exact .startCall hs
  | startReady =>
    obtain ⟨hs, ⟨⟩⟩ := Option.ite_none_right_eq_some.mp h
    exact .startReady hs.1 hs.2
  | startTimeout =>
    obtain ⟨hs, ⟨⟩⟩ := Option.ite_none_right_eq_some.mp h
    exact .startTimeout hs
  | startTimedOut =>
    obtain ⟨hs, ⟨⟩⟩ := Option.ite_none_right_eq_some.mp h
    exact .startTimedOut hs
  | startSignal =>
    obtain ⟨hs, ⟨⟩⟩ := Option.ite_none_right_eq_some.mp h
    exact .startSignal hs
  | stopCall timeout =>
    simp only [step] at h
    split at h
    · cases h; exact .stopCall timeout
    · cases h
  | stopLock i =>
    simp only [step] at h
    split at h
    · next seen timeout hs => cases h; exact .stopLock i seen timeout hs
    · cases h
  | stopSet i =>
    obtain ⟨hs, ⟨⟩⟩ := Option.ite_none_right_eq_some.mp h
    exact .stopSet i hs
  | stopSignal i =>
    obtain ⟨hs, ⟨⟩⟩ := Option.ite_none_right_eq_some.mp h
    exact .stopSignal i hs
  | stopReturn i =>
    obtain ⟨hs, ⟨⟩⟩ := Option.ite_none_right_eq_some.mp h
    exact .stopReturn i hs
  | threadOpen factoryError =>
    obtain ⟨hs, ⟨⟩⟩ := Option.ite_none_right_eq_some.mp h
    exact .threadOpen factoryError hs
  | threadStartup =>
    obtain ⟨hs, ⟨⟩⟩ := Option.ite_none_right_eq_some.mp h
    exact .threadStartup hs
  | threadAnnounce =>
    obtain ⟨hs, ⟨⟩⟩ := Option.ite_none_right_eq_some.mp h
    exact .threadAnnounce hs
  | threadFail =>
    simp only [step] at h
    split at h
    · next e hs => cases h; exact .threadFail e hs
    · cases h
  | threadClose cleanup =>
    simp only [step] at h
    split at h
    · next failed hs => cases h; exact .threadClose failed cleanup hs
    · cases h
  | threadExit =>
    simp only [step] at h
    split at h
    · next failed cleanup hs => cases h; exact .threadExit failed cleanup hs
    · cases h
  | threadDie =>
    obtain ⟨hs, ⟨⟩⟩ := Option.ite_none_right_eq_some.mp h
    exact .threadDie hs
  | callback =>
    simp only [step] at h
    split at h
    · next hs =>
      split at h
      · next callbacks hc => cases h; exact .wakePersist callbacks hs.1 hs.2 hc
      · next callbacks hc => cases h; exact .stopAsync callbacks hs.1 hs.2 hc
      · cases h
    · cases h
  | mainPublish =>
    obtain ⟨hs, ⟨⟩⟩ := Option.ite_none_right_eq_some.mp h
    exact .mainPublish hs
  | mainTest =>
    obtain ⟨hs, ⟨⟩⟩ := Option.ite_none_right_eq_some.mp h
    exact .mainTest hs
  | mainStop =>
    obtain ⟨hs, ⟨⟩⟩ := Option.ite_none_right_eq_some.mp h
    exact .mainStop hs.1 hs.2.1 hs.2.2
  | mainTaskDone =>
    simp only [step] at h
    split at h
    · next hs =>
      have hraise : ∃ e, w.mainTaskDone = some (w.mainRaise e) := by
        rw [h]
        unfold World.mainTaskDone at h
        split at h
        · exact ⟨_, h.symm⟩
        · exact ⟨_, h.symm⟩
        · split at h
          · cases h
          · exact ⟨_, h.symm⟩
        · split at h
          · cases h
          · exact ⟨_, h.symm⟩
        · cases h
      obtain ⟨e, he⟩ := hraise
      cases he.symm.trans h
      exact .mainTaskDone e hs.1 hs.2 he
    · cases h
  | mainPersistDone =>
    simp only [step] at h
    split at h
    · next hs =>
      split at h
      · next hp => cases h; exact .mainPersisted hs hp
      · next e hp => cases h; exact .mainPersistRaised e hs hp
      · cases h
    · cases h
  | flushEnsured result =>
    obtain ⟨hs, ⟨⟩⟩ := Option.ite_none_right_eq_some.mp h
    exact .flushEnsured result hs
  | flushSent result =>
    simp only [step] at h
    split at h
    · next built hs => cases h; exact .flushSent built result hs
    · cases h
  | persistRun =>
    obtain ⟨hs, ⟨⟩⟩ := Option.ite_none_right_eq_some.mp h
    exact .persistRun hs.1 hs.2
  | persistDrain =>
    obtain ⟨hs, ⟨⟩⟩ := Option.ite_none_right_eq_some.mp h
    exact .persistDrain hs
  | persistRound =>
    obtain ⟨hs, ⟨⟩⟩ := Option.ite_none_right_eq_some.mp h
    exact .persistRound hs
  | persistCheck =>
    obtain ⟨hs, ⟨⟩⟩ := Option.ite_none_right_eq_some.mp h
    exact .persistCheck hs
  | persistWake =>
    simp only [step] at h
    split at h
    · next deadline hs =>
      split at h
      · cases h; exact .persistWake deadline (.inl hs)
      · cases h
    · next deadline hs =>
      split at h
      · cases h; exact .persistWake deadline (.inr hs)
      · cases h
    · cases h
  | deliverRun =>
    obtain ⟨hs, ⟨⟩⟩ := Option.ite_none_right_eq_some.mp h
    exact .deliverRun hs.1 hs.2.1 hs.2.2
  | deliverEnsured result =>
    obtain ⟨hs, ⟨⟩⟩ := Option.ite_none_right_eq_some.mp h
    exact .deliverEnsured result hs.1 hs.2
  | deliverSent result =>
    simp only [step] at h
    split at h
    · cases h
    · next hb =>
      split at h
      · next built hs => cases h; exact .deliverSent built result (by simpa using hb) hs
      · cases h
  | deliverWake =>
    simp only [step] at h
    split at h
    · cases h
    · next hb =>
      split at h
      · next deadline hs =>
        split at h
        · next hw => cases h; exact .deliverWake deadline (by simpa using hb) (.inl hs) hw
        · cases h
      · next deadline hs =>
        split at h
        · next hw => cases h; exact .deliverWake deadline (by simpa using hb) (.inr hs) hw
        · cases h
      · cases h

/-! ## Places -/

/-- The main coroutine runs. -/
def MainPc.IsActive : MainPc → Prop
  | .idle | .ended => False
  | _ => True

/-- The main coroutine awaits the persist task, or flushes. -/
def MainPc.IsStopping : MainPc → Prop
  | .awaitPersist | .flushEnsuring | .flushSending _ => True
  | _ => False

/-- The main coroutine flushes. -/
def MainPc.IsFlushing : MainPc → Prop
  | .flushEnsuring | .flushSending _ => True
  | _ => False

/-- A main coroutine that stops has not ended. -/
theorem MainPc.IsStopping.active {m : MainPc} (h : m.IsStopping) : m.IsActive := by
  cases m <;> first | exact h.elim | trivial

/-- A main coroutine that flushes is one that stops. -/
theorem MainPc.IsFlushing.stopping {m : MainPc} (h : m.IsFlushing) : m.IsStopping := by
  cases m <;> first | exact h.elim | trivial

/-- The persist loop is between two awaits. -/
def PersistPc.IsRunning : PersistPc → Prop
  | .draining | .persisting | .checking => True
  | _ => False

/-- The delivery loop is at an await. -/
def DeliverPc.IsAwaiting : DeliverPc → Prop
  | .ensuring | .gateWait _ | .sending _ | .waiting _ => True
  | _ => False

/-- The persist loop has ended. -/
def PersistPc.IsOver : PersistPc → Prop
  | .returned | .raised _ | .cancelled => True
  | _ => False

/-- The delivery loop has ended. -/
def DeliverPc.IsOver : DeliverPc → Prop
  | .returned | .raised _ | .cancelled => True
  | _ => False

/-- A persist loop that has ended does not run. -/
theorem PersistPc.IsOver.not_running {p : PersistPc} (h : p.IsOver) : ¬ p.IsRunning := by
  cases p <;> first | exact h.elim | exact id

/-- A delivery loop that has ended awaits nothing. -/
theorem DeliverPc.IsOver.not_awaiting {d : DeliverPc} (h : d.IsOver) : ¬ d.IsAwaiting := by
  cases d <;> first | exact h.elim | exact id

namespace World

/-- How the places of the parties go together. -/
structure Placed (w : World) : Prop where
  fresh : w.shared.state = .new → w.thread = .absent
  looping : w.main.IsActive → w.thread = .looping
  persisting : w.persist.IsRunning → w.tasksRun
  delivering : w.deliver.IsAwaiting → w.tasksRun
  stopping : w.main.IsStopping → w.stopAsync
  flushing : w.main.IsFlushing → w.persist = .returned

/-- The tasks run only while the main coroutine does. -/
theorem tasksRun_active {w : World} (h : w.tasksRun) : w.main.IsActive := by
  unfold tasksRun at h
  split at h
  case h_5 => cases h
  all_goals rename_i he; rw [he]; trivial

/-- A signal adds at most a callback. -/
theorem signalLoop_eq (w : World) (c : Callback) :
    ∃ callbacks, w.signalLoop c = { w with callbacks } ∧ callbacks ⊆ w.callbacks ++ [c] := by
  unfold signalLoop
  split
  · exact ⟨_, rfl, List.Subset.refl _⟩
  · exact ⟨_, rfl, List.subset_append_left _ _⟩

/-- `submit()` takes an event while events are accepted and the queue has room, and counts it; or
nothing but a counter and the last error changes. -/
theorem submit_eq (w : World) (event : EventEnvelope) :
    ∃ shared,
      ((w.submit event = { w with shared } ∧
          shared.counters.submittedEvents = w.shared.counters.submittedEvents) ∨
        ∃ e, event.toSpoolEvent = .ok e ∧ w.shared.accepting = true ∧
          w.ingress.length < w.config.settings.ingressQueueCapacity ∧
          e.payload.length ≤ w.config.settings.maxSerializedEventBytes ∧
          w.submit event = { w with
            shared, ingress := w.ingress ++ [e], submitSignals := w.submitSignals + 1,
            history := w.history ++ [.accepted e] } ∧
          shared.counters.submittedEvents = w.shared.counters.submittedEvents + 1) ∧
      shared.state = w.shared.state ∧ shared.accepting = w.shared.accepting ∧
      shared.counters.persistedEvents = w.shared.counters.persistedEvents := by
  unfold submit
  split
  · exact ⟨_, .inl ⟨rfl, rfl⟩, rfl, rfl, rfl⟩
  · next e he =>
    split
    · exact ⟨_, .inl ⟨rfl, rfl⟩, rfl, rfl, rfl⟩
    · next hsize =>
      unfold submitAccept
      split
      · next ha =>
        split
        · next hroom =>
          exact ⟨_, .inr ⟨e, he, ha, hroom, by omega, rfl, rfl⟩, rfl, rfl, rfl⟩
        · exact ⟨_, .inl ⟨rfl, rfl⟩, rfl, rfl, rfl⟩
      · exact ⟨_, .inl ⟨rfl, rfl⟩, rfl, rfl, rfl⟩

/-- What `start()` leaves alone once the thread is ready. -/
theorem startReady_eq (w : World) :
    w.startReady = { w with start := .raised } ∨ w.startReady = { w with start := .returned } := by
  unfold startReady
  split
  · exact .inl rfl
  · exact .inl rfl
  · exact .inl rfl
  · exact .inr rfl

/-- Opening leads to the startup lock block, or raises. -/
theorem threadOpen_eq (w : World) (factoryError : Option Exc) :
    ∃ u thread, Acts w u ∧ w.threadOpen factoryError = { u with thread } ∧
      (thread = .opened ∨ ∃ e, thread = .raising e) := by
  have hcall := Acts.call w (SQLiteSpool.openSpool w.env.pragmas w.env.freeBytes)
  unfold threadOpen
  split
  · next e w' he =>
    rw [he] at hcall
    exact ⟨w', _, hcall, rfl, .inr ⟨e, rfl⟩⟩
  · next w' he =>
    rw [he] at hcall
    split
    · next e => exact ⟨w', _, hcall, rfl, .inr ⟨e, rfl⟩⟩
    · have hstats := Acts.readStats w'
      split
      · next e v hv =>
        rw [hv] at hstats
        exact ⟨v, _, hcall.trans hstats, rfl, .inr ⟨e, rfl⟩⟩
      · next stats v hv =>
        rw [hv] at hstats
        exact ⟨v, _, hcall.trans hstats, rfl, .inl rfl⟩

/-- One turn of `_drain_ingress` moves an event, or ends the draining. -/
theorem persistDrain_eq (w : World) :
    (∃ event ingress, w.ingress = event :: ingress ∧
      w.held.length < w.config.settings.persistBatchRows ∧
      w.persistDrain = { w with held := w.held ++ [event], ingress }) ∨
    w.persistDrain = { w with persist := .persisting }.withShared
      ({ · with heldUnpersisted := w.held.length }) := by
  unfold persistDrain
  split
  · next event ingress he =>
    split
    · next hl => exact .inl ⟨event, ingress, he, hl, rfl⟩
    · exact .inr rfl
  · exact .inr rfl

/-- The end of a turn of `_persist_loop`: it returns with nothing left, or goes on. -/
theorem persistCheck_eq (w : World) :
    (w.persistCheck = { w with persist := .returned } ∧ w.stopAsync ∧ w.held = [] ∧
      w.ingress = []) ∨
    ∃ persist wakePersist, w.persistCheck = { w with persist, wakePersist } ∧
      ¬ persist.IsRunning ∧ persist ≠ .returned := by
  unfold persistCheck
  dsimp only
  split
  · next hs =>
    split
    · next hl => exact .inl ⟨rfl, hs, hl⟩
    · split
      · exact .inr ⟨_, _, rfl, id, nofun⟩
      · split
        · exact .inr ⟨_, _, rfl, id, nofun⟩
        · exact .inr ⟨_, _, rfl, id, nofun⟩
  · exact .inr ⟨_, _, rfl, id, nofun⟩

/-- The lock block of `stop()` refuses events; it stops a service that has not started, and
announces the stop to a thread that is alive. -/
theorem stopLock_eq (w : World) (i : Nat) (seen : Bool) (timeout : ℚ) :
    ∃ pc state shutdownDeadline, w.stopLock i seen timeout =
        { w with stops := w.stops.set i pc }.withShared
          ({ · with accepting := false, state, shutdownDeadline }) ∧
      (w.shared.state = .new ∧ state = .stopped ∧ pc = .returned true ∨
        w.shared.state ≠ .new ∧ state = w.shared.state ∧ pc = .returned true ∧
          (seen = false ∨ w.threadAlive = false) ∨
        state = .stopping ∧ pc = .setting ∧ seen = true ∧ w.threadAlive = true) := by
  have halive : (w.withShared ({ · with accepting := false })).threadAlive = w.threadAlive := rfl
  unfold stopLock
  dsimp only
  rw [halive]
  split
  · next hn => exact ⟨_, _, _, rfl, .inl ⟨hn, rfl, rfl⟩⟩
  · next hn =>
    split
    · next hgone =>
      have hgone : seen = false ∨ w.threadAlive = false := by simpa using hgone
      exact ⟨_, _, _, rfl, .inr (.inl ⟨hn, rfl, rfl, hgone⟩)⟩
    · next hlive =>
      have hlive : seen = true ∧ w.threadAlive = true := by simpa using hlive
      exact ⟨_, _, _, rfl, .inr (.inr ⟨rfl, rfl, hlive⟩)⟩

/-- The persist task, once cancelled, has ended; it has returned only if it had. -/
theorem cancelPersist_eq (w : World) :
    ∃ persist, w.cancelPersist = { w with persist } ∧ persist.IsOver ∧
      (persist = .returned ↔ w.persist = .returned) := by
  unfold cancelPersist
  split
  · next hp => exact ⟨.returned, hp ▸ rfl, trivial, by simp [hp]⟩
  · next e hp => exact ⟨.raised e, hp ▸ rfl, trivial, by simp [hp]⟩
  · next hp _ => exact ⟨.cancelled, rfl, trivial, nofun, fun he => absurd he hp⟩

/-- The delivery task, once cancelled, has ended. -/
theorem cancelDeliver_eq (w : World) :
    ∃ deliver, w.cancelDeliver = { w with deliver } ∧ deliver.IsOver := by
  unfold cancelDeliver
  split
  · next hd => exact ⟨.returned, hd ▸ rfl, trivial⟩
  · next e hd => exact ⟨.raised e, hd ▸ rfl, trivial⟩
  · exact ⟨.cancelled, rfl, trivial⟩

/-- An exception ends the main coroutine and both tasks, and no more. -/
theorem mainRaise_eq (w : World) (e : Exc) :
    ∃ persist deliver, w.mainRaise e =
        { w with persist, deliver, main := .ended, loopRunning := false, thread := .raising e } ∧
      persist.IsOver ∧ (persist = .returned ↔ w.persist = .returned) ∧ deliver.IsOver := by
  obtain ⟨persist, hp, hover, hret⟩ := cancelPersist_eq w
  obtain ⟨deliver, hd, hended⟩ := cancelDeliver_eq w.cancelPersist
  refine ⟨persist, deliver, ?_, hover, hret, hended⟩
  unfold mainRaise
  rw [hd, hp]

/-- The end of the main coroutine, or the exception of the delivery task. -/
theorem mainFinish_eq (w : World) :
    (∃ e, w.mainFinish = w.mainRaise e) ∨
    ∃ deliver, w.mainFinish =
        { w with deliver, main := .ended, loopRunning := false, thread := .closing false } ∧
      deliver.IsOver := by
  unfold mainFinish
  split
  · exact .inl ⟨_, rfl⟩
  · obtain ⟨deliver, hd, hended⟩ := cancelDeliver_eq w
    exact .inr ⟨deliver, by rw [hd], hended⟩

namespace Placed

variable {w w' : World}

/-- A new process is at its start. -/
theorem boot (config : Config) (env : Env) (db : Database) (history : List Obs) :
    Placed (.boot config env db history) where
  fresh _ := rfl
  looping := nofun
  persisting := nofun
  delivering := nofun
  stopping := nofun
  flushing := nofun

/-- A step that moves no party. -/
theorem of_eq (h : Placed w) (hs : w'.shared.state = .new → w.shared.state = .new)
    (ht : w'.thread = w.thread) (hm : w'.main = w.main) (hp : w'.persist = w.persist)
    (hd : w'.deliver = w.deliver) (ha : w.stopAsync → w'.stopAsync) : Placed w' := by
  have htasks : w'.tasksRun = w.tasksRun := by
    unfold tasksRun
    rw [hm]
  constructor
  · exact fun hn => ht.trans (h.fresh (hs hn))
  · exact fun hn => ht.trans (h.looping (hm ▸ hn))
  · exact fun hn => htasks ▸ h.persisting (hp ▸ hn)
  · exact fun hn => htasks ▸ h.delivering (hd ▸ hn)
  · exact fun hn => ha (h.stopping (hm ▸ hn))
  · exact fun hn => hp.trans (h.flushing (hm ▸ hn))

/-- A method leaves every party in its place. -/
theorem acts (h : Placed w) (ha : Acts w w') : Placed w' := by
  have hstate := ha.shared.state
  obtain ⟨spool, shared, history, rfl⟩ := ha.world
  refine h.of_eq (fun hn => ?_) rfl rfl rfl rfl id
  rcases hstate with he | ⟨-, -, hd⟩
  · exact he.symm.trans hn
  · change shared.state.IsDelivery at hd
    change shared.state = .new at hn
    rw [hn] at hd
    exact hd.elim

/-- So does an attempt to persist. -/
theorem persists (h : Placed w) (hp : Persists w w') : Placed w' := by
  cases hp with
  | kept h' => exact h.acts h'
  | taken u rows h' h'' =>
    refine acts ?_ h''
    exact (h.acts h').of_eq id rfl rfl rfl rfl id

/-- A turn of the delivery loop leaves every other party where it is. -/
theorem delivers (h : Placed w) (hd : Delivers w w') (ht : w.tasksRun) : Placed w' := by
  have hstate := hd.shared.state
  obtain ⟨spool, shared, history, wakeDeliver, deliver, locals, rfl⟩ := hd.world
  constructor
  · intro hn
    rcases hstate with he | ⟨-, -, hk⟩
    · exact h.fresh (he.symm.trans hn)
    · change shared.state.IsDelivery at hk
      change shared.state = .new at hn
      rw [hn] at hk
      exact hk.elim
  · exact h.looping
  · exact h.persisting
  · exact fun _ => ht
  · exact h.stopping
  · exact h.flushing

/-- A service whose loop runs has been started. -/
theorem active_state (h : Placed w) (ha : w.main.IsActive) : w.shared.state ≠ .new := by
  intro hn
  have := (h.looping ha).symm.trans (h.fresh hn)
  cases this

/-- An exception of the main coroutine ends its tasks with it. -/
theorem mainRaise (h : Placed w) (ha : w.main.IsActive) (e : Exc) : Placed (w.mainRaise e) := by
  have hstate := h.active_state ha
  obtain ⟨persist, deliver, he, hover, -, hended⟩ := mainRaise_eq w e
  rw [he]
  exact ⟨fun hn => absurd hn hstate, nofun, fun hr => absurd hr hover.not_running,
    fun hr => absurd hr hended.not_awaiting, nofun, nofun⟩

/-- The end of the main coroutine, behind its persist task. -/
theorem mainFinish (h : Placed w) (ha : w.main.IsActive) (hp : w.persist = .returned) :
    Placed w.mainFinish := by
  have hstate := h.active_state ha
  rcases mainFinish_eq w with ⟨e, he⟩ | ⟨deliver, he, hended⟩
  · rw [he]
    exact h.mainRaise ha e
  · rw [he]
    refine ⟨fun hn => absurd hn hstate, nofun, fun hr => ?_,
      fun hr => absurd hr hended.not_awaiting, nofun, nofun⟩
    change w.persist.IsRunning at hr
    rw [hp] at hr
    exact hr.elim

/-- A step of the shutdown flush, behind the persist task. -/
theorem flushes (h : Placed w) (hf : Flushes w w') (hm : w.main.IsStopping)
    (hp : w.persist = .returned) : Placed w' := by
  have hactive : w.main.IsActive := hm.active
  have key : ∀ {u}, Acts w u → Placed u ∧ u.main.IsActive ∧ u.persist = .returned ∧
      u.main.IsStopping ∧ u.thread = w.thread := by
    intro u hu
    refine ⟨h.acts hu, ?_⟩
    obtain ⟨spool, shared, history, rfl⟩ := hu.world
    exact ⟨hactive, hp, hm, rfl⟩
  have hawait : ∀ {u : World} {main : MainPc} {flushBackoff : Backoff}, Placed u →
      u.main.IsStopping → u.main.IsActive → u.persist = .returned → main.IsFlushing →
      Placed { u with main, flushBackoff } := by
    intro u main flushBackoff hu hs ha hr hmain
    have htasks : ∀ v : World, v.main.IsFlushing → v.tasksRun := by
      intro v hv
      unfold tasksRun
      revert hv
      cases v.main <;> simp [MainPc.IsFlushing]
    refine ⟨hu.fresh, fun _ => hu.looping ha, fun _ => htasks _ hmain, fun _ => htasks _ hmain,
      fun _ => hu.stopping hs, fun _ => hr⟩
  cases hf with
  | raised u e hu => exact (key hu).1.mainRaise (key hu).2.1 e
  | finished u hu => exact (key hu).1.mainFinish (key hu).2.1 (key hu).2.2.1
  | ensuring u hu =>
    obtain ⟨h1, h2, h3, h4, -⟩ := key hu
    exact hawait h1 h4 h2 h3 trivial
  | sending u built backoff hu =>
    obtain ⟨h1, h2, h3, h4, -⟩ := key hu
    exact hawait h1 h4 h2 h3 trivial

/-- A step of the thread while the main coroutine does not run. -/
theorem of_thread (h : Placed w) (hs : w'.shared.state = .new → w.shared.state = .new)
    (ha : w.thread ≠ .absent) (hl : w.thread ≠ .looping) (hm : w'.main = w.main)
    (hp : w'.persist = w.persist) (hd : w'.deliver = w.deliver) : Placed w' := by
  have hidle : ¬ w.main.IsActive := fun hact => hl (h.looping hact)
  have htasks : ¬ w.tasksRun := fun ht => hidle (tasksRun_active ht)
  have hstop : ¬ w.main.IsStopping := fun hs => hidle hs.active
  have hflush : ¬ w.main.IsFlushing := fun hs => hstop hs.stopping
  constructor
  · exact fun hn => absurd (h.fresh (hs hn)) ha
  · exact fun hn => absurd (hm ▸ hn) hidle
  · exact fun hn => absurd (h.persisting (hp ▸ hn)) htasks
  · exact fun hn => absurd (h.delivering (hd ▸ hn)) htasks
  · exact fun hn => absurd (hm ▸ hn) hstop
  · exact fun hn => absurd (hm ▸ hn) hflush

/-- **Every step leaves every party where it can be.** -/
theorem step {a : Action} (h : Placed w) (hs : step w a = some w') : Placed w' := by
  cases Taken.of_step hs with
  | environment | stopCall | stopSet | stopReturn | startTimeout | startTimedOut | wakePersist =>
    exact h.of_eq id rfl rfl rfl rfl id
  | stopAsync => exact h.of_eq id rfl rfl rfl rfl fun _ => rfl
  | restart => exact boot _ _ _ _
  | submit event =>
    obtain ⟨shared, ⟨he, -⟩ | ⟨e, -, -, -, -, he, -⟩, hstate, -⟩ := submit_eq w event
    · rw [he]
      exact h.of_eq (fun hn => hstate.symm.trans hn) rfl rfl rfl rfl id
    · rw [he]
      exact h.of_eq (fun hn => hstate.symm.trans hn) rfl rfl rfl rfl id
  | submitSignal =>
    obtain ⟨callbacks, he, -⟩ :=
      signalLoop_eq { w with submitSignals := w.submitSignals - 1 } .wakePersist
    rw [he]
    exact h.of_eq id rfl rfl rfl rfl id
  | startSignal =>
    obtain ⟨callbacks, he, -⟩ := signalLoop_eq { w with start := .raised } .stopAsync
    rw [he]
    exact h.of_eq id rfl rfl rfl rfl id
  | stopSignal i =>
    obtain ⟨callbacks, he, -⟩ := signalLoop_eq { w with stops := w.stops.set i .joining } .stopAsync
    rw [he]
    exact h.of_eq id rfl rfl rfl rfl id
  | startCall =>
    unfold startCall
    split
    · next hn =>
      have habsent := h.fresh hn
      have hidle : ¬ w.main.IsActive := fun ha => by
        cases habsent.symm.trans (h.looping ha)
      refine ⟨nofun, fun ha => absurd ha hidle, h.persisting, h.delivering, h.stopping, h.flushing⟩
    · exact h.of_eq id rfl rfl rfl rfl id
  | startReady =>
    rcases startReady_eq w with he | he
    · rw [he]
      exact h.of_eq id rfl rfl rfl rfl id
    · rw [he]
      exact h.of_eq id rfl rfl rfl rfl id
  | stopLock i seen timeout =>
    obtain ⟨pc, state, deadline, he, hcase⟩ := stopLock_eq w i seen timeout
    rw [he]
    refine h.of_eq (fun hn => ?_) rfl rfl rfl rfl id
    change state = .new at hn
    rcases hcase with ⟨hnew, -, -⟩ | ⟨-, hst, -⟩ | ⟨hst, -⟩
    · exact hnew
    · exact hst.symm.trans hn
    · cases hst.symm.trans hn
  | threadOpen factoryError ht =>
    obtain ⟨u, thread, hu, he, -⟩ := threadOpen_eq w factoryError
    rw [he]
    have hplaced := h.acts hu
    obtain ⟨spool, shared, history, rfl⟩ := hu.world
    exact hplaced.of_thread id (by simp [ht]) (by simp [ht]) rfl rfl rfl
  | threadStartup ht =>
    refine h.of_thread (fun hn => ?_) (by simp [ht]) (by simp [ht]) rfl rfl rfl
    unfold threadStartup withShared at hn
    dsimp only at hn
    split at hn <;> cases hn
  | threadAnnounce ht =>
    have hidle : ¬ w.main.IsActive := fun ha => by
      cases ht.symm.trans (h.looping ha)
    have htasks : ¬ w.tasksRun := fun htr => hidle (tasksRun_active htr)
    refine ⟨fun hn => ?_, fun _ => rfl, fun hr => absurd (h.persisting hr) htasks,
      fun hr => absurd (h.delivering hr) htasks, nofun, nofun⟩
    cases ht.symm.trans (h.fresh hn)
  | threadFail e ht => exact h.of_thread nofun (by simp [ht]) (by simp [ht]) rfl rfl rfl
  | threadClose failed cleanup ht =>
    exact h.of_thread id (by simp [ht]) (by simp [ht]) rfl rfl rfl
  | threadExit failed cleanup ht =>
    refine h.of_thread (fun hn => ?_) (by simp [ht]) (by simp [ht]) rfl rfl rfl
    unfold threadExit withShared at hn
    dsimp only at hn
    split at hn
    · exact hn
    · split at hn <;> cases hn
  | threadDie ht => exact h.of_thread id (by simp [ht]) (by simp [ht]) rfl rfl rfl
  | mainPublish hm =>
    have htasks : ¬ w.tasksRun := by simp [tasksRun, hm]
    refine ⟨h.fresh, fun _ => h.looping (hm ▸ trivial), fun hr => absurd (h.persisting hr) htasks,
      fun hr => absurd (h.delivering hr) htasks, nofun, nofun⟩
  | mainTest hm =>
    exact ⟨h.fresh, fun _ => h.looping (hm ▸ trivial), fun _ => rfl, fun _ => rfl, nofun, nofun⟩
  | mainStop hm hstop =>
    exact ⟨nofun, fun _ => h.looping (hm ▸ trivial), fun _ => rfl, fun _ => rfl, fun _ => hstop,
      nofun⟩
  | mainTaskDone e hm => exact h.mainRaise (hm ▸ trivial) e
  | mainPersisted hm hp => exact h.flushes (Flushes.mainPersisted w) (hm ▸ trivial) hp
  | mainPersistRaised e hm => exact h.mainRaise (hm ▸ trivial) e
  | flushEnsured result hm =>
    exact h.flushes (Flushes.flushEnsured w result) (hm ▸ trivial) (h.flushing (hm ▸ trivial))
  | flushSent built result hm =>
    exact h.flushes (Flushes.flushSent w built result) (hm ▸ trivial) (h.flushing (hm ▸ trivial))
  | persistRun ht hp =>
    refine ⟨h.fresh, h.looping, fun _ => ht, h.delivering, h.stopping, fun hf => ?_⟩
    cases hp.symm.trans (h.flushing hf)
  | persistDrain hp =>
    rcases persistDrain_eq w with ⟨event, ingress, -, -, he⟩ | he
    · rw [he]
      exact h.of_eq id rfl rfl rfl rfl id
    · rw [he]
      refine ⟨h.fresh, h.looping, fun _ => h.persisting (hp ▸ trivial), h.delivering, h.stopping,
        fun hf => ?_⟩
      cases hp.symm.trans (h.flushing hf)
  | persistRound hp =>
    have hold : ∀ {u}, Persists w u → Placed u ∧ u.tasksRun ∧ ¬ u.main.IsFlushing := by
      intro u hu
      have hw : w.tasksRun := h.persisting (hp ▸ trivial)
      have hf : ¬ w.main.IsFlushing := fun hf => by cases hp.symm.trans (h.flushing hf)
      refine ⟨h.persists hu, ?_⟩
      cases hu with
      | kept hu =>
        obtain ⟨_, _, _, rfl⟩ := hu.world
        exact ⟨hw, hf⟩
      | taken t rows hu hu' =>
        obtain ⟨_, _, _, rfl⟩ := hu.world
        obtain ⟨_, _, _, rfl⟩ := hu'.world
        exact ⟨hw, hf⟩
    rcases persistRound_eq w with ⟨u, hu, he⟩ | ⟨u, e, hu, he⟩
    · obtain ⟨hplaced, htasks, hflush⟩ := hold hu
      rw [he]
      exact ⟨hplaced.fresh, hplaced.looping, fun _ => htasks, hplaced.delivering,
        hplaced.stopping, fun hf => absurd hf hflush⟩
    · obtain ⟨hplaced, htasks, hflush⟩ := hold hu
      rw [he]
      exact ⟨hplaced.fresh, hplaced.looping, nofun, hplaced.delivering, hplaced.stopping,
        fun hf => absurd hf hflush⟩
  | persistCheck hp =>
    have hf : ¬ w.main.IsFlushing := fun hf => by cases hp.symm.trans (h.flushing hf)
    rcases persistCheck_eq w with ⟨he, -⟩ | ⟨persist, wakePersist, he, hrun, -⟩
    · rw [he]
      exact ⟨h.fresh, h.looping, nofun, h.delivering, h.stopping, fun hf' => absurd hf' hf⟩
    · rw [he]
      exact ⟨h.fresh, h.looping, fun hr => absurd hr hrun, h.delivering, h.stopping,
        fun hf' => absurd hf' hf⟩
  | persistWake deadline hp =>
    refine ⟨h.fresh, h.looping, nofun, h.delivering, h.stopping, fun hf => ?_⟩
    have hret := h.flushing hf
    rw [hret] at hp
    rcases hp with hp | hp <;> cases hp
  | deliverRun ht => exact h.delivers (Delivers.deliverTop w) ht
  | deliverEnsured result hb hd =>
    exact h.delivers (Delivers.deliverEnsured w result) (h.delivering (hd ▸ trivial))
  | deliverSent built result hb hd =>
    exact h.delivers (Delivers.deliverSent w built result) (h.delivering (hd ▸ trivial))
  | deliverWake => exact ⟨h.fresh, h.looping, h.persisting, nofun, h.stopping, h.flushing⟩

end Placed

end World

end QuestDbWriter
