import QuestDbWriter.Worker.Places

/-!
# The way of an event to the spool

An event comes into the ingress queue by `submit()`, goes on to the buffer of the persist loop, and
from there to the spool. `Taken.queues` says which of these a step does; every other step leaves
the queue, the buffer and their counters alone.
-/

namespace QuestDbWriter

open Lib World

/-- The queue, the buffer and what they are counted by are what they were; what was seen is of the
delivery. -/
structure Aside (w w' : World) : Prop where
  config : w'.config = w.config
  submitted : w'.shared.counters.submittedEvents = w.shared.counters.submittedEvents
  persisted : w'.shared.counters.persistedEvents = w.shared.counters.persistedEvents
  ingress : w'.ingress = w.ingress
  held : w'.held = w.held
  history : ∃ obs, w'.history = w.history ++ obs ∧ ∀ o ∈ obs, o.IsDelivery

/-- What a step does to the events on their way. -/
inductive Queues (w : World) (a : Action) (w' : World) : Prop where
  | aside (h : Aside w w')
  | restart (config : Config) (env : Env) (ha : a = .restart config env)
      (h : w' = .boot config env w.spool.db w.history)
  | accepted (event : EventEnvelope) (e : NewSpoolEvent) (shared : Shared)
      (ha : a = .submit event) (he : event.toSpoolEvent = .ok e)
      (hroom : w.ingress.length < w.config.settings.ingressQueueCapacity)
      (hsize : e.payload.length ≤ w.config.settings.maxSerializedEventBytes)
      (hsub : shared.counters.submittedEvents = w.shared.counters.submittedEvents + 1)
      (hper : shared.counters.persistedEvents = w.shared.counters.persistedEvents)
      (h : w' = { w with
        shared, ingress := w.ingress ++ [e], submitSignals := w.submitSignals + 1,
        history := w.history ++ [.accepted e] })
  | drained (event : NewSpoolEvent) (ingress : List NewSpoolEvent)
      (hi : w.ingress = event :: ingress)
      (hroom : w.held.length < w.config.settings.persistBatchRows)
      (h : w' = { w with held := w.held ++ [event], ingress })
  | round (u : World) (ha : a = .persistRound) (hu : Persists w u) (h : Aside u w')

namespace Aside

variable {u v w : World}

/-- What leaves the queues, their counters and the history does nothing beside them. -/
theorem of_eq (hc : w.config = v.config)
    (hs : w.shared.counters.submittedEvents = v.shared.counters.submittedEvents)
    (hp : w.shared.counters.persistedEvents = v.shared.counters.persistedEvents)
    (hi : w.ingress = v.ingress) (hh : w.held = v.held) (ho : w.history = v.history) : Aside v w :=
  ⟨hc, hs, hp, hi, hh, [], ho.trans (List.append_nil _).symm, nofun⟩

/-- Two steps in a row. -/
theorem trans (h : Aside u v) (h' : Aside v w) : Aside u w where
  config := h'.config.trans h.config
  submitted := h'.submitted.trans h.submitted
  persisted := h'.persisted.trans h.persisted
  ingress := h'.ingress.trans h.ingress
  held := h'.held.trans h.held
  history := by
    obtain ⟨obs, ho, hd⟩ := h.history
    obtain ⟨obs', ho', hd'⟩ := h'.history
    refine ⟨obs ++ obs', by rw [ho', ho, List.append_assoc], fun o hm => ?_⟩
    exact (List.mem_append.mp hm).elim (hd o) (hd' o)

/-- A method of the delivery. -/
theorem of_acts (h : Acts u v) : Aside u v := by
  have hs := h.shared.submitted
  have hp := h.shared.persisted
  have ho := h.history
  obtain ⟨_, _, _, rfl⟩ := h.world
  exact ⟨rfl, hs, hp, rfl, rfl, ho⟩

/-- A turn of the delivery loop. -/
theorem of_delivers (h : Delivers u v) : Aside u v := by
  have hs := h.shared.submitted
  have hp := h.shared.persisted
  have ho := h.history
  obtain ⟨_, _, _, _, _, _, rfl⟩ := h.world
  exact ⟨rfl, hs, hp, rfl, rfl, ho⟩

/-- The end of the loop with an exception. -/
theorem mainRaise (w : World) (e : Exc) : Aside w (w.mainRaise e) := by
  obtain ⟨_, _, he, -⟩ := mainRaise_eq w e
  rw [he]
  exact .of_eq rfl rfl rfl rfl rfl rfl

/-- A step of the shutdown flush. -/
theorem of_flushes (h : Flushes u v) : Aside u v := by
  cases h with
  | raised t e ht => exact (of_acts ht).trans (.mainRaise t e)
  | finished t ht =>
    refine (of_acts ht).trans ?_
    rcases mainFinish_eq t with ⟨e, he⟩ | ⟨deliver, he, -⟩
    · rw [he]
      exact .mainRaise t e
    · rw [he]
      exact .of_eq rfl rfl rfl rfl rfl rfl
  | ensuring t ht => exact (of_acts ht).trans (.of_eq rfl rfl rfl rfl rfl rfl)
  | sending t built backoff ht => exact (of_acts ht).trans (.of_eq rfl rfl rfl rfl rfl rfl)

end Aside

/-- **What a step does to the events on their way.** -/
theorem Taken.queues {w w' : World} {a : Action} (h : Taken w a w') : Queues w a w' := by
  cases h with
  | environment | startTimeout | startTimedOut | stopCall | stopSet | stopReturn | threadAnnounce
  | threadFail | threadClose | threadDie | wakePersist | stopAsync
  | mainPublish | mainTest | mainStop | persistRun | persistWake | deliverWake =>
    exact .aside (.of_eq rfl rfl rfl rfl rfl rfl)
  | restart config env => exact .restart config env rfl rfl
  | submit event =>
    obtain ⟨shared, ⟨he, hsub⟩ | ⟨e, hev, -, hroom, hsize, he, hsub⟩, -, -, hper⟩ :=
      submit_eq w event
    · exact .aside (he ▸ .of_eq rfl hsub hper rfl rfl rfl)
    · exact .accepted event e shared rfl hev hroom hsize hsub hper he
  | submitSignal =>
    obtain ⟨callbacks, he, -⟩ :=
      signalLoop_eq { w with submitSignals := w.submitSignals - 1 } .wakePersist
    exact .aside (he ▸ .of_eq rfl rfl rfl rfl rfl rfl)
  | startSignal =>
    obtain ⟨callbacks, he, -⟩ := signalLoop_eq { w with start := .raised } .stopAsync
    exact .aside (he ▸ .of_eq rfl rfl rfl rfl rfl rfl)
  | stopSignal i =>
    obtain ⟨callbacks, he, -⟩ := signalLoop_eq { w with stops := w.stops.set i .joining } .stopAsync
    exact .aside (he ▸ .of_eq rfl rfl rfl rfl rfl rfl)
  | startCall =>
    refine .aside ?_
    unfold World.startCall
    split <;> exact .of_eq rfl rfl rfl rfl rfl rfl
  | startReady =>
    rcases startReady_eq w with he | he <;> exact .aside (he ▸ .of_eq rfl rfl rfl rfl rfl rfl)
  | stopLock i seen timeout =>
    obtain ⟨pc, state, deadline, he, -⟩ := stopLock_eq w i seen timeout
    exact .aside (he ▸ .of_eq rfl rfl rfl rfl rfl rfl)
  | threadOpen factoryError =>
    obtain ⟨u, thread, hu, he, -⟩ := threadOpen_eq w factoryError
    exact .aside (he ▸ (Aside.of_acts hu).trans (.of_eq rfl rfl rfl rfl rfl rfl))
  | threadStartup =>
    refine .aside ?_
    unfold World.threadStartup withShared
    dsimp only
    split <;> exact .of_eq rfl rfl rfl rfl rfl rfl
  | threadExit failed cleanup =>
    refine .aside ?_
    unfold World.threadExit withShared
    dsimp only
    split
    · exact .of_eq rfl rfl rfl rfl rfl rfl
    · split <;> exact .of_eq rfl rfl rfl rfl rfl rfl
  | mainTaskDone e => exact .aside (.mainRaise w e)
  | mainPersisted => exact .aside (.of_flushes (.mainPersisted w))
  | mainPersistRaised e => exact .aside (.mainRaise w e)
  | flushEnsured result => exact .aside (.of_flushes (.flushEnsured w result))
  | flushSent built result => exact .aside (.of_flushes (.flushSent w built result))
  | persistDrain =>
    rcases persistDrain_eq w with ⟨event, ingress, hi, hroom, he⟩ | he
    · exact .drained event ingress hi hroom he
    · exact .aside (he ▸ .of_eq rfl rfl rfl rfl rfl rfl)
  | persistRound =>
    rcases persistRound_eq w with ⟨u, hu, he⟩ | ⟨u, e, hu, he⟩
    · exact .round u rfl hu (he ▸ .of_eq rfl rfl rfl rfl rfl rfl)
    · exact .round u rfl hu (he ▸ .of_eq rfl rfl rfl rfl rfl rfl)
  | persistCheck =>
    rcases persistCheck_eq w with ⟨he, -⟩ | ⟨persist, wakePersist, he, -⟩
    · exact .aside (he ▸ .of_eq rfl rfl rfl rfl rfl rfl)
    · exact .aside (he ▸ .of_eq rfl rfl rfl rfl rfl rfl)
  | deliverRun => exact .aside (.of_delivers (.deliverTop w))
  | deliverEnsured result => exact .aside (.of_delivers (.deliverEnsured w result))
  | deliverSent built result => exact .aside (.of_delivers (.deliverSent w built result))

end QuestDbWriter
