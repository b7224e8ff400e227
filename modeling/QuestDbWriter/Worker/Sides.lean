import QuestDbWriter.Worker.Places

/-!
# The two sides of the service

The callers and the scheduled callbacks move no party of the worker (`Outside`).
The coroutines of its loop leave the callers where they are, and move the thread at most to its
end (`Inside`).
-/

namespace QuestDbWriter

open Lib

/-- The actions of the callers, but for the lock blocks that start and stop the service, and those
of the callbacks. -/
def Action.IsOutside : Action → Prop
  | .submit _ | .submitSignal | .startReady | .startTimeout | .startTimedOut | .startSignal
  | .stopCall _ | .stopSet _ | .stopSignal _ | .stopReturn _ | .callback => True
  | _ => False

/-- The actions of the coroutines. -/
def Action.IsInside : Action → Prop
  | .mainPublish | .mainTest | .mainStop | .mainTaskDone | .mainPersistDone | .flushEnsured _
  | .flushSent _ | .persistRun | .persistDrain | .persistRound | .persistCheck | .persistWake
  | .deliverRun | .deliverEnsured _ | .deliverSent _ | .deliverWake => True
  | _ => False

/-- The actions of the environment and of the thread, and those that start or stop it. -/
def Action.IsOther : Action → Prop
  | .environment _ _ | .restart _ _ | .startCall | .stopLock _ | .threadOpen _ | .threadStartup
  | .threadAnnounce | .threadFail | .threadClose _ | .threadExit | .threadDie => True
  | _ => False

/-- Every action is on one side. -/
theorem Action.sides (a : Action) : a.IsOutside ∨ a.IsInside ∨ a.IsOther := by
  cases a <;> simp [Action.IsOutside, Action.IsInside, Action.IsOther]

/-- The death of the process. -/
def Action.isRestart : Action → Bool
  | .restart _ _ => true
  | _ => false

/-- A caller does not restart the process. -/
theorem Action.IsOutside.not_restart {a : Action} (h : a.IsOutside) : ¬ a.isRestart := by
  cases a <;> first | exact h.elim | exact nofun

/-- A coroutine does not restart the process. -/
theorem Action.IsInside.not_restart {a : Action} (h : a.IsInside) : ¬ a.isRestart := by
  cases a <;> first | exact h.elim | exact nofun

/-- The actions of the delivery loop. -/
def Action.IsDeliver : Action → Prop
  | .deliverRun | .deliverEnsured _ | .deliverSent _ | .deliverWake => True
  | _ => False

/-- A caller is not the delivery loop. -/
theorem Action.IsOutside.not_deliver {a : Action} (h : a.IsOutside) : ¬ a.IsDeliver := by
  cases a <;> first | exact h.elim | exact id

/-- An observation of a caller. -/
def Obs.IsAccepted : Obs → Prop
  | .accepted _ => True
  | _ => False

/-- The call of `stop()` is behind its lock block, and has not returned. -/
def StopPc.IsBehind : StopPc → Prop
  | .setting | .signalling | .joining => True
  | _ => False

namespace World

/-! ## Outside -/

/-- No party of the worker has moved, and the rows, the held events and what a delivery reports are
what they were. -/
structure Outside (w w' : World) : Prop where
  world : ∃ accepting lastError ingressHighWatermark submittedEvents overflowedEvents
      oversizedEvents ingress stopRequested stopAsync wakePersist callbacks submitSignals start
      stops history,
    w' = { w with
      ingress, stopRequested, stopAsync, wakePersist, callbacks, submitSignals, start, stops,
      history,
      shared := { w.shared with
        accepting, lastError, ingressHighWatermark,
        counters :=
          { w.shared.counters with submittedEvents, overflowedEvents, oversizedEvents } } }
  accepting : w'.shared.accepting = true → w.shared.accepting = true
  /-- A call of `stop()` is where it was, begins, or moves on from behind its lock block; it returns
  `True` only where no thread is alive. -/
  stops : ∀ pc ∈ w'.stops, pc ∈ w.stops ∨ (∃ seen timeout, pc = .locking seen timeout) ∨
    (∃ q ∈ w.stops, q.IsBehind) ∧ (pc = .returned true → w.threadAlive = false)
  stopAsync : w.stopAsync = true → w'.stopAsync = true
  history : ∃ obs, w'.history = w.history ++ obs ∧ ∀ o ∈ obs, o.IsAccepted

section
variable {w w' : World}

namespace Outside

/-- The thread stays where it is. -/
theorem thread (h : Outside w w') : w'.thread = w.thread := by
  obtain ⟨_, _, _, _, _, _, _, _, _, _, _, _, _, _, _, rfl⟩ := h.world
  rfl

/-- The state stays. -/
theorem state (h : Outside w w') : w'.shared.state = w.shared.state := by
  obtain ⟨_, _, _, _, _, _, _, _, _, _, _, _, _, _, _, rfl⟩ := h.world
  rfl

/-- The block reason stays. -/
theorem blockReason (h : Outside w w') : w'.shared.blockReason = w.shared.blockReason := by
  obtain ⟨_, _, _, _, _, _, _, _, _, _, _, _, _, _, _, rfl⟩ := h.world
  rfl

/-- The account of the pauses stays. -/
theorem storage (h : Outside w w') : w'.shared.storage = w.shared.storage := by
  obtain ⟨_, _, _, _, _, _, _, _, _, _, _, _, _, _, _, rfl⟩ := h.world
  rfl

/-- The main coroutine stays where it is. -/
theorem main (h : Outside w w') : w'.main = w.main := by
  obtain ⟨_, _, _, _, _, _, _, _, _, _, _, _, _, _, _, rfl⟩ := h.world
  rfl

/-- The delivery loop stays where it is. -/
theorem deliver (h : Outside w w') : w'.deliver = w.deliver := by
  obtain ⟨_, _, _, _, _, _, _, _, _, _, _, _, _, _, _, rfl⟩ := h.world
  rfl

end Outside

/-- A signal from outside is scheduled, and no more. -/
theorem outside_signalLoop {v : World} (h : Outside w v) (c : Callback) :
    Outside w (v.signalLoop c) := by
  obtain ⟨callbacks, he, -⟩ := signalLoop_eq v c
  rw [he]
  obtain ⟨⟨_, _, _, _, _, _, _, _, _, _, _, _, _, _, _, rfl⟩, h1, h2, h3, h4⟩ := h
  exact ⟨⟨_, _, _, _, _, _, _, _, _, _, _, _, _, _, _, rfl⟩, h1, h2, h3, h4⟩

/-- `submit()` moves no party of the worker. -/
theorem outside_submit (w : World) (event : EventEnvelope) : Outside w (w.submit event) := by
  have hnil : ∃ obs, w.history = w.history ++ obs ∧ ∀ o ∈ obs, o.IsAccepted :=
    ⟨[], (List.append_nil _).symm, nofun⟩
  unfold submit
  split
  · exact ⟨⟨_, _, _, _, _, _, _, _, _, _, _, _, _, _, _, rfl⟩, id, fun _ => .inl, id, hnil⟩
  · next e he =>
    split
    · exact ⟨⟨_, _, _, _, _, _, _, _, _, _, _, _, _, _, _, rfl⟩, id, fun _ => .inl, id, hnil⟩
    · unfold submitAccept
      split
      · split
        · exact ⟨⟨_, _, _, _, _, _, _, _, _, _, _, _, _, _, _, rfl⟩, id, fun _ => .inl, id,
            [.accepted e], rfl, by simp [Obs.IsAccepted]⟩
        · exact ⟨⟨_, _, _, _, _, _, _, _, _, _, _, _, _, _, _, rfl⟩, id, fun _ => .inl, id, hnil⟩
      · exact ⟨⟨_, _, _, _, _, _, _, _, _, _, _, _, _, _, _, rfl⟩, id, fun _ => .inl, id, hnil⟩

/-- A call of `stop()` that moves on from behind its lock block. -/
theorem stops_set {i : Nat} {q : StopPc} (hq : w.stops[i]? = some q) (hb : q.IsBehind) (pc : StopPc)
    (hpc : pc = .returned true → w.threadAlive = false) : ∀ p ∈ w.stops.set i pc,
      p ∈ w.stops ∨ (∃ seen timeout, p = .locking seen timeout) ∨
        (∃ q ∈ w.stops, q.IsBehind) ∧ (p = .returned true → w.threadAlive = false) := by
  intro p hm
  rcases List.mem_or_eq_of_mem_set hm with hm | rfl
  · exact .inl hm
  · exact .inr (.inr ⟨⟨q, List.mem_of_getElem? hq, hb⟩, hpc⟩)

end

/-! ## Inside -/

/-- The callers are where they were, and the thread is where it was or at its end; under the lock, a
delivery may have reported its state, or the worker stops. -/
structure Inside (w w' : World) : Prop where
  config : w'.config = w.config
  env : w'.env = w.env
  callers : w'.start = w.start ∧ w'.stops = w.stops ∧ w'.stopRequested = w.stopRequested ∧
    w'.submitSignals = w.submitSignals ∧ w'.callbacks = w.callbacks
  thread : w'.thread = w.thread ∨
    w.thread = .looping ∧ ((∃ e, w'.thread = .raising e) ∨ w'.thread = .closing false)
  accepting : w'.shared.accepting = true → w.shared.accepting = true
  state : w'.shared.state = w.shared.state ∨
    w.thread = .looping ∧ (w'.shared.state = .stopping ∨
      w.shared.state ≠ .stopping ∧ w.shared.state ≠ .failed ∧ w'.shared.state.IsDelivery)
  stopAsync : w.stopAsync = true → w'.stopAsync = true

namespace Inside

variable {u v w w' : World} {a : Action}

/-- A step that moves coroutines only. -/
theorem of_eq (hc : w'.config = w.config) (he : w'.env = w.env) (hs : w'.start = w.start)
    (ht : w'.stops = w.stops) (hr : w'.stopRequested = w.stopRequested)
    (hn : w'.submitSignals = w.submitSignals) (hb : w'.callbacks = w.callbacks)
    (hth : w'.thread = w.thread) (hsh : w'.shared = w.shared) (ha : w.stopAsync → w'.stopAsync) :
    Inside w w' :=
  ⟨hc, he, ⟨hs, ht, hr, hn, hb⟩, .inl hth, fun h => hsh ▸ h, .inl (congrArg Shared.state hsh), ha⟩

/-- What a delivery keeps, seen from inside. -/
theorem state_of_kept {s s' : Shared} (hk : s.Kept s') (hl : w.thread = .looping) :
    s'.state = s.state ∨ w.thread = .looping ∧ (s'.state = .stopping ∨
      s.state ≠ .stopping ∧ s.state ≠ .failed ∧ s'.state.IsDelivery) :=
  hk.state.imp_right fun h => ⟨hl, .inr h⟩

/-- A method of the delivery is inside. -/
theorem of_acts (h : Acts w w') (hl : w.thread = .looping) : Inside w w' := by
  have hk := h.shared
  obtain ⟨_, _, _, rfl⟩ := h.world
  exact ⟨rfl, rfl, ⟨rfl, rfl, rfl, rfl, rfl⟩, .inl rfl, fun ha => hk.accepting ▸ ha,
    state_of_kept hk hl, id⟩

/-- A turn of the delivery loop is inside. -/
theorem of_delivers (h : Delivers w w') (hl : w.thread = .looping) : Inside w w' := by
  have hk := h.shared
  obtain ⟨_, _, _, _, _, _, rfl⟩ := h.world
  exact ⟨rfl, rfl, ⟨rfl, rfl, rfl, rfl, rfl⟩, .inl rfl, fun ha => hk.accepting ▸ ha,
    state_of_kept hk hl, id⟩

/-- What an attempt to persist keeps under the lock. -/
theorem kept_persists (h : Persists w w') :
    w'.shared.accepting = w.shared.accepting ∧ (w'.shared.state = w.shared.state ∨
      w.shared.state ≠ .stopping ∧ w.shared.state ≠ .failed ∧ w'.shared.state.IsDelivery) := by
  cases h with
  | kept h => exact ⟨h.shared.accepting, h.shared.state⟩
  | taken u rows h h' =>
    have hu : (u.heldTaken rows).shared.state = u.shared.state := rfl
    refine ⟨h'.shared.accepting.trans h.shared.accepting, ?_⟩
    rcases h'.shared.state with he | ⟨h1, h2, h3⟩
    · rw [he, hu]
      exact h.shared.state
    · rw [hu] at h1 h2
      rcases h.shared.state with he' | ⟨h4, h5, -⟩
      · exact .inr ⟨he' ▸ h1, he' ▸ h2, h3⟩
      · exact .inr ⟨h4, h5, h3⟩

/-- An attempt to persist is inside. -/
theorem of_persists (h : Persists w w') (hl : w.thread = .looping) : Inside w w' := by
  obtain ⟨hacc, hstate⟩ := kept_persists h
  obtain ⟨⟨_, _, _, _, rfl⟩, -⟩ := h.frame
  exact ⟨rfl, rfl, ⟨rfl, rfl, rfl, rfl, rfl⟩, .inl rfl, fun ha => hacc ▸ ha,
    hstate.imp_right fun h => ⟨hl, .inr h⟩, id⟩

/-- The end of the main coroutine, behind methods that act. -/
theorem mainRaise (h : Inside w v) (hl : w.thread = .looping) (e : Exc) :
    Inside w (v.mainRaise e) := by
  obtain ⟨persist, deliver, he, -⟩ := mainRaise_eq v e
  rw [he]
  exact { h with thread := .inr ⟨hl, .inl ⟨e, rfl⟩⟩ }

/-- The end of the main coroutine is inside. -/
theorem mainFinish (h : Inside w v) (hl : w.thread = .looping) : Inside w v.mainFinish := by
  rcases mainFinish_eq v with ⟨e, he⟩ | ⟨deliver, he, -⟩
  · rw [he]
    exact h.mainRaise hl e
  · rw [he]
    exact { h with thread := .inr ⟨hl, .inr rfl⟩ }

/-- A step of the flush is inside. -/
theorem of_flushes (h : Flushes w w') (hl : w.thread = .looping) : Inside w w' := by
  cases h with
  | raised u e hu => exact (of_acts hu hl).mainRaise hl e
  | finished u hu => exact (of_acts hu hl).mainFinish hl
  | ensuring u hu => exact { of_acts hu hl with }
  | sending u built backoff hu => exact { of_acts hu hl with }

end Inside

end World

open World

section
variable {w w' : World} {a : Action}

/-- **An outer action moves no party of the worker.** -/
theorem Taken.outside (h : Taken w a w') (ha : a.IsOutside) : Outside w w' := by
  have hnil : ∀ {l : List Obs}, ∃ obs, l = l ++ obs ∧ ∀ o ∈ obs, o.IsAccepted :=
    ⟨[], (List.append_nil _).symm, nofun⟩
  cases h with
  | startTimedOut | wakePersist =>
    exact ⟨⟨_, _, _, _, _, _, _, _, _, _, _, _, _, _, _, rfl⟩, id, fun _ => .inl, id, hnil⟩
  | stopAsync =>
    exact ⟨⟨_, _, _, _, _, _, _, _, _, _, _, _, _, _, _, rfl⟩, id, fun _ => .inl,
      fun _ => rfl, hnil⟩
  | startTimeout =>
    exact ⟨⟨_, _, _, _, _, _, _, _, _, _, _, _, _, _, _, rfl⟩, nofun, fun _ => .inl, id, hnil⟩
  | submit event => exact outside_submit w event
  | submitSignal =>
    refine outside_signalLoop ?_ _
    exact ⟨⟨_, _, _, _, _, _, _, _, _, _, _, _, _, _, _, rfl⟩, id, fun _ => .inl, id, hnil⟩
  | startReady =>
    rcases startReady_eq w with he | he
    · rw [he]
      exact ⟨⟨_, _, _, _, _, _, _, _, _, _, _, _, _, _, _, rfl⟩, id, fun _ => .inl, id, hnil⟩
    · rw [he]
      exact ⟨⟨_, _, _, _, _, _, _, _, _, _, _, _, _, _, _, rfl⟩, id, fun _ => .inl, id, hnil⟩
  | startSignal =>
    refine outside_signalLoop ?_ _
    exact ⟨⟨_, _, _, _, _, _, _, _, _, _, _, _, _, _, _, rfl⟩, id, fun _ => .inl, id, hnil⟩
  | stopCall timeout =>
    refine ⟨⟨_, _, _, _, _, _, _, _, _, _, _, _, _, _, _, rfl⟩, id, fun pc hm => ?_, id, hnil⟩
    rcases List.mem_append.mp hm with hm | hm
    · exact .inl hm
    · exact .inr (.inl ⟨_, _, List.mem_singleton.mp hm⟩)
  | stopSet i hi =>
    exact ⟨⟨_, _, _, _, _, _, _, _, _, _, _, _, _, _, _, rfl⟩, id,
      stops_set hi trivial _ nofun, id, hnil⟩
  | stopSignal i hi =>
    refine outside_signalLoop ?_ _
    exact ⟨⟨_, _, _, _, _, _, _, _, _, _, _, _, _, _, _, rfl⟩, id,
      stops_set hi trivial _ nofun, id, hnil⟩
  | stopReturn i hi =>
    exact ⟨⟨_, _, _, _, _, _, _, _, _, _, _, _, _, _, _, rfl⟩, id,
      stops_set hi trivial _ fun he => by simpa using he, id, hnil⟩
  | _ => exact ha.elim

/-- **An inner action leaves the callers where they are**, and moves the thread at most to its
end. -/
theorem Taken.inside (hp : Placed w) (h : Taken w a w') (ha : a.IsInside) : Inside w w' := by
  cases h with
  | mainPublish | persistRun | persistWake | deliverWake =>
    exact .of_eq rfl rfl rfl rfl rfl rfl rfl rfl rfl id
  | mainTest =>
    exact .of_eq rfl rfl rfl rfl rfl rfl rfl rfl rfl fun hs => Bool.or_eq_true_iff.mpr (.inl hs)
  | mainStop hm =>
    exact ⟨rfl, rfl, ⟨rfl, rfl, rfl, rfl, rfl⟩, .inl rfl, nofun,
      .inr ⟨hp.looping (hm ▸ trivial), .inl rfl⟩, id⟩
  | mainTaskDone e hm =>
    have hl := hp.looping (hm ▸ trivial)
    exact .mainRaise (.of_acts (.refl w) hl) hl e
  | mainPersistRaised e hm =>
    have hl := hp.looping (hm ▸ trivial)
    exact .mainRaise (.of_acts (.refl w) hl) hl e
  | mainPersisted hm => exact .of_flushes (.mainPersisted w) (hp.looping (hm ▸ trivial))
  | flushEnsured result hm => exact .of_flushes (.flushEnsured w result) (hp.looping (hm ▸ trivial))
  | flushSent built result hm =>
    exact .of_flushes (.flushSent w built result) (hp.looping (hm ▸ trivial))
  | persistDrain hd =>
    rcases persistDrain_eq w with ⟨event, ingress, -, -, he⟩ | he
    · rw [he]
      exact .of_eq rfl rfl rfl rfl rfl rfl rfl rfl rfl id
    · rw [he]
      exact ⟨rfl, rfl, ⟨rfl, rfl, rfl, rfl, rfl⟩, .inl rfl, id, .inl rfl, id⟩
  | persistRound hr =>
    have hl : w.thread = .looping := hp.looping (tasksRun_active (hp.persisting (hr ▸ trivial)))
    rcases persistRound_eq w with ⟨u, hu, he⟩ | ⟨u, e, hu, he⟩
    · rw [he]
      exact { Inside.of_persists hu hl with }
    · rw [he]
      exact { Inside.of_persists hu hl with }
  | persistCheck =>
    rcases persistCheck_eq w with ⟨he, -⟩ | ⟨persist, wakePersist, he, -⟩
    · rw [he]
      exact .of_eq rfl rfl rfl rfl rfl rfl rfl rfl rfl id
    · rw [he]
      exact .of_eq rfl rfl rfl rfl rfl rfl rfl rfl rfl id
  | deliverRun ht => exact .of_delivers (.deliverTop w) (hp.looping (tasksRun_active ht))
  | deliverEnsured result hb hd =>
    exact .of_delivers (.deliverEnsured w result)
      (hp.looping (tasksRun_active (hp.delivering (hd ▸ trivial))))
  | deliverSent built result hb hd =>
    exact .of_delivers (.deliverSent w built result)
      (hp.looping (tasksRun_active (hp.delivering (hd ▸ trivial))))
  | _ => exact ha.elim

/-! ## The environment and the delivery loop -/

/-- Only the environment changes what it answers, and a stop that has reached the loop stays. -/
theorem Taken.ambient (hp : Placed w) (h : Taken w a w') (hr : ¬ a.isRestart) :
    (w'.env = w.env ∨ ∃ faults, a = .environment w'.env faults) ∧
      (w.stopAsync = true → w'.stopAsync = true) := by
  rcases a.sides with ha | ha | ha
  · have ho := h.outside ha
    refine ⟨?_, ho.stopAsync⟩
    obtain ⟨_, _, _, _, _, _, _, _, _, _, _, _, _, _, _, rfl⟩ := ho.world
    exact .inl rfl
  · have hi := h.inside hp ha
    exact ⟨.inl hi.env, hi.stopAsync⟩
  cases h with
  | restart => exact absurd rfl hr
  | environment env faults => exact ⟨.inr ⟨faults, rfl⟩, id⟩
  | startCall =>
    unfold World.startCall
    split <;> exact ⟨.inl rfl, id⟩
  | stopLock i seen timeout =>
    obtain ⟨_, _, _, he, -⟩ := stopLock_eq w i seen timeout
    rw [he]
    exact ⟨.inl rfl, id⟩
  | threadOpen factoryError =>
    obtain ⟨u, thread, hacts, he, -⟩ := threadOpen_eq w factoryError
    obtain ⟨_, _, _, rfl⟩ := hacts.world
    rw [he]
    exact ⟨.inl rfl, id⟩
  | threadStartup | threadAnnounce | threadFail | threadClose | threadExit | threadDie =>
    exact ⟨.inl rfl, id⟩
  | _ => exact ha.elim

/-- The delivery loop stands where it stood, or has been ended with the main coroutine; only a turn
of the persist loop wakes it. -/
structure Undelivered (w : World) (a : Action) (w' : World) : Prop where
  locals : w'.locals = w.locals
  deliver : w'.deliver = w.deliver ∨
    w'.deliver.IsOver ∧ ((∃ e, w'.thread = .raising e) ∨ w'.thread = .closing false)
  wake : w'.wakeDeliver = w.wakeDeliver ∨ a = .persistRound

namespace Undelivered

/-- A method leaves the delivery loop where it is. -/
theorem of_acts {u : World} (h : Acts w u) : Undelivered w a u := by
  obtain ⟨_, _, _, rfl⟩ := h.world
  exact ⟨rfl, .inl rfl, .inl rfl⟩

/-- An exception of the main coroutine ends the delivery loop. -/
theorem mainRaise {u : World} (h : Undelivered w a u) (e : Exc) :
    Undelivered w a (u.mainRaise e) := by
  obtain ⟨persist, deliver, he, -, -, hover⟩ := mainRaise_eq u e
  rw [he]
  exact ⟨h.locals, .inr ⟨hover, .inl ⟨e, rfl⟩⟩, h.wake⟩

/-- A step of the flush leaves the delivery loop where it is, or ends it. -/
theorem of_flushes (h : Flushes w w') : Undelivered w a w' := by
  cases h with
  | raised u e hu => exact (of_acts hu).mainRaise e
  | finished u hu =>
    rcases mainFinish_eq u with ⟨e, he⟩ | ⟨deliver, he, hover⟩
    · rw [he]
      exact (of_acts hu).mainRaise e
    · rw [he]
      have h := of_acts hu (a := a)
      exact ⟨h.locals, .inr ⟨hover, .inr rfl⟩, h.wake⟩
  | ensuring u hu =>
    have h := of_acts hu (a := a)
    exact { h with }
  | sending u built backoff hu =>
    have h := of_acts hu (a := a)
    exact { h with }

end Undelivered

/-- **Every other action leaves the delivery loop where it stands**, or ends it. -/
theorem Taken.undelivered (h : Taken w a w') (ha : ¬ a.IsDeliver) (hr : ¬ a.isRestart) :
    Undelivered w a w' := by
  have hcases := h
  cases h with
  | restart => exact absurd rfl hr
  | submit | submitSignal | startReady | startTimeout | startTimedOut | startSignal | stopCall
  | stopSet | stopSignal | stopReturn | wakePersist | stopAsync =>
    obtain ⟨_, _, _, _, _, _, _, _, _, _, _, _, _, _, _, he⟩ := (hcases.outside trivial).world
    rw [he]
    exact ⟨rfl, .inl rfl, .inl rfl⟩
  | environment | threadStartup | threadAnnounce | threadFail | threadClose | threadExit | threadDie
  | mainPublish | mainTest | mainStop | persistRun | persistWake =>
    exact ⟨rfl, .inl rfl, .inl rfl⟩
  | startCall =>
    unfold World.startCall
    split <;> exact ⟨rfl, .inl rfl, .inl rfl⟩
  | stopLock i seen timeout =>
    obtain ⟨_, _, _, he, -⟩ := stopLock_eq w i seen timeout
    rw [he]
    exact ⟨rfl, .inl rfl, .inl rfl⟩
  | threadOpen factoryError =>
    obtain ⟨u, thread, hacts, he, -⟩ := threadOpen_eq w factoryError
    rw [he]
    obtain ⟨_, _, _, rfl⟩ := hacts.world
    exact ⟨rfl, .inl rfl, .inl rfl⟩
  | mainTaskDone e => exact (Undelivered.of_acts (.refl w)).mainRaise e
  | mainPersistRaised e => exact (Undelivered.of_acts (.refl w)).mainRaise e
  | mainPersisted => exact .of_flushes (.mainPersisted w)
  | flushEnsured result => exact .of_flushes (.flushEnsured w result)
  | flushSent built result => exact .of_flushes (.flushSent w built result)
  | persistDrain =>
    rcases persistDrain_eq w with ⟨_, _, -, -, he⟩ | he
    · rw [he]
      exact ⟨rfl, .inl rfl, .inl rfl⟩
    · rw [he]
      exact ⟨rfl, .inl rfl, .inl rfl⟩
  | persistRound =>
    rcases persistRound_eq w with ⟨u, hu, he⟩ | ⟨u, e, hu, he⟩
    · obtain ⟨⟨_, _, _, _, rfl⟩, -⟩ := hu.frame
      rw [he]
      exact ⟨rfl, .inl rfl, .inr rfl⟩
    · obtain ⟨⟨_, _, _, _, rfl⟩, -⟩ := hu.frame
      rw [he]
      exact ⟨rfl, .inl rfl, .inr rfl⟩
  | persistCheck =>
    rcases persistCheck_eq w with ⟨he, -⟩ | ⟨_, _, he, -⟩
    · rw [he]
      exact ⟨rfl, .inl rfl, .inl rfl⟩
    · rw [he]
      exact ⟨rfl, .inl rfl, .inl rfl⟩
  | deliverRun | deliverEnsured | deliverSent | deliverWake => exact absurd trivial ha

end

end QuestDbWriter
