import QuestDbWriter.Worker.Sides
import QuestDbWriter.Lib.Transition

/-!
# A start that times out

`start()` gives up in two steps: it refuses events under the lock, and then it requests a stop.
Where the thread takes its startup lock block between them, it finds no request and accepts events
again (`timed_out_start_accepts`); in every other run no event is accepted behind the exception
(`timed_out_start_refuses`).
-/

namespace QuestDbWriter

open Lib World

section
variable {w w' : World} {a : Action}

/-- A request to stop stays. -/
theorem Taken.stopRequested (hp : Placed w) (h : Taken w a w') (hr : ¬ a.isRestart)
    (hreq : w.stopRequested = true) : w'.stopRequested = true := by
  rcases a.sides with ha | ha | ha
  · cases h with
    | submit event =>
      obtain ⟨shared, ⟨he, -⟩ | ⟨e, -, -, -, -, he, -⟩, -⟩ := submit_eq w event
      · exact he ▸ hreq
      · exact he ▸ hreq
    | submitSignal =>
      obtain ⟨callbacks, he, -⟩ :=
        signalLoop_eq { w with submitSignals := w.submitSignals - 1 } .wakePersist
      exact he ▸ hreq
    | startSignal =>
      obtain ⟨callbacks, he, -⟩ := signalLoop_eq { w with start := .raised } .stopAsync
      exact he ▸ hreq
    | stopSignal i =>
      obtain ⟨callbacks, he, -⟩ :=
        signalLoop_eq { w with stops := w.stops.set i .joining } .stopAsync
      exact he ▸ hreq
    | startReady =>
      rcases startReady_eq w with he | he
      · exact he ▸ hreq
      · exact he ▸ hreq
    | startTimedOut | stopSet => rfl
    | startTimeout | stopCall | stopReturn | wakePersist | stopAsync => exact hreq
    | _ => exact ha.elim
  · exact (h.inside hp ha).callers.2.2.1.trans hreq
  cases h with
  | restart => exact absurd rfl hr
  | startCall =>
    unfold World.startCall
    split <;> exact hreq
  | stopLock i seen timeout =>
    obtain ⟨_, _, _, he, -⟩ := stopLock_eq w i seen timeout
    exact he ▸ hreq
  | threadOpen factoryError =>
    obtain ⟨u, thread, hacts, he, -⟩ := threadOpen_eq w factoryError
    obtain ⟨_, _, _, rfl⟩ := hacts.world
    exact he ▸ hreq
  | environment | threadStartup | threadAnnounce | threadFail | threadClose | threadExit
  | threadDie => exact hreq
  | _ => exact ha.elim

/-- Events are accepted again only by the startup of the thread, where no stop is requested. -/
theorem Taken.accepting (hp : Placed w) (h : Taken w a w') (hacc : w'.shared.accepting = true) :
    w.shared.accepting = true ∨ a = .threadStartup ∧ w.stopRequested ≠ true := by
  rcases a.sides with ha | ha | ha
  · exact .inl ((h.outside ha).accepting hacc)
  · exact .inl ((h.inside hp ha).accepting hacc)
  cases h with
  | restart => cases hacc
  | environment | threadAnnounce | threadClose | threadDie => exact .inl hacc
  | startCall =>
    unfold World.startCall at hacc
    split at hacc <;> exact .inl hacc
  | stopLock i seen timeout =>
    obtain ⟨_, _, _, he, -⟩ := stopLock_eq w i seen timeout
    rw [he] at hacc
    cases hacc
  | threadOpen factoryError =>
    obtain ⟨u, thread, hacts, he, -⟩ := threadOpen_eq w factoryError
    have hk := hacts.shared
    obtain ⟨_, _, _, rfl⟩ := hacts.world
    rw [he] at hacc
    exact .inl (hk.accepting ▸ hacc)
  | threadStartup =>
    unfold World.threadStartup withShared at hacc
    dsimp only at hacc
    split at hacc
    · cases hacc
    · next hreq => exact .inr ⟨rfl, hreq⟩
  | threadFail => cases hacc
  | threadExit failed cleanup =>
    unfold World.threadExit withShared at hacc
    dsimp only at hacc
    split at hacc
    · cases hacc
    · split at hacc <;> cases hacc
  | _ => exact ha.elim

/-- `start()` stands where it stood, or does not give up, or gives up by a step of its own; in no
process is it called a second time. -/
theorem Taken.start (hp : Placed w) (h : Taken w a w') :
    w'.start = w.start ∨
      (w'.start ≠ .timedOut ∧ w'.start ≠ .signalling ∧ (w'.start = .idle → a.isRestart)) ∨
      w'.start = .timedOut ∧ a = .startTimeout ∨
      w'.start = .signalling ∧ w.start = .timedOut ∧ a = .startTimedOut := by
  rcases a.sides with ha | ha | ha
  · cases h with
    | submit event =>
      obtain ⟨shared, ⟨he, -⟩ | ⟨e, -, -, -, -, he, -⟩, -⟩ := submit_eq w event
      · exact .inl (he ▸ rfl)
      · exact .inl (he ▸ rfl)
    | submitSignal =>
      obtain ⟨callbacks, he, -⟩ :=
        signalLoop_eq { w with submitSignals := w.submitSignals - 1 } .wakePersist
      exact .inl (he ▸ rfl)
    | stopSignal i =>
      obtain ⟨callbacks, he, -⟩ :=
        signalLoop_eq { w with stops := w.stops.set i .joining } .stopAsync
      exact .inl (he ▸ rfl)
    | startSignal =>
      obtain ⟨callbacks, he, -⟩ := signalLoop_eq { w with start := .raised } .stopAsync
      exact .inr (.inl (he ▸ ⟨nofun, nofun, nofun⟩))
    | startReady =>
      rcases startReady_eq w with he | he
      · exact .inr (.inl (he ▸ ⟨nofun, nofun, nofun⟩))
      · exact .inr (.inl (he ▸ ⟨nofun, nofun, nofun⟩))
    | startTimeout => exact .inr (.inr (.inl ⟨rfl, rfl⟩))
    | startTimedOut hs => exact .inr (.inr (.inr ⟨rfl, hs, rfl⟩))
    | stopCall | stopSet | stopReturn | wakePersist | stopAsync => exact .inl rfl
    | _ => exact ha.elim
  · exact .inl (h.inside hp ha).callers.1
  cases h with
  | startCall =>
    unfold World.startCall
    split <;> exact .inr (.inl ⟨nofun, nofun, nofun⟩)
  | restart => exact .inr (.inl ⟨nofun, nofun, fun _ => rfl⟩)
  | environment | threadStartup | threadAnnounce | threadFail | threadClose | threadExit
  | threadDie => exact .inl rfl
  | stopLock i seen timeout =>
    obtain ⟨_, _, _, he, -⟩ := stopLock_eq w i seen timeout
    exact .inl (he ▸ rfl)
  | threadOpen factoryError =>
    obtain ⟨u, thread, hacts, he, -⟩ := threadOpen_eq w factoryError
    obtain ⟨_, _, _, rfl⟩ := hacts.world
    exact .inl (he ▸ rfl)
  | _ => exact ha.elim

end

namespace World

/-- The thread does not take its startup lock block, without a request to stop, between the lock
block of a `start()` that times out and its `_stop_requested.set()`. -/
def UndisturbedTimeout (w : World) (a : Action) : Prop :=
  a = .threadStartup → w.start = .timedOut → w.stopRequested = true

/-- A `start()` that gives up refuses events, and a stop is requested when it signals the loop. -/
structure GivingUp (w : World) : Prop where
  timedOut : w.start = .timedOut → w.shared.accepting ≠ true
  signalling : w.start = .signalling → w.shared.accepting ≠ true ∧ w.stopRequested = true

namespace GivingUp

variable {w w' : World} {a : Action}

theorem boot (config : Config) (env : Env) (db : Database) (history : List Obs) :
    GivingUp (.boot config env db history) where
  timedOut := nofun
  signalling := nofun

/-- **Every undisturbed step keeps it.** -/
theorem step (hp : Placed w) (h : GivingUp w) (hg : UndisturbedTimeout w a)
    (hs : QuestDbWriter.step w a = some w') : GivingUp w' := by
  have ht := Taken.of_step hs
  -- events stay refused, but for a startup that finds no request
  have hkeep : w.shared.accepting ≠ true → (a = .threadStartup → w.stopRequested = true) →
      w'.shared.accepting ≠ true := fun hn hreq hacc => by
    rcases ht.accepting hp hacc with hw | ⟨ha, hno⟩
    · exact hn hw
    · exact hno (hreq ha)
  rcases ht.start hp with he | ⟨hn, hn', -⟩ | ⟨he, rfl⟩ | ⟨he, hat, rfl⟩
  · refine ⟨fun hn => ?_, fun hn => ?_⟩
    · have hat := he.symm.trans hn
      exact hkeep (h.timedOut hat) fun ha => hg ha hat
    · obtain ⟨hacc, hreq⟩ := h.signalling (he.symm.trans hn)
      have hr : ¬ a.isRestart := fun hr => by
        cases ht with
        | restart => cases hn
        | _ => cases hr
      exact ⟨hkeep hacc fun _ => hreq, ht.stopRequested hp hr hreq⟩
  · exact ⟨fun h => absurd h hn, fun h => absurd h hn'⟩
  · refine ⟨fun _ hacc => ?_, fun hn => ?_⟩
    · cases ht
      cases hacc
    · cases he.symm.trans hn
  · refine ⟨fun hn => ?_, fun _ => ?_⟩
    · cases he.symm.trans hn
    · cases ht
      exact ⟨h.timedOut hat, rfl⟩

end GivingUp

/-- **A `start()` that has timed out leaves no acceptance behind**: in every undisturbed run, from
its exception on no `submit()` of the process returns `True`. -/
theorem timed_out_start_refuses (config : Config) (env : Env) (db : Database) (history : List Obs)
    (w u v : World) (hrun : Steps step UndisturbedTimeout (.boot config env db history) w)
    (hraised : step w .startSignal = some u) (hlater : Steps step (fun _ a => ¬ a.isRestart) u v)
    (event : EventEnvelope) :
    (v.submit event).history = v.history ∧ v.shared.accepting = false := by
  have hinv : Placed w ∧ GivingUp w := by
    refine hrun.invariant (I := fun w => Placed w ∧ GivingUp w) ⟨.boot .., .boot ..⟩ ?_
    rintro u a v ⟨hp, h⟩ hg hs
    exact ⟨hp.step hs, h.step hp hg hs⟩
  obtain ⟨hp, h⟩ := hinv
  have hrefused : u.shared.accepting ≠ true ∧ u.stopRequested = true := by
    cases Taken.of_step hraised with
    | startSignal hat =>
      obtain ⟨callbacks, he, -⟩ := signalLoop_eq { w with start := .raised } .stopAsync
      rw [he]
      exact h.signalling hat
  have hend : Placed v ∧ v.shared.accepting ≠ true ∧ v.stopRequested = true := by
    refine hlater.invariant
      (I := fun w => Placed w ∧ w.shared.accepting ≠ true ∧ w.stopRequested = true)
      ⟨hp.step hraised, hrefused⟩ ?_
    rintro w a w' ⟨hp, hacc, hreq⟩ hr hs
    have ht := Taken.of_step hs
    refine ⟨hp.step hs, fun hn => ?_, ht.stopRequested hp hr hreq⟩
    rcases ht.accepting hp hn with hw | ⟨-, hno⟩
    · exact hacc hw
    · exact hno hreq
  refine ⟨?_, Bool.eq_false_iff.mpr hend.2.1⟩
  obtain ⟨shared, ⟨he, -⟩ | ⟨e, -, hacc, -⟩, -⟩ := submit_eq v event
  · rw [he]
  · exact absurd hacc hend.2.1

/-- A start that times out, requests a stop and raises, and a thread that starts behind it. -/
def refusedStart : List Action :=
  [.startCall, .threadOpen none, .startTimeout, .startTimedOut]

/-- The startup of the thread does not accept events again. -/
theorem refusedStart_refuses : ∃ w u v : World,
    exec step refusedStart (.boot .provisional .quiet .fresh []) = some w ∧
      step w .startSignal = some u ∧ step u .threadStartup = some v ∧
      (v.submit lightEvent).history = v.history ∧ v.shared.accepting = false := by
  let undisturbed : World → Action → Bool
    | w, .threadStartup => decide (w.start = .timedOut → w.stopRequested = true)
    | _, _ => true
  have hundisturbed : ∀ w a, undisturbed w a = true → UndisturbedTimeout w a := by
    rintro w a hw rfl
    exact of_decide_eq_true hw
  have hrun : ((execIn step undisturbed refusedStart (.boot .provisional .quiet .fresh [])).any
      fun w => (step w .startSignal).any fun u => (step u .threadStartup).isSome) = true := by
    decide +kernel
  obtain ⟨w, hw, hraised⟩ := (Option.any_eq_true _ _).mp hrun
  obtain ⟨u, hu, hstarted⟩ := (Option.any_eq_true _ _).mp hraised
  obtain ⟨v, hv⟩ := Option.isSome_iff_exists.mp hstarted
  exact ⟨w, u, v, exec_of_execIn hw, hu, hv, timed_out_start_refuses _ _ _ _ w u v
    (.of_execIn hundisturbed hw) hu (.tail .threadStartup .refl nofun hv) lightEvent⟩

/-- A start whose thread becomes ready between the two steps of its timeout. -/
def disturbedStart : List Action :=
  [.startCall, .threadOpen none, .startTimeout, .threadStartup, .startTimedOut]

/-- **Not every `start()` that has timed out refuses events**: behind a disturbed one `submit()`
returns `True`. -/
theorem timed_out_start_accepts : ¬ ∀ (config : Config) (env : Env) (db : Database)
    (history : List Obs) (w u v : World),
    Steps step (fun _ _ => True) (.boot config env db history) w → step w .startSignal = some u →
      Steps step (fun _ a => ¬ a.isRestart) u v →
      ∀ event : EventEnvelope, (v.submit event).history = v.history := by
  intro h
  have hrun : ((exec step disturbedStart (.boot .provisional .quiet .fresh [])).any fun w =>
      (step w .startSignal).any fun u =>
        decide (u.history.length < (u.submit lightEvent).history.length)) = true := by
    decide +kernel
  obtain ⟨w, hw, hraised⟩ := (Option.any_eq_true _ _).mp hrun
  obtain ⟨u, hu, hlonger⟩ := (Option.any_eq_true _ _).mp hraised
  have hsame := h _ _ _ _ w u u (.of_exec hw) hu .refl lightEvent
  have hlt : u.history.length < (u.submit lightEvent).history.length := of_decide_eq_true hlonger
  rw [hsame] at hlt
  exact lt_irrefl _ hlt

end World

end QuestDbWriter
