import QuestDbWriter.Worker.Queues
import QuestDbWriter.Worker.Sides
import QuestDbWriter.Lib.Transition

/-!
# Shutdown

What `submit()` accepted is in the spool, in the local buffer of the persist loop, or in the
queue (`Balanced`). A worker that has stopped has nothing left in the last two (`stopped_clean`), in
every run in which no `stop()` is between its lock block and its `_stop_requested.set()` when the
worker thread takes its startup lock block without a request to stop (`Timely`). A `stop()` that is
there is overruled: the thread accepts events again, and the persist loop returns before the main
coroutine refuses them (`stop_overruled`).
-/

namespace QuestDbWriter

open Lib

/-! ## Accepted and enqueued events -/

/-- The events that `submit()` has accepted in this process, after one more observation. -/
def Obs.accept (events : List NewSpoolEvent) : Obs → List NewSpoolEvent
  | .started _ _ _ => []
  | .accepted event => events ++ [event]
  | _ => events

/-- The events that committed calls of `enqueue_many` were given, after one more observation. -/
def Obs.enqueue (events : List NewSpoolEvent) : Obs → List NewSpoolEvent
  | .started _ _ _ => []
  | .enqueued new _ => events ++ new
  | _ => events

/-- The events for which `submit()` has returned `True` in this process, in that order. -/
def acceptedEvents (history : List Obs) : List NewSpoolEvent := history.foldl Obs.accept []

/-- The events handed to committed calls of `enqueue_many` in this process, in that order. -/
def enqueuedEvents (history : List Obs) : List NewSpoolEvent := history.foldl Obs.enqueue []

/-- A delivery accepts no events. -/
theorem accept_delivery : ∀ (events : List NewSpoolEvent) {obs : List Obs},
    (∀ o ∈ obs, o.IsDelivery) → obs.foldl Obs.accept events = events
  | _, [], _ => rfl
  | events, o :: obs, h => by
      have ho := h o (List.mem_cons_self ..)
      have hstep : Obs.accept events o = events := by
        cases o <;> first | rfl | exact ho.elim
      rw [List.foldl_cons, hstep, accept_delivery events fun p hp =>
        h p (List.mem_cons_of_mem _ hp)]

/-- A delivery commits no events. -/
theorem enqueue_delivery : ∀ (events : List NewSpoolEvent) {obs : List Obs},
    (∀ o ∈ obs, o.IsDelivery) → obs.foldl Obs.enqueue events = events
  | _, [], _ => rfl
  | events, o :: obs, h => by
      have ho := h o (List.mem_cons_self ..)
      have hstep : Obs.enqueue events o = events := by
        cases o <;> first | rfl | exact ho.elim
      rw [List.foldl_cons, hstep, enqueue_delivery events fun p hp =>
        h p (List.mem_cons_of_mem _ hp)]

namespace World

/-! ## The balance -/

/-- What was accepted has been enqueued, is held, or is in the queue. -/
structure Balanced (w : World) : Prop where
  events : acceptedEvents w.history = enqueuedEvents w.history ++ (w.held ++ w.ingress)
  counted : w.shared.counters.submittedEvents =
    w.shared.counters.persistedEvents + (w.held.length + w.ingress.length)
  held_le : w.held.length ≤ w.config.settings.persistBatchRows
  ingress_le : w.ingress.length ≤ w.config.settings.ingressQueueCapacity

namespace Balanced

variable {w w' : World}

/-- A new process has accepted nothing. -/
theorem boot (config : Config) (env : Env) (db : Database) (history : List Obs) :
    Balanced (.boot config env db history) where
  events := by simp [World.boot, acceptedEvents, enqueuedEvents, Obs.accept, Obs.enqueue]
  counted := rfl
  held_le := Nat.zero_le _
  ingress_le := Nat.zero_le _

/-- A step aside touches neither the events nor the two counters. -/
theorem aside (h : Balanced w) (ha : Aside w w') : Balanced w' := by
  obtain ⟨obs, ho, hd⟩ := ha.history
  constructor
  · rw [ha.ingress, ha.held, ho, acceptedEvents, enqueuedEvents, List.foldl_append,
      List.foldl_append, accept_delivery _ hd, enqueue_delivery _ hd]
    exact h.events
  · rw [ha.ingress, ha.held, ha.submitted, ha.persisted]
    exact h.counted
  · rw [ha.config, ha.held]
    exact h.held_le
  · rw [ha.config, ha.ingress]
    exact h.ingress_le

/-- The held events go to the spool together. -/
theorem heldTaken (h : Balanced w) (rows : List RowIdentity) : Balanced (w.heldTaken rows) where
  events := by
    have he := h.events
    unfold acceptedEvents enqueuedEvents at he
    unfold World.heldTaken World.observe World.count World.withShared acceptedEvents enqueuedEvents
    dsimp only
    rw [List.foldl_append, List.foldl_append, he]
    exact (List.append_assoc ..).symm
  counted := by
    have hc := h.counted
    unfold World.heldTaken World.observe World.count World.withShared Shared.count
    dsimp only [List.length_nil]
    omega
  held_le := Nat.zero_le _
  ingress_le := h.ingress_le

/-- An attempt to persist keeps the balance. -/
theorem persists (h : Balanced w) (hp : Persists w w') : Balanced w' := by
  cases hp with
  | kept h' => exact h.aside (.of_acts h')
  | taken u rows h' h'' => exact ((h.aside (.of_acts h')).heldTaken rows).aside (.of_acts h'')

/-- **Every step of the system keeps the balance.** -/
theorem step {a : Action} (h : Balanced w) (hs : step w a = some w') : Balanced w' := by
  cases (Taken.of_step hs).queues with
  | aside ha => exact h.aside ha
  | restart config env ha he => exact he ▸ boot _ _ _ _
  | accepted event e shared ha hev hroom hsize hsub hper he =>
    subst he
    constructor
    · have hev := h.events
      unfold acceptedEvents enqueuedEvents at hev ⊢
      dsimp only
      rw [List.foldl_append, List.foldl_append, hev]
      simp [Obs.accept, Obs.enqueue]
    · have hc := h.counted
      dsimp only
      rw [hsub, hper, List.length_append, List.length_singleton]
      omega
    · exact h.held_le
    · dsimp only
      rw [List.length_append, List.length_singleton]
      omega
  | drained event ingress hi hroom he =>
    subst he
    have hev := h.events
    have hc := h.counted
    have hle := h.ingress_le
    rw [hi] at hev hc hle
    rw [List.length_cons] at hc hle
    refine ⟨?_, ?_, ?_, ?_⟩
    · exact hev.trans (by simp)
    · dsimp only
      rw [List.length_append, List.length_singleton]
      omega
    · dsimp only
      rw [List.length_append, List.length_singleton]
      omega
    · dsimp only
      omega
  | round u ha hu haside => exact (h.persists hu).aside haside

end Balanced

/-! ## The order of a stop -/

/-- The call of `start()` has not given up on the thread. -/
def Unforced (w : World) : Prop :=
  w.start ≠ .timedOut ∧ w.start ≠ .signalling ∧ w.start ≠ .raised

/-- Whether `start()` has timed out is for its caller to change. -/
theorem Unforced.of_start {w w' : World} (hu : Unforced w') (h : w'.start = w.start) :
    Unforced w := by
  unfold Unforced at hu ⊢
  rwa [h] at hu

/-- The end of the loop leaves the caller of `start()` where it is. -/
theorem start_mainRaise (w : World) (e : Exc) : (w.mainRaise e).start = w.start := by
  obtain ⟨persist, deliver, he, -⟩ := mainRaise_eq w e
  rw [he]

/-- A turn of the delivery loop forces no start. -/
theorem Delivers.unforced {w w' : World} (h : Delivers w w') (hu : Unforced w') : Unforced w := by
  obtain ⟨_, _, _, _, _, _, rfl⟩ := h.world
  exact hu

/-- A step of the flush forces no start. -/
theorem Flushes.unforced {w w' : World} (h : Flushes w w') (hu : Unforced w') : Unforced w := by
  have hacts : ∀ {u}, Acts w u → u.start = w.start := by
    intro u hu
    obtain ⟨_, _, _, rfl⟩ := hu.world
    rfl
  cases h with
  | raised u e h => exact hu.of_start ((start_mainRaise u e).trans (hacts h))
  | finished u h =>
    rcases mainFinish_eq u with ⟨e, he⟩ | ⟨deliver, he, -⟩
    · rw [he] at hu
      exact hu.of_start ((start_mainRaise u e).trans (hacts h))
    · rw [he] at hu
      have hu' : Unforced u := hu
      exact hu'.of_start (hacts h)
  | ensuring u h =>
    have hu' : Unforced u := hu
    exact hu'.of_start (hacts h)
  | sending u built backoff h =>
    have hu' : Unforced u := hu
    exact hu'.of_start (hacts h)

/-- A request to stop is announced before it is made, and made before it is acted on: no event is
accepted from the announcement on, so the persist loop returns with nothing left. -/
structure Orderly (w : World) : Prop where
  requested : w.stopAsync = true ∨ .stopAsync ∈ w.callbacks ∨ .signalling ∈ w.stops →
    w.stopRequested = true
  refused : w.stopRequested = true ∨ .setting ∈ w.stops → w.shared.accepting = false
  returned : w.persist = .returned → w.stopAsync = true ∧ w.held = [] ∧ w.ingress = []
  closing : (w.thread = .closing false ∨ ∃ cleanup, w.thread = .exiting false cleanup) →
    w.persist = .returned
  stopped : w.shared.state = .stopped →
    w.thread = .absent ∨ (w.thread = .ended ∨ w.thread = .dead) ∧ w.persist = .returned

namespace Orderly

variable {w w' : World}

/-- A new process is in order. -/
theorem boot (config : Config) (env : Env) (db : Database) (history : List Obs) :
    Orderly (.boot config env db history) where
  requested := by simp [World.boot]
  refused := by simp [World.boot]
  returned := nofun
  closing := by simp [World.boot]
  stopped := nofun

/-- The state is not `STOPPED` while there is a thread that runs. -/
theorem not_stopped (h : Orderly w)
    (ht : ¬ (w.thread = .absent ∨ w.thread = .ended ∨ w.thread = .dead)) :
    w.shared.state ≠ .stopped := by
  intro hn
  rcases h.stopped hn with hth | ⟨hth, -⟩
  · exact ht (.inl hth)
  · exact ht (.inr hth)

/-- A step that changes nothing of this. -/
theorem of_eq (h : Orderly w) (ha : w'.stopAsync = w.stopAsync)
    (hc : w'.callbacks ⊆ w.callbacks) (hs : w'.stops = w.stops)
    (hr : w'.stopRequested = w.stopRequested) (hacc : w'.shared.accepting = w.shared.accepting)
    (hp : w'.persist = w.persist) (hh : w'.held = w.held) (hi : w'.ingress = w.ingress)
    (ht : w'.thread = w.thread) (hst : w'.shared.state = .stopped → w.shared.state = .stopped) :
    Orderly w' := by
  constructor
  · rw [ha, hs, hr]
    exact fun hn => h.requested (hn.imp_right (Or.imp_left fun hm => hc hm))
  · rw [hr, hs, hacc]
    exact h.refused
  · rw [hp, ha, hh, hi]
    exact h.returned
  · rw [ht, hp]
    exact h.closing
  · rw [ht, hp]
    exact fun hn => h.stopped (hst hn)

/-- A step of the persist loop that does not return. -/
theorem of_persist (h : Orderly w) (hp : w.persist ≠ .returned) (hp' : w'.persist ≠ .returned)
    (ha : w'.stopAsync = w.stopAsync) (hc : w'.callbacks = w.callbacks) (hs : w'.stops = w.stops)
    (hr : w'.stopRequested = w.stopRequested) (hacc : w'.shared.accepting = w.shared.accepting)
    (ht : w'.thread = w.thread) (hst : w'.shared.state = .stopped → w.shared.state = .stopped) :
    Orderly w' := by
  constructor
  · rw [ha, hc, hs, hr]
    exact h.requested
  · rw [hr, hs, hacc]
    exact h.refused
  · exact fun hn => absurd hn hp'
  · rw [ht]
    exact fun hn => absurd (h.closing hn) hp
  · rw [ht]
    exact fun hn => .inl ((h.stopped (hst hn)).resolve_right fun hr => hp hr.2)

/-- A method keeps the order. -/
theorem acts (h : Orderly w) (ha : Acts w w') : Orderly w' := by
  have hk := ha.shared
  obtain ⟨spool, shared, history, rfl⟩ := ha.world
  exact h.of_eq rfl (List.Subset.refl _) rfl rfl hk.accepting rfl rfl rfl rfl hk.of_stopped

/-- A turn of the delivery loop keeps the order. -/
theorem delivers (h : Orderly w) (ha : Delivers w w') : Orderly w' := by
  have hk := ha.shared
  obtain ⟨spool, shared, history, wakeDeliver, deliver, locals, rfl⟩ := ha.world
  exact h.of_eq rfl (List.Subset.refl _) rfl rfl hk.accepting rfl rfl rfl rfl hk.of_stopped

/-- The main coroutine runs only while the thread does, so the state is not `STOPPED`. -/
theorem mainRaise (h : Orderly w) (hl : w.thread = .looping) (e : Exc) :
    Orderly (w.mainRaise e) := by
  obtain ⟨persist, deliver, he, -, hret, -⟩ := mainRaise_eq w e
  rw [he]
  exact ⟨h.requested, h.refused, fun hn => h.returned (hret.mp hn), by simp,
    fun hn => absurd hn (h.not_stopped (by simp [hl]))⟩

/-- The end of the main coroutine keeps the order, behind its persist task. -/
theorem mainFinish (h : Orderly w) (hl : w.thread = .looping) (hp : w.persist = .returned) :
    Orderly w.mainFinish := by
  rcases mainFinish_eq w with ⟨e, he⟩ | ⟨deliver, he, -⟩
  · rw [he]
    exact h.mainRaise hl e
  · rw [he]
    exact ⟨h.requested, h.refused, h.returned, fun _ => hp,
      fun hn => absurd hn (h.not_stopped (by simp [hl]))⟩

/-- A step of the flush keeps the order, behind the persist task. -/
theorem flushes (h : Orderly w) (hf : Flushes w w') (hl : w.thread = .looping)
    (hp : w.persist = .returned) : Orderly w' := by
  have key : ∀ {u}, Acts w u → Orderly u ∧ u.thread = .looping ∧ u.persist = .returned := by
    intro u hu
    refine ⟨h.acts hu, ?_⟩
    obtain ⟨_, _, _, rfl⟩ := hu.world
    exact ⟨hl, hp⟩
  cases hf with
  | raised u e hu => exact (key hu).1.mainRaise (key hu).2.1 e
  | finished u hu => exact (key hu).1.mainFinish (key hu).2.1 (key hu).2.2
  | ensuring u hu =>
    exact (key hu).1.of_eq rfl (List.Subset.refl _) rfl rfl rfl rfl rfl rfl rfl id
  | sending u built backoff hu =>
    exact (key hu).1.of_eq rfl (List.Subset.refl _) rfl rfl rfl rfl rfl rfl rfl id

/-- A step of the thread that neither closes nor ends it. -/
theorem of_thread (h : Orderly w) (ha : w'.stopAsync = w.stopAsync)
    (hc : w'.callbacks = w.callbacks) (hs : w'.stops = w.stops)
    (hr : w'.stopRequested = w.stopRequested)
    (hacc : w'.shared.accepting = false ∨ w'.shared.accepting = w.shared.accepting)
    (hp : w'.persist = w.persist) (hh : w'.held = w.held) (hi : w'.ingress = w.ingress)
    (hcl : w'.thread ≠ .closing false ∧ ∀ cleanup, w'.thread ≠ .exiting false cleanup)
    (hst : w'.shared.state ≠ .stopped) : Orderly w' := by
  constructor
  · rw [ha, hc, hs, hr]
    exact h.requested
  · rw [hr, hs]
    intro hn
    rcases hacc with hacc | hacc
    · exact hacc
    · exact hacc.trans (h.refused hn)
  · rw [hp, ha, hh, hi]
    exact h.returned
  · rintro (hn | ⟨cleanup, hn⟩)
    · exact absurd hn hcl.1
    · exact absurd hn (hcl.2 cleanup)
  · exact fun hn => absurd hn hst

end Orderly

/-- No `stop()` is between its lock block and its `_stop_requested.set()` when the thread takes its
startup lock block without a request to stop. -/
def Timely (w : World) (a : Action) : Prop :=
  a = .threadStartup → w.stopRequested = false → .setting ∉ w.stops

namespace Orderly

variable {w w' : World}

/-- What the callers and the callbacks do keeps the order of a stop. -/
theorem outside {a : Action} (ht : Taken w a w') (ha : a.IsOutside) (h : Unforced w → Orderly w)
    (hu : Unforced w') : Orderly w' := by
  have hsub : ∀ {l : List Callback}, l ⊆ l := fun {l} => List.Subset.refl l
  cases ht with
  | wakePersist callbacks _ _ hc =>
    exact (h hu).of_eq rfl (hc ▸ List.subset_cons_self _ _) rfl rfl rfl rfl rfl rfl rfl id
  | submit event =>
    obtain ⟨shared, ⟨he, -⟩ | ⟨e, -, hacc, -, -, he, -⟩, hst, hac, -⟩ := submit_eq w event
    · rw [he] at hu ⊢
      exact (h hu).of_eq rfl hsub rfl rfl hac rfl rfl rfl rfl fun hn => hst.symm.trans hn
    · rw [he] at hu ⊢
      have ho := h hu
      -- an event is accepted, so no stop is requested and the persist loop has not returned
      have hreq : w.stopRequested ≠ true := fun hn => by
        have := ho.refused (.inl hn)
        rw [hacc] at this
        cases this
      have hret : w.persist ≠ .returned := fun hn => hreq (ho.requested (.inl (ho.returned hn).1))
      exact ho.of_persist hret hret rfl rfl rfl rfl hac rfl fun hn => hst.symm.trans hn
  | submitSignal =>
    obtain ⟨callbacks, he, hc⟩ :=
      signalLoop_eq { w with submitSignals := w.submitSignals - 1 } .wakePersist
    rw [he] at hu ⊢
    have ho := h hu
    refine ⟨fun hn => ho.requested (hn.imp_right (Or.imp_left fun hm => ?_)), ho.refused,
      ho.returned, ho.closing, ho.stopped⟩
    have := hc hm
    simpa using this
  | startReady hwait =>
    have ho := h (by simp [Unforced, hwait])
    rcases startReady_eq w with he | he
    · rw [he] at hu
      exact absurd rfl hu.2.2
    · rw [he]
      exact ho.of_eq rfl hsub rfl rfl rfl rfl rfl rfl rfl id
  | startTimeout => exact absurd rfl hu.1
  | startTimedOut => exact absurd rfl hu.2.1
  | startSignal =>
    obtain ⟨callbacks, he, -⟩ := signalLoop_eq { w with start := .raised } .stopAsync
    rw [he] at hu
    exact absurd rfl hu.2.2
  | stopCall timeout =>
    have ho := h hu
    refine ⟨fun hn => ho.requested ?_, fun hn => ho.refused ?_, ho.returned, ho.closing, ho.stopped⟩
    · simpa using hn
    · simpa using hn
  | stopSet i hi =>
    have ho := h hu
    have hacc := ho.refused (.inr (List.mem_of_getElem? hi))
    exact ⟨fun _ => rfl, fun _ => hacc, ho.returned, ho.closing, ho.stopped⟩
  | stopSignal i hi =>
    obtain ⟨callbacks, he, -⟩ := signalLoop_eq { w with stops := w.stops.set i .joining } .stopAsync
    rw [he] at hu ⊢
    have ho := h hu
    have hreq := ho.requested (.inr (.inr (List.mem_of_getElem? hi)))
    have hacc := ho.refused (.inl hreq)
    exact ⟨fun _ => hreq, fun _ => hacc, ho.returned, ho.closing, ho.stopped⟩
  | stopReturn i =>
    have ho := h hu
    have hset : ∀ {pc}, pc ≠ .returned (!w.threadAlive) →
        pc ∈ w.stops.set i (.returned (!w.threadAlive)) → pc ∈ w.stops := fun hne hm =>
      (List.mem_or_eq_of_mem_set hm).resolve_right hne
    exact ⟨fun hn => ho.requested (hn.imp_right (Or.imp_right (hset nofun))),
      fun hn => ho.refused (hn.imp_right (hset nofun)), ho.returned, ho.closing, ho.stopped⟩
  | stopAsync callbacks _ _ hc =>
    have ho := h hu
    have hreq : w.stopRequested = true := ho.requested (.inr (.inl (hc ▸ List.mem_cons_self ..)))
    exact ⟨fun _ => hreq, ho.refused, fun hn => ⟨rfl, (ho.returned hn).2⟩, ho.closing, ho.stopped⟩
  | _ => exact ha.elim

/-- So does what the thread does, and what starts and stops it, where no stop is announced behind
the startup lock block. -/
theorem other {a : Action} (ht : Taken w a w') (ha : a.IsOther) (hpl : Placed w)
    (h : Unforced w → Orderly w) (hg : Timely w a) (hu : Unforced w') : Orderly w' := by
  have hsub : ∀ {l : List Callback}, l ⊆ l := fun {l} => List.Subset.refl l
  cases ht with
  | environment => exact (h hu).of_eq rfl hsub rfl rfl rfl rfl rfl rfl rfl id
  | restart => exact boot _ _ _ _
  | startCall hidle =>
    have ho := h (by simp [Unforced, hidle])
    unfold startCall at hu ⊢
    split
    · exact ho.of_thread rfl rfl rfl rfl (.inr rfl) rfl rfl rfl ⟨nofun, nofun⟩ nofun
    · next hn =>
      rw [if_neg hn] at hu
      exact absurd rfl hu.2.2
  | stopLock i seen timeout =>
    obtain ⟨pc, state, deadline, he, hcase⟩ := stopLock_eq w i seen timeout
    rw [he] at hu ⊢
    have ho := h hu
    refine ⟨fun hn => ho.requested ?_, fun _ => rfl, ho.returned, ho.closing, fun hn => ?_⟩
    · refine hn.imp_right (Or.imp_right fun hm => ?_)
      rcases List.mem_or_eq_of_mem_set hm with hm | rfl
      · exact hm
      · rcases hcase with ⟨-, -, hpc⟩ | ⟨-, -, hpc, -⟩ | ⟨-, hpc, -⟩ <;> cases hpc
    · change state = .stopped at hn
      rcases hcase with ⟨hnew, -, -⟩ | ⟨-, hst, -⟩ | ⟨hst, -⟩
      · exact .inl (hpl.fresh hnew)
      · exact ho.stopped (hst.symm.trans hn)
      · cases hst.symm.trans hn
  | threadOpen factoryError ht =>
    obtain ⟨u, thread, hacts, he, hopen⟩ := threadOpen_eq w factoryError
    have hk := hacts.shared
    obtain ⟨spool, shared, history, rfl⟩ := hacts.world
    rw [he] at hu ⊢
    have ho := h hu
    refine ho.of_thread rfl rfl rfl rfl (.inr hk.accepting) rfl rfl rfl ?_ fun hn => ?_
    · rcases hopen with rfl | ⟨e, rfl⟩
      · exact ⟨nofun, nofun⟩
      · exact ⟨nofun, nofun⟩
    · exact absurd (hk.of_stopped hn) (ho.not_stopped (by simp [ht]))
  | threadStartup =>
    have ho := h hu
    unfold threadStartup withShared
    dsimp only
    split
    · exact ho.of_thread rfl rfl rfl rfl (.inl rfl) rfl rfl rfl ⟨nofun, nofun⟩ nofun
    · next hreq =>
      -- no stop is announced, by the guard, nor requested, by the case
      refine ⟨ho.requested, fun hn => ?_, ho.returned, by simp, nofun⟩
      rcases hn with hn | hn
      · exact absurd hn hreq
      · exact absurd hn (hg rfl (Bool.eq_false_iff.mpr hreq))
  | threadAnnounce ht =>
    have ho := h hu
    refine ho.of_thread rfl rfl rfl rfl (.inr rfl) rfl rfl rfl ⟨nofun, nofun⟩ fun hn => ?_
    exact absurd hn (ho.not_stopped (by simp [ht]))
  | threadFail e =>
    exact (h hu).of_thread rfl rfl rfl rfl (.inl rfl) rfl rfl rfl ⟨nofun, nofun⟩ nofun
  | threadClose failed cleanup ht =>
    have ho := h hu
    refine ⟨ho.requested, ho.refused, ho.returned, fun hn => ho.closing (.inl ?_), fun hn => ?_⟩
    · rw [ht]
      simpa using hn
    · exact absurd hn (ho.not_stopped (by simp [ht]))
  | threadExit failed cleanup ht =>
    have ho := h hu
    refine ⟨ho.requested, fun _ => ?_, ho.returned, by simp [threadExit, withShared], fun hn => ?_⟩
    · unfold threadExit withShared
      dsimp only
      split
      · rfl
      · split <;> rfl
    · unfold threadExit withShared at hn
      dsimp only at hn
      split at hn
      · exact absurd hn (ho.not_stopped (by simp [ht]))
      · next hf =>
        split at hn
        · cases hn
        · refine .inr ⟨.inl rfl, ho.closing (.inr ⟨none, ?_⟩)⟩
          rw [ht]
          simpa using hf
  | threadDie ht =>
    have ho := h hu
    refine ⟨ho.requested, ho.refused, ho.returned, by simp, fun hn => ?_⟩
    have := ho.stopped hn
    simp only [ht, reduceCtorEq, false_or, or_false, true_and] at this
    exact .inr ⟨.inr rfl, this⟩
  | _ => exact ha.elim

/-- So do the coroutines. -/
theorem inside {a : Action} (ht : Taken w a w') (ha : a.IsInside) (hpl : Placed w)
    (h : Unforced w → Orderly w) (hu : Unforced w') : Orderly w' := by
  have hsub : ∀ {l : List Callback}, l ⊆ l := fun {l} => List.Subset.refl l
  cases ht with
  | mainPublish | deliverWake => exact (h hu).of_eq rfl hsub rfl rfl rfl rfl rfl rfl rfl id
  | mainTest hm =>
    have ho := h hu
    have hreq : (w.stopAsync || w.stopRequested) = true → w.stopRequested = true := fun hn =>
      (Bool.or_eq_true_iff.mp hn).elim (fun ha => ho.requested (.inl ha)) id
    refine ⟨fun hn => ?_, ho.refused, fun hn => ?_, ho.closing, ho.stopped⟩
    · rcases hn with hn | hn
      · exact hreq hn
      · exact ho.requested (.inr hn)
    · have := ho.returned hn
      simp [this]
  | mainStop hm =>
    have ho := h hu
    exact ⟨ho.requested, fun _ => rfl, ho.returned, ho.closing, nofun⟩
  | mainTaskDone e hm =>
    exact (h (hu.of_start (start_mainRaise w e))).mainRaise (hpl.looping (hm ▸ trivial)) e
  | mainPersistRaised e hm =>
    exact (h (hu.of_start (start_mainRaise w e))).mainRaise (hpl.looping (hm ▸ trivial)) e
  | mainPersisted hm hp =>
    have hf := Flushes.mainPersisted w
    exact (h (hf.unforced hu)).flushes hf (hpl.looping (hm ▸ trivial)) hp
  | flushEnsured result hm =>
    have hf := Flushes.flushEnsured w result
    exact (h (hf.unforced hu)).flushes hf (hpl.looping (hm ▸ trivial)) (hpl.flushing (hm ▸ trivial))
  | flushSent built result hm =>
    have hf := Flushes.flushSent w built result
    exact (h (hf.unforced hu)).flushes hf (hpl.looping (hm ▸ trivial)) (hpl.flushing (hm ▸ trivial))
  | persistRun ht hp =>
    exact (h hu).of_persist (by simp [hp]) nofun rfl rfl rfl rfl rfl rfl id
  | persistWake deadline hp =>
    refine (h hu).of_persist (fun hn => ?_) nofun rfl rfl rfl rfl rfl rfl id
    rw [hn] at hp
    rcases hp with hp | hp <;> cases hp
  | persistDrain hp =>
    rcases persistDrain_eq w with ⟨event, ingress, -, -, he⟩ | he
    · rw [he] at hu ⊢
      exact (h hu).of_persist (by simp [hp]) (by simp [hp]) rfl rfl rfl rfl rfl rfl id
    · rw [he] at hu ⊢
      exact (h hu).of_persist (by simp [hp]) nofun rfl rfl rfl rfl rfl rfl id
  | persistRound hp =>
    rcases persistRound_eq w with ⟨u, hper, he⟩ | ⟨u, e, hper, he⟩
    · rw [he] at hu ⊢
      obtain ⟨⟨spool, shared, history, held, rfl⟩, hacc, hst⟩ := hper.frame
      exact (h hu).of_persist (by simp [hp]) nofun rfl rfl rfl rfl hacc rfl hst
    · rw [he] at hu ⊢
      obtain ⟨⟨spool, shared, history, held, rfl⟩, hacc, hst⟩ := hper.frame
      exact (h hu).of_persist (by simp [hp]) nofun rfl rfl rfl rfl hacc rfl hst
  | persistCheck hp =>
    rcases persistCheck_eq w with ⟨he, ha, hh, hi⟩ | ⟨persist, wakePersist, he, -, hne⟩
    · rw [he] at hu ⊢
      have ho := h hu
      refine ⟨ho.requested, ho.refused, fun _ => ⟨ha, hh, hi⟩, fun _ => rfl, fun hn => ?_⟩
      exact (ho.stopped hn).imp_right fun hr => ⟨hr.1, rfl⟩
    · rw [he] at hu ⊢
      exact (h hu).of_persist (by simp [hp]) hne rfl rfl rfl rfl rfl rfl id
  | deliverRun =>
    have hd := Delivers.deliverTop w
    exact (h (hd.unforced hu)).delivers hd
  | deliverEnsured result =>
    have hd := Delivers.deliverEnsured w result
    exact (h (hd.unforced hu)).delivers hd
  | deliverSent built result =>
    have hd := Delivers.deliverSent w built result
    exact (h (hd.unforced hu)).delivers hd
  | _ => exact ha.elim

/-- **Every timely step keeps the order of a stop**, while `start()` has not given up. -/
theorem step {a : Action} (hpl : Placed w) (h : Unforced w → Orderly w) (hg : Timely w a)
    (hs : step w a = some w') (hu : Unforced w') : Orderly w' := by
  have ht := Taken.of_step hs
  rcases a.sides with ha | ha | ha
  · exact outside ht ha h hu
  · exact inside ht ha hpl h hu
  · exact other ht ha hpl h hg hu

end Orderly

/-! ## A clean stop -/

/-- The two parts of a clean shutdown: the balance of the counters within the bounds of the two
containers, and, of a thread that ended in state `STOPPED`, nothing left in them. -/
structure CleanShutdown (w : World) : Prop where
  counted : w.shared.counters.submittedEvents =
    w.shared.counters.persistedEvents + (w.held.length + w.ingress.length)
  held_le : w.held.length ≤ w.config.settings.persistBatchRows
  ingress_le : w.ingress.length ≤ w.config.settings.ingressQueueCapacity
  emptied : w.thread = .dead → w.shared.state = .stopped →
    w.held = [] ∧ w.ingress = [] ∧ enqueuedEvents w.history = acceptedEvents w.history

/-- **A timely stop is clean.** In every run from the start of a process in which no `stop()` is
between its lock block and its `_stop_requested.set()` when the thread takes its startup lock block
without a request to stop, every state in which `start()` has returned is one of a clean
shutdown. -/
theorem stopped_clean (config : Config) (env : Env) (db : Database) (history : List Obs) (w : World)
    (hrun : Steps step Timely (.boot config env db history) w) (hstart : w.start = .returned) :
    CleanShutdown w := by
  have hinv : Placed w ∧ Balanced w ∧ (Unforced w → Orderly w) := by
    refine hrun.invariant (I := fun w => Placed w ∧ Balanced w ∧ (Unforced w → Orderly w)) ?_ ?_
    · exact ⟨.boot .., .boot .., fun _ => .boot ..⟩
    · rintro u a v ⟨hp, hb, ho⟩ hg hs
      exact ⟨hp.step hs, hb.step hs, fun hu => Orderly.step hp ho hg hs hu⟩
  obtain ⟨-, hb, ho⟩ := hinv
  refine ⟨hb.counted, hb.held_le, hb.ingress_le, fun hdead hstopped => ?_⟩
  have horder := ho (by simp [Unforced, hstart])
  have hreturned : w.persist = .returned := by
    rcases horder.stopped hstopped with habsent | ⟨-, hr⟩
    · cases hdead.symm.trans habsent
    · exact hr
  obtain ⟨-, hheld, hingress⟩ := horder.returned hreturned
  have hevents := hb.events
  rw [hheld, hingress, List.append_nil, List.append_nil] at hevents
  exact ⟨hheld, hingress, hevents.symm⟩

/-- A run with one event and a stop that comes after `start()` has returned. -/
def timelyStop : List Action :=
  [.startCall, .threadOpen none, .threadStartup, .threadAnnounce, .startReady, .submit lightEvent,
    .stopCall 1, .stopLock 0, .stopSet 0, .mainPublish, .stopSignal 0, .mainTest, .callback,
    .persistRun, .persistDrain, .persistDrain, .persistRound, .persistCheck, .mainStop,
    .mainPersistDone, .threadClose none, .threadExit, .threadDie, .stopReturn 0]

/-- The timely stop is clean, with the one event in the spool. -/
theorem timelyStop_clean : ∃ w : World,
    exec step timelyStop (.boot .provisional .quiet .fresh []) = some w ∧
      w.shared.state = .stopped ∧ w.shared.counters.persistedEvents = 1 ∧ CleanShutdown w := by
  let timely : World → Action → Bool
    | w, .threadStartup => decide (.setting ∉ w.stops)
    | _, _ => true
  have htimely : ∀ w a, timely w a = true → Timely w a := by
    rintro w a hw rfl _
    exact of_decide_eq_true hw
  have hrun : ((execIn step timely timelyStop (.boot .provisional .quiet .fresh [])).any fun w =>
      decide (w.start = .returned ∧ w.shared.state = .stopped ∧
        w.shared.counters.persistedEvents = 1)) = true := by
    decide +kernel
  obtain ⟨w, hw, hend⟩ := (Option.any_eq_true _ _).mp hrun
  obtain ⟨hstart, hstopped, hpersisted⟩ := of_decide_eq_true hend
  refine ⟨w, exec_of_execIn (Option.mem_def.mp hw), hstopped, hpersisted, ?_⟩
  exact stopped_clean _ _ _ _ w (.of_execIn htimely (Option.mem_def.mp hw)) hstart

/-- A `stop()` that the startup of the thread overrules: the thread becomes ready between the lock
block of `stop()` and its `_stop_requested.set()`, and an event is accepted after the persist loop
has returned. -/
def overruledStop : List Action :=
  [.startCall, .stopCall 1, .threadOpen none, .stopLock 0, .threadStartup, .threadAnnounce,
    .startReady, .stopSet 0, .stopSignal 0, .mainPublish, .mainTest, .persistRun, .persistDrain,
    .persistRound, .persistCheck, .submit lightEvent, .mainStop, .mainPersistDone,
    .threadClose none, .threadExit, .threadDie]

/-- **Not every stop is clean**: an overruled one leaves an accepted event in the queue of a
stopped worker. -/
theorem stop_overruled : ¬ ∀ (config : Config) (env : Env) (db : Database) (history : List Obs)
    (w : World), Steps step (fun _ _ => True) (.boot config env db history) w →
      w.start = .returned → CleanShutdown w := by
  intro h
  have hrun : ((exec step overruledStop (.boot .provisional .quiet .fresh [])).any fun w =>
      decide (w.start = .returned ∧ w.thread = .dead ∧ w.shared.state = .stopped ∧
        w.ingress ≠ [])) = true := by
    decide +kernel
  obtain ⟨w, hw, hend⟩ := (Option.any_eq_true _ _).mp hrun
  obtain ⟨hstart, hdead, hstopped, hleft⟩ := of_decide_eq_true hend
  have hclean := h _ _ _ _ w (Steps.of_exec (Option.mem_def.mp hw)) hstart
  exact hleft (hclean.emptied hdead hstopped).2.1

end World

end QuestDbWriter
