import QuestDbWriter.Worker.Sides
import QuestDbWriter.Lib.Transition

/-!
# Wake-ups of the persist loop

An accepted `submit()` puts its event into the queue, and then schedules one callback that wakes the
persist loop. The loop clears its event just before it parks, which loses no signal: callbacks do
not run between its drain and its wait. But the drain is bounded. In every run in which no drain is
cut while nothing is left to wake the loop (`Drains`), a loop that is parked with nothing to wake it
has nothing to persist (`parked_empty`); a burst of events behind one wake-up leaves events in the
queue of a parked loop (`parked_behind`).
-/

namespace QuestDbWriter

open Lib

/-- The persist loop has begun and not ended. -/
def PersistPc.IsLive : PersistPc → Prop
  | .draining | .persisting | .checking | .waiting _ | .sleeping _ => True
  | _ => False

/-- A task that has ended takes no turn. -/
theorem PersistPc.IsOver.not_live {p : PersistPc} (h : p.IsOver) : ¬ p.IsLive := by
  cases p <;> first | exact h.elim | exact id

/-- The actions of the persist loop. -/
def Action.IsPersist : Action → Prop
  | .persistRun | .persistDrain | .persistRound | .persistCheck | .persistWake => True
  | _ => False

namespace World

section
variable {w w' : World} {a : Action}

/-! ## The persist loop and its loop -/

/-- The persist loop lives only while the coroutines run, and these only while callbacks are
taken. -/
structure Live (w : World) : Prop where
  tasks : w.tasksRun = true ∨ w.main = .testing → w.loopRunning = true
  live : w.persist.IsLive → w.tasksRun = true

/-- What another party's step does to the persist loop: it stands where it stood, or has ended, with
the same queue and the same signals. -/
structure Unpersisted (w w' : World) : Prop where
  queue : w'.ingress = w.ingress ∧ w'.held = w.held
  signals : w'.wakePersist = w.wakePersist ∧ w'.callbacks = w.callbacks ∧
    w'.submitSignals = w.submitSignals
  persist : w'.persist = w.persist ∨ w'.persist.IsOver
  live : Live w → Live w'

namespace Unpersisted

/-- A write of the state leaves the wakeups alone. -/
theorem of_acts (h : Acts w w') : Unpersisted w w' := by
  obtain ⟨_, _, _, rfl⟩ := h.world
  exact ⟨⟨rfl, rfl⟩, ⟨rfl, rfl, rfl⟩, .inl rfl, fun h => ⟨h.tasks, h.live⟩⟩

/-- So does the delivery task. -/
theorem of_delivers (h : Delivers w w') : Unpersisted w w' := by
  obtain ⟨_, _, _, _, _, _, rfl⟩ := h.world
  exact ⟨⟨rfl, rfl⟩, ⟨rfl, rfl, rfl⟩, .inl rfl, fun h => ⟨h.tasks, h.live⟩⟩

/-- Steps without a persist turn compose. -/
theorem trans {u v : World} (h : Unpersisted u v) (h' : Unpersisted v w) : Unpersisted u w where
  queue := ⟨h'.queue.1.trans h.queue.1, h'.queue.2.trans h.queue.2⟩
  signals := ⟨h'.signals.1.trans h.signals.1, h'.signals.2.1.trans h.signals.2.1,
    h'.signals.2.2.trans h.signals.2.2⟩
  persist := by
    rcases h'.persist with hp | hp
    · exact hp ▸ h.persist
    · exact .inr hp
  live hl := h'.live (h.live hl)

/-- A step of the main coroutine to a point where the coroutines run, or do not live. -/
theorem of_main (hq : w'.ingress = w.ingress ∧ w'.held = w.held)
    (hs : w'.wakePersist = w.wakePersist ∧ w'.callbacks = w.callbacks ∧
      w'.submitSignals = w.submitSignals)
    (hp : w'.persist = w.persist ∨ w'.persist.IsOver)
    (ht : Live w → w'.tasksRun = true ∨ w'.main = .testing → w'.loopRunning = true)
    (hl : Live w → w'.persist.IsLive → w'.tasksRun = true) : Unpersisted w w' :=
  ⟨hq, hs, hp, fun h => ⟨ht h, hl h⟩⟩

/-- The end of the service by an exception is no persist turn. -/
theorem mainRaise (w : World) (e : Exc) : Unpersisted w (w.mainRaise e) := by
  obtain ⟨persist, deliver, he, hover, -, -⟩ := mainRaise_eq w e
  rw [he]
  exact .of_main ⟨rfl, rfl⟩ ⟨rfl, rfl, rfl⟩ (.inr hover) (by simp [tasksRun])
    fun _ hl => absurd hl hover.not_live

/-- Neither is its return. -/
theorem mainFinish (hret : w.persist = .returned) : Unpersisted w w.mainFinish := by
  rcases mainFinish_eq w with ⟨e, he⟩ | ⟨deliver, he, -⟩
  · rw [he]
    exact mainRaise w e
  · rw [he]
    refine .of_main ⟨rfl, rfl⟩ ⟨rfl, rfl, rfl⟩ (.inl rfl) (by simp [tasksRun]) fun _ hl => ?_
    change w.persist.IsLive at hl
    rw [hret] at hl
    exact hl.elim

/-- A shutdown flush finds the persist task returned. -/
theorem of_flushes (h : Flushes w w') (hm : w.tasksRun = true) (hret : w.persist = .returned) :
    Unpersisted w w' := by
  have hkept : ∀ u, Acts w u → Unpersisted w u ∧ u.tasksRun = true ∧ u.persist = .returned := by
    intro u hu
    refine ⟨of_acts hu, ?_⟩
    obtain ⟨_, _, _, rfl⟩ := hu.world
    exact ⟨hm, hret⟩
  cases h with
  | raised u e hu => exact (hkept u hu).1.trans (mainRaise u e)
  | finished u hu => exact (hkept u hu).1.trans (mainFinish (hkept u hu).2.2)
  | ensuring u hu =>
    obtain ⟨hu, ht, -⟩ := hkept u hu
    exact hu.trans (.of_main ⟨rfl, rfl⟩ ⟨rfl, rfl, rfl⟩ (.inl rfl)
      (fun h _ => h.tasks (.inl ht)) fun _ _ => rfl)
  | sending u built backoff hu =>
    obtain ⟨hu, ht, -⟩ := hkept u hu
    exact hu.trans (.of_main ⟨rfl, rfl⟩ ⟨rfl, rfl, rfl⟩ (.inl rfl)
      (fun h _ => h.tasks (.inl ht)) fun _ _ => rfl)

/-- **The steps of the other coroutines and of the thread leave the persist loop where it stands**,
or end it. -/
theorem of_taken (hp : Placed w) (h : Taken w a w') (ha : ¬ a.IsOutside) (hn : ¬ a.IsPersist)
    (hr : ¬ a.isRestart) : Unpersisted w w' := by
  cases h with
  | restart => exact absurd rfl hr
  | environment | threadStartup | threadFail | threadClose | threadExit | threadDie =>
    exact ⟨⟨rfl, rfl⟩, ⟨rfl, rfl, rfl⟩, .inl rfl, fun h => ⟨h.tasks, h.live⟩⟩
  | startCall =>
    unfold startCall
    split <;> exact ⟨⟨rfl, rfl⟩, ⟨rfl, rfl, rfl⟩, .inl rfl, fun h => ⟨h.tasks, h.live⟩⟩
  | stopLock i seen timeout =>
    obtain ⟨_, _, _, he, -⟩ := stopLock_eq w i seen timeout
    rw [he]
    exact ⟨⟨rfl, rfl⟩, ⟨rfl, rfl, rfl⟩, .inl rfl, fun h => ⟨h.tasks, h.live⟩⟩
  | threadOpen factoryError =>
    obtain ⟨u, thread, hacts, he, -⟩ := threadOpen_eq w factoryError
    obtain ⟨_, _, _, rfl⟩ := hacts.world
    rw [he]
    exact ⟨⟨rfl, rfl⟩, ⟨rfl, rfl, rfl⟩, .inl rfl, fun h => ⟨h.tasks, h.live⟩⟩
  | threadAnnounce hth =>
    -- no coroutine has run yet
    refine .of_main ⟨rfl, rfl⟩ ⟨rfl, rfl, rfl⟩ (.inl rfl) (by simp [tasksRun]) fun h hl => ?_
    have hloop := hp.looping (tasksRun_active (h.live hl))
    cases hth.symm.trans hloop
  | mainPublish hm =>
    refine .of_main ⟨rfl, rfl⟩ ⟨rfl, rfl, rfl⟩ (.inl rfl) (fun _ _ => rfl) fun h hl => ?_
    have := h.live hl
    simp [tasksRun, hm] at this
  | mainTest hm =>
    exact .of_main ⟨rfl, rfl⟩ ⟨rfl, rfl, rfl⟩ (.inl rfl) (fun h _ => h.tasks (.inr hm))
      fun _ _ => rfl
  | mainStop hm =>
    exact .of_main ⟨rfl, rfl⟩ ⟨rfl, rfl, rfl⟩ (.inl rfl)
      (fun h _ => h.tasks (.inl (by simp [tasksRun, hm]))) fun _ _ => rfl
  | mainTaskDone e => exact mainRaise w e
  | mainPersistRaised e => exact mainRaise w e
  | mainPersisted hm hret => exact of_flushes (.mainPersisted w) (by simp [tasksRun, hm]) hret
  | flushEnsured result hm =>
    exact of_flushes (.flushEnsured w result) (by simp [tasksRun, hm]) (hp.flushing (hm ▸ trivial))
  | flushSent built result hm =>
    exact of_flushes (.flushSent w built result) (by simp [tasksRun, hm])
      (hp.flushing (hm ▸ trivial))
  | deliverRun => exact of_delivers (.deliverTop w)
  | deliverEnsured result => exact of_delivers (.deliverEnsured w result)
  | deliverSent built result => exact of_delivers (.deliverSent w built result)
  | deliverWake => exact ⟨⟨rfl, rfl⟩, ⟨rfl, rfl, rfl⟩, .inl rfl, fun h => ⟨h.tasks, h.live⟩⟩
  | persistRun | persistDrain | persistRound | persistCheck | persistWake =>
    exact absurd trivial hn
  | _ => exact absurd trivial ha

end Unpersisted

/-! ## Signals -/

/-- A wake-up of the persist loop is scheduled, or is about to be. -/
def Signalled (w : World) : Prop := .wakePersist ∈ w.callbacks ∨ 0 < w.submitSignals

/-- A callback that is scheduled keeps the signal of the others. -/
theorem signalled_signalLoop (v : World) (c : Callback) (hl : v.loopRunning = true)
    (h : Signalled v ∨ c = .wakePersist) : Signalled (v.signalLoop c) := by
  unfold signalLoop
  rw [if_pos hl]
  rcases h with (h | h) | rfl
  · exact .inl (List.mem_append_left _ h)
  · exact .inr h
  · exact .inl (List.mem_append_right _ (List.mem_singleton.mpr rfl))

/-- What a caller or a callback does to the queue and the signals. -/
structure Signals (w w' : World) : Prop where
  /-- An event that comes into the queue is signalled. -/
  ingress : w'.ingress ≠ [] → w.ingress ≠ [] ∨ Signalled w'
  wake : w.wakePersist = true → w'.wakePersist = true
  /-- A signal is lost only to the callback that wakes the loop. -/
  signalled : Signalled w → Signalled w' ∨ w.busy = false ∧ w'.wakePersist = true

/-- What a step leaves alone stays signalled. -/
theorem Signals.of_eq (hi : w'.ingress = w.ingress) (hw : w'.wakePersist = w.wakePersist)
    (hc : w'.callbacks = w.callbacks) (hn : w'.submitSignals = w.submitSignals) : Signals w w' where
  ingress h := .inl (hi ▸ h)
  wake h := hw.trans h
  signalled h := .inl <| by
    unfold Signalled
    rwa [hc, hn]

/-- **The callers and the callbacks lose no signal** while the loop runs. -/
theorem Signals.of_taken (h : Taken w a w') (ha : a.IsOutside) (hl : w.loopRunning = true) :
    Signals w w' := by
  have hsignal : ∀ {v : World} {c : Callback}, v.loopRunning = true → v.ingress = w.ingress →
      v.wakePersist = w.wakePersist → (Signalled w → Signalled v ∨ c = .wakePersist) →
      Signals w (v.signalLoop c) := by
    intro v c hv hi hw hs
    obtain ⟨callbacks, he, -⟩ := signalLoop_eq v c
    refine ⟨fun h => .inl ?_, fun h => ?_, fun h => .inl (signalled_signalLoop v c hv (hs h))⟩
    · rw [he] at h
      exact hi ▸ h
    · rw [he]
      exact hw.trans h
  cases h with
  | startTimeout | startTimedOut | stopCall | stopSet | stopReturn => exact .of_eq rfl rfl rfl rfl
  | submit event =>
    obtain ⟨shared, ⟨he, -⟩ | ⟨e, -, -, -, -, he, -⟩, -⟩ := submit_eq w event
    · rw [he]
      exact .of_eq rfl rfl rfl rfl
    · rw [he]
      exact ⟨fun _ => .inr (.inr (Nat.succ_pos _)), id, fun _ => .inl (.inr (Nat.succ_pos _))⟩
  | submitSignal => exact hsignal hl rfl rfl fun _ => .inr rfl
  | startReady =>
    rcases startReady_eq w with he | he
    · rw [he]
      exact .of_eq rfl rfl rfl rfl
    · rw [he]
      exact .of_eq rfl rfl rfl rfl
  | startSignal => exact hsignal hl rfl rfl .inl
  | stopSignal => exact hsignal hl rfl rfl .inl
  | wakePersist callbacks _ hb => exact ⟨.inl, fun _ => rfl, fun _ => .inr ⟨hb, rfl⟩⟩
  | stopAsync callbacks _ _ hc =>
    refine ⟨.inl, id, fun h => .inl (h.imp_left fun hm => ?_)⟩
    rw [hc] at hm
    exact (List.mem_cons.mp hm).resolve_left nofun
  | _ => exact ha.elim

/-! ## Awake -/

/-- What is in the queue behind a drain is signalled, and a parked loop has persisted what it
held. -/
structure Awake (w : World) : Prop where
  live : Live w
  drained : w.persist = .persisting ∨ w.persist = .checking → w.ingress ≠ [] → Signalled w
  persisted : w.persist = .checking → w.held = []
  parked : ∀ deadline, w.persist = .waiting deadline →
    w.held = [] ∧ (w.ingress ≠ [] → w.wakePersist = true ∨ Signalled w)

/-- A drain that is cut at the batch size leaves events in the queue only behind a signal. -/
def Drains (w : World) (a : Action) : Prop :=
  a = .persistDrain → w.ingress ≠ [] → w.config.settings.persistBatchRows ≤ w.held.length →
    Signalled w

/-- No attempt to persist is paused. -/
def Succeeds (w : World) (a : Action) : Prop := a = .persistRound → w.persistHeld.1 ≠ .ok false

/-- An attempt that succeeds leaves nothing held. -/
theorem persistHeld_held (h : w.persistHeld.1 = .ok true) : w.persistHeld.2.held = [] := by
  unfold persistHeld at h ⊢
  split at h
  · next hnil =>
    rw [if_pos hnil]
    exact hnil
  · next hne =>
    rw [if_neg hne]
    dsimp only at h ⊢
    split at h
    · cases h
    · next hspace =>
      rw [if_neg hspace]
      unfold enqueueHeld at h ⊢
      split at h
      · next n v hv =>
        have hacts := Acts.readStats (v.heldPersisted w.freeSpace.2.spool.db)
        split at h
        · next s u hu =>
          rw [hu] at hacts
          obtain ⟨_, _, _, rfl⟩ := hacts.world
          rfl
        · cases h
      · split at h
        · cases h
        · split at h <;> cases h

namespace Awake

/-- A new process has no event and owes no wakeup. -/
theorem boot (config : Config) (env : Env) (db : Database) (history : List Obs) :
    Awake (.boot config env db history) where
  live := ⟨by simp [World.boot, tasksRun], nofun⟩
  drained := by simp [World.boot]
  persisted := nofun
  parked := nofun

/-- A step that leaves the persist loop where it stands, or ends it. -/
theorem of_unpersisted (h : Awake w) (hu : Unpersisted w w') : Awake w' := by
  have hsignalled : Signalled w → Signalled w' := by
    unfold Signalled
    rw [hu.signals.2.1, hu.signals.2.2]
    exact id
  have hover : ∀ {p : PersistPc}, w'.persist = p → ¬ p.IsOver → w.persist = p := fun hp hn =>
    (hu.persist.resolve_right fun ho => hn (hp ▸ ho)).symm.trans hp
  refine ⟨hu.live h.live, fun hp hi => ?_, fun hp => ?_, fun deadline hp => ?_⟩
  · exact hsignalled (h.drained (hp.imp (hover · id) (hover · id)) (hu.queue.1 ▸ hi))
  · exact hu.queue.2.trans (h.persisted (hover hp id))
  · obtain ⟨hheld, hparked⟩ := h.parked deadline (hover hp id)
    refine ⟨hu.queue.2.trans hheld, fun hi => ?_⟩
    exact (hparked (hu.queue.1 ▸ hi)).imp hu.signals.1.trans hsignalled

/-- A step of a caller, or a callback. -/
theorem of_outside (h : Awake w) (ho : Outside w w')
    (hs : w.loopRunning = true → Signals w w') : Awake w' := by
  obtain ⟨hpersist, hheld, hmain, hloop⟩ : w'.persist = w.persist ∧ w'.held = w.held ∧
      w'.main = w.main ∧ w'.loopRunning = w.loopRunning := by
    obtain ⟨_, _, _, _, _, _, _, _, _, _, _, _, _, _, _, rfl⟩ := ho.world
    exact ⟨rfl, rfl, rfl, rfl⟩
  have htasks : w'.tasksRun = w.tasksRun := by
    unfold tasksRun
    rw [hmain]
  have hrunning : w.persist.IsLive → w.loopRunning = true := fun hl =>
    h.live.tasks (.inl (h.live.live hl))
  refine ⟨⟨?_, ?_⟩, fun hp hi => ?_, fun hp => ?_, fun deadline hp => ?_⟩
  · rw [htasks, hmain, hloop]
    exact h.live.tasks
  · rw [htasks, hpersist]
    exact h.live.live
  · rw [hpersist] at hp
    have hsig := hs (hrunning (by rcases hp with hp | hp <;> rw [hp] <;> trivial))
    rcases hsig.ingress hi with hi | hi
    · -- callbacks do not run now
      have hbusy : w.busy = true := by rcases hp with hp | hp <;> simp [busy, hp]
      refine (hsig.signalled (h.drained hp hi)).resolve_right fun hn => ?_
      cases hbusy.symm.trans hn.1
    · exact hi
  · exact hheld.trans (h.persisted (hpersist ▸ hp))
  · rw [hpersist] at hp
    have hsig := hs (hrunning (by rw [hp]; trivial))
    obtain ⟨hempty, hparked⟩ := h.parked deadline hp
    refine ⟨hheld.trans hempty, fun hi => ?_⟩
    rcases hsig.ingress hi with hi | hi
    · rcases hparked hi with hw | hw
      · exact .inl (hsig.wake hw)
      · exact (hsig.signalled hw).symm.imp_left And.right
    · exact .inr hi

/-- **Every step that cuts no drain and pauses no attempt leaves the persist loop awake.** -/
theorem step (hp : Placed w) (h : Awake w) (hg : Drains w a ∧ Succeeds w a)
    (hs : step w a = some w') : Awake w' := by
  have ht := Taken.of_step hs
  by_cases hout : a.IsOutside
  · exact h.of_outside (ht.outside hout) (Signals.of_taken ht hout)
  by_cases hr : a.isRestart = true
  · cases ht with
    | restart => exact boot _ _ _ _
    | _ => cases hr
  by_cases hn : a.IsPersist
  · cases ht with
    | persistRun hrun => exact ⟨⟨h.live.tasks, fun _ => hrun⟩, nofun, nofun, nofun⟩
    | persistWake => exact ⟨⟨h.live.tasks, nofun⟩, nofun, nofun, nofun⟩
    | persistDrain hd =>
      have hrun : w.tasksRun = true := h.live.live (hd ▸ trivial)
      have hcut := hg.1 rfl
      unfold persistDrain
      split
      · next event ingress hi =>
        split
        · refine ⟨⟨h.live.tasks, fun _ => hrun⟩, fun hp => ?_, fun hp => ?_, fun _ hp => ?_⟩
          · rcases hp with hp | hp <;> cases hd.symm.trans hp
          · cases hd.symm.trans hp
          · cases hd.symm.trans hp
        · next hfull =>
          exact ⟨⟨h.live.tasks, fun _ => hrun⟩, fun _ _ => hcut (by simp [hi]) (by omega), nofun,
            nofun⟩
      · next hi =>
        refine ⟨⟨h.live.tasks, fun _ => hrun⟩, fun _ hne => ?_, nofun, nofun⟩
        exact absurd hi hne
    | persistRound hd =>
      have hrun : w.tasksRun = true := h.live.live (hd ▸ trivial)
      have hdrained := h.drained (.inl hd)
      have hframe := (Persists.persistHeld w).frame.1
      have hempty := persistHeld_held (w := w)
      have hok := hg.2 rfl
      unfold persistRound
      generalize w.persistHeld = r at hframe hempty hok ⊢
      obtain ⟨res, u⟩ := r
      obtain ⟨spool, shared, history, held, rfl⟩ := hframe
      cases res with
      | error e => exact ⟨⟨h.live.tasks, nofun⟩, nofun, nofun, nofun⟩
      | ok persisted =>
        have hheld : held = [] := hempty (by
          cases persisted with
          | true => rfl
          | false => exact absurd rfl hok)
        subst hheld
        dsimp only
        have hacts := Acts.readStats { w with spool, shared, history, held := [] }
        split
        · next e v hv =>
          rw [hv] at hacts
          obtain ⟨_, _, _, rfl⟩ := hacts.world
          exact ⟨⟨h.live.tasks, nofun⟩, nofun, nofun, nofun⟩
        · next stats v hv =>
          rw [hv] at hacts
          obtain ⟨_, _, _, rfl⟩ := hacts.world
          exact ⟨⟨h.live.tasks, fun _ => hrun⟩, fun _ => hdrained, fun _ => rfl, nofun⟩
    | persistCheck hd =>
      have hrun : w.tasksRun = true := h.live.live (hd ▸ trivial)
      have hheld := h.persisted hd
      have hdrained := h.drained (.inr hd)
      unfold persistCheck
      dsimp only
      split
      · split
        · exact ⟨⟨h.live.tasks, nofun⟩, nofun, nofun, nofun⟩
        · split
          · exact ⟨⟨h.live.tasks, fun _ => hrun⟩, nofun, nofun, nofun⟩
          · split
            · exact ⟨⟨h.live.tasks, nofun⟩, nofun, nofun, nofun⟩
            · exact ⟨⟨h.live.tasks, fun _ => hrun⟩, nofun, nofun, nofun⟩
      · exact ⟨⟨h.live.tasks, fun _ => hrun⟩, nofun, nofun,
          fun _ _ => ⟨hheld, fun hi => .inr (hdrained hi)⟩⟩
    | _ => exact hn.elim
  · exact h.of_unpersisted (.of_taken hp ht hout hn hr)

end Awake

end

/-- **No wake-up is lost**: in every run in which no drain is cut while nothing is left to wake the
loop, and no attempt to persist is paused, a loop that is parked with its event clear and no signal
outstanding has nothing in its queue and nothing in its buffer. -/
theorem parked_empty (config : Config) (env : Env) (db : Database) (history : List Obs)
    (w : World) (deadline : ℚ)
    (hrun : Steps step (fun v a => Drains v a ∧ Succeeds v a) (.boot config env db history) w)
    (hparked : w.persist = .waiting deadline) (hwake : w.wakePersist = false)
    (hcallbacks : .wakePersist ∉ w.callbacks) (hsignals : w.submitSignals = 0) :
    w.ingress = [] ∧ w.held = [] := by
  have hinv : Placed w ∧ Awake w := by
    refine hrun.invariant (I := fun w => Placed w ∧ Awake w) ⟨.boot .., .boot ..⟩ ?_
    rintro u a v ⟨hp, h⟩ hg hs
    exact ⟨hp.step hs, h.step hp hg hs⟩
  obtain ⟨hheld, hqueue⟩ := hinv.2.parked deadline hparked
  refine ⟨?_, hheld⟩
  by_contra hne
  rcases hqueue hne with h | h | h
  · cases hwake.symm.trans h
  · exact hcallbacks h
  · omega

/-- One event is submitted, signalled and persisted, and the loop parks. -/
def parkedOnce : List Action :=
  [.startCall, .threadOpen none, .threadStartup, .threadAnnounce, .mainPublish, .mainTest,
    .submit lightEvent, .submitSignal, .callback, .persistRun, .persistDrain, .persistDrain,
    .persistRound, .persistCheck]

/-- The parked loop has nothing left. -/
theorem parkedOnce_empty : ∃ w : World,
    exec step parkedOnce (.boot .provisional .quiet .fresh []) = some w ∧
      w.shared.counters.persistedEvents = 1 ∧ w.persist = .waiting 1 ∧
      w.ingress = [] ∧ w.held = [] := by
  let guarded : World → Action → Bool
    | w, .persistDrain =>
      decide (w.ingress = [] ∨ w.held.length < w.config.settings.persistBatchRows)
    | w, .persistRound => decide (w.persistHeld.1 ≠ .ok false)
    | _, _ => true
  have hguarded : ∀ w a, guarded w a = true → Drains w a ∧ Succeeds w a := by
    intro w a hw
    refine ⟨?_, ?_⟩
    · rintro rfl hne hfull
      rcases (of_decide_eq_true hw : _ ∨ _) with h | h
      · exact absurd h hne
      · omega
    · rintro rfl
      exact of_decide_eq_true hw
  have hrun : ((execIn step guarded parkedOnce (.boot .provisional .quiet .fresh [])).any fun w =>
      decide (w.shared.counters.persistedEvents = 1 ∧ w.persist = .waiting 1 ∧
        w.wakePersist = false ∧ .wakePersist ∉ w.callbacks ∧ w.submitSignals = 0)) = true := by
    decide +kernel
  obtain ⟨w, hw, hend⟩ := (Option.any_eq_true _ _).mp hrun
  obtain ⟨hpersisted, hparked, hwake, hcallbacks, hsignals⟩ := of_decide_eq_true hend
  refine ⟨w, exec_of_execIn (Option.mem_def.mp hw), hpersisted, hparked, ?_⟩
  exact parked_empty _ _ _ _ w 1 (.of_execIn hguarded (Option.mem_def.mp hw)) hparked hwake
    hcallbacks hsignals

/-- The development profile with batches of one event. -/
def singleProfile : Config :=
  { Config.provisional with
    settings := { WorkerSettings.provisional with
      persistBatchRows := 1, persistBatchRows_pos := Nat.one_pos } }

/-- Two events are submitted and signalled before the loop takes its first turn. -/
def parkedBurst : List Action :=
  [.startCall, .threadOpen none, .threadStartup, .threadAnnounce, .mainPublish, .mainTest,
    .submit lightEvent, .submitSignal, .submit lightEvent, .submitSignal, .callback, .callback,
    .persistRun, .persistDrain, .persistDrain, .persistRound, .persistCheck]

/-- **A burst loses its wake-up**: the parked loop has left an event in the queue, and nothing is
outstanding to wake it, although no signal was dropped and every attempt to persist succeeded. -/
theorem parked_behind : ¬ ∀ (config : Config) (env : Env) (db : Database) (history : List Obs)
    (w : World) (deadline : ℚ),
      Steps step (fun v a => (a = .submitSignal → v.loopRunning = true) ∧ Succeeds v a)
        (.boot config env db history) w →
      w.persist = .waiting deadline → w.wakePersist = false → .wakePersist ∉ w.callbacks →
      w.submitSignals = 0 → w.ingress = [] ∧ w.held = [] := by
  intro h
  let kept : World → Action → Bool
    | w, .submitSignal => w.loopRunning
    | w, .persistRound => decide (w.persistHeld.1 ≠ .ok false)
    | _, _ => true
  have hkept : ∀ w a, kept w a = true →
      (a = .submitSignal → w.loopRunning = true) ∧ Succeeds w a := by
    intro w a hw
    refine ⟨?_, ?_⟩
    · rintro rfl
      exact hw
    · rintro rfl
      exact of_decide_eq_true hw
  have hrun : ((execIn step kept parkedBurst (.boot singleProfile .quiet .fresh [])).any fun w =>
      decide (w.persist = .waiting 1 ∧ w.wakePersist = false ∧ .wakePersist ∉ w.callbacks ∧
        w.submitSignals = 0 ∧ w.ingress ≠ [])) = true := by
    decide +kernel
  obtain ⟨w, hw, hend⟩ := (Option.any_eq_true _ _).mp hrun
  obtain ⟨hparked, hwake, hcallbacks, hsignals, hleft⟩ := of_decide_eq_true hend
  exact hleft (h _ _ _ _ w 1 (.of_execIn hkept (Option.mem_def.mp hw)) hparked hwake hcallbacks
    hsignals).1

end World

end QuestDbWriter
