import QuestDbWriter.Worker.Sides
import QuestDbWriter.Lib.Transition

/-!
# The end of a service

`stop()` decides by a thread that it reads outside the lock. Where it read none, although `start()`
has published one when it takes its lock block, it returns `True` and the thread goes on
(`stop_uninformed`); in every other run a `stop()` that returned `True` leaves no thread behind
(`stopped_gone`). And where the thread it read is still closing its resources, it announces a stop
to a service that has ended (`stop_overwrites`); in every other run `FAILED` and `STOPPED` stay
(`terminal_absorbing`).
-/

namespace QuestDbWriter

open Lib

/-- `FAILED` and `STOPPED`. -/
def WorkerState.IsTerminal (s : WorkerState) : Prop := s = .failed ∨ s = .stopped

instance (s : WorkerState) : Decidable s.IsTerminal := inferInstanceAs (Decidable (_ ∨ _))

/-- The thread is between its startup lock block and its last one. -/
def ThreadPc.IsUp : ThreadPc → Prop
  | .announcing | .looping | .raising _ | .closing _ | .exiting _ _ => True
  | _ => False

namespace World

/-! ## The thread is gone -/

/-- The thread has died, or has never been and will not be. -/
def Gone (w : World) : Prop := w.thread = .dead ∨ w.thread = .absent ∧ w.shared.state ≠ .new

/-- A thread that is gone is not alive. -/
theorem Gone.not_alive {w : World} (h : Gone w) : w.threadAlive = false := by
  unfold threadAlive
  rcases h with h | ⟨h, -⟩ <;> rw [h]

/-- A stop is uninformed where it read no thread, and takes its lock block while one is alive. -/
def Informed (w : World) (a : Action) : Prop :=
  ∀ i timeout, a = .stopLock i → w.stops[i]? = some (.locking false timeout) →
    w.threadAlive = false

/-- Events are accepted only while the thread is up; a call of `stop()` that is behind its lock
block has found a thread, and one that returned `True` has left none behind. -/
structure Attended (w : World) : Prop where
  accepting : w.shared.accepting = true → w.thread.IsUp
  behind : ∀ pc ∈ w.stops, pc.IsBehind → w.thread ≠ .absent
  returned : .returned true ∈ w.stops → Gone w

section
variable {w w' : World} {a : Action}

/-- No thread comes back, and events stay refused. -/
theorem Gone.step (hp : Placed w) (h : Gone w) (hr : ¬ a.isRestart) (hs : step w a = some w') :
    Gone w' ∧ (w'.shared.accepting = true → w.shared.accepting = true) := by
  have ht := Taken.of_step hs
  rcases a.sides with ha | ha | ha
  · have ho := ht.outside ha
    refine ⟨?_, ho.accepting⟩
    unfold Gone
    rw [ho.thread, ho.state]
    exact h
  · have hi := ht.inside hp ha
    have hl : w.thread ≠ .looping := by
      rcases h with h | ⟨h, -⟩ <;> simp [h]
    have hthread := hi.thread.resolve_right fun hn => hl hn.1
    have hstate := hi.state.resolve_right fun hn => hl hn.1
    refine ⟨?_, hi.accepting⟩
    unfold Gone
    rw [hthread, hstate]
    exact h
  cases ht with
  | restart => exact absurd rfl hr
  | environment => exact ⟨h, id⟩
  | startCall =>
    unfold startCall
    split
    · next hn =>
      rcases h with h | ⟨-, h⟩
      · cases h.symm.trans (hp.fresh hn)
      · exact absurd hn h
    · exact ⟨h, id⟩
  | stopLock i seen timeout =>
    obtain ⟨pc, state, deadline, he, hcase⟩ := stopLock_eq w i seen timeout
    rw [he]
    refine ⟨h.imp_right fun hn => ⟨hn.1, ?_⟩, nofun⟩
    rcases hcase with ⟨-, hst, -⟩ | ⟨hne, hst, -⟩ | ⟨hst, -⟩
    · exact hst ▸ nofun
    · exact hst ▸ hne
    · exact hst ▸ nofun
  | threadOpen _ ht | threadStartup ht | threadAnnounce ht | threadFail _ ht | threadClose _ _ ht
  | threadExit _ _ ht | threadDie ht =>
    rcases h with h | ⟨h, -⟩ <;> cases ht.symm.trans h
  | _ => exact ha.elim

/-- A thread that was there and is not alive is gone. -/
theorem Gone.of_not_alive (h : w.threadAlive = false) (hne : w.thread ≠ .absent) : Gone w := by
  unfold threadAlive at h
  split at h
  · next he => exact absurd he hne
  · next he => exact .inl he
  · cases h

namespace Attended

/-- A new process has no thread. -/
theorem boot (config : Config) (env : Env) (db : Database) (history : List Obs) :
    Attended (.boot config env db history) where
  accepting := nofun
  behind := by simp [World.boot]
  returned := by simp [World.boot]

/-- A step of the thread behind which it is up, or events are refused. -/
theorem of_thread (h : Attended w) (hne : w.thread ≠ .dead) (hw : w.thread ≠ .absent)
    (hw' : w'.thread ≠ .absent) (hstops : w'.stops = w.stops)
    (hacc : w'.shared.accepting = true → w'.thread.IsUp) : Attended w' := by
  refine ⟨hacc, fun _ _ _ => hw', fun hm => ?_⟩
  rcases h.returned (hstops ▸ hm) with hd | ⟨habs, -⟩
  · exact absurd hd hne
  · exact absurd habs hw

/-- **Every informed step attends to the thread.** -/
theorem step (hp : Placed w) (h : Attended w) (hg : Informed w a)
    (hs : step w a = some w') : Attended w' := by
  have hgone : Gone w → ¬ a.isRestart → Gone w' := fun hg hr => (hg.step hp hr hs).1
  have ht := Taken.of_step hs
  rcases a.sides with ha | ha | ha
  · have ho := ht.outside ha
    have hthread := ho.thread
    refine ⟨fun hacc => hthread ▸ h.accepting (ho.accepting hacc), fun pc hm hb => ?_, fun hm => ?_⟩
    · rw [hthread]
      rcases ho.stops pc hm with hm | ⟨_, _, rfl⟩ | ⟨⟨q, hq, hb⟩, -⟩
      · exact h.behind pc hm hb
      · exact hb.elim
      · exact h.behind q hq hb
    · refine hgone ?_ ha.not_restart
      rcases ho.stops _ hm with hm | ⟨_, _, hpc⟩ | ⟨⟨q, hq, hb⟩, hdead⟩
      · exact h.returned hm
      · cases hpc
      · exact .of_not_alive (hdead rfl) (h.behind q hq hb)
  · have hi := ht.inside hp ha
    have hstops := hi.callers.2.1
    rcases hi.thread with hthread | ⟨hl, hthread⟩
    · refine ⟨fun hacc => hthread ▸ h.accepting (hi.accepting hacc), fun pc hm hb => ?_,
        fun hm => ?_⟩
      · exact hthread ▸ h.behind pc (hstops ▸ hm) hb
      · exact hgone (h.returned (hstops ▸ hm)) ha.not_restart
    · refine h.of_thread (by simp [hl]) (by simp [hl]) ?_ hstops fun _ => ?_
      · rcases hthread with ⟨e, he⟩ | he <;> simp [he]
      · rcases hthread with ⟨e, he⟩ | he <;> rw [he] <;> trivial
  cases ht with
  | restart => exact boot _ _ _ _
  | environment => exact ⟨h.accepting, h.behind, h.returned⟩
  | startCall =>
    unfold startCall
    split
    · next hn =>
      have habs := hp.fresh hn
      refine ⟨fun hacc => ?_, fun _ _ _ => nofun, fun hm => ?_⟩
      · have := h.accepting hacc
        rw [habs] at this
        exact this.elim
      · rcases h.returned hm with hd | ⟨-, hne⟩
        · cases hd.symm.trans habs
        · exact absurd hn hne
    · exact ⟨h.accepting, h.behind, h.returned⟩
  | stopLock i seen timeout hi =>
    obtain ⟨pc, state, deadline, he, hcase⟩ := stopLock_eq w i seen timeout
    rw [he]
    refine ⟨nofun, fun q hm hb => ?_, fun hm => ?_⟩
    · rcases List.mem_or_eq_of_mem_set hm with hm | rfl
      · exact h.behind q hm hb
      · rcases hcase with ⟨-, -, hpc⟩ | ⟨-, -, hpc, -⟩ | ⟨-, -, -, halive⟩
        · rw [hpc] at hb
          exact hb.elim
        · rw [hpc] at hb
          exact hb.elim
        · intro habs
          change w.thread = .absent at habs
          simp [threadAlive, habs] at halive
    · rcases List.mem_or_eq_of_mem_set hm with hm | hpc
      · exact he ▸ hgone (h.returned hm) nofun
      · rcases hcase with ⟨hn, hst, -⟩ | ⟨hn, hst, -, hgone⟩ | ⟨-, hset, -⟩
        · exact .inr ⟨hp.fresh hn, hst ▸ nofun⟩
        · -- an uninformed call is excluded, so the thread that it read is not alive
          have halive : w.threadAlive = false :=
            hgone.elim (fun hs => hg i timeout rfl (hs ▸ hi)) id
          by_cases habs : w.thread = .absent
          · exact .inr ⟨habs, hst ▸ hn⟩
          · exact (Gone.of_not_alive halive habs).imp_right fun hr => absurd hr.1 habs
        · cases hpc.trans hset
  | threadOpen factoryError ht =>
    obtain ⟨u, thread, hacts, he, hopen⟩ := threadOpen_eq w factoryError
    have hk := hacts.shared
    obtain ⟨spool, shared, history, rfl⟩ := hacts.world
    rw [he]
    refine h.of_thread (by simp [ht]) (by simp [ht]) ?_ rfl fun hacc => ?_
    · rcases hopen with rfl | ⟨e, rfl⟩ <;> exact nofun
    · have := h.accepting (hk.accepting ▸ hacc)
      rw [ht] at this
      exact this.elim
  | threadStartup ht => exact h.of_thread (by simp [ht]) (by simp [ht]) nofun rfl fun _ => trivial
  | threadAnnounce ht => exact h.of_thread (by simp [ht]) (by simp [ht]) nofun rfl fun _ => trivial
  | threadFail e ht => exact h.of_thread (by simp [ht]) (by simp [ht]) nofun rfl nofun
  | threadClose failed cleanup ht =>
    exact h.of_thread (by simp [ht]) (by simp [ht]) nofun rfl fun _ => trivial
  | threadExit failed cleanup ht =>
    refine h.of_thread (by simp [ht]) (by simp [ht]) nofun rfl fun hacc => ?_
    unfold threadExit withShared at hacc
    dsimp only at hacc
    split at hacc
    · cases hacc
    · split at hacc <;> cases hacc
  | threadDie ht =>
    refine ⟨fun hacc => ?_, fun _ _ _ => nofun, fun _ => .inl rfl⟩
    have := h.accepting hacc
    rw [ht] at this
    exact this.elim
  | _ => exact ha.elim

end Attended

end

/-- **A `stop()` that returned `True` leaves no thread behind**: in every run whose calls of
`stop()` are informed, from then on no thread is alive, none begins, and no event is accepted. -/
theorem stopped_gone (config : Config) (env : Env) (db : Database) (history : List Obs)
    (w w' : World) (hrun : Steps step Informed (.boot config env db history) w)
    (hstop : .returned true ∈ w.stops)
    (hlater : Steps step (fun _ a => ¬ a.isRestart) w w') :
    w'.threadAlive = false ∧ w'.shared.accepting = false := by
  have hinv : Placed w ∧ Attended w := by
    refine hrun.invariant (I := fun w => Placed w ∧ Attended w) ⟨.boot .., .boot ..⟩ ?_
    rintro u a v ⟨hp, ha⟩ hg hs
    exact ⟨hp.step hs, ha.step hp hg hs⟩
  obtain ⟨hp, ha⟩ := hinv
  have hgone := ha.returned hstop
  have hrefused : w.shared.accepting ≠ true := fun hacc => by
    have := ha.accepting hacc
    rcases hgone with hd | ⟨habs, -⟩
    · exact (hd ▸ this).elim
    · exact (habs ▸ this).elim
  have hend : Placed w' ∧ Gone w' ∧ w'.shared.accepting ≠ true := by
    refine hlater.invariant (I := fun w => Placed w ∧ Gone w ∧ w.shared.accepting ≠ true)
      ⟨hp, hgone, hrefused⟩ ?_
    rintro u a v ⟨hp, hg, hacc⟩ hr hs
    obtain ⟨hg', hkept⟩ := hg.step hp hr hs
    exact ⟨hp.step hs, hg', fun hv => hacc (hkept hv)⟩
  exact ⟨hend.2.1.not_alive, Bool.eq_false_iff.mpr hend.2.2⟩

/-- A stop that is called on a running service and waits for its thread. -/
def awaitedStop : List Action :=
  [.startCall, .threadOpen none, .threadStartup, .threadAnnounce, .stopCall 1, .stopLock 0,
    .stopSet 0, .mainPublish, .stopSignal 0, .mainTest, .persistRun, .persistDrain, .persistRound,
    .persistCheck, .mainStop, .mainPersistDone, .threadClose none, .threadExit, .threadDie,
    .stopReturn 0]

/-- The check of `Informed`. -/
def isInformed (w : World) : Action → Bool
  | .stopLock i =>
    match w.stops[i]? with
    | some (.locking false _) => !w.threadAlive
    | _ => true
  | _ => true

/-- The check of an action is its condition. -/
theorem informed_of (w : World) (a : Action) (h : isInformed w a = true) : Informed w a := by
  rintro i timeout rfl hi
  simpa [isInformed, hi] using h

/-- The awaited stop returns `True`, and refuses an event that comes behind it. -/
theorem awaitedStop_gone : ∃ w w' : World,
    exec step awaitedStop (.boot .provisional .quiet .fresh []) = some w ∧
      step w (.submit lightEvent) = some w' ∧ .returned true ∈ w.stops ∧
      w'.threadAlive = false ∧ w'.shared.accepting = false := by
  have hrun : ((execIn step isInformed awaitedStop (.boot .provisional .quiet .fresh [])).any fun w =>
      decide (.returned true ∈ w.stops)) = true := by
    decide +kernel
  obtain ⟨w, hw, hend⟩ := (Option.any_eq_true _ _).mp hrun
  have hstop : .returned true ∈ w.stops := of_decide_eq_true hend
  refine ⟨w, w.submit lightEvent, exec_of_execIn (Option.mem_def.mp hw), rfl, hstop, ?_⟩
  have hlater : ¬ (Action.submit lightEvent).isRestart := Bool.false_ne_true
  exact stopped_gone _ _ _ _ w _ (.of_execIn informed_of (Option.mem_def.mp hw)) hstop
    (.tail (.submit lightEvent) .refl hlater rfl)

/-- A stop that reads no thread just before `start()` publishes one, and takes its lock block
behind it. -/
def uninformedStop : List Action :=
  [.stopCall 1, .startCall, .stopLock 0, .threadOpen none, .threadStartup, .threadAnnounce,
    .startReady]

/-- **Not every stop that returned `True` leaves no thread behind**: behind an uninformed one the
service starts, and accepts events. -/
theorem stop_uninformed : ¬ ∀ (config : Config) (env : Env) (db : Database) (history : List Obs)
    (w w' : World), Steps step (fun _ _ => True) (.boot config env db history) w →
      .returned true ∈ w.stops → Steps step (fun _ a => ¬ a.isRestart) w w' →
      w'.threadAlive = false ∧ w'.shared.accepting = false := by
  intro h
  have hrun : ((exec step uninformedStop (.boot .provisional .quiet .fresh [])).any fun w =>
      decide (.returned true ∈ w.stops ∧ w.threadAlive = true ∧ w.shared.accepting = true)) =
        true := by
    decide +kernel
  obtain ⟨w, hw, hend⟩ := (Option.any_eq_true _ _).mp hrun
  obtain ⟨hstop, halive, -⟩ := of_decide_eq_true hend
  have hgone := (h _ _ _ _ w w (Steps.of_exec (Option.mem_def.mp hw)) hstop .refl).1
  cases halive.symm.trans hgone

/-! ## Terminal states -/

/-- The state `FAILED` comes with the end of the thread, and `STOPPED` behind it. -/
structure Ending (w : World) : Prop where
  failed : w.shared.state = .failed →
    w.thread = .closing true ∨ (∃ cleanup, w.thread = .exiting true cleanup) ∨
      w.thread = .ended ∨ w.thread = .dead
  stopped : w.shared.state = .stopped → w.thread = .absent ∨ w.thread = .ended ∨ w.thread = .dead

/-- A stop spares an ended service unless it takes its lock block while the thread that it read is
still alive. -/
def Spared (w : World) (a : Action) : Prop :=
  ∀ i timeout, a = .stopLock i → w.stops[i]? = some (.locking true timeout) →
    w.shared.state.IsTerminal → w.threadAlive = false

section
variable {w w' : World} {a : Action}

namespace Ending

theorem boot (config : Config) (env : Env) (db : Database) (history : List Obs) :
    Ending (.boot config env db history) where
  failed := nofun
  stopped := nofun

/-- A step that leaves the state and the thread. -/
theorem of_eq (h : Ending w) (ht : w'.thread = w.thread)
    (hs : w'.shared.state = w.shared.state) : Ending w' := by
  constructor
  · rw [ht, hs]
    exact h.failed
  · rw [ht, hs]
    exact h.stopped

/-- A step behind which the service has not ended. -/
theorem of_working (hs : ¬ w'.shared.state.IsTerminal) : Ending w' :=
  ⟨fun hf => absurd (.inl hf) hs, fun hf => absurd (.inr hf) hs⟩

/-- The service has not ended while its thread works. -/
theorem working (h : Ending w) (hl : w.thread = .opening ∨ w.thread = .opened ∨
    w.thread = .announcing ∨ w.thread = .looping ∨ (∃ e, w.thread = .raising e) ∨
    w.thread = .closing false ∨ ∃ cleanup, w.thread = .exiting false cleanup) :
    ¬ w.shared.state.IsTerminal := by
  rintro (hf | hf)
  · have := h.failed hf
    rcases hl with hl | hl | hl | hl | ⟨e, hl⟩ | hl | ⟨c, hl⟩ <;> simp [hl] at this
  · have := h.stopped hf
    rcases hl with hl | hl | hl | hl | ⟨e, hl⟩ | hl | ⟨c, hl⟩ <;> simp [hl] at this

/-- Every step leaves the service ended or at work. -/
theorem step (hp : Placed w) (h : Ending w) (hs : step w a = some w') : Ending w' := by
  have ht := Taken.of_step hs
  rcases a.sides with ha | ha | ha
  · have ho := ht.outside ha
    exact h.of_eq ho.thread ho.state
  · have hi := ht.inside hp ha
    by_cases hl : w.thread = .looping
    · have hw := h.working (.inr (.inr (.inr (.inl hl))))
      refine of_working ?_
      rcases hi.state with he | ⟨-, he | ⟨-, -, he⟩⟩
      · exact he ▸ hw
      · simp [he, WorkerState.IsTerminal]
      · rintro (hf | hf)
        · exact (hf ▸ he).elim
        · exact (hf ▸ he).elim
    · exact h.of_eq (hi.thread.resolve_right fun hn => hl hn.1)
        (hi.state.resolve_right fun hn => hl hn.1)
  cases ht with
  | restart => exact boot _ _ _ _
  | environment => exact h.of_eq rfl rfl
  | startCall =>
    unfold startCall
    split
    · exact of_working (by simp [withShared, WorkerState.IsTerminal])
    · exact h.of_eq rfl rfl
  | stopLock i seen timeout =>
    obtain ⟨pc, state, deadline, he, hcase⟩ := stopLock_eq w i seen timeout
    rw [he]
    rcases hcase with ⟨hn, hst, -⟩ | ⟨-, hst, -⟩ | ⟨hst, -⟩
    · exact ⟨fun hf => (nomatch hst.symm.trans hf), fun _ => .inl (hp.fresh hn)⟩
    · exact h.of_eq rfl hst
    · exact of_working (by simp [withShared, hst, WorkerState.IsTerminal])
  | threadOpen factoryError ht =>
    obtain ⟨u, thread, hacts, he, -⟩ := threadOpen_eq w factoryError
    have hstate := hacts.shared.state
    rw [he]
    refine of_working ?_
    have hw := h.working (.inl ht)
    change ¬ u.shared.state.IsTerminal
    rcases hstate with he | ⟨-, -, hd⟩
    · exact he ▸ hw
    · rintro (hf | hf)
      · exact (hf ▸ hd).elim
      · exact (hf ▸ hd).elim
  | threadStartup =>
    refine of_working ?_
    unfold threadStartup withShared
    dsimp only
    split <;> simp [WorkerState.IsTerminal]
  | threadAnnounce ht => exact of_working (h.working (.inr (.inr (.inl ht))))
  | threadFail e => exact ⟨fun _ => .inl rfl, nofun⟩
  | threadClose failed cleanup ht =>
    cases failed with
    | true =>
      refine ⟨fun _ => .inr (.inl ⟨cleanup, rfl⟩), fun hf => ?_⟩
      have := h.stopped hf
      simp [ht] at this
    | false => exact of_working (h.working (by simp [ht]))
  | threadExit failed cleanup ht =>
    exact ⟨fun _ => .inr (.inr (.inl rfl)), fun _ => .inr (.inl rfl)⟩
  | threadDie ht => exact ⟨fun _ => .inr (.inr (.inr rfl)), fun _ => .inr (.inr rfl)⟩
  | _ => exact ha.elim

/-- **No step that spares an ended service changes its state.** -/
theorem keeps (hp : Placed w) (h : Ending w) (hend : w.shared.state.IsTerminal) (hg : Spared w a)
    (hr : ¬ a.isRestart) (hs : QuestDbWriter.step w a = some w') :
    w'.shared.state = w.shared.state := by
  have ht := Taken.of_step hs
  rcases a.sides with ha | ha | ha
  · exact (ht.outside ha).state
  · refine (ht.inside hp ha).state.resolve_right fun hn => ?_
    exact h.working (.inr (.inr (.inr (.inl hn.1)))) hend
  cases ht with
  | restart => exact absurd rfl hr
  | startCall =>
    unfold startCall
    split
    · next hn => rcases hend with hf | hf <;> cases hn.symm.trans hf
    · rfl
  | stopLock i seen timeout hi =>
    obtain ⟨pc, state, deadline, he, hcase⟩ := stopLock_eq w i seen timeout
    rw [he]
    rcases hcase with ⟨hn, -, -⟩ | ⟨-, hst, -⟩ | ⟨-, -, hseen, halive⟩
    · rcases hend with hf | hf <;> cases hn.symm.trans hf
    · exact hst
    · have := hg i timeout rfl (hseen ▸ hi) hend
      cases halive.symm.trans this
  | threadOpen _ ht => exact absurd hend (h.working (.inl ht))
  | threadStartup ht => exact absurd hend (h.working (.inr (.inl ht)))
  | threadFail e ht => exact absurd hend (h.working (by simp [ht]))
  | environment | threadAnnounce | threadClose | threadDie => rfl
  | threadExit failed cleanup ht =>
    cases failed with
    | true => rfl
    | false => exact absurd hend (h.working (by simp [ht]))
  | _ => exact ha.elim

end Ending

end

/-- **`FAILED` and `STOPPED` stay** in every run of the process from there on in which no `stop()`
takes its lock block while the thread that it read is still alive. -/
theorem terminal_absorbing (config : Config) (env : Env) (db : Database) (history : List Obs)
    (w w' : World) (hrun : Steps step (fun _ _ => True) (.boot config env db history) w)
    (hend : w.shared.state.IsTerminal)
    (hlater : Steps step (fun v a => Spared v a ∧ ¬ a.isRestart) w w') :
    w'.shared.state = w.shared.state := by
  have hinv : Placed w ∧ Ending w := by
    refine hrun.invariant (I := fun w => Placed w ∧ Ending w) ⟨.boot .., .boot ..⟩ ?_
    rintro u a v ⟨hp, he⟩ - hs
    exact ⟨hp.step hs, he.step hp hs⟩
  have hkept : (Placed w' ∧ Ending w') ∧ w'.shared.state = w.shared.state := by
    refine hlater.invariant
      (I := fun v => (Placed v ∧ Ending v) ∧ v.shared.state = w.shared.state) ⟨hinv, rfl⟩ ?_
    rintro u a v ⟨⟨hp, he⟩, hst⟩ ⟨hg, hr⟩ hs
    exact ⟨⟨hp.step hs, he.step hp hs⟩, (he.keeps hp (hst ▸ hend) hg hr hs).trans hst⟩
  exact hkept.2

/-- A service whose spool factory raises: the thread has failed, and closes its resources. -/
def failedStart : List Action :=
  [.startCall, .threadOpen (some taskExited), .threadFail]

/-- The check of `Spared`, in one process. -/
def isSpared (w : World) : Action → Bool
  | .stopLock i =>
    match w.stops[i]? with
    | some (.locking true _) => !w.threadAlive
    | _ => true
  | .restart _ _ => false
  | _ => true

/-- The check of an action is its condition. -/
theorem spared_of (w : World) (a : Action) (h : isSpared w a = true) :
    Spared w a ∧ ¬ a.isRestart := by
  refine ⟨?_, ?_⟩
  · rintro i timeout rfl hi -
    simpa [isSpared, hi] using h
  · intro hr
    cases a with
    | restart => cases h
    | _ => cases hr

/-- The failed start stays `FAILED` through a stop behind the death of its thread. -/
theorem failedStart_failed : ∃ w w' : World,
    exec step failedStart (.boot .provisional .quiet .fresh []) = some w ∧
      exec step [.threadClose none, .threadExit, .threadDie, .stopCall 1, .stopLock 0] w = some w' ∧
      w.shared.state.IsTerminal ∧ w'.shared.state = w.shared.state := by
  have hrun : ((exec step failedStart (.boot .provisional .quiet .fresh [])).any fun w =>
      decide (w.shared.state.IsTerminal) && (execIn step isSpared
        [.threadClose none, .threadExit, .threadDie, .stopCall 1, .stopLock 0] w).isSome) =
        true := by
    decide +kernel
  obtain ⟨w, hw, hend⟩ := (Option.any_eq_true _ _).mp hrun
  obtain ⟨hterminal, hlater⟩ := (Bool.and_eq_true _ _ ▸ hend : _ ∧ _)
  obtain ⟨w', hw'⟩ := Option.isSome_iff_exists.mp hlater
  have hterminal : w.shared.state.IsTerminal := of_decide_eq_true hterminal
  refine ⟨w, w', hw, exec_of_execIn hw', hterminal, ?_⟩
  exact terminal_absorbing _ _ _ _ w w' (.of_exec hw) hterminal (.of_execIn spared_of hw')

/-- **A terminal state does not always stay**: a stop that comes while the thread is still closing
its resources replaces `FAILED` by `STOPPING`. -/
theorem stop_overwrites : ¬ ∀ (config : Config) (env : Env) (db : Database) (history : List Obs)
    (w w' : World), Steps step (fun _ _ => True) (.boot config env db history) w →
      w.shared.state.IsTerminal → Steps step (fun _ a => ¬ a.isRestart) w w' →
      w'.shared.state = w.shared.state := by
  intro h
  let living : World → Action → Bool := fun _ a => !a.isRestart
  have hrun : ((exec step failedStart (.boot .provisional .quiet .fresh [])).any fun w =>
      decide (w.shared.state = .failed) && (execIn step living [.stopCall 1, .stopLock 0] w).any
        fun w' => decide (w'.shared.state = .stopping)) = true := by
    decide +kernel
  obtain ⟨w, hw, hend⟩ := (Option.any_eq_true _ _).mp hrun
  obtain ⟨hfailed, hlater⟩ := (Bool.and_eq_true _ _ ▸ hend : _ ∧ _)
  have hfailed : w.shared.state = .failed := of_decide_eq_true hfailed
  obtain ⟨w', hw', hstopping⟩ := (Option.any_eq_true _ _).mp hlater
  have hliving : Steps step (fun _ a => ¬ a.isRestart) w w' :=
    .of_execIn (fun _ a ha => by simpa [living] using ha) hw'
  have hkept := h _ _ _ _ w w' (.of_exec hw) (.inl hfailed) hliving
  rw [of_decide_eq_true hstopping, hfailed] at hkept
  cases hkept

end World

end QuestDbWriter
