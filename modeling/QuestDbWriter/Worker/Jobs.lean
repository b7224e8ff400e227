import QuestDbWriter.Worker.StartTimeout
import QuestDbWriter.Lib.Lists

/-!
# Calls of the service in the executor

`start()` and `stop()` as Home Assistant runs them: each in a job of its own, to its end, while the
threads of the service go on. A `stop()` that is called behind the one `start()` and returns `True`
has joined the thread (`StopJob.joined`): the thread that it read cannot be missing, as no `start()`
follows.
-/

namespace QuestDbWriter

open Lib

namespace World

/-- `start()` is called, and has ended: it returned, or it raised. -/
def StartJob (w w' : World) (returns : Bool) : Prop :=
  ∃ u, step w .startCall = some u ∧ Steps step (fun _ a => ¬ a.isRestart) u w' ∧
    w'.start = if returns then .returned else .raised

/-- `stop()` is called, and has returned. -/
def StopJob (timeout : ℚ) (w w' : World) (gone : Bool) : Prop :=
  ∃ u v, Steps step (fun _ a => ¬ a.isRestart) w u ∧ step u (.stopCall timeout) = some v ∧
    Steps step (fun _ a => ¬ a.isRestart) v w' ∧
    w'.stops[u.stops.length]? = some (.returned gone)

/-- A call of `stop()` that read no thread finds none, and one that returned `True` leaves none. -/
def IsFair (w : World) : StopPc → Prop
  | .locking seen _ => seen = false → w.thread = .absent
  | .returned gone => gone = true → w.threadAlive = false
  | _ => True

/-- The service has been started, and every call of `stop()` from the `n`-th on is fair. -/
structure Joining (n : Nat) (w : World) : Prop where
  placed : Placed w
  started : w.start ≠ .idle
  fair : ∀ i pc, n ≤ i → w.stops[i]? = some pc → w.IsFair pc

section
variable {w w' : World} {a : Action} {n : Nat}

/-- A thread that is not alive does not come to life once the service has been started. -/
theorem thread_of_dead (hp : Placed w) (h : Taken w a w') (hr : ¬ a.isRestart)
    (hs : w.start ≠ .idle) (hdead : w.threadAlive = false) : w'.thread = w.thread := by
  have hpc : w.thread = .absent ∨ w.thread = .dead := by
    unfold threadAlive at hdead
    split at hdead
    · next he => exact .inl he
    · next he => exact .inr he
    · cases hdead
  rcases a.sides with ha | ha | ha
  · exact (h.outside ha).thread
  · refine (h.inside hp ha).thread.resolve_right fun hl => ?_
    rcases hpc with he | he <;> cases he.symm.trans hl.1
  cases h with
  | restart => exact absurd rfl hr
  | environment => rfl
  | startCall hidle => exact absurd hidle hs
  | stopLock i seen timeout =>
    obtain ⟨_, _, _, he, -⟩ := stopLock_eq w i seen timeout
    rw [he]
    rfl
  | threadOpen _ ht | threadStartup ht | threadAnnounce ht | threadFail _ ht | threadClose _ _ ht
  | threadExit _ _ ht | threadDie ht =>
    rcases hpc with he | he <;> cases ht.symm.trans he
  | _ => exact ha.elim

/-- What is fair stays so. -/
theorem IsFair.kept {pc : StopPc} (hf : w.IsFair pc) (hthread : w.threadAlive = false →
    w'.thread = w.thread) : w'.IsFair pc := by
  have halive : w.threadAlive = false → w'.threadAlive = false := by
    intro hdead
    unfold threadAlive at hdead ⊢
    rw [hthread hdead]
    exact hdead
  cases pc with
  | locking seen timeout =>
    intro hseen
    have habsent : w.thread = .absent := hf hseen
    exact (hthread (by simp [threadAlive, habsent])).trans habsent
  | returned gone => exact fun hgone => halive (hf hgone)
  | _ => trivial

/-- **Every step keeps the calls of `stop()` fair.** A call reads the thread when it begins, and
decides by it under the lock. -/
theorem Joining.stepped (h : Joining n w) (hr : ¬ a.isRestart) (hs : step w a = some w') :
    Joining n w' := by
  have ht := Taken.of_step hs
  have hthread := thread_of_dead h.placed ht hr h.started
  have hkept : ∀ {i pc}, n ≤ i → w.stops[i]? = some pc → w'.IsFair pc := fun hle hi =>
    (h.fair _ _ hle hi).kept hthread
  refine ⟨h.placed.step hs, ?_, fun i pc hle hi => ?_⟩
  · rcases ht.start h.placed with he | ⟨-, -, hidle⟩ | ⟨he, -⟩ | ⟨he, -⟩
    · rw [he]
      exact h.started
    · exact fun he => hr (hidle he)
    · rw [he]
      exact nofun
    · rw [he]
      exact nofun
  rcases a.sides with ha | ha | ha
  · cases ht with
    | submit event =>
      obtain ⟨shared, ⟨he, -⟩ | ⟨e, -, -, -, -, he, -⟩, -⟩ := submit_eq w event
      · rw [he] at hi
        exact hkept hle hi
      · rw [he] at hi
        exact hkept hle hi
    | submitSignal =>
      obtain ⟨callbacks, he, -⟩ :=
        signalLoop_eq { w with submitSignals := w.submitSignals - 1 } .wakePersist
      rw [he] at hi
      exact hkept hle hi
    | startSignal =>
      obtain ⟨callbacks, he, -⟩ := signalLoop_eq { w with start := .raised } .stopAsync
      rw [he] at hi
      exact hkept hle hi
    | startReady =>
      rcases startReady_eq w with he | he
      · rw [he] at hi
        exact hkept hle hi
      · rw [he] at hi
        exact hkept hle hi
    | startTimeout | startTimedOut | wakePersist | stopAsync => exact hkept hle hi
    | stopCall timeout =>
      rcases getElem?_snoc_cases hi with hi | rfl
      · exact hkept hle hi
      · intro hseen
        simpa using hseen
    | stopSet j hj =>
      rcases getElem?_set_cases hi with hi | rfl
      · exact hkept hle hi
      · trivial
    | stopSignal j hj =>
      obtain ⟨callbacks, he, -⟩ :=
        signalLoop_eq { w with stops := w.stops.set j .joining } .stopAsync
      rw [he] at hi
      rcases getElem?_set_cases hi with hi | rfl
      · exact hkept hle hi
      · trivial
    | stopReturn j hj =>
      rcases getElem?_set_cases hi with hi | rfl
      · exact hkept hle hi
      · intro hgone
        have hdead : w.threadAlive = false := by simpa using hgone
        exact hdead
    | _ => exact ha.elim
  · exact hkept hle ((ht.inside h.placed ha).callers.2.1 ▸ hi)
  cases ht with
  | restart => exact absurd rfl hr
  | startCall hidle => exact absurd hidle h.started
  | threadOpen factoryError =>
    obtain ⟨u, thread, hacts, he, -⟩ := threadOpen_eq w factoryError
    obtain ⟨_, _, _, rfl⟩ := hacts.world
    rw [he] at hi
    exact hkept hle hi
  | environment | threadStartup | threadAnnounce | threadFail | threadClose | threadExit
  | threadDie => exact hkept hle hi
  | stopLock j seen timeout hj =>
    obtain ⟨moved, state, deadline, he, hcase⟩ := stopLock_eq w j seen timeout
    have hstops : (w.stops.set j moved)[i]? = some pc := by
      rw [he] at hi
      exact hi
    by_cases hij : i = j
    · subst hij
      have hpc : pc = moved := by
        rw [List.getElem?_set_self (List.getElem?_eq_some_iff.mp hj).1] at hstops
        exact (Option.some.inj hstops).symm
      have halive : w.threadAlive = false → (w.stopLock i seen timeout).threadAlive = false := by
        rw [he]
        exact id
      rcases hcase with ⟨hnew, -, hreturned⟩ | ⟨-, -, hreturned, hgone⟩ | ⟨-, hset, -⟩
      · rw [hpc, hreturned]
        exact fun _ => halive (by simp [threadAlive, h.placed.fresh hnew])
      · rw [hpc, hreturned]
        intro _
        refine halive (hgone.elim (fun hseen => ?_) id)
        have habsent : w.thread = .absent := h.fair i _ hle hj hseen
        simp [threadAlive, habsent]
      · rw [hpc, hset]
        trivial
    · rw [List.getElem?_set_ne (Ne.symm hij)] at hstops
      exact hkept hle hstops
  | _ => exact ha.elim

/-- The run lemma, from any state behind `start()`. -/
theorem StopJob.joining {timeout : ℚ} {gone : Bool} (hp : Placed w) (hs : w.start ≠ .idle)
    (h : StopJob timeout w w' gone) : ∃ n : Nat, Joining n w' ∧
      w'.stops[n]? = some (.returned gone) := by
  obtain ⟨u, v, hbefore, hcall, hafter, hreturned⟩ := h
  have hsteps : ∀ {m : Nat} {t t' : World}, Steps step (fun _ a => ¬ a.isRestart) t t' →
      Joining m t → Joining m t' := fun hsteps hj =>
    hsteps.invariant hj fun _ _ _ hj hr hs => hj.stepped hr hs
  have hinit : Joining w.stops.length w :=
    ⟨hp, hs, fun i pc hle hi => absurd (List.getElem?_eq_some_iff.mp hi).1 (by omega)⟩
  have hu := hsteps hbefore hinit
  have hcalled : Joining u.stops.length u :=
    ⟨hu.placed, hu.started,
      fun i pc hle hi => absurd (List.getElem?_eq_some_iff.mp hi).1 (by omega)⟩
  have hnot : ¬ (Action.stopCall timeout).isRestart := nofun
  exact ⟨_, hsteps hafter (hcalled.stepped hnot hcall), hreturned⟩

/-- **A `stop()` that is called behind `start()` and returned `True` has joined the thread.** -/
theorem StopJob.joined {timeout : ℚ} (hp : Placed w) (hs : w.start ≠ .idle)
    (h : StopJob timeout w w' true) : w'.threadAlive = false := by
  obtain ⟨n, hjoining, hreturned⟩ := h.joining hp hs
  exact hjoining.fair n _ le_rfl hreturned rfl

theorem StopJob.started {timeout : ℚ} {gone : Bool} (hp : Placed w) (hs : w.start ≠ .idle)
    (h : StopJob timeout w w' gone) : Placed w' ∧ w'.start ≠ .idle := by
  obtain ⟨n, hjoining, -⟩ := h.joining hp hs
  exact ⟨hjoining.placed, hjoining.started⟩

/-- Behind a job of `start()` the service has been started. -/
theorem StartJob.started {returns : Bool} (hp : Placed w) (h : StartJob w w' returns) :
    Placed w' ∧ w'.start ≠ .idle := by
  obtain ⟨u, hcall, hafter, hstart⟩ := h
  refine ⟨hafter.invariant (hp.step hcall) fun _ _ _ hp _ hs => hp.step hs, ?_⟩
  rw [hstart]
  split <;> exact nofun

end

end World

end QuestDbWriter
