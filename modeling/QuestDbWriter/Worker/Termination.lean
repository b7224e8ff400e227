import QuestDbWriter.Worker.Blocking
import QuestDbWriter.Worker.Turns
import QuestDbWriter.Lib.Transition

/-!
# The shutdown comes to an end

Once a stop has reached the loop and its deadline has passed, the worker has a bounded number of
turns left, however the callers, the server and the environment move in between; and wherever it is
not at its end one of its turns can be taken. `shutdown_ends` is both.
-/

namespace QuestDbWriter

open Lib

/-- The turns of the worker thread and its coroutines. -/
def Action.isTurn : Action → Bool
  | .threadOpen _ | .threadStartup | .threadAnnounce | .threadFail | .threadClose _ | .threadExit
  | .threadDie | .mainPublish | .mainTest | .mainStop | .mainTaskDone | .mainPersistDone
  | .flushEnsured _ | .flushSent _ | .persistRun | .persistDrain | .persistRound | .persistCheck
  | .persistWake | .deliverRun | .deliverEnsured _ | .deliverSent _ | .deliverWake => true
  | _ => false

/-- The thread has come to its loop, or to its end. -/
def ThreadPc.HasLooped : ThreadPc → Prop
  | .absent | .opening | .opened | .announcing => False
  | _ => True

/-! ## The rank -/

/-- The turns that the thread has left from its loop on. -/
def ThreadPc.turnsLeft : ThreadPc → Nat
  | .raising _ => 4
  | .closing _ => 3
  | .exiting _ _ => 2
  | .ended => 1
  | .dead => 0
  | _ => 5

/-- The turns that the main coroutine has left, where a stop has reached the loop. -/
def MainPc.turnsLeft : MainPc → Nat
  | .publishing => 6
  | .testing => 5
  | .waiting => 4
  | .awaitPersist => 3
  | .flushEnsuring => 2
  | .flushSending _ => 1
  | .idle | .ended => 0

/-- The turns that the persist loop has left behind the deadline, with room for that many events in
its buffer and for `rows` in an empty one. -/
def PersistPc.turnsLeft (rows room : Nat) : PersistPc → Nat
  | .waiting _ | .sleeping _ => rows + 5
  | .top => rows + 4
  | .draining => room + 3
  | .persisting => 2
  | .checking => 1
  | .returned | .raised _ | .cancelled => 0

/-- The turns that the delivery loop has left, where a stop has reached the loop. -/
def DeliverPc.turnsLeft : DeliverPc → Nat
  | .ensuring => 4
  | .sending _ => 3
  | .gateWait _ | .waiting _ => 2
  | .top => 1
  | .returned | .raised _ | .cancelled => 0

/-- A persist loop that has ended takes no more turns. -/
theorem PersistPc.IsOver.turnsLeft {p : PersistPc} (h : p.IsOver) (rows room : Nat) :
    p.turnsLeft rows room = 0 := by
  cases p <;> first | exact h.elim | rfl

/-- A delivery loop that has ended takes no more turns. -/
theorem DeliverPc.IsOver.turnsLeft {d : DeliverPc} (h : d.IsOver) : d.turnsLeft = 0 := by
  cases d <;> first | exact h.elim | rfl

namespace World

/-- The turns that the worker has left. -/
def turnsLeft (w : World) : Nat :=
  w.thread.turnsLeft + w.main.turnsLeft +
    w.persist.turnsLeft w.config.settings.persistBatchRows
      (w.config.settings.persistBatchRows - w.held.length) + w.deliver.turnsLeft

/-- The rank is bounded by the size of the buffer. -/
theorem turnsLeft_le (w : World) : w.turnsLeft ≤ w.config.settings.persistBatchRows + 20 := by
  have hthread : w.thread.turnsLeft ≤ 5 := by
    cases w.thread <;> simp [ThreadPc.turnsLeft]
  have hmain : w.main.turnsLeft ≤ 6 := by
    cases w.main <;> simp [MainPc.turnsLeft]
  have hpersist : w.persist.turnsLeft w.config.settings.persistBatchRows
      (w.config.settings.persistBatchRows - w.held.length) ≤
        w.config.settings.persistBatchRows + 5 := by
    cases w.persist <;> rw [PersistPc.turnsLeft] <;> omega
  have hdeliver : w.deliver.turnsLeft ≤ 4 := by
    cases w.deliver <;> simp [DeliverPc.turnsLeft]
  unfold turnsLeft
  omega

/-! ## Where the thread is -/

/-- A loop runs in the thread, a stop reaches a running loop, and coroutines are cancelled only
with it. -/
structure Looped (w : World) : Prop where
  running : w.loopRunning = true → w.thread = .looping
  stopped : w.stopAsync = true → w.thread.HasLooped
  active : w.thread = .looping → w.main.IsActive
  cancelled : w.persist = .cancelled → w.thread.HasLooped ∧ w.thread ≠ .looping

section
variable {u w w' : World} {a : Action}

/-- The end of a turn of the persist loop does not cancel it. -/
theorem persistCheck_moves (w : World) :
    ∃ persist wakePersist, w.persistCheck = { w with persist, wakePersist } ∧
      persist ≠ .cancelled := by
  unfold persistCheck
  dsimp only
  split
  · split
    · exact ⟨_, _, rfl, nofun⟩
    · split
      · exact ⟨_, _, rfl, nofun⟩
      · split <;> exact ⟨_, _, rfl, nofun⟩
  · exact ⟨_, _, rfl, nofun⟩

namespace Looped

/-- A new process has no loop. -/
theorem boot (config : Config) (env : Env) (db : Database) (history : List Obs) :
    Looped (.boot config env db history) := by
  constructor <;> simp [World.boot, MainPc.IsActive]

/-- A step that leaves the thread and the main coroutine where they are. -/
theorem of_eq (h : Looped w) (hl : w'.loopRunning = w.loopRunning)
    (hs : w'.stopAsync = w.stopAsync) (hth : w'.thread = w.thread) (hm : w'.main = w.main)
    (hp : w'.persist = w.persist ∨ w'.persist ≠ .cancelled) : Looped w' where
  running hrun := hth.trans (h.running (hl.symm.trans hrun))
  stopped hstop := hth ▸ h.stopped (hs.symm.trans hstop)
  active hloop := hm ▸ h.active (hth.symm.trans hloop)
  cancelled hc := hp.elim (fun he => hth ▸ h.cancelled (he.symm.trans hc)) fun hne => absurd hc hne

/-- A method leaves the loop where it is. -/
theorem of_acts (h : Looped w) (ha : Acts w u) : Looped u := by
  obtain ⟨_, _, _, rfl⟩ := ha.world
  exact h.of_eq rfl rfl rfl rfl (.inl rfl)

/-- A step that ends the main coroutine. -/
theorem of_ended (hl : w'.loopRunning = false) (hth : w'.thread.HasLooped)
    (hne : w'.thread ≠ .looping) : Looped w' where
  running hrun := absurd (hl.symm.trans hrun) Bool.false_ne_true
  stopped _ := hth
  active hloop := absurd hloop hne
  cancelled _ := ⟨hth, hne⟩

/-- An exception of the main coroutine ends the loop. -/
theorem mainRaise (w : World) (e : Exc) : Looped (w.mainRaise e) := by
  obtain ⟨persist, deliver, he, -⟩ := mainRaise_eq w e
  rw [he]
  exact of_ended rfl trivial nofun

/-- The end of the main coroutine ends the loop. -/
theorem mainFinish (w : World) : Looped w.mainFinish := by
  rcases mainFinish_eq w with ⟨e, he⟩ | ⟨deliver, he, -⟩
  · rw [he]
    exact mainRaise w e
  · rw [he]
    exact of_ended rfl trivial nofun

/-- A step of the flush leaves the loop running, or ends it. -/
theorem of_flushes (h : Looped w) (hf : Flushes w w') : Looped w' := by
  cases hf with
  | raised u e => exact mainRaise u e
  | finished u => exact mainFinish u
  | ensuring u hu => exact { h.of_acts hu with active := fun _ => trivial }
  | sending u built backoff hu => exact { h.of_acts hu with active := fun _ => trivial }

/-- A turn of the delivery loop leaves the loop running. -/
theorem of_delivers (h : Looped w) (hd : Delivers w w') : Looped w' := by
  obtain ⟨_, _, _, _, _, _, rfl⟩ := hd.world
  exact h.of_eq rfl rfl rfl rfl (.inl rfl)

/-- A step of the thread in front of its loop, or behind it. -/
theorem of_thread (h : Looped w) (hth : w.thread ≠ .looping) (hne : w'.thread ≠ .looping)
    (hlater : w.thread.HasLooped → w'.thread.HasLooped) (hl : w'.loopRunning = w.loopRunning)
    (hs : w'.stopAsync = w.stopAsync) (hp : w'.persist = w.persist) : Looped w' where
  running hrun := absurd (h.running (hl.symm.trans hrun)) hth
  stopped hstop := hlater (h.stopped (hs.symm.trans hstop))
  active hloop := absurd hloop hne
  cancelled hc := ⟨hlater (h.cancelled (hp.symm.trans hc)).1, hne⟩

/-- **Every step keeps it.** -/
theorem step (hp : Placed w) (h : Looped w) (hs : QuestDbWriter.step w a = some w') :
    Looped w' := by
  cases Taken.of_step hs with
  | restart => exact boot _ _ _ _
  | environment | startTimeout | startTimedOut | stopCall | stopSet | stopReturn | wakePersist
  | deliverWake => exact h.of_eq rfl rfl rfl rfl (.inl rfl)
  | submit event =>
    obtain ⟨shared, ⟨he, -⟩ | ⟨e, -, -, -, -, he, -⟩, -⟩ := submit_eq w event
    · exact he ▸ h.of_eq rfl rfl rfl rfl (.inl rfl)
    · exact he ▸ h.of_eq rfl rfl rfl rfl (.inl rfl)
  | submitSignal =>
    obtain ⟨callbacks, he, -⟩ :=
      signalLoop_eq { w with submitSignals := w.submitSignals - 1 } .wakePersist
    exact he ▸ h.of_eq rfl rfl rfl rfl (.inl rfl)
  | startCall =>
    unfold startCall
    split
    · next hnew =>
      have habs := hp.fresh hnew
      refine h.of_thread (by simp [habs]) nofun (fun hlooped => ?_) rfl rfl rfl
      rw [habs] at hlooped
      exact hlooped.elim
    · exact h.of_eq rfl rfl rfl rfl (.inl rfl)
  | startReady =>
    rcases startReady_eq w with he | he <;> exact he ▸ h.of_eq rfl rfl rfl rfl (.inl rfl)
  | startSignal =>
    obtain ⟨callbacks, he, -⟩ := signalLoop_eq { w with start := .raised } .stopAsync
    exact he ▸ h.of_eq rfl rfl rfl rfl (.inl rfl)
  | stopLock i seen timeout =>
    obtain ⟨pc, state, deadline, he, -⟩ := stopLock_eq w i seen timeout
    exact he ▸ h.of_eq rfl rfl rfl rfl (.inl rfl)
  | stopSignal i =>
    obtain ⟨callbacks, he, -⟩ := signalLoop_eq { w with stops := w.stops.set i .joining } .stopAsync
    exact he ▸ h.of_eq rfl rfl rfl rfl (.inl rfl)
  | stopAsync callbacks hl =>
    exact ⟨h.running, fun _ => h.running hl ▸ trivial, h.active, h.cancelled⟩
  | threadOpen factoryError hth =>
    obtain ⟨v, thread, hacts, he, hopen⟩ := threadOpen_eq w factoryError
    obtain ⟨_, _, _, rfl⟩ := hacts.world
    rw [he]
    refine h.of_thread (by simp [hth]) ?_ (fun hlooped => ?_) rfl rfl rfl
    · rcases hopen with rfl | ⟨e, rfl⟩ <;> exact nofun
    · rw [hth] at hlooped
      exact hlooped.elim
  | threadStartup hth =>
    refine h.of_thread (by simp [hth]) nofun (fun hlooped => ?_) rfl rfl rfl
    rw [hth] at hlooped
    exact hlooped.elim
  | threadAnnounce hth =>
    refine ⟨fun _ => rfl, fun _ => trivial, fun _ => trivial, fun hc => ?_⟩
    have hlooped := (h.cancelled hc).1
    rw [hth] at hlooped
    exact hlooped.elim
  | threadFail e hth => exact h.of_thread (by simp [hth]) nofun (fun _ => trivial) rfl rfl rfl
  | threadClose failed cleanup hth =>
    exact h.of_thread (by simp [hth]) nofun (fun _ => trivial) rfl rfl rfl
  | threadExit failed cleanup hth =>
    exact h.of_thread (by simp [hth]) nofun (fun _ => trivial) rfl rfl rfl
  | threadDie hth => exact h.of_thread (by simp [hth]) nofun (fun _ => trivial) rfl rfl rfl
  | mainPublish hm =>
    have hl := hp.looping (hm ▸ trivial)
    exact ⟨fun _ => hl, fun _ => hl ▸ trivial, fun _ => trivial, h.cancelled⟩
  | mainTest hm =>
    have hl := hp.looping (hm ▸ trivial)
    exact ⟨h.running, fun _ => hl ▸ trivial, fun _ => trivial, h.cancelled⟩
  | mainStop => exact ⟨h.running, h.stopped, fun _ => trivial, h.cancelled⟩
  | mainTaskDone e | mainPersistRaised e => exact mainRaise w e
  | mainPersisted => exact h.of_flushes (.mainPersisted w)
  | flushEnsured result => exact h.of_flushes (.flushEnsured w result)
  | flushSent built result => exact h.of_flushes (.flushSent w built result)
  | persistRun | persistWake => exact h.of_eq rfl rfl rfl rfl (.inr nofun)
  | persistDrain hat =>
    rcases persistDrain_eq w with ⟨event, ingress, -, -, he⟩ | he
    · exact he ▸ h.of_eq rfl rfl rfl rfl (.inl rfl)
    · exact he ▸ h.of_eq rfl rfl rfl rfl (.inr nofun)
  | persistRound =>
    rcases persistRound_eq w with ⟨v, hv, he⟩ | ⟨v, e, hv, he⟩
    · obtain ⟨⟨_, _, _, _, rfl⟩, -⟩ := hv.frame
      exact he ▸ h.of_eq rfl rfl rfl rfl (.inr nofun)
    · obtain ⟨⟨_, _, _, _, rfl⟩, -⟩ := hv.frame
      exact he ▸ h.of_eq rfl rfl rfl rfl (.inr nofun)
  | persistCheck =>
    obtain ⟨persist, wakePersist, he, hne⟩ := persistCheck_moves w
    rw [he]
    exact h.of_eq rfl rfl rfl rfl (.inr hne)
  | deliverRun => exact h.of_delivers (.deliverTop w)
  | deliverEnsured result => exact h.of_delivers (.deliverEnsured w result)
  | deliverSent built result => exact h.of_delivers (.deliverSent w built result)

end Looped

/-! ## Turns -/

/-- The shutdown's deadline has passed. -/
def IsLate (w : World) : Prop :=
  ∃ deadline, w.shared.shutdownDeadline = some deadline ∧ deadline ≤ w.env.monotonic

/-- The end of the main coroutine leaves the thread its four last turns at most. -/
theorem mainRaise_turnsLeft (w : World) (e : Exc) : (w.mainRaise e).turnsLeft = 4 := by
  obtain ⟨persist, deliver, he, hp, -, hd⟩ := mainRaise_eq w e
  rw [he]
  simp [turnsLeft, hp.turnsLeft, hd.turnsLeft, ThreadPc.turnsLeft, MainPc.turnsLeft]

/-- The end of the main coroutine leaves the turns of its tasks at most. -/
theorem mainFinish_turnsLeft (w : World) :
    w.mainFinish.turnsLeft ≤ 4 + w.persist.turnsLeft w.config.settings.persistBatchRows
      (w.config.settings.persistBatchRows - w.held.length) := by
  rcases mainFinish_eq w with ⟨e, he⟩ | ⟨deliver, he, hd⟩
  · rw [he, mainRaise_turnsLeft]
    omega
  · rw [he]
    simp [turnsLeft, hd.turnsLeft, ThreadPc.turnsLeft, MainPc.turnsLeft]

/-- A turn of the main coroutine that brings it on. -/
theorem Flushes.turnsLeft (hf : Flushes w w') (hl : w.thread = .looping)
    (hm : w'.main.turnsLeft < w.main.turnsLeft) : w'.turnsLeft < w.turnsLeft := by
  have hrank : w.turnsLeft = 5 + w.main.turnsLeft +
      w.persist.turnsLeft w.config.settings.persistBatchRows
        (w.config.settings.persistBatchRows - w.held.length) + w.deliver.turnsLeft := by
    rw [World.turnsLeft, hl]
    rfl
  cases hf with
  | raised u e hu =>
    rw [mainRaise_turnsLeft, hrank]
    omega
  | finished u hu =>
    have hfinish := mainFinish_turnsLeft u
    obtain ⟨_, _, _, rfl⟩ := hu.world
    dsimp only at hfinish hm
    omega
  | ensuring u hu =>
    obtain ⟨_, _, _, rfl⟩ := hu.world
    unfold World.turnsLeft at hrank ⊢
    dsimp only at hrank hm ⊢
    omega
  | sending u built backoff hu =>
    obtain ⟨_, _, _, rfl⟩ := hu.world
    unfold World.turnsLeft at hrank ⊢
    dsimp only at hrank hm ⊢
    omega

/-- The shutdown flush sends its batch, or ends. -/
theorem flushStart_main (w : World) :
    w.flushStart.main = .ended ∨ ∃ built, w.flushStart.main = .flushSending built := by
  unfold flushStart
  split
  · exact .inr ⟨_, rfl⟩
  · exact .inl (mainFinish_main _)
  · exact .inl rfl

/-- Behind the persist task the main coroutine has two turns at most. -/
theorem mainPersisted_main (w : World) : w.mainPersisted.main.turnsLeft ≤ 2 := by
  unfold mainPersisted
  split
  · split
    · exact Nat.zero_le 2
    · split
      · rw [mainFinish_main]
        exact Nat.zero_le 2
      · split
        · exact le_refl 2
        · rcases flushStart_main _ with he | ⟨built, he⟩
          · rw [he]
            exact Nat.zero_le 2
          · rw [he]
            exact Nat.le_succ 1
  · rw [mainFinish_main]
    exact Nat.zero_le 2

/-- Behind the schema check of the flush it has one turn at most. -/
theorem flushEnsured_main (w : World) (result : EnsureResult) :
    (w.flushEnsured result).main.turnsLeft ≤ 1 := by
  unfold flushEnsured
  dsimp only
  split
  · rcases flushStart_main (w.observe (.ensured .ok)) with he | ⟨built, he⟩
    · rw [he]
      exact Nat.zero_le 1
    · rw [he]
      exact le_refl 1
  · rw [mainFinish_main]
    exact Nat.zero_le 1
  · rw [mainFinish_main]
    exact Nat.zero_le 1
  · exact Nat.zero_le 1

/-- Behind the request of the flush it has ended. -/
theorem flushSent_main (w : World) (built : BuiltBatch) (result : SendResult) :
    (w.flushSent built result).main = .ended := by
  unfold flushSent
  split
  · exact mainFinish_main _
  · rfl

/-- A turn of the delivery loop that brings it on. -/
theorem Delivers.turnsLeft (hd : Delivers w w')
    (hlt : w'.deliver.turnsLeft < w.deliver.turnsLeft) : w'.turnsLeft < w.turnsLeft := by
  obtain ⟨_, _, _, _, _, _, rfl⟩ := hd.world
  unfold World.turnsLeft
  dsimp only at hlt ⊢
  omega

/-- A delivery loop that is not in its schema check has three turns at most. -/
theorem DeliverPc.turnsLeft_le {d : DeliverPc} (h : d ≠ .ensuring) : d.turnsLeft ≤ 3 := by
  cases d <;> simp [DeliverPc.turnsLeft] at h ⊢

/-- The gate has been passed, or waits, or has failed. -/
theorem deliverEnsured_moves (w : World) (result : EnsureResult) :
    (w.deliverEnsured result).deliver ≠ .ensuring := by
  unfold deliverEnsured
  dsimp only
  split
  · exact (Body.deliverBody _).gate
  · split <;> exact nofun
  · split <;> exact nofun
  · exact nofun

/-- Behind the deadline the persist loop returns, or gives up. -/
theorem persistCheck_over (hs : w.stopAsync = true) (hlate : IsLate w) :
    ∃ persist, w.persistCheck = { w with persist } ∧ persist.IsOver := by
  obtain ⟨deadline, hd, hle⟩ := hlate
  unfold persistCheck
  dsimp only
  rw [if_pos hs, hd]
  split
  · exact ⟨_, rfl, trivial⟩
  · dsimp only
    rw [if_pos hle]
    exact ⟨_, rfl, trivial⟩

/-- **Every turn of a late shutdown is one fewer.** -/
theorem Taken.turn_lt (hp : Placed w) (h : Looped w) (hs : w.stopAsync = true) (hlate : IsLate w)
    (ht : Taken w a w') (hturn : a.isTurn = true) : w'.turnsLeft < w.turnsLeft := by
  have hlooped := h.stopped hs
  cases ht with
  | threadOpen _ hth | threadStartup hth | threadAnnounce hth =>
    rw [hth] at hlooped
    exact hlooped.elim
  | threadFail e hth | threadClose failed cleanup hth | threadExit failed cleanup hth
  | threadDie hth =>
    simp [turnsLeft, hth, ThreadPc.turnsLeft, threadFail, threadExit, withShared]
  | mainPublish hm | mainTest hm | mainStop hm =>
    simp [turnsLeft, hm, MainPc.turnsLeft, mainStop, withShared]
  | mainTaskDone e hm | mainPersistRaised e hm =>
    rw [mainRaise_turnsLeft, turnsLeft, hp.looping (hm ▸ trivial), hm]
    simp [ThreadPc.turnsLeft, MainPc.turnsLeft]
    omega
  | mainPersisted hm =>
    refine Flushes.turnsLeft (.mainPersisted w) (hp.looping (hm ▸ trivial)) ?_
    have hle := mainPersisted_main w
    rw [hm]
    exact Nat.lt_succ_of_le hle
  | flushEnsured result hm =>
    refine Flushes.turnsLeft (.flushEnsured w result) (hp.looping (hm ▸ trivial)) ?_
    have hle := flushEnsured_main w result
    rw [hm]
    exact Nat.lt_succ_of_le hle
  | flushSent built result hm =>
    refine Flushes.turnsLeft (.flushSent w built result) (hp.looping (hm ▸ trivial)) ?_
    rw [flushSent_main, hm]
    exact Nat.zero_lt_one
  | persistRun hrun hat => simp [turnsLeft, hat, PersistPc.turnsLeft]
  | persistDrain hat =>
    rcases persistDrain_eq w with ⟨event, ingress, -, hroom, he⟩ | he
    · rw [he]
      simp [turnsLeft, hat, PersistPc.turnsLeft]
      omega
    · rw [he]
      simp [turnsLeft, hat, PersistPc.turnsLeft, withShared]
  | persistRound hat =>
    rcases persistRound_eq w with ⟨v, hv, he⟩ | ⟨v, e, hv, he⟩
    · obtain ⟨⟨_, _, _, _, rfl⟩, -⟩ := hv.frame
      rw [he]
      simp [turnsLeft, hat, PersistPc.turnsLeft]
    · obtain ⟨⟨_, _, _, _, rfl⟩, -⟩ := hv.frame
      rw [he]
      simp [turnsLeft, hat, PersistPc.turnsLeft]
  | persistCheck hat =>
    obtain ⟨persist, he, hover⟩ := persistCheck_over hs hlate
    have hzero := hover.turnsLeft w.config.settings.persistBatchRows
      (w.config.settings.persistBatchRows - w.held.length)
    rw [he]
    rw [turnsLeft, turnsLeft, hzero, hat]
    simp [PersistPc.turnsLeft]
  | persistWake deadline hat =>
    rcases hat with hat | hat <;> simp [turnsLeft, hat, PersistPc.turnsLeft]
  | deliverRun hrun hb hat =>
    refine Delivers.turnsLeft (.deliverTop w) ?_
    unfold deliverTop
    rw [if_pos hs, hat]
    exact Nat.zero_lt_one
  | deliverEnsured result hb hat =>
    refine Delivers.turnsLeft (.deliverEnsured w result) ?_
    have hle := DeliverPc.turnsLeft_le (deliverEnsured_moves w result)
    rw [hat]
    exact Nat.lt_succ_of_le hle
  | deliverSent built result hb hat =>
    refine Delivers.turnsLeft (.deliverSent w built result) ?_
    obtain ⟨-, -, hnext | ⟨e, hnext⟩⟩ := deliverSent_locals w built result
    · rw [hnext, hat]
      exact Nat.lt_of_sub_eq_succ rfl
    · rw [hnext, hat]
      exact Nat.zero_lt_succ 2
  | deliverWake deadline hb hat =>
    rcases hat with hat | hat <;> simp [turnsLeft, hat, DeliverPc.turnsLeft]
  | _ => exact absurd hturn Bool.false_ne_true

/-- **Nothing else gives the worker more turns.** -/
theorem Taken.other_le (hp : Placed w) (h : Looped w) (hs : w.stopAsync = true)
    (ht : Taken w a w') (hr : ¬ a.isRestart) (hother : a.isTurn = false) :
    w'.turnsLeft ≤ w.turnsLeft := by
  rcases a.sides with ha | ha | ha
  · obtain ⟨_, _, _, _, _, _, _, _, _, _, _, _, _, _, _, rfl⟩ := (ht.outside ha).world
    exact le_refl _
  · cases a <;> first | exact ha.elim | cases hother
  cases ht with
  | restart => exact absurd rfl hr
  | environment => exact le_refl _
  | startCall =>
    unfold startCall
    split
    · next hnew =>
      have hlooped := h.stopped hs
      rw [hp.fresh hnew] at hlooped
      exact hlooped.elim
    · exact le_refl _
  | stopLock i seen timeout =>
    obtain ⟨pc, state, deadline, he, -⟩ := stopLock_eq w i seen timeout
    rw [he]
    exact le_refl _
  | threadOpen | threadStartup | threadAnnounce | threadFail | threadClose | threadExit
  | threadDie => cases hother
  | _ => exact ha.elim

/-- No persist loop sleeps behind an exception of the main coroutine. -/
theorem mainRaise_sleeping (w : World) (e : Exc) (deadline : ℚ) :
    (w.mainRaise e).persist ≠ .sleeping deadline := by
  intro h
  obtain ⟨persist, _, he, hover, -⟩ := mainRaise_eq w e
  rw [he] at h
  dsimp only at h
  rw [h] at hover
  exact hover

/-- The end of the main coroutine puts no persist loop to sleep. -/
theorem mainFinish_sleeping {deadline : ℚ} (h : w.mainFinish.persist = .sleeping deadline) :
    w.persist = .sleeping deadline := by
  rcases mainFinish_eq w with ⟨e, he⟩ | ⟨deliver, he, -⟩
  · exact absurd (he ▸ h) (mainRaise_sleeping w e deadline)
  · rw [he] at h
    exact h

/-- Behind the deadline the persist loop does not go to sleep. -/
theorem Taken.sleeping {deadline : ℚ} (hs : w.stopAsync = true) (hlate : IsLate w)
    (ht : Taken w a w') (hr : ¬ a.isRestart) (h : w'.persist = .sleeping deadline) :
    w.persist = .sleeping deadline := by
  have hflushes : ∀ {v : World}, Flushes w v → v.persist = .sleeping deadline →
      w.persist = .sleeping deadline := by
    intro v hf hv
    cases hf with
    | raised u e => exact absurd hv (mainRaise_sleeping u e deadline)
    | finished u hu =>
      have hold := mainFinish_sleeping hv
      obtain ⟨_, _, _, rfl⟩ := hu.world
      exact hold
    | ensuring u hu | sending u built backoff hu =>
      obtain ⟨_, _, _, rfl⟩ := hu.world
      exact hv
  have hdelivers : ∀ {v : World}, Delivers w v → v.persist = .sleeping deadline →
      w.persist = .sleeping deadline := by
    intro v hd hv
    obtain ⟨_, _, _, _, _, _, rfl⟩ := hd.world
    exact hv
  rcases a.sides with ha | ha | ha
  · obtain ⟨_, _, _, _, _, _, _, _, _, _, _, _, _, _, _, rfl⟩ := (ht.outside ha).world
    exact h
  · cases ht with
    | mainPublish | mainTest | mainStop | deliverWake => exact h
    | mainTaskDone e | mainPersistRaised e => exact absurd h (mainRaise_sleeping w e deadline)
    | mainPersisted => exact hflushes (.mainPersisted w) h
    | flushEnsured result => exact hflushes (.flushEnsured w result) h
    | flushSent built result => exact hflushes (.flushSent w built result) h
    | persistRun | persistWake => cases h
    | persistDrain hat =>
      rcases persistDrain_eq w with ⟨event, ingress, -, -, he⟩ | he
      · rw [he] at h
        exact h
      · rw [he] at h
        cases h
    | persistRound =>
      rcases persistRound_eq w with ⟨v, -, he⟩ | ⟨v, e, -, he⟩
      · rw [he] at h
        cases h
      · rw [he] at h
        cases h
    | persistCheck =>
      obtain ⟨persist, he, hover⟩ := persistCheck_over hs hlate
      rw [he] at h
      rw [show persist = .sleeping deadline from h] at hover
      exact hover.elim
    | deliverRun => exact hdelivers (.deliverTop w) h
    | deliverEnsured result => exact hdelivers (.deliverEnsured w result) h
    | deliverSent built result => exact hdelivers (.deliverSent w built result) h
    | _ => exact ha.elim
  cases ht with
  | restart => exact absurd rfl hr
  | environment | threadStartup | threadAnnounce | threadFail | threadClose | threadExit
  | threadDie => exact h
  | startCall =>
    unfold startCall at h
    split at h <;> exact h
  | stopLock i seen timeout =>
    obtain ⟨pc, state, deadline, he, -⟩ := stopLock_eq w i seen timeout
    rw [he] at h
    exact h
  | threadOpen factoryError =>
    obtain ⟨u, thread, hacts, he, -⟩ := threadOpen_eq w factoryError
    obtain ⟨_, _, _, rfl⟩ := hacts.world
    rw [he] at h
    exact h
  | _ => exact ha.elim

/-! ## Progress -/

/-- **Where it is not at its end, and the persist loop does not sleep, the worker has a turn to
take.** -/
theorem Looped.progress (h : Looped w) (hs : w.stopAsync = true)
    (hsleep : ∀ deadline, w.persist = .sleeping deadline → deadline ≤ w.env.monotonic) :
    w.thread = .dead ∨ ∃ a, a.isTurn = true ∧ (QuestDbWriter.step w a).isSome = true := by
  have hlooped := h.stopped hs
  cases hth : w.thread with
  | absent | opening | opened | announcing =>
    rw [hth] at hlooped
    exact hlooped.elim
  | dead => exact .inl rfl
  | raising e => exact .inr ⟨.threadFail, rfl, by simp [QuestDbWriter.step, hth]⟩
  | closing failed => exact .inr ⟨.threadClose none, rfl, by simp [QuestDbWriter.step, hth]⟩
  | exiting failed cleanup => exact .inr ⟨.threadExit, rfl, by simp [QuestDbWriter.step, hth]⟩
  | ended => exact .inr ⟨.threadDie, rfl, by simp [QuestDbWriter.step, hth]⟩
  | looping =>
    have hact := h.active hth
    right
    cases hm : w.main with
    | idle | ended =>
      rw [hm] at hact
      exact hact.elim
    | publishing => exact ⟨.mainPublish, rfl, by simp [QuestDbWriter.step, hm]⟩
    | testing => exact ⟨.mainTest, rfl, by simp [QuestDbWriter.step, hm]⟩
    | flushEnsuring => exact ⟨.flushEnsured .ok, rfl, by simp [QuestDbWriter.step, hm]⟩
    | flushSending built => exact ⟨.flushSent .ok, rfl, by simp [QuestDbWriter.step, hm]⟩
    | waiting =>
      cases hp : w.persist with
      | draining => exact ⟨.persistDrain, rfl, by simp [QuestDbWriter.step, hp]⟩
      | persisting => exact ⟨.persistRound, rfl, by simp [QuestDbWriter.step, hp]⟩
      | checking => exact ⟨.persistCheck, rfl, by simp [QuestDbWriter.step, hp]⟩
      | _ => exact ⟨.mainStop, rfl, by simp [QuestDbWriter.step, hm, hs, busy, hp]⟩
    | awaitPersist =>
      have hrun : w.tasksRun = true := by simp [tasksRun, hm]
      cases hp : w.persist with
      | top => exact ⟨.persistRun, rfl, by simp [QuestDbWriter.step, hrun, hp]⟩
      | draining => exact ⟨.persistDrain, rfl, by simp [QuestDbWriter.step, hp]⟩
      | persisting => exact ⟨.persistRound, rfl, by simp [QuestDbWriter.step, hp]⟩
      | checking => exact ⟨.persistCheck, rfl, by simp [QuestDbWriter.step, hp]⟩
      | waiting deadline => exact ⟨.persistWake, rfl, by simp [QuestDbWriter.step, hp, hs]⟩
      | sleeping deadline =>
        have hle := hsleep deadline hp
        exact ⟨.persistWake, rfl, by simp [QuestDbWriter.step, hp, hle]⟩
      | returned | raised e => exact ⟨.mainPersistDone, rfl, by simp [QuestDbWriter.step, hm, hp]⟩
      | cancelled => exact absurd hth (h.cancelled hp).2

end

/-! ## Runs -/

/-- A step of one process, behind the deadline of its shutdown. -/
def IsLateStep (w : World) (a : Action) : Prop := ¬ a.isRestart ∧ IsLate w

/-- **A shutdown whose deadline has passed comes to an end**: once a stop has reached the loop, no
order of steps gives the worker more turns than its buffer has rows, and twenty; and wherever its
thread is not dead, one of them can be taken, unless the persist loop still sleeps where it slept
before. -/
theorem shutdown_ends (config : Config) (env : Env) (db : Database) (history : List Obs)
    (w w' : World) (taken : List Action)
    (hrun : Steps step (fun _ _ => True) (.boot config env db history) w)
    (hstop : w.stopAsync = true)
    (hlate : Traced step IsLateStep (turnOf Action.isTurn) w w' taken) :
    taken.length ≤ w.config.settings.persistBatchRows + 20 ∧
      (w'.thread = .dead ∨
        (∃ deadline, w.persist = .sleeping deadline ∧ w'.persist = .sleeping deadline ∧
          w'.env.monotonic < deadline) ∨
        ∃ a, a.isTurn = true ∧ (step w' a).isSome = true) := by
  have hstart : Placed w ∧ Looped w := by
    refine hrun.invariant (I := fun w => Placed w ∧ Looped w) ⟨.boot .., .boot ..⟩ ?_
    rintro u a v ⟨hp, h⟩ - hs
    exact ⟨hp.step hs, h.step hp hs⟩
  have hranked := Traced.turns_le
    (fun v => (Placed v ∧ Looped v) ∧ v.stopAsync = true ∧
      ∀ deadline, v.persist = .sleeping deadline → w.persist = .sleeping deadline)
    turnsLeft hlate ⟨hstart, hstop, fun _ => id⟩ ?_ ?_ ?_
  · obtain ⟨⟨⟨-, h⟩, hs, hslept⟩, hle⟩ := hranked
    refine ⟨(Nat.le_of_add_right_le hle).trans w.turnsLeft_le, ?_⟩
    by_cases hsleep : ∃ deadline, w'.persist = .sleeping deadline ∧ w'.env.monotonic < deadline
    · obtain ⟨deadline, hat, hlt⟩ := hsleep
      exact .inr (.inl ⟨deadline, hslept deadline hat, hat, hlt⟩)
    · refine (h.progress hs fun deadline hd => ?_).imp_right .inr
      exact le_of_not_gt fun hlt => hsleep ⟨deadline, hd, hlt⟩
  · rintro u a v ⟨⟨hp, h⟩, hs, hslept⟩ ⟨hr, hl⟩ hstep
    have ht := Taken.of_step hstep
    refine ⟨⟨hp.step hstep, h.step hp hstep⟩, (ht.ambient hp hr).2 hs, fun deadline hat => ?_⟩
    exact hslept deadline (Taken.sleeping hs hl ht hr hat)
  · rintro u a v ⟨⟨hp, h⟩, hs, -⟩ ⟨-, hl⟩ hstep hturn
    exact Taken.turn_lt hp h hs hl (.of_step hstep) hturn
  · rintro u a v ⟨⟨hp, h⟩, hs, -⟩ ⟨hr, -⟩ hstep hother
    exact Taken.other_le hp h hs (.of_step hstep) hr hother

/-- An event is accepted, the disk is full, and a stop with a second to go reaches the loop, which
sleeps; ten seconds pass. -/
def fullDiskStop : List Action :=
  [.startCall, .threadOpen none, .threadStartup, .threadAnnounce, .submit lightEvent, .mainPublish,
    .mainTest, .environment fullDisk [], .stopCall 1, .stopLock 0, .stopSet 0, .stopSignal 0,
    .callback, .persistRun, .persistDrain, .persistDrain, .persistRound, .persistCheck,
    .environment { fullDisk with monotonic := 20 } []]

/-- The persist loop gives up, and the thread dies. -/
def givenUp : List Action :=
  [.persistWake, .persistRun, .persistDrain, .persistRound, .persistCheck, .mainStop, .deliverRun,
    .mainPersistDone, .threadFail, .threadClose none, .threadExit, .threadDie]

/-- `IsLateStep`, as a check. -/
def isLateStep (w : World) (a : Action) : Bool :=
  !a.isRestart && w.shared.shutdownDeadline.any (· ≤ w.env.monotonic)

/-- The check finds late steps. -/
theorem lateStep_of (w : World) (a : Action) (h : isLateStep w a = true) : IsLateStep w a := by
  obtain ⟨hr, hlate⟩ := Bool.and_eq_true_iff.mp h
  refine ⟨by simpa using hr, ?_⟩
  obtain ⟨deadline, hd, hle⟩ := (Option.any_eq_true _ _).mp hlate
  exact ⟨deadline, hd, of_decide_eq_true hle⟩

/-- The stop on a full disk comes to an end. -/
theorem fullDiskStop_ends : ∃ (w w' : World) (taken : List Action),
    exec step fullDiskStop (.boot .provisional .quiet .fresh []) = some w ∧
      exec step givenUp w = some w' ∧ w'.thread = .dead ∧
      Traced step IsLateStep (turnOf Action.isTurn) w w' taken ∧
      taken.length ≤ w.config.settings.persistBatchRows + 20 := by
  have hrun : ((exec step fullDiskStop (.boot .provisional .quiet .fresh [])).any fun w =>
      w.stopAsync && (execIn step isLateStep givenUp w).any fun w' =>
        decide (w'.thread = .dead)) = true := by
    decide +kernel
  obtain ⟨w, hw, hend⟩ := (Option.any_eq_true _ _).mp hrun
  obtain ⟨hstop, hlate⟩ := Bool.and_eq_true_iff.mp hend
  obtain ⟨w', hw', hdead⟩ := (Option.any_eq_true _ _).mp hlate
  obtain ⟨taken, htaken⟩ :=
    (Steps.of_execIn lateStep_of (Option.mem_def.mp hw')).traced (turnOf Action.isTurn)
  exact ⟨w, w', taken, hw, exec_of_execIn (Option.mem_def.mp hw'), of_decide_eq_true hdead, htaken,
    (shutdown_ends _ _ _ _ w w' taken (.of_exec (Option.mem_def.mp hw)) hstop htaken).1⟩

end World

end QuestDbWriter
