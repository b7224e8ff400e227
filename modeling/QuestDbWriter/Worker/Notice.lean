import QuestDbWriter.Worker.Schedule

/-!
# What the delivery loop has read

The persist loop sets the event of the delivery loop behind every turn, and the delivery loop clears
it in the step in which it parks, which is also the step in which it read the counters. So a loop
that is parked with its event clear has seen every row there is (`delivery_notices`), as long as the
persist loop has not raised: a turn that commits a batch and then cannot read the counters ends the
persist loop, and with it the worker, without a wake-up (`commit_unnoticed`).

`stepSeen` runs the system together with the counters that the delivery loop read last.
-/

namespace QuestDbWriter

open Lib SQLiteSpool

namespace World

/-! ## Reads -/

/-- The counters read behind an attempt. -/
def readsBehind : DeliveryEnd → List SpoolStats
  | (.ok _, backoff, w) => (w.withBackoff backoff).readStats.1.toOption.toList
  | (.error _, _, _) => []

/-- The counters read in a turn behind the schema gate, in their order. -/
def bodyReads (w : World) : List SpoolStats :=
  w.readStats.1.toOption.toList ++ w.attemptEnds.elim [] readsBehind

/-- The counters that the delivery loop reads in a step. -/
def deliveryReads (w : World) : Action → List SpoolStats
  | .deliverRun =>
    if w.stopAsync then [] else if w.locals.schemaReady then w.bodyReads else []
  | .deliverEnsured .ok => w.gatePassed.bodyReads
  | .deliverSent result => (w.attemptEnd (.deliverSent result)).elim [] readsBehind
  | _ => []

/-- A step of the system, and the counters that the delivery loop of the process read last. -/
def stepSeen (s : World × Option SpoolStats) (a : Action) : Option (World × Option SpoolStats) :=
  (step s.1 a).map fun w =>
    (w, if a.isRestart then none else (s.1.deliveryReads a).getLast?.or s.2)

section
variable {w w' : World} {a : Action}

/-- The run with the last read beside it takes every step of the service. -/
theorem stepSeen_of_step (h : step w a = some w') (read : Option SpoolStats) :
    stepSeen (w, read) a =
      some (w', if a.isRestart then none else (w.deliveryReads a).getLast?.or read) := by
  rw [stepSeen, h]
  rfl

/-- Reading is only observed: every run of the system is one with some reads. -/
theorem seen_of_steps {read : Option SpoolStats} (h : Steps step (fun _ _ => True) w w') :
    ∃ read', Steps stepSeen (fun _ _ => True) (w, read) (w', read') := by
  induction h with
  | refl => exact ⟨read, .refl⟩
  | tail a _ _ hs ih =>
    obtain ⟨seen, ih⟩ := ih
    exact ⟨_, .tail a ih trivial (stepSeen_of_step hs seen)⟩

/-! ## Parking -/

/-- Behind an attempt the task does not wait out a delay. -/
theorem afterDelivery_not_waiting (w : World) (outcome : DeliveryOutcome) (deadline : ℚ) :
    (w.afterDelivery outcome).deliver ≠ .waiting deadline := by
  unfold afterDelivery
  split <;> exact nofun

/-- Nor behind one that failed. -/
theorem deliveryFailed_not_waiting (w : World) (e : Exc) (deadline : ℚ) :
    (w.deliveryFailed e).deliver ≠ .waiting deadline := by
  unfold deliveryFailed
  split <;> exact nofun

/-- Nor at its start. -/
theorem deliverAttempt_not_waiting (w : World) (deadline : ℚ) :
    w.deliverAttempt.deliver ≠ .waiting deadline := by
  unfold deliverAttempt
  split
  · exact nofun
  · exact afterDelivery_not_waiting _ _ _
  · exact deliveryFailed_not_waiting _ _ _

/-- The counts that the loop reads last in a turn that parks it are those of the spool. -/
theorem deliverBody_parks (ho : w.spool.db.Opened) {deadline : ℚ}
    (hd : w.deliverBody.deliver = .waiting deadline) :
    w.bodyReads.getLast? = some (Sql.counts w.deliverBody.spool.db) := by
  unfold bodyReads attemptEnds
  unfold deliverBody at hd ⊢
  split at hd
  · cases hd
  · next stats v hv =>
    dsimp only at hd ⊢
    split at hd
    · exact absurd hd (deliverAttempt_not_waiting _ _)
    · next hdue =>
      obtain ⟨hdb, hstats⟩ : v.spool.db = w.spool.db ∧ stats = Sql.counts w.spool.db := by
        unfold readStats at hv
        split at hv
        · next s u hu =>
          obtain ⟨c, hrun, rfl⟩ := of_call hu
          cases hv
          have hsame := readOnly_stats w.spool
          rw [hrun] at hsame
          exact ⟨hsame, stats_ok ho hrun⟩
        · cases hv
      subst hstats
      rw [hv]
      dsimp only
      rw [if_neg hdue, if_neg hdue, ← hdb]
      rfl

/-- A step of the delivery loop that leaves it parked has read the counters of the spool. -/
theorem parks_read (hb : Bookkept w) (ht : Taken w a w') (ha : a.IsDeliver) {deadline : ℚ}
    (hd : w'.deliver = .waiting deadline) :
    (w.deliveryReads a).getLast? = some (Sql.counts w'.spool.db) := by
  have hopened : w.tasksRun = true → w.spool.db.Opened := fun ht =>
    hb.opened (hb.placed.looping (tasksRun_active ht) ▸ trivial)
  cases ht with
  | deliverRun ht =>
    unfold deliverTop at hd ⊢
    unfold deliveryReads
    split at hd
    · cases hd
    · next hstop =>
      rw [if_neg hstop, if_neg hstop]
      split at hd
      · next hready =>
        rw [if_pos hready, if_pos hready]
        exact deliverBody_parks (hopened ht) hd
      · cases hd
  | deliverEnsured result _ hensuring =>
    have ho : w.gatePassed.spool.db.Opened := hopened (hb.placed.delivering (hensuring ▸ trivial))
    cases result with
    | ok => exact deliverBody_parks ho hd
    | error e =>
      unfold deliverEnsured at hd
      dsimp only at hd
      split at hd <;> cases hd
    | schema mismatch message =>
      unfold deliverEnsured at hd
      dsimp only at hd
      split at hd <;> cases hd
    | raised e => cases hd
  | deliverSent built result =>
    unfold deliverSent at hd
    split at hd
    · exact absurd hd (afterDelivery_not_waiting _ _ _)
    · exact absurd hd (deliveryFailed_not_waiting _ _ _)
  | deliverWake => cases hd
  | _ => exact ha.elim

/-! ## The persist loop -/

/-- The end by an exception keeps that of the persist task. -/
theorem mainRaise_raised {e : Exc} (hp : w.persist = .raised e) (x : Exc) :
    (w.mainRaise x).persist = .raised e := by
  have hcancel : w.cancelPersist = w := by
    unfold cancelPersist
    rw [hp]
  obtain ⟨deliver, hd, -⟩ := cancelDeliver_eq w
  unfold mainRaise
  rw [hcancel, hd]
  exact hp

/-- A persist loop that has raised stays so. -/
theorem raised_stays (hplaced : Placed w) (ht : Taken w a w') (hr : ¬ a.isRestart) {e : Exc}
    (hp : w.persist = .raised e) : w'.persist = .raised e := by
  have hacts : ∀ {u}, Delivers w u → u.persist = .raised e := by
    intro u hu
    obtain ⟨_, _, _, _, _, _, rfl⟩ := hu.world
    exact hp
  have hflush : w.main.IsFlushing → False := fun hm => by cases hp.symm.trans (hplaced.flushing hm)
  have hcases := ht
  cases ht with
  | restart => exact absurd rfl hr
  | submit | submitSignal | startReady | startTimeout | startTimedOut | startSignal | stopCall
  | stopSet | stopSignal | stopReturn | wakePersist | stopAsync =>
    obtain ⟨_, _, _, _, _, _, _, _, _, _, _, _, _, _, _, he⟩ := (hcases.outside trivial).world
    rw [he]
    exact hp
  | environment | threadStartup | threadAnnounce | threadFail | threadClose | threadExit | threadDie
  | mainPublish | mainTest | mainStop => exact hp
  | startCall =>
    unfold startCall
    split <;> exact hp
  | stopLock i seen timeout =>
    obtain ⟨_, _, _, he, -⟩ := stopLock_eq w i seen timeout
    rw [he]
    exact hp
  | threadOpen factoryError =>
    obtain ⟨u, thread, hu, he, -⟩ := threadOpen_eq w factoryError
    obtain ⟨_, _, _, rfl⟩ := hu.world
    rw [he]
    exact hp
  | mainTaskDone x => exact mainRaise_raised hp x
  | mainPersistRaised x => exact mainRaise_raised hp x
  | mainPersisted _ hreturned => cases hp.symm.trans hreturned
  | flushEnsured _ hm => exact (hflush (hm ▸ trivial)).elim
  | flushSent _ _ hm => exact (hflush (hm ▸ trivial)).elim
  | persistRun _ hd => cases hp.symm.trans hd
  | persistDrain hd => cases hp.symm.trans hd
  | persistRound hd => cases hp.symm.trans hd
  | persistCheck hd => cases hp.symm.trans hd
  | persistWake deadline hd => rcases hd with hd | hd <;> cases hp.symm.trans hd
  | deliverRun => exact hacts (.deliverTop w)
  | deliverEnsured result => exact hacts (.deliverEnsured w result)
  | deliverSent built result => exact hacts (.deliverSent w built result)
  | deliverWake => exact hp

/-- A turn of the persist loop raises, or wakes the delivery loop. -/
theorem persistRound_wakes (w : World) :
    w.persistRound.wakeDeliver = true ∨ ∃ e, w.persistRound.persist = .raised e := by
  rcases persistRound_eq w with ⟨u, -, he⟩ | ⟨u, e, -, he⟩
  · exact .inl (he ▸ rfl)
  · exact .inr ⟨e, he ▸ rfl⟩

/-! ## Notice -/

/-- The delivery loop is parked and nothing wakes it; it is to go on, and so is the persist loop. -/
structure Parked (w : World) : Prop where
  waiting : ∃ deadline, w.deliver = .waiting deadline
  unwoken : w.wakeDeliver = false
  running : w.stopAsync = false
  persisting : ∀ e, w.persist ≠ .raised e

/-- What the delivery loop read last are the counts of the spool, where it is parked. -/
structure Noticed (s : World × Option SpoolStats) : Prop where
  books : Bookkept s.1
  read : Parked s.1 → s.2 = some (Sql.counts s.1.spool.db)

/-- **A step keeps what the parked loop has read up to date.** By cases on who acts: the loop itself
reads before it parks, a turn of the persist loop wakes it, and no other action writes to the spool
before a stop. -/
theorem Noticed.stepped {s s' : World × Option SpoolStats} (h : Noticed s)
    (hs : stepSeen s a = some s') : Noticed s' := by
  obtain ⟨w, read⟩ := s
  obtain ⟨w', hw, rfl⟩ := Option.map_eq_some_iff.mp hs
  refine ⟨h.books.step hw, fun hparked => ?_⟩
  obtain ⟨⟨deadline, hd⟩, hwake, hstop, hpersist⟩ := hparked
  have ht := Taken.of_step hw
  dsimp only at hd hwake hstop hpersist ⊢
  by_cases hr : a.isRestart
  · cases ht with
    | restart => cases hd
    | _ => cases hr
  rw [if_neg hr]
  by_cases ha : a.IsDeliver
  · rw [parks_read h.books ht ha hd, Option.some_or]
  have hu := ht.undelivered ha hr
  have hd' : w.deliver = .waiting deadline := by
    rcases hu.deliver with he | ⟨hover, -⟩
    · exact he ▸ hd
    · rw [hd] at hover
      exact hover.elim
  have hround : a ≠ .persistRound := by
    rintro rfl
    cases ht
    rcases persistRound_wakes w with hset | ⟨e, he⟩
    · cases hwake.symm.trans hset
    · exact hpersist e he
  have hrunning : w.stopAsync = false := by
    by_contra hne
    have hset := (ht.ambient h.books.placed hr).2 (by simpa using hne)
    cases hstop.symm.trans hset
  have hactive : w.main.IsActive :=
    tasksRun_active (h.books.placed.delivering (hd' ▸ trivial))
  have hflush : ¬ a.IsFlush := by
    intro hf
    have hstopping : w.main.IsStopping := by
      cases ht with
      | mainPersisted hm => exact hm ▸ trivial
      | mainPersistRaised _ hm => exact hm ▸ trivial
      | flushEnsured _ hm => exact hm ▸ trivial
      | flushSent _ _ hm => exact hm ▸ trivial
      | _ => exact hf.elim
    cases hrunning.symm.trans (h.books.placed.stopping hstopping)
  have hopen : ∀ factoryError, a ≠ .threadOpen factoryError := by
    rintro factoryError rfl
    cases ht with
    | threadOpen _ hth => cases hth.symm.trans (h.books.placed.looping hactive)
  have hreads : w.deliveryReads a = [] := by
    cases a with
    | deliverRun | deliverEnsured | deliverSent | deliverWake => exact absurd trivial ha
    | _ => rfl
  have hparked : Parked w := by
    refine ⟨⟨deadline, hd'⟩, ?_, hrunning, fun e he => ?_⟩
    · exact (hu.wake.resolve_right hround).symm.trans hwake
    · exact hpersist e (raised_stays h.books.placed ht hr he)
  rw [hreads, sameSpool ht ha hflush hopen hround]
  exact h.read hparked

end

/-- **No wake-up for the delivery loop is lost while the persist loop has not raised.** In every run
of the system, before a stop has reached the loop: where the delivery loop is parked with its event
clear, the pending rows and bytes that it read last are those of the spool; and where they are not,
it goes on as soon as no other coroutine is between two awaits. -/
theorem delivery_notices (config : Config) (env : Env) (w : World) (read : Option SpoolStats)
    (hrun : Steps stepSeen (fun _ _ => True) (.boot config env Database.fresh [], none) (w, read))
    (deadline : ℚ) (hd : w.deliver = .waiting deadline) (hstop : w.stopAsync = false)
    (hpersist : ∀ e, w.persist ≠ .raised e) :
    (w.wakeDeliver = false → ∃ stats, read = some stats ∧
      stats.pendingRows = w.spool.db.pending.length ∧
      stats.pendingBytes = Sql.rowBytes w.spool.db.pending) ∧
    ((∀ stats, read = some stats → stats.pendingRows ≠ w.spool.db.pending.length ∨
        stats.pendingBytes ≠ Sql.rowBytes w.spool.db.pending) →
      w.busy = false → (step w .deliverWake).isSome) := by
  have hboot : Noticed (.boot config env Database.fresh [], none) :=
    ⟨.of_books (.fresh config env), fun h => by obtain ⟨_, hwait⟩ := h.waiting; cases hwait⟩
  have hnoticed : Noticed (w, read) :=
    hrun.invariant hboot fun s a s' h _ hs => h.stepped hs
  have hread : w.wakeDeliver = false → read = some (Sql.counts w.spool.db) := fun hwake =>
    hnoticed.read ⟨⟨deadline, hd⟩, hwake, hstop, hpersist⟩
  refine ⟨fun hwake => ⟨_, hread hwake, rfl, rfl⟩, fun hdiffers hbusy => ?_⟩
  have hwake : w.wakeDeliver = true := by
    by_contra hclear
    rcases hdiffers _ (hread (by simpa using hclear)) with hne | hne
    · exact hne rfl
    · exact hne rfl
  simp [step, hd, hbusy, hwake]

/-- The service persists one event, its delivery fails, and the delivery loop parks. -/
def parkedOne : List Action :=
  persistedOne ++ [.deliverRun, .deliverSent (.error unavailable), .deliverRun]

/-- The parked loop has read the one row that is there. -/
theorem parkedOne_noticed : ∃ (w : World) (read : Option SpoolStats) (deadline : ℚ),
    exec stepSeen parkedOne (.boot .provisional .quiet .fresh [], none) = some (w, read) ∧
      w.deliver = .waiting deadline ∧ w.wakeDeliver = false ∧ w.spool.db.pending.length = 1 ∧
      ∃ stats, read = some stats ∧ stats.pendingRows = w.spool.db.pending.length ∧
        stats.pendingBytes = Sql.rowBytes w.spool.db.pending := by
  have hrun : ((exec stepSeen parkedOne (.boot .provisional .quiet .fresh [], none)).any fun s =>
      decide (s.1.wakeDeliver = false ∧ s.1.spool.db.pending.length = 1 ∧ s.1.stopAsync = false) &&
      match s.1.deliver, s.1.persist with
      | .waiting _, .waiting _ => true
      | _, _ => false) = true := by
    decide +kernel
  obtain ⟨⟨w, read⟩, hw, hrun⟩ := (Option.any_eq_true _ _).mp hrun
  obtain ⟨hend, hplaces⟩ := (Bool.and_eq_true _ _).mp hrun
  obtain ⟨hwake, hrows, hstop⟩ := of_decide_eq_true hend
  dsimp only at hplaces
  split at hplaces
  · next deadline _ hd hp =>
    refine ⟨w, read, deadline, hw, hd, hwake, hrows, ?_⟩
    exact (delivery_notices _ _ w read (.of_exec hw) deadline hd hstop (by simp [hp])).1 hwake
  · cases hplaces

/-- Behind a first turn of the persist loop, the delivery loop parks on an empty spool; the turn of
a `submit()` commits one event, and cannot read the counters behind it. -/
def unreadCommit : List Action :=
  [.startCall, .threadOpen none, .threadStartup, .threadAnnounce, .mainPublish, .mainTest,
    .persistRun, .persistDrain, .persistRound, .persistCheck, .deliverRun, .submit lightEvent,
    .submitSignal, .callback, .persistWake, .persistRun, .persistDrain, .persistDrain,
    .environment .quiet (List.replicate 6 none ++ [some none]), .persistRound]

/-- **A commit can go unnoticed**: the persist loop raises behind it, and the delivery loop stays
parked with its event clear. No stop has been requested. -/
theorem commit_unnoticed : ¬ ∀ (config : Config) (env : Env) (w : World) (read : Option SpoolStats),
    Steps stepSeen (fun _ _ => True) (.boot config env Database.fresh [], none) (w, read) →
      ∀ deadline, w.deliver = .waiting deadline → w.wakeDeliver = false → w.stopAsync = false →
        w.stopRequested = false → ∃ stats, read = some stats ∧
          stats.pendingRows = w.spool.db.pending.length ∧
          stats.pendingBytes = Sql.rowBytes w.spool.db.pending := by
  intro h
  have hrun : ((exec stepSeen unreadCommit (.boot .provisional .quiet .fresh [], none)).any fun s =>
      decide (s.1.wakeDeliver = false ∧ s.1.stopAsync = false ∧ s.1.stopRequested = false) &&
      (s.2.all fun stats => !decide (stats.pendingRows = (s.1.spool.db.pending.length : Int))) &&
      match s.1.deliver with
      | .waiting _ => true
      | _ => false) = true := by
    decide +kernel
  obtain ⟨⟨w, read⟩, hw, hrun⟩ := (Option.any_eq_true _ _).mp hrun
  obtain ⟨hend, hplace⟩ := (Bool.and_eq_true _ _).mp hrun
  obtain ⟨hend, hdiffers⟩ := (Bool.and_eq_true _ _).mp hend
  obtain ⟨hwake, hstop, hrequested⟩ := of_decide_eq_true hend
  dsimp only at hplace
  split at hplace
  · next deadline hd =>
    obtain ⟨stats, rfl, hrows, -⟩ := h _ _ w read (.of_exec hw) deadline hd hwake hstop hrequested
    simp [hrows] at hdiffers
  · cases hplace

end World

end QuestDbWriter
