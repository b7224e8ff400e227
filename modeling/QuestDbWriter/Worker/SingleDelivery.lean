import QuestDbWriter.Worker.Deliveries

/-!
# One delivery at a time

The delivery loop and the shutdown flush both call `_deliver_once`. Once a stop has reached the
loop, its turns begin no delivery, but a request that is in flight goes on. So two deliveries are
outstanding at a time only where the flush begins beside such a request (`FlushesAlone`);
`single_delivery` says that otherwise each batch in flight is of rows that are still pending.
-/

namespace QuestDbWriter

open Lib Database SQLiteSpool
open Session (eval run)

/-- The delivery loop has a request in flight: a `schema.ensure`, behind which it may send a batch,
or a `send_batch`. -/
def DeliverPc.IsRequesting : DeliverPc → Prop
  | .ensuring | .sending _ => True
  | _ => False

instance (d : DeliverPc) : Decidable d.IsRequesting :=
  match d with
  | .ensuring | .sending _ => .isTrue trivial
  | .top | .gateWait _ | .waiting _ | .returned | .raised _ | .cancelled => .isFalse id

/-- A task that has ended has no request in flight. -/
theorem DeliverPc.IsOver.not_requesting {d : DeliverPc} (h : d.IsOver) : ¬ d.IsRequesting := by
  cases d <;> first | exact h.elim | exact id

namespace World

section
variable {attempt : Prop} {w w' : World} {a : Action} {built : BuiltBatch}

/-- A `_deliver_once` awaits the end of its `send_batch`. -/
def Outstanding (w : World) (built : BuiltBatch) : Prop :=
  w.deliver = .sending built ∨ w.main = .flushSending built

/-- The shutdown flush does not begin while the delivery loop has a request in flight. -/
def FlushesAlone (w : World) (a : Action) : Prop :=
  a = .mainPersistDone → w.persist = .returned → w.config.settings.flushOnShutdown = true →
    w.spool.db.pending ≠ [] → ¬ w.deliver.IsRequesting

/-! ## The invariant -/

/-- The flush is alone, and the rows of a batch in flight are pending. -/
structure Single (w : World) : Prop where
  apart : w.main.IsFlushing → ¬ w.deliver.IsRequesting
  present : ∀ built, Outstanding w built → ∀ s ∈ built.sequences,
    s ∈ w.spool.db.pending.map (·.sequence)

/-- The rows of a batch that has just been built are pending. -/
theorem Fresh.present (h : Fresh w built) :
    ∀ s ∈ built.sequences, s ∈ w.spool.db.pending.map (·.sequence) := by
  obtain ⟨-, rows, rest, hp, hof⟩ := h
  rw [hof.sequences, hp, List.map_append]
  exact fun s hs => List.mem_append_left _ hs

namespace Single

/-- No delivery is outstanding, and none will be. -/
theorem of_idle (hm : ¬ w.main.IsFlushing) (hd : ¬ w.deliver.IsRequesting) : Single w where
  apart h := absurd h hm
  present built h := by
    rcases h with h | h
    · exact absurd (h ▸ trivial) hd
    · exact absurd (h ▸ trivial) hm

/-- A new process delivers nothing yet. -/
theorem boot (config : Config) (env : Env) (db : Database) (history : List Obs) :
    Single (.boot config env db history) :=
  of_idle id id

/-- A step that begins no delivery, and takes no row away. -/
theorem of_eq (h : Single w) (hm : w'.main = w.main ∨ ¬ w'.main.IsFlushing)
    (hd : w'.deliver = w.deliver ∨ ¬ w'.deliver.IsRequesting)
    (hp : w.spool.db.pending <+: w'.spool.db.pending) : Single w' where
  apart hflush hrequest := by
    rcases hm with hm | hm
    · rcases hd with hd | hd
      · exact h.apart (hm ▸ hflush) (hd ▸ hrequest)
      · exact hd hrequest
    · exact hm hflush
  present built hout s hs := by
    have hold : Outstanding w built := by
      rcases hout with hsending | hflushing
      · rcases hd with hd | hd
        · exact .inl (hd.symm.trans hsending)
        · exact absurd (hsending ▸ trivial) hd
      · rcases hm with hm | hm
        · exact .inr (hm.symm.trans hflushing)
        · exact absurd (hflushing ▸ trivial) hm
    exact (hp.map _).subset (h.present built hold s hs)

/-- The end by an exception starts no request. -/
theorem mainRaise (u : World) (e : Exc) : Single (u.mainRaise e) := by
  obtain ⟨persist, deliver, he, -, -, hover⟩ := mainRaise_eq u e
  rw [he]
  exact of_idle id hover.not_requesting

/-- Neither does the return. -/
theorem mainFinish (u : World) : Single u.mainFinish := by
  rcases mainFinish_eq u with ⟨e, he⟩ | ⟨deliver, he, hover⟩
  · rw [he]
    exact mainRaise u e
  · rw [he]
    exact of_idle id hover.not_requesting

/-- A turn of the delivery loop while nothing is flushed. -/
theorem delivers (hm : ¬ w.main.IsFlushing) (ht : DeliverTurn attempt w w') (hd : Delivers w w') :
    Single w' := by
  have hsame : w'.main = w.main := by
    obtain ⟨_, _, _, _, _, _, rfl⟩ := hd.world
    rfl
  constructor
  · exact fun hflush => absurd (hsame ▸ hflush) hm
  · rintro built (hsending | hflushing)
    · exact (ht.fresh built hsending).present
    · rw [hsame] at hflushing
      exact absurd (hflushing ▸ trivial) hm

/-- A turn of the shutdown flush while the delivery loop has no request in flight. -/
theorem flushes (hd : ¬ w.deliver.IsRequesting) (ht : FlushTurn attempt w w') (hf : Flushes w w') :
    Single w' := by
  have hidle : ¬ w'.deliver.IsRequesting := by
    have hundelivered : Undelivered w .mainPersistDone w' := .of_flushes hf
    rcases hundelivered.deliver with he | ⟨hover, -⟩
    · rwa [he]
    · exact hover.not_requesting
  constructor
  · exact fun _ => hidle
  · rintro built (hsending | hflushing)
    · exact absurd (hsending ▸ trivial) hidle
    · exact (ht.fresh built hflushing).present

/-- The persist task has returned: the flush begins alone, or not at all. -/
theorem mainPersisted (hb : Bookkept w) (ho : w.spool.db.Opened)
    (hg : w.config.settings.flushOnShutdown = true → w.spool.db.pending ≠ [] →
      ¬ w.deliver.IsRequesting) : Single w.mainPersisted := by
  by_cases hflush : w.config.settings.flushOnShutdown = true ∧ w.spool.db.pending ≠ []
  · have hturn : FlushTurn False w w.mainPersisted := mainPersisted_turn hb.books ho
    exact flushes (hg hflush.1 hflush.2) hturn (Flushes.mainPersisted w)
  · unfold World.mainPersisted
    split
    · next hon =>
      split
      · next e v hv => exact mainRaise v e
      · next stats v hv =>
        -- nothing is pending, and the counters say so
        have hempty : w.spool.db.pending = [] := by
          by_contra hne
          exact hflush ⟨hon, hne⟩
        obtain ⟨c, hrun, -⟩ := of_call hv
        have hnone : stats.pendingRows = 0 := by
          rw [stats_ok ho hrun, Sql.counts, hempty]
          rfl
        rw [if_pos hnone]
        exact mainFinish v
    · exact mainFinish w

/-- **Every step that meets the condition keeps it.** -/
theorem step (hb : Bookkept w) (h : Single w) (hg : FlushesAlone w a)
    (hs : QuestDbWriter.step w a = some w') : Single w' := by
  have ht := Taken.of_step hs
  have hloop : w.main.IsActive → w.spool.db.Opened := fun hm =>
    hb.opened (hb.placed.looping hm ▸ trivial)
  have htasks : w.tasksRun → w.spool.db.Opened := fun hrun => hloop (tasksRun_active hrun)
  have happends : ¬ a.IsDeliver → ¬ a.IsFlush → w.spool.db.pending <+: w'.spool.db.pending :=
    hb.appends ht
  have hcases := ht
  cases ht with
  | restart config env => exact boot ..
  | submit | submitSignal | startReady | startTimeout | startTimedOut | startSignal | stopCall
  | stopSet | stopSignal | stopReturn | wakePersist | stopAsync =>
    have ho := hcases.outside trivial
    exact h.of_eq (.inl ho.main) (.inl ho.deliver) (happends id id)
  | environment | threadStartup | threadFail | threadClose | threadExit | threadDie
  | persistRun | persistWake => exact h.of_eq (.inl rfl) (.inl rfl) (happends id id)
  | threadAnnounce | mainPublish | mainTest | mainStop =>
    exact h.of_eq (.inr id) (.inl rfl) (happends id id)
  | startCall =>
    refine h.of_eq (.inl ?_) (.inl ?_) (happends id id)
    · unfold World.startCall
      split <;> rfl
    · unfold World.startCall
      split <;> rfl
  | stopLock i seen timeout =>
    obtain ⟨pc, state, deadline, he, -⟩ := stopLock_eq w i seen timeout
    rw [he] at happends ⊢
    exact h.of_eq (.inl rfl) (.inl rfl) (happends id id)
  | threadOpen factoryError =>
    obtain ⟨u, thread, hu, he, -⟩ := threadOpen_eq w factoryError
    rw [he] at happends ⊢
    obtain ⟨_, _, _, rfl⟩ := hu.world
    exact h.of_eq (.inl rfl) (.inl rfl) (happends id id)
  | mainTaskDone e => exact mainRaise w e
  | mainPersistRaised e => exact mainRaise w e
  | mainPersisted hm hp => exact .mainPersisted hb (hloop (hm ▸ trivial)) (hg rfl hp)
  | flushEnsured result hm =>
    have hturn : FlushTurn False w (w.flushEnsured result) :=
      flushEnsured_turn hb.books (hloop (hm ▸ trivial)) result
    exact flushes (h.apart (hm ▸ trivial)) hturn (Flushes.flushEnsured w result)
  | flushSent built result hm =>
    have hturn := flushSent_turn hb.books (hloop (hm ▸ trivial)) (hb.flushing built hm) result
    exact flushes (h.apart (hm ▸ trivial)) hturn (Flushes.flushSent w built result)
  | persistDrain =>
    rcases persistDrain_eq w with ⟨event, ingress, -, -, he⟩ | he
    · rw [he] at happends ⊢
      exact h.of_eq (.inl rfl) (.inl rfl) (happends id id)
    · rw [he] at happends ⊢
      exact h.of_eq (.inl rfl) (.inl rfl) (happends id id)
  | persistRound =>
    have hframe : w.persistRound.main = w.main ∧ w.persistRound.deliver = w.deliver := by
      rcases persistRound_eq w with ⟨u, hu, he⟩ | ⟨u, e, hu, he⟩
      · obtain ⟨⟨_, _, _, _, rfl⟩, -⟩ := hu.frame
        rw [he]
        exact ⟨rfl, rfl⟩
      · obtain ⟨⟨_, _, _, _, rfl⟩, -⟩ := hu.frame
        rw [he]
        exact ⟨rfl, rfl⟩
    exact h.of_eq (.inl hframe.1) (.inl hframe.2) (happends id id)
  | persistCheck =>
    rcases persistCheck_eq w with ⟨he, -⟩ | ⟨persist, wakePersist, he, -⟩
    · rw [he] at happends ⊢
      exact h.of_eq (.inl rfl) (.inl rfl) (happends id id)
    · rw [he] at happends ⊢
      exact h.of_eq (.inl rfl) (.inl rfl) (happends id id)
  | deliverRun hrun =>
    by_cases hstop : w.stopAsync = true
    · unfold deliverTop
      rw [if_pos hstop]
      exact h.of_eq (.inl rfl) (.inr id) (List.prefix_refl _)
    · have hm : ¬ w.main.IsFlushing := fun hm => hstop (hb.placed.stopping hm.stopping)
      have hturn : DeliverTurn False w w.deliverTop := deliverTop_turn hb.books (htasks hrun)
      exact delivers hm hturn (Delivers.deliverTop w)
  | deliverEnsured result hbusy hd =>
    have hm : ¬ w.main.IsFlushing := fun hm => h.apart hm (hd ▸ trivial)
    have hturn : DeliverTurn False w (w.deliverEnsured result) :=
      deliverEnsured_turn hb.books (htasks (hb.placed.delivering (hd ▸ trivial))) result
    exact delivers hm hturn (Delivers.deliverEnsured w result)
  | deliverSent built result hbusy hd =>
    have hm : ¬ w.main.IsFlushing := fun hm => h.apart hm (hd ▸ trivial)
    have hturn := deliverSent_turn hb.books (htasks (hb.placed.delivering (hd ▸ trivial)))
      (hb.sending built hd) result
    exact delivers hm hturn (Delivers.deliverSent w built result)
  | deliverWake => exact h.of_eq (.inl rfl) (.inr id) (List.prefix_refl _)

/-- It holds in every run whose flushes come alone. -/
theorem of_steps {config : Config} {env : Env}
    (h : Steps QuestDbWriter.step FlushesAlone (.boot config env Database.fresh []) w) :
    Bookkept w ∧ Single w :=
  h.invariant (I := fun v => Bookkept v ∧ Single v) ⟨.of_books (.fresh config env), boot ..⟩
    fun _ _ _ ⟨hb, hv⟩ hg hs => ⟨hb.step hs, hv.step hb hg hs⟩

end Single

/-! ## Its end -/

/-- The rows of a batch that are all pending are the front of the queue. -/
theorem Batched.front (hb : Books w) (h : Batched w built)
    (hall : ∀ s ∈ built.sequences, s ∈ w.spool.db.pending.map (·.sequence)) :
    ∃ rows rest, w.spool.db.pending = rows ++ rest ∧
      built.sequences = rows.map (·.sequence) := by
  refine ⟨_, _, (h.split hb).symm, ?_⟩
  obtain ⟨hsame, -⟩ := h.rowsOf hb hall
  rw [World.rowsOf, List.map_map] at hsame
  exact hsame.symm

/-- **A batch whose rows are pending is delivered** once its `send_batch` has succeeded. -/
theorem deliverFinish_succeeds (h : Working w) {rows rest : List SpoolRecord}
    (hp : w.spool.db.pending = rows ++ rest) (hs : built.sequences = rows.map (·.sequence))
    (backoff : Backoff) :
    ∃ v, w.deliverFinish built backoff .ok = (.ok .success, .initial w.config.settings, v) ∧
      v.Working := by
  have hsent : Working (w.observe (.sent built .ok)) := ⟨h.healthy, h.coherent, h.opened⟩
  obtain ⟨v, hdone, hv, -⟩ := batchDelivered_healthy (w := w.observe (.sent built .ok)) hsent hp hs
  have hconfig : v.config = w.config := by
    have hacts := Acts.framed.batchDelivered (w.observe (.sent built .ok)) built
    rw [hdone] at hacts
    obtain ⟨_, _, _, he⟩ : ∃ spool shared history,
      v = { w.observe (.sent built .ok) with spool, shared, history } := hacts.world
    rw [he]
    rfl
  refine ⟨v, ?_, hv⟩
  unfold deliverFinish
  dsimp only
  rw [hdone]
  exact congrArg (fun config => (_, Backoff.initial config.settings, v)) hconfig

/-- What a batch in flight meets on storage that does not fail: its rows can be removed, and an
attempt can be recorded on them. -/
structure Removable (w : World) (built : BuiltBatch) : Prop where
  markDelivered : (w.call (SQLiteSpool.markDelivered built.sequences)).1 =
    .ok built.sequences.length
  recordAttempt : ∀ text flag, StorableText text →
    (w.call (SQLiteSpool.recordAttempt built.sequences text flag)).1 = .ok built.sequences.length

/-- A batch whose rows are pending can be removed. -/
theorem Removable.of_present (h : Working w) (hb : Batched w built)
    (hall : ∀ s ∈ built.sequences, s ∈ w.spool.db.pending.map (·.sequence)) :
    Removable w built := by
  have hnodup : built.sequences.Nodup := hb.increasing.imp ne_of_lt
  constructor
  · rw [call_healthy h.healthy (clear_markDelivered _), eval_markDelivered h.coherent hnodup hall]
  · intro text flag ht
    rw [call_healthy h.healthy (clear_recordAttempt _ _ _),
      eval_recordAttempt h.coherent hnodup hall ht.nonempty ht.encodable]

/-- The delivery loop goes on behind a `send_batch` that has succeeded. -/
theorem deliverSent_succeeds (h : Working w) {rows rest : List SpoolRecord}
    (hp : w.spool.db.pending = rows ++ rest) (hs : built.sequences = rows.map (·.sequence)) :
    (w.deliverSent built .ok).deliver = .top := by
  obtain ⟨v, hfinish, hv⟩ := deliverFinish_succeeds h hp hs w.locals.backoff
  have hworking : Working (v.withBackoff (.initial w.config.settings)) :=
    ⟨hv.healthy, hv.coherent, hv.opened⟩
  obtain ⟨shared, locals, he, -⟩ := afterDelivery_working hworking .success
  unfold deliverSent
  rw [hfinish]
  exact congrArg World.deliver he

/-- The shutdown flush ends the worker behind a `send_batch` that has succeeded, and raises nothing
but what the delivery loop has raised. -/
theorem flushSent_succeeds (h : Working w) {rows rest : List SpoolRecord}
    (hp : w.spool.db.pending = rows ++ rest)
    (hs : built.sequences = rows.map (·.sequence)) {e : Exc}
    (he : (w.flushSent built .ok).thread = .raising e) : w.deliver = .raised e := by
  obtain ⟨v, hfinish, -⟩ := deliverFinish_succeeds h hp hs w.flushBackoff
  have hsame : v.deliver = w.deliver := by
    have hacts := Acts.framed.deliverFinish w built w.flushBackoff .ok
    rw [hfinish] at hacts
    obtain ⟨_, _, _, hv⟩ : ∃ spool shared history, v = { w with spool, shared, history } :=
      hacts.world
    rw [hv]
  unfold flushSent at he
  rw [hfinish] at he
  unfold World.mainFinish at he
  dsimp only at he
  split at he
  · next x hd =>
    cases he
    exact hsame.symm.trans hd
  · cases he

end

/-- **One delivery at a time**: in every run in which the shutdown flush never begins beside a
request of the delivery loop, two deliveries are never outstanding, and the rows of the one that is
are pending. So on storage that does not fail `mark_delivered` and `record_attempt` succeed, and
where its `send_batch` does, the worker does not fail through it. -/
theorem single_delivery (config : Config) (env : Env) (w : World)
    (hrun : Steps step FlushesAlone (.boot config env Database.fresh []) w) :
    (∀ built flushed, w.deliver = .sending built → w.main ≠ .flushSending flushed) ∧
      ∀ built, Outstanding w built → w.Healthy →
        Removable w built ∧
        (w.deliver = .sending built → (w.deliverSent built .ok).deliver = .top) ∧
        (w.main = .flushSending built → ∀ e, (w.flushSent built .ok).thread = .raising e →
          w.deliver = .raised e) := by
  obtain ⟨hb, hsingle⟩ := Single.of_steps hrun
  constructor
  · exact fun built flushed hsending hflushing =>
      hsingle.apart (hflushing ▸ trivial) (hsending ▸ trivial)
  · intro built hout hhealthy
    have hbatched : Batched w built := hout.elim (hb.sending built) (hb.flushing built)
    have hactive : w.main.IsActive := by
      rcases hout with hsending | hflushing
      · exact tasksRun_active (hb.placed.delivering (hsending ▸ trivial))
      · rw [hflushing]
        trivial
    have hworking : Working w :=
      ⟨hhealthy, hb.books.coherent, hb.opened (hb.placed.looping hactive ▸ trivial)⟩
    have hall := hsingle.present built hout
    obtain ⟨rows, rest, hp, hs⟩ := hbatched.front hb.books hall
    exact ⟨.of_present hworking hbatched hall, fun _ => deliverSent_succeeds hworking hp hs,
      fun _ e => flushSent_succeeds hworking hp hs⟩

/-- The development profile with a shutdown flush. -/
def flushProfile : Config :=
  { Config.provisional with
    settings := { WorkerSettings.provisional with flushOnShutdown := true } }

/-- The service starts, and persists one event. -/
def persistedOne : List Action :=
  [.startCall, .threadOpen none, .threadStartup, .threadAnnounce, .mainPublish, .mainTest,
    .submit lightEvent, .persistRun, .persistDrain, .persistDrain, .persistRound, .persistCheck]

/-- `stop()` is called, the persist loop returns, and the flush begins. -/
def stopFlush : List Action :=
  [.stopCall 1, .stopLock 0, .stopSet 0, .stopSignal 0, .callback, .mainStop, .persistWake,
    .persistRun, .persistDrain, .persistRound, .persistCheck, .mainPersistDone]

/-- The check of `FlushesAlone`. -/
def isFlushedAlone (w : World) : Action → Bool
  | .mainPersistDone => decide (¬ w.deliver.IsRequesting)
  | _ => true

/-- The check of an action is its condition. -/
theorem flushesAlone_of (w : World) (a : Action) (h : isFlushedAlone w a = true) :
    FlushesAlone w a := by
  rintro rfl - - -
  exact of_decide_eq_true h

/-- The flush of an idle delivery loop is alone. -/
theorem stopFlush_single : ∃ (w : World) (built : BuiltBatch),
    exec step (persistedOne ++ stopFlush) (.boot flushProfile .quiet .fresh []) = some w ∧
      w.main = .flushSending built ∧ (∀ sent, w.deliver ≠ .sending sent) ∧ Removable w built := by
  have hrun : ((execIn step isFlushedAlone (persistedOne ++ stopFlush)
      (.boot flushProfile .quiet .fresh [])).any fun w => decide (w.spool.faults = []) &&
        w.main.isFlushSending) = true := by
    decide +kernel
  obtain ⟨w, hw, hend⟩ := (Option.any_eq_true _ _).mp hrun
  obtain ⟨hhealthy, hflushing⟩ := (Bool.and_eq_true _ _).mp hend
  have hhealthy : w.Healthy := of_decide_eq_true (p := w.spool.faults = []) hhealthy
  obtain ⟨built, hm⟩ := MainPc.isFlushSending_iff.mp hflushing
  obtain ⟨hone, hout⟩ := single_delivery _ _ w
    (.of_execIn flushesAlone_of (Option.mem_def.mp hw))
  exact ⟨w, built, exec_of_execIn (Option.mem_def.mp hw), hm,
    fun sent hd => hone sent built hd hm, (hout built (.inr hm) hhealthy).1⟩

/-- **Two deliveries can be outstanding at a time**: a `stop()` comes while the delivery loop has a
request in flight, and the flush sends the same row. Both requests succeed on storage that does not
fail, and the worker ends in `FAILED`: `mark_delivered` of the flush finds the row gone. -/
theorem stop_overlaps :
    (¬ ∀ (config : Config) (env : Env) (w : World),
      Steps step (fun _ _ => True) (.boot config env Database.fresh []) w →
        ∀ built flushed, w.deliver = .sending built → w.main ≠ .flushSending flushed) ∧
    ¬ ∀ (config : Config) (env : Env) (w w' : World),
      Steps step (fun _ _ => True) (.boot config env Database.fresh []) w → w.Healthy →
        exec step [.deliverSent .ok, .flushSent .ok, .threadFail] w = some w' →
          w'.shared.state ≠ .failed := by
  have hrun : ((exec step (persistedOne ++ .deliverRun :: stopFlush)
      (.boot flushProfile .quiet .fresh [])).any fun w => decide (w.spool.faults = []) &&
        (w.deliver.isSending && w.main.isFlushSending) &&
        (exec step [.deliverSent .ok, .flushSent .ok, .threadFail] w).any fun w' =>
          decide (w'.shared.state = .failed)) = true := by
    decide +kernel
  obtain ⟨w, hw, hend⟩ := (Option.any_eq_true _ _).mp hrun
  obtain ⟨hend, hfailed⟩ := (Bool.and_eq_true _ _).mp hend
  obtain ⟨hhealthy, hboth⟩ := (Bool.and_eq_true _ _).mp hend
  obtain ⟨w', hw', hstate⟩ := (Option.any_eq_true _ _).mp hfailed
  constructor
  · intro h
    obtain ⟨hsending, hflushing⟩ := (Bool.and_eq_true _ _).mp hboth
    obtain ⟨built, hd⟩ := DeliverPc.isSending_iff.mp hsending
    obtain ⟨flushed, hm⟩ := MainPc.isFlushSending_iff.mp hflushing
    exact h _ _ w (.of_exec hw) built flushed hd hm
  · intro h
    have hhealthy : w.Healthy := of_decide_eq_true (p := w.spool.faults = []) hhealthy
    exact h _ _ w w' (.of_exec hw) hhealthy hw' (of_decide_eq_true hstate)

end World

end QuestDbWriter
