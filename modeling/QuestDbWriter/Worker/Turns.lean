import QuestDbWriter.Worker.Keeping
import QuestDbWriter.Worker.Sides
import QuestDbWriter.Lib.Transition

/-!
# The books of a run

Every turn of a coroutine keeps the books, and where it leaves a request in flight, the batch is a
fresh one. So in every state of a run the books are kept and the batches in flight are of the oldest
rows (`Bookkept`); `Carries` is what one step does to the rows.
-/

namespace QuestDbWriter

open Lib Database SQLiteSpool
open Session (run)

/-- The actions that end a `send_batch`. -/
def Action.IsSent : Action → Prop
  | .deliverSent _ | .flushSent _ => True
  | _ => False

/-- The actions of the shutdown flush, the one that begins it first. -/
def Action.IsFlush : Action → Prop
  | .mainPersistDone | .flushEnsured _ | .flushSent _ => True
  | _ => False

/-- The spool has been opened, and is not being closed. -/
def ThreadPc.IsOpen : ThreadPc → Prop
  | .opened | .announcing | .looping => True
  | _ => False

namespace World

/-! ## Turns -/

section
variable {attempt : Prop} {u w w' : World}

/-- A turn of the delivery loop, which may leave a fresh batch in flight. -/
structure DeliverTurn (attempt : Prop) (w w' : World) : Prop where
  keeps : Keeps attempt w w'
  fresh : ∀ built, w'.deliver = .sending built → Fresh w' built

/-- What keeps the books may come in front of a turn. -/
theorem DeliverTurn.after (hk : Keeps attempt w u)
    (h : Keeps attempt w u → DeliverTurn attempt u w') : DeliverTurn attempt w w' :=
  ⟨hk.trans (h hk).keeps, (h hk).fresh⟩

/-- The loop only reads the counters behind a delivery, and sends nothing. -/
theorem afterDelivery_quiet (w : World) (outcome : DeliveryOutcome) :
    Quiet attempt w (w.afterDelivery outcome) ∧
      ∀ built, (w.afterDelivery outcome).deliver ≠ .sending built := by
  unfold afterDelivery
  split
  · next e v hv => exact ⟨(Quiet.readStats hv).trans (.of_eq rfl rfl rfl rfl), nofun⟩
  · next stats v hv => exact ⟨(Quiet.readStats hv).trans (.of_eq rfl rfl rfl rfl), nofun⟩

/-- A failed delivery only opens a pause, and sends nothing. -/
theorem deliveryFailed_quiet (w : World) (e : Exc) :
    Quiet attempt w (w.deliveryFailed e) ∧
      ∀ built, (w.deliveryFailed e).deliver ≠ .sending built := by
  unfold deliveryFailed
  split
  · exact ⟨(Quiet.blockOnStorage w _ _).trans (.of_eq rfl rfl rfl rfl), nofun⟩
  · exact ⟨.of_eq rfl rfl rfl rfl, nofun⟩

/-- What follows a delivery starts no other. -/
theorem DeliverTurn.of_quiet (hk : Keeps attempt w u)
    (hq : Quiet attempt u w' ∧ ∀ built, w'.deliver ≠ .sending built) : DeliverTurn attempt w w' :=
  ⟨hk.quiet hq.1, fun built hb => absurd hb (hq.2 built)⟩

/-- An attempt to deliver is a turn. -/
theorem deliverAttempt_turn (h : Books w) (ho : w.spool.db.Opened) :
    DeliverTurn attempt w w.deliverAttempt := by
  unfold deliverAttempt
  split
  · next built backoff v hv =>
    obtain ⟨hk, hfresh⟩ := deliverStart_keeps h ho hv
    refine ⟨hk.quiet (.of_eq rfl rfl rfl rfl), fun b hb => ?_⟩
    cases hb
    exact hfresh built rfl
  · next outcome backoff v hv =>
    obtain ⟨hk, -⟩ := deliverStart_keeps h ho hv
    have hk' : Keeps attempt w (v.withBackoff backoff) := hk.quiet (.of_eq rfl rfl rfl rfl)
    exact .of_quiet hk' (afterDelivery_quiet _ outcome)
  · next e backoff v hv =>
    obtain ⟨hk, -⟩ := deliverStart_keeps h ho hv
    have hk' : Keeps attempt w (v.withBackoff backoff) := hk.quiet (.of_eq rfl rfl rfl rfl)
    exact .of_quiet hk' (deliveryFailed_quiet _ e)

/-- The body of the loop is a turn. -/
theorem deliverBody_turn (h : Books w) (ho : w.spool.db.Opened) :
    DeliverTurn attempt w w.deliverBody := by
  unfold deliverBody
  split
  · next e v hv =>
    exact ⟨((Quiet.readStats hv).keeps h).quiet (.of_eq rfl rfl rfl rfl), nofun⟩
  · next stats v hv =>
    dsimp only
    have hk : Keeps attempt w { v with locals := { v.locals with
        pendingSince := pendingSinceAt v.env.monotonic stats v.locals.pendingSince } } :=
      ((Quiet.readStats hv).keeps h).quiet (.of_eq rfl rfl rfl rfl)
    split
    · exact .after hk fun hk => deliverAttempt_turn hk.books (hk.opened ho)
    · exact ⟨hk.quiet (.of_eq rfl rfl rfl rfl), nofun⟩

/-- From the top of the loop to its next await is a turn. -/
theorem deliverTop_turn (h : Books w) (ho : w.spool.db.Opened) :
    DeliverTurn attempt w w.deliverTop := by
  unfold deliverTop
  split
  · exact ⟨(Keeps.refl h).quiet (.of_eq rfl rfl rfl rfl), nofun⟩
  · split
    · exact deliverBody_turn h ho
    · exact ⟨(Keeps.refl h).quiet (.of_eq rfl rfl rfl rfl), nofun⟩

/-- From the schema check to the next await is a turn. -/
theorem deliverEnsured_turn (h : Books w) (ho : w.spool.db.Opened) (result : EnsureResult) :
    DeliverTurn attempt w (w.deliverEnsured result) := by
  have hk : Keeps attempt w (w.observe (.ensured result)) :=
    (Quiet.observe w (o := .ensured result) trivial).keeps h
  have hblocked : ∀ error, DeliverTurn attempt w
      ((w.observe (.ensured result)).gateBlocked error) := fun error =>
    ⟨(hk.quiet (.setDeliveryState ..)).quiet (.of_eq rfl rfl rfl rfl), nofun⟩
  have hraised : ∀ e, DeliverTurn attempt w
      { w.observe (.ensured result) with deliver := .raised e } := fun e =>
    ⟨hk.quiet (.of_eq rfl rfl rfl rfl), nofun⟩
  unfold deliverEnsured
  dsimp only
  split
  · refine .after ?_ fun hk' => deliverBody_turn hk'.books (hk'.opened ho)
    exact hk.quiet (.of_eq rfl rfl rfl rfl)
  · split
    · exact hblocked _
    · exact hblocked _
    · exact ⟨(hk.quiet (.retryLater ..)).quiet (.of_eq rfl rfl rfl rfl), nofun⟩
    · exact hraised _
  · split
    · exact hblocked _
    · exact hraised _
  · exact hraised _

/-- From a request to the next await is a turn. -/
theorem deliverSent_turn (h : Books w) (ho : w.spool.db.Opened) {built : BuiltBatch}
    (hb : Batched w built) (result : SendResult) :
    DeliverTurn True w (w.deliverSent built result) := by
  unfold deliverSent
  split
  · next outcome backoff v hv =>
    have hk : Keeps True w (v.withBackoff backoff) :=
      (deliverFinish_keeps h ho hb hv).quiet (.of_eq rfl rfl rfl rfl)
    exact .of_quiet hk (afterDelivery_quiet _ outcome)
  · next e backoff v hv =>
    have hk : Keeps True w (v.withBackoff backoff) :=
      (deliverFinish_keeps h ho hb hv).quiet (.of_eq rfl rfl rfl rfl)
    exact .of_quiet hk (deliveryFailed_quiet _ e)

/-- A turn of the main coroutine, which may leave a fresh batch in flight. -/
structure FlushTurn (attempt : Prop) (w w' : World) : Prop where
  keeps : Keeps attempt w w'
  fresh : ∀ built, w'.main = .flushSending built → Fresh w' built

/-- Ending the loop with an exception changes no books. -/
theorem Quiet.mainRaise (hq : Quiet attempt w u) (e : Exc) : Quiet attempt w (u.mainRaise e) := by
  obtain ⟨persist, deliver, he, -⟩ := mainRaise_eq u e
  rw [he]
  exact hq.trans (.of_eq rfl rfl rfl rfl)

/-- Ending the main coroutine changes no books. -/
theorem Quiet.mainFinish (hq : Quiet attempt w u) : Quiet attempt w u.mainFinish := by
  rcases mainFinish_eq u with ⟨e, he⟩ | ⟨deliver, he, -⟩
  · rw [he]
    exact hq.mainRaise e
  · rw [he]
    exact hq.trans (.of_eq rfl rfl rfl rfl)

/-- The main coroutine has ended. -/
theorem mainFinish_main (u : World) : u.mainFinish.main = .ended := by
  rcases mainFinish_eq u with ⟨e, he⟩ | ⟨deliver, he, -⟩
  · rw [he]
    rfl
  · rw [he]

/-- A step of the flush may raise. -/
theorem mainRaise_turn (hk : Keeps attempt w u) (e : Exc) : FlushTurn attempt w (u.mainRaise e) :=
  ⟨hk.quiet (.mainRaise (.refl u) e), nofun⟩

/-- A step of the flush may end it. -/
theorem mainFinish_turn (hk : Keeps attempt w u) : FlushTurn attempt w u.mainFinish := by
  refine ⟨hk.quiet (.mainFinish (.refl u)), fun built hb => ?_⟩
  rw [mainFinish_main] at hb
  cases hb

/-- The flush up to its request is a step of it. -/
theorem flushStart_turn (hk : Keeps attempt w u) (ho : u.spool.db.Opened) :
    FlushTurn attempt w u.flushStart := by
  unfold flushStart
  split
  · next built backoff v hv =>
    obtain ⟨hstart, hfresh⟩ := deliverStart_keeps hk.books ho hv
    refine ⟨(hk.trans hstart).quiet (.of_eq rfl rfl rfl rfl), fun b hb => ?_⟩
    cases hb
    exact hfresh built rfl
  · next hv => exact mainFinish_turn (hk.trans (deliverStart_keeps hk.books ho hv).1)
  · next hv => exact mainRaise_turn (hk.trans (deliverStart_keeps hk.books ho hv).1) _

/-- From the persist task to the next await is a step of the flush. -/
theorem mainPersisted_turn (h : Books w) (ho : w.spool.db.Opened) :
    FlushTurn attempt w w.mainPersisted := by
  unfold mainPersisted
  split
  · split
    · next e v hv => exact mainRaise_turn ((Quiet.read readOnly_stats hv).keeps h) e
    · next stats v hv =>
      have hk : Keeps attempt w v := (Quiet.read readOnly_stats hv).keeps h
      split
      · exact mainFinish_turn hk
      · split
        · exact ⟨hk.quiet (.of_eq rfl rfl rfl rfl), nofun⟩
        · exact flushStart_turn hk (hk.opened ho)
  · exact mainFinish_turn (.refl h)

/-- From the schema check to the next await is a step of the flush. -/
theorem flushEnsured_turn (h : Books w) (ho : w.spool.db.Opened) (result : EnsureResult) :
    FlushTurn attempt w (w.flushEnsured result) := by
  have hk : Keeps attempt w (w.observe (.ensured result)) :=
    (Quiet.observe w (o := .ensured result) trivial).keeps h
  unfold flushEnsured
  dsimp only
  split
  · exact flushStart_turn hk (hk.opened ho)
  · exact mainFinish_turn hk
  · exact mainFinish_turn hk
  · exact mainRaise_turn hk _

/-- From the request to the end is a step of the flush. -/
theorem flushSent_turn (h : Books w) (ho : w.spool.db.Opened) {built : BuiltBatch}
    (hb : Batched w built) (result : SendResult) :
    FlushTurn True w (w.flushSent built result) := by
  unfold flushSent
  split
  · next hv => exact mainFinish_turn (deliverFinish_keeps h ho hb hv)
  · next hv => exact mainRaise_turn (deliverFinish_keeps h ho hb hv) _

/-- A turn of the persist loop keeps the books. -/
theorem persistRound_keeps (h : Books w) (ho : w.spool.db.Opened) :
    Keeps attempt w w.persistRound := by
  unfold persistRound
  split
  · next hv => exact (persistHeld_keeps h ho hv).quiet (.of_eq rfl rfl rfl rfl)
  · next v hv =>
    have hk : Keeps attempt w v := persistHeld_keeps h ho hv
    split
    · next hr => exact (hk.quiet (.readStats hr)).quiet (.of_eq rfl rfl rfl rfl)
    · next hr => exact (hk.quiet (.readStats hr)).quiet (.of_eq rfl rfl rfl rfl)

/-- An attempt to persist only appends. -/
theorem persistHeld_appends (h : Books w) (ho : w.spool.db.Opened) {res : Except Exc Bool}
    (hm : w.persistHeld = (res, w')) : w.spool.db.pending <+: w'.spool.db.pending := by
  have hspace : Quiet False w w.freeSpace.2 := .freeSpace w
  have hkeep := hspace.keeps h
  have same : ∀ {u : World}, Quiet False w.freeSpace.2 u →
      w.spool.db.pending <+: u.spool.db.pending := by
    intro u hu
    rw [hu.db.pending, hspace.db.pending]
  unfold persistHeld at hm
  dsimp only at hm
  split at hm
  · cases hm
    exact List.prefix_refl _
  · split at hm
    · cases hm
      exact same (.blockOnStorage ..)
    · unfold enqueueHeld at hm
      split at hm
      · next n v hv =>
        obtain ⟨c, hrun, rfl⟩ := of_call hv
        obtain ⟨new, -, hdb, -⟩ := enqueueMany_ok hkeep.books.coherent (hkeep.opened ho) hrun
        have hgrown : w.spool.db.pending <+: c.db.pending := by
          rw [hdb, appendedAll_pending, hspace.db.pending]
          exact List.prefix_append _ _
        split at hm
        · next stats u hu =>
          cases hm
          have hread : Quiet False _ u := .readStats hu
          exact hgrown.trans (hread.db.pending ▸ List.prefix_refl _)
        · next e u hu =>
          cases hm
          have hread : Quiet False _ w' := .readStats hu
          exact hgrown.trans (hread.db.pending ▸ List.prefix_refl _)
      · next e v hv =>
        have hfailed : Quiet False _ v :=
          (Quiet.logCall _ .enqueueMany).trans (.failed (atomic_enqueueMany _ _) hv)
        split at hm
        · cases hm
          exact same (hfailed.trans (.blockOnStorage ..))
        · split at hm
          · cases hm
            exact same (hfailed.trans (.blockOnStorage ..))
          · cases hm
            exact same hfailed

/-- A turn of the persist loop only appends rows. -/
theorem persistRound_appends (h : Books w) (ho : w.spool.db.Opened) :
    w.spool.db.pending <+: w.persistRound.spool.db.pending := by
  unfold persistRound
  split
  · next hv =>
    have hgrown := persistHeld_appends h ho hv
    exact hgrown
  · next v hv =>
    have hgrown := persistHeld_appends h ho hv
    split
    · next u hu =>
      have hread : Quiet False v u := .readStats hu
      exact hgrown.trans (hread.db.pending ▸ List.prefix_refl _)
    · next u hu =>
      have hread : Quiet False v u := .readStats hu
      exact hgrown.trans (hread.db.pending ▸ List.prefix_refl _)

/-- Opening the spool moves no row; where the thread gets behind it, the spool is open. -/
theorem threadOpen_quiet (h : w.spool.db.Coherent) (factoryError : Option Exc) :
    Quiet attempt w (w.threadOpen factoryError) ∧
      ((∃ e, (w.threadOpen factoryError).thread = .raising e) ∨
        (w.threadOpen factoryError).spool.db.Opened) := by
  unfold threadOpen
  split
  · next e v hv =>
    exact ⟨(Quiet.failed (atomic_openSpool _ _) hv).trans (.of_eq rfl rfl rfl rfl), .inl ⟨e, rfl⟩⟩
  · next v hv =>
    obtain ⟨c, hrun, rfl⟩ := of_call hv
    obtain ⟨hdb, hc', ho'⟩ := openSpool_ok h hrun
    have hrows : SameRows w.spool.db c.db :=
      ⟨by rw [hdb]; rfl, by rw [hdb]; rfl, by rw [hdb]; rfl, fun _ => hc', fun _ => ho'⟩
    have hq : Quiet attempt w { w with spool := c } := .withSpool w hrows
    split
    · next e => exact ⟨hq.trans (.of_eq rfl rfl rfl rfl), .inl ⟨e, rfl⟩⟩
    · split
      · next e u hu =>
        exact ⟨(hq.trans (.readStats hu)).trans (.of_eq rfl rfl rfl rfl), .inl ⟨e, rfl⟩⟩
      · next stats u hu =>
        have hread : Quiet attempt _ u := .readStats hu
        exact ⟨(hq.trans hread).trans (.of_eq rfl rfl rfl rfl), .inr (hread.db.opened ho')⟩

end

/-! ## Steps -/

/-- What a step does to the rows, and to the batches in flight. -/
structure Carries (attempt : Prop) (w w' : World) : Prop where
  keeps : Keeps attempt w w'
  sending : ∀ built, w'.deliver = .sending built → w.deliver = .sending built ∨ Fresh w' built
  flushing : ∀ built, w'.main = .flushSending built →
    w.main = .flushSending built ∨ Fresh w' built

/-- What keeps the books and starts no request carries them on. -/
theorem Carries.of_keeps {attempt : Prop} {w w' : World} (hk : Keeps attempt w w')
    (hd : w'.deliver = w.deliver ∨ ∀ built, w'.deliver ≠ .sending built)
    (hm : w'.main = w.main ∨ ∀ built, w'.main ≠ .flushSending built) : Carries attempt w w' where
  keeps := hk
  sending built hb := hd.elim (fun he => .inl (he ▸ hb)) fun hne => absurd hb (hne built)
  flushing built hb := hm.elim (fun he => .inl (he ▸ hb)) fun hne => absurd hb (hne built)

/-- What changes no books and starts no request carries them on. -/
theorem Carries.of_quiet {attempt : Prop} {w w' : World} (h : Books w) (hq : Quiet attempt w w')
    (hd : w'.deliver = w.deliver ∨ ∀ built, w'.deliver ≠ .sending built)
    (hm : w'.main = w.main ∨ ∀ built, w'.main ≠ .flushSending built) : Carries attempt w w' :=
  .of_keeps (hq.keeps h) hd hm

/-- The books are kept, the spool is open where a coroutine can use it, and the batches in flight
are of the oldest rows. -/
structure Bookkept (w : World) : Prop where
  placed : Placed w
  books : Books w
  opened : w.thread.IsOpen → w.spool.db.Opened
  sending : ∀ built, w.deliver = .sending built → Batched w built
  flushing : ∀ built, w.main = .flushSending built → Batched w built

section
variable {w w' : World} {a : Action}

/-- The callers and the callbacks change no books. -/
theorem Quiet.outside (h : Taken w a w') (ha : a.IsOutside) : Quiet attempt w w' := by
  have ho := h.outside ha
  obtain ⟨obs, hobs, haccepted⟩ := ho.history
  refine ⟨?_, .of_eq ?_, ?_, obs, hobs, fun o hm => ?_⟩
  · obtain ⟨_, _, _, _, _, _, _, _, _, _, _, _, _, _, _, rfl⟩ := ho.world
    rfl
  · obtain ⟨_, _, _, _, _, _, _, _, _, _, _, _, _, _, _, rfl⟩ := ho.world
    rfl
  · obtain ⟨_, _, _, _, _, _, _, _, _, _, _, _, _, _, _, rfl⟩ := ho.world
    exact ⟨rfl, rfl, rfl, rfl, rfl⟩
  · have := haccepted o hm
    cases o <;> first | exact this.elim | trivial

/-- A turn of the delivery loop leaves the main coroutine where it is. -/
theorem carries_delivers {attempt : Prop} (ht : DeliverTurn attempt w w') (hd : Delivers w w') :
    Carries attempt w w' where
  keeps := ht.keeps
  sending built hb := .inr (ht.fresh built hb)
  flushing built hb := by
    obtain ⟨_, _, _, _, _, _, rfl⟩ := hd.world
    exact .inl hb

/-- A turn of the main coroutine starts no other request. -/
theorem carries_flushes {attempt : Prop} (ht : FlushTurn attempt w w') (hd : Flushes w w') :
    Carries attempt w w' where
  keeps := ht.keeps
  sending built hb := by
    have hacts : ∀ {u : World}, Acts w u → u.deliver = w.deliver := fun hu => by
      obtain ⟨_, _, _, rfl⟩ := hu.world
      rfl
    have hover : ∀ {d : DeliverPc}, d.IsOver → d ≠ .sending built := fun ho he => by
      rw [he] at ho
      exact ho
    cases hd with
    | raised u e hu =>
      obtain ⟨persist, deliver, he, -, -, ho⟩ := mainRaise_eq u e
      rw [he] at hb
      exact absurd hb (hover ho)
    | finished u hu =>
      rcases mainFinish_eq u with ⟨e, he⟩ | ⟨deliver, he, ho⟩
      · obtain ⟨persist, deliver, he', -, -, ho⟩ := mainRaise_eq u e
        rw [he, he'] at hb
        exact absurd hb (hover ho)
      · rw [he] at hb
        exact absurd hb (hover ho)
    | ensuring u hu => exact .inl (hacts hu ▸ hb)
    | sending u built backoff hu => exact .inl (hacts hu ▸ hb)
  flushing built hb := .inr (ht.fresh built hb)

/-- **One step keeps the books**, and the batches that it leaves in flight were in flight or are
fresh; it records an attempt only where it ends a `send_batch`. -/
theorem Bookkept.carries (h : Bookkept w) (ht : Taken w a w') (hr : ¬ a.isRestart) :
    Carries a.IsSent w w' := by
  have hkeeps := h.books
  have hloop : w.main.IsActive → w.spool.db.Opened := fun hm =>
    h.opened (h.placed.looping hm ▸ trivial)
  have htasks : w.tasksRun → w.spool.db.Opened := fun hrun => hloop (tasksRun_active hrun)
  have hcases := ht
  cases ht with
  | restart => exact absurd rfl hr
  | submit | submitSignal | startReady | startTimeout | startTimedOut | startSignal | stopCall
  | stopSet | stopSignal | stopReturn | wakePersist | stopAsync =>
    have ho := hcases.outside trivial
    exact .of_quiet hkeeps (.outside hcases trivial) (.inl ho.deliver) (.inl ho.main)
  | environment env faults =>
    have hq : Quiet False w { w with env, spool := { w.spool with faults } } :=
      ⟨rfl, .of_eq rfl, ⟨rfl, rfl, rfl, rfl, rfl⟩, [], (List.append_nil _).symm, nofun⟩
    exact .of_quiet hkeeps hq (.inl rfl) (.inl rfl)
  | startCall =>
    unfold World.startCall
    split <;> exact .of_quiet hkeeps (.of_eq rfl rfl rfl rfl) (.inl rfl) (.inl rfl)
  | stopLock i seen timeout =>
    obtain ⟨pc, state, deadline, he, -⟩ := stopLock_eq w i seen timeout
    rw [he]
    exact .of_quiet hkeeps (.of_eq rfl rfl rfl rfl) (.inl rfl) (.inl rfl)
  | threadOpen factoryError =>
    obtain ⟨u, thread, hu, he, -⟩ := threadOpen_eq w factoryError
    have hq : Quiet False w (w.threadOpen factoryError) :=
      (threadOpen_quiet hkeeps.coherent factoryError).1
    rw [he] at hq ⊢
    obtain ⟨_, _, _, rfl⟩ := hu.world
    exact .of_quiet hkeeps hq (.inl rfl) (.inl rfl)
  | threadFail | threadClose | threadDie | persistRun | persistWake =>
    exact .of_quiet hkeeps (.of_eq rfl rfl rfl rfl) (.inl rfl) (.inl rfl)
  | threadStartup =>
    refine .of_quiet hkeeps (.of_eq rfl rfl ?_ rfl) (.inl rfl) (.inl rfl)
    unfold threadStartup World.withShared
    dsimp only
    split <;> rfl
  | threadExit failed cleanup =>
    refine .of_quiet hkeeps (.of_eq rfl rfl ?_ rfl) (.inl rfl) (.inl rfl)
    unfold threadExit World.withShared
    dsimp only
    split
    · rfl
    · split <;> rfl
  | threadAnnounce | mainPublish | mainTest | mainStop =>
    exact .of_quiet hkeeps (.of_eq rfl rfl rfl rfl) (.inl rfl) (.inr nofun)
  | mainTaskDone e hm =>
    exact carries_flushes (mainRaise_turn (.refl hkeeps) e) (.raised w e (.refl w))
  | mainPersistRaised e hm =>
    exact carries_flushes (mainRaise_turn (.refl hkeeps) e) (.raised w e (.refl w))
  | mainPersisted hm hp =>
    exact carries_flushes (mainPersisted_turn hkeeps (hloop (hm ▸ trivial)))
      (Flushes.mainPersisted w)
  | flushEnsured result hm =>
    exact carries_flushes (flushEnsured_turn hkeeps (hloop (hm ▸ trivial)) result)
      (Flushes.flushEnsured w result)
  | flushSent built result hm =>
    have hturn := flushSent_turn hkeeps (hloop (hm ▸ trivial)) (h.flushing built hm) result
    exact carries_flushes hturn (Flushes.flushSent w built result)
  | persistDrain =>
    rcases persistDrain_eq w with ⟨event, ingress, -, -, he⟩ | he
    · rw [he]
      exact .of_quiet hkeeps (.of_eq rfl rfl rfl rfl) (.inl rfl) (.inl rfl)
    · rw [he]
      exact .of_quiet hkeeps (.of_eq rfl rfl rfl rfl) (.inl rfl) (.inl rfl)
  | persistRound hp =>
    have hk : Keeps Action.persistRound.IsSent w w.persistRound :=
      persistRound_keeps hkeeps (htasks (h.placed.persisting (hp ▸ trivial)))
    have hframe : ∀ {u}, Persists w u → u.deliver = w.deliver ∧ u.main = w.main := fun hu => by
      obtain ⟨⟨_, _, _, _, rfl⟩, -⟩ := hu.frame
      exact ⟨rfl, rfl⟩
    rcases persistRound_eq w with ⟨u, hu, he⟩ | ⟨u, e, hu, he⟩
    · rw [he] at hk ⊢
      exact .of_keeps hk (.inl (hframe hu).1) (.inl (hframe hu).2)
    · rw [he] at hk ⊢
      exact .of_keeps hk (.inl (hframe hu).1) (.inl (hframe hu).2)
  | persistCheck =>
    rcases persistCheck_eq w with ⟨he, -⟩ | ⟨persist, wakePersist, he, -⟩
    · rw [he]
      exact .of_quiet hkeeps (.of_eq rfl rfl rfl rfl) (.inl rfl) (.inl rfl)
    · rw [he]
      exact .of_quiet hkeeps (.of_eq rfl rfl rfl rfl) (.inl rfl) (.inl rfl)
  | deliverRun hrun =>
    exact carries_delivers (deliverTop_turn hkeeps (htasks hrun)) (Delivers.deliverTop w)
  | deliverEnsured result hb hd =>
    exact carries_delivers
      (deliverEnsured_turn hkeeps (htasks (h.placed.delivering (hd ▸ trivial))) result)
      (Delivers.deliverEnsured w result)
  | deliverSent built result hb hd =>
    have hturn := deliverSent_turn hkeeps (htasks (h.placed.delivering (hd ▸ trivial)))
      (h.sending built hd) result
    exact carries_delivers hturn (Delivers.deliverSent w built result)
  | deliverWake => exact .of_quiet hkeeps (.of_eq rfl rfl rfl rfl) (.inr nofun) (.inl rfl)

/-- **Few actions write to the spool**: every other one leaves the database as it is. -/
theorem sameSpool (ht : Taken w a w') (hd : ¬ a.IsDeliver) (hf : ¬ a.IsFlush)
    (ho : ∀ factoryError, a ≠ .threadOpen factoryError) (hp : a ≠ .persistRound) :
    w'.spool.db = w.spool.db := by
  have hcases := ht
  cases ht with
  | submit | submitSignal | startReady | startTimeout | startTimedOut | startSignal | stopCall
  | stopSet | stopSignal | stopReturn | wakePersist | stopAsync =>
    obtain ⟨_, _, _, _, _, _, _, _, _, _, _, _, _, _, _, he⟩ := (hcases.outside trivial).world
    rw [he]
  | environment | restart | threadStartup | threadAnnounce | threadFail | threadClose | threadExit
  | threadDie | mainPublish | mainTest | mainStop | persistRun | persistWake => rfl
  | startCall =>
    unfold World.startCall
    split <;> rfl
  | stopLock i seen timeout =>
    obtain ⟨_, _, _, he, -⟩ := stopLock_eq w i seen timeout
    rw [he]
    rfl
  | mainTaskDone e =>
    obtain ⟨_, _, he, -⟩ := mainRaise_eq w e
    rw [he]
  | persistDrain =>
    rcases persistDrain_eq w with ⟨event, ingress, -, -, he⟩ | he
    · rw [he]
    · rw [he]
      rfl
  | persistCheck =>
    rcases persistCheck_eq w with ⟨he, -⟩ | ⟨persist, wakePersist, he, -⟩
    · rw [he]
    · rw [he]
  | threadOpen factoryError => exact absurd rfl (ho factoryError)
  | persistRound => exact absurd rfl hp
  | mainPersisted | mainPersistRaised | flushEnsured | flushSent => exact absurd trivial hf
  | deliverRun | deliverEnsured | deliverSent | deliverWake => exact absurd trivial hd

/-- **Only deliveries take rows away**: every other step appends at most. -/
theorem Bookkept.appends (h : Bookkept w) (ht : Taken w a w') (hd : ¬ a.IsDeliver)
    (hf : ¬ a.IsFlush) : w.spool.db.pending <+: w'.spool.db.pending := by
  by_cases hopen : ∃ factoryError, a = .threadOpen factoryError
  · obtain ⟨factoryError, rfl⟩ := hopen
    cases ht
    obtain ⟨hquiet, -⟩ : Quiet False w _ ∧ _ := threadOpen_quiet h.books.coherent factoryError
    exact hquiet.db.pending ▸ List.prefix_refl _
  by_cases hround : a = .persistRound
  · subst hround
    cases ht with
    | persistRound hp =>
      have hmain := tasksRun_active (h.placed.persisting (hp ▸ trivial))
      exact persistRound_appends h.books (h.opened (h.placed.looping hmain ▸ trivial))
  · have hdb := sameSpool ht hd hf (fun factoryError he => hopen ⟨factoryError, he⟩) hround
    exact hdb ▸ List.prefix_refl _

/-- The thread gets open by opening the spool. -/
theorem Bookkept.isOpen (h : Bookkept w) (ht : Taken w a w') (hr : ¬ a.isRestart)
    (ho : w'.thread.IsOpen) : w.thread.IsOpen ∨ w'.spool.db.Opened := by
  rcases a.sides with ha | ha | ha
  · exact .inl ((ht.outside ha).thread ▸ ho)
  · rcases (ht.inside h.placed ha).thread with he | ⟨hl, -⟩
    · exact .inl (he ▸ ho)
    · exact .inl (hl ▸ trivial)
  · cases ht with
    | restart => exact absurd rfl hr
    | environment => exact .inl ho
    | startCall =>
      unfold World.startCall at ho
      split at ho
      · exact ho.elim
      · exact .inl ho
    | stopLock i seen timeout =>
      obtain ⟨pc, state, deadline, he, -⟩ := stopLock_eq w i seen timeout
      rw [he] at ho
      exact .inl ho
    | threadOpen factoryError =>
      obtain ⟨-, hopen⟩ : Quiet False w _ ∧ _ :=
        threadOpen_quiet h.books.coherent factoryError
      rcases hopen with ⟨e, he⟩ | hopen
      · rw [he] at ho
        exact ho.elim
      · exact .inr hopen
    | threadStartup hth => exact .inl (hth ▸ trivial)
    | threadAnnounce hth => exact .inl (hth ▸ trivial)
    | threadFail | threadClose | threadExit | threadDie => exact ho.elim
    | _ => exact ha.elim

/-- A new process keeps the books of the old one. -/
theorem Books.boot (h : Books w) (config : Config) (env : Env) :
    Books (.boot config env w.spool.db w.history) := by
  refine ⟨h.coherent, ?_, ?_, ?_, ?_, ?_, .snoc _ h.chronicle trivial, ⟨?_, ?_, ?_⟩⟩
  all_goals dsimp only [World.boot]
  · rw [tableOf_snoc]
  · rw [committedRows_snoc, removedRows_snoc, List.append_nil, List.append_nil]
    exact h.fifo
  · rw [movedRows_snoc, evictedRows_snoc, List.append_nil, List.append_nil]
    exact h.buried
  · rw [committedRows_snoc, List.append_nil]
    exact h.increasing
  · rw [committedRows_snoc, List.append_nil]
    exact h.assigned
  · rw [tallyOf_snoc]
    exact ⟨rfl, rfl, rfl, rfl, rfl⟩
  · rw [tallyOf_snoc]
    rfl
  · rw [tallyOf_snoc]
    rfl

/-- The books of a new process on an empty file. -/
theorem Books.fresh (config : Config) (env : Env) : Books (.boot config env Database.fresh []) := by
  refine ⟨fresh_coherent, rfl, rfl, rfl, .nil, nofun, .snoc _ .nil trivial, ⟨?_, rfl, rfl⟩⟩
  exact ⟨rfl, rfl, rfl, rfl, rfl⟩

namespace Bookkept

/-- A new process has no request in flight. -/
theorem of_books {config : Config} {env : Env} {db : Database} {history : List Obs}
    (h : Books (.boot config env db history)) : Bookkept (.boot config env db history) where
  placed := .boot _ _ _ _
  books := h
  opened := nofun
  sending := nofun
  flushing := nofun

/-- Every step keeps the books and the requests in flight. -/
theorem step (h : Bookkept w) (hs : step w a = some w') : Bookkept w' := by
  have ht := Taken.of_step hs
  by_cases hr : a.isRestart
  · cases ht with
    | restart config env => exact .of_books (h.books.boot config env)
    | _ => cases hr
  · have hc := h.carries ht hr
    refine ⟨h.placed.step hs, hc.keeps.books, fun ho => ?_, fun built hb => ?_, fun built hb => ?_⟩
    · exact (h.isOpen ht hr ho).elim (fun ho => hc.keeps.opened (h.opened ho)) id
    · rcases hc.sending built hb with hb | hfresh
      · exact (h.sending built hb).keeps hc.keeps
      · exact hfresh.batched hc.keeps.books
    · rcases hc.flushing built hb with hb | hfresh
      · exact (h.flushing built hb).keeps hc.keeps
      · exact hfresh.batched hc.keeps.books

/-- **The books are kept in every state of every run**, from an empty spool file. -/
theorem of_steps {config : Config} {env : Env} {G : World → Action → Prop}
    (h : Steps QuestDbWriter.step G (.boot config env Database.fresh []) w) : Bookkept w :=
  h.invariant (.of_books (.fresh config env)) fun _ _ _ hb _ hs => hb.step hs

end Bookkept

end

end World

end QuestDbWriter
