import QuestDbWriter.Lib.DurableQueue
import QuestDbWriter.Worker.Accounts
import QuestDbWriter.Worker.Genuine
import QuestDbWriter.Spool.Enqueue

/-!
# From `submit()` to the table, in order

The service is a durable queue: `submit()` accepts an event into memory, a committed `enqueue_many`
stores the front of the memory, a committed `mark_delivered` or `move_to_dead_letter` takes the
front of the store, and a new process starts with the memory of the last one lost. Every step of the
system is steps of that queue, or none (`simulates`), so no event is invented, doubled or overtaken
on its way, through any number of crashes (`events_in_line`).
-/

namespace QuestDbWriter

open Lib Database SQLiteSpool
open Session (run)

/-! ## Logs -/

/-- The events that `submit()` has accepted, in every process so far. -/
def acceptedLog (history : List Obs) : List NewSpoolEvent :=
  history.flatMap fun
    | .accepted event => [event]
    | _ => []

/-- The events in memory, and those that were when a process ended, after one more observation. -/
def Obs.remember (memory : List NewSpoolEvent × List NewSpoolEvent) :
    Obs → List NewSpoolEvent × List NewSpoolEvent
  | .started _ _ _ => ([], memory.2 ++ memory.1)
  | .accepted event => (memory.1 ++ [event], memory.2)
  | .enqueued events _ => (memory.1.drop events.length, memory.2)
  | _ => memory

/-- The events that were accepted and not enqueued when their process ended. -/
def lostEvents (history : List Obs) : List NewSpoolEvent := (history.foldl Obs.remember ([], [])).2

/-- The events that were accepted and not enqueued in this process. -/
def rememberedEvents (history : List Obs) : List NewSpoolEvent :=
  (history.foldl Obs.remember ([], [])).1

section
variable {history obs : List Obs}

/-- The log of a longer history continues. -/
theorem acceptedLog_append :
    acceptedLog (history ++ obs) = acceptedLog history ++ acceptedLog obs := List.flatMap_append ..

/-- So do the rows removed. -/
theorem removedRows_append :
    removedRows (history ++ obs) = removedRows history ++ removedRows obs := List.flatMap_append ..

/-- A delivery accepts nothing. -/
theorem acceptedLog_delivery (h : ∀ o ∈ obs, o.IsDelivery) :
    acceptedLog (history ++ obs) = acceptedLog history := by
  rw [acceptedLog_append, List.append_right_eq_self, acceptedLog, List.flatMap_eq_nil_iff]
  intro o hm
  have ho := h o hm
  cases o <;> first | rfl | exact ho.elim

/-- A delivery leaves the memory alone. -/
theorem remember_delivery (h : ∀ o ∈ obs, o.IsDelivery)
    (memory : List NewSpoolEvent × List NewSpoolEvent) :
    obs.foldl Obs.remember memory = memory := by
  induction obs with
  | nil => rfl
  | cons o obs ih =>
    have ho := h o (List.mem_cons_self ..)
    have hstep : Obs.remember memory o = memory := by
      cases o <;> first | rfl | exact ho.elim
    rw [List.foldl_cons, hstep]
    exact ih fun p hp => h p (List.mem_cons_of_mem _ hp)

/-- A delivery records no acceptance. -/
theorem rememberedEvents_delivery (h : ∀ o ∈ obs, o.IsDelivery) :
    rememberedEvents (history ++ obs) = rememberedEvents history := by
  rw [rememberedEvents, List.foldl_append, remember_delivery h]
  rfl

/-- It loses no event. -/
theorem lostEvents_delivery (h : ∀ o ∈ obs, o.IsDelivery) :
    lostEvents (history ++ obs) = lostEvents history := by
  rw [lostEvents, List.foldl_append, remember_delivery h]
  rfl

end

/-! ## What is stored -/

/-- Events are inserted in their order, some of them not at all. -/
theorem insertAll_sublist {es : List NewSpoolEvent} {db db' : Database}
    (h : db.insertAll es = some db') : ∃ new, db' = db.appendedAll new ∧ new.Sublist es := by
  induction es generalizing db with
  | nil =>
    cases h
    exact ⟨[], rfl, .slnil⟩
  | cons e es ih =>
    rw [Database.insertAll_cons] at h
    split at h
    · obtain ⟨new, hdb, hsub⟩ := ih h
      exact ⟨e :: new, hdb, hsub.cons_cons e⟩
    · split at h
      · obtain ⟨new, hdb, hsub⟩ := ih h
        exact ⟨new, hdb, hsub.cons e⟩
      · cases h

/-- An enqueue appends rows for some of its events, in their order. -/
theorem enqueueMany_sublist {limits : SpoolLimits} {events : List NewSpoolEvent}
    {c c' : Conn Database StorageFault} {n : Nat} (hc : c.db.Coherent) (ho : c.db.Opened)
    (h : run (enqueueMany limits events) c = (.ok n, c')) :
    ∃ new, c'.db = c.db.appendedAll new ∧ new.Sublist events :=
  insertAll_sublist ((enqueueMany_iff hc ho).mp ((clear_enqueueMany limits events).ok h)).inserted

namespace World

section
variable {w w' : World} {a : Action}

/-- An attempt to persist commits rows of held events, in their order. -/
theorem persistHeld_rows (h : Books w) (ho : w.spool.db.Opened) {res : Except Exc Bool}
    (hm : w.persistHeld = (res, w')) :
    ∃ rows, committedRows w'.history = committedRows w.history ++ rows ∧
      (rows.map RowIdentity.event).Sublist w.held := by
  have hspace : Quiet False w w.freeSpace.2 := .freeSpace w
  have hkeep := hspace.keeps h
  have hheld : w.freeSpace.2.held = w.held := (Aside.of_acts (.freeSpace w)).held
  have same : ∀ {u : World}, Quiet False w.freeSpace.2 u →
      ∃ rows, committedRows u.history = committedRows w.history ++ rows ∧
        (rows.map RowIdentity.event).Sublist w.held := by
    intro u hu
    exact ⟨[], by rw [hu.committed, hspace.committed, List.append_nil], List.nil_sublist _⟩
  unfold persistHeld at hm
  dsimp only at hm
  split at hm
  · cases hm
    exact ⟨[], (List.append_nil _).symm, List.nil_sublist _⟩
  · split at hm
    · cases hm
      exact same (.blockOnStorage ..)
    · unfold enqueueHeld at hm
      split at hm
      · next n v hv =>
        obtain ⟨c, hrun, rfl⟩ := of_call hv
        obtain ⟨new, hdb, hsub⟩ := enqueueMany_sublist hkeep.books.coherent (hkeep.opened ho) hrun
        have hevents : (insertedRows w.freeSpace.2.spool.db c.db).map RowIdentity.event = new := by
          rw [insertedRows_eq hkeep.books.coherent hdb, List.map_map]
          exact newRows_event _ new
        have htaken : ∀ {u : World}, Quiet False (heldPersisted
            { w.freeSpace.2.logCall .enqueueMany with spool := c } w.freeSpace.2.spool.db) u →
            ∃ rows, committedRows u.history = committedRows w.history ++ rows ∧
              (rows.map RowIdentity.event).Sublist w.held := by
          intro u hu
          refine ⟨insertedRows w.freeSpace.2.spool.db c.db, ?_, ?_⟩
          · rw [hu.committed]
            change committedRows (w.freeSpace.2.history ++
              [.enqueued w.freeSpace.2.held (insertedRows w.freeSpace.2.spool.db c.db)]) = _
            rw [committedRows_snoc, hspace.committed]
          · rw [hevents, ← hheld]
            exact hsub
        split at hm
        · next stats u hu =>
          cases hm
          have hread : Quiet False _ u := .readStats hu
          exact htaken (hread.trans (.resume u))
        · next e u hu =>
          cases hm
          exact htaken (.readStats hu)
      · next e v hv =>
        have hfailed : Quiet False _ v :=
          (Quiet.logCall _ .enqueueMany).trans (.failed (atomic_enqueueMany _ _) hv)
        split at hm
        · cases hm
          exact same (hfailed.trans (.blockOnStorage ..))
        · split at hm
          · cases hm
            exact same (hfailed.trans (.blockOnStorage ..))
          · cases hm
            exact same hfailed

/-- A persist attempt commits rows of held events, in their order. -/
theorem persistRound_rows (h : Books w) (ho : w.spool.db.Opened) :
    ∃ rows, committedRows w.persistRound.history = committedRows w.history ++ rows ∧
      (rows.map RowIdentity.event).Sublist w.held := by
  unfold persistRound
  split
  · next e v hv =>
    have hheld := persistHeld_rows h ho hv
    exact hheld
  · next v hv =>
    have hheld := persistHeld_rows h ho hv
    split
    · next e u hu =>
      have hread : Quiet False v u := .readStats hu
      rw [← hread.committed] at hheld
      exact hheld
    · next s u hu =>
      have hread : Quiet False v u := .readStats hu
      rw [← hread.committed] at hheld
      exact hheld

/-! ## The queue -/

/-- The service as a durable queue. -/
def durableQueue (w : World) : DurableQueue NewSpoolEvent where
  accepted := acceptedLog w.history
  removed := (removedRows w.history).map RowIdentity.event
  stored := w.spool.db.pending.map (·.identity.event)
  inMemory := w.held ++ w.ingress
  lost := lostEvents w.history

/-- What was committed is removed or stored. -/
theorem Books.events (h : Books w) : (committedRows w.history).map RowIdentity.event =
    w.durableQueue.removed ++ w.durableQueue.stored := by
  rw [h.fifo, List.map_append, List.map_map]
  rfl

/-- Events go on from memory to the store, and rows leave the store. -/
theorem reaches_carried (h : Books w) (h' : Books w') (rows front : List RowIdentity)
    (batch : List NewSpoolEvent) (haccepted : acceptedLog w'.history = acceptedLog w.history)
    (hlost : lostEvents w'.history = lostEvents w.history)
    (hcommitted : committedRows w'.history = committedRows w.history ++ rows)
    (hremoved : removedRows w'.history = removedRows w.history ++ front)
    (hm : w.held ++ w.ingress = batch ++ (w'.held ++ w'.ingress))
    (hsub : (rows.map RowIdentity.event).Sublist batch)
    (hbatch : ∀ e ∈ batch, e ∈ (committedRows w'.history).map RowIdentity.event) :
    w.durableQueue.Reaches w'.durableQueue := by
  have hevents : (committedRows w'.history).map RowIdentity.event =
      w.durableQueue.removed ++ w.durableQueue.stored ++ rows.map RowIdentity.event := by
    rw [hcommitted, List.map_append, h.events]
  have hsplit : w.durableQueue.stored ++ rows.map RowIdentity.event =
      front.map RowIdentity.event ++ w'.durableQueue.stored := by
    have hline := hevents.symm.trans h'.events
    have hgone : w'.durableQueue.removed =
        w.durableQueue.removed ++ front.map RowIdentity.event := by
      simp [durableQueue, hremoved]
    rw [hgone, List.append_assoc, List.append_assoc] at hline
    exact List.append_cancel_left hline
  have hstore := DurableQueue.Step.store w.durableQueue batch (rows.map RowIdentity.event)
    (w'.held ++ w'.ingress) hm hsub fun e he => hevents ▸ hbatch e he
  have hlast : w'.durableQueue =
      ⟨acceptedLog w.history, (removedRows w.history).map RowIdentity.event ++
        front.map RowIdentity.event, w'.durableQueue.stored, w'.held ++ w'.ingress,
        lostEvents w.history⟩ := by
    simp [durableQueue, haccepted, hlost, hremoved]
  rw [hlast]
  exact .tail (.single hstore) (.remove _ _ _ hsplit)

/-- A step aside removes rows at most. -/
theorem reaches_aside (h : Books w) (h' : Books w') (ha : Aside w w') :
    w.durableQueue.Reaches w'.durableQueue := by
  obtain ⟨obs, hobs, hd⟩ := ha.history
  refine reaches_carried h h' [] (removedRows obs) [] ?_ ?_ ?_ ?_ ?_
    (List.Sublist.refl _) fun e he => absurd he List.not_mem_nil
  · rw [hobs, acceptedLog_delivery hd]
  · rw [hobs, lostEvents_delivery hd]
  · rw [hobs, committedRows_delivery _ hd, List.append_nil]
  · rw [hobs, removedRows_append]
  · rw [ha.held, ha.ingress, List.nil_append]

/-- The events in memory are those that the history remembers. -/
def Remembers (w : World) : Prop := rememberedEvents w.history = w.held ++ w.ingress

/-- A step beside ingress and spool keeps the account. -/
theorem Remembers.aside (h : Remembers w) (ha : Aside w w') : Remembers w' := by
  obtain ⟨obs, hobs, hd⟩ := ha.history
  unfold Remembers
  rw [hobs, rememberedEvents_delivery hd, ha.held, ha.ingress]
  exact h

/-- **A step of the system is steps of the queue.** -/
theorem simulates (hb : Bookkept w) (h : Remembers w) (hs : step w a = some w') :
    Remembers w' ∧ w.durableQueue.Reaches w'.durableQueue := by
  have hb' := (hb.step hs).books
  have ht := Taken.of_step hs
  cases ht.queues with
  | aside ha => exact ⟨h.aside ha, reaches_aside hb.books hb' ha⟩
  | restart config env ha he =>
    subst he
    have hlost : lostEvents (World.boot config env w.spool.db w.history).history =
        lostEvents w.history ++ (w.held ++ w.ingress) := by
      rw [← show rememberedEvents w.history = w.held ++ w.ingress from h]
      simp [World.boot, lostEvents, rememberedEvents, Obs.remember]
    have hqueue : (World.boot config env w.spool.db w.history).durableQueue =
        { w.durableQueue with
          lost := w.durableQueue.lost ++ w.durableQueue.inMemory, inMemory := [] } := by
      unfold durableQueue
      rw [hlost]
      simp [World.boot, acceptedLog, removedRows]
    refine ⟨?_, ?_⟩
    · simp [Remembers, World.boot, rememberedEvents, Obs.remember]
    · rw [hqueue]
      exact .single (.crash _)
  | accepted event e shared ha hev hroom hsize hsub hper he =>
    subst he
    refine ⟨?_, ?_⟩
    · have hold : (w.history.foldl Obs.remember ([], [])).1 = w.held ++ w.ingress := h
      simp [Remembers, rememberedEvents, Obs.remember, hold]
    · have hstep := DurableQueue.Step.accept w.durableQueue e
      refine .single ?_
      convert hstep using 1
      simp [durableQueue, acceptedLog, removedRows, lostEvents, Obs.remember]
  | drained event ingress hi hroom he =>
    subst he
    have hmemory : w.held ++ [event] ++ ingress = w.held ++ w.ingress := by simp [hi]
    refine ⟨h.trans hmemory.symm, ?_⟩
    unfold durableQueue
    dsimp only
    rw [hmemory]
  | round u ha hu haside =>
    subst ha
    cases hu with
    | kept hacts =>
      have hall := (Aside.of_acts hacts).trans haside
      exact ⟨h.aside hall, reaches_aside hb.books hb' hall⟩
    | taken t rows hacts hacts' =>
      have hfirst := Aside.of_acts hacts
      have hlast := (Aside.of_acts hacts').trans haside
      obtain ⟨obs, hobs, hd⟩ := hfirst.history
      obtain ⟨obs', hobs', hd'⟩ := hlast.history
      have hhistory : w'.history = w.history ++ obs ++ [.enqueued w.held rows] ++ obs' := by
        rw [hobs', ← hobs, ← hfirst.held]
        rfl
      have hheld : w'.held = [] := hlast.held
      have hingress : w'.ingress = w.ingress := hlast.ingress.trans hfirst.ingress
      refine ⟨?_, ?_⟩
      · have hold : rememberedEvents (w.history ++ obs) = w.held ++ w.ingress :=
          (rememberedEvents_delivery hd).trans h
        unfold Remembers
        rw [hhistory, rememberedEvents_delivery hd', hheld, hingress, List.nil_append,
          rememberedEvents, List.foldl_append]
        show List.drop _ (rememberedEvents (w.history ++ obs)) = _
        rw [hold]
        exact List.drop_left
      · have hl : w.thread = .looping := by
          cases ht with
          | persistRound hat =>
            exact hb.placed.looping (tasksRun_active (hb.placed.persisting (hat ▸ trivial)))
        obtain ⟨new, hcommitted, hsub⟩ : ∃ new, committedRows w'.history =
            committedRows w.history ++ new ∧ (new.map RowIdentity.event).Sublist w.held := by
          cases ht with
          | persistRound hat => exact persistRound_rows hb.books (hb.opened (hl ▸ trivial))
        have hjustified : Justified (w.history ++ obs) (.enqueued w.held rows) :=
          hb'.chronicle.rests (by rw [hhistory, List.append_assoc]; rfl)
        refine reaches_carried hb.books hb' new (removedRows obs ++ removedRows obs')
          w.held ?_ ?_ hcommitted ?_ ?_ hsub fun e he => ?_
        · rw [hhistory, acceptedLog_delivery hd', acceptedLog_append, acceptedLog_delivery hd]
          exact List.append_nil _
        · rw [hhistory, lostEvents_delivery hd', lostEvents, List.foldl_append]
          exact lostEvents_delivery hd
        · rw [hhistory, removedRows_append, removedRows_snoc, removedRows_append]
          simp
        · rw [hheld, hingress, List.nil_append]
        · obtain ⟨row, hrow, hid, hpayload, hcreated⟩ := hjustified.2 e he
          have hevent : row.event = e := by
            cases e
            cases row
            simp_all [RowIdentity.event]
          have hmem : row ∈ committedRows w'.history := by
            rw [hhistory, committedRows_delivery _ hd', committedRows_snoc]
            exact hrow
          exact hevent ▸ List.mem_map_of_mem hmem

end

/-! ## Runs -/

/-- The service is a durable queue in every run. -/
theorem reaches_of_steps {config : Config} {env : Env} {w : World}
    (hrun : Steps step (fun _ _ => True) (.boot config env Database.fresh []) w) :
    DurableQueue.empty.Reaches w.durableQueue := by
  have hall : (Bookkept w ∧ Remembers w) ∧ DurableQueue.empty.Reaches w.durableQueue := by
    refine hrun.invariant (I := fun w => (Bookkept w ∧ Remembers w) ∧
      DurableQueue.empty.Reaches w.durableQueue)
      ⟨⟨.of_books (.fresh config env), rfl⟩, .refl⟩ ?_
    rintro u a v ⟨⟨hb, hr⟩, hreaches⟩ - hs
    obtain ⟨hr', hstep⟩ := simulates hb hr hs
    exact ⟨⟨hb.step hs, hr'⟩, hreaches.trans hstep⟩
  exact hall.2

/-- **No event is invented, doubled, overtaken or silently lost on its way.** In every run from an
empty spool file, whatever fails and however often the process is killed and restarted with whatever
configuration: the events of the rows that have left `pending`, of the pending rows, in the buffer
of the persist loop and in the ingress queue are, in this order, a subsequence of what `submit()`
has accepted; every accepted event is one of these, or was in memory when its process ended; and
where no event was accepted twice each is in one place only, so that without such a loss this line
is the accepted events in their order. -/
theorem events_in_line (config : Config) (env : Env) (w : World)
    (hrun : Steps step (fun _ _ => True) (.boot config env Database.fresh []) w) :
    let line := (removedRows w.history).map RowIdentity.event ++
      w.spool.db.pending.map (·.identity.event) ++ (w.held ++ w.ingress)
    line.Sublist (acceptedLog w.history) ∧
      (∀ e ∈ acceptedLog w.history, e ∈ line ++ lostEvents w.history) ∧
      ((acceptedLog w.history).Nodup →
        (acceptedLog w.history).Perm (line ++ lostEvents w.history) ∧
        (lostEvents w.history = [] → line = acceptedLog w.history)) := by
  obtain ⟨hordered, haccounted⟩ :=
    DurableQueue.of_reaches DurableQueue.empty_sound (reaches_of_steps hrun)
  exact ⟨hordered, haccounted.mem, fun hn => ⟨haccounted.perm hn,
    fun hl => DurableQueue.line_eq hordered haccounted hn hl⟩⟩

/-- While one event is sent, another is accepted, and the process is killed. -/
def killedBehind : List Action := oneSent ++ [.submit darkEvent, .restart .provisional .quiet]

/-- The first is pending, and the second is lost. -/
theorem killedBehind_in_line : ∃ w : World,
    exec step killedBehind (.boot .provisional .quiet .fresh []) = some w ∧
      w.spool.db.pending.length = 1 ∧ (lostEvents w.history).length = 1 ∧
      (acceptedLog w.history).Perm ((removedRows w.history).map RowIdentity.event ++
        w.spool.db.pending.map (·.identity.event) ++ (w.held ++ w.ingress) ++
          lostEvents w.history) := by
  have hrun : ((exec step killedBehind (.boot .provisional .quiet .fresh [])).any fun w =>
      decide (w.spool.db.pending.length = 1 ∧ (lostEvents w.history).length = 1 ∧
        (acceptedLog w.history).Nodup)) = true := by
    decide +kernel
  obtain ⟨w, hw, hend⟩ := (Option.any_eq_true _ _).mp hrun
  obtain ⟨hpending, hlost, hnodup⟩ := of_decide_eq_true hend
  refine ⟨w, hw, hpending, hlost, ?_⟩
  exact ((events_in_line _ _ w (.of_exec (Option.mem_def.mp hw))).2.2 hnodup).1

end World

end QuestDbWriter
