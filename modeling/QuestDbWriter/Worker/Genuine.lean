import QuestDbWriter.Worker.Turns
import QuestDbWriter.Worker.Shutdown

/-!
# Where the rows come from

In every run from an empty spool file, whatever was killed and restarted with whatever limits, the
events on their way and the rows of `pending` are those of envelopes that `submit()` accepted
(`Genuine`); those on their way are within the event limit of the present process.
-/

namespace QuestDbWriter

open Lib Database SQLiteSpool

/-- The event is that of an envelope. -/
def FromEnvelope (e : NewSpoolEvent) : Prop := ∃ event : EventEnvelope, event.toSpoolEvent = .ok e

/-- The event that a row is inserted for. -/
def RowIdentity.event (row : RowIdentity) : NewSpoolEvent :=
  { eventId := row.eventId, payload := row.payload, createdNs := row.createdNs }

/-- A delivery commits no rows. -/
theorem committedRows_delivery (history : List Obs) {obs : List Obs} (h : ∀ o ∈ obs, o.IsDelivery) :
    committedRows (history ++ obs) = committedRows history := by
  unfold committedRows
  rw [List.flatMap_append, List.append_right_eq_self, List.flatMap_eq_nil_iff]
  intro o hm
  have ho := h o hm
  cases o <;> first | rfl | exact ho.elim

namespace World

section
variable {w w' : World} {a : Action}

/-- The events on their way are of envelopes within the limit, and the rows are of envelopes. -/
structure Genuine (w : World) : Prop where
  queue : ∀ e ∈ w.held ++ w.ingress,
    FromEnvelope e ∧ e.payload.length ≤ w.config.settings.maxSerializedEventBytes
  committed : ∀ row ∈ committedRows w.history, FromEnvelope row.event

/-- A quiet step commits no rows. -/
theorem Quiet.committed (h : Quiet False w w') :
    committedRows w'.history = committedRows w.history := by
  obtain ⟨obs, ho, hquiet⟩ := h.history
  rw [ho]
  exact (quiet_accounts w.history hquiet).2.1

/-- New rows are those of their events. -/
theorem newRows_event (seq : Int) (es : List NewSpoolEvent) :
    (newRows seq es).map (·.identity.event) = es :=
  newRows_events seq es

/-- The rows that a committed `enqueue_many` inserts are of the events it was given. -/
theorem insertedRows_held {db db' : Database} {events new : List NewSpoolEvent}
    {limits : SpoolLimits}
    (hc : db.Coherent) (hdb : db' = db.appendedAll new) (hnew : Enqueued limits db events new) :
    ∀ row ∈ insertedRows db db', row.event ∈ events := by
  intro row hrow
  rw [insertedRows_eq hc hdb] at hrow
  obtain ⟨r, hr, rfl⟩ := List.mem_map.mp hrow
  have hmem : ∀ (es : List NewSpoolEvent) (seq : Int), r ∈ newRows seq es →
      r.identity.event ∈ es := by
    intro es
    induction es with
    | nil => exact fun _ h => absurd h (List.not_mem_nil)
    | cons e es ih =>
      intro seq hr
      rcases List.mem_cons.mp hr with rfl | hr
      · exact List.mem_cons_self ..
      · exact List.mem_cons_of_mem _ (ih _ hr)
  exact hnew.mem _ (hmem new _ hr)

/-- An attempt to persist commits rows of held events only. -/
theorem persistHeld_committed (h : Books w) (ho : w.spool.db.Opened) {res : Except Exc Bool}
    (hm : w.persistHeld = (res, w')) :
    ∀ row ∈ committedRows w'.history, row ∈ committedRows w.history ∨ row.event ∈ w.held := by
  have hspace : Quiet False w w.freeSpace.2 := .freeSpace w
  have hkeep := hspace.keeps h
  have hheld : w.freeSpace.2.held = w.held := (Aside.of_acts (.freeSpace w)).held
  have same : ∀ {u : World}, Quiet False w.freeSpace.2 u → ∀ row ∈ committedRows u.history,
      row ∈ committedRows w.history ∨ row.event ∈ w.held := by
    intro u hu row hrow
    rw [hu.committed, hspace.committed] at hrow
    exact .inl hrow
  unfold persistHeld at hm
  dsimp only at hm
  split at hm
  · cases hm
    exact fun row hrow => .inl hrow
  · split at hm
    · cases hm
      exact same (.blockOnStorage ..)
    · unfold enqueueHeld at hm
      split at hm
      · next n v hv =>
        obtain ⟨c, hrun, rfl⟩ := of_call hv
        obtain ⟨new, -, hdb, hnew⟩ := enqueueMany_ok hkeep.books.coherent (hkeep.opened ho) hrun
        have hinserted := insertedRows_held hkeep.books.coherent hdb hnew
        rw [hheld] at hinserted
        have htaken : ∀ {u : World}, Quiet False (heldPersisted
            { w.freeSpace.2.logCall .enqueueMany with spool := c } w.freeSpace.2.spool.db) u →
            ∀ row ∈ committedRows u.history,
              row ∈ committedRows w.history ∨ row.event ∈ w.held := by
          intro u hu row hrow
          rw [hu.committed] at hrow
          change row ∈ committedRows (w.freeSpace.2.history ++
            [.enqueued w.freeSpace.2.held (insertedRows w.freeSpace.2.spool.db c.db)]) at hrow
          rw [committedRows_snoc, hspace.committed] at hrow
          exact (List.mem_append.mp hrow).imp_right (hinserted row)
        split at hm
        · next stats u hu =>
          cases hm
          have hread : Quiet False _ u := .readStats hu
          exact htaken (hread.trans (.resume u))
        · next e u hu =>
          cases hm
          exact htaken (.readStats hu)
      · next e v hv =>
        have hfailed : Quiet False _ v :=
          (Quiet.logCall _ .enqueueMany).trans (.failed (atomic_enqueueMany _ _) hv)
        split at hm
        · cases hm
          exact same (hfailed.trans (.blockOnStorage ..))
        · split at hm
          · cases hm
            exact same (hfailed.trans (.blockOnStorage ..))
          · cases hm
            exact same hfailed

/-- A turn of the persist loop commits rows of the buffer only. -/
theorem persistRound_committed (h : Books w) (ho : w.spool.db.Opened) :
    ∀ row ∈ committedRows w.persistRound.history,
      row ∈ committedRows w.history ∨ row.event ∈ w.held := by
  unfold persistRound
  split
  · next e v hv =>
    have hheld := persistHeld_committed h ho hv
    exact hheld
  · next v hv =>
    have hheld := persistHeld_committed h ho hv
    split
    · next u hu =>
      have hread : Quiet False v u := .readStats hu
      exact fun row hrow => hheld row (hread.committed ▸ hrow)
    · next u hu =>
      have hread : Quiet False v u := .readStats hu
      exact fun row hrow => hheld row (hread.committed ▸ hrow)

namespace Genuine

/-- No row is there, and no event on its way. -/
theorem fresh (config : Config) (env : Env) : Genuine (.boot config env Database.fresh []) where
  queue := nofun
  committed _ hrow := absurd hrow List.not_mem_nil

/-- What does nothing beside the queues keeps the rows genuine. -/
theorem aside (h : Genuine w) (ha : Aside w w') : Genuine w' := by
  obtain ⟨obs, ho, hd⟩ := ha.history
  refine ⟨?_, ?_⟩
  · rw [ha.held, ha.ingress, ha.config]
    exact h.queue
  · rw [ho, committedRows_delivery _ hd]
    exact h.committed

/-- **Every step keeps the rows genuine.** -/
theorem step (hb : Bookkept w) (h : Genuine w) (hs : QuestDbWriter.step w a = some w') :
    Genuine w' := by
  have ht := Taken.of_step hs
  have hqueues := ht.queues
  cases hqueues with
  | aside ha => exact h.aside ha
  | restart config env ha he =>
    subst he
    refine ⟨nofun, fun row hrow => ?_⟩
    rw [World.boot, committedRows_snoc, List.append_nil] at hrow
    exact h.committed row hrow
  | accepted event e shared ha hev hroom hsize hsub hper he =>
    subst he
    refine ⟨fun e' hm => ?_, fun row hrow => ?_⟩
    · rw [← List.append_assoc] at hm
      rcases List.mem_append.mp hm with hm | hm
      · exact h.queue e' hm
      · rw [List.mem_singleton.mp hm]
        exact ⟨⟨event, hev⟩, hsize⟩
    · rw [committedRows_snoc, List.append_nil] at hrow
      exact h.committed row hrow
  | drained event ingress hi hroom he =>
    subst he
    refine ⟨fun e hm => h.queue e ?_, h.committed⟩
    rw [hi]
    simpa using hm
  | round u ha hu haside =>
    subst ha
    refine ⟨?_, fun row hrow => ?_⟩
    · rw [haside.held, haside.ingress, haside.config]
      cases hu with
      | kept hacts => exact (h.aside (.of_acts hacts)).queue
      | taken t rows hacts hacts' =>
        have hlast := Aside.of_acts hacts'
        rw [hlast.held, hlast.ingress, hlast.config]
        exact fun e he => (h.aside (.of_acts hacts)).queue e (List.mem_append_right _ he)
    · cases ht with
      | persistRound hat =>
        have hl : w.thread = .looping :=
          hb.placed.looping (tasksRun_active (hb.placed.persisting (hat ▸ trivial)))
        rcases persistRound_committed hb.books (hb.opened (hl ▸ trivial)) row hrow with hrow | hheld
        · exact h.committed row hrow
        · exact (h.queue _ (List.mem_append_left _ hheld)).1

/-- A pending row is of an envelope. -/
theorem pending (h : Genuine w) (hb : Books w) :
    ∀ r ∈ w.spool.db.pending, FromEnvelope r.identity.event := by
  intro r hr
  refine h.committed _ ?_
  rw [hb.fifo]
  exact List.mem_append_right _ (List.mem_map_of_mem hr)

/-- **The rows are genuine in every state of every run**, from an empty spool file. -/
theorem of_steps {config : Config} {env : Env} {G : World → Action → Prop}
    (h : Steps QuestDbWriter.step G (.boot config env Database.fresh []) w) :
    Bookkept w ∧ Genuine w :=
  h.invariant (I := fun v => Bookkept v ∧ Genuine v) ⟨.of_books (.fresh config env),
    .fresh config env⟩
    fun _ _ _ ⟨hb, hg⟩ _ hs => ⟨hb.step hs, hg.step hb hs⟩

end Genuine

end

end World

end QuestDbWriter
