import QuestDbWriter.Worker.Turns
import QuestDbWriter.Worker.Blocking

/-!
# Every row is accounted for

The results about the rows of every run, from an empty spool file and through any number of
restarts: `rows_in_order`, the order in which rows leave `pending`, and `rows_accounted`, where each
of them is, why it has left, and how the counters of a process add up.
-/

namespace QuestDbWriter

open Lib

namespace World

/-! ## The order -/

/-- The call removes the oldest pending rows. -/
def RemovesOldest (before : List Obs) : Obs → Prop
  | .delivered rows _ => ∃ rest, committedRows before = removedRows before ++ (rows ++ rest)
  | .moved row _ => ∃ rest, committedRows before = removedRows before ++ (row :: rest)
  | _ => True

/-- A removal that is justified takes the oldest rows. -/
theorem removesOldest_of_justified {before : List Obs} {o : Obs} (h : Justified before o) :
    RemovesOldest before o := by
  cases o with
  | delivered rows uncertain => exact h.2.1
  | moved row evicted => exact h.1
  | _ => trivial

/-- **Rows leave in the order they came**: in every state of every run the rows ever committed are
the removed ones and then the pending ones, and every call has removed the oldest pending ones. -/
theorem rows_in_order (config : Config) (env : Env) (w : World)
    (hrun : Steps step (fun _ _ => True) (.boot config env Database.fresh []) w) :
    committedRows w.history =
        removedRows w.history ++ w.spool.db.pending.map SpoolRecord.identity ∧
      ((committedRows w.history).map (·.sequence)).Pairwise (· < ·) ∧
      (∀ row ∈ removedRows w.history, ∀ r ∈ w.spool.db.pending, row.sequence < r.sequence) ∧
      ∀ before o after, w.history = before ++ o :: after → RemovesOldest before o := by
  have hb := (Bookkept.of_steps hrun).books
  refine ⟨hb.fifo, hb.increasing, fun row hrow r hr => hb.removed_lt hrow hr, ?_⟩
  intro before o after heq
  exact removesOldest_of_justified (hb.chronicle.rests heq)

/-- A light that is switched off. -/
def darkEvent : EventEnvelope where
  fields :=
    { eventId := py "2", entityId := py "light.hall", state := py "off",
      attributesJson := py "{}", ingestedAtNs := 5000, lastChangedNs := 4000, lastUpdatedNs := 4000,
      contextId := none }
  valid := by rfl

/-- While one event is sent, another is persisted. -/
def overtaken : List Action :=
  oneSent ++ [.submit darkEvent, .environment { Env.quiet with monotonic := 10 } [], .persistWake,
    .persistRun, .persistDrain, .persistDrain, .persistRound, .persistCheck]

/-- The older of two rows is delivered. -/
theorem overtaken_in_order : ∃ w : World,
    exec step (overtaken ++ [.deliverSent .ok]) (.boot .provisional .quiet .fresh []) = some w ∧
      (removedRows w.history).length = 1 ∧ w.spool.db.pending.length = 1 ∧
      ∀ row ∈ removedRows w.history, ∀ r ∈ w.spool.db.pending, row.sequence < r.sequence := by
  have hrun : ((exec step (overtaken ++ [.deliverSent .ok])
      (.boot .provisional .quiet .fresh [])).any fun w =>
      decide ((removedRows w.history).length = 1 ∧ w.spool.db.pending.length = 1)) = true := by
    decide +kernel
  obtain ⟨w, hw, hend⟩ := (Option.any_eq_true _ _).mp hrun
  obtain ⟨hremoved, hpending⟩ := of_decide_eq_true hend
  refine ⟨w, hw, hremoved, hpending, ?_⟩
  exact (rows_in_order _ _ w (.of_exec (Option.mem_def.mp hw))).2.2.1

/-! ## The accounts -/

/-- Where a committed row can be. -/
inductive Place where
  | pending
  | delivered
  | deadLetter
  | evicted
deriving DecidableEq

/-- The rows of a place. -/
def rowsAt (w : World) : Place → List RowIdentity
  | .pending => w.spool.db.pending.map SpoolRecord.identity
  | .delivered => deliveredRows w.history
  | .deadLetter => w.spool.db.deadLetter.map DeadLetterRecord.identity
  | .evicted => evictedRows w.history

/-- The places a row can be in. -/
def Place.all : List Place := [.pending, .delivered, .deadLetter, .evicted]

/-- There is no other. -/
theorem Place.mem_all (p : Place) : p ∈ Place.all := by
  cases p <;> decide

/-- The places hold the committed rows. -/
theorem Books.perm {w : World} (h : Books w) :
    (Place.all.flatMap (rowsAt w)).Perm (committedRows w.history) := by
  have hremoved := removedRows_perm w.history
  rw [h.buried] at hremoved
  rw [h.fifo]
  simp only [Place.all, List.flatMap_cons, List.flatMap_nil, List.append_nil, rowsAt]
  refine List.perm_append_comm.trans ?_
  refine (List.Perm.append_right _ ?_)
  refine ((List.perm_append_comm).append_left _).trans ?_
  exact hremoved.symm

/-- **Every committed row is accounted for**: in every state of every run it is in exactly one
place, every delivery and every move was justified by what came before it, and the counters of the
process add up to the rows of the spool. An event that is stored already is persisted once more, and
no row is inserted for it. -/
theorem rows_accounted (config : Config) (env : Env) (w : World)
    (hrun : Steps step (fun _ _ => True) (.boot config env Database.fresh []) w) :
    (∀ row ∈ committedRows w.history, ∃! p, row ∈ rowsAt w p) ∧
      (∀ before o after, w.history = before ++ o :: after → Justified before o) ∧
      w.spool.db.pending.length + w.shared.counters.deliveredEvents +
          w.shared.counters.deadLetteredEvents + (tallyOf w.history).duplicates =
        (tallyOf w.history).startPending + w.shared.counters.persistedEvents ∧
      w.spool.db.deadLetter.length + w.shared.counters.deadLetterEvictedEvents =
        (tallyOf w.history).startDeadLetter + w.shared.counters.deadLetteredEvents := by
  have hb := (Bookkept.of_steps hrun).books
  obtain ⟨⟨hpersisted, hdelivered, -, hmoved, hevicted⟩, hpending, hdead⟩ := hb.tallied
  refine ⟨fun row hrow => ?_, fun before o after heq => hb.chronicle.rests heq, ?_, ?_⟩
  · have hnodup : (committedRows w.history).Nodup :=
      List.Nodup.of_map _ (hb.increasing.imp fun h => ne_of_lt h)
    exact exists_unique_place Place.mem_all (hb.perm.nodup_iff.mpr hnodup)
      (hb.perm.mem_iff.mpr hrow)
  · have hle := inserted_le hb.chronicle
    rw [hpersisted, hdelivered, hmoved, Tally.duplicates]
    omega
  · rw [hevicted, hmoved]
    exact hdead

/-- Of two events one is delivered and one is pending. -/
theorem overtaken_accounted : ∃ w : World,
    exec step (overtaken ++ [.deliverSent .ok]) (.boot .provisional .quiet .fresh []) = some w ∧
      w.shared.counters.persistedEvents = 2 ∧ w.shared.counters.deliveredEvents = 1 ∧
      ∀ row ∈ committedRows w.history, ∃! p, row ∈ rowsAt w p := by
  have hrun : ((exec step (overtaken ++ [.deliverSent .ok])
      (.boot .provisional .quiet .fresh [])).any fun w =>
      decide (w.shared.counters.persistedEvents = 2 ∧ w.shared.counters.deliveredEvents = 1)) =
      true := by
    decide +kernel
  obtain ⟨w, hw, hend⟩ := (Option.any_eq_true _ _).mp hrun
  obtain ⟨hpersisted, hdelivered⟩ := of_decide_eq_true hend
  refine ⟨w, hw, hpersisted, hdelivered, ?_⟩
  exact (rows_accounted _ _ w (.of_exec (Option.mem_def.mp hw))).1

/-- One event is persisted, and once more. -/
def persistedTwice : List Action :=
  oneSent ++ [.submit lightEvent, .environment { Env.quiet with monotonic := 10 } [], .persistWake,
    .persistRun, .persistDrain, .persistDrain, .persistRound, .persistCheck]

/-- **The counters do not add up without the duplicates.** -/
theorem rows_unaccounted : ¬ ∀ (config : Config) (env : Env) (w : World),
    Steps step (fun _ _ => True) (.boot config env Database.fresh []) w →
      w.spool.db.pending.length + w.shared.counters.deliveredEvents +
          w.shared.counters.deadLetteredEvents =
        (tallyOf w.history).startPending + w.shared.counters.persistedEvents := by
  intro h
  have hrun : ((exec step persistedTwice (.boot .provisional .quiet .fresh [])).any fun w =>
      decide (w.spool.db.pending.length + w.shared.counters.deliveredEvents +
          w.shared.counters.deadLetteredEvents ≠
        (tallyOf w.history).startPending + w.shared.counters.persistedEvents)) = true := by
    decide +kernel
  obtain ⟨w, hw, hend⟩ := (Option.any_eq_true _ _).mp hrun
  exact of_decide_eq_true hend (h _ _ w (.of_exec (Option.mem_def.mp hw)))

end World

end QuestDbWriter
