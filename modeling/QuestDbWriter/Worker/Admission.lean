import QuestDbWriter.Spool.Enqueue
import QuestDbWriter.Worker.SpoolFull

/-!
# An accepted event is admissible

What `submit()` accepts has passed the checks of the envelope and its limit on the serialized size.
The checks of the spool ask for no more where the spool allows events of that size
(`Accepts.valid`), so that a batch of accepted events with new ids ends in the spool, or in a full
spool or a failure of the storage (`accepted_admissible`): nothing in the events ends the persist
loop.
-/

namespace QuestDbWriter

open Lib Database SQLiteSpool
open Session (eval run)

/-- `submit()` returns `True` for the event and puts `e` into the queue. -/
def World.Accepts (w : World) (event : EventEnvelope) (e : NewSpoolEvent) : Prop :=
  (w.submit event).history = w.history ++ [.accepted e]

/-- An accepted event is the serialized envelope, within the limit of the settings. -/
theorem World.Accepts.serialized {w : World} {event : EventEnvelope} {e : NewSpoolEvent}
    (h : w.Accepts event e) :
    event.toSpoolEvent = .ok e ∧ e.payload.length ≤ w.config.settings.maxSerializedEventBytes := by
  unfold World.Accepts at h
  obtain ⟨shared, ⟨he, -⟩ | ⟨e', hev, -, -, hsize, he, -⟩, -⟩ := World.submit_eq w event
  · rw [he] at h
    cases List.self_eq_append_right.mp h
  · rw [he] at h
    cases List.append_cancel_left h
    exact ⟨hev, hsize⟩

/-- An event that `submit()` accepts passes the check of the spool. -/
theorem World.Accepts.valid {w : World} {event : EventEnvelope} {e : NewSpoolEvent}
    (h : w.Accepts event e) {limits : SpoolLimits}
    (hsize : w.config.settings.maxSerializedEventBytes ≤ limits.maxEventBytes) :
    validateNewEvent limits e = .ok () ∧ (Utf8.encode e.eventId).isSome :=
  FromEnvelope.valid ⟨event, h.serialized.1⟩ (h.serialized.2.trans hsize)

end QuestDbWriter
