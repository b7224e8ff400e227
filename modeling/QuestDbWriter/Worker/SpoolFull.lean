import QuestDbWriter.Worker.Deliveries
import QuestDbWriter.Worker.Accounts

/-!
# The end of a full spool

Delivery drains the spool, and the next attempt to persist is to end the pause of a full spool. The
buffer of the persist loop goes to the spool as a whole, and it may hold more than the spool can
take: `full_spool_ends` says that an empty spool takes the buffer exactly where its rows and its
bytes are within the limits of the spool.
-/

namespace QuestDbWriter

open Lib Database SQLiteSpool
open Session (eval run)

/-- A payload is not empty. -/
theorem EventEnvelope.payload_ne {event : EventEnvelope} {payload : Bytes}
    (h : event.toBytes = .ok payload) : payload ≠ [] := by
  have henc : Utf8.encode (Json.dumps event.fields.document) = some payload := encodeUtf8_ok.mp h
  rw [Json.dumps, Utf8.encode, if_neg (by decide)] at henc
  obtain ⟨rest, -, rfl⟩ := Option.map_eq_some_iff.mp henc
  have hscalar : Utf8.encodeScalar (ofChar '{').val = [123] := by decide
  rw [hscalar]
  exact List.cons_ne_nil _ _

/-- **An event of an envelope is one that `enqueue_many` accepts**, within the event limit. -/
theorem FromEnvelope.valid {e : NewSpoolEvent} (h : FromEnvelope e) {limits : SpoolLimits}
    (hsize : e.payload.length ≤ limits.maxEventBytes) :
    validateNewEvent limits e = .ok () ∧ (Utf8.encode e.eventId).isSome := by
  obtain ⟨event, he⟩ := h
  obtain ⟨payload, hpayload, he⟩ := bind_ok.mp he
  cases he
  have hb := event.bounds
  have hid : Encodable event.fields.eventId :=
    event.encodable hpayload (py "event_id") (by simp [EventFields.document])
  have hmin : sqliteIntegerMin ≤ 0 := by decide
  refine ⟨validateNewEvent_ok.mpr ⟨⟨hb.eventId_ne, hb.eventId_nul⟩,
    EventEnvelope.payload_ne hpayload, ⟨hmin.trans hb.ingested.1, hb.ingested.2⟩, hsize⟩,
    Encodable.iff_isSome.mp hid⟩

namespace World

section
variable {w w' : World}

/-- The whole buffer has gone to the spool. -/
structure BufferTaken (w : World) (r : Except Exc Bool × World) : Prop where
  result : r.1 = .ok true
  held : r.2.held = []
  stored : r.2.spool.db.pending.map (·.identity.event) =
    w.spool.db.pending.map (·.identity.event) ++ w.held

/-- The buffer and the spool are what they were, and the attempt reports a full spool. -/
structure SpoolFullStays (w : World) (r : Except Exc Bool × World) : Prop where
  result : r.1 = .ok false
  held : r.2.held = w.held
  db : r.2.spool.db = w.spool.db
  reason : r.2.shared.blockReason = some .spoolFull

/-- The durable part, on healthy storage and for events whose ids are unused: the buffer is taken
where it fits, and otherwise the spool stays full. -/
theorem enqueueHeld_healthy (h : w.Healthy) (hc : w.spool.db.Coherent) (ho : w.spool.db.Opened)
    (hne : w.held ≠ []) (hv : ∀ e ∈ w.held, validateNewEvent w.config.limits e = .ok ())
    (henc : ∀ e ∈ w.held, (Utf8.encode e.eventId).isSome)
    (hn : (w.held.map (·.eventId)).Nodup) (hun : ∀ e ∈ w.held, Unused w.spool.db e.eventId)
    (hk : w.spool.db.pendingSeq + w.held.length ≤ sqliteIntegerMax) :
    (w.spool.db.pending.length + w.held.length ≤ w.config.limits.maxPendingRows ∧
        Sql.rowBytes w.spool.db.pending + eventBytes w.held ≤ w.config.limits.maxPendingBytes ∧
        BufferTaken w w.enqueueHeld) ∨
      (¬ (w.spool.db.pending.length + w.held.length ≤ w.config.limits.maxPendingRows ∧
          Sql.rowBytes w.spool.db.pending + eventBytes w.held ≤ w.config.limits.maxPendingBytes) ∧
        SpoolFullStays w w.enqueueHeld) := by
  have hcall := call_healthy (show (w.logCall .enqueueMany).Healthy from h)
    (clear_enqueueMany w.config.limits w.held)
  rw [logCall_spool] at hcall
  rcases eval_enqueueMany_unused hc ho hv henc hn hun hne hk with
    ⟨hrows, hbytes, hev⟩ | ⟨hnot, e, hev, htype⟩
  · refine .inl ⟨hrows, hbytes, ?_⟩
    rw [hev] at hcall
    have hins : Insertable w.spool.db w.held :=
      ⟨hn, hun, fun e he => storable_of_valid (hv e he) (henc e he)⟩
    have hopened : (w.spool.db.appendedAll w.held).Opened := by
      refine (hc.appendedAll hins hk).counted.opened ?_
      rw [appendedAll_isSome]
      exact ho.isSome
    have hread : (((w.logCall .enqueueMany).withDb (w.spool.db.appendedAll w.held)).heldPersisted
        w.spool.db).readStats = _ := readStats_healthy rfl hopened
    unfold enqueueHeld
    rw [hcall]
    dsimp only
    rw [hread]
    refine ⟨rfl, rfl, ?_⟩
    change (w.spool.db.appendedAll w.held).pending.map (·.identity.event) = _
    rw [appendedAll_pending, List.map_append, newRows_event]
  · refine .inr ⟨hnot, ?_⟩
    rw [hev] at hcall
    unfold enqueueHeld
    rw [hcall]
    dsimp only
    rw [if_pos htype]
    exact ⟨rfl, rfl, rfl, rfl⟩

end

/-- **An empty spool takes the buffer of the persist loop exactly where its rows and bytes are
within the limits of the spool**; any other buffer stays, and so does the pause, at every further
attempt. This is about every reachable state in which the persist loop is about to persist, nothing
is pending, the guard does not block, SQLite does not fail and has keys left, and the held ids are
unused. -/
theorem full_spool_ends (config : Config) (env : Env) (w : World)
    (hrun : Steps step (fun _ _ => True) (.boot config env Database.fresh []) w)
    (hlimit : w.config.limits.maxEventBytes = w.config.settings.maxSerializedEventBytes)
    (hat : w.persist = .persisting) (hempty : w.spool.db.pending = [])
    (hspace : w.freeSpace.1.blocked = false) (hhealthy : w.Healthy)
    (hkeys : w.spool.db.pendingSeq + w.held.length ≤ sqliteIntegerMax)
    (hdistinct : (w.held.map (·.eventId)).Nodup)
    (hunused : ∀ e ∈ w.held, Unused w.spool.db e.eventId) :
    (BufferTaken w w.persistHeld ↔ w.held.length ≤ w.config.limits.maxPendingRows ∧
        eventBytes w.held ≤ w.config.limits.maxPendingBytes) ∧
      (¬ BufferTaken w w.persistHeld → SpoolFullStays w w.persistHeld) := by
  obtain ⟨hb, hg⟩ := Genuine.of_steps hrun
  have hopened : w.spool.db.Opened := by
    refine hb.opened ?_
    rw [hb.placed.looping (tasksRun_active (hb.placed.persisting (hat ▸ trivial)))]
    trivial
  unfold persistHeld
  split
  · next hnil =>
    have htaken : BufferTaken w (.ok true, w) := ⟨rfl, hnil, by rw [hnil, List.append_nil]⟩
    refine ⟨⟨fun _ => ?_, fun _ => htaken⟩, fun hn => absurd htaken hn⟩
    rw [hnil]
    exact ⟨Nat.zero_le _, Nat.zero_le _⟩
  · next hne =>
    obtain ⟨shared, he⟩ : ∃ shared, w.freeSpace.2 = { w with shared } := by
      obtain ⟨_, _, _, _, he⟩ := Measures.freeSpace w
      exact ⟨_, he⟩
    rw [if_neg (by rw [hspace]; exact Bool.false_ne_true), he]
    have hvalid : ∀ e ∈ w.held, validateNewEvent w.config.limits e = .ok () ∧
        (Utf8.encode e.eventId).isSome := fun e hm => by
      obtain ⟨hfrom, hsize⟩ := hg.queue e (List.mem_append_left _ hm)
      exact hfrom.valid (hlimit ▸ hsize)
    have hcase := enqueueHeld_healthy (w := { w with shared }) hhealthy
        hb.books.coherent hopened hne
      (fun e hm => (hvalid e hm).1) (fun e hm => (hvalid e hm).2) hdistinct hunused hkeys
    simp only [hempty, List.length_nil, Nat.zero_add, Sql.rowBytes, List.map_nil, List.sum_nil]
      at hcase
    rcases hcase with ⟨hrows, hbytes, htaken⟩ | ⟨hnot, hstays⟩
    · have htaken : BufferTaken w _ := ⟨htaken.result, htaken.held, hempty ▸ htaken.stored⟩
      exact ⟨⟨fun _ => ⟨hrows, hbytes⟩, fun _ => htaken⟩, fun hn => absurd htaken hn⟩
    · have hno : ¬ BufferTaken w (World.enqueueHeld { w with shared }) := fun ht => by
        have hr := ht.result
        rw [hstays.result] at hr
        cases hr
      exact ⟨⟨fun ht => absurd ht hno, fun hfit => absurd hfit hnot⟩,
        fun _ => ⟨hstays.result, hstays.held, hstays.db, hstays.reason⟩⟩

/-- The service starts, accepts two events, and its persist loop drains them. -/
def drainedStart : List Action :=
  [.startCall, .threadOpen none, .threadStartup, .threadAnnounce, .mainPublish, .mainTest,
    .submit lightEvent, .submit darkEvent, .persistRun, .persistDrain, .persistDrain, .persistDrain]

/-- What `full_spool_ends` asks of a state. -/
def isDrained (w : World) : Bool :=
  decide (w.config.limits.maxEventBytes = w.config.settings.maxSerializedEventBytes ∧
    w.persist = .persisting ∧ w.spool.db.pending = [] ∧ w.freeSpace.1.blocked = false ∧
    w.spool.faults = [] ∧ w.spool.db.pendingSeq + w.held.length ≤ sqliteIntegerMax ∧
    (w.held.map (·.eventId)).Nodup ∧
    ∀ e ∈ w.held, e.eventId ∉ w.spool.db.pending.map (·.eventId) ∧
      e.eventId ∉ w.spool.db.deadLetter.map (·.eventId))

/-- The development profile takes them. -/
theorem drainedStart_taken : ∃ w : World,
    exec step drainedStart (.boot .provisional .quiet .fresh []) = some w ∧
      (BufferTaken w w.persistHeld ↔ w.held.length ≤ w.config.limits.maxPendingRows ∧
        eventBytes w.held ≤ w.config.limits.maxPendingBytes) ∧
      (¬ BufferTaken w w.persistHeld → SpoolFullStays w w.persistHeld) := by
  have hrun : ((exec step drainedStart (.boot .provisional .quiet .fresh [])).any isDrained) =
      true := by
    decide +kernel
  obtain ⟨w, hw, hdrained⟩ := (Option.any_eq_true _ _).mp hrun
  obtain ⟨h1, h2, h3, h4, h5, h6, h7, h8⟩ := of_decide_eq_true hdrained
  exact ⟨w, hw, full_spool_ends _ _ w (.of_exec hw) h1 h2 h3 h4 h5 h6 h7 h8⟩

/-- The development profile with room for one pending row. -/
def narrowProfile : Config where
  settings := .provisional
  limits := { SpoolLimits.provisional with maxPendingRows := 1, pendingRows_pos := Nat.one_pos }
  table := Config.provisional.table
  hasSchema := false

/-- **A pause of a full spool does not always end**: two events are drained for a spool of one
row. -/
theorem full_spool_stays : ¬ ∀ (config : Config) (env : Env) (w : World),
    Steps step (fun _ _ => True) (.boot config env Database.fresh []) w →
      w.config.limits.maxEventBytes = w.config.settings.maxSerializedEventBytes →
      w.persist = .persisting → w.spool.db.pending = [] → w.freeSpace.1.blocked = false →
      w.Healthy → w.spool.db.pendingSeq + w.held.length ≤ sqliteIntegerMax →
      (w.held.map (·.eventId)).Nodup → (∀ e ∈ w.held, Unused w.spool.db e.eventId) →
      BufferTaken w w.persistHeld := by
  intro h
  let isTrue (r : Except Exc Bool) : Bool := match r with
    | .ok b => b
    | .error _ => false
  have hrun : ((exec step drainedStart (.boot narrowProfile .quiet .fresh [])).any fun w =>
      isDrained w && !isTrue w.persistHeld.1) = true := by
    decide +kernel
  obtain ⟨w, hw, hend⟩ := (Option.any_eq_true _ _).mp hrun
  obtain ⟨hdrained, hfalse⟩ := Bool.and_eq_true_iff.mp hend
  obtain ⟨h1, h2, h3, h4, h5, h6, h7, h8⟩ := of_decide_eq_true hdrained
  have htaken := h _ _ w (.of_exec hw) h1 h2 h3 h4 h5 h6 h7 h8
  rw [htaken.result] at hfalse
  cases hfalse

end World

end QuestDbWriter
