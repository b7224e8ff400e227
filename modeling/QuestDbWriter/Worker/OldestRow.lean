import QuestDbWriter.Worker.Deliveries

/-!
# The oldest row

A row that a worker has persisted can always be decoded and encoded, but under other limits than
those it was accepted under. `oldest_row_advances` is the exact condition under which the delivery
takes the oldest row into a batch, and `rejected_row_buried` the one under which a row that is
rejected alone leaves for dead letter. Both are about every reachable state, in the process that
accepted the row or in a later one with other limits.
-/

namespace QuestDbWriter

open Lib Database SQLiteSpool

/-- A row of an envelope can be decoded, and encoded for every table. -/
theorem FromEnvelope.encodes {e : NewSpoolEvent} (h : FromEnvelope e) (table : Table) :
    ∃ encoded, World.encodePayload table.name e.payload = .ok encoded := by
  obtain ⟨event, he⟩ := h
  obtain ⟨payload, hpayload, he⟩ := bind_ok.mp he
  cases he
  obtain ⟨row, hrow⟩ := event.toIlp_of_toBytes hpayload table
  exact ⟨row, bind_ok.mpr ⟨event, event.fromBytes_toBytes hpayload, hrow⟩⟩

namespace World

section
variable {w : World} {r : SpoolRecord} {rest : List SpoolRecord}

/-- Every pending row can be decoded and encoded. -/
theorem Genuine.encodes (h : Genuine w) (hb : Books w) {q : SpoolRecord}
    (hq : q ∈ w.spool.db.pending) :
    ∃ encoded, encodePayload w.config.table.name q.payload = .ok encoded :=
  (h.pending hb q hq).encodes w.config.table

/-! ## Into a batch -/

end

/-- The service starts, and persists one event. -/
def storedStart : List Action :=
  [.startCall, .threadOpen none, .threadStartup, .threadAnnounce, .mainPublish, .mainTest,
    .submit lightEvent, .persistRun, .persistDrain, .persistDrain, .persistRound]

/-- The oldest row has left for dead letter, and the rows behind it are next. -/
structure Left (r : SpoolRecord) (rest : List SpoolRecord)
    (x : Except Exc DeliveryOutcome × Backoff × World) : Prop where
  outcome : x.1 = .ok .deadLetter
  pending : x.2.2.spool.db.pending = rest
  deadLetter : r.identity ∈ x.2.2.spool.db.deadLetter.map DeadLetterRecord.identity

/-- The spool is what it was, and the delivery tries again later. -/
structure Wedged (w : World) (x : Except Exc DeliveryOutcome × Backoff × World) : Prop where
  outcome : ∃ delay, x.1 = .ok (.retry delay)
  spool : x.2.2.spool = w.spool

/-- **A row that is rejected alone leaves for dead letter exactly where its payload is within the
present `max_dead_letter_bytes`**; otherwise it stays the oldest row. A row that cannot be decoded
or encoded does not come up. This is about every reachable state on healthy storage, with a clock
that SQLite can store and a key of the dead letters left. -/
theorem rejected_row_leaves (config : Config) (env : Env) (w : World) (r : SpoolRecord)
    (rest : List SpoolRecord)
    (hrun : Steps step (fun _ _ => True) (.boot config env Database.fresh []) w)
    (hhealthy : w.Healthy)
    (hclock : sqliteIntegerMin ≤ w.env.wallTimeNs ∧ w.env.wallTimeNs ≤ sqliteIntegerMax)
    (hkey : w.spool.db.deadLetterSeq < sqliteIntegerMax) (hp : w.spool.db.pending = r :: rest) :
    (∃ encoded, encodePayload w.config.table.name r.payload = .ok encoded) ∧
      ∀ (built : BuiltBatch) (backoff : Backoff) (body : Bytes),
        w.deliver = .sending built ∨ w.main = .flushSending built →
        built.sequences = [r.sequence] →
        let x := w.deliverFinish built backoff
          (sendResult (sendBatch built.payload (.response 400 body)))
        (Left r rest x ↔ r.payload.length ≤ w.config.limits.maxDeadLetterBytes) ∧
          (¬ Left r rest x → Wedged w x) := by
  obtain ⟨hb, hg⟩ := Genuine.of_steps hrun
  refine ⟨hg.encodes hb.books (hp ▸ List.mem_cons_self ..), fun built backoff body hat halone => ?_⟩
  have hbatched : Batched w built := hat.elim (hb.sending built) (hb.flushing built)
  have hactive : w.main.IsActive := by
    rcases hat with hat | hat
    · exact tasksRun_active (hb.placed.delivering (hat ▸ trivial))
    · rw [hat]
      trivial
  have hable : Able w :=
    { healthy := hhealthy, coherent := hb.books.coherent,
      opened := hb.opened (hb.placed.looping hactive ▸ trivial), clock := hclock, key := hkey }
  have hresult : sendResult (sendBatch built.payload (.response 400 body)) =
      .error (rejection 400 body) := by
    obtain ⟨rows, hmap, hbatch, -⟩ := hbatched.rows
    have hne : rows ≠ [] := by
      rintro rfl
      exact hbatched.nonempty hmap.symm
    rw [sendBatch_rejected (hbatch.line hne) (by decide)]
    rfl
  -- the delivery is what `move_to_dead_letter` does, behind the observation of the answer
  let u := w.observe (.sent built (.error (rejection 400 body)))
  have hu : Able u :=
    { healthy := hable.healthy, coherent := hable.coherent, opened := hable.opened,
      clock := hable.clock, key := hable.key }
  have hfinish : w.deliverFinish built backoff (.error (rejection 400 body)) =
      u.batchRejected built (.initial w.config.settings) (rejection 400 body) := rfl
  rw [hresult, hfinish]
  unfold batchRejected
  rw [halone]
  dsimp only
  rcases moveToDeadLetter_healthy (w := u) hu (hp ▸ List.mem_cons_self ..)
      (IlpError.text_storable (rejection_encodable 400 body))
      (rejection 400 body).deliveryUncertain with ⟨hle, v, hmove, hburied⟩ | ⟨hlt, hmove⟩
  · rw [hmove]
    have hleft : Left r rest (.ok .deadLetter, Backoff.initial w.config.settings, v) :=
      ⟨rfl, hburied.pending hable.coherent hp, hburied.deadLetter⟩
    exact ⟨⟨fun _ => hle, fun _ => hleft⟩, fun hn => absurd hleft hn⟩
  · rw [hmove]
    dsimp only
    rw [if_pos (show deadLetterFull.type = .deadLetterFullError from rfl)]
    refine ⟨⟨fun hleft => ?_, fun hle => absurd hle (not_le.mpr hlt)⟩, fun _ => ⟨⟨_, rfl⟩, rfl⟩⟩
    have houtcome := hleft.outcome
    cases houtcome

/-- A delivery sends the only row, on storage that works. -/
def isAlone (w : World) : Bool :=
  decide (w.spool.faults = [] ∧
    (sqliteIntegerMin ≤ w.env.wallTimeNs ∧ w.env.wallTimeNs ≤ sqliteIntegerMax) ∧
    w.spool.db.deadLetterSeq < sqliteIntegerMax) &&
  match w.deliver, w.spool.db.pending with
  | .sending built, [r] => decide (built.sequences = [r.sequence])
  | _, _ => false

theorem isAlone_iff {w : World} : isAlone w = true ↔
    (w.spool.faults = [] ∧
      (sqliteIntegerMin ≤ w.env.wallTimeNs ∧ w.env.wallTimeNs ≤ sqliteIntegerMax) ∧
      w.spool.db.deadLetterSeq < sqliteIntegerMax) ∧
    ∃ built r, w.deliver = .sending built ∧ w.spool.db.pending = [r] ∧
      built.sequences = [r.sequence] := by
  unfold isAlone
  rw [Bool.and_eq_true_iff, decide_eq_true_eq]
  refine and_congr_right fun _ => ⟨fun h => ?_, ?_⟩
  · split at h
    · next built r hd hp => exact ⟨built, r, hd, hp, of_decide_eq_true h⟩
    · cases h
  · rintro ⟨built, r, hd, hp, hs⟩
    rw [hd, hp]
    exact decide_eq_true hs

/-- The service sends the event that it has persisted. -/
def sentStart : List Action := storedStart ++ [.persistCheck, .deliverRun]

/-- In the development profile a rejected row leaves. -/
theorem sentStart_leaves : ∃ (w : World) (r : SpoolRecord) (built : BuiltBatch),
    exec step sentStart (.boot .provisional .quiet .fresh []) = some w ∧
      w.spool.db.pending = [r] ∧ w.deliver = .sending built ∧ built.sequences = [r.sequence] ∧
      ∀ (backoff : Backoff) (body : Bytes),
        let x := w.deliverFinish built backoff
          (sendResult (sendBatch built.payload (.response 400 body)))
        (Left r [] x ↔ r.payload.length ≤ w.config.limits.maxDeadLetterBytes) ∧
          (¬ Left r [] x → Wedged w x) := by
  have hrun : ((exec step sentStart (.boot .provisional .quiet .fresh [])).any isAlone) = true := by
    decide +kernel
  obtain ⟨w, hw, halone⟩ := (Option.any_eq_true _ _).mp hrun
  obtain ⟨⟨hhealthy, hclock, hkey⟩, built, r, hd, hp, hs⟩ := isAlone_iff.mp halone
  exact ⟨w, r, built, hw, hp, hd, hs, fun backoff body =>
    (rejected_row_leaves _ _ w r [] (.of_exec hw) hhealthy hclock hkey hp).2 built backoff body
      (.inl hd) hs⟩

/-- The development profile with 64 bytes for an event and for the dead letters. -/
def shortDeadLetters : Config where
  settings := { WorkerSettings.provisional with
    maxSerializedEventBytes := 64, maxSerializedEventBytes_pos := by decide }
  limits := { SpoolLimits.provisional with
    maxEventBytes := 64, maxDeadLetterBytes := 64, eventBytes_pos := by decide,
    deadLetterBytes_pos := by decide, event_le_pending := by decide,
    event_le_deadLetter := by decide }
  table := Config.provisional.table
  hasSchema := false

/-- The event is persisted under the limits of the development profile, and sent by a process under
shorter ones. -/
def sentLater : List Action :=
  storedStart ++ [.restart shortDeadLetters .quiet, .startCall, .threadOpen none, .threadStartup,
    .threadAnnounce, .mainPublish, .mainTest, .deliverRun]

/-- The batch in flight does not end as a dead letter behind a `400`. -/
def isKept (w : World) : Bool :=
  match w.deliver with
  | .sending built =>
    match (w.deliverFinish built (.initial w.config.settings)
        (sendResult (sendBatch built.payload (.response 400 [])))).1 with
    | .ok .deadLetter => false
    | _ => true
  | _ => false

/-- **Not every rejected row leaves**: one that was accepted under another configuration wedges the
queue. -/
theorem rejected_row_wedges : ¬ ∀ (config : Config) (env : Env) (w : World) (r : SpoolRecord)
    (rest : List SpoolRecord),
    Steps step (fun _ _ => True) (.boot config env Database.fresh []) w → w.Healthy →
      sqliteIntegerMin ≤ w.env.wallTimeNs ∧ w.env.wallTimeNs ≤ sqliteIntegerMax →
      w.spool.db.deadLetterSeq < sqliteIntegerMax → w.spool.db.pending = r :: rest →
      ∀ (built : BuiltBatch) (backoff : Backoff) (body : Bytes),
        w.deliver = .sending built ∨ w.main = .flushSending built →
        built.sequences = [r.sequence] →
        Left r rest (w.deliverFinish built backoff
          (sendResult (sendBatch built.payload (.response 400 body)))) := by
  intro h
  have hrun : ((exec step sentLater (.boot .provisional .quiet .fresh [])).any fun w =>
      isAlone w && isKept w) = true := by
    decide +kernel
  obtain ⟨w, hw, hend⟩ := (Option.any_eq_true _ _).mp hrun
  obtain ⟨halone, hstays⟩ := Bool.and_eq_true_iff.mp hend
  obtain ⟨⟨hhealthy, hclock, hkey⟩, built, r, hd, hp, hs⟩ := isAlone_iff.mp halone
  have hleft := h _ _ w r [] (.of_exec hw) hhealthy hclock hkey hp built
    (.initial w.config.settings) [] (.inl hd) hs
  simp only [isKept, hd, hleft.outcome] at hstays
  cases hstays

end World

end QuestDbWriter
