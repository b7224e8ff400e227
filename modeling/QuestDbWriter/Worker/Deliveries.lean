import QuestDbWriter.Worker.Genuine

/-!
# Deliveries on healthy storage

Where the storage does not fail, a call of the spool is a function of the database alone (`eval`),
and so are the methods that make it. What `_deliver_once` does there on a coherent spool, by what
the oldest pending row is: a batch of rows from the front (`deliverStart_sends`), the row in dead
letter (`deliverStart_buries`), or an exception (`deliverStart_oversized`); and by what the server
answers: the rows removed (`batchDelivered_healthy`), an attempt counted (`recordAttempt_healthy`),
or the row in dead letter (`moveToDeadLetter_healthy`).
-/

namespace QuestDbWriter

open Lib Database SQLiteSpool
open Session (eval run)

/-! ## Calls on healthy storage -/

namespace World

section
variable {w : World}

/-- No statement of the connection will fail. -/
def Healthy (w : World) : Prop := w.spool.faults = []

/-- The connection after a call on healthy storage. -/
def withDb (w : World) (db : Database) : World := { w with spool := { db, faults := [] } }

@[simp] theorem withDb_healthy (w : World) (db : Database) : (w.withDb db).Healthy := rfl

@[simp] theorem withDb_db (w : World) (db : Database) : (w.withDb db).spool.db = db := rfl

theorem call_healthy {α : Type} {p : SpoolM α} (h : w.Healthy) (hp : Clear p) :
    w.call p = ((eval p w.spool.db).1, w.withDb (eval p w.spool.db).2) := by
  have hs : w.spool = ⟨w.spool.db, []⟩ := by
    rw [← show w.spool.faults = [] from h]
  rw [World.call, hs, hp.run_nil]
  rfl

/-- The counters are read from an open spool. -/
theorem readStats_healthy (h : w.Healthy) (ho : w.spool.db.Opened) :
    w.readStats = (.ok (Sql.counts w.spool.db),
      (w.withDb w.spool.db).withShared ({ · with spoolStats := Sql.counts w.spool.db })) := by
  rw [readStats, call_healthy h clear_stats, eval_stats ho]

end

end World

/-! ## Texts -/

/-- A text that `record_attempt` and `move_to_dead_letter` store. -/
structure StorableText (text : PyStr) : Prop where
  nonempty : text ≠ []
  no_nul : ofChar '\x00' ∉ text
  encodable : (Utf8.encode text).isSome

/-- **`_error_text` makes a text that can be stored** out of one that has UTF-8 bytes. -/
theorem errorTextOf_storable {name : String} {message : PyStr}
    (hname : (name.toList.all fun c => decide (c.toNat < 128)) = true) (hm : Encodable message) :
    StorableText (errorTextOf (py name) message) := by
  have hmark : Encodable [ofChar '\uFFFD'] := fun c hc => by
    rw [List.mem_singleton.mp hc]
    decide
  have hdots : Encodable [ofChar '…'] := fun c hc => by
    rw [List.mem_singleton.mp hc]
    decide
  let whole := Escape.replaceChar (ofChar '\x00') [ofChar '\uFFFD'] (py name ++ py ": " ++ message)
  have hmem : ∀ c ∈ whole, c ∈ py name ++ py ": " ++ message ∧ c ≠ ofChar '\x00' ∨
      c = ofChar '\uFFFD' := by
    intro c hc
    obtain ⟨d, hd, hcd⟩ := List.mem_flatMap.mp hc
    split at hcd
    · exact .inr (List.mem_singleton.mp hcd)
    · next hne =>
      obtain rfl := List.mem_singleton.mp hcd
      exact .inl ⟨hd, hne⟩
  have henc : Encodable whole := by
    intro c hc
    rcases hmem c hc with ⟨hc, -⟩ | rfl
    · exact (((Encodable.py hname).append (.py (by decide))).append hm) c hc
    · exact hmark _ (List.mem_singleton.mpr rfl)
  have hnul : ofChar '\x00' ∉ whole := fun hc => by
    rcases hmem _ hc with ⟨-, hne⟩ | he
    · exact hne rfl
    · exact absurd he (by decide)
  have hne : whole ≠ [] := by
    have hcolon : ofChar ':' ∈ whole :=
      List.mem_flatMap.mpr ⟨ofChar ':', by simp [py], by rw [if_neg (by decide)]; simp⟩
    exact List.ne_nil_of_mem hcolon
  show StorableText (if maxErrorText < whole.length then whole.take maxErrorText ++ [ofChar '…']
    else whole)
  split
  · refine ⟨by simp, fun hc => ?_, Encodable.iff_isSome.mp ?_⟩
    · rcases List.mem_append.mp hc with hc | hc
      · exact hnul (List.mem_of_mem_take hc)
      · exact absurd (List.mem_singleton.mp hc) (by decide)
    · exact (henc.sublist (List.take_sublist ..)).append hdots
  · exact ⟨hne, hnul, Encodable.iff_isSome.mp henc⟩

/-- The text of an error of the transport. -/
theorem IlpError.text_storable {e : IlpError} (h : Encodable e.message) : StorableText e.text := by
  unfold IlpError.text
  refine errorTextOf_storable ?_ h
  cases e.kind <;> decide

namespace World

/-- The text of the error of a row that cannot be decoded or encoded. -/
theorem errorText_undecodable {table : PyStr} {payload : Bytes} {e : Exc}
    (he : encodePayload table payload = .error e) (hun : isUndecodable e = true) :
    StorableText (errorText e) := by
  have hraises : RaisesOnly Ilp.TextEncodable (encodePayload table payload) :=
    RaisesOnly.bind (fun x hx => (EventEnvelope.fromBytes_raises payload x hx).text)
      fun event _ => event.toIlp_raises table
  unfold errorText
  refine errorTextOf_storable ?_ (hraises e he)
  unfold isUndecodable at hun
  split at hun
  · next ht => rw [ht]; decide
  · next ht => rw [ht]; decide
  · cases hun

/-! ## What is sent -/

/-- How a call of `send_batch` ends, as the delivery sees it. -/
def sendResult : Except CallError Unit → SendResult
  | .ok _ => .ok
  | .error (.ilp e) => .error e
  | .error (.schema mismatch message) => .raised (schemaExc mismatch message)
  | .error (.other e) => .raised e

/-- An encoded row is a line. -/
theorem encodePayload_line {table : PyStr} {payload bytes : Bytes} {interpreter : Interpreter}
    (h : encodePayload table payload interpreter = .ok bytes) : bytes.getLast? = some 10 := by
  obtain ⟨event, -, h⟩ := bind_ok.mp h
  exact Ilp.encodeRow_line h

end World

/-- Every row of a batch can be decoded and encoded. -/
theorem IsBatch.encodes {table : PyStr} {rows : List RowIdentity} {payload : Bytes}
    {interpreter : Interpreter} (h : IsBatch table rows payload interpreter) :
    ∀ row ∈ rows, ∃ bytes, World.encodePayload table row.payload interpreter = .ok bytes := by
  obtain ⟨encoded, hrows, -⟩ := h
  induction hrows with
  | nil => exact nofun
  | cons henc _ ih =>
    intro row hm
    rcases List.mem_cons.mp hm with rfl | hm
    · exact ⟨_, henc⟩
    · exact ih row hm

/-- **A batch passes the checks of `send_batch`**: it is not empty and ends with a newline. -/
theorem IsBatch.line {table : PyStr} {rows : List RowIdentity} {payload : Bytes}
    {interpreter : Interpreter} (h : IsBatch table rows payload interpreter) (hne : rows ≠ []) :
    payload.getLast? = some 10 := by
  obtain ⟨encoded, hrows, rfl⟩ := h
  have hlines : ∀ bytes ∈ encoded, bytes.getLast? = some 10 := by
    clear hne
    induction hrows with
    | nil => exact nofun
    | cons henc _ ih =>
      intro bytes hm
      rcases List.mem_cons.mp hm with rfl | hm
      · exact World.encodePayload_line henc
      · exact ih bytes hm
  have hencoded : encoded ≠ [] := by
    rintro rfl
    cases hrows
    exact hne rfl
  obtain ⟨init, last, rfl⟩ := (List.eq_nil_or_concat encoded).resolve_left hencoded
  rw [List.concat_eq_append, List.flatten_append, List.flatten_singleton, List.getLast?_append,
    hlines last (by simp)]
  rfl

namespace World

section
variable {w : World}

/-! ## What the storage needs -/

/-- The spool works: it is open and coherent, and no statement fails. -/
structure Working (w : World) : Prop where
  healthy : w.Healthy
  coherent : w.spool.db.Coherent
  opened : w.spool.db.Opened

/-- A row can be moved to dead letter: the clock is one that SQLite can store, and a key of the dead
letters is left. -/
structure Able (w : World) : Prop extends Working w where
  clock : sqliteIntegerMin ≤ w.env.wallTimeNs ∧ w.env.wallTimeNs ≤ sqliteIntegerMax
  key : w.spool.db.deadLetterSeq < sqliteIntegerMax

theorem withDb_self (h : w.Healthy) : w.withDb w.spool.db = w := by
  obtain ⟨config, ⟨db, faults⟩⟩ := w
  obtain rfl : faults = [] := h
  rfl

/-- The row is in dead letter, and no other row has moved on. -/
structure Buried (w v : World) (r : SpoolRecord) : Prop where
  working : v.Working
  db : ∃ text flag, v.spool.db =
    movedTo w.config.limits w.spool.db (deadLetterOf r text w.env.wallTimeNs flag)
  history : ∃ evicted, v.history = w.history ++ [.moved r.identity evicted]

namespace Buried

variable {v : World} {r : SpoolRecord}

/-- The oldest row is gone from `pending`. -/
theorem pending (h : Buried w v r) (hc : w.spool.db.Coherent) {rest : List SpoolRecord}
    (hp : w.spool.db.pending = r :: rest) : v.spool.db.pending = rest := by
  obtain ⟨text, flag, hdb⟩ := h.db
  have hsorted := hc.pendingSorted
  rw [hp, List.map_cons, List.pairwise_cons] at hsorted
  rw [hdb, movedTo_pending, hp, List.filter_cons_of_neg (by simp [deadLetterOf])]
  refine List.filter_eq_self.mpr fun q hq => ?_
  have hlt := hsorted.1 _ (List.mem_map_of_mem hq)
  exact decide_eq_true fun he => absurd he (ne_of_gt hlt)

/-- It is in dead letter. -/
theorem deadLetter (h : Buried w v r) :
    r.identity ∈ v.spool.db.deadLetter.map DeadLetterRecord.identity := by
  obtain ⟨text, flag, hdb⟩ := h.db
  rw [hdb, movedTo_deadLetter, List.map_append]
  exact List.mem_append_right _ (List.mem_singleton.mpr rfl)

end Buried

/-- **A row is moved to dead letter exactly where its payload is within the byte limit** of the
dead letters; otherwise nothing changes. -/
theorem moveToDeadLetter_healthy (h : Able w) {r : SpoolRecord} (hr : r ∈ w.spool.db.pending)
    {text : PyStr} (ht : StorableText text) (flag : Bool) :
    (r.payload.length ≤ w.config.limits.maxDeadLetterBytes ∧ ∃ v,
      w.moveToDeadLetter r.sequence text flag = (.ok (), v) ∧ Buried w v r) ∨
    (w.config.limits.maxDeadLetterBytes < r.payload.length ∧
      w.moveToDeadLetter r.sequence text flag = (.error deadLetterFull, w)) := by
  have hm : Movable w.spool.db text w.env.wallTimeNs :=
    ⟨ht.encodable, sqlLength_pos ht.nonempty ht.no_nul, h.clock.1, h.clock.2, h.key⟩
  have hcall := call_healthy h.healthy
    (clear_moveToDeadLetter w.config.limits [r.sequence] text w.env.wallTimeNs flag)
  rcases @eval_moveToDeadLetter_one w.config.limits w.spool.db r text w.env.wallTimeNs flag
      h.coherent h.opened hr ht.nonempty hm with ⟨hle, k, hev, hc⟩ | ⟨hlt, hev⟩
  · refine .inl ⟨hle, ?_⟩
    rw [hev] at hcall
    unfold moveToDeadLetter
    rw [hcall]
    have hopened : (movedTo w.config.limits w.spool.db
        (deadLetterOf r text w.env.wallTimeNs flag)).Opened := by
      refine hc.counted.opened ?_
      rw [movedTo_isSome]
      exact h.opened.isSome
    refine ⟨_, rfl, ⟨rfl, hc, hopened⟩, ⟨text, flag, rfl⟩, ?_⟩
    have hfind : w.spool.db.pending.find? (·.sequence = r.sequence) = some r := by
      obtain ⟨q, hq⟩ := Option.isSome_iff_exists.mp
        (List.find?_isSome (p := fun q => decide (q.sequence = r.sequence)).mpr
          ⟨r, hr, decide_eq_true rfl⟩)
      have hsame : q.sequence = r.sequence := by simpa using List.find?_some hq
      rw [hq, eq_of_key h.coherent.pendingNodup (List.mem_of_find?_eq_some hq) hr hsame]
    show ∃ evicted, w.history ++ [movedRow w.spool.db (movedTo w.config.limits w.spool.db
      (deadLetterOf r text w.env.wallTimeNs flag)) r.sequence] = _
    rw [movedRow, hfind]
    exact ⟨_, rfl⟩
  · refine .inr ⟨hlt, ?_⟩
    rw [hev, withDb_self h.healthy] at hcall
    unfold moveToDeadLetter
    rw [hcall]

/-- The rows of a batch from the front. -/
theorem rowsOf_front {db : Database} (hc : db.Coherent) {rows rest : List SpoolRecord}
    (hp : db.pending = rows ++ rest) :
    rowsOf db (rows.map (·.sequence)) = rows.map SpoolRecord.identity ∧
      db.pending.filter (·.sequence ∉ rows.map (·.sequence)) = rest ∧
      (rows.map (·.sequence)).Nodup := by
  have hsorted := hc.pendingSorted
  rw [hp, List.map_append, List.pairwise_append] at hsorted
  obtain ⟨hrows, -, hlt⟩ := hsorted
  have hin : ∀ r ∈ rows, r.sequence ∈ rows.map (·.sequence) := fun r hr => List.mem_map_of_mem hr
  have hout : ∀ r ∈ rest, r.sequence ∉ rows.map (·.sequence) := fun r hr hm =>
    absurd (hlt _ hm _ (List.mem_map_of_mem hr)) (lt_irrefl _)
  refine ⟨?_, ?_, hrows.imp ne_of_lt⟩
  · rw [rowsOf, hp, List.filter_append,
      List.filter_eq_self.mpr fun r hr => decide_eq_true (hin r hr),
      List.filter_eq_nil_iff.mpr fun r hr => by simpa using hout r hr, List.append_nil]
  · rw [hp, List.filter_append,
      List.filter_eq_nil_iff.mpr fun r hr => by simpa using hin r hr,
      List.filter_eq_self.mpr fun r hr => decide_eq_true (hout r hr), List.nil_append]

/-- `mark_delivered` removes a batch from the front. -/
theorem batchDelivered_healthy (h : Working w) {rows rest : List SpoolRecord}
    (hp : w.spool.db.pending = rows ++ rest) {built : BuiltBatch}
    (hs : built.sequences = rows.map (·.sequence)) :
    ∃ v, w.batchDelivered built = (.ok (), v) ∧ v.Working ∧ v.spool.db.pending = rest ∧
      v.spool.db.pendingSeq = w.spool.db.pendingSeq ∧
      v.history = w.history ++ [.delivered (rows.map SpoolRecord.identity)
        built.uncertainSequences] := by
  obtain ⟨hof, hrest, hnodup⟩ := rowsOf_front h.coherent hp
  rw [← hs] at hof hrest hnodup
  have hall : ∀ s ∈ built.sequences, s ∈ w.spool.db.pending.map (·.sequence) := by
    rw [hs, hp, List.map_append]
    exact fun s hm => List.mem_append_left _ hm
  have hcall := call_healthy h.healthy (clear_markDelivered built.sequences)
  rw [eval_markDelivered h.coherent hnodup hall] at hcall
  have hcoherent : (w.spool.db.removedAll built.sequences).Coherent := by
    obtain ⟨c, hrun, -⟩ := of_call hcall
    obtain ⟨hdb, hcoherent, -⟩ := markDelivered_ok h.coherent hrun
    rwa [hdb] at hcoherent
  have hopened : (w.spool.db.removedAll built.sequences).Opened := by
    refine hcoherent.counted.opened ?_
    rw [removedAll_isSome]
    exact h.opened.isSome
  have hpending : (w.spool.db.removedAll built.sequences).pending = rest :=
    (removedAll_pending ..).trans hrest
  unfold batchDelivered
  rw [hcall, hof]
  exact ⟨_, rfl, ⟨rfl, hcoherent, hopened⟩, hpending, removedAll_pendingSeq .., rfl⟩

/-- `record_attempt` leaves every row where it is. -/
theorem recordAttempt_healthy (h : Working w) {built : BuiltBatch} (hnodup : built.sequences.Nodup)
    (hall : ∀ s ∈ built.sequences, s ∈ w.spool.db.pending.map (·.sequence)) {text : PyStr}
    (ht : StorableText text) (flag : Bool) :
    ∃ v, w.recordAttempt built text flag = (.ok (), v) ∧ v.Working ∧
      v.spool.db.pending.map SpoolRecord.identity =
        w.spool.db.pending.map SpoolRecord.identity ∧
      v.spool.db.pendingSeq = w.spool.db.pendingSeq ∧ v.history = w.history := by
  have hcall := call_healthy h.healthy (clear_recordAttempt built.sequences text flag)
  rw [eval_recordAttempt h.coherent hnodup hall ht.nonempty ht.encodable] at hcall
  obtain ⟨-, hseq, hstats, -⟩ := attemptedAll_frame w.spool.db text flag built.sequences
  have hcoherent : (w.spool.db.attemptedAll text flag built.sequences).Coherent := by
    obtain ⟨c, hrun, -⟩ := of_call hcall
    obtain ⟨hdb, hcoherent, -⟩ := recordAttempt_ok h.coherent hrun
    rwa [hdb] at hcoherent
  have hopened : (w.spool.db.attemptedAll text flag built.sequences).Opened := by
    refine hcoherent.counted.opened ?_
    rw [hstats]
    exact h.opened.isSome
  unfold recordAttempt
  rw [hcall]
  exact ⟨_, rfl, ⟨rfl, hcoherent, hopened⟩,
    attemptedAll_map _ text flag (fun _ => rfl) _, hseq, rfl⟩

/-- On a spool that works the delivery loop takes an outcome and goes on. -/
theorem afterDelivery_working {w : World} (h : w.Working) (outcome : DeliveryOutcome) :
    ∃ shared locals, w.afterDelivery outcome = { w with shared, locals, deliver := .top } ∧
      locals.isolateNext = decide (outcome = .split) := by
  unfold afterDelivery
  rw [readStats_healthy h.healthy h.opened, withDb_self h.healthy]
  exact ⟨_, _, rfl, rfl⟩

/-! ## The oldest row -/

/-- A batch that has a row ends where a row cannot be taken, if no later row raises anything
else. -/
theorem planBatch_sends {table : PyStr} {limit : Nat} {records : List SpoolRecord}
    (hrows : ∀ r ∈ records, ∀ e, encodePayload table r.payload = .error e →
      isUndecodable e = true) {built : BuiltBatch} (hne : built.sequences ≠ []) :
    ∃ built', planBatch table limit records built = .send built' := by
  induction records generalizing built with
  | nil => exact ⟨built, rfl⟩
  | cons record records ih =>
    rw [planBatch]
    split
    · next e he =>
      rw [if_pos (hrows record (List.mem_cons_self ..) e he), if_pos hne]
      exact ⟨built, rfl⟩
    · split
      · exact ⟨built, rfl⟩
      · exact ih (fun r hr => hrows r (List.mem_cons_of_mem _ hr)) (by simp [BuiltBatch.add])

/-- The row limit of the next batch. -/
def maxRows (w : World) (isolateNext : Bool) : Nat :=
  if isolateNext then 1 else w.config.settings.deliveryBatchRows

/-- The next batch can be read: SQLite can bind its row limit, and the oldest row fits into the
bytes that `peek_batch` is asked for. -/
structure Peekable (w : World) (isolateNext : Bool) (r : SpoolRecord) : Prop where
  rows : (w.maxRows isolateNext : Int) ≤ sqliteIntegerMax
  bytes : r.payload.length ≤ maxSqliteBatchBytes

/-- A `_build_batch` that does not raise has read its rows. -/
theorem peekable_of_built {isolateNext : Bool} {r : SpoolRecord} {rest : List SpoolRecord}
    {built : Option BuiltBatch} {interpreter : Interpreter} (hp : w.spool.db.pending = r :: rest)
    (h : (w.buildBatch isolateNext interpreter).1 = .ok built) : Peekable w isolateNext r := by
  unfold buildBatch at h
  dsimp only at h
  rw [show (if isolateNext = true then 1 else w.config.settings.deliveryBatchRows) =
    w.maxRows isolateNext from rfl] at h
  cases hv : w.call (peekBatch (w.maxRows isolateNext) maxSqliteBatchBytes) with
  | mk records v =>
    cases records with
    | ok records =>
      obtain ⟨c, hrun, -⟩ := of_call hv
      obtain ⟨-, -, -, hrows, hbytes⟩ := peekBatch_ok hrun
      exact ⟨hrows, hbytes r (hp ▸ rfl)⟩
    | error e =>
      rw [hv] at h
      cases h

/-- The rows that `_build_batch` looks at. -/
def peeked (w : World) (isolateNext : Bool) : List SpoolRecord :=
  SQLiteSpool.takeBatch maxSqliteBatchBytes 0 (w.spool.db.pending.take (w.maxRows isolateNext))

theorem maxRows_pos (w : World) (isolateNext : Bool) : 0 < w.maxRows isolateNext := by
  unfold maxRows
  split
  · exact Nat.one_pos
  · exact w.config.settings.deliveryBatchRows_pos

/-- The oldest row is the first one of them. -/
theorem peeked_oldest {r : SpoolRecord} {rest : List SpoolRecord}
    (hp : w.spool.db.pending = r :: rest) {isolateNext : Bool} (hpeek : Peekable w isolateNext r) :
    ∃ records others, w.peeked isolateNext = r :: records ∧ rest = records ++ others ∧
      records.length < w.maxRows isolateNext := by
  obtain ⟨n, hn⟩ : ∃ n, w.maxRows isolateNext = n + 1 :=
    ⟨_, (Nat.succ_pred_eq_of_pos (w.maxRows_pos isolateNext)).symm⟩
  obtain ⟨cut, hcut⟩ := takeBatch_isHead maxSqliteBatchBytes (0 + r.payload.length) (rest.take n)
  refine ⟨takeBatch maxSqliteBatchBytes (0 + r.payload.length) (rest.take n), cut ++ rest.drop n,
    ?_, ?_, ?_⟩
  · rw [peeked, hp, hn, List.take_succ_cons, takeBatch, if_neg (by have := hpeek.bytes; omega)]
  · rw [← List.append_assoc, hcut, List.take_append_drop]
  · have hlen := congrArg List.length hcut
    rw [List.length_append] at hlen
    have htake := List.length_take_le n rest
    omega

/-- On healthy storage `_build_batch` does what its loop over these rows ends with. -/
theorem buildBatch_peeked (h : w.Healthy) {r : SpoolRecord} {rest : List SpoolRecord}
    (hp : w.spool.db.pending = r :: rest) {isolateNext : Bool} (hpeek : Peekable w isolateNext r)
    (interpreter : Interpreter) :
    w.buildBatch isolateNext interpreter =
      match planBatch w.config.table.name w.config.settings.deliveryBatchBytes
        (w.peeked isolateNext) .empty interpreter with
      | .send built => (.ok (some built), w)
      | .bury record e => w.bury record e
      | .raise e => (.error e, w) := by
  have hcall := call_healthy h (clear_peekBatch (w.maxRows isolateNext) maxSqliteBatchBytes)
  have hfit : ∀ q ∈ w.spool.db.pending.head?, q.payload.length ≤ maxSqliteBatchBytes := by
    rw [hp]
    rintro q ⟨⟩
    exact hpeek.bytes
  rw [eval_peekBatch (w.maxRows_pos isolateNext) hpeek.rows (by decide) hfit, withDb_self h,
    ← peeked] at hcall
  obtain ⟨records, others, hrecords, -⟩ := peeked_oldest hp hpeek
  rw [hrecords] at hcall ⊢
  unfold buildBatch
  dsimp only
  rw [show (if isolateNext = true then 1 else w.config.settings.deliveryBatchRows) =
    w.maxRows isolateNext from rfl]
  generalize w.call (peekBatch (w.maxRows isolateNext) maxSqliteBatchBytes) = answer at hcall ⊢
  subst hcall
  rfl

/-- `_build_batch` looks at rows from the front, the oldest one first. -/
theorem buildBatch_oldest (h : w.Healthy) {r : SpoolRecord} {rest : List SpoolRecord}
    (hp : w.spool.db.pending = r :: rest) {isolateNext : Bool} (hpeek : Peekable w isolateNext r) :
    ∃ records others, rest = records ++ others ∧ records.length < w.maxRows isolateNext ∧
      w.buildBatch isolateNext =
        match planBatch w.config.table.name w.config.settings.deliveryBatchBytes (r :: records)
          .empty with
        | .send built => (.ok (some built), w)
        | .bury record e => w.bury record e
        | .raise e => (.error e, w) := by
  obtain ⟨records, others, hrecords, hrest, hlen⟩ := peeked_oldest hp hpeek
  refine ⟨records, others, hrest, hlen, ?_⟩
  rw [← hrecords]
  exact buildBatch_peeked h hp hpeek .plain

variable {r : SpoolRecord} {rest : List SpoolRecord} {isolateNext : Bool} {backoff : Backoff}

/-- **An oldest row whose encoding fits is sent**, in a batch of rows from the front. -/
theorem deliverStart_sends (h : w.Healthy) (hp : w.spool.db.pending = r :: rest)
    (hpeek : Peekable w isolateNext r) {encoded : Bytes}
    (he : encodePayload w.config.table.name r.payload = .ok encoded)
    (hle : encoded.length ≤ w.config.settings.deliveryBatchBytes)
    (hrows : ∀ q ∈ rest, ∀ e, encodePayload w.config.table.name q.payload = .error e →
      isUndecodable e = true) :
    ∃ built taken others, w.deliverStart isolateNext backoff = (.ok (.sending built), backoff, w) ∧
      rest = taken ++ others ∧ BuiltOf w.config.table.name (r :: taken) built ∧
      taken.length < w.maxRows isolateNext := by
  obtain ⟨records, others, hrest, hlen, hbuild⟩ := buildBatch_oldest h hp hpeek
  have hplan : planBatch w.config.table.name w.config.settings.deliveryBatchBytes (r :: records)
      .empty = planBatch w.config.table.name w.config.settings.deliveryBatchBytes records
        (BuiltBatch.empty.add r encoded) := by
    rw [planBatch, he]
    dsimp only
    rw [if_neg (by simpa [BuiltBatch.empty] using hle)]
  obtain ⟨built, hbuilt⟩ := @planBatch_sends _ w.config.settings.deliveryBatchBytes _
    (fun q hq => hrows q (hrest ▸ List.mem_append_left _ hq)) _
    (show (BuiltBatch.empty.add r encoded).sequences ≠ [] by simp [BuiltBatch.add])
  obtain ⟨taken, left, hsplit, hof⟩ := planBatch_send ((BuiltOf.empty _).add he) hbuilt
  rw [hplan, hbuilt] at hbuild
  refine ⟨built, taken, left ++ others, ?_, ?_, hof, ?_⟩
  · have hne : built.sequences ≠ [] := by
      rw [hof.sequences]
      simp
    unfold deliverStart
    rw [hbuild]
    dsimp only
    rw [if_neg hne]
  · rw [hrest, hsplit, List.append_assoc]
  · rw [hsplit, List.length_append] at hlen
    omega

/-- `_build_batch` moves an oldest row that cannot be decoded or encoded, where the byte limit of
the dead letters lets it. -/
theorem bury_healthy (h : Able w) (hr : r ∈ w.spool.db.pending) {e : Exc}
    (he : encodePayload w.config.table.name r.payload = .error e) (hun : isUndecodable e = true) :
    (r.payload.length ≤ w.config.limits.maxDeadLetterBytes ∧ ∃ v,
      w.bury r e = (.ok (some .empty), v) ∧ Buried w v r) ∨
    (w.config.limits.maxDeadLetterBytes < r.payload.length ∧ ∃ v,
      w.bury r e = (.ok none, v) ∧ v.spool = w.spool) := by
  unfold bury
  rcases moveToDeadLetter_healthy h hr (errorText_undecodable he hun) false with
    ⟨hle, v, hmove, hburied⟩ | ⟨hlt, hmove⟩
  · rw [hmove]
    exact .inl ⟨hle, v, rfl, hburied⟩
  · rw [hmove]
    dsimp only
    rw [if_pos (show deadLetterFull.type = .deadLetterFullError from rfl)]
    exact .inr ⟨hlt, _, rfl, rfl⟩

/-- **An oldest row that cannot be decoded or encoded is buried**, or stays and is tried again
later, by what `move_to_dead_letter` can do. -/
theorem deliverStart_buries (h : Able w) (hp : w.spool.db.pending = r :: rest)
    (hpeek : Peekable w isolateNext r) {e : Exc}
    (he : encodePayload w.config.table.name r.payload = .error e) (hun : isUndecodable e = true) :
    (r.payload.length ≤ w.config.limits.maxDeadLetterBytes ∧ ∃ v,
      w.deliverStart isolateNext backoff = (.ok (.done .deadLetter), backoff, v) ∧ Buried w v r) ∨
    (w.config.limits.maxDeadLetterBytes < r.payload.length ∧ ∃ delay backoff' v,
      w.deliverStart isolateNext backoff = (.ok (.done (.retry delay)), backoff', v) ∧
        v.spool = w.spool) := by
  obtain ⟨records, others, -, -, hbuild⟩ := buildBatch_oldest h.healthy hp hpeek
  have hplan : planBatch w.config.table.name w.config.settings.deliveryBatchBytes (r :: records)
      .empty = .bury r e := by
    rw [planBatch, he]
    dsimp only
    rw [if_pos hun, if_neg (by simp [BuiltBatch.empty])]
  rw [hplan] at hbuild
  dsimp only at hbuild
  unfold deliverStart
  rcases bury_healthy h (hp ▸ List.mem_cons_self ..) he hun with
    ⟨hle, v, hbury, hburied⟩ | ⟨hlt, v, hbury, hspool⟩
  · rw [hbuild, hbury]
    exact .inl ⟨hle, v, rfl, hburied⟩
  · rw [hbuild, hbury]
    exact .inr ⟨hlt, _, _, _, rfl, hspool⟩

end

end World

end QuestDbWriter
