import QuestDbWriter.Worker.Deliveries
import QuestDbWriter.Payload
import QuestDbWriter.Spool.History
import QuestDbWriter.Lib.Retention

/-!
# Building a batch

`_build_batch` takes rows from the front while they can be decoded and encoded within the limit of a
batch. `planBatch_planned` says for every list of rows what its loop ends with, and from it
`build_batch_longest` and `stored_content_handled` are the exact conditions under which the longest
deliverable batch is built, and the oldest row handled. Both fail on a row whose document escapes a
lone surrogate: its decoder takes it, and the UTF-8 codec raises what no `except` clause catches.
The first fails, too, on a row that is nested too deeply for the stack of the interpreter; the
second is about interpreters whose stack suffices.
-/

namespace QuestDbWriter

open Lib Database SQLiteSpool

/-! ## Batches -/

namespace IsBatch

variable {table : PyStr} {rows rows' : List RowIdentity} {payload payload' : Bytes}
  {interpreter : Interpreter}

/-- No row is the empty payload. -/
theorem nil : IsBatch table [] [] interpreter := ⟨[], .nil, rfl⟩

/-- One row is its own line. -/
theorem single {row : RowIdentity} {bytes : Bytes}
    (h : World.encodePayload table row.payload interpreter = .ok bytes) :
    IsBatch table [row] bytes interpreter :=
  ⟨[bytes], .cons h .nil, (List.flatten_singleton).symm⟩

/-- Two batches make one, line behind line. -/
theorem append (h : IsBatch table rows payload interpreter)
    (h' : IsBatch table rows' payload' interpreter) :
    IsBatch table (rows ++ rows') (payload ++ payload') interpreter := by
  obtain ⟨encoded, hrows, rfl⟩ := h
  obtain ⟨encoded', hrows', rfl⟩ := h'
  exact ⟨encoded ++ encoded', List.rel_append hrows hrows', List.flatten_append.symm⟩

/-- A part of a batch is a batch. -/
theorem of_append (h : IsBatch table (rows ++ rows') payload interpreter) :
    ∃ p p', IsBatch table rows p interpreter ∧ IsBatch table rows' p' interpreter ∧
      payload = p ++ p' := by
  obtain ⟨encoded, hrows, rfl⟩ := h
  refine ⟨(encoded.take rows.length).flatten, (encoded.drop rows.length).flatten,
    ⟨_, (List.forall₂_take_append _ _ _ hrows.flip).flip, rfl⟩,
    ⟨_, (List.forall₂_drop_append _ _ _ hrows.flip).flip, rfl⟩, ?_⟩
  rw [← List.flatten_append, List.take_append_drop]

/-- The rows determine the payload. -/
theorem unique (h : IsBatch table rows payload interpreter)
    (h' : IsBatch table rows payload' interpreter) : payload = payload' := by
  obtain ⟨encoded, hrows, rfl⟩ := h
  obtain ⟨encoded', hrows', rfl⟩ := h'
  refine congrArg List.flatten ?_
  induction hrows generalizing encoded' with
  | nil =>
    cases hrows'
    rfl
  | cons henc _ ih =>
    cases hrows' with
    | cons henc' hrows' => rw [Except.ok.inj (henc.symm.trans henc'), ih _ hrows']

end IsBatch

/-! ## The content of a row -/

/-- The stack suffices for the payload, and no event that it holds has a lone surrogate. -/
structure Clean (payload : Bytes) (interpreter : Interpreter := .plain) : Prop where
  stack : EventEnvelope.fromBytes payload interpreter ≠ .error recursionError
  surrogateFree : ∀ event, EventEnvelope.fromBytes payload interpreter = .ok event →
    event.fields.SurrogateFree

namespace World

section
variable {interpreter : Interpreter}

/-- What is encoded on a limited stack is encoded on one that suffices. -/
theorem encodePayload_limited (table : PyStr) (payload : Bytes) (interpreter : Interpreter) :
    Limited (encodePayload table payload interpreter) (encodePayload table payload) :=
  (EventEnvelope.fromBytes_limited payload interpreter).bind fun _ => .refl _

/-- **A clean payload raises only what `_build_batch` catches**, and no other payload does. -/
theorem clean_iff {payload : Bytes} (table : Table) : Clean payload interpreter ↔
    RaisesOnly (isUndecodable · = true) (encodePayload table.name payload interpreter) := by
  constructor
  · intro h
    refine RaisesOnly.bind (fun e he => ?_) fun event hevent e he => ?_
    · have hne : e ≠ recursionError := by
        rintro rfl
        exact h.stack he
      have hplain := (EventEnvelope.fromBytes_limited payload interpreter).error he hne
      show isUndecodable e = true
      unfold isUndecodable
      rw [(EventEnvelope.fromBytes_raises payload e hplain).type]
    · obtain ⟨row, hrow⟩ := (EventEnvelope.toIlp_iff table).mpr (h.surrogateFree event hevent)
      rw [hrow] at he
      cases he
  · intro h
    refine ⟨fun hstack => ?_, fun event hevent => (EventEnvelope.toIlp_iff table).mp ?_⟩
    · have hraised : encodePayload table.name payload interpreter = .error recursionError := by
        rw [encodePayload, hstack]
        rfl
      cases h _ hraised
    · cases hrow : event.toIlp table.name with
      | ok row => exact ⟨row, rfl⟩
      | error e =>
        have hun : isUndecodable e = true := h e ((bind_of_ok hevent).trans hrow)
        unfold isUndecodable at hun
        rw [EventEnvelope.toIlp_error hrow] at hun
        cases hun

/-- A row that encodes is clean. -/
theorem clean_of_ok {table : Table} {payload bytes : Bytes}
    (h : encodePayload table.name payload interpreter = .ok bytes) : Clean payload interpreter :=
  (clean_iff table).mpr (.of_ok h)

/-- So is one that is refused as undecodable. -/
theorem clean_of_undecodable {table : Table} {payload : Bytes} {e : Exc}
    (h : encodePayload table.name payload interpreter = .error e) (hun : isUndecodable e = true) :
    Clean payload interpreter := by
  refine (clean_iff table).mpr fun e' he' => ?_
  obtain rfl := Except.error.inj (h.symm.trans he')
  exact hun

end

/-! ## Rows of one batch -/

/-- Every row can be decoded and encoded, and the encodings are within the limit together. -/
def FitsBatch (table : PyStr) (limit : Nat) (rows : List SpoolRecord)
    (interpreter : Interpreter := .plain) : Prop :=
  ∃ payload, IsBatch table (rows.map SpoolRecord.identity) payload interpreter ∧
    payload.length ≤ limit

section
variable {table : PyStr} {limit : Nat} {rows front : List SpoolRecord} {r : SpoolRecord}
  {interpreter : Interpreter}

/-- No row fits every limit. -/
theorem fitsBatch_nil : FitsBatch table limit [] interpreter := ⟨[], .nil, Nat.zero_le _⟩

/-- A front of rows that fit fits. -/
theorem FitsBatch.of_front (h : FitsBatch table limit rows interpreter) (hfront : front <+: rows) :
    FitsBatch table limit front interpreter := by
  obtain ⟨rest, rfl⟩ := hfront
  obtain ⟨payload, hbatch, hle⟩ := h
  rw [List.map_append] at hbatch
  obtain ⟨p, p', hp, -, rfl⟩ := hbatch.of_append
  rw [List.length_append] at hle
  exact ⟨p, hp, by omega⟩

/-- One row more, by its encoding. -/
theorem fitsBatch_concat {payload : Bytes}
    (h : IsBatch table (rows.map SpoolRecord.identity) payload interpreter) :
    FitsBatch table limit (rows ++ [r]) interpreter ↔ ∃ encoded,
      encodePayload table r.payload interpreter = .ok encoded ∧
        payload.length + encoded.length ≤ limit := by
  constructor
  · rintro ⟨whole, hwhole, hle⟩
    rw [List.map_append] at hwhole
    obtain ⟨p, p', hp, ⟨encoded, hrow, rfl⟩, rfl⟩ := hwhole.of_append
    obtain rfl := hp.unique h
    cases hrow with
    | cons henc hnil =>
      cases hnil
      rw [List.flatten_singleton, List.length_append] at hle
      exact ⟨_, henc, hle⟩
  · rintro ⟨encoded, henc, hle⟩
    refine ⟨payload ++ encoded, ?_, by rwa [List.length_append]⟩
    rw [List.map_append]
    exact h.append (.single henc)

/-- Rows that fit encode. -/
theorem FitsBatch.encodes (h : FitsBatch table limit rows interpreter) (hr : r ∈ rows) :
    ∃ encoded, encodePayload table r.payload interpreter = .ok encoded := by
  obtain ⟨payload, hbatch, -⟩ := h
  exact hbatch.encodes _ (List.mem_map_of_mem hr)

end

/-! ## The loop -/

/-- What the loop of `_build_batch` ends with, over rows behind the ones that it has taken:

- `send`: there is no row, or a row is taken; the next row, if there is one, cannot be taken, and is
  clean;
- `bury`: the oldest row cannot be decoded or encoded;
- `raise`: the next row is not clean;
- `oversized`: the encoding of the oldest row is over the limit. -/
inductive Planned (table : PyStr) (limit : Nat) (interpreter : Interpreter)
    (taken records : List SpoolRecord) : BatchPlan → Prop
  | send {more rest : List SpoolRecord} {built : BuiltBatch} : records = more ++ rest →
      (taken ++ more = [] → records = []) → BuiltOf table (taken ++ more) built interpreter →
      FitsBatch table limit (taken ++ more) interpreter →
      (∀ q ∈ rest.head?, ¬ FitsBatch table limit (taken ++ more ++ [q]) interpreter ∧
        Clean q.payload interpreter) →
      Planned table limit interpreter taken records (.send built)
  | bury {r : SpoolRecord} {rest : List SpoolRecord} {e : Exc} : taken = [] →
      records = r :: rest → encodePayload table r.payload interpreter = .error e →
      isUndecodable e = true → Planned table limit interpreter taken records (.bury r e)
  | raise {more rest : List SpoolRecord} {q : SpoolRecord} {e : Exc} :
      records = more ++ q :: rest → FitsBatch table limit (taken ++ more) interpreter →
      ¬ Clean q.payload interpreter → Planned table limit interpreter taken records (.raise e)
  | oversized {r : SpoolRecord} {rest : List SpoolRecord} {encoded : Bytes} : taken = [] →
      records = r :: rest → encodePayload table r.payload interpreter = .ok encoded →
      limit < encoded.length →
      Planned table limit interpreter taken records
        (.raise (configurationError encoded.length limit))

/-- The loop has taken one row more. -/
theorem Planned.cons {table : PyStr} {limit : Nat} {interpreter : Interpreter}
    {taken records : List SpoolRecord} {r : SpoolRecord} {plan : BatchPlan}
    (h : Planned table limit interpreter (taken ++ [r]) records plan) :
    Planned table limit interpreter taken (r :: records) plan := by
  have hassoc : ∀ more, taken ++ [r] ++ more = taken ++ r :: more := fun more => by simp
  cases h with
  | @send more rest _ hrecords _ hbuilt hdel hstop =>
    rw [hassoc] at hbuilt hdel hstop
    exact .send (by rw [hrecords, List.cons_append]) (fun hnil => by simp at hnil) hbuilt hdel hstop
  | bury hnil => simp at hnil
  | @raise more rest q _ hrecords hdel hclean =>
    rw [hassoc] at hdel
    have hsplit : r :: records = (r :: more) ++ q :: rest := by rw [hrecords, List.cons_append]
    exact .raise hsplit hdel hclean
  | oversized hnil => simp at hnil

/-- **What the loop ends with**, by induction on the rows that are left. -/
theorem planBatch_planned (table : Table) {limit : Nat} {interpreter : Interpreter}
    {taken records : List SpoolRecord} {built : BuiltBatch}
    (hbuilt : BuiltOf table.name taken built interpreter) (hle : built.payload.length ≤ limit) :
    Planned table.name limit interpreter taken records
      (planBatch table.name limit records built interpreter) := by
  induction records generalizing taken built with
  | nil =>
    rw [← List.append_nil taken] at hbuilt
    exact .send (List.append_nil _).symm (fun _ => rfl) hbuilt ⟨_, hbuilt.batch, hle⟩ nofun
  | cons record records ih =>
    have hdel : FitsBatch table.name limit taken interpreter := ⟨_, hbuilt.batch, hle⟩
    have hstop : built.sequences ≠ [] →
        ¬ FitsBatch table.name limit (taken ++ [record]) interpreter →
        Clean record.payload interpreter →
        Planned table.name limit interpreter taken (record :: records) (.send built) := by
      intro hsome hnot hclean
      rw [← List.append_nil taken] at hbuilt hdel hnot
      refine .send (List.nil_append _).symm (fun hnil => absurd ?_ hsome) hbuilt hdel ?_
      · rw [hbuilt.sequences, hnil]
        rfl
      rintro q ⟨⟩
      exact ⟨hnot, hclean⟩
    have hnil : built.sequences = [] ↔ taken = [] := by
      rw [hbuilt.sequences, List.map_eq_nil_iff]
    rw [planBatch]
    split
    · next e he =>
      have hnot : ¬ FitsBatch table.name limit (taken ++ [record]) interpreter := fun h => by
        obtain ⟨encoded, henc⟩ := h.encodes (List.mem_append_right _ (List.mem_singleton.mpr rfl))
        rw [he] at henc
        cases henc
      split
      · next hun =>
        split
        · next hsome => exact hstop hsome hnot (clean_of_undecodable he hun)
        · next hempty => exact .bury (hnil.mp (not_not.mp hempty)) rfl he hun
      · next hun =>
        rw [← List.append_nil taken] at hdel
        exact .raise (List.nil_append _).symm hdel fun hclean =>
          hun ((clean_iff table).mp hclean e he)
    · next encoded henc =>
      split
      · next hlt =>
        split
        · next hempty =>
          obtain rfl := hnil.mp hempty
          have hpayload : built.payload = [] := hbuilt.batch.unique .nil
          exact .oversized rfl rfl henc (by simpa [hpayload] using hlt)
        · next hsome =>
          refine hstop hsome (fun h => ?_) (clean_of_ok henc)
          obtain ⟨encoded', henc', hle'⟩ := (fitsBatch_concat hbuilt.batch).mp h
          obtain rfl := Except.ok.inj (henc.symm.trans henc')
          exact absurd hle' (not_le.mpr hlt)
      · next hfit =>
        refine (ih (hbuilt.add henc) ?_).cons
        rw [BuiltBatch.add, List.length_append]
        exact not_lt.mp hfit

/-- The loop over all rows. -/
theorem planBatch_all (table : Table) (limit : Nat) (records : List SpoolRecord)
    (interpreter : Interpreter) :
    Planned table.name limit interpreter [] records
      (planBatch table.name limit records .empty interpreter) :=
  planBatch_planned table (.empty _) (Nat.zero_le _)

/-- Every row that the loop gets to is clean. -/
def ReachesClean (table : PyStr) (limit : Nat) (interpreter : Interpreter)
    (records : List SpoolRecord) : Prop :=
  ∀ front q, front ++ [q] <+: records → FitsBatch table limit front interpreter →
    Clean q.payload interpreter

section
variable {table : Table} {limit : Nat} {interpreter : Interpreter} {records : List SpoolRecord}

/-- The rows of a deliverable part are clean. -/
theorem FitsBatch.clean {rows : List SpoolRecord} {q : SpoolRecord}
    (h : FitsBatch table.name limit rows interpreter) (hq : q ∈ rows) :
    Clean q.payload interpreter := by
  obtain ⟨encoded, henc⟩ := h.encodes hq
  exact clean_of_ok henc

/-- **A batch that is sent is of the longest deliverable part**, and every row that the loop gets to
is clean. -/
theorem Planned.sent {built : BuiltBatch}
    (h : Planned table.name limit interpreter [] records (.send built)) :
    ReachesClean table.name limit interpreter records ∧ ∃ front, (front = [] → records = []) ∧
      BuiltOf table.name front built interpreter ∧
      LongestFront (FitsBatch table.name limit · interpreter) records front := by
  obtain ⟨more, rest, rfl, hsome, hbuilt, hdel, hstop⟩ : ∃ more rest, records = more ++ rest ∧
      (more = [] → records = []) ∧ BuiltOf table.name more built interpreter ∧
      FitsBatch table.name limit more interpreter ∧
      ∀ q ∈ rest.head?, ¬ FitsBatch table.name limit (more ++ [q]) interpreter ∧
        Clean q.payload interpreter := by
    cases h with
    | send hrecords hsome hbuilt hdel hstop => exact ⟨_, _, hrecords, hsome, hbuilt, hdel, hstop⟩
  have hlongest : LongestFront (FitsBatch table.name limit · interpreter) (more ++ rest) more :=
    .of_stop (fun hst ht => ht.of_front hst) hdel fun q hq => (hstop q hq).1
  refine ⟨fun front q hq hfront => ?_, more, hsome, hbuilt, hlongest⟩
  have hin : front ++ [q] <+: more → Clean q.payload interpreter := fun hin =>
    hdel.clean (hin.subset (List.mem_append_right _ (List.mem_singleton.mpr rfl)))
  rcases List.prefix_or_prefix_of_prefix hq (List.prefix_append more rest) with hle | hle
  · exact hin hle
  · rcases List.prefix_concat_iff.mp hle with heq | hle
    · exact hin (heq ▸ List.prefix_refl _)
    · -- the row is the one behind the batch
      have hge := hlongest.longest front ((List.prefix_append ..).trans hq) hfront
      obtain rfl := hle.eq_of_length_le hge.length_le
      obtain ⟨others, hothers⟩ := hq
      rw [List.append_assoc, List.append_cancel_left_eq] at hothers
      exact (hstop q (by rw [← hothers]; rfl)).2

/-- A row that cannot be decoded or encoded is the last one that the loop gets to. -/
theorem ReachesClean.of_undecodable {r : SpoolRecord} {e : Exc}
    (he : encodePayload table.name r.payload interpreter = .error e)
    (hun : isUndecodable e = true) :
    ReachesClean table.name limit interpreter (r :: records) := by
  intro front q hq hfront
  cases front with
  | nil =>
    obtain ⟨rfl, -⟩ := List.cons_prefix_cons.mp hq
    exact clean_of_undecodable he hun
  | cons q' front =>
    obtain ⟨rfl, -⟩ := List.cons_prefix_cons.mp hq
    obtain ⟨encoded, henc⟩ := hfront.encodes (List.mem_cons_self ..)
    rw [he] at henc
    cases henc

/-- Where the oldest row is buried, every row that the loop gets to is clean. -/
theorem Planned.buried {r : SpoolRecord} {e : Exc}
    (h : Planned table.name limit interpreter [] records (.bury r e)) :
    ReachesClean table.name limit interpreter records ∧ records.head? = some r ∧
      encodePayload table.name r.payload interpreter = .error e ∧ isUndecodable e = true := by
  obtain ⟨rest, rfl, he, hun⟩ : ∃ rest, records = r :: rest ∧
      encodePayload table.name r.payload interpreter = .error e ∧ isUndecodable e = true := by
    cases h with
    | bury _ hrecords he hun => exact ⟨_, hrecords, he, hun⟩
  exact ⟨.of_undecodable he hun, rfl, he, hun⟩

/-- An exception is of a row that is not clean, or of an oldest row over the limit. -/
theorem Planned.raised {e : Exc}
    (h : Planned table.name limit interpreter [] records (.raise e)) :
    ¬ ReachesClean table.name limit interpreter records ∨ ∃ r ∈ records.head?, ∃ encoded,
      encodePayload table.name r.payload interpreter = .ok encoded ∧ limit < encoded.length := by
  generalize hplan : BatchPlan.raise e = plan at h
  cases h with
  | @raise more rest q e' hrecords hdel hclean =>
    refine .inl fun h => hclean (h more q ?_ hdel)
    rw [hrecords]
    exact ⟨rest, by simp⟩
  | oversized _ hrecords henc hlt => exact .inr ⟨_, by rw [hrecords]; rfl, _, henc, hlt⟩
  | _ => cases hplan

end

/-! ## `_build_batch` -/

section
variable {w : World} {r : SpoolRecord} {rest : List SpoolRecord} {isolateNext : Bool}
  {interpreter : Interpreter}

/-- The rows can be delivered in one batch. -/
def Fits (w : World) (rows : List SpoolRecord) (interpreter : Interpreter := .plain) : Prop :=
  FitsBatch w.config.table.name w.config.settings.deliveryBatchBytes rows interpreter

/-- The oldest rows, up to the row limit of the next batch. -/
def candidates (w : World) (isolateNext : Bool) : List SpoolRecord :=
  w.spool.db.pending.take (w.maxRows isolateNext)

/-- Every row that the next batch gets to, behind deliverable rows only, is clean. -/
def GetsClean (w : World) (isolateNext : Bool) (interpreter : Interpreter := .plain) : Prop :=
  ∀ front q, front ++ [q] <+: w.candidates isolateNext →
    Sql.rowBytes (front ++ [q]) ≤ maxSqliteBatchBytes → w.Fits front interpreter →
    Clean q.payload interpreter

/-- The rows read are the candidates within what a read may take. -/
theorem prefix_peeked {s : List SpoolRecord} : s <+: w.peeked isolateNext ↔
    s <+: w.candidates isolateNext ∧ Sql.rowBytes s ≤ maxSqliteBatchBytes := by
  rw [peeked, prefix_takeBatch (Nat.zero_le _), Nat.zero_add]
  rfl

/-- The loop gets over its rows where those it reaches are clean. -/
theorem getsClean_iff : w.GetsClean isolateNext interpreter ↔ ReachesClean w.config.table.name
    w.config.settings.deliveryBatchBytes interpreter (w.peeked isolateNext) := by
  unfold GetsClean ReachesClean
  simp only [prefix_peeked, and_imp]
  rfl

/-- **What `_build_batch` does**, where the encoding of the oldest row is within the limit: it
returns the longest batch of the rows that it reads, or buries the oldest row, or raises on a row
that is not clean. -/
theorem buildBatch_cases (h : w.Healthy) (hp : w.spool.db.pending = r :: rest)
    (hpeek : Peekable w isolateNext r)
    (hfit : ∀ encoded, encodePayload w.config.table.name r.payload interpreter = .ok encoded →
      encoded.length ≤ w.config.settings.deliveryBatchBytes) :
    (w.GetsClean isolateNext interpreter ∧ ∃ built taken,
      w.buildBatch isolateNext interpreter = (.ok (some built), w) ∧
      BuiltOf w.config.table.name (r :: taken) built interpreter ∧
      LongestFront (w.Fits · interpreter) (w.peeked isolateNext) (r :: taken)) ∨
    (w.GetsClean isolateNext interpreter ∧ ∃ e,
      encodePayload w.config.table.name r.payload interpreter = .error e ∧
      isUndecodable e = true ∧ w.buildBatch isolateNext interpreter = w.bury r e) ∨
    (¬ w.GetsClean isolateNext interpreter ∧ ∃ e,
      w.buildBatch isolateNext interpreter = (.error e, w)) := by
  rw [getsClean_iff]
  have hbuild := buildBatch_peeked h hp hpeek interpreter
  obtain ⟨records, others, hrecords, -, -⟩ := peeked_oldest hp hpeek
  have hplan := planBatch_all w.config.table w.config.settings.deliveryBatchBytes
    (w.peeked isolateNext) interpreter
  cases hplanned : planBatch w.config.table.name w.config.settings.deliveryBatchBytes
      (w.peeked isolateNext) .empty interpreter with
  | send built =>
    rw [hplanned] at hbuild hplan
    obtain ⟨hclean, front, hsome, hbuilt, hlongest⟩ := hplan.sent
    obtain ⟨tail, htail⟩ := hlongest.front
    rw [hrecords] at hsome htail
    cases front with
    | nil => cases hsome rfl
    | cons q taken =>
      obtain rfl : q = r := (List.cons.inj htail).1
      exact .inl ⟨hclean, built, taken, hbuild, hbuilt, hlongest⟩
  | bury q e =>
    rw [hplanned] at hbuild hplan
    obtain ⟨hclean, hhead, he, hun⟩ := hplan.buried
    rw [hrecords] at hhead
    cases hhead
    exact .inr (.inl ⟨hclean, e, he, hun, hbuild⟩)
  | raise e =>
    rw [hplanned] at hbuild hplan
    refine .inr (.inr ⟨fun hclean => ?_, e, hbuild⟩)
    rcases hplan.raised with hnot | ⟨q, hq, encoded, henc, hlt⟩
    · exact hnot hclean
    · rw [hrecords] at hq
      cases hq
      exact absurd (hfit encoded henc) (not_le.mpr hlt)

/-- The oldest row is in the batch that is built, or it is moved to dead letter. -/
def Handled (w : World) (r : SpoolRecord) (x : Except Exc (Option BuiltBatch) × World) : Prop :=
  (∃ built encoded, x = (.ok (some built), w) ∧
      encodePayload w.config.table.name r.payload = .ok encoded ∧
      built.sequences.head? = some r.sequence ∧ encoded <+: built.payload) ∨
    ∃ v, x = (.ok (some .empty), v) ∧ Buried w v r

/-- The first row of a batch is in it. -/
theorem handled_of_built {taken : List SpoolRecord} {built : BuiltBatch}
    (hbuild : w.buildBatch isolateNext = (.ok (some built), w))
    (hbuilt : BuiltOf w.config.table.name (r :: taken) built) :
    Handled w r (w.buildBatch isolateNext) := by
  have hbatch := hbuilt.batch
  rw [List.map_cons, ← List.singleton_append] at hbatch
  obtain ⟨p, p', ⟨encoded, hrow, rfl⟩, -, hpayload⟩ := hbatch.of_append
  cases hrow with
  | cons henc hnil =>
    cases hnil
    refine .inl ⟨built, _, hbuild, henc, ?_, ?_⟩
    · rw [hbuilt.sequences]
      rfl
    · rw [hpayload, List.flatten_singleton]
      exact List.prefix_append ..

/-- A batch that is returned is of rows that `peek_batch` returned. -/
theorem Handled.peekable (h : Handled w r (w.buildBatch isolateNext))
    (hp : w.spool.db.pending = r :: rest) : Peekable w isolateNext r := by
  rcases h with ⟨built, encoded, hbuild, -⟩ | ⟨v, hbuild, -⟩
  · exact peekable_of_built hp (congrArg Prod.fst hbuild)
  · exact peekable_of_built hp (congrArg Prod.fst hbuild)

/-- The oldest row is the first one that the next batch gets to. -/
theorem GetsClean.oldest (h : w.GetsClean isolateNext interpreter)
    (hp : w.spool.db.pending = r :: rest) (hpeek : Peekable w isolateNext r) :
    Clean r.payload interpreter := by
  obtain ⟨records, others, hrecords, -, -⟩ := peeked_oldest hp hpeek
  have hfirst : [] ++ [r] <+: w.peeked isolateNext := ⟨records, by rw [hrecords]; rfl⟩
  exact (getsClean_iff.mp h) [] r hfirst fitsBatch_nil

end

section
variable {w : World} {r : SpoolRecord} {interpreter : Interpreter}

/-- The line of a row is the only one it has. -/
theorem fits_of_ok {table : PyStr} {payload encoded : Bytes} {limit : Nat}
    (henc : encodePayload table payload interpreter = .ok encoded)
    (hle : encoded.length ≤ limit) :
    ∀ encoded', encodePayload table payload interpreter = .ok encoded' →
      encoded'.length ≤ limit := by
  intro encoded' henc'
  rwa [← Except.ok.inj (henc.symm.trans henc')]

/-- The batch gets to no row but a lone one. -/
theorem getsClean_single {isolateNext : Bool} (hp : w.spool.db.pending = [r])
    (h : Clean r.payload interpreter) : w.GetsClean isolateNext interpreter := by
  intro taken q hq _ _
  have hone : taken ++ [q] <+: [r] := hp ▸ hq.trans (List.take_prefix ..)
  cases taken with
  | nil =>
    obtain ⟨rfl, -⟩ := List.cons_prefix_cons.mp hone
    exact h
  | cons q' taken =>
    obtain ⟨-, hnil⟩ := List.cons_prefix_cons.mp hone
    simp at hnil

end

/-! ## Spools with given payloads -/

/-- A service over a spool that holds these payloads. -/
def storedWorld (payloads : List (PyStr × Bytes)) : World :=
  .boot .provisional .quiet (SpoolFile.create.runCalls
    [⟨.open .provisional .standard none, []⟩,
      ⟨.enqueueMany (payloads.map fun p => ⟨p.1, p.2, 0⟩), []⟩]).db []

/-- A file with rows stored by others is able, if it can count them. -/
theorem storedWorld_able {payloads : List (PyStr × Bytes)}
    (h : (storedWorld payloads).spool.db.spoolStats.isSome = true ∧
      (storedWorld payloads).spool.db.deadLetterSeq < sqliteIntegerMax) :
    Able (storedWorld payloads) := by
  have hcoherent : (storedWorld payloads).spool.db.Coherent :=
    (SpoolFile.runCalls_sound _ SpoolFile.create_sound).coherent
  exact
    { healthy := rfl, coherent := hcoherent, opened := hcoherent.counted.opened h.1,
      clock := ⟨(by decide : sqliteIntegerMin ≤ 0), (by decide : 0 ≤ sqliteIntegerMax)⟩,
      key := h.2 }

/-- The payload of the light that is switched on. -/
def lightPayload : Bytes := lightEvent.toBytes.toOption.getD []

/-- A document whose state is the escape of a lone surrogate. -/
def surrogatePayload : Bytes :=
  (Utf8.encode (py "\x7b\"attributes_json\":\"\x7b\x7d\",\"context_id\":null," ++
    py "\"entity_id\":\"light.hall\",\"event_id\":\"2\",\"ingested_at_ns\":3000," ++
    py "\"last_changed_ns\":2000,\"last_updated_ns\":2000,\"state\":\"\\ud800\"," ++
    py "\"version\":2\x7d")).getD []

/-- The oldest row can be delivered. -/
def oldestFits (w : World) : Bool :=
  match w.spool.db.pending with
  | [] => false
  | r :: _ =>
    match encodePayload w.config.table.name r.payload with
    | .ok encoded => decide (encoded.length ≤ w.config.settings.deliveryBatchBytes)
    | .error _ => false

/-- The check says that the oldest row has a line within the limit. -/
theorem oldestFits_iff {w : World} : oldestFits w = true ↔ ∃ r rest encoded,
    w.spool.db.pending = r :: rest ∧ encodePayload w.config.table.name r.payload = .ok encoded ∧
      encoded.length ≤ w.config.settings.deliveryBatchBytes := by
  unfold oldestFits
  cases w.spool.db.pending with
  | nil => simp
  | cons r rest =>
    cases henc : encodePayload w.config.table.name r.payload with
    | error e => simp [henc]
    | ok encoded => simp [henc]

/-- The oldest row cannot be encoded. -/
def oldestRaises (w : World) : Bool :=
  match w.spool.db.pending with
  | [] => false
  | r :: _ =>
    match encodePayload w.config.table.name r.payload with
    | .ok _ => false
    | .error _ => true

/-- The check says that the oldest row has no line. -/
theorem oldestRaises_iff {w : World} : oldestRaises w = true ↔ ∃ r rest e,
    w.spool.db.pending = r :: rest ∧ encodePayload w.config.table.name r.payload = .error e := by
  unfold oldestRaises
  cases w.spool.db.pending with
  | nil => simp
  | cons r rest =>
    cases henc : encodePayload w.config.table.name r.payload with
    | error e => simp [henc]
    | ok encoded => simp [henc]

/-- `_build_batch` raises the error of the UTF-8 codec. -/
def raisesCodec (x : Except Exc (Option BuiltBatch) × World) : Bool :=
  match x.1 with
  | .error e => e.type == .unicodeEncodeError
  | .ok _ => false

/-- A batch is no exception of the codec. -/
theorem not_raisesCodec {built : Option BuiltBatch} {v : World} :
    raisesCodec (.ok built, v) = false := rfl

/-- **Stored content never kills the delivery exactly where no row that the batch gets to holds an
event with a lone surrogate**, the rows can be read, and the payload of a row that cannot be decoded
or encoded is within `max_dead_letter_bytes`. -/
theorem stored_content_handled (w : World) (r : SpoolRecord) (rest : List SpoolRecord) (h : Able w)
    (hp : w.spool.db.pending = r :: rest)
    (hfit : ∀ encoded, encodePayload w.config.table.name r.payload = .ok encoded →
      encoded.length ≤ w.config.settings.deliveryBatchBytes) (isolateNext : Bool) :
    (Handled w r (w.buildBatch isolateNext) ∧ ∀ table : Table,
        RaisesOnly (isUndecodable · = true) (encodePayload table.name r.payload)) ↔
      Peekable w isolateNext r ∧ w.GetsClean isolateNext ∧
        ∀ e, encodePayload w.config.table.name r.payload = .error e →
          r.payload.length ≤ w.config.limits.maxDeadLetterBytes := by
  have hmem : r ∈ w.spool.db.pending := hp ▸ List.mem_cons_self ..
  constructor
  · rintro ⟨hhandled, -⟩
    have hpeek := hhandled.peekable hp
    refine ⟨hpeek, ?_⟩
    rcases buildBatch_cases h.healthy hp hpeek hfit with ⟨hclean, built, taken, -, hbuilt, -⟩ |
      ⟨hclean, e, he, hun, hbuild⟩ | ⟨-, e, hbuild⟩
    · refine ⟨hclean, fun e he => ?_⟩
      obtain ⟨encoded, henc⟩ := hbuilt.batch.encodes _ (List.mem_cons_self ..)
      rw [show encodePayload w.config.table.name r.payload = .ok encoded from henc] at he
      cases he
    · refine ⟨hclean, fun _ _ => ?_⟩
      rcases bury_healthy h hmem he hun with ⟨hle, -⟩ | ⟨-, v, hbury, -⟩
      · exact hle
      · rw [hbuild, hbury] at hhandled
        rcases hhandled with ⟨_, _, hraised, -⟩ | ⟨_, hraised, -⟩ <;> cases hraised
    · rw [hbuild] at hhandled
      rcases hhandled with ⟨_, _, hraised, -⟩ | ⟨_, hraised, -⟩ <;> cases hraised
  · rintro ⟨hpeek, hclean, hbytes⟩
    refine ⟨?_, fun table => (clean_iff table).mp (hclean.oldest hp hpeek)⟩
    rcases buildBatch_cases h.healthy hp hpeek hfit with ⟨-, built, taken, hbuild, hbuilt, -⟩ |
      ⟨-, e, he, hun, hbuild⟩ | ⟨hnot, -⟩
    · exact handled_of_built hbuild hbuilt
    · rcases bury_healthy h hmem he hun with ⟨-, v, hbury, hburied⟩ | ⟨hlt, -⟩
      · exact .inr ⟨v, hbuild.trans hbury, hburied⟩
      · exact absurd (hbytes e he) (not_le.mpr hlt)
    · exact absurd hclean hnot

/-- A service over a spool that holds the light that is switched on. -/
def lightWorld : World := storedWorld [(py "1", lightPayload)]

/-- The example is able. -/
theorem lightWorld_able : Able lightWorld := storedWorld_able (by decide +kernel)

/-- Its only row can be delivered. -/
theorem lightWorld_row : ∃ r encoded, lightWorld.spool.db.pending = [r] ∧
    encodePayload lightWorld.config.table.name r.payload = .ok encoded ∧
    encoded.length ≤ lightWorld.config.settings.deliveryBatchBytes ∧
    Peekable lightWorld false r := by
  have hlone : oldestFits lightWorld = true ∧ lightWorld.spool.db.pending.length = 1 ∧
      Sql.rowBytes lightWorld.spool.db.pending ≤ maxSqliteBatchBytes ∧
      (lightWorld.maxRows false : Int) ≤ sqliteIntegerMax := by
    decide +kernel
  obtain ⟨hfits, hone, hsum, hrows⟩ := hlone
  obtain ⟨r, rest, encoded, hp, henc, hle⟩ := oldestFits_iff.mp hfits
  rw [hp] at hone hsum
  obtain rfl : rest = [] := List.length_eq_zero_iff.mp (Nat.succ.inj hone)
  exact ⟨r, encoded, hp, henc, hle, hrows, by simpa [Sql.rowBytes] using hsum⟩

/-- The light that is switched on is handled. -/
theorem stored_content_handled_light : ∃ r, lightWorld.spool.db.pending = [r] ∧
    Handled lightWorld r (lightWorld.buildBatch false) := by
  obtain ⟨r, encoded, hp, henc, hle, hpeek⟩ := lightWorld_row
  refine ⟨r, hp, ((stored_content_handled lightWorld r [] lightWorld_able hp
    (fits_of_ok henc hle) false).mpr
    ⟨hpeek, getsClean_single hp (clean_of_ok henc), fun e he => ?_⟩).1⟩
  rw [henc] at he
  cases he

/-- **A stored document with the escape of a lone surrogate kills the delivery**: the error of the
codec leaves `_build_batch`. -/
theorem surrogate_kills : ¬ ∀ (w : World) (r : SpoolRecord) (rest : List SpoolRecord), Able w →
    w.spool.db.pending = r :: rest →
    (∀ encoded, encodePayload w.config.table.name r.payload = .ok encoded →
      encoded.length ≤ w.config.settings.deliveryBatchBytes) → ∀ isolateNext : Bool,
    Handled w r (w.buildBatch isolateNext) ∧ ∀ table : Table,
      RaisesOnly (isUndecodable · = true) (encodePayload table.name r.payload) := by
  intro h
  have hable : Able (storedWorld [(py "1", surrogatePayload)]) :=
    storedWorld_able (by decide +kernel)
  have hkills : oldestRaises (storedWorld [(py "1", surrogatePayload)]) = true ∧
      raisesCodec ((storedWorld [(py "1", surrogatePayload)]).buildBatch false) = true := by
    decide +kernel
  generalize storedWorld [(py "1", surrogatePayload)] = w at hable hkills
  obtain ⟨hundecoded, hraises⟩ := hkills
  obtain ⟨r, rest, e, hp, he⟩ := oldestRaises_iff.mp hundecoded
  have hfit : ∀ encoded, encodePayload w.config.table.name r.payload = .ok encoded →
      encoded.length ≤ w.config.settings.deliveryBatchBytes := by
    intro encoded henc
    rw [henc] at he
    cases he
  rcases (h w r rest hable hp hfit false).1 with ⟨built, encoded, hbuild, -⟩ | ⟨v, hbuild, -⟩
  · rw [hbuild, not_raisesCodec] at hraises
    cases hraises
  · rw [hbuild, not_raisesCodec] at hraises
    cases hraises

/-! ## The longest batch -/

/-- The batch is of the longest part of the candidates that can be delivered, and passes the checks
of `send_batch`. -/
structure LongestBatch (w : World) (isolateNext : Bool) (built : BuiltBatch)
    (interpreter : Interpreter := .plain) : Prop where
  longest : ∃ taken, LongestFront (w.Fits · interpreter) (w.candidates isolateNext) taken ∧
    BuiltOf w.config.table.name taken built interpreter
  line : built.payload ≠ [] ∧ built.payload.getLast? = some 10

/-- What a batch is built of: the longest one where the oldest row can be delivered; none where the
row cannot be decoded or encoded, and has room in dead letter. -/
structure BuildsLongest (w : World) (isolateNext : Bool) (r : SpoolRecord)
    (interpreter : Interpreter := .plain) : Prop where
  deliverable : ∀ encoded, encodePayload w.config.table.name r.payload interpreter = .ok encoded →
    encoded.length ≤ w.config.settings.deliveryBatchBytes →
    ∃ built, w.buildBatch isolateNext interpreter = (.ok (some built), w) ∧
      LongestBatch w isolateNext built interpreter
  undecodable : ∀ e, encodePayload w.config.table.name r.payload interpreter = .error e →
    isUndecodable e = true → r.payload.length ≤ w.config.limits.maxDeadLetterBytes →
    ∃ v, w.buildBatch isolateNext interpreter = (.ok (some .empty), v) ∧ Buried w v r

section
variable {w : World} {r : SpoolRecord} {rest : List SpoolRecord} {isolateNext : Bool}
  {interpreter : Interpreter}

/-- The rows of the longest batch are among those that are read, if their payloads are within the
bytes that `peek_batch` is asked for. -/
theorem longestFront_candidates {taken : List SpoolRecord}
    (h : LongestFront (w.Fits · interpreter) (w.peeked isolateNext) taken)
    (hbytes : ∀ front, LongestFront (w.Fits · interpreter) (w.candidates isolateNext) front →
      Sql.rowBytes front ≤ maxSqliteBatchBytes) :
    LongestFront (w.Fits · interpreter) (w.candidates isolateNext) taken := by
  obtain ⟨front, hfront⟩ := LongestFront.exists_longest (P := (w.Fits · interpreter))
    fitsBatch_nil (w.candidates isolateNext)
  have hpeeked : front <+: w.peeked isolateNext :=
    prefix_peeked.mpr ⟨hfront.front, hbytes front hfront⟩
  have hle := h.longest front hpeeked hfront.holds
  have hge := hfront.longest taken (prefix_peeked.mp h.front).1 h.holds
  rwa [← hle.eq_of_length_le hge.length_le]

/-- Batches of the candidates with the same sequences are of the same rows. -/
theorem front_unique {front taken : List SpoolRecord} {table : PyStr} {built : BuiltBatch}
    (hfront : front <+: w.candidates isolateNext) (htaken : taken <+: w.candidates isolateNext)
    (h : BuiltOf table front built interpreter) (h' : BuiltOf table taken built interpreter) :
    front = taken := by
  have hlen : front.length = taken.length := by
    simpa using congrArg List.length (h.sequences.symm.trans h'.sequences)
  rcases List.prefix_or_prefix_of_prefix hfront htaken with hle | hle
  · exact hle.eq_of_length hlen
  · exact (hle.eq_of_length hlen.symm).symm

/-- Where the oldest row can be delivered. -/
theorem builds_longest_iff (h : w.Healthy) (hp : w.spool.db.pending = r :: rest) {encoded : Bytes}
    (henc : encodePayload w.config.table.name r.payload interpreter = .ok encoded)
    (hle : encoded.length ≤ w.config.settings.deliveryBatchBytes) :
    (∃ built, w.buildBatch isolateNext interpreter = (.ok (some built), w) ∧
      LongestBatch w isolateNext built interpreter) ↔
    Peekable w isolateNext r ∧ w.GetsClean isolateNext interpreter ∧
      ∀ front, LongestFront (w.Fits · interpreter) (w.candidates isolateNext) front →
        Sql.rowBytes front ≤ maxSqliteBatchBytes := by
  have hfit := fits_of_ok henc hle
  constructor
  · rintro ⟨built, hbuild, ⟨front, hfront, hof⟩, -⟩
    have hpeek : Peekable w isolateNext r := peekable_of_built hp (congrArg Prod.fst hbuild)
    rcases buildBatch_cases h hp hpeek hfit with
      ⟨hclean, built', taken, hbuild', hof', hlongest⟩ | ⟨-, e, he, -⟩ | ⟨-, e, hbuild'⟩
    · refine ⟨hpeek, hclean, fun front' hfront' => ?_⟩
      obtain ⟨htaken, hbytes⟩ := prefix_peeked.mp hlongest.front
      rw [hbuild] at hbuild'
      cases hbuild'
      rwa [hfront'.unique hfront, front_unique hfront.front htaken hof hof']
    · rw [henc] at he
      cases he
    · rw [hbuild] at hbuild'
      cases hbuild'
  · rintro ⟨hpeek, hclean, hbytes⟩
    rcases buildBatch_cases h hp hpeek hfit with
      ⟨-, built, taken, hbuild, hof, hlongest⟩ | ⟨-, e, he, -⟩ | ⟨hnot, -⟩
    · have hline := hof.batch.line (by simp)
      refine ⟨built, hbuild, ⟨r :: taken, longestFront_candidates hlongest hbytes, hof⟩, ?_, hline⟩
      intro hnil
      rw [hnil] at hline
      cases hline
    · rw [henc] at he
      cases he
    · exact absurd hclean hnot

/-- Where the oldest row cannot be decoded or encoded, and has room in dead letter. -/
theorem buries_iff (h : Able w) (hp : w.spool.db.pending = r :: rest) {e : Exc}
    (he : encodePayload w.config.table.name r.payload interpreter = .error e)
    (hun : isUndecodable e = true)
    (hle : r.payload.length ≤ w.config.limits.maxDeadLetterBytes) :
    (∃ v, w.buildBatch isolateNext interpreter = (.ok (some .empty), v) ∧ Buried w v r) ↔
      Peekable w isolateNext r := by
  refine ⟨fun ⟨v, hbuild, _⟩ => peekable_of_built hp (congrArg Prod.fst hbuild), fun hpeek => ?_⟩
  have hnot : ∀ encoded,
      encodePayload w.config.table.name r.payload interpreter ≠ .ok encoded := by
    intro encoded henc
    rw [henc] at he
    cases he
  rcases buildBatch_cases h.healthy hp hpeek fun encoded henc => absurd henc (hnot encoded) with
    ⟨-, built, taken, -, hof, -⟩ | ⟨-, e', he', hun', hbuild⟩ | ⟨hunclean, -⟩
  · obtain ⟨encoded, henc⟩ := hof.batch.encodes _ (List.mem_cons_self ..)
    exact absurd henc (hnot encoded)
  · have hplain := (encodePayload_limited _ _ interpreter).error he' fun h => by
      rw [h] at hun'
      cases hun'
    rcases bury_healthy h (hp ▸ List.mem_cons_self ..) hplain hun' with
        ⟨-, v, hbury, hburied⟩ | ⟨hlt, -⟩
    · exact ⟨v, hbuild.trans hbury, hburied⟩
    · exact absurd hle (not_le.mpr hlt)
  · obtain ⟨records, others, hrecords, -, -⟩ := peeked_oldest hp hpeek
    refine absurd (getsClean_iff.mpr ?_) hunclean
    rw [hrecords]
    exact .of_undecodable he hun

end

/-- **The longest deliverable batch is built exactly where every row that the batch gets to is
clean**, on every interpreter, and the rows can be read: `json.loads` does not exhaust the stack on
such a row, and the row holds no event with a lone surrogate. -/
theorem build_batch_longest (interpreter : Interpreter) (w : World) (r : SpoolRecord)
    (rest : List SpoolRecord) (h : Able w) (hp : w.spool.db.pending = r :: rest)
    (isolateNext : Bool) :
    BuildsLongest w isolateNext r interpreter ↔
      (∀ encoded, encodePayload w.config.table.name r.payload interpreter = .ok encoded →
        encoded.length ≤ w.config.settings.deliveryBatchBytes →
        Peekable w isolateNext r ∧ w.GetsClean isolateNext interpreter ∧
          ∀ front, LongestFront (w.Fits · interpreter) (w.candidates isolateNext) front →
            Sql.rowBytes front ≤ maxSqliteBatchBytes) ∧
      (∀ e, encodePayload w.config.table.name r.payload interpreter = .error e →
        isUndecodable e = true → r.payload.length ≤ w.config.limits.maxDeadLetterBytes →
        Peekable w isolateNext r) := by
  constructor
  · rintro ⟨hdel, hun⟩
    refine ⟨fun encoded henc hle => ?_, fun e he hund hle => ?_⟩
    · exact (builds_longest_iff h.healthy hp henc hle).mp (hdel encoded henc hle)
    · exact (buries_iff h hp he hund hle).mp (hun e he hund hle)
  · rintro ⟨hdel, hun⟩
    refine ⟨fun encoded henc hle => ?_, fun e he hund hle => ?_⟩
    · exact (builds_longest_iff h.healthy hp henc hle).mpr (hdel encoded henc hle)
    · exact (buries_iff h hp he hund hle).mpr (hun e he hund hle)

/-- The batch of the light that is switched on. -/
theorem build_batch_longest_light : ∃ r, lightWorld.spool.db.pending = [r] ∧
    BuildsLongest lightWorld false r := by
  obtain ⟨r, encoded, hp, henc, hle, hpeek⟩ := lightWorld_row
  refine ⟨r, hp, (build_batch_longest .plain lightWorld r [] lightWorld_able hp false).mpr
    ⟨fun _ _ _ => ⟨hpeek, getsClean_single hp (clean_of_ok henc), fun front hfront => ?_⟩,
      fun _ _ _ _ => hpeek⟩⟩
  obtain ⟨others, hothers⟩ : front <+: [r] := hp ▸ hfront.front.trans (List.take_prefix ..)
  have hsum : Sql.rowBytes (front ++ others) ≤ maxSqliteBatchBytes := by
    rw [hothers]
    simpa [Sql.rowBytes] using hpeek.bytes
  simp only [Sql.rowBytes, List.map_append, List.sum_append] at hsum ⊢
  omega

/-- **A deliverable batch is not always built**: behind a row that can be delivered, a document with
the escape of a lone surrogate makes `_build_batch` raise. -/
theorem surrogate_spoils : ¬ ∀ (w : World) (r : SpoolRecord) (rest : List SpoolRecord), Able w →
    w.spool.db.pending = r :: rest → ∀ isolateNext : Bool, BuildsLongest w isolateNext r := by
  intro h
  let stored := [(py "1", lightPayload), (py "2", surrogatePayload)]
  have hable : Able (storedWorld stored) := storedWorld_able (by decide +kernel)
  have hspoils : oldestFits (storedWorld stored) = true ∧
      raisesCodec ((storedWorld stored).buildBatch false) = true := by
    decide +kernel
  generalize storedWorld stored = w at hable hspoils
  obtain ⟨hfits, hraises⟩ := hspoils
  obtain ⟨r, rest, encoded, hp, henc, hle⟩ := oldestFits_iff.mp hfits
  obtain ⟨built, hbuild, -⟩ := (h w r rest hable hp false).deliverable encoded henc hle
  rw [hbuild, not_raisesCodec] at hraises
  cases hraises

end World

end QuestDbWriter
