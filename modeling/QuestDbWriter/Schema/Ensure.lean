import QuestDbWriter.Schema.Columns
import QuestDbWriter.Event

/-!
# The schema check

`IlpSchemaManager.ensure` of `schema.py`, over every sequence of replies to its queries: the table
is created, its columns are compared with the owned schema, and its TTL is aligned with the
configured retention. `ensure_caught` says which replies make it raise an exception of a class that
the worker's gate does not name.
-/

namespace QuestDbWriter

open Lib Json

/-! ## Queries -/

/-- `quote_identifier`. -/
def quoteIdentifier (value : PyStr) : PyStr :=
  py "\"" ++ Escape.replaceChar (ofChar '"') (py "\"\"") value ++ py "\""

/-- What follows the name in the statement that creates the table. -/
def createTableTail : PyStr :=
  let columns := joinComma (expectedColumns.map fun (name, type) => name ++ py " " ++ type)
  py " (" ++ columns ++ py ") " ++
    py "TIMESTAMP(" ++ designatedColumn ++ py ") PARTITION BY DAY WAL " ++
    py "DEDUP UPSERT KEYS(" ++ joinComma upsertKeyColumns ++ py ")"

/-- `create_table_ddl`. -/
def createTableDdl (table : PyStr) : PyStr :=
  py "CREATE TABLE IF NOT EXISTS " ++ quoteIdentifier table ++ createTableTail

/-- The query for the columns of the table. -/
def showColumnsQuery (table : PyStr) : PyStr := py "SHOW COLUMNS FROM " ++ quoteIdentifier table

/-- The query of `_read_ttl_days`. -/
def readTtlQuery (table : PyStr) : PyStr :=
  py "SELECT table_name, ttlValue, ttlUnit FROM tables() WHERE table_name = '" ++
    Escape.replaceChar (ofChar '\'') (py "''") table ++ py "'"

/-- The statement of `_apply_retention`. -/
def setTtlQuery (table : PyStr) (days : Nat) : PyStr :=
  py "ALTER TABLE " ++ quoteIdentifier table ++ py " SET TTL " ++ natText days ++ py " DAYS"

/-! ## ensure -/

/-- An `IlpSchemaManager`: the retention, a number that Python turns into text, and
`_ttl_rejected`. -/
structure SchemaManager where
  retentionDays : Nat
  ttlRejected : Bool
  retention_lt : retentionDays < 10 ^ maxStrDigits

/-- `_TABLE_MISSING_MARKER`. -/
def tableMissingMarker : PyStr := py "does not exist"

/-- The error of a table that is dropped before its columns are shown. -/
def disappearedError : IlpError where
  kind := .retryable
  message := py "table disappeared during schema check"
  statusCode := none
  deliveryUncertain := false

/-- The handler around `SHOW COLUMNS`. -/
def markDisappeared : Except CallError Document → Except CallError Document
  | .error (.ilp e) =>
    if e.isPermanent = true ∧ tableMissingMarker <:+: e.message then .error (.ilp disappearedError)
    else .error (.ilp e)
  | x => x

/-- `int(value)` of an `int`, a `bool` or a `float`. -/
def Json.Value.toInt : Value → Option (Except Exc Int)
  | .bool b => some (.ok b.toNat)
  | .int n => some (.ok n)
  | .float x => some x.double.toInt
  | _ => none

/-- The error for a `tables()` response of another shape. -/
def malformedTables (table : PyStr) : CallError :=
  .schema false (py "malformed tables() response for " ++ table)

/-- What `_read_ttl_days` makes of the dataset; `none` is a document without one. -/
def ttlDays (dataset : Option Value) (table : PyStr) : Except CallError (Option Int) :=
  match dataset with
  | some (.array (.array cells :: _)) =>
    match cells[1]?.bind Value.toInt with
    | some ttl => do
      let ttl ← ttl.mapError .other
      pure (if 0 < ttl then some ttl else none)
    | none => .error (malformedTables table)
  | _ => .error (malformedTables table)

namespace SchemaManager

/-- `desired or None`. -/
def desired (m : SchemaManager) : Option Int :=
  if m.retentionDays = 0 then none else some m.retentionDays

/-- The end of `_apply_retention`, where the TTL is not the desired one. -/
def setTtl (m : SchemaManager) (interpreter : Interpreter) (table : PyStr) (reply : Reply) :
    Except CallError SchemaManager :=
  match execQuery interpreter (setTtlQuery table m.retentionDays) reply with
  | .error (.ilp e) =>
    -- A refused TTL is given up for good; a refusal to clear one is raised.
    if m.retentionDays ≠ 0 ∧ e.isPermanent = true then .ok { m with ttlRejected := true }
    else .error (.ilp e)
  | .error e => .error e
  | .ok _ => .ok m

/-- `_apply_retention`. -/
def applyRetention (m : SchemaManager) (interpreter : Interpreter) (table : PyStr)
    (tables altered : Reply) : Except CallError SchemaManager :=
  if m.ttlRejected then .ok m
  else do
    let document ← execQuery interpreter (readTtlQuery table) tables
    let current ← ttlDays (member (py "dataset") document) table
    if current = m.desired then pure m else m.setTtl interpreter table altered

/-- `ensure`, with the replies to its queries in their order. What `exec_query` returns is a
dict, so the check for one never fails. -/
def ensure (m : SchemaManager) (interpreter : Interpreter) (table : PyStr) (replies : Nat → Reply) :
    Except CallError SchemaManager := do
  (raiseUnless (table ≠ [] ∧ ofChar '\x00' ∉ table)
    { type := .valueError,
      message := py "table must be a non-empty string without NUL" }).mapError .other
  let _ ← execQuery interpreter (createTableDdl table) (replies 0)
  let document ← markDisappeared (execQuery interpreter (showColumnsQuery table) (replies 1))
  validateTableColumns interpreter (member (py "dataset") document) table
  m.applyRetention interpreter table (replies 2) (replies 3)

end SchemaManager

/-! ## Its queries are requests -/

/-- Replacing a character keeps a text encodable. -/
theorem Encodable.replaceChar {old : CodePoint} {new s : PyStr} (hs : Encodable s)
    (hnew : Encodable new) : Encodable (Escape.replaceChar old new s) := by
  intro c hc
  obtain ⟨d, hd, hcd⟩ := List.mem_flatMap.mp hc
  split at hcd
  · exact hnew c hcd
  · exact List.mem_singleton.mp hcd ▸ hs d hd

/-- A quoted identifier is encodable. -/
theorem Encodable.quoteIdentifier {s : PyStr} (hs : Encodable s) :
    Encodable (quoteIdentifier s) :=
  ((Encodable.py (by decide)).append (hs.replaceChar (Encodable.py (by decide)))).append
    (Encodable.py (by decide))

section
variable (interpreter : Interpreter) (table : Table) (reply : Reply)

/-- The name of the table is encodable. -/
theorem Table.isEncodable : Encodable table.name := Encodable.iff_isSome.mpr table.encodable

/-- The `CREATE TABLE` of the table is sent. -/
theorem execQuery_create :
    execQuery interpreter (createTableDdl table.name) reply = reply.document interpreter := by
  have htail : Encodable createTableTail :=
    forall_of_all (P := fun c : CodePoint => Utf8.isSurrogate c.val = false) (by decide +kernel)
  refine execQuery_eq (by simp [createTableDdl, py]) ?_ reply
  exact ((Encodable.py (by decide)).append table.isEncodable.quoteIdentifier).append htail

/-- The query for its columns is sent. -/
theorem execQuery_showColumns :
    execQuery interpreter (showColumnsQuery table.name) reply = reply.document interpreter := by
  refine execQuery_eq (by simp [showColumnsQuery, py]) ?_ reply
  exact (Encodable.py (by decide)).append table.isEncodable.quoteIdentifier

/-- The query for its TTL is sent. -/
theorem execQuery_readTtl :
    execQuery interpreter (readTtlQuery table.name) reply = reply.document interpreter := by
  refine execQuery_eq (by simp [readTtlQuery, py]) ?_ reply
  exact ((Encodable.py (by decide)).append
    (table.isEncodable.replaceChar (Encodable.py (by decide)))).append (Encodable.py (by decide))

/-- The statement that sets its TTL is sent. -/
theorem execQuery_setTtl (days : Nat) :
    execQuery interpreter (setTtlQuery table.name days) reply = reply.document interpreter := by
  refine execQuery_eq (by simp [setTtlQuery, py]) ?_ reply
  have hdays : Encodable (natText days) := Encodable.intText days
  exact ((((Encodable.py (by decide)).append table.isEncodable.quoteIdentifier).append
    (Encodable.py (by decide))).append hdays).append (Encodable.py (by decide))

end

/-! ## What it can read -/

/-- A number that `int()` takes. -/
def Json.Value.IsFinite : Value → Prop
  | .bool _ | .int _ => True
  | .float x => ∃ q, x.double = .finite q
  | _ => False

/-- A dataset of `tables()`: a row in front, with a finite number behind the name. -/
def ShowsTtl (dataset : Option Value) : Prop :=
  ∃ cells rows value, dataset = some (.array (.array cells :: rows)) ∧ cells[1]? = some value ∧
    value.IsFinite

/-- `int(value)` is called and returns exactly for a finite number. -/
theorem Json.Value.toInt_caught (value : Value) :
    (∃ ttl, value.toInt = some (.ok ttl)) ↔ value.IsFinite := by
  cases value with
  | float x =>
    simp only [Value.toInt, Value.IsFinite, Option.some.injEq]
    cases x.double <;> simp [PyDouble.toInt]
  | _ => simp [Value.toInt, Value.IsFinite]

/-- **The TTL is read from a dataset of `tables()` only**; any other raises what is not caught. -/
theorem ttlDays_caught (dataset : Option Value) (table : PyStr) :
    Caught (ttlDays dataset table) ↔ ShowsTtl dataset := by
  unfold ttlDays
  split
  · next cells rows =>
    split
    · next ttl hcell =>
      obtain ⟨value, hvalue, htoInt⟩ := Option.bind_eq_some_iff.mp hcell
      have hshows : ShowsTtl (some (.array (.array cells :: rows))) ↔ value.IsFinite := by
        constructor
        · rintro ⟨_, _, other, he, hother, hfinite⟩
          cases he
          cases hvalue.symm.trans hother
          exact hfinite
        · exact fun h => ⟨cells, rows, value, rfl, hvalue, h⟩
      rw [hshows, ← Json.Value.toInt_caught, htoInt]
      cases ttl with
      | ok ttl => exact ⟨fun _ => ⟨ttl, rfl⟩, fun _ => .ok _⟩
      | error e => exact ⟨fun h => ((Caught.error _).mp h).elim, fun ⟨_, h⟩ => by cases h⟩
    · next hcell =>
      refine ⟨fun h => absurd ((Caught.error _).mp h) nofun, ?_⟩
      rintro ⟨_, _, value, he, hvalue, hfinite⟩
      cases he
      obtain ⟨ttl, httl⟩ := (Json.Value.toInt_caught value).mpr hfinite
      rw [hvalue, Option.bind_some, httl] at hcell
      cases hcell
  · next hne =>
    refine ⟨fun h => absurd ((Caught.error _).mp h) nofun, ?_⟩
    rintro ⟨cells, rows, _, he, -, -⟩
    exact absurd he (hne cells rows)

section
variable (interpreter : Interpreter) (m : SchemaManager) (table : Table)

/-- The reply to `tables()` can be read, and so can the one to the statement that follows, where
the TTL it shows is not the desired one. -/
def ReadableTtl (tables altered : Reply) : Prop :=
  ¬ tables.Exhausts interpreter ∧ ∀ document, tables.document interpreter = .ok document →
    ShowsTtl (member (py "dataset") document) ∧
      ∀ current, ttlDays (member (py "dataset") document) table.name = .ok current →
        current ≠ m.desired → ¬ altered.Exhausts interpreter

/-- Every reply that the check gets to read can be read: none exhausts the stack, the columns are
shown as a list of rows, and, where they are the owned ones, the TTL as a finite number. -/
def Readable (replies : Nat → Reply) : Prop :=
  ¬ (replies 0).Exhausts interpreter ∧
    ∀ created, (replies 0).document interpreter = .ok created →
      ¬ (replies 1).Exhausts interpreter ∧
      ∀ shown, (replies 1).document interpreter = .ok shown →
        ShowsColumns (member (py "dataset") shown) ∧
        (validateTableColumns interpreter (member (py "dataset") shown) table.name = .ok () →
          m.ttlRejected = false → ReadableTtl interpreter m table (replies 2) (replies 3))

/-- A table that disappears is an error that the gate handles. -/
theorem markDisappeared_caught (x : Except CallError Document) :
    Caught (markDisappeared x) ↔ Caught x := by
  unfold markDisappeared
  split
  · next e =>
    split
    · next h =>
      refine ⟨fun _ => (Caught.error _).mpr fun he => ?_, fun _ => (Caught.error _).mpr nofun⟩
      rw [IlpError.isPermanent, show e.kind = _ from he] at h
      cases h.1
    · exact Iff.rfl
  · exact Iff.rfl

/-- A response is handed on. -/
theorem markDisappeared_ok {x : Except CallError Document} {document : Document} :
    markDisappeared x = .ok document ↔ x = .ok document := by
  unfold markDisappeared
  split
  · split <;> exact ⟨nofun, nofun⟩
  · exact Iff.rfl

/-- A reply to the statement that sets the TTL is swallowed, or raised as it is. -/
theorem setTtl_caught (reply : Reply) :
    Caught (m.setTtl interpreter table.name reply) ↔ ¬ reply.Exhausts interpreter := by
  unfold SchemaManager.setTtl
  rw [execQuery_setTtl, ← Reply.document_caught]
  cases reply.document interpreter with
  | ok document => simp
  | error e =>
    cases e with
    | ilp e =>
      dsimp only
      split
      · next h =>
        refine ⟨fun _ => (Caught.error _).mpr fun hk => ?_, fun _ => .ok _⟩
        rw [IlpError.isPermanent, hk] at h
        exact Bool.false_ne_true h.2
      · rw [Caught.error, Caught.error]
    | schema mismatch message => rw [Caught.error, Caught.error]
    | other e => rw [Caught.error, Caught.error]

/-- The gate handles the retention step where the TTL can be read. -/
theorem applyRetention_caught (tables altered : Reply) :
    Caught (m.applyRetention interpreter table.name tables altered) ↔
      (m.ttlRejected = false → ReadableTtl interpreter m table tables altered) := by
  unfold SchemaManager.applyRetention ReadableTtl
  cases m.ttlRejected with
  | true => simp
  | false =>
    rw [if_neg Bool.false_ne_true, Caught.bind, execQuery_readTtl, Reply.document_caught]
    refine Iff.trans ?_ (forall_prop_of_true rfl).symm
    refine and_congr_right fun _ => forall₂_congr fun document _ => ?_
    rw [Caught.bind, ttlDays_caught]
    refine and_congr_right fun _ => forall₂_congr fun current _ => ?_
    split
    · next he => exact ⟨fun _ hne => absurd he hne, fun _ => .ok _⟩
    · next hne => rw [setTtl_caught, forall_prop_of_true hne]

/-- **The schema check raises an exception that the gate does not name exactly where it gets a
reply that it cannot read.** -/
theorem ensure_caught (replies : Nat → Reply) :
    Caught (m.ensure interpreter table.name replies) ↔ Readable interpreter m table replies := by
  unfold SchemaManager.ensure Readable
  rw [raiseUnless, if_pos ⟨table.nonempty, table.no_nul⟩]
  show Caught (execQuery _ _ _ >>= fun _ => _) ↔ _
  rw [Caught.bind, execQuery_create, Reply.document_caught]
  refine and_congr_right fun _ => forall₂_congr fun created _ => ?_
  rw [Caught.bind, markDisappeared_caught, execQuery_showColumns, Reply.document_caught]
  refine and_congr_right fun _ => forall_congr' fun shown => ?_
  rw [markDisappeared_ok]
  refine forall_congr' fun _ => ?_
  rw [Caught.bind, validateTableColumns_caught]
  rw [← applyRetention_caught interpreter m table (replies 2) (replies 3)]
  exact and_congr_right fun _ => ⟨fun h => h (), fun h _ => h⟩

end

end QuestDbWriter
