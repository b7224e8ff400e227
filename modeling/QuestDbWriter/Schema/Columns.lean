import QuestDbWriter.Json.Dump
import QuestDbWriter.Json.Float
import QuestDbWriter.Transport

/-!
# The owned schema

`validate_table_columns` of `schema.py`: what `SHOW COLUMNS` returned, compared with the columns
that the integration owns. Rows it cannot read are a plain `SchemaError`, and every difference is in
the message of one `SchemaMismatchError`; `validateTableColumns_caught` says which of the two comes.
-/

namespace QuestDbWriter

open Lib Json

/-! ## repr -/

/-- `v` in that many hexadecimal digits. -/
def hexDigits (width v : Nat) : PyStr :=
  (List.range width).reverse.map fun i => hexChar (v / 16 ^ i % 16)

/-- A character of a `repr` between two quotes. -/
def reprChar (interpreter : Interpreter) (quote c : CodePoint) : PyStr :=
  if c = quote ∨ c = ofChar '\\' then [ofChar '\\', c]
  else if c = ofChar '\t' then py "\\t"
  else if c = ofChar '\n' then py "\\n"
  else if c = ofChar '\r' then py "\\r"
  else if 32 ≤ c.val ∧ c.val < 127 then [c]
  else if 127 < c.val ∧ interpreter.printable c = true then [c]
  else if c.val ≤ 0xFF then py "\\x" ++ hexDigits 2 c.val
  else if c.val ≤ 0xFFFF then py "\\u" ++ hexDigits 4 c.val
  else py "\\U" ++ hexDigits 8 c.val

/-- `repr(s)`. -/
def reprStr (interpreter : Interpreter) (s : PyStr) : PyStr :=
  let quote := if ofChar '\'' ∈ s ∧ ofChar '"' ∉ s then ofChar '"' else ofChar '\''
  quote :: (s.flatMap (reprChar interpreter quote) ++ [quote])

/-- `", ".join(parts)`. -/
def joinComma (parts : List PyStr) : PyStr := (py ", ").intercalate parts

/-- `repr(names)` of a list of strings. -/
def reprList (interpreter : Interpreter) (names : List PyStr) : PyStr :=
  py "[" ++ joinComma (names.map (reprStr interpreter)) ++ py "]"

/-- `names or 'none'` in a text. -/
def reprOrNone (interpreter : Interpreter) (names : List PyStr) : PyStr :=
  if names = [] then py "none" else reprList interpreter names

/-- `sorted(names)`. -/
def sortNames (names : List PyStr) : List PyStr := names.insertionSort (· ≤ ·)

/-! ## Columns -/

/-- `EXPECTED_COLUMNS`. -/
def expectedColumns : List (PyStr × PyStr) :=
  [(py "last_updated", py "TIMESTAMP"), (py "entity_id", py "SYMBOL"), (py "domain", py "SYMBOL"),
    (py "state", py "VARCHAR"), (py "attributes", py "VARCHAR"), (py "event_id", py "VARCHAR"),
    (py "context_id", py "VARCHAR"), (py "ingested_at", py "TIMESTAMP"),
    (py "last_changed", py "TIMESTAMP")]

/-- `DESIGNATED_COLUMN`. -/
def designatedColumn : PyStr := py "last_updated"

/-- `UPSERT_KEY_COLUMNS`. -/
def upsertKeyColumns : List PyStr := [py "last_updated", py "entity_id"]

/-- A column of the table: its type, and whether it is the designated timestamp and an upsert
key. -/
structure Column where
  type : PyStr
  designated : Bool
  upsertKey : Bool
deriving DecidableEq

/-- The dict `actual`, in the order of its keys. -/
abbrev Columns := List (PyStr × Column)

/-- `actual[name] = column`. -/
def Columns.set (actual : Columns) (name : PyStr) (column : Column) : Columns :=
  if actual.any (·.1 = name) then
    actual.map fun entry => if entry.1 = name then (name, column) else entry
  else actual ++ [(name, column)]

/-- A row of `SHOW COLUMNS`. -/
def readRow : Value → Option (PyStr × Column)
  | .array cells =>
    match cells[0]?, cells[1]?, cells[7]?, cells[8]? with
    | some (Value.str name), some (Value.str type), some designated, some upsertKey =>
      some (name, { type, designated := designated.truth, upsertKey := upsertKey.truth })
    | _, _, _, _ => none
  | _ => none

/-- The loop over the rows. -/
def readColumns (table : PyStr) : Columns → List Value → Except CallError Columns
  | actual, [] => .ok actual
  | actual, row :: rows =>
    match readRow row with
    | none => .error (.schema false (py "malformed SHOW COLUMNS row for " ++ table))
    | some (name, column) => readColumns table (actual.set name column) rows

/-- The columns of the other type, each with both. -/
def wrongTypes (actual : Columns) : List PyStr :=
  expectedColumns.filterMap fun (name, type) =>
    match actual.lookup name with
    | some column =>
      if column.type = type then none
      else some (name ++ py " is " ++ column.type ++ py ", expected " ++ type)
    | none => none

/-- One line of the message, where there is something to say. -/
def problem (p : Prop) [Decidable p] (text : PyStr) : List PyStr := if p then [text] else []

/-- `problems`. -/
def columnProblems (interpreter : Interpreter) (actual : Columns) : List PyStr :=
  let names := actual.map (·.1)
  let expected := expectedColumns.map (·.1)
  let missing := sortNames (expected.filter (· ∉ names))
  let extra := sortNames (names.filter (· ∉ expected))
  let wrong := wrongTypes actual
  let designated := sortNames ((actual.filter (·.2.designated)).map (·.1))
  let upsertKeys := sortNames ((actual.filter (·.2.upsertKey)).map (·.1))
  problem (missing ≠ []) (py "missing columns: " ++ joinComma missing) ++
    problem (extra ≠ []) (py "unexpected columns: " ++ joinComma extra) ++
    problem (wrong ≠ []) (py "wrong column types: " ++ joinComma wrong) ++
    problem (designated ≠ [designatedColumn])
      (py "designated timestamp is " ++ reprOrNone interpreter designated ++ py "; expected [" ++
        designatedColumn ++ py "]") ++
    problem (upsertKeys ≠ sortNames upsertKeyColumns)
      (py "dedup upsert keys are " ++ reprOrNone interpreter upsertKeys ++ py "; expected " ++
        reprList interpreter (sortNames upsertKeyColumns))

/-- The comparison after the loop. -/
def compareColumns (interpreter : Interpreter) (table : PyStr) (actual : Columns) :
    Except CallError Unit :=
  let problems := columnProblems interpreter actual
  if problems = [] then .ok ()
  else .error (.schema true (py "table " ++ table ++ py " does not match the owned schema: " ++
    (py "; ").intercalate problems))

/-- `validate_table_columns`; `none` is a document without the key. -/
def validateTableColumns (interpreter : Interpreter) (dataset : Option Value) (table : PyStr) :
    Except CallError Unit :=
  match dataset with
  | some (.array rows) => do
    let actual ← readColumns table [] rows
    compareColumns interpreter table actual
  | _ => .error (.schema false (py "unexpected SHOW COLUMNS response for " ++ table))

/-! ## What it can read -/

/-- A list of at least nine cells, with a name and a type in front. -/
def IsColumnRow (row : Value) : Prop :=
  ∃ cells name type, row = .array cells ∧ 8 < cells.length ∧
    cells[0]? = some (.str name) ∧ cells[1]? = some (.str type)

theorem readRow_isSome (row : Value) : (readRow row).isSome = true ↔ IsColumnRow row := by
  cases row with
  | array cells =>
    simp only [readRow]
    constructor
    · intro h
      split at h
      · next name type _ _ hname htype _ hupsert =>
        exact ⟨cells, name, type, rfl, (List.getElem?_eq_some_iff.mp hupsert).1, hname, htype⟩
      · cases h
    · rintro ⟨_, name, type, he, hlength, hname, htype⟩
      cases he
      obtain ⟨designated, hdesignated⟩ : ∃ v, cells[7]? = some v :=
        ⟨_, List.getElem?_eq_getElem (by omega)⟩
      obtain ⟨upsertKey, hupsert⟩ : ∃ v, cells[8]? = some v :=
        ⟨_, List.getElem?_eq_getElem (by omega)⟩
      rw [hname, htype, hdesignated, hupsert]
      rfl
  | _ => exact ⟨nofun, fun ⟨_, _, _, he, _⟩ => by cases he⟩

/-- The dataset that `SHOW COLUMNS` is documented to return. -/
def ShowsColumns (dataset : Option Value) : Prop :=
  ∃ rows, dataset = some (.array rows) ∧ ∀ row ∈ rows, IsColumnRow row

/-- The loop reads the rows it can, and only a row it cannot read stops it. -/
theorem readColumns_caught (table : PyStr) : ∀ (rows : List Value) (actual : Columns),
    Caught (readColumns table actual rows) ↔ ∀ row ∈ rows, IsColumnRow row
  | [], _ => by simp [readColumns]
  | row :: rows, actual => by
      rw [readColumns, List.forall_mem_cons, ← readRow_isSome]
      cases readRow row with
      | none => simp [CallError.IsCaught]
      | some entry => simpa using readColumns_caught table rows _

theorem compareColumns_caught (interpreter : Interpreter) (table : PyStr) (actual : Columns) :
    Caught (compareColumns interpreter table actual) := by
  unfold compareColumns
  dsimp only
  split
  · exact .ok _
  · exact (Caught.error _).mpr rfl

/-- **A dataset that is not what `SHOW COLUMNS` returns raises a plain `SchemaError`, and only
such a one does.** -/
theorem validateTableColumns_caught (interpreter : Interpreter) (dataset : Option Value)
    (table : PyStr) :
    Caught (validateTableColumns interpreter dataset table) ↔ ShowsColumns dataset := by
  unfold validateTableColumns
  split
  · next rows =>
    rw [Caught.bind, readColumns_caught]
    constructor
    · exact fun h => ⟨rows, rfl, h.1⟩
    · rintro ⟨_, he, hrows⟩
      cases he
      exact ⟨hrows, fun actual _ => compareColumns_caught interpreter table actual⟩
  · next hne =>
    refine ⟨fun h => absurd ((Caught.error _).mp h) nofun, ?_⟩
    rintro ⟨rows, he, -⟩
    exact absurd he (hne rows)

end QuestDbWriter
