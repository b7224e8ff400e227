import QuestDbWriter.Schema.Retention
import QuestDbWriter.Lib.Lexer
import QuestDbWriter.Lib.Percent

/-!
# What the server reads

Every statement goes to QuestDB in the path of a request, and those about the table carry its name
between quotes. `statements_received` follows them to the other end: what is read from the path is
the statement, and its tokens are the fixed ones with the name as one of them, whatever the name
is. Only the query of the table-size sensor does not escape it.
-/

namespace QuestDbWriter

open Lib Lexer

/-! ## The path of a request -/

/-- The path of `exec_query`: `EXEC_PATH` and the query through `urllib.parse.quote` with `safe=''`,
which encodes it strictly. -/
def execPath (query : PyStr) : Except Exc PyStr := do
  let bytes ← encodeUtf8 query
  pure (py "/exec?query=" ++ Percent.encode bytes)

/-- A character that stands for itself in the first line of a request, and neither ends a parameter
nor is read as another. -/
def IsTargetChar (c : CodePoint) : Prop :=
  33 ≤ c.val ∧ c.val ≤ 126 ∧ c ≠ ofChar '&' ∧ c ≠ ofChar '#' ∧ c ≠ ofChar '+'

instance (c : CodePoint) : Decidable (IsTargetChar c) := inferInstanceAs (Decidable (_ ∧ _))

/-- The query that a server finds in the path. -/
def queryOf (target : PyStr) : Option PyStr :=
  if py "/exec?query=" <+: target then
    (Percent.decode (target.drop (py "/exec?query=").length)).bind Utf8.decode
  else none

/-- **A server finds the query that was sent**, in a path that is one word of the request line. -/
theorem execPath_read {query : PyStr} (h : Encodable query) :
    ∃ target, execPath query = .ok target ∧ (∀ c ∈ target, IsTargetChar c) ∧
      queryOf target = some query := by
  obtain ⟨bytes, hbytes⟩ := Option.isSome_iff_exists.mp (Encodable.iff_isSome.mp h)
  refine ⟨py "/exec?query=" ++ Percent.encode bytes, ?_, fun c hc => ?_, ?_⟩
  · rw [execPath, encodeUtf8_ok.mpr hbytes]
    rfl
  · rcases List.mem_append.mp hc with hc | hc
    · exact forall_of_all (P := IsTargetChar) (by decide) c hc
    · have hval : c.val ≠ 38 ∧ c.val ≠ 35 ∧ c.val ≠ 43 ∧ 33 ≤ c.val ∧ c.val ≤ 126 := by
        rcases Percent.encode_char hc with hpercent | ⟨b, hsafe, hb⟩
        · omega
        · simp [Percent.isSafe] at hsafe
          omega
      refine ⟨hval.2.2.2.1, hval.2.2.2.2, ?_, ?_, ?_⟩
      · rintro rfl
        exact hval.1 rfl
      · rintro rfl
        exact hval.2.1 rfl
      · rintro rfl
        exact hval.2.2.1 rfl
  · rw [queryOf, if_pos (List.prefix_append _ _), List.drop_left, Percent.decode_encode]
    exact Utf8.decode_encode hbytes

/-! ## Statements about the table -/

/-- The tokens of SQL: identifiers between `"`, texts between `'`, words, and other characters by
themselves. -/
def sql : Lexicon CodePoint where
  isQuote c := decide (c = ofChar '"') || decide (c = ofChar '\'')
  isBlank c := [32, 9, 10, 13].contains c.val
  isWord c := decide (48 ≤ c.val ∧ c.val ≤ 57) || decide (65 ≤ c.val ∧ c.val ≤ 90) ||
    decide (97 ≤ c.val ∧ c.val ≤ 122) || decide (c.val = 95)

/-- The statements that carry the name of the table: those of the schema check, the query of the
diagnostics and that of the table-size sensor. -/
inductive TableQuery where
  | schema (statement : Statement)
  | diagnostics
  | tableSize
deriving DecidableEq

/-- `_probe_schema`. -/
def probeTtlQuery (table : PyStr) : PyStr :=
  py "SELECT ttlValue, ttlUnit FROM tables() WHERE table_name = '" ++
    Escape.replaceChar (ofChar '\'') (py "''") table ++ py "'"

/-- `async_update` of the table-size sensor. -/
def tableSizeQuery (table : PyStr) : PyStr :=
  py "SELECT sum(diskSize) FROM table_partitions('" ++ table ++ py "')"

namespace TableQuery

/-- The text of the query for a table. -/
def text (table : PyStr) : TableQuery → PyStr
  | schema statement => statement.text table
  | diagnostics => probeTtlQuery table
  | tableSize => tableSizeQuery table

/-- What stands in front of the name. -/
def lead : TableQuery → PyStr
  | schema .create => py "CREATE TABLE IF NOT EXISTS "
  | schema .showColumns => py "SHOW COLUMNS FROM "
  | schema .readTtl =>
    py "SELECT table_name, ttlValue, ttlUnit FROM tables() WHERE table_name = "
  | schema (.setTtl _) => py "ALTER TABLE "
  | diagnostics => py "SELECT ttlValue, ttlUnit FROM tables() WHERE table_name = "
  | tableSize => py "SELECT sum(diskSize) FROM table_partitions("

/-- The name is an identifier, or a text. -/
def quote : TableQuery → CodePoint
  | schema .readTtl | diagnostics | tableSize => ofChar '\''
  | schema _ => ofChar '"'

/-- What stands behind it. -/
def trail : TableQuery → PyStr
  | schema .create => createTableTail
  | schema (.setTtl days) => py " SET TTL " ++ natText days ++ py " DAYS"
  | schema _ | diagnostics => []
  | tableSize => py ")"

/-- What the statement is meant to be read as: the name is one token, and the others are fixed. -/
def reading (table : PyStr) (q : TableQuery) : List (Token CodePoint) :=
  (sql.tokens q.lead).getD [] ++ .quoted q.quote table :: (sql.tokens q.trail).getD []

/-- How the name is written. -/
def body (table : PyStr) : TableQuery → PyStr
  | tableSize => table
  | q => Escape.replaceChar q.quote [q.quote, q.quote] table

/-- Every query quotes the table's name once. -/
theorem text_eq (q : TableQuery) (table : PyStr) :
    q.text table = q.lead ++ [q.quote] ++ q.body table ++ q.quote :: q.trail := by
  cases q with
  | schema statement => cases statement <;> simp [text, Statement.text, createTableDdl,
      showColumnsQuery, readTtlQuery, setTtlQuery, quoteIdentifier, lead, quote, body, trail, py]
  | diagnostics => simp [text, probeTtlQuery, lead, quote, body, trail, py]
  | tableSize => simp [text, tableSizeQuery, lead, quote, body, trail, py]

/-- The name's token begins behind the lead. -/
theorem scan_lead (q : TableQuery) :
    sql.scan .between (q.lead ++ [q.quote]) =
      (.inQuoted q.quote [], (sql.tokens q.lead).getD []) := by
  rcases q with (_ | _ | _ | days) | _ | _
  case schema.setTtl =>
    show sql.scan .between (py "ALTER TABLE " ++ [ofChar '"']) =
      (.inQuoted (ofChar '"') [], (sql.tokens (py "ALTER TABLE ")).getD [])
    decide +kernel
  all_goals decide +kernel

/-- A character that is no quote. -/
def IsUnquoted (c : CodePoint) : Prop := sql.isQuote c = false

instance (c : CodePoint) : Decidable (IsUnquoted c) := inferInstanceAs (Decidable (_ = _))

/-- No quote stands behind the name. -/
theorem trail_unquoted (q : TableQuery) : ∀ c ∈ q.trail, IsUnquoted c := by
  rcases q with (_ | _ | _ | days) | _ | _
  case schema.setTtl =>
    intro c hc
    rcases List.mem_append.mp hc with hc | hc
    · rcases List.mem_append.mp hc with hc | hc
      · exact forall_of_all (P := IsUnquoted) (by decide) c hc
      · have hne : ∀ {d : Char}, d.isDigit = false → c ≠ ofChar d := by
          intro d hd he
          obtain ⟨d', hd', he'⟩ := natText_digit hc
          cases ofChar_injective (he.symm.trans he')
          exact Bool.false_ne_true (hd.symm.trans hd')
        have hdouble := hne (d := '"') rfl
        have hsingle := hne (d := '\'') rfl
        simp [IsUnquoted, sql, hdouble, hsingle]
    · exact forall_of_all (P := IsUnquoted) (by decide) c hc
  all_goals exact forall_of_all (P := IsUnquoted) (by decide +kernel)

/-- What follows the closing quote is no quote, which would double it. -/
theorem trail_head (q : TableQuery) : q.trail.head? ≠ some q.quote := by
  intro h
  have hmem : q.quote ∈ q.trail := List.mem_of_mem_head? h
  have hquote : sql.isQuote q.quote = true := by
    rcases q with (_ | _ | _ | days) | _ | _ <;> rfl
  exact Bool.false_ne_true ((trail_unquoted q _ hmem).symm.trans hquote)

/-- A query for a name that encodes encodes. -/
theorem text_encodable (q : TableQuery) {table : PyStr} (h : Encodable table) :
    Encodable (q.text table) := by
  have hquote : Encodable [q.quote] := by
    intro c hc
    rw [List.mem_singleton.mp hc]
    rcases q with (_ | _ | _ | days) | _ | _ <;> rfl
  have hlead : Encodable q.lead := by
    rcases q with (_ | _ | _ | days) | _ | _ <;> exact .py (by decide)
  have htrail : Encodable q.trail := by
    rcases q with (_ | _ | _ | days) | _ | _
    case schema.setTtl =>
      have hdays : Encodable (natText days) := Encodable.intText days
      exact ((Encodable.py (by decide)).append hdays).append (Encodable.py (by decide))
    all_goals
      exact forall_of_all (P := fun c : CodePoint => Utf8.isSurrogate c.val = false)
        (by decide +kernel)
  have hbody : Encodable (q.body table) := by
    cases q with
    | schema | diagnostics => exact h.replaceChar (hquote.append hquote)
    | tableSize => exact h
  have hend : Encodable (q.quote :: q.trail) := hquote.append htrail
  rw [q.text_eq]
  exact ((hlead.append hquote).append hbody).append hend

end TableQuery

/-- **The server reads what was meant**: the path of every request that carries the table's name is
one word of the request line, the server finds the statement in it, and the name is one token of the
statement, between its fixed tokens; of the query of the table-size sensor, exactly where the name
has no `'`. -/
theorem statements_received (q : TableQuery) (table : Table) :
    ∃ target, execPath (q.text table.name) = .ok target ∧ (∀ c ∈ target, IsTargetChar c) ∧
      queryOf target = some (q.text table.name) ∧
      (sql.tokens (q.text table.name) = some (q.reading table.name) ↔
        (q = .tableSize → ofChar '\'' ∉ table.name)) := by
  obtain ⟨target, hpath, hchars, hread⟩ := execPath_read (q.text_encodable table.isEncodable)
  refine ⟨target, hpath, hchars, hread, ?_⟩
  obtain ⟨after, hafter⟩ := Lexicon.tokens_isSome q.trail_unquoted
  have hreading : q.reading table.name =
      (sql.tokens q.lead).getD [] ++ .quoted q.quote table.name :: after := by
    rw [TableQuery.reading, hafter]
    rfl
  rw [q.text_eq, hreading]
  by_cases hq : q = .tableSize
  · subst hq
    have hweight : Lexicon.weightOf after = (TableQuery.trail .tableSize).length := by
      have htrail : sql.tokens (TableQuery.trail .tableSize) = some [.symbol (ofChar ')')] := by
        decide +kernel
      cases htrail.symm.trans hafter
      rfl
    exact (Lexicon.tokens_plain_iff (TableQuery.scan_lead _) hafter (TableQuery.trail_head _)
      hweight table.name).trans ⟨fun h _ => h, fun h => h rfl⟩
  · refine ⟨fun _ h => absurd h hq, fun _ => ?_⟩
    have hbody : q.body table.name =
        table.name.flatMap fun c => if c = q.quote then [q.quote, q.quote] else [c] := by
      cases q with
      | schema | diagnostics => rfl
      | tableSize => exact absurd rfl hq
    rw [hbody, Lexicon.tokens_quoted q.scan_lead q.trail_head, hafter]
    rfl

/-- A quote in the name stays in it. -/
example : sql.tokens (showColumnsQuery (py "a\"b")) =
    some [.word (py "SHOW"), .word (py "COLUMNS"), .word (py "FROM"),
      .quoted (ofChar '"') (py "a\"b")] := by
  decide +kernel

end QuestDbWriter
