import QuestDbWriter.Schema.Columns
import QuestDbWriter.Lib.Keyed

/-!
# The table validation is exact

`validate_table_columns` over every list of rows. The loop keeps what it reads in the order of the
rows (`readColumns_distinct`), each of the five lists of differences is empty exactly where the
columns agree with the owned schema in one respect, and together they say that the columns are the
owned ones (`columnProblems_eq_nil`).
-/

namespace QuestDbWriter

open Lib Json

/-! ## The owned columns -/

/-- The column of the owned schema with that name and type. -/
def ownedColumn (name type : PyStr) : PyStr × Column :=
  (name, { type, designated := decide (name = designatedColumn),
           upsertKey := decide (name ∈ upsertKeyColumns) })

/-- The owned schema. -/
def ownedSchema : Columns := expectedColumns.map fun (name, type) => ownedColumn name type

/-- A column of the schema: its type, and whether it is designated or a key. -/
theorem mem_ownedSchema {name : PyStr} {column : Column} :
    (name, column) ∈ ownedSchema ↔
      (name, column.type) ∈ expectedColumns ∧
        (column.designated = true ↔ name = designatedColumn) ∧
        (column.upsertKey = true ↔ name ∈ upsertKeyColumns) := by
  obtain ⟨type, designated, upsertKey⟩ := column
  constructor
  · intro h
    obtain ⟨⟨expected, _⟩, hmem, he⟩ := List.mem_map.mp h
    cases he
    exact ⟨hmem, decide_eq_true_iff, decide_eq_true_iff⟩
  · rintro ⟨hmem, hdesignated, hupsertKey⟩
    refine List.mem_map.mpr ⟨(name, type), hmem, ?_⟩
    have hd : decide (name = designatedColumn) = designated :=
      Bool.eq_iff_iff.mpr (decide_eq_true_iff.trans hdesignated.symm)
    have hu : decide (name ∈ upsertKeyColumns) = upsertKey :=
      Bool.eq_iff_iff.mpr (decide_eq_true_iff.trans hupsertKey.symm)
    simp only [ownedColumn, hd, hu]

/-- The names of the owned columns are distinct. -/
theorem expectedColumns_nodup : (expectedColumns.map (·.1)).Nodup := by decide +kernel

/-- The designated timestamp is an owned column, and so are the upsert keys. -/
theorem expectedColumns_keys :
    designatedColumn ∈ expectedColumns.map (·.1) ∧
      ∀ name ∈ upsertKeyColumns, name ∈ expectedColumns.map (·.1) := by decide +kernel

/-! ## Lists of names -/

/-- Two lists of distinct names have one sorted form exactly where they have the same names. -/
theorem sortNames_eq_iff {l l' : List PyStr} (hl : l.Nodup) (hl' : l'.Nodup) :
    sortNames l = sortNames l' ↔ ∀ name, name ∈ l ↔ name ∈ l' := by
  have hp : (sortNames l).Perm l := List.perm_insertionSort _ l
  have hp' : (sortNames l').Perm l' := List.perm_insertionSort _ l'
  constructor
  · intro h name
    rw [← hp.mem_iff, h, hp'.mem_iff]
  · intro h
    have hperm : l.Perm l' := (List.perm_ext_iff_of_nodup hl hl').mpr h
    exact List.Perm.eq_of_pairwise' (List.pairwise_insertionSort _ l)
      (List.pairwise_insertionSort _ l') (hp.trans (hperm.trans hp'.symm))

/-- Sorting keeps a list empty, and no other. -/
theorem sortNames_eq_nil {l : List PyStr} : sortNames l = [] ↔ l = [] := by
  rw [← List.length_eq_zero_iff, ← List.length_eq_zero_iff]
  exact iff_of_eq (congrArg (· = 0) (List.perm_insertionSort _ l).length_eq)

/-- A check says nothing where its condition is false. -/
theorem problem_eq_nil {p : Prop} [Decidable p] {text : PyStr} : problem p text = [] ↔ ¬ p := by
  unfold problem
  split
  · next hp => exact ⟨nofun, fun h => absurd hp h⟩
  · next hp => exact ⟨fun _ => hp, fun _ => rfl⟩

/-! ## The differences -/

section
variable {actual : Columns} {name : PyStr} {column : Column}

/-- With distinct names `lookup` finds a column by its name. -/
theorem lookup_eq_some_iff (hnames : (actual.map (·.1)).Nodup) :
    actual.lookup name = some column ↔ (name, column) ∈ actual := by
  induction actual with
  | nil => simp
  | cons entry actual ih =>
    obtain ⟨head, first⟩ := entry
    rw [List.map_cons, List.nodup_cons] at hnames
    rw [List.lookup_cons, List.mem_cons, Prod.mk.injEq]
    cases hname : name == head with
    | true =>
      have heq : name = head := eq_of_beq hname
      have hout : (name, column) ∉ actual := by
        intro h
        exact hnames.1 (List.mem_map.mpr ⟨_, h, heq⟩)
      simp [heq, eq_comm, heq ▸ hout]
    | false =>
      have hne : name ≠ head := ne_of_beq_false hname
      simp [hne, ih hnames.2]

/-- The sorted names of the columns with a flag are the given ones exactly where each column has
the flag that its name asks for. -/
theorem sortNames_flagged (hnames : (actual.map (·.1)).Nodup) (flag : Column → Bool)
    {names : List PyStr} (hnodup : names.Nodup) :
    sortNames ((actual.filter fun entry => flag entry.2).map (·.1)) = sortNames names ↔
      (∀ name ∈ names, name ∈ actual.map (·.1)) ∧
        ∀ name column, (name, column) ∈ actual → (flag column = true ↔ name ∈ names) := by
  have hsub : ((actual.filter fun entry => flag entry.2).map (·.1)).Nodup :=
    hnames.sublist (List.filter_sublist.map _)
  have hmem : ∀ name, name ∈ (actual.filter fun entry => flag entry.2).map (·.1) ↔
      ∃ column, (name, column) ∈ actual ∧ flag column = true := by
    intro name
    simp
  rw [sortNames_eq_iff hsub hnodup]
  constructor
  · intro h
    refine ⟨fun name hname => ?_, fun name column hcolumn => ⟨fun hflag => ?_, fun hname => ?_⟩⟩
    · obtain ⟨column, hcolumn, -⟩ := (hmem name).mp ((h name).mpr hname)
      exact List.mem_map.mpr ⟨_, hcolumn, rfl⟩
    · exact (h name).mp ((hmem name).mpr ⟨column, hcolumn, hflag⟩)
    · obtain ⟨other, hother, hflag⟩ := (hmem name).mp ((h name).mpr hname)
      cases eq_of_key hnames hother hcolumn rfl
      exact hflag
  · rintro ⟨hpresent, hflags⟩ name
    rw [hmem]
    constructor
    · rintro ⟨column, hcolumn, hflag⟩
      exact (hflags name column hcolumn).mp hflag
    · intro hname
      obtain ⟨⟨_, column⟩, hcolumn, rfl⟩ := List.mem_map.mp (hpresent name hname)
      exact ⟨column, hcolumn, (hflags _ column hcolumn).mpr hname⟩

/-- No column has a wrong type. -/
theorem wrongTypes_eq_nil (hnames : (actual.map (·.1)).Nodup) :
    wrongTypes actual = [] ↔
      ∀ name type column, (name, type) ∈ expectedColumns → (name, column) ∈ actual →
        column.type = type := by
  unfold wrongTypes
  rw [List.filterMap_eq_nil_iff]
  constructor
  · intro h name type column hexpected hcolumn
    have hnone := h (name, type) hexpected
    simp only [(lookup_eq_some_iff hnames).mpr hcolumn] at hnone
    by_contra hne
    rw [if_neg hne] at hnone
    cases hnone
  · rintro h ⟨name, type⟩ hexpected
    dsimp only
    split
    · next column hcolumn =>
      exact if_pos (h name type column hexpected ((lookup_eq_some_iff hnames).mp hcolumn))
    · rfl

/-- **There is nothing to report exactly where the columns are the owned ones.** -/
theorem columnProblems_eq_nil (interpreter : Interpreter) (hnames : (actual.map (·.1)).Nodup) :
    columnProblems interpreter actual = [] ↔ ∀ entry, entry ∈ actual ↔ entry ∈ ownedSchema := by
  have hdesignated := sortNames_flagged hnames Column.designated
    (List.nodup_singleton designatedColumn)
  have hupsertKey := sortNames_flagged hnames Column.upsertKey
    (show upsertKeyColumns.Nodup by decide +kernel)
  unfold columnProblems
  simp only [List.append_eq_nil_iff, problem_eq_nil, ne_eq, not_not, sortNames_eq_nil,
    List.filter_eq_nil_iff, decide_eq_true_eq, wrongTypes_eq_nil hnames]
  rw [show sortNames ((actual.filter fun x => x.2.designated).map (·.1)) = [designatedColumn] ↔ _
    from hdesignated, hupsertKey]
  constructor
  · rintro ⟨⟨⟨⟨hmissing, hextra⟩, htypes⟩, -, hd⟩, -, hu⟩
    -- A column of the table is owned, and an owned name has its column.
    have howned : ∀ name column, (name, column) ∈ actual → (name, column) ∈ ownedSchema := by
      intro name column hcolumn
      have hname : name ∈ expectedColumns.map (·.1) := hextra name (List.mem_map_of_mem hcolumn)
      obtain ⟨⟨_, type⟩, hexpected, rfl⟩ := List.mem_map.mp hname
      refine mem_ownedSchema.mpr ⟨?_, ?_, hu _ column hcolumn⟩
      · rw [htypes _ type column hexpected hcolumn]
        exact hexpected
      · exact (hd _ column hcolumn).trans List.mem_singleton
    rintro ⟨name, column⟩
    refine ⟨howned name column, fun hcolumn => ?_⟩
    have hexpected := (mem_ownedSchema.mp hcolumn).1
    have hpresent := hmissing name (List.mem_map_of_mem hexpected)
    obtain ⟨⟨_, other⟩, hother, rfl⟩ := List.mem_map.mp hpresent
    obtain ⟨hexpected', hd', hu'⟩ := mem_ownedSchema.mp (howned _ other hother)
    obtain ⟨-, hd'', hu''⟩ := mem_ownedSchema.mp hcolumn
    have htype : other.type = column.type :=
      congrArg Prod.snd (eq_of_key expectedColumns_nodup hexpected' hexpected rfl)
    have heq : other = column := by
      obtain ⟨type, designated, upsertKey⟩ := other
      obtain ⟨type', designated', upsertKey'⟩ := column
      cases htype
      cases Bool.eq_iff_iff.mpr (hd'.trans hd''.symm)
      cases Bool.eq_iff_iff.mpr (hu'.trans hu''.symm)
      rfl
    exact heq ▸ hother
  · intro h
    have hname : ∀ name, name ∈ actual.map (·.1) ↔ name ∈ expectedColumns.map (·.1) := by
      intro name
      constructor
      · intro hmem
        obtain ⟨⟨_, column⟩, hcolumn, rfl⟩ := List.mem_map.mp hmem
        exact List.mem_map.mpr ⟨_, (mem_ownedSchema.mp ((h _).mp hcolumn)).1, rfl⟩
      · intro hmem
        obtain ⟨⟨_, type⟩, hexpected, rfl⟩ := List.mem_map.mp hmem
        exact List.mem_map.mpr ⟨ownedColumn _ type,
          (h _).mpr (List.mem_map.mpr ⟨_, hexpected, rfl⟩), rfl⟩
    refine ⟨⟨⟨⟨fun name => (hname name).mpr, fun name => (hname name).mp⟩, ?_⟩, ?_, ?_⟩, ?_, ?_⟩
    · intro name type column hexpected hcolumn
      have howned := (mem_ownedSchema.mp ((h _).mp hcolumn)).1
      exact congrArg Prod.snd (eq_of_key expectedColumns_nodup howned hexpected rfl)
    · intro name hmem
      rw [List.mem_singleton.mp hmem]
      exact (hname _).mpr expectedColumns_keys.1
    · intro name column hcolumn
      exact (mem_ownedSchema.mp ((h _).mp hcolumn)).2.1.trans List.mem_singleton.symm
    · intro name hmem
      exact (hname _).mpr (expectedColumns_keys.2 name hmem)
    · intro name column hcolumn
      exact (mem_ownedSchema.mp ((h _).mp hcolumn)).2.2

end

/-! ## The rows -/

/-- A name that is not there yet goes to the end. -/
theorem Columns.set_new {actual : Columns} {name : PyStr} (column : Column)
    (h : name ∉ actual.map (·.1)) : actual.set name column = actual ++ [(name, column)] := by
  unfold Columns.set
  refine if_neg fun hany => h ?_
  obtain ⟨entry, hentry, hname⟩ := List.any_eq_true.mp hany
  exact List.mem_map.mpr ⟨entry, hentry, decide_eq_true_iff.mp hname⟩

/-- The dict that the entries of the rows make. -/
def Columns.ofEntries (entries : List (PyStr × Column)) : Columns :=
  entries.foldl (fun actual entry => actual.set entry.1 entry.2) []

/-- Entries with distinct names stay in their order. -/
theorem Columns.foldl_set {entries : List (PyStr × Column)} :
    ∀ actual : Columns, ((actual ++ entries).map (·.1)).Nodup →
      entries.foldl (fun actual entry => actual.set entry.1 entry.2) actual =
          actual ++ entries := by
  induction entries with
  | nil => simp
  | cons entry entries ih =>
    intro actual hnames
    obtain ⟨name, column⟩ := entry
    have hnew : name ∉ actual.map (·.1) := by
      rw [List.map_append, List.nodup_append] at hnames
      exact fun h => hnames.2.2 name h name (by simp) rfl
    have hsplit : actual ++ (name, column) :: entries = actual ++ [(name, column)] ++ entries := by
      simp
    rw [hsplit] at hnames ⊢
    rw [List.foldl_cons, Columns.set_new column hnew]
    exact ih _ hnames

/-- Distinct names make a mapping as they stand. -/
theorem Columns.ofEntries_distinct {entries : List (PyStr × Column)}
    (hnames : (entries.map (·.1)).Nodup) : Columns.ofEntries entries = entries :=
  Columns.foldl_set [] hnames

/-- The loop reads rows that are well formed into the dict of their entries. -/
theorem readColumns_eq (table : PyStr) {rows : List Value} (hrows : ∀ row ∈ rows, IsColumnRow row) :
    ∀ actual : Columns, readColumns table actual rows =
      .ok ((rows.filterMap readRow).foldl (fun actual entry => actual.set entry.1 entry.2)
          actual) := by
  induction rows with
  | nil =>
    intro actual
    rfl
  | cons row rows ih =>
    intro actual
    rw [List.forall_mem_cons, ← readRow_isSome] at hrows
    obtain ⟨⟨name, column⟩, hentry⟩ := Option.isSome_iff_exists.mp hrows.1
    simp only [readColumns, hentry, List.filterMap_cons_some hentry, List.foldl_cons]
    exact ih hrows.2 _

/-- A row that cannot be read raises a plain `SchemaError`, whatever the other rows are. -/
theorem readColumns_malformed (table : PyStr) {rows : List Value}
    (h : ∃ row ∈ rows, readRow row = none) :
    ∀ actual, readColumns table actual rows =
      .error (.schema false (py "malformed SHOW COLUMNS row for " ++ table)) := by
  induction rows with
  | nil => simp at h
  | cons row rows ih =>
    intro actual
    cases hrow : readRow row with
    | none => simp [readColumns, hrow]
    | some entry =>
      have hrest : ∃ row ∈ rows, readRow row = none := by
        obtain ⟨bad, hmem, hbad⟩ := h
        rcases List.mem_cons.mp hmem with rfl | hmem
        · rw [hrow] at hbad
          cases hbad
        · exact ⟨bad, hmem, hbad⟩
      simp only [readColumns, hrow]
      exact ih hrest _

/-- Columns that were read and are not accepted are reported as a mismatch. -/
theorem compareColumns_error {interpreter : Interpreter} {table : PyStr} {actual : Columns}
    (h : compareColumns interpreter table actual ≠ .ok ()) :
    ∃ message, compareColumns interpreter table actual = .error (.schema true message) := by
  unfold compareColumns at h ⊢
  dsimp only at h ⊢
  split
  · next hnone =>
    rw [if_pos hnone] at h
    exact absurd rfl h
  · exact ⟨_, rfl⟩

/-- The comparison passes exactly without a problem. -/
theorem compareColumns_ok {interpreter : Interpreter} {table : PyStr} {actual : Columns} :
    compareColumns interpreter table actual = .ok () ↔ columnProblems interpreter actual = [] := by
  unfold compareColumns
  dsimp only
  split
  · next hnone => simp [hnone]
  · next hsome => simp [hsome]

/-- **The table validation is strict and complete.** Over every list of rows: one that is malformed
raises a plain `SchemaError`; rows that are not, under distinct names, are accepted exactly where
they are the columns of the owned schema; and what is not accepted raises `SchemaMismatchError`. -/
theorem validate_table_columns_exact (interpreter : Interpreter) (table : PyStr)
    (rows : List Value) :
    let validated := validateTableColumns interpreter (some (.array rows)) table
    let entries := rows.filterMap readRow
    ((∃ row ∈ rows, ¬ IsColumnRow row) → ∃ message, validated = .error (.schema false message)) ∧
    ((∀ row ∈ rows, IsColumnRow row) →
      ((entries.map (·.1)).Nodup →
        (validated = .ok () ↔ ∀ entry, entry ∈ entries ↔ entry ∈ ownedSchema)) ∧
      (validated ≠ .ok () → ∃ message, validated = .error (.schema true message))) := by
  intro validated entries
  constructor
  · rintro ⟨row, hmem, hmalformed⟩
    rw [← readRow_isSome, Option.not_isSome_iff_eq_none] at hmalformed
    have hread := readColumns_malformed table ⟨row, hmem, hmalformed⟩ []
    exact ⟨_, by simp only [validated, validateTableColumns, hread]; rfl⟩
  · intro hrows
    have hvalidated : validated = compareColumns interpreter table (.ofEntries entries) := by
      simp only [validated, validateTableColumns, readColumns_eq table hrows []]
      rfl
    rw [hvalidated]
    refine ⟨fun hnames => ?_, compareColumns_error⟩
    rw [Columns.ofEntries_distinct hnames, compareColumns_ok]
    exact columnProblems_eq_nil interpreter hnames

end QuestDbWriter
