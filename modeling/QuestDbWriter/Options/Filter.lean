import QuestDbWriter.Options.Entry
import QuestDbWriter.Lib.Separated
import QuestDbWriter.Schema.Columns

/-!
# The filter step

`async_step_init` of `config_flow.py`: the entity filter and the attribute patterns that the first
step of the options flow makes of its form, and the form that shows the stored ones. Globs and
patterns are edited as texts; `split_csv_join` says that the text shown for a list is read as that
list.
-/

namespace QuestDbWriter

open Lib

/-! ## Comma-separated texts -/

/-- `_split_csv`. -/
def splitCsv (value : PyStr) : List PyStr :=
  ((value.splitOn (ofChar ',')).map strip).filter (· ≠ [])

theorem splitCsv_eq (value : PyStr) :
    splitCsv value = Separated.tokens isWhitespace (ofChar ',') value := rfl

theorem joinComma_eq (parts : List PyStr) :
    joinComma parts = Separated.render (ofChar ',') (ofChar ' ') parts := rfl

/-- The patterns of a text are not empty, and have no comma and no whitespace around them. -/
theorem splitCsv_parts (value : PyStr) :
    ∀ p ∈ splitCsv value, p ≠ [] ∧ ofChar ',' ∉ p ∧ strip p = p := by
  intro p hp
  rw [splitCsv_eq] at hp
  have h := Separated.tokens_isToken isWhitespace (ofChar ',') value p hp
  exact ⟨h.ne_nil, h.no_sep, h.trimmed⟩

/-- A list of patterns is read back from the text that shows it. -/
theorem splitCsv_join (value : PyStr) : splitCsv (joinComma (splitCsv value)) = splitCsv value := by
  rw [splitCsv_eq, splitCsv_eq, joinComma_eq]
  exact Separated.tokens_render (by decide) (by decide)
    (Separated.tokens_isToken isWhitespace (ofChar ',') value)

/-! ## The form -/

/-- A multi-select value, or a legacy text. -/
inductive SelectValue where
  | list (items : List PyStr)
  | text (value : PyStr)
deriving DecidableEq

/-- `_to_list`. -/
def SelectValue.toList : SelectValue → List PyStr
  | list items => items
  | text value => if value = [] then [] else splitCsv value

/-- The input of the first step; a missing key reads as its default. -/
structure InitInput where
  includeEntities : List PyStr := []
  excludeEntities : List PyStr := []
  includeDomains : SelectValue := .list []
  excludeDomains : SelectValue := .list []
  includeEntityGlobs : SelectValue := .text []
  excludeEntityGlobs : SelectValue := .text []
  attributeAllowlist : PyStr := []
  attributeDenylist : PyStr := []
  showAdvanced : Bool := false
deriving DecidableEq

/-- `_split_csv(globs) if isinstance(globs, str) else _to_list(globs)`. -/
def globList : SelectValue → List PyStr
  | .text value => splitCsv value
  | .list items => SelectValue.toList (.list items)

/-- `_filter_side`. -/
def InitInput.filterSide (input : InitInput) : Bool → FilterSide
  | true =>
    { domains := input.includeDomains.toList
      entityGlobs := globList input.includeEntityGlobs
      entities := input.includeEntities }
  | false =>
    { domains := input.excludeDomains.toList
      entityGlobs := globList input.excludeEntityGlobs
      entities := input.excludeEntities }

/-- The filter options of an input. -/
def InitInput.filterOptions (input : InitInput) : FilterOptions where
  includeSide := input.filterSide true
  excludeSide := input.filterSide false
  attributeAllowlist := splitCsv input.attributeAllowlist
  attributeDenylist := splitCsv input.attributeDenylist

/-- The defaults of `_init_schema`. -/
def EntryOptions.initDefaults (options : EntryOptions) : InitInput :=
  let includeSide := options.includeSide.getD {}
  let excludeSide := options.excludeSide.getD {}
  { includeEntities := includeSide.entities
    excludeEntities := excludeSide.entities
    includeDomains := .list includeSide.domains
    excludeDomains := .list excludeSide.domains
    includeEntityGlobs := .text (joinComma includeSide.entityGlobs)
    excludeEntityGlobs := .text (joinComma excludeSide.entityGlobs)
    attributeAllowlist := joinComma (options.attributeAllowlist.getD [])
    attributeDenylist := joinComma (options.attributeDenylist.getD [])
    showAdvanced := false }

/-! ## Overlaps -/

/-- `sorted(set(left) & set(right))`. -/
def overlap (left right : List PyStr) : List PyStr :=
  sortNames (left.dedup.filter (· ∈ right))

/-- `_overlapping_pairs`. -/
def FilterOptions.overlappingPairs (f : FilterOptions) : PyStr :=
  let part (label : String) (left right : List PyStr) : Option PyStr :=
    let overlap := overlap left right
    if overlap = [] then none else some (py label ++ py ": " ++ joinComma overlap)
  (py "; ").intercalate ([
    part "entities" f.includeSide.entities f.excludeSide.entities,
    part "domains" f.includeSide.domains f.excludeSide.domains,
    part "globs" f.includeSide.entityGlobs f.excludeSide.entityGlobs,
    part "attributes" f.attributeAllowlist f.attributeDenylist].reduceOption)

/-- The keys that an error of the form names. -/
inductive InitField where
  | base
  | includeEntities
  | excludeEntities
  | includeDomains
  | excludeDomains
  | includeEntityGlobs
  | excludeEntityGlobs
  | attributeAllowlist
  | attributeDenylist
deriving DecidableEq

/-- `_conflicted_fields`. -/
def FilterOptions.conflictedFields (f : FilterOptions) : List InitField :=
  let field (key : InitField) (left right : List PyStr) : Option InitField :=
    if left.any (· ∈ right) then some key else none
  [field .includeEntities f.includeSide.entities f.excludeSide.entities,
    field .excludeEntities f.excludeSide.entities f.includeSide.entities,
    field .includeDomains f.includeSide.domains f.excludeSide.domains,
    field .excludeDomains f.excludeSide.domains f.includeSide.domains,
    field .includeEntityGlobs f.includeSide.entityGlobs f.excludeSide.entityGlobs,
    field .excludeEntityGlobs f.excludeSide.entityGlobs f.includeSide.entityGlobs,
    field .attributeAllowlist f.attributeAllowlist f.attributeDenylist,
    field .attributeDenylist f.attributeDenylist f.attributeAllowlist].reduceOption

/-! ## async_step_init -/

/-- What the first step returns: its form again, with the defaults it shows, the form of the
advanced step, or the options to store. -/
inductive InitResult where
  | form (shown : InitInput) (errors : List (InitField × String)) (conflicts : Option PyStr)
  | advanced
  | createEntry (data : EntryOptions)

/-- `async_step_init`, with `_filter_options` behind it. Home Assistant's schema of the filter
decides what `validFilter` decides. -/
def asyncStepInit (validFilter : FilterSide → FilterSide → Bool) (options : EntryOptions)
    (filterOptions : Option FilterOptions) : Option InitInput → InitResult × Option FilterOptions
  | none => (.form options.initDefaults [] none, filterOptions)
  | some input =>
    let f := input.filterOptions
    let display := (options.withFilter (some f)).initDefaults
    let overlaps := f.overlappingPairs
    if overlaps ≠ [] then
      (.form display ((.base, "overlapping_filters") ::
        f.conflictedFields.map fun field => (field, "overlapping_item")) (some overlaps), some f)
    else if validFilter f.includeSide f.excludeSide = false then
      (.form display [(.base, "invalid_filter")] none, some f)
    else if input.showAdvanced then (.advanced, some f)
    else (.createEntry (options.withFilter (some f)), some f)

end QuestDbWriter
