import QuestDbWriter.Options.Filter
import QuestDbWriter.Options.Startable

/-!
# Saving the options form unchanged

The options that a config entry gets from any sequence of completed options flows, and the filter
form that is opened on them and submitted as it is shown. The shown texts are read back as the lists
they show (`splitCsv_join`), so the options stay what they are.
-/

namespace QuestDbWriter

open Lib

/-- The globs and patterns of an input are texts, as its form asks for them. -/
def InitInput.IsText (input : InitInput) : Prop :=
  ∃ includeGlobs excludeGlobs, input.includeEntityGlobs = .text includeGlobs ∧
    input.excludeEntityGlobs = .text excludeGlobs

/-- An options flow that stores options: the filter step alone, or with the advanced step. -/
inductive FlowStores (validFilter : FilterSide → FilterSide → Bool) (conv : Conversions)
    (options : EntryOptions) : EntryOptions → Prop where
  | filter {filterOptions : Option FilterOptions} {input : InitInput} {entry : EntryOptions}
      (htext : input.IsText)
      (h : (asyncStepInit validFilter options none (some input)) =
        (.createEntry entry, filterOptions)) :
      FlowStores validFilter conv options entry
  | advanced {filterOptions : Option FilterOptions} {input : InitInput} {userInput : Tuning}
      {entry : EntryOptions} (htext : input.IsText)
      (h : (asyncStepInit validFilter options none (some input)) = (.advanced, filterOptions))
      (hadvanced : asyncStepAdvanced conv options filterOptions (some userInput) =
        some (.createEntry entry)) :
      FlowStores validFilter conv options entry

/-- The options hold the filters of an input that the first step has accepted. -/
def FilterAccepted (validFilter : FilterSide → FilterSide → Bool) (entry : EntryOptions) : Prop :=
  ∃ input : InitInput, input.IsText ∧ input.filterOptions.overlappingPairs = [] ∧
    validFilter input.filterOptions.includeSide input.filterOptions.excludeSide = true ∧
    entry.withFilter (some input.filterOptions) = entry

section
variable {validFilter : FilterSide → FilterSide → Bool} {conv : Conversions}
  {options entry : EntryOptions} {filterOptions before : Option FilterOptions} {input : InitInput}

/-- The first step goes on with an input where it finds no overlap and the filter is valid. -/
theorem asyncStepInit_accepts {result : InitResult}
    (h : asyncStepInit validFilter options before (some input) = (result, filterOptions))
    (hform : ∀ shown errors conflicts, result ≠ .form shown errors conflicts) :
    input.filterOptions.overlappingPairs = [] ∧
      validFilter input.filterOptions.includeSide input.filterOptions.excludeSide = true ∧
      filterOptions = some input.filterOptions ∧
      (∀ data, result = .createEntry data →
          data = options.withFilter (some input.filterOptions)) := by
  unfold asyncStepInit at h
  dsimp only at h
  split at h
  · cases h
    exact absurd rfl (hform _ _ _)
  next hoverlaps =>
  split at h
  · cases h
    exact absurd rfl (hform _ _ _)
  next hvalid =>
  refine ⟨not_not.mp hoverlaps, Bool.not_eq_false _ ▸ hvalid, ?_⟩
  split at h
  · cases h
    exact ⟨rfl, nofun⟩
  · cases h
    refine ⟨rfl, fun data hdata => ?_⟩
    cases hdata
    rfl

/-- A valid filter without overlaps is stored at once where no advanced step is asked for. -/
theorem FlowStores.of_filter (htext : input.IsText)
    (hoverlaps : input.filterOptions.overlappingPairs = [])
    (hvalid : validFilter input.filterOptions.includeSide input.filterOptions.excludeSide = true)
    (hlast : input.showAdvanced = false) :
    FlowStores validFilter conv options (options.withFilter (some input.filterOptions)) := by
  refine .filter htext (?_ : _ = (_, some input.filterOptions))
  unfold asyncStepInit
  dsimp only
  rw [if_neg (not_not.mpr hoverlaps), if_neg (by simp [hvalid]), if_neg (by simp [hlast])]

/-- Every flow that stores options stores filters that were accepted. -/
theorem FlowStores.accepted (h : FlowStores validFilter conv options entry) :
    FilterAccepted validFilter entry := by
  cases h with
  | filter htext h =>
    obtain ⟨hoverlaps, hvalid, -, hdata⟩ := asyncStepInit_accepts h nofun
    rw [hdata entry rfl]
    exact ⟨_, htext, hoverlaps, hvalid, rfl⟩
  | advanced htext h hadvanced =>
    obtain ⟨hoverlaps, hvalid, rfl, -⟩ := asyncStepInit_accepts h nofun
    obtain ⟨defaults, -, -, -, rfl⟩ := asyncStepAdvanced_stores hadvanced
    exact ⟨_, htext, hoverlaps, hvalid, rfl⟩

/-- The form that shows the filters of a text input is read as those filters. -/
theorem filterOptions_initDefaults (htext : input.IsText)
    (hentry : entry.withFilter (some input.filterOptions) = entry) :
    entry.initDefaults.filterOptions = input.filterOptions ∧ entry.initDefaults.IsText := by
  obtain ⟨includeGlobs, excludeGlobs, hinclude, hexclude⟩ := htext
  rw [← hentry]
  refine ⟨?_, _, _, rfl, rfl⟩
  simp only [InitInput.filterOptions, EntryOptions.initDefaults, EntryOptions.withFilter,
    InitInput.filterSide, Option.getD_some, SelectValue.toList, globList, hinclude, hexclude,
    splitCsv_join]

/-- Accepted filters are accepted again from the form that shows them, and nothing changes. -/
theorem FilterAccepted.resave (h : FilterAccepted validFilter entry) :
    asyncStepInit validFilter entry before (some entry.initDefaults) =
      (.createEntry entry, some entry.initDefaults.filterOptions) := by
  obtain ⟨input, htext, hoverlaps, hvalid, hentry⟩ := h
  obtain ⟨hsame, -⟩ := filterOptions_initDefaults htext hentry
  unfold asyncStepInit
  dsimp only
  rw [hsame, if_neg (not_not.mpr hoverlaps), if_neg (by simp [hvalid]), if_neg (by
    simp [EntryOptions.initDefaults]), hentry]

end

/-- **Saving the form unchanged keeps the options.** The patterns of a text are the parts between
its commas without whitespace around them, but for the empty ones, in their order; they are read
back from the text that shows them; and after any sequence of flows that stored options, the filter
form submitted as it is shown stores the options as they are. -/
theorem resave_keeps_filter (validFilter : FilterSide → FilterSide → Bool) (conv : Conversions) :
    (∀ value : PyStr, splitCsv (joinComma (splitCsv value)) = splitCsv value ∧
      (∀ p ∈ splitCsv value, p ≠ [] ∧ ofChar ',' ∉ p ∧ strip p = p) ∧
      Separated.InOrder (splitCsv value) value ∧
      ∃ parts, Separated.PartsOf (ofChar ',') value parts ∧
        splitCsv value = (parts.map strip).filter (· ≠ [])) ∧
    ∀ (first options : EntryOptions),
      Relation.TransGen (FlowStores validFilter conv) first options → ∀ before,
        asyncStepInit validFilter options before none =
          (.form options.initDefaults [] none, before) ∧
        ∃ filterOptions, asyncStepInit validFilter options before (some options.initDefaults) =
          (.createEntry options, filterOptions) := by
  constructor
  · intro value
    exact ⟨splitCsv_join value, splitCsv_parts value, Separated.tokens_inOrder _ _ value,
      Separated.tokens_eq_parts isWhitespace _ value⟩
  · intro first options h before
    have haccepted : FilterAccepted validFilter options := by
      induction h with
      | single h => exact h.accepted
      | tail _ h _ => exact h.accepted
    exact ⟨rfl, _, haccepted.resave⟩

/-- Two globs, with an empty part and whitespace between them. -/
def twoGlobs : InitInput where
  includeEntityGlobs := .text (py "light.* ,, sensor.*,")

/-- The two globs are stored, shown without the empty part, and stored again. -/
theorem resave_keeps_globs :
    splitCsv (py "light.* ,, sensor.*,") = [py "light.*", py "sensor.*"] ∧
      ∃ options, FlowStores (fun _ _ => true) zeroConversions noOptions options ∧
        options.initDefaults.includeEntityGlobs = .text (py "light.*, sensor.*") ∧
        ∃ filterOptions, asyncStepInit (fun _ _ => true) options none (some options.initDefaults) =
          (.createEntry options, filterOptions) := by
  have hflow : FlowStores (fun _ _ => true) zeroConversions noOptions
      (noOptions.withFilter (some twoGlobs.filterOptions)) :=
    .of_filter ⟨py "light.* ,, sensor.*,", [], rfl, rfl⟩ (by decide +kernel) rfl rfl
  refine ⟨by decide +kernel, _, hflow, by decide +kernel, ?_⟩
  exact ((resave_keeps_filter (fun _ _ => true) zeroConversions).2 _ _ (.single hflow) none).2

end QuestDbWriter
