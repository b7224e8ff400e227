import QuestDbWriter.Options.Entry

/-!
# The advanced step

`_advanced_schema` and `async_step_advanced` of `config_flow.py`. Home Assistant's number selector
turns what it accepts into a float, and the step completes its input with the validated defaults, so
what is stored is in the range of its field either way (`advancedSchema_lookup`).
-/

namespace QuestDbWriter

open Json (PyDouble)

/-! ## Conversions -/

/-- `float()` and `int()` of a text, and `str()` of a value. -/
structure Conversions where
  floatOf : PyStr → Option PyDouble
  intOf : PyStr → Except Exc Int
  strOf : OptionValue → PyStr

/-- `x < y`. -/
def Json.PyDouble.lt : PyDouble → PyDouble → Bool
  | .nan, _ | _, .nan => false
  | .finite p, .finite q => decide (p < q)
  | .infinity negative, .finite _ => negative
  | .finite _, .infinity negative => !negative
  | .infinity a, .infinity b => a && !b

namespace OptionValue

/-- The number that a value is compared as. -/
def numeric : OptionValue → Option PyDouble
  | .int n => some (.finite n)
  | .float x => some x
  | .bool b => some (.finite b.toNat)
  | _ => none

/-- `a < b`; `none` is a `TypeError`. -/
def lt (a b : OptionValue) : Option Bool :=
  match a.numeric, b.numeric with
  | some x, some y => some (x.lt y)
  | _, _ =>
    match a, b with
    | .str s, .str t => some (decide (s < t))
    | _, _ => none

/-- `float(value)`. No field has a bound beyond the integers that are floats. -/
def toFloat (conv : Conversions) : OptionValue → Option PyDouble
  | .str text => conv.floatOf text
  | value => value.numeric

/-- `int(value or 0)`. -/
def toIntOrZero (conv : Conversions) : OptionValue → Except Exc Int
  | .int n => .ok n
  | .float x => if x = .finite 0 then .ok 0 else x.toInt
  | .bool b => .ok b.toNat
  | .str text => if text = [] then .ok 0 else conv.intOf text
  | .other false => .ok 0
  | .other true =>
    .error { type := .typeError, message := py "int() argument must be a string or a number" }

end OptionValue

/-! ## _advanced_schema -/

/-- How the schema checks the value of a field. -/
inductive Validator where
  /-- `_number(minimum, maximum, …)`. -/
  | number (minimum maximum : ℚ)
  | bool
  /-- The selector of the retention, `Coerce(int)` and `Range(min=0, max=3650)`. -/
  | retention
deriving DecidableEq

/-- What `_advanced_schema` asks of a field; it has no other fields. -/
def OptionKey.validator : OptionKey → Option Validator
  | ingressQueueCapacity => some (.number 10 100000)
  | maxSerializedEventBytes => some (.number 1024 1048576)
  | persistBatchRows => some (.number 1 10000)
  | deliveryBatchRows => some (.number 1 100000)
  | deliveryBatchBytes => some (.number 4096 16777216)
  | flushIntervalSeconds => some (.number (5 / 100) 300)
  | persistIdlePollSeconds => some (.number (5 / 100) 60)
  | retryInitialSeconds => some (.number (1 / 10) 300)
  | retryMaxSeconds => some (.number 1 3600)
  | retryMultiplier => some (.number 1 10)
  | retryJitterRatio => some (.number 0 1)
  | flushOnShutdown => some .bool
  | maxPendingRows => some (.number 100 10000000)
  | maxPendingBytes => some (.number 1048576 1073741824)
  | maxDeadLetterRows => some (.number 10 1000000)
  | maxDeadLetterBytes => some (.number 65536 268435456)
  | spoolMinFreeBytes => some (.number 0 1073741824)
  | spoolMinFreeRatio => some (.number 0 (1 / 2))
  | retentionDays => some .retention
  | sqliteBusyTimeoutSeconds => some (.number (5 / 100) 30)
  | httpTimeoutSeconds => some (.number 1 120)
  | startTimeoutSeconds => some (.number 1 120)
  | stopTimeoutSeconds => some (.number 1 300)
  | other _ => none

/-- The fields of the advanced form. -/
def advancedKeys : List OptionKey :=
  [.ingressQueueCapacity, .maxSerializedEventBytes, .persistBatchRows, .deliveryBatchRows,
    .deliveryBatchBytes, .flushIntervalSeconds, .persistIdlePollSeconds, .retryInitialSeconds,
    .retryMaxSeconds, .retryMultiplier, .retryJitterRatio, .flushOnShutdown, .maxPendingRows,
    .maxPendingBytes, .maxDeadLetterRows, .maxDeadLetterBytes, .spoolMinFreeBytes,
    .spoolMinFreeRatio, .retentionDays, .sqliteBusyTimeoutSeconds, .httpTimeoutSeconds,
    .startTimeoutSeconds, .stopTimeoutSeconds]

/-- A number in the range of its field; NaN is below no bound and above none. -/
def inRange (minimum maximum : ℚ) (x : PyDouble) : Bool :=
  !x.lt (.finite minimum) && !(PyDouble.finite maximum).lt x

/-- What a validator makes of a value that it accepts. -/
def Validator.validate (conv : Conversions) : Validator → OptionValue → Option OptionValue
  | .number minimum maximum, value => do
    let x ← value.toFloat conv
    if inRange minimum maximum x then some (.float x) else none
  | .bool, .bool b => some (.bool b)
  | .retention, .str text => do
    let n ← (conv.intOf text).toOption
    if 0 ≤ n ∧ n ≤ 3650 then some (.int n) else none
  | _, _ => none

/-- The default of a field: the retention is shown as a text. -/
def Tuning.default (conv : Conversions) (options : Tuning) (key : OptionKey) : OptionValue :=
  match key.validator with
  | some .retention => .str (conv.strOf (options.get key))
  | _ => options.get key

/-- `_advanced_schema(options)(data)`; `none` is `vol.Invalid`. -/
def advancedSchema (conv : Conversions) (options data : Tuning) : Option Tuning :=
  if data.any (·.1.validator.isNone) then none
  else advancedKeys.mapM fun key => do
    let validator ← key.validator
    let value ← validator.validate conv ((data.lookup key).getD (options.default conv key))
    pure (key, value)

/-! ## async_step_advanced -/

/-- What the advanced step returns: its form again, with the options it shows, or the options to
store. -/
inductive AdvancedResult where
  | form (shown : Tuning) (error : Option String)
  | createEntry (data : EntryOptions)

/-- `async_step_advanced`; `none` is an exception. -/
def asyncStepAdvanced (conv : Conversions) (options : EntryOptions)
    (filterOptions : Option FilterOptions) : Option Tuning → Option AdvancedResult
  | none => some (.form options.tuning none)
  | some userInput => do
    let defaults ← advancedSchema conv options.tuning []
    let values := defaults.update userInput
    let retryInverted ← (values.get .retryMaxSeconds).lt (values.get .retryInitialSeconds)
    let sizesInverted ← (values.get .maxDeadLetterBytes).lt (values.get .maxSerializedEventBytes)
    if sizesInverted then return .form userInput (some "invalid_size_bounds")
    if retryInverted then return .form userInput (some "invalid_retry_bounds")
    return .createEntry ((options.withFilter filterOptions).withTuning values)

/-! ## What is stored -/

section
variable {conv : Conversions} {options : EntryOptions} {filterOptions : Option FilterOptions}
  {userInput : Tuning} {entry : EntryOptions}

/-- Every field of the schema is one of the form. -/
theorem mem_advancedKeys {key : OptionKey} (h : key.validator.isSome = true) :
    key ∈ advancedKeys := by
  cases key with
  | other name => cases h
  | _ => decide

/-- A list that is made key by key has each of them with what was made for it. -/
theorem lookup_mapM {keys : List OptionKey} {f : OptionKey → Option OptionValue} {made : Tuning}
    (h : (keys.mapM fun key => (f key).map fun value => (key, value)) = some made) :
    ∀ key ∈ keys, ∃ value, f key = some value ∧ made.lookup key = some value := by
  induction keys generalizing made with
  | nil => simp
  | cons k keys ih =>
    rw [List.mapM_cons] at h
    obtain ⟨head, hhead, h⟩ := Option.bind_eq_some_iff.mp h
    obtain ⟨value, hvalue, rfl⟩ := Option.map_eq_some_iff.mp hhead
    obtain ⟨tail, htail, h⟩ := Option.bind_eq_some_iff.mp h
    cases h
    intro key hkey
    by_cases heq : key = k
    · subst heq
      exact ⟨value, hvalue, List.lookup_cons_self⟩
    · have hmem : key ∈ keys := (List.mem_cons.mp hkey).resolve_left heq
      obtain ⟨other, hother, hlookup⟩ := ih htail key hmem
      refine ⟨other, hother, ?_⟩
      rw [List.lookup_cons, beq_eq_false_iff_ne.mpr heq]
      exact hlookup

/-- **The schema has a value for each of its fields**: what its validator makes of the value that
was given, or of the default. -/
theorem advancedSchema_lookup {stored data made : Tuning}
    (h : advancedSchema conv stored data = some made) {key : OptionKey} {validator : Validator}
    (hkey : key.validator = some validator) :
    ∃ value, validator.validate conv ((data.lookup key).getD (stored.default conv key)) =
      some value ∧ made.lookup key = some value := by
  unfold advancedSchema at h
  split at h
  · cases h
  · have hmade : (advancedKeys.mapM fun key =>
        (key.validator.bind fun validator => validator.validate conv
          ((data.lookup key).getD (stored.default conv key))).map fun value => (key, value)) =
        some made := by
      rw [← h]
      refine congrArg (fun f => advancedKeys.mapM f) (funext fun key => ?_)
      cases key.validator with
      | none => rfl
      | some validator =>
        cases hvalue : validator.validate conv
          ((data.lookup key).getD (stored.default conv key)) <;>
          simp [hvalue]
    have hmem : key ∈ advancedKeys := mem_advancedKeys (by rw [hkey]; rfl)
    obtain ⟨value, hvalue, hlookup⟩ := lookup_mapM hmade key hmem
    rw [hkey, Option.bind_some] at hvalue
    exact ⟨value, hvalue, hlookup⟩

/-- A step that stores options has compared the values, and stores them over the old ones. -/
theorem asyncStepAdvanced_stores
    (h : asyncStepAdvanced conv options filterOptions (some userInput) =
      some (.createEntry entry)) :
    ∃ defaults, advancedSchema conv options.tuning [] = some defaults ∧
      let values := defaults.update userInput
      (values.get .retryMaxSeconds).lt (values.get .retryInitialSeconds) = some false ∧
      (values.get .maxDeadLetterBytes).lt (values.get .maxSerializedEventBytes) = some false ∧
      entry = (options.withFilter filterOptions).withTuning values := by
  obtain ⟨defaults, hdefaults, h⟩ := Option.bind_eq_some_iff.mp h
  obtain ⟨retryInverted, hretry, h⟩ := Option.bind_eq_some_iff.mp h
  obtain ⟨sizesInverted, hsizes, h⟩ := Option.bind_eq_some_iff.mp h
  refine ⟨defaults, hdefaults, ?_⟩
  cases sizesInverted with
  | true => cases h
  | false =>
    cases retryInverted with
    | true => cases h
    | false =>
      cases h
      exact ⟨hretry, hsizes, rfl⟩

end

end QuestDbWriter
