import QuestDbWriter.Options.Settings

/-!
# The options of a config entry

`entry.options`, which the options flow stores as a whole: the filters of the first step, and the
values of the advanced one under their keys, each with its default (`const.py`).
-/

namespace QuestDbWriter

/-! ## The advanced options -/

/-- A key of `entry.options` outside the filters. -/
inductive OptionKey where
  | ingressQueueCapacity
  | maxSerializedEventBytes
  | persistBatchRows
  | deliveryBatchRows
  | deliveryBatchBytes
  | flushIntervalSeconds
  | persistIdlePollSeconds
  | retryInitialSeconds
  | retryMaxSeconds
  | retryMultiplier
  | retryJitterRatio
  | flushOnShutdown
  | maxPendingRows
  | maxPendingBytes
  | maxDeadLetterRows
  | maxDeadLetterBytes
  | spoolMinFreeBytes
  | spoolMinFreeRatio
  | retentionDays
  | sqliteBusyTimeoutSeconds
  | httpTimeoutSeconds
  | startTimeoutSeconds
  | stopTimeoutSeconds
  /-- A key that the advanced step does not know. -/
  | other (name : String)
deriving DecidableEq

/-- A mapping from option keys to values; of two entries for a key the first counts. -/
abbrev Tuning := List (OptionKey × OptionValue)

/-- `{**a, **b}`. -/
def Tuning.update (a b : Tuning) : Tuning := b ++ a

/-- A number that is written with decimals in the source. -/
def seconds (q : ℚ) : OptionValue := .float (.finite q)

/-- The `PROVISIONAL_*` constant of a key, and 0 for the retention. -/
def OptionKey.provisional : OptionKey → OptionValue
  | ingressQueueCapacity => .int 1000
  | maxSerializedEventBytes => .int (64 * 1024)
  | persistBatchRows => .int 100
  | deliveryBatchRows => .int 1000
  | deliveryBatchBytes => .int (512 * 1024)
  | flushIntervalSeconds => seconds 1
  | persistIdlePollSeconds => seconds 1
  | retryInitialSeconds => seconds 1
  | retryMaxSeconds => seconds 60
  | retryMultiplier => seconds 2
  | retryJitterRatio => seconds (2 / 10)
  | flushOnShutdown => .bool false
  | maxPendingRows => .int 100000
  | maxPendingBytes => .int (64 * 1024 * 1024)
  | maxDeadLetterRows => .int 1000
  | maxDeadLetterBytes => .int (16 * 1024 * 1024)
  | spoolMinFreeBytes => .int (512 * 1024 * 1024)
  | spoolMinFreeRatio => seconds (5 / 100)
  | retentionDays => .int 0
  | sqliteBusyTimeoutSeconds => seconds 1
  | httpTimeoutSeconds => seconds 10
  | startTimeoutSeconds => seconds 10
  | stopTimeoutSeconds => seconds 15
  | other _ => .other false

/-- `options.get(key, PROVISIONAL)`. -/
def Tuning.get (options : Tuning) (key : OptionKey) : OptionValue :=
  (options.lookup key).getD key.provisional

/-! ## The filters -/

/-- One side of the entity filter. -/
structure FilterSide where
  domains : List PyStr := []
  entityGlobs : List PyStr := []
  entities : List PyStr := []
deriving DecidableEq

/-- `_filter_options`, as the first step sets it. -/
structure FilterOptions where
  includeSide : FilterSide
  excludeSide : FilterSide
  attributeAllowlist : List PyStr
  attributeDenylist : List PyStr
deriving DecidableEq

/-- `entry.options`. -/
structure EntryOptions where
  includeSide : Option FilterSide
  excludeSide : Option FilterSide
  attributeAllowlist : Option (List PyStr)
  attributeDenylist : Option (List PyStr)
  tuning : Tuning

/-- `entry.data`. -/
structure EntryData where
  host : PyStr
  port : Nat
  table : PyStr
  useTls : Bool
  tlsSelfSigned : Bool
  username : Option PyStr
  password : Option PyStr
deriving DecidableEq

/-- `{**options, **filter_options}`; a flow without its first step has no filter options. -/
def EntryOptions.withFilter (options : EntryOptions) : Option FilterOptions → EntryOptions
  | none => options
  | some f =>
    { options with
      includeSide := some f.includeSide
      excludeSide := some f.excludeSide
      attributeAllowlist := some f.attributeAllowlist
      attributeDenylist := some f.attributeDenylist }

/-- `{**options, **values}`. -/
def EntryOptions.withTuning (options : EntryOptions) (values : Tuning) : EntryOptions :=
  { options with tuning := options.tuning.update values }

end QuestDbWriter
