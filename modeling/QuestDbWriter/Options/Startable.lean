import QuestDbWriter.Options.Advanced

/-!
# What the stored options start

`_runtime_configuration` of `__init__.py` on the options that the advanced step has stored, and the
argument checks of the spool. The integer settings are asked for an `int`, and Home Assistant's form
hands over floats: an entry saved through the form is never set up, and `advanced_step_starts` says
for which input the step stores options that are.
-/

namespace QuestDbWriter

open Json (PyDouble)

/-! ## _runtime_configuration -/

/-- `ConnectionConfiguration`. -/
structure ConnectionConfiguration where
  host : PyStr
  port : Nat
  useTls : Bool
  timeoutSeconds : OptionValue
  username : Option PyStr
  password : Option PyStr
  tlsSelfSigned : Bool

/-- `connection_configuration`. -/
def connectionConfiguration (data : EntryData) (options : Tuning) : ConnectionConfiguration where
  host := data.host
  port := data.port
  useTls := data.useTls
  timeoutSeconds := options.get .httpTimeoutSeconds
  username := data.username.filter (· ≠ [])
  password := data.password.filter (· ≠ [])
  tlsSelfSigned := data.tlsSelfSigned

/-- `RuntimeConfiguration`, without the filters. -/
structure RuntimeConfiguration where
  table : PyStr
  spool : SpoolArguments
  connection : ConnectionConfiguration
  worker : WorkerSettings
  startTimeoutSeconds : ℚ
  stopTimeoutSeconds : ℚ
  retentionDays : Int
  table_ne : table ≠ []
  startTimeoutSeconds_pos : 0 < startTimeoutSeconds
  stopTimeoutSeconds_pos : 0 < stopTimeoutSeconds

/-- The arguments of `SpoolConfiguration`. -/
def spoolArguments (options : Tuning) : SpoolArguments where
  maxPendingRows := options.get .maxPendingRows
  maxPendingBytes := options.get .maxPendingBytes
  maxEventBytes := options.get .maxSerializedEventBytes
  maxDeadLetterRows := options.get .maxDeadLetterRows
  maxDeadLetterBytes := options.get .maxDeadLetterBytes
  busyTimeoutSeconds := options.get .sqliteBusyTimeoutSeconds

/-- The arguments of `WorkerSettings`. -/
def workerArguments (options : Tuning) : WorkerArguments where
  ingressQueueCapacity := options.get .ingressQueueCapacity
  maxSerializedEventBytes := options.get .maxSerializedEventBytes
  persistBatchRows := options.get .persistBatchRows
  deliveryBatchRows := options.get .deliveryBatchRows
  deliveryBatchBytes := options.get .deliveryBatchBytes
  flushIntervalSeconds := options.get .flushIntervalSeconds
  persistIdlePollSeconds := options.get .persistIdlePollSeconds
  retryInitialSeconds := options.get .retryInitialSeconds
  retryMaxSeconds := options.get .retryMaxSeconds
  retryMultiplier := options.get .retryMultiplier
  retryJitterRatio := options.get .retryJitterRatio
  flushOnShutdown := options.get .flushOnShutdown
  minFreeBytes := options.get .spoolMinFreeBytes
  minFreeRatio := options.get .spoolMinFreeRatio

/-- `_runtime_configuration`, with `RuntimeConfiguration.__post_init__`. The filters, which it
builds on the way, raise nothing: the stored patterns are texts, and every text is a glob. -/
def runtimeConfiguration (conv : Conversions) (data : EntryData) (options : Tuning) :
    Except Exc RuntimeConfiguration := do
  let worker ← WorkerSettings.ofArguments (workerArguments options)
  let retentionDays ← (options.get .retentionDays).toIntOrZero conv
  let ⟨table_ne⟩ ← requireThat (data.table ≠ []) (py "table must not be empty")
  let start ← requireDuration "start_timeout_seconds" (options.get .startTimeoutSeconds)
  let stop ← requireDuration "stop_timeout_seconds" (options.get .stopTimeoutSeconds)
  pure
    { table := data.table
      spool := spoolArguments options
      connection := connectionConfiguration data options
      worker
      startTimeoutSeconds := start.1
      stopTimeoutSeconds := stop.1
      retentionDays
      table_ne
      startTimeoutSeconds_pos := start.2
      stopTimeoutSeconds_pos := stop.2 }

/-- The configuration is built, and the spool accepts its limits. -/
def Starts (conv : Conversions) (data : EntryData) (options : Tuning) : Prop :=
  ∃ configuration, runtimeConfiguration conv data options = .ok configuration ∧
    ∃ limits, SpoolLimits.ofArguments configuration.spool = .ok limits

theorem requireDuration_ok {name : String} {value : OptionValue} :
    (∃ q, requireDuration name value = .ok q) ↔ ∃ q, value.number = some q ∧ 0 < q := by
  unfold requireDuration
  simp only [bind_succeeds, requireNumber_ok, requireThat_ok]
  constructor
  · rintro ⟨q, hq, ⟨hpos⟩, -, -⟩
    exact ⟨q, hq, hpos⟩
  · rintro ⟨q, hq, hpos⟩
    exact ⟨q, hq, ⟨hpos⟩, hpos, _, rfl⟩

/-- The options are accepted by every class that checks them. -/
structure OptionsAccepted (conv : Conversions) (options : Tuning) : Prop where
  worker : (workerArguments options).Accepted
  spool : (spoolArguments options).Accepted
  retentionDays : ∃ n, (options.get .retentionDays).toIntOrZero conv = .ok n
  startTimeoutSeconds : ∃ q, (options.get .startTimeoutSeconds).number = some q ∧ 0 < q
  stopTimeoutSeconds : ∃ q, (options.get .stopTimeoutSeconds).number = some q ∧ 0 < q

/-- **A configuration starts exactly where each class accepts its part of it.** -/
theorem starts_iff {conv : Conversions} {data : EntryData} {options : Tuning} :
    Starts conv data options ↔ data.table ≠ [] ∧ OptionsAccepted conv options := by
  unfold Starts
  constructor
  · rintro ⟨configuration, h, limits, hlimits⟩
    unfold runtimeConfiguration at h
    obtain ⟨worker, hworker, h⟩ := bind_ok.mp h
    obtain ⟨days, hdays, h⟩ := bind_ok.mp h
    obtain ⟨⟨htable⟩, -, h⟩ := bind_ok.mp h
    obtain ⟨start, hstart, h⟩ := bind_ok.mp h
    obtain ⟨stop, hstop, h⟩ := bind_ok.mp h
    cases h
    exact ⟨htable, WorkerSettings.ofArguments_succeeds.mp ⟨_, hworker⟩,
      SpoolLimits.ofArguments_succeeds.mp ⟨_, hlimits⟩, ⟨_, hdays⟩,
      requireDuration_ok.mp ⟨_, hstart⟩, requireDuration_ok.mp ⟨_, hstop⟩⟩
  · rintro ⟨htable, haccepted⟩
    obtain ⟨worker, hworker⟩ := WorkerSettings.ofArguments_succeeds.mpr haccepted.worker
    obtain ⟨days, hdays⟩ := haccepted.retentionDays
    obtain ⟨start, hstart⟩ := requireDuration_ok.mpr haccepted.startTimeoutSeconds
    obtain ⟨stop, hstop⟩ := requireDuration_ok.mpr haccepted.stopTimeoutSeconds
    have hbuilt : ∃ configuration, runtimeConfiguration conv data options = .ok configuration ∧
        configuration.spool = spoolArguments options := by
      unfold runtimeConfiguration
      exact ⟨_, bind_ok.mpr ⟨worker, hworker, bind_ok.mpr ⟨days, hdays, bind_ok.mpr
        ⟨⟨htable⟩, requireThat_ok.mpr htable, bind_ok.mpr ⟨start, hstart, bind_ok.mpr
          ⟨stop, hstop, rfl⟩⟩⟩⟩⟩, rfl⟩
    obtain ⟨configuration, hconfiguration, hspool⟩ := hbuilt
    exact ⟨configuration, hconfiguration,
      hspool ▸ SpoolLimits.ofArguments_succeeds.mpr haccepted.spool⟩

/-! ## What a submission has to give -/

/-- The options that are asked for an `int`. -/
def integerKeys : List OptionKey :=
  [.ingressQueueCapacity, .maxSerializedEventBytes, .persistBatchRows, .deliveryBatchRows,
    .deliveryBatchBytes, .spoolMinFreeBytes, .maxPendingRows, .maxPendingBytes, .maxDeadLetterRows,
    .maxDeadLetterBytes]

/-- The options that are asked for a finite `int` or `float`. -/
def numberKeys : List OptionKey :=
  [.flushIntervalSeconds, .persistIdlePollSeconds, .retryInitialSeconds, .retryMaxSeconds,
    .retryMultiplier, .retryJitterRatio, .spoolMinFreeRatio, .sqliteBusyTimeoutSeconds,
    .startTimeoutSeconds, .stopTimeoutSeconds]

/-- An input gives every integer option as an `int`, and no number as a `bool`, a text or a NaN; a
number that it leaves out is one that was stored, or the default. -/
structure Usable (conv : Conversions) (stored userInput : Tuning) : Prop where
  integers : ∀ key ∈ integerKeys, ∃ n, userInput.lookup key = some (.int n)
  numbers : ∀ key ∈ numberKeys,
    (∀ value, userInput.lookup key = some value → value.number.isSome = true) ∧
    (userInput.lookup key = none → (stored.get key).toFloat conv ≠ some .nan)

section
variable {conv : Conversions} {options : EntryOptions} {filterOptions : Option FilterOptions}
  {userInput : Tuning} {entry : EntryOptions} {key : OptionKey} {minimum maximum : ℚ}

/-- A number in range that is finite is within its bounds. -/
theorem inRange_finite {q : ℚ} (h : inRange minimum maximum (.finite q) = true) :
    minimum ≤ q ∧ q ≤ maximum := by
  simpa [inRange, PyDouble.lt] using h

/-- A value in range, with the number that it is. -/
theorem number_inRange {value : OptionValue} {x : PyDouble} {q : ℚ}
    (hx : value.toFloat conv = some x) (hrange : inRange minimum maximum x = true)
    (hq : value.exact = some q) : minimum ≤ q ∧ q ≤ maximum := by
  have hfinite : x = .finite q := by
    cases value with
    | int n =>
      cases hq
      cases hx
      rfl
    | float y =>
      cases y with
      | finite r =>
        cases hq
        cases hx
        rfl
      | nan => cases hq
      | infinity => cases hq
    | bool => cases hq
    | str => cases hq
    | other => cases hq
  exact inRange_finite (hfinite ▸ hrange)

/-- A float in range is a number, but for NaN. -/
theorem float_number {x : PyDouble} (hrange : inRange minimum maximum x = true) :
    (OptionValue.float x).number.isSome = true ↔ x ≠ .nan := by
  have hfits : (OptionValue.float x).number = (OptionValue.float x).exact := if_neg id
  rw [hfits]
  cases x with
  | nan => simp [OptionValue.exact]
  | infinity negative => cases negative <;> simp [inRange, PyDouble.lt] at hrange
  | finite q => simp [OptionValue.exact]

/-- What a validated field holds behind the step: the given value, or what its validator makes of
the default. -/
theorem stored_value {validator : Validator}
    (hvalid : (advancedSchema conv options.tuning userInput).isSome = true)
    (h : asyncStepAdvanced conv options filterOptions (some userInput) = some (.createEntry entry))
    (hkey : key.validator = some validator) :
    (∃ value made, userInput.lookup key = some value ∧ entry.tuning.get key = value ∧
      validator.validate conv value = some made) ∨
    ∃ value, userInput.lookup key = none ∧ entry.tuning.get key = value ∧
      validator.validate conv (options.tuning.default conv key) = some value := by
  obtain ⟨defaults, hdefaults, -, -, rfl⟩ := asyncStepAdvanced_stores h
  obtain ⟨made, hmade⟩ := Option.isSome_iff_exists.mp hvalid
  obtain ⟨given, hgiven, -⟩ := advancedSchema_lookup hmade hkey
  obtain ⟨value, hvalue, hlookup⟩ := advancedSchema_lookup hdefaults hkey
  have hentry : ((options.withFilter filterOptions).withTuning
      (defaults.update userInput)).tuning.get key =
      ((userInput.lookup key).or (some value)).getD key.provisional := by
    simp only [EntryOptions.withTuning, Tuning.get, Tuning.update, List.lookup_append, hlookup]
    cases userInput.lookup key <;> rfl
  cases huser : userInput.lookup key with
  | some user =>
    rw [huser] at hgiven hentry
    exact .inl ⟨user, given, rfl, hentry, hgiven⟩
  | none =>
    rw [huser] at hentry
    exact .inr ⟨value, rfl, hentry, hvalue⟩

theorem validate_number {value made : OptionValue}
    (h : (Validator.number minimum maximum).validate conv value = some made) :
    ∃ x, value.toFloat conv = some x ∧ inRange minimum maximum x = true ∧ made = .float x := by
  obtain ⟨x, hx, h⟩ := Option.bind_eq_some_iff.mp h
  split at h
  · next hrange => exact ⟨x, hx, hrange, (Option.some.inj h).symm⟩
  · cases h

theorem default_number (hkey : key.validator = some (.number minimum maximum)) :
    options.tuning.default conv key = options.tuning.get key := by
  unfold Tuning.default
  rw [hkey]

/-- A number field holds a value in its range. -/
theorem stored_inRange (hvalid : (advancedSchema conv options.tuning userInput).isSome = true)
    (h : asyncStepAdvanced conv options filterOptions (some userInput) = some (.createEntry entry))
    (hkey : key.validator = some (.number minimum maximum)) {q : ℚ}
    (hq : (entry.tuning.get key).exact = some q) : minimum ≤ q ∧ q ≤ maximum := by
  rcases stored_value hvalid h hkey with ⟨value, made, -, hentry, hmade⟩ |
      ⟨value, -, hentry, hvalue⟩
  · obtain ⟨x, hx, hrange, -⟩ := validate_number hmade
    exact number_inRange hx hrange (hentry ▸ hq)
  · obtain ⟨x, -, hrange, rfl⟩ := validate_number hvalue
    have hx : (OptionValue.float x).toFloat conv = some x := rfl
    exact number_inRange hx hrange (hentry ▸ hq)

/-- A number field holds an `int` exactly where the input gives one. -/
theorem stored_integer (hvalid : (advancedSchema conv options.tuning userInput).isSome = true)
    (h : asyncStepAdvanced conv options filterOptions (some userInput) = some (.createEntry entry))
    (hkey : key.validator = some (.number minimum maximum)) {n : Int} :
    entry.tuning.get key = .int n ↔ userInput.lookup key = some (.int n) := by
  rcases stored_value hvalid h hkey with ⟨value, made, huser, hentry, -⟩ |
      ⟨value, huser, hentry, hvalue⟩
  · rw [huser, hentry, Option.some.injEq]
  · obtain ⟨x, -, -, rfl⟩ := validate_number hvalue
    rw [huser, hentry]
    exact ⟨nofun, nofun⟩

/-- A number field holds a number exactly where the input gives one, or leaves it out and the old
one is not NaN. -/
theorem stored_isNumber (hvalid : (advancedSchema conv options.tuning userInput).isSome = true)
    (h : asyncStepAdvanced conv options filterOptions (some userInput) = some (.createEntry entry))
    (hkey : key.validator = some (.number minimum maximum)) :
    (entry.tuning.get key).number.isSome = true ↔
      (∀ value, userInput.lookup key = some value → value.number.isSome = true) ∧
      (userInput.lookup key = none → (options.tuning.get key).toFloat conv ≠ some .nan) := by
  rcases stored_value hvalid h hkey with ⟨value, made, huser, hentry, -⟩ |
      ⟨value, huser, hentry, hvalue⟩
  · rw [huser, hentry]
    simp
  · obtain ⟨x, hx, hrange, rfl⟩ := validate_number hvalue
    rw [default_number hkey] at hx
    rw [huser, hentry, hx, float_number hrange]
    simp

/-- The comparisons of the step are between the values that it stores. -/
theorem stored_compared
    (h : asyncStepAdvanced conv options filterOptions (some userInput) =
      some (.createEntry entry)) :
    (entry.tuning.get .retryMaxSeconds).lt (entry.tuning.get .retryInitialSeconds) = some false ∧
      (entry.tuning.get .maxDeadLetterBytes).lt (entry.tuning.get .maxSerializedEventBytes) =
        some false := by
  obtain ⟨defaults, hdefaults, hretry, hsizes, rfl⟩ := asyncStepAdvanced_stores h
  have hget : ∀ {key validator}, key.validator = some validator →
      ((options.withFilter filterOptions).withTuning (defaults.update userInput)).tuning.get key =
        (defaults.update userInput).get key := by
    intro key validator hkey
    obtain ⟨value, -, hlookup⟩ := advancedSchema_lookup hdefaults hkey
    simp only [EntryOptions.withTuning, Tuning.get, Tuning.update, List.lookup_append, hlookup]
    cases userInput.lookup key <;> rfl
  rw [hget rfl, hget rfl, hget rfl, hget rfl]
  exact ⟨hretry, hsizes⟩

/-- Numbers that are not below each other. -/
theorem le_of_lt_false {a b : OptionValue} {p q : ℚ} (h : a.lt b = some false)
    (ha : a.exact = some p) (hb : b.exact = some q) : q ≤ p := by
  have hnumeric : ∀ {v : OptionValue} {r : ℚ}, v.exact = some r →
      v.numeric = some (.finite r) := by
    intro v r hv
    cases v with
    | int n =>
      cases hv
      rfl
    | float x =>
      cases x with
      | finite s =>
        cases hv
        rfl
      | nan => cases hv
      | infinity => cases hv
    | bool => cases hv
    | str => cases hv
    | other => cases hv
  simp only [OptionValue.lt, hnumeric ha, hnumeric hb, PyDouble.lt, Option.some.injEq,
    decide_eq_false_iff_not, not_lt] at h
  exact h

/-- An integer above a bound of its field is above a smaller one. -/
theorem isAtLeast_of_int {value : OptionValue} {n : Int} {bound : Nat} (hvalue : value = .int n)
    (hmin : minimum ≤ n) (hbound : (bound : ℚ) ≤ minimum) : value.IsAtLeast bound := by
  have hn : (bound : Int) ≤ n := by exact_mod_cast hbound.trans hmin
  refine ⟨n.toNat, by omega, ?_⟩
  rw [hvalue, Int.toNat_of_nonneg (by omega)]

/-- The flag is a `bool`, and the retention has a number. -/
theorem stored_others (hvalid : (advancedSchema conv options.tuning userInput).isSome = true)
    (h : asyncStepAdvanced conv options filterOptions (some userInput) =
      some (.createEntry entry)) :
    (∃ b, entry.tuning.get .flushOnShutdown = .bool b) ∧
      ∃ n, (entry.tuning.get .retentionDays).toIntOrZero conv = .ok n := by
  have hbool : ∀ {value made}, Validator.bool.validate conv value = some made →
      (∃ b, value = .bool b) ∧ ∃ b, made = .bool b := by
    intro value made hmade
    cases value with
    | bool b =>
      cases hmade
      exact ⟨⟨b, rfl⟩, b, rfl⟩
    | _ => cases hmade
  have hretention : ∀ {value made}, Validator.retention.validate conv value = some made →
      (∃ n, value.toIntOrZero conv = .ok n) ∧ ∃ n, made.toIntOrZero conv = .ok n := by
    intro value made hmade
    cases value with
    | str text =>
      obtain ⟨n, hn, hmade⟩ := Option.bind_eq_some_iff.mp hmade
      split at hmade
      · cases hmade
        refine ⟨?_, n, rfl⟩
        by_cases hempty : text = []
        · exact ⟨0, if_pos hempty⟩
        · cases hint : conv.intOf text with
          | ok m => exact ⟨m, (if_neg hempty).trans hint⟩
          | error e =>
            rw [hint] at hn
            cases hn
      · cases hmade
    | _ => cases hmade
  constructor
  · rcases stored_value hvalid h
        (show OptionKey.flushOnShutdown.validator = some .bool from rfl) with
      ⟨value, made, -, hentry, hmade⟩ | ⟨value, -, hentry, hvalue⟩
    · exact hentry ▸ (hbool hmade).1
    · exact hentry ▸ (hbool hvalue).2
  · rcases stored_value hvalid h
        (show OptionKey.retentionDays.validator = some .retention from rfl) with
      ⟨value, made, -, hentry, hmade⟩ | ⟨value, -, hentry, hvalue⟩
    · exact hentry ▸ (hretention hmade).1
    · exact hentry ▸ (hretention hvalue).2

/-- A usable input gives what every class asks for. -/
theorem optionsAccepted_of_usable
    (hvalid : (advancedSchema conv options.tuning userInput).isSome = true)
    (h : asyncStepAdvanced conv options filterOptions (some userInput) = some (.createEntry entry))
    (husable : Usable conv options.tuning userInput) : OptionsAccepted conv entry.tuning := by
  have hint : ∀ {key minimum maximum}, key ∈ integerKeys →
      key.validator = some (.number minimum maximum) →
      ∃ n : Int, entry.tuning.get key = .int n ∧ minimum ≤ n ∧ (n : ℚ) ≤ maximum := by
    intro key minimum maximum hmem hkey
    obtain ⟨n, hn⟩ := husable.integers key hmem
    have hentry := (stored_integer hvalid h hkey).mpr hn
    exact ⟨n, hentry, stored_inRange hvalid h hkey (by rw [hentry]; rfl)⟩
  have hnumber : ∀ {key minimum maximum}, key ∈ numberKeys →
      key.validator = some (.number minimum maximum) →
      ∃ q, (entry.tuning.get key).number = some q ∧ minimum ≤ q ∧ q ≤ maximum := by
    intro key minimum maximum hmem hkey
    obtain ⟨q, hq⟩ := Option.isSome_iff_exists.mp
      ((stored_isNumber hvalid h hkey).mpr (husable.numbers key hmem))
    exact ⟨q, hq, stored_inRange hvalid h hkey (OptionValue.exact_of_number hq)⟩
  have hatLeast : ∀ {key minimum maximum} (bound : Nat), key ∈ integerKeys →
      key.validator = some (.number minimum maximum) → (bound : ℚ) ≤ minimum →
      (entry.tuning.get key).IsAtLeast bound := by
    intro key minimum maximum bound hmem hkey hbound
    obtain ⟨n, hn, hmin, -⟩ := hint hmem hkey
    exact isAtLeast_of_int hn hmin hbound
  have hpositive : ∀ {key minimum maximum}, key ∈ numberKeys →
      key.validator = some (.number minimum maximum) → 0 < minimum →
      ∃ q, (entry.tuning.get key).number = some q ∧ 0 < q := by
    intro key minimum maximum hmem hkey hpos
    obtain ⟨q, hq, hmin, -⟩ := hnumber hmem hkey
    exact ⟨q, hq, hpos.trans_le hmin⟩
  obtain ⟨hretry, hsizes⟩ := stored_compared h
  obtain ⟨hflush, hretention⟩ := stored_others hvalid h
  refine ⟨⟨?_, ?_, ?_, ?_, ?_, ?_, ?_, ?_, ?_, ?_, hflush, ?_, ?_⟩, ⟨?_, ?_, ?_, ?_⟩,
    hretention, ?_, ?_⟩
  · exact hatLeast 1 (by decide) rfl (by norm_num)
  · exact hatLeast 1 (by decide) rfl (by norm_num)
  · exact hatLeast 1 (by decide) rfl (by norm_num)
  · exact hatLeast 1 (by decide) rfl (by norm_num)
  · exact hatLeast 1 (by decide) rfl (by norm_num)
  · exact hpositive (by decide) rfl (by norm_num)
  · exact hpositive (by decide) rfl (by norm_num)
  · obtain ⟨initial, hinitial, hmin, -⟩ :=
      hnumber (show .retryInitialSeconds ∈ numberKeys by decide) rfl
    obtain ⟨max, hmax, -, -⟩ := hnumber (show .retryMaxSeconds ∈ numberKeys by decide) rfl
    have hpos : 0 < initial := by linarith
    exact ⟨initial, max, hinitial, hmax, hpos, le_of_lt_false hretry
      (OptionValue.exact_of_number hmax) (OptionValue.exact_of_number hinitial)⟩
  · obtain ⟨q, hq, hmin, -⟩ := hnumber (show .retryMultiplier ∈ numberKeys by decide) rfl
    exact ⟨q, hq, hmin⟩
  · obtain ⟨q, hq, hmin, hmax⟩ := hnumber (show .retryJitterRatio ∈ numberKeys by decide) rfl
    exact ⟨q, hq, hmin, hmax⟩
  · exact hatLeast 0 (by decide) rfl (by norm_num)
  · obtain ⟨q, hq, hmin, hmax⟩ := hnumber (show .spoolMinFreeRatio ∈ numberKeys by decide) rfl
    exact ⟨q, hq, hmin, by linarith⟩
  · exact hatLeast 1 (by decide) rfl (by norm_num)
  · obtain ⟨event, hevent, hmin, hmax⟩ :=
      hint (show .maxSerializedEventBytes ∈ integerKeys by decide) rfl
    obtain ⟨pending, hpending, hpmin, -⟩ := hint (show .maxPendingBytes ∈ integerKeys by decide) rfl
    obtain ⟨dead, hdead, -, -⟩ := hint (show .maxDeadLetterBytes ∈ integerKeys by decide) rfl
    have hdeadEvent : (event : ℚ) ≤ dead :=
      le_of_lt_false hsizes (by rw [hdead]; rfl) (by rw [hevent]; rfl)
    have hone : (1 : Int) ≤ event := by
      have : (1 : ℚ) ≤ event := by linarith
      exact_mod_cast this
    have hpendingEvent : event ≤ pending := by
      have : (event : ℚ) ≤ pending := by linarith
      exact_mod_cast this
    have hdeadEvent : event ≤ dead := by exact_mod_cast hdeadEvent
    refine ⟨event.toNat, pending.toNat, dead.toNat, ?_, ?_, ?_, by omega, by omega, by omega⟩
    · rw [Int.toNat_of_nonneg (by omega)]
      exact hevent
    · rw [Int.toNat_of_nonneg (by omega)]
      exact hpending
    · rw [Int.toNat_of_nonneg (by omega)]
      exact hdead
  · exact hatLeast 1 (by decide) rfl (by norm_num)
  · exact hpositive (by decide) rfl (by norm_num)
  · exact hpositive (by decide) rfl (by norm_num)
  · exact hpositive (by decide) rfl (by norm_num)

/-- What every class asks for is a usable input. -/
theorem usable_of_optionsAccepted
    (hvalid : (advancedSchema conv options.tuning userInput).isSome = true)
    (h : asyncStepAdvanced conv options filterOptions (some userInput) = some (.createEntry entry))
    (haccepted : OptionsAccepted conv entry.tuning) : Usable conv options.tuning userInput := by
  have hint : ∀ {key minimum maximum}, key.validator = some (.number minimum maximum) →
      (∃ bound, (entry.tuning.get key).IsAtLeast bound) →
      ∃ n, userInput.lookup key = some (.int n) := by
    rintro key minimum maximum hkey ⟨bound, n, -, hn⟩
    exact ⟨n, (stored_integer hvalid h hkey).mp hn⟩
  have hnumber : ∀ {key minimum maximum q}, key.validator = some (.number minimum maximum) →
      (entry.tuning.get key).number = some q →
      (∀ value, userInput.lookup key = some value → value.number.isSome = true) ∧
      (userInput.lookup key = none → (options.tuning.get key).toFloat conv ≠ some .nan) := by
    intro key minimum maximum q hkey hq
    exact (stored_isNumber hvalid h hkey).mp (by rw [hq]; rfl)
  obtain ⟨worker, spool, -, hstart, hstop⟩ := haccepted
  obtain ⟨event, pending, dead, hevent, hpending, hdead, -, -, -⟩ := spool.bytes
  constructor
  · simp only [integerKeys, List.forall_mem_cons, List.not_mem_nil, false_imp_iff, implies_true,
      and_true]
    exact ⟨hint rfl ⟨_, worker.ingressQueueCapacity⟩, hint rfl ⟨_, worker.maxSerializedEventBytes⟩,
      hint rfl ⟨_, worker.persistBatchRows⟩, hint rfl ⟨_, worker.deliveryBatchRows⟩,
      hint rfl ⟨_, worker.deliveryBatchBytes⟩, hint rfl ⟨_, worker.minFreeBytes⟩,
      hint rfl ⟨_, spool.maxPendingRows⟩, hint rfl ⟨_, pending, le_rfl, hpending⟩,
      hint rfl ⟨_, spool.maxDeadLetterRows⟩, hint rfl ⟨_, dead, le_rfl, hdead⟩⟩
  · obtain ⟨_, hflush, -⟩ := worker.flushIntervalSeconds
    obtain ⟨_, hpoll, -⟩ := worker.persistIdlePollSeconds
    obtain ⟨_, _, hinitial, hmax, -⟩ := worker.retry
    obtain ⟨_, hmultiplier, -⟩ := worker.retryMultiplier
    obtain ⟨_, hjitter, -⟩ := worker.retryJitterRatio
    obtain ⟨_, hratio, -⟩ := worker.minFreeRatio
    obtain ⟨_, hbusy, -⟩ := spool.busyTimeoutSeconds
    obtain ⟨_, hstart, -⟩ := hstart
    obtain ⟨_, hstop, -⟩ := hstop
    simp only [numberKeys, List.forall_mem_cons, List.not_mem_nil, false_imp_iff, implies_true,
      and_true]
    exact ⟨hnumber rfl hflush, hnumber rfl hpoll, hnumber rfl hinitial, hnumber rfl hmax,
      hnumber rfl hmultiplier, hnumber rfl hjitter, hnumber rfl hratio, hnumber rfl hbusy,
      hnumber rfl hstart, hnumber rfl hstop⟩

/-- The value that the input gives is the one that is stored. -/
theorem stored_given
    (h : asyncStepAdvanced conv options filterOptions (some userInput) = some (.createEntry entry))
    {value : OptionValue} (hvalue : userInput.lookup key = some value) :
    entry.tuning.get key = value := by
  obtain ⟨defaults, -, -, -, rfl⟩ := asyncStepAdvanced_stores h
  simp only [EntryOptions.withTuning, Tuning.get, Tuning.update, List.lookup_append, hvalue]
  rfl

/-- **Which submissions store options that start.** Of an input that the step is called with and its
schema validates, exactly the usable ones; of an input that Home Assistant's form has validated, and
turned into floats, none. -/
theorem advanced_step_starts (conv : Conversions) (data : EntryData) (options entry : EntryOptions)
    (filterOptions : Option FilterOptions) (userInput : Tuning)
    (h : asyncStepAdvanced conv options filterOptions (some userInput) =
      some (.createEntry entry)) :
    ((advancedSchema conv options.tuning userInput).isSome = true →
      (Starts conv data entry.tuning ↔
        data.table ≠ [] ∧ Usable conv options.tuning userInput)) ∧
    ∀ shown raw, advancedSchema conv shown raw = some userInput →
      ¬ Starts conv data entry.tuning := by
  constructor
  · intro hvalid
    rw [starts_iff]
    refine and_congr_right fun _ => ⟨?_, ?_⟩
    · exact usable_of_optionsAccepted hvalid h
    · exact optionsAccepted_of_usable hvalid h
  · intro shown raw hform hstarts
    have hkey : OptionKey.ingressQueueCapacity.validator = some (.number 10 100000) := rfl
    obtain ⟨value, hvalue, hlookup⟩ := advancedSchema_lookup hform hkey
    obtain ⟨x, -, -, rfl⟩ := validate_number hvalue
    obtain ⟨n, -, hn⟩ := (starts_iff.mp hstarts).2.worker.ingressQueueCapacity
    cases (stored_given h hlookup).symm.trans hn

end

/-! ## Submissions of a new entry -/

/-- Python's conversions of the retention 0. -/
def zeroConversions : Conversions where
  floatOf _ := none
  intOf text := if text = py "0" then .ok 0 else .error (valueError (py "invalid literal"))
  strOf value := if value = .int 0 then py "0" else []

/-- A new entry. -/
def newEntry : EntryData where
  host := py "localhost"
  port := 9000
  table := py "hass"
  useTls := false
  tlsSelfSigned := false
  username := none
  password := none

/-- No options are stored. -/
def noOptions : EntryOptions where
  includeSide := none
  excludeSide := none
  attributeAllowlist := none
  attributeDenylist := none
  tuning := []

/-- The defaults of the integer options, as integers. -/
def integerDefaults : Tuning := integerKeys.map fun key => (key, key.provisional)

/-- Options are stored. -/
def AdvancedResult.isEntry : AdvancedResult → Bool
  | createEntry _ => true
  | form _ _ => false

theorem AdvancedResult.eq_createEntry {result : Option AdvancedResult}
    (h : result.any AdvancedResult.isEntry = true) :
    ∃ entry, result = some (.createEntry entry) := by
  obtain ⟨result, rfl, h⟩ := (Option.any_eq_true _ _).mp h
  cases result with
  | createEntry entry => exact ⟨entry, rfl⟩
  | form => cases h

/-- Integers given as integers start. -/
theorem integerDefaults_start : ∃ entry,
    asyncStepAdvanced zeroConversions noOptions none (some integerDefaults) =
      some (.createEntry entry) ∧ Starts zeroConversions newEntry entry.tuning := by
  obtain ⟨entry, h⟩ := AdvancedResult.eq_createEntry (show (asyncStepAdvanced zeroConversions
    noOptions none (some integerDefaults)).any AdvancedResult.isEntry = true by decide +kernel)
  have hvalid : (advancedSchema zeroConversions noOptions.tuning integerDefaults).isSome =
      true := by
    decide +kernel
  have husable : Usable zeroConversions noOptions.tuning integerDefaults := by
    constructor
    · intro key hkey
      have hlookup : ∀ key ∈ integerKeys, integerDefaults.lookup key = some key.provisional := by
        decide
      have hint : ∀ key ∈ integerKeys, ∃ n, key.provisional = .int n := by
        simp [integerKeys, OptionKey.provisional]
      obtain ⟨n, hn⟩ := hint key hkey
      exact ⟨n, (hlookup key hkey).trans (congrArg some hn)⟩
    · intro key hkey
      have hlookup : ∀ key ∈ numberKeys, integerDefaults.lookup key = none := by decide
      have hnan : ∀ key ∈ numberKeys,
          (Tuning.get noOptions.tuning key).toFloat zeroConversions ≠ some .nan := by decide +kernel
      refine ⟨fun value hvalue => ?_, fun _ => hnan key hkey⟩
      rw [hlookup key hkey] at hvalue
      cases hvalue
  exact ⟨entry, h, ((advanced_step_starts zeroConversions newEntry noOptions entry none
    integerDefaults h).1 hvalid).mpr ⟨by decide, husable⟩⟩

/-- **The advanced form of a new entry, submitted as it is shown, stores options that do not
start**, whether the step gets the empty input or what the form makes of it. -/
theorem advancedDefaults_fail :
    (¬ ∀ (conv : Conversions) (data : EntryData) (options entry : EntryOptions)
      (filterOptions : Option FilterOptions) (userInput : Tuning), data.table ≠ [] →
      (advancedSchema conv options.tuning userInput).isSome = true →
      asyncStepAdvanced conv options filterOptions (some userInput) = some (.createEntry entry) →
      Starts conv data entry.tuning) ∧
    ¬ ∀ (conv : Conversions) (data : EntryData) (options entry : EntryOptions)
      (filterOptions : Option FilterOptions) (raw userInput : Tuning), data.table ≠ [] →
      advancedSchema conv options.tuning raw = some userInput →
      asyncStepAdvanced conv options filterOptions (some userInput) = some (.createEntry entry) →
      Starts conv data entry.tuning := by
  have hfloat : ∀ {entry : EntryOptions}, (∀ n, entry.tuning.get .ingressQueueCapacity ≠ .int n) →
      ¬ Starts zeroConversions newEntry entry.tuning := by
    intro entry hint hstarts
    obtain ⟨n, -, hn⟩ := (starts_iff.mp hstarts).2.worker.ingressQueueCapacity
    exact hint n hn
  constructor
  · intro hall
    obtain ⟨entry, h⟩ := AdvancedResult.eq_createEntry (show (asyncStepAdvanced zeroConversions
      noOptions none (some [])).any AdvancedResult.isEntry = true by decide +kernel)
    have hvalid : (advancedSchema zeroConversions noOptions.tuning []).isSome = true := by
      decide +kernel
    refine hfloat (fun n hn => ?_) (hall _ _ _ _ _ _ (by decide) hvalid h)
    cases (stored_integer hvalid h rfl).mp hn
  · intro hall
    have hmade : ((advancedSchema zeroConversions noOptions.tuning []).any fun userInput =>
        (asyncStepAdvanced zeroConversions noOptions none (some userInput)).any
          AdvancedResult.isEntry) = true := by decide +kernel
    obtain ⟨userInput, hform, h⟩ := (Option.any_eq_true _ _).mp hmade
    obtain ⟨entry, h⟩ := AdvancedResult.eq_createEntry h
    obtain ⟨value, hvalue, hlookup⟩ := advancedSchema_lookup hform
      (show OptionKey.ingressQueueCapacity.validator = some (.number 10 100000) from rfl)
    obtain ⟨x, -, -, rfl⟩ := validate_number hvalue
    refine hfloat (fun n hn => ?_) (hall _ _ _ _ _ _ _ (by decide) hform h)
    cases (stored_given h hlookup).symm.trans hn

end QuestDbWriter
