import QuestDbWriter.Worker.World
import QuestDbWriter.Json.Float

/-!
# The checks of the settings

The arguments of `WorkerSettings`, `SQLiteSpool` and `RuntimeConfiguration` as the options hold
them, and the checks that make the settings of the model out of them. Each class accepts its
arguments exactly where each of them is what it is to be (`WorkerArguments.Accepted`,
`SpoolArguments.Accepted`).
-/

namespace QuestDbWriter

open Json (PyDouble)

/-! ## Values -/

/-- What an option holds. Floats are exact rationals where they are finite. -/
inductive OptionValue where
  | int (n : Int)
  | float (x : PyDouble)
  | bool (b : Bool)
  | str (text : PyStr)
  /-- `None`, a list or a mapping, by its truth value. -/
  | other (truth : Bool)
deriving DecidableEq

namespace OptionValue

/-- The value of an `int` or a finite `float`; a `bool` is neither here. -/
def exact : OptionValue → Option ℚ
  | .int n => some n
  | .float (.finite q) => some q
  | _ => none

/-- The integers from here on are no float: they are rounded to 2 ** 1024. -/
def floatLimit : Nat := 2 ^ 1024 - 2 ^ 970

/-- An `int` that `math.isfinite` cannot turn into a float. -/
def Overflows : OptionValue → Prop
  | .int n => floatLimit ≤ n.natAbs
  | _ => False

instance (value : OptionValue) : Decidable value.Overflows :=
  match value with
  | .int n => inferInstanceAs (Decidable (floatLimit ≤ n.natAbs))
  | .float _ | .bool _ | .str _ | .other _ => isFalse id

/-- What `math.isfinite` finds to be finite. -/
def number (value : OptionValue) : Option ℚ := if value.Overflows then none else value.exact

/-- A value within the floats is its exact value. -/
theorem exact_of_number {value : OptionValue} {q : ℚ} (h : value.number = some q) :
    value.exact = some q := by
  unfold number at h
  split at h
  · cases h
  · exact h

/-- An integer that is at least `bound`. -/
def IsAtLeast (bound : Nat) (value : OptionValue) : Prop := ∃ n : Nat, bound ≤ n ∧ value = .int n

end OptionValue

/-! ## Checks -/

/-- A check that goes on with what it has checked. -/
def requireThat (p : Prop) [Decidable p] (message : PyStr) : Except Exc (PLift p) :=
  if h : p then .ok ⟨h⟩ else .error (valueError message)

/-- An integer that is at least `bound`. -/
def requireInteger (bound : Nat) (message : PyStr) :
    OptionValue → Except Exc { n : Nat // bound ≤ n }
  | .int (.ofNat n) => if h : bound ≤ n then .ok ⟨n, h⟩ else .error (valueError message)
  | _ => .error (valueError message)

/-- A positive integer. -/
def requirePositive (name : String) (value : OptionValue) : Except Exc { n : Nat // 0 < n } :=
  requireInteger 1 (py name ++ py " must be a positive integer") value

/-- A finite number. -/
def requireNumber (message : PyStr) (value : OptionValue) : Except Exc ℚ :=
  if value.Overflows then
    .error { type := .overflowError, message := py "int too large to convert to float" }
  else
    match value.exact with
    | some q => .ok q
    | none => .error (valueError message)

/-- A `bool`. -/
def requireBool (message : PyStr) : OptionValue → Except Exc Bool
  | .bool b => .ok b
  | _ => .error (valueError message)

/-- A positive and finite number. -/
def requireDuration (name : String) (value : OptionValue) : Except Exc { q : ℚ // 0 < q } := do
  let q ← requireNumber (py name ++ py " must be positive and finite") value
  let ⟨h⟩ ← requireThat (0 < q) (py name ++ py " must be positive and finite")
  pure ⟨q, h⟩

section
variable {α β : Type} {x : Except Exc α} {f : α → Except Exc β} {message : PyStr}
  {value : OptionValue}

/-- Two steps succeed where the first one does, and the second one behind it. -/
theorem bind_succeeds : (∃ b, x >>= f = .ok b) ↔ ∃ a, x = .ok a ∧ ∃ b, f a = .ok b := by
  constructor
  · rintro ⟨b, hb⟩
    obtain ⟨a, ha, hf⟩ := bind_ok.mp hb
    exact ⟨a, ha, b, hf⟩
  · rintro ⟨a, ha, b, hf⟩
    exact ⟨b, bind_ok.mpr ⟨a, ha, hf⟩⟩

/-- A check passes with its proof. -/
@[simp] theorem requireThat_ok {p : Prop} [Decidable p] {h : PLift p} :
    requireThat p message = .ok h ↔ p := by
  unfold requireThat
  split
  · next hp => exact ⟨fun _ => hp, fun _ => rfl⟩
  · next hp => exact ⟨nofun, fun hp' => absurd hp' hp⟩

/-- An integer at the bound or above. -/
@[simp] theorem requireInteger_ok {bound : Nat} {n : { n : Nat // bound ≤ n }} :
    requireInteger bound message value = .ok n ↔ value = .int n.1 := by
  obtain ⟨n, hn⟩ := n
  constructor
  · intro h
    unfold requireInteger at h
    split at h
    · split at h
      · cases h
        rfl
      · cases h
    · cases h
  · rintro rfl
    exact dif_pos hn

/-- An integer above zero. -/
@[simp] theorem requirePositive_ok {name : String} {n : { n : Nat // 0 < n }} :
    requirePositive name value = .ok n ↔ value = .int n.1 :=
  requireInteger_ok

/-- A number within the floats. -/
@[simp] theorem requireNumber_ok {q : ℚ} :
    requireNumber message value = .ok q ↔ value.number = some q := by
  unfold requireNumber OptionValue.number
  split
  · simp
  · split
    · next p hp => rw [hp, Except.ok.injEq, Option.some.injEq]
    · next hp => simp [hp]

/-- A Boolean. -/
@[simp] theorem requireBool_ok {b : Bool} :
    requireBool message value = .ok b ↔ value = .bool b := by
  cases value <;> simp [requireBool]

end

/-! ## WorkerSettings -/

/-- The arguments of `WorkerSettings`. -/
structure WorkerArguments where
  ingressQueueCapacity : OptionValue
  maxSerializedEventBytes : OptionValue
  persistBatchRows : OptionValue
  deliveryBatchRows : OptionValue
  deliveryBatchBytes : OptionValue
  flushIntervalSeconds : OptionValue
  persistIdlePollSeconds : OptionValue
  retryInitialSeconds : OptionValue
  retryMaxSeconds : OptionValue
  retryMultiplier : OptionValue
  retryJitterRatio : OptionValue
  flushOnShutdown : OptionValue
  minFreeBytes : OptionValue
  minFreeRatio : OptionValue

/-- `validate_free_space_settings`. -/
def validateFreeSpaceSettings (minFreeBytes minFreeRatio : OptionValue) :
    Except Exc (Nat × { q : ℚ // 0 ≤ q ∧ q < 1 }) := do
  let bytes ← requireInteger 0 (py "min_free_bytes must be a non-negative integer") minFreeBytes
  let ratio ← requireNumber (py "min_free_ratio must be finite and in [0, 1)") minFreeRatio
  let ⟨hratio⟩ ← requireThat (0 ≤ ratio ∧ ratio < 1)
    (py "min_free_ratio must be finite and in [0, 1)")
  pure (bytes.1, ⟨ratio, hratio⟩)

/-- A number that only has to be finite. -/
def requireFinite (name : String) (value : OptionValue) : Except Exc ℚ :=
  requireNumber (py name ++ py " must be finite") value

/-- `WorkerSettings.__post_init__`. -/
def WorkerSettings.ofArguments (a : WorkerArguments) : Except Exc WorkerSettings := do
  let ingressQueueCapacity ← requirePositive "ingress_queue_capacity" a.ingressQueueCapacity
  let maxSerializedEventBytes ←
    requirePositive "max_serialized_event_bytes" a.maxSerializedEventBytes
  let persistBatchRows ← requirePositive "persist_batch_rows" a.persistBatchRows
  let deliveryBatchRows ← requirePositive "delivery_batch_rows" a.deliveryBatchRows
  let deliveryBatchBytes ← requirePositive "delivery_batch_bytes" a.deliveryBatchBytes
  let flushIntervalSeconds ← requireFinite "flush_interval_seconds" a.flushIntervalSeconds
  let persistIdlePollSeconds ← requireFinite "persist_idle_poll_seconds" a.persistIdlePollSeconds
  let retryInitialSeconds ← requireFinite "retry_initial_seconds" a.retryInitialSeconds
  let retryMaxSeconds ← requireFinite "retry_max_seconds" a.retryMaxSeconds
  let retryMultiplier ← requireFinite "retry_multiplier" a.retryMultiplier
  let retryJitterRatio ← requireFinite "retry_jitter_ratio" a.retryJitterRatio
  let ⟨flushInterval_pos⟩ ← requireThat (0 < flushIntervalSeconds)
    (py "flush_interval_seconds must be positive")
  let ⟨persistIdlePoll_pos⟩ ← requireThat (0 < persistIdlePollSeconds)
    (py "persist_idle_poll_seconds must be positive")
  let reserve ← validateFreeSpaceSettings a.minFreeBytes a.minFreeRatio
  let ⟨retryInitial_pos⟩ ← requireThat (0 < retryInitialSeconds)
    (py "retry_initial_seconds must be positive")
  let ⟨retryMax_ge⟩ ← requireThat (retryInitialSeconds ≤ retryMaxSeconds)
    (py "retry_max_seconds must not be below retry_initial_seconds")
  let ⟨retryMultiplier_ge⟩ ← requireThat (1 ≤ retryMultiplier)
    (py "retry_multiplier must be at least 1")
  let ⟨retryJitter_range⟩ ← requireThat (0 ≤ retryJitterRatio ∧ retryJitterRatio ≤ 1)
    (py "retry_jitter_ratio must be between 0 and 1")
  let flushOnShutdown ← requireBool (py "flush_on_shutdown must be a boolean") a.flushOnShutdown
  pure
    { ingressQueueCapacity := ingressQueueCapacity.1
      maxSerializedEventBytes := maxSerializedEventBytes.1
      persistBatchRows := persistBatchRows.1
      deliveryBatchRows := deliveryBatchRows.1
      deliveryBatchBytes := deliveryBatchBytes.1
      flushIntervalSeconds
      persistIdlePollSeconds
      retryInitialSeconds
      retryMaxSeconds
      retryMultiplier
      retryJitterRatio
      flushOnShutdown
      minFreeBytes := reserve.1
      minFreeRatio := reserve.2.1
      ingressQueueCapacity_pos := ingressQueueCapacity.2
      maxSerializedEventBytes_pos := maxSerializedEventBytes.2
      persistBatchRows_pos := persistBatchRows.2
      deliveryBatchRows_pos := deliveryBatchRows.2
      deliveryBatchBytes_pos := deliveryBatchBytes.2
      flushIntervalSeconds_pos := flushInterval_pos
      persistIdlePollSeconds_pos := persistIdlePoll_pos
      minFreeRatio_range := reserve.2.2
      retryInitialSeconds_pos := retryInitial_pos
      retryMaxSeconds_ge := retryMax_ge
      retryMultiplier_ge := retryMultiplier_ge
      retryJitterRatio_range := retryJitter_range }

/-- Every argument is what `WorkerSettings` asks for. -/
structure WorkerArguments.Accepted (a : WorkerArguments) : Prop where
  ingressQueueCapacity : a.ingressQueueCapacity.IsAtLeast 1
  maxSerializedEventBytes : a.maxSerializedEventBytes.IsAtLeast 1
  persistBatchRows : a.persistBatchRows.IsAtLeast 1
  deliveryBatchRows : a.deliveryBatchRows.IsAtLeast 1
  deliveryBatchBytes : a.deliveryBatchBytes.IsAtLeast 1
  flushIntervalSeconds : ∃ q, a.flushIntervalSeconds.number = some q ∧ 0 < q
  persistIdlePollSeconds : ∃ q, a.persistIdlePollSeconds.number = some q ∧ 0 < q
  retry : ∃ initial max, a.retryInitialSeconds.number = some initial ∧
    a.retryMaxSeconds.number = some max ∧ 0 < initial ∧ initial ≤ max
  retryMultiplier : ∃ q, a.retryMultiplier.number = some q ∧ 1 ≤ q
  retryJitterRatio : ∃ q, a.retryJitterRatio.number = some q ∧ 0 ≤ q ∧ q ≤ 1
  flushOnShutdown : ∃ b, a.flushOnShutdown = .bool b
  minFreeBytes : a.minFreeBytes.IsAtLeast 0
  minFreeRatio : ∃ q, a.minFreeRatio.number = some q ∧ 0 ≤ q ∧ q < 1

/-- **`WorkerSettings` accepts its arguments exactly where each is what it is to be.** -/
theorem WorkerSettings.ofArguments_succeeds {a : WorkerArguments} :
    (∃ settings, WorkerSettings.ofArguments a = .ok settings) ↔ a.Accepted := by
  unfold WorkerSettings.ofArguments validateFreeSpaceSettings requireFinite
  simp only [bind_succeeds, bind_assoc, pure_bind, requirePositive_ok, requireInteger_ok,
    requireNumber_ok, requireThat_ok, requireBool_ok]
  constructor
  · rintro ⟨capacity, h1, event, h2, persist, h3, rows, h4, bytes, h5, flush, h6, poll, h7, initial,
      h8, max, h9, multiplier, h10, jitter, h11, ⟨h12⟩, -, ⟨h13⟩, -, free, h14, ratio, h15,
      ⟨h16⟩, -, ⟨h17⟩, -, ⟨h18⟩, -, ⟨h19⟩, -, ⟨h20⟩, -, flushed, h21, -⟩
    exact ⟨⟨_, capacity.2, h1⟩, ⟨_, event.2, h2⟩, ⟨_, persist.2, h3⟩, ⟨_, rows.2, h4⟩,
      ⟨_, bytes.2, h5⟩, ⟨_, h6, h12⟩, ⟨_, h7, h13⟩, ⟨_, _, h8, h9, h17, h18⟩, ⟨_, h10, h19⟩,
      ⟨_, h11, h20⟩, ⟨_, h21⟩, ⟨_, free.2, h14⟩, ⟨_, h15, h16⟩⟩
  · rintro ⟨⟨_, k1, h1⟩, ⟨_, k2, h2⟩, ⟨_, k3, h3⟩, ⟨_, k4, h4⟩, ⟨_, k5, h5⟩, ⟨_, h6, h12⟩,
      ⟨_, h7, h13⟩, ⟨_, _, h8, h9, h17, h18⟩, ⟨_, h10, h19⟩, ⟨_, h11, h20⟩, ⟨_, h21⟩, ⟨_, k14, h14⟩,
      ⟨_, h15, h16⟩⟩
    exact ⟨⟨_, k1⟩, h1, ⟨_, k2⟩, h2, ⟨_, k3⟩, h3, ⟨_, k4⟩, h4, ⟨_, k5⟩, h5, _, h6, _, h7,
      _, h8, _, h9, _, h10, _, h11, ⟨h12⟩, h12, ⟨h13⟩, h13, ⟨_, k14⟩, h14, _, h15, ⟨h16⟩, h16,
      ⟨h17⟩, h17, ⟨h18⟩, h18, ⟨h19⟩, h19, ⟨h20⟩, h20, _, h21, _, rfl⟩

/-! ## SQLiteSpool -/

/-- `SpoolConfiguration`, without its path: the arguments of `SQLiteSpool`. -/
structure SpoolArguments where
  maxPendingRows : OptionValue
  maxPendingBytes : OptionValue
  maxEventBytes : OptionValue
  maxDeadLetterRows : OptionValue
  maxDeadLetterBytes : OptionValue
  busyTimeoutSeconds : OptionValue

/-- The checks of `SQLiteSpool.__init__` on its arguments. -/
def SpoolLimits.ofArguments (a : SpoolArguments) : Except Exc SpoolLimits := do
  let maxPendingRows ← requirePositive "max_pending_rows" a.maxPendingRows
  let maxPendingBytes ← requirePositive "max_pending_bytes" a.maxPendingBytes
  let maxEventBytes ← requirePositive "max_event_bytes" a.maxEventBytes
  let maxDeadLetterRows ← requirePositive "max_dead_letter_rows" a.maxDeadLetterRows
  let maxDeadLetterBytes ← requirePositive "max_dead_letter_bytes" a.maxDeadLetterBytes
  let ⟨event_le_pending⟩ ← requireThat (maxEventBytes.1 ≤ maxPendingBytes.1)
    (py "max_event_bytes must not exceed max_pending_bytes")
  let ⟨event_le_deadLetter⟩ ← requireThat (maxEventBytes.1 ≤ maxDeadLetterBytes.1)
    (py "max_event_bytes must not exceed max_dead_letter_bytes")
  let _ ← requireDuration "busy_timeout_seconds" a.busyTimeoutSeconds
  pure
    { maxPendingRows := maxPendingRows.1
      maxPendingBytes := maxPendingBytes.1
      maxEventBytes := maxEventBytes.1
      maxDeadLetterRows := maxDeadLetterRows.1
      maxDeadLetterBytes := maxDeadLetterBytes.1
      pendingRows_pos := maxPendingRows.2
      pendingBytes_pos := maxPendingBytes.2
      eventBytes_pos := maxEventBytes.2
      deadLetterRows_pos := maxDeadLetterRows.2
      deadLetterBytes_pos := maxDeadLetterBytes.2
      event_le_pending
      event_le_deadLetter }

/-- Every argument is what `SQLiteSpool` asks for. -/
structure SpoolArguments.Accepted (a : SpoolArguments) : Prop where
  maxPendingRows : a.maxPendingRows.IsAtLeast 1
  bytes : ∃ event pending dead : Nat, a.maxEventBytes = .int event ∧
    a.maxPendingBytes = .int pending ∧ a.maxDeadLetterBytes = .int dead ∧ 1 ≤ event ∧
    event ≤ pending ∧ event ≤ dead
  maxDeadLetterRows : a.maxDeadLetterRows.IsAtLeast 1
  busyTimeoutSeconds : ∃ q, a.busyTimeoutSeconds.number = some q ∧ 0 < q

/-- **`SQLiteSpool` accepts its arguments exactly where each is what it is to be.** -/
theorem SpoolLimits.ofArguments_succeeds {a : SpoolArguments} :
    (∃ limits, SpoolLimits.ofArguments a = .ok limits) ↔ a.Accepted := by
  unfold SpoolLimits.ofArguments requireDuration
  simp only [bind_succeeds, bind_assoc, pure_bind, requirePositive_ok, requireNumber_ok,
    requireThat_ok]
  constructor
  · rintro ⟨rows, h1, pending, h2, event, h3, deadRows, h4, dead, h5, ⟨h6⟩, -, ⟨h7⟩, -,
      busy, h8, ⟨h9⟩, -, -⟩
    exact ⟨⟨_, rows.2, h1⟩, ⟨_, _, _, h3, h2, h5, event.2, h6, h7⟩, ⟨_, deadRows.2, h4⟩,
      ⟨_, h8, h9⟩⟩
  · rintro ⟨⟨_, k1, h1⟩, ⟨_, _, _, h3, h2, h5, k3, h6, h7⟩, ⟨_, k4, h4⟩, ⟨_, h8, h9⟩⟩
    exact ⟨⟨_, k1⟩, h1, ⟨_, k3.trans h6⟩, h2, ⟨_, k3⟩, h3, ⟨_, k4⟩, h4, ⟨_, k3.trans h7⟩, h5,
      ⟨h6⟩, h6, ⟨h7⟩, h7, _, h8, ⟨h9⟩, h9, _, rfl⟩

end QuestDbWriter
