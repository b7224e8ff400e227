import QuestDbWriter.Worker.Shared

/-!
# The backoff law

`_Backoff` over every interleaving of its calls. The base of a `next_delay` is the geometric
sequence since the last `reset`, capped at the maximum, and the delay is that base within its
jitter. The capped multiplication is a fact about every ordered field (`capped_mul`): a
multiplication that starts from a capped value and is capped again forgets the first cap.
-/

namespace QuestDbWriter

/-- A cap on the factor of a capped product does nothing. -/
theorem capped_mul {α : Type} [Field α] [LinearOrder α] [IsStrictOrderedRing α] {cap x m : α}
    (hcap : 0 ≤ cap) (hm : 1 ≤ m) : min cap (min cap x * m) = min cap (x * m) := by
  rcases le_total cap x with h | h
  · have hcm : cap ≤ cap * m := le_mul_of_one_le_right hcap hm
    have hxm : cap * m ≤ x * m := mul_le_mul_of_nonneg_right h (zero_le_one.trans hm)
    rw [min_eq_left h, min_eq_left hcm, min_eq_left (hcm.trans hxm)]
  · rw [min_eq_right h]

namespace Backoff

/-! ## Calls -/

/-- A call of `_Backoff`. -/
inductive Call where
  | reset
  | nextDelay (unit : RandomUnit)

/-- The backoff after a call. -/
def call (settings : WorkerSettings) (b : Backoff) : Call → Backoff
  | .reset => .initial settings
  | .nextDelay unit => (b.nextDelay settings unit).2

/-- The backoff after some calls, in their order. -/
def after (settings : WorkerSettings) (calls : List Call) : Backoff :=
  calls.foldl (call settings) (.initial settings)

/-- The number of `next_delay` calls behind the last `reset`. -/
def sinceReset (calls : List Call) : Nat :=
  calls.foldl (fun n c => match c with | .reset => 0 | .nextDelay _ => n + 1) 0

/-- The delay of the `next_delay` that follows some calls. -/
def delayAfter (settings : WorkerSettings) (calls : List Call) (unit : RandomUnit) : ℚ :=
  ((after settings calls).nextDelay settings unit).1

section
variable (settings : WorkerSettings) (calls : List Call) (unit : RandomUnit)

/-- No call has been made. -/
@[simp] theorem sinceReset_nil : sinceReset [] = 0 := rfl

/-- No call has been made. -/
@[simp] theorem after_nil : after settings [] = .initial settings := rfl

/-- `reset` goes back to the start. -/
@[simp] theorem after_append_reset :
    after settings (calls ++ [.reset]) = .initial settings := by
  simp [after, call]

/-- `next_delay` moves the backoff on. -/
@[simp] theorem after_append_nextDelay :
    after settings (calls ++ [.nextDelay unit]) =
      ((after settings calls).nextDelay settings unit).2 := by
  simp [after, call]

/-- `reset` forgets the calls before it. -/
@[simp] theorem sinceReset_append_reset : sinceReset (calls ++ [.reset]) = 0 := by
  simp [sinceReset]

/-- `next_delay` is one more call. -/
@[simp] theorem sinceReset_append_nextDelay :
    sinceReset (calls ++ [.nextDelay unit]) = sinceReset calls + 1 := by
  simp [sinceReset]

/-- Every further `next_delay` counts. -/
theorem sinceReset_append_nextDelays (units : List RandomUnit) :
    sinceReset (calls ++ units.map .nextDelay) = sinceReset calls + units.length := by
  induction units generalizing calls with
  | nil => simp
  | cons u units ih =>
    have hcons : calls ++ (u :: units).map Call.nextDelay =
        (calls ++ [.nextDelay u]) ++ units.map .nextDelay := by simp
    rw [hcons, ih, sinceReset_append_nextDelay, List.length_cons]
    omega

/-! ## The base -/

/-- The base of the `n`-th `next_delay` since a reset. -/
def baseAt (n : Nat) : ℚ :=
  min settings.retryMaxSeconds (settings.retryInitialSeconds * settings.retryMultiplier ^ n)

/-- The longest delay is positive. -/
theorem retryMax_pos : 0 < settings.retryMaxSeconds :=
  settings.retryInitialSeconds_pos.trans_le settings.retryMaxSeconds_ge

/-- The first base is the initial delay. -/
theorem baseAt_zero : baseAt settings 0 = settings.retryInitialSeconds := by
  simp [baseAt, settings.retryMaxSeconds_ge]

/-- The capped multiplication of `next_delay` moves on to the next base. -/
theorem baseAt_succ (n : Nat) :
    baseAt settings (n + 1) =
      min settings.retryMaxSeconds (baseAt settings n * settings.retryMultiplier) := by
  unfold baseAt
  rw [capped_mul (retryMax_pos settings).le settings.retryMultiplier_ge, pow_succ, mul_assoc]

/-- Every base is positive. -/
theorem baseAt_pos (n : Nat) : 0 < baseAt settings n := by
  have hpow : 0 < settings.retryMultiplier ^ n :=
    pow_pos (zero_lt_one.trans_le settings.retryMultiplier_ge) n
  exact lt_min (retryMax_pos settings) (mul_pos settings.retryInitialSeconds_pos hpow)

/-- No base is above the longest delay. -/
theorem baseAt_le_max (n : Nat) : baseAt settings n ≤ settings.retryMaxSeconds :=
  min_le_left _ _

/-- The bases do not decrease. -/
theorem baseAt_monotone : Monotone (baseAt settings) := by
  intro m n hmn
  have hpow : settings.retryMultiplier ^ m ≤ settings.retryMultiplier ^ n :=
    pow_le_pow_right₀ settings.retryMultiplier_ge hmn
  exact min_le_min_left _ (mul_le_mul_of_nonneg_left hpow settings.retryInitialSeconds_pos.le)

/-- The base after some calls, by induction on them from the last one. -/
theorem after_base : (after settings calls).base = baseAt settings (sinceReset calls) := by
  induction calls using List.reverseRecOn with
  | nil => simp [initial, baseAt_zero]
  | append_singleton calls c ih =>
    cases c with
    | reset => simp [initial, baseAt_zero]
    | nextDelay unit =>
      rw [after_append_nextDelay, sinceReset_append_nextDelay, baseAt_succ, ← ih]
      rfl

/-! ## The delay -/

/-- The factor of a random value. -/
def jitterFactor : ℚ := 1 + settings.retryJitterRatio * (2 * unit.value - 1)

/-- The jitter takes no more than its ratio away. -/
theorem jitterFactor_ge : 1 - settings.retryJitterRatio ≤ jitterFactor settings unit := by
  have h : 0 ≤ settings.retryJitterRatio * unit.value :=
    mul_nonneg settings.retryJitterRatio_range.1 unit.range.1
  unfold jitterFactor
  linarith

/-- The jitter adds no more than its ratio. -/
theorem jitterFactor_le : jitterFactor settings unit ≤ 1 + settings.retryJitterRatio := by
  have h : settings.retryJitterRatio * unit.value ≤ settings.retryJitterRatio * 1 :=
    mul_le_mul_of_nonneg_left unit.range.2 settings.retryJitterRatio_range.1
  unfold jitterFactor
  linarith

/-- The jitter makes no delay negative. -/
theorem jitterFactor_nonneg : 0 ≤ jitterFactor settings unit :=
  (sub_nonneg.mpr settings.retryJitterRatio_range.2).trans (jitterFactor_ge settings unit)

/-- The outer `max` of `next_delay` never acts: the delay is the jittered base under the cap. -/
theorem delayAfter_eq :
    delayAfter settings calls unit = min settings.retryMaxSeconds
      (baseAt settings (sinceReset calls) * jitterFactor settings unit) := by
  have hnonneg : 0 ≤ min settings.retryMaxSeconds
      (baseAt settings (sinceReset calls) * jitterFactor settings unit) :=
    le_min (retryMax_pos settings).le
      (mul_nonneg (baseAt_pos settings _).le (jitterFactor_nonneg settings unit))
  unfold delayAfter nextDelay
  rw [after_base]
  exact max_eq_right hnonneg

/-- **The backoff law.** After any calls, the base of the next delay is the capped geometric
sequence since the last reset, the delay is within its jitter and the maximum, and a later delay
with the same random value is not shorter until the next reset. -/
theorem backoff_law (settings : WorkerSettings) (calls : List Call) (unit : RandomUnit) :
    let base := (after settings calls).base
    let delay := delayAfter settings calls unit
    base = min settings.retryMaxSeconds
        (settings.retryInitialSeconds * settings.retryMultiplier ^ sinceReset calls) ∧
      base * (1 - settings.retryJitterRatio) ≤ delay ∧
      delay ≤ min settings.retryMaxSeconds (base * (1 + settings.retryJitterRatio)) ∧
      ∀ units : List RandomUnit,
        delay ≤ delayAfter settings (calls ++ (unit :: units).map .nextDelay) unit := by
  intro base delay
  have hbase : base = baseAt settings (sinceReset calls) := after_base settings calls
  have hdelay : delay = min settings.retryMaxSeconds (base * jitterFactor settings unit) :=
    hbase ▸ delayAfter_eq settings calls unit
  have hpos : 0 < base := hbase ▸ baseAt_pos settings _
  refine ⟨hbase, ?_, ?_, ?_⟩
  · have hle_base : base * (1 - settings.retryJitterRatio) ≤ base :=
      mul_le_of_le_one_right hpos.le (by linarith [settings.retryJitterRatio_range.1])
    have hle_max : base ≤ settings.retryMaxSeconds := hbase ▸ baseAt_le_max settings _
    rw [hdelay]
    exact le_min (hle_base.trans hle_max)
      (mul_le_mul_of_nonneg_left (jitterFactor_ge settings unit) hpos.le)
  · rw [hdelay]
    exact min_le_min_left _ (mul_le_mul_of_nonneg_left (jitterFactor_le settings unit) hpos.le)
  · intro units
    have hbases : base ≤ baseAt settings
        (sinceReset (calls ++ (unit :: units).map .nextDelay)) := by
      rw [hbase, sinceReset_append_nextDelays]
      exact baseAt_monotone settings (Nat.le_add_right _ _)
    rw [hdelay, delayAfter_eq]
    exact min_le_min_left _ (mul_le_mul_of_nonneg_right hbases (jitterFactor_nonneg settings unit))

end

end Backoff

end QuestDbWriter
