import QuestDbWriter.Json.Scan

/-!
# The floats of json.loads

The float that a JSON literal is read as: the binary64 value nearest to it, an infinity where that
is beyond the largest one, and how `bool()` and `int()` take the values of a document.
-/

namespace QuestDbWriter

open Lib

namespace Json

/-- A Python `float`. Both zeros are `finite 0`. -/
inductive PyDouble where
  | nan
  | infinity (negative : Bool)
  | finite (q : ℚ)
deriving DecidableEq

/-- The distance of the binary64 values around a positive number. -/
def quantum (q : ℚ) : ℚ := 2 ^ max (Int.log 2 q - 52) (-1074)

/-- The nearest integer, and the even one of two. -/
def roundHalfEven (q : ℚ) : ℤ :=
  let below := ⌊q⌋
  if q - below < 1 / 2 then below
  else if 1 / 2 < q - below then below + 1
  else if below % 2 = 0 then below
  else below + 1

/-- The binary64 value nearest to a rational number. -/
def nearestDouble (q : ℚ) : PyDouble :=
  let magnitude := roundHalfEven (|q| / quantum |q|) * quantum |q|
  if 2 ^ 1024 ≤ magnitude then .infinity (decide (q < 0))
  else .finite (if q < 0 then -magnitude else magnitude)

/-- `float(literal)`. -/
def FloatLiteral.double : FloatLiteral → PyDouble
  | .nan => .nan
  | .infinity negative => .infinity negative
  | .decimal mantissa exponent => nearestDouble (mantissa * 10 ^ exponent)

example : nearestDouble (1 / 10) = .finite (3602879701896397 / 2 ^ 55) := by decide +kernel

example : (FloatLiteral.decimal 1 400).double = .infinity false := by decide +kernel

/-- `bool(value)`. -/
def Value.truth : Value → Bool
  | .null => false
  | .bool b => b
  | .int n => decide (n ≠ 0)
  | .float x => decide (x.double ≠ .finite 0)
  | .str s => decide (s ≠ [])
  | .array elements => !elements.isEmpty
  | .object members => !members.isEmpty

/-- `int(x)` of a float: towards zero. -/
def PyDouble.toInt : PyDouble → Except Exc Int
  | .nan =>
    .error { type := .valueError, message := py "cannot convert float NaN to integer" }
  | .infinity _ =>
    .error { type := .overflowError, message := py "cannot convert float infinity to integer" }
  | .finite q => .ok (q.num.tdiv q.den)

end Json

end QuestDbWriter
