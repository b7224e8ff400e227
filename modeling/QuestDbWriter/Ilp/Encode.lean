import QuestDbWriter.Python
import QuestDbWriter.Lib.Escape

/-!
# ILP encoding

`ilp.py`: one row of QuestDB's line protocol. Floats are a parameter of the model (`PyFloat`): the
encoder uses nothing of them but `repr` and `math.isfinite`.
-/

namespace QuestDbWriter

open Lib

/-- What the encoder uses of Python's `float`. -/
class PyFloat (F : Type) where
  repr : F → PyStr
  isFinite : F → Bool

/-- `FieldValue`; `other` is a value of a type that is none of them, by the type's name. -/
inductive FieldValue (F : Type) where
  | none
  | bool (b : Bool)
  /-- `IlpTimestampMicros`. -/
  | timestamp (value : Int)
  | int (value : Int)
  | float (value : F)
  | str (value : PyStr)
  | other (typeName : PyStr)

namespace Ilp

def encodingError (message : PyStr) : Exc := { type := .ilpEncodingError, message }

/-- `_require_name`. -/
def requireName (value : PyStr) (kind : String) : Except Exc Unit := do
  raiseUnless (value ≠ []) (encodingError (py kind ++ py " must be a non-empty string"))
  raiseUnless (ofChar '\x00' ∉ value) (encodingError (py kind ++ py " must not contain NUL"))

/-- The `replace` calls of `_escape_identifier`. -/
def replaceIdentifier (value : PyStr) : PyStr :=
  (Escape.replaceChar (ofChar '\r') (py "\\\r") <|
    Escape.replaceChar (ofChar '\n') (py "\\\n") <|
    Escape.replaceChar (ofChar '=') (py "\\=") <|
    Escape.replaceChar (ofChar ',') (py "\\,") <|
    Escape.replaceChar (ofChar ' ') (py "\\ ") <|
    Escape.replaceChar (ofChar '\\') (py "\\\\") value)

/-- `_escape_identifier`. -/
def escapeIdentifier (value : PyStr) (kind : String) : Except Exc PyStr := do
  requireName value kind
  pure (replaceIdentifier value)

/-- The `replace` calls of `_escape_string`. -/
def replaceString (value : PyStr) : PyStr :=
  (Escape.replaceChar (ofChar '\r') (py "\\\r") <|
    Escape.replaceChar (ofChar '\n') (py "\\\n") <|
    Escape.replaceChar (ofChar '"') (py "\\\"") <|
    Escape.replaceChar (ofChar '\\') (py "\\\\") value)

/-- `_escape_string`. -/
def escapeString (value : PyStr) : Except Exc PyStr := do
  raiseUnless (ofChar '\x00' ∉ value) (encodingError (py "string field must not contain NUL"))
  pure (replaceString value)

/-- The range of ILP's integers. -/
def InRange (n : Int) : Prop := -(2 ^ 63) < n ∧ n < 2 ^ 63

instance (n : Int) : Decidable (InRange n) := inferInstanceAs (Decidable (_ ∧ _))

variable {F : Type} [PyFloat F]

/-- `_encode_field`. -/
def encodeField : FieldValue F → Except Exc (Option PyStr)
  | .none => .ok none
  | .bool b => .ok (some (if b then py "true" else py "false"))
  | .timestamp n => do
      raiseUnless (InRange n)
        (encodingError (py "timestamp field is outside signed 64-bit range"))
      pure (some (intText n ++ py "t"))
  | .int n => do
      raiseUnless (InRange n) (encodingError (py "integer field is outside signed 64-bit range"))
      pure (some (intText n ++ py "i"))
  | .float x => do
      raiseUnless (PyFloat.isFinite x = true) (encodingError (py "float field must be finite"))
      pure (some (PyFloat.repr x))
  | .str s => do
      let text ← escapeString s
      pure (some (py "\"" ++ text ++ py "\""))
  | .other typeName => .error (encodingError (py "unsupported field type: " ++ typeName))

/-- `symbol_parts`, for the mapping in its order. -/
def symbolParts : List (PyStr × Option PyStr) → Except Exc (List PyStr)
  | [] => .ok []
  | (_, none) :: rest => symbolParts rest
  | (key, some value) :: rest => do
      let key ← escapeIdentifier key "symbol key"
      let value ← escapeIdentifier value "symbol value"
      let parts ← symbolParts rest
      pure ((key ++ py "=" ++ value) :: parts)

/-- `field_parts`, for the mapping in its order. -/
def fieldParts : List (PyStr × FieldValue F) → Except Exc (List PyStr)
  | [] => .ok []
  | (key, value) :: rest => do
      match ← encodeField value with
      | none => fieldParts rest
      | some encoded =>
        let key ← escapeIdentifier key "field key"
        let parts ← fieldParts rest
        pure ((key ++ py "=" ++ encoded) :: parts)

/-- `",".join(parts)`. -/
def joinCommas (parts : List PyStr) : PyStr := (py ",").intercalate parts

/-- The line that `encode_row` writes. -/
def lineText (measurement : PyStr) (symbolParts fieldParts : List PyStr) (timestamp : PyStr) :
    PyStr :=
  let symbolsText := if symbolParts ≠ [] then py "," ++ joinCommas symbolParts else []
  measurement ++ symbolsText ++ py " " ++ joinCommas fieldParts ++ py " " ++
    timestamp ++ py "\n"

/-- `encode_row`. -/
def encodeRow (table : PyStr) (symbols : List (PyStr × Option PyStr))
    (fields : List (PyStr × FieldValue F)) (timestampNs : Int) : Except Exc Bytes := do
  let measurement ← escapeIdentifier table "table"
  let symbolParts ← symbolParts symbols
  let fieldParts ← fieldParts fields
  raiseUnless (fieldParts ≠ []) (encodingError (py "at least one non-null field is required"))
  let timestamp ← formatInt timestampNs
  encodeUtf8 (lineText measurement symbolParts fieldParts timestamp)

end Ilp

end QuestDbWriter
