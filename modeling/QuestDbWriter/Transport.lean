import QuestDbWriter.Json.Scan
import QuestDbWriter.Ilp.Total

/-!
# The QuestDB transport

The classified errors of `transport.py`, and `IlpHttpTransport.exec_query` and `send_batch`: one
request and what its reply, or the lack of one, is turned into. `Reply.document_caught` says which
exceptions can come out of the first, and `rejection_encodable` that what a server says can be
stored.

A request is its query and the reply to it. The connection that carries them is kept in
`HttpConnection`, where no call is answered by the reply to one before.
-/

namespace QuestDbWriter

open Lib

/-- The classes of `IlpTransportError`. -/
inductive IlpErrorKind where
  | authentication
  | permanent
  | retryable
  | transport
deriving DecidableEq

/-- An `IlpTransportError`: `AuthenticationIlpError` is a `PermanentIlpError`. -/
structure IlpError where
  kind : IlpErrorKind
  message : PyStr
  statusCode : Option Nat
  deliveryUncertain : Bool
deriving DecidableEq

/-- `type(error).__name__`. -/
def IlpErrorKind.typeName : IlpErrorKind → String
  | authentication => "AuthenticationIlpError"
  | permanent => "PermanentIlpError"
  | retryable => "RetryableIlpError"
  | transport => "IlpTransportError"

/-- `isinstance(error, PermanentIlpError)`. -/
def IlpError.isPermanent (e : IlpError) : Bool :=
  match e.kind with
  | .authentication | .permanent => true
  | .retryable | .transport => false

/-- An exception of a call to QuestDB, by the classes that its callers tell apart. -/
inductive CallError where
  | ilp (e : IlpError)
  /-- A `SchemaMismatchError`, or another `SchemaError`. -/
  | schema (mismatch : Bool) (message : PyStr)
  | other (e : Exc)
deriving DecidableEq

/-! ## Text of the server -/

/-- The decoder with `errors="replace"` between bytes: the continuation bytes still owed, the value
so far, and the range that the next byte has to be in. -/
structure ReplaceState where
  owed : Nat
  value : Nat
  low : Nat
  high : Nat

/-- Between two characters. -/
def ReplaceState.start : ReplaceState := ⟨0, 0, 0, 0⟩

/-- What replaces bytes that are no character. -/
def replacement : CodePoint := ofChar '\uFFFD'

/-- The first byte of a character: what it writes, and what has to follow. -/
def leadByte (b : Nat) : PyStr × ReplaceState :=
  if b < 0x80 then ([Json.codePoint b], .start)
  else if 0xC2 ≤ b ∧ b < 0xE0 then ([], ⟨1, b - 0xC0, 0x80, 0xBF⟩)
  else if b = 0xE0 then ([], ⟨2, 0, 0xA0, 0xBF⟩)
  else if b = 0xED then ([], ⟨2, 0xD, 0x80, 0x9F⟩)
  else if 0xE1 ≤ b ∧ b < 0xF0 then ([], ⟨2, b - 0xE0, 0x80, 0xBF⟩)
  else if b = 0xF0 then ([], ⟨3, 0, 0x90, 0xBF⟩)
  else if 0xF1 ≤ b ∧ b < 0xF4 then ([], ⟨3, b - 0xF0, 0x80, 0xBF⟩)
  else if b = 0xF4 then ([], ⟨3, 4, 0x80, 0x8F⟩)
  else ([replacement], .start)

/-- A byte cuts a character short: the character is replaced, and the byte is a first one. -/
def decodeReplaceFrom (state : ReplaceState) : Bytes → PyStr
  | [] => if state.owed = 0 then [] else [replacement]
  | b :: bs =>
    let b := b.toNat
    if state.owed = 0 then (leadByte b).1 ++ decodeReplaceFrom (leadByte b).2 bs
    else if state.low ≤ b ∧ b ≤ state.high then
      let value := state.value * 64 + (b - 0x80)
      if state.owed = 1 then Json.codePoint value :: decodeReplaceFrom .start bs
      else decodeReplaceFrom ⟨state.owed - 1, value, 0x80, 0xBF⟩ bs
    else replacement :: ((leadByte b).1 ++ decodeReplaceFrom (leadByte b).2 bs)

/-- `body.decode("utf-8", errors="replace")`. -/
def decodeReplace (body : Bytes) : PyStr := decodeReplaceFrom .start body

/-- `c.isspace()`. -/
def isWhitespace (c : CodePoint) : Bool :=
  decide (9 ≤ c.val ∧ c.val ≤ 13 ∨ 28 ≤ c.val ∧ c.val ≤ 32 ∨ 0x2000 ≤ c.val ∧ c.val ≤ 0x200A) ||
    [0x85, 0xA0, 0x1680, 0x2028, 0x2029, 0x202F, 0x205F, 0x3000].contains c.val

/-- `text.strip()`. -/
def strip (s : PyStr) : PyStr := (s.dropWhile isWhitespace).rdropWhile isWhitespace

/-! ## exec_query -/

/-- What comes back for a request: one response at most. The interim ones of a server (status 102 or
103), which `http.client` hands out like a final one, are not covered. -/
inductive Reply where
  /-- An `OSError`, a `TimeoutError` or an `HTTPException`, by its class. -/
  | failed (exception : String)
  | response (status : Nat) (body : Bytes)

/-- The members of a JSON document. -/
abbrev Document := List (PyStr × Json.Value)

/-- `MAX_ERROR_BODY_BYTES`. -/
def maxErrorBodyBytes : Nat := 16 * 1024

/-- The error of a network failure. -/
def networkError (exception : String) : IlpError where
  kind := .retryable
  message := py "QuestDB exec request failed: " ++ py exception
  statusCode := none
  deliveryUncertain := false

/-- The error of a status outside 2xx. -/
def statusError (status : Nat) (body : Bytes) : IlpError :=
  let detail := strip (decodeReplace (body.take maxErrorBodyBytes))
  let message := py "QuestDB exec returned HTTP " ++ natText status
  { kind :=
      if status = 401 ∨ status = 403 then .authentication
      else if status = 408 ∨ status = 425 ∨ status = 429 then .retryable
      else if 500 ≤ status ∧ status < 600 then .retryable
      else .permanent
    message := if detail = [] then message else message ++ py ": " ++ detail
    statusCode := some status
    deliveryUncertain := false }

/-- The error of a 2xx reply that is no JSON object. -/
def documentError (text : String) : IlpError where
  kind := .permanent
  message := py text
  statusCode := none
  deliveryUncertain := false

/-- The JSON object of a 2xx reply, of which no more than `MAX_ERROR_BODY_BYTES + 1` bytes are
read. -/
def readDocument (interpreter : Interpreter) (body : Bytes) : Except CallError Document :=
  match Utf8.decode (body.take (maxErrorBodyBytes + 1)) with
  | none => .error (.ilp (documentError "QuestDB exec returned an invalid JSON response"))
  | some text =>
    match interpreter.loads text with
    | .error e => .error (.other e)
    | .ok none => .error (.ilp (documentError "QuestDB exec returned an invalid JSON response"))
    | .ok (some (.object members)) => .ok members
    | .ok (some _) =>
      .error (.ilp (documentError "QuestDB exec returned a non-object JSON response"))

/-- `_exec_query_on_current_connection`. -/
def Reply.document (interpreter : Interpreter) : Reply → Except CallError Document
  | .failed exception => .error (.ilp (networkError exception))
  | .response status body =>
    if 200 ≤ status ∧ status < 300 then readDocument interpreter body
    else .error (.ilp (statusError status body))

/-- `exec_query` with `retries=0`. -/
def execQuery (interpreter : Interpreter) (query : PyStr) (reply : Reply) :
    Except CallError Document := do
  (raiseUnless (query ≠ [])
    { type := .valueError, message := py "query must be a non-empty string" }).mapError .other
  let _ ← (encodeUtf8 query).mapError .other
  reply.document interpreter

/-- A query that is text with UTF-8 bytes is sent. -/
theorem execQuery_eq {interpreter : Interpreter} {query : PyStr} (hne : query ≠ [])
    (henc : Encodable query) (reply : Reply) :
    execQuery interpreter query reply = reply.document interpreter := by
  obtain ⟨bytes, hbytes⟩ := Option.isSome_iff_exists.mp (Encodable.iff_isSome.mp henc)
  rw [execQuery, raiseUnless, if_pos hne, encodeUtf8_ok.mpr hbytes]
  rfl

/-! ## send_batch -/

/-- The error of a network failure: the batch may have been written. -/
def batchLost (exception : String) : IlpError where
  kind := .retryable
  message := py "QuestDB request failed: " ++ py exception
  statusCode := none
  deliveryUncertain := true

/-- The error of a batch that is answered with a status outside 2xx: the classes of the statuses
are those of `exec_query`. -/
def rejection (status : Nat) (body : Bytes) : IlpError :=
  let detail := strip (decodeReplace (body.take maxErrorBodyBytes))
  let message := py "QuestDB returned HTTP " ++ natText status
  { statusError status body with
    message := if detail = [] then message else message ++ py ": " ++ detail
    deliveryUncertain := decide (status = 408 ∨ 500 ≤ status ∧ status < 600) }

/-- `send_batch`. -/
def sendBatch (payload : Bytes) (reply : Reply) : Except CallError Unit := do
  (raiseUnless (payload ≠ [])
    { type := .valueError, message := py "payload must be non-empty bytes" }).mapError .other
  (raiseUnless (payload.getLast? = some 10)
    { type := .valueError, message := py "ILP payload must end with a newline" }).mapError .other
  match reply with
  | .failed exception => .error (.ilp (batchLost exception))
  | .response status body =>
    if 200 ≤ status ∧ status < 300 then .ok () else .error (.ilp (rejection status body))

/-- Lines are sent, and the reply decides. -/
theorem sendBatch_rejected {payload : Bytes} (hline : payload.getLast? = some 10) {status : Nat}
    (hstatus : ¬ (200 ≤ status ∧ status < 300)) (body : Bytes) :
    sendBatch payload (.response status body) = .error (.ilp (rejection status body)) := by
  have hne : payload ≠ [] := by
    rintro rfl
    cases hline
  simp only [sendBatch, raiseUnless, if_pos hne, if_pos hline, if_neg hstatus]
  rfl

/-! ## The text of an error -/

/-- The character that is being read will not be a surrogate, whatever its other bytes are: the
values that are left for it are below the surrogates, or above them. -/
def ReplaceState.Sound (s : ReplaceState) : Prop :=
  s.owed = 0 ∨ s.owed ≤ 3 ∧ 0x80 ≤ s.low ∧ s.low ≤ s.high ∧ s.high ≤ 0xBF ∧
    ((s.value * 64 + (s.high - 0x80) + 1) * 64 ^ (s.owed - 1) ≤ 0xD800 ∨
      0xE000 ≤ (s.value * 64 + (s.low - 0x80)) * 64 ^ (s.owed - 1) ∧
        (s.value * 64 + (s.high - 0x80) + 1) * 64 ^ (s.owed - 1) ≤ 0x110000)

/-- A number that is not one of a surrogate. -/
theorem codePoint_notSurrogate {v : Nat} (h : v < 0xD800 ∨ 0xE000 ≤ v ∧ v < 0x110000) :
    Utf8.isSurrogate (Json.codePoint v).val = false := by
  have hv : (Json.codePoint v).val = v := Nat.mod_eq_of_lt (by omega)
  rw [hv, Utf8.isSurrogate, Bool.and_eq_false_iff]
  rcases h with h | h
  · exact .inl (decide_eq_false (by omega))
  · exact .inr (decide_eq_false (by omega))

/-- U+FFFD encodes. -/
theorem replacement_encodable : Encodable [replacement] := by
  intro c hc
  rw [List.mem_singleton.mp hc]
  decide

/-- A lead byte announces a code point that encodes. -/
theorem leadByte_sound (b : Nat) : Encodable (leadByte b).1 ∧ (leadByte b).2.Sound := by
  have hnil : Encodable [] := nofun
  unfold leadByte
  split
  · refine ⟨fun c hc => ?_, .inl rfl⟩
    rw [List.mem_singleton.mp hc]
    exact codePoint_notSurrogate (by omega)
  split
  · refine ⟨hnil, .inr ?_⟩
    simp only
    omega
  split
  · exact ⟨hnil, .inr (by decide)⟩
  split
  · exact ⟨hnil, .inr (by decide)⟩
  split
  · refine ⟨hnil, .inr ?_⟩
    simp only
    omega
  split
  · exact ⟨hnil, .inr (by decide)⟩
  split
  · refine ⟨hnil, .inr ?_⟩
    simp only
    omega
  split
  · exact ⟨hnil, .inr (by decide)⟩
  · exact ⟨replacement_encodable, .inl rfl⟩

/-- **Bytes decoded with `errors="replace"` are a text without surrogates.** -/
theorem decodeReplaceFrom_encodable : ∀ (body : Bytes) {s : ReplaceState}, s.Sound →
    Encodable (decodeReplaceFrom s body)
  | [], s, _ => by
    rw [decodeReplaceFrom]
    split
    · exact nofun
    · exact replacement_encodable
  | b :: bs, s, hs => by
    have hlead := leadByte_sound b.toNat
    rw [decodeReplaceFrom]
    dsimp only
    split
    · exact hlead.1.append (decodeReplaceFrom_encodable bs hlead.2)
    next howed =>
    split
    · next hin =>
      rcases hs with hs | ⟨hle, hlow, -, hhigh, hrange⟩
      · exact absurd hs howed
      split
      · next hone =>
        rw [hone] at hrange
        have hhead : Encodable [Json.codePoint (s.value * 64 + (b.toNat - 0x80))] := fun c hc => by
          rw [List.mem_singleton.mp hc]
          exact codePoint_notSurrogate (by omega)
        exact hhead.append (decodeReplaceFrom_encodable bs (.inl rfl))
      · next hone =>
        refine decodeReplaceFrom_encodable bs (.inr ?_)
        obtain htwo | hthree : s.owed = 2 ∨ s.owed = 3 := by omega
        · rw [htwo] at hrange ⊢
          simp only at hrange ⊢
          omega
        · rw [hthree] at hrange ⊢
          simp only at hrange ⊢
          omega
    · exact replacement_encodable.append
        (hlead.1.append (decodeReplaceFrom_encodable bs hlead.2))

/-- What the server says about a rejected batch can be stored. -/
theorem rejection_encodable (status : Nat) (body : Bytes) :
    Encodable (rejection status body).message := by
  have hhead : Encodable (py "QuestDB returned HTTP " ++ natText status) :=
    (Encodable.py (by decide)).append (Encodable.intText status)
  have hdetail : Encodable (strip (decodeReplace (body.take maxErrorBodyBytes))) :=
    (decodeReplaceFrom_encodable _ (.inl rfl)).sublist
      ((List.rdropWhile_prefix _ _).sublist.trans (List.dropWhile_sublist _))
  simp only [rejection]
  split
  · exact hhead
  · exact (hhead.append (.py (by decide))).append hdetail

/-! ## What the callers catch -/

/-- The classes that the `except` clauses around a schema check name: an error of the transport, or
a table of another schema. -/
def CallError.IsCaught : CallError → Prop
  | .ilp e => e.kind ≠ .transport
  | .schema mismatch _ => mismatch = true
  | .other _ => False

/-- No other exception comes out. -/
def Caught {α : Type} (x : Except CallError α) : Prop := ∀ e, x = .error e → e.IsCaught

namespace Caught

variable {α β : Type}

@[simp] theorem ok (a : α) : Caught (.ok a : Except CallError α) := nofun

@[simp] theorem error (e : CallError) : Caught (.error e : Except CallError α) ↔ e.IsCaught :=
  ⟨fun h => h e rfl, fun h _ he => by cases he; exact h⟩

/-- What comes out of two calls comes out of the first, or of the second once the first is
through. -/
theorem bind {x : Except CallError α} {f : α → Except CallError β} :
    Caught (x >>= f) ↔ Caught x ∧ ∀ a, x = .ok a → Caught (f a) := by
  cases x with
  | error e => exact ⟨fun h => ⟨(error e).mpr (h e rfl), nofun⟩, fun h => (error e).mpr (h.1 e rfl)⟩
  | ok a => exact ⟨fun h => ⟨nofun, fun _ ha => by cases ha; exact h⟩, fun h => h.2 a rfl⟩

end Caught

/-- The stack is exhausted by the document of an accepted query. -/
def Reply.Exhausts (interpreter : Interpreter) : Reply → Prop
  | .failed _ => False
  | .response status body => 200 ≤ status ∧ status < 300 ∧
    ∃ text, Utf8.decode (body.take (maxErrorBodyBytes + 1)) = some text ∧
      interpreter.exhausts text = true

/-- A status is never a transport error. -/
theorem statusError_kind (status : Nat) (body : Bytes) :
    (statusError status body).kind ≠ .transport := by
  simp only [statusError]
  split
  · nofun
  split
  · nofun
  split <;> nofun

/-- **A reply raises something else exactly where it exhausts the stack.** -/
theorem Reply.document_caught (interpreter : Interpreter) (reply : Reply) :
    Caught (reply.document interpreter) ↔ ¬ reply.Exhausts interpreter := by
  cases reply with
  | failed exception => exact ⟨fun _ => id, fun _ => (Caught.error _).mpr fun h => by cases h⟩
  | response status body =>
    simp only [document, Exhausts]
    split
    · next hstatus =>
      unfold readDocument
      split
      · next hnone =>
        refine ⟨fun _ => ?_, fun _ => (Caught.error _).mpr fun h => by cases h⟩
        rintro ⟨-, -, text, htext, -⟩
        cases hnone.symm.trans htext
      · next text htext =>
        by_cases hex : interpreter.exhausts text = true
        · rw [Interpreter.loads, if_pos hex]
          exact ⟨fun h => ((Caught.error _).mp h).elim,
            fun h => (h ⟨hstatus.1, hstatus.2, text, htext, hex⟩).elim⟩
        · rw [Interpreter.loads, if_neg hex]
          have hnot : ¬ (200 ≤ status ∧ status < 300 ∧ ∃ t,
              Utf8.decode (body.take (maxErrorBodyBytes + 1)) = some t ∧
                interpreter.exhausts t = true) := by
            rintro ⟨-, -, t, ht, hext⟩
            cases htext.symm.trans ht
            exact hex hext
          refine ⟨fun _ => hnot, fun _ => ?_⟩
          cases Json.loads text with
          | none => exact (Caught.error _).mpr fun h => by cases h
          | some value =>
            cases value with
            | object members => exact .ok _
            | _ => exact (Caught.error _).mpr fun h => by cases h
    · next hstatus =>
      exact ⟨fun _ h => hstatus ⟨h.1, h.2.1⟩,
        fun _ => (Caught.error _).mpr (statusError_kind status body)⟩

end QuestDbWriter
