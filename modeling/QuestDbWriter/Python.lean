import QuestDbWriter.Lib.Utf8

/-!
# Python values

The part of Python's data model the integration's code rests on: text as a list of code points,
lone surrogates included; strict UTF-8; decimal integers; and the exceptions the modules raise,
each with its message and, where it is raised `from` an error of SQLite, that error.
-/

namespace QuestDbWriter

open Lib

/-- A code point of a Python string. -/
abbrev CodePoint := Utf8.CodePoint

/-- A Python `str`. -/
abbrev PyStr := List CodePoint

/-- A Python `bytes`. -/
abbrev Bytes := List UInt8

instance neZeroCodePoints : NeZero 0x110000 := ⟨by decide⟩

instance lawfulCodePoint : LawfulBEq CodePoint := inferInstance

instance lawfulPyStr : LawfulBEq PyStr := inferInstance

/-- The code point of a character. -/
def ofChar (c : Char) : CodePoint := Fin.ofNat 0x110000 c.toNat

/-- A Python string literal. -/
def py (s : String) : PyStr := s.toList.map ofChar

/-- A property of every element of a list that is checked element by element. -/
theorem forall_of_all {α : Type} {P : α → Prop} [DecidablePred P] {l : List α}
    (h : (l.all fun a => decide (P a)) = true) : ∀ a ∈ l, P a := by
  simpa using h

/-- A character is its code point. -/
theorem ofChar_val (c : Char) : (ofChar c).val = c.toNat := by
  have h : c.toNat < 0x110000 := by
    rcases c.valid with h | h
    · exact Nat.lt_trans h (by decide)
    · exact h.2
  exact Nat.mod_eq_of_lt h

/-- Lean's characters are code points of their own. -/
theorem ofChar_injective {c d : Char} (h : ofChar c = ofChar d) : c = d := by
  have hv := congrArg Fin.val h
  rw [ofChar_val, ofChar_val] at hv
  exact Char.toNat_inj.mp hv

/-! ## Exceptions -/

/-- The classes of the exceptions that the modelled code raises or catches. -/
inductive ExcType where
  | valueError
  | typeError
  | overflowError
  | unicodeEncodeError
  | operationalError
  | integrityError
  | spoolError
  | spoolClosedError
  | spoolStateError
  | unsupportedSpoolVersionError
  | spoolFullError
  | spoolDiskFullError
  | spoolReadOnlyError
  | deadLetterFullError
  | eventTooLargeError
  | batchLimitTooSmallError
  | eventEnvelopeError
  | ilpEncodingError
  | workerError
  | workerStartError
  | workerStartTimeoutError
  | workerShutdownError
  | workerConfigurationError
  | ilpTransportError
  | permanentIlpError
  | retryableIlpError
  | authenticationIlpError
  | schemaError
  | schemaMismatchError
  /-- Any other exception, by its class name. -/
  | other (name : String)
deriving DecidableEq

/-- `type(error).__name__`. -/
def ExcType.name : ExcType → String
  | valueError => "ValueError"
  | typeError => "TypeError"
  | overflowError => "OverflowError"
  | unicodeEncodeError => "UnicodeEncodeError"
  | operationalError => "OperationalError"
  | integrityError => "IntegrityError"
  | spoolError => "SpoolError"
  | spoolClosedError => "SpoolClosedError"
  | spoolStateError => "SpoolStateError"
  | unsupportedSpoolVersionError => "UnsupportedSpoolVersionError"
  | spoolFullError => "SpoolFullError"
  | spoolDiskFullError => "SpoolDiskFullError"
  | spoolReadOnlyError => "SpoolReadOnlyError"
  | deadLetterFullError => "DeadLetterFullError"
  | eventTooLargeError => "EventTooLargeError"
  | batchLimitTooSmallError => "BatchLimitTooSmallError"
  | eventEnvelopeError => "EventEnvelopeError"
  | ilpEncodingError => "IlpEncodingError"
  | workerError => "WorkerError"
  | workerStartError => "WorkerStartError"
  | workerStartTimeoutError => "WorkerStartTimeoutError"
  | workerShutdownError => "WorkerShutdownError"
  | workerConfigurationError => "WorkerConfigurationError"
  | ilpTransportError => "IlpTransportError"
  | permanentIlpError => "PermanentIlpError"
  | retryableIlpError => "RetryableIlpError"
  | authenticationIlpError => "AuthenticationIlpError"
  | schemaError => "SchemaError"
  | schemaMismatchError => "SchemaMismatchError"
  | other name => name

/-- What SQLite reports when it does not run a statement: a failure of the storage under it,
with the (possibly extended) result code Python attaches to the exception, or a violated UNIQUE
or CHECK constraint of the schema. -/
inductive SqliteError where
  | failure (errorcode : Option Nat)
  | unique (column : String)
  | check (column : String)
deriving DecidableEq

/-- A raised exception: its class, its text and, for `raise ... from`, the SQLite error behind
it. -/
structure Exc where
  type : ExcType
  message : PyStr
  cause : Option SqliteError := none
deriving DecidableEq

/-- `isinstance(exc, sqlite3.Error)`. -/
def Exc.isSqliteError (e : Exc) : Bool :=
  match e.type with
  | .operationalError | .integrityError => true
  | _ => false

/-- `isinstance(exc, SpoolStorageError)`. -/
def Exc.isSpoolStorageError (e : Exc) : Bool :=
  match e.type with
  | .spoolDiskFullError | .spoolReadOnlyError => true
  | _ => false

/-- A check that raises `e` unless `p` holds. -/
def raiseUnless (p : Prop) [Decidable p] (e : Exc) : Except Exc Unit :=
  if p then .ok () else .error e

/-- A chain of calls returns when each of them does. -/
theorem bind_ok {α β : Type} {x : Except Exc α} {f : α → Except Exc β} {b : β} :
    (x >>= f) = .ok b ↔ ∃ a, x = .ok a ∧ f a = .ok b := by
  cases x with
  | error e => exact ⟨nofun, nofun⟩
  | ok a => exact ⟨fun h => ⟨a, rfl, h⟩, fun ⟨_, ha, h⟩ => by cases ha; exact h⟩

/-- A chain goes on behind a call that returns. -/
theorem bind_of_ok {α β : Type} {x : Except Exc α} {f : α → Except Exc β} {a : α}
    (h : x = .ok a) : (x >>= f) = f a := by
  rw [h]
  rfl

/-- Chains that go on alike behind what the call returns are the same. -/
theorem bind_congr_ok {α β : Type} {x : Except Exc α} {f g : α → Except Exc β}
    (h : ∀ a, x = .ok a → f a = g a) : (x >>= f) = (x >>= g) := by
  cases x with
  | error e => rfl
  | ok a => exact h a rfl

/-- A guard passes exactly where its condition holds. -/
theorem raiseUnless_ok {p : Prop} [Decidable p] {e : Exc} {u : Unit} :
    raiseUnless p e = .ok u ↔ p := by
  unfold raiseUnless
  split <;> simp_all

/-- Everything that a check or a statement may raise satisfies `P`. -/
def RaisesOnly {α : Type} (P : Exc → Prop) (x : Except Exc α) : Prop := ∀ e, x = .error e → P e

namespace RaisesOnly

variable {α β : Type} {P : Exc → Prop}

/-- A value raises nothing. -/
theorem pure (a : α) : RaisesOnly P (pure a : Except Exc α) := fun _ h => by cases h

/-- A `do` block raises what its steps raise. -/
theorem bind {x : Except Exc α} {f : α → Except Exc β} (hx : RaisesOnly P x)
    (hf : ∀ a, x = .ok a → RaisesOnly P (f a)) : RaisesOnly P (x >>= f) := by
  intro e h
  cases x with
  | error e' =>
      cases h
      exact hx e rfl
  | ok a => exact hf a rfl e h

/-- A guard raises its own exception only. -/
theorem raiseUnless {p : Prop} [Decidable p] {e : Exc} (h : ¬ p → P e) :
    RaisesOnly P (raiseUnless p e) := by
  intro e' he
  rw [QuestDbWriter.raiseUnless] at he
  split at he
  · cases he
  · next hp => cases he; exact h hp

/-- What has a value raises nothing. -/
theorem of_ok {x : Except Exc α} {a : α} (h : x = .ok a) : RaisesOnly P x := by
  intro e he
  rw [h] at he
  cases he

/-- A loop raises what its body raises. -/
theorem forM {f : α → Except Exc PUnit} (hf : ∀ a, RaisesOnly P (f a)) :
    ∀ l : List α, RaisesOnly P (l.forM f)
  | [] => pure _
  | a :: l => bind (hf a) fun _ _ => forM hf l

end RaisesOnly

/-! ## The interpreter -/

/-- What the interpreter decides: `str.isprintable` of a code point, by the Unicode database it
comes with, and whether `json.loads` exhausts its stack on a text. -/
structure Interpreter where
  printable : CodePoint → Bool
  exhausts : PyStr → Bool

/-- An interpreter that prints all but control characters, and reads every document. -/
def Interpreter.plain : Interpreter where
  printable c := decide (32 ≤ c.val)
  exhausts _ := false

/-- What `json.loads` raises where the stack does not suffice. -/
def recursionError : Exc :=
  { type := .other "RecursionError", message := py "maximum recursion depth exceeded" }

/-- `x` is what `y` becomes on a limited stack: the same, or the stack is exhausted. -/
def Limited {α : Type} (x y : Except Exc α) : Prop := x = y ∨ x = .error recursionError

namespace Limited

variable {α β : Type} {x y : Except Exc α}

/-- A computation without a limit is its own limited form. -/
theorem refl (x : Except Exc α) : Limited x x := .inl rfl

/-- A chain is limited by each of its calls. -/
theorem bind {f g : α → Except Exc β} (h : Limited x y) (hf : ∀ a, Limited (f a) (g a)) :
    Limited (x >>= f) (y >>= g) := by
  rcases h with rfl | rfl
  · cases x with
    | error e => exact .inl rfl
    | ok a => exact hf a
  · exact .inr rfl

/-- What is returned on a limited stack is returned on one that suffices. -/
theorem ok (h : Limited x y) {a : α} (hx : x = .ok a) : y = .ok a := by
  rcases h with rfl | h
  · exact hx
  · rw [h] at hx
    cases hx

/-- So is what is raised, but for the exhausted stack. -/
theorem error (h : Limited x y) {e : Exc} (hx : x = .error e) (he : e ≠ recursionError) :
    y = .error e := by
  rcases h with rfl | h
  · exact hx
  · exact absurd (Except.error.inj (hx.symm.trans h)) he

end Limited

/-! ## Text -/

/-- `text.encode("utf-8")`. -/
def encodeUtf8 (s : PyStr) : Except Exc Bytes :=
  match Utf8.encode s with
  | some bs => .ok bs
  | none => .error { type := .unicodeEncodeError, message := py "surrogates not allowed" }

/-- The encoding succeeds with the octets of the UTF-8 table. -/
theorem encodeUtf8_ok {s : PyStr} {bs : Bytes} :
    encodeUtf8 s = .ok bs ↔ Utf8.encode s = some bs := by
  unfold encodeUtf8
  split <;> simp_all

/-- `str(n)` of a natural number. -/
def natText (n : Nat) : PyStr := (Nat.toDigits 10 n).map ofChar

/-- `str(n)` of an integer. -/
def intText : Int → PyStr
  | .ofNat n => natText n
  | .negSucc n => ofChar '-' :: natText (n + 1)

/-- `sys.int_info.default_max_str_digits`: Python neither reads nor writes a longer integer. -/
def maxStrDigits : Nat := 4300

/-- `f"{n}"`. -/
def formatInt (n : Int) : Except Exc PyStr := do
  raiseUnless (n.natAbs < 10 ^ maxStrDigits)
    { type := .valueError,
      message := py "Exceeds the limit (4300 digits) for integer string conversion" }
  pure (intText n)

/-- Where `str(n)` has a value it is the decimal text. -/
theorem formatInt_ok {n : Int} {s : PyStr} (h : formatInt n = .ok s) : s = intText n := by
  unfold formatInt raiseUnless at h
  split at h
  · cases h
    rfl
  · cases h

/-- The code points of a decimal number are digits. -/
theorem natText_digit {n : Nat} {c : CodePoint} (h : c ∈ natText n) :
    ∃ d : Char, d.isDigit = true ∧ c = ofChar d := by
  obtain ⟨d, hd, rfl⟩ := List.mem_map.mp h
  exact ⟨d, Nat.isDigit_of_mem_toDigits (by decide) (by decide) hd, rfl⟩

/-- A number has a digit. -/
theorem natText_ne_nil (n : Nat) : natText n ≠ [] := by
  simp [natText, Nat.toDigits_ne_nil]

/-- The decimal digits tell natural numbers apart. -/
theorem natText_injective {m n : Nat} (h : natText m = natText n) : m = n := by
  have hd : Nat.toDigits 10 m = Nat.toDigits 10 n :=
    List.map_injective_iff.mpr (fun _ _ => ofChar_injective) h
  rw [← Nat.ofDigitChars_ten_toDigits (n := m), hd, Nat.ofDigitChars_ten_toDigits]

/-- The minus sign is not a digit. -/
theorem natText_no_minus (n : Nat) : ofChar '-' ∉ natText n := by
  intro h
  obtain ⟨d, hd, he⟩ := natText_digit h
  rw [← ofChar_injective he] at hd
  exact absurd hd (by decide)

/-- The decimal text tells integers apart. -/
theorem intText_injective : ∀ {m n : Int}, intText m = intText n → m = n
  | .ofNat m, .ofNat n, h => congrArg _ (natText_injective h)
  | .negSucc m, .negSucc n, h => by
      have := natText_injective (List.cons.inj h).2
      congr 1
      omega
  | .ofNat m, .negSucc n, h => by
      have : ofChar '-' ∈ natText m := by
        rw [show natText m = _ from h]
        exact List.mem_cons_self ..
      exact absurd this (natText_no_minus m)
  | .negSucc m, .ofNat n, h => by
      have : ofChar '-' ∈ natText n := by
        rw [show natText n = _ from h.symm]
        exact List.mem_cons_self ..
      exact absurd this (natText_no_minus n)

/-- The code points of a decimal integer are digits or the minus sign. -/
theorem intText_char {n : Int} {c : CodePoint} (h : c ∈ intText n) :
    c = ofChar '-' ∨ ∃ d : Char, d.isDigit = true ∧ c = ofChar d := by
  cases n with
  | ofNat n => exact .inr (natText_digit h)
  | negSucc n =>
      rcases List.mem_cons.mp h with rfl | h
      · exact .inl rfl
      · exact .inr (natText_digit h)

end QuestDbWriter
