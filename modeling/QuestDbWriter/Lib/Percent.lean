import QuestDbWriter.Lib.Utf8

/-!
# Percent-encoded bytes

Bytes as ASCII text that can stand in a URL: a letter, a digit or one of `_.-~` is itself, every
other byte is `%` and two hexadecimal digits. `decode_encode` is the round trip, read as in a query
string, where `+` would be a blank.
-/

namespace QuestDbWriter.Lib.Percent

open Utf8 (CodePoint)

/-- A byte that is written as itself. -/
def isSafe (b : UInt8) : Bool :=
  decide (65 ≤ b.toNat ∧ b.toNat ≤ 90) || decide (97 ≤ b.toNat ∧ b.toNat ≤ 122) ||
    decide (48 ≤ b.toNat ∧ b.toNat ≤ 57) || [95, 46, 45, 126].contains b.toNat

/-- A hexadecimal digit, in upper case. -/
def hexDigit (v : Nat) : CodePoint := Fin.ofNat 0x110000 (if v < 10 then 48 + v else 55 + v)

/-- An octet as itself where it may stand bare, as `%XX` where it may not. -/
def encodeByte (b : UInt8) : List CodePoint :=
  if isSafe b then [Fin.ofNat 0x110000 b.toNat]
  else [Fin.ofNat 0x110000 37, hexDigit (b.toNat / 16), hexDigit (b.toNat % 16)]

/-- The encoding of octets, octet by octet. -/
def encode (bs : List UInt8) : List CodePoint := bs.flatMap encodeByte

/-- The value of a hexadecimal digit, in either case. -/
def hexValue (c : CodePoint) : Option Nat :=
  if 48 ≤ c.val ∧ c.val ≤ 57 then some (c.val - 48)
  else if 65 ≤ c.val ∧ c.val ≤ 70 then some (c.val - 55)
  else if 97 ≤ c.val ∧ c.val ≤ 102 then some (c.val - 87)
  else none

/-- Where the reader stands: between two bytes, behind a `%`, or behind its first digit. -/
inductive Escaped where
  | plain
  | opened
  | half (high : Nat)

/-- The bytes of a query string; `none` where a `%` is not followed by two digits, or where a
character is not one of a URL. -/
def decodeFrom : Escaped → List CodePoint → Option (List UInt8)
  | .plain, [] => some []
  | .opened, [] | .half _, [] => none
  | .plain, c :: cs =>
    if c.val = 37 then decodeFrom .opened cs
    else if c.val = 43 then (decodeFrom .plain cs).map (32 :: ·)
    else if 33 ≤ c.val ∧ c.val ≤ 126 then (decodeFrom .plain cs).map (UInt8.ofNat c.val :: ·)
    else none
  | .opened, c :: cs => (hexValue c).bind fun high => decodeFrom (.half high) cs
  | .half high, c :: cs =>
    (hexValue c).bind fun low => (decodeFrom .plain cs).map (UInt8.ofNat (16 * high + low) :: ·)

/-- The decoder from its plain state on. -/
def decode (s : List CodePoint) : Option (List UInt8) := decodeFrom .plain s

/-- A hexadecimal digit is read back. -/
theorem hexValue_hexDigit {v : Nat} (h : v < 16) : hexValue (hexDigit v) = some v := by
  interval_cases v <;> decide

/-- **A byte is read as it was written.** -/
theorem decode_encodeByte (b : UInt8) (s : List CodePoint) :
    decode (encodeByte b ++ s) = (decode s).map (b :: ·) := by
  have hb : b.toNat < 256 := b.toNat_lt
  unfold encodeByte
  split
  · next hsafe =>
    have hval : (Fin.ofNat 0x110000 b.toNat : CodePoint).val = b.toNat :=
      Nat.mod_eq_of_lt (by omega)
    have hrange : b.toNat ≠ 37 ∧ b.toNat ≠ 43 ∧ 33 ≤ b.toNat ∧ b.toNat ≤ 126 := by
      simp [isSafe] at hsafe
      omega
    simp only [decode, List.singleton_append, decodeFrom, hval]
    rw [if_neg hrange.1, if_neg hrange.2.1, if_pos hrange.2.2, UInt8.ofNat_toNat]
  · have hhigh : hexValue (hexDigit (b.toNat / 16)) = some (b.toNat / 16) :=
      hexValue_hexDigit (by omega)
    have hlow : hexValue (hexDigit (b.toNat % 16)) = some (b.toNat % 16) :=
      hexValue_hexDigit (by omega)
    have hsum : 16 * (b.toNat / 16) + b.toNat % 16 = b.toNat := Nat.div_add_mod b.toNat 16
    have hpercent : (Fin.ofNat 0x110000 37 : CodePoint).val = 37 := rfl
    simp only [decode, List.cons_append, List.nil_append, decodeFrom, hpercent, if_true, hhigh,
      hlow, Option.bind_some, hsum, UInt8.ofNat_toNat]

/-- **The round trip.** -/
theorem decode_encode (bs : List UInt8) : decode (encode bs) = some bs := by
  induction bs with
  | nil => rfl
  | cons b bs ih =>
    rw [encode, List.flatMap_cons, decode_encodeByte]
    exact ih ▸ rfl

/-- The characters of what is written. -/
theorem encode_char {bs : List UInt8} {c : CodePoint} (h : c ∈ encode bs) :
    c.val = 37 ∨ ∃ b : UInt8, isSafe b = true ∧ c.val = b.toNat := by
  obtain ⟨b, -, hc⟩ := List.mem_flatMap.mp h
  have hdigit : ∀ {v : Nat}, v < 16 →
      ∃ b : UInt8, isSafe b = true ∧ (hexDigit v).val = b.toNat := by
    intro v hv
    refine ⟨UInt8.ofNat (if v < 10 then 48 + v else 55 + v), ?_⟩
    interval_cases v <;> decide
  have hb : b.toNat < 256 := b.toNat_lt
  unfold encodeByte at hc
  split at hc
  · next hsafe =>
    rw [List.mem_singleton.mp hc]
    exact .inr ⟨b, hsafe, Nat.mod_eq_of_lt (by omega)⟩
  · simp only [List.mem_cons, List.not_mem_nil, or_false] at hc
    rcases hc with rfl | rfl | rfl
    · exact .inl rfl
    · exact .inr (hdigit (by omega))
    · exact .inr (hdigit (by omega))

end QuestDbWriter.Lib.Percent
