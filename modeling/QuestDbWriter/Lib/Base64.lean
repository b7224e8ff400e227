import QuestDbWriter.Lib.Utf8

/-!
# Base64

Bytes as ASCII text: three bytes are four digits of six bits, and `=` stands for what the last
group lacks. `decode_encode` is the round trip; the reader takes nothing but canonical text.
-/

namespace QuestDbWriter.Lib.Base64

open Utf8 (CodePoint)

/-- A remainder is a code point. -/
theorem mod_lt (n : Nat) : n % 0x110000 < 0x110000 := Nat.mod_lt n (by decide)

/-- The code point of a number below `0x110000`. -/
def codePoint (n : Nat) : CodePoint := ⟨n % 0x110000, mod_lt n⟩

/-- A digit, by its value. -/
def digit (v : Nat) : CodePoint :=
  codePoint
    (if v < 26 then 65 + v
    else if v < 52 then 71 + v
    else if v < 62 then v - 4
    else if v = 62 then 43
    else 47)

/-- The value of a digit. -/
def value (c : CodePoint) : Option Nat :=
  if 65 ≤ c.val ∧ c.val ≤ 90 then some (c.val - 65)
  else if 97 ≤ c.val ∧ c.val ≤ 122 then some (c.val - 71)
  else if 48 ≤ c.val ∧ c.val ≤ 57 then some (c.val + 4)
  else if c.val = 43 then some 62
  else if c.val = 47 then some 63
  else none

/-- What stands for a digit that is not there. -/
def pad : CodePoint := codePoint 61

/-- The digits of the bytes, three by three, with padding. -/
def encode : List UInt8 → List CodePoint
  | [] => []
  | [a] => [digit (a.toNat / 4), digit (a.toNat % 4 * 16), pad, pad]
  | [a, b] =>
    [digit (a.toNat / 4), digit (a.toNat % 4 * 16 + b.toNat / 16), digit (b.toNat % 16 * 4), pad]
  | a :: b :: c :: bs =>
    digit (a.toNat / 4) :: digit (a.toNat % 4 * 16 + b.toNat / 16) ::
      digit (b.toNat % 16 * 4 + c.toNat / 64) :: digit (c.toNat % 64) :: encode bs

/-- Text in groups of four; the bits that the padding stands for have to be zero. -/
def decode : List CodePoint → Option (List UInt8)
  | [] => some []
  | a :: b :: c :: d :: s => do
    let x ← value a
    let y ← value b
    let first := UInt8.ofNat (x * 4 + y / 16)
    if c = pad then
      if d = pad ∧ s = [] ∧ y % 16 = 0 then some [first] else none
    else
      let z ← value c
      let second := UInt8.ofNat (y % 16 * 16 + z / 4)
      if d = pad then
        if s = [] ∧ z % 4 = 0 then some [first, second] else none
      else
        let w ← value d
        let bytes ← decode s
        some (first :: second :: UInt8.ofNat (z % 4 * 64 + w) :: bytes)
  | _ => none

/-- The value of a digit is read back. -/
theorem value_digit {v : Nat} (h : v < 64) : value (digit v) = some v := by
  interval_cases v <;> decide

/-- No digit is the padding. -/
theorem digit_ne_pad {v : Nat} (h : v < 64) : digit v ≠ pad := by
  interval_cases v <;> decide

/-- **The round trip.** -/
theorem decode_encode (bs : List UInt8) : decode (encode bs) = some bs := by
  have hbyte : ∀ {b : UInt8} {n : Nat}, n = b.toNat → UInt8.ofNat n = b := by
    rintro b _ rfl
    exact UInt8.ofNat_toNat
  induction bs using encode.induct with
  | case1 => rfl
  | case2 a =>
    have ha := a.toNat_lt
    have hfirst : UInt8.ofNat (a.toNat / 4 * 4 + a.toNat % 4 * 16 / 16) = a := hbyte (by omega)
    have hzero : a.toNat % 4 * 16 % 16 = 0 := by omega
    simp only [encode, decode, value_digit (show a.toNat / 4 < 64 by omega),
      value_digit (show a.toNat % 4 * 16 < 64 by omega), Option.bind_eq_bind, Option.bind_some,
      hfirst, hzero, and_self, if_true]
  | case3 a b =>
    have ha := a.toNat_lt
    have hb := b.toNat_lt
    have hfirst : UInt8.ofNat (a.toNat / 4 * 4 + (a.toNat % 4 * 16 + b.toNat / 16) / 16) = a :=
      hbyte (by omega)
    have hsecond : UInt8.ofNat ((a.toNat % 4 * 16 + b.toNat / 16) % 16 * 16 +
        b.toNat % 16 * 4 / 4) = b := hbyte (by omega)
    have hzero : b.toNat % 16 * 4 % 4 = 0 := by omega
    simp only [encode, decode, value_digit (show a.toNat / 4 < 64 by omega),
      value_digit (show a.toNat % 4 * 16 + b.toNat / 16 < 64 by omega),
      value_digit (show b.toNat % 16 * 4 < 64 by omega),
      digit_ne_pad (show b.toNat % 16 * 4 < 64 by omega), Option.bind_eq_bind, Option.bind_some,
      hfirst, hsecond, hzero, and_self, if_true, if_false]
  | case4 a b c bs ih =>
    have ha := a.toNat_lt
    have hb := b.toNat_lt
    have hc := c.toNat_lt
    have hfirst : UInt8.ofNat (a.toNat / 4 * 4 + (a.toNat % 4 * 16 + b.toNat / 16) / 16) = a :=
      hbyte (by omega)
    have hsecond : UInt8.ofNat ((a.toNat % 4 * 16 + b.toNat / 16) % 16 * 16 +
        (b.toNat % 16 * 4 + c.toNat / 64) / 4) = b := hbyte (by omega)
    have hthird : UInt8.ofNat ((b.toNat % 16 * 4 + c.toNat / 64) % 4 * 64 + c.toNat % 64) = c :=
      hbyte (by omega)
    simp only [encode, decode, value_digit (show a.toNat / 4 < 64 by omega),
      value_digit (show a.toNat % 4 * 16 + b.toNat / 16 < 64 by omega),
      value_digit (show b.toNat % 16 * 4 + c.toNat / 64 < 64 by omega),
      value_digit (show c.toNat % 64 < 64 by omega),
      digit_ne_pad (show b.toNat % 16 * 4 + c.toNat / 64 < 64 by omega),
      digit_ne_pad (show c.toNat % 64 < 64 by omega), Option.bind_eq_bind, Option.bind_some,
      hfirst, hsecond, hthird, ih, if_false]

/-- What is written is printable, without a blank. -/
theorem encode_char {bs : List UInt8} : ∀ c ∈ encode bs, 33 ≤ c.val ∧ c.val ≤ 126 := by
  have hdigit : ∀ v, 33 ≤ (digit v).val ∧ (digit v).val ≤ 126 := by
    intro v
    have hval : ∀ n, n < 128 → (codePoint n).val = n := fun n hn => Nat.mod_eq_of_lt (by omega)
    unfold digit
    split_ifs <;> rw [hval _ (by omega)] <;> omega
  have hpad : 33 ≤ pad.val ∧ pad.val ≤ 126 := by decide
  induction bs using encode.induct with
  | case1 =>
    intro c hc
    cases hc
  | case2 a => simp [encode, hdigit, hpad]
  | case3 a b => simp [encode, hdigit, hpad]
  | case4 a b c bs ih =>
    intro d hd
    simp only [encode, List.mem_cons] at hd
    rcases hd with rfl | rfl | rfl | rfl | hd
    · exact hdigit _
    · exact hdigit _
    · exact hdigit _
    · exact hdigit _
    · exact ih d hd

end QuestDbWriter.Lib.Base64
