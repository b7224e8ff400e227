import Mathlib

/-!
# UTF-8 over code points

Text is a list of Unicode code points, the surrogates `0xD800`–`0xDFFF` included, as in languages
whose strings may hold lone surrogates. `encode` is the strict encoder, which has no bytes for a
surrogate; `decode` is the strict decoder, one byte at a time. `decode_encode` is the round trip,
and `encode_injective` what it gives on equal bytes.
-/

namespace QuestDbWriter.Lib.Utf8

/-- A Unicode code point. -/
abbrev CodePoint := Fin 0x110000

/-- The code points no UTF-8 sequence stands for. -/
def isSurrogate (v : Nat) : Bool := decide (0xD800 ≤ v) && decide (v ≤ 0xDFFF)

/-- The bytes of one scalar value. -/
def encodeScalar (v : Nat) : List UInt8 :=
  if v < 0x80 then [UInt8.ofNat v]
  else if v < 0x800 then [UInt8.ofNat (0xC0 + v / 64), UInt8.ofNat (0x80 + v % 64)]
  else if v < 0x10000 then
    [UInt8.ofNat (0xE0 + v / 4096), UInt8.ofNat (0x80 + v / 64 % 64), UInt8.ofNat (0x80 + v % 64)]
  else
    [UInt8.ofNat (0xF0 + v / 262144), UInt8.ofNat (0x80 + v / 4096 % 64),
      UInt8.ofNat (0x80 + v / 64 % 64), UInt8.ofNat (0x80 + v % 64)]

/-- Strict UTF-8: `none` where the text holds a surrogate. -/
def encode : List CodePoint → Option (List UInt8)
  | [] => some []
  | c :: cs => if isSurrogate c then none else (encode cs).map (encodeScalar c ++ ·)

/-- Where the decoder stands: between characters, or inside one, with the continuation bytes
still owed, the value so far and the least value of that length. -/
structure DecodeState where
  owed : Nat
  value : Nat
  least : Nat
deriving DecidableEq

/-- Between two characters. -/
def DecodeState.start : DecodeState := ⟨0, 0, 0⟩

/-- A finished character: not overlong, not a surrogate and not beyond the last code point. -/
def accept (v least : Nat) : Option CodePoint :=
  if h : v < 0x110000 then if isSurrogate v || v < least then none else some ⟨v, h⟩ else none

/-- The strict decoder. -/
def decodeFrom : DecodeState → List UInt8 → Option (List CodePoint)
  | ⟨0, _, _⟩, [] => some []
  | ⟨_ + 1, _, _⟩, [] => none
  | ⟨0, _, _⟩, b :: bs =>
    if b.toNat < 0x80 then
      (accept b.toNat 0).bind fun c => (decodeFrom .start bs).map (c :: ·)
    else if 0xC0 ≤ b.toNat ∧ b.toNat < 0xE0 then decodeFrom ⟨1, b.toNat - 0xC0, 0x80⟩ bs
    else if 0xE0 ≤ b.toNat ∧ b.toNat < 0xF0 then decodeFrom ⟨2, b.toNat - 0xE0, 0x800⟩ bs
    else if 0xF0 ≤ b.toNat ∧ b.toNat < 0xF8 then decodeFrom ⟨3, b.toNat - 0xF0, 0x10000⟩ bs
    else none
  | ⟨owed + 1, value, least⟩, b :: bs =>
    if 0x80 ≤ b.toNat ∧ b.toNat < 0xC0 then
      let v := value * 64 + (b.toNat - 0x80)
      match owed with
      | 0 => (accept v least).bind fun c => (decodeFrom .start bs).map (c :: ·)
      | owed + 1 => decodeFrom ⟨owed + 1, v, least⟩ bs
    else none

/-- Decode a whole byte string. -/
def decode (bs : List UInt8) : Option (List CodePoint) := decodeFrom .start bs

/-! ## The round trip -/

/-- A byte with a value below 256 has that value. -/
theorem toNat_ofNat {n : Nat} (h : n < 256) : (UInt8.ofNat n).toNat = n := by
  simpa using h

/-- A code point passes the decoder's last test at its own length. -/
theorem accept_self (c : CodePoint) {least : Nat} (hs : isSurrogate c = false)
    (hl : least ≤ c) : accept c least = some c := by
  have : ¬ c.val < least := by omega
  simp [accept, hs, this]

/-- The first byte of a character of several bytes. -/
theorem decodeFrom_lead {n owed base least : Nat} (bs : List UInt8)
    (h : (owed = 1 ∧ base = 0xC0 ∧ least = 0x80 ∧ n < 32) ∨
      (owed = 2 ∧ base = 0xE0 ∧ least = 0x800 ∧ n < 16) ∨
      (owed = 3 ∧ base = 0xF0 ∧ least = 0x10000 ∧ n < 8)) :
    decodeFrom .start (UInt8.ofNat (base + n) :: bs) = decodeFrom ⟨owed, n, least⟩ bs := by
  have hb : (UInt8.ofNat (base + n)).toNat = base + n := toNat_ofNat (by omega)
  rcases h with ⟨rfl, rfl, rfl, h⟩ | ⟨rfl, rfl, rfl, h⟩ | ⟨rfl, rfl, rfl, h⟩
  · simp only [DecodeState.start, decodeFrom, hb]
    rw [if_neg (by omega), if_pos (by omega), show 0xC0 + n - 0xC0 = n by omega]
  · simp only [DecodeState.start, decodeFrom, hb]
    rw [if_neg (by omega), if_neg (by omega), if_pos (by omega),
      show 0xE0 + n - 0xE0 = n by omega]
  · simp only [DecodeState.start, decodeFrom, hb]
    rw [if_neg (by omega), if_neg (by omega), if_neg (by omega), if_pos (by omega),
      show 0xF0 + n - 0xF0 = n by omega]

/-- A continuation byte in the middle of a character. -/
theorem decodeFrom_tail {n owed value least : Nat} (bs : List UInt8) (h : n < 64) :
    decodeFrom ⟨owed + 2, value, least⟩ (UInt8.ofNat (0x80 + n) :: bs) =
      decodeFrom ⟨owed + 1, value * 64 + n, least⟩ bs := by
  have hb : (UInt8.ofNat (0x80 + n)).toNat = 0x80 + n := toNat_ofNat (by omega)
  simp only [decodeFrom, hb]
  rw [if_pos (by omega), show 0x80 + n - 0x80 = n by omega]

/-- The last continuation byte of a character. -/
theorem decodeFrom_last {n value least : Nat} (bs : List UInt8) (h : n < 64) :
    decodeFrom ⟨1, value, least⟩ (UInt8.ofNat (0x80 + n) :: bs) =
      (accept (value * 64 + n) least).bind fun c => (decode bs).map (c :: ·) := by
  have hb : (UInt8.ofNat (0x80 + n)).toNat = 0x80 + n := toNat_ofNat (by omega)
  simp only [decodeFrom, hb]
  rw [if_pos (by omega), show 0x80 + n - 0x80 = n by omega]
  rfl

/-- Decoding one encoded character reads that character and leaves the rest. -/
theorem decode_encodeScalar (c : CodePoint) (hs : isSurrogate c = false) (bs : List UInt8) :
    decode (encodeScalar c ++ bs) = (decode bs).map (c :: ·) := by
  have hc := c.isLt
  unfold encodeScalar
  split
  · next h =>
    have hb : (UInt8.ofNat c).toNat = c := toNat_ofNat (by omega)
    show decodeFrom .start (_ :: bs) = _
    simp only [DecodeState.start, decodeFrom, hb, h, if_true, accept_self c hs (Nat.zero_le _)]
    rfl
  split
  · next h1 h2 =>
    show decodeFrom .start (_ :: _ :: bs) = _
    rw [decodeFrom_lead _ (.inl ⟨rfl, rfl, rfl, by omega⟩), decodeFrom_last _ (by omega),
      show c.val / 64 * 64 + c.val % 64 = c.val by omega, accept_self c hs (by omega)]
    rfl
  split
  · next h1 h2 h3 =>
    show decodeFrom .start (_ :: _ :: _ :: bs) = _
    rw [decodeFrom_lead _ (.inr (.inl ⟨rfl, rfl, rfl, by omega⟩)),
      decodeFrom_tail _ (by omega), decodeFrom_last _ (by omega),
      show (c.val / 4096 * 64 + c.val / 64 % 64) * 64 + c.val % 64 = c.val by omega,
      accept_self c hs (by omega)]
    rfl
  · next h1 h2 h3 =>
    show decodeFrom .start (_ :: _ :: _ :: _ :: bs) = _
    rw [decodeFrom_lead _ (.inr (.inr ⟨rfl, rfl, rfl, by omega⟩)),
      decodeFrom_tail _ (by omega), decodeFrom_tail _ (by omega), decodeFrom_last _ (by omega),
      show ((c.val / 262144 * 64 + c.val / 4096 % 64) * 64 + c.val / 64 % 64) * 64 + c.val % 64
        = c.val by omega, accept_self c hs (by omega)]
    rfl

/-- **Decoding reads back the text that was encoded.** -/
theorem decode_encode : ∀ {s : List CodePoint} {bs : List UInt8}, encode s = some bs →
    decode bs = some s
  | [], bs, h => by
      cases h
      rfl
  | c :: cs, bs, h => by
      rw [encode] at h
      split at h
      · cases h
      · next hs =>
        obtain ⟨bs', h', rfl⟩ := Option.map_eq_some_iff.mp h
        rw [decode_encodeScalar c (by simpa using hs), decode_encode h']
        rfl

/-- Texts with the same bytes are the same text. -/
theorem encode_injective {s t : List CodePoint} {bs : List UInt8} (hs : encode s = some bs)
    (ht : encode t = some bs) : s = t := by
  have h := decode_encode hs
  rw [decode_encode ht] at h
  exact (Option.some.inj h).symm

/-- The bytes of a concatenation are the bytes of its parts. -/
theorem encode_append : ∀ {s t : List CodePoint} {bs cs : List UInt8}, encode s = some bs →
    encode t = some cs → encode (s ++ t) = some (bs ++ cs)
  | [], t, bs, cs, hs, ht => by
      cases hs
      exact ht
  | c :: s, t, bs, cs, hs, ht => by
      rw [encode] at hs
      split at hs
      · cases hs
      · next hc =>
        obtain ⟨bs', h', rfl⟩ := Option.map_eq_some_iff.mp hs
        rw [List.cons_append, encode, if_neg hc, encode_append h' ht]
        simp

/-- A text has bytes exactly when it holds no surrogate. -/
theorem encode_isSome (s : List CodePoint) :
    (encode s).isSome = true ↔ ∀ c ∈ s, isSurrogate c = false := by
  induction s with
  | nil => simp [encode]
  | cons c cs ih =>
      rw [encode]
      split <;> simp_all

end QuestDbWriter.Lib.Utf8
