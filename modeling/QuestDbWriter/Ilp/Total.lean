import QuestDbWriter.Ilp.Decodable

/-!
# Rows that the encoder accepts

Names that are neither empty nor hold NUL, strings without NUL, values in range and text without
surrogates are all that `encode_row` asks for: `encodeRow_total`. What it raises otherwise has a
text that can be stored (`encodeRow_raises`), and a row it returns is a line (`encodeRow_line`).
-/

namespace QuestDbWriter

open Lib

/-! ## Text with UTF-8 bytes -/

/-- The text has no surrogate: it has UTF-8 bytes. -/
def Encodable (s : PyStr) : Prop := ∀ c ∈ s, Utf8.isSurrogate c.val = false

namespace Encodable

/-- A text has UTF-8 bytes where it has no surrogate. -/
theorem iff_isSome {s : PyStr} : Encodable s ↔ (Utf8.encode s).isSome = true :=
  (Utf8.encode_isSome s).symm

/-- Texts in a row. -/
theorem append {s t : PyStr} (hs : Encodable s) (ht : Encodable t) : Encodable (s ++ t) := by
  intro c hc
  exact (List.mem_append.mp hc).elim (hs c) (ht c)

/-- A part of a text. -/
theorem sublist {s t : PyStr} (ht : Encodable t) (h : s.Sublist t) : Encodable s :=
  fun c hc => ht c (h.subset hc)

/-- A literal of ASCII characters. -/
theorem py {s : String} (h : (s.toList.all fun c => decide (c.toNat < 128)) = true) :
    Encodable (py s) := by
  intro c hc
  obtain ⟨d, hd, rfl⟩ := List.mem_map.mp hc
  have := forall_of_all h d hd
  rw [ofChar_val, Utf8.isSurrogate, Bool.and_eq_false_iff]
  exact .inl (decide_eq_false (by omega))

/-- The digits of an integer. -/
theorem intText (n : Int) : Encodable (intText n) := by
  intro c hc
  rcases intText_char hc with rfl | ⟨d, hd, rfl⟩
  · decide
  · have hv : d.toNat ≤ 57 := by
      simp only [Char.isDigit, Bool.and_eq_true, decide_eq_true_eq] at hd
      exact hd.2
    rw [ofChar_val, Utf8.isSurrogate, Bool.and_eq_false_iff]
    exact .inl (decide_eq_false (by omega))

/-- Escaping adds one character, which is no surrogate. -/
theorem escape {esc : CodePoint} {special : List CodePoint} {s : PyStr} (hs : Encodable s)
    (hesc : Utf8.isSurrogate esc.val = false) : Encodable (Escape.escape esc special s) := by
  intro c hc
  obtain ⟨d, hd, hcd⟩ := List.mem_flatMap.mp hc
  split at hcd
  · rcases List.mem_cons.mp hcd with rfl | hcd
    · exact hesc
    · rw [List.mem_singleton.mp hcd]
      exact hs d hd
  · rw [List.mem_singleton.mp hcd]
    exact hs d hd

/-- An escaped identifier. -/
theorem replaceIdentifier {s : PyStr} (hs : Encodable s) : Encodable (Ilp.replaceIdentifier s) := by
  rw [Ilp.replaceIdentifier_eq]
  exact hs.escape (by decide)

/-- An escaped string. -/
theorem replaceString {s : PyStr} (hs : Encodable s) : Encodable (Ilp.replaceString s) := by
  rw [Ilp.replaceString_eq]
  exact hs.escape (by decide)

/-- Parts with commas between them. -/
theorem joinCommas : ∀ {parts : List PyStr}, (∀ p ∈ parts, Encodable p) →
    Encodable (Ilp.joinCommas parts)
  | [], _ => by
      intro c hc
      cases hc
  | [p], h => by
      simpa [Ilp.joinCommas] using h p (List.mem_cons_self ..)
  | p :: q :: ps, h => by
      have hjoin : Ilp.joinCommas (p :: q :: ps) =
          p ++ (QuestDbWriter.py "," ++ Ilp.joinCommas (q :: ps)) := by
        simp [Ilp.joinCommas]
      rw [hjoin]
      exact (h p (List.mem_cons_self ..)).append
        ((py (by decide)).append (joinCommas fun x hx => h x (List.mem_cons_of_mem _ hx)))

end Encodable

namespace Ilp

/-- A name that the encoder accepts. -/
structure IsName (s : PyStr) : Prop where
  nonempty : s ≠ []
  no_nul : ofChar '\x00' ∉ s
  encodable : Encodable s

/-- A name that `_require_name` lets through. -/
structure IsIdentifier (s : PyStr) : Prop where
  nonempty : s ≠ []
  no_nul : ofChar '\x00' ∉ s

/-- A name is an identifier. -/
theorem IsName.identifier {s : PyStr} (h : IsName s) : IsIdentifier s := ⟨h.nonempty, h.no_nul⟩

/-- An identifier is escaped, not refused. -/
theorem IsIdentifier.escapeIdentifier {s : PyStr} (h : IsIdentifier s) (kind : String) :
    escapeIdentifier s kind = .ok (replaceIdentifier s) := by
  rw [Ilp.escapeIdentifier, requireName, raiseUnless, if_pos h.nonempty, raiseUnless,
    if_pos h.no_nul]
  rfl

/-- A literal name. -/
theorem IsName.py {s : String} (hs : s ≠ "")
    (h : (s.toList.all fun c => decide (c.toNat < 128)) = true) (hnul : '\x00' ∉ s.toList) :
    IsName (py s) where
  nonempty := by
    intro he
    exact hs (String.toList_eq_nil_iff.mp (List.map_eq_nil_iff.mp he))
  no_nul := by
    intro hc
    obtain ⟨d, hd, he⟩ := List.mem_map.mp hc
    exact hnul (ofChar_injective he ▸ hd)
  encodable := Encodable.py h

variable {F : Type} [PyFloat F]

/-- A field value that `_encode_field` writes, or omits. -/
def Supported : FieldValue F → Prop
  | .none | .bool _ => True
  | .timestamp n | .int n => InRange n
  | .float x => PyFloat.isFinite x = true
  | .str s => ofChar '\x00' ∉ s
  | .other _ => False

/-- The text of a field value has UTF-8 bytes. -/
def ValueEncodable : FieldValue F → Prop
  | .float x => Encodable (PyFloat.repr x)
  | .str s => Encodable s
  | _ => True

/-- A field value that is encoded, or omitted. -/
def Writable (v : FieldValue F) : Prop := Supported v ∧ ValueEncodable v

/-- A supported value is encoded, and `None` is left out. -/
theorem Supported.encodeField {v : FieldValue F} (h : Supported v) :
    ∃ r, encodeField v = .ok r ∧ (r = none ↔ v = .none) ∧
      (ValueEncodable v → ∀ t ∈ r, Encodable t) := by
  cases v with
  | none => exact ⟨none, rfl, by simp, by simp⟩
  | bool b =>
      refine ⟨_, rfl, by simp, ?_⟩
      rintro - t ⟨⟩
      cases b <;> exact Encodable.py (by decide)
  | timestamp n =>
      refine ⟨some (intText n ++ py "t"), ?_, by simp, ?_⟩
      · exact bind_ok.mpr ⟨(), raiseUnless_ok.mpr h, rfl⟩
      · rintro - t ⟨⟩
        exact (Encodable.intText n).append (Encodable.py (by decide))
  | int n =>
      refine ⟨some (intText n ++ py "i"), ?_, by simp, ?_⟩
      · exact bind_ok.mpr ⟨(), raiseUnless_ok.mpr h, rfl⟩
      · rintro - t ⟨⟩
        exact (Encodable.intText n).append (Encodable.py (by decide))
  | float x =>
      refine ⟨some (PyFloat.repr x), ?_, by simp, ?_⟩
      · exact bind_ok.mpr ⟨(), raiseUnless_ok.mpr h, rfl⟩
      · rintro henc t ⟨⟩
        exact henc
  | str s =>
      refine ⟨some (py "\"" ++ replaceString s ++ py "\""), ?_, by simp, ?_⟩
      · exact bind_ok.mpr ⟨_, bind_ok.mpr ⟨(), raiseUnless_ok.mpr h, rfl⟩, rfl⟩
      · rintro henc t ⟨⟩
        exact ((Encodable.py (by decide)).append (Encodable.replaceString henc)).append
          (Encodable.py (by decide))
  | other name => exact h.elim

/-- The symbols of a row are encoded where all of them are identifiers. -/
theorem symbolParts_total : ∀ (symbols : List (PyStr × Option PyStr)),
    (∀ s ∈ symbols, IsIdentifier s.1 ∧ ∀ v ∈ s.2, IsIdentifier v) →
    ∃ parts, symbolParts symbols = .ok parts ∧
      ((∀ s ∈ symbols, Encodable s.1 ∧ ∀ v ∈ s.2, Encodable v) → ∀ p ∈ parts, Encodable p)
  | [], _ => ⟨[], rfl, by simp⟩
  | (_, none) :: rest, h => by
      obtain ⟨parts, hparts, henc⟩ := symbolParts_total rest
        (fun s hs => h s (List.mem_cons_of_mem _ hs))
      exact ⟨parts, hparts, fun he => henc fun s hs => he s (List.mem_cons_of_mem _ hs)⟩
  | (key, some value) :: rest, h => by
      obtain ⟨hkey, hvalue⟩ := h _ (List.mem_cons_self ..)
      have hvalue := hvalue value rfl
      obtain ⟨parts, hparts, henc⟩ := symbolParts_total rest
        (fun s hs => h s (List.mem_cons_of_mem _ hs))
      refine ⟨(replaceIdentifier key ++ py "=" ++ replaceIdentifier value) :: parts, ?_, ?_⟩
      · rw [symbolParts, hkey.escapeIdentifier, hvalue.escapeIdentifier, hparts]
        rfl
      · intro he p hp
        obtain ⟨hekey, hevalue⟩ := he _ (List.mem_cons_self ..)
        rcases List.mem_cons.mp hp with rfl | hp
        · exact (hekey.replaceIdentifier.append (Encodable.py (by decide))).append
            (hevalue value rfl).replaceIdentifier
        · exact henc (fun s hs => he s (List.mem_cons_of_mem _ hs)) p hp

/-- The fields of a row are encoded where their values are supported. -/
theorem fieldParts_total : ∀ {fields : List (PyStr × FieldValue F)},
    (∀ f ∈ fields, IsIdentifier f.1 ∧ Supported f.2) →
    ∃ parts, fieldParts fields = .ok parts ∧
      ((∀ f ∈ fields, Encodable f.1 ∧ ValueEncodable f.2) → ∀ p ∈ parts, Encodable p) ∧
      ((∃ f ∈ fields, f.2 ≠ .none) → parts ≠ [])
  | [], _ => ⟨[], rfl, by simp, by simp⟩
  | (key, v) :: rest, h => by
      obtain ⟨hkey, hv⟩ := h _ (List.mem_cons_self ..)
      obtain ⟨parts, hparts, henc, hne⟩ := fieldParts_total
        (fun s hs => h s (List.mem_cons_of_mem _ hs))
      obtain ⟨r, hr, hnone, ht⟩ := hv.encodeField
      cases r with
      | none =>
          refine ⟨parts, ?_, fun he => henc fun s hs => he s (List.mem_cons_of_mem _ hs), ?_⟩
          · rw [fieldParts, hr]
            exact hparts
          · rintro ⟨f, hf, hfne⟩
            rcases List.mem_cons.mp hf with rfl | hf
            · exact absurd (hnone.mp rfl) hfne
            · exact hne ⟨f, hf, hfne⟩
      | some text =>
          refine ⟨(replaceIdentifier key ++ py "=" ++ text) :: parts, ?_, ?_, by simp⟩
          · rw [fieldParts, hr]
            show (do
              let key ← escapeIdentifier key "field key"
              let parts ← fieldParts rest
              pure ((key ++ py "=" ++ text) :: parts)) = _
            rw [hkey.escapeIdentifier, hparts]
            rfl
          · intro he p hp
            obtain ⟨hekey, hevalue⟩ := he _ (List.mem_cons_self ..)
            rcases List.mem_cons.mp hp with rfl | hp
            · exact (hekey.replaceIdentifier.append (Encodable.py (by decide))).append
                (ht hevalue text rfl)
            · exact henc (fun s hs => he s (List.mem_cons_of_mem _ hs)) p hp

section
variable {table : PyStr} {symbols : List (PyStr × Option PyStr)}
  {fields : List (PyStr × FieldValue F)} {timestampNs : Int}

/-- **A row of acceptable names and values, with a field that is not null, is the UTF-8 text of its
line**, which has one if each of them has. -/
theorem encodeRow_text (htable : IsIdentifier table)
    (hsymbols : ∀ s ∈ symbols, IsIdentifier s.1 ∧ ∀ v ∈ s.2, IsIdentifier v)
    (hfields : ∀ f ∈ fields, IsIdentifier f.1 ∧ Supported f.2) (hne : ∃ f ∈ fields, f.2 ≠ .none)
    (ht : timestampNs.natAbs < 10 ^ maxStrDigits) :
    ∃ line, encodeRow table symbols fields timestampNs = encodeUtf8 line ∧
      (Encodable table → (∀ s ∈ symbols, Encodable s.1 ∧ ∀ v ∈ s.2, Encodable v) →
        (∀ f ∈ fields, Encodable f.1 ∧ ValueEncodable f.2) → Encodable line) := by
  obtain ⟨sparts, hsparts, hsenc⟩ := symbolParts_total _ hsymbols
  obtain ⟨fparts, hfparts, hfenc, hfne⟩ := fieldParts_total hfields
  have hformat : formatInt timestampNs = .ok (intText timestampNs) :=
    bind_ok.mpr ⟨(), raiseUnless_ok.mpr ht, rfl⟩
  refine ⟨lineText (replaceIdentifier table) sparts fparts (intText timestampNs), ?_, ?_⟩
  · exact (bind_of_ok (htable.escapeIdentifier _)).trans <| (bind_of_ok hsparts).trans <|
      (bind_of_ok hfparts).trans <| (bind_of_ok (a := ()) (raiseUnless_ok.mpr (hfne hne))).trans <|
      bind_of_ok hformat
  · intro hetable hesymbols hefields
    have hsym : Encodable (if sparts ≠ [] then py "," ++ joinCommas sparts else []) := by
      split
      · exact (Encodable.py (by decide)).append (Encodable.joinCommas (hsenc hesymbols))
      · exact nofun
    exact (((((hetable.replaceIdentifier.append hsym).append (Encodable.py (by decide))).append
      (Encodable.joinCommas (hfenc hefields))).append (Encodable.py (by decide))).append
      (Encodable.intText _)).append (Encodable.py (by decide))

/-- A row whose names and values have UTF-8 bytes, too, is encoded. -/
theorem encodeRow_total (htable : IsName table)
    (hsymbols : ∀ s ∈ symbols, IsName s.1 ∧ ∀ v ∈ s.2, IsName v)
    (hfields : ∀ f ∈ fields, IsName f.1 ∧ Writable f.2) (hne : ∃ f ∈ fields, f.2 ≠ .none)
    (ht : timestampNs.natAbs < 10 ^ maxStrDigits) :
    ∃ bs, encodeRow table symbols fields timestampNs = .ok bs := by
  obtain ⟨line, hline, henc⟩ := encodeRow_text htable.identifier
    (fun s hs => ⟨(hsymbols s hs).1.identifier, fun v hv => ((hsymbols s hs).2 v hv).identifier⟩)
    (fun f hf => ⟨(hfields f hf).1.identifier, (hfields f hf).2.1⟩) hne ht
  have htext := henc htable.encodable
    (fun s hs => ⟨(hsymbols s hs).1.encodable, fun v hv => ((hsymbols s hs).2 v hv).encodable⟩)
    (fun f hf => ⟨(hfields f hf).1.encodable, (hfields f hf).2.2⟩)
  obtain ⟨bs, hbs⟩ := Option.isSome_iff_exists.mp (Encodable.iff_isSome.mp htext)
  exact ⟨bs, hline.trans (encodeUtf8_ok.mpr hbs)⟩

end

/-! ## What the encoder raises, and how a row ends -/

/-- The text of an exception has UTF-8 bytes. -/
def TextEncodable (e : Exc) : Prop := Encodable e.message

/-- What encoding raises can be encoded itself. -/
theorem encodeUtf8_raises (s : PyStr) : RaisesOnly TextEncodable (encodeUtf8 s) := by
  intro e he
  unfold encodeUtf8 at he
  split at he <;> cases he
  exact .py (by decide)

/-- What an integer raises can be encoded itself. -/
theorem formatInt_raises (n : Int) : RaisesOnly TextEncodable (formatInt n) :=
  (RaisesOnly.raiseUnless fun _ => .py (by decide)).bind fun _ _ => .pure _

/-- A kind of name is a text of ASCII characters. -/
theorem escapeIdentifier_raises (value : PyStr) {kind : String}
    (hkind : (kind.toList.all fun c => decide (c.toNat < 128)) = true) :
    RaisesOnly TextEncodable (escapeIdentifier value kind) := by
  have hrequire : RaisesOnly TextEncodable (requireName value kind) :=
    (RaisesOnly.raiseUnless fun _ => (Encodable.py hkind).append (.py (by decide))).bind
      fun _ _ => .raiseUnless fun _ => (Encodable.py hkind).append (.py (by decide))
  exact hrequire.bind fun _ _ => .pure _

/-- What a value raises can be encoded itself. -/
theorem encodeField_raises {v : FieldValue F} (hv : ∀ name, v = .other name → Encodable name) :
    RaisesOnly TextEncodable (encodeField v) := by
  cases v with
  | none => exact .pure _
  | bool b => exact .pure _
  | timestamp n => exact (RaisesOnly.raiseUnless fun _ => .py (by decide)).bind fun _ _ => .pure _
  | int n => exact (RaisesOnly.raiseUnless fun _ => .py (by decide)).bind fun _ _ => .pure _
  | float x => exact (RaisesOnly.raiseUnless fun _ => .py (by decide)).bind fun _ _ => .pure _
  | str s =>
    have hescape : RaisesOnly TextEncodable (escapeString s) :=
      (RaisesOnly.raiseUnless fun _ => .py (by decide)).bind fun _ _ => .pure _
    exact hescape.bind fun _ _ => .pure _
  | other name =>
    intro e he
    cases he
    exact (Encodable.py (by decide)).append (hv name rfl)

/-- What the symbols raise can be encoded itself. -/
theorem symbolParts_raises : ∀ symbols : List (PyStr × Option PyStr),
    RaisesOnly TextEncodable (symbolParts symbols)
  | [] => .pure _
  | (_, none) :: rest => symbolParts_raises rest
  | (_, some _) :: rest =>
    (escapeIdentifier_raises _ (by decide)).bind fun _ _ =>
      (escapeIdentifier_raises _ (by decide)).bind fun _ _ =>
        (symbolParts_raises rest).bind fun _ _ => .pure _

/-- What the fields raise can be encoded itself. -/
theorem fieldParts_raises : ∀ {fields : List (PyStr × FieldValue F)},
    (∀ f ∈ fields, ∀ name, f.2 = .other name → Encodable name) →
    RaisesOnly TextEncodable (fieldParts fields)
  | [], _ => .pure _
  | (_, _) :: _, h => by
    refine (encodeField_raises (h _ (List.mem_cons_self ..))).bind fun r _ => ?_
    have hrest := fieldParts_raises fun f hf => h f (List.mem_cons_of_mem _ hf)
    cases r with
    | none => exact hrest
    | some text =>
      exact (escapeIdentifier_raises _ (by decide)).bind fun _ _ => hrest.bind fun _ _ => .pure _

/-- **Whatever the encoder raises has a text with UTF-8 bytes**, if the names of unsupported types
have them. -/
theorem encodeRow_raises (table : PyStr) (symbols : List (PyStr × Option PyStr))
    {fields : List (PyStr × FieldValue F)}
    (h : ∀ f ∈ fields, ∀ name, f.2 = .other name → Encodable name) (timestampNs : Int) :
    RaisesOnly TextEncodable (encodeRow table symbols fields timestampNs) :=
  (escapeIdentifier_raises _ (by decide)).bind fun _ _ =>
    (symbolParts_raises symbols).bind fun _ _ => (fieldParts_raises h).bind fun _ _ =>
      (RaisesOnly.raiseUnless fun _ => .py (by decide)).bind fun _ _ =>
        (formatInt_raises _).bind fun _ _ => encodeUtf8_raises _

/-- **A row ends with a newline.** -/
theorem encodeRow_line {table : PyStr} {symbols : List (PyStr × Option PyStr)}
    {fields : List (PyStr × FieldValue F)} {timestampNs : Int} {bs : Bytes}
    (h : encodeRow table symbols fields timestampNs = .ok bs) : bs.getLast? = some 10 := by
  obtain ⟨measurement, -, h⟩ := bind_ok.mp h
  obtain ⟨sparts, -, h⟩ := bind_ok.mp h
  obtain ⟨fparts, -, h⟩ := bind_ok.mp h
  obtain ⟨-, -, h⟩ := bind_ok.mp h
  obtain ⟨timestamp, -, h⟩ := bind_ok.mp h
  have hbs := encodeUtf8_ok.mp h
  rw [lineText] at hbs
  generalize measurement ++ _ ++ _ ++ _ ++ _ ++ timestamp = line at hbs
  have hline : Encodable line := by
    have hall : Encodable (line ++ py "\n") := Encodable.iff_isSome.mpr (by rw [hbs]; rfl)
    exact hall.sublist (List.sublist_append_left ..)
  obtain ⟨pre, hpre⟩ := Option.isSome_iff_exists.mp (Encodable.iff_isSome.mp hline)
  have hend : Utf8.encode (py "\n") = some [10] := by decide
  have happend := Utf8.encode_append hpre hend
  rw [hbs] at happend
  cases happend
  exact List.getLast?_concat

end Ilp

end QuestDbWriter
