import QuestDbWriter.Ilp.Encode

/-!
# ILP batches are uniquely decodable

A row is written as its non-null content (`IlpContent`): escaped tokens between unescaped
delimiters. Each part of a row ends where it was written to end, whatever its content is
(`Escape.readUntil_escape`), so equal texts have equal parts, part by part from the left:
`symbolTail_cancel`, `fieldTail_cancel`, `rowText_cancel`. `encodeRow_ok` says that the encoder
writes that text, and `batch_uniquely_decodable` puts rows in a row.
-/

namespace QuestDbWriter.Ilp

open Lib

/-! ## The two escaping schemes -/

/-- The characters that `_escape_identifier` escapes. -/
def identifierSpecial : List CodePoint :=
  [ofChar '\\', ofChar ' ', ofChar ',', ofChar '=', ofChar '\n', ofChar '\r']

/-- The characters that `_escape_string` escapes. -/
def stringSpecial : List CodePoint := [ofChar '\\', ofChar '"', ofChar '\n', ofChar '\r']

/-- The chain of `replace` calls is the escape of single characters. -/
theorem replaceIdentifier_eq (s : PyStr) :
    replaceIdentifier s = Escape.escape (ofChar '\\') identifierSpecial s := by
  have h : Escape.replaceAll (ofChar '\\') _ _ = _ := Escape.escape_replace
    [ofChar ' ', ofChar ',', ofChar '=', ofChar '\n', ofChar '\r'] [ofChar '\\']
    (by decide) (by decide) s
  rw [← Escape.escape_self] at h
  exact h

/-- So is the chain for string values. -/
theorem replaceString_eq (s : PyStr) :
    replaceString s = Escape.escape (ofChar '\\') stringSpecial s := by
  have h : Escape.replaceAll (ofChar '\\') _ _ = _ := Escape.escape_replace
    [ofChar '"', ofChar '\n', ofChar '\r'] [ofChar '\\'] (by decide) (by decide) s
  rw [← Escape.escape_self] at h
  exact h

/-- An identifier ends at the first delimiter after it: equal texts hold equal identifiers. -/
theorem identifier_cancel {s s' rest rest' : PyStr} {d d' : CodePoint}
    (hd : d ∈ [ofChar ',', ofChar ' ', ofChar '='])
    (hd' : d' ∈ [ofChar ',', ofChar ' ', ofChar '='])
    (h : replaceIdentifier s ++ d :: rest = replaceIdentifier s' ++ d' :: rest') :
    s = s' ∧ d = d' ∧ rest = rest' := by
  have hesc : ofChar '\\' ∈ identifierSpecial := by decide
  have hstop : ∀ c ∈ [ofChar ',', ofChar ' ', ofChar '='], c ∈ identifierSpecial := by
    simp [identifierSpecial]
  have hne : ∀ c ∈ [ofChar ',', ofChar ' ', ofChar '='], c ≠ ofChar '\\' := by
    simp only [List.forall_mem_cons]
    exact ⟨by decide, by decide, by decide, by simp⟩
  rw [replaceIdentifier_eq, replaceIdentifier_eq] at h
  have h1 := Escape.readUntil_escape hesc hstop hd (hne d hd) rest s
  rw [h, Escape.readUntil_escape hesc hstop hd' (hne d' hd') rest' s'] at h1
  simpa [eq_comm] using h1

/-- A string ends at the first quote after it. -/
theorem string_cancel {s s' rest rest' : PyStr}
    (h : replaceString s ++ ofChar '"' :: rest = replaceString s' ++ ofChar '"' :: rest') :
    s = s' ∧ rest = rest' := by
  have hesc : ofChar '\\' ∈ stringSpecial := by decide
  have hstop : ∀ c ∈ [ofChar '"'], c ∈ stringSpecial := by simp [stringSpecial]
  have hne : ofChar '"' ≠ ofChar '\\' := by decide
  rw [replaceString_eq, replaceString_eq] at h
  have h1 := Escape.readUntil_escape hesc hstop (List.mem_singleton_self _) hne rest s
  rw [h, Escape.readUntil_escape hesc hstop (List.mem_singleton_self _) hne rest' s'] at h1
  simpa [eq_comm] using h1

/-- A text that holds none of the delimiters ends at the first of them. -/
theorem plain_cancel (stop : List CodePoint) (hstop : ofChar '\\' ∉ stop) {s s' rest rest' : PyStr}
    {d d' : CodePoint} (hd : d ∈ stop) (hd' : d' ∈ stop)
    (hs : ∀ c ∈ s, c ≠ ofChar '\\' ∧ c ∉ stop) (hs' : ∀ c ∈ s', c ≠ ofChar '\\' ∧ c ∉ stop)
    (h : s ++ d :: rest = s' ++ d' :: rest') : s = s' ∧ d = d' ∧ rest = rest' := by
  have hne : ∀ c ∈ stop, c ≠ ofChar '\\' := fun c hc he => hstop (he ▸ hc)
  have h1 := Escape.readUntil_plain hd (hne d hd) rest hs
  rw [h, Escape.readUntil_plain hd' (hne d' hd') rest' hs'] at h1
  simpa [eq_comm] using h1

/-! ## Field values -/

section
variable {F : Type} [PyFloat F]

/-- What Python promises of `repr` on finite floats: it is injective, and a text over the digits
and `.`, `e`, `+`, `-`. -/
structure LawfulRepr (F : Type) [PyFloat F] : Prop where
  injective : ∀ x y : F, PyFloat.isFinite x = true → PyFloat.isFinite y = true →
    PyFloat.repr x = PyFloat.repr y → x = y
  chars : ∀ x : F, PyFloat.isFinite x = true → ∀ c ∈ PyFloat.repr x, c ∈ py "0123456789.e+-"

/-- A value that is written as a token without quotes. -/
inductive Plain : FieldValue F → PyStr → Prop where
  | bool (b : Bool) : Plain (.bool b) (if b then py "true" else py "false")
  | timestamp (n : Int) : Plain (.timestamp n) (intText n ++ py "t")
  | int (n : Int) : Plain (.int n) (intText n ++ py "i")
  | float (x : F) : PyFloat.isFinite x = true → Plain (.float x) (PyFloat.repr x)

/-- A value that is written, and its text. -/
inductive Written : FieldValue F → PyStr → Prop where
  | plain {v : FieldValue F} {text : PyStr} : Plain v text → Written v text
  | str (s : PyStr) : Written (.str s) (ofChar '"' :: replaceString s ++ [ofChar '"'])

/-- The encoder omits a null and writes every other value as it stands. -/
theorem encodeField_ok {v : FieldValue F} {r : Option PyStr} (h : encodeField v = .ok r) :
    (v = .none ∧ r = none) ∨ (v ≠ .none ∧ ∃ text, r = some text ∧ Written v text) := by
  cases v with
  | none =>
      cases h
      exact .inl ⟨rfl, rfl⟩
  | bool b =>
      cases h
      exact .inr ⟨nofun, _, rfl, .plain (.bool b)⟩
  | timestamp n =>
      obtain ⟨_, -, h⟩ := bind_ok.mp h
      cases h
      exact .inr ⟨nofun, _, rfl, .plain (.timestamp n)⟩
  | int n =>
      obtain ⟨_, -, h⟩ := bind_ok.mp h
      cases h
      exact .inr ⟨nofun, _, rfl, .plain (.int n)⟩
  | float x =>
      obtain ⟨_, hx, h⟩ := bind_ok.mp h
      cases h
      exact .inr ⟨nofun, _, rfl, .plain (.float x (raiseUnless_ok.mp hx))⟩
  | str s =>
      obtain ⟨text, htext, h⟩ := bind_ok.mp h
      obtain ⟨_, -, htext⟩ := bind_ok.mp htext
      cases htext
      cases h
      exact .inr ⟨nofun, _, rfl, .str s⟩
  | other name => cases h

/-- A character that is neither a digit nor a minus sign is in no decimal integer. -/
theorem not_mem_intText {c : Char} (hc : c.isDigit = false) (hm : c ≠ '-') (n : Int) :
    ofChar c ∉ intText n := by
  intro h
  rcases intText_char h with he | ⟨d, hd, he⟩
  · exact hm (ofChar_injective he)
  · rw [ofChar_injective he, hd] at hc
    cases hc

variable (hF : LawfulRepr F)
include hF

/-- The tokens without quotes hold no delimiter. -/
theorem Plain.not_mem {v : FieldValue F} {text : PyStr} (h : Plain v text) {c : Char}
    (hc : c ∈ [',', ' ', '"', '\\']) : ofChar c ∉ text := by
  have hdigit : c.isDigit = false ∧ c ≠ '-' :=
    forall_of_all (P := fun c : Char => c.isDigit = false ∧ c ≠ '-') (by decide) c hc
  cases h with
  | bool b =>
      cases b with
      | true => exact forall_of_all (P := fun c => ofChar c ∉ py "true") (by decide) c hc
      | false => exact forall_of_all (P := fun c => ofChar c ∉ py "false") (by decide) c hc
  | timestamp n =>
      rw [List.mem_append, not_or]
      exact ⟨not_mem_intText hdigit.1 hdigit.2 n,
        forall_of_all (P := fun c => ofChar c ∉ py "t") (by decide) c hc⟩
  | int n =>
      rw [List.mem_append, not_or]
      exact ⟨not_mem_intText hdigit.1 hdigit.2 n,
        forall_of_all (P := fun c => ofChar c ∉ py "i") (by decide) c hc⟩
  | float x hx =>
      have hnot : ofChar c ∉ py "0123456789.e+-" :=
        forall_of_all (P := fun c => ofChar c ∉ py "0123456789.e+-") (by decide) c hc
      exact fun hmem => hnot (hF.chars x hx _ hmem)

/-- The letters that tell the tokens without quotes apart: `r` and `f` are in the two booleans
only, `t` ends a timestamp and `i` an integer, and a float holds none of the four. -/
theorem Plain.letters {v : FieldValue F} {text : PyStr} (h : Plain v text) :
    (ofChar 'r' ∈ text ↔ v = .bool true) ∧ (ofChar 'f' ∈ text ↔ v = .bool false) ∧
      (ofChar 'i' ∈ text ↔ ∃ n, v = .int n) ∧
      (ofChar 't' ∈ text ↔ v = .bool true ∨ ∃ n, v = .timestamp n) := by
  have hint {c : Char} (hc : c ∈ ['r', 'f', 't', 'i']) (n : Int) : ofChar c ∉ intText n := by
    have hdigit : c.isDigit = false ∧ c ≠ '-' :=
      forall_of_all (P := fun c : Char => c.isDigit = false ∧ c ≠ '-') (by decide) c hc
    exact not_mem_intText hdigit.1 hdigit.2 n
  have hfloat {c : Char} (hc : c ∈ ['r', 'f', 't', 'i']) {x : F}
      (hx : PyFloat.isFinite x = true) : ofChar c ∉ PyFloat.repr x := by
    have hnot : ofChar c ∉ py "0123456789.e+-" :=
      forall_of_all (P := fun c => ofChar c ∉ py "0123456789.e+-") (by decide) c hc
    exact fun hmem => hnot (hF.chars x hx _ hmem)
  have hr := hint (c := 'r') (by decide)
  have hf := hint (c := 'f') (by decide)
  have ht := hint (c := 't') (by decide)
  have hi := hint (c := 'i') (by decide)
  cases h with
  | bool b =>
      have hmem : ∀ b : Bool, (ofChar 'r' ∈ (if b then py "true" else py "false") ↔ b = true) ∧
          (ofChar 'f' ∈ (if b then py "true" else py "false") ↔ b = false) ∧
          ofChar 'i' ∉ (if b then py "true" else py "false") ∧
          (ofChar 't' ∈ (if b then py "true" else py "false") ↔ b = true) := by decide
      simpa using hmem b
  | timestamp n =>
      have h1 : ofChar 'r' ∉ py "t" ∧ ofChar 'f' ∉ py "t" ∧ ofChar 'i' ∉ py "t" ∧
          ofChar 't' ∈ py "t" := by decide
      simp [hr n, hf n, hi n, ht n, h1]
  | int n =>
      have h1 : ofChar 'r' ∉ py "i" ∧ ofChar 'f' ∉ py "i" ∧ ofChar 'i' ∈ py "i" ∧
          ofChar 't' ∉ py "i" := by decide
      simp [hr n, hf n, hi n, ht n, h1]
  | float x hx =>
      simp [hfloat (c := 'r') (by decide) hx, hfloat (c := 'f') (by decide) hx,
        hfloat (c := 't') (by decide) hx, hfloat (c := 'i') (by decide) hx]

/-- A token without quotes is the token of one value. -/
theorem Plain.injective {v v' : FieldValue F} {text text' : PyStr} (h : Plain v text)
    (h' : Plain v' text') (he : text = text') : v = v' := by
  subst he
  obtain ⟨hr, hf, hi, ht⟩ := h.letters hF
  obtain ⟨hr', hf', hi', ht'⟩ := h'.letters hF
  generalize hte : text = text' at h'
  cases h with
  | bool b =>
      cases b with
      | true => exact (hr'.mp (hr.mpr rfl)).symm
      | false => exact (hf'.mp (hf.mpr rfl)).symm
  | timestamp n =>
      cases h' with
      | timestamp m => rw [intText_injective (List.append_cancel_right hte)]
      | bool b =>
          cases b with
          | true => simpa using hr.mp (hr'.mpr rfl)
          | false => simpa using hf.mp (hf'.mpr rfl)
      | int m | float x hx => simpa using ht'.mp (ht.mpr (.inr ⟨n, rfl⟩))
  | int n =>
      cases h' with
      | int m => rw [intText_injective (List.append_cancel_right hte)]
      | bool b | timestamp m | float x hx => simpa using hi'.mp (hi.mpr ⟨n, rfl⟩)
  | float x hx =>
      cases h' with
      | float y hy => rw [hF.injective x y hx hy hte]
      | bool b => cases b <;> simp_all
      | timestamp m => simpa using ht.mp (ht'.mpr (.inr ⟨m, rfl⟩))
      | int m => simpa using hi.mp (hi'.mpr ⟨m, rfl⟩)

/-- A field value ends at the first comma or blank after it. -/
theorem written_cancel {v v' : FieldValue F} {text text' rest rest' : PyStr} {d d' : CodePoint}
    (hv : Written v text) (hv' : Written v' text') (hd : d ∈ [ofChar ',', ofChar ' '])
    (hd' : d' ∈ [ofChar ',', ofChar ' ']) (h : text ++ d :: rest = text' ++ d' :: rest') :
    v = v' ∧ d = d' ∧ rest = rest' := by
  have hquote : ∀ c ∈ [ofChar ',', ofChar ' '], c ≠ ofChar '"' := by
    simp only [List.forall_mem_cons]
    exact ⟨by decide, by decide, by simp⟩
  have hhead {v : FieldValue F} {text rest : PyStr} {d : CodePoint} (hp : Plain v text)
      (hd : d ∈ [ofChar ',', ofChar ' ']) (s : PyStr) : text ++ d :: rest ≠ ofChar '"' :: s := by
    cases text with
    | nil => exact fun he => hquote d hd (List.cons.inj he).1
    | cons c text =>
        intro he
        exact hp.not_mem hF (c := '"') (by decide) ((List.cons.inj he).1 ▸ List.mem_cons_self ..)
  have hplain {v : FieldValue F} {text : PyStr} (hp : Plain v text) :
      ∀ c ∈ text, c ≠ ofChar '\\' ∧ c ∉ [ofChar ',', ofChar ' '] := by
    intro c hc
    refine ⟨fun he => hp.not_mem hF (c := '\\') (by decide) (he ▸ hc), ?_⟩
    rw [List.mem_cons, List.mem_singleton, not_or]
    exact ⟨fun he => hp.not_mem hF (c := ',') (by decide) (he ▸ hc),
      fun he => hp.not_mem hF (c := ' ') (by decide) (he ▸ hc)⟩
  cases hv with
  | plain hp =>
      cases hv' with
      | plain hp' =>
          have hstop : ofChar '\\' ∉ [ofChar ',', ofChar ' '] := by decide
          obtain ⟨ht, hdd, hr⟩ := plain_cancel _ hstop hd hd' (hplain hp) (hplain hp') h
          exact ⟨hp.injective hF hp' ht, hdd, hr⟩
      | str s => exact absurd h (hhead hp hd _)
  | str s =>
      cases hv' with
      | plain hp' => exact absurd h.symm (hhead hp' hd' _)
      | str s' =>
          have h1 : replaceString s ++ ofChar '"' :: (d :: rest) =
              replaceString s' ++ ofChar '"' :: (d' :: rest') := by simpa using h
          obtain ⟨hs, hr⟩ := string_cancel h1
          exact ⟨by rw [hs], List.cons.inj hr⟩

end

/-! ## Rows -/

/-- What a row says: its table, its non-null symbols and fields in their order, its time. -/
structure IlpContent (F : Type) where
  table : PyStr
  symbols : List (PyStr × PyStr)
  fields : List (PyStr × FieldValue F)
  timestampNs : Int

/-- One call of `encode_row`. -/
structure IlpRow (F : Type) where
  table : PyStr
  symbols : List (PyStr × Option PyStr)
  fields : List (PyStr × FieldValue F)
  timestampNs : Int

variable {F : Type}

/-- The call's bytes. -/
def IlpRow.encode [PyFloat F] (row : IlpRow F) : Except Exc Bytes :=
  encodeRow row.table row.symbols row.fields row.timestampNs

/-- A field whose value is `None` is left out. -/
def FieldValue.isNull : FieldValue F → Bool
  | .none => true
  | _ => false

/-- The call's content: nulls are dropped. -/
def IlpRow.content (row : IlpRow F) : IlpContent F where
  table := row.table
  symbols := row.symbols.filterMap fun s => s.2.map (s.1, ·)
  fields := row.fields.filter fun f => !FieldValue.isNull f.2
  timestampNs := row.timestampNs

/-- The text of the symbols, each after its comma. -/
def symbolText : List (PyStr × PyStr) → PyStr
  | [] => []
  | (key, value) :: rest =>
      ofChar ',' :: (replaceIdentifier key ++ ofChar '=' ::
        (replaceIdentifier value ++ symbolText rest))

/-- The text of the fields, each after a comma. -/
inductive FieldText [PyFloat F] : List (PyStr × FieldValue F) → PyStr → Prop where
  | nil : FieldText [] []
  | cons {key : PyStr} {v : FieldValue F} {text tail : PyStr}
      {rest : List (PyStr × FieldValue F)} : Written v text → FieldText rest tail →
      FieldText ((key, v) :: rest)
        (ofChar ',' :: (replaceIdentifier key ++ ofChar '=' :: (text ++ tail)))

/-- The text of a row: what the encoder writes of its content. The first field has no comma. -/
def RowText [PyFloat F] (c : IlpContent F) (text : PyStr) : Prop :=
  ∃ fields, FieldText c.fields (ofChar ',' :: fields) ∧
    text = replaceIdentifier c.table ++ (symbolText c.symbols ++ ofChar ' ' ::
      (fields ++ ofChar ' ' :: (intText c.timestampNs ++ [ofChar '\n'])))

/-- What follows an identifier: one of the delimiters, unescaped. -/
def Delimited (s : PyStr) : Prop :=
  ∃ d ∈ [ofChar ',', ofChar ' ', ofChar '='], ∃ rest, s = d :: rest

/-- An identifier ends at the first delimiter that is not escaped. -/
theorem identifier_cancel_delimited {s s' t t' : PyStr} (ht : Delimited t) (ht' : Delimited t')
    (h : replaceIdentifier s ++ t = replaceIdentifier s' ++ t') : s = s' ∧ t = t' := by
  obtain ⟨d, hd, rest, rfl⟩ := ht
  obtain ⟨d', hd', rest', rfl⟩ := ht'
  obtain ⟨hs, rfl, rfl⟩ := identifier_cancel hd hd' h
  exact ⟨hs, rfl⟩

/-- What follows the table's name starts with a delimiter. -/
theorem delimited_symbolText (symbols : List (PyStr × PyStr)) (rest : PyStr) :
    Delimited (symbolText symbols ++ ofChar ' ' :: rest) := by
  cases symbols with
  | nil => exact ⟨ofChar ' ', by simp, rest, rfl⟩
  | cons s symbols => exact ⟨ofChar ',', by simp, _, rfl⟩

/-- The symbols end at the first blank after them. -/
theorem symbolText_cancel : ∀ {symbols symbols' : List (PyStr × PyStr)} {rest rest' : PyStr},
    symbolText symbols ++ ofChar ' ' :: rest = symbolText symbols' ++ ofChar ' ' :: rest' →
    symbols = symbols' ∧ rest = rest'
  | [], [], _, _, h => ⟨rfl, (List.cons.inj h).2⟩
  | [], (_, _) :: _, _, _, h => absurd (List.cons.inj h).1 (by decide)
  | (_, _) :: _, [], _, _, h => absurd (List.cons.inj h).1 (by decide)
  | (key, value) :: symbols, (key', value') :: symbols', rest, rest', h => by
      have hkey : replaceIdentifier key ++ ofChar '=' ::
            (replaceIdentifier value ++ (symbolText symbols ++ ofChar ' ' :: rest)) =
          replaceIdentifier key' ++ ofChar '=' ::
            (replaceIdentifier value' ++ (symbolText symbols' ++ ofChar ' ' :: rest')) := by
        simpa [symbolText] using h
      obtain ⟨rfl, -, hvalue⟩ := identifier_cancel (by simp) (by simp) hkey
      obtain ⟨rfl, htail⟩ := identifier_cancel_delimited (delimited_symbolText symbols rest)
        (delimited_symbolText symbols' rest') hvalue
      obtain ⟨rfl, rfl⟩ := symbolText_cancel htail
      exact ⟨rfl, rfl⟩

/-- So does what follows the symbols. -/
theorem FieldText.delimited [PyFloat F] {fields : List (PyStr × FieldValue F)} {text : PyStr}
    (h : FieldText fields text) (rest : PyStr) :
    ∃ d ∈ [ofChar ',', ofChar ' '], ∃ t, text ++ ofChar ' ' :: rest = d :: t := by
  cases h with
  | nil => exact ⟨ofChar ' ', by simp, rest, rfl⟩
  | cons => exact ⟨ofChar ',', by simp, _, rfl⟩

variable [PyFloat F]

/-- The fields end at the first blank outside a string after them. -/
theorem fieldText_cancel (hF : LawfulRepr F) {fields : List (PyStr × FieldValue F)} {text : PyStr}
    (h : FieldText fields text) :
    ∀ {fields' : List (PyStr × FieldValue F)} {text' rest rest' : PyStr}, FieldText fields' text' →
      text ++ ofChar ' ' :: rest = text' ++ ofChar ' ' :: rest' →
      fields = fields' ∧ rest = rest' := by
  induction h with
  | nil =>
      intro fields' text' rest rest' h' he
      cases h' with
      | nil => exact ⟨rfl, (List.cons.inj he).2⟩
      | cons => exact absurd (List.cons.inj he).1 (by decide)
  | @cons key v text tail fields hv h ih =>
      intro fields' text' rest rest' h' he
      cases h' with
      | nil => exact absurd (List.cons.inj he).1 (by decide)
      | @cons key' v' text' tail' fields' hv' h' =>
          have hkey : replaceIdentifier key ++ ofChar '=' ::
                (text ++ (tail ++ ofChar ' ' :: rest)) =
              replaceIdentifier key' ++ ofChar '=' ::
                (text' ++ (tail' ++ ofChar ' ' :: rest')) := by
            simpa using he
          obtain ⟨rfl, -, hvalue⟩ := identifier_cancel (by simp) (by simp) hkey
          obtain ⟨d, hd, t, ht⟩ := h.delimited rest
          obtain ⟨d', hd', t', ht'⟩ := h'.delimited rest'
          rw [ht, ht'] at hvalue
          obtain ⟨rfl, rfl, rfl⟩ := written_cancel hF hv hv' hd hd' hvalue
          obtain ⟨rfl, rfl⟩ := ih h' (ht.trans ht'.symm)
          exact ⟨rfl, rfl⟩

/-- **A row ends where it was written to end**: of two texts that start with a row each, if the
texts are equal so are the rows, and so is what follows them. -/
theorem rowText_cancel (hF : LawfulRepr F) {c c' : IlpContent F} {text text' rest rest' : PyStr}
    (h : RowText c text) (h' : RowText c' text') (he : text ++ rest = text' ++ rest') :
    c = c' ∧ rest = rest' := by
  obtain ⟨fields, hf, rfl⟩ := h
  obtain ⟨fields', hf', rfl⟩ := h'
  have htable : replaceIdentifier c.table ++ (symbolText c.symbols ++ ofChar ' ' ::
        (fields ++ ofChar ' ' :: (intText c.timestampNs ++ ofChar '\n' :: rest))) =
      replaceIdentifier c'.table ++ (symbolText c'.symbols ++ ofChar ' ' ::
        (fields' ++ ofChar ' ' :: (intText c'.timestampNs ++ ofChar '\n' :: rest'))) := by
    simpa using he
  obtain ⟨ht, hsymbols⟩ := identifier_cancel_delimited (delimited_symbolText ..)
    (delimited_symbolText ..) htable
  obtain ⟨hs, hfields⟩ := symbolText_cancel hsymbols
  obtain ⟨hfl, htime⟩ := fieldText_cancel hF hf hf' (congrArg (ofChar ',' :: ·) hfields)
  have hdigits : ∀ n : Int, ∀ c ∈ intText n, c ≠ ofChar '\\' ∧ c ∉ [ofChar '\n'] := by
    intro n c hc
    rw [List.mem_singleton]
    exact ⟨fun h => not_mem_intText (c := '\\') (by decide) (by decide) n (h ▸ hc),
      fun h => not_mem_intText (c := '\n') (by decide) (by decide) n (h ▸ hc)⟩
  obtain ⟨hn, -, hrest⟩ := plain_cancel [ofChar '\n'] (by decide) (by simp) (by simp)
    (hdigits _) (hdigits _) htime
  obtain ⟨table, symbols, fs, n⟩ := c
  obtain ⟨table', symbols', fs', n'⟩ := c'
  have hn' : n = n' := intText_injective hn
  simp only at ht hs hfl
  rw [ht, hs, hfl, hn']
  exact ⟨rfl, hrest⟩

/-! ## The encoder -/

/-- An identifier that is accepted is escaped. -/
theorem escapeIdentifier_ok {s r : PyStr} {kind : String} (h : escapeIdentifier s kind = .ok r) :
    r = replaceIdentifier s := by
  obtain ⟨_, -, h⟩ := bind_ok.mp h
  cases h
  rfl

/-- The symbols that the encoder writes are the non-null ones. -/
theorem symbolParts_ok : ∀ (symbols : List (PyStr × Option PyStr)) {parts : List PyStr},
    symbolParts symbols = .ok parts →
    parts.flatMap (ofChar ',' :: ·) = symbolText (symbols.filterMap fun s => s.2.map (s.1, ·))
  | [], _, h => by
      cases h
      rfl
  | (_, none) :: rest, _, h => symbolParts_ok rest h
  | (key, some value) :: rest, parts, h => by
      obtain ⟨key', hkey, h⟩ := bind_ok.mp h
      obtain ⟨value', hvalue, h⟩ := bind_ok.mp h
      obtain ⟨tail, htail, h⟩ := bind_ok.mp h
      cases h
      rw [escapeIdentifier_ok hkey, escapeIdentifier_ok hvalue, List.flatMap_cons,
        symbolParts_ok rest htail]
      simp [symbolText, py]

/-- The fields that the encoder writes are the non-null ones. -/
theorem fieldParts_ok : ∀ (fields : List (PyStr × FieldValue F)) {parts : List PyStr},
    fieldParts fields = .ok parts →
    FieldText (fields.filter fun f => !FieldValue.isNull f.2) (parts.flatMap (ofChar ',' :: ·))
  | [], _, h => by
      cases h
      exact .nil
  | (key, v) :: rest, parts, h => by
      obtain ⟨encoded, hv, h⟩ := bind_ok.mp h
      rcases encodeField_ok hv with ⟨rfl, rfl⟩ | ⟨hne, text, rfl, hw⟩
      · exact fieldParts_ok rest h
      · obtain ⟨key', hkey, h⟩ := bind_ok.mp h
        obtain ⟨tail, htail, h⟩ := bind_ok.mp h
        cases h
        have hkeep : FieldValue.isNull v = false := by
          cases v <;> first | rfl | exact absurd rfl hne
        rw [List.filter_cons_of_pos (by simp [hkeep]), escapeIdentifier_ok hkey]
        have hcons := @FieldText.cons _ _ key _ _ _ _ hw (fieldParts_ok rest htail)
        simpa [py] using hcons

/-- A join is its parts, each after a comma, without the first comma. -/
theorem cons_joinCommas {parts : List PyStr} (h : parts ≠ []) :
    ofChar ',' :: joinCommas parts = parts.flatMap (ofChar ',' :: ·) := by
  have hjoin : ∀ (p : PyStr) (ps : List PyStr),
      joinCommas (p :: ps) = p ++ ps.flatMap (ofChar ',' :: ·) := by
    intro p ps
    induction ps generalizing p with
    | nil => simp [joinCommas]
    | cons q ps ih =>
        have h1 : joinCommas (p :: q :: ps) = p ++ ofChar ',' :: joinCommas (q :: ps) := by
          simp [joinCommas, py]
        rw [h1, ih q, List.flatMap_cons, List.cons_append]
  cases parts with
  | nil => exact absurd rfl h
  | cons p ps => simp [hjoin]

/-- **The encoder writes a row's content and nothing else.** -/
theorem IlpRow.encode_ok {row : IlpRow F} {bs : Bytes} (h : row.encode = .ok bs) :
    ∃ text, RowText row.content text ∧ Utf8.encode text = some bs := by
  obtain ⟨measurement, hm, h⟩ := bind_ok.mp h
  obtain ⟨symbols, hs, h⟩ := bind_ok.mp h
  obtain ⟨fields, hf, h⟩ := bind_ok.mp h
  obtain ⟨_, hne, h⟩ := bind_ok.mp h
  obtain ⟨timestamp, ht, h⟩ := bind_ok.mp h
  refine ⟨_, ⟨joinCommas fields, ?_, ?_⟩, encodeUtf8_ok.mp h⟩
  · rw [cons_joinCommas (raiseUnless_ok.mp hne)]
    exact fieldParts_ok row.fields hf
  · have hsymbols : (if symbols ≠ [] then py "," ++ joinCommas symbols else []) =
        symbolText (IlpRow.content row).symbols := by
      rw [← show _ = symbolText (IlpRow.content row).symbols from symbolParts_ok row.symbols hs]
      split
      · next hs => exact cons_joinCommas hs
      · next hs => simp [not_not.mp hs]
    rw [lineText, hsymbols, escapeIdentifier_ok hm, formatInt_ok ht]
    simp [py, content]

/-! ## Batches -/

/-- Rows in a row: the texts of a batch determine its contents. -/
theorem rowTexts_cancel (hF : LawfulRepr F) :
    ∀ {cs cs' : List (IlpContent F)} {texts texts' : List PyStr}, List.Forall₂ RowText cs texts →
      List.Forall₂ RowText cs' texts' → texts.flatten = texts'.flatten → cs = cs'
  | [], [], _, _, _, _, _ => rfl
  | [], c' :: cs', _, _, .nil, .cons ⟨_, _, ht⟩ _, he => by
      subst ht
      simp at he
  | c :: cs, [], _, _, .cons ⟨_, _, ht⟩ _, .nil, he => by
      subst ht
      simp at he
  | c :: cs, c' :: cs', _, _, .cons h hs, .cons h' hs', he => by
      obtain ⟨rfl, hrest⟩ := rowText_cancel hF h h' he
      rw [rowTexts_cancel hF hs hs' hrest]

/-- The bytes of a batch are the UTF-8 bytes of its texts. -/
theorem encodeAll_ok : ∀ {rows : List (IlpRow F)} {bs : List Bytes},
    rows.mapM IlpRow.encode = .ok bs →
    ∃ texts, List.Forall₂ RowText (rows.map IlpRow.content) texts ∧
      Utf8.encode texts.flatten = some bs.flatten
  | [], _, h => by
      cases h
      exact ⟨[], .nil, rfl⟩
  | row :: rows, bs, h => by
      rw [List.mapM_cons] at h
      obtain ⟨b, hb, h⟩ := bind_ok.mp h
      obtain ⟨tail, htail, h⟩ := bind_ok.mp h
      cases h
      obtain ⟨text, htext, henc⟩ := IlpRow.encode_ok hb
      obtain ⟨texts, htexts, hencs⟩ := encodeAll_ok htail
      exact ⟨text :: texts, .cons htext htexts, Utf8.encode_append henc hencs⟩

/-- **Batches of encoded rows are uniquely decodable**: two lists of rows that are encoded to the
same bytes have the same contents, row by row. -/
theorem batch_uniquely_decodable (hF : LawfulRepr F) {rows rows' : List (IlpRow F)}
    {bs bs' : List Bytes} (h : rows.mapM IlpRow.encode = .ok bs)
    (h' : rows'.mapM IlpRow.encode = .ok bs') (he : bs.flatten = bs'.flatten) :
    rows.map IlpRow.content = rows'.map IlpRow.content := by
  obtain ⟨texts, ht, henc⟩ := encodeAll_ok h
  obtain ⟨texts', ht', henc'⟩ := encodeAll_ok h'
  rw [he] at henc
  exact rowTexts_cancel hF ht ht' (Utf8.encode_injective henc henc')

/-! ### An instance: two floats -/

/-- Two Python floats. -/
inductive SampleFloat where
  | half
  | tenMillionth
deriving DecidableEq

instance : PyFloat SampleFloat where
  repr
    | .half => py "0.5"
    | .tenMillionth => py "1e-07"
  isFinite _ := true

/-- Floats of the example have their `repr` read back. -/
theorem sampleFloat_lawful : LawfulRepr SampleFloat where
  injective x y _ _ h := by
    cases x <;> cases y <;> first | rfl | exact absurd h (by decide)
  chars x _ := by
    have hchar {s : String} (h : ∀ c ∈ s.toList, c ∈ "0123456789.e+-".toList) :
        ∀ c ∈ py s, c ∈ py "0123456789.e+-" := by
      intro c hc
      obtain ⟨d, hd, rfl⟩ := List.mem_map.mp hc
      exact List.mem_map_of_mem (h d hd)
    cases x with
    | half => exact hchar (forall_of_all (by decide))
    | tenMillionth => exact hchar (forall_of_all (by decide))

/-- A row whose text is full of delimiters, with a null symbol and a null field. -/
def sampleRow : IlpRow SampleFloat where
  table := py "a b,c"
  symbols := [(py "k=", some (py "\\,\n")), (py "none", none)]
  fields := [(py "x", .str (py "\" y=1i\\")), (py "none", .none), (py "z", .float .tenMillionth)]
  timestampNs := 1700000000000000000

/-- The same content without the nulls. -/
def sampleRow' : IlpRow SampleFloat where
  table := py "a b,c"
  symbols := [(py "k=", some (py "\\,\n"))]
  fields := [(py "x", .str (py "\" y=1i\\")), (py "z", .float .tenMillionth)]
  timestampNs := 1700000000000000000

/-- The line of both. -/
def sampleLine : PyStr :=
  py "a\\ b\\,c,k\\==\\\\\\,\\\n x=\"\\\" y=1i\\\\\",z=1e-07 1700000000000000000\n"

theorem sampleRow_encode :
    [sampleRow].mapM IlpRow.encode = .ok [(Utf8.encode sampleLine).getD []] := by
  decide +kernel

theorem sampleRow'_encode :
    [sampleRow'].mapM IlpRow.encode = .ok [(Utf8.encode sampleLine).getD []] := by
  decide +kernel

theorem sample_batch_uniquely_decodable :
    [sampleRow].map IlpRow.content = [sampleRow'].map IlpRow.content :=
  batch_uniquely_decodable sampleFloat_lawful sampleRow_encode sampleRow'_encode rfl

end QuestDbWriter.Ilp
