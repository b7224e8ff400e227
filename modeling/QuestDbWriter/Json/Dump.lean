import QuestDbWriter.Json.Scan

/-!
# json.dumps

`json.dumps` of a flat object with the arguments that `event.py` gives (`ensure_ascii=False`,
compact separators, sorted keys), and what it writes read back by `json.loads`.
-/

namespace QuestDbWriter

open Lib

namespace Json

/-! ## Writing -/

/-- The values of the objects that the integration writes. -/
inductive Scalar where
  | null
  | int (n : Int)
  | str (s : PyStr)
deriving DecidableEq

/-- The value that a scalar is. -/
def Scalar.value : Scalar → Value
  | .null => .null
  | .int n => .int n
  | .str s => .str s

/-- A hexadecimal digit. -/
def hexChar (n : Nat) : CodePoint := codePoint (if n < 10 then 48 + n else 87 + n)

/-- What `ensure_ascii=False` writes for a character: quotes, backslashes and control characters
are escaped. -/
def escapeChar (c : CodePoint) : PyStr :=
  if c = ofChar '"' then py "\\\""
  else if c = ofChar '\\' then py "\\\\"
  else if c = ofChar '\n' then py "\\n"
  else if c = ofChar '\r' then py "\\r"
  else if c = ofChar '\t' then py "\\t"
  else if c = codePoint 12 then py "\\f"
  else if c = codePoint 8 then py "\\b"
  else if c.val ≤ 0x1F then py "\\u00" ++ [hexChar (c.val / 16), hexChar (c.val % 16)]
  else [c]

/-- `encode_basestring`. -/
def dumpString (s : PyStr) : PyStr := ofChar '"' :: (s.flatMap escapeChar ++ [ofChar '"'])

/-- `json.dumps` of a scalar. -/
def dumpScalar : Scalar → PyStr
  | .null => py "null"
  | .int n => intText n
  | .str s => dumpString s

/-- `"key":value`. -/
def dumpMember (m : PyStr × Scalar) : PyStr := dumpString m.1 ++ ofChar ':' :: dumpScalar m.2

/-- The members of an object, from the first on, and the closing brace. -/
def dumpMembers : List (PyStr × Scalar) → PyStr
  | [] => [ofChar '}']
  | [m] => dumpMember m ++ [ofChar '}']
  | m :: ms => dumpMember m ++ ofChar ',' :: dumpMembers ms

/-- `sort_keys=True`. -/
def sortKeys (document : List (PyStr × Scalar)) : List (PyStr × Scalar) :=
  document.insertionSort fun a b => a.1 ≤ b.1

/-- `json.dumps(document, ensure_ascii=False, separators=(",", ":"), sort_keys=True)`. -/
def dumps (document : List (PyStr × Scalar)) : PyStr :=
  ofChar '{' :: dumpMembers (sortKeys document)

/-! ## What is written is read back -/

/-- A character is written as itself, or as an escape that reads as it. -/
theorem escapeChar_cases (c : CodePoint) :
    (escapeChar c = [c] ∧ c ≠ ofChar '"' ∧ c ≠ ofChar '\\' ∧ 0x1F < c.val) ∨
      ∃ text, escapeChar c = ofChar '\\' :: text ∧
        ∀ rest, scanEscape (text ++ rest) = some (c, rest) := by
  by_cases h1 : c = ofChar '"'
  · subst h1
    exact .inr ⟨py "\"", rfl, fun _ => rfl⟩
  by_cases h2 : c = ofChar '\\'
  · subst h2
    exact .inr ⟨py "\\", rfl, fun _ => rfl⟩
  by_cases h3 : c = ofChar '\n'
  · subst h3
    exact .inr ⟨py "n", rfl, fun _ => rfl⟩
  by_cases h4 : c = ofChar '\r'
  · subst h4
    exact .inr ⟨py "r", rfl, fun _ => rfl⟩
  by_cases h5 : c = ofChar '\t'
  · subst h5
    exact .inr ⟨py "t", rfl, fun _ => rfl⟩
  by_cases h6 : c = codePoint 12
  · subst h6
    exact .inr ⟨py "f", rfl, fun _ => rfl⟩
  by_cases h7 : c = codePoint 8
  · subst h7
    exact .inr ⟨py "b", rfl, fun _ => rfl⟩
  by_cases h8 : c.val ≤ 0x1F
  · refine .inr ⟨py "u00" ++ [hexChar (c.val / 16), hexChar (c.val % 16)], ?_, ?_⟩
    · rw [escapeChar, if_neg h1, if_neg h2, if_neg h3, if_neg h4, if_neg h5, if_neg h6, if_neg h7,
        if_pos h8]
      rfl
    · intro rest
      have hhex : ∀ n < 32, hex4 (ofChar '0') (ofChar '0') (hexChar (n / 16)) (hexChar (n % 16)) =
          some n ∧ isHighSurrogate n = false := by decide
      obtain ⟨hv, hs⟩ := hhex c.val (Nat.lt_succ_of_le h8)
      have hc : codePoint c.val = c := Fin.ext (Nat.mod_eq_of_lt c.isLt)
      have hscan : scanUnicode (ofChar '0' :: ofChar '0' :: hexChar (c.val / 16) ::
          hexChar (c.val % 16) :: rest) = some (c, rest) := by
        rw [scanUnicode, hv, Option.bind_eq_bind, Option.bind_some, hs, if_neg (by decide), hc]
        rfl
      exact hscan
  · refine .inl ⟨?_, h1, h2, Nat.lt_of_not_le h8⟩
    rw [escapeChar, if_neg h1, if_neg h2, if_neg h3, if_neg h4, if_neg h5, if_neg h6, if_neg h7,
      if_neg h8]

/-- A dumped string is scanned as itself. -/
theorem scanString_dump (rest : PyStr) : ∀ (s : PyStr) {fuel : Nat},
    (s.flatMap escapeChar ++ ofChar '"' :: rest).length ≤ fuel →
    scanString fuel (s.flatMap escapeChar ++ ofChar '"' :: rest) = some (s, rest)
  | [], fuel, h => by
      cases fuel with
      | zero => simp at h
      | succ fuel => rfl
  | c :: s, fuel, h => by
      cases fuel with
      | zero => simp at h
      | succ fuel =>
      rw [List.flatMap_cons, List.append_assoc] at h ⊢
      rcases escapeChar_cases c with ⟨hc, hq, hb, hcontrol⟩ | ⟨text, hc, hscan⟩
      · rw [hc, List.singleton_append, List.length_cons] at h
        rw [hc, List.singleton_append, scanString, if_neg hq, if_neg hb,
          if_neg (Nat.not_le_of_lt hcontrol), scanString_dump rest s (Nat.le_of_succ_le_succ h)]
        rfl
      · rw [hc, List.cons_append, List.length_cons, List.length_append] at h
        rw [hc, List.cons_append, scanString, if_neg (by decide), if_pos rfl, hscan]
        simp only [Option.bind_eq_bind, Option.bind_some]
        rw [scanString_dump rest s (by omega)]
        rfl

/-- A code point that ends a number. -/
def EndsNumber (c : CodePoint) : Prop :=
  isDigit c = false ∧ c ≠ ofChar '.' ∧ c ≠ ofChar 'e' ∧ c ≠ ofChar 'E'

/-- A decimal digit is one for the scanner. -/
theorem isDigit_ofChar {c : Char} (h : c.isDigit = true) : isDigit (ofChar c) = true := by
  simp only [Char.isDigit, Bool.and_eq_true, decide_eq_true_eq] at h
  simp only [isDigit, ofChar_val, Bool.and_eq_true, decide_eq_true_eq]
  exact ⟨h.1, h.2⟩

/-- A number is written with digits. -/
theorem natText_isDigit {n : Nat} {c : CodePoint} (h : c ∈ natText n) : isDigit c = true := by
  obtain ⟨d, hd, rfl⟩ := natText_digit h
  exact isDigit_ofChar hd

/-- The value of the digits of a number is the number. -/
theorem digitsValue_natText (n : Nat) : digitsValue (natText n) = n := by
  have h := Nat.ofDigitChars_ten_toDigits (n := n)
  rw [digitsValue, natText, List.foldl_map]
  simp only [ofChar_val]
  exact h

/-- A number other than zero does not start with the digit zero. -/
theorem natText_head {n : Nat} (hn : 0 < n) :
    ∃ c rest, natText n = c :: rest ∧ c ≠ ofChar '0' := by
  induction n using Nat.strongRecOn with
  | ind n ih =>
      by_cases h : n < 10
      · have hdigit : ∀ n < 10, 0 < n → ofChar n.digitChar ≠ ofChar '0' := by decide
        refine ⟨ofChar n.digitChar, [], ?_, hdigit n h hn⟩
        rw [natText, Nat.toDigits_of_lt_base h]
        rfl
      · obtain ⟨c, rest, hc, hne⟩ := ih (n / 10) (Nat.div_lt_self hn (by decide)) (by omega)
        refine ⟨c, rest ++ [ofChar (n % 10).digitChar], ?_, hne⟩
        rw [natText, Nat.toDigits_of_base_le (by decide) (by omega), List.map_append]
        rw [natText] at hc
        rw [hc]
        rfl

/-- The scanner takes the digits of a number, and stops behind them. -/
theorem scanInteger_natText (n : Nat) {d : CodePoint} (hd : isDigit d = false) (rest : PyStr) :
    scanInteger (natText n ++ d :: rest) = (natText n, d :: rest) := by
  rcases Nat.eq_zero_or_pos n with rfl | hn
  · rfl
  · obtain ⟨c, tail, hc, hne⟩ := natText_head hn
    have htake : (natText n ++ d :: rest).takeWhile isDigit = natText n := by
      rw [List.takeWhile_append_of_pos fun _ => natText_isDigit,
        List.takeWhile_cons_of_neg (by simp [hd]), List.append_nil]
    have hdrop : (natText n ++ d :: rest).dropWhile isDigit = d :: rest := by
      rw [List.dropWhile_append_of_pos fun _ => natText_isDigit,
        List.dropWhile_cons_of_neg (by simp [hd])]
    rw [hc, List.cons_append] at htake hdrop ⊢
    rw [scanInteger, if_neg hne, htake, hdrop]

/-- A dumped integer is scanned as itself. -/
theorem scanNumber_intText {n : Int} (hn : n.natAbs < 10 ^ maxStrDigits) {d : CodePoint}
    (hd : EndsNumber d) (rest : PyStr) :
    scanNumber (intText n ++ d :: rest) = some (.int n, d :: rest) := by
  obtain ⟨hdigit, hdot, he, hE⟩ := hd
  have hfraction : scanFraction (d :: rest) = ([], d :: rest) := by
    rw [scanFraction, if_neg fun h => hdot h.1]
  have hexponent : scanExponent (d :: rest) = (none, d :: rest) := by
    rw [scanExponent, if_neg fun h => h.elim he hE]
  have hlength {m : Nat} (hm : m < 10 ^ maxStrDigits) : (natText m).length ≤ maxStrDigits := by
    rw [natText, List.length_map]
    exact (Nat.length_toDigits_le_iff (by decide) (by decide)).mpr hm
  have hnat {m : Nat} (hm : m < 10 ^ maxStrDigits) (s : PyStr) (b : Bool)
      (hs : scanMinus s = (b, natText m ++ d :: rest)) :
      scanNumber s = some (.int (signed b m), d :: rest) := by
    unfold scanNumber
    dsimp only
    rw [hs, scanInteger_natText m hdigit, hfraction, hexponent, if_neg (natText_ne_nil m), numberOf,
      if_pos ⟨rfl, rfl⟩, if_pos (hlength hm), digitsValue_natText]
    rfl
  cases n with
  | ofNat m =>
      refine hnat (m := m) hn _ false ?_
      obtain ⟨c, tail, hc⟩ := List.exists_cons_of_ne_nil (natText_ne_nil m)
      have hminus : c ≠ ofChar '-' := fun h =>
        natText_no_minus m (h ▸ hc ▸ List.mem_cons_self ..)
      show scanMinus (natText m ++ d :: rest) = _
      rw [hc, List.cons_append, scanMinus, if_neg hminus]
  | negSucc m => exact hnat (m := m + 1) hn _ true rfl

/-- No constant is scanned where none is a prefix. -/
theorem scanConstant_none {s : PyStr} : ∀ {table : List (PyStr × Value)},
    (∀ e ∈ table, ¬ e.1 <+: s) → scanConstant s table = none
  | [], _ => rfl
  | (name, _) :: table, h => by
      have hpre : name.isPrefixOf s = false :=
        Bool.eq_false_iff.mpr fun hp =>
          h _ (List.mem_cons_self ..) (List.isPrefixOf_iff_prefix.mp hp)
      rw [scanConstant, hpre]
      exact scanConstant_none fun e he => h e (List.mem_cons_of_mem _ he)

/-- No constant starts as a number does. -/
theorem constants_head : ∀ e ∈ constants, ∃ a b tail,
    e.1 = a :: b :: tail ∧ isDigit a = false ∧ (a = ofChar '-' → isDigit b = false) := by
  simp only [constants, List.forall_mem_cons]
  exact ⟨⟨_, _, _, rfl, by decide, by decide⟩, ⟨_, _, _, rfl, by decide, by decide⟩,
    ⟨_, _, _, rfl, by decide, by decide⟩, ⟨_, _, _, rfl, by decide, by decide⟩,
    ⟨_, _, _, rfl, by decide, by decide⟩, ⟨_, _, _, rfl, by decide, by decide⟩, by simp⟩

/-- A number begins with a digit. -/
theorem natText_cons (n : Nat) : ∃ c tail, natText n = c :: tail ∧ isDigit c = true := by
  obtain ⟨c, tail, hc⟩ := List.exists_cons_of_ne_nil (natText_ne_nil n)
  exact ⟨c, tail, hc, natText_isDigit (hc ▸ List.mem_cons_self ..)⟩

/-- No integer is scanned as a constant. -/
theorem scanConstant_intText (n : Int) (rest : PyStr) :
    scanConstant (intText n ++ rest) constants = none := by
  refine scanConstant_none fun e he hp => ?_
  obtain ⟨a, b, tail, hname, ha, hb⟩ := constants_head e he
  rw [hname] at hp
  cases n with
  | ofNat m =>
      obtain ⟨c, tail', hc, hdigit⟩ := natText_cons m
      rw [intText, hc, List.cons_append, List.cons_prefix_cons] at hp
      rw [hp.1, hdigit] at ha
      cases ha
  | negSucc m =>
      obtain ⟨c, tail', hc, hdigit⟩ := natText_cons (m + 1)
      rw [intText, hc, List.cons_append, List.cons_append, List.cons_prefix_cons,
        List.cons_prefix_cons] at hp
      have hdigit' := hb hp.1
      rw [hp.2.1, hdigit] at hdigit'
      cases hdigit'

/-- A scalar is read back, up to the code point after it. -/
theorem scanOnce_dump {v : Scalar} (hv : ∀ n, v = .int n → n.natAbs < 10 ^ maxStrDigits)
    {d : CodePoint} (hd : EndsNumber d) (rest : PyStr) {fuel : Nat} (hf : 0 < fuel) :
    scanOnce fuel (dumpScalar v ++ d :: rest) = some (v.value, d :: rest) := by
  obtain ⟨fuel, rfl⟩ := Nat.exists_eq_succ_of_ne_zero (Nat.ne_of_gt hf)
  cases v with
  | null => rfl
  | str s =>
      have hscan := scanString_dump (d :: rest) s (Nat.le_succ _)
      show scanOnce (fuel + 1)
        (ofChar '"' :: (s.flatMap escapeChar ++ [ofChar '"'] ++ d :: rest)) = _
      rw [List.append_assoc, List.singleton_append, scanOnce, if_pos rfl, hscan]
      rfl
  | int n =>
      have hhead : ∃ c tail, intText n ++ d :: rest = c :: tail ∧
          c ≠ ofChar '"' ∧ c ≠ ofChar '{' ∧ c ≠ ofChar '[' := by
        have hne {c : CodePoint} (hc : isDigit c = true) :
            c ≠ ofChar '"' ∧ c ≠ ofChar '{' ∧ c ≠ ofChar '[' := by
          refine ⟨?_, ?_, ?_⟩ <;> rintro rfl <;> exact absurd hc (by decide)
        cases n with
        | ofNat m =>
            obtain ⟨c, tail, hc, hdigit⟩ := natText_cons m
            exact ⟨c, tail ++ d :: rest, by rw [intText, hc]; rfl, hne hdigit⟩
        | negSucc m => exact ⟨ofChar '-', _, rfl, by decide, by decide, by decide⟩
      obtain ⟨c, tail, htext, hquote, hbrace, hbracket⟩ := hhead
      have hconst := scanConstant_intText n (d :: rest)
      have hscan := scanNumber_intText (hv n rfl) hd rest
      show scanOnce (fuel + 1) (intText n ++ d :: rest) = _
      rw [htext] at hconst hscan ⊢
      rw [scanOnce, if_neg hquote, if_neg hbrace, if_neg hbracket, hconst, hscan]
      rfl

/-- A comma and a closing brace end a number. -/
theorem endsNumber_delimiter : EndsNumber (ofChar ',') ∧ EndsNumber (ofChar '}') := by
  unfold EndsNumber
  decide

/-- Nothing is skipped in front of what is no space. -/
theorem skipSpace_cons {c : CodePoint} (hc : isSpace c = false) (rest : PyStr) :
    skipSpace (c :: rest) = c :: rest := by
  rw [skipSpace, List.dropWhile_cons_of_neg (by simp [hc])]

/-- What a scalar is written as does not start with a blank. -/
theorem skipSpace_dumpScalar (v : Scalar) (rest : PyStr) :
    skipSpace (dumpScalar v ++ rest) = dumpScalar v ++ rest := by
  cases v with
  | null => rfl
  | str s => exact skipSpace_cons (by decide) _
  | int n =>
      cases n with
      | ofNat m =>
          obtain ⟨c, tail, hc, hdigit⟩ := natText_cons m
          show skipSpace (natText m ++ rest) = natText m ++ rest
          rw [hc]
          refine skipSpace_cons (Bool.eq_false_iff.mpr fun hspace => ?_) _
          have hblank : ∀ d ∈ " \t\n\r".toList, isDigit (ofChar d) = false :=
            forall_of_all (by decide)
          obtain ⟨d, hd, rfl⟩ := List.mem_map.mp (of_decide_eq_true hspace)
          rw [hblank d hd] at hdigit
          cases hdigit
      | negSucc m => exact skipSpace_cons (by decide) _

/-- One member is read, up to the delimiter after it. -/
theorem scanMembers_member {m : PyStr × Scalar}
    (hv : ∀ n, m.2 = .int n → n.natAbs < 10 ^ maxStrDigits) {d : CodePoint} (hd : EndsNumber d)
    (hs : isSpace d = false) (rest : PyStr) {fuel : Nat} (hf : 0 < fuel) :
    scanMembers (fuel + 1) (dumpMember m ++ d :: rest) =
      if d = ofChar '}' then some ([(m.1, m.2.value)], rest)
      else if d = ofChar ',' then
        (scanMembers fuel (skipSpace rest)).bind fun r => some ((m.1, m.2.value) :: r.1, r.2)
      else none := by
  have htext : dumpMember m ++ d :: rest =
      ofChar '"' :: (m.1.flatMap escapeChar ++ ofChar '"' :: ofChar ':' ::
        (dumpScalar m.2 ++ d :: rest)) := by
    simp [dumpMember, dumpString]
  rw [htext, scanMembers, if_neg (by simp), scanString_dump _ _ (Nat.le_succ _)]
  simp only [Option.bind_eq_bind, Option.bind_some]
  rw [skipSpace_cons (by decide)]
  dsimp only
  rw [if_neg (by simp), skipSpace_dumpScalar, scanOnce_dump hv hd rest hf]
  simp only [Option.bind_some]
  rw [skipSpace_cons hs]
  rfl

/-- The members of an object are read back. -/
theorem scanMembers_dump (rest : PyStr) : ∀ (ms : List (PyStr × Scalar)) {fuel : Nat}, ms ≠ [] →
    (∀ m ∈ ms, ∀ n, m.2 = .int n → n.natAbs < 10 ^ maxStrDigits) → ms.length < fuel →
    scanMembers fuel (dumpMembers ms ++ rest) = some (ms.map fun m => (m.1, m.2.value), rest)
  | [], _, h, _, _ => absurd rfl h
  | _ :: _, 0, _, _, hf => absurd hf (Nat.not_lt_zero _)
  | [m], fuel + 1, _, hv, hf => by
      have hstep := scanMembers_member (hv m (List.mem_cons_self ..)) endsNumber_delimiter.2
        (by decide) rest (Nat.lt_of_succ_lt_succ hf)
      rw [dumpMembers, List.append_assoc, List.singleton_append, hstep, if_pos rfl]
      rfl
  | m :: m' :: ms, fuel + 1, _, hv, hf => by
      have hf' := Nat.lt_of_succ_lt_succ hf
      have hstep := scanMembers_member (hv m (List.mem_cons_self ..)) endsNumber_delimiter.1
        (by decide) (dumpMembers (m' :: ms) ++ rest) (Nat.zero_lt_of_lt hf')
      have hnext : skipSpace (dumpMembers (m' :: ms) ++ rest) = dumpMembers (m' :: ms) ++ rest := by
        cases ms <;> exact skipSpace_cons (by decide) _
      rw [dumpMembers, List.append_assoc, List.cons_append, hstep, if_neg (by decide), if_pos rfl,
        hnext, scanMembers_dump rest (m' :: ms) (by simp)
          (fun x hx => hv x (List.mem_cons_of_mem _ hx)) hf']
      · rfl
      · simp

/-- A dump has a character for each member. -/
theorem length_dumpMembers : ∀ ms : List (PyStr × Scalar), ms.length ≤ (dumpMembers ms).length
  | [] => Nat.zero_le _
  | [m] => by simp [dumpMembers]
  | m :: m' :: ms => by
      have := length_dumpMembers (m' :: ms)
      simp only [dumpMembers, List.length_append, List.length_cons] at this ⊢
      omega

/-- **What `dumps` writes of a non-empty object, `loads` reads back**, in the order of the keys. -/
theorem loads_dumps {document : List (PyStr × Scalar)} (hne : document ≠ [])
    (hv : ∀ m ∈ document, ∀ n, m.2 = .int n → n.natAbs < 10 ^ maxStrDigits) :
    loads (dumps document) =
      some (.object ((sortKeys document).map fun m => (m.1, m.2.value))) := by
  have hperm : (sortKeys document).Perm document := List.perm_insertionSort _ document
  have hsorted : sortKeys document ≠ [] := fun h => hne (List.Perm.eq_nil (h ▸ hperm.symm))
  have hfuel : (sortKeys document).length < 2 * (dumps document).length := by
    have := length_dumpMembers (sortKeys document)
    rw [dumps, List.length_cons]
    omega
  have hmembers := scanMembers_dump [] (sortKeys document) hsorted
    (fun m hm => hv m (hperm.mem_iff.mp hm)) hfuel
  rw [List.append_nil] at hmembers
  have hskip : skipSpace (dumps document) = dumps document := skipSpace_cons (by decide) _
  have hquote : ∃ tail, dumpMembers (sortKeys document) = ofChar '"' :: tail := by
    cases hms : sortKeys document with
    | nil => exact absurd hms hsorted
    | cons m ms => cases ms <;> exact ⟨_, rfl⟩
  obtain ⟨tail, htail⟩ := hquote
  have honce : scanOnce (2 * (dumps document).length + 1) (dumps document) =
      some (.object ((sortKeys document).map fun m => (m.1, m.2.value)), []) := by
    generalize 2 * (dumps document).length = fuel at hmembers
    rw [dumps, scanOnce, if_neg (by decide), if_pos rfl]
    rw [htail] at hmembers ⊢
    rw [skipSpace_cons (by decide)]
    dsimp only
    rw [if_neg (by decide), hmembers]
    rfl
  rw [loads, if_neg (by
    intro h
    exact absurd (Option.some.inj h) (by decide)), hskip]
  dsimp only
  rw [honce]
  rfl

end Json

end QuestDbWriter
