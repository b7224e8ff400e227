import Mathlib

/-!
# Quoted tokens

A text is read one character at a time into words, single symbols, and tokens between two quotes,
inside of which a quote is written twice. `tokens_quoted` says that a content with its quotes
doubled is read back as it was, whatever stands around it; `tokens_plain_iff` that a content put
between quotes as it stands is read back exactly where it has no quote.
-/

namespace QuestDbWriter.Lib.Lexer

/-- What the characters of a language are. -/
structure Lexicon (α : Type*) where
  isQuote : α → Bool
  isBlank : α → Bool
  isWord : α → Bool

/-- A bare word, or what stands between two quotes. -/
inductive Token (α : Type*) where
  | word (text : List α)
  | symbol (c : α)
  | quoted (quote : α) (content : List α)
deriving DecidableEq

/-- Where the lexer stands. -/
inductive LexState (α : Type*) where
  | between
  | inWord (text : List α)
  | inQuoted (quote : α) (content : List α)
  /-- Behind a quote that ends a token, or is the first of two. -/
  | behindQuote (quote : α) (content : List α)
deriving DecidableEq

variable {α : Type*}

/-- No quoted token has been begun. -/
def LexState.IsPlain : LexState α → Prop
  | .between | .inWord _ => True
  | .inQuoted _ _ | .behindQuote _ _ => False

variable [DecidableEq α] {L : Lexicon α} {q : α}

namespace Lexicon

/-- The first character of a token. -/
def start (L : Lexicon α) (c : α) : LexState α × List (Token α) :=
  if L.isQuote c then (.inQuoted c [], [])
  else if L.isBlank c then (.between, [])
  else if L.isWord c then (.inWord [c], [])
  else (.between, [.symbol c])

/-- One character: the state behind it, and the token that it ends. -/
def next (L : Lexicon α) : LexState α → α → LexState α × List (Token α)
  | .between, c => L.start c
  | .inWord text, c =>
    if L.isWord c then (.inWord (text ++ [c]), [])
    else ((L.start c).1, .word text :: (L.start c).2)
  | .inQuoted q content, c =>
    if c = q then (.behindQuote q content, []) else (.inQuoted q (content ++ [c]), [])
  | .behindQuote q content, c =>
    if c = q then (.inQuoted q (content ++ [q]), [])
    else ((L.start c).1, .quoted q content :: (L.start c).2)

/-- The state behind a text, and the tokens that have ended in it. -/
def scan (L : Lexicon α) : LexState α → List α → LexState α × List (Token α)
  | state, [] => (state, [])
  | state, c :: text =>
    let r := L.next state c
    let rest := L.scan r.1 text
    (rest.1, r.2 ++ rest.2)

/-- The last token; a quote that is not closed is an error. -/
def finish : LexState α → Option (List (Token α))
  | .between => some []
  | .inWord text => some [.word text]
  | .inQuoted _ _ => none
  | .behindQuote q content => some [.quoted q content]

/-- The tokens that are read from a state on. -/
def readFrom (L : Lexicon α) (state : LexState α) (text : List α) : Option (List (Token α)) :=
  (finish (L.scan state text).1).map ((L.scan state text).2 ++ ·)

/-- The tokens of a text. -/
def tokens (L : Lexicon α) (text : List α) : Option (List (Token α)) := L.readFrom .between text

/-! ## Scanning -/

/-- Scanning goes on from the state that the first part leaves. -/
theorem scan_append (state : LexState α) (s t : List α) :
    L.scan state (s ++ t) =
      ((L.scan (L.scan state s).1 t).1, (L.scan state s).2 ++ (L.scan (L.scan state s).1 t).2) := by
  induction s generalizing state with
  | nil => rfl
  | cons c s ih =>
    rw [List.cons_append, scan, scan]
    dsimp only
    rw [ih, List.append_assoc]

/-- A content with its quotes doubled is read as it was. -/
theorem scan_doubled (content s : List α) :
    L.scan (.inQuoted q content) (s.flatMap fun c => if c = q then [q, q] else [c]) =
      (.inQuoted q (content ++ s), []) := by
  induction s generalizing content with
  | nil => simp [scan]
  | cons c s ih =>
    rw [List.flatMap_cons, scan_append]
    by_cases hc : c = q
    · subst hc
      simp [scan, next, ih]
    · simp [scan, next, hc, ih]

/-- A content without a quote is read as it stands. -/
theorem scan_plain {content s : List α} (h : q ∉ s) :
    L.scan (.inQuoted q content) s = (.inQuoted q (content ++ s), []) := by
  induction s generalizing content with
  | nil => simp [scan]
  | cons c s ih =>
    obtain ⟨hc, hs⟩ := not_or.mp (fun hm => h (List.mem_cons.mpr hm))
    simp [scan, next, Ne.symm hc, ih hs]

/-! ## Reading -/

/-- The tokens of a concatenation are those of its parts. -/
theorem readFrom_append (state : LexState α) (s t : List α) :
    L.readFrom state (s ++ t) =
      (L.readFrom (L.scan state s).1 t).map ((L.scan state s).2 ++ ·) := by
  simp only [readFrom, scan_append, Option.map_map]
  congr 1
  funext last
  exact List.append_assoc _ _ _

/-- Behind a quote that is not the first of two, the token ends and the rest is read as a text of
its own. -/
theorem readFrom_quote (content : List α) {post : List α} (hpost : post.head? ≠ some q) :
    L.readFrom (.inQuoted q content) (q :: post) =
      (L.tokens post).map (.quoted q content :: ·) := by
  have hclosed : L.readFrom (.inQuoted q content) (q :: post) =
      L.readFrom (.behindQuote q content) post := by
    simp [readFrom, scan, next]
  rw [hclosed]
  cases post with
  | nil => rfl
  | cons c post =>
    have hc : c ≠ q := fun he => hpost (congrArg some he)
    simp [tokens, readFrom, scan, next, hc, Option.map_map, Function.comp_def]

/-- A token whose content is scanned as it was is read back. -/
theorem tokens_content {pre mid post : List α} {before : List (Token α)} {s : List α}
    (hpre : L.scan .between pre = (.inQuoted q [], before))
    (hmid : L.scan (.inQuoted q []) mid = (.inQuoted q s, [])) (hpost : post.head? ≠ some q) :
    L.tokens (pre ++ mid ++ q :: post) =
      (L.tokens post).map fun after => before ++ .quoted q s :: after := by
  have hscan : L.scan .between (pre ++ mid) = (.inQuoted q s, before) := by
    rw [scan_append, hpre, hmid, List.append_nil]
  rw [tokens, readFrom_append, hscan, readFrom_quote s hpost, Option.map_map]
  rfl

/-- **A quoted token with its quotes doubled is read back**, whatever its content is. -/
theorem tokens_quoted {pre post : List α} {before : List (Token α)}
    (hpre : L.scan .between pre = (.inQuoted q [], before)) (hpost : post.head? ≠ some q)
    (s : List α) :
    L.tokens (pre ++ (s.flatMap fun c => if c = q then [q, q] else [c]) ++ q :: post) =
      (L.tokens post).map fun after => before ++ .quoted q s :: after :=
  tokens_content hpre (scan_doubled [] s) hpost

omit [DecidableEq α] in

/-- A character that is no quote opens no quoted token. -/
theorem start_plain {c : α} (h : L.isQuote c = false) : (L.start c).1.IsPlain := by
  simp only [start, h, Bool.false_eq_true, if_false]
  split
  · trivial
  split <;> trivial

/-- Text without a quote leaves the scanner outside of quotes. -/
theorem scan_unquoted {state : LexState α} {s : List α} (hs : state.IsPlain)
    (h : ∀ c ∈ s, L.isQuote c = false) : (L.scan state s).1.IsPlain := by
  induction s generalizing state with
  | nil => exact hs
  | cons c s ih =>
    have hc := start_plain (h c List.mem_cons_self)
    refine ih ?_ fun d hd => h d (List.mem_cons_of_mem _ hd)
    cases state with
    | between => exact hc
    | inWord text =>
      simp only [next]
      split
      · trivial
      · exact hc
    | inQuoted | behindQuote => exact hs.elim

/-- A text without quotes has tokens. -/
theorem tokens_isSome {s : List α} (h : ∀ c ∈ s, L.isQuote c = false) :
    ∃ ts, L.tokens s = some ts := by
  have hplain : (L.scan .between s).1.IsPlain := scan_unquoted trivial h
  unfold tokens readFrom
  cases hs : (L.scan .between s).1 with
  | between | inWord text => exact ⟨_, rfl⟩
  | inQuoted | behindQuote =>
    rw [hs] at hplain
    exact hplain.elim

/-! ## Contents that are not escaped -/

/-- The characters that a token takes at least to be written. -/
def weight : Token α → Nat
  | .word text => text.length
  | .symbol _ => 1
  | .quoted q content => content.length + content.count q + 2

/-- The characters that a list of tokens accounts for. -/
def weightOf (ts : List (Token α)) : Nat := (ts.map weight).sum

/-- The characters that have been read for the token that is being read. -/
def stateWeight : LexState α → Nat
  | .between => 0
  | .inWord text => text.length
  | .inQuoted q content => content.length + content.count q + 1
  | .behindQuote q content => content.length + content.count q + 2

/-- The first character of a token accounts for itself. -/
theorem start_weight (c : α) :
    stateWeight (L.start c).1 + weightOf (L.start c).2 ≤ 1 := by
  unfold start
  split
  · simp [stateWeight, weightOf]
  split
  · simp [stateWeight, weightOf]
  split <;> simp [stateWeight, weightOf, weight]

/-- A step accounts for one character at most. -/
theorem next_weight (state : LexState α) (c : α) :
    stateWeight (L.next state c).1 + weightOf (L.next state c).2 ≤ stateWeight state + 1 := by
  have hstart := start_weight (L := L) c
  cases state with
  | between => simpa [next, stateWeight] using hstart
  | inWord text =>
    simp only [next]
    split
    · simp [stateWeight, weightOf]
    · simp only [weightOf, stateWeight, List.map_cons, List.sum_cons, weight] at hstart ⊢
      omega
  | inQuoted q content =>
    simp only [next]
    split
    · simp [stateWeight, weightOf]
    · next hc => simp [stateWeight, weightOf, List.count_append, hc]; omega
  | behindQuote q content =>
    simp only [next]
    split
    · simp [stateWeight, weightOf, List.count_append]; omega
    · simp only [weightOf, stateWeight, List.map_cons, List.sum_cons, weight] at hstart ⊢
      omega

/-- No tokens take more characters than have been read. -/
theorem scan_weight (state : LexState α) (s : List α) :
    stateWeight (L.scan state s).1 + weightOf (L.scan state s).2 ≤
      stateWeight state + s.length := by
  induction s generalizing state with
  | nil => simp [scan, weightOf]
  | cons c s ih =>
    have hnext := next_weight (L := L) state c
    have hrest := ih (L.next state c).1
    simp only [scan, weightOf, List.map_append, List.sum_append, List.length_cons] at hnext hrest ⊢
    omega

/-- No token has characters that the text has not. -/
theorem readFrom_weight {state : LexState α} {s : List α} {ts : List (Token α)}
    (h : L.readFrom state s = some ts) : weightOf ts ≤ stateWeight state + s.length := by
  have hscan := scan_weight (L := L) state s
  obtain ⟨last, hlast, rfl⟩ := Option.map_eq_some_iff.mp h
  have hfinish : weightOf last = stateWeight (L.scan state s).1 := by
    cases hs : (L.scan state s).1 with
    | between | inWord text | behindQuote q content =>
      rw [hs] at hlast
      cases hlast
      simp [weightOf, weight, stateWeight]
    | inQuoted q content =>
      rw [hs] at hlast
      cases hlast
  simp only [weightOf, List.map_append, List.sum_append] at hscan hfinish ⊢
  omega

/-- **A content that is put between quotes as it stands is read back exactly where it has no
quote**, in front of symbols. -/
theorem tokens_plain_iff {pre post : List α} {before : List (Token α)} {after : List (Token α)}
    (hpre : L.scan .between pre = (.inQuoted q [], before)) (hpost : L.tokens post = some after)
    (hhead : post.head? ≠ some q) (hweight : weightOf after = post.length) (s : List α) :
    L.tokens (pre ++ s ++ q :: post) = some (before ++ .quoted q s :: after) ↔ q ∉ s := by
  refine ⟨fun h => ?_, fun h => ?_⟩
  · rw [tokens, List.append_assoc, readFrom_append, hpre] at h
    obtain ⟨ts, hts, heq⟩ := Option.map_eq_some_iff.mp h
    have hread := readFrom_weight hts
    rw [List.append_cancel_left heq] at hread
    simp only [weightOf, List.map_cons, List.sum_cons, weight, stateWeight, List.length_append,
      List.length_cons, List.length_nil, List.count_nil] at hread hweight
    exact List.count_eq_zero.mp (by omega)
  · have hplain : L.scan (.inQuoted q []) s = (.inQuoted q ([] ++ s), []) := scan_plain h
    rw [tokens_content hpre hplain hhead, hpost]
    rfl

end Lexicon

end QuestDbWriter.Lib.Lexer
