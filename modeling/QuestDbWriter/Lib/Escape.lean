import Mathlib

/-!
# Escaped tokens

A token is written by putting an escape character before every special character, the escape
character itself included, and ends at the first delimiter that is not escaped. `readUntil` is
the reader; `readUntil_escape` says that it stops exactly at the delimiter written after the
token and returns the token's content, whatever the content is. `escape_replace` builds the
escaping out of a chain of single-character replacements, the escape character first.
-/

namespace QuestDbWriter.Lib.Escape

variable {α : Type} [DecidableEq α]

/-- Replace every occurrence of one character by a text. -/
def replaceChar (old : α) (new : List α) (s : List α) : List α :=
  s.flatMap fun c => if c = old then new else [c]

/-- Put `esc` before every character of `special`. -/
def escape (esc : α) (special : List α) (s : List α) : List α :=
  s.flatMap fun c => if c ∈ special then [esc, c] else [c]

/-- The characters replaced one after the other, each by itself behind `esc`. -/
def replaceAll (esc : α) (special : List α) (s : List α) : List α :=
  special.foldl (fun s c => replaceChar c [esc, c] s) s

theorem replaceChar_append (old : α) (new s t : List α) :
    replaceChar old new (s ++ t) = replaceChar old new s ++ replaceChar old new t := by
  simp [replaceChar]

theorem escape_cons (esc : α) (special : List α) (c : α) (s : List α) :
    escape esc special (c :: s) =
      (if c ∈ special then [esc, c] else [c]) ++ escape esc special s := by
  simp [escape]

/-- One more character replaced in an escaped text is one more special character. -/
theorem replaceChar_escape {esc c : α} {special : List α} (hesc : c ≠ esc) (hc : c ∉ special)
    (s : List α) :
    replaceChar c [esc, c] (escape esc special s) = escape esc (special ++ [c]) s := by
  induction s with
  | nil => rfl
  | cons d s ih =>
      rw [escape_cons, replaceChar_append, ih, escape_cons]
      congr 1
      by_cases hd : d ∈ special
      · have hdc : d ≠ c := fun h => hc (h ▸ hd)
        simp [hd, replaceChar, hdc, Ne.symm hesc]
      · by_cases hdc : d = c
        · subst hdc
          simp [hc, replaceChar]
        · simp [hd, hdc, replaceChar]

/-- **A chain of replacements that starts with the escape character is the escaping.** -/
theorem escape_replace {esc : α} :
    ∀ (special done : List α), (done ++ special).Nodup → esc ∈ done → ∀ s : List α,
      replaceAll esc special (escape esc done s) = escape esc (done ++ special) s
  | [], done, _, _, s => by simp [replaceAll]
  | c :: special, done, hnd, hesc, s => by
      have hc : c ∉ done := fun h =>
        (List.nodup_append.mp hnd).2.2 c h c (List.mem_cons_self ..) rfl
      have hce : c ≠ esc := fun h => hc (h ▸ hesc)
      have ih := escape_replace special (done ++ [c])
        (by simpa using hnd) (List.mem_append_left _ hesc) s
      rw [List.append_assoc, List.singleton_append] at ih
      rw [← ih, ← replaceChar_escape hce hc]
      rfl

/-- Replacing the escape character alone is escaping it alone. -/
theorem escape_self (esc : α) (s : List α) : replaceChar esc [esc, esc] s = escape esc [esc] s := by
  simp only [replaceChar, escape, List.mem_singleton]
  congr 1
  funext c
  split <;> simp_all

/-- Read a token up to the first character of `stop` that is not escaped: the content, the
character that ended it and what follows. The flag says that the next character is escaped. -/
def readFrom (esc : α) (stop : List α) : Bool → List α → Option (List α × α × List α)
  | _, [] => none
  | true, c :: rest => (readFrom esc stop false rest).map fun r => (c :: r.1, r.2)
  | false, c :: rest =>
    if c = esc then readFrom esc stop true rest
    else if c ∈ stop then some ([], c, rest)
    else (readFrom esc stop false rest).map fun r => (c :: r.1, r.2)

/-- Read a token from its first character. -/
def readUntil (esc : α) (stop : List α) (s : List α) : Option (List α × α × List α) :=
  readFrom esc stop false s

/-- **The reader returns exactly the token that was written**, and stops at the delimiter that
follows it: no content can end its token early, or run on into what follows. -/
theorem readUntil_escape {esc d : α} {special stop : List α} (hesc : esc ∈ special)
    (hstop : ∀ c ∈ stop, c ∈ special) (hd : d ∈ stop) (hde : d ≠ esc) (rest : List α) :
    ∀ s : List α, readUntil esc stop (escape esc special s ++ d :: rest) = some (s, d, rest)
  | [] => by
      show readFrom esc stop false (d :: rest) = _
      rw [readFrom, if_neg hde, if_pos hd]
  | c :: s => by
      have ih : readFrom esc stop false (escape esc special s ++ d :: rest) = some (s, d, rest) :=
        readUntil_escape hesc hstop hd hde rest s
      rw [escape_cons, readUntil]
      by_cases hc : c ∈ special
      · simp only [hc, if_true, List.cons_append, List.nil_append]
        rw [readFrom, if_pos rfl, readFrom, ih]
        rfl
      · have hce : c ≠ esc := fun h => hc (h ▸ hesc)
        have hcs : c ∉ stop := fun h => hc (hstop c h)
        simp only [hc, if_false, List.cons_append, List.nil_append]
        rw [readFrom, if_neg hce, if_neg hcs, ih]
        rfl

/-- A text without escape and stop characters is read as it stands. -/
theorem readUntil_plain {esc d : α} {stop : List α} (hd : d ∈ stop) (hde : d ≠ esc)
    (rest : List α) : ∀ {s : List α}, (∀ c ∈ s, c ≠ esc ∧ c ∉ stop) →
      readUntil esc stop (s ++ d :: rest) = some (s, d, rest)
  | [], _ => by
      show readFrom esc stop false (d :: rest) = _
      rw [readFrom, if_neg hde, if_pos hd]
  | c :: s, h => by
      have hc := h c (List.mem_cons_self ..)
      have ih : readFrom esc stop false (s ++ d :: rest) = some (s, d, rest) :=
        readUntil_plain hd hde rest fun x hx => h x (List.mem_cons_of_mem _ hx)
      rw [List.cons_append, readUntil, readFrom, if_neg hc.1, if_neg hc.2, ih]
      rfl

end QuestDbWriter.Lib.Escape
