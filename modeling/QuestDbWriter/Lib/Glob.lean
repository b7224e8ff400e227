import Mathlib

/-!
# Wildcard patterns

A pattern is a list of items: one element that a predicate allows, or a star. `Matches` says what a
pattern stands for. `glob` decides it without backtracking: the pieces between the stars are looked
for one behind the other, each where it first occurs, and the last one at the end. Taking a piece
where it first occurs loses nothing, since a star takes what is left in front of the next piece
(`glob_iff`).
-/

namespace QuestDbWriter.Lib.Glob

variable {α : Type}

/-- An item of a pattern. -/
inductive Item (α : Type) where
  | one (p : α → Bool)
  | star

/-- What a pattern stands for. -/
inductive Matches : List (Item α) → List α → Prop where
  | nil : Matches [] []
  | one {p : α → Bool} {c : α} {items : List (Item α)} {s : List α} (hp : p c = true)
      (h : Matches items s) : Matches (.one p :: items) (c :: s)
  | star {items : List (Item α)} {s : List α} (taken : List α) (h : Matches items s) :
      Matches (.star :: items) (taken ++ s)

/-! ## Pieces -/

/-- A piece without stars fits a text. -/
abbrev Fits (piece : List (α → Bool)) (s : List α) : Prop :=
  List.Forall₂ (fun p c => p c = true) piece s

/-- What is left of a text that begins with a piece. -/
def after : List (α → Bool) → List α → Option (List α)
  | [], s => some s
  | _ :: _, [] => none
  | p :: piece, c :: s => if p c then after piece s else none

/-- A piece at the front, item by item. -/
theorem after_iff {piece : List (α → Bool)} {s rest : List α} :
    after piece s = some rest ↔ ∃ t, s = t ++ rest ∧ Fits piece t := by
  induction piece generalizing s with
  | nil =>
    constructor
    · intro h
      cases h
      exact ⟨[], rfl, .nil⟩
    · rintro ⟨t, rfl, ht⟩
      cases ht
      rfl
  | cons p piece ih =>
    cases s with
    | nil =>
      constructor
      · intro h
        cases h
      · rintro ⟨t, hs, ht⟩
        cases ht with
        | cons => cases hs
    | cons c s =>
      rw [after]
      split
      · next hp =>
        rw [ih]
        constructor
        · rintro ⟨t, rfl, ht⟩
          exact ⟨c :: t, rfl, .cons hp ht⟩
        · rintro ⟨t, hs, ht⟩
          cases ht with
          | cons _ ht =>
            cases hs
            exact ⟨_, rfl, ht⟩
      · next hp =>
        constructor
        · intro h
          cases h
        · rintro ⟨t, hs, ht⟩
          cases ht with
          | cons hp' _ =>
            cases hs
            exact absurd hp' hp

/-- What is left behind the first occurrence of a piece. -/
def find (piece : List (α → Bool)) : List α → Option (List α)
  | [] => after piece []
  | c :: s => (after piece (c :: s)).or (find piece s)

/-- What the search finds is there. -/
theorem find_sound {piece : List (α → Bool)} {s rest : List α} (h : find piece s = some rest) :
    ∃ taken t, s = taken ++ (t ++ rest) ∧ Fits piece t := by
  induction s with
  | nil =>
    obtain ⟨t, hs, ht⟩ := after_iff.mp h
    exact ⟨[], t, hs, ht⟩
  | cons c s ih =>
    rw [find, Option.or_eq_some_iff] at h
    rcases h with h | ⟨-, h⟩
    · obtain ⟨t, hs, ht⟩ := after_iff.mp h
      exact ⟨[], t, hs, ht⟩
    · obtain ⟨taken, t, rfl, ht⟩ := ih h
      exact ⟨c :: taken, t, rfl, ht⟩

/-- Behind the first occurrence, no less is left than behind another. -/
theorem find_complete {piece : List (α → Bool)} {t s : List α} (ht : Fits piece t) :
    ∀ taken, ∃ rest, find piece (taken ++ (t ++ s)) = some rest ∧ s <:+ rest := by
  have hhere : after piece (t ++ s) = some s := after_iff.mpr ⟨t, rfl, ht⟩
  intro taken
  induction taken with
  | nil =>
    refine ⟨s, ?_, List.suffix_rfl⟩
    rw [List.nil_append]
    cases hs : t ++ s with
    | nil =>
      rw [find, ← hs]
      exact hhere
    | cons c s' =>
      rw [find, ← hs, hhere]
      rfl
  | cons c taken ih =>
    rw [List.cons_append, find]
    cases hfirst : after piece (c :: (taken ++ (t ++ s))) with
    | none => exact ih
    | some rest =>
      refine ⟨rest, rfl, ?_⟩
      obtain ⟨t', hs, ht'⟩ := after_iff.mp hfirst
      have hlength : t'.length = t.length := ht'.length_eq.symm.trans ht.length_eq
      have hall : s <:+ t' ++ rest := by
        rw [← hs]
        exact ⟨c :: (taken ++ t), by simp⟩
      refine List.suffix_of_suffix_length_le hall (List.suffix_append _ _) ?_
      have hlengths := congrArg List.length hs
      simp at hlengths
      omega

/-! ## Pieces behind stars -/

/-- The pieces stand behind each other, the last one at the end. -/
inductive Behind : List (List (α → Bool)) → List α → Prop where
  | last {piece : List (α → Bool)} {t : List α} (taken : List α) (ht : Fits piece t) :
      Behind [piece] (taken ++ t)
  | cons {piece next : List (α → Bool)} {pieces : List (List (α → Bool))} {t s : List α}
      (taken : List α) (ht : Fits piece t) (h : Behind (next :: pieces) s) :
      Behind (piece :: next :: pieces) (taken ++ (t ++ s))

/-- The first star takes what is in front, too. -/
theorem Behind.append {pieces : List (List (α → Bool))} {s : List α} (h : Behind pieces s)
    (front : List α) : Behind pieces (front ++ s) := by
  cases h with
  | last taken ht =>
    rw [← List.append_assoc]
    exact .last _ ht
  | cons taken ht h =>
    rw [← List.append_assoc]
    exact .cons _ ht h

/-- Looking for the pieces, each where it first occurs, and the last one at the end. -/
def search : List (List (α → Bool)) → List α → Bool
  | [], _ => false
  | [piece], s =>
    decide (piece.length ≤ s.length) &&
      (after piece (s.drop (s.length - piece.length))).any List.isEmpty
  | piece :: next :: pieces, s =>
    match find piece s with
    | none => false
    | some rest => search (next :: pieces) rest

/-- The search for the pieces in order. -/
theorem search_iff {pieces : List (List (α → Bool))} {s : List α} :
    search pieces s = true ↔ Behind pieces s := by
  induction pieces generalizing s with
  | nil =>
    constructor
    · intro h
      cases h
    · intro h
      cases h
  | cons piece pieces ih =>
    cases pieces with
    | nil =>
      rw [search, Bool.and_eq_true, decide_eq_true_iff, Option.any_eq_true]
      constructor
      · rintro ⟨-, rest, hrest, hempty⟩
        obtain ⟨t, hs, ht⟩ := after_iff.mp hrest
        rw [List.isEmpty_iff.mp hempty, List.append_nil] at hs
        rw [← List.take_append_drop (s.length - piece.length) s, hs]
        exact .last _ ht
      · intro h
        cases h with
        | last taken ht =>
          have hlength := ht.length_eq
          refine ⟨by simp [hlength], [], after_iff.mpr ⟨_, ?_, ht⟩, rfl⟩
          simp [hlength]
    | cons next pieces =>
      rw [search]
      constructor
      · intro h
        split at h
        · cases h
        · next rest hrest =>
          obtain ⟨taken, t, rfl, ht⟩ := find_sound hrest
          exact .cons taken ht (ih.mp h)
      · intro h
        cases h with
        | cons taken ht h =>
          obtain ⟨rest, hrest, front, rfl⟩ := find_complete ht taken
          rw [hrest]
          exact ih.mpr (h.append front)

/-! ## Patterns -/

/-- The piece in front of the first star, and those behind each star. -/
def pieces : List (Item α) → List (α → Bool) × List (List (α → Bool))
  | [] => ([], [])
  | .one p :: items => (p :: (pieces items).1, (pieces items).2)
  | .star :: items => ([], (pieces items).1 :: (pieces items).2)

/-- Matching without backtracking. -/
def glob (items : List (Item α)) (s : List α) : Bool :=
  match after (pieces items).1 s with
  | none => false
  | some rest => if (pieces items).2 = [] then rest.isEmpty else search (pieces items).2 rest

/-- What follows the first piece: the others, or nothing. -/
def Follows (behind : List (List (α → Bool))) (rest : List α) : Prop :=
  if behind = [] then rest = [] else Behind behind rest

/-- The first piece and what follows it. -/
theorem behind_iff {first : List (α → Bool)} {behind : List (List (α → Bool))} {s : List α} :
    Behind (first :: behind) s ↔
      ∃ taken t rest, s = taken ++ (t ++ rest) ∧ Fits first t ∧ Follows behind rest := by
  cases behind with
  | nil =>
    constructor
    · intro h
      cases h with
      | last taken ht => exact ⟨taken, _, [], by simp, ht, rfl⟩
    · rintro ⟨taken, t, rest, rfl, ht, hrest⟩
      cases hrest
      rw [List.append_nil]
      exact .last taken ht
  | cons next behind =>
    constructor
    · intro h
      cases h with
      | cons taken ht h => exact ⟨taken, _, _, rfl, ht, h⟩
    · rintro ⟨taken, t, rest, rfl, ht, hrest⟩
      exact .cons taken ht hrest

/-- A pattern stands for its first piece and what its stars let follow. -/
theorem matches_iff {items : List (Item α)} {s : List α} : Matches items s ↔
    ∃ t rest, s = t ++ rest ∧ Fits (pieces items).1 t ∧ Follows (pieces items).2 rest := by
  induction items generalizing s with
  | nil =>
    constructor
    · intro h
      cases h
      exact ⟨[], [], rfl, .nil, rfl⟩
    · rintro ⟨t, rest, rfl, ht, hrest⟩
      cases ht
      cases hrest
      exact .nil
  | cons item items ih =>
    cases item with
    | one p =>
      constructor
      · intro h
        cases h with
        | one hp h =>
          obtain ⟨t, rest, rfl, ht, hrest⟩ := ih.mp h
          exact ⟨_ :: t, rest, rfl, .cons hp ht, hrest⟩
      · rintro ⟨t, rest, rfl, ht, hrest⟩
        cases ht with
        | cons hp ht => exact .one hp (ih.mpr ⟨_, rest, rfl, ht, hrest⟩)
    | star =>
      constructor
      · intro h
        cases h with
        | star taken h =>
          obtain ⟨t, rest, rfl, ht, hrest⟩ := ih.mp h
          exact ⟨[], _, rfl, .nil, behind_iff.mpr ⟨taken, t, rest, rfl, ht, hrest⟩⟩
      · rintro ⟨t, rest, rfl, ht, hrest⟩
        cases ht
        obtain ⟨taken, t, rest, rfl, ht, hrest⟩ := behind_iff.mp hrest
        exact .star taken (ih.mpr ⟨t, rest, rfl, ht, hrest⟩)

/-- **Matching without backtracking decides what a pattern stands for.** -/
theorem glob_iff {items : List (Item α)} {s : List α} : glob items s = true ↔ Matches items s := by
  have hfollows : ∀ rest : List α, (if (pieces items).2 = [] then rest.isEmpty
      else search (pieces items).2 rest) = true ↔ Follows (pieces items).2 rest := by
    intro rest
    unfold Follows
    split
    · exact List.isEmpty_iff
    · exact search_iff
  rw [matches_iff, glob]
  constructor
  · intro h
    split at h
    · cases h
    · next rest hrest =>
      obtain ⟨t, hs, ht⟩ := after_iff.mp hrest
      exact ⟨t, rest, hs, ht, (hfollows rest).mp h⟩
  · rintro ⟨t, rest, rfl, ht, hrest⟩
    rw [after_iff.mpr ⟨t, rfl, ht⟩]
    exact (hfollows rest).mpr hrest

/-! ## Patterns without stars -/

/-- A pattern without stars and choices stands for one text. -/
theorem matches_literal [DecidableEq α] {text s : List α} :
    Matches (text.map fun c => .one fun d => decide (d = c)) s ↔ s = text := by
  induction text generalizing s with
  | nil =>
    constructor
    · intro h
      cases h
      rfl
    · rintro rfl
      exact .nil
  | cons c text ih =>
    constructor
    · intro h
      cases h with
      | one hp h => rw [of_decide_eq_true hp, ih.mp h]
    · rintro rfl
      exact .one (decide_eq_true rfl) (ih.mpr rfl)

end QuestDbWriter.Lib.Glob
