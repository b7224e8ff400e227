import Mathlib

/-!
# Texts with a separator

Reading a text as the list of its trimmed and non-empty parts, and writing such a list with a
separator and a blank. Reading what was written gives the list back (`tokens_render`), and what is
read stands in the text in its order (`tokens_inOrder`).
-/

namespace QuestDbWriter.Lib.Separated

/-! ## trim -/

section
variable {α : Type} (blank : α → Bool)

/-- The text without the blanks at its ends. -/
def trim (s : List α) : List α := (s.dropWhile blank).rdropWhile blank

theorem infix_trim (s : List α) : trim blank s <:+: s :=
  (List.rdropWhile_prefix _ _).isInfix.trans (List.dropWhile_suffix _).isInfix

@[simp] theorem trim_nil : trim blank ([] : List α) = [] := rfl

variable {blank}

/-- A blank in front goes. -/
theorem trim_cons {gap : α} (hgap : blank gap = true) (s : List α) :
    trim blank (gap :: s) = trim blank s := by
  unfold trim
  rw [List.dropWhile_cons_of_pos hgap]

/-- What is left begins with no blank, so trimming it again leaves it. -/
theorem trim_trim (s : List α) : trim blank (trim blank s) = trim blank s := by
  have hfront : (trim blank s).dropWhile blank = trim blank s := by
    rw [List.dropWhile_eq_self_iff]
    intro hpos
    have hprefix : trim blank s <+: s.dropWhile blank := List.rdropWhile_prefix _ _
    have hlength : 0 < (s.dropWhile blank).length := hpos.trans_le hprefix.length_le
    have hhead : (trim blank s)[0] = (s.dropWhile blank)[0] := hprefix.getElem hpos
    rw [hhead]
    exact List.dropWhile_get_zero_not _ _ hlength
  show ((trim blank s).dropWhile blank).rdropWhile blank = _
  rw [hfront]
  exact List.rdropWhile_idempotent _ _

end

/-! ## Order -/

section
variable {α : Type}

/-- The parts stand in the text behind each other. -/
def InOrder : List (List α) → List α → Prop
  | [], _ => True
  | p :: ps, s => ∃ before rest, s = before ++ p ++ rest ∧ InOrder ps rest

theorem InOrder.behind {ps : List (List α)} {s : List α} (h : InOrder ps s) (front : List α) :
    InOrder ps (front ++ s) := by
  cases ps with
  | nil => trivial
  | cons p ps =>
    obtain ⟨before, rest, rfl, hrest⟩ := h
    exact ⟨front ++ before, rest, by simp, hrest⟩

/-- Parts of consecutive texts stand in the joined text in their order. -/
theorem inOrder_intercalate (blank : α → Bool) (sep : α) : ∀ texts : List (List α),
    InOrder ((texts.map (trim blank)).filter (· ≠ [])) ([sep].intercalate texts) := by
  intro texts
  induction texts with
  | nil => trivial
  | cons s texts ih =>
    obtain ⟨before, rest, hs⟩ := infix_trim blank s
    have htail : ∃ tail, [sep].intercalate (s :: texts) = s ++ tail ∧
        InOrder ((texts.map (trim blank)).filter (· ≠ [])) tail := by
      cases texts with
      | nil => exact ⟨[], by simp, trivial⟩
      | cons t texts =>
        refine ⟨sep :: [sep].intercalate (t :: texts), ?_, ih.behind [sep]⟩
        rw [List.intercalate_cons_cons]
        simp
    obtain ⟨tail, htext, htail⟩ := htail
    rw [htext, List.map_cons]
    by_cases hempty : trim blank s = []
    · rw [List.filter_cons_of_neg (by simp [hempty])]
      exact htail.behind s
    · rw [List.filter_cons_of_pos (by simp [hempty])]
      refine ⟨before, rest ++ tail, ?_, htail.behind rest⟩
      rw [← List.append_assoc, hs]

end

/-! ## Parts -/

variable {α : Type} [DecidableEq α] (blank : α → Bool) (sep : α)

/-- The parts that a text is joined from. -/
structure PartsOf (s : List α) (parts : List (List α)) : Prop where
  ne_nil : parts ≠ []
  no_sep : ∀ p ∈ parts, sep ∉ p
  joins : [sep].intercalate parts = s

/-- The trimmed and non-empty parts of a text. -/
def tokens (s : List α) : List (List α) := ((s.splitOn sep).map (trim blank)).filter (· ≠ [])

/-- The parts behind each other, with a separator and a blank between them. -/
def render (gap : α) (parts : List (List α)) : List α := [sep, gap].intercalate parts

/-- A part that stays as it is. -/
structure IsToken (p : List α) : Prop where
  ne_nil : p ≠ []
  no_sep : sep ∉ p
  trimmed : trim blank p = p

/-- No part of a text has the separator. -/
theorem splitOn_no_sep (s : List α) : ∀ p ∈ s.splitOn sep, sep ∉ p := by
  induction s with
  | nil => simp
  | cons c s ih =>
    rw [List.splitOn_cons_eq_if_modifyHead]
    split
    · simpa using ih
    · next hc =>
      intro p hp
      cases hs : s.splitOn sep with
      | nil => exact absurd hs (List.splitOn_ne_nil _ _)
      | cons q qs =>
        rw [hs, List.modifyHead_cons, List.mem_cons] at hp
        rw [hs, List.forall_mem_cons] at ih
        rcases hp with rfl | hp
        · have hne : sep ≠ c := by
            rintro rfl
            simp at hc
          simp [hne, ih.1]
        · exact ih.2 p hp

/-- A text is joined from what it is split into. -/
theorem partsOf_splitOn (s : List α) : PartsOf sep s (s.splitOn sep) where
  ne_nil := List.splitOn_ne_nil _ _
  no_sep := splitOn_no_sep sep s
  joins := List.intercalate_splitOn _

/-- **The tokens of a text are its parts**, trimmed, but for those of blanks only. -/
theorem tokens_eq_parts (s : List α) :
    ∃ parts, PartsOf sep s parts ∧ tokens blank sep s = (parts.map (trim blank)).filter (· ≠ []) :=
  ⟨s.splitOn sep, partsOf_splitOn sep s, rfl⟩

/-- What is read is tokens. -/
theorem tokens_isToken (s : List α) : ∀ p ∈ tokens blank sep s, IsToken blank sep p := by
  intro p hp
  rw [tokens, List.mem_filter, decide_eq_true_eq] at hp
  obtain ⟨hmem, hne⟩ := hp
  obtain ⟨part, hpart, rfl⟩ := List.mem_map.mp hmem
  exact ⟨hne, fun h => splitOn_no_sep sep s part hpart ((infix_trim blank part).mem h),
    trim_trim part⟩

section
variable {blank sep}

/-- Written tokens are a text whose parts are the tokens, with the blank in front of all but the
first. -/
theorem splitOn_render {gap : α} (hgap : gap ≠ sep) {p : List α} {ps : List (List α)}
    (h : ∀ q ∈ p :: ps, sep ∉ q) :
    (render sep gap (p :: ps)).splitOn sep = p :: ps.map (gap :: ·) := by
  have hjoin : ∀ (p : List α) (ps : List (List α)),
      render sep gap (p :: ps) = [sep].intercalate (p :: ps.map (gap :: ·)) := by
    intro p ps
    induction ps generalizing p with
    | nil => simp [render]
    | cons q ps ih =>
      have hq := ih q
      simp only [render, List.map_cons, List.intercalate_cons_cons] at hq ⊢
      rw [hq]
      cases ps <;> simp
  rw [hjoin, List.splitOn_intercalate _ _ (by simp)]
  rw [List.forall_mem_cons] at h ⊢
  refine ⟨h.1, fun q hq => ?_⟩
  obtain ⟨r, hr, rfl⟩ := List.mem_map.mp hq
  simp [hgap.symm, h.2 r hr]

/-- **Reading what was written gives the tokens back.** -/
theorem tokens_render {gap : α} (hblank : blank gap = true) (hgap : gap ≠ sep)
    {parts : List (List α)} (h : ∀ p ∈ parts, IsToken blank sep p) :
    tokens blank sep (render sep gap parts) = parts := by
  cases parts with
  | nil => simp [tokens, render]
  | cons p ps =>
    have htrim : (p :: ps.map (gap :: ·)).map (trim blank) = p :: ps := by
      rw [List.forall_mem_cons] at h
      rw [List.map_cons, List.map_map, h.1.trimmed]
      refine congrArg (p :: ·) ((List.map_congr_left fun q hq => ?_).trans (List.map_id ps))
      exact (trim_cons hblank q).trans (h.2 q hq).trimmed
    rw [tokens, splitOn_render hgap (fun q hq => (h q hq).no_sep), htrim, List.filter_eq_self]
    exact fun q hq => decide_eq_true (h q hq).ne_nil

end

/-- **What is read stands in the text in its order.** -/
theorem tokens_inOrder (s : List α) : InOrder (tokens blank sep s) s := by
  have h := inOrder_intercalate blank sep (s.splitOn sep)
  rwa [List.intercalate_splitOn] at h

end QuestDbWriter.Lib.Separated
