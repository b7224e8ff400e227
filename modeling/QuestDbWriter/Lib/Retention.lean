import Mathlib

/-!
# The newest items that fit

A bounded buffer that drops its oldest items keeps the longest suffix that satisfies its bounds.

* `retain_longest`: every suffix that fits is a suffix of what is kept;
* `retain_append`: dropping before more items come is the same as dropping in the end;
* `retain_concat`: making room for one item and appending it.

Dually, a batch that is filled from the front is the longest initial part that satisfies its bounds
(`LongestFront.of_stop`).
-/

namespace QuestDbWriter.Lib

variable {α : Type}

/-- The longest suffix that satisfies `p`, or `[]`. -/
def retain (p : List α → Bool) : List α → List α
  | [] => []
  | a :: as => if p (a :: as) then a :: as else retain p as

/-- What is in a list that fits, fits. -/
def Shrinking (p : List α → Bool) : Prop := ∀ {s t : List α}, s <:+: t → p t → p s

variable {p : List α → Bool}

/-- A list that fits is kept whole. -/
theorem retain_of_fits {as : List α} (h : p as) : retain p as = as := by
  cases as with
  | nil => rfl
  | cons a as => exact if_pos h

/-- What is kept is a suffix. -/
theorem retain_suffix (p : List α → Bool) (as : List α) : retain p as <:+ as := by
  induction as with
  | nil => exact List.suffix_refl _
  | cons a as ih =>
    rw [retain]
    split
    · exact List.suffix_refl _
    · exact ih.trans (List.suffix_cons a as)

/-- What is kept fits. -/
theorem retain_fits (hnil : p []) (as : List α) : p (retain p as) := by
  induction as with
  | nil => exact hnil
  | cons a as ih =>
    rw [retain]
    split
    · assumption
    · exact ih

/-- **Every suffix that fits is a suffix of what is kept.** -/
theorem retain_longest {as s : List α} (hs : s <:+ as) (hp : p s) : s <:+ retain p as := by
  induction as with
  | nil => exact hs
  | cons a as ih =>
    rw [retain]
    split
    · exact hs
    · next hnot =>
      rcases List.suffix_cons_iff.mp hs with rfl | hs
      · exact absurd hp hnot
      · exact ih hs

/-- What is kept is the only suffix of its kind. -/
theorem eq_retain {as s : List α} (hnil : p []) (hs : s <:+ as) (hp : p s)
    (hlongest : ∀ t, t <:+ as → p t → t <:+ s) : s = retain p as :=
  (retain_longest hs hp).eq_of_length_le
    (hlongest _ (retain_suffix p as) (retain_fits hnil as)).length_le

/-- A common tail can be put behind suffixes. -/
theorem suffix_append_right {s t : List α} (h : s <:+ t) (bs : List α) : s ++ bs <:+ t ++ bs := by
  obtain ⟨d, rfl⟩ := h
  exact ⟨d, (List.append_assoc d s bs).symm⟩

/-- **Dropping before more items come is the same as dropping in the end.** -/
theorem retain_append (hp : Shrinking p) (hnil : p []) (as bs : List α) :
    retain p (retain p as ++ bs) = retain p (as ++ bs) := by
  refine eq_retain hnil ?_ (retain_fits hnil _) fun t ht hpt => retain_longest ?_ hpt
  · exact (retain_suffix p _).trans (suffix_append_right (retain_suffix p as) bs)
  · rcases List.suffix_or_suffix_of_suffix ht (List.suffix_append as bs) with hbs | ⟨u, rfl⟩
    · exact hbs.trans (List.suffix_append _ bs)
    · obtain ⟨d, hd⟩ := ht
      have hu : u <:+ as := ⟨d, List.append_cancel_right ((List.append_assoc d u bs).trans hd)⟩
      have hpu : p u := hp ⟨[], bs, rfl⟩ hpt
      exact suffix_append_right (retain_longest hu hpu) bs

/-- **Making room for one item and appending it**, where the item fits alone. -/
theorem retain_concat {a : α} (h : p [a]) (as : List α) :
    retain p (as ++ [a]) = retain (fun s => p (s ++ [a])) as ++ [a] := by
  induction as with
  | nil => exact retain_of_fits h
  | cons b as ih =>
    rw [List.cons_append, retain, retain, List.cons_append, ih]
    split <;> rfl

/-! ## From the front -/

/-- `s` is the longest initial part of `as` that satisfies `P`. -/
structure LongestFront (P : List α → Prop) (as s : List α) : Prop where
  front : s <+: as
  holds : P s
  longest : ∀ t, t <+: as → P t → t <+: s

namespace LongestFront

variable {P : List α → Prop} {as s t : List α}

/-- There is one longest front. -/
theorem unique (h : LongestFront P as s) (h' : LongestFront P as t) : s = t :=
  (h'.longest s h.front h.holds).eq_of_length_le (h.longest t h'.front h'.holds).length_le

/-- There is one, if the empty part satisfies `P`. -/
theorem exists_longest (hnil : P []) (as : List α) : ∃ s, LongestFront P as s := by
  induction as using List.reverseRecOn with
  | nil => exact ⟨[], List.nil_prefix, hnil, fun t ht _ => ht⟩
  | append_singleton as a ih =>
    by_cases hall : P (as ++ [a])
    · exact ⟨_, List.prefix_refl _, hall, fun t ht _ => ht⟩
    · obtain ⟨s, hs⟩ := ih
      refine ⟨s, hs.front.trans (List.prefix_append ..), hs.holds, fun t ht hPt => ?_⟩
      rcases List.prefix_concat_iff.mp ht with rfl | ht
      · exact absurd hPt hall
      · exact hs.longest t ht hPt

/-- **A part that its next item would spoil is the longest**, where parts of what satisfies `P`
satisfy it. -/
theorem of_stop {rest : List α} (hP : ∀ {s t : List α}, s <+: t → P t → P s) (hs : P s)
    (hstop : ∀ a ∈ rest.head?, ¬ P (s ++ [a])) : LongestFront P (s ++ rest) s := by
  refine ⟨List.prefix_append s rest, hs, fun t ht hPt => ?_⟩
  rcases List.prefix_or_prefix_of_prefix ht (List.prefix_append s rest) with h | ⟨u, rfl⟩
  · exact h
  · cases u with
    | nil => rw [List.append_nil]
    | cons a u =>
      obtain ⟨d, hd⟩ := ht
      rw [List.append_assoc, List.append_cancel_left_eq] at hd
      have hhead : rest.head? = some a := by rw [← hd]; rfl
      refine absurd (hP ⟨u, ?_⟩ hPt) (hstop a hhead)
      rw [List.append_assoc]
      rfl

end LongestFront

end QuestDbWriter.Lib
