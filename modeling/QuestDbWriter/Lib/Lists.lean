import Mathlib

/-!
# Lists that change at one place

What an element of a list is behind a write at one position or a new last element, the relation of
two lists that are written at the same position, and signals: a signal is what was seen of a
condition, oldest first, and `Edges.rises` counts where it changes from false to true.
-/

namespace QuestDbWriter.Lib

/-! ## Positions -/

section
variable {α β : Type*} {l : List α} {i j : Nat} {a b : α}

/-- An element behind a write is an old one or the new one. -/
theorem getElem?_set_cases (h : (l.set j b)[i]? = some a) : l[i]? = some a ∨ a = b := by
  rw [List.getElem?_set] at h
  split at h
  · split at h
    · exact .inr (Option.some.inj h).symm
    · cases h
  · exact .inl h

/-- An element of a list with a new last one is an old one or the new one. -/
theorem getElem?_snoc_cases (h : (l ++ [b])[i]? = some a) : l[i]? = some a ∨ a = b := by
  rw [List.getElem?_append] at h
  split at h
  · exact .inl h
  · exact .inr (List.mem_singleton.mp (List.mem_of_getElem? h))

/-- Writing what is there changes nothing. -/
theorem set_same (h : l[i]? = some a) : l.set i a = l := by
  obtain ⟨hlt, rfl⟩ := List.getElem?_eq_some_iff.mp h
  exact List.set_getElem_self hlt

/-- Related lists have related elements at a position, and stay related behind writes there of
related ones. -/
theorem forall₂_set {R : α → β → Prop} {m : List β} (h : List.Forall₂ R l m) {c : β}
    (ha : l[i]? = some a) (hbc : R b c) :
    ∃ d, m[i]? = some d ∧ R a d ∧ List.Forall₂ R (l.set i b) (m.set i c) := by
  induction h generalizing i with
  | nil => cases ha
  | cons hr hrest ih =>
    cases i with
    | zero =>
      cases ha
      exact ⟨_, rfl, hr, .cons hbc hrest⟩
    | succ i =>
      obtain ⟨d, hd, hrel, hset⟩ := ih ha
      exact ⟨d, hd, hrel, .cons hr hset⟩

end

/-! ## Edges of a signal -/

namespace Edges

/-- The number of changes from false to true in a signal, behind a value. -/
def rises : Bool → List Bool → Nat
  | _, [] => 0
  | before, seen :: signal => (if seen && !before then 1 else 0) + rises seen signal

/-- One more value of a signal. -/
theorem rises_snoc (before : Bool) (signal : List Bool) (seen : Bool) :
    rises before (signal ++ [seen]) =
      rises before signal + if seen && !signal.getLast?.getD before then 1 else 0 := by
  induction signal generalizing before with
  | nil => simp [rises]
  | cons first signal ih =>
    have hlast : (first :: signal).getLast?.getD before = signal.getLast?.getD first := by
      rw [List.getLast?_cons, Option.getD_some]
    rw [List.cons_append, rises, rises, ih first, hlast, Nat.add_assoc]

/-- Rises and falls take turns: their numbers differ by what is seen first and last. -/
theorem rises_not (before : Bool) (signal : List Bool) :
    rises before signal + before.toNat =
      rises (!before) (signal.map (!·)) + (signal.getLast?.getD before).toNat := by
  induction signal generalizing before with
  | nil => simp [rises]
  | cons first signal ih =>
    have hlast : (first :: signal).getLast?.getD before = signal.getLast?.getD first := by
      rw [List.getLast?_cons, Option.getD_some]
    rw [List.map_cons, rises, rises, hlast]
    have hrest := ih first
    cases before <;> cases first <;> simp at hrest ⊢ <;> omega

end Edges

end QuestDbWriter.Lib
