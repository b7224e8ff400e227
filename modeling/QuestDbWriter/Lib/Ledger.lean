import Mathlib

/-!
# Ledgers

Facts for accounts of rows that move between places. A list in the order of a key splits at a
predicate that only smaller keys meet; a part of it is determined by its keys; and of places whose
contents together have no repetition, each element is in exactly one. A history where every entry
rests on those before it is a `Chronicle`.
-/

namespace QuestDbWriter.Lib

section
variable {α κ : Type} [LinearOrder κ] {key : α → κ}

/-- A list in the order of its keys, where the elements of `p` are before all others, is its
elements of `p` and then the others. -/
theorem filter_append_of_before {p : α → Bool} : ∀ {l : List α},
    (l.map key).Pairwise (· < ·) → (∀ a ∈ l, p a → ∀ b ∈ l, ¬ p b → key a < key b) →
      l.filter p ++ l.filter (fun a => !p a) = l
  | [], _, _ => rfl
  | x :: l, hs, hp => by
      rw [List.map_cons, List.pairwise_cons] at hs
      cases hx : p x with
      | true =>
          have ih := filter_append_of_before hs.2 fun a ha hpa b hb hpb =>
            hp a (List.mem_cons_of_mem _ ha) hpa b (List.mem_cons_of_mem _ hb) hpb
          rw [List.filter_cons_of_pos hx, List.filter_cons_of_neg (by simp [hx]),
            List.cons_append, ih]
      | false =>
          -- a later element of `p` would have both a larger and a smaller key than `x`
          have hnone : ∀ a ∈ l, p a = false := by
            intro a ha
            by_contra hpa
            rw [Bool.not_eq_false] at hpa
            have hlt := hp a (List.mem_cons_of_mem _ ha) hpa x (List.mem_cons_self ..)
                (by simp [hx])
            exact lt_asymm hlt (hs.1 _ (List.mem_map_of_mem ha))
          have hfilter : l.filter p = [] := by
            rw [List.filter_eq_nil_iff]
            intro a ha
            simp [hnone a ha]
          have hrest : (l.filter fun a => !p a) = l := by
            rw [List.filter_eq_self]
            intro a ha
            simp [hnone a ha]
          rw [List.filter_cons_of_neg (by simp [hx]), List.filter_cons_of_pos (by simp [hx]),
            hfilter, hrest, List.nil_append]

/-- Two lists in the order of their keys, of the same keys, the one part of the other, are equal. -/
theorem eq_of_subset_of_keys {l m : List α} (hl : (l.map key).Pairwise (· < ·))
    (hsub : l ⊆ m) (hkeys : l.map key = m.map key) : l = m := by
  have hnodup : l.Nodup := List.Nodup.of_map _ (hl.imp fun h => ne_of_lt h)
  have hlen : m.length ≤ l.length := by
    have := congrArg List.length hkeys
    simp only [List.length_map] at this
    exact Nat.le_of_eq this.symm
  have hperm := (List.subperm_of_subset hnodup hsub).perm_of_length_le hlen
  have hm : (m.map key).Pairwise (· < ·) := hkeys ▸ hl
  rw [List.pairwise_map] at hl hm
  exact hperm.eq_of_pairwise (fun a b _ _ hab hba => absurd hba (lt_asymm hab)) hl hm

end

section
variable {α ι : Type} {places : List ι} {rowsAt : ι → List α}

/-- Of places whose contents together have no repetition, an element is in exactly one. -/
theorem exists_unique_place (hall : ∀ i, i ∈ places) (hn : (places.flatMap rowsAt).Nodup) {a : α}
    (ha : a ∈ places.flatMap rowsAt) : ∃! i, a ∈ rowsAt i := by
  obtain ⟨i, -, hi⟩ := List.mem_flatMap.mp ha
  refine ⟨i, hi, fun j hj => ?_⟩
  by_contra hne
  have hpair := (List.nodup_flatMap.mp hn).2
  have : Std.Symm (Function.onFun (List.Disjoint (α := α)) rowsAt) := ⟨fun _ _ h _ hb ha => h ha hb⟩
  exact hpair.forall (hall j) (hall i) hne hj hi

end

section
variable {α : Type} {P : List α → α → Prop}

/-- Every entry of the history rests on the entries before it. -/
inductive Chronicle (P : List α → α → Prop) : List α → Prop where
  | nil : Chronicle P []
  | snoc {history : List α} (a : α) (h : Chronicle P history) (hp : P history a) :
      Chronicle P (history ++ [a])

/-- An entry of a chronicle rests on what comes before it. -/
theorem Chronicle.rests {history : List α} (h : Chronicle P history) :
    ∀ {before after : List α} {a : α}, history = before ++ a :: after → P before a := by
  induction h with
  | nil =>
    intro before after a heq
    simp at heq
  | @snoc history b h hp ih =>
    intro before after a heq
    rcases List.eq_nil_or_concat after with rfl | ⟨after, c, rfl⟩
    · obtain ⟨rfl, he⟩ := List.append_inj' heq rfl
      cases he
      exact hp
    · have heq' : history ++ [b] = (before ++ a :: after) ++ [c] := by
        rw [heq]
        simp
      exact ih (List.append_inj' heq' rfl).1

end

end QuestDbWriter.Lib
