import Mathlib

/-!
# Tables with a key

Facts about a list whose elements have pairwise distinct keys: the element of a key is the one
`find?` returns, taking it out by its key takes out that element and nothing else, and so does
replacing it.
-/

namespace QuestDbWriter.Lib

variable {α κ : Type} {key : α → κ} {l : List α}

/-- In a table with distinct keys an element is determined by its key. -/
theorem eq_of_key (hl : (l.map key).Nodup) {a b : α} (ha : a ∈ l) (hb : b ∈ l)
    (h : key a = key b) : a = b :=
  List.inj_on_of_nodup_map hl ha hb h

variable [DecidableEq κ]

/-- The row of a key is the one that `find?` returns. -/
theorem find?_key (hl : (l.map key).Nodup) {a : α} (ha : a ∈ l) :
    l.find? (fun b => key b = key a) = some a := by
  have hsome : (l.find? fun b => key b = key a).isSome := by
    rw [List.find?_isSome]
    exact ⟨a, ha, by simp⟩
  obtain ⟨b, hb⟩ := Option.isSome_iff_exists.mp hsome
  have hkey : key b = key a := by simpa using List.find?_some hb
  rw [hb, eq_of_key hl (List.mem_of_find?_eq_some hb) ha hkey]

/-- No row has a key that is not in the table. -/
theorem find?_no_key {k : κ} (h : k ∉ l.map key) :
    l.find? (fun b => key b = k) = none := by
  rw [List.find?_eq_none]
  intro b hb hk
  exact h (List.mem_map.mpr ⟨b, hb, by simpa using hk⟩)

/-- A row and the rows of the other keys are the table. -/
theorem cons_filter_perm (hl : (l.map key).Nodup) {a : α} (ha : a ∈ l) :
    (a :: l.filter fun b => key b ≠ key a).Perm l := by
  induction l with
  | nil => cases ha
  | cons b l ih =>
      rw [List.map_cons, List.nodup_cons] at hl
      rcases List.mem_cons.mp ha with rfl | ha
      · have hfilter : (l.filter fun c => key c ≠ key a) = l := by
          rw [List.filter_eq_self]
          intro c hc
          have : key c ≠ key a := fun h => hl.1 (h ▸ List.mem_map_of_mem hc)
          simpa using this
        rw [List.filter_cons_of_neg (by simp), hfilter]
      · have hba : key b ≠ key a := fun h => hl.1 (h ▸ List.mem_map_of_mem ha)
        rw [List.filter_cons_of_pos (by simpa using hba)]
        exact (List.Perm.swap b a _).trans ((ih hl.2 ha).cons b)

/-- A sum over the table loses the term of the row that is taken out. -/
theorem sum_filter_key (hl : (l.map key).Nodup) {a : α} (ha : a ∈ l) (f : α → Nat) :
    ((l.filter fun b => key b ≠ key a).map f).sum + f a = (l.map f).sum := by
  have h := ((cons_filter_perm hl ha).map f).sum_nat
  rw [List.map_cons, List.sum_cons] at h
  omega

/-- The table has one row less without the row that is taken out. -/
theorem length_filter_key (hl : (l.map key).Nodup) {a : α} (ha : a ∈ l) :
    (l.filter fun b => key b ≠ key a).length + 1 = l.length := by
  have h := (cons_filter_perm hl ha).length_eq
  rwa [List.length_cons] at h

/-! ## Replacing a row -/

/-- The table with a row in the place of the one that has its key. -/
def replaceKey (key : α → κ) (new : α) (l : List α) : List α :=
  l.map fun a => if key a = key new then new else a

theorem mem_replaceKey {new b : α} (h : b ∈ replaceKey key new l) :
    b = new ∨ b ∈ l ∧ key b ≠ key new := by
  obtain ⟨a, ha, rfl⟩ := List.mem_map.mp h
  split
  · exact .inl rfl
  · next hne => exact .inr ⟨ha, hne⟩

/-- A column in which the two rows agree stays as it is. -/
theorem map_replaceKey {β : Type} (f : α → β) {new : α}
    (hf : ∀ a ∈ l, key a = key new → f a = f new) : (replaceKey key new l).map f = l.map f := by
  unfold replaceKey
  rw [List.map_map]
  refine List.map_congr_left fun a ha => ?_
  dsimp only [Function.comp]
  split
  · next hk => exact (hf a ha hk).symm
  · rfl

/-- A second column stays distinct where no other row has the new value. -/
theorem nodup_replaceKey {ν : Type} {name : α → ν} {new : α} (hl : (l.map key).Nodup)
    (hn : (l.map name).Nodup) (hnew : ∀ a ∈ l, key a ≠ key new → name a ≠ name new) :
    ((replaceKey key new l).map name).Nodup := by
  unfold replaceKey
  rw [List.map_map]
  refine List.Nodup.map_on (fun a ha b hb he => ?_) (List.Nodup.of_map key hl)
  dsimp only [Function.comp] at he
  split at he
  · next hka =>
    split at he
    · next hkb => exact eq_of_key hl ha hb (hka.trans hkb.symm)
    · next hkb => exact absurd he.symm (hnew b hb hkb)
  · next hka =>
    split at he
    · next hkb => exact absurd he (hnew a ha hka)
    · exact eq_of_key hn ha hb he

end QuestDbWriter.Lib
