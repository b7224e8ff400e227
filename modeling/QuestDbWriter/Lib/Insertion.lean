import Mathlib

/-!
# Idempotent insertion

A store that holds one content for each key. An item whose key is new is added; an item whose key
holds its content is there already; any other item is in conflict, and ends the insertion of a list.

* `insertAll_append`: a list may be inserted in parts;
* `insertAll_again`: what has been inserted can be inserted again, and changes nothing;
* `insertAll_repeated`: an item that occurs before may be left out.
-/

namespace QuestDbWriter.Lib

/-- How items are looked up in a store and added to it. -/
structure Insertion (σ α κ γ : Type) where
  key : α → κ
  content : α → γ
  lookup : σ → κ → Option γ
  add : σ → α → σ

namespace Insertion

variable {σ α κ γ : Type} [DecidableEq γ]

/-- An added item is found under its key, and everything else is found as before. -/
def Lawful [DecidableEq κ] (I : Insertion σ α κ γ) : Prop :=
  ∀ (s : σ) (a : α) (k : κ), I.lookup s (I.key a) = none →
    I.lookup (I.add s a) k = if k = I.key a then some (I.content a) else I.lookup s k

/-- One item. -/
def insert (I : Insertion σ α κ γ) (s : σ) (a : α) : Option σ :=
  match I.lookup s (I.key a) with
  | none => some (I.add s a)
  | some c => if c = I.content a then some s else none

/-- Items one after the other. -/
def insertAll (I : Insertion σ α κ γ) (s : σ) (as : List α) : Option σ := as.foldlM I.insert s

variable {I : Insertion σ α κ γ} {s t : σ} {a : α} {as bs : List α}

@[simp] theorem insertAll_nil : I.insertAll s [] = some s := rfl

/-- The first item, then the rest. -/
theorem insertAll_cons : I.insertAll s (a :: as) = (I.insert s a).bind (I.insertAll · as) := rfl

/-- Two lists in turn. -/
theorem insertAll_append :
    I.insertAll s (as ++ bs) = (I.insertAll s as).bind (I.insertAll · bs) :=
  List.foldlM_append

/-- An item whose key is new. -/
theorem insert_new (h : I.lookup s (I.key a) = none) : I.insert s a = some (I.add s a) := by
  rw [insert, h]

/-- An item that is there already. -/
theorem insert_stored (h : I.lookup s (I.key a) = some (I.content a)) : I.insert s a = some s := by
  rw [insert, h]
  exact if_pos rfl

/-- An item in conflict. -/
theorem insert_conflict {c : γ} (h : I.lookup s (I.key a) = some c) (hne : c ≠ I.content a) :
    I.insert s a = none := by
  rw [insert, h]
  exact if_neg hne

/-- Items that are all there change nothing. -/
theorem insertAll_stored (h : ∀ a ∈ as, I.lookup s (I.key a) = some (I.content a)) :
    I.insertAll s as = some s := by
  induction as with
  | nil => rfl
  | cons a as ih =>
    rw [insertAll_cons, insert_stored (h a (List.mem_cons_self ..)), Option.bind_some]
    exact ih fun b hb => h b (List.mem_cons_of_mem _ hb)

section
variable [DecidableEq κ]

/-- An inserted item is found, and so is everything that was found before. -/
theorem insert_found (hI : I.Lawful) (h : I.insert s a = some t) :
    I.lookup t (I.key a) = some (I.content a) ∧
      ∀ k c, I.lookup s k = some c → I.lookup t k = some c := by
  unfold insert at h
  split at h
  · next hnone =>
    cases h
    refine ⟨(hI s a _ hnone).trans (if_pos rfl), fun k c hk => ?_⟩
    rw [hI s a k hnone]
    split
    · next he =>
      rw [he, hnone] at hk
      cases hk
    · exact hk
  · next c hc =>
    split at h
    · next he =>
      cases h
      exact ⟨he ▸ hc, fun _ _ => id⟩
    · cases h

/-- Every item is found with its content, and what was there stays. -/
theorem insertAll_found (hI : I.Lawful) (h : I.insertAll s as = some t) :
    (∀ a ∈ as, I.lookup t (I.key a) = some (I.content a)) ∧
      ∀ k c, I.lookup s k = some c → I.lookup t k = some c := by
  induction as generalizing s with
  | nil =>
    cases h
    exact ⟨nofun, fun _ _ => id⟩
  | cons a as ih =>
    rw [insertAll_cons] at h
    obtain ⟨u, hu, h⟩ := Option.bind_eq_some_iff.mp h
    obtain ⟨ha, hkeep⟩ := insert_found hI hu
    obtain ⟨has, hkeep'⟩ := ih h
    refine ⟨fun b hb => ?_, fun k c hk => hkeep' k c (hkeep k c hk)⟩
    rcases List.mem_cons.mp hb with rfl | hb
    · exact hkeep' _ _ ha
    · exact has b hb

/-- **Inserting again changes nothing.** -/
theorem insertAll_again (hI : I.Lawful) (h : I.insertAll s as = some t) :
    I.insertAll t as = some t :=
  insertAll_stored (insertAll_found hI h).1

/-- **An item that occurs before may be left out.** -/
theorem insertAll_repeated (hI : I.Lawful) (ha : a ∈ as) :
    I.insertAll s (as ++ a :: bs) = I.insertAll s (as ++ bs) := by
  rw [insertAll_append, insertAll_append]
  refine Option.bind_congr fun u hu => ?_
  rw [insertAll_cons, insert_stored ((insertAll_found hI hu).1 a ha), Option.bind_some]

/-- A list with a conflict in itself cannot be inserted. -/
theorem insertAll_conflict (hI : I.Lawful) {b : α} (hb : b ∈ as) (hkey : I.key b = I.key a)
    (hne : I.content b ≠ I.content a) : I.insertAll s (as ++ a :: bs) = none := by
  rw [insertAll_append]
  refine Option.bind_eq_none_iff.mpr fun u hu => ?_
  have hfound := (insertAll_found hI hu).1 b hb
  rw [hkey] at hfound
  rw [insertAll_cons, insert_conflict hfound hne]
  rfl

end

end Insertion

end QuestDbWriter.Lib
