import Mathlib

/-!
# A durable queue

What a store-and-forward component is for: elements are accepted into memory, moved on to a store in
the order they came, and taken from the front of the store; a crash forgets what is in memory. An
element that is stored already may be skipped on the way to the store. `Ordered` and `Accounted` are
what that comes to: nothing is invented, doubled or overtaken, and nothing gets lost but what was in
memory at a crash.
-/

namespace QuestDbWriter.Lib

/-- A queue with a store, and what has become of the elements so far. -/
structure DurableQueue (α : Type*) where
  /-- Every element so far, in the order they were accepted. -/
  accepted : List α
  removed : List α
  stored : List α
  inMemory : List α
  /-- What was in memory at a crash. -/
  lost : List α

namespace DurableQueue

variable {α : Type*} {d d' : DurableQueue α}

/-- The elements that were ever stored, and those in memory behind them. -/
def line (d : DurableQueue α) : List α := d.removed ++ d.stored ++ d.inMemory

/-- What can happen: elements are accepted, stored, removed, or lost with the memory. -/
inductive Step : DurableQueue α → DurableQueue α → Prop where
  | accept (d : DurableQueue α) (x : α) :
      Step d { d with accepted := d.accepted ++ [x], inMemory := d.inMemory ++ [x] }
  /-- The front of the memory is stored; what has been stored before may be skipped. -/
  | store (d : DurableQueue α) (batch kept rest : List α) (hm : d.inMemory = batch ++ rest)
      (hk : kept.Sublist batch) (hs : ∀ x ∈ batch, x ∈ d.removed ++ d.stored ++ kept) :
      Step d { d with stored := d.stored ++ kept, inMemory := rest }
  | remove (d : DurableQueue α) (front rest : List α) (hs : d.stored = front ++ rest) :
      Step d { d with removed := d.removed ++ front, stored := rest }
  | crash (d : DurableQueue α) : Step d { d with lost := d.lost ++ d.inMemory, inMemory := [] }

/-- Any number of steps. -/
abbrev Reaches : DurableQueue α → DurableQueue α → Prop := Relation.ReflTransGen Step

/-- A queue before its first element. -/
def empty : DurableQueue α := ⟨[], [], [], [], []⟩

/-! ## Order -/

/-- Nothing is invented, doubled or overtaken. -/
def Ordered (d : DurableQueue α) : Prop := d.line.Sublist d.accepted

/-- Every step keeps the order. -/
theorem Ordered.step (h : Ordered d) (hs : Step d d') : Ordered d' := by
  cases hs with
  | accept x =>
    have hline := List.Sublist.append h (List.Sublist.refl [x])
    simpa [Ordered, line] using hline
  | store batch kept rest hm hk _ =>
    have hfront : (d.removed ++ d.stored ++ kept).Sublist (d.removed ++ d.stored ++ batch) :=
      (List.Sublist.refl _).append hk
    have hline := (hfront.append (List.Sublist.refl rest)).trans
      (by simpa [Ordered, line, hm] using h)
    simpa [Ordered, line] using hline
  | remove front rest hs => simpa [Ordered, line, hs] using h
  | crash => exact (List.sublist_append_left _ _).trans (by simpa [Ordered, line] using h)

/-! ## Accounts -/

/-- Every element is somewhere; and if no element comes twice, each is in one place. -/
structure Accounted (d : DurableQueue α) : Prop where
  mem : ∀ x ∈ d.accepted, x ∈ d.line ++ d.lost
  perm : d.accepted.Nodup → d.accepted.Perm (d.line ++ d.lost)

/-- Nothing is skipped where no element comes twice: what is in memory has not been stored. -/
theorem Ordered.kept_eq (h : Ordered d) (hn : d.accepted.Nodup) {batch kept rest : List α}
    (hm : d.inMemory = batch ++ rest) (hk : kept.Sublist batch)
    (hs : ∀ x ∈ batch, x ∈ d.removed ++ d.stored ++ kept) : kept = batch := by
  have hline : (d.removed ++ d.stored ++ (batch ++ rest)).Nodup := by
    have hsub : d.line.Nodup := hn.sublist h
    rwa [line, hm] at hsub
  have hdisjoint := (List.nodup_append.mp hline).2.2
  have hbatch : batch.Nodup := ((List.nodup_append.mp (List.nodup_append.mp hline).2.1)).1
  have hsubset : batch ⊆ kept := by
    intro x hx
    rcases List.mem_append.mp (hs x hx) with hold | hnew
    · exact absurd rfl (hdisjoint x hold x (List.mem_append_left _ hx))
    · exact hnew
  exact hk.eq_of_length_le (List.subperm_of_subset hbatch hsubset).length_le

/-- Every step keeps the account. -/
theorem Accounted.step (h : Accounted d) (ho : Ordered d) (hs : Step d d') : Accounted d' := by
  cases hs with
  | accept x =>
    have hline : d.line ++ [x] ++ d.lost =
        d.removed ++ d.stored ++ (d.inMemory ++ [x]) ++ d.lost := by
      simp [line]
    refine ⟨fun y hy => ?_, fun hn => ?_⟩
    · have hmem : y ∈ d.line ++ [x] ++ d.lost := by
        rcases List.mem_append.mp hy with hy | hy
        · have := h.mem y hy
          simp only [List.mem_append] at this ⊢
          exact this.imp_left .inl
        · simp [List.mem_singleton.mp hy]
      rwa [hline] at hmem
    · have hperm := (h.perm (List.Nodup.of_append_left hn)).append_right [x]
      have hmove : (d.line ++ d.lost ++ [x]).Perm (d.line ++ [x] ++ d.lost) := by
        rw [List.append_assoc, List.append_assoc]
        exact List.perm_append_comm.append_left _
      rw [hline] at hmove
      exact hperm.trans hmove
  | store batch kept rest hm hk hstored =>
    refine ⟨fun y hy => ?_, fun hn => ?_⟩
    · have hmem := h.mem y hy
      simp only [line, hm, List.mem_append] at hmem hstored ⊢
      rcases hmem with ((hy | hy) | hy | hy) | hy
      · simp [hy]
      · simp [hy]
      · have := hstored y hy
        tauto
      · simp [hy]
      · simp [hy]
    · rw [ho.kept_eq hn hm hk hstored]
      simpa [line, hm] using h.perm hn
  | remove front rest hsplit =>
    refine ⟨fun y hy => ?_, fun hn => ?_⟩
    · simpa [line, hsplit] using h.mem y hy
    · simpa [line, hsplit] using h.perm hn
  | crash =>
    have hline : (d.line ++ d.lost).Perm
        (d.removed ++ d.stored ++ [] ++ (d.lost ++ d.inMemory)) := by
      rw [line, List.append_nil, List.append_assoc]
      exact List.perm_append_comm.append_left _
    exact ⟨fun y hy => hline.subset (h.mem y hy), fun hn => (h.perm hn).trans hline⟩

/-- **A durable queue keeps its order and its accounts.** -/
theorem of_reaches (h : Ordered d ∧ Accounted d) (hr : Reaches d d') :
    Ordered d' ∧ Accounted d' := by
  induction hr with
  | refl => exact h
  | tail _ hs ih => exact ⟨ih.1.step hs, ih.2.step ih.1 hs⟩

/-- Nothing has been accepted yet. -/
theorem empty_sound : Ordered (empty : DurableQueue α) ∧ Accounted (empty : DurableQueue α) :=
  ⟨List.Sublist.refl _, fun _ hx => absurd hx List.not_mem_nil, fun _ => List.Perm.refl _⟩

/-- Where no element comes twice and nothing got lost, the line is what was accepted. -/
theorem line_eq (ho : Ordered d) (ha : Accounted d) (hn : d.accepted.Nodup) (hl : d.lost = []) :
    d.line = d.accepted := by
  refine ho.eq_of_length ?_
  have hlength := (ha.perm hn).length_eq
  rw [hl, List.append_nil] at hlength
  exact hlength.symm

end DurableQueue

end QuestDbWriter.Lib
