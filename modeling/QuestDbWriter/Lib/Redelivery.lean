import Mathlib

/-!
# Redelivery into a table with keys

A queue in front of a table that keeps the latest row of each key. A row is written any number of
times while it is queued; when a front of the queue is acknowledged, the table has been given all of
it once more; and the oldest row may be buried, written or not. `Sound` is what that comes to, and
`Sound.of_reaches` says that it always holds: a key that no queued and no buried row has shows the
row that it would show if each acknowledged row had been written once, in order.
-/

namespace QuestDbWriter.Lib

/-! ## The latest row of a key -/

section
variable {ρ κ : Type*} [DecidableEq κ] {key : ρ → κ} {log more : List ρ} {k : κ} {r : ρ}

/-- What a table shows for a key when it has been given the rows of a log. -/
def latest (key : ρ → κ) (log : List ρ) (k : κ) : Option ρ := log.reverse.find? (key · = k)

/-- The latest entry is in what was added, or was there before. -/
@[simp] theorem latest_append :
    latest key (log ++ more) k = (latest key more k).or (latest key log k) := by
  simp [latest, List.reverse_append, List.find?_append]

/-- There is no latest entry where none has the key. -/
theorem latest_eq_none : latest key log k = none ↔ ∀ r ∈ log, key r ≠ k := by
  simp [latest]

/-- Rows of other keys change nothing. -/
theorem latest_append_of_ne (h : ∀ r ∈ more, key r ≠ k) :
    latest key (log ++ more) k = latest key log k := by
  rw [latest_append, latest_eq_none.mpr h, Option.none_or]

/-- Two tables that show the same show the same behind the same rows. -/
theorem latest_append_congr {log' : List ρ}
    (h : (∀ r ∈ more, key r ≠ k) → latest key log k = latest key log' k) :
    latest key (log ++ more) k = latest key (log' ++ more) k := by
  rw [latest_append, latest_append]
  cases hm : latest key more k with
  | some r => rw [Option.some_or, Option.some_or]
  | none =>
    rw [Option.none_or, Option.none_or]
    exact h (latest_eq_none.mp hm)

end

/-! ## The queue and the table -/

/-- A queue in front of a table: its rows, those that it has given up, and what the table has been
given. -/
structure Redelivery (ρ : Type*) where
  queued : List ρ
  acknowledged : List ρ
  buried : List ρ
  log : List ρ

namespace Redelivery

variable {ρ : Type*} {d d' : Redelivery ρ}

/-- What can happen: rows are queued, written in part, acknowledged or buried. -/
inductive Step : Redelivery ρ → Redelivery ρ → Prop where
  | enqueue (d : Redelivery ρ) (rows : List ρ) : Step d { d with queued := d.queued ++ rows }
  /-- Queued rows are written, whether or not that is ever known. -/
  | write (d : Redelivery ρ) (rows : List ρ) (h : ∀ r ∈ rows, r ∈ d.queued) :
      Step d { d with log := d.log ++ rows }
  /-- A front of the queue is written, and known to be. -/
  | acknowledge (d : Redelivery ρ) (rows rest : List ρ) (h : d.queued = rows ++ rest) :
      Step d { d with
        queued := rest, acknowledged := d.acknowledged ++ rows, log := d.log ++ rows }
  | bury (d : Redelivery ρ) (r : ρ) (rest : List ρ) (h : d.queued = r :: rest) :
      Step d { d with queued := rest, buried := d.buried ++ [r] }

/-- Any number of steps. -/
abbrev Reaches : Redelivery ρ → Redelivery ρ → Prop := Relation.ReflTransGen Step

/-- What holds between the queue and the table. -/
structure Sound (d : Redelivery ρ) : Prop where
  /-- The table has been given nothing else. -/
  given : ∀ r ∈ d.log, r ∈ d.acknowledged ∨ r ∈ d.buried ∨ r ∈ d.queued
  /-- What is acknowledged has been written, in order. -/
  written : d.acknowledged.Sublist d.log
  settled : ∀ {κ : Type} [DecidableEq κ] (key : ρ → κ) (k : κ),
    (∀ r, r ∈ d.queued ∨ r ∈ d.buried → key r ≠ k) →
      latest key d.log k = latest key d.acknowledged k

/-- Every step keeps a delivery sound. -/
theorem Sound.step (h : Sound d) (hs : Step d d') : Sound d' := by
  cases hs with
  | enqueue rows =>
    refine ⟨fun r hr => ?_, h.written, fun key k hk => h.settled key k fun r hr => hk r ?_⟩
    · rcases h.given r hr with hr | hr | hr
      · exact .inl hr
      · exact .inr (.inl hr)
      · exact .inr (.inr (List.mem_append_left _ hr))
    · exact hr.imp_left (List.mem_append_left _)
  | write rows hq =>
    refine ⟨fun r hr => ?_, h.written.trans (List.sublist_append_left _ _), fun key k hk => ?_⟩
    · rcases List.mem_append.mp hr with hr | hr
      · exact h.given r hr
      · exact .inr (.inr (hq r hr))
    · rw [latest_append_of_ne fun r hr => hk r (.inl (hq r hr))]
      exact h.settled key k hk
  | acknowledge rows rest hq =>
    have hmem : ∀ r, r ∈ d.queued → r ∈ rows ∨ r ∈ rest := by
      intro r hr
      rwa [hq, List.mem_append] at hr
    refine ⟨fun r hr => ?_, h.written.append (List.Sublist.refl rows), fun key k hk => ?_⟩
    · rcases List.mem_append.mp hr with hr | hr
      · rcases h.given r hr with hr | hr | hr
        · exact .inl (List.mem_append_left _ hr)
        · exact .inr (.inl hr)
        · exact (hmem r hr).elim (fun hr => .inl (List.mem_append_right _ hr))
            fun hr => .inr (.inr hr)
      · exact .inl (List.mem_append_right _ hr)
    · -- a key of the rows themselves shows their latest, whatever was written before them
      refine latest_append_congr fun hrows => h.settled key k fun r hr => ?_
      rcases hr with hr | hr
      · exact (hmem r hr).elim (hrows r) fun hr => hk r (.inl hr)
      · exact hk r (.inr hr)
  | bury r rest hq =>
    have hmem : ∀ s, s ∈ d.queued → s = r ∨ s ∈ rest := by
      intro s hs
      rwa [hq, List.mem_cons] at hs
    have hgone : ∀ s, s = r → s ∈ d.buried ++ [r] := by
      rintro s rfl
      exact List.mem_append_right _ (List.mem_singleton_self s)
    refine ⟨fun s hs => ?_, h.written, fun key k hk => h.settled key k fun s hs => ?_⟩
    · rcases h.given s hs with hs | hs | hs
      · exact .inl hs
      · exact .inr (.inl (List.mem_append_left _ hs))
      · exact .inr ((hmem s hs).imp_left (hgone s))
    · rcases hs with hs | hs
      · exact (hmem s hs).elim (fun hs => hk s (.inr (hgone s hs))) fun hs => hk s (.inl hs)
      · exact hk s (.inr (List.mem_append_left _ hs))

/-- **Redelivery settles**: from a queue in front of an empty table, whatever is written again. -/
theorem Sound.of_reaches (h : Sound d) (hr : Reaches d d') : Sound d' := by
  induction hr with
  | refl => exact h
  | tail _ hs ih => exact ih.step hs

/-- Nothing is delivered yet. -/
theorem Sound.empty (queued : List ρ) :
    Sound { queued, acknowledged := [], buried := [], log := [] } where
  given _ hr := absurd hr List.not_mem_nil
  written := .slnil
  settled _ _ _ := rfl

end Redelivery

end QuestDbWriter.Lib
