import Mathlib

/-!
# Executable transition systems

A system is an executable partial step `σ → α → Option σ`: `none` where the action is not
enabled. `Steps` is its reflexive transitive closure along steps that satisfy a guard, so that
one relation serves "every run" (the guard `fun _ _ => True`), "every run without a crash" and
"every run whose steps all meet a condition". `exec` runs a list of actions, for closed runs.
`Traced` is a run with what its steps show, and `Traced.accepted` the rule for monitors of it.
Some actions of a system are its own turns: where every turn lowers a rank and no other action
raises it, a run takes no more turns than the rank of its first state (`Traced.turns_le`), however
the two are interleaved.
-/

namespace QuestDbWriter.Lib

universe u v

section
variable {σ : Type u} {α : Type v} {step : σ → α → Option σ} {G H : σ → α → Prop}

/-- The states reached from `s` by steps that each meet the guard `G`, taken on the state
before the step. -/
inductive Steps (step : σ → α → Option σ) (G : σ → α → Prop) (s : σ) : σ → Prop where
  /-- No step taken. -/
  | refl : Steps step G s s
  /-- One more step. -/
  | tail {t u : σ} (a : α) : Steps step G s t → G t a → step t a = some u → Steps step G s u

/-- A property that the first state has and every guarded step keeps holds in every state
reached. -/
theorem Steps.invariant {I : σ → Prop} {s t : σ} (h : Steps step G s t) (h₀ : I s)
    (hstep : ∀ u a v, I u → G u a → step u a = some v → I v) : I t := by
  induction h with
  | refl => exact h₀
  | tail a _ hg hs ih => exact hstep _ a _ ih hg hs

/-- Two runs in a row. -/
theorem Steps.trans {s t u : σ} (h : Steps step G s t) (h' : Steps step G t u) :
    Steps step G s u := by
  induction h' with
  | refl => exact h
  | tail a _ hg hs ih => exact .tail a ih hg hs

/-- Run a list of actions; `none` where one of them is not enabled. -/
def exec (step : σ → α → Option σ) : List α → σ → Option σ
  | [], s => some s
  | a :: as, s => (step s a).bind (exec step as)

/-- Run a list of actions, checking an executable guard before each of them. -/
def execIn (step : σ → α → Option σ) (g : σ → α → Bool) : List α → σ → Option σ
  | [], s => some s
  | a :: as, s => if g s a then (step s a).bind (execIn step g as) else none

/-- A guarded closed run is a closed run. -/
theorem exec_of_execIn {g : σ → α → Bool} : ∀ {as : List α} {s t : σ},
    execIn step g as s = some t → exec step as s = some t
  | [], _, _, h => h
  | a :: as, s, t, h => by
      rw [execIn] at h
      split at h
      · obtain ⟨u, hu, ht⟩ := Option.bind_eq_some_iff.mp h
        exact Option.bind_eq_some_iff.mpr ⟨u, hu, exec_of_execIn ht⟩
      · cases h

/-- A guarded closed run is a run under the guard. -/
theorem Steps.of_execIn {g : σ → α → Bool} (hG : ∀ u a, g u a = true → G u a) :
    ∀ {as : List α} {s t : σ}, execIn step g as s = some t → Steps step G s t
  | [], s, t, h => by
      cases h
      exact .refl
  | a :: as, s, t, h => by
      rw [execIn] at h
      split at h
      · next hg =>
        obtain ⟨u, hu, ht⟩ := Option.bind_eq_some_iff.mp h
        exact (Steps.tail a .refl (hG _ _ hg) hu).trans (of_execIn hG ht)
      · cases h

/-- A closed run is an unguarded run. -/
theorem Steps.of_exec : ∀ {as : List α} {s t : σ}, exec step as s = some t →
    Steps step (fun _ _ => True) s t
  | [], s, t, h => by
      cases h
      exact .refl
  | a :: as, s, t, h => by
      obtain ⟨u, hu, ht⟩ := Option.bind_eq_some_iff.mp h
      exact (Steps.tail a .refl trivial hu).trans (of_exec ht)

end

/-! ## Traces -/

section
variable {σ α ε μ : Type*} {step : σ → α → Option σ} {G : σ → α → Prop} {label : σ → α → σ → List ε}

/-- The states reached from `s` by steps that each meet the guard, with what the steps show. -/
inductive Traced (step : σ → α → Option σ) (G : σ → α → Prop) (label : σ → α → σ → List ε) (s : σ) :
    σ → List ε → Prop where
  /-- No step taken. -/
  | refl : Traced step G label s s []
  /-- One more step. -/
  | tail {t u : σ} {events : List ε} (a : α) : Traced step G label s t events → G t a →
      step t a = some u → Traced step G label s u (events ++ label t a u)

/-- Every run has a trace. -/
theorem Steps.traced {s t : σ} (h : Steps step G s t) (label : σ → α → σ → List ε) :
    ∃ events, Traced step G label s t events := by
  induction h with
  | refl => exact ⟨[], .refl⟩
  | tail a _ hg hs ih =>
    obtain ⟨events, hevents⟩ := ih
    exact ⟨_, .tail a hevents hg hs⟩

theorem exec_append (as bs : List α) (s : σ) :
    exec step (as ++ bs) s = (exec step as s).bind (exec step bs) := by
  induction as generalizing s with
  | nil => rfl
  | cons a as ih =>
    rw [List.cons_append, exec, exec]
    cases step s a with
    | none => rfl
    | some t => exact ih t

/-- **A monitor that follows every step accepts every trace.** -/
theorem Traced.accepted {monitor : μ → ε → Option μ} {R : σ → μ → Prop} {s t : σ} {m : μ}
    {events : List ε} (h : Traced step G label s t events) (h₀ : R s m)
    (hstep : ∀ u a v n, R u n → G u a → step u a = some v →
      ∃ n', exec monitor (label u a v) n = some n' ∧ R v n') :
    ∃ n, exec monitor events m = some n ∧ R t n := by
  induction h with
  | refl => exact ⟨m, rfl, h₀⟩
  | tail a _ hg hs ih =>
    obtain ⟨n, hn, hR⟩ := ih
    obtain ⟨n', hn', hR'⟩ := hstep _ a _ n hR hg hs
    exact ⟨n', by rw [exec_append, hn]; exact hn', hR'⟩

end

/-! ## Ranked runs -/

section
variable {σ α : Type*} {step : σ → α → Option σ} {G : σ → α → Prop} {isTurn : α → Bool}

/-- The turns that are taken. -/
def turnOf (isTurn : α → Bool) (_ : σ) (a : α) (_ : σ) : List α := if isTurn a then [a] else []

/-- **A ranked run takes a bounded number of turns.** -/
theorem Traced.turns_le (I : σ → Prop) (rank : σ → Nat) {s t : σ} {taken : List α}
    (h : Traced step G (turnOf isTurn) s t taken) (h₀ : I s)
    (hkeep : ∀ u a v, I u → G u a → step u a = some v → I v)
    (hturn : ∀ u a v, I u → G u a → step u a = some v → isTurn a = true → rank v < rank u)
    (hother : ∀ u a v, I u → G u a → step u a = some v → isTurn a = false → rank v ≤ rank u) :
    I t ∧ taken.length + rank t ≤ rank s := by
  induction h with
  | refl => exact ⟨h₀, by simp⟩
  | @tail u v events a _ hg hs ih =>
    obtain ⟨hI, hle⟩ := ih
    refine ⟨hkeep u a v hI hg hs, ?_⟩
    rw [List.length_append, turnOf]
    cases ht : isTurn a with
    | true =>
      have := hturn u a v hI hg hs ht
      simp
      omega
    | false =>
      have := hother u a v hI hg hs ht
      simp
      omega

end

end QuestDbWriter.Lib
