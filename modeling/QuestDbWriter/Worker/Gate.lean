import QuestDbWriter.Worker.Sides
import QuestDbWriter.Lib.Transition

/-!
# The wait of the schema gate

After a retryable failure of `schema.ensure` the delivery loop waits for its delay, or for the event
that every turn of the persist loop sets. In a run in which no such turn comes before that
(`Undisturbed`), the next call comes when the delay is over (`gate_waits`); the turn that a
`submit()` brings about cuts the wait short (`gate_hurried`).
-/

namespace QuestDbWriter

open Lib

namespace World

/-- No turn of the persist loop comes before the end of the wait of the gate, and the clock does not
go back. -/
def Undisturbed (w : World) (a : Action) : Prop :=
  (a = .persistRound → ∀ deadline, w.deliver = .gateWait deadline →
    deadline ≤ w.env.monotonic) ∧
    ∀ env faults, a = .environment env faults → w.env.monotonic ≤ env.monotonic

/-- The gate waits until a time, unless that is past, the loop is to stop, or it has ended. -/
def WaitsUntil (t : ℚ) (w : World) : Prop :=
  w.stopAsync = true ∨ t ≤ w.env.monotonic ∨
    (w.deliver = .gateWait t ∧ w.wakeDeliver = false ∨ w.deliver.IsOver)

/-- An undisturbed step keeps the wait. -/
theorem WaitsUntil.step {t : ℚ} {w w' : World} {a : Action} (hp : Placed w) (h : WaitsUntil t w)
    (hg : Undisturbed w a) (hr : ¬ a.isRestart) (hs : step w a = some w') : WaitsUntil t w' := by
  have ht := Taken.of_step hs
  obtain ⟨henv, hstop⟩ := ht.ambient hp hr
  have hclock : w.env.monotonic ≤ w'.env.monotonic := by
    rcases henv with he | ⟨faults, he⟩
    · rw [he]
    · exact hg.2 _ _ he
  rcases h with h | h | h
  · exact .inl (hstop h)
  · exact .inr (.inl (h.trans hclock))
  by_cases ha : a.IsDeliver
  · have hover : ∀ {d : DeliverPc}, w.deliver = d → ¬ d.IsOver → w.deliver = .gateWait t ∧
        w.wakeDeliver = false := fun hd hn => h.resolve_right fun ho => hn (hd ▸ ho)
    cases ht with
    | deliverRun _ _ hd => cases hd.symm.trans (hover hd id).1
    | deliverEnsured _ _ hd => cases hd.symm.trans (hover hd id).1
    | deliverSent _ _ _ hd => cases hd.symm.trans (hover hd id).1
    | deliverWake deadline _ hd hw =>
      rcases hd with hd | hd
      · obtain ⟨hwait, hwake⟩ := hover hd id
        cases hd.symm.trans hwait
        rcases hw with hw | hw | hw
        · cases hwake.symm.trans hw
        · exact .inl hw
        · exact .inr (.inl hw)
      · cases hd.symm.trans (hover hd id).1
    | _ => exact ha.elim
  · have hu := ht.undelivered ha hr
    rcases hu.deliver with hd | ⟨hd, -⟩
    · rcases h with ⟨hwait, hwake⟩ | ho
      · rcases hu.wake with hw | hround
        · exact .inr (.inr (.inl ⟨hd.trans hwait, hw.trans hwake⟩))
        · exact .inr (.inl ((hg.1 hround _ hwait).trans hclock))
      · exact .inr (.inr (.inr (hd ▸ ho)))
    · exact .inr (.inr (.inr hd))

/-- **The gate waits for the delay of the backoff**: in every undisturbed run of the process from a
retryable failure of `schema.ensure` on, the gate calls it again only when the delay is over. -/
theorem gate_waits (config : Config) (env : Env) (db : Database) (history : List Obs)
    (w w₁ w₂ w₃ : World) (e : IlpError) (he : e.kind = .retryable)
    (hrun : Steps step (fun _ _ => True) (.boot config env db history) w)
    (hfail : step w (.deliverEnsured (.error e)) = some w₁)
    (hlater : Steps step (fun v a => Undisturbed v a ∧ ¬ a.isRestart) w₁ w₂)
    (hcall : step w₂ .deliverRun = some w₃) (hensuring : w₃.deliver = .ensuring) :
    w.env.monotonic + (w.locals.backoff.nextDelay w.config.settings w.env.random).1 ≤
      w₂.env.monotonic := by
  have hp : Placed w := hrun.invariant (.boot ..) fun u a v hp _ hs => hp.step hs
  have hwait : Placed w₁ ∧ WaitsUntil (w.env.monotonic +
      (w.locals.backoff.nextDelay w.config.settings w.env.random).1) w₁ := by
    refine ⟨hp.step hfail, .inr (.inr (.inl ?_))⟩
    cases Taken.of_step hfail
    simp only [deliverEnsured, he]
    exact ⟨rfl, rfl⟩
  obtain ⟨-, hend⟩ := hlater.invariant (I := fun w' => Placed w' ∧ WaitsUntil _ w') hwait
    fun u a v ⟨hp, hu⟩ ⟨hg, hr⟩ hs => ⟨hp.step hs, hu.step hp hg hr hs⟩
  cases Taken.of_step hcall with
  | deliverRun _ _ hd =>
    rcases hend with hstop | hpast | ⟨hgate, -⟩ | hover
    · unfold deliverTop at hensuring
      rw [if_pos hstop] at hensuring
      cases hensuring
    · exact hpast
    · cases hd.symm.trans hgate
    · rw [hd] at hover
      exact hover.elim

/-- A refusal that may pass. -/
def unavailable : IlpError :=
  { kind := .retryable, message := py "HTTP 503", statusCode := some 503,
    deliveryUncertain := false }

/-- The development profile with a schema manager. -/
def gatedProfile : Config := { Config.provisional with hasSchema := true }

/-- The service starts, its persist loop takes its first turn, and its gate calls
`schema.ensure`. -/
def gatedStart : List Action :=
  [.startCall, .threadOpen none, .threadStartup, .threadAnnounce, .mainPublish, .mainTest,
    .persistRun, .persistDrain, .persistRound, .persistCheck, .deliverRun]

/-- The service starts, its gate fails and waits, and calls again two seconds later. -/
theorem gatedStart_waits : ∃ w w₁ w₂ w₃ : World,
    exec step gatedStart (.boot gatedProfile .quiet .fresh []) = some w ∧
      step w (.deliverEnsured (.error unavailable)) = some w₁ ∧
      exec step [.environment { Env.quiet with monotonic := 2 } [], .deliverWake] w₁ = some w₂ ∧
      step w₂ .deliverRun = some w₃ ∧ w₃.deliver = .ensuring ∧
      w.env.monotonic + (w.locals.backoff.nextDelay w.config.settings w.env.random).1 ≤
        w₂.env.monotonic := by
  let undisturbed : World → Action → Bool
    | _, .persistRound => false
    | w, .environment env _ => decide (w.env.monotonic ≤ env.monotonic)
    | _, .restart _ _ => false
    | _, _ => true
  have hundisturbed : ∀ w a, undisturbed w a = true → Undisturbed w a ∧ ¬ a.isRestart := by
    intro w a hw
    refine ⟨⟨?_, ?_⟩, ?_⟩
    · rintro rfl
      cases hw
    · rintro env faults rfl
      exact of_decide_eq_true hw
    · intro hr
      cases a with
      | restart => cases hw
      | _ => cases hr
  have hrun : ((exec step gatedStart (.boot gatedProfile .quiet .fresh [])).any fun w =>
      (step w (.deliverEnsured (.error unavailable))).any fun w₁ =>
        (execIn step undisturbed [.environment { Env.quiet with monotonic := 2 } [], .deliverWake]
          w₁).any fun w₂ => (step w₂ .deliverRun).any fun w₃ => decide (w₃.deliver = .ensuring)) =
        true := by
    decide +kernel
  obtain ⟨w, hw, hrun⟩ := (Option.any_eq_true _ _).mp hrun
  obtain ⟨w₁, hw₁, hrun⟩ := (Option.any_eq_true _ _).mp hrun
  obtain ⟨w₂, hw₂, hrun⟩ := (Option.any_eq_true _ _).mp hrun
  obtain ⟨w₃, hw₃, hensuring⟩ := (Option.any_eq_true _ _).mp hrun
  have hensuring : w₃.deliver = .ensuring := of_decide_eq_true hensuring
  refine ⟨w, w₁, w₂, w₃, hw, hw₁, exec_of_execIn hw₂, hw₃, hensuring, ?_⟩
  exact gate_waits _ _ _ _ w w₁ w₂ w₃ unavailable rfl (.of_exec hw) hw₁
    (.of_execIn hundisturbed hw₂) hw₃ hensuring

/-- Nine milliseconds later an event is submitted; the persist loop wakes, stores it, and sets the
event that the gate waits for. -/
def submitTurn : List Action :=
  [.environment { Env.quiet with monotonic := 9 / 1000 } [], .submit lightEvent, .submitSignal,
    .callback, .persistWake, .persistRun, .persistDrain, .persistDrain, .persistRound,
    .persistCheck, .deliverWake]

/-- **The gate does not always wait**: a `submit()` within the delay hurries it. -/
theorem gate_hurried : ¬ ∀ (config : Config) (env : Env) (db : Database) (history : List Obs)
    (w w₁ w₂ w₃ : World) (e : IlpError), e.kind = .retryable →
      Steps step (fun _ _ => True) (.boot config env db history) w →
      step w (.deliverEnsured (.error e)) = some w₁ →
      Steps step (fun v a => (∀ env faults, a = .environment env faults →
        v.env.monotonic ≤ env.monotonic) ∧ ¬ a.isRestart) w₁ w₂ →
      step w₂ .deliverRun = some w₃ → w₃.deliver = .ensuring →
      w.env.monotonic + (w.locals.backoff.nextDelay w.config.settings w.env.random).1 ≤
        w₂.env.monotonic := by
  intro h
  let quiet : World → Action → Bool
    | w, .environment env _ => decide (w.env.monotonic ≤ env.monotonic)
    | _, .restart _ _ => false
    | _, _ => true
  have hquiet : ∀ w a, quiet w a = true → (∀ env faults, a = .environment env faults →
      w.env.monotonic ≤ env.monotonic) ∧ ¬ a.isRestart := by
    intro w a hw
    refine ⟨?_, ?_⟩
    · rintro env faults rfl
      exact of_decide_eq_true hw
    · intro hr
      cases a with
      | restart => cases hw
      | _ => cases hr
  have hrun : ((exec step gatedStart (.boot gatedProfile .quiet .fresh [])).any fun w =>
      (step w (.deliverEnsured (.error unavailable))).any fun w₁ =>
        (execIn step quiet submitTurn w₁).any fun w₂ =>
          (step w₂ .deliverRun).any fun w₃ => decide (w₃.deliver = .ensuring ∧
            w₂.env.monotonic < w.env.monotonic +
              (w.locals.backoff.nextDelay w.config.settings w.env.random).1)) = true := by
    decide +kernel
  obtain ⟨w, hw, hrun⟩ := (Option.any_eq_true _ _).mp hrun
  obtain ⟨w₁, hw₁, hrun⟩ := (Option.any_eq_true _ _).mp hrun
  obtain ⟨w₂, hw₂, hrun⟩ := (Option.any_eq_true _ _).mp hrun
  obtain ⟨w₃, hw₃, hend⟩ := (Option.any_eq_true _ _).mp hrun
  obtain ⟨hensuring, hearly⟩ := of_decide_eq_true hend
  have hle := h _ _ _ _ w w₁ w₂ w₃ unavailable rfl (.of_exec hw) hw₁ (.of_execIn hquiet hw₂) hw₃
    hensuring
  exact absurd hle (not_le.mpr hearly)

end World

end QuestDbWriter
