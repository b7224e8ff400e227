import QuestDbWriter.Worker.Gate
import QuestDbWriter.Worker.SingleDelivery

/-!
# The schedule of the delivery loop

An attempt of the delivery loop may schedule a delay, or block the loop (`DeliveryEnd`). The loop is
woken early by every turn of the persist loop and by new rows, and then reads the counters and the
triggers again; `retry_at` and `blocked` are what holds it back. The invariant is `Rests`: until a
time, or for ever, no request is in flight and one of the two variables says so.
-/

namespace QuestDbWriter

open Lib

namespace World

/-! ## Attempts -/

/-- How `_deliver_once` of the delivery loop ends: its outcome or its exception, the backoff, and
the state of the system. -/
abbrev DeliveryEnd := Except Exc DeliveryOutcome × Backoff × World

/-- The delay that an attempt schedules: that of a failure to be retried (a retryable error, or a
dead-letter move that failed), or the next one of the backoff for a storage error of the spool. -/
def scheduledBy : DeliveryEnd → Option ℚ
  | (.ok (.retry delay), _, _) => some delay
  | (.error e, backoff, w) =>
    if e.isSpoolStorageError then some (backoff.nextDelay w.config.settings w.env.random).1
    else none
  | _ => none

/-- How the attempt of a turn behind the schema gate ends, where one is due and does not get as far
as `send_batch`. -/
def attemptEnds (w : World) : Option DeliveryEnd :=
  match w.readStats with
  | (.error _, _) => none
  | (.ok stats, w) =>
    let since := pendingSinceAt w.env.monotonic stats w.locals.pendingSince
    let w := { w with locals := { w.locals with pendingSince := since } }
    if w.deliveryDue stats then
      match w.deliverStart w.locals.isolateNext w.locals.backoff with
      | (.ok (.sending _), _, _) => none
      | (.ok (.done outcome), backoff, w) => some (.ok outcome, backoff, w)
      | (.error e, backoff, w) => some (.error e, backoff, w)
    else none

/-- The state behind a `schema.ensure` that succeeded. -/
def gatePassed (w : World) : World :=
  let w := w.observe (.ensured .ok)
  let w := w.withBackoff (.initial w.config.settings)
  { w with locals := { w.locals with schemaReady := true } }.setDeliveryState .running none none

/-- How the attempt of the delivery loop ends that ends in a step. -/
def attemptEnd (w : World) : Action → Option DeliveryEnd
  | .deliverRun =>
    if w.stopAsync then none else if w.locals.schemaReady then w.attemptEnds else none
  | .deliverEnsured .ok => w.gatePassed.attemptEnds
  | .deliverSent result =>
    match w.deliver with
    | .sending built => some (w.deliverFinish built w.locals.backoff result)
    | _ => none
  | _ => none

/-- A `send_batch` of the delivery loop ends with an authentication error, or with a permanent error
that is no status 400. -/
def refused : Action → Prop
  | .deliverSent (.error e) =>
    e.kind = .authentication ∨ e.kind = .permanent ∧ e.statusCode ≠ some 400
  | _ => False

/-- The delivery loop calls `send_batch`. -/
def StartsSend (w w' : World) : Prop :=
  (∀ built, w.deliver ≠ .sending built) ∧ ∃ built, w'.deliver = .sending built

/-- The process goes on, and its clock does not go back. -/
def Forward (w : World) (a : Action) : Prop :=
  ¬ a.isRestart ∧ ∀ env faults, a = .environment env faults → w.env.monotonic ≤ env.monotonic

/-! ## Rest -/

/-- The variables of the loop hold it back until a time, `⊤` for ever. -/
def HeldBack (t : WithTop ℚ) (l : DeliverLocals) : Prop :=
  l.blocked = true ∨ ∃ r : ℚ, l.retryAt = some r ∧ t ≤ r

/-- The loop is at rest until a time: it has ended, the time is past, or it has no request in flight
and is held back. -/
def Rests (t : WithTop ℚ) (w : World) : Prop :=
  w.deliver.IsOver ∨ t ≤ w.env.monotonic ∨
    (∀ built, w.deliver ≠ .sending built) ∧ HeldBack t w.locals

section
variable {t : WithTop ℚ} {w w' : World} {a : Action}

/-- A task that has ended rests. -/
theorem Rests.of_over (h : w.deliver.IsOver) : Rests t w := .inl h

/-- A turn that leaves the two variables as they are, and no request in flight. -/
theorem Rests.of_held (h : HeldBack t w.locals) (hd : ∀ built, w'.deliver ≠ .sending built)
    (hl : w'.locals.blocked = w.locals.blocked ∧ w'.locals.retryAt = w.locals.retryAt) :
    Rests t w' := by
  refine .inr (.inr ⟨hd, ?_⟩)
  unfold HeldBack
  rw [hl.1, hl.2]
  exact h

/-- A loop that is held back finds no delivery due. -/
theorem HeldBack.not_due (h : HeldBack t w.locals) (ht : ¬ t ≤ w.env.monotonic)
    (stats : SpoolStats) : w.deliveryDue stats = false := by
  unfold deliveryDue
  rcases h with hb | ⟨r, hr, hle⟩
  · simp [hb]
  · have hlt : w.env.monotonic < r := by
      by_contra hge
      exact ht (hle.trans (WithTop.coe_le_coe.mpr (not_lt.mp hge)))
    simp [hr, hlt]

/-- A turn behind the schema gate starts nothing while the loop is held back. -/
theorem deliverBody_rests (h : HeldBack t w.locals) (ht : ¬ t ≤ w.env.monotonic) :
    Rests t w.deliverBody := by
  unfold deliverBody
  split
  · next e v hv => exact .of_over trivial
  · next stats v hv =>
    obtain ⟨spool, spoolStats, he⟩ := readStats_eq w
    cases (congrArg Prod.snd hv).symm.trans he
    dsimp only
    split
    · next hdue =>
      rw [HeldBack.not_due (t := t) ?_ ?_] at hdue
      · cases hdue
      · exact h
      · exact ht
    · exact .of_held h nofun ⟨rfl, rfl⟩

/-- A loop that is held back waits at its top. -/
theorem deliverTop_rests (h : HeldBack t w.locals) (ht : ¬ t ≤ w.env.monotonic) :
    Rests t w.deliverTop := by
  unfold deliverTop
  split
  · exact .of_over trivial
  · split
    · exact deliverBody_rests h ht
    · exact .of_held h nofun ⟨rfl, rfl⟩

/-- It waits behind the gate's answer as well. -/
theorem deliverEnsured_rests (h : HeldBack t w.locals) (ht : ¬ t ≤ w.env.monotonic)
    (result : EnsureResult) : Rests t (w.deliverEnsured result) := by
  have hblocked : ∀ error, Rests t ((w.observe (.ensured result)).gateBlocked error) := fun error =>
    .of_held h nofun ⟨rfl, rfl⟩
  unfold deliverEnsured
  dsimp only
  split
  · exact deliverBody_rests h ht
  · split
    · exact hblocked _
    · exact hblocked _
    · exact .of_held h nofun ⟨rfl, rfl⟩
    · exact .of_over trivial
  · split
    · exact hblocked _
    · exact .of_over trivial
  · exact .of_over trivial

/-- A loop that has ended does not act. -/
theorem not_over_of_delivers (h : Taken w a w') (ha : a.IsDeliver) : ¬ w.deliver.IsOver := by
  cases h with
  | deliverRun _ _ hd => rw [hd]; exact id
  | deliverEnsured _ _ hd => rw [hd]; exact id
  | deliverSent _ _ _ hd => rw [hd]; exact id
  | deliverWake _ _ hd => rcases hd with hd | hd <;> (rw [hd]; exact id)
  | _ => exact ha.elim

/-- **A step leaves the loop at rest.** By cases on who acts: the loop itself is held back; every
other action leaves its variables as they are, or ends it. -/
theorem Rests.stepped (hp : Placed w) (h : Rests t w) (hg : Forward w a) (hs : step w a = some w') :
    Rests t w' := by
  obtain ⟨hr, hforward⟩ := hg
  have htaken := Taken.of_step hs
  have hclock : w.env.monotonic ≤ w'.env.monotonic := by
    rcases (htaken.ambient hp hr).1 with he | ⟨faults, he⟩
    · rw [he]
    · exact hforward _ _ he
  have hpast : t ≤ w.env.monotonic → Rests t w' := fun hle =>
    .inr (.inl (hle.trans (WithTop.coe_le_coe.mpr hclock)))
  by_cases ha : a.IsDeliver
  · rcases h with hover | hle | ⟨hidle, hheld⟩
    · exact absurd hover (not_over_of_delivers htaken ha)
    · exact hpast hle
    · by_cases ht : t ≤ w.env.monotonic
      · exact hpast ht
      cases htaken with
      | deliverRun => exact deliverTop_rests hheld ht
      | deliverEnsured result => exact deliverEnsured_rests hheld ht result
      | deliverSent built result hb hd => exact absurd hd (hidle built)
      | deliverWake => exact .of_held hheld nofun ⟨rfl, rfl⟩
      | _ => exact ha.elim
  · have hu := htaken.undelivered ha hr
    rcases hu.deliver with hd | ⟨hover, -⟩
    · rcases h with hover | hle | ⟨hidle, hheld⟩
      · exact .of_over (hd ▸ hover)
      · exact hpast hle
      · exact .of_held hheld (hd ▸ hidle) (hu.locals ▸ ⟨rfl, rfl⟩)
    · exact .of_over hover

/-! ## What an attempt schedules -/

/-- What `_delivery_loop` does with the end of an attempt. -/
def conclude : DeliveryEnd → World
  | (.ok outcome, backoff, w) => (w.withBackoff backoff).afterDelivery outcome
  | (.error e, backoff, w) => (w.withBackoff backoff).deliveryFailed e

/-- An outcome with a delay is waited out. -/
theorem conclude_scheduled {r : DeliveryEnd} {delay : ℚ} (hd : scheduledBy r = some delay) :
    Rests ((r.2.2.env.monotonic + delay : ℚ) : WithTop ℚ) (conclude r) := by
  obtain ⟨result, backoff, v⟩ := r
  cases result with
  | ok outcome =>
    cases outcome with
    | retry d =>
      cases hd
      unfold conclude afterDelivery
      dsimp only
      split
      · exact .of_over trivial
      · next stats u hu =>
        obtain ⟨spool, spoolStats, he⟩ := readStats_eq (v.withBackoff backoff)
        cases (congrArg Prod.snd hu).symm.trans he
        exact .inr (.inr ⟨nofun, .inr ⟨_, rfl, le_rfl⟩⟩)
    | _ => cases hd
  | error e =>
    obtain ⟨hstorage, hdelay⟩ := Option.ite_none_right_eq_some.mp hd
    cases hdelay
    unfold conclude deliveryFailed
    dsimp only
    rw [if_pos hstorage]
    exact .inr (.inr ⟨nofun, .inr ⟨_, rfl, le_rfl⟩⟩)

/-- A refused credential is waited out for ever. -/
theorem conclude_blocked (backoff : Backoff) (v : World) :
    Rests ⊤ (conclude (.ok .blocked, backoff, v)) := by
  unfold conclude afterDelivery
  dsimp only
  split
  · exact .of_over trivial
  · refine .inr (.inr ⟨nofun, .inl ?_⟩)
    simp

/-- An attempt that ends in a turn ends at the time of the turn. -/
theorem attemptEnds_eq {r : DeliveryEnd} (h : w.attemptEnds = some r) :
    w.deliverBody = conclude r ∧ r.2.2.env = w.env := by
  obtain ⟨read, hv⟩ : ∃ read, w.readStats = read := ⟨_, rfl⟩
  obtain ⟨spool, spoolStats, he⟩ := readStats_eq w
  unfold attemptEnds at h
  unfold deliverBody
  rw [hv] at h he ⊢
  obtain ⟨read, v⟩ := read
  cases read with
  | error e => cases h
  | ok stats =>
    cases he
    dsimp only at h ⊢
    split at h
    · next hdue =>
      rw [if_pos hdue]
      unfold deliverAttempt
      have hacts := Acts.deliverStart { w with
        spool, shared := { w.shared with spoolStats }, locals := { w.locals with
          pendingSince := pendingSinceAt w.env.monotonic stats w.locals.pendingSince } }
        w.locals.isolateNext w.locals.backoff
      dsimp only at h hacts ⊢
      generalize deliverStart _ _ _ = start at h hacts ⊢
      obtain ⟨started, backoff, u⟩ := start
      cases started with
      | ok started =>
        cases started with
        | sending built => cases h
        | done outcome =>
          cases h
          obtain ⟨_, _, _, rfl⟩ := hacts.world
          exact ⟨rfl, rfl⟩
      | error e =>
        cases h
        obtain ⟨_, _, _, rfl⟩ := hacts.world
        exact ⟨rfl, rfl⟩
    · cases h

/-- A step in which an attempt ends goes on as the loop goes on with its end. -/
theorem attemptEnd_eq {r : DeliveryEnd} (h : w.attemptEnd a = some r) (hs : step w a = some w') :
    w' = conclude r ∧ r.2.2.env = w.env := by
  have htaken := Taken.of_step hs
  unfold attemptEnd at h
  split at h
  · split at h
    · cases h
    · next hstop =>
      split at h
      · next hready =>
        cases htaken
        unfold deliverTop
        rw [if_neg hstop, if_pos hready]
        exact attemptEnds_eq h
      · cases h
  · cases htaken
    exact attemptEnds_eq h
  · next result =>
    split at h
    · next built hd =>
      cases h
      cases htaken with
      | deliverSent sent _ _ hd' =>
        cases hd.symm.trans hd'
        have hacts := Acts.deliverFinish w built w.locals.backoff result
        refine ⟨?_, ?_⟩
        · unfold deliverSent conclude
          split <;> next he => rw [he]
        · obtain ⟨_, _, _, he⟩ := hacts.world
          rw [he]
    · cases h
  · cases h

/-- Behind a refusal delivery rests for ever. -/
theorem refused_rests (hr : refused a) (hs : step w a = some w') : Rests ⊤ w' := by
  cases Taken.of_step hs with
  | deliverSent built result =>
    cases result with
    | error e =>
      have hblocked : ∃ backoff v, w.deliverFinish built w.locals.backoff (.error e) =
          (.ok .blocked, backoff, v) := by
        rcases hr with hkind | ⟨hkind, hstatus⟩
        · simp only [deliverFinish, hkind]
          exact ⟨_, _, rfl⟩
        · simp only [deliverFinish, hkind, if_neg hstatus]
          exact ⟨_, _, rfl⟩
      obtain ⟨backoff, v, he⟩ := hblocked
      have hconclude : w.deliverSent built (.error e) = conclude (.ok .blocked, backoff, v) := by
        unfold deliverSent
        rw [he]
        rfl
      rw [hconclude]
      exact conclude_blocked backoff v
    | _ => exact hr.elim
  | _ => exact hr.elim

/-- A loop at rest calls `send_batch` only when the time is past. -/
theorem Rests.send (hp : Placed w) (h : Rests t w) (hs : step w a = some w')
    (hsend : StartsSend w w') : t ≤ w.env.monotonic := by
  have htaken := Taken.of_step hs
  obtain ⟨hidle, built, hbuilt⟩ := hsend
  have hr : ¬ a.isRestart := by
    intro hr
    cases htaken with
    | restart => cases hbuilt
    | _ => cases hr
  have ha : a.IsDeliver := by
    by_contra ha
    rcases (htaken.undelivered ha hr).deliver with hd | ⟨hover, -⟩
    · exact hidle built (hd.symm.trans hbuilt)
    · rw [hbuilt] at hover
      exact hover.elim
  have hg : Forward w a := by
    refine ⟨hr, ?_⟩
    rintro env faults rfl
    exact ha.elim
  have henv : w'.env = w.env := by
    rcases (htaken.ambient hp hr).1 with he | ⟨faults, he⟩
    · exact he
    · rw [he] at ha
      exact ha.elim
  rcases h.stepped hp hg hs with hover | hle | ⟨hidle', -⟩
  · rw [hbuilt] at hover
    exact hover.elim
  · exact henv ▸ hle
  · exact absurd hbuilt (hidle' built)

/-- The run lemma: from rest until a time, every later `send_batch` comes when the time is past. -/
theorem Rests.until (hp : Placed w) (h : Rests t w) {v v' : World} {b : Action}
    (hlater : Steps step Forward w v) (hs : step v b = some v') (hsend : StartsSend v v') :
    t ≤ v.env.monotonic := by
  obtain ⟨hp', h'⟩ := hlater.invariant (I := fun u => Placed u ∧ Rests t u) ⟨hp, h⟩
    fun u c u' ⟨hp, h⟩ hg hs => ⟨hp.step hs, h.stepped hp hg hs⟩
  exact h'.send hp' hs hsend

end

/-- **Delivery honours its schedule and its blocks.** A delivery attempt ends in the step from `w`
to `w'`, and the delivery loop calls `send_batch` in a later step of the process, whatever happens
between: the delay that the attempt scheduled is over, and the attempt was not refused. -/
theorem delivery_schedule (config : Config) (env : Env) (db : Database) (history : List Obs)
    (w w' v v' : World) (a b : Action)
    (hrun : Steps step (fun _ _ => True) (.boot config env db history) w)
    (hend : step w a = some w') (hlater : Steps step Forward w' v) (hsend : step v b = some v')
    (hstart : StartsSend v v') :
    (∀ r delay, w.attemptEnd a = some r → scheduledBy r = some delay →
      w.env.monotonic + delay ≤ v.env.monotonic) ∧ ¬ refused a := by
  have hp : Placed w := hrun.invariant (.boot ..) fun u a v hp _ hs => hp.step hs
  refine ⟨fun r delay hr hdelay => ?_, fun hrefused => ?_⟩
  · obtain ⟨rfl, henv⟩ := attemptEnd_eq hr hend
    have hrests := conclude_scheduled hdelay
    rw [henv] at hrests
    exact WithTop.coe_le_coe.mp (hrests.until (hp.step hend) hlater hsend hstart)
  · have hrests := refused_rests hrefused hend
    have htop := hrests.until (hp.step hend) hlater hsend hstart
    exact WithTop.coe_ne_top (top_le_iff.mp htop)

/-- The check of `Forward`. -/
def isForward (w : World) : Action → Bool
  | .environment env _ => decide (w.env.monotonic ≤ env.monotonic)
  | .restart _ _ => false
  | _ => true

/-- The check of an action is its condition. -/
theorem forward_of (w : World) (a : Action) (h : isForward w a = true) : Forward w a := by
  refine ⟨?_, ?_⟩
  · intro hr
    cases a with
    | restart => cases h
    | _ => cases hr
  · rintro env faults rfl
    exact of_decide_eq_true h

/-- The service persists one event, its first delivery fails and schedules a delay of one second,
and its second one starts two seconds later. -/
theorem persistedOne_schedule : ∃ w w' v v' : World,
    exec step (persistedOne ++ [.deliverRun]) (.boot .provisional .quiet .fresh []) = some w ∧
      step w (.deliverSent (.error unavailable)) = some w' ∧
      exec step [.environment { Env.quiet with monotonic := 2 } []] w' = some v ∧
      step v .deliverRun = some v' ∧ StartsSend v v' ∧
      ∃ r, w.attemptEnd (.deliverSent (.error unavailable)) = some r ∧ scheduledBy r = some 1 ∧
        w.env.monotonic + 1 ≤ v.env.monotonic := by
  have hrun : ((exec step (persistedOne ++ [.deliverRun])
      (.boot .provisional .quiet .fresh [])).any fun w =>
        (step w (.deliverSent (.error unavailable))).any fun w' =>
          (execIn step isForward [.environment { Env.quiet with monotonic := 2 } []] w').any fun v =>
            (step v .deliverRun).any fun v' =>
              decide ((w.attemptEnd (.deliverSent (.error unavailable))).any
                (scheduledBy · = some 1)) &&
              (decide (v.deliver = .top) && v'.deliver.isSending)) = true := by
    decide +kernel
  obtain ⟨w, hw, hrun⟩ := (Option.any_eq_true _ _).mp hrun
  obtain ⟨w', hw', hrun⟩ := (Option.any_eq_true _ _).mp hrun
  obtain ⟨v, hv, hrun⟩ := (Option.any_eq_true _ _).mp hrun
  obtain ⟨v', hv', hrun⟩ := (Option.any_eq_true _ _).mp hrun
  obtain ⟨hscheduled, hsend⟩ := (Bool.and_eq_true _ _).mp hrun
  obtain ⟨r, hr, hdelay⟩ := (Option.any_eq_true _ _).mp (of_decide_eq_true hscheduled)
  have hdelay : scheduledBy r = some 1 := of_decide_eq_true hdelay
  have hstart : StartsSend v v' := by
    obtain ⟨htop, hsending⟩ := (Bool.and_eq_true _ _).mp hsend
    exact ⟨by simp [of_decide_eq_true htop], DeliverPc.isSending_iff.mp hsending⟩
  refine ⟨w, w', v, v', hw, hw', exec_of_execIn hv, hv', hstart, r, hr, hdelay, ?_⟩
  exact (delivery_schedule _ _ _ _ w w' v v' _ _ (.of_exec hw) hw' (.of_execIn forward_of hv) hv'
    hstart).1 r 1 hr hdelay

end World

end QuestDbWriter
