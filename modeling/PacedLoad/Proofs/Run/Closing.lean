import PacedLoad.Proofs.Run.Account

/-!
# How a run stops its services

The driver stops the completion time service before it asks for the snapshot, and
the statistics service after it has got the snapshot.  It goes on only when a
worker is complete.  Until the run fails, the policy's refusals are all that is
reported, unless a worker fails and reports why.
-/

namespace PacedLoad

namespace Watermark

variable {σ : Type} [Bookkeeping σ] {now : Instant} {j : Journal}
  {s : PacedLoad.Service (Coordinator σ) Event Request Answer}

theorem journal_onEvent (c : Coordinator σ) (j : Journal) (e : Event) :
    (duty.onEvent c j e).1.2 = j := by
  unfold duty
  dsimp only
  split <;> rfl

/-- The policy is not asked by this worker. -/
theorem judged_deliver : (s.deliver duty now j).2.judged = j.judged :=
  s.deliver_keeps (P := fun _ k => k.judged = j.judged)
    (fun c k e same => by rw [journal_onEvent]; exact same) (fun _ _ _ => id) (fun _ _ _ => id) rfl

/-- The worker reports only that it fails. -/
theorem journal_deliver (fine : (s.deliver duty now j).1.worker.phase ≠ .failed) :
    (s.deliver duty now j).2 = j := by
  rcases Service.journal_deliver_fine fine with same | ⟨e, handled⟩
  · exact same
  · exact handled.trans (journal_onEvent ..)

end Watermark

@[simp] def Leg.rank : Leg → Nat
  | .gathering => 0
  | .draining => 1
  | .gathered => 2
  | .stopping => 3
  | .awaiting => 4
  | .settled => 5
  | .asking _ => 6
  | .reported _ => 7
  | .leaving _ => 8
  | .closed _ => 9
  | .broken _ => 10

theorem Leg.rank_of_collects {leg : Leg} (collects : leg.collects = true) : leg.rank ≤ 1 := by
  cases leg <;> first | decide | cases collects

namespace Account

variable {β σ : Type} [Watermark.Bookkeeping σ]
  {operations : List (Except Rows.DecodingError Operation)} {a b : Account β σ} {config : Config}

/-- A run that has failed does not recover. -/
theorem Step.broken (step : Step operations a b) (broken : a.leg.isBroken = true) :
    b.leg.isBroken = true := by
  cases step with
  | drain here | rest here | timed here | stopWatermark here | skipWatermark here | settle here
  | ask here | report here | stopStats here | skipStats here | leave here =>
    rw [here] at broken
    cases broken
  | abort | giveUp | fail => rfl
  | _ => exact broken

/-- What a step does to the completion time service. -/
theorem Step.service (step : Step operations a b) :
    a.watermark.Called b.watermark ∨ a.watermark.Closes b.watermark ∨
      b.watermark = (a.watermark.deliver Watermark.duty Instant.first a.journal).1 := by
  cases step with
  | call called | timed here called | handle found needs called => exact .inl called
  | fail called | teardown here called => exact called.imp_right .inl
  | stopWatermark here closes => exact .inr (.inl closes)
  | deliverWatermark => exact .inr (.inr rfl)
  | _ => exact .inl (Service.called_silent rfl rfl rfl)

/-- The services are stopped one after the other, when nothing more is asked of them. -/
structure Closing (config : Config) (a : Account β σ) : Prop where
  ruled : a.config = config ∧ a.policy = config.policy
  watermarkUp : a.leg.rank ≤ 3 → a.watermark.shuttingDown = false
  watermarkOver : 5 ≤ a.leg.rank → a.leg.rank ≤ 9 → a.watermark.isComplete = true
  statsUp : a.leg.rank ≤ 7 → a.stats.shuttingDown = false
  statsOver : ∀ r, a.leg = .closed r → a.stats.isComplete = true

omit [Watermark.Bookkeeping σ] in
/-- Another leg, with the services as they were. -/
theorem Closing.goTo (closing : Closing config a)
    (ruled : b.config = a.config ∧ b.policy = a.policy)
    (watermark : b.watermark = a.watermark)
    (stats : b.stats = a.stats) (forward : a.leg.rank ≤ b.leg.rank)
    (watermarkOver : 5 ≤ b.leg.rank → b.leg.rank ≤ 9 → a.watermark.isComplete = true)
    (statsOver : ∀ r, b.leg = .closed r → a.stats.isComplete = true) : Closing config b where
  ruled := ⟨ruled.1.trans closing.ruled.1, ruled.2.trans closing.ruled.2⟩
  watermarkUp early := by rw [watermark]; exact closing.watermarkUp (Nat.le_trans forward early)
  watermarkOver := by rw [watermark]; exact watermarkOver
  statsUp early := by rw [stats]; exact closing.statsUp (Nat.le_trans forward early)
  statsOver := by rw [stats]; exact statsOver

omit [Watermark.Bookkeeping σ] in
/-- The same leg, after a call that does not stop the completion time service. -/
theorem Closing.call (closing : Closing config a)
    (ruled : b.config = a.config ∧ b.policy = a.policy)
    (called : a.watermark.Called b.watermark)
    (stats : b.stats = a.stats) (leg : b.leg = a.leg) : Closing config b where
  ruled := ⟨ruled.1.trans closing.ruled.1, ruled.2.trans closing.ruled.2⟩
  watermarkUp := by rw [leg, called.shuttingDown]; exact closing.watermarkUp
  watermarkOver := by rw [leg, Service.isComplete, called.worker]; exact closing.watermarkOver
  statsUp := by rw [leg, stats]; exact closing.statsUp
  statsOver := by rw [leg, stats]; exact closing.statsOver

omit [Watermark.Bookkeeping σ] in
/-- After a failure it does not matter any more how the services are stopped. -/
theorem Closing.fail (closing : Closing config a)
    (ruled : b.config = a.config ∧ b.policy = a.policy) {e : RunError}
    (leg : b.leg = .broken e) : Closing config b where
  ruled := ⟨ruled.1.trans closing.ruled.1, ruled.2.trans closing.ruled.2⟩
  watermarkUp early := by simp [leg] at early
  watermarkOver _ fine := by simp [leg] at fine
  statsUp early := by simp [leg] at early
  statsOver r here := by rw [leg] at here; cases here

theorem Closing.step (closing : Closing config a) (step : Step operations a b) :
    Closing config b := by
  cases step with
  | still | submit | tolerate | shutdown | discard | interruption =>
    exact closing.goTo ⟨rfl, rfl⟩ rfl rfl (Nat.le_refl _) closing.watermarkOver closing.statsOver
  | call called => exact closing.call ⟨rfl, rfl⟩ called rfl rfl
  | handle found needs called => exact closing.call ⟨rfl, rfl⟩ called rfl rfl
  | drain here | rest here =>
    exact closing.goTo ⟨rfl, rfl⟩ rfl rfl (by simp [here]) nofun nofun
  | pass here first taken running =>
    exact ⟨closing.ruled, closing.watermarkUp, closing.watermarkOver, closing.statsUp,
      closing.statsOver⟩
  | abort | giveUp | fail => exact closing.fail ⟨rfl, rfl⟩ rfl
  | teardown here => exact closing.fail ⟨rfl, rfl⟩ here
  | timed here called =>
    refine ⟨closing.ruled, fun _ => ?_, nofun,
      fun _ => closing.statsUp (by simp [here]), nofun⟩
    rw [called.shuttingDown]
    exact closing.watermarkUp (by simp [here])
  | stopWatermark here closes =>
    exact ⟨closing.ruled, nofun, nofun,
      fun _ => closing.statsUp (by simp [here]), nofun⟩
  | skipWatermark here closed =>
    rw [closing.watermarkUp (by simp [here])] at closed
    cases closed
  | settle here complete =>
    exact closing.goTo ⟨rfl, rfl⟩ rfl rfl (by simp [here]) (fun _ _ => complete) nofun
  | ask here running =>
    exact ⟨closing.ruled, nofun,
      fun _ _ => closing.watermarkOver (by simp [here]) (by simp [here]),
      fun _ => closing.statsUp (by simp [here]), nofun⟩
  | report here =>
    exact ⟨closing.ruled, nofun,
      fun _ _ => closing.watermarkOver (by simp [here]) (by simp [here]),
      fun _ => closing.statsUp (by simp [here]), nofun⟩
  | stopStats here =>
    exact ⟨closing.ruled, nofun,
      fun _ _ => closing.watermarkOver (by simp [here]) (by simp [here]),
      nofun, nofun⟩
  | skipStats here closed =>
    rw [closing.statsUp (by simp [here])] at closed
    cases closed
  | leave here complete =>
    exact closing.goTo ⟨rfl, rfl⟩ rfl rfl (by simp [here])
      (fun _ _ => closing.watermarkOver (by simp [here])
        (by simp [here]))
      (fun _ _ => complete)
  | deliverWatermark =>
    have shared := (a.watermark.shared_deliver Watermark.duty Instant.first a.journal).1
    refine ⟨closing.ruled, fun early => shared.trans (closing.watermarkUp early),
      fun late fine => ?_, closing.statsUp,
      closing.statsOver⟩
    have complete := closing.watermarkOver late fine
    exact Service.isComplete_deliver complete
  | @deliverStats now =>
    have shared := (a.stats.shared_deliver Stats.duty now a.journal).1
    exact ⟨closing.ruled, closing.watermarkUp,
      closing.watermarkOver, fun early => shared.trans (closing.statsUp early),
      fun r here => Service.isComplete_deliver (closing.statsOver r here)⟩

/-- As long as the run does not fail, only the policy and failing workers report anything. -/
structure Reporting (config : Config) (a : Account β σ) : Prop where
  follows : a.leg.isBroken = false → a.stats.worker.state.Follows config
  only : a.leg.isBroken = false → a.watermark.worker.phase ≠ .failed →
    a.stats.worker.phase ≠ .failed → a.journal.OnlyRefusals config

omit [Watermark.Bookkeeping σ] in
/-- The workers stay as they are, and only the policy reports anything. -/
theorem Reporting.goTo (reporting : Reporting config a)
    (fine : b.leg.isBroken = false → a.leg.isBroken = false)
    (watermark : b.watermark.worker = a.watermark.worker) (stats : b.stats.worker = a.stats.worker)
    (journal : a.journal.Continues config b.journal) : Reporting config b where
  follows on := by rw [stats]; exact reporting.follows (fine on)
  only on up running := by
    rw [watermark] at up
    rw [stats] at running
    exact journal.refusals (reporting.only (fine on) up running)

omit [Watermark.Bookkeeping σ] in
theorem Asked.continues {j : Journal} (asked : a.Asked j) (policy : a.policy = config.policy) :
    a.journal.Continues config j := by
  cases asked with
  | silent => exact a.journal.continues_refl config
  | judged op =>
    rw [policy]
    exact a.journal.continues_judge config op

theorem Reporting.step (reporting : Reporting config a) (closing : Closing config a)
    (step : Step operations a b) : Reporting config b := by
  have same := a.journal.continues_refl config
  cases step with
  | abort | giveUp | fail => exact ⟨nofun, nofun⟩
  | teardown here =>
    have broken : ¬ a.leg.isBroken = false := by rw [here]; nofun
    exact ⟨fun fine => absurd fine broken, fun fine => absurd fine broken⟩
  | call called => exact reporting.goTo id called.worker rfl same
  | timed here called =>
    exact reporting.goTo (fun _ => by rw [here]; rfl) called.worker rfl same
  | stopWatermark here closes =>
    exact reporting.goTo (fun _ => by rw [here]; rfl) closes.worker rfl same
  | stopStats here closes =>
    exact reporting.goTo (fun _ => by rw [here]; rfl) rfl closes.worker same
  | drain here | rest here | skipWatermark here | settle here | ask here | report here
  | skipStats here | leave here =>
    exact reporting.goTo (fun _ => by rw [here]; rfl) rfl rfl same
  | handle found needs called asked =>
    exact reporting.goTo id called.worker rfl (asked.continues closing.ruled.2)
  | deliverWatermark =>
    refine ⟨reporting.follows, fun fine up running => ?_⟩
    rw [Watermark.journal_deliver up]
    refine reporting.only fine (fun failed => up ?_) running
    rw [Service.deliver_failed failed]
    exact failed
  | deliverStats =>
    refine ⟨fun fine => (Stats.keeps_deliver (reporting.follows fine)).1, fun fine up running => ?_⟩
    refine (Stats.continues_deliver (reporting.follows fine) running).refusals
      (reporting.only fine up fun failed => running ?_)
    rw [Service.deliver_failed failed]
    exact failed
  | _ => exact reporting.goTo id rfl rfl same

end Account

end PacedLoad
