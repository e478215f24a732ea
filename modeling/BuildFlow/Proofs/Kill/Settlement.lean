import BuildFlow.Proofs.Flow.Start
import BuildFlow.Proofs.Kill.Loop
/-!
The kill loop is short. Wherever it begins, two rounds settle the tree, no build is told
to stop twice, and nothing is tried again. While only the builds of this run are to be
stopped, those of others are left alone.
-/
namespace BuildFlow

open Act

namespace Host

/-- A host on which only hooks of the runner ask for kills. -/
theorem faithful_of_idle {host : Host} (faultless : host.script.faults = [])
    (unscripted : host.script.actions = []) : host.Faithful :=
  ⟨faultless, unscripted ▸ fun _ member => nomatch member⟩

/-- A host with nothing but jobs, on which kills are asked for at some ticks. -/
def ofHooks (hooks : List KillHook) (plans : List JobPlan) : Host :=
  (ofPlans plans).withRunner { (ofPlans plans).runner with hooks }

theorem faithful_ofHooks (hooks : List KillHook) (plans : List JobPlan) :
    (ofHooks hooks plans).Faithful :=
  faithful_of_idle rfl rfl

theorem numbered_ofHooks (hooks : List KillHook) (plans : List JobPlan) :
    (ofHooks hooks plans).runner.Numbered := by
  have added : (plans.foldl Runner.add {}).Numbered := by
    refine Runner.every_addAll (p := fun _ job => job.Numbered) (fun plan _ => ?_)
      (Runner.every_empty _)
    unfold Job.Numbered Job.ofPlan
    dsimp only
    split
    · exact List.pairwise_singleton _ _
    · exact .nil
  exact added

end Host

namespace Flow

/-- The run goes on with its kill loop. Two more ticks are enough for it: then the tree
is settled. No build is told to stop twice and no node is tried again. If the kill is
still one of the builds of this run when the loop ends, no job was told to stop all of
its builds, and those from before the run are as they were when the loop began. -/
theorem killLoop_settles {flow : Flow} {host : Host} {sleep : Duration} {rounds : Nat}
    {state : Flow × Host} (enters : flow.Enters host sleep rounds state) :
    let ended := (killLoop sleep rounds).run state
    run.run (flow, host) =
        (outcome (outcome (killLoop sleep rounds) >>= tell) >>= conclude flow).run state ∧
      (state.2.runner.tick + 2 ≤ host.script.maxTicks →
        ended.1 = .ok () ∧ ended.2.1.root.standing.isFinished ∧
          ended.2.2.runner.tick ≤ state.2.runner.tick + 2) ∧
      (∃ new, ended.2.2.scene.stops = new ++ host.scene.stops ∧ (stopUrls new).Nodup) ∧
      ended.2.1.root.counts = state.1.root.counts ∧
      (ended.2.2.kill.kind = .current →
        (∃ new, ended.2.2.scene.stops = new ++ host.scene.stops ∧
          ∀ event ∈ new, event.isStopAll = false) ∧
        ∀ name index, index < (host.runner.buildsOf name).length →
          (ended.2.2.runner.buildsOf name)[index]? = (state.2.runner.buildsOf name)[index]?) := by
  have quells := enters.quells
  have goes := enters.armed.goes
  generalize (killLoop sleep rounds).run state = ended at quells ⊢
  refine ⟨run_of_reach enters.reached, fun within => ?_, ?_, quells.counts, fun current => ?_⟩
  · have enough := enters.armed.enough
    rw [goes.script] at enough
    refine quells.ends (by omega) ?_ enters.unsent enters.hushed
    rw [goes.script]
    exact within
  · obtain ⟨new, stops, distinct, -⟩ := (quells.once enters.stopping enters.once).since
    exact ⟨new, stops, distinct⟩
  · have own : ended.2.2.kill.kind ≠ .all := fun all => nomatch current.symm.trans all
    constructor
    · obtain ⟨new, stops, single⟩ := quells.own own
      exact ⟨new, stops.trans (congrArg (new ++ ·) goes.stops), single⟩
    · intro name index old
      refine quells.untouched own fun ref pursues same => ?_
      -- What is pursued was started in this run.
      obtain ⟨leaf, member, -, -, followed⟩ := pursues
      obtain ⟨named, new, -⟩ := (enters.stopping.tied leaf (Tree.openTasks_subset member)).held ref
        followed
      obtain ⟨rfl, rfl⟩ := same
      rw [named] at old
      omega

/-- Two invocations one after the other, and an unchecked one beside them. -/
def haltedFlow : Flow :=
  .ofTree (.ofChildren false (.fresh 0 0 1 1 .normal) [
    .ofChildren true (.fresh 1 1 2 2 .normal) [
      .ofJob (.fresh 2 2 2 2 .normal) "build",
      .ofJob (.fresh 3 2 2 2 .normal) "test"],
    .ofJob (.fresh 4 1 1 1 .unchecked) "lint"])

/-- The builds are still running when a kill is asked for, and a tick later all builds
are to be stopped. -/
def haltedHost (hooks : List KillHook) : Host :=
  .ofHooks hooks [
    { name := "build", execTicks := 5 }, { name := "test" }, { name := "lint", execTicks := 9 }]

set_option maxRecDepth 100000 in
theorem killLoop_settles_halted :
    ∃ (sleep : Duration) (rounds : Nat) (state : Flow × Host),
      haltedFlow.Enters (haltedHost [⟨2, .current⟩]) sleep rounds state ∧
      ((killLoop sleep rounds).run state).1 = .ok () ∧
      ((killLoop sleep rounds).run state).2.1.root.standing.isFinished ∧
      ((killLoop sleep rounds).run state).2.1.root.counts = state.1.root.counts := by
  have reached : gets (reach.run (haltedFlow, haltedHost [⟨2, .current⟩])).1 ∧
      (reach.run (haltedFlow, haltedHost [⟨2, .current⟩])).2.2.runner.Fits ∧
      (reach.run (haltedFlow, haltedHost [⟨2, .current⟩])).2.2.runner.tick = 2 := by
    decide +kernel
  generalize ran : reach.run (haltedFlow, haltedHost [⟨2, .current⟩]) = out at reached
  obtain ⟨answer, state⟩ := out
  obtain ⟨reached, fits, tick⟩ := reached
  have fresh : haltedFlow.root.IsFresh := rfl
  have faithful : (haltedHost [⟨2, .current⟩]).Faithful := Host.faithful_ofHooks _ _
  have numbered : (haltedHost [⟨2, .current⟩]).runner.Numbered := Host.numbered_ofHooks _ _
  obtain ⟨sleep, rounds, enters⟩ := enters_of_gets fresh faithful numbered rfl ran reached fits
  obtain ⟨-, settles, -, counts, -⟩ := killLoop_settles enters
  have within : state.2.runner.tick + 2 ≤ 100 := by
    have tick : state.2.runner.tick = 2 := tick
    omega
  obtain ⟨ended, settled, -⟩ := settles within
  exact ⟨sleep, rounds, state, enters, ended, settled, counts⟩

end Flow

end BuildFlow
