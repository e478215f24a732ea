import BuildFlow.Proofs.Flow.Start
/-!
What a successful run means. If a run answers with success, then every checked
invocation has ended well, and it has the result that the runner reports for
the build that it started last.
-/
namespace BuildFlow

namespace Task

/-- The invocation has ended well, as its last build did. -/
structure Succeeded (runner : Runner) (task : Task) : Prop where
  finished : task.standing.checking = .finished
  good : task.standing.result = .success ∨ task.standing.result = .superseded
  reported : ∃ ref, task.build = some ref ∧ ref.job = task.name ∧
    runner.report? ref = some (task.standing.result, .idle)

theorem Sound.succeeded {runner : Runner} {task : Task} (sound : task.Sound runner)
    (checked : task.isUnchecked = false) (good : task.standing.result.IsGood) :
    task.Succeeded runner := by
  have known := good.known
  obtain ⟨ref, followed, reported⟩ := sound.reported checked known good.fine
  refine ⟨?_, good, ref, followed, (sound.anchored ref followed).1, reported⟩
  simpa [Standing.isFinished] using sound.settled.mpr known

end Task

namespace Tree

/-- Below a node that succeeded every checked invocation did. -/
theorem Sound.succeeded {runner : Runner} {tree : Tree} (sound : tree.Sound runner)
    (good : tree.standing.result.IsGood) : ∀ leaf ∈ tree.checkedTasks, leaf.Succeeded runner := by
  intro leaf member
  obtain ⟨inside, checked⟩ := of_mem_checkedTasks member
  have leafSound : leaf.Sound runner := sound _ inside
  exact leafSound.succeeded checked (sound.good good leaf member)

end Tree

namespace Flow

theorem Looped.sound {dir : Bool} {limit : Nat} {reads : Instant → Prop} {tree last : Tree}
    {world after : World} (looped : Looped dir limit reads tree world (.ok ()) last after)
    (sound : tree.Sound world.runner) : last.Sound after.runner ∧ last.blank = tree.blank := by
  generalize ended : Except.ok () = answer at looped
  induction looped with
  | settled => exact ⟨sound, rfl⟩
  | @again _ _ _ world _ _ _ _ unsettled _ _ sweep _ ih =>
      have unfinished := Standing.unfinished unsettled
      have started := sound.grows (Runner.grows_next world.runner)
      obtain ⟨sound', layout⟩ := ih (sweep.sound .ok unfinished started).sound ended
      exact ⟨sound', layout.trans sweep.blank⟩
  | broke => cases ended
  | refused => cases ended
  | overrun => cases ended
  | unwritten => cases ended

/-- A run that answers with success has left the tree as it was declared, and
each checked invocation of it has the good result of its last build. -/
theorem run_success_reported {flow flow' : Flow} {host host' : Host}
    (fresh : flow.root.IsFresh) (quiet : host.Quiet) (alive : flow.config.killAll = false)
    (ran : run.run (flow, host) = (.ok .success, flow', host')) :
    flow'.root.blank = flow.root ∧
      ∀ leaf ∈ flow'.root.checkedTasks, leaf.Succeeded host'.runner := by
  have led := (leads_run quiet fresh alive).ran ran
  have unanswered : flow.root.result = .unknown := Tree.result_of_fresh fresh
  change _ ∧ ∀ leaf ∈ flow'.root.checkedTasks, leaf.Succeeded host'.world.runner
  dsimp only at led
  generalize flow'.root = last, host'.world = after at led ⊢
  generalize answered : (Except.ok BuildResult.success : Except Halt BuildResult) = answer at led
  cases led with
  | unwritten => cases answered
  | idle =>
      rw [unanswered] at answered
      cases answered
  | halted => cases answered
  | raised => cases answered
  | finished driven =>
      cases driven with
      | looped prepared looped concluded =>
          cases concluded with
          | finished =>
              obtain ⟨-, layout, ready⟩ := prepared
              obtain ⟨sound, layout'⟩ := looped.sound (Tree.sound_of_ready ready)
              refine ⟨layout'.trans layout, sound.succeeded (.inl ?_)⟩
              exact (Except.ok.inj answered).symm

/-- Two invocations at once, one of them unchecked, and then a third one. -/
def retriedFlow : Flow :=
  .ofTree (.ofChildren true (.fresh 0 0 2 2 .normal) [
    .ofChildren false (.fresh 1 1 2 4 .normal) [
      .ofJob (.fresh 2 2 2 4 .normal) "build",
      .ofJob (.fresh 3 2 2 4 .unchecked) "lint"],
    .ofJob (.fresh 4 1 2 2 .normal) "deploy"])

/-- Each of the jobs fails at first. -/
def retriedHost : Host :=
  .ofPlans [
    { name := "build", maxFails := 1 },
    { name := "lint", maxFails := 2 },
    { name := "deploy", maxFails := 1 }]

set_option maxRecDepth 100000 in
theorem run_success_reported_retried :
    ∃ flow' host', run.run (retriedFlow, retriedHost) = (.ok .success, flow', host') ∧
      flow'.root.blank = retriedFlow.root ∧
      ∀ leaf ∈ flow'.root.checkedTasks, leaf.Succeeded host'.runner := by
  have success : (run.run (retriedFlow, retriedHost)).1 = .ok .success := by decide +kernel
  generalize ran : run.run (retriedFlow, retriedHost) = out at success
  obtain ⟨answer, flow', host'⟩ := out
  dsimp only at success
  subst success
  exact ⟨flow', host', rfl, run_success_reported rfl (Host.quiet_start _ _ _) rfl ran⟩

end Flow

end BuildFlow
