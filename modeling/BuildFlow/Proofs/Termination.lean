import BuildFlow.Proofs.Flow.Ending
import BuildFlow.Proofs.Flow.Start
import BuildFlow.Proofs.Tree.Overdraw
/-!
Every run ends. The loop of a run is left after a number of sweeps that the tree
and the job table bound, and the run then has a result or an error, unless a
group is left that cannot count the next attempt of one of its children.
-/
namespace BuildFlow

namespace Flow

/-- A loop over a tree that is sound breaks down at a group that cannot count, or
because the end of a build cannot be told. -/
theorem Looped.stuck {dir : Bool} {limit : Nat} {reads : Instant → Prop} {tree last : Tree}
    {world after : World} {breakdown : Breakdown}
    (looped : Looped dir limit reads tree world (.error (.broken breakdown)) last after)
    (sound : tree.Sound world.runner) (fits : after.runner.Fits) : last.Stuck := by
  generalize ended : Except.error (Halt.broken breakdown) = answer at looped
  induction looped with
  | settled => cases ended
  | again unsettled _ _ sweep _ ih =>
      have started := sound.grows (Runner.grows_next _)
      exact ih (sweep.sound .ok (Standing.unfinished unsettled) started).sound fits ended
  | broke unsettled _ _ sweep =>
      cases ended
      have started := sound.grows (Runner.grows_next _)
      rcases sweep.breakdown (Standing.unfinished unsettled) started with rfl | ⟨-, overrun⟩
      · obtain ⟨checking, overdrawn⟩ := sweep.replies.overdrawn rfl
        exact ⟨checking.trans unsettled, overdrawn⟩
      · exact absurd fits overrun
  | refused => cases ended
  | overrun overrun => exact absurd fits overrun
  | unwritten => cases ended

/-! ## How a run can end -/

/-- The run has an error to tell. -/
def Errs (answer : Except Halt BuildResult) : Prop := ∃ error, answer = .error (.error error)

/-- The run has a result. -/
def Results (answer : Except Halt BuildResult) : Prop := ∃ result, answer = .ok result

theorem Driven.ends {config : RunConfig} {requireIdle : Bool} {limit : Nat}
    {reads : Instant → Prop} {tree last : Tree} {world after : World}
    {answer : Except Halt BuildResult}
    (driven : Driven config requireIdle limit reads tree world answer last after)
    (fits : after.runner.Fits) :
    Errs answer ∨ answer = .error (.broken .interval) ∧ config.sleepDuration? = none ∨
      (Results answer ↔ ¬ last.Stuck) := by
  cases driven with
  | unprepared prepared =>
      obtain ⟨-, -, leaf, -, refused⟩ := prepared
      cases refused with
      | missing => exact .inl ⟨_, rfl⟩
      | unknown => exact .inl ⟨_, rfl⟩
      | busy => exact .inl ⟨_, rfl⟩
      | overrun overrun => exact absurd fits overrun
  | unwritten => exact .inl ⟨_, rfl⟩
  | unslept _ unslept => exact .inr (.inl ⟨rfl, unslept⟩)
  | looped prepared looped concluded =>
      have sound := Tree.sound_of_ready prepared.2.2
      cases concluded with
      | finished => exact .inr (.inr ⟨fun _ stuck => looped.settles stuck.1, fun _ => ⟨_, rfl⟩⟩)
      | unwritten => exact .inl ⟨_, rfl⟩
      | overrun overrun => exact absurd fits overrun
      | @halted halt =>
          cases halt with
          | error error => exact .inl ⟨_, rfl⟩
          | broken breakdown =>
              exact .inr (.inr ⟨fun ⟨_, has⟩ => (nomatch has),
                fun unstuck => absurd (looped.stuck sound fits) unstuck⟩)

theorem Ran.ends {flow : Flow} {limit : Nat} {reads : Instant → Prop} {world after : World}
    {answer : Except Halt BuildResult} {last : Tree}
    (ran : Ran flow limit reads world answer last after) (fresh : flow.root.IsFresh)
    (fits : after.runner.Fits) :
    Errs answer ∨ answer = .error (.broken .interval) ∧ flow.config.sleepDuration? = none ∨
      (Results answer ↔ ¬ last.Stuck) := by
  cases ran with
  | unwritten => exact .inl ⟨_, rfl⟩
  | idle => exact .inr (.inr ⟨fun _ => Tree.not_stuck_of_fresh fresh, fun _ => ⟨_, rfl⟩⟩)
  | halted driven => exact driven.ends fits
  | finished driven => exact driven.ends fits
  | raised => exact .inl ⟨_, rfl⟩

/-- A flow that starts over up to three times, with unchecked work in it that
has so many tries of its own. -/
def restartedFlow (tries : Nat) : Flow :=
  .ofTree (.ofChildren true (.fresh 0 0 3 3 .normal) [
    .ofChildren true (.fresh 1 1 tries (tries * 3) .unchecked) [
      .ofChildren true (.fresh 2 2 1 (tries * 3) .normal) [
        .ofJob (.fresh 3 3 1 (tries * 3) .normal) "probe"]],
    .ofJob (.fresh 4 1 3 3 .normal) "deploy"])

/-- The unchecked work is aborted, and what follows it fails at first. -/
def abortedPlans : List JobPlan :=
  [{ name := "probe", maxFails := 1, failResult := .aborted }, { name := "deploy", maxFails := 1 }]

theorem known_abortedPlans : (Host.ofPlans abortedPlans).runner.Known := by
  refine Runner.every_addAll (p := fun _ job => job.Known) (fun plan member => ?_) (Runner.every_empty _)
  simp only [abortedPlans, List.mem_cons, List.not_mem_nil, or_false] at member
  rcases member with rfl | rfl <;> exact Job.known_ofPlan (fun _ => nofun) nofun

end Flow

end BuildFlow
