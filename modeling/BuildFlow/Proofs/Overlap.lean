import BuildFlow.Proofs.Flow.Watch
import BuildFlow.Proofs.Tree.Apart
/-!
Runs of trees without unchecked nodes, where every serial group begins with a child that
reports everything. The children of a serial group build one at a time, however often the
group starts over.
-/
namespace BuildFlow

namespace Flow

variable {flow : Flow} {reads : Instant → Prop} {before : Runner} {world : World}
  {state next : Tree × World}

/-- A state of a run whose builds lie apart so far. -/
structure Parted (before : Runner) (state : Tree × World) : Prop where
  apart : state.1.Every (Tree.Apart before state.2.runner)
  past : state.1.Past before state.2.next.runner

theorem Parted.passed (parted : Parted before state) :
    state.1.Every (Tree.Apart before state.2.next.runner) :=
  Tree.Apart.later parted.apart (fun name _ => World.newBuilds_next before state.2 name)
    state.2.tick_le_next

/-- What a sweep builds, also if it is broken off. -/
theorem Parted.sweep (parted : Parted before state)
    (watched : state.1.Watched before state.2.runner) {now : Instant} {answer : Except Halt Unit}
    {tree : Tree} {after : World} (set : now.isSet) (unsettled : state.1.checking = .mustCheck)
    (sweep : Tree.Sweeps now state.1 state.2.next answer tree after) (direct : Direct answer) :
    before.Gains state.1.names state.2.next.runner after.runner ∧
      tree.Every (Tree.Apart before after.runner) :=
  have unfinished := Standing.unfinished unsettled
  ⟨sweep.gains set direct unfinished watched.next,
    sweep.apart set direct unfinished watched.next parted.passed parted.past⟩

theorem Parted.cycle (parted : Parted before state)
    (watched : state.1.Watched before state.2.runner) (set : ∀ now, reads now → now.isSet)
    (cycle : Cycle reads state next) : Parted before next := by
  obtain ⟨unsettled, read, answered, sweep⟩ := cycle
  obtain ⟨gains, apart⟩ := parted.sweep watched (set _ read) unsettled sweep answered.direct
  refine ⟨apart, fun name named build member => ?_⟩
  rw [World.newBuilds_next] at member
  rw [World.tick_next, gains.tick]
  rcases gains.mem member with old | ⟨-, unforced, enqueued⟩
  · obtain ⟨unforced, early⟩ := parted.past name (Tree.names_of_layout sweep.blank ▸ named) build old
    exact ⟨unforced, Nat.lt_succ_of_lt early⟩
  · exact ⟨unforced, enqueued ▸ Nat.lt_succ_self _⟩

theorem Passes.parted (passes : flow.Passes reads world state) (set : ∀ now, reads now → now.isSet)
    (distinct : flow.root.names.Nodup) (strict : flow.root.Every Tree.Strict) :
    Parted world.runner state := by
  refine passes.keeps (p := Parted world.runner) (fun {first there} prepared => ?_)
    fun passes parted => parted.cycle (passes.watched set distinct strict) set
  refine ⟨Tree.apart_of_unbuilt prepared.1.builds,
    fun name _ build member => ?_⟩
  have unbuilt : there.next.runner.buildsOf name = world.runner.buildsOf name :=
    (Runner.buildsOf_next there.runner name).trans (prepared.1.builds name)
  rw [Runner.newBuilds_eq_nil unbuilt] at member
  cases member

theorem Halted.apart {answer : Except Halt BuildResult} {last : Tree} {after : World}
    (halted : flow.Halted reads world answer last after) (fresh : flow.root.IsFresh)
    (set : ∀ now, reads now → now.isSet) (direct : Direct answer)
    (distinct : flow.root.names.Nodup) (strict : flow.root.Every Tree.Strict) :
    flow.root.Every (Tree.Apart world.runner after.runner) := by
  cases halted with
  | early _ same => exact Tree.apart_of_unbuilt same.builds
  | later passes left direct' =>
      have watched := passes.watched set distinct strict
      have parted := passes.parted set distinct strict
      have layout : ∀ {tree : Tree}, tree.blank = flow.root →
          tree.Every (Tree.Apart world.runner after.runner) →
          flow.root.Every (Tree.Apart world.runner after.runner) := fun same apart =>
        Tree.apart_of_layout (fresh.trans same.symm) apart
      cases left with
      | rests => exact layout passes.blank parted.apart
      | refused => exact layout passes.blank parted.passed
      | broken unsettled read sweep _ =>
          exact layout (sweep.blank.trans passes.blank)
            (parted.sweep watched (set _ read) unsettled sweep (direct' direct)).2

/-- Two invocations at once, and then another one; there are two tries everywhere. -/
def stagedFlow : Flow :=
  .ofTree (.ofChildren true (.fresh 0 0 2 2 .normal) [
    .ofChildren false (.fresh 1 1 2 4 .normal) [
      .ofJob (.fresh 2 2 2 4 .normal) "build",
      .ofJob (.fresh 3 2 2 4 .normal) "lint"],
    .ofJob (.fresh 4 1 2 2 .normal) "deploy"])

/-- Each job takes some time, and all but the first one fail once. -/
def stagedHost : Host :=
  .ofPlans [{ name := "build", execTicks := 2 }, { name := "lint", execTicks := 3, maxFails := 1 },
    { name := "deploy", queueTicks := 1, maxFails := 1 }]

theorem strict_stagedFlow : stagedFlow.root.Every Tree.Strict := by
  intro node member
  simp only [stagedFlow, Flow.ofTree, Tree.ofChildren, Tree.ofJob, Tree.nodes, Tree.nodesOf,
    List.mem_cons, List.mem_append, List.not_mem_nil, or_false] at member
  rcases member with rfl | (rfl | rfl | rfl) | rfl
  · exact ⟨rfl, fun _ child first => by cases first; rfl⟩
  · exact ⟨rfl, fun serial => by cases serial⟩
  · rfl
  · rfl
  · rfl

/-- A group whose failure counts as unstable comes first in another group. -/
def lenientFlow : Flow :=
  .ofTree (.ofChildren true (.fresh 0 0 2 2 .normal) [
    .ofChildren true (.fresh 1 1 1 2 .normal) [
      .ofChildren true (.fresh 2 2 1 2 .failureToUnstable) [
        .ofChildren true (.fresh 3 3 1 2 .normal) [
          .ofJob (.fresh 4 4 1 2 .normal) "lint"]],
      .ofJob (.fresh 5 2 1 2 .normal) "build",
      .ofJob (.fresh 6 2 1 2 .normal) "test",
      .ofJob (.fresh 7 2 1 2 .normal) "deploy"]])

/-- The first job never succeeds, and the second one fails once. -/
def lenientHost : Host :=
  .ofPlans [{ name := "lint", maxFails := 9 }, { name := "build", execTicks := 2, maxFails := 1 },
    { name := "test", execTicks := 4 }, { name := "deploy" }]

/-- When builds of a job entered the queue and ended. -/
def spans (runner : Runner) (name : String) : List (Nat × Option Nat) :=
  (runner.history name).invokedAt.zip (runner.history name).finishedAt

end Flow

end BuildFlow
