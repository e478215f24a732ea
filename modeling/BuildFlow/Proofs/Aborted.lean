import BuildFlow.Proofs.Attempts
import BuildFlow.Proofs.Surfacing
import BuildFlow.Proofs.Flow.Watch
import BuildFlow.Proofs.Tree.Resign
/-!
Runs of trees without unchecked nodes, where every serial group begins with a child that
reports everything. An invocation gets no build after one that was aborted, whatever the other
children of its groups come to.
-/
namespace BuildFlow.Flow

variable {flow : Flow} {reads : Instant → Prop} {before : Runner} {world : World}
  {state next : Tree × World}

/-- The tree when the next tick has passed. -/
theorem resigned_next (watched : state.1.Watched before state.2.runner)
    (resigned : state.1.Every (Tree.Resigned before state.2.runner)) :
    state.1.Every (Tree.Resigned before state.2.next.runner) :=
  Tree.Resigned.later resigned watched.covered
    (fun name _ => Runner.buildsOf_next state.2.runner name) state.2.tick_le_next

/-- In all states of a run aborted builds have been left alone. -/
theorem Passes.resigned (passes : flow.Passes reads world state) (set : ∀ now, reads now → now.isSet)
    (distinct : flow.root.names.Nodup) (strict : flow.root.Every Tree.Strict) :
    state.1.Every (Tree.Resigned world.runner state.2.runner) := by
  refine passes.keeps (p := fun state => state.1.Every (Tree.Resigned world.runner state.2.runner))
    (fun prepared => Tree.resigned_of_ready prepared.2.2 fun name _ => prepared.1.builds name) ?_
  rintro state next passes resigned ⟨unsettled, read, answered, sweep⟩
  have watched := passes.watched set distinct strict
  exact (sweep.resigned (set _ read) answered (Standing.unfinished unsettled) watched.next
    (resigned_next watched resigned)).1

theorem Halted.givesUp {answer : Except Halt BuildResult} {last : Tree} {after : World}
    (halted : flow.Halted reads world answer last after) (fresh : flow.root.IsFresh)
    (set : ∀ now, reads now → now.isSet) (direct : Direct answer)
    (distinct : flow.root.names.Nodup) (strict : flow.root.Every Tree.Strict) :
    ∀ name ∈ flow.root.names, world.runner.GivesUp after.runner name := by
  cases halted with
  | early _ same =>
      intro name _ build member
      rw [Runner.newBuilds_eq_nil (same.builds name)] at member
      cases member
  | later passes left direct' =>
      have watched := passes.watched set distinct strict
      have resigned := passes.resigned set distinct strict
      have names := Tree.names_of_layout (fresh.trans passes.blank.symm)
      rw [names]
      cases left with
      | rests => exact Tree.Resigned.givesUp resigned
      | refused => exact Tree.Resigned.givesUp (resigned_next watched resigned)
      | broken unsettled read sweep _ =>
          exact sweep.givesUp (set _ read) (direct' direct) (Standing.unfinished unsettled)
            watched.next (resigned_next watched resigned)

/-- Two invocations at once, and then another one; there are two tries everywhere. -/
def scannedFlow : Flow :=
  .ofTree (.ofChildren true (.fresh 0 0 2 2 .normal) [
    .ofChildren false (.fresh 1 1 2 4 .normal) [
      .ofJob (.fresh 2 2 2 4 .normal) "scan",
      .ofJob (.fresh 3 2 2 4 .normal) "lint"],
    .ofJob (.fresh 4 1 2 2 .normal) "deploy"])

/-- The first build of each job below the inner group does not end well, and one of them is
aborted. -/
def scannedHost : Host :=
  .ofPlans [{ name := "scan", maxFails := 1, failResult := .aborted },
    { name := "lint", execTicks := 2, maxFails := 1 }, { name := "deploy" }]

theorem strict_scannedFlow : scannedFlow.root.Every Tree.Strict := by
  intro node member
  simp only [scannedFlow, Flow.ofTree, Tree.ofChildren, Tree.ofJob, Tree.nodes, Tree.nodesOf,
    List.mem_cons, List.mem_append, List.not_mem_nil, or_false] at member
  rcases member with rfl | (rfl | rfl | rfl) | rfl
  · exact ⟨rfl, fun _ child first => by cases first; rfl⟩
  · exact ⟨rfl, fun serial => by cases serial⟩
  · rfl
  · rfl
  · rfl

/-- An unchecked job keeps a group at work, and then two jobs come. -/
def relentlessFlow : Flow :=
  .ofTree (.ofChildren true (.fresh 0 0 2 2 .normal) [
    .ofChildren false (.fresh 1 1 2 4 .normal) [
      .ofJob (.fresh 2 2 2 4 .normal) "build",
      .ofJob (.fresh 3 2 2 4 .unchecked) "lint"],
    .ofJob (.fresh 4 1 2 2 .normal) "test",
    .ofJob (.fresh 5 1 2 2 .normal) "deploy"])

def relentlessHost : Host :=
  .ofPlans [{ name := "build" }, { name := "lint", execTicks := 3, maxFails := 1 },
    { name := "test", maxFails := 1, failResult := .aborted }, { name := "deploy", maxFails := 1 }]

end BuildFlow.Flow
