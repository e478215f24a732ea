import BuildFlow.Proofs.Flow.Start
import BuildFlow.Proofs.Flow.Trail
import BuildFlow.Proofs.Tree.Single
/-!
Runs of trees without unchecked nodes, where every serial group begins with a child that
reports everything. In all states that they go through, a serial group has one child at work.
-/
namespace BuildFlow

namespace World

theorem newBuilds_next (before : Runner) (world : World) (name : String) :
    before.newBuilds world.next.runner name = before.newBuilds world.runner name :=
  Runner.newBuilds_congr (Runner.buildsOf_next world.runner name)

theorem tick_next (world : World) : world.next.runner.tick = world.runner.tick + 1 :=
  Runner.tick_next world.runner

theorem tick_le_next (world : World) : world.runner.tick ≤ world.next.runner.tick :=
  Nat.le_of_lt (world.tick_next ▸ Nat.lt_succ_self _)

end World

namespace Tree

variable {before : Runner} {world there : World} {tree first : Tree}

/-- The tree when the next tick has passed. -/
theorem Watched.next (watched : tree.Watched before world.runner) :
    tree.Watched before world.next.runner :=
  watched.later (fun name _ => Runner.buildsOf_next world.runner name) world.tick_le_next

theorem Prepared.watched {requireIdle : Bool}
    (prepared : tree.Prepared requireIdle world (.ok ()) first there) (distinct : tree.names.Nodup)
    (strict : tree.Every Strict) : first.Watched world.runner there.runner := by
  obtain ⟨same, rfl, ready⟩ := prepared
  have strict : first.Every Strict := (every_blank.mp strict).mono fun node => (strict_blank node).mp
  exact ⟨names_blank first ▸ distinct, strict,
    covered_of_ready ready strict fun name _ => same.builds name⟩

end Tree

namespace Flow

variable {flow : Flow} {reads : Instant → Prop} {world : World} {state : Tree × World}

theorem Passes.watched (passes : flow.Passes reads world state) (set : ∀ now, reads now → now.isSet)
    (distinct : flow.root.names.Nodup) (strict : flow.root.Every Tree.Strict) :
    state.1.Watched world.runner state.2.runner := by
  refine passes.keeps (p := fun state => state.1.Watched world.runner state.2.runner)
    (fun prepared => prepared.watched distinct strict) ?_
  rintro state next - watched ⟨unsettled, read, answered, sweep⟩
  exact sweep.watched (set _ read) answered (Standing.unfinished unsettled) watched.next

end Flow

end BuildFlow
