import BuildFlow.Proofs.Finished
import Mathlib.Data.List.Sort
/-!
Which invocations a finished flow has. They are those that were declared in groups of which none was
dropped, in the order of the commands.
-/
namespace BuildFlow

/-- The invocations are listed in the order of the nodes. -/
theorem Tree.taskIds_sublist (tree : Tree) : tree.taskIds.Sublist tree.nodeIds := by
  rw [taskIds_eq, nodeIds]
  induction tree.nodes with
  | nil => exact List.Sublist.refl _
  | cons node rest ih =>
      cases node with
      | task leaf => exact ih.cons_cons _
      | branch group children => exact ih.cons _

namespace Draft

open BuildFlow.Tree

variable {config : RunConfig} {root : GroupOptions} {serial : Bool} {draft : Draft} {log : Log}
  {host : Host} {tree : Tree} {after : Draft × Host} {placed : Log.Placed} {leaf : Task}

namespace Log

/-- No group around the invocation was dropped. -/
def Placed.Remains (log : Log) (placed : Placed) : Prop := ∀ ref ∈ placed.scope, ref.id ∉ log.dropped

instance (log : Log) (placed : Placed) : Decidable (placed.Remains log) :=
  inferInstanceAs (Decidable (∀ ref ∈ placed.scope, _))

/-- The invocations that are left, in the order of the commands. -/
def remaining (log : Log) : List Placed := log.placed.filter fun placed => placed.Remains log

end Log

theorem Grown.declared (grown : Grown root log tree) (member : leaf ∈ tree.tasks) :
    ∃ placed ∈ log.placed, placed.id = leaf.standing.id := by
  obtain ⟨around, lies⟩ := mem_nodes_iff_liesIn.mp (mem_tasks.mp member)
  cases lies with
  | self => exact grown.elim
  | child parent inside =>
      obtain ⟨placed, listed, same, -⟩ := ((grown.full parent).1.fits _ inside).name
      exact ⟨placed, listed, same⟩

/-- The ids of all invocations that were declared ascend. -/
theorem Filed.ascending {next : Nat} (filed : Filed log next) :
    (log.placed.map Log.Placed.id).Pairwise (· < ·) :=
  (List.pairwise_append.mp filed.ordered).1.sublist filed.listed

section

variable (session : Session config root serial log draft)
  (finished : finish.run (draft, host) = (.ok tree, after))
include session finished

theorem Session.finished_grown : Grown root log tree := by
  obtain ⟨closed, rfl⟩ := finish_inv finished
  exact (session.grown closed).withMessages

theorem Session.finished_ordered : tree.nodeIds.Pairwise (· < ·) := by
  obtain ⟨closed, rfl⟩ := finish_inv finished
  have ordered := session.shape.ordered
  rw [show draft.groups = [draft.innermost] from congrArg _ closed] at ordered
  rw [nodeIds_withMessages]
  exact (List.pairwise_append.mp ordered).1

theorem Session.mem_taskIds (member : placed ∈ log.placed) :
    placed.id ∈ tree.taskIds ↔ placed.Remains log := by
  obtain ⟨closed, rfl⟩ := finish_inv finished
  have accounts := session.accounts
  rw [show draft.groups = [draft.innermost] from congrArg _ closed] at accounts
  rw [taskIds_withMessages]
  exact accounts placed member

theorem Session.ascending : tree.taskIds.Pairwise (· < ·) :=
  (session.finished_ordered finished).sublist tree.taskIds_sublist

/-- The tree has the invocations that are left, in the order in which they were declared. -/
theorem Session.taskIds_eq : tree.taskIds = log.remaining.map Log.Placed.id := by
  have ascending := session.ascending finished
  have ascending' : (log.remaining.map Log.Placed.id).Pairwise (· < ·) :=
    session.filed.ascending.sublist (List.filter_sublist.map _)
  refine ascending.eq_of_mem_iff ascending' fun id => ⟨fun inside => ?_, fun left => ?_⟩
  · obtain ⟨leaf, member, rfl⟩ := List.mem_map.mp inside
    obtain ⟨placed, listed, same⟩ := (session.finished_grown finished).declared member
    rw [← same] at inside ⊢
    have remains := (session.mem_taskIds finished listed).mp inside
    exact List.mem_map_of_mem (List.mem_filter.mpr ⟨listed, decide_eq_true remains⟩)
  · obtain ⟨placed, member, rfl⟩ := List.mem_map.mp left
    obtain ⟨listed, remains⟩ := List.mem_filter.mp member
    exact (session.mem_taskIds finished listed).mpr (of_decide_eq_true remains)

end

end Draft

end BuildFlow
