import BuildFlow.Proofs.Tree.Layout
import Mathlib.Data.List.Nodup
/-!
The ids in a tree. Those of the nodes are listed as the nodes are, each before what lies below it.
-/
namespace BuildFlow

namespace Tree

variable {tree node child : Tree} {group : Group} {children rest : List Tree} {leaf other : Task}

/-- Induction over a tree that takes away the first child of a group. -/
@[elab_as_elim] theorem consInduction {p : Tree → Prop} (leaf : ∀ leaf, p (.task leaf))
    (empty : ∀ group, p (.branch group []))
    (cons : ∀ group child rest, p child → p (.branch group rest) →
      p (.branch group (child :: rest)))
    (tree : Tree) : p tree := by
  induction tree using childrenInduction with
  | leaf other => exact leaf other
  | branch group children ih =>
      induction children with
      | nil => exact empty group
      | cons child rest below =>
          exact cons group child rest (ih child List.mem_cons_self)
            (below fun other member => ih other (List.mem_cons_of_mem _ member))

theorem nodesOf_eq (children : List Tree) : nodesOf children = children.flatMap nodes := by
  induction children with
  | nil => rfl
  | cons child rest ih => simp [nodesOf, ih]

/-- The ids of the invocations. -/
def taskIds (tree : Tree) : List Nat := tree.tasks.map fun leaf => leaf.standing.id

/-- The ids of all nodes. -/
def nodeIds (tree : Tree) : List Nat := tree.nodes.map fun node => node.standing.id

theorem nodeIds_branch (group : Group) (children : List Tree) :
    (branch group children).nodeIds = group.standing.id :: children.flatMap nodeIds := by
  simp only [nodeIds, nodes, nodesOf_eq, List.map_cons, List.map_flatMap]
  rfl

/-- Each node comes before what lies below it. -/
theorem nodeIds_eq_cons (tree : Tree) : ∃ below, tree.nodeIds = tree.standing.id :: below := by
  cases tree with
  | task leaf => exact ⟨[], rfl⟩
  | branch group children => exact ⟨_, nodeIds_branch group children⟩

theorem childIds_sublist (children : List Tree) :
    (children.map fun child => child.standing.id).Sublist (children.flatMap nodeIds) := by
  induction children with
  | nil => exact List.Sublist.refl _
  | cons child rest ih =>
      obtain ⟨below, ids⟩ := nodeIds_eq_cons child
      rw [List.map_cons, List.flatMap_cons, ids]
      exact (ih.trans (List.sublist_append_right below _)).cons_cons _

theorem taskIds_cons :
    (branch group (child :: rest)).taskIds = child.taskIds ++ (branch group rest).taskIds := by
  simp [taskIds, tasks, tasksOf]

theorem tasks_sublist (inside : node ∈ tree.nodes) : node.tasks.Sublist tree.tasks := by
  induction tree using consInduction with
  | leaf leaf => exact List.mem_singleton.mp inside ▸ List.Sublist.refl _
  | empty group => exact List.mem_singleton.mp inside ▸ List.Sublist.refl _
  | cons group child rest ih ih' =>
      rcases List.mem_cons.mp inside with rfl | below
      · exact List.Sublist.refl _
      · rcases List.mem_append.mp below with here | there
        · exact (ih here).trans (List.sublist_append_left _ _)
        · exact (ih' (List.mem_cons_of_mem _ there)).trans (List.sublist_append_right _ _)

theorem nodes_sublist (inside : node ∈ tree.nodes) : node.nodes.Sublist tree.nodes := by
  induction tree using childrenInduction with
  | leaf leaf => exact List.mem_singleton.mp inside ▸ List.Sublist.refl _
  | branch group children ih =>
      rcases List.mem_cons.mp inside with rfl | below
      · exact List.Sublist.refl _
      · obtain ⟨child, member, inside⟩ := mem_nodesOf.mp below
        rw [nodes, nodesOf_eq]
        exact (ih child member inside).trans
          ((List.sublist_flatten_of_mem (List.mem_map_of_mem member)).trans (List.sublist_cons_self ..))

theorem distinct_below (distinct : tree.taskIds.Nodup) (inside : node ∈ tree.nodes) :
    node.taskIds.Nodup :=
  distinct.sublist ((tasks_sublist inside).map _)

theorem eq_of_id (distinct : tree.taskIds.Nodup) (member : leaf ∈ tree.tasks)
    (member' : other ∈ tree.tasks) (same : leaf.standing.id = other.standing.id) : leaf = other :=
  List.inj_on_of_nodup_map distinct member member' same

theorem id_mem_taskIds (member : leaf ∈ tree.tasks) : leaf.standing.id ∈ tree.taskIds :=
  List.mem_map_of_mem member

/-- No invocation lies in two children. -/
theorem children_apart (distinct : (branch group children).taskIds.Nodup) :
    children.Pairwise fun child other => ∀ leaf ∈ child.tasks, leaf ∉ other.tasks := by
  induction children with
  | nil => exact .nil
  | cons child rest ih =>
      rw [taskIds_cons, List.nodup_append] at distinct
      refine .cons (fun other member leaf inside inside' => ?_) (ih distinct.2.1)
      refine distinct.2.2 _ (id_mem_taskIds inside) _ (id_mem_taskIds ?_) rfl
      exact mem_tasksOf.mpr ⟨other, member, inside'⟩

end Tree

end BuildFlow
