import BuildFlow.Graph.Export
import BuildFlow.Proofs.Secrecy.Task
import BuildFlow.Proofs.Tree.Layout
/-!
A tree with the values of secret parameters hidden. What is told of a tree, the
graph included, is told just so of the veiled tree.
-/
namespace BuildFlow

namespace Tree

variable (paint : Pattern → Params → Params)

mutual

/-- Changes the parameters of all invocations. -/
def repaint : Tree → Tree
  | .task leaf => .task (leaf.repaint paint)
  | .branch group children => .branch group (repaintAll children)

def repaintAll : List Tree → List Tree
  | [] => []
  | child :: rest => child.repaint :: repaintAll rest

end

theorem repaintAll_eq_map (children : List Tree) :
    repaintAll paint children = children.map (repaint paint) := by
  induction children with
  | nil => rfl
  | cons child rest ih => rw [repaintAll, ih, List.map_cons]

/-- The tree with the secret values of all invocations hidden. -/
def veil (tree : Tree) : Tree := tree.repaint fun secret params => params.mask secret

@[simp] theorem repaint_branch (group : Group) (children : List Tree) :
    repaint paint (.branch group children) = .branch group (children.map (repaint paint)) := by
  rw [repaint, repaintAll_eq_map]

@[simp] theorem repaint_task (leaf : Task) :
    repaint paint (.task leaf) = .task (leaf.repaint paint) := by
  rw [repaint]

variable (tree : Tree)

@[simp] theorem standing_repaint : (tree.repaint paint).standing = tree.standing := by
  cases tree <;> simp [standing, Task.repaint]

@[simp] theorem setStanding_repaint (standing : Standing) :
    (tree.repaint paint).setStanding standing = (tree.setStanding standing).repaint paint := by
  cases tree <;> simp [setStanding, Task.repaint]

@[simp] theorem finish_repaint : (tree.repaint paint).finish = tree.finish.repaint paint := by
  simp [finish]

@[simp] theorem prepare_repaint (newScope : Bool) :
    (tree.repaint paint).prepare newScope = (tree.prepare newScope).repaint paint := by
  cases tree <;> simp [prepare, Task.repaint, Task.prepare]

@[simp] theorem checking_repaint : (tree.repaint paint).checking = tree.checking :=
  congrArg Standing.checking (standing_repaint paint tree)

@[simp] theorem result_repaint : (tree.repaint paint).result = tree.result :=
  congrArg Standing.result (standing_repaint paint tree)

@[simp] theorem canPrepare_repaint (newScope : Bool) :
    (tree.repaint paint).canPrepare newScope = tree.canPrepare newScope :=
  congrArg (Standing.canPrepare · newScope) (standing_repaint paint tree)

@[simp] theorem isEmpty_children_repaint :
    (tree.repaint paint).children.isEmpty = tree.children.isEmpty := by
  cases tree <;> simp [children]

theorem heightOf_map {change : Tree → Tree} {children : List Tree}
    (same : ∀ child ∈ children, (change child).height = child.height) :
    heightOf (children.map change) = heightOf children := by
  induction children with
  | nil => rfl
  | cons child rest ih =>
      rw [List.map_cons, heightOf, heightOf, same child List.mem_cons_self,
        ih fun other member => same other (List.mem_cons_of_mem _ member)]

@[simp] theorem height_repaint : (tree.repaint paint).height = tree.height := by
  induction tree using childrenInduction with
  | leaf => simp [height]
  | branch group children ih => rw [repaint_branch, height, height, heightOf_map ih]

theorem sequences_map {change : Tree → Tree} {children : List Tree}
    (same : ∀ child ∈ children, (change child).sequence = child.sequence) :
    sequences (children.map change) = sequences children := by
  induction children with
  | nil => rfl
  | cons child rest ih =>
      rw [List.map_cons, sequences, sequences, same child List.mem_cons_self,
        ih fun other member => same other (List.mem_cons_of_mem _ member)]

@[simp] theorem sequence_repaint : (tree.repaint paint).sequence = tree.sequence := by
  induction tree using childrenInduction with
  | leaf => simp [sequence, Task.repaint]
  | branch group children ih => rw [repaint_branch, sequence, sequence, sequences_map ih]

theorem tasksOf_map {children : List Tree}
    (same : ∀ child ∈ children, (child.repaint paint).tasks = child.tasks.map (Task.repaint paint)) :
    tasksOf (children.map (repaint paint)) = (tasksOf children).map (Task.repaint paint) := by
  induction children with
  | nil => rfl
  | cons child rest ih =>
      rw [List.map_cons, tasksOf, tasksOf, List.map_append, same child List.mem_cons_self,
        ih fun other member => same other (List.mem_cons_of_mem _ member)]

@[simp] theorem tasks_repaint :
    (tree.repaint paint).tasks = tree.tasks.map (Task.repaint paint) := by
  induction tree using childrenInduction with
  | leaf => simp [tasks]
  | branch group children ih => rw [repaint_branch, tasks, tasks, tasksOf_map paint ih]

@[simp] theorem standing_veil : tree.veil.standing = tree.standing := standing_repaint _ tree
@[simp] theorem finish_veil : tree.veil.finish = tree.finish.veil := finish_repaint _ tree
@[simp] theorem sequence_veil : tree.veil.sequence = tree.sequence := sequence_repaint _ tree
@[simp] theorem height_veil : tree.veil.height = tree.height := height_repaint _ tree

/-! ## The graph -/

theorem lastOf_map {children : List Tree}
    (same : ∀ child ∈ children,
      (child.repaint paint).lastTasks = child.lastTasks.map (Task.repaint paint)) :
    lastOf (children.map (repaint paint)) = (lastOf children).map (Task.repaint paint) := by
  induction children with
  | nil => rfl
  | cons child rest ih =>
      rw [List.map_cons, lastOf, lastOf, same child List.mem_cons_self,
        ih fun other member => same other (List.mem_cons_of_mem _ member)]
      cases lastOf rest <;> rfl

theorem allLast_map {children : List Tree}
    (same : ∀ child ∈ children,
      (child.repaint paint).lastTasks = child.lastTasks.map (Task.repaint paint)) :
    allLast (children.map (repaint paint)) = (allLast children).map (Task.repaint paint) := by
  induction children with
  | nil => rfl
  | cons child rest ih =>
      rw [List.map_cons, allLast, allLast, List.map_append, same child List.mem_cons_self,
        ih fun other member => same other (List.mem_cons_of_mem _ member)]

theorem lastTasks_repaint :
    (tree.repaint paint).lastTasks = tree.lastTasks.map (Task.repaint paint) := by
  induction tree using childrenInduction with
  | leaf leaf =>
      have unchecked : (leaf.repaint paint).isUnchecked = leaf.isUnchecked := rfl
      rw [repaint_task, lastTasks, lastTasks, unchecked]
      split <;> rfl
  | branch group children ih =>
      rw [repaint_branch, lastTasks, lastTasks, lastOf_map paint ih, allLast_map paint ih]
      split <;> rfl

end Tree

namespace Graph.Style

open BuildFlow.Tree

variable (style : Style) (paint : Pattern → Params → Params)

theorem links_repaint (tree : Tree) (before : List Task) :
    style.links (tree.repaint paint) (before.map (Task.repaint paint)) = style.links tree before := by
  induction tree using childrenInduction generalizing before with
  | leaf leaf =>
      simp only [repaint_task, links, List.map_map]
      rfl
  | branch group children ih =>
      have serial : ∀ before, style.serialLinks (children.map (repaint paint))
          (before.map (Task.repaint paint)) = style.serialLinks children before := by
        induction children with
        | nil => exact fun _ => rfl
        | cons child rest ihRest =>
            intro before
            rw [List.map_cons, serialLinks, serialLinks, ih child List.mem_cons_self,
              lastTasks_repaint, ihRest fun other member => ih other (List.mem_cons_of_mem _ member)]
      have parallel : ∀ before, style.parallelLinks (children.map (repaint paint))
          (before.map (Task.repaint paint)) = style.parallelLinks children before := by
        intro before
        clear serial
        induction children with
        | nil => rfl
        | cons child rest ihRest =>
            rw [List.map_cons, parallelLinks, parallelLinks, ih child List.mem_cons_self,
              ihRest fun other member => ih other (List.mem_cons_of_mem _ member)]
      rw [repaint_branch, links, links, serial, parallel]

theorem node_veil (task : Task) : style.node task.veil = style.node task := by
  unfold node
  rw [Task.shownParams_veil]
  rfl

theorem write_veil (root : Tree) : style.write root.veil = style.write root := by
  have nodes : root.veil.tasks.map style.node = root.tasks.map style.node := by
    unfold Tree.veil
    rw [tasks_repaint, List.map_map]
    exact List.map_congr_left fun task _ => node_veil style task
  have links : style.links root.veil [] = style.links root [] := links_repaint style _ root []
  unfold write graph
  rw [nodes, links]

end Graph.Style

end BuildFlow
