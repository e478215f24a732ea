import BuildFlow.Proofs.Tree.Sweep
/-!
What a run cannot change about a tree: which nodes it has, what they are called,
how often they may be tried and how they report. It is what is left of a tree
once everything is reset to how it was declared.
-/
namespace BuildFlow

/-! ## Nodes -/

namespace Tree

/-- Induction over a tree, with the hypothesis for each child of a group. -/
@[elab_as_elim] theorem childrenInduction {p : Tree → Prop} (leaf : ∀ leaf, p (.task leaf))
    (branch : ∀ group children, (∀ child ∈ children, p child) → p (.branch group children))
    (tree : Tree) : p tree :=
  Tree.rec (motive_1 := p) (motive_2 := fun children => ∀ child ∈ children, p child)
    leaf branch (fun _ member => (List.not_mem_nil member).elim)
    (fun _ _ holds rest _ member =>
      (List.mem_cons.mp member).elim (fun same => same ▸ holds) (rest _)) tree

theorem mem_nodesOf {children : List Tree} {node : Tree} :
    node ∈ nodesOf children ↔ ∃ child ∈ children, node ∈ child.nodes := by
  induction children with
  | nil => simp [nodesOf]
  | cons child rest ih => simp [nodesOf, ih]

theorem mem_tasksOf {children : List Tree} {leaf : Task} :
    leaf ∈ tasksOf children ↔ ∃ child ∈ children, leaf ∈ child.tasks := by
  induction children with
  | nil => simp [tasksOf]
  | cons child rest ih => simp [tasksOf, ih]

theorem mem_tasks {tree : Tree} {leaf : Task} : leaf ∈ tree.tasks ↔ .task leaf ∈ tree.nodes := by
  induction tree using childrenInduction with
  | leaf other => simp [tasks, nodes]
  | branch group children ih =>
      have below : (∃ child ∈ children, leaf ∈ child.tasks) ↔
          ∃ child ∈ children, .task leaf ∈ child.nodes :=
        exists_congr fun child => and_congr_right (ih child)
      simp only [tasks, nodes, List.mem_cons, mem_tasksOf, mem_nodesOf, below, reduceCtorEq, false_or]

theorem self_mem_nodes (tree : Tree) : tree ∈ tree.nodes := by
  cases tree <;> simp [nodes]

theorem mem_nodes_of_child {tree : Tree} {group : Group} {children : List Tree} {child node : Tree}
    (inside : .branch group children ∈ tree.nodes) (member : child ∈ children)
    (below : node ∈ child.nodes) : node ∈ tree.nodes := by
  induction tree using childrenInduction with
  | leaf leaf => simp [nodes] at inside
  | branch group' children' ih =>
      simp only [nodes, List.mem_cons, mem_nodesOf] at inside ⊢
      right
      rcases inside with same | ⟨other, among, inside⟩
      · cases same
        exact ⟨child, member, below⟩
      · exact ⟨other, among, ih other among inside⟩

/-- Something holds of the node and of every node below it. -/
def Every (p : Tree → Prop) (tree : Tree) : Prop := ∀ node ∈ tree.nodes, p node

@[simp] theorem every_task {p : Tree → Prop} {leaf : Task} :
    (Tree.task leaf).Every p ↔ p (.task leaf) := by
  simp [Every, nodes]

@[simp] theorem every_branch {p : Tree → Prop} {group : Group} {children : List Tree} :
    (Tree.branch group children).Every p ↔
      p (.branch group children) ∧ ∀ child ∈ children, child.Every p := by
  simp only [Every, nodes, List.mem_cons, mem_nodesOf, forall_eq_or_imp]
  constructor
  · rintro ⟨here, below⟩
    exact ⟨here, fun child member node inside => below node ⟨child, member, inside⟩⟩
  · rintro ⟨here, below⟩
    exact ⟨here, fun node ⟨child, member, inside⟩ => below child member node inside⟩

theorem Every.self {p : Tree → Prop} {tree : Tree} (every : tree.Every p) : p tree :=
  every tree (self_mem_nodes tree)

/-- What holds below a node still does once the node is prepared. -/
theorem Every.prepared {p : Tree → Prop} {tree : Tree} (every : tree.Every p) {scope : Bool}
    (prepared : p (tree.prepare scope)) : (tree.prepare scope).Every p := by
  cases tree with
  | task leaf => exact every_task.mpr prepared
  | branch group children => exact every_branch.mpr ⟨prepared, (every_branch.mp every).2⟩

/-- What holds below a node still does once it is taken for finished. -/
theorem Every.finished {p : Tree → Prop} {tree : Tree} (every : tree.Every p) (finished : p tree.finish) :
    tree.finish.Every p := by
  cases tree with
  | task leaf => exact every_task.mpr finished
  | branch group children => exact every_branch.mpr ⟨finished, (every_branch.mp every).2⟩

theorem Every.mono {p q : Tree → Prop} {tree : Tree} (every : tree.Every p)
    (implies : ∀ node, p node → q node) : tree.Every q :=
  fun node member => implies node (every node member)

/-- What holds everywhere in a tree holds everywhere below a node of it. -/
theorem Every.within {p : Tree → Prop} {tree node : Tree} (every : tree.Every p)
    (inside : node ∈ tree.nodes) : node.Every p := by
  suffices starts : ∀ start : Tree, start ∈ tree.nodes → start.Every p from starts node inside
  intro start inside
  induction start using childrenInduction with
  | leaf leaf => exact every_task.mpr (every _ inside)
  | branch group children ih =>
      have here : p (.branch group children) := every _ inside
      have there : ∀ child ∈ children, child.Every p := fun child member =>
        ih child member (mem_nodes_of_child inside member (self_mem_nodes child))
      exact every_branch.mpr ⟨here, there⟩

end Tree

theorem map_set_same {α β : Type} {f : α → β} {list : List α} {index : Nat} {old new : α}
    (here : list[index]? = some old) (same : f new = f old) :
    (list.set index new).map f = list.map f := by
  have mapped : (list.map f)[index]? = some (f old) := by simp [here]
  obtain ⟨inside, found⟩ := List.getElem?_eq_some_iff.mp mapped
  rw [List.map_set, same, ← found, List.set_getElem_self]

/-! ## Everything as it was declared -/

def Standing.blank (standing : Standing) : Standing :=
  { standing with
    tried := 0
    totalTried := 0
    checking := .mustCheck
    result := .unknown
    invokedAt := .none }

def Task.blank (task : Task) : Task :=
  { task with
    standing := task.standing.blank
    resolved := false
    build := none
    oldBuild := none
    stopSent := false }

def Group.blank (group : Group) : Group :=
  { group with
    standing := group.standing.blank
    lastReport := .none
    aborted := false
    discipline := if group.isSerial then .serial 0 else .parallel ∅ }

namespace Tree

mutual

/-- The tree as it was declared. -/
def blank : Tree → Tree
  | .task leaf => .task leaf.blank
  | .branch group children => .branch group.blank (blanks children)

def blanks : List Tree → List Tree
  | [] => []
  | child :: rest => child.blank :: blanks rest

end

theorem blanks_eq (children : List Tree) : blanks children = children.map blank := by
  induction children with
  | nil => rfl
  | cons child rest ih => simp [blanks, ih]

/-- Nothing has been done with any node yet. -/
def IsFresh (tree : Tree) : Prop := tree.blank = tree

theorem map_blank {trees : List Tree} :
    trees.map blank = trees ↔ ∀ tree ∈ trees, tree.IsFresh := by
  simpa [IsFresh] using (List.map_inj_left : trees.map blank = trees.map id ↔ _)

theorem fresh_branch {group : Group} {children : List Tree} :
    (Tree.branch group children).IsFresh ↔
      group.blank = group ∧ ∀ child ∈ children, child.IsFresh := by
  simp only [IsFresh, blank, blanks_eq, Tree.branch.injEq]
  refine and_congr_right fun _ => ?_
  exact map_blank

theorem isUnchecked_blank (tree : Tree) :
    tree.blank.standing.isUnchecked = tree.standing.isUnchecked := by
  cases tree <;> rfl

theorem result_of_fresh {tree : Tree} (fresh : tree.IsFresh) : tree.standing.result = .unknown := by
  rw [← fresh]
  cases tree <;> rfl

@[simp] theorem blank_setStanding (tree : Tree) (standing : Standing)
    (same : standing.blank = tree.standing.blank) : (tree.setStanding standing).blank = tree.blank := by
  cases tree with
  | task leaf =>
      simp only [setStanding, blank, Task.blank]
      rw [same]
      rfl
  | branch group children =>
      simp only [setStanding, blank, Group.blank]
      rw [same]
      rfl

@[simp] theorem blank_finish (tree : Tree) : tree.finish.blank = tree.blank :=
  blank_setStanding _ _ rfl

end Tree

@[simp] theorem Standing.blank_prepare (standing : Standing) (scope : Bool) :
    (standing.prepare scope).blank = standing.blank := rfl

@[simp] theorem Standing.blank_exhaust (standing : Standing) :
    standing.exhaust.blank = standing.blank := rfl

namespace Group

@[simp] theorem isSerial_blank (group : Group) : group.blank.isSerial = group.isSerial := by
  cases discipline : group.discipline <;> simp [blank, isSerial, discipline]

@[simp] theorem blank_setCursor (group : Group) (cursor : Nat) :
    (group.setCursor cursor).blank = group.blank := by
  cases discipline : group.discipline <;> simp [setCursor, blank, isSerial, discipline]

@[simp] theorem blank_setFailed (group : Group) (failed : Table Nat String) :
    (group.setFailed failed).blank = group.blank := by
  cases discipline : group.discipline <;> simp [setFailed, blank, isSerial, discipline]

@[simp] theorem blank_prepare (group : Group) (scope : Bool) :
    (group.prepare scope).blank = group.blank := by
  cases discipline : group.discipline <;> simp [prepare, setCursor, blank, isSerial, discipline]

@[simp] theorem blank_begun (group : Group) (now : Instant) :
    (group.begun now).blank = group.blank := by
  unfold begun started
  split <;> split <;> rfl

end Group

@[simp] theorem Tree.blank_prepare (scope : Bool) (tree : Tree) :
    (tree.prepare scope).blank = tree.blank := by
  cases tree with
  | task => rfl
  | branch group children => simp [prepare, blank]

namespace Tree

theorem every_blank {p : Tree → Prop} {tree : Tree} :
    tree.blank.Every p ↔ tree.Every fun node => p node.blank := by
  induction tree using childrenInduction with
  | leaf leaf => simp only [blank, every_task]
  | branch group children ih =>
      have below : (∀ child ∈ children, child.blank.Every p) ↔
          ∀ child ∈ children, child.Every fun node => p node.blank :=
        forall₂_congr ih
      simp only [blank, every_branch, blanks_eq, List.forall_mem_map, below]

end Tree

/-! ## Checked invocations -/

namespace Tree

mutual

/-- The invocations that are not unchecked and lie in no unchecked group. -/
def checkedTasks : Tree → List Task
  | .task leaf => if leaf.isUnchecked then [] else [leaf]
  | .branch group children => if group.standing.isUnchecked then [] else checkedOf children

def checkedOf : List Tree → List Task
  | [] => []
  | child :: rest => child.checkedTasks ++ checkedOf rest

end

theorem checkedTasks_of_unchecked {tree : Tree} (unchecked : tree.standing.isUnchecked) :
    tree.checkedTasks = [] := by
  cases tree with
  | task leaf => exact if_pos unchecked
  | branch group children => exact if_pos unchecked

theorem mem_checkedOf {children : List Tree} {leaf : Task} :
    leaf ∈ checkedOf children ↔ ∃ child ∈ children, leaf ∈ child.checkedTasks := by
  induction children with
  | nil => simp [checkedOf]
  | cons child rest ih => simp [checkedOf, ih]

end Tree

theorem Tree.of_mem_checkedTasks {tree : Tree} {leaf : Task} (member : leaf ∈ tree.checkedTasks) :
    .task leaf ∈ tree.nodes ∧ leaf.isUnchecked = false := by
  induction tree using childrenInduction with
  | leaf other =>
      unfold checkedTasks at member
      split at member
      · cases member
      · next checked =>
          rw [List.mem_singleton.mp member]
          exact ⟨List.mem_singleton_self _, by simpa using checked⟩
  | branch group children ih =>
      unfold checkedTasks at member
      split at member
      · cases member
      · obtain ⟨child, inside, member⟩ := mem_checkedOf.mp member
        obtain ⟨below, checked⟩ := ih child inside member
        exact ⟨List.mem_cons_of_mem _ (mem_nodesOf.mpr ⟨child, inside, below⟩), checked⟩

namespace Tree

/-- The invocation is not unchecked itself, but it lies below an unchecked group. -/
def Hides (tree : Tree) (leaf : Task) : Prop :=
  leaf.isUnchecked = false ∧ ∃ node ∈ tree.nodes, node.standing.isUnchecked ∧ leaf ∈ node.tasks

/-- Invocations that are not unchecked are checked unless a group hides them. -/
theorem checked_or_hidden {tree : Tree} {leaf : Task} (member : leaf ∈ tree.tasks)
    (checked : leaf.isUnchecked = false) : leaf ∈ tree.checkedTasks ∨ tree.Hides leaf := by
  induction tree using childrenInduction with
  | leaf other =>
      left
      cases List.mem_singleton.mp member
      unfold checkedTasks
      rw [if_neg (Bool.eq_false_iff.mp checked)]
      exact member
  | branch group children ih =>
      by_cases unchecked : group.standing.isUnchecked
      · exact .inr ⟨checked, _, self_mem_nodes _, unchecked, member⟩
      · obtain ⟨child, among, inside⟩ := mem_tasksOf.mp member
        rcases ih child among inside with counts | ⟨-, node, below, hides⟩
        · left
          unfold checkedTasks
          rw [if_neg unchecked]
          exact mem_checkedOf.mpr ⟨child, among, counts⟩
        · exact .inr ⟨checked, node, mem_nodes_of_child (self_mem_nodes _) among below, hides⟩

end Tree

/-! ## Names -/

namespace Tree

/-- The names of the jobs that the tree invokes. -/
def names (tree : Tree) : List String := tree.tasks.map Task.name

@[simp] theorem names_task (leaf : Task) : (Tree.task leaf).names = [leaf.name] := rfl

theorem names_branch (group : Group) (children : List Tree) :
    (Tree.branch group children).names = children.flatMap names := by
  change (tasksOf children).map Task.name = _
  induction children with
  | nil => rfl
  | cons child rest ih => simp [tasksOf, names, ih]

theorem mem_names_branch {group : Group} {children : List Tree} {name : String} :
    name ∈ (Tree.branch group children).names ↔ ∃ child ∈ children, name ∈ child.names := by
  rw [names_branch, List.mem_flatMap]

/-- The children of a group have no names in common if no name occurs twice. -/
theorem apart_of_nodup {group : Group} {children : List Tree}
    (distinct : (Tree.branch group children).names.Nodup) {i j : Nat} {first second : Tree}
    (different : i ≠ j) (at' : children[i]? = some first) (later : children[j]? = some second) :
    ∀ name ∈ first.names, name ∉ second.names := by
  rw [names_branch, List.Nodup, List.pairwise_flatMap] at distinct
  have apart := List.pairwise_iff_getElem.mp distinct.2
  obtain ⟨inside, rfl⟩ := List.getElem?_eq_some_iff.mp at'
  obtain ⟨inside', rfl⟩ := List.getElem?_eq_some_iff.mp later
  intro name named named'
  rcases Nat.lt_or_gt_of_ne different with before | behind
  · exact apart i j inside inside' before name named name named' rfl
  · exact apart j i inside' inside behind name named' name named rfl

theorem nodup_of_child {group : Group} {children : List Tree}
    (distinct : (Tree.branch group children).names.Nodup) {child : Tree} (inside : child ∈ children) :
    child.names.Nodup := by
  rw [names_branch, List.Nodup, List.pairwise_flatMap] at distinct
  exact distinct.1 child inside

theorem names_blank (tree : Tree) : tree.blank.names = tree.names := by
  induction tree using childrenInduction with
  | leaf leaf => rfl
  | branch group children ih =>
      rw [blank, blanks_eq, names_branch, names_branch, List.flatMap_map, List.flatMap_def,
        List.flatMap_def, List.map_congr_left ih]

/-- The names in a part of a tree are among its names. -/
theorem names_of_mem_nodes {tree node : Tree} (member : node ∈ tree.nodes) {name : String}
    (named : name ∈ node.names) : name ∈ tree.names := by
  induction tree using childrenInduction with
  | leaf leaf => exact List.mem_singleton.mp member ▸ named
  | branch group children ih =>
      rcases List.mem_cons.mp member with same | deeper
      · exact same ▸ named
      · obtain ⟨child, inside, below⟩ := mem_nodesOf.mp deeper
        exact mem_names_branch.mpr ⟨child, inside, ih child inside below⟩

theorem names_of_layout {tree next : Tree} (layout : next.blank = tree.blank) :
    next.names = tree.names := by
  rw [← names_blank, layout, names_blank]

theorem checkedTasks_branch (group : Group) (children : List Tree) :
    (Tree.branch group children).checkedTasks =
      if group.standing.isUnchecked then [] else children.flatMap checkedTasks := by
  simp only [checkedTasks]
  split
  · rfl
  · induction children with
    | nil => rfl
    | cons child rest ih => simp [checkedOf, ih]

theorem checkedTasks_blank (tree : Tree) :
    tree.blank.checkedTasks = tree.checkedTasks.map Task.blank := by
  induction tree using childrenInduction with
  | leaf leaf =>
      simp only [blank, checkedTasks]
      split
      · next unchecked => rw [if_pos (by exact unchecked)]; rfl
      · next checked => rw [if_neg (by exact checked)]; rfl
  | branch group children ih =>
      rw [blank, blanks_eq, checkedTasks_branch, checkedTasks_branch, List.flatMap_map,
        List.flatMap_def, List.map_congr_left ih, ← List.flatMap_def, ← List.map_flatMap]
      rw [show group.blank.standing.isUnchecked = group.standing.isUnchecked from rfl]
      split <;> rfl

/-- The names of the jobs that the checked invocations run. -/
def checkedNames (tree : Tree) : List String := tree.checkedTasks.map Task.name

theorem checkedNames_blank (tree : Tree) : tree.blank.checkedNames = tree.checkedNames := by
  unfold checkedNames
  rw [checkedTasks_blank, List.map_map]
  rfl

theorem checkedNames_of_layout {tree next : Tree} (layout : next.blank = tree.blank) :
    next.checkedNames = tree.checkedNames := by
  rw [← checkedNames_blank, layout, checkedNames_blank]

theorem checkedNames_subset {tree : Tree} {name : String} (member : name ∈ tree.checkedNames) :
    name ∈ tree.names := by
  obtain ⟨leaf, checked, rfl⟩ := List.mem_map.mp member
  exact names_of_mem_nodes (of_mem_checkedTasks checked).1 (List.mem_singleton_self _)

end Tree

/-! ## Sweeps keep the layout -/

theorem Task.Attempted.blank {task after : Task} (attempted : Attempted task after) :
    after.blank = task.blank := by
  obtain ⟨_, _, _, _, rfl⟩ := attempted
  rfl

theorem Task.Follows.blank {now : Instant} {task after : Task} {world there : World}
    {answer : Except Halt Unit} (follows : Follows now task world answer after there) :
    after.blank = task.blank := by
  cases follows with
  | missing => rfl
  | waits finds begins => exact (finds.attempted.trans begins.attempted).blank
  | ends finds begins => exact (finds.attempted.trans begins.attempted).blank
  | strays attempted => exact attempted.blank
  | lost finds begins => exact (finds.attempted.trans begins.attempted).blank

namespace Branch

/-- The group and its children as they were declared. -/
def blank (branch : Branch) : Group × List Tree := (branch.1.blank, branch.2.map Tree.blank)

theorem blank_put {branch : Branch} {index : Nat} {child next : Tree}
    (here : branch.2[index]? = some child) (same : next.blank = child.blank) :
    (branch.put index next).blank = branch.blank :=
  Prod.ext rfl (map_set_same here same)

@[simp] theorem blank_leaving (branch : Branch) : branch.leaving.blank = branch.blank := by
  simp [leaving, blank]

theorem blank_aborting (branch : Branch) : branch.aborting.blank = branch.blank := by
  unfold aborting
  split
  · rw [blank_leaving]
    rfl
  · rfl

theorem blank_retried {branch : Branch} {index : Nat} {child : Tree}
    (here : branch.2[index]? = some child) :
    (branch.retried index child).blank = branch.blank := by
  unfold retried
  split
  · have prepared : (branch.2.take branch.reach).map (Tree.blank ∘ Tree.prepare child.standing.newScope) =
        (branch.2.take branch.reach).map Tree.blank :=
      List.map_congr_left fun other _ => Tree.blank_prepare _ other
    simp only [blank, Group.blank_setCursor, List.map_append, List.map_map, prepared]
    rw [← List.map_append, List.take_append_drop]
  · exact blank_put here (Tree.blank_prepare _ child)

theorem Answers.blank {branch next : Branch} {index : Nat} {child : Tree} {failure : JobFailure}
    {answer : Except Halt Bool} (answers : Answers branch index child failure answer next)
    (here : branch.2[index]? = some child) : next.blank = branch.blank := by
  have noted : (branch.noted child).blank = branch.blank := by simp [Branch.noted, Branch.blank]
  have here' : (branch.noted child).2[index]? = some child := here
  have finished : ((branch.noted child).put index child.finish).blank = branch.blank :=
    (blank_put here' (Tree.blank_finish child)).trans noted
  cases answers with
  | aborts => exact (blank_aborting _).trans finished
  | abortsUnchecked => exact finished
  | stays => exact noted
  | retries => exact (blank_retried here').trans noted
  | overdraws => exact noted
  | ends => exact (blank_leaving _).trans finished
  | endsUnchecked => exact finished

theorem blank_cleared (branch : Branch) (child : Tree) :
    (branch.cleared child).blank = branch.blank := by
  simp [cleared, Branch.blank]

theorem blank_begun (branch : Branch) (now : Instant) :
    (branch.begun now).blank = branch.blank :=
  Prod.ext (Group.blank_begun branch.1 now) rfl

theorem Pass.blank {course : Course Tree} (keeps : ∀ {child world answer next there},
      course child world answer next there → next.blank = child.blank)
    {indices : List Nat} {branch last : Branch} {world after : World} {status : Checking}
    {answer : Except Halt Checking}
    (pass : Pass course indices branch world status answer last after) :
    last.blank = branch.blank := by
  refine pass.keeps (p := fun middle _ => middle.blank = branch.blank) ?_ ?_ ?_ rfl
  · intro index middle world answer child next there same here _ visit
    exact (blank_put here (keeps visit)).trans same
  · intro middle world child same
    exact (blank_cleared middle child).trans same
  · intro index middle world child failure answer next same here answers
    exact (answers.blank here).trans same

theorem Closes.blank {now : Instant} {branch last : Branch} {status : Checking}
    {answer : Except Halt Unit} (closes : Closes now branch status answer last) :
    last.blank = branch.blank := by
  cases closes with
  | pending => rfl
  | overdue => rfl
  | fails => rfl
  | moves => exact Prod.ext (Group.blank_setCursor _ _) rfl
  | ends => exact Prod.ext (Group.blank_setCursor _ _) rfl

theorem blank_closed (branch : Branch) (status : Checking) :
    (branch.closed status).blank = branch.blank := by
  unfold closed
  split <;> rfl

end Branch

theorem Branch.length_of_layout {branch first : Branch} (layout : branch.blank = first.blank) :
    branch.2.length = first.2.length := by
  have lengths := congrArg List.length (Prod.mk.inj layout).2
  rwa [List.length_map, List.length_map] at lengths

/-- Each child of a group was there in any state of the same layout. -/
theorem Branch.child_of_layout {branch first : Branch} (layout : branch.blank = first.blank)
    {place : Nat} {child : Tree} (at' : branch.2[place]? = some child) :
    ∃ old, first.2[place]? = some old ∧ child.blank = old.blank := by
  have same : (branch.2.map Tree.blank)[place]? = (first.2.map Tree.blank)[place]? :=
    congrArg (fun blanks : List Tree => blanks[place]?) (Prod.mk.inj layout).2
  rw [List.getElem?_map, List.getElem?_map, at'] at same
  obtain ⟨old, held, blank⟩ := Option.map_eq_some_iff.mp same.symm
  exact ⟨old, held, blank.symm⟩

/-- The group and its children as a tree. -/
theorem Branch.blank_tree {branch first : Branch} (layout : branch.blank = first.blank) :
    (Tree.branch branch.1 branch.2).blank = (Tree.branch first.1 first.2).blank := by
  have parts := Prod.mk.inj layout
  simp only [Tree.blank, Tree.blanks_eq]
  rw [parts.1, parts.2]

theorem Branch.Sweeps.blank {now : Instant} {course : Course Tree}
    (keeps : ∀ {child world answer next there},
      course child world answer next there → next.blank = child.blank)
    {branch last : Branch} {world after : World} {answer : Except Halt Unit}
    (sweeps : Sweeps now course branch world answer last after) : last.blank = branch.blank := by
  have begun := blank_begun branch now
  cases sweeps with
  | halts pass => exact (pass.blank keeps).trans begun
  | closes pass closes =>
      exact ((closes.blank.trans (blank_closed _ _)).trans (pass.blank keeps)).trans begun

/-- A sweep changes nothing that was declared. -/
theorem Tree.Sweeps.blank {now : Instant} {tree next : Tree} {world after : World}
    {answer : Except Halt Unit} (sweeps : Tree.Sweeps now tree world answer next after) :
    next.blank = tree.blank := by
  refine sweeps.rule (p := fun tree _ _ next _ => next.blank = tree.blank) ?_ ?_
  · intro leaf world answer leaf' after follows
    exact congrArg Tree.task follows.blank
  · intro group children world answer group' children' after sweeps
    exact Branch.blank_tree (sweeps.blank fun visit => visit.2)

end BuildFlow
