import BuildFlow.Proofs.Tree.Single
/-!
Properties of invocations in trees without unchecked nodes, where every serial group begins with a
child that reports everything. There an invocation is tried again only when it is finished, so a
property lasts if it survives that, the steps of the invocation itself, and what happens to others.
-/
namespace BuildFlow

namespace Task

/-- A property of an invocation that lasts while it is looked after. -/
structure Tended (before : Runner) (p : Runner → Task → Prop) : Prop where
  later : ∀ {runner after : Runner} {task : Task},
    after.buildsOf task.name = runner.buildsOf task.name → p runner task → p after task
  prepare : ∀ {runner : Runner} {task : Task} (scope : Bool), task.standing.isFinished →
    p runner task → p runner (task.prepare scope)
  follows : ∀ {now : Instant} {task next : Task} {world after : World} {answer : Except Halt Unit},
    now.isSet → Follows now task world answer next after → Answered answer →
    task.standing.isFinished = false → task.Covered before world.runner → p world.runner task →
    p after.runner next

end Task

namespace Tree

variable {before runner after : Runner} {p : Runner → Task → Prop} {tree : Tree}

/-- A property of all invocations of a tree. -/
def Leaves (p : Runner → Task → Prop) (runner : Runner) (tree : Tree) : Prop :=
  ∀ leaf ∈ tree.tasks, p runner leaf

theorem leaves_branch {group : Group} {children : List Tree} :
    (Tree.branch group children).Leaves p runner ↔ ∀ child ∈ children, child.Leaves p runner := by
  constructor
  · exact fun leaves child among leaf inside => leaves leaf (mem_tasks_branch.mpr ⟨child, among, inside⟩)
  · intro leaves leaf member
    obtain ⟨child, among, inside⟩ := mem_tasks_branch.mp member
    exact leaves child among leaf inside

theorem Leaves.later (leaves : tree.Leaves p runner) (tended : Task.Tended before p)
    (same : ∀ name ∈ tree.names, after.buildsOf name = runner.buildsOf name) :
    tree.Leaves p after :=
  fun leaf member => tended.later (same leaf.name (List.mem_map_of_mem member)) (leaves leaf member)

theorem Leaves.prepare (leaves : tree.Leaves p runner) (tended : Task.Tended before p)
    (finished : tree.standing.isFinished) (scope : Bool) : (tree.prepare scope).Leaves p runner := by
  cases tree with
  | task leaf =>
      intro other member
      rw [List.mem_singleton.mp member]
      exact tended.prepare scope finished (leaves leaf (List.mem_singleton_self leaf))
  | branch group children => exact leaves

end Tree

namespace Branch

/-- The visits that keep what holds of invocations. -/
def tendCourse (before : Runner) (p : Runner → Task → Prop) : Course Tree :=
  fun child world answer next after => Answered answer → child.standing.isFinished = false →
    child.Watched before world.runner → child.Leaves p world.runner → next.Leaves p after.runner

/-- The visits to children, with what they keep. -/
abbrev tending (now : Instant) (before : Runner) (p : Runner → Task → Prop) : Course Tree :=
  fun child world answer next after =>
    Tree.Sweeps now child world answer next after ∧ tendCourse before p child world answer next after

variable {before : Runner} {p : Runner → Task → Prop} {now : Instant} {index : Nat}
  {indices : List Nat} {branch next last : Branch} {world there after : World} {status : Checking}
  {child visited : Tree} {failure : JobFailure} {answer : Except Halt Unit} {again : Bool}

/-- A visit keeps what holds below the child, and builds nothing for the others. -/
theorem put_leaves (tended : Task.Tended before p) (watched : branch.Watched before world.runner)
    (here : branch.2[index]? = some child) (unfinished : child.standing.isFinished = false)
    (visit : tending now before p child world answer visited there) (answered : Answered answer)
    (leaves : ∀ child ∈ branch.2, child.Leaves p world.runner) :
    ∀ other ∈ (branch.put index visited).2, other.Leaves p there.runner := by
  have member := List.mem_of_getElem? here
  refine put_all (visit.2 answered unfinished (watched.child member) (leaves child member)) ?_
  intro place other different at'
  exact (leaves other (List.mem_of_getElem? at')).later tended
    (spares watched.distinct here visit.1 answered different at')

theorem Single.leaves (set : now.isSet) (tended : Task.Tended before p)
    (single : Single (tending now before p) branch world (.ok status) last after)
    (serial : branch.1.isSerial) (reached : Reached before branch world)
    (leaves : ∀ child ∈ branch.2, child.Leaves p world.runner) :
    ∀ child ∈ last.2, child.Leaves p after.runner := by
  have watched := reached.watched
  cases single with
  | rests => exact leaves
  | passes here unfinished visit => exact put_leaves tended watched here unfinished visit .ok leaves
  | @fails child visited there failure again _ here unfinished visit answers =>
      have kept := put_leaves tended watched here unfinished visit (.failed failure) leaves
      obtain ⟨covered, finished⟩ :=
        sweep_covered set watched here unfinished visit.1 (.failed failure)
      have finished := finished failure rfl
      rcases answers.upright (getElem?_put_self here visited) covered.self.upright.checked finished with
        ⟨same, -, -⟩ | ⟨-, same, -⟩
      · exact same ▸ kept
      · have around := (reached.around serial).put watched.distinct here visit.1 (.failed failure)
        intro other member
        refine retried_all here around finished (fun old member finished scope => ?_)
          (fun place other different at' => ?_) other (same ▸ member)
        · exact (kept old member).prepare tended finished scope
        · exact kept other (List.mem_of_getElem? at')

theorem Pass.leaves (set : now.isSet) (tended : Task.Tended before p)
    (pass : Pass (tending now before p) indices branch world status (.ok final) last after)
    (covered : PassCovered before indices branch world status)
    (leaves : ∀ child ∈ branch.2, child.Leaves p world.runner) :
    ∀ child ∈ last.2, child.Leaves p after.runner := by
  refine (pass.arrives (p := fun indices branch world status =>
    PassCovered before indices branch world status ∧
      ∀ child ∈ branch.2, child.Leaves p world.runner) ?_ ?_ ?_ ⟨covered, leaves⟩).2
  · rintro index rest branch world status ⟨covered, leaves⟩ finished
    exact ⟨covered.skips finished, leaves⟩
  · rintro index rest branch world status child next there ⟨covered, leaves⟩ here unfinished visit
    exact ⟨covered.swept set here unfinished visit.1,
      put_leaves tended covered.watched here unfinished visit .ok leaves⟩
  · rintro index rest branch world status child visited there failure again answered
      ⟨covered, leaves⟩ here unfinished visit answers
    have kept := put_leaves tended covered.watched here unfinished visit (.failed failure) leaves
    obtain ⟨below, finished⟩ :=
      sweep_covered set covered.watched here unfinished visit.1 (.failed failure)
    have finished := finished failure rfl
    -- Beside the failed child, which may be finished or tried again, the answer changes nothing.
    obtain ⟨new, same, attempt⟩ := answers.alone (getElem?_put_self here visited)
      below.self.upright.checked finished covered.parallel
    refine ⟨covered.answered set here unfinished visit.1 answers, fun other member => ?_⟩
    rw [same] at member
    have placed := kept visited (List.mem_of_getElem? (getElem?_put_self here visited))
    rcases List.mem_or_eq_of_mem_set member with old | rfl
    · exact kept other old
    · rcases attempt with rfl | ⟨-, scope, rfl⟩
      · exact placed
      · exact placed.prepare tended finished scope

theorem Sweeps.leaves (set : now.isSet) (tended : Task.Tended before p) {group group' : Group}
    {children children' : List Tree}
    (sweeps : Sweeps now (tending now before p) (group, children) world answer (group', children') after)
    (answered : Answered answer) (unfinished : group.standing.isFinished = false)
    (watched : (Tree.branch group children).Watched before world.runner)
    (leaves : ∀ child ∈ children, child.Leaves p world.runner) :
    ∀ child ∈ children', child.Leaves p after.runner := by
  have reached := reached_begun now unfinished watched
  cases sweeps with
  | halts pass => cases answered; exact absurd rfl (pass.hard _)
  | @closes passed _ _ _ _ pass closes =>
      have same : children' = passed.2 := closes.children
      rw [same]
      cases kind : (begun (group, children) now).1.isSerial with
      | true =>
          exact (pass.single kind (reached.around kind).waits.1).leaves set tended kind reached leaves
      | false => exact pass.leaves set tended (reached.start kind) leaves

end Branch

/-- What lasts while invocations are looked after is kept by sweeps. -/
theorem Tree.Sweeps.leaves {before : Runner} {p : Runner → Task → Prop} {now : Instant}
    (set : now.isSet) (tended : Task.Tended before p) {tree next : Tree} {world after : World}
    {answer : Except Halt Unit} (sweeps : Tree.Sweeps now tree world answer next after)
    (answered : Answered answer) (unfinished : tree.standing.isFinished = false)
    (watched : tree.Watched before world.runner) (leaves : tree.Leaves p world.runner) :
    next.Leaves p after.runner := by
  refine Sweeps.rule (p := Branch.tendCourse before p) ?_ ?_ sweeps answered unfinished watched leaves
  · intro leaf world answer leaf' after follows answered unfinished watched leaves other member
    rw [List.mem_singleton.mp member]
    exact tended.follows set follows answered unfinished watched.covered.self
      (leaves leaf (List.mem_singleton_self leaf))
  · intro group children world answer group' children' after sweeps answered unfinished watched leaves
    exact leaves_branch.mpr
      (sweeps.leaves set tended answered unfinished watched (leaves_branch.mp leaves))

end BuildFlow
