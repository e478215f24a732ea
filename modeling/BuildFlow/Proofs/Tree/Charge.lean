import BuildFlow.Proofs.Tree.Ceiling
/-!
Builds and attempts. An invocation starts one build in an attempt, so the builds of a
job are paid for by the attempts of the invocations that run it.
-/
namespace BuildFlow

/-- The end of a step whose job is gone, or whose build has an end that cannot be
told. -/
def Halt.Astray : Halt → Prop
  | .broken .ticks => True
  | .error (.runner (.unknownJob _)) => True
  | _ => False

/-- The answer does not come from a step that went astray. -/
def Direct {α : Type} (answer : Except Halt α) : Prop :=
  ∀ halt, answer = .error halt → ¬ halt.Astray

/-- A halt tells the same whatever was to be answered. -/
theorem Direct.halts {α β : Type} {halt : Halt} (direct : Direct (.error halt : Except Halt α)) :
    Direct (.error halt : Except Halt β) :=
  fun other same => direct other (congrArg _ (Except.error.inj same))

namespace Tree

/-- The attempts of a node at a job, with one more for the attempt at work. -/
def charge (name : String) : Tree → Nat
  | .task leaf =>
      if leaf.name = name then
        leaf.standing.totalTried + if leaf.standing.isInvoked then 1 else 0
      else 0
  | .branch _ _ => 0

/-- The builds that were started are charged to the tree. -/
def Charges (name : String) (tree : Tree) (world : World) (next : Tree) (after : World) : Prop :=
  (after.runner.buildsOf name).length + tree.sum (charge name) ≤
    (world.runner.buildsOf name).length + next.sum (charge name)

theorem charge_finish (name : String) (tree : Tree) :
    tree.finish.sum (charge name) = tree.sum (charge name) := by
  cases tree <;> rfl

theorem charge_prepare (name : String) (tree : Tree) (scope : Bool) :
    tree.sum (charge name) ≤ (tree.prepare scope).sum (charge name) := by
  cases tree with
  | task leaf =>
      simp only [prepare, sum_task, charge, Task.prepare, Standing.prepare]
      split
      · split <;> split <;> omega
      · exact Nat.le_refl _
  | branch group children => simp [prepare, charge]

end Tree

namespace Task

/-- A build that is started belongs to an attempt that begins. -/
theorem Begun.charges {now : Instant} (set : now.isSet) {task begun : Task} {world after : World}
    (begins : Begun now task world begun after) (name : String) :
    Tree.Charges name (.task task) world (.task begun) after := by
  have fresh : task.standing.isInvoked = false → (Tree.task task).sum (Tree.charge name) =
      if task.name = name then task.standing.totalTried else 0 := by
    intro uninvoked
    simp [Tree.charge, uninvoked]
  have going : ∀ build, (Tree.task { task.begun now with build }).sum (Tree.charge name) =
      if task.name = name then task.standing.totalTried + 1 else 0 := by
    intro build
    have invoked : (task.begun now).standing.isInvoked := set
    rw [Tree.sum_task, Tree.charge]
    simp only [invoked, ↓reduceIte]
    rfl
  -- An attempt is charged once it has begun, so the build that it starts is.
  unfold Tree.Charges
  cases begins with
  | going => exact Nat.le_refl _
  | joins uninvoked =>
      have charged := going task.build
      rw [fresh uninvoked, show task.begun now = { task.begun now with build := task.build } from rfl,
        charged]
      split <;> omega
  | @starts uninvoked _ _ ref _ invoked =>
      rw [fresh uninvoked, going (some ref), Runner.length_invoked invoked name]
      by_cases named : name = task.name
      · rw [if_pos named, if_pos named.symm, if_pos named.symm]
        omega
      · rw [if_neg named, if_neg (Ne.symm named), if_neg (Ne.symm named)]

theorem Follows.charges {now : Instant} (set : now.isSet) {task next : Task} {world after : World}
    {answer : Except Halt Unit} (follows : Follows now task world answer next after)
    (direct : Direct answer) (name : String) :
    Tree.Charges name (.task task) world (.task next) after := by
  have found : ∀ {found : Task} {there : World}, Found task world found there →
      Tree.Charges name (.task found) there (.task next) after →
      Tree.Charges name (.task task) world (.task next) after := by
    intro found there finds charges
    unfold Tree.Charges at charges ⊢
    simp only [Tree.sum_task, Tree.charge] at charges ⊢
    rwa [finds.buildsOf, finds.standing, finds.attempted.name] at charges
  cases follows with
  | missing =>
      unfold Tree.Charges
      rw [Runner.buildsOf_lookup]
      exact Nat.le_refl _
  | waits finds begins => exact found finds (begins.charges set name)
  | ends finds begins => exact found finds (begins.charges set name)
  | strays _ _ _ strays =>
      exfalso
      apply direct _ rfl
      cases strays <;> trivial
  | lost finds begins => exact found finds (begins.charges set name)

end Task

namespace Branch

variable {name : String}

/-- What is charged to the children of a group. -/
def load (name : String) (branch : Branch) : Nat :=
  (branch.2.map (Tree.sum (Tree.charge name))).sum

theorem load_put {branch : Branch} {index : Nat} {child : Tree}
    (here : branch.2[index]? = some child) (next : Tree) :
    (branch.put index next).load name + child.sum (Tree.charge name) =
      branch.load name + next.sum (Tree.charge name) :=
  Tree.sum_map_set _ here next

theorem load_restarted (branch : Branch) (scope : Bool) :
    branch.load name ≤ ((branch.restarted scope).map (Tree.sum (Tree.charge name))).sum := by
  have split : branch.load name =
      ((branch.2.take branch.reach).map (Tree.sum (Tree.charge name))).sum +
        ((branch.2.drop branch.reach).map (Tree.sum (Tree.charge name))).sum := by
    rw [load, ← List.sum_append, ← List.map_append, List.take_append_drop]
  rw [split, restarted, List.map_append, List.sum_append, List.map_map]
  apply Nat.add_le_add_right
  exact List.sum_le_sum fun child _ => Tree.charge_prepare name child scope

/-- An answer takes back nothing that is charged. -/
theorem Answers.load {branch next : Branch} {index : Nat} {child : Tree} {failure : JobFailure}
    {answer : Except Halt Bool} (answers : Answers branch index child failure answer next)
    (here : branch.2[index]? = some child) : branch.load name ≤ next.load name := by
  have put : ∀ new : Tree, child.sum (Tree.charge name) ≤ new.sum (Tree.charge name) →
      branch.load name ≤ (branch.put index new).load name := by
    intro new more
    have := @load_put name _ _ _ here new
    omega
  have listed := answers.listed
  unfold Branch.load at put ⊢
  rcases listed with same | same | ⟨-, same⟩ <;> rw [same]
  · exact put _ (Nat.le_of_eq (Tree.charge_finish name child).symm)
  · unfold retried
    split
    · exact branch.load_restarted _
    · exact put _ (Tree.charge_prepare name child _)

/-- The visits whose builds are charged to the child. -/
def chargeCourse (name : String) : Course Tree := fun child world answer next after =>
  Direct answer → Tree.Charges name child world next after

theorem Pass.charges {indices : List Nat} {branch last : Branch} {world after : World}
    {status : Checking} {answer : Except Halt Checking}
    (pass : Pass (chargeCourse name) indices branch world status answer last after)
    (direct : Direct answer) :
    (after.runner.buildsOf name).length + branch.load name ≤
      (world.runner.buildsOf name).length + last.load name := by
  have failed : ∀ failure, Direct (failedBy failure) := by
    intro failure halt same
    cases same
    exact fun astray => astray
  have visited : ∀ {branch : Branch} {index : Nat} {child next : Tree} {world there : World},
      branch.2[index]? = some child → Tree.Charges name child world next there →
      (there.runner.buildsOf name).length + branch.load name ≤
        (world.runner.buildsOf name).length + (branch.put index next).load name := by
    intro branch index child next world there here charges
    have put := @load_put name _ _ _ here next
    unfold Tree.Charges at charges
    omega
  -- By induction on the pass: no visit and no answer adds builds that are not charged.
  induction pass with
  | done => exact Nat.le_refl _
  | skips _ _ ih => exact ih direct
  | @passes index _ branch _ _ _ _ _ _ child next here _ visit _ ih =>
      have charged := visited here (visit nofun)
      have onward := ih direct
      have cleared : ((branch.put index next).cleared next).load name =
          (branch.put index next).load name := rfl
      omega
  | fails here _ visit answers _ ih =>
      have charged := visited here (visit (failed _))
      have onward := ih direct
      have answered := @Answers.load name _ _ _ _ _ _ answers (getElem?_put_self here _)
      omega
  | breaks here _ visit answers =>
      have charged := visited here (visit (failed _))
      have answered := @Answers.load name _ _ _ _ _ _ answers (getElem?_put_self here _)
      omega
  | halts here _ visit =>
      refine visited here (visit ?_)
      intro halt same
      cases same
      exact direct _ rfl

end Branch

/-- The builds that a sweep starts are charged to the tree. -/
theorem Tree.Sweeps.charges {now : Instant} (set : now.isSet) {tree next : Tree}
    {world after : World} {answer : Except Halt Unit}
    (sweeps : Tree.Sweeps now tree world answer next after) (direct : Direct answer)
    (name : String) : tree.Charges name world next after := by
  refine sweeps.rule (p := Branch.chargeCourse name) ?_ ?_ direct
  · exact fun follows direct => follows.charges set direct name
  · intro group children world answer group' children' after sweeps direct
    have load : ∀ branch : Branch,
        (Tree.branch branch.1 branch.2).sum (charge name) = branch.load name := by
      intro branch
      rw [sum_branch, charge, Nat.zero_add]
      rfl
    unfold Charges
    rw [load (group, children), load (group', children')]
    have onward := sweeps.mono fun visit => visit.2
    cases onward with
    | halts pass =>
        apply pass.charges
        intro halt same
        cases same
        exact direct _ rfl
    | closes pass closes =>
        have charged := pass.charges nofun
        have same : children' = _ := closes.children
        unfold Branch.load at charged ⊢
        rw [same]
        exact charged

end BuildFlow
