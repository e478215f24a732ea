import Mathlib.Algebra.GroupWithZero.Nat
import BuildFlow.Proofs.Tree.Sound
/-!
What a tree may still spend before it has to come to an end. No single count of
tries goes down all the time: a restart sets back the tries of a scope, and a
new attempt sets back the cursor. Of the three sums below each later one may only
go up when an earlier one goes down, and a sweep that spends nothing starts no
build.
-/
namespace BuildFlow

/-- Sums over a tree, the first being the weightiest. -/
structure Budget where
  /-- Failures that all retry scopes together allow. -/
  total : Nat
  /-- Failures that the current retry scopes allow. -/
  scope : Nat
  /-- Steps that the current attempts allow. -/
  steps : Nat

namespace Budget

def Less (left right : Budget) : Prop :=
  left.total < right.total ∨ left.total = right.total ∧
    (left.scope < right.scope ∨ left.scope = right.scope ∧ left.steps < right.steps)

def AtMost (left right : Budget) : Prop :=
  left.total < right.total ∨ left.total = right.total ∧
    (left.scope < right.scope ∨ left.scope = right.scope ∧ left.steps ≤ right.steps)

theorem AtMost.refl (budget : Budget) : budget.AtMost budget := by
  unfold AtMost
  omega

theorem AtMost.trans {first second third : Budget} (left : first.AtMost second)
    (right : second.AtMost third) : first.AtMost third := by
  unfold AtMost at *
  omega

theorem Less.atMost {left right : Budget} (less : left.Less right) : left.AtMost right := by
  unfold AtMost
  unfold Less at less
  omega

theorem Less.before {first second third : Budget} (left : first.Less second)
    (right : second.AtMost third) : first.Less third := by
  unfold AtMost at right
  unfold Less at *
  omega

theorem Less.after {first second third : Budget} (left : first.AtMost second)
    (right : second.Less third) : first.Less third := by
  unfold AtMost at left
  unfold Less at *
  omega

theorem AtMost.eq {left right : Budget} (atMost : left.AtMost right) (still : ¬ left.Less right) :
    left = right := by
  obtain ⟨total, scope, steps⟩ := left
  obtain ⟨total', scope', steps'⟩ := right
  unfold AtMost at atMost
  unfold Less at still
  dsimp only at atMost still
  simp only [Budget.mk.injEq]
  omega

theorem AtMost.total {left right : Budget} (atMost : left.AtMost right) :
    left.total ≤ right.total := by
  unfold AtMost at atMost
  omega

theorem AtMost.scope {left right : Budget} (atMost : left.AtMost right)
    (same : right.total ≤ left.total) : left.scope ≤ right.scope := by
  unfold AtMost at atMost
  omega

theorem atMost_of_le {left right : Budget} (total : left.total ≤ right.total)
    (scope : left.scope ≤ right.scope) (steps : left.steps ≤ right.steps) :
    left.AtMost right := by
  unfold AtMost
  omega

end Budget

namespace Standing

/-- One more where the attempt has no result yet. -/
def awaited (standing : Standing) : Nat := if standing.result = .unknown then 1 else 0

/-- One more where the attempt has not begun yet. -/
def unbegun (standing : Standing) : Nat := if standing.isInvoked then 0 else 1

/-- The failures to come that all scopes together allow. -/
def totalLeft (standing : Standing) : Nat :=
  standing.remainingTotalTries - (1 - standing.awaited)

/-- The failures to come that the current scope allows. -/
def scopeLeft (standing : Standing) : Nat := standing.remainingTries - (1 - standing.awaited)

theorem totalLeft_prepare (standing : Standing) (scope : Bool) :
    (standing.prepare scope).totalLeft ≤ standing.totalLeft := by
  simp only [totalLeft, awaited, prepare, remainingTotalTries]
  split <;> simp <;> omega

theorem scopeLeft_prepare (standing : Standing) :
    (standing.prepare false).scopeLeft ≤ standing.scopeLeft := by
  by_cases unknown : standing.result = .unknown <;>
    simp [scopeLeft, awaited, prepare, remainingTries, unknown] <;> omega

theorem totalLeft_exhaust (standing : Standing) : standing.exhaust.totalLeft = 0 := by
  simp [totalLeft, exhaust, remainingTotalTries]

theorem scopeLeft_exhaust (standing : Standing) : standing.exhaust.scopeLeft = 0 := by
  simp [scopeLeft, exhaust, remainingTries]

end Standing

namespace Tree

/-! ## Sums over a tree -/

/-- Adds up a measure of nodes. -/
def sum (measure : Tree → Nat) (tree : Tree) : Nat := (tree.nodes.map measure).sum

theorem sum_nodesOf (measure : Tree → Nat) (children : List Tree) :
    ((nodesOf children).map measure).sum = (children.map (sum measure)).sum := by
  induction children with
  | nil => rfl
  | cons child rest ih => simp [nodesOf, ih, sum]

@[simp] theorem sum_task (measure : Tree → Nat) (leaf : Task) :
    (Tree.task leaf).sum measure = measure (.task leaf) := by
  simp [sum, nodes]

@[simp] theorem sum_branch (measure : Tree → Nat) (group : Group) (children : List Tree) :
    (Tree.branch group children).sum measure =
      measure (.branch group children) + (children.map (sum measure)).sum := by
  simp [sum, nodes, sum_nodesOf]

theorem sum_map_set {α : Type} (measure : α → Nat) {list : List α} {index : Nat} {old : α}
    (here : list[index]? = some old) (new : α) :
    ((list.set index new).map measure).sum + measure old =
      (list.map measure).sum + measure new := by
  induction list generalizing index with
  | nil => simp at here
  | cons first rest ih =>
      cases index with
      | zero =>
          cases here
          simp
          omega
      | succ index =>
          have later := ih (by simpa using here)
          simp only [List.set_cons_succ, List.map_cons, List.sum_cons]
          omega

theorem sum_map_le {α : Type} (measure : α → Nat) {change : α → α} {list : List α}
    (le : ∀ item ∈ list, measure (change item) ≤ measure item) :
    ((list.map change).map measure).sum ≤ (list.map measure).sum := by
  induction list with
  | nil => exact Nat.le_refl _
  | cons first rest ih =>
      have here := le first List.mem_cons_self
      have later := ih fun item member => le item (List.mem_cons_of_mem _ member)
      simp only [List.map_cons, List.sum_cons]
      omega

/-! ## The budget of a tree -/

def totalLeft (node : Tree) : Nat := node.standing.totalLeft
def scopeLeft (node : Tree) : Nat := node.standing.scopeLeft

/-- What the current attempt of a node may still do, apart from failing. -/
def stepsLeft : Tree → Nat
  | .task leaf => leaf.standing.awaited + leaf.standing.unbegun
  | .branch group children =>
      group.standing.awaited + if group.isSerial then children.length - group.cursor else 0

def budget (tree : Tree) : Budget :=
  ⟨tree.sum totalLeft, tree.sum scopeLeft, tree.sum stepsLeft⟩

end Tree

/-- The build has not come to a result. -/
def Build.Open (tick : Nat) (build : Build) : Prop :=
  build.progress tick ≠ .idle ∨ build.result tick = .unknown

namespace Runner

/-- One of the builds is there and is open. -/
def Busy (held : BuildRef → Prop) (runner : Runner) : Prop :=
  ∃ ref, held ref ∧ ∃ build, runner.build? ref = some build ∧ build.Open runner.tick

theorem Busy.mono {held wider : BuildRef → Prop} {runner : Runner} (busy : runner.Busy held)
    (widens : ∀ ref, held ref → wider ref) : runner.Busy wider := by
  obtain ⟨ref, holds, open'⟩ := busy
  exact ⟨ref, widens ref holds, open'⟩

/-- A build that is there stays open while no build is added. -/
theorem Busy.same {held : BuildRef → Prop} {before after : Runner} (busy : before.Busy held)
    (grows : before.Grows after) (tick : after.tick = before.tick)
    (same : ∀ name, after.buildsOf name = before.buildsOf name) : after.Busy held := by
  obtain ⟨ref, holds, build, found, open'⟩ := busy
  refine ⟨ref, holds, build, ?_, by rwa [tick]⟩
  obtain ⟨job, listed, held⟩ := Option.bind_eq_some_iff.mp found
  obtain ⟨next, listed', -⟩ := grows.job? listed
  have builds : next.builds = job.builds := by
    rw [← buildsOf_of_job? listed', ← buildsOf_of_job? listed, same]
  rw [build?, listed', Option.bind_some, builds]
  exact held

end Runner

namespace Tree

/-- Some invocation of the tree follows the build. -/
def Attends (tree : Tree) (ref : BuildRef) : Prop :=
  ∃ leaf, .task leaf ∈ tree.nodes ∧ leaf.build = some ref

theorem attends_task {leaf : Task} {ref : BuildRef} :
    (Tree.task leaf).Attends ref ↔ leaf.build = some ref := by
  simp [Attends, nodes]

theorem attends_branch {group : Group} {children : List Tree} {ref : BuildRef} :
    (Tree.branch group children).Attends ref ↔ ∃ child ∈ children, child.Attends ref := by
  constructor
  · rintro ⟨leaf, member, followed⟩
    rcases List.mem_cons.mp member with same | deeper
    · cases same
    · obtain ⟨child, inside, below⟩ := mem_nodesOf.mp deeper
      exact ⟨child, inside, leaf, below, followed⟩
  · rintro ⟨child, inside, leaf, below, followed⟩
    exact ⟨leaf, List.mem_cons_of_mem _ (mem_nodesOf.mpr ⟨child, inside, below⟩), followed⟩

/-- What a visit spends. A visit that spends nothing starts no build, and waits
for one if it waits at all. -/
structure Spends (tree : Tree) (world : World) (answer : Except Halt Unit) (next : Tree)
    (after : World) : Prop where
  atMost : next.budget.AtMost tree.budget
  still : ¬ next.budget.Less tree.budget →
    (∀ ref, next.Attends ref → tree.Attends ref) ∧
      ∀ name, after.runner.buildsOf name = world.runner.buildsOf name
  fails : ∀ failure, answer = failedBy failure → next.budget.Less tree.budget
  total : ∀ failure, answer = failedBy failure → 0 < next.standing.remainingTotalTries →
    next.budget.total < tree.budget.total
  scope : ∀ failure, answer = failedBy failure → 0 < next.standing.remainingTries →
    next.budget.total = tree.budget.total → next.budget.scope < tree.budget.scope
  waits : answer = .ok () → next.standing.propagatedChecking = .mustCheck →
    next.budget.Less tree.budget ∨ after.runner.Busy tree.Attends

theorem budget_finish (tree : Tree) : tree.finish.budget = tree.budget := by
  cases tree <;> rfl

theorem total_prepare (scope : Bool) (tree : Tree) :
    (tree.prepare scope).budget.total ≤ tree.budget.total := by
  cases tree with
  | task leaf =>
      simp only [budget, prepare, sum_task]
      exact leaf.standing.totalLeft_prepare scope
  | branch group children =>
      simp only [budget, prepare, sum_branch]
      exact Nat.add_le_add_right (group.standing.totalLeft_prepare scope) _

theorem scope_prepare (tree : Tree) : (tree.prepare false).budget.scope ≤ tree.budget.scope := by
  cases tree with
  | task leaf =>
      simp only [budget, prepare, sum_task]
      exact leaf.standing.scopeLeft_prepare
  | branch group children =>
      simp only [budget, prepare, sum_branch]
      exact Nat.add_le_add_right group.standing.scopeLeft_prepare _

end Tree

namespace Branch

/-! ## The budget of a group -/

def budget (branch : Branch) : Budget := (Tree.branch branch.1 branch.2).budget

/-- What the attempt of the group itself may still do. -/
def ownSteps (branch : Branch) : Nat :=
  branch.1.standing.awaited +
    if branch.1.isSerial then branch.2.length - branch.1.cursor else 0

theorem total_eq (branch : Branch) : branch.budget.total =
    branch.1.standing.totalLeft + (branch.2.map fun child => child.budget.total).sum :=
  Tree.sum_branch _ _ _

theorem scope_eq (branch : Branch) : branch.budget.scope =
    branch.1.standing.scopeLeft + (branch.2.map fun child => child.budget.scope).sum :=
  Tree.sum_branch _ _ _

theorem steps_eq (branch : Branch) : branch.budget.steps =
    branch.ownSteps + (branch.2.map fun child => child.budget.steps).sum :=
  Tree.sum_branch _ _ _

/-- None of the sums goes up. -/
structure Shrinks (next branch : Branch) : Prop where
  total : next.budget.total ≤ branch.budget.total
  scope : next.budget.scope ≤ branch.budget.scope
  steps : next.budget.steps ≤ branch.budget.steps

theorem Shrinks.atMost {next branch : Branch} (shrinks : Shrinks next branch) :
    next.budget.AtMost branch.budget :=
  Budget.atMost_of_le shrinks.total shrinks.scope shrinks.steps

theorem Shrinks.trans {first second third : Branch} (left : Shrinks first second)
    (right : Shrinks second third) : Shrinks first third :=
  ⟨Nat.le_trans left.total right.total, Nat.le_trans left.scope right.scope,
    Nat.le_trans left.steps right.steps⟩

theorem shrinks_group {group group' : Group} {children : List Tree}
    (total : group'.standing.totalLeft ≤ group.standing.totalLeft)
    (scope : group'.standing.scopeLeft ≤ group.standing.scopeLeft)
    (steps : ownSteps (group', children) ≤ ownSteps (group, children)) :
    Shrinks (group', children) (group, children) where
  total := by
    rw [total_eq, total_eq]
    exact Nat.add_le_add_right total _
  scope := by
    rw [scope_eq, scope_eq]
    exact Nat.add_le_add_right scope _
  steps := by
    rw [steps_eq, steps_eq]
    exact Nat.add_le_add_right steps _

/-- A group with the standing it had shrinks when its cursor does not go back. -/
theorem shrinks_stood {group group' : Group} {children : List Tree}
    (standing : group'.standing.awaited = group.standing.awaited ∧
      group'.standing.totalLeft = group.standing.totalLeft ∧
      group'.standing.scopeLeft = group.standing.scopeLeft)
    (serial : group'.isSerial = group.isSerial)
    (ahead : group.isSerial →
      children.length - group'.cursor ≤ children.length - group.cursor) :
    Shrinks (group', children) (group, children) := by
  obtain ⟨awaited, total, scope⟩ := standing
  refine shrinks_group (Nat.le_of_eq total) (Nat.le_of_eq scope) ?_
  unfold ownSteps
  rw [awaited, serial]
  refine Nat.add_le_add_left ?_ _
  split
  · next serial => exact ahead serial
  · exact Nat.le_refl _

/-- What one child spends is what the group spends. -/
theorem budget_put {branch : Branch} {index : Nat} {child : Tree}
    (here : branch.2[index]? = some child) (next : Tree) :
    (branch.put index next).budget.total + child.budget.total =
        branch.budget.total + next.budget.total ∧
      (branch.put index next).budget.scope + child.budget.scope =
        branch.budget.scope + next.budget.scope ∧
      (branch.put index next).budget.steps + child.budget.steps =
        branch.budget.steps + next.budget.steps := by
  have total := Tree.sum_map_set (fun child => child.budget.total) here next
  have scope := Tree.sum_map_set (fun child => child.budget.scope) here next
  have steps := Tree.sum_map_set (fun child => child.budget.steps) here next
  have own : (branch.put index next).ownSteps = branch.ownSteps := by simp [ownSteps, put]
  rw [total_eq, total_eq, scope_eq, scope_eq, steps_eq, steps_eq, own]
  simp only [put] at total scope steps ⊢
  omega

theorem atMost_put {branch : Branch} {index : Nat} {child next : Tree}
    (here : branch.2[index]? = some child) (atMost : next.budget.AtMost child.budget) :
    (branch.put index next).budget.AtMost branch.budget := by
  have := budget_put here next
  unfold Budget.AtMost at *
  omega

theorem less_put {branch : Branch} {index : Nat} {child next : Tree}
    (here : branch.2[index]? = some child) :
    (branch.put index next).budget.Less branch.budget ↔ next.budget.Less child.budget := by
  have := budget_put here next
  unfold Budget.Less
  omega

theorem shrinks_setFailed (branch : Branch) (failed : Table Nat String) :
    Shrinks (branch.1.setFailed failed, branch.2) branch := by
  refine shrinks_stood ?_ (branch.1.isSerial_setFailed failed) fun _ => ?_
  · simp only [Group.standing_setFailed, and_self]
  · exact Nat.le_of_eq (by rw [Group.cursor_setFailed])

theorem shrinks_begun (branch : Branch) (now : Instant) : Shrinks (branch.begun now) branch := by
  obtain ⟨_, same⟩ := branch.1.standing_begun now
  refine shrinks_stood ?_ (branch.1.isSerial_begun now) fun _ => ?_
  · rw [same]
    exact ⟨rfl, rfl, rfl⟩
  · exact Nat.le_of_eq (by rw [Group.cursor_begun])

theorem shrinks_leaving (branch : Branch) : Shrinks branch.leaving branch := by
  refine shrinks_stood ?_ (branch.1.isSerial_setCursor _) fun serial => ?_
  · simp only [Group.standing_setCursor, and_self]
  · rw [Group.cursor_setCursor serial, Nat.sub_self]
    exact Nat.zero_le _

theorem shrinks_exhaust (branch : Branch) (aborted : Bool) (checking : Checking) :
    Shrinks ({ branch.1 with
      aborted, standing := { branch.1.standing.exhaust with checking } }, branch.2) branch := by
  refine shrinks_group ?_ ?_ (Nat.le_refl _)
  · exact Nat.le_trans (Nat.le_of_eq branch.1.standing.totalLeft_exhaust) (Nat.zero_le _)
  · exact Nat.le_trans (Nat.le_of_eq branch.1.standing.scopeLeft_exhaust) (Nat.zero_le _)

theorem shrinks_aborting (branch : Branch) : Shrinks branch.aborting branch := by
  unfold aborting
  split
  · exact (shrinks_leaving _).trans (shrinks_exhaust branch true branch.1.standing.checking)
  · exact shrinks_group (Nat.le_refl _) (Nat.le_refl _) (Nat.le_refl _)

theorem shrinks_closed (branch : Branch) (status : Checking) :
    Shrinks (branch.closed status) branch := by
  unfold closed
  split
  · exact shrinks_exhaust branch branch.1.aborted status
  · exact shrinks_group (Nat.le_refl _) (Nat.le_refl _) (Nat.le_refl _)

theorem shrinks_summed {branch : Branch} (unknown : branch.1.standing.result = .unknown) :
    Shrinks branch.summed branch := by
  have awaited : branch.summed.1.standing.awaited ≤ branch.1.standing.awaited := by
    simp only [Standing.awaited, unknown]
    split <;> decide
  refine shrinks_group ?_ ?_ (Nat.add_le_add_right awaited _)
  · exact Nat.sub_le_sub_left (Nat.sub_le_sub_left awaited 1) branch.1.standing.remainingTotalTries
  · exact Nat.sub_le_sub_left (Nat.sub_le_sub_left awaited 1) branch.1.standing.remainingTries

/-- Coming to a result uses up what was left of the attempt. -/
theorem spends_summed {branch : Branch} (unknown : branch.1.standing.result = .unknown)
    (known : branch.summed.1.standing.result ≠ .unknown) :
    branch.summed.budget.Less branch.budget ∧
      (0 < branch.1.standing.remainingTotalTries →
        branch.summed.budget.total < branch.budget.total) ∧
      (0 < branch.1.standing.remainingTries →
        branch.summed.budget.scope < branch.budget.scope) := by
  have before : branch.1.standing.awaited = 1 := if_pos unknown
  have after : branch.summed.1.standing.awaited = 0 := if_neg known
  have total : branch.summed.1.standing.totalLeft = branch.1.standing.remainingTotalTries - 1 := by
    rw [Standing.totalLeft, after]
    rfl
  have scope : branch.summed.1.standing.scopeLeft = branch.1.standing.remainingTries - 1 := by
    rw [Standing.scopeLeft, after]
    rfl
  have steps : branch.summed.ownSteps + 1 = branch.ownSteps := by
    rw [ownSteps, ownSteps, before, after, Nat.zero_add, Nat.add_comm]
    rfl
  have same : branch.summed.2 = branch.2 := rfl
  unfold Budget.Less
  rw [total_eq, total_eq, scope_eq, scope_eq, steps_eq, steps_eq, total, scope, same,
    Standing.totalLeft, Standing.scopeLeft, before]
  omega

theorem shrinks_moved (branch : Branch) : Shrinks branch.moved branch := by
  refine shrinks_stood ?_ (branch.1.isSerial_setCursor _) fun serial => ?_
  · simp only [Group.standing_setCursor, and_self]
  · rw [Group.cursor_setCursor serial]
    exact Nat.sub_le_sub_left (Nat.le_succ _) _

/-- Going on with the next child is a step. -/
theorem less_moved {branch : Branch} (unknown : branch.1.standing.result = .unknown)
    (serial : branch.1.isSerial) (more : branch.1.cursor + 1 < branch.2.length) :
    branch.moved.waiting.budget.Less branch.budget := by
  obtain ⟨group, children⟩ := branch
  dsimp only at unknown serial more
  cases discipline : group.discipline with
  | parallel => simp [Group.isSerial, discipline] at serial
  | serial cursor =>
      simp only [Group.cursor, discipline] at more
      have same : (moved (group, children)).waiting.1.standing =
          { group.standing with checking := .mustCheck } := by
        simp [moved, waiting, Group.setCursor, discipline, unknown]
      have steps : ownSteps (moved (group, children)).waiting < ownSteps (group, children) := by
        simp [ownSteps, moved, waiting, Group.setCursor, Group.isSerial, Group.cursor, discipline,
          Branch.group, Standing.awaited, unknown]
        omega
      unfold Budget.Less
      rw [total_eq, total_eq, scope_eq, scope_eq, steps_eq, steps_eq, same]
      exact .inr ⟨rfl, .inr ⟨rfl, Nat.add_lt_add_right steps _⟩⟩

/-! ### Answers -/

theorem sum_retried (measure : Tree → Nat) {branch : Branch} {scope : Bool}
    (le : ∀ child : Tree, measure (child.prepare scope) ≤ measure child) :
    ((((branch.2.take branch.reach).map (Tree.prepare scope)) ++
        branch.2.drop branch.reach).map measure).sum ≤ (branch.2.map measure).sum := by
  have split : (branch.2.map measure).sum =
      ((branch.2.take branch.reach).map measure).sum +
        ((branch.2.drop branch.reach).map measure).sum := by
    rw [← List.sum_append, ← List.map_append, List.take_append_drop]
  rw [split, List.map_append, List.sum_append]
  exact Nat.add_le_add_right (Tree.sum_map_le measure fun child _ => le child) _

theorem total_retried {branch : Branch} {index : Nat} {child : Tree}
    (here : branch.2[index]? = some child) :
    (branch.retried index child).budget.total ≤ branch.budget.total := by
  unfold retried
  split
  · rw [total_eq, total_eq, Group.standing_setCursor]
    exact Nat.add_le_add_left
      (sum_retried (fun child => child.budget.total) (Tree.total_prepare _)) _
  · have put := (budget_put here (child.prepare child.standing.newScope)).1
    have := Tree.total_prepare child.standing.newScope child
    omega

theorem scope_retried {branch : Branch} {index : Nat} {child : Tree}
    (here : branch.2[index]? = some child) (inside : 0 < child.standing.remainingTries) :
    (branch.retried index child).budget.scope ≤ branch.budget.scope := by
  have within : child.standing.newScope = false := Standing.newScope_eq_false.mpr inside
  unfold retried
  rw [within]
  split
  · rw [scope_eq, scope_eq, Group.standing_setCursor]
    exact Nat.add_le_add_left
      (sum_retried (fun child => child.budget.scope) Tree.scope_prepare) _
  · have put := (budget_put here (child.prepare false)).2.1
    have := Tree.scope_prepare child
    omega

theorem shrinks_noted (branch : Branch) (child : Tree) : Shrinks (branch.noted child) branch :=
  shrinks_setFailed branch _

theorem shrinks_finished {branch : Branch} {index : Nat} {child : Tree}
    (here : branch.2[index]? = some child) :
    Shrinks ((branch.noted child).put index child.finish) branch := by
  have put := @budget_put (branch.noted child) index child here child.finish
  rw [Tree.budget_finish] at put
  refine Shrinks.trans ⟨?_, ?_, ?_⟩ (shrinks_noted branch child) <;> omega

/-- The answer to a failure costs the group no more than the failure itself. -/
theorem Answers.spends {branch next : Branch} {index : Nat} {child failed : Tree}
    {failure : JobFailure} {again : Bool} {world after : World}
    (answers : Answers (branch.put index failed) index failed failure (.ok again) next)
    (here : branch.2[index]? = some child)
    (spends : child.Spends world (failedBy failure) failed after) :
    next.budget.Less branch.budget := by
  have here' := getElem?_put_self here failed
  have less : (branch.put index failed).budget.Less branch.budget :=
    (less_put here).mpr (spends.fails failure rfl)
  have shrinks : ∀ {next : Branch}, Shrinks next (branch.put index failed) →
      next.budget.Less branch.budget := fun shrinks => .after shrinks.atMost less
  have finished := shrinks_finished here'
  cases answers with
  | aborts => exact shrinks ((shrinks_aborting _).trans finished)
  | abortsUnchecked => exact shrinks finished
  | stays => exact shrinks (shrinks_noted _ _)
  | ends => exact shrinks ((shrinks_leaving _).trans finished)
  | endsUnchecked => exact shrinks finished
  | retries _ tries =>
      have noted := shrinks_noted (branch.put index failed) failed
      have there : ((branch.put index failed).noted failed).2[index]? = some failed := here'
      have total := Nat.le_trans (total_retried there) noted.total
      have put := budget_put here failed
      have atMost := spends.atMost
      have totalLess := spends.total failure rfl
      have scopeLess := spends.scope failure rfl
      rw [Standing.mayTry_eq_true] at tries
      unfold Budget.AtMost at atMost
      unfold Budget.Less
      -- A retry in its own scope uses up a try of the scope, one that opens a new scope a try of
      -- all.
      by_cases inside : 0 < failed.standing.remainingTries
      · have scope := Nat.le_trans (scope_retried there inside) noted.scope
        have := scopeLess inside
        omega
      · have := totalLess (by omega)
        omega

end Branch

end BuildFlow
