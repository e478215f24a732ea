import BuildFlow.Proofs.Tree.Once
/-!
What it means for an invocation to be prepared for another attempt: it comes to a good result
only with a build that it has not got yet. A serial group that starts over prepares all of its
children up to the one that has failed.
-/
namespace BuildFlow

/-! ## Attempts to come -/

namespace Task

/-- The invocation is prepared for an attempt that has not begun. -/
def Waits (task : Task) : Prop :=
  task.standing.isFinished = false ∧ task.standing.isInvoked = false

theorem waits_prepare (task : Task) (scope : Bool) : (task.prepare scope).Waits :=
  ⟨Standing.isFinished_prepare _ _, rfl⟩

/-- The job had so many builds. Once the invocation is at work, and when it ends well, there are
more of them. -/
structure Owed (count : Nat) (runner : Runner) (task : Task) : Prop where
  checked : task.isUnchecked = false
  since : count ≤ (runner.buildsOf task.name).length
  good : task.standing.result.IsGood → count < (runner.buildsOf task.name).length
  busy : task.standing.isFinished = false → task.standing.isInvoked →
    count < (runner.buildsOf task.name).length

variable {count : Nat} {runner after : Runner} {task : Task}

theorem Owed.grows (owed : task.Owed count runner) (grows : runner.Grows after) :
    task.Owed count after where
  checked := owed.checked
  since := Nat.le_trans owed.since (grows.length _)
  good good := Nat.lt_of_lt_of_le (owed.good good) (grows.length _)
  busy unfinished invoked := Nat.lt_of_lt_of_le (owed.busy unfinished invoked) (grows.length _)

theorem Owed.prepare (owed : task.Owed count runner) (scope : Bool) :
    (task.prepare scope).Owed count runner where
  checked := owed.checked
  since := owed.since
  good := by rintro (good | good) <;> cases good
  busy _ invoked := by cases invoked

theorem Owed.finish (owed : task.Owed count runner) :
    Task.Owed count runner { task with standing := { task.standing with checking := .finished } } where
  checked := owed.checked
  since := owed.since
  good := owed.good
  busy unfinished := by cases unfinished

theorem Owed.found {found : Task} {world there : World} (owed : task.Owed count world.runner)
    (finds : Found task world found there) : found.Owed count there.runner := by
  have owed := owed.grows finds.grows.runner
  refine ⟨finds.attempted.isUnchecked.trans owed.checked, ?_, ?_, ?_⟩
  all_goals rw [finds.attempted.name]
  · exact owed.since
  · rw [finds.standing]
    exact owed.good
  · rw [finds.standing]
    exact owed.busy

/-- An attempt that has begun has its build. -/
theorem Begun.more {now : Instant} {begun : Task} {world there : World}
    (begins : Begun now task world begun there) (owed : task.Owed count world.runner)
    (unfinished : task.standing.isFinished = false) :
    count < (there.runner.buildsOf begun.name).length := by
  cases begins with
  | going invoked => exact owed.busy unfinished invoked
  | joins _ unchecked => cases owed.checked.symm.trans unchecked
  | @starts _ _ _ _ runner invoked =>
      have more := Runner.length_invoked invoked task.name
      rw [if_pos rfl] at more
      change count < (runner.buildsOf task.name).length
      exact more ▸ Nat.lt_succ_of_le owed.since

/-- A step of an invocation that may begin. -/
theorem Follows.owed {now : Instant} {next : Task} {world there : World} {answer : Except Halt Unit}
    (follows : Follows now task world answer next there) (answered : Answered answer)
    (unfinished : task.standing.isFinished = false) (owed : task.Owed count world.runner) :
    next.Owed count there.runner := by
  have begun : ∀ {found begun : Task} {middle : World}, Found task world found middle →
      Begun now found middle begun there → begun.isUnchecked = false ∧
        count < (there.runner.buildsOf begun.name).length := by
    intro found begun middle finds begins
    have found := owed.found finds
    exact ⟨begins.attempted.isUnchecked.trans found.checked,
      begins.more found (finds.standing ▸ unfinished)⟩
  cases follows with
  | missing =>
      refine ⟨owed.checked, ?_, ?_, nofun⟩
      · exact Nat.le_trans owed.since (Nat.le_of_eq (congrArg List.length
          (Runner.buildsOf_lookup world.runner task.name task.name).symm))
      · rintro (good | good) <;> cases good
  | waits finds begins =>
      obtain ⟨checked, more⟩ := begun finds begins
      exact ⟨checked, Nat.le_of_lt more, fun _ => more, fun _ _ => more⟩
  | ends finds begins =>
      obtain ⟨checked, more⟩ := begun finds begins
      exact ⟨checked, Nat.le_of_lt more, fun _ => more, fun _ _ => more⟩
  | strays _ _ _ strays => cases answered; cases strays
  | lost => cases answered

end Task

namespace Tree

/-- The invocations of a job are owed an attempt. -/
def Owed (name : String) (count : Nat) (runner : Runner) : Tree → Prop
  | .task leaf => leaf.name = name → leaf.Owed count runner
  | .branch _ _ => True

variable {name : String} {count : Nat} {runner after : Runner} {tree : Tree}

theorem Owed.grows (owed : tree.Every (Owed name count runner)) (grows : runner.Grows after) :
    tree.Every (Owed name count after) := by
  refine owed.mono fun node owed => ?_
  cases node with
  | task leaf => exact fun same => Task.Owed.grows (owed same) grows
  | branch => trivial

theorem Owed.prepare (owed : tree.Every (Owed name count runner)) (scope : Bool) :
    (tree.prepare scope).Every (Owed name count runner) := by
  refine owed.prepared ?_
  cases tree with
  | task leaf => exact fun same => Task.Owed.prepare (owed.self same) scope
  | branch => trivial

theorem Owed.finish (owed : tree.Every (Owed name count runner)) :
    tree.finish.Every (Owed name count runner) := by
  refine owed.finished ?_
  cases tree with
  | task leaf => exact fun same => Task.Owed.finish (owed.self same)
  | branch => trivial

/-- Sweeps keep it that an attempt is owed. -/
theorem Sweeps.owed {now : Instant} {next : Tree} {world there : World} {answer : Except Halt Unit}
    (sweeps : Sweeps now tree world answer next there) (answered : Answered answer)
    (unfinished : tree.standing.isFinished = false) (owed : tree.Every (Owed name count world.runner)) :
    next.Every (Owed name count there.runner) := by
  refine sweeps.rule (p := fun tree world answer next there => Answered answer →
    tree.standing.isFinished = false → tree.Every (Owed name count world.runner) →
      next.Every (Owed name count there.runner)) ?_ ?_ answered unfinished owed
  · intro leaf world answer leaf' after follows answered unfinished owed
    have named : leaf'.blank.name = leaf.blank.name := congrArg Task.name follows.blank
    exact every_task.mpr fun same => follows.owed answered unfinished (owed.self (named.symm.trans same))
  · intro group children world answer group' children' after sweeps answered unfinished owed
    refine every_branch.mpr ⟨trivial, ?_⟩
    cases sweeps with
    | halts pass => cases answered; exact absurd rfl (pass.hard _)
    | @closes passed _ _ _ _ pass closes =>
        have same : children' = passed.2 := closes.children
        rw [same]
        -- The children once one of them was visited.
        have put : ∀ {branch : Branch} {index : Nat} {child next : Tree} {answer : Except Halt Unit}
            {world there : World}, (∀ child ∈ branch.2, child.Every (Owed name count world.runner)) →
            Sweeps now child world answer next there → next.Every (Owed name count there.runner) →
            ∀ child ∈ (branch.put index next).2, child.Every (Owed name count there.runner) := by
          intro branch index child next answer world there owed sweep visited other member
          rcases List.mem_or_eq_of_mem_set member with old | rfl
          · exact Owed.grows (owed other old) sweep.grows.runner
          · exact visited
        refine pass.carries (p := fun branch there _ =>
          ∀ child ∈ branch.2, child.Every (Owed name count there.runner)) ?_ ?_ (every_branch.mp owed).2
        · intro index branch world status child next there owed here unfinished visit
          exact put owed visit.1 (visit.2 .ok unfinished (owed child (List.mem_of_getElem? here)))
        · intro index branch world status child next there failure again answered owed here unfinished
            visit answers
          have visited := visit.2 (.failed failure) unfinished (owed child (List.mem_of_getElem? here))
          exact answers.all (put owed visit.1 visited) visited (Owed.finish visited)
            fun other scope owed => Owed.prepare owed scope

end Tree

/-! ## Restarts -/

namespace Branch

variable {now : Instant} {course : Course Tree} {index : Nat} {indices : List Nat}
  {branch last next : Branch} {world there : World} {status : Checking} {child : Tree}
  {failure : JobFailure} {ended : Except Halt Checking}

theorem isInvoked_begun (set : now.isSet) (branch : Branch) :
    (branch.begun now).1.standing.isInvoked := by
  have started : (branch.1.started now).standing.isInvoked := by
    unfold Group.started
    split
    · assumption
    · exact set
  unfold begun Group.begun
  split <;> exact started

theorem Answers.isInvoked {answer : Except Halt Bool}
    (answers : Answers branch index child failure answer next) :
    next.1.standing.isInvoked = branch.1.standing.isInvoked := by
  rcases answers.standing with same | same <;> rw [same]
  rfl

theorem Pass.isInvoked (pass : Pass course indices branch world status ended last there) :
    last.1.standing.isInvoked = branch.1.standing.isInvoked :=
  pass.keeps (p := fun middle _ => middle.1.standing.isInvoked = branch.1.standing.isInvoked)
    (fun same _ _ _ => same)
    (fun same => (congrArg Standing.isInvoked (Group.standing_setFailed _ _)).trans same)
    (fun same _ answers => answers.isInvoked.trans same) rfl

theorem isInvoked_closed (branch : Branch) (status : Checking) :
    (branch.closed status).1.standing.isInvoked = branch.1.standing.isInvoked := by
  unfold closed
  split <;> rfl

theorem Closes.isInvoked {answer : Except Halt Unit} (closes : Closes now branch status answer last) :
    last.1.standing.isInvoked = branch.1.standing.isInvoked := by
  cases closes with
  | pending => rfl
  | overdue => rfl
  | fails => rfl
  | moves =>
      change branch.moved.1.standing.isInvoked = _
      rw [standing_moved]
  | ends =>
      rw [standing_moved]
      rfl

end Branch

/-- A visit leaves the count of attempts alone, or the node is at work. -/
theorem Tree.Sweeps.attempts {now : Instant} (set : now.isSet) {tree next : Tree}
    {world there : World} {answer : Except Halt Unit}
    (sweeps : Tree.Sweeps now tree world answer next there) :
    next.standing.tried = tree.standing.tried ∨ next.standing.isInvoked := by
  refine sweeps.rule (p := fun tree _ _ next _ =>
    next.standing.tried = tree.standing.tried ∨ next.standing.isInvoked) ?_ ?_
  · intro leaf world answer leaf' after follows
    have tried : ∀ {after : Task}, Task.Attempted leaf after →
        after.standing.tried = leaf.standing.tried := by
      rintro after ⟨_, _, _, _, rfl⟩
      rfl
    cases follows with
    | missing => exact .inl rfl
    | waits finds begins => exact .inl (tried (finds.attempted.trans begins.attempted))
    | @ends _ begun _ _ _ _ finds begins =>
        have same : begun.standing.tried = leaf.standing.tried :=
          tried (finds.attempted.trans begins.attempted)
        exact .inl same
    | strays attempted => exact .inl (tried attempted)
    | lost finds begins => exact .inl (tried (finds.attempted.trans begins.attempted))
  · intro group children world answer group' children' after sweeps
    have begun := Branch.isInvoked_begun set (group, children)
    cases sweeps with
    | halts pass => exact .inr (pass.isInvoked.trans begun)
    | closes pass closes =>
        exact .inr (closes.isInvoked.trans
          ((Branch.isInvoked_closed _ _).trans (pass.isInvoked.trans begun)))

namespace Branch

variable {now : Instant} {branch last : Branch} {world there : World} {child new : Tree}
  {ended : Except Halt Checking}

/-- A serial group whose child at the cursor is prepared anew has prepared all before it. -/
theorem Single.restarts (set : now.isSet)
    (single : Single (Tree.Sweeps now) branch world ended last there) (serial : branch.1.isSerial)
    (here : branch.2[branch.1.cursor]? = some child) (at' : last.2[branch.1.cursor]? = some new)
    (uninvoked : new.standing.isInvoked = false)
    (again : new.standing.tried = child.standing.tried + 1) {place : Nat} {other : Tree}
    (within : place ≤ branch.1.cursor) (placed : last.2[place]? = some other) :
    ∃ old scope, other = Tree.prepare scope old := by
  -- The child is not as its visit has left it.
  have changed : ∀ {next : Tree} {answer : Except Halt Unit},
      Tree.Sweeps now child world answer next there → new.standing.tried = next.standing.tried →
      new.standing.isInvoked = next.standing.isInvoked → False := by
    intro next answer sweep tried invoked
    rcases sweep.attempts set with same | busy
    · omega
    · cases uninvoked.symm.trans (invoked.trans busy)
  have answered : ∀ {next : Tree} {failure : JobFailure} {answer : Except Halt Bool},
      Tree.Sweeps now child world (failedBy failure) next there →
      Answers (branch.put branch.1.cursor next) branch.1.cursor next failure answer last →
      ∃ old scope, other = Tree.prepare scope old := by
    intro next failure answer sweep answers
    have put := getElem?_put_self here next
    rcases answers.listed with same | same | ⟨-, same⟩
    · rw [same] at at'
      cases put.symm.trans at'
      exact (changed sweep rfl rfl).elim
    · rw [same] at at'
      cases (getElem?_put_self put next.finish).symm.trans at'
      exact (changed sweep (by rw [Tree.standing_finish]) (by rw [Tree.standing_finish]; rfl)).elim
    · unfold retried at same
      rw [if_pos (by exact serial)] at same
      rw [same, getElem?_restarted] at placed
      obtain ⟨old, held, rfl⟩ := Option.map_eq_some_iff.mp placed
      have reached : place < (branch.put branch.1.cursor next).reach :=
        Nat.lt_min.mpr ⟨Nat.lt_succ_of_le within, (List.getElem?_eq_some_iff.mp held).1⟩
      exact ⟨old, next.standing.newScope, if_pos reached⟩
  cases single with
  | rests =>
      cases here.symm.trans at'
      omega
  | passes here' _ visit =>
      cases here.symm.trans here'
      cases (getElem?_put_self here _).symm.trans at'
      exact (changed visit rfl rfl).elim
  | fails here' _ visit answers =>
      cases here.symm.trans here'
      exact answered visit answers
  | breaks here' _ visit answers =>
      cases here.symm.trans here'
      exact answered visit answers
  | halts here' _ visit =>
      cases here.symm.trans here'
      cases (getElem?_put_self here _).symm.trans at'
      exact (changed visit rfl rfl).elim

theorem Sweeps.restarts (set : now.isSet) {group group' : Group} {children children' : List Tree}
    {answer : Except Halt Unit}
    (sweeps : Sweeps now (Tree.Sweeps now) (group, children) world answer (group', children') there)
    (unfinished : group.standing.isFinished = false) (staged : Tree.Staged (.branch group children))
    (serial : group.isSerial) (here : children[group.cursor]? = some child)
    (at' : children'[group.cursor]? = some new) (uninvoked : new.standing.isInvoked = false)
    (again : new.standing.tried = child.standing.tried + 1) {place : Nat} {other : Tree}
    (within : place ≤ group.cursor) (placed : children'[place]? = some other) :
    ∃ old scope, other = Tree.prepare scope old := by
  have cursor : (begun (group, children) now).1.cursor = group.cursor := Group.cursor_begun _ _
  have kind : (begun (group, children) now).1.isSerial := (Group.isSerial_begun _ _).trans serial
  have single : ∀ {ended : Except Halt Checking} {last : Branch} {after : World},
      Pass (Tree.Sweeps now) (List.range (begun (group, children) now).span)
        (begun (group, children) now) world .finished ended last after →
      Single (Tree.Sweeps now) (begun (group, children) now) world ended last after := by
    intro ended last after pass
    refine pass.single kind ?_
    rw [cursor]
    exact staged serial unfinished
  cases sweeps with
  | halts pass =>
      exact (single pass).restarts set kind (cursor ▸ here) (cursor ▸ at') uninvoked again
        (cursor ▸ within) placed
  | @closes passed _ _ _ _ pass closes =>
      have same : children' = passed.2 := closes.children
      rw [same] at at' placed
      exact (single pass).restarts set kind (cursor ▸ here) (cursor ▸ at') uninvoked again
        (cursor ▸ within) placed

end Branch

namespace Tree

theorem node?_child {tree node : Tree} {path : List Nat} (at' : tree.node? path = some node)
    (place : Nat) : tree.node? (path ++ [place]) = node.children[place]? := by
  rw [node?_append, at', Option.bind_some, node?]
  cases node.children[place]? <;> rfl

theorem Every.below {p : Tree → Prop} {tree node : Tree} {path : List Nat} (every : tree.Every p)
    (at' : tree.node? path = some node) : node.Every p := by
  induction path generalizing tree with
  | nil =>
      cases at'
      exact every
  | cons index path ih =>
      obtain ⟨child, listed, inside⟩ := Option.bind_eq_some_iff.mp at'
      cases tree with
      | task leaf => cases listed
      | branch group children =>
          exact ih ((every_branch.mp every).2 child (List.mem_of_getElem? listed)) inside

/-- The serial group at the path starts over in its retry scope: its child at the cursor has got
one more try, which has not begun. -/
inductive Restarts (tree next : Tree) (path : List Nat) (place : Nat) : Prop
  | intro {group : Group} {children : List Tree} {child new : Tree}
      (at' : tree.node? path = some (.branch group children)) (serial : group.isSerial)
      (cursor : group.cursor = place) (here : children[place]? = some child)
      (after : next.node? (path ++ [place]) = some new) (uninvoked : new.standing.isInvoked = false)
      (again : new.standing.tried = child.standing.tried + 1) : Restarts tree next path place

/-- A group that starts over has prepared all children up to the one that has failed. -/
theorem Sweeps.restarts {now : Instant} (set : now.isSet) {tree next : Tree} {world there : World}
    {answer : Except Halt Unit} (sweeps : Sweeps now tree world answer next there)
    (unfinished : tree.standing.isFinished = false) (staged : tree.Every Staged) {path : List Nat}
    {place : Nat} (restarts : tree.Restarts next path place) {index : Nat} {other : Tree}
    (within : index ≤ place) (at' : next.node? (path ++ [index]) = some other) :
    ∃ old scope, other = Tree.prepare scope old := by
  obtain @⟨group, children, child, new, held, serial, cursor, here, after, uninvoked, again⟩ := restarts
  obtain ⟨last, placed, once⟩ := sweeps.once unfinished staged path _ held
  rw [node?_child placed] at after at'
  cases once with
  | left same =>
      -- The sweep did not come by the group, so no child of it has got one more try.
      rw [same] at after
      cases here.symm.trans after
      omega
  | @visited world answer there next' waits visit same =>
      obtain ⟨levels, visit⟩ := visit
      cases levels with
      | zero => exact visit.elim
      | succ levels =>
          obtain ⟨group', children', rfl, visit⟩ := visit
          have visit := visit.mono fun visit => (⟨levels, visit⟩ : Sweeps now _ _ _ _ _)
          have same : last.children = children' := same
          rw [same] at after at'
          exact visit.restarts set waits (staged.below held).self serial (cursor ▸ here)
            (cursor ▸ after) uninvoked again (cursor ▸ within) at'

end Tree

end BuildFlow
