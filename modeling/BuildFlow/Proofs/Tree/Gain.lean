import BuildFlow.Proofs.Tree.Charge
import BuildFlow.Proofs.Tree.Single
/-!
What a sweep builds. It starts builds for jobs of its tree, at the tick of the sweep, and this
also holds of a sweep that is broken off.
-/
namespace BuildFlow

namespace Runner

/-- The builds that some of the jobs have got at this tick, after those that they had. -/
structure Gains (before : Runner) (names : List String) (runner after : Runner) : Prop where
  tick : after.tick = runner.tick
  added : ∀ name, ∃ added, before.newBuilds after name = before.newBuilds runner name ++ added ∧
    ∀ build ∈ added, name ∈ names ∧ build.forced = none ∧ build.enqueuedAt = runner.tick

variable {before runner middle after : Runner} {names more : List String} {name : String}

theorem Gains.same (tick : after.tick = runner.tick)
    (same : ∀ name, after.buildsOf name = runner.buildsOf name) :
    before.Gains names runner after where
  tick := tick
  added name := ⟨[], by rw [newBuilds_congr (same name), List.append_nil], nofun⟩

theorem Gains.trans (left : before.Gains names runner middle)
    (right : before.Gains names middle after) : before.Gains names runner after where
  tick := right.tick.trans left.tick
  added name := by
    obtain ⟨added, first, gained⟩ := left.added name
    obtain ⟨others, second, gained'⟩ := right.added name
    refine ⟨added ++ others, by rw [second, first, List.append_assoc], fun build member => ?_⟩
    rcases List.mem_append.mp member with early | late
    · exact gained build early
    · exact left.tick ▸ gained' build late

theorem Gains.mono (gains : before.Gains names runner after) (within : ∀ name ∈ names, name ∈ more) :
    before.Gains more runner after where
  tick := gains.tick
  added name := by
    obtain ⟨added, builds, gained⟩ := gains.added name
    exact ⟨added, builds, fun build member => (gained build member).imp_left (within name)⟩

theorem Gains.mem (gains : before.Gains names runner after) {build : Build}
    (member : build ∈ before.newBuilds after name) : build ∈ before.newBuilds runner name ∨
      name ∈ names ∧ build.forced = none ∧ build.enqueuedAt = runner.tick := by
  obtain ⟨added, builds, gained⟩ := gains.added name
  rw [builds] at member
  exact (List.mem_append.mp member).imp_right (gained build)

theorem Gains.outside (gains : before.Gains names runner after) (other : name ∉ names) :
    before.newBuilds after name = before.newBuilds runner name := by
  obtain ⟨added, builds, gained⟩ := gains.added name
  cases added with
  | nil => exact builds.trans (List.append_nil _)
  | cons build rest => exact absurd (gained build List.mem_cons_self).1 other

end Runner

theorem Answered.direct {answer : Except Halt Unit} (answered : Answered answer) : Direct answer := by
  cases answered with
  | ok => nofun
  | failed failure =>
      rintro halt ⟨⟩ astray
      exact astray

/-! ## Invocations -/

namespace Task

variable {before : Runner} {now : Instant} {task : Task} {world there after : World}

theorem Begun.gains {begun : Task} (begins : Begun now task world begun after)
    (covered : task.Covered before world.runner) :
    before.Gains [task.name] world.runner after.runner := by
  have tick := begins.grows.tick
  cases begins with
  | going => exact .same rfl fun _ => rfl
  | joins => exact .same rfl fun _ => rfl
  | @starts uninvoked _ _ ref runner invoked =>
      obtain ⟨-, build, -, builds, enqueued, unforced⟩ :=
        (covered.still (.inr uninvoked)).invoked covered.since invoked
      refine ⟨tick, fun name => ?_⟩
      by_cases same : name = task.name
      · subst same
        refine ⟨[build], builds, fun other member => ?_⟩
        rw [List.mem_singleton.mp member]
        exact ⟨List.mem_singleton_self _, unforced, enqueued⟩
      · refine ⟨[], ?_, nofun⟩
        rw [Runner.newBuilds_congr (Runner.buildsOf_invoked invoked same), List.append_nil]

theorem Follows.gains {next : Task} {answer : Except Halt Unit}
    (follows : Follows now task world answer next after) (direct : Direct answer)
    (covered : task.Covered before world.runner) :
    before.Gains [task.name] world.runner after.runner := by
  have steps : ∀ {found begun : Task} {there : World}, Found task world found there →
      Begun now found there begun after → before.Gains [task.name] world.runner after.runner :=
    fun finds begins =>
      (Runner.Gains.same finds.grows.tick finds.buildsOf).trans
        (finds.attempted.name ▸ begins.gains (finds.covered covered))
  cases follows with
  | missing =>
      exact .same (Runner.tick_lookup _ _) (Runner.buildsOf_lookup world.runner task.name)
  | waits finds begins => exact steps finds begins
  | ends finds begins => exact steps finds begins
  | strays _ _ _ strays =>
      refine absurd ?_ (direct _ rfl)
      cases strays <;> trivial
  | lost finds begins => exact steps finds begins

end Task

/-! ## Groups -/

namespace Branch

section

variable {before : Runner} {now : Instant} {index : Nat} {indices : List Nat}
  {branch last : Branch} {world there after : World} {status : Checking} {child : Tree}
  {answer : Except Halt Unit} {ended : Except Halt Checking}

/-- A visit builds nothing for the other children. -/
theorem beside (distinct : (Tree.branch branch.1 branch.2).names.Nodup)
    (here : branch.2[index]? = some child)
    (gains : before.Gains child.names world.runner there.runner) {place : Nat} {other : Tree}
    (different : place ≠ index) (at' : branch.2[place]? = some other) :
    ∀ name ∈ other.names, before.newBuilds there.runner name = before.newBuilds world.runner name :=
  fun name named => gains.outside (Tree.apart_of_nodup distinct different at' here name named)

/-- The names below a child are among those below the group. -/
theorem names_of_child (here : branch.2[index]? = some child) :
    ∀ name ∈ child.names, name ∈ (Tree.branch branch.1 branch.2).names := fun _ named =>
  Tree.mem_names_branch.mpr ⟨child, List.mem_of_getElem? here, named⟩

/-- The visits that build for their own jobs. -/
def gainCourse (before : Runner) : Course Tree := fun child world answer _ after =>
  Direct answer → child.standing.isFinished = false → child.Watched before world.runner →
    before.Gains child.names world.runner after.runner

/-- The visits to children, with what they build. -/
abbrev gaining (now : Instant) (before : Runner) : Course Tree := fun child world answer next after =>
  Tree.Sweeps now child world answer next after ∧ gainCourse before child world answer next after

/-- A sweep over a serial group does what one visit does. -/
theorem Single.visits {course : Course Tree}
    (single : Single course branch world ended last after) (direct : Direct ended) :
    after = world ∨ ∃ child next answer, branch.2[branch.1.cursor]? = some child ∧
      child.standing.isFinished = false ∧ course child world answer next after ∧ Direct answer := by
  cases single with
  | rests => exact .inl rfl
  | passes here unfinished visit => exact .inr ⟨_, _, _, here, unfinished, visit, nofun⟩
  | fails here unfinished visit =>
      exact .inr ⟨_, _, _, here, unfinished, visit, (Answered.failed _).direct⟩
  | breaks here unfinished visit =>
      exact .inr ⟨_, _, _, here, unfinished, visit, (Answered.failed _).direct⟩
  | halts here unfinished visit =>
      exact .inr ⟨_, _, _, here, unfinished, visit, direct.halts⟩

theorem Pass.gains (set : now.isSet)
    (pass : Pass (gaining now before) indices branch world status ended last after)
    (direct : Direct ended) (covered : PassCovered before indices branch world status) :
    before.Gains (Tree.branch branch.1 branch.2).names world.runner after.runner := by
  -- What a visit to the first of the places builds.
  have visited : ∀ {index : Nat} {rest : List Nat} {branch : Branch} {world there : World}
      {status : Checking} {child next : Tree} {answer : Except Halt Unit},
      PassCovered before (index :: rest) branch world status → branch.2[index]? = some child →
      child.standing.isFinished = false → gaining now before child world answer next there →
      Direct answer → before.Gains (Tree.branch branch.1 branch.2).names world.runner there.runner := by
    intro index rest branch world there status child next answer covered here unfinished visit direct
    exact (visit.2 direct unfinished (covered.watched.child (List.mem_of_getElem? here))).mono
      (names_of_child here)
  have onward : ∀ {branch next : Branch} {world there after : World}, next.blank = branch.blank →
      before.Gains (Tree.branch branch.1 branch.2).names world.runner there.runner →
      before.Gains (Tree.branch next.1 next.2).names there.runner after.runner →
      before.Gains (Tree.branch branch.1 branch.2).names world.runner after.runner :=
    fun layout first later => first.trans (Tree.names_of_layout (blank_tree layout) ▸ later)
  induction pass with
  | done => exact .same rfl fun _ => rfl
  | skips finished _ ih => exact ih direct (covered.skips finished)
  | @passes _ _ _ _ _ _ _ _ _ _ next here unfinished visit _ ih =>
      exact onward ((blank_cleared _ next).trans (blank_put here visit.1.blank))
        (visited covered here unfinished visit nofun)
        (ih direct (covered.swept set here unfinished visit.1))
  | @fails _ _ _ _ _ _ _ _ _ _ _ _ failure _ here unfinished visit answers _ ih =>
      exact onward ((answers.blank (getElem?_put_self here _)).trans (blank_put here visit.1.blank))
        (visited covered here unfinished visit (Answered.failed failure).direct)
        (ih direct (covered.answered set here unfinished visit.1 answers))
  | @breaks _ _ _ _ _ _ _ _ _ failure _ here unfinished visit =>
      exact visited covered here unfinished visit (Answered.failed failure).direct
  | halts here unfinished visit =>
      exact visited covered here unfinished visit direct.halts

/-- What a pass over a group builds that a sweep has reached. -/
theorem Reached.gains (set : now.isSet) (reached : Reached before branch world)
    (pass : Pass (gaining now before) (List.range branch.span) branch world .finished ended last after)
    (direct : Direct ended) :
    before.Gains (Tree.branch branch.1 branch.2).names world.runner after.runner := by
  cases kind : branch.1.isSerial with
  | true =>
      have single := pass.single kind (reached.around kind).waits.1
      rcases single.visits direct with rfl | ⟨child, next, answer, here, unfinished, visit, direct'⟩
      · exact .same rfl fun _ => rfl
      · exact (visit.2 direct' unfinished (reached.watched.child (List.mem_of_getElem? here))).mono
          (names_of_child here)
  | false => exact pass.gains set direct (reached.start kind)

theorem Sweeps.gains (set : now.isSet) {group group' : Group} {children children' : List Tree}
    (sweeps : Sweeps now (gaining now before) (group, children) world answer (group', children') after)
    (direct : Direct answer) (unfinished : group.standing.isFinished = false)
    (watched : (Tree.branch group children).Watched before world.runner) :
    before.Gains (Tree.branch group children).names world.runner after.runner := by
  have reached := reached_begun now unfinished watched
  refine Tree.names_of_layout (blank_tree (blank_begun (group, children) now)) ▸ ?_
  cases sweeps with
  | halts pass =>
      exact reached.gains set pass direct.halts
  | closes pass => exact reached.gains set pass nofun

end

end Branch

/-- Sweeps start builds for jobs of their tree. -/
theorem Tree.Sweeps.gains {before : Runner} {now : Instant} (set : now.isSet) {tree next : Tree}
    {world after : World} {answer : Except Halt Unit}
    (sweeps : Tree.Sweeps now tree world answer next after) (direct : Direct answer)
    (unfinished : tree.standing.isFinished = false) (watched : tree.Watched before world.runner) :
    before.Gains tree.names world.runner after.runner := by
  refine Sweeps.rule (p := Branch.gainCourse before) ?_ ?_ sweeps direct unfinished watched
  · intro leaf world answer leaf' after follows direct _ watched
    exact follows.gains direct watched.covered.self
  · intro group children world answer group' children' after sweeps direct unfinished watched
    exact sweeps.gains set direct unfinished watched

end BuildFlow
