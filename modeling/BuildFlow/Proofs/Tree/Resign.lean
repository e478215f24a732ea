import BuildFlow.Proofs.Tree.Gain
/-!
Aborted builds are not tried again. A parallel group leaves a child alone that was aborted. A
serial group either fails for good, and takes the groups around it with it, or all of its
children that report everything have ended, and then nothing starts it over.
-/
namespace BuildFlow

namespace Runner

/-- A job gets no build after one that was aborted. -/
def GivesUp (before after : Runner) (name : String) : Prop :=
  ∀ build ∈ (before.newBuilds after name).dropLast, build.result after.tick ≠ .aborted

variable {before runner after : Runner} {name : String}

theorem GivesUp.later (gives : before.GivesUp runner name)
    (idle : ∀ build ∈ (before.newBuilds runner name).dropLast, build.progress runner.tick = .idle)
    (same : before.newBuilds after name = before.newBuilds runner name)
    (order : runner.tick ≤ after.tick) : before.GivesUp after name := by
  intro build member
  rw [same] at member
  rw [Build.result_later (idle build member) order]
  exact gives build member

end Runner

/-! ## Invocations -/

namespace Task

/-- The builds of an invocation, none of which was aborted unless it was given up. -/
structure Resigned (before runner : Runner) (task : Task) : Prop where
  earlier : before.GivesUp runner task.name
  all : (task.standing.isFinished = false ∧ task.standing.isInvoked = false) ∨
    (task.standing.isFinished ∧ task.standing.result ≠ .aborted) →
      ∀ build ∈ before.newBuilds runner task.name, build.result runner.tick ≠ .aborted

variable {before runner after : Runner} {task : Task}

theorem Covered.idle (covered : task.Covered before runner) :
    ∀ build ∈ (before.newBuilds runner task.name).dropLast, build.progress runner.tick = .idle := by
  intro build member
  by_cases still : task.standing.isFinished ∨ task.standing.isInvoked = false
  · exact covered.still still build (List.dropLast_subset _ member)
  · obtain ⟨unfinished, invoked⟩ := not_or.mp still
    obtain ⟨ref, earlier, last, -, -, -, builds, idle⟩ :=
      (covered.busy (Bool.eq_false_iff.mpr unfinished) (Bool.of_not_eq_false invoked)).follows
    rw [builds, List.dropLast_concat] at member
    exact idle build member

theorem Resigned.later (resigned : task.Resigned before runner) (covered : task.Covered before runner)
    (same : after.buildsOf task.name = runner.buildsOf task.name) (order : runner.tick ≤ after.tick) :
    task.Resigned before after where
  earlier := resigned.earlier.later covered.idle (Runner.newBuilds_congr same) order
  all settled build member := by
    rw [Runner.newBuilds_congr same] at member
    have idle : build.progress runner.tick = .idle := by
      refine covered.still ?_ build member
      exact settled.symm.imp And.left And.right
    rw [Build.result_later idle order]
    exact resigned.all settled build member

theorem Resigned.prepare (resigned : task.Resigned before runner) (finished : task.standing.isFinished)
    (unaborted : task.standing.result ≠ .aborted) (scope : Bool) :
    (task.prepare scope).Resigned before runner where
  earlier := resigned.earlier
  all _ := resigned.all (.inr ⟨finished, unaborted⟩)

/-- An attempt begins only after builds that were not aborted. -/
theorem Begun.givesUp {now : Instant} {begun : Task} {world there : World}
    (begins : Begun now task world begun there) (covered : task.Covered before world.runner)
    (resigned : task.Resigned before world.runner) (unfinished : task.standing.isFinished = false) :
    before.GivesUp there.runner task.name := by
  have tick := begins.grows.tick
  cases begins with
  | going => exact resigned.earlier
  | joins _ unchecked => cases covered.upright.checked.symm.trans unchecked
  | starts uninvoked _ invoked =>
      obtain ⟨-, build, -, builds, -, -⟩ :=
        (covered.still (.inr uninvoked)).invoked covered.since invoked
      intro other member
      rw [builds, List.dropLast_concat] at member
      rw [tick]
      exact resigned.all (.inl ⟨unfinished, uninvoked⟩) other member

/-- The last build is the one that was observed. -/
theorem Busy.resigned (busy : task.Busy before runner) (gives : before.GivesUp runner task.name)
    {world : World} (same : world.runner = runner) {result : BuildResult} {progress : Progress}
    (observes : Observed task world result progress) (unaborted : result ≠ .aborted) :
    ∀ build ∈ before.newBuilds runner task.name, build.result runner.tick ≠ .aborted := by
  obtain ⟨ref, earlier, last, followed, named, held, builds, -⟩ := busy.follows
  subst same
  obtain ⟨rfl, -⟩ := observes.held followed (named ▸ held)
  intro build member
  rw [builds] at member
  rcases List.mem_append.mp member with early | latest
  · refine gives build ?_
    rw [builds, List.dropLast_concat]
    exact early
  · rw [List.mem_singleton.mp latest]
    exact unaborted

theorem Resigned.found {found : Task} {world there : World}
    (resigned : task.Resigned before world.runner) (covered : task.Covered before world.runner)
    (finds : Found task world found there) :
    found.Resigned before there.runner := by
  have later := resigned.later covered (finds.buildsOf _) (Nat.le_of_eq finds.grows.tick.symm)
  refine ⟨?_, ?_⟩
  · rw [finds.attempted.name]
    exact later.earlier
  · rw [finds.standing, finds.attempted.name]
    exact later.all

/-- A step of an invocation that may begin. Where its build was aborted, it tells its group. -/
theorem Follows.resigned {now : Instant} (set : now.isSet) {next : Task} {world there : World}
    {answer : Except Halt Unit} (follows : Follows now task world answer next there)
    (answered : Answered answer) (unfinished : task.standing.isFinished = false)
    (covered : task.Covered before world.runner) (resigned : task.Resigned before world.runner) :
    next.Resigned before there.runner ∧ (next.standing.isFinished → next.standing.result = .aborted →
      ∃ failure, answer = failedBy failure ∧ failure.isAborted) := by
  cases follows with
  | missing unresolved =>
      have uninvoked := covered.uninvoked unfinished unresolved
      have later := resigned.later covered (Runner.buildsOf_lookup world.runner task.name task.name)
        (Nat.le_of_eq (Runner.tick_lookup _ _).symm)
      exact ⟨⟨later.earlier, fun _ => later.all (.inl ⟨unfinished, uninvoked⟩)⟩, fun _ => nofun⟩
  | waits finds begins =>
      have covered' := finds.covered covered
      have resigned' := resigned.found covered finds
      have waits := finds.standing ▸ unfinished
      obtain ⟨-, invoked, -⟩ := begins.busy set finds.resolved covered' waits
      have unfinished' : next.standing.isFinished = false :=
        (finds.attempted.trans begins.attempted).isFinished.trans unfinished
      refine ⟨⟨?_, ?_⟩, fun finished => by cases unfinished'.symm.trans finished⟩
      · rw [begins.attempted.name]
        exact begins.givesUp covered' resigned' waits
      · rintro (⟨-, uninvoked⟩ | ⟨finished, -⟩)
        · cases invoked.symm.trans uninvoked
        · cases unfinished'.symm.trans finished
  | @ends _ begun _ _ result _ finds begins observes idle =>
      have covered' := finds.covered covered
      have resigned' := resigned.found covered finds
      have waits := finds.standing ▸ unfinished
      obtain ⟨busy, -, -⟩ := begins.busy set finds.resolved covered' waits
      have gives := begins.givesUp covered' resigned' waits
      rw [← begins.attempted.name] at gives
      -- The last build is the one that was observed, and its result is that of the invocation.
      refine ⟨⟨gives, ?_⟩, fun _ aborted => ?_⟩
      · rintro (⟨unfinished', -⟩ | ⟨-, unaborted⟩)
        · cases unfinished'
        · exact busy.resigned gives rfl observes unaborted
      · have same : result = .aborted := aborted
        subst same
        exact ⟨_, rfl, rfl⟩
  | strays _ _ _ strays => cases answered; cases strays
  | lost => cases answered

/-- A job gets no build after an aborted one, also in a step that breaks off. -/
theorem Follows.givesUp {now : Instant} {next : Task} {world there : World}
    {answer : Except Halt Unit} (follows : Follows now task world answer next there)
    (direct : Direct answer) (unfinished : task.standing.isFinished = false)
    (covered : task.Covered before world.runner) (resigned : task.Resigned before world.runner) :
    before.GivesUp there.runner task.name := by
  have begun : ∀ {found begun : Task} {middle : World}, Found task world found middle →
      Begun now found middle begun there → before.GivesUp there.runner task.name := by
    intro found begun middle finds begins
    have resigned' := resigned.found covered finds
    rw [← finds.attempted.name]
    exact begins.givesUp (finds.covered covered) resigned' (finds.standing ▸ unfinished)
  cases follows with
  | missing =>
      exact resigned.earlier.later covered.idle
        (Runner.newBuilds_congr (Runner.buildsOf_lookup world.runner task.name task.name))
        (Nat.le_of_eq (Runner.tick_lookup _ _).symm)
  | waits finds begins => exact begun finds begins
  | ends finds begins => exact begun finds begins
  | strays _ _ _ strays =>
      refine absurd ?_ (direct _ rfl)
      cases strays <;> trivial
  | lost finds begins => exact begun finds begins

end Task

namespace Group

@[simp] theorem aborted_setFailed (group : Group) (failed : Table Nat String) :
    (group.setFailed failed).aborted = group.aborted := by
  cases discipline : group.discipline <;> simp [setFailed, discipline]

@[simp] theorem aborted_setCursor (group : Group) (cursor : Nat) :
    (group.setCursor cursor).aborted = group.aborted := by
  cases discipline : group.discipline <;> simp [setCursor, discipline]

@[simp] theorem aborted_begun (group : Group) (now : Instant) :
    (group.begun now).aborted = group.aborted := by
  unfold begun started
  split <;> split <;> rfl

end Group

/-! ## Trees -/

namespace Tree

/-- The node was aborted, and has failed for that. -/
def Barred : Tree → Prop
  | .task leaf => leaf.standing.isFinished ∧ leaf.standing.result = .aborted
  | .branch group _ => group.aborted ∧ group.standing.isFinished ∧ group.standing.result = .failure

/-- All children that report everything have ended. -/
def Over (children : List Tree) : Prop :=
  ∀ child ∈ children, child.standing.propagation = .normal → child.standing.isFinished

theorem Barred.finished {tree : Tree} (barred : tree.Barred) : tree.standing.isFinished := by
  cases tree with
  | task leaf => exact barred.1
  | branch group children => exact barred.2.1

theorem unbarred_prepare (tree : Tree) (scope : Bool) : ¬ (tree.prepare scope).Barred := fun barred => by
  have finished := barred.finished
  rw [standing_prepare, Standing.isFinished_prepare] at finished
  cases finished

end Tree

/-- A serial group knows of a child that is barred. Once it was aborted, it has failed for good,
or nothing is left that could start it over. -/
structure Branch.Resigned (branch : Branch) : Prop where
  told : branch.1.isSerial → ∀ child ∈ branch.2, child.Barred → branch.1.aborted
  ended : branch.1.isSerial → branch.1.aborted →
    branch.1.standing.isFinished ∧ branch.1.standing.result = .failure ∨ Tree.Over branch.2

namespace Tree

def Resigned (before runner : Runner) : Tree → Prop
  | .task leaf => leaf.Resigned before runner
  | .branch group children => Branch.Resigned (group, children)

variable {before runner after : Runner} {tree : Tree}

/-- Others build, or time passes. -/
theorem Resigned.later (resigned : tree.Every (Resigned before runner))
    (covered : tree.Every (Covered before runner))
    (same : ∀ name ∈ tree.names, after.buildsOf name = runner.buildsOf name)
    (order : runner.tick ≤ after.tick) : tree.Every (Resigned before after) := by
  intro node member
  have here := resigned node member
  have covered := covered node member
  cases node with
  | task leaf =>
      have named := names_of_mem_nodes member (List.mem_singleton_self leaf.name)
      exact Task.Resigned.later here covered (same _ named) order
  | branch group children => exact here

/-- A node that has ended is tried again only if it is not barred. -/
theorem Resigned.prepare (resigned : tree.Every (Resigned before runner))
    (finished : tree.standing.isFinished) (unbarred : ¬ tree.Barred) (scope : Bool) :
    (tree.prepare scope).Every (Resigned before runner) := by
  refine resigned.prepared ?_
  have here := resigned.self
  cases tree with
  | task leaf =>
      exact Task.Resigned.prepare here finished (fun aborted => unbarred ⟨finished, aborted⟩) scope
  | branch group children =>
      have serial : (group.prepare scope).isSerial = group.isSerial := Group.isSerial_setCursor _ _
      have aborted : (group.prepare scope).aborted = group.aborted := Group.aborted_setCursor _ _
      obtain ⟨told, ended⟩ := here
      refine ⟨fun kind child among barred => ?_, fun kind aborted' => .inr ?_⟩
      · rw [aborted]
        exact told (serial ▸ kind) child among barred
      · exact (ended (serial ▸ kind) (aborted ▸ aborted')).resolve_left
          fun failed => unbarred ⟨aborted ▸ aborted', failed⟩

theorem resigned_of_ready (ready : tree.Every (Ready runner))
    (unbuilt : ∀ name ∈ tree.names, runner.buildsOf name = before.buildsOf name) :
    tree.Every (Resigned before runner) := by
  have unbarred : ∀ node ∈ tree.nodes, ¬ node.Barred := by
    intro node member barred
    have finished := barred.finished
    rw [(ready node member).standing, Standing.isFinished_prepare] at finished
    cases finished
  intro node member
  cases node with
  | task leaf =>
      have named := names_of_mem_nodes member (List.mem_singleton_self leaf.name)
      have none : before.newBuilds runner leaf.name = [] := Runner.newBuilds_eq_nil (unbuilt _ named)
      refine ⟨fun build member => ?_, fun _ build member => ?_⟩ <;>
        rw [none] at member <;> cases member
  | branch group children =>
      refine ⟨fun _ child among barred => ?_, fun _ aborted => ?_⟩
      · exact absurd barred (unbarred child (mem_nodes_of_child member among (self_mem_nodes child)))
      · have same : group = group.blank.prepare false := ready _ member
        have fresh : (group.blank.prepare false).aborted = false := Group.aborted_setCursor _ _
        rw [same, fresh] at aborted
        cases aborted

/-- No job of the tree has got a build after an aborted one. -/
theorem Resigned.givesUp (resigned : tree.Every (Resigned before runner)) :
    ∀ name ∈ tree.names, before.GivesUp runner name := by
  intro name named
  obtain ⟨leaf, member, rfl⟩ := exists_of_mem_names named
  exact Task.Resigned.earlier (resigned _ member)

/-- Nor does it while only others build. -/
theorem Resigned.givesUp_later (resigned : tree.Every (Resigned before runner))
    (covered : tree.Every (Covered before runner))
    (same : ∀ name ∈ tree.names, before.newBuilds after name = before.newBuilds runner name)
    (order : runner.tick ≤ after.tick) : ∀ name ∈ tree.names, before.GivesUp after name := by
  intro name named
  obtain ⟨leaf, member, rfl⟩ := exists_of_mem_names named
  exact (Task.Resigned.earlier (resigned _ member)).later (Task.Covered.idle (covered _ member))
    (same _ named) order

end Tree

theorem Tree.propagation_of_layout {tree next : Tree} (layout : next.blank = tree.blank) :
    next.standing.propagation = tree.standing.propagation := by
  rw [← Tree.propagation_blank next, layout, Tree.propagation_blank]

namespace Branch

section

variable {before : Runner} {now : Instant} {index : Nat} {rest : List Nat} {branch last next : Branch}
  {world there : World} {status : Checking} {child visited : Tree} {failure : JobFailure}
  {answer : Except Halt Unit} {again : Bool} {indices : List Nat}

/-- The visits that leave aborted nodes alone. One that is barred tells its group. -/
def resignCourse (before : Runner) : Course Tree := fun child world answer next after =>
  Answered answer → child.standing.isFinished = false → child.Watched before world.runner →
    child.Every (Tree.Resigned before world.runner) →
      next.Every (Tree.Resigned before after.runner) ∧
        (next.Barred → ∃ failure, answer = failedBy failure ∧ failure.isAborted)

/-- The visits to children, which leave aborted nodes alone. -/
abbrev mindful (now : Instant) (before : Runner) : Course Tree := fun child world answer next after =>
  Tree.Sweeps now child world answer next after ∧ resignCourse before child world answer next after

theorem put_resigned (watched : branch.Watched before world.runner)
    (resigned : ∀ child ∈ branch.2, child.Every (Tree.Resigned before world.runner))
    (here : branch.2[index]? = some child) (sweep : Tree.Sweeps now child world answer visited there)
    (answered : Answered answer) {new : Tree}
    (resigned' : new.Every (Tree.Resigned before there.runner)) :
    ∀ other ∈ (branch.put index new).2, other.Every (Tree.Resigned before there.runner) :=
  put_all resigned' fun _ other different at' =>
    have among := List.mem_of_getElem? at'
    Tree.Resigned.later (resigned other among) (watched.every other among)
      (spares watched.distinct here sweep answered different at') (Nat.le_of_eq sweep.grows.tick.symm)

/-! ### Serial groups -/

/-- How a serial group answers a checked child: it gives up if that was aborted, and else it
leaves the child as it is or starts over. -/
theorem Answers.fate (answers : Answers branch index child failure (.ok again) next)
    (serial : branch.1.isSerial) (here : branch.2[index]? = some child)
    (checked : child.standing.isUnchecked = false) (finished : child.standing.isFinished) :
    next.2 = branch.2 ∧ again = false ∧ next.1.aborted ∧ next.2.length ≤ next.1.cursor ∨
      failure.isAborted = false ∧ next.1.aborted = branch.1.aborted ∧
        (next.2 = branch.2 ∨
          child.standing.propagation = .normal ∧ next.2 = (branch.retried index child).2) := by
  have kept := put_finish here finished
  have noted : (branch.noted child).1.isSerial = branch.1.isSerial := Group.isSerial_setFailed _ _
  have flag : (branch.noted child).1.aborted = branch.1.aborted := Group.aborted_setFailed _ _
  cases answers with
  | aborts =>
      have serial' : ((branch.noted child).put index child.finish).group.isSerial :=
        noted.trans serial
      refine .inl ?_
      unfold aborting
      rw [if_pos serial']
      exact ⟨kept, rfl, Group.aborted_setCursor _ _, length_le_leaving serial'⟩
  | abortsUnchecked _ unchecked => cases checked.symm.trans unchecked
  | stays unaborted => exact .inr ⟨unaborted, flag, .inl rfl⟩
  | retries unaborted _ normal =>
      refine .inr ⟨unaborted, ?_, .inr ⟨normal serial, retried_noted branch index child⟩⟩
      unfold retried
      rw [if_pos (by exact noted.trans serial)]
      exact (Group.aborted_setCursor _ _).trans flag
  | ends unaborted => exact .inr ⟨unaborted, (Group.aborted_setCursor _ _).trans flag, .inl kept⟩
  | endsUnchecked _ _ unchecked => cases checked.symm.trans unchecked

/-- A group that waits, and knows of the children that are barred. -/
structure Knowing (before : Runner) (branch : Branch) (world : World) : Prop where
  reached : Reached before branch world
  resigned : ∀ child ∈ branch.2, child.Every (Tree.Resigned before world.runner)
  told : branch.1.isSerial → ∀ child ∈ branch.2, child.Barred → branch.1.aborted
  ended : branch.1.isSerial → branch.1.aborted → Tree.Over branch.2

/-- What a pass has left of a group. -/
structure PassResigned (before : Runner) (branch : Branch) (world : World) (status : Checking) :
    Prop where
  resigned : ∀ child ∈ branch.2, child.Every (Tree.Resigned before world.runner)
  told : branch.1.isSerial → ∀ child ∈ branch.2, child.Barred → branch.1.aborted
  ended : branch.1.isSerial → branch.1.aborted →
    Tree.Over branch.2 ∨ status = .finished ∧ branch.2.length ≤ branch.1.cursor

/-- What a visit to a child of a group comes to that is kept track of. -/
theorem visit_resigned (set : now.isSet) (watched : branch.Watched before world.runner)
    (resigned : ∀ child ∈ branch.2, child.Every (Tree.Resigned before world.runner))
    (here : branch.2[index]? = some child) (unfinished : child.standing.isFinished = false)
    (visit : mindful now before child world answer visited there) (answered : Answered answer) :
    (visited.Every (Tree.Covered before there.runner) ∧
        ∀ failure, answer = failedBy failure → visited.standing.isFinished) ∧
      visited.Every (Tree.Resigned before there.runner) ∧
        (visited.Barred → ∃ failure, answer = failedBy failure ∧ failure.isAborted) :=
  have member := List.mem_of_getElem? here
  ⟨sweep_covered set watched here unfinished visit.1 answered,
    visit.2 answered unfinished (watched.child member) (resigned child member)⟩

/-- Only an aborted visit leaves a child barred of which the group was not told. -/
theorem Knowing.told_put (knows : Knowing before branch world) (serial : branch.1.isSerial)
    (barred : visited.Barred → branch.1.aborted) :
    ∀ other ∈ (branch.put index visited).2, other.Barred → branch.1.aborted := by
  intro other member barred'
  rcases List.mem_or_eq_of_mem_set member with old | rfl
  · exact knows.told serial other old barred'
  · exact barred barred'

/-- A child at work that reports everything keeps its group from being over. -/
theorem over_put (allEnded : Tree.Over branch.2) (here : branch.2[index]? = some child)
    (unfinished : child.standing.isFinished = false) (layout : visited.blank = child.blank) :
    Tree.Over (branch.put index visited).2 ∧ visited.standing.propagation ≠ .normal := by
  have abnormal : visited.standing.propagation ≠ .normal := fun normal => by
    have finished := allEnded child (List.mem_of_getElem? here)
      ((Tree.propagation_of_layout layout).symm.trans normal)
    cases unfinished.symm.trans finished
  refine ⟨fun other member normal => ?_, abnormal⟩
  rcases List.mem_or_eq_of_mem_set member with old | rfl
  · exact allEnded other old normal
  · exact absurd normal abnormal

/-- A serial group that starts over takes up no child that is barred. -/
theorem Knowing.retried (knows : Knowing before branch world) (serial : branch.1.isSerial)
    (here : branch.2[branch.1.cursor]? = some child) (unaborted : branch.1.aborted = false)
    (around : Around before (branch.put branch.1.cursor visited) branch.1.cursor there.runner)
    (resigned : ∀ other ∈ (branch.put branch.1.cursor visited).2,
      other.Every (Tree.Resigned before there.runner))
    (finished : visited.standing.isFinished) (unbarred : ¬ visited.Barred) :
    ∀ other ∈ ((branch.put branch.1.cursor visited).retried branch.1.cursor visited).2,
      other.Every (Tree.Resigned before there.runner) ∧ ¬ other.Barred := by
  have known : ∀ other ∈ (branch.put branch.1.cursor visited).2, ¬ other.Barred :=
    fun other member barred =>
      Bool.false_ne_true (unaborted.symm.trans
        (knows.told_put serial (fun barred => absurd barred unbarred) other member barred))
  refine retried_all here around finished (fun old member finished scope => ?_)
    fun place other different at' => ?_
  · exact ⟨Tree.Resigned.prepare (resigned old member) finished (known old member) scope,
      Tree.unbarred_prepare _ _⟩
  · exact ⟨resigned other (List.mem_of_getElem? at'), known other (List.mem_of_getElem? at')⟩

theorem Knowing.passes (set : now.isSet) (knows : Knowing before branch world)
    (serial : branch.1.isSerial) (here : branch.2[branch.1.cursor]? = some child)
    (unfinished : child.standing.isFinished = false)
    (visit : mindful now before child world (.ok ()) visited there) :
    PassResigned before ((branch.put branch.1.cursor visited).cleared visited) there status := by
  have watched := knows.reached.watched
  obtain ⟨-, resigned, tells⟩ := visit_resigned set watched knows.resigned here unfinished visit .ok
  have flag : ((branch.put branch.1.cursor visited).cleared visited).1.aborted = branch.1.aborted :=
    Group.aborted_setFailed _ _
  refine ⟨put_resigned watched knows.resigned here visit.1 .ok resigned, fun _ => ?_,
    fun _ aborted => .inl ?_⟩
  · rw [flag]
    refine knows.told_put serial fun barred => ?_
    obtain ⟨failure, failed, -⟩ := tells barred
    cases failed
  · exact (over_put (knows.ended serial (flag ▸ aborted)) here unfinished visit.1.blank).1

/-- A serial group whose child has failed knows whether that was aborted. It starts over only
if nothing was. -/
theorem Knowing.fails (set : now.isSet) (knows : Knowing before branch world)
    (serial : branch.1.isSerial) (here : branch.2[branch.1.cursor]? = some child)
    (unfinished : child.standing.isFinished = false)
    (visit : mindful now before child world (failedBy failure) visited there)
    (answers : Answers (branch.put branch.1.cursor visited) branch.1.cursor visited failure
      (.ok again) next) :
    PassResigned before next there (if again then .mustCheck else .finished) := by
  obtain ⟨reached, resigned, -, ended⟩ := id knows
  obtain ⟨⟨covered, finished⟩, resigned', tells⟩ :=
    visit_resigned set reached.watched resigned here unfinished visit (.failed failure)
  have finished := finished failure rfl
  have every := put_resigned reached.watched resigned here visit.1 (.failed failure) resigned'
  have placed := getElem?_put_self here visited
  rcases answers.fate serial placed covered.self.upright.checked finished with
    ⟨same, rfl, aborted, left⟩ | ⟨unaborted, flag, fate⟩
  · exact ⟨same ▸ every, fun _ _ _ _ => aborted, fun _ _ => .inr ⟨rfl, left⟩⟩
  have unbarred : ¬ visited.Barred := fun barred => by
    obtain ⟨failure', failed, aborted⟩ := tells barred
    cases failed
    cases unaborted.symm.trans aborted
  -- A group that was aborted before has only children left that report less.
  have spent : next.1.aborted → Tree.Over (branch.put branch.1.cursor visited).2 ∧
      visited.standing.propagation ≠ .normal := fun aborted =>
    over_put (ended serial (flag ▸ aborted)) here unfinished visit.1.blank
  rcases fate with same | ⟨normal, same⟩
  · refine ⟨same ▸ every, fun _ => ?_, fun _ aborted => .inl (same ▸ (spent aborted).1)⟩
    rw [flag, same]
    exact knows.told_put serial fun barred => absurd barred unbarred
  · have calm : branch.1.aborted = false := by
      rw [← Bool.not_eq_true]
      exact fun aborted => (spent (flag.trans aborted)).2 normal
    have around := (reached.around serial).put reached.watched.distinct here visit.1 (.failed failure)
    have retried : ∀ other ∈ next.2,
        other.Every (Tree.Resigned before there.runner) ∧ ¬ other.Barred := fun other member =>
      knows.retried serial here calm around every finished unbarred other (same ▸ member)
    refine ⟨fun other member => (retried other member).1,
      fun _ other member barred => absurd barred (retried other member).2, fun _ aborted => ?_⟩
    cases calm.symm.trans (flag.symm.trans aborted)

theorem Single.resigned (set : now.isSet)
    (single : Single (mindful now before) branch world (.ok status) last there)
    (serial : branch.1.isSerial) (knows : Knowing before branch world) :
    PassResigned before last there status := by
  cases single with
  | rests => exact ⟨knows.resigned, knows.told, fun serial aborted => .inl (knows.ended serial aborted)⟩
  | passes here unfinished visit => exact knows.passes set serial here unfinished visit
  | fails here unfinished visit answers => exact knows.fails set serial here unfinished visit answers

/-! ### Parallel groups -/

/-- A parallel group takes up no child that is barred. -/
theorem PassCovered.resigns (kept : PassCovered before (index :: rest) branch world status)
    (resigned : ∀ child ∈ branch.2, child.Every (Tree.Resigned before world.runner))
    (here : branch.2[index]? = some child)
    (sweep : Tree.Sweeps now child world (failedBy failure) visited there)
    (covered : visited.Every (Tree.Covered before there.runner))
    (finished : visited.standing.isFinished)
    (resigned' : visited.Every (Tree.Resigned before there.runner))
    (tells : visited.Barred → ∃ failure', failedBy failure = failedBy failure' ∧ failure'.isAborted)
    (answers : Answers (branch.put index visited) index visited failure (.ok again) next) :
    ∀ child ∈ next.2, child.Every (Tree.Resigned before there.runner) := by
  obtain ⟨new, alone, fate⟩ := answers.alone (getElem?_put_self here visited)
    covered.self.upright.checked finished kept.parallel
  have put : (branch.put index visited).2.set index new = (branch.put index new).2 := List.set_set _
  rw [alone, put]
  refine put_resigned kept.watched resigned here sweep (.failed failure) ?_
  rcases fate with rfl | ⟨unaborted, scope, rfl⟩
  · exact resigned'
  · refine Tree.Resigned.prepare resigned' finished (fun barred => ?_) scope
    obtain ⟨failure', failed, aborted⟩ := tells barred
    cases failed
    cases unaborted.symm.trans aborted

theorem Pass.resigned (set : now.isSet) {final : Checking}
    (pass : Pass (mindful now before) indices branch world status (.ok final) last there)
    (kept : PassCovered before indices branch world status)
    (resigned : ∀ child ∈ branch.2, child.Every (Tree.Resigned before world.runner)) :
    ∀ child ∈ last.2, child.Every (Tree.Resigned before there.runner) := by
  refine (pass.arrives (p := fun indices branch world status =>
    PassCovered before indices branch world status ∧
      ∀ child ∈ branch.2, child.Every (Tree.Resigned before world.runner)) ?_ ?_ ?_ ⟨kept, resigned⟩).2
  · rintro index rest branch world status ⟨kept, resigned⟩ finished
    exact ⟨kept.skips finished, resigned⟩
  · rintro index rest branch world status child next there ⟨kept, resigned⟩ here unfinished visit
    obtain ⟨-, resigned', -⟩ := visit_resigned set kept.watched resigned here unfinished visit .ok
    exact ⟨kept.swept set here unfinished visit.1,
      put_resigned kept.watched resigned here visit.1 .ok resigned'⟩
  · rintro index rest branch world status child next there failure again answered
      ⟨kept, resigned⟩ here unfinished visit answers
    obtain ⟨⟨covered, finished⟩, resigned', tells⟩ :=
      visit_resigned set kept.watched resigned here unfinished visit (.failed failure)
    exact ⟨kept.answered set here unfinished visit.1 answers,
      kept.resigns resigned here visit.1 covered (finished failure rfl) resigned' tells answers⟩

/-! ### Sweeps -/

theorem PassResigned.closed (kept : PassResigned before branch world status) :
    PassResigned before (branch.closed status) world status :=
  ⟨kept.resigned, kept.told, kept.ended⟩

/-- A group that a sweep reaches knows of the children that are barred. -/
theorem knowing_begun {group : Group} {children : List Tree} (now : Instant)
    (unfinished : group.standing.isFinished = false)
    (watched : (Tree.branch group children).Watched before world.runner)
    (resigned : (Tree.branch group children).Every (Tree.Resigned before world.runner)) :
    Knowing before (begun (group, children) now) world := by
  obtain ⟨⟨told, ended⟩, below⟩ := Tree.every_branch.mp resigned
  have kind : (group.begun now).isSerial = group.isSerial := Group.isSerial_begun _ _
  have flag : (group.begun now).aborted = group.aborted := Group.aborted_begun _ _
  refine ⟨reached_begun now unfinished watched, below, fun serial => ?_,
    fun serial aborted => ?_⟩
  · change ∀ child ∈ children, child.Barred → (group.begun now).aborted
    rw [flag]
    exact told (kind ▸ serial)
  · refine (ended (kind ▸ serial) (flag ▸ aborted)).resolve_left fun failed => ?_
    cases unfinished.symm.trans failed.1

/-- What a pass over a group comes to that knows of its children. -/
theorem Knowing.passed (set : now.isSet) (knows : Knowing before branch world)
    (pass : Pass (mindful now before) (List.range branch.span) branch world .finished (.ok status)
      last there) : PassResigned before last there status := by
  cases kind : branch.1.isSerial with
  | true => exact (pass.single kind (knows.reached.around kind).waits.1).resigned set kind knows
  | false =>
      have parallel : last.1.isSerial = false := pass.isSerial.trans kind
      refine ⟨pass.resigned set (knows.reached.start kind) knows.resigned, ?_, ?_⟩ <;>
        exact fun serial => by cases parallel.symm.trans serial

/-- A checked child that does not look like a failure has come to its end, if it reports
everything. -/
theorem Led.allOver (led : Led before branch world status)
    (fine : (branch.aggregate branch.2.length).isFailure = false) : Tree.Over branch.2 := by
  intro child member normal
  rcases (led.every child member).self.upright.settled with ⟨-, unknown⟩ | finished
  · refine absurd ((Standing.propagatedResult_eq_failure normal).mpr (.inr unknown)) ?_
    exact fine_of_aggregate fine ((List.take_length (l := branch.2)).symm ▸ member)
  · exact decide_eq_true finished

/-- How a group ends that a pass has left so. If it is barred, it tells the group around it. -/
theorem Closes.resigned (closes : Closes now branch status answer last) (answered : Answered answer)
    (led : Led before branch world status) (kept : PassResigned before branch world status)
    (checking : branch.1.standing.checking = status) :
    (Tree.branch last.1 last.2).Every (Tree.Resigned before world.runner) ∧
      ((Tree.branch last.1 last.2).Barred →
        ∃ failure, answer = failedBy failure ∧ failure.isAborted) := by
  obtain ⟨resigned, told, ended⟩ := kept
  -- A group that failed is told of by its own failure, and no other end leaves it barred.
  cases closes with
  | pending pending =>
      obtain rfl := (isPending_iff.mp pending).resolve_right fun known => known led.unknown
      refine ⟨Tree.every_branch.mpr ⟨⟨told, fun serial aborted => ?_⟩, resigned⟩, fun barred => ?_⟩
      · exact .inr ((ended serial aborted).resolve_right fun left => Checking.noConfusion left.1)
      · cases (Standing.unfinished checking).symm.trans barred.2.1
  | overdue => cases answered
  | @fails settled failure reason aborted =>
      obtain rfl := led.plain.resolve_left (settled_iff.mp settled).1
      have failed := aggregate_of_isFailure led.unknown failure
      refine ⟨Tree.every_branch.mpr ⟨⟨told, fun _ _ => .inl ⟨?_, failed⟩⟩, resigned⟩, fun barred => ?_⟩
      · exact decide_eq_true checking
      · exact ⟨reason, rfl, aborted.trans barred.1⟩
  | moves settled fine serial more =>
      have more : branch.1.cursor + 1 < branch.2.length := more
      have flag : branch.moved.waiting.1.aborted = branch.1.aborted := Group.aborted_setCursor _ _
      refine ⟨Tree.every_branch.mpr ⟨⟨fun _ => ?_, fun _ aborted => ?_⟩, resigned⟩, nofun⟩
      · change ∀ child ∈ branch.2, child.Barred → branch.moved.waiting.1.aborted
        rw [flag]
        exact told serial
      · exact .inr ((ended serial (flag ▸ aborted)).resolve_right fun left => by omega)
  | ends settled fine all =>
      have flag : branch.summed.moved.1.aborted = branch.1.aborted := Group.aborted_setCursor _ _
      have kind : branch.summed.moved.1.isSerial = branch.1.isSerial := Group.isSerial_setCursor _ _
      refine ⟨Tree.every_branch.mpr ⟨⟨fun serial => ?_, fun _ _ => .inr ?_⟩, resigned⟩, fun barred => ?_⟩
      · change ∀ child ∈ branch.2, child.Barred → branch.summed.moved.1.aborted
        rw [flag]
        exact told (kind ▸ serial)
      · refine led.allOver ?_
        rw [span_all all] at fine
        exact fine
      · have failed : branch.aggregate branch.span = .failure :=
          (congrArg Standing.result branch.summed.standing_moved).symm.trans barred.2.2
        rw [failed] at fine
        cases fine

theorem Sweeps.resigned (set : now.isSet) {group group' : Group} {children children' : List Tree}
    (sweeps : Sweeps now (mindful now before) (group, children) world answer (group', children') there)
    (answered : Answered answer) (unfinished : group.standing.isFinished = false)
    (watched : (Tree.branch group children).Watched before world.runner)
    (resigned : (Tree.branch group children).Every (Tree.Resigned before world.runner)) :
    (Tree.branch group' children').Every (Tree.Resigned before there.runner) ∧
      ((Tree.branch group' children').Barred →
        ∃ failure, answer = failedBy failure ∧ failure.isAborted) := by
  cases sweeps with
  | halts pass => cases answered; exact absurd rfl (pass.hard _)
  | closes pass closes =>
      have reached := reached_begun now unfinished watched
      have led := reached.led (pass.mono fun visit => ⟨visit.1, Tree.Sweeps.covered set visit.1⟩)
      have kept := (knowing_begun now unfinished watched resigned).passed set pass
      exact closes.resigned answered led.closed kept.closed rfl

end

end Branch

/-- Sweeps leave aborted builds alone. -/
theorem Tree.Sweeps.resigned {before : Runner} {now : Instant} (set : now.isSet) {tree next : Tree}
    {world after : World} {answer : Except Halt Unit}
    (sweeps : Tree.Sweeps now tree world answer next after) (answered : Answered answer)
    (unfinished : tree.standing.isFinished = false) (watched : tree.Watched before world.runner)
    (resigned : tree.Every (Resigned before world.runner)) :
    next.Every (Resigned before after.runner) ∧
      (next.Barred → ∃ failure, answer = failedBy failure ∧ failure.isAborted) := by
  refine Sweeps.rule (p := Branch.resignCourse before) ?_ ?_ sweeps answered unfinished watched resigned
  · intro leaf world answer leaf' after follows answered unfinished watched resigned
    obtain ⟨resigned', told⟩ :=
      follows.resigned set answered unfinished watched.covered.self resigned.self
    exact ⟨every_task.mpr resigned', fun barred => told barred.1 barred.2⟩
  · intro group children world answer group' children' after sweeps answered unfinished watched resigned
    exact sweeps.resigned set answered unfinished watched resigned

/-! ### Sweeps that break off -/

namespace Branch

section

variable {before : Runner} {now : Instant} {index : Nat} {indices : List Nat} {branch last : Branch}
  {world there : World} {status : Checking} {child visited : Tree} {answer : Except Halt Unit}
  {ended : Except Halt Checking}

/-- The visits that build nothing after an aborted build. -/
def giveCourse (before : Runner) : Course Tree := fun child world answer _ after =>
  Direct answer → child.standing.isFinished = false → child.Watched before world.runner →
    child.Every (Tree.Resigned before world.runner) →
      ∀ name ∈ child.names, before.GivesUp after.runner name

/-- The visits to children, with what they do not build. -/
abbrev giving (now : Instant) (before : Runner) : Course Tree := fun child world answer next after =>
  Tree.Sweeps now child world answer next after ∧ giveCourse before child world answer next after

theorem givesUp_branch
    (resigned : ∀ child ∈ branch.2, child.Every (Tree.Resigned before world.runner)) :
    ∀ name ∈ (Tree.branch branch.1 branch.2).names, before.GivesUp world.runner name := by
  intro name named
  obtain ⟨child, member, named⟩ := Tree.mem_names_branch.mp named
  exact Tree.Resigned.givesUp (resigned child member) name named

theorem visit_givesUp (set : now.isSet) (watched : branch.Watched before world.runner)
    (resigned : ∀ child ∈ branch.2, child.Every (Tree.Resigned before world.runner))
    (here : branch.2[index]? = some child) (unfinished : child.standing.isFinished = false)
    (visit : giving now before child world answer visited there) (direct : Direct answer) :
    ∀ name ∈ (Tree.branch branch.1 branch.2).names, before.GivesUp there.runner name := by
  intro name named
  obtain ⟨other, among, named⟩ := Tree.mem_names_branch.mp named
  obtain ⟨place, at'⟩ := List.mem_iff_getElem?.mp among
  have member := List.mem_of_getElem? here
  by_cases same : place = index
  · subst same
    cases here.symm.trans at'
    exact visit.2 direct unfinished (watched.child member) (resigned child member) name named
  · have gains := visit.1.gains set direct unfinished (watched.child member)
    exact Tree.Resigned.givesUp_later (resigned other among) (watched.every other among)
      (beside watched.distinct here gains same at') (Nat.le_of_eq gains.tick.symm) name named

theorem Pass.givesUp (set : now.isSet)
    (pass : Pass (giving now before) indices branch world status ended last there)
    (direct : Direct ended) (kept : PassCovered before indices branch world status)
    (resigned : ∀ child ∈ branch.2, child.Every (Tree.Resigned before world.runner)) :
    ∀ name ∈ (Tree.branch branch.1 branch.2).names, before.GivesUp there.runner name := by
  have names : ∀ {branch next : Branch}, next.blank = branch.blank →
      (Tree.branch next.1 next.2).names = (Tree.branch branch.1 branch.2).names :=
    fun layout => Tree.names_of_layout (blank_tree layout)
  induction pass with
  | done => exact givesUp_branch resigned
  | skips finished _ ih => exact ih direct (kept.skips finished) resigned
  | @passes _ _ _ _ _ _ _ _ _ _ next here unfinished visit _ ih =>
      obtain ⟨-, resigned', -⟩ := visit_resigned set kept.watched resigned here unfinished
        ⟨visit.1, visit.1.resigned set⟩ .ok
      exact names ((blank_cleared _ next).trans (blank_put here visit.1.blank)) ▸
        ih direct (kept.swept set here unfinished visit.1)
          (put_resigned kept.watched resigned here visit.1 .ok resigned')
  | @fails _ _ _ _ _ _ _ _ _ _ _ _ failure _ here unfinished visit answers _ ih =>
      obtain ⟨⟨covered, finished⟩, resigned', tells⟩ := visit_resigned set kept.watched resigned here
        unfinished ⟨visit.1, visit.1.resigned set⟩ (.failed failure)
      exact names ((answers.blank (getElem?_put_self here _)).trans (blank_put here visit.1.blank)) ▸
        ih direct (kept.answered set here unfinished visit.1 answers)
          (kept.resigns resigned here visit.1 covered (finished failure rfl) resigned' tells answers)
  | @breaks _ _ _ _ _ _ _ _ _ failure _ here unfinished visit =>
      exact visit_givesUp set kept.watched resigned here unfinished visit
        (Answered.failed failure).direct
  | halts here unfinished visit =>
      exact visit_givesUp set kept.watched resigned here unfinished visit direct.halts

/-- A pass over a group that knows of its children builds nothing after an aborted build. -/
theorem Knowing.givesUp (set : now.isSet) (knows : Knowing before branch world)
    (pass : Pass (giving now before) (List.range branch.span) branch world .finished ended last there)
    (direct : Direct ended) :
    ∀ name ∈ (Tree.branch branch.1 branch.2).names, before.GivesUp there.runner name := by
  obtain ⟨reached, resigned, -, -⟩ := knows
  cases kind : branch.1.isSerial with
  | true =>
      have single := pass.single kind (reached.around kind).waits.1
      rcases single.visits direct with rfl | ⟨child, next, answer, here, unfinished, visit, direct'⟩
      · exact givesUp_branch resigned
      · exact visit_givesUp set reached.watched resigned here unfinished visit direct'
  | false => exact pass.givesUp set direct (reached.start kind) resigned

theorem Sweeps.givesUp (set : now.isSet) {group group' : Group} {children children' : List Tree}
    (sweeps : Sweeps now (giving now before) (group, children) world answer (group', children') there)
    (direct : Direct answer) (unfinished : group.standing.isFinished = false)
    (watched : (Tree.branch group children).Watched before world.runner)
    (resigned : (Tree.branch group children).Every (Tree.Resigned before world.runner)) :
    ∀ name ∈ (Tree.branch group children).names, before.GivesUp there.runner name := by
  have knows := knowing_begun now unfinished watched resigned
  refine Tree.names_of_layout (blank_tree (blank_begun (group, children) now)) ▸ ?_
  cases sweeps with
  | halts pass =>
      exact knows.givesUp set pass direct.halts
  | closes pass => exact knows.givesUp set pass nofun

end

end Branch

/-- Sweeps build nothing after an aborted build, also if they break off. -/
theorem Tree.Sweeps.givesUp {before : Runner} {now : Instant} (set : now.isSet) {tree next : Tree}
    {world after : World} {answer : Except Halt Unit}
    (sweeps : Tree.Sweeps now tree world answer next after) (direct : Direct answer)
    (unfinished : tree.standing.isFinished = false) (watched : tree.Watched before world.runner)
    (resigned : tree.Every (Resigned before world.runner)) :
    ∀ name ∈ tree.names, before.GivesUp after.runner name := by
  refine Sweeps.rule (p := Branch.giveCourse before) ?_ ?_ sweeps direct unfinished watched resigned
  · intro leaf world answer leaf' after follows direct unfinished watched resigned name named
    cases List.mem_singleton.mp named
    exact follows.givesUp direct unfinished watched.covered.self resigned.self
  · intro group children world answer group' children' after sweeps direct unfinished watched resigned
    exact sweeps.givesUp set direct unfinished watched resigned

end BuildFlow
