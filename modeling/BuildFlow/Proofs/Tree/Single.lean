import BuildFlow.Proofs.Order
import BuildFlow.Proofs.Tree.Blame
import BuildFlow.Proofs.Tree.Calm
/-!
Trees without unchecked nodes. Below a finished node nothing goes on, and a serial group
has one child at work: those before its cursor are finished, and those behind it have
nothing going on. This takes a first child whose failure the group sees as one, since a
group that starts over for an outer scope looks at its first child alone.
-/
namespace BuildFlow

/-! ## Builds -/

/-- A build that is over keeps its result. -/
theorem Build.result_later {build : Build} {tick later : Nat} (idle : build.progress tick = .idle)
    (order : tick ≤ later) : build.result later = build.result tick := by
  have ended := (Build.Grows.later build order).idle (build.result tick) (Prod.ext rfl idle)
  rw [Build.result, ended]

namespace Runner

/-- The builds that a job has more than before have ended. -/
def Still (before runner : Runner) (name : String) : Prop :=
  ∀ build ∈ before.newBuilds runner name, build.progress runner.tick = .idle

variable {before runner after : Runner} {name : String}

theorem newBuilds_congr (same : after.buildsOf name = runner.buildsOf name) :
    before.newBuilds after name = before.newBuilds runner name := by
  rw [newBuilds, newBuilds, same]

theorem newBuilds_eq_nil (same : runner.buildsOf name = before.buildsOf name) :
    before.newBuilds runner name = [] := by
  rw [newBuilds, same, List.drop_length]

theorem Still.later (still : before.Still runner name)
    (same : after.buildsOf name = runner.buildsOf name) (order : runner.tick ≤ after.tick) :
    before.Still after name := by
  intro build member
  rw [newBuilds_congr same] at member
  exact Build.idle_later (still build member) order

/-- A job whose new builds have ended keeps them when it gets another one. -/
theorem Still.invoked (still : before.Still runner name)
    (since : (before.buildsOf name).length ≤ (runner.buildsOf name).length)
    {request : InvokeRequest} {ref : BuildRef}
    (invoked : runner.invoke? name request = some (ref, after)) :
    ref.job = name ∧ ∃ build, (after.buildsOf name)[ref.index]? = some build ∧
      before.newBuilds after name = before.newBuilds runner name ++ [build] ∧
      build.enqueuedAt = runner.tick ∧ build.forced = none := by
  obtain ⟨job, found, named, -⟩ := invoke?_eq_some invoked
  have builds := buildsOf_of_job? found
  obtain ⟨index, listed⟩ := buildsOf_invoke invoked found
  have length : (job.supersede runner.tick).builds.length = job.builds.length := List.length_map _
  rw [builds] at since
  refine ⟨named, (job.supersede runner.tick).nextBuild runner.tick request, ?_, ?_, rfl, rfl⟩
  · rw [listed, index, ← length, List.getElem?_append_right (Nat.le_refl _), Nat.sub_self]
    rfl
  -- A new invocation only ends builds that are queued, and none of the new ones is.
  · have kept : (job.supersede runner.tick).builds.drop (before.buildsOf name).length =
        job.builds.drop (before.buildsOf name).length := by
      change (job.builds.map _).drop _ = _
      rw [← List.map_drop]
      apply Job.supersede_idle
      intro build member
      exact still build (by rw [newBuilds, builds]; exact member)
    rw [newBuilds, newBuilds, listed, builds, List.drop_append_of_le_length (length ▸ since), kept]

end Runner

/-! ## Standings -/

namespace Standing

/-- The node is checked, and waits for a result unless it is finished. -/
structure Upright (standing : Standing) : Prop where
  checked : standing.isUnchecked = false
  settled : standing.checking = .mustCheck ∧ standing.result = .unknown ∨
    standing.checking = .finished

variable {standing : Standing}

theorem Upright.plain (upright : standing.Upright) :
    standing.propagatedChecking = .mustCheck ∨ standing.propagatedChecking = .finished := by
  have same : standing.propagatedChecking = standing.checking := by
    simp [propagatedChecking, upright.checked]
  rw [same]
  exact upright.settled.imp_left And.left

theorem Upright.waits (upright : standing.Upright) (unfinished : standing.isFinished = false) :
    standing.checking = .mustCheck ∧ standing.result = .unknown :=
  upright.settled.resolve_right fun finished => by simp [isFinished, finished] at unfinished

theorem upright_prepare (checked : standing.isUnchecked = false) (scope : Bool) :
    (standing.prepare scope).Upright where
  checked := checked
  settled := by
    left
    simp [Standing.prepare, checked]

theorem Upright.isFinished (upright : standing.Upright)
    (finished : standing.propagatedChecking = .finished) : standing.isFinished := by
  have same : standing.propagatedChecking = standing.checking := by
    simp [propagatedChecking, upright.checked]
  exact decide_eq_true (same ▸ finished)

end Standing

namespace Tree

/-- The node is checked, and a serial group begins with a child that reports everything. -/
def Strict : Tree → Prop
  | .task leaf => leaf.isUnchecked = false
  | .branch group children => group.standing.isUnchecked = false ∧
      (group.isSerial → ∀ child, children[0]? = some child → child.standing.propagation = .normal)

theorem Strict.checked {tree : Tree} (strict : tree.Strict) : tree.standing.isUnchecked = false := by
  cases tree with
  | task leaf => exact strict
  | branch group children => exact strict.1

theorem propagation_blank (tree : Tree) :
    tree.blank.standing.propagation = tree.standing.propagation := by
  cases tree <;> rfl

theorem strict_blank (node : Tree) : node.blank.Strict ↔ node.Strict := by
  cases node with
  | task leaf => exact Iff.rfl
  | branch group children =>
      have first : (∀ child, (children.map blank)[0]? = some child →
          child.standing.propagation = .normal) ↔
          ∀ child, children[0]? = some child → child.standing.propagation = .normal := by
        simp [List.getElem?_map, propagation_blank]
      simp only [blank, blanks_eq, Strict, Group.isSerial_blank, first]
      rfl

theorem strict_of_layout {tree next : Tree} (layout : next.blank = tree.blank)
    (strict : tree.Every Strict) : next.Every Strict := by
  have same : ∀ {tree : Tree}, tree.blank.Every Strict ↔ tree.Every Strict := fun {tree} =>
    every_blank.trans ⟨fun every => every.mono fun node => (strict_blank node).mp,
      fun every => every.mono fun node => (strict_blank node).mpr⟩
  exact same.mp (layout ▸ same.mpr strict)

end Tree

/-! ## The child at the cursor -/

namespace Branch

/-- What a sweep over a serial group does whose children before the cursor are finished:
it visits the child at the cursor at most. -/
inductive Single (course : Course Tree) (branch : Branch) (world : World) :
    Except Halt Checking → Branch → World → Prop
  | rests (done : ∀ child, branch.2[branch.1.cursor]? = some child → child.standing.isFinished) :
      Single course branch world (.ok .finished) branch world
  | passes {child next : Tree} {there : World} (here : branch.2[branch.1.cursor]? = some child)
      (unfinished : child.standing.isFinished = false) (visit : course child world (.ok ()) next there) :
      Single course branch world (.ok (min .finished next.standing.propagatedChecking))
        ((branch.put branch.1.cursor next).cleared next) there
  | fails {child next : Tree} {there : World} {failure : JobFailure} {again : Bool}
      {answered : Branch} (here : branch.2[branch.1.cursor]? = some child)
      (unfinished : child.standing.isFinished = false)
      (visit : course child world (failedBy failure) next there)
      (answers : Answers (branch.put branch.1.cursor next) branch.1.cursor next failure (.ok again)
        answered) :
      Single course branch world (.ok (if again then .mustCheck else .finished)) answered there
  | breaks {child next : Tree} {there : World} {failure : JobFailure} {halt : Halt} {last : Branch}
      (here : branch.2[branch.1.cursor]? = some child)
      (unfinished : child.standing.isFinished = false)
      (visit : course child world (failedBy failure) next there)
      (answers : Answers (branch.put branch.1.cursor next) branch.1.cursor next failure (.error halt)
        last) :
      Single course branch world (.error halt) last there
  | halts {child next : Tree} {there : World} {halt : Halt}
      (here : branch.2[branch.1.cursor]? = some child)
      (unfinished : child.standing.isFinished = false)
      (visit : course child world (.error halt) next there)
      (hard : ∀ failure, halt ≠ .error (.failed failure)) :
      Single course branch world (.error halt) (branch.put branch.1.cursor next) there

theorem Pass.single {course : Course Tree} {branch last : Branch} {world after : World}
    {answer : Except Halt Checking} (serial : branch.1.isSerial)
    (passed : ∀ child ∈ branch.2.take branch.1.cursor, child.standing.isFinished)
    (pass : Pass course (List.range branch.span) branch world .finished answer last after) :
    Single course branch world answer last after := by
  -- The places of the pass go up to the cursor, and the children before it are skipped. So the
  -- first place with anything to do is the cursor, and it is the last one.
  have within : ∀ index ∈ List.range branch.span, index ≤ branch.1.cursor :=
    fun index => le_cursor_of_mem_range serial
  have sorted : (List.range branch.span).Pairwise (· < ·) := List.pairwise_lt_range
  have visited : branch.1.cursor ∉ List.range branch.span →
      ∀ child, branch.2[branch.1.cursor]? = some child → child.standing.isFinished := by
    intro beyond child here
    refine absurd (List.mem_range.mpr ?_) beyond
    rw [span_serial serial]
    exact Nat.lt_min.mpr ⟨Nat.lt_succ_self _, (List.getElem?_eq_some_iff.mp here).1⟩
  generalize List.range branch.span = indices at pass within sorted visited
  generalize begins : Checking.finished = status at pass
  induction pass with
  | done =>
      subst begins
      exact .rests (visited List.not_mem_nil)
  | @skips index rest branch _ _ _ _ _ finished _ ih =>
      refine ih serial passed (fun place member => within place (List.mem_cons_of_mem _ member))
        sorted.of_cons (fun beyond child here => ?_) begins
      by_cases same : branch.1.cursor = index
      · exact finished child (same ▸ here)
      · exact visited (List.not_mem_cons_of_ne_of_not_mem same beyond) child here
  | passes here unfinished visit onward =>
      obtain ⟨rfl, rfl⟩ := last_of_passed sorted here unfinished within passed
      subst begins
      cases onward
      exact .passes here unfinished visit
  | fails here unfinished visit answers onward =>
      obtain ⟨rfl, rfl⟩ := last_of_passed sorted here unfinished within passed
      subst begins
      cases onward
      exact .fails here unfinished visit answers
  | breaks here unfinished visit answers =>
      obtain ⟨rfl, -⟩ := last_of_passed sorted here unfinished within passed
      exact .breaks here unfinished visit answers
  | halts here unfinished visit hard =>
      obtain ⟨rfl, -⟩ := last_of_passed sorted here unfinished within passed
      exact .halts here unfinished visit hard

end Branch

/-! ## Invocations -/

namespace Task

/-- The invocation follows the last of its builds, and the others have ended. -/
structure Busy (before runner : Runner) (task : Task) : Prop where
  resolved : task.resolved
  follows : ∃ ref earlier build, task.build = some ref ∧ ref.job = task.name ∧
    (runner.buildsOf task.name)[ref.index]? = some build ∧
    before.newBuilds runner task.name = earlier ++ [build] ∧
    ∀ build ∈ earlier, build.progress runner.tick = .idle

/-- Nothing goes on for an invocation that is finished or has not begun its attempt. -/
structure Covered (before runner : Runner) (task : Task) : Prop where
  upright : task.standing.Upright
  since : (before.buildsOf task.name).length ≤ (runner.buildsOf task.name).length
  still : task.standing.isFinished ∨ task.standing.isInvoked = false →
    before.Still runner task.name
  busy : task.standing.isFinished = false → task.standing.isInvoked → task.Busy before runner

variable {before runner after : Runner} {task : Task}

theorem Busy.later (busy : task.Busy before runner)
    (same : after.buildsOf task.name = runner.buildsOf task.name) (order : runner.tick ≤ after.tick) :
    task.Busy before after where
  resolved := busy.resolved
  follows := by
    obtain ⟨ref, earlier, build, followed, named, held, builds, idle⟩ := busy.follows
    refine ⟨ref, earlier, build, followed, named, same ▸ held, ?_, fun build member => ?_⟩
    · exact (Runner.newBuilds_congr same).trans builds
    · exact Build.idle_later (idle build member) order

/-- An invocation at work has found its job. -/
theorem Covered.uninvoked (covered : task.Covered before runner)
    (unfinished : task.standing.isFinished = false) (unresolved : task.resolved = false) :
    task.standing.isInvoked = false := by
  rw [← Bool.not_eq_true]
  exact fun invoked =>
    Bool.false_ne_true (unresolved.symm.trans (covered.busy unfinished invoked).resolved)

theorem Covered.later (covered : task.Covered before runner)
    (same : after.buildsOf task.name = runner.buildsOf task.name) (order : runner.tick ≤ after.tick) :
    task.Covered before after where
  upright := covered.upright
  since := same ▸ covered.since
  still idle := (covered.still idle).later same order
  busy unfinished invoked := (covered.busy unfinished invoked).later same order

theorem Covered.prepare (covered : task.Covered before runner) (finished : task.standing.isFinished)
    (scope : Bool) : (task.prepare scope).Covered before runner where
  upright := Standing.upright_prepare covered.upright.checked scope
  since := covered.since
  still _ := covered.still (.inl finished)
  busy _ invoked := by cases invoked

theorem Found.covered {found : Task} {world there : World} (finds : Found task world found there)
    (covered : task.Covered before world.runner) : found.Covered before there.runner := by
  have later : task.Covered before there.runner :=
    covered.later (finds.buildsOf _) (Nat.le_of_eq finds.grows.tick.symm)
  have resolved := finds.resolved
  cases finds with
  | known => exact later
  | listed =>
      exact ⟨later.upright, later.since, later.still, fun unfinished invoked =>
        ⟨resolved, (later.busy unfinished invoked).follows⟩⟩
  | looked =>
      exact ⟨later.upright, later.since, later.still, fun unfinished invoked =>
        ⟨resolved, (later.busy unfinished invoked).follows⟩⟩

/-- An attempt that has begun follows a build, which is the last one. -/
theorem Begun.busy {now : Instant} (set : now.isSet) {begun : Task} {world there : World}
    (begins : Begun now task world begun there) (resolved : task.resolved)
    (covered : task.Covered before world.runner) (unfinished : task.standing.isFinished = false) :
    begun.Busy before there.runner ∧ begun.standing.isInvoked ∧
      (before.buildsOf task.name).length ≤ (there.runner.buildsOf task.name).length := by
  have since := Nat.le_trans covered.since (begins.grows.runner.length task.name)
  have tick := begins.grows.tick
  cases begins with
  | going invoked => exact ⟨covered.busy unfinished invoked, invoked, since⟩
  | joins _ unchecked => cases covered.upright.checked.symm.trans unchecked
  | @starts uninvoked _ _ ref _ invoked =>
      have still := covered.still (.inr uninvoked)
      obtain ⟨named, build, held, builds, -⟩ := still.invoked covered.since invoked
      refine ⟨⟨resolved, ref, _, build, rfl, named, held, builds, fun build member => ?_⟩, set, since⟩
      exact Build.idle_later (still build member) (Nat.le_of_eq tick.symm)

/-- The builds of an invocation have ended once the one that it follows has. -/
theorem Busy.still (busy : task.Busy before runner) {world : World} (same : world.runner = runner)
    {result : BuildResult} {progress : Progress} (observes : Observed task world result progress)
    (idle : progress.isIdle) : before.Still runner task.name := by
  obtain ⟨ref, earlier, build, followed, named, held, builds, ended⟩ := busy.follows
  subst same
  obtain ⟨-, rfl⟩ := observes.held followed (named ▸ held)
  intro other member
  rw [builds] at member
  rcases List.mem_append.mp member with early | last
  · exact ended other early
  · exact List.mem_singleton.mp last ▸ Progress.eq_idle idle

/-- A step of an invocation that may begin. An invocation that fails is finished. -/
theorem Follows.covered {now : Instant} (set : now.isSet) {next : Task} {world there : World}
    {answer : Except Halt Unit} (follows : Follows now task world answer next there)
    (answered : Answered answer) (unfinished : task.standing.isFinished = false)
    (covered : task.Covered before world.runner) :
    next.Covered before there.runner ∧
      ∀ failure, answer = failedBy failure → next.standing.isFinished := by
  cases follows with
  | missing unresolved =>
      have uninvoked := covered.uninvoked unfinished unresolved
      have later := covered.later (Runner.buildsOf_lookup world.runner task.name task.name)
        (Nat.le_of_eq (Runner.tick_lookup _ _).symm)
      exact ⟨⟨⟨covered.upright.checked, .inr rfl⟩, later.since,
        fun _ => later.still (.inr uninvoked), nofun⟩, fun _ _ => rfl⟩
  | waits finds begins =>
      have found := finds.covered covered
      have waits := finds.attempted.isFinished.trans unfinished
      obtain ⟨busy, invoked, since⟩ := begins.busy set finds.resolved found waits
      have attempted := finds.attempted.trans begins.attempted
      refine ⟨⟨?_, ?_, ?_, fun _ _ => busy⟩, nofun⟩
      · obtain ⟨_, _, _, _, rfl⟩ := attempted
        exact ⟨covered.upright.checked, covered.upright.settled⟩
      · rw [attempted.name, ← finds.attempted.name]
        exact since
      · rw [attempted.isFinished, unfinished, invoked]
        exact fun idle => absurd idle (by decide)
  | ends finds begins observes idle =>
      have found := finds.covered covered
      have waits := finds.attempted.isFinished.trans unfinished
      obtain ⟨busy, -, since⟩ := begins.busy set finds.resolved found waits
      have attempted := finds.attempted.trans begins.attempted
      refine ⟨⟨?_, ?_, fun _ => ?_, nofun⟩, fun _ _ => rfl⟩
      · obtain ⟨_, _, _, _, rfl⟩ := attempted
        exact ⟨covered.upright.checked, .inr rfl⟩
      · rw [show (ended _ _).name = _ from attempted.name, ← finds.attempted.name]
        exact since
      · exact busy.still rfl observes idle
  | strays _ _ _ strays => cases answered; cases strays
  | lost => cases answered

end Task

/-! ## Trees -/

/-- Nothing goes on for any job of the tree. -/
def Tree.Still (before runner : Runner) (tree : Tree) : Prop :=
  ∀ name ∈ tree.names, before.Still runner name

/-- Nothing goes on below a group that is finished. A serial group at work is done with the
children before its cursor, and nothing goes on below those behind it. -/
structure Branch.Covered (before runner : Runner) (branch : Branch) : Prop where
  upright : branch.1.standing.Upright
  still : branch.1.standing.isFinished → ∀ child ∈ branch.2, child.Still before runner
  passed : branch.1.isSerial → branch.1.standing.isFinished = false →
    ∀ child ∈ branch.2.take branch.1.cursor, child.standing.isFinished
  later : branch.1.isSerial → branch.1.standing.isFinished = false →
    ∀ child ∈ branch.2.drop (branch.1.cursor + 1), child.Still before runner

namespace Tree

def Covered (before runner : Runner) : Tree → Prop
  | .task leaf => leaf.Covered before runner
  | .branch group children => Branch.Covered before runner (group, children)

variable {before runner after : Runner} {tree next : Tree} {group : Group} {children : List Tree}

theorem still_branch : (Tree.branch group children).Still before runner ↔
    ∀ child ∈ children, child.Still before runner := by
  constructor
  · exact fun still child member name named => still name (mem_names_branch.mpr ⟨child, member, named⟩)
  · intro still name named
    obtain ⟨child, member, named⟩ := mem_names_branch.mp named
    exact still child member name named

theorem Still.later (still : tree.Still before runner)
    (same : ∀ name ∈ tree.names, after.buildsOf name = runner.buildsOf name)
    (order : runner.tick ≤ after.tick) : tree.Still before after :=
  fun name named => (still name named).later (same name named) order

theorem Still.layout (still : tree.Still before runner) (layout : next.blank = tree.blank) :
    next.Still before runner := by
  unfold Tree.Still
  rw [names_of_layout layout]
  exact still

theorem Covered.upright (covered : tree.Covered before runner) : tree.standing.Upright := by
  cases tree with
  | task leaf => exact Task.Covered.upright covered
  | branch group children => exact Branch.Covered.upright covered

theorem Covered.still (covered : tree.Covered before runner) (finished : tree.standing.isFinished) :
    tree.Still before runner := by
  cases tree with
  | task leaf =>
      intro name named
      rw [List.mem_singleton.mp named]
      exact Task.Covered.still covered (.inl finished)
  | branch group children => exact still_branch.mpr (Branch.Covered.still covered finished)

/-- Others build, or time passes. -/
theorem Covered.later (covered : tree.Every (Covered before runner))
    (same : ∀ name ∈ tree.names, after.buildsOf name = runner.buildsOf name)
    (order : runner.tick ≤ after.tick) : tree.Every (Covered before after) := by
  intro node member
  have same' : ∀ name ∈ node.names, after.buildsOf name = runner.buildsOf name :=
    fun name named => same name (names_of_mem_nodes member named)
  have covered := covered node member
  cases node with
  | task leaf => exact Task.Covered.later covered (same' _ (List.mem_singleton_self _)) order
  | branch group children =>
      obtain ⟨upright, still, passed, later⟩ := covered
      have kept : ∀ child ∈ children, child.Still before runner → child.Still before after :=
        fun child inside still => still.later
          (fun name named => same' name (mem_names_branch.mpr ⟨child, inside, named⟩)) order
      exact ⟨upright, fun finished child inside => kept child inside (still finished child inside),
        passed, fun serial waits child inside =>
          kept child (List.mem_of_mem_drop inside) (later serial waits child inside)⟩

theorem Covered.prepare (covered : tree.Every (Covered before runner))
    (finished : tree.standing.isFinished) (scope : Bool) :
    (tree.prepare scope).Every (Covered before runner) := by
  refine covered.prepared ?_
  have here := covered.self
  cases tree with
  | task leaf => exact Task.Covered.prepare here finished scope
  | branch group children =>
      obtain ⟨upright, still, -, -⟩ := here
      refine ⟨Standing.upright_prepare upright.checked scope, fun closed => ?_, fun _ _ => ?_,
        fun _ _ child member => ?_⟩
      · cases (group.standing.isFinished_prepare scope).symm.trans closed
      · rw [Group.cursor_prepare]
        exact fun child member => (List.not_mem_nil member).elim
      · exact still finished child (List.mem_of_mem_drop member)

theorem finish_of_isFinished (finished : tree.standing.isFinished) : tree.finish = tree :=
  finish_of_finished (of_decide_eq_true finished)

/-- A tree that is ready has nothing going on. -/
theorem covered_of_ready (ready : tree.Every (Ready runner)) (strict : tree.Every Strict)
    (unbuilt : ∀ name ∈ tree.names, runner.buildsOf name = before.buildsOf name) :
    tree.Every (Covered before runner) := by
  -- There are no builds yet that are not old ones.
  have still : ∀ name ∈ tree.names, before.Still runner name := by
    intro name named build member
    rw [Runner.newBuilds_eq_nil (unbuilt name named)] at member
    cases member
  intro node member
  have here := ready node member
  have upright : node.standing.Upright := by
    rw [here.standing]
    exact Standing.upright_prepare ((isUnchecked_blank node).trans (strict node member).checked) false
  have inside : ∀ name ∈ node.names, name ∈ tree.names :=
    fun name named => names_of_mem_nodes member named
  cases node with
  | task leaf =>
      obtain ⟨⟨resolved, oldBuild, same⟩, -⟩ := here
      have named := inside leaf.name (List.mem_singleton_self _)
      refine ⟨upright, Nat.le_of_eq (by rw [unbuilt _ named]), fun _ => still _ named,
        fun _ invoked => ?_⟩
      rw [same] at invoked
      cases invoked
  | branch group children =>
      have same : group = group.blank.prepare false := here
      have cursor : group.cursor = 0 := by
        rw [same]
        exact Group.cursor_prepare _ _
      have quiet : ∀ child ∈ children, child.Still before runner := fun child among name named =>
        still name (inside name (mem_names_branch.mpr ⟨child, among, named⟩))
      refine ⟨upright, fun _ => quiet, fun _ _ => ?_, fun _ _ child among =>
        quiet child (List.mem_of_mem_drop among)⟩
      change ∀ child ∈ children.take group.cursor, _
      rw [cursor]
      exact fun child member => (List.not_mem_nil member).elim

/-- A tree with distinct jobs and without unchecked nodes, below which nothing goes on where it
does not look. -/
structure Watched (before runner : Runner) (tree : Tree) : Prop where
  distinct : tree.names.Nodup
  strict : tree.Every Strict
  covered : tree.Every (Covered before runner)

theorem Watched.later (watched : tree.Watched before runner)
    (same : ∀ name ∈ tree.names, after.buildsOf name = runner.buildsOf name)
    (order : runner.tick ≤ after.tick) : tree.Watched before after :=
  ⟨watched.distinct, watched.strict, Covered.later watched.covered same order⟩

end Tree

namespace Branch

/-! ## Groups -/

/-- A group in the middle of a sweep, the children of which look after everything below them. -/
structure Watched (before runner : Runner) (branch : Branch) : Prop where
  distinct : (Tree.branch branch.1 branch.2).names.Nodup
  strict : (Tree.branch branch.1 branch.2).Every Tree.Strict
  every : ∀ child ∈ branch.2, child.Every (Tree.Covered before runner)

theorem Watched.child {before runner : Runner} {branch : Branch} {child : Tree}
    (watched : branch.Watched before runner) (member : child ∈ branch.2) :
    child.Watched before runner where
  distinct := Tree.nodup_of_child watched.distinct member
  strict := (Tree.every_branch.mp watched.strict).2 child member
  covered := watched.every child member

section

variable {before : Runner} {now : Instant} {index : Nat} {rest : List Nat} {branch last next : Branch}
  {world there : World} {status : Checking} {child visited : Tree} {failure : JobFailure}
  {answer : Except Halt Unit} {again : Bool}

/-- A visit builds nothing for the other children. -/
theorem spares (distinct : (Tree.branch branch.1 branch.2).names.Nodup)
    (here : branch.2[index]? = some child) (sweep : Tree.Sweeps now child world answer visited there)
    (answered : Answered answer) {place : Nat} {other : Tree} (different : place ≠ index)
    (at' : branch.2[place]? = some other) :
    ∀ name ∈ other.names, there.runner.buildsOf name = world.runner.buildsOf name :=
  fun name named => sweep.outside answered name
    (Tree.apart_of_nodup distinct different at' here name named)

/-- The children when one of them was replaced. -/
theorem put_all {p : Tree → Prop} {new : Tree} (placed : p new)
    (others : ∀ place other, place ≠ index → branch.2[place]? = some other → p other) :
    ∀ other ∈ (branch.put index new).2, p other := by
  intro other member
  obtain ⟨place, at'⟩ := List.mem_iff_getElem?.mp member
  rcases getElem?_put at' with ⟨-, rfl⟩ | ⟨different, at'⟩
  · exact placed
  · exact others place other different at'

theorem put_covered (watched : branch.Watched before world.runner)
    (here : branch.2[index]? = some child) (sweep : Tree.Sweeps now child world answer visited there)
    (answered : Answered answer) {new : Tree} (covered : new.Every (Tree.Covered before there.runner)) :
    ∀ other ∈ (branch.put index new).2, other.Every (Tree.Covered before there.runner) :=
  put_all covered fun _ other different at' =>
    Tree.Covered.later (watched.every other (List.mem_of_getElem? at'))
      (spares watched.distinct here sweep answered different at') (Nat.le_of_eq sweep.grows.tick.symm)

theorem put_finish (here : branch.2[index]? = some child) (finished : child.standing.isFinished) :
    (branch.put index child.finish).2 = branch.2 := by
  obtain ⟨inside, same⟩ := List.getElem?_eq_some_iff.mp here
  rw [Tree.finish_of_isFinished finished, ← same]
  exact List.set_getElem_self inside

theorem length_le_leaving (serial : branch.1.isSerial) :
    branch.leaving.2.length ≤ branch.leaving.1.cursor :=
  Nat.le_of_eq (Group.cursor_setCursor serial _).symm

/-- A checked child that has failed is left as it is or tried again. -/
theorem Answers.upright (answers : Answers branch index child failure (.ok again) next)
    (here : branch.2[index]? = some child) (checked : child.standing.isUnchecked = false)
    (finished : child.standing.isFinished) :
    next.2 = branch.2 ∧ again = false ∧
        (branch.1.isSerial → next.1.cursor = branch.1.cursor ∨ next.2.length ≤ next.1.cursor) ∨
      failure.isAborted = false ∧ next.2 = (branch.retried index child).2 ∧
        (branch.1.isSerial → next.1.cursor = 0) := by
  have kept := put_finish here finished
  have noted : (branch.noted child).1.isSerial = branch.1.isSerial := Group.isSerial_setFailed _ _
  cases answers with
  | aborts =>
      refine .inl ⟨?_, rfl, fun serial => .inr ?_⟩
      · unfold aborting
        split <;> exact kept
      · have serial' : ((branch.noted child).put index child.finish).group.isSerial :=
          noted.trans serial
        unfold aborting
        rw [if_pos serial']
        exact length_le_leaving serial'
  | abortsUnchecked _ unchecked => cases checked.symm.trans unchecked
  | stays => exact .inl ⟨rfl, rfl, fun _ => .inl (Group.cursor_setFailed _ _)⟩
  | retries unaborted =>
      exact .inr ⟨unaborted, retried_noted branch index child, fun serial =>
        cursor_retried (noted.trans serial) _ _⟩
  | ends => exact .inl ⟨kept, rfl, fun serial => .inr (length_le_leaving (noted.trans serial))⟩
  | endsUnchecked _ _ unchecked => cases checked.symm.trans unchecked

/-- What a pass has left of a group that waited for its children. -/
structure Led (before : Runner) (branch : Branch) (world : World) (status : Checking) : Prop where
  unknown : branch.1.standing.result = .unknown
  checked : branch.1.standing.isUnchecked = false
  every : ∀ child ∈ branch.2, child.Every (Tree.Covered before world.runner)
  plain : status = .mustCheck ∨ status = .finished
  still : status = .finished → ∀ child ∈ branch.2, child.Still before world.runner
  waits : branch.1.isSerial → status = .mustCheck →
    (∀ child ∈ branch.2.take branch.1.cursor, child.standing.isFinished) ∧
      ∀ child ∈ branch.2.drop (branch.1.cursor + 1), child.Still before world.runner
  moves : branch.1.isSerial → status = .finished →
    (∀ child ∈ branch.2.take (branch.1.cursor + 1), child.standing.isFinished) ∨
      branch.2.length ≤ branch.1.cursor ∨
      ∃ child, branch.2[0]? = some child ∧ child.standing.propagatedResult = .failure

theorem Led.closed (led : Led before branch world status) :
    Led before (branch.closed status) world status where
  unknown := (result_closed branch status).trans led.unknown
  checked := by
    unfold Standing.isUnchecked
    rw [propagation_closed]
    exact led.checked
  every := led.every
  plain := led.plain
  still := led.still
  waits := led.waits
  moves := led.moves

/-- A group that has come to its end, with nothing going on below it. -/
theorem Led.ended (led : Led before branch world .finished) {group : Group}
    (checked : group.standing.isUnchecked = false) (ended : group.standing.checking = .finished) :
    (Tree.branch group branch.2).Every (Tree.Covered before world.runner) := by
  have finished : group.standing.isFinished := decide_eq_true ended
  refine Tree.every_branch.mpr ⟨⟨⟨checked, .inr ended⟩, fun _ => led.still rfl, ?_, ?_⟩, led.every⟩
  · exact fun _ waits => absurd finished (Bool.eq_false_iff.mp waits)
  · exact fun _ waits => absurd finished (Bool.eq_false_iff.mp waits)

/-- A serial group moves on only past a child that is finished: a restart leaves the first child
looking like a failure, which the group would report. -/
theorem Led.moved (led : Led before branch world .finished) (serial : branch.1.isSerial)
    (fine : (branch.aggregate branch.span).isFailure = false)
    (more : branch.1.cursor + 1 < branch.2.length) :
    ∀ child ∈ branch.2.take (branch.1.cursor + 1), child.standing.isFinished := by
  rcases led.moves serial rfl with done | left | ⟨child, first, failure⟩
  · exact done
  · omega
  · refine absurd failure (fine_of_aggregate fine (Tree.mem_take_iff.mpr ⟨0, ?_, first⟩))
    exact span_pos fun none => by rw [none] at more; exact absurd more (Nat.not_lt_zero _)

/-- How a group ends that a pass has left so. -/
theorem Closes.covered (closes : Closes now branch status answer last) (answered : Answered answer)
    (led : Led before branch world status) (checking : branch.1.standing.checking = status) :
    (Tree.branch last.1 last.2).Every (Tree.Covered before world.runner) ∧
      ∀ failure, answer = failedBy failure → last.1.standing.isFinished := by
  have closed : isPending status branch = false → status = .finished := fun settled =>
    led.plain.resolve_left (settled_iff.mp settled).1
  cases closes with
  | pending pending =>
      -- A group without a result only stays at work for a child that must be checked.
      obtain rfl := (isPending_iff.mp pending).resolve_right fun known => known led.unknown
      refine ⟨Tree.every_branch.mpr ⟨⟨⟨led.checked, .inl ⟨checking, led.unknown⟩⟩, fun finished => ?_,
        fun serial _ => (led.waits serial rfl).1, fun serial _ => (led.waits serial rfl).2⟩,
        led.every⟩, nofun⟩
      cases (Standing.unfinished checking).symm.trans finished
  | overdue => cases answered
  | fails settled =>
      obtain rfl := closed settled
      exact ⟨led.ended led.checked checking, fun _ _ => decide_eq_true checking⟩
  | moves settled fine serial more =>
      obtain rfl := closed settled
      have cursor : branch.moved.waiting.1.cursor = branch.1.cursor + 1 :=
        Group.cursor_setCursor serial _
      have checked : branch.moved.waiting.1.standing.isUnchecked = false := by
        change branch.moved.1.standing.isUnchecked = false
        rw [standing_moved]
        exact led.checked
      refine ⟨Tree.every_branch.mpr ⟨⟨⟨checked, .inl ⟨rfl, rfl⟩⟩, nofun, fun _ _ => ?_,
        fun _ _ child member => led.still rfl child (List.mem_of_mem_drop member)⟩, led.every⟩, nofun⟩
      change ∀ child ∈ branch.2.take branch.moved.waiting.1.cursor, _
      rw [cursor]
      exact led.moved serial fine more
  | ends settled =>
      obtain rfl := closed settled
      have standing : branch.summed.moved.1.standing = branch.summed.1.standing :=
        branch.summed.standing_moved
      have ended : branch.summed.moved.1.standing.checking = .finished := by
        rw [standing]
        exact checking
      refine ⟨led.ended ?_ ended, fun _ _ => decide_eq_true ended⟩
      rw [standing]
      exact led.checked

/-- The visits that keep track of what goes on. -/
def coverCourse (before : Runner) : Course Tree := fun child world answer next after =>
  Answered answer → child.standing.isFinished = false → child.Watched before world.runner →
    next.Every (Tree.Covered before after.runner) ∧
      ∀ failure, answer = failedBy failure → next.standing.isFinished

/-- The children of a serial group, but for the one at its cursor: those before it are
finished, and nothing goes on below any of them. -/
def Around (before : Runner) (branch : Branch) (cursor : Nat) (runner : Runner) : Prop :=
  ∀ place child, place ≠ cursor → branch.2[place]? = some child →
    (place < cursor → child.standing.isFinished) ∧ child.Still before runner

theorem Covered.around (covered : branch.Covered before world.runner) (serial : branch.1.isSerial)
    (waits : branch.1.standing.isFinished = false)
    (every : ∀ child ∈ branch.2, child.Every (Tree.Covered before world.runner)) :
    Around before branch branch.1.cursor world.runner := by
  intro place child different at'
  rcases Nat.lt_or_gt_of_ne different with early | behind
  · have finished := covered.passed serial waits child (Tree.mem_take_iff.mpr ⟨place, early, at'⟩)
    exact ⟨fun _ => finished, (every child (List.mem_of_getElem? at')).self.still finished⟩
  · refine ⟨fun early => absurd early (Nat.lt_asymm behind),
      covered.later serial waits child (List.mem_of_getElem? (i := place - (branch.1.cursor + 1)) ?_)⟩
    rw [List.getElem?_drop, Nat.add_sub_cancel' behind]
    exact at'

theorem Around.put (around : Around before branch index world.runner)
    (distinct : (Tree.branch branch.1 branch.2).names.Nodup) (here : branch.2[index]? = some child)
    (sweep : Tree.Sweeps now child world answer visited there) (answered : Answered answer) :
    Around before (branch.put index visited) index there.runner := by
  intro place other different at'
  obtain ⟨-, at'⟩ := (getElem?_put at').resolve_left fun same => different same.1
  obtain ⟨finished, still⟩ := around place other different at'
  exact ⟨finished, still.later (spares distinct here sweep answered different at')
    (Nat.le_of_eq sweep.grows.tick.symm)⟩

theorem Around.all (around : Around before branch index world.runner)
    (here : ∀ child, branch.2[index]? = some child → child.Still before world.runner) :
    ∀ child ∈ branch.2, child.Still before world.runner := by
  intro child member
  obtain ⟨place, at'⟩ := List.mem_iff_getElem?.mp member
  by_cases same : place = index
  · exact here child (same ▸ at')
  · exact (around place child same at').2

theorem Around.done (around : Around before branch index world.runner)
    (here : ∀ child, branch.2[index]? = some child → child.standing.isFinished) :
    ∀ child ∈ branch.2.take (index + 1), child.standing.isFinished := by
  intro child member
  obtain ⟨place, within, at'⟩ := Tree.mem_take_iff.mp member
  by_cases same : place = index
  · exact here child (same ▸ at')
  · exact (around place child same at').1 (by omega)

theorem Around.waits (around : Around before branch index world.runner) :
    (∀ child ∈ branch.2.take index, child.standing.isFinished) ∧
      ∀ child ∈ branch.2.drop (index + 1), child.Still before world.runner := by
  constructor
  · intro child member
    obtain ⟨place, early, at'⟩ := Tree.mem_take_iff.mp member
    exact (around place child (Nat.ne_of_lt early) at').1 early
  · intro child member
    obtain ⟨place, at'⟩ := List.mem_iff_getElem?.mp member
    rw [List.getElem?_drop] at at'
    exact (around (index + 1 + place) child (by omega) at').2

/-- A group that waits for its children and was reached by a sweep. -/
structure Reached (before : Runner) (branch : Branch) (world : World) : Prop where
  watched : branch.Watched before world.runner
  unknown : branch.1.standing.result = .unknown
  around : branch.1.isSerial → Around before branch branch.1.cursor world.runner

theorem reached_begun {group : Group} {children : List Tree} (now : Instant)
    (unfinished : group.standing.isFinished = false)
    (watched : (Tree.branch group children).Watched before world.runner) :
    Reached before (begun (group, children) now) world := by
  obtain ⟨here, below⟩ := Tree.every_branch.mp watched.covered
  have here : Branch.Covered before world.runner (group, children) := here
  have layout := blank_tree (blank_begun (group, children) now)
  refine ⟨⟨(Tree.names_of_layout layout).symm ▸ watched.distinct,
    Tree.strict_of_layout layout watched.strict, below⟩, ?_, fun serial => ?_⟩
  · obtain ⟨time, standing⟩ := Group.standing_begun group now
    change (group.begun now).standing.result = _
    rw [standing]
    exact (here.upright.waits unfinished).2
  · have cursor : (begun (group, children) now).1.cursor = group.cursor := Group.cursor_begun group now
    rw [cursor]
    exact here.around ((Group.isSerial_begun group now).symm.trans serial) unfinished below

/-- A serial group that starts over prepares children that are finished, and leaves the others. -/
theorem retried_all {p : Tree → Prop} (here : branch.2[branch.1.cursor]? = some child)
    (around : Around before (branch.put branch.1.cursor visited) branch.1.cursor there.runner)
    (finished : visited.standing.isFinished)
    (prepared : ∀ old ∈ (branch.put branch.1.cursor visited).2, old.standing.isFinished →
      ∀ scope, p (old.prepare scope))
    (others : ∀ place other, place ≠ branch.1.cursor →
      (branch.put branch.1.cursor visited).2[place]? = some other → p other) :
    ∀ other ∈ ((branch.put branch.1.cursor visited).retried branch.1.cursor visited).2, p other := by
  intro other member
  have elsewhere : ∀ {place : Nat} {other : Tree}, place ≠ branch.1.cursor →
      branch.2[place]? = some other → (branch.put branch.1.cursor visited).2[place]? = some other :=
    fun different at' => (List.getElem?_set_ne (Ne.symm different)).trans at'
  rcases mem_retried here (fun _ => rfl) member with rfl | ⟨place, different, at'⟩ |
    ⟨-, old, among, -, -, -, rfl⟩
  · exact prepared visited (List.mem_of_getElem? (getElem?_put_self here visited)) finished _
  · exact others place other different (elsewhere different at')
  · obtain ⟨place, early, at'⟩ := Tree.mem_take_iff.mp among
    have different := Nat.ne_of_lt early
    have at' := elsewhere different at'
    exact prepared old (List.mem_of_getElem? at') ((around place old different at').1 early) _

/-- A restart takes up children that are finished, so nothing goes on below any child. -/
theorem retried_covered (here : branch.2[branch.1.cursor]? = some child)
    (around : Around before (branch.put branch.1.cursor visited) branch.1.cursor there.runner)
    (every : ∀ other ∈ (branch.put branch.1.cursor visited).2,
      other.Every (Tree.Covered before there.runner))
    (finished : visited.standing.isFinished) :
    ∀ other ∈ ((branch.put branch.1.cursor visited).retried branch.1.cursor visited).2,
      other.Every (Tree.Covered before there.runner) ∧ other.Still before there.runner := by
  refine retried_all here around finished (fun old member finished scope => ?_)
    fun place other different at' => ?_
  · exact ⟨Tree.Covered.prepare (every old member) finished scope,
      ((every old member).self.still finished).layout (Tree.blank_prepare _ _)⟩
  · exact ⟨every other (List.mem_of_getElem? at'), (around place other different at').2⟩

/-- A first child that is tried again looks like a failure as long as it has no result. -/
theorem retried_first (serial : branch.1.isSerial) (strict : Tree.Strict (.branch branch.1 branch.2))
    (here : branch.2[index]? = some child) (index' : Nat) (other : Tree) :
    ∃ first, (branch.retried index' other).2[0]? = some first ∧
      first.standing.propagatedResult = .failure := by
  have inhabited : 0 < branch.2.length :=
    Nat.lt_of_le_of_lt (Nat.zero_le _) (List.getElem?_eq_some_iff.mp here).1
  have reached : 0 < branch.reach := Nat.lt_min.mpr ⟨Nat.succ_pos _, inhabited⟩
  have first := List.getElem?_eq_getElem inhabited
  refine ⟨branch.2[0].prepare other.standing.newScope, ?_, ?_⟩
  · unfold retried
    rw [if_pos (by exact serial), getElem?_restarted, first, Option.map_some, if_pos reached]
  · have normal : (branch.2[0].standing.prepare other.standing.newScope).propagation = .normal :=
      strict.2 serial _ first
    rw [Tree.standing_prepare]
    exact (Standing.propagatedResult_eq_failure normal).mpr (.inr rfl)

/-- The visits to children, with what they keep track of. -/
abbrev covering (now : Instant) (before : Runner) : Course Tree := fun child world answer next after =>
  Tree.Sweeps now child world answer next after ∧ coverCourse before child world answer next after

/-- What a visit to a child of a group that is kept track of comes to. -/
theorem visit_covered (watched : branch.Watched before world.runner)
    (here : branch.2[index]? = some child) (unfinished : child.standing.isFinished = false)
    (visit : covering now before child world answer visited there) (answered : Answered answer) :
    visited.Every (Tree.Covered before there.runner) ∧
      ∀ failure, answer = failedBy failure → visited.standing.isFinished :=
  visit.2 answered unfinished (watched.child (List.mem_of_getElem? here))

/-- A serial group waits for the child at its cursor, or it is done with that one too. -/
theorem Reached.passes (reached : Reached before branch world) (serial : branch.1.isSerial)
    (here : branch.2[branch.1.cursor]? = some child) (unfinished : child.standing.isFinished = false)
    (visit : covering now before child world (.ok ()) visited there) :
    Led before ((branch.put branch.1.cursor visited).cleared visited) there
      (min .finished visited.standing.propagatedChecking) := by
  obtain ⟨watched, unknown, around⟩ := reached
  have covered := (visit_covered watched here unfinished visit .ok).1
  have around := (around serial).put watched.distinct here visit.1 .ok
  have placed := getElem?_put_self here visited
  have standing : ((branch.put branch.1.cursor visited).cleared visited).1.standing =
      branch.1.standing := Group.standing_setFailed _ _
  have cursor : ((branch.put branch.1.cursor visited).cleared visited).1.cursor = branch.1.cursor :=
    Group.cursor_setFailed _ _
  -- The group takes its status from the visited child, the only one that it looked at.
  have plain := Checking.min_plain (.inr rfl) covered.self.upright.plain
  have finished : min .finished visited.standing.propagatedChecking = .finished →
      visited.standing.isFinished := fun ended => by
    rcases plain with waits | ⟨-, -, finished⟩
    · cases waits.symm.trans ended
    · exact covered.self.upright.isFinished finished
  refine ⟨standing ▸ unknown, standing ▸ watched.strict.self.1,
    put_covered watched here visit.1 .ok covered, plain.imp_right And.left,
    fun ended => ?_, fun _ _ => ?_, fun _ ended => .inl ?_⟩
  · refine around.all fun child at' => ?_
    cases placed.symm.trans at'
    exact covered.self.still (finished ended)
  · rw [cursor]
    exact around.waits
  · rw [cursor]
    refine around.done fun child at' => ?_
    cases placed.symm.trans at'
    exact finished ended

/-- A serial group whose child has failed is done with it, or starts over. -/
theorem Reached.fails (reached : Reached before branch world) (serial : branch.1.isSerial)
    (here : branch.2[branch.1.cursor]? = some child) (unfinished : child.standing.isFinished = false)
    (visit : covering now before child world (failedBy failure) visited there)
    (answers : Answers (branch.put branch.1.cursor visited) branch.1.cursor visited failure
      (.ok again) next) :
    Led before next there (if again then .mustCheck else .finished) := by
  obtain ⟨watched, unknown, around⟩ := reached
  obtain ⟨covered, finished⟩ := visit_covered watched here unfinished visit (.failed failure)
  have finished := finished failure rfl
  have around := (around serial).put watched.distinct here visit.1 (.failed failure)
  have every := put_covered watched here visit.1 (.failed failure) covered
  have placed := getElem?_put_self here visited
  have unknown := answers.result.trans unknown
  have checked : next.1.standing.isUnchecked = false := by
    unfold Standing.isUnchecked
    rw [answers.propagation]
    exact watched.strict.self.1
  rcases answers.upright placed covered.self.upright.checked finished with
    ⟨same, rfl, cursor⟩ | ⟨-, same, cursor⟩
  · refine ⟨unknown, checked, same ▸ every, .inr rfl, fun _ => ?_, nofun, fun _ _ => ?_⟩
    · rw [same]
      refine around.all fun child at' => ?_
      cases placed.symm.trans at'
      exact covered.self.still finished
    · rcases cursor serial with kept | left
      · refine .inl ?_
        rw [same, kept]
        refine around.done fun child at' => ?_
        cases placed.symm.trans at'
        exact finished
      · exact .inr (.inl left)
  -- The group starts over. Its children are finished or have not begun, so nothing goes on.
  · have retried : ∀ other ∈ next.2,
        other.Every (Tree.Covered before there.runner) ∧ other.Still before there.runner :=
      fun other member => retried_covered here around every finished other (same ▸ member)
    have strict' : Tree.Strict
        (.branch (branch.put branch.1.cursor visited).1 (branch.put branch.1.cursor visited).2) :=
      (Tree.strict_of_layout (blank_tree (blank_put here visit.1.blank)) watched.strict).self
    refine ⟨unknown, checked, fun other member => (retried other member).1, ?_,
      fun _ other member => (retried other member).2, fun _ _ => ?_, fun _ _ => ?_⟩
    · cases again <;> simp
    · rw [cursor serial]
      exact ⟨fun child member => (List.not_mem_nil member).elim,
        fun child member => (retried child (List.mem_of_mem_drop member)).2⟩
    · rw [same]
      have serial' : (branch.put branch.1.cursor visited).1.isSerial := serial
      exact .inr (.inr (retried_first serial' strict' placed _ _))

/-- A serial group is left with one child at work. -/
theorem Single.led (single : Single (covering now before) branch world (.ok status) last there)
    (serial : branch.1.isSerial) (reached : Reached before branch world) :
    Led before last there status := by
  cases single with
  | rests done =>
      obtain ⟨watched, unknown, around⟩ := reached
      refine ⟨unknown, watched.strict.self.1, watched.every, .inr rfl,
        fun _ => (around serial).all fun child here => ?_, nofun,
        fun _ _ => .inl ((around serial).done done)⟩
      exact (watched.every child (List.mem_of_getElem? here)).self.still (done child here)
  | passes here unfinished visit => exact reached.passes serial here unfinished visit
  | fails here unfinished visit answers => exact reached.fails serial here unfinished visit answers

/-! ### Parallel groups -/

/-- A pass over a parallel group that has come to the children at the rest of the places.
Nothing goes on below the others unless the group waits. -/
structure PassCovered (before : Runner) (rest : List Nat) (branch : Branch) (world : World)
    (status : Checking) : Prop where
  parallel : branch.1.isSerial = false
  watched : branch.Watched before world.runner
  unknown : branch.1.standing.result = .unknown
  plain : status = .mustCheck ∨ status = .finished
  still : status = .finished → ∀ place ∉ rest, ∀ child, branch.2[place]? = some child →
    child.Still before world.runner

theorem PassCovered.skips (kept : PassCovered before (index :: rest) branch world status)
    (finished : ∀ child, branch.2[index]? = some child → child.standing.isFinished) :
    PassCovered before rest branch world status where
  parallel := kept.parallel
  watched := kept.watched
  unknown := kept.unknown
  plain := kept.plain
  still ended place beyond child at' := by
    by_cases same : place = index
    · exact (kept.watched.every child (List.mem_of_getElem? at')).self.still (finished child (same ▸ at'))
    · exact kept.still ended place (List.not_mem_cons_of_ne_of_not_mem same beyond) child at'

/-- A child was visited, and nothing goes on below it if the group does not wait. -/
theorem PassCovered.visits (kept : PassCovered before (index :: rest) branch world status)
    (here : branch.2[index]? = some child)
    (sweep : Tree.Sweeps now child world answer visited there) (answered : Answered answer)
    (layout : next.blank = branch.blank) (unknown : next.1.standing.result = .unknown) {new : Tree}
    (same : next.2 = branch.2.set index new) (covered : new.Every (Tree.Covered before there.runner))
    {ended : Checking} (plain : ended = .mustCheck ∨ ended = .finished)
    (still : ended = .finished → status = .finished ∧ new.Still before there.runner) :
    PassCovered before rest next there ended where
  parallel := by
    have same := congrArg (fun branch : Group × List Tree => branch.1.isSerial) layout
    exact (Group.isSerial_blank _).symm.trans
      (same.trans ((Group.isSerial_blank _).trans kept.parallel))
  watched := by
    refine ⟨(Tree.names_of_layout (blank_tree layout)).symm ▸ kept.watched.distinct,
      Tree.strict_of_layout (blank_tree layout) kept.watched.strict, ?_⟩
    rw [same]
    exact put_covered kept.watched here sweep answered covered
  unknown := unknown
  plain := plain
  still finished place beyond other at' := by
    rw [same] at at'
    have at' : (branch.put index new).2[place]? = some other := at'
    obtain ⟨finished, still⟩ := still finished
    rcases getElem?_put at' with ⟨-, rfl⟩ | ⟨different, at'⟩
    · exact still
    · exact (kept.still finished place (List.not_mem_cons_of_ne_of_not_mem different beyond) other
        at').later (spares kept.watched.distinct here sweep answered different at')
          (Nat.le_of_eq sweep.grows.tick.symm)

theorem PassCovered.passes (kept : PassCovered before (index :: rest) branch world status)
    (here : branch.2[index]? = some child) (sweep : Tree.Sweeps now child world (.ok ()) visited there)
    (covered : visited.Every (Tree.Covered before there.runner)) :
    PassCovered before rest ((branch.put index visited).cleared visited) there
      (min status visited.standing.propagatedChecking) := by
  have plain := Checking.min_plain kept.plain covered.self.upright.plain
  have standing : ((branch.put index visited).cleared visited).1.standing = branch.1.standing :=
    Group.standing_setFailed _ _
  refine kept.visits here sweep .ok ((blank_cleared _ _).trans (blank_put here sweep.blank))
    (standing ▸ kept.unknown) rfl covered (plain.imp_right And.left) fun finished => ?_
  rcases plain with waits | ⟨-, finished', visited⟩
  · cases waits.symm.trans finished
  · exact ⟨finished', covered.self.still (covered.self.upright.isFinished visited)⟩

/-- A parallel group answers a checked child alone, and leaves it as it is or tries it again. -/
theorem Answers.alone (answers : Answers branch index child failure (.ok again) next)
    (here : branch.2[index]? = some child) (checked : child.standing.isUnchecked = false)
    (finished : child.standing.isFinished) (parallel : branch.1.isSerial = false) :
    ∃ new, next.2 = branch.2.set index new ∧
      (new = child ∨ failure.isAborted = false ∧ ∃ scope, new = child.prepare scope) := by
  rcases answers.upright here checked finished with ⟨same, -, -⟩ | ⟨unaborted, same, -⟩
  · obtain ⟨inside, rfl⟩ := List.getElem?_eq_some_iff.mp here
    exact ⟨_, same.trans (List.set_getElem_self inside).symm, .inl rfl⟩
  · refine ⟨child.prepare child.standing.newScope, same.trans ?_, .inr ⟨unaborted, _, rfl⟩⟩
    unfold retried
    rw [if_neg (by exact Bool.eq_false_iff.mp parallel)]
    rfl

theorem PassCovered.fails (kept : PassCovered before (index :: rest) branch world status)
    (here : branch.2[index]? = some child)
    (sweep : Tree.Sweeps now child world (failedBy failure) visited there)
    (covered : visited.Every (Tree.Covered before there.runner))
    (finished : visited.standing.isFinished)
    (answers : Answers (branch.put index visited) index visited failure (.ok again) next) :
    PassCovered before rest next there (if again then .mustCheck else status) := by
  have placed := getElem?_put_self here visited
  obtain ⟨new, same, attempt⟩ :=
    answers.alone placed covered.self.upright.checked finished kept.parallel
  have still : new.Every (Tree.Covered before there.runner) ∧ new.Still before there.runner := by
    rcases attempt with rfl | ⟨-, scope, rfl⟩
    · exact ⟨covered, covered.self.still finished⟩
    · exact ⟨Tree.Covered.prepare covered finished scope,
        (covered.self.still finished).layout (Tree.blank_prepare _ _)⟩
  have layout := (answers.blank placed).trans (blank_put here sweep.blank)
  refine kept.visits here sweep (.failed failure) layout (answers.result.trans kept.unknown)
    (same.trans (List.set_set _)) still.1 ?_ fun ended => ⟨?_, still.2⟩
  · cases again
    · exact kept.plain
    · exact .inl rfl
  · cases again
    · exact ended
    · cases ended

theorem Pass.covered {indices : List Nat} {final : Checking}
    (pass : Pass (covering now before) indices branch world status (.ok final) last there)
    (kept : PassCovered before indices branch world status) :
    PassCovered before [] last there final := by
  refine pass.arrives (p := PassCovered before) (fun kept => kept.skips) ?_ ?_ kept
  · intro index rest branch world status child next there kept here unfinished visit
    exact kept.passes here visit.1 (visit_covered kept.watched here unfinished visit .ok).1
  · intro index rest branch world status child next there failure again answered
      kept here unfinished visit answers
    obtain ⟨covered, finished⟩ := visit_covered kept.watched here unfinished visit (.failed failure)
    exact kept.fails here visit.1 covered (finished failure rfl) answers

theorem Reached.start (reached : Reached before branch world) (parallel : branch.1.isSerial = false) :
    PassCovered before (List.range branch.span) branch world .finished := by
  refine ⟨parallel, reached.watched, reached.unknown, .inr rfl, fun _ place beyond child at' => ?_⟩
  refine absurd (List.mem_range.mpr ?_) beyond
  unfold span
  rw [if_neg (by exact Bool.eq_false_iff.mp parallel)]
  exact (List.getElem?_eq_some_iff.mp at').1

/-- A parallel group is left with nothing going on unless it waits. -/
theorem PassCovered.led (kept : PassCovered before [] branch world status) :
    Led before branch world status where
  unknown := kept.unknown
  checked := kept.watched.strict.self.1
  every := kept.watched.every
  plain := kept.plain
  still finished child member := by
    obtain ⟨place, at'⟩ := List.mem_iff_getElem?.mp member
    exact kept.still finished place List.not_mem_nil child at'
  waits serial := absurd serial (Bool.eq_false_iff.mp kept.parallel)
  moves serial := absurd serial (Bool.eq_false_iff.mp kept.parallel)

/-! ### Sweeps -/

theorem Reached.led (reached : Reached before branch world)
    (pass : Pass (covering now before) (List.range branch.span) branch world .finished (.ok status)
      last there) : Led before last there status := by
  cases kind : branch.1.isSerial with
  | true => exact (pass.single kind (reached.around kind).waits.1).led kind reached
  | false => exact (pass.covered (reached.start kind)).led

theorem Sweeps.covered {group group' : Group} {children children' : List Tree}
    (sweeps : Sweeps now (covering now before) (group, children) world answer (group', children') there)
    (answered : Answered answer) (unfinished : group.standing.isFinished = false)
    (watched : (Tree.branch group children).Watched before world.runner) :
    (Tree.branch group' children').Every (Tree.Covered before there.runner) ∧
      ∀ failure, answer = failedBy failure → group'.standing.isFinished := by
  cases sweeps with
  | halts pass => cases answered; exact absurd rfl (pass.hard _)
  | closes pass closes =>
      have led := (reached_begun now unfinished watched).led pass
      exact closes.covered answered led.closed rfl

end

end Branch

/-- Sweeps keep it that nothing goes on where the tree does not look. -/
theorem Tree.Sweeps.covered {before : Runner} {now : Instant} (set : now.isSet) {tree next : Tree}
    {world after : World} {answer : Except Halt Unit}
    (sweeps : Tree.Sweeps now tree world answer next after) (answered : Answered answer)
    (unfinished : tree.standing.isFinished = false) (watched : tree.Watched before world.runner) :
    next.Every (Covered before after.runner) ∧
      ∀ failure, answer = failedBy failure → next.standing.isFinished := by
  refine Sweeps.rule (p := Branch.coverCourse before) ?_ ?_ sweeps answered unfinished watched
  · intro leaf world answer leaf' after follows answered unfinished watched
    obtain ⟨covered, failed⟩ := follows.covered set answered unfinished watched.covered.self
    exact ⟨every_task.mpr covered, failed⟩
  · intro group children world answer group' children' after sweeps answered unfinished watched
    exact sweeps.covered answered unfinished watched

theorem Tree.Sweeps.watched {before : Runner} {now : Instant} (set : now.isSet) {tree next : Tree}
    {world after : World} {answer : Except Halt Unit}
    (sweeps : Tree.Sweeps now tree world answer next after) (answered : Answered answer)
    (unfinished : tree.standing.isFinished = false) (watched : tree.Watched before world.runner) :
    next.Watched before after.runner where
  distinct := (names_of_layout sweeps.blank).symm ▸ watched.distinct
  strict := strict_of_layout sweeps.blank watched.strict
  covered := (sweeps.covered set answered unfinished watched).1

/-- What a visit to a child of a group comes to that is kept track of. -/
theorem Branch.sweep_covered {before : Runner} {now : Instant} (set : now.isSet) {branch : Branch}
    {index : Nat} {child visited : Tree} {world there : World} {answer : Except Halt Unit}
    (watched : branch.Watched before world.runner) (here : branch.2[index]? = some child)
    (unfinished : child.standing.isFinished = false)
    (sweep : Tree.Sweeps now child world answer visited there) (answered : Answered answer) :
    visited.Every (Tree.Covered before there.runner) ∧
      ∀ failure, answer = failedBy failure → visited.standing.isFinished :=
  sweep.covered set answered unfinished (watched.child (List.mem_of_getElem? here))

namespace Branch.PassCovered

variable {before : Runner} {now : Instant} {branch next : Branch} {index : Nat} {rest : List Nat}
  {child visited : Tree} {world there : World} {status : Checking} {failure : JobFailure} {again : Bool}

/-- A pass goes on after a sweep over a child. -/
theorem swept (set : now.isSet) (kept : PassCovered before (index :: rest) branch world status)
    (here : branch.2[index]? = some child) (unfinished : child.standing.isFinished = false)
    (sweep : Tree.Sweeps now child world (.ok ()) visited there) :
    PassCovered before rest ((branch.put index visited).cleared visited) there
      (min status visited.standing.propagatedChecking) :=
  kept.passes here sweep
    (sweep_covered set kept.watched here unfinished sweep .ok).1

/-- A pass goes on after a sweep that has failed. -/
theorem answered (set : now.isSet) (kept : PassCovered before (index :: rest) branch world status)
    (here : branch.2[index]? = some child) (unfinished : child.standing.isFinished = false)
    (sweep : Tree.Sweeps now child world (failedBy failure) visited there)
    (answers : Answers (branch.put index visited) index visited failure (.ok again) next) :
    PassCovered before rest next there (if again then .mustCheck else status) := by
  obtain ⟨covered, finished⟩ :=
    sweep_covered set kept.watched here unfinished sweep (.failed failure)
  exact kept.fails here sweep covered (finished failure rfl) answers

end Branch.PassCovered

end BuildFlow
