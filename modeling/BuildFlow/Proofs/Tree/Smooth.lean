import BuildFlow.Proofs.Tree.Steady
/-!
Sweeps where no job ever fails. A serial group leaves the children behind its
cursor alone and goes on only once the children before it have succeeded, so
what they have built is over when the next child starts. Each visit keeps this
and touches no jobs but those below it.
-/
namespace BuildFlow

variable {base : String → List Build}

/-- All that the first tree builds is over when the second one starts a build. -/
def Tree.Precedes (base : String → List Build) (runner : Runner) (first second : Tree) : Prop :=
  ∀ name ∈ first.checkedNames, ∀ other ∈ second.names, ∀ build next : Build,
    runner.buildsOf name = base name ++ [build] → runner.buildsOf other = base other ++ [next] →
      build.endTick ≤ next.enqueuedAt

/-- A group whose children run jobs that do not fail. -/
structure Branch.Steady (base : String → List Build) (runner : Runner) (branch : Branch) :
    Prop where
  untimed : ¬ 0 < branch.1.timeout
  inhabited : branch.2 ≠ []
  apart : ∀ (i j : Nat) (first second : Tree), i ≠ j → branch.2[i]? = some first →
    branch.2[j]? = some second → ∀ name ∈ first.names, name ∉ second.names
  hopeful : branch.1.standing.result = .unknown ∨ branch.1.standing.result = .success
  settled : branch.1.standing.Settled
  passed : branch.1.isSerial → ∀ (i : Nat) (child : Tree), branch.2[i]? = some child →
    i < branch.1.cursor → child.standing.propagatedResult = .success
  ahead : branch.1.isSerial → ∀ (i : Nat) (child : Tree), branch.2[i]? = some child →
    branch.1.cursor < i → ∀ name ∈ child.names, runner.buildsOf name = base name
  ordered : branch.1.isSerial → ∀ (i j : Nat) (first second : Tree), i < j →
    branch.2[i]? = some first → branch.2[j]? = some second →
    Tree.Precedes base runner first second

namespace Tree

def Steady (base : String → List Build) (runner : Runner) : Tree → Prop
  | .task leaf => leaf.Steady (base leaf.name) runner
  | .branch group children => Branch.Steady base runner (group, children)

/-- Nothing below the node has failed or will fail. -/
def Smooth (base : String → List Build) (runner : Runner) (tree : Tree) : Prop :=
  tree.Every (Steady base runner)

theorem smooth_task {runner : Runner} {leaf : Task} :
    (Tree.task leaf).Smooth base runner ↔ leaf.Steady (base leaf.name) runner := every_task

theorem smooth_branch {runner : Runner} {group : Group} {children : List Tree} :
    (Tree.branch group children).Smooth base runner ↔
      Branch.Steady base runner (group, children) ∧
      ∀ child ∈ children, child.Smooth base runner := every_branch

/-- Time passes, and others build. -/
theorem Smooth.grows {before after : Runner} {tree : Tree} (smooth : tree.Smooth base before)
    (grows : before.Grows after)
    (same : ∀ name ∈ tree.names, after.buildsOf name = before.buildsOf name) :
    tree.Smooth base after := by
  intro node member
  have here := smooth node member
  have same' : ∀ name ∈ node.names, after.buildsOf name = before.buildsOf name :=
    fun name named => same name (names_of_mem_nodes member named)
  cases node with
  | task leaf => exact Task.Steady.grows here grows (same' _ (List.mem_singleton_self _))
  | branch group children =>
      have steady : Branch.Steady base before (group, children) := here
      have below : ∀ {i : Nat} {child : Tree}, children[i]? = some child →
          ∀ name ∈ child.names, after.buildsOf name = before.buildsOf name :=
        fun at' name named => same' name
          (mem_names_branch.mpr ⟨_, List.mem_of_getElem? at', named⟩)
      refine ⟨steady.untimed, steady.inhabited, steady.apart, steady.hopeful, steady.settled,
        steady.passed, ?_, ?_⟩
      · intro serial i child at' behind name named
        exact (below at' name named).trans (steady.ahead serial i child at' behind name named)
      · intro serial i j first second order at' later name named other named' build next had had'
        apply steady.ordered serial i j first second order at' later name named other named'
        · exact (below at' name (checkedNames_subset named)).symm.trans had
        · exact (below later other named').symm.trans had'

theorem Smooth.settled {runner : Runner} {tree : Tree} (smooth : tree.Smooth base runner) :
    tree.standing.Settled := by
  have here := smooth.self
  cases tree with
  | task leaf => exact Task.Steady.settled here
  | branch group children => exact Branch.Steady.settled here

/-- All that a tree that looks like a success has built is over. -/
theorem Smooth.past {runner : Runner} {tree : Tree} (smooth : tree.Smooth base runner)
    (sound : tree.Sound runner) (passed : tree.standing.propagatedResult = .success) :
    ∀ name ∈ tree.checkedNames, ∃ build, runner.buildsOf name = base name ++ [build] ∧
      build.endTick ≤ runner.tick := by
  intro name named
  obtain ⟨leaf, member, rfl⟩ := List.mem_map.mp named
  have good : leaf.standing.result.IsGood := by
    rcases Standing.propagatedResult_eq_success.mp passed with good | unchecked
    · exact sound.good good leaf member
    · rw [checkedTasks_of_unchecked unchecked] at member
      cases member
  have steady : leaf.Steady (base leaf.name) runner := smooth _ (of_mem_checkedTasks member).1
  cases steady.stage with
  | waiting unknown => exact absurd unknown good.known
  | running unknown => exact absurd unknown good.known
  | done _ built ended => exact ⟨_, built.builds, ended⟩

end Tree

namespace Branch

/-- The group may change as long as its children, its place and what it has come
to are as before. -/
theorem Steady.group {runner : Runner} {branch : Branch} (steady : branch.Steady base runner)
    {group : Group} (timeout : group.timeout = branch.1.timeout)
    (serial : group.isSerial = branch.1.isSerial) (cursor : group.cursor = branch.1.cursor)
    (hopeful : group.standing.result = .unknown ∨ group.standing.result = .success)
    (settled : group.standing.Settled) : Branch.Steady base runner (group, branch.2) where
  untimed := timeout ▸ steady.untimed
  inhabited := steady.inhabited
  apart := steady.apart
  hopeful := hopeful
  settled := settled
  passed serial' i child at' before :=
    steady.passed (serial ▸ serial') i child at' (cursor ▸ before)
  ahead serial' i child at' behind :=
    steady.ahead (serial ▸ serial') i child at' (cursor ▸ behind)
  ordered serial' := steady.ordered (serial ▸ serial')

/-- A pass over a group in which nothing fails. -/
structure PassSmooth (base : String → List Build) (branch : Branch) (there : World) : Prop where
  sound : ∀ child ∈ branch.2, child.Sound there.runner
  smooth : ∀ child ∈ branch.2, child.Smooth base there.runner
  steady : branch.Steady base there.runner

section

variable {branch : Branch} {world there : World} {index : Nat} {child next : Tree}

/-- What has been built by children before one that starts a build is over, and
children behind it have built nothing. -/
theorem PassSmooth.ordered (kept : PassSmooth base branch world)
    (here : branch.2[index]? = some child)
    (within : branch.1.isSerial → index ≤ branch.1.cursor)
    (adds : Runner.Adds base child.names world.runner there.runner)
    (serial : branch.1.isSerial) {i j : Nat} {first second : Tree} (order : i < j)
    (at' : branch.2[i]? = some first) (later : branch.2[j]? = some second) :
    first.Precedes base there.runner second := by
  have steady := kept.steady
  intro name named other named' build next' had had'
  have named : name ∈ first.names := Tree.checkedNames_subset named
  have past : i < branch.1.cursor → ∃ build, world.runner.buildsOf name = base name ++ [build] ∧
      build.endTick ≤ world.runner.tick := fun before =>
    (kept.smooth first (List.mem_of_getElem? at')).past (kept.sound first (List.mem_of_getElem? at'))
      (steady.passed serial i first at' before) name ‹_›
  have placed : ∀ {k : Nat} {tree : Tree} {job : String}, branch.2[k]? = some tree →
      job ∈ tree.names → job ∈ child.names → k = index := by
    intro k tree job place inside inside'
    by_cases same : k = index
    · exact same
    · exact absurd inside' (steady.apart k index tree child same place here job inside)
  rcases adds other with same | ⟨started, -, _, added, enqueued⟩
  · rcases adds name with same' | ⟨started, unbuilt, -⟩
    · exact steady.ordered serial i j first second order at' later name ‹_› other named' build next'
        (same'.symm.trans had) (same.symm.trans had')
    · -- The later child has not built anything, or the earlier one had built before.
      have place := placed at' named started
      by_cases reached : j ≤ branch.1.cursor
      · obtain ⟨_, built, -⟩ := past (Nat.lt_of_lt_of_le order reached)
        rw [unbuilt] at built
        simp at built
      · have untouched := steady.ahead serial j second later (Nat.lt_of_not_le reached) other named'
        rw [same, untouched] at had'
        simp at had'
  · have place := placed later named' started
    obtain ⟨_, built, ended⟩ := past (Nat.lt_of_lt_of_le (place ▸ order) (within serial))
    have same : there.runner.buildsOf name = world.runner.buildsOf name :=
      adds.outside fun inside => Nat.ne_of_lt order ((placed at' named inside).trans place.symm)
    rw [same, built] at had
    rw [added] at had'
    simp only [List.append_cancel_left_eq, List.cons.injEq, and_true] at had had'
    subst had had'
    rw [enqueued]
    exact ended

/-- Every child has the names of the one that was in its place, and is it unless it was visited. -/
theorem was_put (here : branch.2[index]? = some child) (layout : next.blank = child.blank)
    (passed : child.standing.propagatedResult = .success → next.standing.propagatedResult = .success)
    {i : Nat} {tree : Tree} (at' : (branch.put index next).2[i]? = some tree) :
    ∃ old, branch.2[i]? = some old ∧ tree.names = old.names ∧ tree.checkedNames = old.checkedNames ∧
      (old.standing.propagatedResult = .success → tree.standing.propagatedResult = .success) ∧
      (i ≠ index → tree = old) := by
  rcases getElem?_put at' with ⟨rfl, rfl⟩ | ⟨other, at'⟩
  · exact ⟨child, here, Tree.names_of_layout layout, Tree.checkedNames_of_layout layout, passed,
      fun other => absurd rfl other⟩
  · exact ⟨tree, at', rfl, rfl, id, fun _ => rfl⟩

/-- A visit to a child within reach leaves the builds of the others alone. -/
theorem Steady.others (steady : branch.Steady base world.runner)
    (here : branch.2[index]? = some child)
    (adds : Runner.Adds base child.names world.runner there.runner) {i : Nat} {tree : Tree}
    (at' : branch.2[i]? = some tree) (other : i ≠ index) :
    ∀ name ∈ tree.names, there.runner.buildsOf name = world.runner.buildsOf name :=
  fun name named => adds.outside (steady.apart _ _ _ _ other at' here name named)

theorem PassSmooth.steady_put (kept : PassSmooth base branch world)
    (here : branch.2[index]? = some child)
    (within : branch.1.isSerial → index ≤ branch.1.cursor) (layout : next.blank = child.blank)
    (passed : child.standing.propagatedResult = .success → next.standing.propagatedResult = .success)
    (adds : Runner.Adds base child.names world.runner there.runner) :
    (branch.put index next).Steady base there.runner := by
  have steady := kept.steady
  constructor
  case untimed => exact steady.untimed
  case inhabited =>
    intro empty
    exact steady.inhabited ((List.set_eq_nil_iff _ _).mp empty)
  case apart =>
    intro i j first second different at' later
    obtain ⟨old, place, same, -⟩ := was_put here layout passed at'
    obtain ⟨old', place', same', -⟩ := was_put here layout passed later
    rw [same, same']
    exact steady.apart i j old old' different place place'
  case hopeful => exact steady.hopeful
  case settled => exact steady.settled
  case passed =>
    intro serial i tree at' before
    obtain ⟨old, place, -, -, passes, -⟩ := was_put here layout passed at'
    exact passes (steady.passed serial i old place before)
  case ahead =>
    intro serial i tree at' behind name named
    -- The visited child is within reach, so the ones ahead of the cursor are others.
    have other : i ≠ index := fun same => by
      have := within serial
      have : branch.1.cursor < i := behind
      omega
    obtain ⟨old, place, -, -, -, same⟩ := was_put here layout passed at'
    rw [same other] at named
    exact (steady.others here adds place other name named).trans
      (steady.ahead serial i old place behind name named)
  case ordered =>
    intro serial i j first second order at' later
    obtain ⟨old, place, -, same, -⟩ := was_put here layout passed at'
    obtain ⟨old', place', same', -⟩ := was_put here layout passed later
    have precedes := kept.ordered here within adds serial order place place'
    unfold Tree.Precedes at precedes ⊢
    rwa [same, same']

/-- A visit to a child within reach keeps the group smooth. -/
theorem PassSmooth.put (kept : PassSmooth base branch world)
    (here : branch.2[index]? = some child)
    (within : branch.1.isSerial → index ≤ branch.1.cursor) (grows : world.Grows there)
    (layout : next.blank = child.blank) (keeps : Tree.KeepsSound child (.ok ()) next there)
    (smooth : next.Smooth base there.runner)
    (adds : Runner.Adds base child.names world.runner there.runner) :
    PassSmooth base (branch.put index next) there := by
  constructor
  case sound =>
    intro tree member
    rcases List.mem_or_eq_of_mem_set member with old | same
    · exact (kept.sound tree old).grows grows.runner
    · exact same ▸ keeps.sound
  case smooth =>
    intro tree member
    obtain ⟨i, at'⟩ := List.mem_iff_getElem?.mp member
    rcases getElem?_put at' with ⟨-, same⟩ | ⟨other, at'⟩
    · exact same ▸ smooth
    · exact (kept.smooth tree (List.mem_of_getElem? at')).grows grows.runner
        (kept.steady.others here adds at' other)
  case steady => exact kept.steady_put here within layout keeps.passed adds

theorem PassSmooth.cleared (kept : PassSmooth base branch there) (child : Tree) :
    PassSmooth base (branch.cleared child) there := by
  refine ⟨kept.sound, kept.smooth, kept.steady.group ?_ ?_ ?_ ?_ ?_⟩
  · exact Group.timeout_setFailed _ _
  · exact Group.isSerial_setFailed _ _
  · exact Group.cursor_setFailed _ _
  · rw [Group.standing_setFailed]
    exact kept.steady.hopeful
  · rw [Group.standing_setFailed]
    exact kept.steady.settled

end

/-- The visits that go well where nothing fails. -/
def smoothCourse (base : String → List Build) : Course Tree := fun child world answer next after =>
  child.standing.isFinished = false → child.Sound world.runner →
    child.Smooth base world.runner →
    EndsWell after (fun _ => next.Smooth base after.runner ∧
      Runner.Adds base child.names world.runner after.runner) answer

/-- What has been done by a pass over some children in which nothing fails. -/
structure PassDone (base : String → List Build) (indices : List Nat) (branch : Branch)
    (world : World) (status : Checking) (last : Branch) (after : World) (final : Checking) :
    Prop where
  kept : PassSmooth base last after
  adds : Runner.Adds base (branch.2.flatMap Tree.names) world.runner after.runner
  serial : last.1.isSerial = branch.1.isSerial
  cursor : last.1.cursor = branch.1.cursor
  passed : ∀ (i : Nat) (child : Tree), branch.2[i]? = some child →
    child.standing.propagatedResult = .success →
    ∃ next, last.2[i]? = some next ∧ next.standing.propagatedResult = .success
  waited : final ≠ .mustCheck → status ≠ .mustCheck ∧ ∀ i ∈ indices, ∀ child,
    branch.2[i]? = some child →
    ∃ next, last.2[i]? = some next ∧ next.standing.propagatedResult = .success

section

variable {branch last : Branch} {world there after : World} {index : Nat} {rest : List Nat}
  {child next : Tree} {status final : Checking}

/-- A child that is finished looks like a success already. -/
theorem PassDone.skips (kept : PassSmooth base branch world)
    (finished : ∀ child, branch.2[index]? = some child → child.standing.isFinished)
    (done : PassDone base rest branch world status last after final) :
    PassDone base (index :: rest) branch world status last after final := by
  refine { done with waited := fun waits => ?_ }
  obtain ⟨waits, passed⟩ := done.waited waits
  refine ⟨waits, fun i member child at' => ?_⟩
  rcases List.mem_cons.mp member with same | later
  · subst same
    apply done.passed i child at'
    apply (kept.smooth child (List.mem_of_getElem? at')).settled
    exact Standing.unwaited (finished child at')
  · exact passed i later child at'

/-- A child that was visited looks like a success if it is not waited for. -/
theorem PassDone.passes (here : branch.2[index]? = some child) (grows : world.Grows there)
    (layout : next.blank = child.blank) (keeps : Tree.KeepsSound child (.ok ()) next there)
    (smooth : next.Smooth base there.runner)
    (adds : Runner.Adds base child.names world.runner there.runner)
    (done : PassDone base rest ((branch.put index next).cleared next) there
      (min status next.standing.propagatedChecking) last after final) :
    PassDone base (index :: rest) branch world status last after final := by
  have names : (branch.2.set index next).flatMap Tree.names = branch.2.flatMap Tree.names := by
    rw [List.flatMap_def, List.flatMap_def, map_set_same here (Tree.names_of_layout layout)]
  have placed : (branch.2.set index next)[index]? = some next :=
    List.getElem?_set_self (List.getElem?_eq_some_iff.mp here).1
  -- Apart from the visited place the children are those of before.
  have elsewhere : ∀ i, i ≠ index → (branch.2.set index next)[i]? = branch.2[i]? :=
    fun i other => List.getElem?_set_ne other.symm
  refine ⟨done.kept, ?_, done.serial.trans (Group.isSerial_setFailed _ _),
    done.cursor.trans (Group.cursor_setFailed _ _), ?_, ?_⟩
  · apply Runner.Adds.trans _ _ grows.tick
    · exact adds.wider fun name named =>
        List.mem_flatMap.mpr ⟨child, List.mem_of_getElem? here, named⟩
    · exact names ▸ done.adds
  · intro i other at' passed
    by_cases same : i = index
    · subst same
      cases here.symm.trans at'
      exact done.passed i next placed (keeps.passed passed)
    · exact done.passed i other ((elsewhere i same).trans at') passed
  · intro waits
    obtain ⟨waits, passed⟩ := done.waited waits
    obtain ⟨waits, settles⟩ := not_or.mp (mt Checking.min_eq_mustCheck.mpr waits)
    refine ⟨waits, fun i member other at' => ?_⟩
    by_cases same : i = index
    · subst same
      exact done.passed i next placed (smooth.settled settles)
    · have later := (List.mem_cons.mp member).resolve_left same
      exact passed i later other ((elsewhere i same).trans at')

end

theorem Pass.smooth {now : Instant} {indices : List Nat} {branch last : Branch}
    {world after : World} {status : Checking} {answer : Except Halt Checking}
    (pass : Pass (fun child world answer next after =>
        Tree.Sweeps now child world answer next after ∧ smoothCourse base child world answer next after)
      indices branch world status answer last after)
    (kept : PassSmooth base branch world)
    (within : branch.1.isSerial → ∀ i ∈ indices, i ≤ branch.1.cursor) :
    EndsWell after (PassDone base indices branch world status last after) answer := by
  -- What is kept holds in front of every place, and a smooth child never fails its group.
  induction pass with
  | done =>
      refine .ok ⟨kept, Runner.adds_of_same fun _ => rfl, rfl, rfl, ?_, ?_⟩
      · exact fun i child at' passed => ⟨child, at', passed⟩
      · exact fun waits => ⟨waits, fun _ member => (List.not_mem_nil member).elim⟩
  | skips finished _ ih =>
      cases ih kept fun serial i member => within serial i (List.mem_cons_of_mem _ member) with
      | overrun overrun => exact .overrun overrun
      | ok done => exact .ok (done.skips kept finished)
  | @passes index rest branch _ world there _ status _ child next here unfinished visit _ ih =>
      have inside := List.mem_of_getElem? here
      have sound := kept.sound child inside
      have keeps := visit.1.sound .ok unfinished sound
      have layout := visit.1.blank
      obtain ⟨smooth, adds⟩ := (visit.2 unfinished sound (kept.smooth child inside)).holds
      have cleared := (kept.put here (fun serial => within serial index List.mem_cons_self)
        visit.1.grows layout keeps smooth adds).cleared next
      have serial : ((branch.put index next).cleared next).1.isSerial = branch.1.isSerial :=
        Group.isSerial_setFailed _ _
      have cursor : ((branch.put index next).cleared next).1.cursor = branch.1.cursor :=
        Group.cursor_setFailed _ _
      have onward := ih cleared fun serial' i member =>
        cursor ▸ within (serial ▸ serial') i (List.mem_cons_of_mem _ member)
      cases onward with
      | overrun overrun => exact .overrun overrun
      | ok done => exact .ok (done.passes here visit.1.grows layout keeps smooth adds)
  | fails here unfinished visit =>
      have inside := List.mem_of_getElem? here
      cases visit.2 unfinished (kept.sound _ inside) (kept.smooth _ inside)
  | breaks here unfinished visit =>
      have inside := List.mem_of_getElem? here
      cases visit.2 unfinished (kept.sound _ inside) (kept.smooth _ inside)
  | halts here unfinished visit =>
      have inside := List.mem_of_getElem? here
      cases visit.2 unfinished (kept.sound _ inside) (kept.smooth _ inside) with
      | overrun overrun => exact .overrun overrun

/-! ### What the children come to -/

/-- The cursor may move on once the children in reach look like successes. -/
theorem Steady.moved {runner : Runner} {branch : Branch} (steady : branch.Steady base runner)
    (visited : ∀ (i : Nat) (child : Tree), i < branch.span → branch.2[i]? = some child →
      child.standing.propagatedResult = .success)
    {group : Group} (timeout : group.timeout = branch.1.timeout)
    (serial : group.isSerial = branch.1.isSerial)
    (cursor : branch.1.isSerial → group.cursor = branch.1.cursor + 1)
    (hopeful : group.standing.result = .unknown ∨ group.standing.result = .success)
    (settled : group.standing.Settled) : Branch.Steady base runner (group, branch.2) where
  untimed := timeout ▸ steady.untimed
  inhabited := steady.inhabited
  apart := steady.apart
  hopeful := hopeful
  settled := settled
  passed serial' i child at' before := by
    have isSerial : branch.1.isSerial := serial ▸ serial'
    have before : i < group.cursor := before
    have inside : i < branch.2.length := (List.getElem?_eq_some_iff.mp at').1
    apply visited i child _ at'
    rw [span_serial isSerial]
    rw [cursor isSerial] at before
    exact Nat.lt_min.mpr ⟨before, inside⟩
  ahead serial' i child at' behind := by
    have isSerial : branch.1.isSerial := serial ▸ serial'
    have behind : group.cursor < i := behind
    rw [cursor isSerial] at behind
    exact steady.ahead isSerial i child at' (Nat.lt_of_succ_lt behind)
  ordered serial' := steady.ordered (serial ▸ serial')

theorem PassSmooth.start {group : Group} {children : List Tree} {world : World}
    (sound : (Tree.branch group children).Sound world.runner)
    (smooth : (Tree.branch group children).Smooth base world.runner) (now : Instant) :
    PassSmooth base (begun (group, children) now) world := by
  obtain ⟨steady, below⟩ := Tree.smooth_branch.mp smooth
  obtain ⟨time, begun⟩ := Group.standing_begun group now
  refine ⟨(Tree.sound_branch.mp sound).2, below, steady.group ?_ ?_ ?_ ?_ ?_⟩
  · exact Group.timeout_begun group now
  · exact Group.isSerial_begun group now
  · exact Group.cursor_begun group now
  · rw [begun]
    exact steady.hopeful
  · rw [begun]
    exact steady.settled

/-- The children that a pass has visited look like successes if nothing is left
to wait for. -/
theorem PassDone.visited {branch last : Branch} {world after : World} {final : Checking}
    (done : PassDone base (List.range branch.span) branch world .finished last after final)
    (layout : last.blank = branch.blank) (past : final ≠ .mustCheck) :
    last.span = branch.span ∧ ∀ (i : Nat) (child : Tree), i < last.span →
      last.2[i]? = some child → child.standing.propagatedResult = .success := by
  have lengths : last.2.length = branch.2.length := by
    simpa using congrArg List.length (Prod.mk.inj layout).2
  have spans := span_eq done.serial done.cursor lengths
  refine ⟨spans, fun i child before at' => ?_⟩
  have inside : i < branch.2.length := lengths ▸ (List.getElem?_eq_some_iff.mp at').1
  obtain ⟨next, at'', passed⟩ := (done.waited past).2 i (List.mem_range.mpr (spans ▸ before)) _
    (List.getElem?_eq_getElem inside)
  cases at'.symm.trans at''
  exact passed

/-- The group takes over the status of a pass. -/
structure ClosedWell (branch closed : Branch) (status : Checking) : Prop where
  timeout : closed.1.timeout = branch.1.timeout
  serial : closed.1.isSerial = branch.1.isSerial
  cursor : closed.1.cursor = branch.1.cursor
  result : closed.1.standing.result = branch.1.standing.result
  checking : closed.1.standing.checking = status

theorem closed_well (branch : Branch) (status : Checking) :
    ClosedWell branch (branch.closed status) status := by
  unfold closed
  constructor
  · rfl
  · rfl
  · rfl
  · split <;> rfl
  · rfl

/-- Once the group is settled its children in reach have succeeded, and so has the group. -/
theorem PassDone.settled {branch passed : Branch} {world after : World} {status : Checking}
    (done : PassDone base (List.range branch.span) branch world .finished passed after status)
    (layout : passed.blank = branch.blank)
    (settled : isPending status (passed.closed status) = false) :
    (passed.closed status).aggregate (passed.closed status).span = .success ∧
      ∀ (i : Nat) (child : Tree), i < passed.span → passed.2[i]? = some child →
        child.standing.propagatedResult = .success := by
  obtain ⟨-, serial, cursor, -, -⟩ := closed_well passed status
  have steady := done.kept.steady
  have past : status ≠ .mustCheck := by
    simp only [isPending, Bool.or_eq_false_iff, decide_eq_false_iff_not] at settled
    exact settled.1
  obtain ⟨-, visited⟩ := done.visited layout past
  have same : (passed.closed status).2 = passed.2 := rfl
  have spans : (passed.closed status).span = passed.span := by
    unfold span reach Branch.group Branch.children
    rw [serial, cursor, same]
  refine ⟨aggregate_success (settled_unknown settled) ?_ fun child member => ?_, visited⟩
  · intro none
    rcases List.take_eq_nil_iff.mp none with zero | empty
    · exact absurd (span_pos steady.inhabited) (by omega)
    · exact steady.inhabited empty
  · obtain ⟨i, at'⟩ := List.mem_iff_getElem?.mp member
    rw [List.getElem?_take, spans] at at'
    split at at'
    · next before => exact visited i child before at'
    · cases at'

/-- What comes after a pass in which nothing fails goes well. -/
theorem PassDone.closes {now : Instant} {branch passed last : Branch} {world after : World}
    {status : Checking} {answer : Except Halt Unit}
    (done : PassDone base (List.range branch.span) branch world .finished passed after status)
    (layout : passed.blank = branch.blank)
    (closes : Closes now (passed.closed status) status answer last) :
    answer = .ok () ∧ last.Steady base after.runner := by
  obtain ⟨timeout, serial, cursor, result, checking⟩ := closed_well passed status
  have steady := done.kept.steady
  have hopeful : (passed.closed status).1.standing.result = .unknown ∨
      (passed.closed status).1.standing.result = .success := result ▸ steady.hopeful
  -- The group has no time limit and nothing has failed, so it waits, moves on or succeeds.
  cases closes with
  | pending pending =>
      refine ⟨rfl, steady.group timeout serial cursor hopeful ?_⟩
      apply Standing.settled_of_hopeful hopeful
      simp only [isPending, Bool.or_eq_true, decide_eq_true_eq] at pending
      rw [checking]
      exact pending
  | overdue _ overdue =>
      have positive : 0 < (passed.closed status).1.timeout := by
        simp only [isOverdue, Bool.and_eq_true, decide_eq_true_eq] at overdue
        exact overdue.1
      exact absurd (timeout ▸ positive) steady.untimed
  | fails settled failure =>
      rw [(done.settled layout settled).1] at failure
      cases failure
  | moves settled _ serial' =>
      refine ⟨rfl, steady.moved (done.settled layout settled).2 ?_ ?_ (fun _ => ?_) (.inl rfl) ?_⟩
      · exact (Group.timeout_setCursor _ _).trans timeout
      · exact (Group.isSerial_setCursor _ _).trans serial
      · exact (Group.cursor_setCursor serial' _).trans (congrArg (· + 1) cursor)
      · exact Standing.settled_of_hopeful (.inl rfl) (.inl rfl)
  | ends settled =>
      obtain ⟨aggregate, visited⟩ := done.settled layout settled
      have success : (passed.closed status).summed.moved.1.standing.result = .success :=
        (congrArg Standing.result (Group.standing_setCursor _ _)).trans aggregate
      refine ⟨rfl, steady.moved visited ?_ ?_ (fun serial' => ?_) (.inr success) ?_⟩
      · exact (Group.timeout_setCursor _ _).trans timeout
      · exact (Group.isSerial_setCursor _ _).trans serial
      · have isSerial : (passed.closed status).summed.1.isSerial := serial.trans serial'
        exact (Group.cursor_setCursor isSerial _).trans (congrArg (· + 1) cursor)
      · exact fun _ => Standing.propagatedResult_of_good (.inl success)

/-- A sweep over a group in which nothing fails goes well. -/
theorem Sweeps.smooth {now : Instant} {group group' : Group} {children children' : List Tree}
    {world after : World} {answer : Except Halt Unit}
    (sweeps : Branch.Sweeps now (fun child world answer next after =>
        Tree.Sweeps now child world answer next after ∧
          smoothCourse base child world answer next after)
      (group, children) world answer (group', children') after)
    (sound : (Tree.branch group children).Sound world.runner)
    (smooth : (Tree.branch group children).Smooth base world.runner) :
    EndsWell after (fun _ => (Tree.branch group' children').Smooth base after.runner ∧
      Runner.Adds base (Tree.branch group children).names world.runner after.runner) answer := by
  have start := PassSmooth.start sound smooth now
  have within : (begun (group, children) now).1.isSerial →
      ∀ i ∈ List.range (begun (group, children) now).span,
        i ≤ (begun (group, children) now).1.cursor :=
    fun serial i member => le_cursor_of_mem_range serial member
  cases sweeps with
  | halts pass =>
      cases pass.smooth start within with
      | overrun overrun => exact .overrun overrun
  | @closes passed _ _ status _ pass closes =>
      have done := (pass.smooth start within).holds
      obtain ⟨rfl, steady⟩ := done.closes (pass.blank fun visit => visit.1.blank) closes
      have below : children' = passed.2 := closes.children
      refine .ok ⟨Tree.smooth_branch.mpr ⟨steady, below ▸ done.kept.smooth⟩, ?_⟩
      rw [Tree.names_branch]
      exact done.adds

end Branch

/-- A sweep over a tree in which nothing fails goes well. -/
theorem Tree.Sweeps.smooth {now : Instant} (set : now.isSet) {tree next : Tree}
    {world after : World} {answer : Except Halt Unit}
    (sweeps : Tree.Sweeps now tree world answer next after)
    (unfinished : tree.standing.isFinished = false) (sound : tree.Sound world.runner)
    (smooth : tree.Smooth base world.runner) :
    EndsWell after (fun _ => next.Smooth base after.runner ∧
      Runner.Adds base tree.names world.runner after.runner) answer := by
  refine sweeps.rule (p := Branch.smoothCourse base) ?_ ?_ unfinished sound smooth
  · intro leaf world answer leaf' after follows unfinished sound smooth
    have unknown := (sound_task.mp sound).unknown unfinished
    cases follows.steady set (smooth_task.mp smooth) unknown with
    | ok well => exact .ok ⟨smooth_task.mpr well.1, well.2⟩
    | overrun overrun => exact .overrun overrun
  · intro group children world answer group' children' after sweeps _ sound smooth
    exact sweeps.smooth sound smooth

end BuildFlow
