import BuildFlow.Proofs.Outcomes
import BuildFlow.Proofs.Success
import BuildFlow.Proofs.Tree.Steady
/-!
What superseded builds stand for. A build is superseded by a later one of an invocation that is not
unchecked itself, and this one either counts for the result of the run, or lies below an unchecked
group. So the last of the builds that count has ended by itself, unless an invocation below an
unchecked group was behind it.
-/
namespace BuildFlow

/-! ## Builds -/

namespace Runner

/-- A build of the job that was taken from the queue for a later one. -/
def Superseded (runner : Runner) (name : String) (index : Nat) : Prop :=
  ∃ build tick, (runner.buildsOf name)[index]? = some build ∧
    build.forced = some (.superseded, tick)

variable {runner after : Runner} {name : String} {index : Nat} {request : InvokeRequest}
  {ref : BuildRef} {job : Job}

theorem Superseded.congr (superseded : after.Superseded name index)
    (same : after.buildsOf name = runner.buildsOf name) : runner.Superseded name index := by
  obtain ⟨build, tick, held, forced⟩ := superseded
  exact ⟨build, tick, same ▸ held, forced⟩

/-- The newest build is superseded by none. -/
theorem Superseded.before_newest (superseded : after.Superseded name index)
    (invoked : runner.invoke? name request = some (ref, after)) : index < ref.index := by
  obtain ⟨job, found, -⟩ := invoke?_eq_some invoked
  obtain ⟨newest, builds⟩ := buildsOf_invoke invoked found
  obtain ⟨build, tick, held, forced⟩ := superseded
  have length : (job.supersede runner.tick).builds.length = job.builds.length := List.length_map _
  have inside := (List.getElem?_eq_some_iff.mp held).1
  rw [builds, List.length_append, List.length_singleton, length] at inside
  by_contra beyond
  have last : index = (job.supersede runner.tick).builds.length := by omega
  rw [builds, last, List.getElem?_concat_length] at held
  cases held
  cases forced

/-- A job that is idle has nothing to supersede. -/
theorem Superseded.of_idle (superseded : after.Superseded name index)
    (invoked : runner.invoke? name request = some (ref, after)) (found : runner.job? name = some job)
    (idle : (job.progress runner.tick).isIdle) : runner.Superseded name index := by
  have newest := superseded.before_newest invoked
  obtain ⟨-, last, -, builds⟩ :=
    invoked_idle invoked found (Job.progress_idle.mp (Progress.eq_idle idle))
  obtain ⟨build, tick, held, forced⟩ := superseded
  rw [builds, List.getElem?_append_left (last ▸ newest)] at held
  exact ⟨build, tick, buildsOf_of_job? found ▸ held, forced⟩

end Runner

/-! ## Invocations -/

namespace Task

/-- The invocation is not unchecked, and its last build of the job is a later one. -/
def Outdoes (name : String) (index : Nat) (task : Task) : Prop :=
  task.name = name ∧ task.isUnchecked = false ∧ ∃ ref, task.build = some ref ∧ index < ref.index

/-- The superseded builds of the job are spared, or the invocation has started a later one. -/
def Covers (name : String) (spared : Nat → Prop) (runner : Runner) (task : Task) : Prop :=
  ∀ index, runner.Superseded name index → spared index ∨ task.Outdoes name index

variable {name : String} {spared : Nat → Prop} {now : Instant} {task begun : Task}
  {world there after : World}

theorem Covers.congr (covers : task.Covers name spared world.runner)
    (same : after.runner.buildsOf name = world.runner.buildsOf name) :
    task.Covers name spared after.runner :=
  fun index superseded => covers index (superseded.congr same)

/-- An invocation that starts a build outdoes those that it supersedes, unless it is unchecked: then
the job is idle, and it supersedes none. -/
theorem Begun.covers (begins : Begun now task world begun after)
    (covers : task.Covers name spared world.runner) : begun.Covers name spared after.runner := by
  cases begins with
  | going => exact covers
  | joins => exact covers
  | @starts _ free _ ref runner invoked =>
      intro index superseded
      -- What was superseded before is spared unless this invocation has outdone it.
      have old : world.runner.Superseded name index →
          (task.name = name → task.isUnchecked) → spared index := by
        intro earlier other
        refine (covers index earlier).resolve_right fun outdoes => ?_
        exact Bool.noConfusion (outdoes.2.1.symm.trans (other outdoes.1))
      by_cases same : task.name = name
      · subst same
        by_cases unchecked : task.isUnchecked
        · obtain ⟨job, found, idle⟩ := free unchecked
          exact .inl (old (superseded.of_idle invoked found idle) fun _ => unchecked)
        · right
          exact ⟨rfl, Bool.eq_false_iff.mpr unchecked, ref, rfl, superseded.before_newest invoked⟩
      · have builds := Runner.buildsOf_invoked invoked (Ne.symm same)
        exact .inl (old (superseded.congr builds) fun named => absurd named same)

theorem Found.covers {found : Task} (finds : Found task world found there)
    (covers : task.Covers name spared world.runner) : found.Covers name spared there.runner := by
  have kept := covers.congr (finds.buildsOf name)
  cases finds with
  | known => exact kept
  | listed => exact kept
  | looked => exact kept

theorem Follows.covers {next : Task} {answer : Except Halt Unit}
    (follows : Follows now task world answer next after) (answered : Answered answer)
    (covers : task.Covers name spared world.runner) : next.Covers name spared after.runner := by
  cases follows with
  | missing => exact fun index superseded => covers index (superseded.congr (Runner.buildsOf_lookup ..))
  | waits finds begins => exact begins.covers (finds.covers covers)
  | ends finds begins => exact begins.covers (finds.covers covers)
  | strays _ _ _ strays => cases answered; cases strays
  | lost => cases answered

end Task

namespace Tree

/-- Some invocation has started a later build of the job, and it is not unchecked. -/
def Outdoes (name : String) (index : Nat) (tree : Tree) : Prop :=
  ∃ leaf ∈ tree.tasks, leaf.Outdoes name index

/-- The superseded builds of the job are spared, or an invocation has started a later one. -/
def Covers (name : String) (spared : Nat → Prop) (runner : Runner) (tree : Tree) : Prop :=
  ∀ index, runner.Superseded name index → spared index ∨ tree.Outdoes name index

variable {name : String} {index : Nat} {spared : Nat → Prop} {runner after : Runner} {tree : Tree}
  {leaf : Task}

theorem outdoes_task : (Tree.task leaf).Outdoes name index ↔ leaf.Outdoes name index := by
  constructor
  · rintro ⟨other, member, outdoes⟩
    exact List.mem_singleton.mp member ▸ outdoes
  · exact fun outdoes => ⟨leaf, List.mem_singleton_self leaf, outdoes⟩

theorem outdoes_branch {group : Group} {children : List Tree} :
    (Tree.branch group children).Outdoes name index ↔
      ∃ child ∈ children, child.Outdoes name index := by
  constructor
  · rintro ⟨leaf, member, outdoes⟩
    obtain ⟨child, among, inside⟩ := mem_tasks_branch.mp member
    exact ⟨child, among, leaf, inside, outdoes⟩
  · rintro ⟨child, among, leaf, inside, outdoes⟩
    exact ⟨leaf, mem_tasks_branch.mpr ⟨child, among, inside⟩, outdoes⟩

theorem Outdoes.prepare (outdoes : tree.Outdoes name index) (scope : Bool) :
    (tree.prepare scope).Outdoes name index := by
  cases tree with
  | task leaf =>
      have same : leaf.Outdoes name index := outdoes_task.mp outdoes
      exact outdoes_task.mpr same
  | branch group children => exact outdoes

theorem Outdoes.finish (outdoes : tree.Outdoes name index) : tree.finish.Outdoes name index := by
  cases tree with
  | task leaf =>
      have same : leaf.Outdoes name index := outdoes_task.mp outdoes
      exact outdoes_task.mpr same
  | branch group children => exact outdoes

theorem covers_task : (Tree.task leaf).Covers name spared runner ↔ leaf.Covers name spared runner :=
  forall_congr' fun _ => imp_congr_right fun _ => or_congr_right outdoes_task

theorem Covers.congr (covers : tree.Covers name spared runner)
    (same : after.buildsOf name = runner.buildsOf name) : tree.Covers name spared after :=
  fun index superseded => covers index (superseded.congr same)

end Tree

/-! ## Sweeps -/

namespace Branch

variable {name : String} {spared : Nat → Prop} {branch next : Branch} {index : Nat}
  {child visited : Tree} {world there : World}

/-- A visit covers what it supersedes; what the other children have outdone stays so. -/
theorem covers_put (here : branch.2[index]? = some child)
    (visit : ∀ spared, child.Covers name spared world.runner → visited.Covers name spared there.runner)
    (covers : (Tree.branch branch.1 branch.2).Covers name spared world.runner) :
    (Tree.branch branch.1 (branch.put index visited).2).Covers name spared there.runner := by
  let beside : Nat → Prop := fun build =>
    ∃ place other, place ≠ index ∧ branch.2[place]? = some other ∧ other.Outdoes name build
  -- The visited child need not cover what the others have outdone.
  have around : child.Covers name (fun build => spared build ∨ beside build) world.runner := by
    intro build superseded
    rcases covers build superseded with spares | outdoes
    · exact .inl (.inl spares)
    · obtain ⟨other, member, outdoes⟩ := Tree.outdoes_branch.mp outdoes
      obtain ⟨place, at'⟩ := List.mem_iff_getElem?.mp member
      by_cases same : place = index
      · subst same
        cases here.symm.trans at'
        exact .inr outdoes
      · exact .inl (.inr ⟨place, other, same, at', outdoes⟩)
  intro build superseded
  rcases visit _ around build superseded with (spares | ⟨place, other, different, at', outdoes⟩) | outdoes
  · exact .inl spares
  · have kept : (branch.put index visited).2[place]? = some other :=
      (List.getElem?_set_ne (Ne.symm different)).trans at'
    exact .inr (Tree.outdoes_branch.mpr ⟨other, List.mem_of_getElem? kept, outdoes⟩)
  · have placed := getElem?_put_self here visited
    exact .inr (Tree.outdoes_branch.mpr ⟨visited, List.mem_of_getElem? placed, outdoes⟩)

/-- New attempts keep the builds of the earlier ones. -/
theorem Answers.covers {failure : JobFailure} {answer : Except Halt Bool}
    (answers : Answers branch index visited failure answer next)
    (here : branch.2[index]? = some visited)
    (covers : (Tree.branch branch.1 branch.2).Covers name spared world.runner) :
    (Tree.branch next.1 next.2).Covers name spared world.runner := by
  intro build superseded
  refine (covers build superseded).imp_right fun outdoes => ?_
  obtain ⟨old, member, outdoes⟩ := Tree.outdoes_branch.mp outdoes
  obtain ⟨place, at'⟩ := List.mem_iff_getElem?.mp member
  -- The child that has outdone the build is still at its place, at most reset or taken for finished.
  obtain ⟨new, kept, origin⟩ := answers.children here at'
  apply Tree.outdoes_branch.mpr
  refine ⟨new, List.mem_of_getElem? kept, ?_⟩
  rcases origin with rfl | ⟨scope, rfl⟩ | ⟨-, rfl⟩
  · exact outdoes
  · exact outdoes.prepare scope
  · exact outdoes.finish

end Branch

namespace Tree

theorem Sweeps.covers {name : String} {spared : Nat → Prop} {now : Instant} {tree next : Tree}
    {world after : World} {answer : Except Halt Unit}
    (sweeps : Sweeps now tree world answer next after) (answered : Answered answer)
    (covers : tree.Covers name spared world.runner) : next.Covers name spared after.runner := by
  refine sweeps.rule (p := fun tree world answer next after => Answered answer →
    ∀ spared, tree.Covers name spared world.runner → next.Covers name spared after.runner) ?_ ?_
    answered spared covers
  · exact fun follows answered spared covers =>
      covers_task.mpr (follows.covers answered (covers_task.mp covers))
  · intro group children world answer group' children' after sweeps answered spared covers
    cases sweeps with
    | halts pass => cases answered; exact absurd rfl (pass.hard _)
    | closes pass closes =>
        rw [show children' = _ from closes.children]
        refine pass.carries (p := fun branch there _ =>
          (Tree.branch branch.1 branch.2).Covers name spared there.runner) ?_ ?_ covers
        · exact fun covers here _ visit => Branch.covers_put here (visit.2 .ok) covers
        · intro index branch there status child next after failure again answered covers here
            unfinished visit answers
          exact answers.covers (Branch.getElem?_put_self here next)
            (Branch.covers_put here (visit.2 (.failed failure)) covers)

end Tree

/-! ## What counts -/

/-- How a build has ended: as it was planned, or as it was forced to. -/
theorem Build.planned_or_forced {build : Build} {tick : Nat} {result : BuildResult}
    (ended : build.status tick = (result, .idle)) :
    build.planned = result ∨ ∃ tick, build.forced = some (result, tick) := by
  unfold status at ended
  split at ended
  · next forced at' same =>
      cases ended
      exact .inr ⟨at', same⟩
  · split at ended
    · cases ended
    · split at ended
      · cases ended
      · cases ended
        exact .inl rfl

namespace Task

/-- The last build of an invocation that has succeeded is there, with its result. -/
theorem Succeeded.held {runner : Runner} {task : Task} (succeeded : task.Succeeded runner)
    {ref : BuildRef} (followed : task.build = some ref) :
    ∃ build, (runner.buildsOf task.name)[ref.index]? = some build ∧
      build.status runner.tick = (task.standing.result, .idle) := by
  obtain ⟨ref', followed', job, reported⟩ := succeeded.reported
  cases followed.symm.trans followed'
  obtain ⟨build, found, status⟩ := Option.map_eq_some_iff.mp reported
  obtain ⟨listed, present, held⟩ := Option.bind_eq_some_iff.mp found
  rw [← Runner.buildsOf_of_job? present, job] at held
  exact ⟨build, held, status⟩

/-- The invocation has started its last build of a job since this one had so many builds. -/
structure Since (name : String) (base : Nat) (runner : Runner) (task : Task) : Prop where
  room : base ≤ (runner.buildsOf name).length
  late : task.name = name → ∀ ref, task.build = some ref → base ≤ ref.index

theorem Begun.since {name : String} {base : Nat} {now : Instant} {task begun : Task}
    {world after : World} (begins : Begun now task world begun after)
    (since : task.Since name base world.runner) : begun.Since name base after.runner := by
  have room := Nat.le_trans since.room (begins.grows.runner.length name)
  cases begins with
  | going => exact since
  | joins => exact ⟨since.room, since.late⟩
  | starts _ _ invoked =>
      refine ⟨room, fun named ref followed => ?_⟩
      cases followed
      obtain ⟨job, found, -, newest, -⟩ := Runner.invoke?_eq_some invoked
      have named : task.name = name := named
      rw [newest, ← Runner.buildsOf_of_job? found, named]
      exact since.room

theorem lasting_since (name : String) (base : Nat) : Lasting (Since name base) where
  grows grows since := ⟨Nat.le_trans since.room (grows.length name), since.late⟩
  prepare _ since := ⟨since.room, since.late⟩
  follows := by
    intro now task next world after answer follows answered _ since
    have found : ∀ {found : Task} {there : World}, Found task world found there →
        found.Since name base there.runner := by
      intro found there finds
      have room : base ≤ (there.runner.buildsOf name).length := finds.buildsOf name ▸ since.room
      exact ⟨room, fun named ref followed =>
        since.late (finds.attempted.name ▸ named) ref (finds.build ▸ followed)⟩
    cases follows with
    | missing => exact ⟨(Runner.buildsOf_lookup world.runner task.name name).symm ▸ since.room, since.late⟩
    | waits finds begins => exact begins.since (found finds)
    | ends finds begins =>
        have begun := begins.since (found finds)
        exact ⟨begun.room, begun.late⟩
    | strays _ _ _ strays => cases answered; cases strays
    | lost => cases answered

end Task

namespace Tree

/-- The places of the last builds that checked invocations have started of a job. -/
def checkedBuilds (name : String) (tree : Tree) : List Nat :=
  (tree.checkedTasks.filter fun leaf => leaf.name = name).filterMap fun leaf =>
    leaf.build.map BuildRef.index

variable {name : String} {tree : Tree} {leaf : Task} {index : Nat} {before runner : Runner}

theorem mem_checkedBuilds : index ∈ tree.checkedBuilds name ↔
    ∃ leaf ∈ tree.checkedTasks, leaf.name = name ∧ ∃ ref, leaf.build = some ref ∧ ref.index = index := by
  simp [checkedBuilds, and_assoc]

/-- One of the checked invocations of a job has started the last of their builds. -/
theorem exists_latest (succeeded : ∀ leaf ∈ tree.checkedTasks, leaf.Succeeded runner)
    (named : name ∈ tree.checkedNames) :
    ∃ leaf ∈ tree.checkedTasks, leaf.name = name ∧ ∃ ref, leaf.build = some ref ∧
      ∀ index ∈ tree.checkedBuilds name, index ≤ ref.index := by
  obtain ⟨one, counts, same⟩ := List.mem_map.mp named
  obtain ⟨ref, followed, -⟩ := (succeeded one counts).reported
  have inhabited : tree.checkedBuilds name ≠ [] :=
    List.ne_nil_of_mem (mem_checkedBuilds.mpr ⟨one, counts, same, ref, followed, rfl⟩)
  obtain ⟨last, greatest⟩ := Option.ne_none_iff_exists'.mp (mt List.max?_eq_none_iff.mp inhabited)
  obtain ⟨member, bound⟩ := List.max?_eq_some_iff.mp greatest
  obtain ⟨leaf, counts, same, ref, followed, rfl⟩ := mem_checkedBuilds.mp member
  exact ⟨leaf, counts, same, ref, followed, bound⟩

/-- The last build that a checked invocation has started has ended by itself, unless an invocation
that a group hides has started a later one. -/
theorem exists_success (succeeded : ∀ leaf ∈ tree.checkedTasks, leaf.Succeeded runner)
    (covers : tree.Covers name (· < (before.buildsOf name).length) runner)
    (since : ∀ leaf ∈ tree.tasks, leaf.Since name (before.buildsOf name).length runner)
    (named : name ∈ tree.checkedNames) :
    (∃ build ∈ before.newBuilds runner name, build.status runner.tick = (.success, .idle) ∨
      build.status runner.tick = (.superseded, .idle) ∧ build.planned = .superseded) ∨
    ∃ leaf ref, tree.Hides leaf ∧ leaf.name = name ∧ leaf.build = some ref ∧
      ∀ index ∈ tree.checkedBuilds name, index < ref.index := by
  obtain ⟨leaf, counts, same, ref, followed, latest⟩ := exists_latest succeeded named
  have succeeds := succeeded leaf counts
  obtain ⟨build, held, status⟩ := succeeds.held followed
  rw [same] at held
  have inside : leaf ∈ tree.tasks := mem_tasks.mpr (of_mem_checkedTasks counts).1
  have late := (since leaf inside).late same ref followed
  have new : build ∈ before.newBuilds runner name := by
    apply List.mem_of_getElem? (i := ref.index - (before.buildsOf name).length)
    rw [Runner.newBuilds, List.getElem?_drop, Nat.add_sub_cancel' late]
    exact held
  rcases succeeds.good with good | good
  · exact .inl ⟨build, new, .inl (good ▸ status)⟩
  rw [good] at status
  rcases Build.planned_or_forced status with planned | ⟨tick, forced⟩
  · exact .inl ⟨build, new, .inr ⟨status, planned⟩⟩
  -- The build was superseded by a later one, and that is none of those that count.
  obtain ⟨other, among, same, checked, later, built, beyond⟩ :=
    (covers ref.index ⟨build, tick, held, forced⟩).resolve_left (Nat.not_lt.mpr late)
  rcases checked_or_hidden among checked with counts' | hidden
  · have most := latest _ (mem_checkedBuilds.mpr ⟨other, counts', same, later, built, rfl⟩)
    exact absurd most (Nat.not_le.mpr beyond)
  · exact .inr ⟨other, later, hidden, same, built, fun index member =>
      Nat.lt_of_le_of_lt (latest index member) beyond⟩

end Tree

/-! ## Runs -/

namespace Flow

variable {flow : Flow} {reads : Instant → Prop} {world : World} {state : Tree × World}

/-- In all states of a run superseded builds are outdone, but for those that were there before. -/
theorem Passes.covers (passes : flow.Passes reads world state) (name : String) :
    state.1.Covers name (· < (world.runner.buildsOf name).length) state.2.runner := by
  apply passes.keeps (p := fun state =>
    state.1.Covers name (· < (world.runner.buildsOf name).length) state.2.runner)
  · rintro first there ⟨same, -, -⟩ index ⟨build, tick, held, -⟩
    rw [same.builds name] at held
    exact .inl (List.getElem?_eq_some_iff.mp held).1
  · rintro state next - covers ⟨-, -, answered, sweep⟩
    exact sweep.covers answered (covers.congr (Runner.buildsOf_next _ _))

/-- In all states of a run invocations have only started builds that are new. -/
theorem Passes.since (passes : flow.Passes reads world state) (name : String) :
    ∀ leaf ∈ state.1.tasks, leaf.Since name (world.runner.buildsOf name).length state.2.runner := by
  apply passes.keeps (p := fun state => ∀ leaf ∈ state.1.tasks,
    leaf.Since name (world.runner.buildsOf name).length state.2.runner)
  · rintro first there ⟨same, -, ready⟩ leaf member
    refine ⟨Nat.le_of_eq (congrArg List.length (same.builds name)).symm, fun _ ref followed => ?_⟩
    rw [(Tree.idle_of_ready ready leaf member).1] at followed
    cases followed
  · rintro state next - since ⟨unsettled, -, answered, sweep⟩
    apply sweep.lasting (Task.lasting_since name _) answered (Standing.unfinished unsettled)
    exact fun leaf member =>
      (Task.lasting_since name _).grows (Runner.grows_next _) (since leaf member)

/-- A run that answers with success ends in a state of its loop. -/
theorem Ran.passes {limit : Nat} {last : Tree} {after : World} (fresh : flow.root.IsFresh)
    (ran : Ran flow limit reads world (.ok .success) last after) :
    flow.Passes reads world (last, after) ∧ last.standing.result = .success := by
  have unanswered : flow.root.result = .unknown := Tree.result_of_fresh fresh
  generalize answered : (Except.ok BuildResult.success : Except Halt BuildResult) = answer at ran
  cases ran with
  | unwritten => cases answered
  | idle =>
      rw [unanswered] at answered
      cases answered
  | halted => cases answered
  | raised => cases answered
  | finished driven =>
      cases driven with
      | looped prepared looped concluded =>
          cases concluded with
          | finished =>
              obtain ⟨state, reaches, left⟩ := looped.trail
              cases left with
              | rests => exact ⟨⟨_, prepared, reaches⟩, (Except.ok.inj answered).symm⟩

/-- A run that answers with success has a build behind it for each job of a checked invocation that
has succeeded, or has ended as superseded because that was planned for it. Otherwise the last build that a checked invocation
has started was superseded by an invocation that an unchecked group hides. -/
theorem run_success_backed {flow' : Flow} {host host' : Host} (fresh : flow.root.IsFresh)
    (quiet : host.Quiet) (alive : flow.config.killAll = false)
    (ran : run.run (flow, host) = (.ok .success, flow', host')) {name : String}
    (named : name ∈ flow.root.checkedNames) :
    (∃ build ∈ host.runner.newBuilds host'.runner name,
      build.status host'.runner.tick = (.success, .idle) ∨
        build.status host'.runner.tick = (.superseded, .idle) ∧ build.planned = .superseded) ∨
    ∃ leaf ref, flow'.root.Hides leaf ∧ leaf.name = name ∧ leaf.build = some ref ∧
      ∀ index ∈ flow'.root.checkedBuilds name, index < ref.index := by
  obtain ⟨passes, success⟩ := ((leads_run quiet fresh alive).ran ran).passes fresh
  have layout : flow'.root.blank = flow.root.blank := passes.blank.trans fresh.symm
  apply Tree.exists_success (Tree.Sound.succeeded passes.sound (.inl success)) (passes.covers name)
    (passes.since name)
  exact Tree.checkedNames_of_layout layout ▸ named

/-- Two invocations of one job, the second in a group that counts in this way. -/
def twofoldFlow (propagation : Propagation) : Flow :=
  .ofTree (.ofChildren false (.fresh 0 0 1 1 .normal) [
    .ofJob (.fresh 1 1 1 1 .normal) "build",
    .ofChildren true (.fresh 2 1 1 1 propagation) [
      .ofChildren true (.fresh 3 2 1 1 .normal) [
        .ofJob (.fresh 4 3 1 1 .normal) "build"]]])

def queueingHost : Host := .ofPlans [{ name := "build", queueTicks := 3 }]

set_option maxRecDepth 100000 in
theorem run_success_backed_twofold : "build" ∈ (twofoldFlow .normal).root.checkedNames ∧
    ∃ (flow' : Flow) (host' : Host),
      run.run (twofoldFlow .normal, queueingHost) = (.ok .success, flow', host') ∧
      (host'.runner.history "build").results = [.superseded, .success] ∧
      ((∃ build ∈ queueingHost.runner.newBuilds host'.runner "build",
          build.status host'.runner.tick = (.success, .idle) ∨
            build.status host'.runner.tick = (.superseded, .idle) ∧ build.planned = .superseded) ∨
        ∃ leaf ref, flow'.root.Hides leaf ∧ leaf.name = "build" ∧ leaf.build = some ref ∧
          ∀ index ∈ flow'.root.checkedBuilds "build", index < ref.index) := by
  have named : "build" ∈ (twofoldFlow .normal).root.checkedNames := by decide
  have success : (run.run (twofoldFlow .normal, queueingHost)).1 = .ok .success := by
    decide +kernel
  have results : ((run.run (twofoldFlow .normal, queueingHost)).2.2.runner.history
      "build").results = [.superseded, .success] := by decide +kernel
  have fresh : (twofoldFlow .normal).root.IsFresh := rfl
  generalize ran : run.run (twofoldFlow .normal, queueingHost) = out at success results
  obtain ⟨answer, flow', host'⟩ := out
  dsimp only at success
  subst success
  exact ⟨named, flow', host', rfl, results,
    run_success_backed fresh (Host.quiet_start _ _ _) rfl ran named⟩

/-- The run answers with success, and no build that it has started of the job of a checked invocation
has succeeded. -/
def Unbacked (flow : Flow) (host : Host) (name : String) : Prop :=
  flow.root.IsFresh ∧ host.Quiet ∧ name ∈ flow.root.checkedNames ∧
    ∃ (flow' : Flow) (host' : Host), run.run (flow, host) = (.ok .success, flow', host') ∧
      ∀ build ∈ host.runner.newBuilds host'.runner name,
        build.status host'.runner.tick ≠ (.success, .idle)

theorem unbacked_of_run {host : Host} {name : String} (fresh : flow.root.IsFresh) (quiet : host.Quiet)
    (named : name ∈ flow.root.checkedNames) (success : (run.run (flow, host)).1 = .ok .success)
    (unbacked : ∀ build ∈ host.runner.newBuilds (run.run (flow, host)).2.2.runner name,
      build.status (run.run (flow, host)).2.2.runner.tick ≠ (.success, .idle)) :
    Unbacked flow host name := by
  generalize ran : run.run (flow, host) = out at success unbacked
  obtain ⟨answer, flow', host'⟩ := out
  dsimp only at success
  subst success
  exact ⟨fresh, quiet, named, flow', host', ran, unbacked⟩

/-- The builds of the job are planned to end as superseded. -/
def supersedingHost : Host := .ofPlans [{ name := "build", finalResult := .superseded }]

set_option maxRecDepth 100000 in
/-- The invocation that the unchecked group hides supersedes the build of the checked one in the
sweep that starts both. The run does not wait for it: it answers with success while the only build
that is left is still queued. And where a job is planned to end as superseded, that is a success. -/
theorem run_success_unbacked : Unbacked (twofoldFlow .unchecked) queueingHost "build" ∧
    Unbacked (twofoldFlow .normal) supersedingHost "build" := by
  have fresh : ∀ propagation, (twofoldFlow propagation).root.IsFresh := fun _ => rfl
  constructor
  · apply unbacked_of_run (fresh .unchecked) (Host.quiet_start _ _ _) (by decide)
    · decide +kernel
    · decide +kernel
  · apply unbacked_of_run (fresh .normal) (Host.quiet_start _ _ _) (by decide)
    · decide +kernel
    · decide +kernel

end Flow

end BuildFlow
