import Mathlib.Data.List.Nodup
import BuildFlow.Proofs.Flow.Start
import BuildFlow.Proofs.Flow.Trail
import BuildFlow.Proofs.Shuffle.Count
import BuildFlow.Proofs.Shuffle.Run
/-!
The order of the children of parallel groups does not matter. Two runs whose trees differ in
nothing else sweep at the same ticks, start the same builds, and end alike.
-/
namespace BuildFlow

/-! ## Invocations of shuffled trees -/

/-- Both invocations of a job came to the same, and the builds of the job are the same up to
their descriptions, so they were enqueued at the same ticks. -/
structure Task.Matches (runner runner' : Runner) (leaf leaf' : Task) : Prop where
  result : leaf'.standing.result = leaf.standing.result
  checking : leaf'.standing.checking = leaf.standing.checking
  tried : leaf'.standing.tried = leaf.standing.tried
  totalTried : leaf'.standing.totalTried = leaf.standing.totalTried
  builds : (runner'.buildsOf leaf.name).map Build.plain = (runner.buildsOf leaf.name).map Build.plain

theorem World.Agree.builds {names : List String} {world other : World}
    (agree : Agree names world other) (has : world.Has names) {name : String} (named : name ∈ names) :
    (other.runner.buildsOf name).map Build.plain = (world.runner.buildsOf name).map Build.plain := by
  obtain ⟨job, found⟩ := Option.isSome_iff_exists.mp (has name named)
  obtain ⟨job', found', same⟩ := agree.job named found
  rw [Runner.buildsOf_of_job? found, Runner.buildsOf_of_job? found']
  exact congrArg Job.builds same

namespace Tree

theorem task?_eq_some {tree : Tree} (distinct : tree.names.Nodup) {leaf : Task}
    (member : leaf ∈ tree.tasks) : tree.task? leaf.name = some leaf := by
  have listed : (tree.task? leaf.name).isSome :=
    List.find?_isSome.mpr ⟨leaf, member, decide_eq_true rfl⟩
  obtain ⟨found, here⟩ := Option.isSome_iff_exists.mp listed
  have same : found.name = leaf.name := of_decide_eq_true (List.find?_some here :)
  rw [List.inj_on_of_nodup_map distinct (List.mem_of_find?_eq_some here) member same] at here
  exact here

/-- Each job is invoked by both trees, and nothing but ids tells the invocations apart. -/
theorem Shuffled.invocations {tree tree' : Tree} (shuffled : tree.Shuffled tree')
    (distinct : tree.names.Nodup) {name : String} (named : name ∈ tree.names) :
    ∃ leaf leaf', tree.task? name = some leaf ∧ tree'.task? name = some leaf' ∧
      leaf.name = name ∧ leaf'.plain = leaf.plain := by
  have distinct' : tree'.names.Nodup := shuffled.names.nodup_iff.mpr distinct
  obtain ⟨leaf', member', rfl⟩ := List.mem_map.mp (shuffled.names.mem_iff.mpr named)
  obtain ⟨node, inside, alike⟩ := shuffled.nodes (mem_tasks.mp member')
  cases alike with
  | @task leaf _ same =>
      have name : leaf.name = leaf'.name := (congrArg Task.name same :).symm
      refine ⟨leaf, leaf', ?_, task?_eq_some distinct' member', name, same⟩
      rw [← name]
      exact task?_eq_some distinct (mem_tasks.mpr inside)

end Tree

/-! ## Runs of shuffled flows -/

namespace Flow

open Act

theorem Twins.sweeps {flow flow' : Flow} {host host' : Host}
    (twins : Twins (flow, host) (flow', host')) : host'.sweeps = host.sweeps := by
  have around : host'.around = host.around := twins.around
  have script : host'.script = host.script := twins.script
  unfold Host.sweeps
  rw [around, script]

theorem Twins.matches {flow flow' : Flow} {host host' : Host}
    (twins : Twins (flow, host) (flow', host')) {name : String} (named : name ∈ flow.root.names) :
    ∃ leaf leaf', flow.root.task? name = some leaf ∧ flow'.root.task? name = some leaf' ∧
      leaf.Matches host.runner host'.runner leaf' := by
  obtain ⟨leaf, leaf', here, here', rfl, same⟩ := twins.trees.invocations twins.distinct named
  refine ⟨leaf, leaf', here, here', ?_⟩
  exact {
    result := (congrArg (fun task : Task => task.standing.result) same :)
    checking := (congrArg (fun task : Task => task.standing.checking) same :)
    tried := (congrArg (fun task : Task => task.standing.tried) same :)
    totalTried := (congrArg (fun task : Task => task.standing.totalTried) same :)
    builds := twins.worlds.builds twins.has named }

/-- Runs of trees that are shuffled, on the same host, end alike: with the same sweeps, the same
root results, and the same builds, results and counters of all invocations. -/
theorem run_shuffled {flow last last' : Flow} {root' : Tree} {host after after' : Host}
    {answer answer' : Except Halt BuildResult} (shuffled : flow.root.Shuffled root')
    (fresh : flow.root.IsFresh) (fresh' : root'.IsFresh) (distinct : flow.root.names.Nodup)
    (untimed : flow.root.Every Tree.Untimed) (quiet : host.Quiet)
    (alive : flow.config.killAll = false)
    (idle : ∀ name ∈ flow.root.names, ∃ job, host.runner.job? name = some job ∧
      (job.progress host.runner.tick).isIdle)
    (ran : run.run (flow, host) = (answer, last, after))
    (ran' : run.run ({ flow with root := root' }, host) = (answer', last', after'))
    (unbroken : ¬ Breaks answer) (unbroken' : ¬ Breaks answer') :
    SameEnds Eq answer answer' ∧ after'.sweeps = after.sweeps ∧ last.root.Shuffled last'.root ∧
      last'.root.result = last.root.result ∧
      ∀ name ∈ flow.root.names, ∃ leaf leaf', last.root.task? name = some leaf ∧
        last'.root.task? name = some leaf' ∧ leaf.Matches after.runner after'.runner leaf' := by
  have has : host.world.Has flow.root.names := fun name named =>
    Option.isSome_iff_exists.mpr ((idle name named).imp fun _ resting => resting.1)
  -- At the start the two flows differ in their trees only.
  have twins : Twins (flow, host) ({ flow with root := root' }, host) := {
    flow := rfl
    trees := shuffled
    distinct
    untimed
    has
    worlds := .refl _ _
    around := rfl
    script := rfl
    quiet
    quiet' := quiet }
  have resting : ∀ name ∈ flow.root.names, ∀ job, host.runner.job? name = some job →
      (job.progress host.runner.tick).isIdle := by
    intro name named job found
    obtain ⟨other, found', rests⟩ := idle name named
    cases found.symm.trans found'
    exact rests
  have together := abreast_run twins fresh fresh' resting alive
  rw [ran, ran'] at together
  obtain ⟨ends, twins⟩ := (together.resolve_left unbroken).resolve_left unbroken'
  have layout := (((leads_run quiet fresh alive).ran ran).halts fresh).blank
  have names : last.root.names = flow.root.names := by rw [← layout, Tree.names_blank]
  exact ⟨ends, twins.sweeps, twins.trees, twins.result.symm,
    fun name named => twins.matches (names ▸ named)⟩

/-- Two invocations at once beside a pipeline. -/
def mirroredFlow : Flow :=
  .ofTree (.ofChildren false (.fresh 0 0 2 2 .normal) [
    .ofChildren false (.fresh 1 1 1 2 .normal) [
      .ofJob (.fresh 2 2 2 4 .normal) "style",
      .ofJob (.fresh 3 2 1 2 .normal) "docs"],
    .ofChildren true (.fresh 4 1 2 4 .normal) [
      .ofJob (.fresh 5 2 1 4 .normal) "build",
      .ofJob (.fresh 6 2 1 4 .normal) "deploy"]])

/-- The same with the children of both parallel groups the other way round. -/
def mirroredTree : Tree :=
  .ofChildren false (.fresh 0 0 2 2 .normal) [
    .ofChildren true (.fresh 1 1 2 4 .normal) [
      .ofJob (.fresh 2 2 1 4 .normal) "build",
      .ofJob (.fresh 3 2 1 4 .normal) "deploy"],
    .ofChildren false (.fresh 4 1 1 2 .normal) [
      .ofJob (.fresh 5 2 1 2 .normal) "docs",
      .ofJob (.fresh 6 2 2 4 .normal) "style"]]

/-- All jobs but one fail at first. -/
def mirroredHost : Host :=
  .ofPlans [
    { name := "build", execTicks := 2 },
    { name := "deploy", maxFails := 1 },
    { name := "style", maxFails := 1, queueTicks := 1 },
    { name := "docs", maxFails := 1 }]

theorem shuffled_mirroredFlow : mirroredFlow.root.Shuffled mirroredTree := by
  have jobs : ∀ (name : String) (id id' level maxTries totalMaxTries : Nat),
      Tree.Shuffled (.ofJob (.fresh id level maxTries totalMaxTries .normal) name)
        (.ofJob (.fresh id' level maxTries totalMaxTries .normal) name) :=
    fun _ _ _ _ _ _ => .task rfl nofun
  apply Tree.Shuffled.branch
  case same => rfl
  case order => exact .swap _ _ []
  case serial => exact nofun
  case each =>
    refine .cons ?checks (.cons ?pipeline .nil)
    case pipeline =>
      refine .branch rfl ?_ (.refl _) fun _ => rfl
      exact .cons (jobs "build" _ _ _ _ _) (.cons (jobs "deploy" _ _ _ _ _) .nil)
    case checks =>
      apply Tree.Shuffled.branch
      case same => rfl
      case order => exact .swap _ _ []
      case serial => exact nofun
      case each => exact .cons (jobs "style" _ _ _ _ _) (.cons (jobs "docs" _ _ _ _ _) .nil)

theorem untimed_mirroredFlow : mirroredFlow.root.Every Tree.Untimed := by
  have untimed : ¬ (0 : Float) < 0 := by decide +kernel
  intro node member
  simp only [mirroredFlow, Flow.ofTree, Tree.ofChildren, Tree.ofJob, Tree.nodes, Tree.nodesOf,
    List.mem_cons, List.mem_append, List.not_mem_nil, or_false] at member
  rcases member with rfl | (rfl | rfl | rfl) | rfl | rfl | rfl
  · exact untimed
  · exact untimed
  · trivial
  · trivial
  · exact untimed
  · trivial
  · trivial

set_option maxRecDepth 100000 in
theorem run_shuffled_mirrored :
    ∃ last last' after after',
      run.run (mirroredFlow, mirroredHost) = (.ok .success, last, after) ∧
      run.run ({ mirroredFlow with root := mirroredTree }, mirroredHost) = (.ok .success, last', after') ∧
      after.sweeps.length = 10 ∧ after'.sweeps = after.sweeps ∧
      last.root.Shuffled last'.root ∧ last'.root.result = last.root.result ∧
      ∀ name ∈ mirroredFlow.root.names, ∃ leaf leaf', last.root.task? name = some leaf ∧
        last'.root.task? name = some leaf' ∧ leaf.Matches after.runner after'.runner leaf' := by
  have success : (run.run (mirroredFlow, mirroredHost)).1 = .ok .success := by decide +kernel
  have success' : (run.run ({ mirroredFlow with root := mirroredTree }, mirroredHost)).1 = .ok .success := by
    decide +kernel
  have length : (run.run (mirroredFlow, mirroredHost)).2.2.sweeps.length = 10 := by decide +kernel
  have present : ∀ name ∈ mirroredFlow.root.names, ∃ job, mirroredHost.runner.job? name = some job ∧
      (job.progress mirroredHost.runner.tick).isIdle := by
    intro name named
    have listed : (mirroredHost.runner.job? name).isSome ∧ ∀ job ∈ mirroredHost.runner.job? name,
        (job.progress mirroredHost.runner.tick).isIdle := by
      revert name
      decide
    obtain ⟨job, found⟩ := Option.isSome_iff_exists.mp listed.1
    exact ⟨job, found, listed.2 job found⟩
  generalize ran : run.run (mirroredFlow, mirroredHost) = out at success length
  generalize ran' : run.run ({ mirroredFlow with root := mirroredTree }, mirroredHost) = out' at success'
  obtain ⟨answer, last, after⟩ := out
  obtain ⟨answer', last', after'⟩ := out'
  dsimp only at success success' length
  subst success success'
  obtain ⟨-, alike⟩ := run_shuffled shuffled_mirroredFlow rfl rfl (by decide) untimed_mirroredFlow
    (Host.quiet_start _ _ _) rfl present ran ran' nofun nofun
  exact ⟨last, last', after, after', rfl, rfl, length, alike⟩

end Flow

end BuildFlow
