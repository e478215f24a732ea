import BuildFlow.Proofs.Tree.Steady
/-!
Invocations whose jobs fail only at first, and less often than a retry scope allows
for. Every attempt starts a build of its own, so one of them succeeds before the
tries are used up.
-/
namespace BuildFlow

/-- The builds among these that a flow has started. -/
def flowCount (builds : List Build) : Nat := (builds.filter Build.byFlow).length

theorem flowCount_append (earlier : List Build) {build : Build} (own : build.byFlow) :
    flowCount (earlier ++ [build]) = flowCount earlier + 1 := by
  simp [flowCount, own]

/-- A plan of failures that leave a try, for a node that its group tries again. -/
structure JobPlan.Bearable (plan : JobPlan) (standing : Standing) : Prop where
  final : plan.finalResult = .success
  fails : 0 < plan.maxFails →
    plan.failResult = .failure ∧ standing.propagation = .normal ∧
      plan.maxFails < standing.maxTries

/-- After these builds another one fails only if there was one for each earlier try. -/
def JobPlan.Spares (plan : JobPlan) (builds : List Build) (tried : Nat) : Prop :=
  flowCount builds < plan.maxFails → tried ≤ flowCount builds + 1

namespace Task

/-- The invocation follows the last build of its job, and the earlier ones are over. -/
structure Attempt (plan : JobPlan) (runner : Runner) (task : Task) (earlier : List Build)
    (build : Build) : Prop where
  invoked : task.standing.isInvoked
  followed : ∃ ref, task.build = some ref ∧ ref.job = task.name ∧ ref.index = earlier.length
  builds : runner.buildsOf task.name = earlier ++ [build]
  past : ∀ old ∈ earlier, old.progress runner.tick = .idle
  own : build.byFlow
  unforced : build.forced = none
  planned : build.planned =
    if flowCount earlier < plan.maxFails then plan.failResult else plan.finalResult
  spares : plan.Spares earlier task.standing.tried

/-- How far the attempts at a job with this plan have come. -/
inductive Trial (plan : JobPlan) (runner : Runner) (task : Task) : Prop
  | waiting (unknown : task.standing.result = .unknown)
      (uninvoked : task.standing.isInvoked = false)
      (past : ∀ build ∈ runner.buildsOf task.name, build.progress runner.tick = .idle)
      (spares : plan.Spares (runner.buildsOf task.name) task.standing.tried)
  | running {earlier : List Build} {build : Build} (unknown : task.standing.result = .unknown)
      (attempt : task.Attempt plan runner earlier build)
  | done (success : task.standing.result = .success)
      (past : ∀ build ∈ runner.buildsOf task.name, build.progress runner.tick = .idle)
      (enough : plan.maxFails ≤ flowCount (runner.buildsOf task.name))

/-- An invocation that will succeed sooner or later. -/
structure Tries (runner : Runner) (task : Task) : Prop where
  trial : ∃ job, runner.job? task.name = some job ∧ job.plan.Bearable task.standing ∧
    task.Trial job.plan runner
  settled : task.standing.Settled

/-- The invocation has just failed, and it has tries left. -/
structure Missed (runner : Runner) (task : Task) : Prop where
  failure : task.standing.result = .failure
  trial : ∃ job, runner.job? task.name = some job ∧ job.plan.Bearable task.standing ∧
    0 < job.plan.maxFails ∧ task.standing.tried ≤ job.plan.maxFails
  past : ∀ build ∈ runner.buildsOf task.name, build.progress runner.tick = .idle
  counted : task.standing.tried ≤ flowCount (runner.buildsOf task.name)

variable {runner after : Runner} {task : Task} {plan : JobPlan}

theorem Trial.hopeful (trial : task.Trial plan runner) :
    task.standing.result = .unknown ∨ task.standing.result = .success := by
  cases trial with
  | waiting unknown => exact .inl unknown
  | running unknown => exact .inl unknown
  | done success => exact .inr success

theorem Tries.hopeful (tries : task.Tries runner) :
    task.standing.result = .unknown ∨ task.standing.result = .success := by
  obtain ⟨job, -, -, trial⟩ := tries.trial
  exact trial.hopeful

theorem Missed.normal (missed : task.Missed runner) : task.standing.propagation = .normal := by
  obtain ⟨job, -, bearable, fails, -⟩ := missed.trial
  exact (bearable.fails fails).2.1

theorem Missed.remaining (missed : task.Missed runner) : 0 < task.standing.remainingTries := by
  obtain ⟨job, -, bearable, fails, tried⟩ := missed.trial
  have room := (bearable.fails fails).2.2
  unfold Standing.remainingTries
  omega

/-! ## New attempts -/

theorem Tries.prepare (tries : task.Tries runner) (known : task.standing.result ≠ .unknown)
    (scope : Bool) : (task.prepare scope).Tries runner := by
  obtain ⟨job, found, bearable, trial⟩ := tries.trial
  refine ⟨⟨job, found, ⟨bearable.final, bearable.fails⟩, ?_⟩, Standing.settled_prepare _ _⟩
  cases trial with
  | waiting unknown => exact absurd unknown known
  | running unknown => exact absurd unknown known
  | done success past enough => exact .waiting rfl rfl past fun less => absurd less (Nat.not_lt.mpr enough)

theorem Missed.prepare (missed : task.Missed runner) : (task.prepare false).Tries runner := by
  obtain ⟨job, found, bearable, -⟩ := missed.trial
  refine ⟨⟨job, found, ⟨bearable.final, bearable.fails⟩, ?_⟩, Standing.settled_prepare _ _⟩
  exact .waiting rfl rfl missed.past fun _ => Nat.succ_le_succ missed.counted

/-! ## Steps -/

theorem Attempt.grows {earlier : List Build} {build : Build}
    (attempt : task.Attempt plan runner earlier build) (grows : runner.Grows after)
    (same : after.buildsOf task.name = runner.buildsOf task.name) :
    task.Attempt plan after earlier build :=
  { attempt with
    builds := same.trans attempt.builds
    past := fun old member => Build.idle_later (attempt.past old member) grows.tick }

theorem Trial.grows (trial : task.Trial plan runner) (grows : runner.Grows after)
    (same : after.buildsOf task.name = runner.buildsOf task.name) : task.Trial plan after := by
  have later : (∀ build ∈ runner.buildsOf task.name, build.progress runner.tick = .idle) →
      ∀ build ∈ after.buildsOf task.name, build.progress after.tick = .idle := by
    intro past build member
    exact Build.idle_later (past build (same ▸ member)) grows.tick
  cases trial with
  | waiting unknown uninvoked past spares =>
      exact .waiting unknown uninvoked (later past) (same ▸ spares)
  | running unknown attempt => exact .running unknown (attempt.grows grows same)
  | done success past enough => exact .done success (later past) (same ▸ enough)

theorem Tries.grows (tries : task.Tries runner) (grows : runner.Grows after)
    (same : after.buildsOf task.name = runner.buildsOf task.name) : task.Tries after := by
  obtain ⟨job, found, bearable, trial⟩ := tries.trial
  obtain ⟨next, found', grown⟩ := grows.job? found
  refine ⟨⟨next, found', ?_, ?_⟩, tries.settled⟩
  · rw [grown.plan]
    exact bearable
  · rw [grown.plan]
    exact trial.grows grows same

theorem Found.tries {found : Task} {world there : World} (finds : Found task world found there)
    (tries : task.Tries world.runner) : found.Tries there.runner := by
  have grown := tries.grows finds.grows.runner (finds.buildsOf task.name)
  have standing := finds.standing
  have build := finds.build
  obtain ⟨_, _, _, _, same⟩ := finds.attempted
  have named : found.name = task.name := by rw [same]
  obtain ⟨job, listed, bearable, trial⟩ := grown.trial
  refine ⟨⟨job, named ▸ listed, standing ▸ bearable, ?_⟩, standing ▸ grown.settled⟩
  cases trial with
  | waiting unknown uninvoked past spares =>
      exact .waiting (standing ▸ unknown) (standing ▸ uninvoked) (named ▸ past)
        (named ▸ standing ▸ spares)
  | running unknown attempt =>
      refine .running (standing ▸ unknown) { attempt with
        invoked := standing ▸ attempt.invoked
        followed := ?_
        builds := named ▸ attempt.builds
        spares := standing ▸ attempt.spares }
      rw [build, named]
      exact attempt.followed
  | done success past enough => exact .done (standing ▸ success) (named ▸ past) (named ▸ enough)

/-- An attempt that has begun follows the last build of its job. -/
theorem Begun.tries {now : Instant} (set : now.isSet) {begun : Task} {world after : World}
    (begins : Begun now task world begun after) (checked : task.isUnchecked = false)
    (unknown : task.standing.result = .unknown) {job : Job}
    (found : world.runner.job? task.name = some job) (trial : task.Trial job.plan world.runner) :
    ∃ earlier build, begun.Attempt job.plan after.runner earlier build := by
  cases trial with
  | done success =>
      rw [unknown] at success
      cases success
  | running _ attempt =>
      cases begins with
      | going => exact ⟨_, _, attempt⟩
      | joins uninvoked => cases uninvoked.symm.trans attempt.invoked
      | starts uninvoked => cases uninvoked.symm.trans attempt.invoked
  | waiting _ uninvoked past spares =>
      cases begins with
      | going invoked => cases uninvoked.symm.trans invoked
      | joins _ unchecked => cases checked.symm.trans unchecked
      | starts _ _ invoked =>
          have builds := Runner.buildsOf_of_job? found
          rw [builds] at past spares
          obtain ⟨named, index, tick, started⟩ := Runner.invoked_idle invoked found past
          refine ⟨_, _, set, ⟨_, rfl, named, index⟩, started, ?_, rfl, rfl, rfl, spares⟩
          rw [show _ = world.runner.tick from tick]
          exact past

/-- How a step ends: the invocation goes on or succeeds, or it has missed one try. -/
inductive Tried (runner : Runner) (next : Task) : Except Halt Unit → Prop
  | ok (tries : next.Tries runner) : Tried runner next (.ok ())
  | failed {failure : JobFailure} (unaborted : failure.isAborted = false)
      (missed : next.Missed runner) : Tried runner next (failedBy failure)

/-- A build ends as planned. -/
theorem Attempt.ended {job : Job} {earlier : List Build} {build : Build} {world : World}
    (attempt : task.Attempt job.plan world.runner earlier build)
    (listed : world.runner.job? task.name = some job) (bearable : job.plan.Bearable task.standing)
    {result : BuildResult} {progress : Progress} (observes : Observed task world result progress)
    (idle : progress.isIdle) : Tried world.runner (task.ended result) (task.ending result) := by
  have status : build.status world.runner.tick = (result, progress) := by
    obtain ⟨ref, followed, named, index⟩ := attempt.followed
    have reported := observes.report followed
    rw [Runner.report?, Runner.build?, named, listed, Option.bind_some,
      (Runner.buildsOf_of_job? listed).symm.trans attempt.builds, index] at reported
    simpa using reported
  have past : ∀ old ∈ world.runner.buildsOf task.name, old.progress world.runner.tick = .idle := by
    intro old member
    rw [attempt.builds] at member
    rcases List.mem_append.mp member with before | last
    · exact attempt.past old before
    · rw [List.mem_singleton.mp last, Build.progress, status]
      exact Progress.eq_idle idle
  -- This build is one more that counts, and it fails as long as the plan says that so many do.
  have count : flowCount (world.runner.buildsOf task.name) = flowCount earlier + 1 := by
    rw [attempt.builds]
    exact flowCount_append earlier attempt.own
  rw [(Build.status_unforced attempt.unforced status idle).1, attempt.planned]
  by_cases less : flowCount earlier < job.plan.maxFails
  · have fails := Nat.zero_lt_of_lt less
    have tried := attempt.spares less
    rw [if_pos less, (bearable.fails fails).1]
    refine .failed rfl ⟨rfl, ⟨job, listed, ⟨bearable.final, bearable.fails⟩, fails, ?_⟩, past, ?_⟩
    · exact Nat.le_trans tried less
    · exact count.symm ▸ tried
  · rw [if_neg less, bearable.final]
    refine .ok ⟨⟨job, listed, ⟨bearable.final, bearable.fails⟩, .done rfl past ?_⟩, ?_⟩
    · exact Nat.le_trans (Nat.le_of_not_lt less) (count.symm ▸ Nat.le_succ _)
    · exact fun _ => Standing.propagatedResult_of_good (.inl rfl)

theorem Follows.tries {now : Instant} (set : now.isSet) {next : Task} {world after : World}
    {answer : Except Halt Unit} (follows : Follows now task world answer next after)
    (answered : Answered answer) (checked : task.isUnchecked = false)
    (tries : task.Tries world.runner) (unknown : task.standing.result = .unknown) :
    Tried after.runner next answer := by
  have begun : ∀ {found begun : Task} {there after : World}, Found task world found there →
      Begun now found there begun after → begun.standing.Settled ∧
        ∃ job, after.runner.job? begun.name = some job ∧ job.plan.Bearable begun.standing ∧
          ∃ earlier build, begun.Attempt job.plan after.runner earlier build := by
    intro found begun there after finds begins
    have here := finds.tries tries
    obtain ⟨job, listed, bearable, trial⟩ := here.trial
    have attempt := begins.tries set (finds.attempted.isUnchecked.trans checked)
      (finds.attempted.result.trans unknown) listed trial
    obtain ⟨next, listed', grown⟩ := begins.grows.runner.job? listed
    rw [← begins.attempted.name] at listed'
    rw [← grown.plan] at bearable attempt
    refine ⟨begins.attempted.settled here.settled, next, listed', ?_, attempt⟩
    obtain ⟨_, _, _, _, rfl⟩ := begins.attempted
    exact ⟨bearable.final, bearable.fails⟩
  -- Either the build of this attempt goes on, or its end decides what the attempt came to.
  cases follows with
  | missing _ _ missing =>
      obtain ⟨job, listed, -⟩ := tries.trial
      cases missing.symm.trans listed
  | strays _ _ _ strays => cases answered; cases strays
  | lost => cases answered
  | waits finds begins =>
      obtain ⟨settled, job, listed, bearable, earlier, build, attempt⟩ := begun finds begins
      have unknown' := (finds.attempted.trans begins.attempted).result.trans unknown
      exact .ok ⟨⟨job, listed, bearable, .running unknown' attempt⟩, settled⟩
  | ends finds begins observes idle =>
      obtain ⟨-, job, listed, bearable, earlier, build, attempt⟩ := begun finds begins
      exact attempt.ended listed bearable observes idle

end Task

end BuildFlow
