import BuildFlow.Proofs.Task
/-!
What a run sees of a job: its plan and its builds, but not the texts and counts that are kept for
others to look at. Two worlds agree on some jobs if a run sees the same of them.
-/
namespace BuildFlow

/-! ## Jobs -/

/-- The build without its description. -/
def Build.plain (build : Build) : Build := { build with description := "" }

namespace Job

/-- The job as a run sees it. -/
def plain (job : Job) : Job :=
  { job with
    builds := job.builds.map Build.plain
    requests := []
    stopCalls := 0
    stopAllCalls := 0
    lookups := 0 }

theorem progress_plain (job : Job) (tick : Nat) : job.plain.progress tick = job.progress tick := by
  simp only [progress, plain, List.any_map]
  rfl

theorem status_plain (job : Job) (tick : Nat) : job.plain.status tick = job.status tick := by
  simp only [status, progress_plain]
  simp only [plain, List.getLast?_map, Option.map_map]
  rfl

/-- What the runner says of a build does not depend on its description. -/
theorem build?_plain (job : Job) (index : Nat) :
    job.plain.builds[index]? = (job.builds[index]?).map Build.plain :=
  List.getElem?_map

theorem plain_supersede (job : Job) (tick : Nat) :
    (job.supersede tick).plain = (job.plain.supersede tick).plain := by
  have each : ∀ build : Build,
      (if build.byFlow && build.progress tick = .queued then build.force .superseded tick
        else build).plain =
      (if build.plain.byFlow && build.plain.progress tick = .queued then
        build.plain.force .superseded tick else build.plain).plain := by
    intro build
    by_cases queued : build.byFlow && build.progress tick = .queued
    · rw [if_pos queued, if_pos (by exact queued)]
      rfl
    · rw [if_neg queued, if_neg (by exact queued)]
      rfl
  simp only [plain, supersede, List.map_map]
  congr 1
  exact List.map_congr_left fun build _ => each build

theorem nextBuild_plain (job : Job) (tick : Nat) (request : InvokeRequest) :
    (job.nextBuild tick request).plain = (job.plain.nextBuild tick {}).plain := by
  have count : job.plain.flowBuilds.length = job.flowBuilds.length := by
    simp only [flowBuilds, plain, List.filter_map, List.length_map]
    rfl
  have planned : job.plain.nextResult = job.nextResult := by
    unfold nextResult
    rw [count]
    rfl
  have number : (job.plain.builds.getLast?.map fun build => build.number + 1) =
      job.builds.getLast?.map fun build => build.number + 1 := by
    simp only [plain, List.getLast?_map, Option.map_map]
    rfl
  simp only [nextBuild, Build.plain, planned, number]
  rfl

/-- What starting a build makes of a job, as a run sees it. -/
theorem plain_invoke (job : Job) (tick : Nat) (request : InvokeRequest) :
    (job.invoke tick request).plain = (job.plain.invoke tick {}).plain := by
  have superseded := plain_supersede job tick
  -- Neither the number nor the plan of the new build depends on what a run does not see.
  have latest : ((job.supersede tick).nextBuild tick request).plain =
      ((job.plain.supersede tick).nextBuild tick {}).plain := by
    rw [nextBuild_plain, superseded, ← nextBuild_plain]
  have added : ∀ (job : Job) (build : Build),
      ({ job with builds := job.builds ++ [build] } : Job).plain =
        { job.plain with builds := job.plain.builds ++ [build.plain] } := by
    intro job build
    simp [plain]
  have split : ∀ (job : Job) (request : InvokeRequest), (job.invoke tick request).plain =
      { (job.supersede tick).plain with builds := (job.supersede tick).plain.builds ++
        [((job.supersede tick).nextBuild tick request).plain] } :=
    fun job request => added (job.supersede tick) _
  rw [split, split, superseded, latest]

end Job

/-! ## Job tables -/

namespace Runner

/-- A job that exists, as a run sees it. -/
def plain? (runner : Runner) (name : String) : Option Job := (runner.job? name).map Job.plain

theorem plain?_of_jobs {runner after : Runner} {name : String}
    (same : (after.jobs.get? name).map Job.plain = (runner.jobs.get? name).map Job.plain) :
    after.plain? name = runner.plain? name := by
  have seen : ∀ runner : Runner, runner.plain? name =
      ((runner.jobs.get? name).map Job.plain).filter Job.present := by
    intro runner
    rw [Option.filter_map]
    rfl
  rw [seen, seen, same]

theorem plain?_of_job? {runner : Runner} {name : String} {job : Job}
    (found : runner.job? name = some job) : runner.plain? name = some job.plain := by
  rw [plain?, found]
  rfl

theorem plain?_lookup (runner : Runner) (name other : String) :
    (runner.lookup name).2.plain? other = runner.plain? other := by
  apply plain?_of_jobs
  rw [jobs_lookup, Option.map_map]
  congr 1
  funext job
  by_cases same : other = name ∧ job.present <;> simp [same, Job.plain]

/-- Starting a build changes nothing about other jobs. -/
theorem plain?_invoked {runner after : Runner} {name : String} {request : InvokeRequest}
    {ref : BuildRef} (invoked : runner.invoke? name request = some (ref, after)) {other : String}
    (different : other ≠ name) : after.plain? other = runner.plain? other := by
  obtain ⟨job, -, -, -, -, -, jobs⟩ := invoke?_eq_some invoked
  apply plain?_of_jobs
  rw [jobs, get?_setJob, if_neg different]

/-- The build that is started, and what it makes of its job. -/
theorem plain?_of_invoke? {runner after : Runner} {name : String} {request : InvokeRequest}
    {ref : BuildRef} (invoked : runner.invoke? name request = some (ref, after)) :
    ∃ job, runner.job? name = some job ∧
      ref = ⟨name, job.plain.builds.length, (job.plain.nextBuild runner.tick {}).number⟩ ∧
      after.plain? name = some (job.plain.invoke runner.tick {}).plain := by
  obtain ⟨job, found, made⟩ := Option.map_eq_some_iff.mp invoked
  cases made
  refine ⟨job, found, ?_, ?_⟩
  · have number := congrArg Build.number (job.nextBuild_plain runner.tick request)
    have length : job.plain.builds.length = job.builds.length := List.length_map _
    rw [length, show (job.nextBuild runner.tick request).number = _ from number]
    rfl
  · rw [← Job.plain_invoke]
    apply plain?_of_job?
    apply job?_eq_some.mpr
    constructor
    · exact (get?_setJob runner name name _).trans (if_pos rfl)
    · exact (job?_eq_some.mp found).2

/-- A job that exists is left alone while a tick passes. -/
theorem plain?_next {runner : Runner} {name : String} (present : (runner.job? name).isSome) :
    runner.next.plain? name = runner.plain? name := by
  obtain ⟨job, found⟩ := Option.isSome_iff_exists.mp present
  obtain ⟨listed, exists'⟩ := job?_eq_some.mp found
  -- Only jobs that are missing are created while a tick passes.
  have kept : runner.next.jobs.get? name = some job := by
    refine createAll_induction (p := fun after => after.jobs.get? name = some job) ?_ _ listed
    intro middle other kept
    rw [get?_create]
    split
    · next same =>
        rw [← same, kept]
        cases job
        cases exists'
        rfl
    · exact kept
  apply plain?_of_jobs
  rw [kept, listed]

end Runner

/-! ## Worlds -/

namespace World

/-- A run sees the same of some jobs. -/
structure Agree (names : List String) (world other : World) : Prop where
  tick : other.runner.tick = world.runner.tick
  jobs : ∀ name ∈ names, other.runner.plain? name = world.runner.plain? name

variable {names : List String} {world other third : World}

theorem Agree.refl (names : List String) (world : World) : Agree names world world :=
  ⟨rfl, fun _ _ => rfl⟩

theorem Agree.symm (agree : Agree names world other) : Agree names other world :=
  ⟨agree.tick.symm, fun name named => (agree.jobs name named).symm⟩

theorem Agree.trans (agree : Agree names world other) (agree' : Agree names other third) :
    Agree names world third :=
  ⟨agree'.tick.trans agree.tick,
    fun name named => (agree'.jobs name named).trans (agree.jobs name named)⟩

theorem Agree.mono {fewer : List String} (agree : Agree names world other)
    (among : ∀ name ∈ fewer, name ∈ names) : Agree fewer world other :=
  ⟨agree.tick, fun name named => agree.jobs name (among name named)⟩

theorem Agree.job (agree : Agree names world other) {name : String} (named : name ∈ names)
    {job : Job} (found : world.runner.job? name = some job) :
    ∃ job', other.runner.job? name = some job' ∧ job'.plain = job.plain := by
  have seen := agree.jobs name named
  rw [Runner.plain?_of_job? found] at seen
  exact Option.map_eq_some_iff.mp seen

theorem Agree.alike (agree : Agree names world other) {name : String} (named : name ∈ names)
    {job job' : Job} (found : world.runner.job? name = some job)
    (found' : other.runner.job? name = some job') : job'.plain = job.plain := by
  obtain ⟨image, listed, same⟩ := agree.job named found
  cases listed.symm.trans found'
  exact same

/-- A job is as far in both runs. -/
theorem Agree.progress (agree : Agree names world other) {name : String} (named : name ∈ names)
    {job job' : Job} (found : world.runner.job? name = some job)
    (found' : other.runner.job? name = some job') :
    job'.progress other.runner.tick = job.progress world.runner.tick := by
  rw [← Job.progress_plain, agree.alike named found found', Job.progress_plain, agree.tick]

/-- Builds of a job that are started in both runs differ in their descriptions at most. -/
theorem Agree.invoked {name : String} (agree : Agree [name] world other)
    {request request' : InvokeRequest} {ref ref' : BuildRef} {after after' : Runner}
    (built : world.runner.invoke? name request = some (ref, after))
    (built' : other.runner.invoke? name request' = some (ref', after'))
    (resolved resolved' : List String) :
    ref' = ref ∧ Agree [name] ⟨after, resolved⟩ ⟨after', resolved'⟩ := by
  obtain ⟨job, found, made, grown⟩ := Runner.plain?_of_invoke? built
  obtain ⟨job', found', made', grown'⟩ := Runner.plain?_of_invoke? built'
  rw [agree.alike (List.mem_singleton_self name) found found', agree.tick] at made' grown'
  obtain ⟨-, -, -, -, tick, -⟩ := Runner.invoke?_eq_some built
  obtain ⟨-, -, -, -, tick', -⟩ := Runner.invoke?_eq_some built'
  constructor
  · rw [made, made']
  · constructor
    · exact tick'.trans (agree.tick.trans tick.symm)
    · intro other named
      rw [List.mem_singleton.mp named]
      exact grown'.trans grown.symm

/-- The jobs exist. -/
def Has (names : List String) (world : World) : Prop :=
  ∀ name ∈ names, (world.runner.job? name).isSome

theorem Has.grows {after : World} (has : world.Has names) (grows : world.runner.Grows after.runner) :
    after.Has names := by
  intro name named
  obtain ⟨job, found⟩ := Option.isSome_iff_exists.mp (has name named)
  obtain ⟨next, found, -⟩ := grows.job? found
  exact Option.isSome_iff_exists.mpr ⟨next, found⟩

theorem Agree.has (agree : Agree names world other) (has : world.Has names) : other.Has names := by
  intro name named
  obtain ⟨job, found⟩ := Option.isSome_iff_exists.mp (has name named)
  obtain ⟨job', found', -⟩ := agree.job named found
  exact Option.isSome_iff_exists.mpr ⟨job', found'⟩

end World

end BuildFlow
