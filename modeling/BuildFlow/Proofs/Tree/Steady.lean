import BuildFlow.Proofs.Tree.Sound
/-!
What nodes come to where no job ever fails. Each invocation starts one build on
top of those that its job had before, this build succeeds, and a node is no
longer waited for only once it has succeeded or is unchecked.
-/
namespace BuildFlow

/-- How something ends where nothing fails: with an answer of which something
holds, unless the end of a build cannot be told. -/
inductive EndsWell {α : Type} (after : World) (holds : α → Prop) : Except Halt α → Prop
  | ok {value : α} (well : holds value) : EndsWell after holds (.ok value)
  | overrun (overrun : ¬ after.runner.Fits) : EndsWell after holds (.error (.broken .ticks))

theorem EndsWell.holds {α : Type} {after : World} {holds : α → Prop} {value : α}
    (ends : EndsWell after holds (.ok value)) : holds value := by
  cases ends with
  | ok well => exact well

/-- A node that is not waited for looks like a success. -/
def Standing.Settled (standing : Standing) : Prop :=
  standing.propagatedChecking ≠ .mustCheck → standing.propagatedResult = .success

/-- A node that has not failed is settled while it waits and once it has succeeded. -/
theorem Standing.settled_of_hopeful {standing : Standing}
    (hopeful : standing.result = .unknown ∨ standing.result = .success)
    (pending : standing.checking = .mustCheck ∨ standing.result ≠ .unknown) : standing.Settled := by
  intro unwaited
  rcases hopeful with unknown | success
  · have waits := pending.resolve_right fun known => known unknown
    cases unchecked : standing.isUnchecked with
    | true => exact propagatedResult_of_unchecked unchecked
    | false => exact absurd (propagatedChecking_eq_mustCheck.mpr ⟨unchecked, waits⟩) unwaited
  · exact propagatedResult_of_good (.inl success)

theorem Standing.settled_prepare (standing : Standing) (scope : Bool) :
    (standing.prepare scope).Settled := by
  intro waits
  cases unchecked : standing.isUnchecked with
  | true => exact propagatedResult_of_unchecked unchecked
  | false =>
      apply settled_of_hopeful (.inl rfl) (.inl _) waits
      simp [prepare, unchecked]

/-- A build that has started, that nobody has ended early and that will succeed. -/
structure Build.Sure (tick : Nat) (build : Build) : Prop where
  unforced : build.forced = none
  planned : build.planned = .success
  started : build.enqueuedAt ≤ tick

/-- A job whose builds never fail. -/
structure Job.Reliable (job : Job) : Prop where
  fails : job.plan.maxFails = 0
  final : job.plan.finalResult = .success

theorem Build.Sure.later {build : Build} {tick later : Nat} (sure : build.Sure tick)
    (order : tick ≤ later) : build.Sure later :=
  ⟨sure.unforced, sure.planned, Nat.le_trans sure.started order⟩

/-- A build that nobody has ended early ends as planned. -/
theorem Build.status_unforced {build : Build} {tick : Nat} (unforced : build.forced = none)
    {result : BuildResult} {progress : Progress} (status : build.status tick = (result, progress))
    (idle : progress.isIdle) : result = build.planned ∧ build.endTick ≤ tick := by
  simp only [Build.status, unforced] at status
  split at status
  · cases status
    cases idle
  · split at status
    · cases status
      cases idle
    · next past =>
        cases status
        exact ⟨rfl, Nat.le_of_not_lt past⟩

theorem Build.Sure.status {build : Build} {tick : Nat} (sure : build.Sure tick)
    {result : BuildResult} {progress : Progress} (status : build.status tick = (result, progress))
    (idle : progress.isIdle) : result = .success ∧ build.endTick ≤ tick := by
  obtain ⟨planned, ended⟩ := Build.status_unforced sure.unforced status idle
  exact ⟨planned.trans sure.planned, ended⟩

theorem Build.Sure.known {build : Build} {tick : Nat} (sure : build.Sure tick) : build.Known := by
  constructor
  · rw [sure.planned]
    exact BuildResult.noConfusion
  · intro result at' forced
    cases sure.unforced.symm.trans forced

/-- A build that is over stays so. -/
theorem Build.idle_later {build : Build} {tick later : Nat} (idle : build.progress tick = .idle)
    (order : tick ≤ later) : build.progress later = .idle :=
  congrArg Prod.snd ((Build.Grows.later build order).idle (build.result tick) (Prod.ext rfl idle))

/-- A job is idle if all of its builds are. -/
theorem Job.progress_idle {job : Job} {tick : Nat} :
    job.progress tick = .idle ↔ ∀ build ∈ job.builds, build.progress tick = .idle := by
  unfold Job.progress
  simp only [List.any_eq_true, decide_eq_true_eq]
  constructor
  · intro idle build member
    cases going : build.progress tick with
    | idle => rfl
    | running =>
        rw [if_pos ⟨build, member, going⟩] at idle
        cases idle
    | queued =>
        rw [if_pos (c := ∃ other ∈ job.builds, other.progress tick = .queued)
          ⟨build, member, going⟩] at idle
        split at idle <;> cases idle
  · intro past
    have never : ∀ going : Progress, going ≠ .idle →
        ¬ ∃ build ∈ job.builds, build.progress tick = going := by
      rintro going active ⟨build, member, same⟩
      exact active (same.symm.trans (past build member))
    rw [if_neg (never .running nofun), if_neg (never .queued nofun)]

namespace Runner

/-- The job exists and does not fail, and its earlier builds are over. -/
structure Serves (runner : Runner) (before : List Build) (name : String) : Prop where
  reliable : ∃ job, runner.job? name = some job ∧ job.Reliable
  past : ∀ build ∈ before, build.progress runner.tick = .idle

theorem Serves.grows {before after : Runner} {earlier : List Build} {name : String}
    (serves : before.Serves earlier name) (grows : before.Grows after) :
    after.Serves earlier name where
  reliable := by
    obtain ⟨job, found, reliable⟩ := serves.reliable
    obtain ⟨next, found', grown⟩ := grows.job? found
    exact ⟨next, found', grown.plan ▸ reliable.fails, grown.plan ▸ reliable.final⟩
  past build member := Build.idle_later (serves.past build member) grows.tick

theorem Serves.idle {runner : Runner} {before : List Build} {name : String}
    (serves : runner.Serves before name) {job : Job} (found : runner.job? name = some job)
    (builds : runner.buildsOf name = before) :
    ∀ build ∈ job.builds, build.progress runner.tick = .idle := by
  rw [(buildsOf_of_job? found).symm.trans builds]
  exact serves.past

theorem Serves.present {runner : Runner} {before : List Build} {name : String}
    (serves : runner.Serves before name) : runner.job? name ≠ none := by
  obtain ⟨job, found, -⟩ := serves.reliable
  rw [found]
  exact nofun

/-- The build that came after the earlier ones is there for its handle. -/
theorem Serves.build? {runner : Runner} {before : List Build} {name : String} {ref : BuildRef}
    {build : Build} (serves : runner.Serves before name) (named : ref.job = name)
    (index : ref.index = before.length) (builds : runner.buildsOf name = before ++ [build]) :
    runner.build? ref = some build := by
  subst named
  obtain ⟨job, found, -⟩ := serves.reliable
  rw [Runner.build?, found, Option.bind_some, (buildsOf_of_job? found).symm.trans builds, index]
  simp

/-- Each job that got a build in the meantime is one of those named, and had
none but its earlier builds. -/
def Adds (base : String → List Build) (names : List String) (before after : Runner) : Prop :=
  ∀ name, after.buildsOf name = before.buildsOf name ∨
    name ∈ names ∧ before.buildsOf name = base name ∧
      ∃ build, after.buildsOf name = base name ++ [build] ∧ build.enqueuedAt = before.tick

variable {base : String → List Build}

theorem adds_of_same {names : List String} {before after : Runner}
    (same : ∀ name, after.buildsOf name = before.buildsOf name) : Adds base names before after :=
  fun name => .inl (same name)

theorem Adds.wider {names more : List String} {before after : Runner}
    (adds : Adds base names before after) (within : ∀ name ∈ names, name ∈ more) :
    Adds base more before after := by
  intro name
  rcases adds name with same | ⟨member, added⟩
  · exact .inl same
  · exact .inr ⟨within name member, added⟩

theorem Adds.outside {names : List String} {before after : Runner}
    (adds : Adds base names before after) {name : String} (outside : name ∉ names) :
    after.buildsOf name = before.buildsOf name :=
  (adds name).resolve_right fun added => outside added.1

theorem Adds.trans {names : List String} {before middle after : Runner}
    (left : Adds base names before middle) (right : Adds base names middle after)
    (tick : middle.tick = before.tick) : Adds base names before after := by
  intro name
  rcases left name with same | ⟨member, had, build, added, started⟩
  · rw [← same, ← tick]
    exact right name
  · rcases right name with same | ⟨-, had', -⟩
    · exact .inr ⟨member, had, build, same.trans added, started⟩
    · rw [had'] at added
      simp at added

/-- No build of an idle job is queued, so a request replaces none. -/
theorem invoked_idle {runner after : Runner} {name : String} {request : InvokeRequest}
    {ref : BuildRef} (invoked : runner.invoke? name request = some (ref, after)) {job : Job}
    (found : runner.job? name = some job)
    (past : ∀ build ∈ job.builds, build.progress runner.tick = .idle) :
    ref.job = name ∧ ref.index = job.builds.length ∧ after.tick = runner.tick ∧
      after.buildsOf name = job.builds ++ [job.nextBuild runner.tick request] := by
  obtain ⟨-, -, named, -, tick, -⟩ := invoke?_eq_some invoked
  obtain ⟨index, builds⟩ := buildsOf_invoke invoked found
  have kept : job.supersede runner.tick = job := by
    unfold Job.supersede
    rw [Job.supersede_idle past]
  rw [kept] at builds
  exact ⟨named, index, tick, builds⟩

/-- An idle job that does not fail gets a build that succeeds. -/
theorem Serves.invoked {runner after : Runner} {name : String} {request : InvokeRequest}
    {ref : BuildRef} (serves : runner.Serves (base name) name)
    (builds : runner.buildsOf name = base name)
    (invoked : runner.invoke? name request = some (ref, after)) :
    ref.job = name ∧ ref.index = (base name).length ∧ Adds base [name] runner after ∧
      ∃ build, after.buildsOf name = base name ++ [build] ∧ build.Sure after.tick := by
  obtain ⟨job, found, reliable⟩ := serves.reliable
  have had : job.builds = base name := (buildsOf_of_job? found).symm.trans builds
  obtain ⟨named, index, tick, started⟩ := invoked_idle invoked found (serves.idle found builds)
  rw [had] at started
  have sure : (job.nextBuild runner.tick request).Sure after.tick := by
    constructor
    · rfl
    · simp [Job.nextBuild, Job.nextResult, reliable.fails, reliable.final]
    · exact Nat.le_of_eq tick.symm
  refine ⟨named, index.trans (congrArg List.length had), fun other => ?_, _, started, sure⟩
  by_cases same : other = name
  · subst same
    exact .inr ⟨List.mem_singleton_self other, builds, _, started, rfl⟩
  · exact .inl (buildsOf_invoked invoked same)

end Runner

/-! ## Invocations -/

namespace Task

/-- The invocation follows the build that it has added to those of its job. -/
structure Built (before : List Build) (runner : Runner) (task : Task) (build : Build) : Prop where
  followed : ∃ ref, task.build = some ref ∧ ref.job = task.name ∧ ref.index = before.length
  builds : runner.buildsOf task.name = before ++ [build]
  sure : build.Sure runner.tick

theorem Built.grows {before : List Build} {runner after : Runner} {task : Task} {build : Build}
    (built : task.Built before runner build) (grows : runner.Grows after)
    (same : after.buildsOf task.name = runner.buildsOf task.name) :
    task.Built before after build :=
  ⟨built.followed, same.trans built.builds, built.sure.later grows.tick⟩

theorem Built.held {before : List Build} {runner : Runner} {task : Task} {build : Build}
    (built : task.Built before runner build) (serves : runner.Serves before task.name)
    {ref : BuildRef} (followed : task.build = some ref) : runner.build? ref = some build := by
  obtain ⟨ref', followed', named, index⟩ := built.followed
  cases followed'.symm.trans followed
  exact serves.build? named index built.builds

/-- How far the invocation has come, and which builds its job has by now. -/
inductive Stage (before : List Build) (runner : Runner) (task : Task) : Prop
  | waiting (unknown : task.standing.result = .unknown)
      (uninvoked : task.standing.isInvoked = false) (unbuilt : task.build = none)
      (builds : runner.buildsOf task.name = before)
  | running {build : Build} (unknown : task.standing.result = .unknown)
      (invoked : task.standing.isInvoked) (built : task.Built before runner build)
  | done {build : Build} (success : task.standing.result = .success)
      (built : task.Built before runner build) (ended : build.endTick ≤ runner.tick)

/-- An invocation of a job that does not fail. -/
structure Steady (before : List Build) (runner : Runner) (task : Task) : Prop where
  serves : runner.Serves before task.name
  stage : task.Stage before runner
  settled : task.standing.Settled

theorem Stage.grows {before : List Build} {runner after : Runner} {task : Task}
    (stage : task.Stage before runner) (grows : runner.Grows after)
    (same : after.buildsOf task.name = runner.buildsOf task.name) : task.Stage before after := by
  cases stage with
  | waiting unknown uninvoked unbuilt builds =>
      exact .waiting unknown uninvoked unbuilt (same.trans builds)
  | running unknown invoked built => exact .running unknown invoked (built.grows grows same)
  | done success built ended =>
      exact .done success (built.grows grows same) (Nat.le_trans ended grows.tick)

theorem Stage.hopeful {before : List Build} {runner : Runner} {task : Task}
    (stage : task.Stage before runner) :
    task.standing.result = .unknown ∨ task.standing.result = .success := by
  cases stage with
  | waiting unknown => exact .inl unknown
  | running unknown => exact .inl unknown
  | done success => exact .inr success

theorem Steady.grows {before : List Build} {runner after : Runner} {task : Task}
    (steady : task.Steady before runner) (grows : runner.Grows after)
    (same : after.buildsOf task.name = runner.buildsOf task.name) : task.Steady before after :=
  ⟨steady.serves.grows grows, steady.stage.grows grows same, steady.settled⟩

theorem Steady.named {before : List Build} {runner : Runner} {task : Task}
    (steady : task.Steady before runner) {ref : BuildRef} (followed : task.build = some ref) :
    ref.job = task.name := by
  have owned : ∀ {build : Build}, task.Built before runner build → ref.job = task.name := by
    intro build built
    obtain ⟨ref', followed', named, -⟩ := built.followed
    cases followed'.symm.trans followed
    exact named
  cases steady.stage with
  | waiting _ _ unbuilt => cases unbuilt.symm.trans followed
  | running _ _ built => exact owned built
  | done _ built => exact owned built

theorem Attempted.settled {task after : Task} (attempted : Attempted task after)
    (settled : task.standing.Settled) : after.standing.Settled := by
  obtain ⟨_, _, _, _, rfl⟩ := attempted
  exact settled

theorem Found.steady {before : List Build} {task found : Task} {world there : World}
    (finds : Found task world found there) (steady : task.Steady before world.runner) :
    found.Steady before there.runner := by
  have standing := finds.standing
  have build := finds.build
  have named := finds.attempted.name
  have grown := steady.grows finds.grows.runner (finds.buildsOf task.name)
  have built : ∀ {added : Build}, task.Built before there.runner added →
      found.Built before there.runner added := fun built =>
    ⟨by rw [build, named]; exact built.followed, by rw [named]; exact built.builds, built.sure⟩
  refine ⟨named ▸ grown.serves, ?_, finds.attempted.settled steady.settled⟩
  cases grown.stage with
  | waiting unknown uninvoked unbuilt had =>
      exact .waiting (standing ▸ unknown) (standing ▸ uninvoked) (build.trans unbuilt)
        ((congrArg _ named).trans had)
  | running unknown invoked added =>
      exact .running (standing ▸ unknown) (standing ▸ invoked) (built added)
  | done success added ended => exact .done (standing ▸ success) (built added) ended

variable {base : String → List Build}

/-- An attempt that has begun follows a build of its own. -/
theorem Begun.built {now : Instant} (set : now.isSet) {task begun : Task} {world after : World}
    (begins : Begun now task world begun after)
    (steady : task.Steady (base task.name) world.runner)
    (unknown : task.standing.result = .unknown) :
    begun.standing.isInvoked ∧ Runner.Adds base [task.name] world.runner after.runner ∧
      ∃ build, begun.Built (base begun.name) after.runner build := by
  have serves := steady.serves
  cases steady.stage with
  | done success =>
      rw [unknown] at success
      cases success
  | running _ invoked built =>
      cases begins with
      | going => exact ⟨invoked, Runner.adds_of_same fun _ => rfl, _, built⟩
      | joins uninvoked => cases uninvoked.symm.trans invoked
      | starts uninvoked => cases uninvoked.symm.trans invoked
  | waiting _ uninvoked unbuilt builds =>
      cases begins with
      | going invoked => cases uninvoked.symm.trans invoked
      | joins _ _ found busy =>
          rw [Job.progress_idle.mpr (serves.idle found builds)] at busy
          cases busy
      | starts _ _ invoked =>
          obtain ⟨named, index, adds, build, started, sure⟩ := serves.invoked builds invoked
          exact ⟨set, adds, build, ⟨_, rfl, named, index⟩, started, sure⟩

theorem Follows.steady {now : Instant} (set : now.isSet) {task next : Task} {world after : World}
    {answer : Except Halt Unit} (follows : Follows now task world answer next after)
    (steady : task.Steady (base task.name) world.runner)
    (unknown : task.standing.result = .unknown) :
    EndsWell after (fun _ => next.Steady (base next.name) after.runner ∧
      Runner.Adds base [task.name] world.runner after.runner) answer := by
  -- The invocation follows the only build of its job, started now or before.
  have begun : ∀ {found begun : Task} {there after : World}, Found task world found there →
      Begun now found there begun after →
      begun.standing.isInvoked ∧ Runner.Adds base [task.name] world.runner after.runner ∧
        after.runner.Serves (base begun.name) begun.name ∧
        ∃ build, begun.Built (base begun.name) after.runner build := by
    intro found begun there after finds begins
    have named := finds.attempted.name
    obtain ⟨invoked, adds, built⟩ := begins.built set
      (named ▸ finds.steady steady) (finds.standing ▸ unknown)
    refine ⟨invoked, ?_, ?_, built⟩
    · exact (Runner.adds_of_same finds.buildsOf).trans (named ▸ adds) finds.grows.tick
    · rw [begins.attempted.name, named]
      exact steady.serves.grows (finds.grows.trans begins.grows).runner
  cases follows with
  | missing _ _ missing => exact absurd missing steady.serves.present
  | waits finds begins =>
      obtain ⟨invoked, adds, serves, build, built⟩ := begun finds begins
      have attempted := finds.attempted.trans begins.attempted
      refine .ok ⟨⟨serves, ?_, attempted.settled steady.settled⟩, adds⟩
      exact .running (attempted.result.trans unknown) invoked built
  | ends finds begins observes idle known =>
      obtain ⟨-, adds, serves, build, built⟩ := begun finds begins
      obtain ⟨ref, followed, -⟩ := built.followed
      have reported := observes.report followed
      rw [Runner.report?, built.held serves followed] at reported
      obtain ⟨success, ended⟩ := built.sure.status (Option.some.inj reported) idle
      subst success
      refine .ok ⟨⟨serves, .done rfl ⟨built.followed, built.builds, built.sure⟩ ended, ?_⟩, adds⟩
      exact fun _ => Standing.propagatedResult_of_good (.inl rfl)
  | strays attempted grows followed strays =>
      cases strays with
      | overrun overrun => exact .overrun overrun
      | @unknown name named missing =>
          have same : name = task.name := by
            rcases named with named | ⟨ref, has, named⟩
            · exact named.trans attempted.name
            · rcases followed ref has with before | owned
              · exact named.symm.trans (steady.named before)
              · exact named.symm.trans owned
          exact absurd (same ▸ missing) (steady.serves.grows grows.runner).present
  | lost finds begins followed listed lost =>
      obtain ⟨-, -, serves, build, built⟩ := begun finds begins
      have held := built.held serves followed
      rw [Runner.build?, listed, Option.bind_some, lost] at held
      cases held

end Task

end BuildFlow
