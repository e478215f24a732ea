import BuildFlow.Proofs.Shuffle.World
import BuildFlow.Proofs.Tree.Growth
/-!
Two invocations of one job in two runs. As long as both runs see the same of the job, the
invocations go through the same attempts and come to the same results.
-/
namespace BuildFlow

/-- How a node stands, whichever id it has. -/
def Standing.plain (standing : Standing) : Standing := { standing with id := 0 }

/-- Both visits passed, or both failed; if so, both or none because of an abort. -/
inductive SameAnswers : Except Halt Unit → Except Halt Unit → Prop
  | passed : SameAnswers (.ok ()) (.ok ())
  | failed {failure failure' : JobFailure} (aborted : failure'.isAborted = failure.isAborted) :
      SameAnswers (failedBy failure) (failedBy failure')

namespace Task

/-- The invocation, whichever id it has and whatever the job had built before. -/
def plain (task : Task) : Task := { task with standing := task.standing.plain, oldBuild := none }

/-- The invocation follows a build of its own job. -/
def Owns (task : Task) : Prop := ∀ ref, task.build = some ref → ref.job = task.name

variable {now : Instant} {task task' : Task} {world world' : World}

/-! ## The parts of a step -/

theorem Found.plain {found : Task} {there : World} (finds : Found task world found there) :
    found.plain = { task.plain with resolved := true } ∧ ∀ names, World.Agree names world there := by
  cases finds with
  | known resolved =>
      refine ⟨?_, fun names => .refl names world⟩
      rw [← resolved]
      rfl
  | listed => exact ⟨rfl, fun names => .refl names world⟩
  | looked =>
      exact ⟨rfl, fun names => ⟨Runner.tick_lookup _ _, fun name _ => Runner.plain?_lookup _ _ _⟩⟩

/-- Both invocations find their jobs. -/
theorem Found.twins {found found' : Task} {there there' : World}
    (finds : Found task world found there) (finds' : Found task' world' found' there')
    (same : task'.plain = task.plain) (agree : World.Agree [task.name] world world') :
    found'.plain = found.plain ∧ World.Agree [found.name] there there' := by
  obtain ⟨known, seen⟩ := finds.plain
  obtain ⟨known', seen'⟩ := finds'.plain
  rw [finds.attempted.name, known, known', same]
  exact ⟨rfl, (seen _).symm.trans (agree.trans (seen' _))⟩

theorem plain_follows (same : task'.plain = task.plain) (ref : BuildRef) :
    { task' with build := some ref }.plain = { task with build := some ref }.plain :=
  congrArg (fun task : Task => { task with build := some ref }) same

theorem plain_ended (same : task'.plain = task.plain) (result : BuildResult) :
    (task'.ended result).plain = (task.ended result).plain :=
  congrArg (fun task : Task => task.ended result) same

/-- Both begin an attempt, or none does. -/
theorem Begun.twins {begun begun' : Task} {after after' : World}
    (begins : Begun now task world begun after) (begins' : Begun now task' world' begun' after')
    (same : task'.plain = task.plain) (agree : World.Agree [task.name] world world') :
    begun'.plain = begun.plain ∧ World.Agree [task.name] after after' := by
  have invoked : task'.standing.isInvoked = task.standing.isInvoked :=
    (congrArg (fun task : Task => task.standing.isInvoked) same :)
  have unchecked : task'.isUnchecked = task.isUnchecked := (congrArg isUnchecked same :)
  have name : task'.name = task.name := (congrArg Task.name same :)
  have started : (task'.begun now).plain = (task.begun now).plain :=
    congrArg (fun task : Task => task.begun now) same
  have own := List.mem_singleton_self task.name
  cases begins with
  | going here =>
      cases begins' with
      | going => exact ⟨same, agree⟩
      | joins idle => rw [invoked, here] at idle; cases idle
      | starts idle => rw [invoked, here] at idle; cases idle
  | joins idle joining found atWork =>
      cases begins' with
      | going here => rw [invoked, idle] at here; cases here
      | joins => exact ⟨started, agree⟩
      | starts _ free =>
          -- One run finds the job busy and the other one idle, but they agree on its progress.
          obtain ⟨job', found', resting⟩ := free (unchecked ▸ joining)
          rw [agree.progress own found (name ▸ found'), atWork] at resting
          cases resting
  | @starts idle free _ ref _ built =>
      cases begins' with
      | going here => rw [invoked, idle] at here; cases here
      | joins _ joining found' atWork =>
          obtain ⟨job, found, resting⟩ := free (unchecked ▸ joining)
          rw [agree.progress own found (name ▸ found'), resting] at atWork
          cases atWork
      | @starts _ _ _ ref' _ built' =>
          rw [name] at built'
          obtain ⟨rfl, worlds⟩ := agree.invoked built built' world.resolved world'.resolved
          exact ⟨plain_follows started ref', worlds⟩

theorem Observed.twins {result result' : BuildResult} {progress progress' : Progress}
    (observes : Observed task world result progress)
    (observes' : Observed task' world' result' progress') (same : task'.plain = task.plain)
    (owns : task.Owns) (agree : World.Agree [task.name] world world') :
    result' = result ∧ progress' = progress := by
  have name : task'.name = task.name := (congrArg Task.name same :)
  have build : task'.build = task.build := (congrArg Task.build same :)
  have mine := List.mem_singleton_self task.name
  cases observes with
  | @build ref followed job latest found held =>
      cases observes' with
      | @build ref' followed' job' latest' found' held' =>
          rw [build, followed] at followed'
          cases followed'
          rw [owns ref followed] at found found'
          -- Both followed builds stand at one place of histories that agree.
          have plainly : latest'.plain = latest.plain := by
            have there := job'.build?_plain ref.index
            rw [agree.alike mine found found', job.build?_plain, held, held'] at there
            exact (Option.some.inj there).symm
          have status : latest'.status world'.runner.tick = latest.status world.runner.tick := by
            rw [agree.tick]
            exact (congrArg (fun build : Build => build.status world.runner.tick) plainly :)
          exact ⟨congrArg Prod.fst status, congrArg Prod.snd status⟩
      | job unstarted =>
          rw [build, followed] at unstarted
          cases unstarted
  | @job unstarted job found =>
      cases observes' with
      | build followed' =>
          rw [build, unstarted] at followed'
          cases followed'
      | @job _ job' found' =>
          have seen := agree.alike mine found (name ▸ found')
          have status : job'.status world'.runner.tick = job.status world.runner.tick := by
            rw [← Job.status_plain, seen, Job.status_plain, agree.tick]
          rw [status]
          exact ⟨rfl, rfl⟩

/-! ## A step -/

/-- A step that answers, in the order in which things happen. -/
inductive Stepped (now : Instant) (task : Task) (world : World) :
    Except Halt Unit → Task → World → Prop
  | missing (unresolved : task.resolved = false) (missing : world.runner.job? task.name = none)
      {after : World} (agree : ∀ names, World.Agree names world after) :
      Stepped now task world (failedBy (.missing task.name)) (task.ended .failure) after
  | tracks {found begun : Task} {there after : World} {result : BuildResult} {progress : Progress}
      (finds : Found task world found there) (begins : Begun now found there begun after)
      (observes : Observed begun after result progress) :
      Stepped now task world
        (if progress.isIdle ∧ result ≠ .unknown then begun.ending result else .ok ())
        (if progress.isIdle ∧ result ≠ .unknown then begun.ended result else begun) after

theorem Follows.stepped {next : Task} {after : World} {answer : Except Halt Unit}
    (follows : Follows now task world answer next after) (answered : Answered answer) :
    Stepped now task world answer next after := by
  cases follows with
  | missing unresolved _ missing =>
      exact .missing unresolved missing fun names =>
        ⟨Runner.tick_lookup _ _, fun name _ => Runner.plain?_lookup _ _ _⟩
  | @waits _ _ _ _ result progress finds begins observes waits =>
      have stepped := Stepped.tracks finds begins observes
      have open' : ¬ (progress.isIdle ∧ result ≠ .unknown) := by
        rintro ⟨idle, known⟩
        rcases waits with busy | unknown
        · cases idle.symm.trans busy
        · exact known unknown
      rwa [if_neg open', if_neg open'] at stepped
  | ends finds begins observes idle known =>
      have stepped := Stepped.tracks finds begins observes
      rwa [if_pos ⟨idle, known⟩, if_pos ⟨idle, known⟩] at stepped
  | strays _ _ _ strays => cases answered; cases strays
  | lost => cases answered

theorem Found.present {found : Task} {there : World} (finds : Found task world found there)
    (unresolved : task.resolved = false) : ∃ job, world.runner.job? task.name = some job := by
  cases finds with
  | known resolved => cases unresolved.symm.trans resolved
  | listed _ _ found => exact ⟨_, found⟩
  | looked _ _ found => exact ⟨_, found⟩

/-- A step changes nothing about other jobs. -/
theorem Follows.aside {next : Task} {after : World} {answer : Except Halt Unit}
    (follows : Follows now task world answer next after) (answered : Answered answer)
    {names : List String} (other : task.name ∉ names) : World.Agree names world after := by
  cases follows.stepped answered with
  | missing _ _ seen => exact seen names
  | @tracks found _ there _ _ _ finds begins =>
      have known := finds.plain.2 names
      cases begins with
      | going => exact known
      | joins => exact known
      | starts _ _ built =>
          obtain ⟨-, -, -, -, tick, -⟩ := Runner.invoke?_eq_some built
          refine known.trans ⟨tick, fun name named => Runner.plain?_invoked built ?_⟩
          rintro rfl
          exact other (finds.attempted.name ▸ named)

/-- Both invocations conclude from what they have observed. -/
theorem concluded_twins {begun begun' : Task} (same : begun'.plain = begun.plain) (owns : begun.Owns)
    (progress : Progress) (result : BuildResult) :
    SameAnswers (if progress.isIdle ∧ result ≠ .unknown then begun.ending result else .ok ())
        (if progress.isIdle ∧ result ≠ .unknown then begun'.ending result else .ok ()) ∧
      (if progress.isIdle ∧ result ≠ .unknown then begun'.ended result else begun').plain =
        (if progress.isIdle ∧ result ≠ .unknown then begun.ended result else begun).plain ∧
      (if progress.isIdle ∧ result ≠ .unknown then begun.ended result else begun).Owns := by
  have name : begun'.name = begun.name := (congrArg Task.name same :)
  have propagation : begun'.standing.propagation = begun.standing.propagation :=
    (congrArg (fun task : Task => task.standing.propagation) same :)
  by_cases ended : progress.isIdle ∧ result ≠ .unknown
  · simp only [if_pos ended]
    refine ⟨?_, plain_ended same _, owns⟩
    unfold ending
    split
    · exact .failed rfl
    · exact .passed
  · simp only [if_neg ended]
    exact ⟨.passed, same, owns⟩

/-- Two steps of one invocation in two runs. -/
theorem Follows.twins {next next' : Task} {after after' : World} {answer answer' : Except Halt Unit}
    (follows : Follows now task world answer next after) (answered : Answered answer)
    (follows' : Follows now task' world' answer' next' after') (answered' : Answered answer')
    (same : task'.plain = task.plain) (owns : task.Owns)
    (agree : World.Agree [task.name] world world') :
    SameAnswers answer answer' ∧ next'.plain = next.plain ∧ next.Owns ∧
      World.Agree [task.name] after after' := by
  have name : task'.name = task.name := (congrArg Task.name same :)
  have resolved : task'.resolved = task.resolved := (congrArg Task.resolved same :)
  have mine := List.mem_singleton_self task.name
  -- The job is missing in both runs or in none of them.
  cases follows.stepped answered with
  | missing unresolved missing seen =>
      cases follows'.stepped answered' with
      | missing _ _ seen' =>
          refine ⟨.failed rfl, plain_ended same _, owns, ?_⟩
          exact (seen _).symm.trans (agree.trans (seen' _))
      | tracks finds' =>
          obtain ⟨job, found⟩ := finds'.present (resolved.trans unresolved)
          obtain ⟨_, found, -⟩ := agree.symm.job mine (name ▸ found)
          cases found.symm.trans missing
  | @tracks found begun there after result progress finds begins observes =>
      cases follows'.stepped answered' with
      | missing unresolved' missing' =>
          obtain ⟨job, found⟩ := finds.present (resolved.symm.trans unresolved')
          obtain ⟨_, found, -⟩ := agree.job mine found
          cases found.symm.trans (name ▸ missing')
      | @tracks found' begun' there' after' result' progress' finds' begins' observes' =>
          have attempted := finds.attempted.trans begins.attempted
          have owns : begun.Owns := by
            intro ref followed
            rw [attempted.name]
            exact (begins.followed finds ref followed).elim (owns ref) id
          obtain ⟨same, agree⟩ := finds.twins finds' same agree
          obtain ⟨same, agree⟩ := begins.twins begins' same agree
          rw [← begins.attempted.name] at agree
          obtain ⟨rfl, rfl⟩ := observes.twins observes' same owns agree
          obtain ⟨answers, same, owns⟩ := concluded_twins same owns progress' result'
          exact ⟨answers, same, owns, attempted.name ▸ agree⟩

end Task

end BuildFlow
