import BuildFlow.Proofs.Flow.Start
import BuildFlow.Proofs.Tree.Sound
import BuildFlow.Proofs.Runner.History
/-!
What the handle of a build stands for later on. It holds the place of the build among the builds of
its job, so it stands for that build until the job is added again or deleted. Without the job it is
refused; but once there is another job of that name, it stands for whatever is in that place.
-/
namespace BuildFlow

namespace Runner

variable {runner after : Runner} {command : Command} {answer : Except RunnerError Reply}
  {name : String}

instance (runner : Runner) (name : String) : DecidablePred (Command.Replaces runner name)
  | .add plan => inferInstanceAs (Decidable (plan.name = name))
  | .delete other => inferInstanceAs (Decidable (other = name ∧ (runner.job? name).isSome))
  | .create _ | .tick | .poll | .queuePoll | .find _ | .jobPoll _ | .jobStatus _ | .invoke .. |
    .stopAll _ | .call .. | .killAt _ => .isFalse id

theorem isSome_job?_setJob {other : String} {job : Job} (found : (runner.job? name).isSome)
    (present : name = other → job.present) : ((runner.setJob other job).job? name).isSome := by
  unfold job? at found ⊢
  rw [get?_setJob]
  split
  · next same => simp [present same]
  · exact found

/-- A job that exists does so until it is replaced. -/
theorem Turns.present (turns : Turns runner command answer after)
    (kept : ¬ command.Replaces runner name) (found : (runner.job? name).isSome) :
    (after.job? name).isSome := by
  cases turns with
  | adds plan => exact isSome_job?_setJob found fun same => absurd same.symm kept
  | creates other => exact isSome_job?_setJob found fun _ => rfl
  -- Only deleting this very job would take it away, and that replaces it.
  | @deletes other job found' =>
      have different : name ≠ other := fun same => kept ⟨same.symm, found⟩
      unfold job? at found ⊢
      rw [Table.get?_erase, if_neg different]
      exact found
  | ticks =>
      obtain ⟨job, found⟩ := Option.isSome_iff_exists.mp found
      obtain ⟨next, found', -⟩ := (rests_advance runner).1.grows.job? found
      exact Option.isSome_of_eq_some found'
  | finds other => rwa [found_lookup]
  | invokes invoked =>
      obtain ⟨job, found', -, -, -, -, jobs⟩ := invoke?_eq_some invoked
      unfold job?
      rw [jobs]
      exact isSome_job?_setJob found fun _ => (job?_eq_some.mp found').2
  | stopsAll found' => exact isSome_job?_setJob found fun _ => (job?_eq_some.mp found').2
  | @calls ref call job build found' =>
      have present := (job?_eq_some.mp found').2
      cases call with
      | status => exact found
      | stop => exact isSome_job?_setJob found fun _ => present
      | describe => exact isSome_job?_setJob found fun _ => present
  | hooks => exact found
  | reads => exact found
  | refuses => exact found

theorem Command.Replaces.acts (replaces : command.Replaces runner name) :
    command.looks = false := by
  cases command with
  | add | delete => rfl
  | _ => exact replaces.elim

/-- Where a job is replaced, nothing is left of its builds. -/
theorem Turns.replaced (turns : Turns runner command answer after)
    (replaces : command.Replaces runner name) :
    ∀ build ∈ after.buildsOf name, build.byFlow = false := by
  cases turns with
  | adds plan =>
      have builds := buildsOf_setJob runner plan.name name (.ofPlan plan)
      rw [if_pos replaces.symm] at builds
      rw [add, builds]
      intro build member
      rw [Job.eq_foreignBuild_of_mem member]
      rfl
  | deletes =>
      rw [buildsOf_erase, if_pos replaces.1.symm]
      exact fun _ member => (List.not_mem_nil member).elim
  | refuses needs missing =>
      cases command with
      | add => cases needs
      | delete other =>
          cases needs
          rw [replaces.1, Option.eq_none_iff_forall_ne_some] at missing
          obtain ⟨job, found⟩ := Option.isSome_iff_exists.mp replaces.2
          exact absurd found (missing job)
      | _ => exact replaces.elim
  | reads looks => cases replaces.acts.symm.trans looks
  | _ => exact replaces.elim

theorem Calls.of_missing {ref : BuildRef} {call : BuildCall} {outcome : Except Halt Reply}
    (calls : Calls runner ref call outcome after) (missing : runner.job? ref.job = none) :
    outcome = .error (.error (.runner (.unknownJob ref.job))) ∧ after = runner := by
  cases calls with
  | unknown => exact ⟨rfl, rfl⟩
  | lost found => cases missing.symm.trans found
  | overrun found => cases missing.symm.trans found
  | acts found => cases missing.symm.trans found

theorem Calls.of_fits {ref : BuildRef} {call : BuildCall} {outcome : Except Halt Reply}
    (calls : Calls runner ref call outcome after) {job : Job} {build : Build}
    (found : runner.job? ref.job = some job) (held : job.builds[ref.index]? = some build)
    (fits : call.fits runner.tick build) :
    outcome = .ok (call.reply runner.tick build) ∧ after = call.carry runner ref job build := by
  cases calls with
  | unknown missing => cases missing.symm.trans found
  | lost found' gone =>
      cases found'.symm.trans found
      cases gone.symm.trans held
  | overrun found' held' beyond =>
      cases found'.symm.trans found
      cases held'.symm.trans held
      exact absurd fits beyond
  | acts found' held' =>
      cases found'.symm.trans found
      cases held'.symm.trans held
      exact ⟨rfl, rfl⟩

end Runner

namespace Host

open Act Runner

variable {host made now before after : Host} {ref : BuildRef} {name : String}
  {request : InvokeRequest}

/-- The job is not replaced. -/
def Keeps (name : String) (runner : Runner) (command : Command) : Prop :=
  ¬ command.Replaces runner name

instance (name : String) (runner : Runner) : DecidablePred (Keeps name runner) :=
  fun command => inferInstanceAs (Decidable (¬ command.Replaces runner name))

theorem protects_keeps : Protects (Keeps name) name :=
  fun _ _ kept replaces => absurd replaces kept

theorem Session.present (direct : before.Direct) (session : Session (Keeps name) before after)
    (found : (before.runner.job? name).isSome) : (after.runner.job? name).isSome := by
  induction session with
  | refl => exact found
  | tail reached step ih =>
      obtain ⟨_, _, kept, answered⟩ := step
      exact (answered.turns (Session.direct direct reached)).2.present kept ih

/-! ## Calls by a handle -/

/-- The call is refused as the job is unknown, and changes nothing. -/
def Refuses (host : Host) (ref : BuildRef) (call : BuildCall) : Prop :=
  ∃ after, host.Answers (.call ref call) (.error (.unknownJob ref.job)) after ∧
    after.runner = host.runner

/-- The call is answered for the build in the place of the handle, and changes no other build. -/
def ActsOn (host : Host) (ref : BuildRef) (call : BuildCall) (build : Build) : Prop :=
  ∃ after, host.Answers (.call ref call) (.ok (call.reply host.runner.tick build)) after ∧
    after.runner.tick = host.runner.tick ∧
    ∀ other, after.runner.buildsOf other =
      if other = ref.job then
        (host.runner.buildsOf ref.job).set ref.index (call.change host.runner.tick build)
      else host.runner.buildsOf other

theorem refuses_missing (direct : host.Direct) (missing : host.runner.job? ref.job = none)
    (call : BuildCall) : host.Refuses ref call := by
  have leads : (attempt (call.perform ref)).Leads host fun outcome after =>
      outcome = .ok (.error (.unknownJob ref.job)) ∧ after.runner = host.runner := by
    rw [leads_attempt]
    refine (called_perform direct.faultless ref call).mono ?_
    rintro outcome after ⟨-, calls⟩
    obtain ⟨rfl, same⟩ := calls.of_missing missing
    exact ⟨rfl, same⟩
  exact ⟨_, Prod.ext leads.1 rfl, leads.2⟩

theorem answers_call (direct : host.Direct) {job : Job} {build : Build}
    (found : host.runner.job? ref.job = some job) (held : job.builds[ref.index]? = some build)
    {call : BuildCall} (fits : call.fits host.runner.tick build) :
    ∃ after, host.Answers (.call ref call) (.ok (call.reply host.runner.tick build)) after ∧
      after.runner = call.carry host.runner ref job build := by
  have leads : (attempt (call.perform ref)).Leads host fun outcome after =>
      outcome = .ok (.ok (call.reply host.runner.tick build)) ∧
        after.runner = call.carry host.runner ref job build := by
    rw [leads_attempt]
    refine (called_perform direct.faultless ref call).mono ?_
    rintro outcome after ⟨-, calls⟩
    obtain ⟨rfl, same⟩ := calls.of_fits found held fits
    exact ⟨rfl, same⟩
  exact ⟨_, Prod.ext leads.1 rfl, leads.2⟩

theorem actsOn_held (direct : host.Direct) {build : Build}
    (found : (host.runner.job? ref.job).isSome)
    (held : (host.runner.buildsOf ref.job)[ref.index]? = some build) {call : BuildCall}
    (fits : call.fits host.runner.tick build) : host.ActsOn ref call build := by
  obtain ⟨job, found⟩ := Option.isSome_iff_exists.mp found
  rw [buildsOf_of_job? found] at held
  obtain ⟨after, answers, same⟩ := answers_call direct found held fits
  have tick : (call.carry host.runner ref job build).tick = host.runner.tick := by
    cases call <;> rfl
  refine ⟨after, answers, same ▸ tick, fun other => ?_⟩
  rw [same]
  exact buildsOf_carry found held call other

/-- What a handle is made for: the build that was added to its job. -/
theorem invoked_held (direct : host.Direct)
    (invoked : host.Answers (.invoke name request) (.ok (.started ref)) made) :
    made.Direct ∧ ref.job = name ∧ ref.index = (host.runner.buildsOf name).length ∧
      (made.runner.job? name).isSome ∧
      ∃ started, (made.runner.buildsOf name)[ref.index]? = some started ∧
        started.number = ref.number ∧ started.byFlow := by
  obtain ⟨direct', turns⟩ := invoked.turns direct
  generalize made.runner = runner at turns ⊢
  cases turns with
  | reads looks => cases looks
  | invokes invoked =>
      obtain ⟨job, found, named, index, -, -, jobs⟩ := invoke?_eq_some invoked
      obtain ⟨-, build, listed, number⟩ := Task.build?_invoked invoked
      obtain ⟨job', found', held⟩ := Option.bind_eq_some_iff.mp listed
      subst named
      obtain ⟨-, builds⟩ := buildsOf_invoke invoked found
      rw [← buildsOf_of_job? found'] at held
      refine ⟨direct', rfl, by rw [index, buildsOf_of_job? found], by rw [found']; rfl, build, held,
        number, ?_⟩
      -- The new build is the one behind those that were there.
      rw [builds, index, List.getElem?_append_right (by simp [Job.supersede])] at held
      simp only [Job.supersede, List.length_map, Nat.sub_self, List.getElem?_cons_zero] at held
      cases held
      rfl

/-- A job whose builds run for three ticks. -/
def slowPlan : JobPlan := { name := "build", execTicks := 3 }

/-- The handle of its first build. -/
def firstRef : BuildRef := ⟨"build", 0, 1⟩

def firstBuild : Build := (Job.ofPlan slowPlan).nextBuild 0 {}

def secondBuild : Build := { firstBuild with number := 2, enqueuedAt := 1 }

/-- The first build of the job that is created in its place, after a tick. -/
def renewedBuild : Build := (Job.ofPlan { name := "build" }).nextBuild 1 {}

/-- The first build has been started. -/
def startedHost : Host :=
  ((attempt (Command.perform (.invoke "build" {}))).run (ofPlans [slowPlan])).2

end Host

end BuildFlow
