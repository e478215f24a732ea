import Mathlib.Logic.Relation
import BuildFlow.Proofs.Kill.Builds
/-!
All that can be asked of a runner, command after command. A command is answered with a reply or
refused, or it breaks down and there is no answer. What the answered ones do to the job table is
said once, in `Turns`.
-/
namespace BuildFlow

namespace Runner

/-- What can be asked of a build by its handle. -/
inductive BuildCall where
  | status
  | stop (dequeue : Bool)
  | describe (text : String) (replace : Bool) (separator : String)

/-- What can be asked of a runner, of a job by its name, and of a build by its handle. -/
inductive Command where
  | add (plan : JobPlan)
  | create (name : String)
  | delete (name : String)
  | tick
  | poll
  | queuePoll
  | find (name : String)
  | jobPoll (name : String)
  | jobStatus (name : String)
  | invoke (name : String) (request : InvokeRequest)
  | stopAll (name : String)
  | call (ref : BuildRef) (asked : BuildCall)
  | killAt (hook : KillHook)

inductive Reply where
  | done
  | job (status : JobStatus)
  | started (ref : BuildRef)
  | build (status : BuildResult × Progress)
  deriving DecidableEq

def BuildCall.perform (ref : BuildRef) : BuildCall → Act Host Reply
  | .status => do return .build (← Host.status ref)
  | .stop dequeue => do
      Host.stop ref dequeue
      return .done
  | .describe text replace separator => do
      Host.describe ref text replace separator
      return .done

def Command.perform : Command → Act Host Reply
  | .add plan => do
      Host.perform (.add plan)
      return .done
  | .create name => do
      Host.perform (.create name)
      return .done
  | .delete name => do
      discard <| Host.job name
      Host.perform (.delete name)
      return .done
  | .tick => do
      Host.quickPoll
      return .done
  | .poll => do
      Host.poll
      return .done
  | .queuePoll => do
      Host.queuePoll
      return .done
  | .find name => do
      Host.getJob name
      return .done
  | .jobPoll name => do
      Host.jobPoll name
      return .done
  | .jobStatus name => do return .job (← Host.jobStatus name)
  | .invoke name request => do return .started (← Host.invoke name request)
  | .stopAll name => do
      Host.stopAll name
      return .done
  | .call ref asked => asked.perform ref
  | .killAt hook => do
      modify fun host =>
        { host with runner := { host.runner with hooks := host.runner.hooks ++ [hook] } }
      return .done

/-! ## Job tables after a command -/

namespace BuildCall

/-- What a call makes of its build. -/
def change (tick : Nat) (build : Build) : BuildCall → Build
  | .status => build
  | .stop dequeue => build.stop tick dequeue
  | .describe text replace separator =>
      { build with description :=
          if replace || build.description.isEmpty then text
          else build.description ++ separator ++ text }

def reply (tick : Nat) (build : Build) : BuildCall → Reply
  | .status => .build (build.status tick)
  | .stop _ | .describe .. => .done

/-- Whether the sums that a call looks at stay below the limit. -/
def fits (tick : Nat) (build : Build) : BuildCall → Bool
  | .status | .stop _ => build.statusFits tick
  | .describe .. => true

/-- The job table after a call to a build. -/
def carry (runner : Runner) (ref : BuildRef) (job : Job) (build : Build) : BuildCall → Runner
  | .status => runner
  | .stop dequeue => runner.stopBuild ref job build dequeue
  | .describe text replace separator => runner.describeBuild ref job build text replace separator

end BuildCall

namespace Command

/-- The job that has to exist. -/
def needs : Command → Option String
  | .delete name | .jobStatus name | .invoke name _ | .stopAll name => some name
  | .call ref _ => some ref.job
  | _ => none

/-- Whether a command leaves the job table alone. -/
def looks : Command → Bool
  | .poll | .queuePoll | .jobPoll _ | .jobStatus _ => true
  | _ => false

end Command

/-- What a command that is answered does to the job table. -/
inductive Turns (runner : Runner) : Command → Except RunnerError Reply → Runner → Prop
  | adds (plan : JobPlan) : Turns runner (.add plan) (.ok .done) (runner.add plan)
  | creates (name : String) : Turns runner (.create name) (.ok .done) (runner.create name)
  | deletes {name : String} {job : Job} (found : runner.job? name = some job) :
      Turns runner (.delete name) (.ok .done) { runner with jobs := runner.jobs.erase name }
  | ticks (answer : Except RunnerError Reply) : Turns runner .tick answer runner.advance.1
  | finds (name : String) (answer : Except RunnerError Reply) :
      Turns runner (.find name) answer (runner.lookup name).2
  | invokes {name : String} {request : InvokeRequest} {ref : BuildRef} {after : Runner}
      (invoked : runner.invoke? name request = some (ref, after)) :
      Turns runner (.invoke name request) (.ok (.started ref)) after
  | stopsAll {name : String} {job : Job} (found : runner.job? name = some job) :
      Turns runner (.stopAll name) (.ok .done) (runner.setJob name (job.stopAll runner.tick))
  | calls {ref : BuildRef} {call : BuildCall} {job : Job} {build : Build}
      (found : runner.job? ref.job = some job) (held : job.builds[ref.index]? = some build) :
      Turns runner (.call ref call) (.ok (call.reply runner.tick build))
        (call.carry runner ref job build)
  | hooks (hook : KillHook) :
      Turns runner (.killAt hook) (.ok .done) { runner with hooks := runner.hooks ++ [hook] }
  | reads {command : Command} (looks : command.looks) (reply : Reply) :
      Turns runner command (.ok reply) runner
  | refuses {command : Command} {name : String} (needs : command.needs = some name)
      (missing : runner.job? name = none) :
      Turns runner command (.error (.unknownJob name)) runner

/-- How a call to a build ends. Without its job it is refused; it breaks down if the job does not hold
so many builds, or if a sum of ticks is out of bounds; else it acts on the build in that place. -/
inductive Calls (runner : Runner) (ref : BuildRef) (call : BuildCall) :
    Except Halt Reply → Runner → Prop
  | unknown (missing : runner.job? ref.job = none) :
      Calls runner ref call (.error (.error (.runner (.unknownJob ref.job)))) runner
  | lost {job : Job} (found : runner.job? ref.job = some job)
      (gone : job.builds[ref.index]? = none) :
      Calls runner ref call (.error (.broken .build)) runner
  | overrun {job : Job} {build : Build} (found : runner.job? ref.job = some job)
      (held : job.builds[ref.index]? = some build) (beyond : ¬ call.fits runner.tick build) :
      Calls runner ref call (.error (.broken .ticks)) runner
  | acts {job : Job} {build : Build} (found : runner.job? ref.job = some job)
      (held : job.builds[ref.index]? = some build) (fits : call.fits runner.tick build) :
      Calls runner ref call (.ok (call.reply runner.tick build)) (call.carry runner ref job build)

end Runner

namespace Host

open Act Runner

/-- All calls reach the runner, and nothing else happens to its jobs. -/
structure Direct (host : Host) : Prop where
  faultless : host.script.faults = []
  actionless : host.script.actions = []

theorem Direct.faithful {host : Host} (direct : host.Direct) : host.Faithful :=
  ⟨direct.faultless, by simp [direct.actionless]⟩

theorem Direct.same {before after : Host} (direct : before.Direct)
    (script : after.script = before.script) : after.Direct :=
  ⟨script ▸ direct.faultless, script ▸ direct.actionless⟩

/-- The command is answered, if only with a refusal. -/
def Answers (before : Host) (command : Command) (answer : Except RunnerError Reply) (after : Host) :
    Prop :=
  (attempt command.perform).run before = (.ok answer, after)

/-! ## Commands one by one -/

/-- A step of the job table, if the action does not break down. -/
def Takes (host : Host) (command : Command) (answer : Except Halt Reply) (after : Host) : Prop :=
  after.script = host.script ∧
    match answer with
    | .ok reply => Turns host.runner command (.ok reply) after.runner
    | .error (.error (.runner error)) => Turns host.runner command (.error error) after.runner
    | .error _ => True

variable {host : Host}

/-- An action that leaves the job table alone. -/
theorem Mild.takes {action : Act Host Unit} (mild : Mild action) (faultless : host.script.faults = [])
    {command : Command} (looks : command.looks) :
    (do action; return .done : Act Host Reply).Leads host (Takes host command) := by
  rw [leads_bind]
  refine (mild host faultless).mono ?_
  rintro answer after ⟨rfl, stays, same⟩
  have runner : after.runner = host.runner := congrArg World.runner same
  refine ⟨stays.script, ?_⟩
  change Turns host.runner command (.ok .done) after.runner
  rw [runner]
  exact .reads looks _

theorem Takes.refused {command : Command} {name : String} {after : Host}
    (script : after.script = host.script) (same : after.runner = host.runner)
    (needs : command.needs = some name) (missing : host.runner.job? name = none) :
    Takes host command (.error (.error (.runner (.unknownJob name)))) after := by
  refine ⟨script, ?_⟩
  rw [same]
  exact .refuses needs missing

/-- The hooks that fire ask for kills, which changes nothing else, and no action is scripted. -/
theorem leads_strike_direct (direct : host.Direct) : strike.Leads host fun answer after =>
    answer = .ok host.runner.advance.1.tick ∧ after.script = host.script ∧
      after.runner = host.runner.advance.1 := by
  unfold strike
  rw [leads_bind, leads_get]
  dsimp only
  rw [leads_bind, setRunner, leads_modify]
  dsimp only
  rw [leads_bind]
  refine (leads_requestKills KillHook.kind _ _ _).mono ?_
  rintro answer after ⟨rfl, goes, same⟩
  dsimp only
  rw [leads_bind, leads_get]
  dsimp only
  rw [(direct.same goes.script).actionless, leads_bind, List.filter_nil, List.forM, leads_pure]
  exact ⟨rfl, goes.script, congrArg World.runner same⟩

theorem takes_tick (direct : host.Direct) :
    (Command.perform .tick).Leads host (Takes host .tick) := by
  unfold Command.perform
  rw [leads_bind]
  refine leads_quickPoll_of direct.faultless (fun _ stays _ _ => ⟨stays.script, trivial⟩)
    fun there _ stays same => ?_
  have runner : there.runner = host.runner := congrArg World.runner same
  refine (leads_strike_direct (direct.same stays.script)).mono ?_
  rintro answer after ⟨rfl, script, ticked⟩
  rw [runner] at ticked
  have turns (answer : Except RunnerError Reply) :
      Turns host.runner .tick answer after.runner := ticked ▸ .ticks answer
  replace script := script.trans stays.script
  exact ⟨_, rfl, script, fun _ => ⟨script, turns _⟩, fun _ => ⟨script, turns _⟩⟩

/-- A build is looked for in its place among the builds of its job. -/
theorem leads_build {ref : BuildRef} {post : Except Halt (Job × Build) → Host → Prop}
    (unknown : host.runner.job? ref.job = none →
      post (.error (.error (.runner (.unknownJob ref.job)))) host)
    (lost : ∀ job, host.runner.job? ref.job = some job → job.builds[ref.index]? = none →
      post (.error (.broken .build)) host)
    (held : ∀ job build, host.runner.job? ref.job = some job →
      job.builds[ref.index]? = some build → post (.ok (job, build)) host) :
    (build ref).Leads host post := by
  unfold Host.build
  rw [leads_bind, leads_job]
  cases found : host.runner.job? ref.job with
  | none => exact unknown found
  | some job =>
      dsimp only
      cases here : job.builds[ref.index]? with
      | none => exact lost job found here
      | some build => exact held job build found here

/-- What comes of a call to a build. -/
def Called (host : Host) (ref : BuildRef) (call : BuildCall) (answer : Except Halt Reply)
    (after : Host) : Prop :=
  after.script = host.script ∧ Calls host.runner ref call answer after.runner

theorem called_perform (faultless : host.script.faults = []) (ref : BuildRef) (call : BuildCall) :
    (call.perform ref).Leads host (Called host ref call) := by
  cases call with
  | status =>
      unfold BuildCall.perform Host.status
      rw [leads_bind, leads_bind, leads_discard, leads_meetFaults faultless]
      dsimp only
      rw [leads_bind]
      refine leads_build (fun missing => ⟨rfl, .unknown missing⟩)
        -- Without the job or without the build the call ends here, whatever it asks.
        (fun job found gone => ⟨rfl, .lost found gone⟩) fun job build found held => ?_
      dsimp only
      rw [leads_bind, leads_get]
      dsimp only
      rw [leads_bind, leads_breakUnless]
      split
      · next fits => exact ⟨rfl, .acts found held fits⟩
      · next beyond => exact ⟨rfl, .overrun found held beyond⟩
  | stop dequeue =>
      unfold BuildCall.perform Host.stop
      rw [leads_bind, leads_bind, leads_record]
      dsimp only
      rw [leads_bind, leads_meetFaults (by exact faultless)]
      simp only [Bool.false_eq_true, ↓reduceIte]
      rw [leads_bind]
      refine leads_build (fun missing => ⟨rfl, .unknown missing⟩)
        (fun job found gone => ⟨rfl, .lost found gone⟩) fun job build found held => ?_
      dsimp only
      rw [leads_bind, leads_get]
      dsimp only
      rw [leads_bind, leads_breakUnless]
      split
      · next fits => exact ⟨rfl, .acts found held fits⟩
      · next beyond => exact ⟨rfl, .overrun found held beyond⟩
  | describe text replace separator =>
      unfold BuildCall.perform Host.describe
      rw [leads_bind, leads_bind]
      refine leads_build (fun missing => ⟨rfl, .unknown missing⟩)
        (fun job found gone => ⟨rfl, .lost found gone⟩) fun job build found held => ?_
      exact ⟨rfl, .acts found held rfl⟩

theorem Called.takes {ref : BuildRef} {call : BuildCall} {answer : Except Halt Reply} {after : Host}
    (called : Called host ref call answer after) : Takes host (.call ref call) answer after := by
  obtain ⟨script, calls⟩ := called
  refine ⟨script, ?_⟩
  generalize after.runner = next at calls
  cases calls with
  | unknown missing => exact .refuses rfl missing
  | lost => trivial
  | overrun => trivial
  | acts found held => exact .calls found held

theorem takes_stopAll (faultless : host.script.faults = []) (name : String) :
    (Command.perform (.stopAll name)).Leads host (Takes host (.stopAll name)) := by
  unfold Command.perform stopAll
  rw [leads_bind, leads_bind, leads_record]
  dsimp only
  rw [leads_bind, leads_meetFaults (by exact faultless)]
  simp only [Bool.false_eq_true, ↓reduceIte]
  rw [leads_bind, leads_job]
  cases found : (host.after (.stopAll name)).runner.job? name with
  | none => exact Takes.refused rfl rfl rfl found
  | some job =>
      dsimp only
      rw [leads_bind, leads_get]
      dsimp only
      rw [leads_bind, leads_breakUnless]
      split
      · exact ⟨rfl, .stopsAll found⟩
      · exact ⟨rfl, trivial⟩

theorem takes_invoke (direct : host.Direct) (name : String) (request : InvokeRequest) :
    (Command.perform (.invoke name request)).Leads host (Takes host (.invoke name request)) := by
  unfold Command.perform
  rw [leads_bind]
  refine leads_invoke Conduct.faithful direct.faithful name request
    (fun missing => Takes.refused rfl rfl rfl missing) (fun _ _ _ => ⟨rfl, trivial⟩) ?_
  intro ref runner after invoked goes world
  have same : after.runner = runner := congrArg World.runner world
  refine ⟨goes.script, ?_⟩
  change Turns host.runner (.invoke name request) (.ok (.started ref)) after.runner
  rw [same]
  exact .invokes invoked

/-- Every command takes the job table a step further, unless it breaks down. -/
theorem takes_perform (direct : host.Direct) (command : Command) :
    command.perform.Leads host (Takes host command) := by
  have faultless := direct.faultless
  cases command with
  | add plan => exact ⟨rfl, .adds plan⟩
  | create name => exact ⟨rfl, .creates name⟩
  | delete name =>
      unfold Command.perform
      rw [leads_bind, leads_discard, leads_job]
      cases found : host.runner.job? name with
      | none => exact Takes.refused rfl rfl rfl found
      | some job =>
          -- The job exists, so deleting it always comes to something.
          have gone : host.runner.delete? name =
              some { host.runner with jobs := host.runner.jobs.erase name } := by
            rw [Runner.delete?, found]
            rfl
          refine ⟨rfl, ?_⟩
          change Turns host.runner (.delete name) (.ok .done)
            ((host.runner.delete? name).getD host.runner)
          rw [gone]
          exact .deletes found
  | tick => exact takes_tick direct
  | poll => exact mild_poll.takes faultless rfl
  | queuePoll => exact mild_queuePoll.takes faultless rfl
  | find name =>
      unfold Command.perform
      rw [leads_bind, leads_getJob faultless]
      split <;> exact ⟨rfl, .finds name _⟩
  | jobPoll name =>
      unfold Command.perform
      rw [leads_bind, leads_jobPoll faultless]
      exact ⟨rfl, .reads rfl _⟩
  | jobStatus name =>
      unfold Command.perform
      rw [leads_bind, leads_jobStatus faultless]
      cases found : host.runner.job? name with
      | none => exact Takes.refused rfl rfl rfl found
      | some job =>
          dsimp only
          split
          · exact ⟨rfl, .reads rfl _⟩
          · exact ⟨rfl, trivial⟩
  | invoke name request => exact takes_invoke direct name request
  | stopAll name => exact takes_stopAll faultless name
  | call ref asked => exact (called_perform faultless ref asked).mono fun _ _ => Called.takes
  | killAt hook => exact ⟨rfl, .hooks hook⟩

/-- What an answered command has done. -/
theorem Answers.turns {before after : Host} {command : Command} {answer : Except RunnerError Reply}
    (direct : before.Direct) (answered : before.Answers command answer after) :
    after.Direct ∧ Turns before.runner command answer after.runner := by
  have leads : (attempt command.perform).Leads before fun outcome after =>
      ∀ answer, outcome = .ok answer →
        after.Direct ∧ Turns before.runner command answer after.runner := by
    rw [leads_attempt]
    refine (takes_perform direct command).mono ?_
    rintro outcome after ⟨script, turns⟩
    cases outcome with
    | ok reply =>
        rintro answer ⟨⟩
        exact ⟨direct.same script, turns⟩
    | error halt =>
        cases halt with
        | broken => nofun
        | error error =>
            cases error with
            | runner error =>
                rintro answer ⟨⟩
                exact ⟨direct.same script, turns⟩
            | _ => nofun
  exact leads.ran answered answer rfl

/-! ## Sessions -/

/-- A command that is allowed is given, and it is answered. -/
def Proceeds (allowed : Runner → Command → Prop) (before after : Host) : Prop :=
  ∃ command answer, allowed before.runner command ∧ before.Answers command answer after

/-- Commands that are allowed are given one after another, and they are answered. -/
def Session (allowed : Runner → Command → Prop) : Host → Host → Prop :=
  Relation.ReflTransGen (Proceeds allowed)

theorem Session.widen {allowed wider : Runner → Command → Prop} {before after : Host}
    (session : Session allowed before after)
    (widens : ∀ runner command, allowed runner command → wider runner command) :
    Session wider before after := by
  induction session with
  | refl => exact .refl
  | tail _ step ih =>
      obtain ⟨command, answer, fine, answered⟩ := step
      exact ih.tail ⟨command, answer, widens _ command fine, answered⟩

/-- Gives commands one after another, as long as they are allowed and answered. -/
def performAll (allowed : Runner → Command → Prop) [∀ runner, DecidablePred (allowed runner)] :
    List Command → Host → Option Host
  | [], host => some host
  | command :: rest, host =>
      if allowed host.runner command then
        match (attempt command.perform).run host with
        | (.ok _, after) => performAll allowed rest after
        | (.error _, _) => none
      else none

theorem session_performAll {allowed : Runner → Command → Prop}
    [∀ runner, DecidablePred (allowed runner)] {commands : List Command} {before after : Host}
    (performed : performAll allowed commands before = some after) : Session allowed before after := by
  induction commands generalizing before with
  | nil =>
      cases performed
      exact .refl
  | cons command rest ih =>
      unfold performAll at performed
      split at performed
      · next fine =>
          split at performed
          · next answered => exact .head ⟨command, _, fine, answered⟩ (ih performed)
          · cases performed
      · cases performed

end Host

end BuildFlow
