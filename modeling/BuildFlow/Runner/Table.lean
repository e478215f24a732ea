import BuildFlow.Runner.Job
import BuildFlow.Text.Inspect
/-!
A runner that keeps its jobs in a table and counts time in ticks. Handles to
builds stay valid while their job keeps its builds: they hold the place of the
build in the history of the job.
-/
namespace BuildFlow

/-- Asks for a kill once a tick is reached. -/
structure KillHook where
  tick : Nat
  kind : KillKind
  deriving DecidableEq, Repr

/-- A build that was started through the runner. -/
structure BuildRef where
  job : String
  index : Nat
  number : Nat
  deriving DecidableEq, Repr

structure Runner where
  tick : Nat := 0
  jobs : Table String Job := ∅
  /-- The names of invoked jobs, in the order of the invocations. -/
  order : List String := []
  /-- Look-ups of jobs that did not exist. -/
  misses : Table String Nat := ∅
  hooks : List KillHook := []

namespace Runner

def jobUrl (name : String) : String := "http://mock/job/" ++ name

def consoleUrl (ref : BuildRef) : String :=
  jobUrl ref.job ++ "/" ++ toString ref.number ++ "/console"

/-- A job that exists. -/
def job? (runner : Runner) (name : String) : Option Job :=
  (runner.jobs.get? name).filter Job.present

def setJob (runner : Runner) (name : String) (job : Job) : Runner :=
  { runner with jobs := runner.jobs.insert name job }

/-! ## Jobs -/

def add (runner : Runner) (plan : JobPlan) : Runner :=
  runner.setJob plan.name (.ofPlan plan)

def create (runner : Runner) (name : String) : Runner :=
  let job := (runner.jobs.get? name).getD (.ofPlan { name })
  runner.setJob name { job with present := true }

def delete? (runner : Runner) (name : String) : Option Runner :=
  (runner.job? name).map fun _ => { runner with jobs := runner.jobs.erase name }

/-- Counts a look-up and says whether the job exists. -/
def lookup (runner : Runner) (name : String) : Bool × Runner :=
  match runner.job? name with
  | some job => (true, runner.setJob name { job with lookups := job.lookups + 1 })
  | none =>
      let misses := (runner.misses.get? name).getD 0
      (false, { runner with misses := runner.misses.insert name (misses + 1) })

/-! ## Time -/

/-- The jobs that exist because a build of another job has ended. -/
def createdJobs (runner : Runner) : List String :=
  runner.jobs.values.filterMap fun job =>
    if job.hasEnded runner.tick then job.plan.creates else none

/-- Whether the ends of builds can be told at the next tick. -/
def endsFit (runner : Runner) : Bool :=
  runner.jobs.values.all fun job => job.endsFit (runner.tick + 1)

/-- Lets a tick pass. Answers the hooks whose tick has come. -/
def advance (runner : Runner) : Runner × List KillHook :=
  let runner := { runner with tick := runner.tick + 1 }
  -- Jobs come to exist under the new tick, before any hook fires.
  let runner := runner.createdJobs.foldl create runner
  let (fired, pending) := runner.hooks.partition fun hook => hook.tick ≤ runner.tick
  ({ runner with hooks := pending }, fired)

/-! ## Builds -/

def invoke? (runner : Runner) (name : String) (request : InvokeRequest) :
    Option (BuildRef × Runner) :=
  (runner.job? name).map fun job =>
    let number := (job.nextBuild runner.tick request).number
    let runner := runner.setJob name (job.invoke runner.tick request)
    (⟨name, job.builds.length, number⟩, { runner with order := runner.order ++ [name] })

/-- Changes one build of a job. -/
def setBuild (runner : Runner) (ref : BuildRef) (job : Job) (build : Build) : Runner :=
  runner.setJob ref.job { job with builds := job.builds.set ref.index build }

/-- Stops a build and counts the call, also when it changes nothing. -/
def stopBuild (runner : Runner) (ref : BuildRef) (job : Job) (build : Build) (dequeue : Bool) :
    Runner :=
  runner.setBuild ref { job with stopCalls := job.stopCalls + 1 } (build.stop runner.tick dequeue)

/-- Sets the description of a build or adds to it. -/
def describeBuild (runner : Runner) (ref : BuildRef) (job : Job) (build : Build)
    (text : String) (replace : Bool) (separator : String) : Runner :=
  let description :=
    if replace || build.description.isEmpty then text
    else build.description ++ separator ++ text
  runner.setBuild ref job { build with description }

/-! ## Histories -/

/-- What a job table remembers of a job. -/
structure History where
  invokedAt : List Nat
  finishedAt : List (Option Nat)
  results : List BuildResult
  stopCalls : Nat
  stopAllCalls : Nat
  lookups : Nat
  request : Option InvokeRequest
  description : Option String

/-- The history of a job, also of one that does not exist. -/
def history (runner : Runner) (name : String) : History :=
  let misses := (runner.misses.get? name).getD 0
  match runner.jobs.get? name with
  | none => ⟨[], [], [], 0, 0, misses, none, none⟩
  | some job =>
      { invokedAt := job.flowBuilds.map Build.enqueuedAt
        finishedAt := job.flowBuilds.map fun build => build.finishedAt runner.tick
        results := job.builds.map fun build => build.result runner.tick
        stopCalls := job.stopCalls
        stopAllCalls := job.stopAllCalls
        lookups := job.lookups + misses
        request := job.requests.getLast?
        description := job.builds.getLast?.map Build.description }

/-- Whether the history of a job can be told. -/
def historyFits (runner : Runner) (name : String) : Bool :=
  match runner.jobs.get? name with
  | none => true
  | some job => job.flowBuilds.all Build.endFits && job.statusFits runner.tick

def inspect (runner : Runner) : Text.Inspect :=
  .record "MockJobRunner" [
    ("tick", .nat runner.tick),
    ("jobs", .list (runner.jobs.keys.map .text))] true

end Runner

end BuildFlow
