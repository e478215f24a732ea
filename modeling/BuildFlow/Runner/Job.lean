import BuildFlow.Runner.Request
/-!
A job and its builds over time. Time is counted in ticks: a build waits in the
queue for some ticks, runs for some more, and then has the result that was
planned for it, unless a stop or a later request has forced another one.
-/
namespace BuildFlow

/-- Sums of ticks have to stay below this bound, which is 2 ^ 64. -/
def tickLimit : Nat := 18446744073709551616

/-! ## Builds -/

structure Build where
  number : Nat
  enqueuedAt : Nat
  queueTicks : Nat
  execTicks : Nat
  planned : BuildResult
  /-- The result that ended the build early, and its tick. -/
  forced : Option (BuildResult × Nat)
  /-- Whether a flow started the build. -/
  byFlow : Bool
  description : String
  deriving DecidableEq, Repr

namespace Build

/-- The tick at which the build leaves the queue. -/
def startTick (build : Build) : Nat := build.enqueuedAt + build.queueTicks

/-- The tick at which the build ends by itself. -/
def endTick (build : Build) : Nat := build.startTick + build.execTicks

def status (build : Build) (tick : Nat) : BuildResult × Progress :=
  match build.forced with
  | some (result, _) => (result, .idle)
  | none =>
      if tick < build.startTick then (.unknown, .queued)
      else if tick < build.endTick then (.unknown, .running)
      else (build.planned, .idle)

def result (build : Build) (tick : Nat) : BuildResult := (build.status tick).1
def progress (build : Build) (tick : Nat) : Progress := (build.status tick).2

def finishedAt (build : Build) (tick : Nat) : Option Nat :=
  match build.forced with
  | some (_, tick) => some tick
  | none => if build.endTick ≤ tick then some build.endTick else none

def force (build : Build) (result : BuildResult) (tick : Nat) : Build :=
  { build with forced := some (result, tick) }

/-- Stops a running build. A queued one is only taken from the queue if asked for. -/
def stop (build : Build) (tick : Nat) (dequeue : Bool) : Build :=
  match build.progress tick with
  | .queued => if dequeue then build.force .dequeued tick else build
  | .running => build.force .aborted tick
  | .idle => build

/-- Whether the sums that the status looks at stay below the limit. -/
def statusFits (build : Build) (tick : Nat) : Bool :=
  build.forced.isSome ||
    (build.startTick < tickLimit && (tick < build.startTick || build.endTick < tickLimit))

/-- Whether the end of the build stays below the limit. -/
def endFits (build : Build) : Bool :=
  build.forced.isSome || (build.startTick < tickLimit && build.endTick < tickLimit)

end Build

/-! ## Jobs -/

/-- How the builds of a job behave. -/
structure JobPlan where
  name : String
  queueTicks : Nat := 0
  execTicks : Nat := 1
  /-- So many builds end with `failResult` before the others end with `finalResult`. -/
  maxFails : Nat := 0
  failResult : BuildResult := .failure
  finalResult : BuildResult := .success
  /-- Someone else has started a build that keeps running. -/
  runningElsewhere : Bool := false
  /-- The job does not exist until it is created. -/
  missing : Bool := false
  /-- A job that exists once a build of this one has ended. -/
  creates : Option String := none
  deriving DecidableEq, Repr

structure Job where
  plan : JobPlan
  present : Bool
  builds : List Build
  /-- The requests of all builds, oldest first. -/
  requests : List InvokeRequest
  stopCalls : Nat
  stopAllCalls : Nat
  lookups : Nat

namespace Job

/-- How long a build that someone else started keeps running. -/
def elsewhereTicks : Nat := 1000000

def foreignBuild : Build :=
  { number := 1, enqueuedAt := 0, queueTicks := 0, execTicks := elsewhereTicks,
    planned := .success, forced := none, byFlow := false, description := "" }

def ofPlan (plan : JobPlan) : Job :=
  { plan
    present := !plan.missing
    builds := if plan.runningElsewhere then [foreignBuild] else []
    requests := []
    stopCalls := 0
    stopAllCalls := 0
    lookups := 0 }

/-- The builds that a flow started, oldest first. -/
def flowBuilds (job : Job) : List Build := job.builds.filter Build.byFlow

def progress (job : Job) (tick : Nat) : Progress :=
  if job.builds.any fun build => build.progress tick = .running then .running
  else if job.builds.any fun build => build.progress tick = .queued then .queued
  else .idle

def status (job : Job) (tick : Nat) : JobStatus :=
  { result := (job.builds.getLast?.map fun build => build.result tick).getD .unknown
    progress := job.progress tick
    lastBuild := job.builds.getLast?.map Build.number }

/-- Takes builds of earlier requests from the queue. -/
def supersede (job : Job) (tick : Nat) : Job :=
  { job with builds := job.builds.map fun build =>
      if build.byFlow && build.progress tick = .queued then build.force .superseded tick
      else build }

/-- The result planned for the next build. -/
def nextResult (job : Job) : BuildResult :=
  if job.flowBuilds.length < job.plan.maxFails then job.plan.failResult else job.plan.finalResult

def nextBuild (job : Job) (tick : Nat) (request : InvokeRequest) : Build :=
  { number := (job.builds.getLast?.map fun build => build.number + 1).getD 1
    enqueuedAt := tick
    queueTicks := job.plan.queueTicks
    execTicks := job.plan.execTicks
    planned := job.nextResult
    forced := none
    byFlow := true
    description := request.description.getD "" }

/-- A new build replaces a queued one of an earlier request. -/
def invoke (job : Job) (tick : Nat) (request : InvokeRequest) : Job :=
  let job := job.supersede tick
  { job with
    builds := job.builds ++ [job.nextBuild tick request]
    requests := job.requests ++ [request] }

def stopAll (job : Job) (tick : Nat) : Job :=
  { job with
    builds := job.builds.map fun build => build.stop tick true
    stopAllCalls := job.stopAllCalls + 1 }

/-- Whether a build that a flow started has ended. -/
def hasEnded (job : Job) (tick : Nat) : Bool :=
  -- A build that was stopped counts as well.
  job.flowBuilds.any fun build => (build.finishedAt tick).isSome

/-- Whether the status of every build can be told at a tick. -/
def statusFits (job : Job) (tick : Nat) : Bool :=
  job.builds.all fun build => build.statusFits tick

def flowStatusFits (job : Job) (tick : Nat) : Bool :=
  job.flowBuilds.all fun build => build.statusFits tick

/-- Whether the builds up to the first that has ended have ends below the limit. -/
def endsFit (job : Job) (tick : Nat) : Bool :=
  (job.flowBuilds.takeWhile fun build => (build.finishedAt tick).isNone).all Build.endFits

end Job

end BuildFlow
