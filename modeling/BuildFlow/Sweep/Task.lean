import BuildFlow.Sweep.Focus
/-!
One invocation of a job: finding the job, starting a build, following it to its
end, and stopping it. A build of an unchecked invocation that an earlier
attempt left running is followed and not started anew.
-/
namespace BuildFlow.Task

open NodeAct

/-- An action on an invocation. -/
abbrev Step (α : Type) := NodeAct Task α

def setStanding (f : Standing → Standing) : Step Unit :=
  modifyNode fun task => { task with standing := f task.standing }

/-! ## Finding the job -/

def statusLine (task : Task) (progress : Progress) (build : Option Nat) : String :=
  task.shown ++ " Status " ++ progress.name ++ " - latest build: #" ++
    (build.map toString).getD "None"

/-- Looks at the job that was found, and keeps it. -/
def attach : Step JobStatus := do
  let task ← node
  onHost (Host.jobPoll task.name)
  let status ← onHost (Host.jobStatus task.name)
  setNode { task with resolved := true, oldBuild := status.lastBuild }
  return status

/-- A job that does not exist fails the invocation for good. -/
def failMissing {α : Type} : Step α := do
  let task ← node
  setStanding fun standing => { standing with checking := .finished, result := .failure }
  throw (.error (.failed (.missing task.name)))

def fail {α : Type} (error : FlowError) : Step α := throw (.error error)

/-- Looks the job up again if it was missing at the start. It has to exist now. -/
def require : Step Unit := do
  let task ← node
  if task.resolved then pure ()
  else
    match ← onHost (Host.attempt (Host.resolve task.name)) with
    | .ok () => discard attach
    | .error (.unknownJob _) => failMissing
    | .error error => fail (.runner error)

/-- Finds the job before the first sweep and prepares the first attempt. -/
def prepareFirst (sweep : Sweep) : Step Unit := do
  let task ← node
  let indentation := task.standing.indentation
  match ← onHost (Host.attempt (Host.resolve task.name)) with
  | .error (.unknownJob _) =>
      -- Without the job the attempt is prepared all the same, and `require` looks again.
      if task.allowMissing || sweep.killMode then
        log .info (indentation ++ task.shown ++ " - MISSING JOB") task.jobField
        onHost (Host.breakUnless (task.standing.canPrepare false) .tries)
        setStanding fun standing => standing.prepare false
      else failMissing
  | .error error => fail (.runner error)
  | .ok () =>
      onHost (Host.breakUnless (task.standing.canPrepare false) .tries)
      setStanding fun standing => standing.prepare false
      let status ← attach
      if sweep.settings.requireIdle && !sweep.killMode && !status.progress.isIdle then
        fail (.notIdle task.name status.progress)
      else
        log .info (indentation ++ task.statusLine status.progress status.lastBuild) task.jobField

/-! ## Running -/

/-- Stops here if a kill was requested. -/
def checkpoint : Step Unit := do
  match (← host).kill.checkpoint with
  | some reason => fail (.killed reason)
  | none => pure ()

def request (task : Task) (settings : Settings) : InvokeRequest :=
  { securityToken := task.securityToken
    params := task.params
    cause := some settings.cause
    description := settings.description }

def startBuild (sweep : Sweep) : Step Unit := do
  let task ← node
  onHost (task.standing.announce "Job" task.shown)
  let ref ← onHost (Host.invoke task.name (task.request sweep.settings))
  match (← host).consoleUrl? ref with
  | some url => log .debug "Invoked" (task.jobField ++ [("console_url", .text url)])
  | none => pure ()
  -- The reference is kept last: up to here the invocation still holds its former build.
  setNode { task with build := some ref }

/-- Starts a build, unless the invocation is unchecked and its job is busy. -/
def invoke (sweep : Sweep) : Step Unit := do
  let task ← node
  if task.isUnchecked then
    let status ← onHost (Host.jobStatus task.name)
    if status.progress.isIdle then startBuild sweep
    else log .debug "Unchecked job still running, not invoking again" task.jobField
  else startBuild sweep

/-- What is known of the build that is followed, or of the job if there is none. -/
def observe : Step (BuildResult × Progress) := do
  let task ← node
  match task.build with
  | some ref => onHost (Host.status ref)
  | none =>
      let status ← onHost (Host.jobStatus task.name)
      return (status.result, status.progress)

/-- Takes the result of a build that has ended. -/
def conclude (sweep : Sweep) (result : BuildResult) : Step Unit := do
  -- The result is kept before a failure is raised, since the parent reads it there.
  setStanding fun standing => { standing with checking := .finished, result }
  let task ← node
  log .info (task.shown ++ " stopped running") task.jobField
  log .info
    ((if task.isUnchecked then "UNCHECKED " else "") ++ result.name ++ ": '" ++ task.name ++
      "' - build: " ++ (task.consoleUrl? (← host)).getD "" ++ " " ++
      task.standing.elapsed sweep.now sweep.start)
    (task.jobField ++ [("result", .text result.name)])
  if result.isFailure then
    fail (.failed (.job task.name result task.standing.propagation))
  else pure ()

/-- One step of following the invocation. -/
def check (sweep : Sweep) (report : Bool) : Step Unit := do
  require
  if (← node).standing.isInvoked then pure ()
  else
    checkpoint
    setStanding fun standing => { standing with invokedAt := sweep.now }
    invoke sweep
  let task ← node
  onHost (Host.jobPoll task.name)
  let (result, progress) ← observe
  if !progress.isIdle || result = .unknown then
    if report then
      log .info (task.statusLine progress task.oldBuild)
        (task.jobField ++ [("progress", .text progress.name)])
    else pure ()
  else conclude sweep result

/-! ## Stopping -/

/-- Takes the result of a build that ended by a kill. -/
def concludeKilled (result : BuildResult) : Step Unit := do
  setStanding fun standing => { standing with checking := .finished, result }
  let task ← node
  log .info (task.shown ++ " stopped running") task.jobField
  log .info (result.name ++ ": '" ++ task.name ++ "'")
    (task.jobField ++ [("result", .text result.name)])

/-- Stops all builds of the job, once for each name. -/
def stopAll : Step Unit := do
  let task ← node
  if task.resolved then
    if ← onHost (Host.markStopped task.name) then
      log .info ("Killing all running builds for: '" ++ task.name ++ "'") task.jobField
      onHost (Host.stopAll task.name)
    else pure ()
  else pure ()

def finish : Step Unit := setStanding fun standing => { standing with checking := .finished }

/-- Waits until the job is idle. -/
def awaitIdle : Step Unit := do
  let task ← node
  onHost (Host.jobPoll task.name)
  let status ← onHost (Host.jobStatus task.name)
  if status.progress.isIdle then concludeKilled status.result else pure ()

/-- Stops a build of this run, with one request in all. -/
def stopBuild (ref : BuildRef) (dequeue : Bool) : Step Unit := do
  let task ← node
  let (result, progress) ← onHost (Host.status ref)
  if progress.isIdle then concludeKilled result
  else if task.stopSent then pure ()
  else
    log .info ("Stopping " ++ task.shown) (task.jobField ++ [("progress", .text progress.name)])
    onHost (Host.stop ref (dequeue && progress = .queued))
    modifyNode fun task => { task with stopSent := true }

/-- One step of stopping. Without a build of the current attempt there is
nothing to wait for, except that a kill of all builds waits for the job. -/
def kill (dequeue : Bool) : Step Unit := do
  let all := (← host).kill.kind = .all
  -- A kill of all builds also reaches the job of an invocation that has finished.
  if all then stopAll else pure ()
  let task ← node
  if task.standing.isFinished then pure ()
  else if !task.resolved then finish
  else if all then awaitIdle
  else
    match task.build, task.standing.isInvoked with
    | some ref, true => stopBuild ref dequeue
    | _, _ => finish

end BuildFlow.Task
