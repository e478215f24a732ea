import BuildFlow.Host.Basic
/-!
The calls of a flow to its runner. Each is put on record, then meets the faults
of the script, and then reaches the job table. A call that the runner refuses
ends the action with a runner error, which `attempt` turns into an answer.
-/
namespace BuildFlow.Host

/-- Ends the action with what the runner says. -/
def refuse {α : Type} (error : RunnerError) : Act Host α := fail (.runner error)

/-- Takes a refusal of the runner as an answer. What the call changed stays. -/
def attempt {α : Type} (call : Act Host α) : Act Host (Except RunnerError α) :=
  tryCatch (call >>= fun value => pure (.ok value)) fun halt =>
    match halt with
    | .error (.runner error) => pure (.error error)
    | halt => throw halt

/-- What the script lets happen to a call now. -/
def effect? (host : Host) (call : Call) (job : Option String) : Option Fault.Effect :=
  (host.script.faults.find? fun fault => fault.affects call job host.runner.tick).map Fault.effect

/-- Fails if the script says so. Answers whether the call is to do nothing. -/
def meetFaults (call : Call) (job : Option String) : Act Host Bool := do
  match (← get).effect? call job with
  | some (.fails error) => refuse error
  | some .ignored => return true
  | none => return false

def setRunner (runner : Runner) : Act Host Unit :=
  modify fun host => { host with runner }

/-! ## The runner as a whole -/

def poll : Act Host Unit := do
  record .poll
  lookAtGraph
  discard <| meetFaults .poll none

/-- Lets a tick pass: builds go on, hooks fire, and the script acts. -/
def quickPoll : Act Host Unit := do
  lookAtGraph
  -- The ends of builds are looked at under the next tick, so their sums are judged first.
  breakUnless (← get).runner.endsFit .ticks
  let (runner, fired) := (← get).runner.advance
  setRunner runner
  fired.forM fun hook => requestKill hook.kind "kill requested by mock runner"
  ((← get).script.actions.filter fun action => action.1 = runner.tick).forM fun action =>
    perform action.2
  let host ← get
  -- A tick is on record before it can be refused, and after the actions that it brings.
  record (.tick runner.tick host.clock)
  if host.script.maxTicks < runner.tick then refuse (.request "tick limit")
  else discard <| meetFaults .quickPoll none

def queuePoll : Act Host Unit := do
  record .queuePoll
  discard <| meetFaults .queuePoll none

/-- Looks a job up by its name. -/
def getJob (name : String) : Act Host Unit := do
  match (← get).effect? .getJob name with
  | some (.fails error) =>
      record (.getJob name false)
      refuse error
  | _ =>
      let (found, runner) := (← get).runner.lookup name
      setRunner runner
      record (.getJob name found)
      if found then pure () else refuse (.unknownJob name)

/-! ## Jobs -/

/-- A job that exists. -/
def job (name : String) : Act Host Job := do
  match (← get).runner.job? name with
  | some job => return job
  | none => refuse (.unknownJob name)

def jobPoll (name : String) : Act Host Unit := do
  discard <| meetFaults .jobPoll name

def jobStatus (name : String) : Act Host JobStatus := do
  discard <| meetFaults .jobStatus name
  let job ← job name
  let tick := (← get).runner.tick
  breakUnless (job.statusFits tick) .ticks
  return job.status tick

/-- Starts a build. A request for a kill may follow it. -/
def invoke (name : String) (request : InvokeRequest) : Act Host BuildRef := do
  record (.invoke name request)
  discard <| meetFaults .invoke name
  let job ← job name
  breakUnless (job.flowStatusFits (← get).runner.tick) .ticks
  match (← get).runner.invoke? name request with
  | none => refuse (.unknownJob name)
  | some (ref, runner) =>
      setRunner runner
      -- The build has started by now: a kill that is requested here finds it.
      ((← get).script.traps.filter fun trap => trap.job = name).forM fun trap =>
        requestKill trap.kind trap.reason
      return ref

/-- Stops all builds of a job, whoever started them. -/
def stopAll (name : String) : Act Host Unit := do
  record (.stopAll name)
  if ← meetFaults .stopAll name then pure ()
  else
    let job ← job name
    let runner := (← get).runner
    breakUnless (job.statusFits runner.tick) .ticks
    setRunner (runner.setJob name (job.stopAll runner.tick))

/-! ## Builds -/

/-- A build with its job. The job has to exist and to hold the build still. -/
def build (ref : BuildRef) : Act Host (Job × Build) := do
  let job ← job ref.job
  match job.builds[ref.index]? with
  | some build => return (job, build)
  | none => throw (.broken .build)

def status (ref : BuildRef) : Act Host (BuildResult × Progress) := do
  discard <| meetFaults .status ref.job
  let (_, build) ← build ref
  let tick := (← get).runner.tick
  breakUnless (build.statusFits tick) .ticks
  return build.status tick

def stop (ref : BuildRef) (dequeue : Bool) : Act Host Unit := do
  record (.stop (Runner.consoleUrl ref) dequeue)
  if ← meetFaults .stop ref.job then pure ()
  else
    let (job, build) ← build ref
    let runner := (← get).runner
    breakUnless (build.statusFits runner.tick) .ticks
    setRunner (runner.stopBuild ref job build dequeue)

def describe (ref : BuildRef) (text : String) (replace : Bool) (separator : String) :
    Act Host Unit := do
  let (job, build) ← build ref
  setRunner ((← get).runner.describeBuild ref job build text replace separator)

/-- The console of a build, unless the script hides it. -/
def consoleUrl? (host : Host) (ref : BuildRef) : Option String :=
  match host.effect? .consoleUrl ref.job with
  | some (.fails _) => none
  | _ => some (Runner.consoleUrl ref)

/-! ## The roster -/

/-- Looks a job up once; later calls rely on the first answer. -/
def resolve (name : String) : Act Host Unit := do
  if name ∈ (← get).roster.resolved then pure ()
  else
    getJob name
    modify fun host =>
      { host with roster := { host.roster with resolved := host.roster.resolved ++ [name] } }

/-- Marks the builds of a job as all stopped; answers whether this is new. -/
def markStopped (name : String) : Act Host Bool := do
  let host ← get
  if name ∈ host.roster.stopped then return false
  else
    set { host with roster := { host.roster with stopped := host.roster.stopped ++ [name] } }
    return true

end BuildFlow.Host
