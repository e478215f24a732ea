import BuildFlow.KillSwitch
import BuildFlow.Runner.Table
import BuildFlow.Time.Calendar
/-!
Everything outside of a flow tree that a run works against: the runner, the
kill switch, the clock, the place of the graph file, and a record of what
happened. A script can make calls fail and let things happen at given ticks.
-/
namespace BuildFlow

/-- An action on a state. What it changed stays changed when it ends early. -/
abbrev Act (σ α : Type) := ExceptT Halt (StateM σ) α

/-! ## The record of a run -/

inductive Level where
  | debug
  | info
  | warn
  deriving DecidableEq, Repr

def Level.name : Level → String
  | debug => "DEBUG"
  | info => "INFO"
  | warn => "WARN"

inductive Event where
  | run (index : Nat)
  | poll
  | tick (tick : Nat) (clock : Instant)
  | queuePoll
  | getJob (name : String) (found : Bool)
  | invoke (name : String) (request : InvokeRequest)
  | stop (url : String) (dequeue : Bool)
  | stopAll (name : String)
  | graphFile (content : Option String)
  | log (level : Level) (message : String) (fields : List (String × Json))

/-! ## Scripts -/

/-- What is asked of a runner. -/
inductive Call where
  | poll
  | quickPoll
  | queuePoll
  | getJob
  | jobStatus
  | jobPoll
  | invoke
  | status
  | stop
  | stopAll
  | consoleUrl
  deriving DecidableEq, Repr

inductive Fault.Effect where
  | fails (error : RunnerError)
  /-- The call is answered but does nothing. -/
  | ignored
  deriving DecidableEq, Repr

/-- A call that goes wrong from one tick to another. -/
structure Fault where
  call : Call
  /-- The only job that is affected. -/
  job : Option String
  first : Nat
  last : Option Nat
  effect : Fault.Effect
  deriving DecidableEq, Repr

def Fault.affects (fault : Fault) (call : Call) (job : Option String) (tick : Nat) : Bool :=
  fault.call = call && (fault.job.isNone || fault.job = job) &&
    fault.first ≤ tick && (fault.last.all fun last => tick ≤ last)

/-- What can happen to a host while a run goes on. -/
inductive Action where
  | add (plan : JobPlan)
  | create (job : String)
  | delete (job : String)
  | kill (kind : KillKind) (reason : String)
  /-- The clock is set forward or back. -/
  | shiftClock (micros : Int)
  | terminate
  /-- A plain file takes the place of the graph directory. -/
  | blockGraph
  deriving DecidableEq, Repr

/-- A kill that follows the invocation of a job. -/
structure InvokeTrap where
  job : String
  kind : KillKind
  reason : String
  deriving DecidableEq, Repr

structure Script where
  /-- Actions with the ticks at which they happen. -/
  actions : List (Nat × Action) := []
  faults : List Fault := []
  traps : List InvokeTrap := []
  /-- No more ticks than these are answered. -/
  maxTicks : Nat := 100

/-! ## The place of the graph file -/

inductive GraphPlace where
  | usable
  /-- A plain file stands where the directory should be. -/
  | replaced
  /-- A plain file stands above the directory. -/
  | unreachable
  deriving DecidableEq, Repr

structure GraphStore where
  place : GraphPlace
  content : Option String
  /-- The content that was last put on record. -/
  reported : Option String
  deriving DecidableEq, Repr

/-- What became of termination signals: a listener waits for one, has one to
deliver, or is gone. -/
inductive Listener where
  | off
  | waiting
  | signalled
  deriving DecidableEq, Repr

/-- The jobs that were looked up once and for all, and those whose builds were
all stopped. -/
structure Roster where
  resolved : List String
  stopped : List String
  deriving DecidableEq, Repr

structure Host where
  runner : Runner
  kill : KillSwitch
  clock : Instant
  graph : GraphStore
  listener : Listener
  roster : Roster
  script : Script
  /-- What happened, newest first. -/
  trace : List Event

namespace Host

/-- A host on which nothing has happened yet. -/
def start (runner : Runner) (script : Script) (clock : Instant) (place : GraphPlace) : Host :=
  { runner, script, clock
    kill := .off
    graph := ⟨place, none, none⟩
    listener := .off
    roster := ⟨[], []⟩
    trace := [] }

/-! ## Actions on a host -/

def record (event : Event) : Act Host Unit :=
  modify fun host => { host with trace := event :: host.trace }

def log (level : Level) (message : String) (fields : List (String × Json)) : Act Host Unit :=
  record (.log level message fields)

/-- Asks for a kill. Only a request that raises the kind is put on record. -/
def requestKill (kind : KillKind) (reason : String) : Act Host Unit := do
  let host ← get
  if host.kill.raises kind then
    set { host with kill := host.kill.request kind reason }
    log .warn "Kill requested" [("kill_type", .text kind.name)]

def fail {α : Type} (error : FlowError) : Act Host α := throw (.error error)

def breakUnless (fits : Bool) (breakdown : Breakdown) : Act Host Unit :=
  unless fits do throw (.broken breakdown)

/-- Lets time pass. A termination signal that has come is delivered now. -/
def sleep (duration : Duration) : Act Host Unit := do
  let host ← get
  set { host with clock := host.clock.add duration.micros }
  if host.listener = .signalled then
    -- One signal is answered; whatever comes after it is not waited for.
    modify fun host => { host with listener := .off }
    log .warn "Received SIGTERM, killing builds started by this flow" []
    requestKill .current "SIGTERM"

/-- Puts the graph file on record if its content is not the one recorded last. -/
def lookAtGraph : Act Host Unit := do
  let host ← get
  if host.graph.content ≠ host.graph.reported then
    set { host with graph := { host.graph with reported := host.graph.content } }
    record (.graphFile host.graph.content)

def writeGraph (content : String) : Act Host Unit := do
  let host ← get
  match host.graph.place with
  | .usable => set { host with graph := { host.graph with content := some content } }
  | .replaced => fail (.file .exists)
  | .unreachable => fail (.file .notDirectory)

/-- Lets a scripted action happen. -/
def perform : Action → Act Host Unit
  | .add plan => modify fun host => { host with runner := host.runner.add plan }
  | .create job => modify fun host => { host with runner := host.runner.create job }
  | .delete job => modify fun host =>
      { host with runner := (host.runner.delete? job).getD host.runner }
  | .kill kind reason => requestKill kind reason
  | .shiftClock micros => modify fun host => { host with clock := host.clock.add micros }
  | .terminate => modify fun host =>
      if host.listener = .waiting then { host with listener := .signalled } else host
  | .blockGraph => modify fun host =>
      if host.graph.place = .usable then
        { host with graph := { host.graph with place := .replaced, content := none } }
      else host

end Host

end BuildFlow
