import BuildFlow.Status
import BuildFlow.Text.Quoted
import BuildFlow.Decimal.Style
/-!
What can go wrong. A failed job is told to the enclosing group, which may retry
it; every other error ends the run. Errors are causes, and their wording is
given here once.
-/
namespace BuildFlow

/-- A failure that the enclosing group may answer with a retry. -/
inductive JobFailure where
  | job (name : String) (result : BuildResult) (propagation : Propagation)
  | serial (flow child : String) (propagation : Propagation) (aborted : Bool)
  | parallel (flow : String) (children : List String) (propagation : Propagation) (aborted : Bool)
  | missing (name : String)
  deriving DecidableEq, Repr

namespace JobFailure

/-- How the node that failed reports to its parent. -/
def propagation : JobFailure → Propagation
  | job _ _ propagation | serial _ _ propagation _ | parallel _ _ propagation _ => propagation
  | missing _ => .normal

/-- Whether an aborted build is behind the failure; then no level retries it. -/
def isAborted : JobFailure → Bool
  | job _ result _ => result = .aborted
  | serial _ _ _ aborted | parallel _ _ _ aborted => aborted
  | missing _ => false

def failedChildren : JobFailure → List String
  | parallel _ children _ _ => children
  | _ => []

def message : JobFailure → String
  | job name result propagation =>
      "Failed job: '" ++ name ++ "', result: " ++ result.name ++ ", propagation: " ++
        propagation.name ++ "."
  | serial flow child propagation _ =>
      "Failed child job in: " ++ flow ++ ", child job: " ++ child ++ ", propagation: " ++
        propagation.name ++ "."
  | parallel flow children propagation _ =>
      "Failed child jobs in: " ++ flow ++ ", child jobs: " ++ Text.quoteList children ++
        ", propagation: " ++ propagation.name ++ "."
  | missing name => "Missing job: '" ++ name ++ "'"

end JobFailure

/-- What a runner answers when it cannot do what it was asked for. -/
inductive RunnerError where
  | unknownJob (name : String)
  | request (reason : String)
  deriving DecidableEq, Repr

namespace RunnerError

def isUnknownJob : RunnerError → Bool
  | unknownJob _ => true
  | request _ => false

def message : RunnerError → String
  | unknownJob name => "Unknown job: '" ++ name ++ "'"
  | request reason => "Job runner request failed: " ++ reason

end RunnerError

/-- A value that a configuration may not have. -/
inductive ConfigFault where
  | interval (field : String) (value : Float)
  | pattern
  | tries (given total : Nat)
  | other (reason : String)

def ConfigFault.message : ConfigFault → String
  | interval field value => field ++ " must be positive, got " ++ Decimal.Style.plain.write value
  | pattern => "the pattern of secret parameters cannot be read"
  | tries given total =>
      "max_tries " ++ toString given ++ " nested under " ++ toString total ++
        " total tries overflows"
  | other reason => reason

/-- Why a file could not be written or found. -/
inductive FileFault where
  | notFound
  | exists
  | notDirectory
  deriving DecidableEq, Repr

def FileFault.message : FileFault → String
  | notFound => "No such file or directory (os error 2)"
  | «exists» => "File exists (os error 17)"
  | notDirectory => "Not a directory (os error 20)"

inductive FlowError where
  /-- A group was used outside of its scope. -/
  | scope (reason : String) (level current : Int)
  | notIdle (job : String) (progress : Progress)
  | messageTwice (existing added : String)
  | failed (failure : JobFailure)
  | timeout (flow elapsed : String) (unfinished : List String) (propagation : Propagation)
  | finalResult (result : BuildResult)
  | killed (reason : String)
  | runner (error : RunnerError)
  | config (fault : ConfigFault)
  /-- A document that cannot be read as what it should be. -/
  | document
  | file (fault : FileFault)

namespace FlowError

def isRetryable : FlowError → Bool
  | failed _ => true
  | _ => false

def propagation : FlowError → Propagation
  | failed failure => failure.propagation
  | timeout _ _ _ propagation => propagation
  | _ => .normal

def message : FlowError → String
  | scope reason _ _ => reason
  | notIdle job progress =>
      "job: '" ++ job ++ "' is in state " ++ progress.name ++ ". It must be IDLE."
  | messageTwice existing added =>
      "Existing message: '" ++ existing ++ "', new message: '" ++ added ++ "'"
  | failed failure => failure.message
  | timeout flow elapsed unfinished _ =>
      "Timeout " ++ elapsed ++ ", in flow " ++ flow ++ ". Unfinished jobs: " ++
        Text.quoteList unfinished
  | finalResult result => "Flow Unsuccessful: " ++ result.name
  | killed reason => "Flow killed: " ++ reason
  | runner error => error.message
  | config fault => "Invalid configuration: " ++ fault.message
  | document => "Serialization error"
  | file fault => "IO error: " ++ fault.message

end FlowError

/-- A step that has no outcome at all: the flow cannot go on. -/
inductive Breakdown where
  /-- A count of tries left its 32 bits. -/
  | tries
  /-- A sum of ticks left its 64 bits. -/
  | ticks
  /-- A build is asked for that its job no longer has. -/
  | build
  /-- An interval is no length of time. -/
  | interval
  deriving DecidableEq, Repr

/-- Why an action ended early. -/
inductive Halt where
  | error (error : FlowError)
  | broken (breakdown : Breakdown)

end BuildFlow
