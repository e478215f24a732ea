import BuildFlow.Host.Basic
/-!
What every node of a flow keeps: who it is, how often it may be tried and was
tried, and how it stands. A parent sees the result and the status of a node
through its propagation.
-/
namespace BuildFlow

/-- Counts of tries stay below this bound, which is 2 ^ 32. -/
def triesBound : Nat := 4294967296

structure Standing where
  /-- Given out in the order of declaration; the root has 0. -/
  id : Nat
  /-- The depth in the tree. -/
  level : Nat
  /-- Tries that the enclosing retry scope allows. -/
  maxTries : Nat
  /-- Tries that all enclosing retry scopes allow together. -/
  totalMaxTries : Nat
  tried : Nat
  totalTried : Nat
  propagation : Propagation
  checking : Checking
  result : BuildResult
  /-- The start of the current attempt. -/
  invokedAt : Instant
  /-- Shown before the node is invoked. -/
  message : Option String
  deriving DecidableEq, Repr

namespace Standing

def fresh (id level maxTries totalMaxTries : Nat) (propagation : Propagation) : Standing :=
  { id, level, maxTries, totalMaxTries, propagation
    tried := 0
    totalTried := 0
    checking := .mustCheck
    result := .unknown
    invokedAt := .none
    message := none }

def isUnchecked (standing : Standing) : Bool := standing.propagation = .unchecked
def isFinished (standing : Standing) : Bool := standing.checking = .finished
def isInvoked (standing : Standing) : Bool := standing.invokedAt.isSet

/-- The result as the parent sees it. -/
def propagatedResult (standing : Standing) : BuildResult :=
  if standing.result = .success ∨ standing.result = .superseded ∨
      standing.propagation = .unchecked then .success
  else if standing.result = .unstable ∨ standing.propagation = .failureToUnstable then .unstable
  else .failure

/-- The status as the parent sees it: unchecked work is never waited for. -/
def propagatedChecking (standing : Standing) : Checking :=
  if standing.isUnchecked then max standing.checking .hasUnchecked else standing.checking

/-! ## Tries -/

def remainingTries (standing : Standing) : Nat := standing.maxTries - standing.tried
def remainingTotalTries (standing : Standing) : Nat :=
  standing.totalMaxTries - standing.totalTried

/-- Starts a new attempt. A new retry scope counts its tries from one. -/
def prepare (standing : Standing) (newScope : Bool) : Standing :=
  { standing with
    checking := if standing.isUnchecked then .hasUnchecked else .mustCheck
    result := .unknown
    tried := if newScope then 1 else standing.tried + 1
    totalTried := standing.totalTried + 1
    invokedAt := .none }

/-- Whether the counts of a new attempt stay below the bound. -/
def canPrepare (standing : Standing) (newScope : Bool) : Bool :=
  (newScope || standing.tried + 1 < triesBound) && standing.totalTried + 1 < triesBound

/-- Uses up all tries, so that no level retries the node. -/
def exhaust (standing : Standing) : Standing :=
  { standing with tried := standing.maxTries, totalTried := standing.totalMaxTries }

/-! ## Texts -/

def indentation (standing : Standing) : String :=
  String.ofList (List.replicate (3 * standing.level) ' ')

def elapsed (standing : Standing) (now start : Instant) : String :=
  elapsedMessage now.seconds standing.invokedAt.seconds start.seconds

/-- Tells that an attempt starts, after the message of the node. -/
def announce (standing : Standing) (kind shown : String) : Act Host Unit := do
  let fields := [("node_id", Json.nat standing.id)]
  if let some message := standing.message then Host.log .info message fields
  Host.log .info
    ("Invoking " ++ kind ++ " (" ++ toString standing.tried ++ "/" ++
      toString standing.maxTries ++ "," ++ toString standing.totalTried ++ "/" ++
      toString standing.totalMaxTries ++ "): " ++ shown) fields

open Text.Inspect in
def inspect (standing : Standing) : Text.Inspect :=
  .record "NodeState" [
    ("node_id", nat standing.id),
    ("nesting_level", nat standing.level),
    ("max_tries", nat standing.maxTries),
    ("total_max_tries", nat standing.totalMaxTries),
    ("tried_times", nat standing.tried),
    ("total_tried_times", nat standing.totalTried),
    ("propagation", word standing.propagation.label),
    ("checking_status", word standing.checking.label),
    ("result", word standing.result.label),
    ("invocation_time", word (Decimal.Style.inspect.write standing.invokedAt.seconds)),
    ("message", optionText standing.message)] true

end Standing

end BuildFlow
