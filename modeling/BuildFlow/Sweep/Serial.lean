import BuildFlow.Sweep.Group
/-!
A sweep over a serial group. The children up to the cursor are visited, since
unchecked ones before it may still run. When a child fails, the group starts
over with its first child while the child has tries left, in its own retry
scope or in an outer one; without tries the cursor leaves the group and no
later child is started.
-/
namespace BuildFlow.Branch

open NodeAct

/-- How many children a sweep visits. -/
def reach (branch : Branch) : Nat := min (branch.group.cursor + 1) branch.children.length

/-- Starts over with the first child. -/
def restart (newScope : Bool) : Step Unit := do
  let branch ← node
  let reached := branch.reach
  -- All children up to the cursor are tried together, so the counts of each have to fit.
  onHost (Host.breakUnless
    ((branch.children.take reached).all fun child => child.canPrepare newScope) .tries)
  setNode (branch.group.setCursor 0,
    (branch.children.take reached).map (Tree.prepare newScope) ++ branch.children.drop reached)

/-- Moves the cursor behind the last child. -/
def leave : Step Unit :=
  modifyNode fun branch => (branch.1.setCursor branch.2.length, branch.2)

def markAborted : Step Unit :=
  setGroup fun group => { group with aborted := true, standing := group.standing.exhaust }

def mayRetry (child : Tree) (count : Nat) (scope : String) : String :=
  "MAY RETRY: " ++ child.sequence ++ " " ++ child.standing.propagation.name ++
    " failed, will only retry if checked failures. Up to " ++ toString count ++ " more times " ++
    scope

def willRetry (child : Tree) (count : Nat) (scope : String) : String :=
  "RETRY: " ++ child.sequence ++
    " failed, retrying child jobs from beginning. Up to " ++ toString count ++ " more times " ++
    scope

def inCurrentFlow : String := "in current flow"
def throughOuterFlow : String := "through outer flow"

/-- Answers the failure of a child. The answer is whether the group starts over
in the current retry scope. A child that does not report failures as such
cannot make the group start over, and an unchecked one cannot end it. -/
def answerFailure (index : Nat) (child : Tree) (failure : JobFailure) : Step Bool := do
  let standing := child.standing
  let fields := [("child", Json.text child.sequence)]
  if failure.isAborted then
    log .warn ("ABORTED: " ++ child.sequence ++ " was aborted, it will not be retried") fields
    setChild index child.finish
    -- Otherwise the group is aborted with it, and no level may start it over.
    if standing.isUnchecked then pure ()
    else
      markAborted
      leave
    return false
  else if 0 < standing.remainingTries then
    if standing.propagation ≠ .normal then
      log .info (mayRetry child standing.remainingTries inCurrentFlow) fields
      return false
    else
      log .info (willRetry child standing.remainingTries inCurrentFlow) fields
      restart false
      return true
  -- The scope is used up. What goes on from here belongs to a retry of an outer group.
  else if 0 < standing.remainingTotalTries then
    if standing.propagation ≠ .normal then
      log .info (mayRetry child standing.remainingTotalTries throughOuterFlow) fields
      return false
    else
      log .info (willRetry child standing.remainingTotalTries throughOuterFlow) fields
      restart true
      return false
  else
    setChild index child.finish
    if standing.isUnchecked then pure () else leave
    return false

/-- Visits the children at some places and answers the least status they report. -/
def serialPass (visit : Visit Tree) : List Nat → Checking → Step Checking
  | [], status => return status
  | index :: rest, status => do
      match (← node).children[index]? with
      | none => serialPass visit rest status
      | some child =>
          if child.standing.isFinished then serialPass visit rest status
          else
            let failure ← visitChild visit index child
            -- The visit has put a changed child in its place.
            let child := ((← node).children[index]?).getD child
            match failure with
            | none =>
                serialPass visit rest (min status child.standing.propagatedChecking)
            | some failure =>
                if ← answerFailure index child failure then
                  serialPass visit rest .mustCheck
                else serialPass visit rest status

/-- Takes the results of the children up to the cursor. A failure is told to
the parent; otherwise the cursor moves on. -/
def advance (sweep : Sweep) : Step Unit := do
  let branch ← node
  let result := branch.aggregate branch.reach
  setStanding fun standing => { standing with result }
  if result.isFailure then
    reportResult sweep
    let child := ((branch.worstChild branch.reach).map Tree.sequence).getD ""
    fail (.failed (.serial branch.sequence child branch.group.standing.propagation
      branch.group.aborted))
  else
    let cursor := branch.group.cursor + 1
    setGroup fun group => group.setCursor cursor
    if cursor < branch.children.length then
      -- The next child has not been visited, so there is no result yet.
      setStanding fun standing => { standing with checking := .mustCheck, result := .unknown }
    else reportResult sweep

def checkSerial (sweep : Sweep) (visit : Bool → Visit Tree) : Step Unit := do
  let report ← beginSweep sweep
  let status ← serialPass (visit report) (List.range (← node).reach) .finished
  setStanding fun standing => { standing with checking := status }
  if isPending status (← node) then checkTimeout sweep else advance sweep

end BuildFlow.Branch
