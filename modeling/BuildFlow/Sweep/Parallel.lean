import BuildFlow.Sweep.Group
/-!
A sweep over a parallel group. All children are visited, and one that fails is
tried again in its place while it has tries left. Failed children are kept by
their ids until they succeed. Once a child was aborted, the group itself has no
tries left.
-/
namespace BuildFlow.Branch

open NodeAct

def setFailed (f : Table Nat String → Table Nat String) : Step Unit :=
  setGroup fun group => group.setFailed (f group.failed)

def retryInPlace (child : Tree) (count : Nat) (scope : String) : String :=
  "RETRY: " ++ child.sequence ++ " failed but will be retried. Up to " ++ toString count ++
    " more times " ++ scope

/-- Starts a new attempt of one child. -/
def prepareChild (index : Nat) (child : Tree) (newScope : Bool) : Step Unit := do
  onHost (Host.breakUnless (child.canPrepare newScope) .tries)
  setChild index (child.prepare newScope)

/-- Answers the failure of a child. The answer is whether the child is tried
again in the current retry scope. -/
def answerInPlace (index : Nat) (child : Tree) (failure : JobFailure) : Step Bool := do
  let standing := child.standing
  let fields := [("child", Json.text child.sequence)]
  -- The name stays until a later visit of the child succeeds.
  setFailed fun failed => failed.insert standing.id child.sequence
  if failure.isAborted then
    log .warn ("ABORTED: " ++ child.sequence ++ " was aborted, it will not be retried") fields
    setChild index child.finish
    if standing.isUnchecked then pure ()
    else setGroup fun group => { group with aborted := true }
    return false
  else if 0 < standing.remainingTries then
    log .info (retryInPlace child standing.remainingTries "in current flow") fields
    prepareChild index child false
    return true
  else if 0 < standing.remainingTotalTries then
    log .info (retryInPlace child standing.remainingTotalTries "through outer flow") fields
    prepareChild index child true
    return false
  else
    setChild index child.finish
    return false

/-- Visits the children at some places and answers the least status they report. -/
def parallelPass (visit : Visit Tree) : List Nat → Checking → Step Checking
  | [], status => return status
  | index :: rest, status => do
      match (← node).children[index]? with
      | none => parallelPass visit rest status
      | some child =>
          if child.standing.isFinished then parallelPass visit rest status
          else
            let failure ← visitChild visit index child
            -- The visit has put a changed child in its place.
            let child := ((← node).children[index]?).getD child
            match failure with
            | none =>
                setFailed fun failed => failed.erase child.standing.id
                parallelPass visit rest (min status child.standing.propagatedChecking)
            | some failure =>
                if ← answerInPlace index child failure then
                  parallelPass visit rest .mustCheck
                else parallelPass visit rest status

/-- Takes the results of all children. -/
def settle (sweep : Sweep) : Step Unit := do
  let branch ← node
  let result := branch.aggregate branch.children.length
  setStanding fun standing => { standing with result }
  reportResult sweep
  if result.isFailure then
    fail (.failed (.parallel branch.sequence branch.group.failed.values
      branch.group.standing.propagation branch.group.aborted))
  else pure ()

def checkParallel (sweep : Sweep) (visit : Bool → Visit Tree) : Step Unit := do
  let report ← beginSweep sweep
  let status ← parallelPass (visit report) (List.range (← node).children.length) .finished
  setGroup fun group =>
    -- The group is exhausted only here, after all children were visited.
    let standing := if group.aborted then group.standing.exhaust else group.standing
    { group with standing := { standing with checking := status } }
  if isPending status (← node) then checkTimeout sweep else settle sweep

end BuildFlow.Branch
