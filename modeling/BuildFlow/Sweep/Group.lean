import BuildFlow.Sweep.Task
/-!
What serial and parallel groups share: starting the attempt, deciding when to
report, the timeout, and the result that the children add up to.
-/
namespace BuildFlow

/-- A group with its children. -/
abbrev Branch := Group × List Tree

namespace Branch

open NodeAct

/-- An action on a group with its children. -/
abbrev Step (α : Type) := NodeAct Branch α

def sequence (branch : Branch) : String := (Tree.branch branch.1 branch.2).sequence

def group (branch : Branch) : Group := branch.1
def children (branch : Branch) : List Tree := branch.2

def setGroup (f : Group → Group) : Step Unit :=
  modifyNode fun branch => (f branch.1, branch.2)

def setStanding (f : Standing → Standing) : Step Unit :=
  setGroup fun group => { group with standing := f group.standing }

def setChild (index : Nat) (child : Tree) : Step Unit :=
  modifyNode fun branch => (branch.1, branch.2.set index child)

def fail {α : Type} (error : FlowError) : Step α := throw (.error error)

/-- Visits a child. A failure that may be retried is an answer. -/
def visitChild (visit : Visit Tree) (index : Nat) (child : Tree) : Step (Option JobFailure) := do
  let (group, children) ← node
  failure? (onPart visit child fun child => (group, children.set index child))

/-! ## Starting and reporting -/

/-- Starts the attempt when the group is first reached, and answers whether
children report now. -/
def beginSweep (sweep : Sweep) : Step Bool := do
  let branch ← node
  if branch.group.standing.isInvoked then pure ()
  else
    setStanding fun standing => { standing with invokedAt := sweep.now }
    -- The counts shown are those of the attempt that starts.
    onHost ({ branch.group.standing with invokedAt := sweep.now }.announce "Flow" branch.sequence)
  let report := branch.group.reportInterval ≤ sweep.now.secondsSince branch.group.lastReport
  if report then
    setGroup fun group => { group with lastReport := sweep.now }
    return true
  else return false

def reportResult (sweep : Sweep) : Step Unit := do
  let branch ← node
  let standing := branch.group.standing
  log .info
    ("Flow " ++ (if standing.isUnchecked then "UNCHECKED " else "") ++ standing.result.name ++
      " " ++ branch.sequence ++ " " ++ standing.elapsed sweep.now sweep.start)
    [("node_id", .nat standing.id), ("result", .text standing.result.name)]

/-! ## Timeout -/

/-- Whether the current attempt has run for longer than the group may run. -/
def isOverdue (group : Group) (now : Instant) : Bool :=
  0 < group.timeout && group.timeout < now.secondsSince group.standing.invokedAt

/-- The children that checked work is still going on below. -/
def unfinished (branch : Branch) : List String :=
  (branch.children.filter fun child => child.checking = .mustCheck).map Tree.sequence

def checkTimeout (sweep : Sweep) : Step Unit := do
  let branch ← node
  let standing := branch.group.standing
  if isOverdue branch.group sweep.now then
    fail (.timeout branch.sequence (standing.elapsed sweep.now sweep.start)
      (unfinished branch) standing.propagation)
  else pure ()

/-! ## Results -/

/-- The least result of the first children as the group sees them, and of the
group itself. -/
def aggregate (branch : Branch) (count : Nat) : BuildResult :=
  ((branch.children.take count).map fun child => child.standing.propagatedResult).foldl min
    branch.group.standing.result

/-- The first of the children with the least result. -/
def worstOf : List Tree → Option Tree
  | [] => none
  | child :: rest =>
      match worstOf rest with
      | none => some child
      | some other =>
          if child.standing.propagatedResult ≤ other.standing.propagatedResult then some child
          else some other

def worstChild (branch : Branch) (count : Nat) : Option Tree := worstOf (branch.children.take count)

/-- Whether the group waits for checked work or already has a result. -/
def isPending (status : Checking) (branch : Branch) : Bool :=
  status = .mustCheck || branch.group.standing.result ≠ .unknown

end Branch

end BuildFlow
