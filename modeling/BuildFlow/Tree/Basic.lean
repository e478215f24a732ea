import BuildFlow.Host.Calls
import BuildFlow.Tree.Standing
/-!
The tree of a flow. Leaves are invocations of jobs; a serial group runs its
children one after the other, a parallel group all at once. What depends on the
discipline of a group is kept with the discipline.
-/
namespace BuildFlow

/-- One invocation of one job. -/
structure Task where
  standing : Standing
  /-- The full name of the job, with all prefixes. -/
  name : String
  params : Params
  securityToken : Option String
  allowMissing : Bool
  /-- The names of parameters that are not shown. -/
  secret : Pattern
  /-- Counts the invocations of the same job in a flow, from one on. -/
  number : Nat
  /-- Whether the job was found on the runner. -/
  resolved : Bool
  /-- The latest build that was started here. -/
  build : Option BuildRef
  /-- The latest build that the job had when it was found. -/
  oldBuild : Option Nat
  /-- Whether a stop was sent in the current kill. -/
  stopSent : Bool

namespace Task

def isUnchecked (task : Task) : Bool := task.standing.isUnchecked

/-- The job in messages. -/
def shown (task : Task) : String :=
  (if task.isUnchecked then "unchecked " else "") ++ "job: '" ++ task.name ++ "'"

def shownParams (task : Task) : Params := task.params.mask task.secret

def jobField (task : Task) : List (String × Json) := [("job", .text task.name)]

def jobUrl? (task : Task) : Option String :=
  if task.resolved then some (Runner.jobUrl task.name) else none

def consoleUrl? (task : Task) (host : Host) : Option String :=
  task.build.bind host.consoleUrl?

/-- Starts a new attempt. -/
def prepare (task : Task) (newScope : Bool) : Task :=
  { task with standing := task.standing.prepare newScope, stopSent := false }

end Task

/-- How a group runs its children. -/
inductive Discipline where
  /-- One after the other; the cursor is the place of the child at work. -/
  | serial (cursor : Nat)
  /-- All at once, with the names of failed children by their ids. -/
  | parallel (failed : Table Nat String)

structure Group where
  standing : Standing
  /-- Seconds that the group may run; none if not positive. -/
  timeout : Float
  reportInterval : Float
  lastReport : Instant
  /-- What job names in the group begin with. -/
  jobPrefix : String
  /-- Whether an aborted build made a child fail. -/
  aborted : Bool
  discipline : Discipline

namespace Group

def isSerial (group : Group) : Bool :=
  match group.discipline with
  | .serial _ => true
  | .parallel _ => false

/-- What stands before and after the children. -/
def brackets (group : Group) : String × String :=
  if group.isSerial then ("[", "]") else ("(", ")")

/-- The line that opens the group in a report. -/
def opening (group : Group) : String :=
  if group.isSerial then "serial flow: [" else "parallel flow: ("

/-- The place of the child at work in a serial group. -/
def cursor (group : Group) : Nat :=
  match group.discipline with
  | .serial cursor => cursor
  | .parallel _ => 0

def setCursor (group : Group) (cursor : Nat) : Group :=
  match group.discipline with
  | .serial _ => { group with discipline := .serial cursor }
  | .parallel _ => group

/-- The failed children of a parallel group. -/
def failed (group : Group) : Table Nat String :=
  match group.discipline with
  | .serial _ => ∅
  | .parallel failed => failed

def setFailed (group : Group) (failed : Table Nat String) : Group :=
  match group.discipline with
  | .serial _ => group
  | .parallel _ => { group with discipline := .parallel failed }

/-- Starts a new attempt. A serial group begins with its first child. -/
def prepare (group : Group) (newScope : Bool) : Group :=
  { group.setCursor 0 with standing := group.standing.prepare newScope }

end Group

inductive Tree where
  | task (task : Task)
  | branch (group : Group) (children : List Tree)

namespace Tree

def standing : Tree → Standing
  | task leaf => leaf.standing
  | branch group _ => group.standing

def setStanding (tree : Tree) (standing : Standing) : Tree :=
  match tree with
  | task leaf => task { leaf with standing }
  | branch group children => branch { group with standing } children

def checking (tree : Tree) : Checking := tree.standing.checking
def result (tree : Tree) : BuildResult := tree.standing.result

def children : Tree → List Tree
  | task _ => []
  | branch _ children => children

/-- Marks the node as having nothing left to observe. -/
def finish (tree : Tree) : Tree :=
  tree.setStanding { tree.standing with checking := .finished }

/-- Starts a new attempt of the node; what lies below is left as it is. -/
def prepare (newScope : Bool) : Tree → Tree
  | task leaf => task (leaf.prepare newScope)
  | branch group children => branch (group.prepare newScope) children

def canPrepare (newScope : Bool) (tree : Tree) : Bool := tree.standing.canPrepare newScope

/-! ## Views of a tree -/

mutual

/-- The number of levels of groups. -/
def height : Tree → Nat
  | task _ => 0
  | branch _ children => heightOf children + 1

def heightOf : List Tree → Nat
  | [] => 0
  | child :: rest => max child.height (heightOf rest)

end

mutual

/-- The names of jobs in the brackets of their groups. -/
def sequence : Tree → String
  | task leaf => leaf.name
  | branch group children =>
      group.brackets.1 ++ String.intercalate ", " (sequences children) ++ group.brackets.2

def sequences : List Tree → List String
  | [] => []
  | child :: rest => child.sequence :: sequences rest

end

mutual

/-- All invocations, in the order of declaration. -/
def tasks : Tree → List Task
  | task leaf => [leaf]
  | branch _ children => tasksOf children

def tasksOf : List Tree → List Task
  | [] => []
  | child :: rest => child.tasks ++ tasksOf rest

end

mutual

/-- All nodes, each before what lies below it. -/
def nodes : Tree → List Tree
  | task leaf => [task leaf]
  | branch group children => branch group children :: nodesOf children

def nodesOf : List Tree → List Tree
  | [] => []
  | child :: rest => child.nodes ++ nodesOf rest

end

/-- The first invocation of a job. -/
def task? (tree : Tree) (name : String) : Option Task :=
  tree.tasks.find? fun leaf => leaf.name = name

mutual

/-- The invocations that the next child of a serial group waits for. Unchecked
invocations are waited for by nobody, and a serial group ends with its last
child that has others. -/
def lastTasks : Tree → List Task
  | task leaf => if leaf.isUnchecked then [] else [leaf]
  | branch group children =>
      if group.isSerial then lastOf children else allLast children

def lastOf : List Tree → List Task
  | [] => []
  | child :: rest =>
      match lastOf rest with
      | [] => child.lastTasks
      | found => found

def allLast : List Tree → List Task
  | [] => []
  | child :: rest => child.lastTasks ++ allLast rest

end

end Tree

end BuildFlow
