import BuildFlow.Graph.Document
import BuildFlow.Tree.Basic
/-!
The graph of a flow tree. Only invocations are nodes of it; groups shape the
links. In a serial group every child waits for the last invocations of the
child before it, in a parallel group all children wait for what the group
waits for.
-/
namespace BuildFlow.Graph

/-- How a graph is written. An indentation goes with keys by job name. -/
structure Style where
  indent : Option Nat
  /-- So many bytes are cut from the front of job names. -/
  strip : Nat
  deriving DecidableEq, Repr

namespace Style

def key (style : Style) (task : Task) : Key :=
  if style.indent.isSome then .name task.name else .id task.standing.id

/-- The text behind a number of bytes, if there is a character boundary. -/
def dropBytes? : Nat → List Char → Option (List Char)
  | 0, chars => some chars
  | _, [] => none
  | count, c :: rest => if c.utf8Size ≤ count then dropBytes? (count - c.utf8Size) rest else none

/-- A name that cannot be cut is left whole. -/
def shortName (style : Style) (name : String) : String :=
  ((dropBytes? style.strip name.toList).map String.ofList).getD name

def node (style : Style) (task : Task) : Node :=
  let standing := task.standing
  { key := style.key task
    name := style.shortName task.name
    url := task.jobUrl?
    maxTries := standing.maxTries
    tried := standing.tried
    totalMaxTries := standing.totalMaxTries
    totalTried := standing.totalTried
    level := standing.level
    propagation := standing.propagation
    checking := standing.checking
    result := standing.result
    invokedAt := standing.invokedAt.seconds
    params := task.shownParams.entries.map fun (name, value) => (name, Text.quote value) }

mutual

/-- The links below a node that has to wait for some invocations. -/
def links (style : Style) : Tree → List Task → List Link
  | .task leaf, before => before.map fun task => ⟨style.key task, style.key leaf⟩
  | .branch group children, before =>
      if group.isSerial then serialLinks style children before
      else parallelLinks style children before

def serialLinks (style : Style) : List Tree → List Task → List Link
  | [], _ => []
  | child :: rest, before => links style child before ++ serialLinks style rest child.lastTasks

def parallelLinks (style : Style) : List Tree → List Task → List Link
  | [], _ => []
  | child :: rest, before => links style child before ++ parallelLinks style rest before

end

def graph (style : Style) (root : Tree) : Graph :=
  { nodes := root.tasks.map style.node
    links := style.links root [] }

/-- The text of the graph. -/
def write (style : Style) (root : Tree) : String :=
  let json := (style.graph root).toJson
  match style.indent with
  | none => json.compact
  | some width => json.indented width 0

end Style

end BuildFlow.Graph
