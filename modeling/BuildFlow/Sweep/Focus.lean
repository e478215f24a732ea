import BuildFlow.Tree.Basic
/-!
Actions on a node together with its host. A part of a node is worked on by an
action of its own, and is put back also when that action ends early.
-/
namespace BuildFlow

/-- An action on a node and the host. -/
abbrev NodeAct (ν α : Type) := Act (ν × Host) α

/-- A complete visit to a node: how it ended, and the node and the host after it. -/
abbrev Visit (ν : Type) := ν → Host → Except Halt Unit × ν × Host

namespace NodeAct

variable {ν μ α : Type}

def node : NodeAct ν ν := return (← get).1
def host : NodeAct ν Host := return (← get).2
def setNode (node : ν) : NodeAct ν Unit := modify fun state => (node, state.2)
def modifyNode (f : ν → ν) : NodeAct ν Unit := modify fun state => (f state.1, state.2)

/-- An action that concerns the host only. -/
def onHost (action : Act Host α) : NodeAct ν α := fun state =>
  match action.run state.2 with
  | (answer, host) => (answer, (state.1, host))

def log (level : Level) (message : String) (fields : List (String × Json)) : NodeAct ν Unit :=
  onHost (Host.log level message fields)

/-- Visits a part of the node, which `put` puts back. -/
def onPart (visit : Visit μ) (part : μ) (put : μ → ν) : NodeAct ν Unit := fun state =>
  match visit part state.2 with
  | (answer, part, host) => (answer, (put part, host))

/-- Runs an action as a visit. -/
def visit (action : NodeAct ν Unit) : Visit ν := fun node host =>
  match action.run (node, host) with
  | (answer, node, host) => (answer, node, host)

/-- Takes a failure that may be retried as an answer. -/
def failure? (action : NodeAct ν Unit) : NodeAct ν (Option JobFailure) :=
  tryCatch (action >>= fun _ => pure none) fun halt =>
    match halt with
    | .error (.failed failure) => pure (some failure)
    | halt => throw halt

end NodeAct

/-- What stays the same for a whole run. -/
structure Settings where
  requireIdle : Bool
  cause : String
  description : Option String
  displayOrder : List String

/-- What stays the same for one pass over the tree. -/
structure Sweep where
  settings : Settings
  /-- The reading of the clock that the pass goes by. -/
  now : Instant
  /-- When the outermost flow started. -/
  start : Instant
  /-- Whether builds are stopped instead of started. -/
  killMode : Bool

end BuildFlow
