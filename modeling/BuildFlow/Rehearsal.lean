import BuildFlow.Draft.Declaration
import BuildFlow.Flow
/-!
A flow that is declared and run against a scripted host. The declaration is
part of the record, so a rehearsal shows what a user of the flow would see.
-/
namespace BuildFlow

/-- A flow as it is written down. Options that could not be read are missing. -/
structure Blueprint where
  serial : Bool
  config : RunConfig
  options : Option GroupOptions
  steps : List Declaration.Step

/-- What came of a declaration. -/
structure Declared where
  answers : List Declaration.Answer
  /-- The draft before it was finished, unless it could not be started. -/
  draft : Option Draft
  flow : Except FlowError Flow

namespace Blueprint

/-- Declares the flow and finishes it. -/
def declare (blueprint : Blueprint) (env : RunConfig.Environment) : Act Host Declared := do
  match blueprint.options with
  | none => return ⟨[], none, .error .document⟩
  | some options =>
      match ← caught (Draft.start blueprint.config options blueprint.serial) with
      | .error error => return ⟨[], none, .error error⟩
      | .ok draft =>
          let (answers, declaration) ←
            runOn (Declaration.start draft) (Declaration.runAll blueprint.steps)
          let draft := declaration.draft
          match ← caught (runOn draft Draft.finish) with
          | .error error => return ⟨answers, some draft, .error error⟩
          | .ok (root, _) => return ⟨answers, some draft, .ok (.ofDraft draft root env)⟩
where
  /-- Takes an error as an answer. -/
  caught {α : Type} (action : Act Host α) : Act Host (Except FlowError α) :=
    tryCatch (action >>= fun value => pure (.ok value)) fun halt =>
      match halt with
      | .error error => pure (.error error)
      | halt => throw halt
  /-- Runs an action on a node of its own; answers the node after it. -/
  runOn {ν α : Type} (node : ν) (action : NodeAct ν α) : Act Host (α × ν) := fun host =>
    match action.run (node, host) with
    | (.ok value, node, host) => (.ok (value, node), host)
    | (.error halt, _, host) => (.error halt, host)

end Blueprint

structure Rehearsal where
  blueprint : Blueprint
  env : RunConfig.Environment
  jobs : List JobPlan
  hooks : List KillHook
  script : Script
  clock : Instant
  place : GraphPlace
  /-- A kill that is requested before the first run. -/
  killBefore : Option (KillKind × String)
  runs : Nat

/-- What came of a rehearsal: the runs with the flow after them, if there was one. -/
structure Performance where
  declared : Declared
  runs : List (Except FlowError BuildResult)
  flow : Option Flow
  host : Host

namespace Rehearsal

def runner (rehearsal : Rehearsal) : Runner :=
  { rehearsal.jobs.foldl Runner.add {} with hooks := rehearsal.hooks }

/-- Runs a flow once more. Each run begins with its number on record and ends
with a look at the graph file. -/
def runOnce (index : Nat) : Flow.Step (Except FlowError BuildResult) := do
  NodeAct.onHost (Host.record (.run index))
  let ended ← Flow.outcome Flow.run
  -- The look comes before the answer, so that a run that failed shows its graph too.
  NodeAct.onHost Host.lookAtGraph
  match ended with
  | .ok result => return .ok result
  | .error (.error error) => return .error error
  | .error halt => throw halt

def runAll (rehearsal : Rehearsal) : Flow.Step (List (Except FlowError BuildResult)) := do
  if let some (kind, reason) := rehearsal.killBefore then
    NodeAct.onHost (Host.requestKill kind reason)
  (List.range rehearsal.runs).mapM runOnce

/-- Plays the whole rehearsal. It has no outcome if a step broke down. -/
def play (rehearsal : Rehearsal) : Except Breakdown Performance := do
  let host := Host.start rehearsal.runner rehearsal.script rehearsal.clock rehearsal.place
  let (declared, host) ← settle ((rehearsal.blueprint.declare rehearsal.env).run host)
  match declared.flow with
  | .error _ => return ⟨declared, [], none, host⟩
  | .ok flow =>
      let (runs, flow, host) ← settle (rehearsal.runAll.run (flow, host))
      return ⟨declared, runs, some flow, host⟩
where
  settle {α σ : Type} : Except Halt α × σ → Except Breakdown (α × σ)
    | (.ok value, state) => .ok (value, state)
    | (.error (.broken breakdown), _) => .error breakdown
    -- Errors have been taken as answers.
    | (.error (.error _), _) => .error .build

end Rehearsal

end BuildFlow
