import BuildFlow.Sweep.Group
/-!
What a run tells about its jobs before the first sweep and after the last one.
-/
namespace BuildFlow

namespace Task

/-- Names the job with its parameters in display order; secret ones are hidden. -/
def define (task : Task) (order : List String) : Act Host Unit := do
  let shown := task.shownParams.displayOrder order
  match task.jobUrl? with
  | some url =>
      let suffix := if shown.isEmpty then "" else " - parameters:"
      Host.log .info ("Defined Job " ++ url ++ suffix) task.jobField
  | none =>
      Host.log .info ("Defined Job '" ++ task.name ++ "' - MISSING JOB") task.jobField
  shown.forM fun (name, value) =>
    Host.log .info ("    " ++ name ++ " = " ++ Text.quote value) task.jobField

/-- What the runner says of the job in the end. -/
def finalProgress (task : Task) : Act Host String := do
  match ← Host.attempt (Host.jobStatus task.name) with
  | .ok status => return status.progress.name
  | .error error =>
      Host.log .warn "Could not get final job status"
        (task.jobField ++ [("error", .text error.message)])
      return "UNKNOWN"

/-- How the invocation ended. -/
def finalStatus (task : Task) : Act Host Unit := do
  let line := task.standing.indentation ++ task.shown
  let result := task.standing.result
  if !task.resolved then Host.log .info (line ++ " - MISSING JOB") task.jobField
  else if result = .success then Host.log .info (line ++ " " ++ result.name) task.jobField
  else
    let progress ← task.finalProgress
    let host ← get
    let console := if result = .unknown then "" else (task.consoleUrl? host).getD ""
    Host.log .info (line ++ " " ++ result.name ++ " - " ++ progress ++ " " ++ console)
      task.jobField

end Task

namespace Tree

def define (tree : Tree) (order : List String) : Act Host Unit :=
  tree.tasks.forM fun task => task.define order

mutual

def finalStatus : Tree → Act Host Unit
  | .task leaf => leaf.finalStatus
  | .branch group children => do
      Host.log .info (group.standing.indentation ++ group.opening) []
      finalStatuses children
      Host.log .info (group.standing.indentation ++ group.brackets.2) []

def finalStatuses : List Tree → Act Host Unit
  | [] => pure ()
  | child :: rest => do
      child.finalStatus
      finalStatuses rest

end

end Tree

end BuildFlow
