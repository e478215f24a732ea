import BuildFlow.Draft.Basic
import BuildFlow.Graph.Export
import BuildFlow.Sweep.Check
import BuildFlow.Sweep.Kill
import BuildFlow.Sweep.Prepare
import BuildFlow.Sweep.Report
/-!
Running a flow. A run looks all jobs up once and then sweeps over the tree
until the root no longer waits for checked work. Once a kill is requested it
follows nothing any more and stops the builds of the flow until every node has
settled.
-/
namespace BuildFlow

structure Flow where
  root : Tree
  config : RunConfig
  settings : Settings
  /-- How the graph of the flow is written. -/
  style : Graph.Style
  /-- When the first sweep of the latest run was due. -/
  start : Instant
  lastGraph : Instant

namespace Flow

open NodeAct

/-- An action on a flow. -/
abbrev Step (α : Type) := NodeAct Flow α

/-- The flow of a finished draft. -/
def ofDraft (draft : Draft) (root : Tree) (env : RunConfig.Environment) : Flow :=
  let config := draft.config
  { root, config
    settings := {
      requireIdle := config.requireIdle
      cause := config.resolvedCause env
      description := config.description
      displayOrder := config.displayOrder }
    style := ⟨config.graphIndent, draft.strip⟩
    -- The readings of the clock are set by the run.
    start := .none
    lastGraph := .none }

def result (flow : Flow) : BuildResult := flow.root.result

def graphText (flow : Flow) : String := flow.style.write flow.root

/-! ## Parts of a run -/

/-- Writes the graph file if the flow has a directory for it. -/
def writeGraph : Step Unit := do
  let flow ← node
  if flow.config.graphDir.isSome then onHost (Host.writeGraph flow.graphText) else pure ()

def sweepAt (flow : Flow) (now : Instant) (killMode : Bool) : Sweep :=
  { settings := flow.settings, now, start := flow.start, killMode }

def visitRoot (visit : Visit Tree) : Step Unit := do
  let flow ← node
  onPart visit flow.root fun root => { flow with root }

/-- Takes any early end as an answer. -/
def outcome {α : Type} (action : Step α) : Step (Except Halt α) :=
  tryCatch (action >>= fun value => pure (.ok value)) fun halt => pure (.error halt)

/-- Follows the builds of the flow once. A kill can interrupt this. -/
def checkOnce (now : Instant) : Step (Except Halt Unit) := do
  onHost (modify fun host => { host with kill := host.kill.openWindow })
  let ended ← outcome (visitRoot (Tree.check ((← node).sweepAt now false) false))
  onHost (modify fun host => { host with kill := host.kill.closeWindow })
  return ended

/-- Stops the builds of the flow once. -/
def killOnce : Step Unit := do
  visitRoot (Tree.kill true)

/-- Writes the graph when a report is due. -/
def reportGraph (now : Instant) : Step Unit := do
  let flow ← node
  if flow.config.reportInterval ≤ now.secondsSince flow.lastGraph then
    setNode { flow with lastGraph := now }
    writeGraph
  else pure ()

/-- No more ticks are answered. -/
def outOfTicks : Step Unit := onHost (Host.refuse (.request "tick limit"))

/-! ## Loops -/

/-- Stops builds until the root has settled. -/
def killLoop (sleep : Duration) : Nat → Step Unit
  | 0 => outOfTicks
  | ticks + 1 => do
      onHost Host.quickPoll
      onHost Host.queuePoll
      killOnce
      if (← node).root.checking = .finished then pure ()
      else
        onHost (Host.sleep sleep)
        killLoop sleep ticks

def announceKill : Step Unit := do
  let kind := (← host).kill.kind
  log .info
    (if kind = .all then "Killing all builds of jobs in flow"
      else "Got SIGTERM: Killing all builds belonging to current flow")
    [("kill_type", .text kind.name)]

/-- Follows builds until the root waits for nothing, or a kill is requested. -/
def pollLoop (sleep : Duration) : Nat → Step Unit
  | 0 => outOfTicks
  | ticks + 1 => do
      if (← host).kill.isRequested then
        announceKill
        -- No tick was used up in this round.
        killLoop sleep (ticks + 1)
      else if (← node).root.checking ≠ .mustCheck then pure ()
      else
        onHost Host.quickPoll
        let now := (← host).clock
        match ← checkOnce now with
        | .ok () =>
            reportGraph now
            onHost (Host.sleep sleep)
            pollLoop sleep ticks
        | .error (.error (.killed reason)) =>
            -- The next round finds the request and turns to stopping builds.
            log .info "Sweep interrupted by kill request" [("reason", .text reason)]
            pollLoop sleep ticks
        | .error halt => throw halt

/-- Rounds that suffice for a loop: one for each tick that is answered, one for
the tick that is refused, and one that needs none. -/
def roundsLeft (host : Host) : Nat := host.script.maxTicks - host.runner.tick + 2

/-! ## The whole run -/

/-- From the first look at the jobs to the final status. -/
def drive : Step BuildResult := do
  log .info "--- Getting initial job status ---" []
  onHost Host.poll
  let state ← host
  visitRoot (Tree.prepareFirst ((← node).sweepAt state.clock state.kill.isRequested))
  log .debug "Resolved job handles" [("jobs", .nat (← host).roster.resolved.length)]
  let flow ← node
  onHost (flow.root.define flow.settings.displayOrder)
  writeGraph
  let start := (← host).clock
  modifyNode fun flow => { flow with start, lastGraph := start }
  log .info "--- Starting flow ---" [("started_at", .text start.iso)]
  match flow.config.sleepDuration? with
  | none => throw (.broken .interval)
  | some sleep =>
      let looped ← outcome (pollLoop sleep (roundsLeft (← host)))
      -- However the loop ended, the status is told and the graph is written.
      log .info "--- Final status ---" []
      onHost (← node).root.finalStatus
      let written ← outcome writeGraph
      match looped, written with
      -- The error of the loop comes before that of the last graph.
      | .error halt, _ => throw halt
      | _, .error halt => throw halt
      | .ok (), .ok () => return (← node).result

def setListener (listener : Listener) : Step Unit :=
  onHost (modify fun host => { host with listener })

/-- Whether a result other than success fails the run. -/
def mustRaise (flow : Flow) (host : Host) (result : BuildResult) : Bool :=
  result ≠ .success && flow.config.raiseIfUnsuccessful && host.kill.kind ≠ .all

/-- Runs the flow. The answer is the result of the root. -/
def run : Step BuildResult := do
  writeGraph
  let flow ← node
  if flow.config.justDump then return flow.result
  else if flow.root.children.isEmpty then
    log .warn ("WARNING: Empty toplevel flow " ++ flow.root.sequence ++ ", nothing to do.") []
    return flow.result
  else
    if flow.config.killAll then
      onHost (Host.requestKill .all "Killing all running builds of jobs in flow")
    if flow.config.handleTermination then setListener .waiting
    let ended ← outcome drive
    -- The listener is taken off however the run ended.
    setListener .off
    log .info "Flow finished" []
    match ended with
    | .error (.error error) =>
        log .warn ("Flow failed: " ++ error.message) []
        throw (.error error)
    | .error halt => throw halt
    | .ok result =>
        if flow.mustRaise (← host) result then throw (.error (.finalResult result))
        else return result

open Text.Inspect in
def inspect (flow : Flow) (host : Host) (runId : String) : Text.Inspect :=
  .record "FlowController" [
    ("run_id", text runId),
    ("root", text flow.root.sequence),
    ("config", flow.config.inspect),
    ("kill", host.kill.inspect),
    ("registry", .record "JobRegistry" [
      ("jobs", list (host.roster.resolved.map text)),
      ("killed_all", set (host.roster.stopped.map text))] true)] false

end Flow

end BuildFlow
