import BuildFlow.Json.Record
import BuildFlow.KillSwitch
import BuildFlow.Params
import BuildFlow.Time.Instant
import BuildFlow.Text.Inspect
/-!
The configuration of a whole run: how often jobs are polled and reported, what
is tolerated at the start, and what is sent along with every invocation.
-/
namespace BuildFlow

structure RunConfig where
  /-- Seconds between polls of unfinished jobs. -/
  pollInterval : Float := 0.5
  /-- Seconds between status reports. -/
  reportInterval : Float := 5
  /-- Jobs have to be idle when the flow starts. -/
  requireIdle : Bool := true
  /-- Jobs may be missing at the start as long as they exist when reached. -/
  allowMissingJobs : Bool := false
  /-- The directory of the graph file; none is written without it. -/
  graphDir : Option String := none
  /-- With an indentation the graph is keyed by job names. -/
  graphIndent : Option Nat := none
  /-- The prefix of the root is left out of the names in the graph. -/
  stripRootPrefix : Bool := true
  /-- A run that does not end with success fails. -/
  raiseIfUnsuccessful : Bool := true
  /-- Stops all builds of all jobs instead of running them. -/
  killAll : Bool := false
  /-- Writes the graph and invokes nothing. -/
  justDump : Bool := false
  securityToken : Option String := none
  /-- What invocations are said to be caused by. -/
  cause : Option String := none
  description : Option String := none
  displayOrder : List String := []
  secretPattern : String := Params.defaultSecretPattern
  /-- A termination signal stops the builds of this run. -/
  handleTermination : Bool := true

namespace RunConfig

/-! ## Documents -/

def fieldNames : List String :=
  ["poll_interval_seconds", "report_interval_seconds", "require_idle", "allow_missing_jobs",
   "json_dir", "json_indent", "json_strip_top_level_prefix", "raise_if_unsuccessful", "kill_all",
   "just_dump", "security_token", "cause", "description", "params_display_order",
   "secret_params", "handle_sigterm"]

/-- Reads a configuration without judging its values. -/
def read? (json : Json) : Option RunConfig := do
  let base : RunConfig := {}
  let fields ← Json.Fields.of? fieldNames json
  return {
    pollInterval := ← fields.default "poll_interval_seconds" Json.float? base.pollInterval
    reportInterval := ← fields.default "report_interval_seconds" Json.float? base.reportInterval
    requireIdle := ← fields.default "require_idle" Json.bool? base.requireIdle
    allowMissingJobs := ← fields.default "allow_missing_jobs" Json.bool? base.allowMissingJobs
    graphDir := ← fields.absent "json_dir" Json.text?
    graphIndent := ← fields.absent "json_indent" Json.word64?
    stripRootPrefix :=
      ← fields.default "json_strip_top_level_prefix" Json.bool? base.stripRootPrefix
    raiseIfUnsuccessful :=
      ← fields.default "raise_if_unsuccessful" Json.bool? base.raiseIfUnsuccessful
    killAll := ← fields.default "kill_all" Json.bool? base.killAll
    justDump := ← fields.default "just_dump" Json.bool? base.justDump
    securityToken := ← fields.absent "security_token" Json.text?
    cause := ← fields.absent "cause" Json.text?
    description := ← fields.absent "description" Json.text?
    displayOrder :=
      ← fields.default "params_display_order" (Json.list? Json.text?) base.displayOrder
    secretPattern := ← fields.default "secret_params" Json.text? base.secretPattern
    handleTermination := ← fields.default "handle_sigterm" Json.bool? base.handleTermination }

def toJson (config : RunConfig) : Json :=
  .object [
    ("poll_interval_seconds", .float config.pollInterval),
    ("report_interval_seconds", .float config.reportInterval),
    ("require_idle", .bool config.requireIdle),
    ("allow_missing_jobs", .bool config.allowMissingJobs),
    ("json_dir", .option .text config.graphDir),
    ("json_indent", .option .nat config.graphIndent),
    ("json_strip_top_level_prefix", .bool config.stripRootPrefix),
    ("raise_if_unsuccessful", .bool config.raiseIfUnsuccessful),
    ("kill_all", .bool config.killAll),
    ("just_dump", .bool config.justDump),
    ("security_token", .option .text config.securityToken),
    ("cause", .option .text config.cause),
    ("description", .option .text config.description),
    ("params_display_order", .texts config.displayOrder),
    ("secret_params", .text config.secretPattern),
    ("handle_sigterm", .bool config.handleTermination)]

/-! ## Validity -/

/-- The first fault of a configuration: intervals before the pattern. -/
def fault? (config : RunConfig) : Option ConfigFault :=
  if !(0 < config.pollInterval) then some (.interval "poll_interval_seconds" config.pollInterval)
  else if !(0 < config.reportInterval) then
    some (.interval "report_interval_seconds" config.reportInterval)
  else if (Pattern.ofString? config.secretPattern).isNone then some .pattern
  else none

def validate (config : RunConfig) : Except FlowError Unit :=
  match config.fault? with
  | some fault => throw (.config fault)
  | none => return

/-- Reads a document and judges what it says. -/
def load (text : String) : Except FlowError RunConfig :=
  match (Json.read? text).bind read? with
  | none => throw .document
  | some config => do
      config.validate
      return config

/-! ## What follows from a configuration -/

/-- The time between polls. -/
def pollDuration? (config : RunConfig) : Option Duration := Duration.ofSeconds? config.pollInterval

/-- The lesser of two floats, or the one that is a number. -/
def lesser (a b : Float) : Float :=
  if a.isNaN then b else if b.isNaN then a else if a ≤ b then a else b

/-- The time between two sweeps: whichever interval is shorter. -/
def sleepDuration? (config : RunConfig) : Option Duration :=
  Duration.ofSeconds? (lesser config.pollInterval config.reportInterval)

/-- The variables of the environment that a cause is derived from. -/
structure Environment where
  jobName : Option String := none
  buildNumber : Option String := none
  user : Option String := none
  userName : Option String := none

/-- The cause sent with every invocation. One that is not configured names the
job that runs the flow, or else the user. -/
def resolvedCause (config : RunConfig) (env : Environment) : String :=
  match config.cause, env.jobName with
  | some cause, _ => cause
  | none, some jobName =>
      "By flow job '" ++ jobName ++ "' #" ++ env.buildNumber.getD "None"
  | none, none =>
      "By flow script, user '" ++ (env.user.or env.userName).getD "unknown" ++ "'"

open Text.Inspect in
def inspect (config : RunConfig) : Text.Inspect :=
  .record "ControllerConfig" [
    ("poll_interval_seconds", word (Decimal.Style.inspect.write config.pollInterval)),
    ("report_interval_seconds", word (Decimal.Style.inspect.write config.reportInterval)),
    ("require_idle", bool config.requireIdle),
    ("allow_missing_jobs", bool config.allowMissingJobs),
    ("json_dir", optionText config.graphDir),
    ("json_indent", option (config.graphIndent.map nat)),
    ("json_strip_top_level_prefix", bool config.stripRootPrefix),
    ("raise_if_unsuccessful", bool config.raiseIfUnsuccessful),
    ("kill_all", bool config.killAll),
    ("just_dump", bool config.justDump),
    ("security_token", optionText config.securityToken),
    ("cause", optionText config.cause),
    ("description", optionText config.description),
    ("params_display_order", list (config.displayOrder.map text)),
    ("secret_params", text config.secretPattern),
    ("handle_sigterm", bool config.handleTermination)] true

end RunConfig

end BuildFlow
