import BuildFlow.Json.Record
/-!
What a run is labelled with in traces, and the formats of log lines.
-/
namespace BuildFlow

structure RunAttributes where
  runId : String
  /-- The flow in one line. -/
  sequence : Option String := none
  jobCount : Nat := 0
  killType : Option String := none
  result : Option String := none
  deriving DecidableEq, Repr

namespace RunAttributes

/-- The attributes under dotted names. -/
def flat (attributes : RunAttributes) : Table String String :=
  let entry (name : String) (value : Option String) : List (String × String) :=
    value.toList.map fun text => (name, text)
  Table.ofList
    ([("flow.run_id", attributes.runId), ("flow.job_count", toString attributes.jobCount)] ++
      entry "flow.sequence" attributes.sequence ++
      entry "flow.kill_type" attributes.killType ++
      entry "flow.result" attributes.result)

def fieldNames : List String := ["run_id", "sequence", "job_count", "kill_type", "result"]

def read? (json : Json) : Option RunAttributes := do
  let fields ← Json.Fields.of? fieldNames json
  return {
    runId := ← fields.required "run_id" Json.text?
    sequence := ← fields.optional "sequence" Json.text?
    jobCount := ← fields.required "job_count" Json.word64?
    killType := ← fields.optional "kill_type" Json.text?
    result := ← fields.optional "result" Json.text? }

def toJson (attributes : RunAttributes) : Json :=
  .object [
    ("run_id", .text attributes.runId),
    ("sequence", .option .text attributes.sequence),
    ("job_count", .nat attributes.jobCount),
    ("kill_type", .option .text attributes.killType),
    ("result", .option .text attributes.result)]

end RunAttributes

/-- How log lines are written. -/
inductive LogFormat where
  | pretty
  | json
  deriving DecidableEq, Repr

namespace LogFormat

def name : LogFormat → String
  | pretty => "pretty"
  | json => "json"

def read? (value : Json) : Option LogFormat := value.variant? [pretty, LogFormat.json] name

end LogFormat

end BuildFlow
