import BuildFlow.Json.Record
import BuildFlow.Params
/-!
What a runner is told to start a build, and what it tells about a job.
-/
namespace BuildFlow

/-- The state of a job as its runner sees it. -/
structure JobStatus where
  /-- The result of the latest build, unknown while it is active. -/
  result : BuildResult
  progress : Progress
  lastBuild : Option Nat
  deriving DecidableEq, Repr

namespace JobStatus

def neverBuilt : JobStatus := ⟨.unknown, .idle, none⟩

def read? (json : Json) : Option JobStatus := do
  let fields ← Json.Fields.of? ["result", "progress", "last_build_number"] json
  return {
    result := ← fields.required "result" BuildResult.read?
    progress := ← fields.required "progress" Progress.read?
    lastBuild := ← fields.optional "last_build_number" Json.word64? }

def toJson (status : JobStatus) : Json :=
  .object [
    ("result", .text status.result.name),
    ("progress", .text status.progress.name),
    ("last_build_number", .option .nat status.lastBuild)]

end JobStatus

/-- Everything a runner needs to start a build. -/
structure InvokeRequest where
  securityToken : Option String := none
  params : Params := ∅
  cause : Option String := none
  description : Option String := none

namespace InvokeRequest

def read? (json : Json) : Option InvokeRequest := do
  let fields ← Json.Fields.of? ["security_token", "params", "cause", "description"] json
  return {
    securityToken := ← fields.optional "security_token" Json.text?
    params := ← fields.required "params" Json.textTable?
    cause := ← fields.optional "cause" Json.text?
    description := ← fields.optional "description" Json.text? }

def toJson (request : InvokeRequest) : Json :=
  .object [
    ("security_token", .option .text request.securityToken),
    ("params", .object (request.params.entries.map fun (name, value) => (name, .text value))),
    ("cause", .option .text request.cause),
    ("description", .option .text request.description)]

end InvokeRequest

end BuildFlow
