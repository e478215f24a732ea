import BuildFlow.Json.Record
/-!
Options of one group. What a group leaves open it takes from the group around
it.
-/
namespace BuildFlow

structure GroupOptions where
  /-- Seconds that the group may run; 0 is unbounded. -/
  timeout : Float := 0
  securityToken : Option String := none
  /-- Follows the prefix of the enclosing group in job names. -/
  jobPrefix : String := ""
  /-- How often the group may be tried. -/
  maxTries : Nat := 1
  propagation : Option Propagation := none
  /-- Seconds between status reports. -/
  reportInterval : Option Float := none
  secretPattern : Option String := none
  allowMissingJobs : Option Bool := none

namespace GroupOptions

def fieldNames : List String :=
  ["timeout_seconds", "security_token", "job_name_prefix", "max_tries", "propagation",
   "report_interval_seconds", "secret_params", "allow_missing_jobs"]

def read? (json : Json) : Option GroupOptions := do
  let base : GroupOptions := {}
  let fields ← Json.Fields.of? fieldNames json
  return {
    timeout := ← fields.default "timeout_seconds" Json.float? base.timeout
    securityToken := ← fields.absent "security_token" Json.text?
    jobPrefix := ← fields.default "job_name_prefix" Json.text? base.jobPrefix
    maxTries := ← fields.default "max_tries" Json.word32? base.maxTries
    propagation := ← fields.absent "propagation" Propagation.read?
    reportInterval := ← fields.absent "report_interval_seconds" Json.float?
    secretPattern := ← fields.absent "secret_params" Json.text?
    allowMissingJobs := ← fields.absent "allow_missing_jobs" Json.bool? }

def toJson (options : GroupOptions) : Json :=
  .object [
    ("timeout_seconds", .float options.timeout),
    ("security_token", .option .text options.securityToken),
    ("job_name_prefix", .text options.jobPrefix),
    ("max_tries", .nat options.maxTries),
    ("propagation", .option (fun p => .text p.name) options.propagation),
    ("report_interval_seconds", .option .float options.reportInterval),
    ("secret_params", .option .text options.secretPattern),
    ("allow_missing_jobs", .option .bool options.allowMissingJobs)]

end GroupOptions

end BuildFlow
