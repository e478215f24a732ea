import BuildFlow.Tree.Basic
/-!
One line that shows the inside of a tree. Secret parameters stay hidden, and of
a job only its presence is shown.
-/
namespace BuildFlow

open Text.Inspect in
def Task.inspect (task : Task) : Text.Inspect :=
  .record "Invocation" [
    ("name", text task.name),
    ("state", task.standing.inspect),
    ("params", map (task.shownParams.entries.map fun (name, value) => (text name, text value))),
    ("invocation_number", nat task.number),
    ("has_job", bool task.resolved),
    ("has_invocation", bool task.build.isSome)] true

namespace Group

open Text.Inspect in
/-- What groups of both disciplines show, around their children. -/
def inspectState (group : Group) (children : List Text.Inspect) : Text.Inspect :=
  .record "GroupState" [
    ("node", group.standing.inspect),
    ("children", list children),
    ("timeout", word (Decimal.Style.inspect.write group.timeout)),
    ("report_interval", word (Decimal.Style.inspect.write group.reportInterval)),
    ("last_report_time", word (Decimal.Style.inspect.write group.lastReport.seconds)),
    ("job_name_prefix", text group.jobPrefix),
    ("aborted", bool group.aborted)] true

open Text.Inspect in
def inspect (group : Group) (children : List Text.Inspect) : Text.Inspect :=
  let state := group.inspectState children
  match group.discipline with
  | .serial cursor =>
      tuple "Serial" [.record "SerialGroup" [("group", state), ("job_index", nat cursor)] true]
  | .parallel failed =>
      let entries := failed.entries.map fun (id, name) => (nat id, text name)
      tuple "Parallel"
        [.record "ParallelGroup" [("group", state), ("failed_children", map entries)] true]

end Group

namespace Tree

mutual

def inspect : Tree → Text.Inspect
  | task leaf => .tuple "Invocation" [leaf.inspect]
  | branch group children => group.inspect (inspectAll children)

def inspectAll : List Tree → List Text.Inspect
  | [] => []
  | child :: rest => child.inspect :: inspectAll rest

end

end Tree

end BuildFlow
