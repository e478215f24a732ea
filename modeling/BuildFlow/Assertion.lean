import BuildFlow.Tree.Basic
/-!
Expectations on a flow that has run, and on the runner that it ran against.
What does not hold says why.
-/
namespace BuildFlow

inductive Expectation where
  /-- The first invocation of a job has a result. -/
  | result (job : String) (want : BuildResult)
  /-- So many builds of a job were started. -/
  | invocations (job : String) (want : Nat)
  /-- The last build of one job ended before the first one of another was started. -/
  | before (first second : String)
  deriving DecidableEq, Repr

namespace Expectation

/-- What speaks against an expectation, if it does not hold. -/
def objection? (root : Tree) (runner : Runner) : Expectation → Option String
  | result job want =>
      match root.task? job with
      | none => some ("No invocation of '" ++ job ++ "' in flow " ++ root.sequence)
      | some task =>
          if task.standing.result = want then none
          else some ("Expected result " ++ want.name ++ " for '" ++ job ++ "', got " ++
            task.standing.result.name)
  | invocations job want =>
      let count := (runner.history job).invokedAt.length
      if count = want then none
      else some ("Expected " ++ toString want ++ " invocations of '" ++ job ++ "', got " ++
        toString count)
  | before first second =>
      match (runner.history first).finishedAt.getLast?.join,
          (runner.history second).invokedAt.head? with
      | none, _ => some ("'" ++ first ++ "' never finished")
      | some _, none => some ("'" ++ second ++ "' was never invoked")
      | some finished, some invoked =>
          if finished ≤ invoked then none
          else some ("'" ++ second ++ "' was invoked at tick " ++ toString invoked ++
            " before '" ++ first ++ "' finished at tick " ++ toString finished)

end Expectation

end BuildFlow
