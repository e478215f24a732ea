import BuildFlow.Sweep.Group
/-!
A pass that stops builds instead of following them. A group is settled once all
of its children are; what was stopped before it was invoked counts as failed. A
kill of all builds also reaches nodes that had finished.
-/
namespace BuildFlow

/-- Takes over what the children came to. -/
def Group.settle (group : Group) (children : List Tree) : Group :=
  let status := (children.map Tree.checking).foldl min .finished
  let standing := { group.standing with checking := status }
  if status = .finished then
    let result := (Branch.aggregate ({ group with standing }, children) children.length)
    { group with standing := { standing with result } }
  else { group with standing }

namespace Tree

mutual

/-- One step of stopping the builds below a node. -/
def kill (dequeue : Bool) : Visit Tree
  | .task leaf, host =>
      match NodeAct.visit (Task.kill dequeue) leaf host with
      | (answer, leaf, host) => (answer, .task leaf, host)
  | .branch group children, host =>
      let all : Bool := host.kill.kind = .all
      if group.standing.isFinished && !all then (.ok (), .branch group children, host)
      else
        match killChildren dequeue all children host with
        | (.error halt, children, host) => (.error halt, .branch group children, host)
        | (.ok (), children, host) =>
            -- A group that had finished keeps its result, even if builds below it were stopped.
            let group := if group.standing.isFinished then group else group.settle children
            (.ok (), .branch group children, host)

/-- The children in turn, up to the first that ends early. -/
def killChildren (dequeue all : Bool) : Visit (List Tree)
  | [], host => (.ok (), [], host)
  | child :: rest, host =>
      if all || !child.standing.isFinished then
        match kill dequeue child host with
        | (.error halt, child, host) => (.error halt, child :: rest, host)
        | (.ok (), child, host) =>
            match killChildren dequeue all rest host with
            | (answer, rest, host) => (answer, child :: rest, host)
      else
        match killChildren dequeue all rest host with
        | (answer, rest, host) => (answer, child :: rest, host)

end

end Tree

end BuildFlow
