import BuildFlow.Sweep.Group
/-!
The pass before the first sweep. All jobs are looked up in the order of their
declaration, and the first attempt of every node is prepared.
-/
namespace BuildFlow.Tree

/-- Opens a group: its first attempt is prepared before those of its children. -/
def openGroup (group : Group) : Act Host Group := do
  Host.breakUnless (group.standing.canPrepare false) .tries
  Host.log .info (group.standing.indentation ++ group.opening) []
  return group.prepare false

def closeGroup (group : Group) : Act Host Unit :=
  Host.log .info (group.standing.indentation ++ group.brackets.2) []

mutual

def prepareFirst (sweep : Sweep) : Visit Tree
  | .task leaf, host =>
      match NodeAct.visit (Task.prepareFirst sweep) leaf host with
      | (answer, leaf, host) => (answer, .task leaf, host)
  | .branch group children, host =>
      match (openGroup group).run host with
      | (.error halt, host) => (.error halt, .branch group children, host)
      | (.ok group, host) =>
          match prepareChildren sweep children host with
          | (.error halt, children, host) => (.error halt, .branch group children, host)
          | (.ok (), children, host) =>
              match (closeGroup group).run host with
              | (answer, host) => (answer, .branch group children, host)

/-- The children in turn, up to the first that ends early. -/
def prepareChildren (sweep : Sweep) : Visit (List Tree)
  | [], host => (.ok (), [], host)
  | child :: rest, host =>
      match prepareFirst sweep child host with
      | (.error halt, child, host) => (.error halt, child :: rest, host)
      | (.ok (), child, host) =>
          match prepareChildren sweep rest host with
          | (answer, rest, host) => (answer, child :: rest, host)

end

end BuildFlow.Tree
