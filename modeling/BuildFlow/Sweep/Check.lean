import BuildFlow.Sweep.Parallel
import BuildFlow.Sweep.Serial
/-!
A sweep over a whole tree. The recursion goes down the levels of groups, of
which a tree has as many as its height; visits do not change the shape.
-/
namespace BuildFlow.Tree

/-- One step of following a node, for as many levels of groups. -/
def checkWithin (sweep : Sweep) : Nat → Bool → Visit Tree
  | _, report, .task leaf => fun host =>
      match NodeAct.visit (Task.check sweep report) leaf host with
      | (answer, leaf, host) => (answer, .task leaf, host)
  | 0, _, tree => fun host => (.ok (), tree, host)
  | levels + 1, _, .branch group children => fun host =>
      let action := if group.isSerial then Branch.checkSerial sweep (checkWithin sweep levels)
        else Branch.checkParallel sweep (checkWithin sweep levels)
      match NodeAct.visit action (group, children) host with
      | (answer, (group, children), host) => (answer, .branch group children, host)

/-- One sweep over a tree. A failure tells the parent that the node failed. -/
def check (sweep : Sweep) (report : Bool) : Visit Tree := fun tree =>
  checkWithin sweep tree.height report tree

end BuildFlow.Tree
