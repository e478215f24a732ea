import BuildFlow.Proofs.Draft.Session
import BuildFlow.Proofs.Finished
/-!
A flow that has only been declared has not been invoked: no node counts an attempt, none is checked
and none has a result.
-/
namespace BuildFlow.Draft

open BuildFlow.Tree

variable {config : RunConfig} {options : GroupOptions} {serial : Bool} {draft after : Draft}
  {log : Log} {command : Command} {reply : Reply}

/-- Nothing in the open groups has been invoked. -/
def Unused (draft : Draft) : Prop := ∀ opened ∈ draft.groups, opened.toTree.IsFresh

theorem fresh_freshGroup {options : GroupOptions} {interval : Float} {jobPrefix : String}
    (id level max total : Nat) (propagation : Propagation) (serial : Bool) :
    (Tree.branch (freshGroup (.fresh id level max total propagation) options interval jobPrefix
      (freshDiscipline serial)) []).IsFresh := by
  apply fresh_branch.mpr
  constructor
  · cases serial with
    | true => rfl
    | false => rfl
  · exact fun child member => (List.not_mem_nil member).elim

theorem fresh_putting {opened : OpenGroup} {child : Tree} (fresh : opened.toTree.IsFresh)
    (other : child.IsFresh) : (opened.putting child).toTree.IsFresh := by
  obtain ⟨group, children⟩ := fresh_branch.mp fresh
  apply fresh_branch.mpr
  constructor
  · exact group
  · exact List.forall_mem_append.mpr ⟨children, List.forall_mem_singleton.mpr other⟩

theorem Unused.innermost (unused : Unused draft) : draft.innermost.toTree.IsFresh :=
  unused draft.innermost List.mem_cons_self

theorem Unused.outside (unused : Unused draft) : Unused draft.outside := by
  unfold Draft.outside
  split
  · exact unused
  · next parent outer around =>
      intro opened member
      apply unused opened
      apply List.mem_cons_of_mem
      rw [around]
      exact member

theorem Unused.adding {child : Tree} (unused : Unused draft) (fresh : child.IsFresh) :
    Unused (draft.adding child) := by
  intro opened member
  rcases List.mem_cons.mp member with same | outer
  · rw [same]
    exact fresh_putting unused.innermost fresh
  · exact unused opened (List.mem_cons_of_mem _ outer)

theorem Unused.performs (unused : Unused draft) (performs : Performs draft command reply after) :
    Unused after := by
  cases performs with
  | begins =>
      intro opened member
      rcases List.mem_cons.mp member with same | outer
      · rw [same]
        exact fresh_freshGroup _ _ _ _ _ _
      · exact unused opened outer
  | closes =>
      unfold folded
      split
      · exact unused.outside
      · exact unused.outside.adding unused.innermost
  | drops => exact unused.outside
  | keeps => exact unused
  | invokes => exact unused.adding rfl
  | tells => exact unused

/-- Declaring a flow invokes nothing. -/
theorem Session.unused (session : Session config options serial log draft) : Unused draft := by
  apply session.keeps (p := fun _ draft => Unused draft)
  · intro secret opened member
    rw [List.mem_singleton.mp member]
    exact fresh_freshGroup _ _ _ _ _ _
  · exact fun _ unused performs => unused.performs performs
  · exact id

theorem blank_told (messages : Table Nat String) (group : Group) :
    (told messages group).blank = told messages group.blank := rfl

theorem fresh_withMessages (messages : Table Nat String) {tree : Tree} (fresh : tree.IsFresh) :
    (withMessages messages tree).IsFresh := by
  induction tree using childrenInduction with
  | leaf leaf =>
      have leaf' : leaf.blank = leaf := Tree.task.inj fresh
      rw [← leaf']
      rfl
  | branch group children ih =>
      obtain ⟨group', children'⟩ := fresh_branch.mp fresh
      rw [withMessages_branch]
      apply fresh_branch.mpr
      constructor
      · rw [blank_told, group']
      · intro child member
        obtain ⟨other, inside, rfl⟩ := List.mem_map.mp member
        exact ih other inside (children' other inside)

/-- What a finished declaration gives has not been invoked. -/
theorem Session.fresh (session : Session config options serial log draft) {host : Host}
    {tree : Tree} {after : Draft × Host} (finished : finish.run (draft, host) = (.ok tree, after)) :
    tree.IsFresh := by
  obtain ⟨-, rfl⟩ := finish_inv finished
  exact fresh_withMessages _ session.unused.innermost

end BuildFlow.Draft
