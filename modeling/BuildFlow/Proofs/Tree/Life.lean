import BuildFlow.Proofs.Tree.Growth
/-!
The life of a node. Sweeps visit it, and the group that it is in may answer a
failure by taking it for finished or by starting a new attempt. Nothing else
happens to a node, so what a tree becomes is told by the lives of its nodes.
-/
namespace BuildFlow

namespace Tree

/-- What can happen to a node. -/
inductive Turn where
  | visit (now : Instant) (world : World) (answer : Except Halt Unit) (next : Tree) (after : World)
  | finish
  | prepare (scope : Bool)

namespace Turn

def isVisit : Turn → Bool
  | visit .. => true
  | _ => false

def isPrepare : Turn → Bool
  | prepare _ => true
  | _ => false

end Turn

/-- What the turns make of a node. -/
inductive Lives : Tree → List Turn → Tree → Prop
  | rests {node : Tree} : Lives node [] node
  | visited {node next last : Tree} {now : Instant} {world after : World}
      {answer : Except Halt Unit} {turns : List Turn}
      (unfinished : node.standing.isFinished = false)
      (sweeps : Sweeps now node world answer next after) (onward : Lives next turns last) :
      Lives node (.visit now world answer next after :: turns) last
  | finished {node last : Tree} {turns : List Turn} (onward : Lives node.finish turns last) :
      Lives node (.finish :: turns) last
  | prepared {node last : Tree} {scope : Bool} {turns : List Turn}
      (onward : Lives (node.prepare scope) turns last) : Lives node (.prepare scope :: turns) last

theorem Lives.append {node middle last : Tree} {turns more : List Turn}
    (lives : Lives node turns middle) (onward : Lives middle more last) :
    Lives node (turns ++ more) last := by
  induction lives with
  | rests => exact onward
  | visited unfinished sweeps _ ih => exact .visited unfinished sweeps (ih onward)
  | finished _ ih => exact .finished (ih onward)
  | prepared _ ih => exact .prepared (ih onward)

/-- A finished node is left alone until it is prepared. -/
theorem Lives.still {node last : Tree} {turns : List Turn} (lives : Lives node turns last)
    (unprepared : ∀ turn ∈ turns, turn.isPrepare = false) (finished : node.standing.isFinished) :
    last.children = node.children := by
  induction lives with
  | rests => rfl
  | visited unfinished => cases unfinished.symm.trans finished
  | @finished node _ _ _ ih =>
      refine (ih (fun turn member => unprepared turn (List.mem_cons_of_mem _ member)) ?_).trans ?_
      · cases node <;> rfl
      · cases node <;> rfl
  | prepared => cases unprepared _ List.mem_cons_self

/-! ## Nodes at their places -/

/-- The node at the end of a path of places among children. -/
def node? : Tree → List Nat → Option Tree
  | tree, [] => some tree
  | tree, index :: path => tree.children[index]?.bind fun child => child.node? path

/-- Each node of the first tree has come to be the one in its place. -/
def Becomes (tree next : Tree) : Prop :=
  ∀ path node, tree.node? path = some node →
    ∃ turns last, next.node? path = some last ∧ node.Lives turns last

theorem Becomes.refl (tree : Tree) : tree.Becomes tree :=
  fun _ node place => ⟨[], node, place, .rests⟩

theorem Becomes.trans {tree middle next : Tree} (left : tree.Becomes middle)
    (right : middle.Becomes next) : tree.Becomes next := by
  intro path node place
  obtain ⟨turns, between, place, lives⟩ := left path node place
  obtain ⟨more, last, place, onward⟩ := right path between place
  exact ⟨turns ++ more, last, place, lives.append onward⟩

/-- What happens to a node alone leaves the nodes below it where they are. -/
theorem becomes_of_children {tree next : Tree} (same : next.children = tree.children)
    {turns : List Turn} (lives : tree.Lives turns next) : tree.Becomes next := by
  intro path node place
  cases path with
  | nil =>
      cases place
      exact ⟨turns, next, rfl, lives⟩
  | cons index path =>
      refine ⟨[], node, ?_, .rests⟩
      unfold node? at place ⊢
      rwa [same]

/-- The nodes below a node have come to be those below the other. -/
def BelowBecomes (children children' : List Tree) : Prop :=
  ∀ (index : Nat) (child : Tree), children[index]? = some child →
    ∃ child', children'[index]? = some child' ∧ child.Becomes child'

theorem becomes_visited {tree next : Tree} {now : Instant} {world after : World}
    {answer : Except Halt Unit} (unfinished : tree.standing.isFinished = false)
    (sweeps : Sweeps now tree world answer next after)
    (below : BelowBecomes tree.children next.children) : tree.Becomes next := by
  intro path node place
  cases path with
  | nil =>
      cases place
      exact ⟨_, next, rfl, .visited unfinished sweeps .rests⟩
  | cons index path =>
      obtain ⟨child, listed, place⟩ := Option.bind_eq_some_iff.mp place
      obtain ⟨child', listed', becomes⟩ := below index child listed
      obtain ⟨turns, last, place', lives⟩ := becomes path node place
      exact ⟨turns, last, Option.bind_eq_some_iff.mpr ⟨child', listed', place'⟩, lives⟩

theorem becomes_finish (tree : Tree) : tree.Becomes tree.finish :=
  becomes_of_children (by cases tree <;> rfl) (.finished .rests)

theorem becomes_prepare (tree : Tree) (scope : Bool) : tree.Becomes (tree.prepare scope) :=
  becomes_of_children (by cases tree <;> rfl) (.prepared .rests)

theorem BelowBecomes.trans {children middle children' : List Tree}
    (left : BelowBecomes children middle) (right : BelowBecomes middle children') :
    BelowBecomes children children' := by
  intro index child place
  obtain ⟨between, place, becomes⟩ := left index child place
  obtain ⟨last, place, onward⟩ := right index between place
  exact ⟨last, place, becomes.trans onward⟩

theorem belowBecomes_set {children : List Tree} {index : Nat} {child next : Tree}
    (here : children[index]? = some child) (becomes : child.Becomes next) :
    BelowBecomes children (children.set index next) := by
  intro other old place
  by_cases same : other = index
  · subst same
    cases here.symm.trans place
    exact ⟨next, List.getElem?_set_self (List.getElem?_eq_some_iff.mp here).1, becomes⟩
  · exact ⟨old, (List.getElem?_set_ne (Ne.symm same)).trans place, .refl old⟩

end Tree

namespace Branch

theorem getElem?_restarted {children : List Tree} (reach : Nat) (f : Tree → Tree) (place : Nat) :
    ((children.take reach).map f ++ children.drop reach)[place]? =
      children[place]?.map fun child => if place < reach then f child else child := by
  rw [List.getElem?_append, List.length_map, List.length_take, List.getElem?_map,
    List.getElem?_take, List.getElem?_drop]
  by_cases inside : place < children.length
  · by_cases within : place < reach
    · have both : place < min reach children.length := Nat.lt_min.mpr ⟨within, inside⟩
      simp [both, within]
    · have beyond : ¬ place < min reach children.length := by omega
      have moved : reach + (place - min reach children.length) = place := by omega
      simp [beyond, within, moved]
  · have outside : ¬ place < min reach children.length := by omega
    have none : children.length ≤ place := Nat.le_of_not_lt inside
    rw [if_neg outside, List.getElem?_eq_none none, List.getElem?_eq_none (by omega)]
    rfl

/-- An answer finishes the child that failed, or starts new attempts. -/
theorem Answers.children {branch next : Branch} {index : Nat} {child : Tree} {failure : JobFailure}
    {answer : Except Halt Bool} (answers : Answers branch index child failure answer next)
    (here : branch.2[index]? = some child) {place : Nat} {old : Tree}
    (at' : branch.2[place]? = some old) :
    ∃ new, next.2[place]? = some new ∧
      (new = old ∨ (∃ scope, new = old.prepare scope) ∨ place = index ∧ new = old.finish) := by
  have put : ∀ new : Tree, ∃ new', (branch.2.set index new)[place]? = some new' ∧
      (new' = old ∨ place = index ∧ old = child ∧ new' = new) := by
    intro new
    by_cases same : place = index
    · subst same
      cases here.symm.trans at'
      exact ⟨new, getElem?_put_self here new, .inr ⟨rfl, rfl, rfl⟩⟩
    · exact ⟨old, (List.getElem?_set_ne (Ne.symm same)).trans at', .inl rfl⟩
  rcases answers.listed with same | same | ⟨-, same⟩ <;> rw [same]
  · exact ⟨old, at', .inl rfl⟩
  · obtain ⟨new, at', same | ⟨there, rfl, rfl⟩⟩ := put child.finish
    · exact ⟨new, at', .inl same⟩
    · exact ⟨_, at', .inr (.inr ⟨there, rfl⟩)⟩
  · unfold retried
    split
    · refine ⟨_, (getElem?_restarted _ _ _).trans (congrArg _ at'), ?_⟩
      split
      · exact .inr (.inl ⟨_, rfl⟩)
      · exact .inl rfl
    · obtain ⟨new, at', same | ⟨-, rfl, rfl⟩⟩ := put (child.prepare child.standing.newScope)
      · exact ⟨new, at', .inl same⟩
      · exact ⟨_, at', .inr (.inl ⟨_, rfl⟩)⟩

theorem Answers.length {branch next : Branch} {index : Nat} {child : Tree} {failure : JobFailure}
    {answer : Except Halt Bool} (answers : Answers branch index child failure answer next) :
    next.2.length = branch.2.length := by
  rcases answers.listed with same | same | ⟨-, same⟩ <;> rw [same]
  · exact List.length_set
  · unfold retried
    split
    · rw [List.length_append, List.length_map, ← List.length_append, List.take_append_drop]
    · exact List.length_set

theorem Answers.becomes {branch next : Branch} {index : Nat} {child : Tree} {failure : JobFailure}
    {answer : Except Halt Bool} (answers : Answers branch index child failure answer next)
    (here : branch.2[index]? = some child) : Tree.BelowBecomes branch.2 next.2 := by
  intro place old at'
  obtain ⟨new, kept, same | ⟨scope, same⟩ | ⟨-, same⟩⟩ := answers.children here at'
  · exact ⟨new, kept, same ▸ .refl old⟩
  · exact ⟨new, kept, same ▸ old.becomes_prepare scope⟩
  · exact ⟨new, kept, same ▸ old.becomes_finish⟩

end Branch

namespace Tree

theorem Sweeps.belowBecomes {now : Instant} {tree next : Tree} {world after : World}
    {answer : Except Halt Unit} (sweeps : Sweeps now tree world answer next after) :
    BelowBecomes tree.children next.children := by
  refine sweeps.rule (p := fun tree _ _ next _ => BelowBecomes tree.children next.children) ?_ ?_
  · intro leaf world answer leaf' after _ index child place
    cases place
  · intro group children world answer group' children' after sweeps
    have passed : ∀ {indices : List Nat} {branch last : Branch} {world after : World}
        {status : Checking} {answer : Except Halt Checking},
        Branch.Pass (fun child world answer next after =>
          Sweeps now child world answer next after ∧ BelowBecomes child.children next.children)
          indices branch world status answer last after → BelowBecomes branch.2 last.2 := by
      intro indices branch last world after status answer pass
      refine pass.keeps (p := fun middle _ => BelowBecomes branch.2 middle.2) ?_ ?_ ?_ ?_
      · intro index middle world answer child next there before here unfinished visit
        exact before.trans (belowBecomes_set here (becomes_visited unfinished visit.1 visit.2))
      · exact fun before => before
      · exact fun before here answers => before.trans (answers.becomes here)
      · exact fun index child place => ⟨child, place, .refl child⟩
    cases sweeps with
    | halts pass => exact passed pass
    | closes pass closes =>
        have same : children' = _ := closes.children
        exact same ▸ passed pass

/-- What a sweep makes of a tree is told by the lives of its nodes. -/
theorem Sweeps.becomes {now : Instant} {tree next : Tree} {world after : World}
    {answer : Except Halt Unit} (sweeps : Sweeps now tree world answer next after)
    (unfinished : tree.standing.isFinished = false) : tree.Becomes next :=
  becomes_visited unfinished sweeps sweeps.belowBecomes

end Tree

end BuildFlow
