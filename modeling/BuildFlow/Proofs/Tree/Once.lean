import BuildFlow.Proofs.Tree.Single
/-!
A sweep comes by a node at most once, and finds it as the sweep before has left it. After that
only the node itself may be prepared or taken for finished, and what lies below it stays as the
visit has left it.
-/
namespace BuildFlow

namespace Tree

@[simp] theorem children_prepare (tree : Tree) (scope : Bool) :
    (tree.prepare scope).children = tree.children := by
  cases tree <;> rfl

@[simp] theorem children_finish (tree : Tree) : tree.finish.children = tree.children := by
  cases tree <;> rfl

theorem node?_append (tree : Tree) (path more : List Nat) :
    tree.node? (path ++ more) = (tree.node? path).bind fun node => node.node? more := by
  induction path generalizing tree with
  | nil => rfl
  | cons index path ih =>
      simp only [List.cons_append, node?, Option.bind_assoc, ih]

/-- The children of a serial group at work are finished up to its cursor. -/
def Staged : Tree → Prop
  | .task _ => True
  | .branch group children => group.isSerial → group.standing.isFinished = false →
      ∀ child ∈ children.take group.cursor, child.standing.isFinished

theorem Covered.staged {before runner : Runner} {tree : Tree} (covered : tree.Covered before runner) :
    tree.Staged := by
  cases tree with
  | task leaf => trivial
  | branch group children => exact Branch.Covered.passed covered

end Tree

namespace Branch

variable {course : Course Tree} {index place : Nat} {indices : List Nat} {branch last next : Branch}
  {world after : World} {status : Checking} {child new : Tree} {failure : JobFailure}
  {answer : Except Halt Bool} {ended : Except Halt Checking}

/-- What lies below the node is as before, or as a visit to the node has left it. -/
inductive Once (course : Course Tree) (node last : Tree) : Prop
  | left (same : last.children = node.children)
  | visited {world after : World} {answer : Except Halt Unit} {next : Tree}
      (unfinished : node.standing.isFinished = false) (visit : course node world answer next after)
      (same : last.children = next.children)

theorem Once.dressed {node middle last : Tree} (once : Once course node middle)
    (same : last.children = middle.children) : Once course node last := by
  cases once with
  | left same' => exact .left (same.trans same')
  | visited unfinished visit same' => exact .visited unfinished visit (same.trans same')

/-- An answer leaves what lies below the children. -/
theorem Answers.below (answers : Answers branch index child failure answer next)
    (here : branch.2[index]? = some child) {old : Tree} (at' : branch.2[place]? = some old) :
    ∃ new, next.2[place]? = some new ∧ new.children = old.children := by
  obtain ⟨new, kept, rfl | ⟨scope, rfl⟩ | ⟨-, rfl⟩⟩ := answers.children here at'
  · exact ⟨_, kept, rfl⟩
  · exact ⟨_, kept, old.children_prepare scope⟩
  · exact ⟨_, kept, old.children_finish⟩

/-- A parallel group answers a child alone. -/
theorem Answers.others (answers : Answers branch index child failure answer next)
    (parallel : branch.1.isSerial = false) (different : place ≠ index) :
    next.2[place]? = branch.2[place]? := by
  have apart : ∀ new, (branch.2.set index new)[place]? = branch.2[place]? := fun new =>
    List.getElem?_set_ne (Ne.symm different)
  rcases answers.listed with same | same | ⟨-, same⟩ <;> rw [same]
  · exact apart _
  · unfold retried
    rw [if_neg (by exact Bool.eq_false_iff.mp parallel)]
    exact apart _

/-- One visit at most came by the child at the place, and none unless it is one of the places. -/
def MetOnce (course : Course Tree) (places : List Nat) (place : Nat) (child : Tree)
    (last : Branch) : Prop :=
  ∃ new, last.2[place]? = some new ∧ Once course child new ∧ (place ∉ places → new = child)

variable {visited : Tree} {there : World} {told : Except Halt Unit} {middle : Branch}

theorem metOnce_put (here : branch.2[index]? = some visited)
    (unfinished : visited.standing.isFinished = false) (visit : course visited world told new there)
    (at' : branch.2[place]? = some child) :
    MetOnce course [index] place child (branch.put index new) := by
  by_cases same : place = index
  · subst same
    cases here.symm.trans at'
    exact ⟨new, getElem?_put_self here new, .visited unfinished visit rfl,
      fun beyond => absurd (List.mem_singleton_self _) beyond⟩
  · exact ⟨child, (List.getElem?_set_ne (Ne.symm same)).trans at', .left rfl, fun _ => rfl⟩

/-- A parallel group that answers the visited child leaves the others alone. -/
theorem MetOnce.answered (met : MetOnce course [index] place child branch)
    (answers : Answers branch index new failure answer next) (here : branch.2[index]? = some new)
    (parallel : branch.1.isSerial = false) : MetOnce course [index] place child next := by
  obtain ⟨visited, placed, once, alone⟩ := met
  obtain ⟨dressed, kept, below⟩ := answers.below here placed
  refine ⟨dressed, kept, once.dressed below, fun beyond => ?_⟩
  have different : place ≠ index := fun same => beyond (List.mem_singleton.mpr same)
  cases kept.symm.trans ((answers.others parallel different).trans placed)
  exact alone beyond

/-- The rest of a pass does not come by the child again. -/
theorem MetOnce.onward (met : MetOnce course [index] place child middle)
    (fresh : (index :: indices).Nodup)
    (later : ∀ {child : Tree}, middle.2[place]? = some child →
      MetOnce course indices place child last) :
    MetOnce course (index :: indices) place child last := by
  obtain ⟨visited, placed, once, alone⟩ := met
  obtain ⟨new, kept, once', same⟩ := later placed
  by_cases first : place = index
  · cases same (first ▸ (List.nodup_cons.mp fresh).1)
    exact ⟨_, kept, once, fun beyond => absurd (first ▸ List.mem_cons_self) beyond⟩
  · cases alone (List.not_mem_cons_of_ne_of_not_mem first List.not_mem_nil)
    exact ⟨new, kept, once', fun beyond => same (List.not_mem_of_not_mem_cons beyond)⟩

theorem MetOnce.wider (met : MetOnce course [index] place child last) :
    MetOnce course (index :: indices) place child last := by
  obtain ⟨new, kept, once, alone⟩ := met
  exact ⟨new, kept, once, fun beyond =>
    alone (List.not_mem_cons_of_ne_of_not_mem (List.ne_of_not_mem_cons beyond) List.not_mem_nil)⟩

/-- A parallel group comes by each of its children at most once. -/
theorem Pass.once (pass : Pass course indices branch world status ended last after)
    (parallel : branch.1.isSerial = false) (fresh : indices.Nodup)
    (at' : branch.2[place]? = some child) : MetOnce course indices place child last := by
  induction pass generalizing child with
  | done => exact ⟨child, at', .left rfl, fun _ => rfl⟩
  | skips _ _ ih =>
      obtain ⟨new, kept, once, same⟩ := ih parallel fresh.of_cons at'
      exact ⟨new, kept, once, fun beyond => same (List.not_mem_of_not_mem_cons beyond)⟩
  | passes here unfinished visit _ ih =>
      exact (metOnce_put here unfinished visit at').onward fresh
        (ih ((Group.isSerial_setFailed _ _).trans parallel) fresh.of_cons)
  | fails here unfinished visit answers _ ih =>
      exact ((metOnce_put here unfinished visit at').answered answers (getElem?_put_self here _)
        parallel).onward fresh (ih (answers.isSerial.trans parallel) fresh.of_cons)
  | breaks here unfinished visit answers =>
      exact ((metOnce_put here unfinished visit at').answered answers (getElem?_put_self here _)
        parallel).wider
  | halts here unfinished visit => exact (metOnce_put here unfinished visit at').wider

/-- A serial group comes by the child at its cursor. -/
theorem Single.once (single : Single course branch world ended last after)
    (at' : branch.2[place]? = some child) :
    ∃ new, last.2[place]? = some new ∧ Once course child new := by
  -- The group may prepare any child when it answers, but that leaves what lies below.
  have answered : ∀ {visited next : Tree} {there : World} {failure : JobFailure}
      {answer : Except Halt Bool}, branch.2[branch.1.cursor]? = some visited →
      visited.standing.isFinished = false → course visited world (failedBy failure) next there →
      Answers (branch.put branch.1.cursor next) branch.1.cursor next failure answer last →
      ∃ new, last.2[place]? = some new ∧ Once course child new := by
    intro visited next there failure answer here unfinished visit answers
    obtain ⟨middle, placed, once, -⟩ := metOnce_put here unfinished visit at'
    obtain ⟨new, kept, below⟩ := answers.below (getElem?_put_self here next) placed
    exact ⟨new, kept, once.dressed below⟩
  cases single with
  | rests => exact ⟨child, at', .left rfl⟩
  | passes here unfinished visit =>
      obtain ⟨new, kept, once, -⟩ := metOnce_put here unfinished visit at'
      exact ⟨new, kept, once⟩
  | fails here unfinished visit answers => exact answered here unfinished visit answers
  | breaks here unfinished visit answers => exact answered here unfinished visit answers
  | halts here unfinished visit =>
      obtain ⟨new, kept, once, -⟩ := metOnce_put here unfinished visit at'
      exact ⟨new, kept, once⟩

/-- A sweep over a group comes by each of its children at most once. -/
theorem Sweeps.once {now : Instant} {group group' : Group} {children children' : List Tree}
    {answer : Except Halt Unit}
    (sweeps : Sweeps now course (group, children) world answer (group', children') after)
    (unfinished : group.standing.isFinished = false) (staged : Tree.Staged (.branch group children))
    (at' : children[place]? = some child) :
    ∃ new, children'[place]? = some new ∧ Once course child new := by
  have passed : ∀ {ended : Except Halt Checking} {last : Branch} {after : World},
      Pass course (List.range ((begun (group, children) now).span)) (begun (group, children) now) world
        .finished ended last after → ∃ new, last.2[place]? = some new ∧ Once course child new := by
    intro ended last after pass
    cases kind : (begun (group, children) now).1.isSerial with
    | true =>
        refine (pass.single kind ?_).once at'
        change ∀ child ∈ children.take (group.begun now).cursor, _
        rw [Group.cursor_begun]
        exact staged ((Group.isSerial_begun group now).symm.trans kind) unfinished
    | false =>
        obtain ⟨new, kept, once, -⟩ := pass.once kind List.nodup_range at'
        exact ⟨new, kept, once⟩
  cases sweeps with
  | halts pass => exact passed pass
  | @closes passed' _ _ _ _ pass closes =>
      have same : children' = passed'.2 := closes.children
      exact same ▸ passed pass

end Branch

namespace Tree

variable {now : Instant} {tree next : Tree} {world after : World} {answer : Except Halt Unit}

/-- What lies below each node is as before, or as one visit to the node has left it. -/
def Onces (now : Instant) (tree next : Tree) : Prop :=
  ∀ path node, tree.node? path = some node →
    ∃ last, next.node? path = some last ∧ Branch.Once (Sweeps now) node last

theorem onces_of_below (once : Branch.Once (Sweeps now) tree next)
    (below : ∀ (index : Nat) (child : Tree), tree.children[index]? = some child →
      ∃ new, next.children[index]? = some new ∧ child.Onces now new) : tree.Onces now next := by
  intro path node at'
  cases path with
  | nil =>
      cases at'
      exact ⟨next, rfl, once⟩
  | cons index path =>
      obtain ⟨child, listed, at'⟩ := Option.bind_eq_some_iff.mp at'
      obtain ⟨new, listed', onces⟩ := below index child listed
      obtain ⟨last, placed, once⟩ := onces path node at'
      exact ⟨last, Option.bind_eq_some_iff.mpr ⟨new, listed', placed⟩, once⟩

theorem onces_refl (tree : Tree) : tree.Onces now tree := fun _ node at' => ⟨node, at', .left rfl⟩

/-- A sweep comes by each node at most once. -/
theorem Sweeps.once (sweeps : Sweeps now tree world answer next after)
    (unfinished : tree.standing.isFinished = false) (staged : tree.Every Staged) :
    tree.Onces now next := by
  refine onces_of_below (.visited unfinished sweeps rfl) ?_
  refine sweeps.rule (p := fun tree _ _ next _ => tree.standing.isFinished = false →
    tree.Every Staged → ∀ (index : Nat) (child : Tree), tree.children[index]? = some child →
      ∃ new, next.children[index]? = some new ∧ child.Onces now new) ?_ ?_ unfinished staged
  · intro leaf world answer leaf' after _ _ _ index child listed
    cases listed
  · intro group children world answer group' children' after sweeps unfinished staged index child listed
    obtain ⟨here, below⟩ := every_branch.mp staged
    obtain ⟨new, kept, once⟩ := sweeps.once unfinished here listed
    refine ⟨new, kept, ?_⟩
    have staged := below child (List.mem_of_getElem? listed)
    cases once with
    | left same =>
        refine onces_of_below (.left same) fun index child listed => ?_
        exact ⟨child, same ▸ listed, onces_refl child⟩
    | visited unfinished visit same =>
        refine onces_of_below (.visited unfinished visit.1 same) fun index child listed => ?_
        exact same ▸ visit.2 unfinished staged index child listed

end Tree

end BuildFlow
