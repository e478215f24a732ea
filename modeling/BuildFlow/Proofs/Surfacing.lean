import BuildFlow.Proofs.Flow.Start
import BuildFlow.Proofs.Tree.Blame
/-!
What a failed run means. Where every node reports normally, some invocation is to
blame: its last build did not end well, and its job got as many builds as one retry
scope allows. The outer scopes are of no use to an invocation whose group is not
started over.
-/
namespace BuildFlow

namespace Tree

/-- A node that reports normally, and that has children if it is a group. -/
def IsNormal (node : Tree) : Prop :=
  node.standing.propagation = .normal ∧ ∀ group, node ≠ .branch group []

theorem children_blank (tree : Tree) : tree.blank.children = tree.children.map blank := by
  cases tree <;> simp [blank, children, blanks_eq]

theorem isNormal_blank (node : Tree) : node.blank.IsNormal ↔ node.IsNormal := by
  cases node with
  | task leaf => simp [IsNormal, blank, standing, Task.blank, Standing.blank]
  | branch group children =>
      simp [IsNormal, blank, standing, Group.blank, Standing.blank, blanks_eq]

theorem regular_of_ready {runner : Runner} {tree : Tree} (ready : tree.Every (Ready runner))
    (normal : tree.standing.propagation = .normal) : tree.standing.Regular := by
  have standing := standing_of_ready ready
  rw [standing] at normal ⊢
  refine ⟨normal, .inl ⟨?_, rfl⟩⟩
  have checked : tree.blank.standing.isUnchecked = false := by
    simp [Standing.isUnchecked, show tree.blank.standing.propagation = _ from normal]
  simp [Standing.prepare, checked]

/-- Before the first sweep nothing has been spent. -/
theorem accounted_of_ready {before runner : Runner} {tree : Tree}
    (ready : tree.Every (Ready runner)) (normal : tree.Every IsNormal)
    (present : ∀ name ∈ tree.names, ∃ job, runner.job? name = some job)
    (same : ∀ name, runner.buildsOf name = before.buildsOf name) :
    tree.Every (Accounted before runner) := by
  induction tree using childrenInduction with
  | leaf leaf =>
      obtain ⟨tried, total, unknown, uninvoked⟩ := counts_of_ready ready
      have regular := regular_of_ready ready normal.self.1
      refine every_task.mpr ⟨regular, ?_⟩
      constructor
      case sound => exact sound_task.mp (sound_of_ready ready)
      case present => exact present leaf.name (List.mem_singleton_self _)
      case counted => exact Nat.le_of_eq (tried.trans total.symm)
      case announced =>
        rw [show leaf.standing.totalTried = 1 from total]
        exact Nat.le_of_eq (congrArg List.length (same leaf.name).symm)
      -- Nothing is known of a leaf and nothing was invoked, so what follows from either holds.
      case begun =>
        rintro (known | invoked)
        · exact absurd unknown known
        · cases uninvoked.symm.trans invoked
      case reported => exact fun known => absurd unknown known
  | branch group children ih =>
      obtain ⟨here, below⟩ := every_branch.mp ready
      obtain ⟨here', below'⟩ := every_branch.mp normal
      refine every_branch.mpr ⟨⟨regular_of_ready ready here'.1, ?_⟩, fun child member => ?_⟩
      · constructor
        case inhabited => exact fun none => here'.2 group (congrArg (Tree.branch group) none)
        case guilty =>
          intro bad
          exact absurd (counts_of_ready ready).2.2.1 (BuildResult.known_of_isBad bad)
        case spent =>
          intro leaf member failure
          cases failure.symm.trans (counts_of_ready (below _ member)).2.2.1
        case passed =>
          intro _ _
          rw [show group = group.blank.prepare false from here, Group.cursor_prepare]
          exact fun child member => (List.not_mem_nil member).elim
      · apply ih child member (below child member) (below' child member)
        exact fun name named => present name (mem_names_branch.mpr ⟨child, member, named⟩)

end Tree

namespace Flow

variable {before : Runner}

/-- A loop that ends with a failure leaves somebody to blame. -/
theorem Looped.guilty {dir : Bool} {limit : Nat} {reads : Instant → Prop} {tree last : Tree}
    {world after : World} {failure : JobFailure}
    (looped : Looped dir limit reads tree world (failedBy failure) last after)
    (inhabited : tree.children ≠ []) (every : tree.Every (Tree.Accounted before world.runner)) :
    last.Guilty before after.runner := by
  have next : ∀ {tree : Tree} {world : World}, tree.Every (Tree.Accounted before world.runner) →
      tree.Every (Tree.Accounted before world.next.runner) := fun every =>
    every.mono fun node accounted => accounted.grows (Runner.grows_next _)
  have grouped : ∀ {now : Instant} {tree after : Tree} {world there : World} {answer : Except Halt Unit},
      Tree.Sweeps now tree world answer after there → tree.children ≠ [] → after.children ≠ [] := by
    intro now tree after world there answer sweep inhabited none
    have layout := congrArg Tree.children sweep.blank
    rw [Tree.children_blank, Tree.children_blank, none] at layout
    exact inhabited (List.map_eq_nil_iff.mp layout.symm)
  generalize ended : failedBy failure = answer at looped
  -- By induction on the rounds: sweeps and ticks keep the accounts, and the last sweep fails.
  induction looped with
  | settled => cases ended
  | again unsettled _ _ sweep _ ih =>
      have accounts := sweep.accounts .ok (Standing.unfinished unsettled) (next every)
      exact ih (grouped sweep inhabited) accounts.every ended
  | @broke tree last world after now halt unsettled read within sweep =>
      cases ended
      have accounts := sweep.accounts (.failed failure) (Standing.unfinished unsettled) (next every)
      apply accounts.every.self.guilty (accounts.failed failure rfl)
      rintro leaf rfl
      exact absurd rfl (grouped sweep inhabited)
  | refused => cases ended
  | overrun => cases ended
  | unwritten => cases ended

/-- A group with one try in one with three. -/
def nestedFlow : Flow :=
  .ofTree (.ofChildren true (.fresh 0 0 3 3 .normal) [
    .ofChildren true (.fresh 1 1 1 3 .normal) [.ofJob (.fresh 2 2 1 3 .normal) "build"]])

/-- The job fails once. -/
def nestedHost : Host := .ofPlans [{ name := "build", maxFails := 1 }]

/-- Whether a run ended with a failure that could have been tried again. -/
def hasFailed {α : Type} : Except Halt α → Bool
  | .error (.error (.failed _)) => true
  | _ => false

theorem failed_of_hasFailed {α : Type} {answer : Except Halt α} (failed : hasFailed answer) :
    ∃ failure, answer = .error (.error (.failed failure)) := by
  unfold hasFailed at failed
  split at failed
  · exact ⟨_, rfl⟩
  · cases failed

theorem normal_nestedFlow : nestedFlow.root.Every Tree.IsNormal := by
  intro node member
  simp only [nestedFlow, Flow.ofTree, Tree.ofChildren, Tree.ofJob, Tree.nodes, Tree.nodesOf,
    List.mem_cons, List.mem_append, List.not_mem_nil, or_false] at member
  rcases member with rfl | rfl | rfl <;> exact ⟨rfl, fun group same => by cases same⟩

end Flow

end BuildFlow
