import BuildFlow.Proofs.Flow.Start
import BuildFlow.Proofs.Graph.Links
/-!
What the links of a graph say about the order of the jobs. A path along them never leads to an
invocation that need not wait, and it leads to each one that has to unless a child of a serial group
that nobody waits for stands in between.
-/
namespace BuildFlow

namespace Tree

variable {tree node child : Tree} {group : Group} {children rest : List Tree} {leaf other : Task}

/-! ## Order -/

/-- The group is the innermost node that both invocations lie in. -/
def Meets (root : Tree) (first second : Task) (group : Group) (children : List Tree) : Prop :=
  .branch group children ∈ root.nodes ∧ first ∈ tasksOf children ∧ second ∈ tasksOf children ∧
    ∀ child ∈ children, ¬ (first ∈ child.tasks ∧ second ∈ child.tasks)

/-- The invocations meet in a serial group, where the first lies below an earlier child. -/
def RunsBefore (root : Tree) (first second : Task) : Prop :=
  ∃ group children, root.Meets first second group children ∧ group.isSerial ∧
    ∃ before child after, children = before ++ child :: after ∧ first ∈ child.tasks ∧
      ∃ other ∈ after, second ∈ other.tasks

/-- Nobody waits for any invocation of the tree. -/
def Idle (tree : Tree) : Prop := ∀ leaf ∈ tree.tasks, leaf.isUnchecked

instance (tree : Tree) : Decidable tree.Idle := inferInstanceAs (Decidable (∀ _ ∈ _, _))

/-- In a serial group, the children that nobody waits for come last. -/
def Tapers : Tree → Prop
  | .task _ => True
  | .branch group children =>
      group.isSerial → children.Pairwise fun child other => child.Idle → other.Idle

instance : DecidablePred Tapers
  | .task _ => .isTrue trivial
  | .branch _ _ => inferInstanceAs (Decidable (_ → _))

/-- No child that nobody waits for stands before another one in its serial group. -/
def Unbroken (tree : Tree) : Prop := tree.Every Tapers

instance (tree : Tree) : Decidable tree.Unbroken :=
  inferInstanceAs (Decidable (∀ node ∈ tree.nodes, node.Tapers))

theorem Unbroken.below (unbroken : tree.Unbroken) (inside : .branch group children ∈ tree.nodes)
    (member : child ∈ children) : child.Unbroken :=
  fun node below => unbroken node (mem_nodes_of_child inside member below)

theorem Unbroken.tail (unbroken : (branch group (child :: rest)).Unbroken) :
    (branch group rest).Unbroken := by
  obtain ⟨tapers, below⟩ := every_branch.mp unbroken
  refine every_branch.mpr ⟨fun serial => (List.pairwise_cons.mp (tapers serial)).2, ?_⟩
  exact fun other member => below other (List.mem_cons_of_mem _ member)

theorem exists_of_not_idle (busy : ¬ tree.Idle) :
    ∃ leaf ∈ tree.tasks, leaf.isUnchecked = false := by
  simpa [Idle] using busy

theorem mem_lastTasks (member : leaf ∈ tree.lastTasks) :
    leaf ∈ tree.tasks ∧ leaf.isUnchecked = false := by
  induction tree using consInduction with
  | leaf other =>
      unfold lastTasks at member
      split at member
      · cases member
      · next checked =>
          rw [List.mem_singleton.mp member]
          exact ⟨List.mem_singleton_self _, by simpa using checked⟩
  | empty group => simp [lastTasks, lastOf, allLast] at member
  | cons group child rest ih ih' =>
      have inside : leaf ∈ child.lastTasks ∨ leaf ∈ (branch group rest).lastTasks := by
        cases serial : group.isSerial
        · simpa [lastTasks, serial, allLast] using member
        · simp only [lastTasks, serial, if_true, lastOf] at member ⊢
          split at member
          · exact .inl member
          · exact .inr member
      simp only [tasks, tasksOf, List.mem_append]
      exact inside.elim (fun here => ⟨.inl (ih here).1, (ih here).2⟩)
        fun there => ⟨.inr (ih' there).1, (ih' there).2⟩

/-- Where the order is unbroken, each invocation that is waited for passes it on. -/
theorem Unbroken.passes (unbroken : tree.Unbroken) (member : leaf ∈ tree.tasks)
    (checked : leaf.isUnchecked = false) :
    tree.relays ∧ leaf.standing.id ∈ tree.awaited ∧ leaf.standing.id ∈ tree.entered := by
  induction tree using consInduction generalizing leaf with
  | leaf other =>
      cases List.mem_singleton.mp member
      simp [relays, awaited, entered, checked]
  | empty group => cases member
  | cons group child rest ih ih' =>
      have ih {leaf : Task} := @ih leaf (unbroken.below List.mem_cons_self List.mem_cons_self)
      have ih' {leaf : Task} := @ih' leaf unbroken.tail
      have inside : leaf ∈ child.tasks ∨ leaf ∈ (branch group rest).tasks := by
        simpa [tasks, tasksOf] using member
      cases serial : group.isSerial
      · simp only [relays, awaited, entered, anyRelays, allAwaited, allEntered, serial,
          Bool.false_eq_true, if_false, Bool.or_eq_true, List.mem_append] at ih' ⊢
        rcases inside with here | there
        · obtain ⟨relays, awaited, entered⟩ := ih here checked
          exact ⟨.inl relays, .inl awaited, .inl entered⟩
        · obtain ⟨relays, awaited, entered⟩ := ih' there checked
          exact ⟨.inr relays, .inr awaited, .inr entered⟩
      · -- If anything behind the first child is waited for, all up to there passes the order on.
        have onward : (lastOf rest).isEmpty ∨ allRelay rest := by
          cases last : lastOf rest with
          | nil => exact .inl rfl
          | cons task others =>
              have final : task ∈ (branch group rest).lastTasks := by
                simp [lastTasks, serial, last]
              obtain ⟨inside, checked⟩ := mem_lastTasks final
              have passes := (ih' inside checked).1
              simp only [relays, serial, if_true] at passes
              exact .inr passes
        simp only [relays, awaited, entered, allRelay, awaitedOf, enteredOf, serial, if_true,
          Bool.and_eq_true, Bool.or_eq_true, List.mem_append, onward, and_true] at ih' ⊢
        rcases inside with here | there
        · obtain ⟨relays, awaited, entered⟩ := ih here checked
          exact ⟨relays, .inl awaited, .inl entered⟩
        · obtain ⟨-, awaited, entered⟩ := ih' there checked
          obtain ⟨other, listed, below⟩ := mem_tasksOf.mp there
          have ordered := List.pairwise_cons.mp (unbroken.self serial)
          have busy : ¬ child.Idle := fun idle => by
            have unchecked := ordered.1 other listed idle leaf below
            rw [checked] at unchecked
            cases unchecked
          obtain ⟨first, inside, waited⟩ := exists_of_not_idle busy
          have relays := (ih inside waited).1
          rw [if_pos relays]
          exact ⟨relays, .inr awaited, .inr entered⟩

/-! ## Paths -/

theorem entered_subset (distinct : tree.taskIds.Nodup) {id : Nat} (enters : id ∈ tree.entered) :
    id ∈ tree.taskIds :=
  (closed_span 0 tree).enters ((enters_iff 0 distinct).mpr enters)

theorem awaited_subset (distinct : tree.taskIds.Nodup) {id : Nat} (leaves : id ∈ tree.awaited) :
    id ∈ tree.taskIds :=
  (closed_span 0 tree).leaves (((leaves_iff 0 distinct).2 id).mpr leaves)

/-- Children that the invocations lie in cannot be the same one. -/
theorem meets_of_children {first second : Task} {before after : List Tree} {other : Tree}
    (distinct : tree.taskIds.Nodup) (inside : .branch group (before ++ child :: after) ∈ tree.nodes)
    (here : first ∈ child.tasks) (later : other ∈ after) (there : second ∈ other.tasks) :
    tree.Meets first second group (before ++ child :: after) := by
  obtain ⟨-, apart, apart'⟩ :=
    List.pairwise_append.mp (children_apart (distinct_below distinct inside))
  have apart := List.pairwise_cons.mp apart
  have among : first ∈ tasksOf (before ++ child :: after) := mem_tasksOf.mpr ⟨child, by simp, here⟩
  have among' : second ∈ tasksOf (before ++ child :: after) :=
    mem_tasksOf.mpr ⟨other, by simp [later], there⟩
  refine ⟨inside, among, among', fun both member ⟨holds, holds'⟩ => ?_⟩
  rcases List.mem_append.mp member with earlier | member
  · exact apart' both earlier child List.mem_cons_self first holds here
  · rcases List.mem_cons.mp member with rfl | behind
    · exact apart.1 other later second holds' there
    · exact apart.1 both behind first here holds

theorem mem_child_of_id (distinct : tree.taskIds.Nodup)
    (inside : .branch group children ∈ tree.nodes) (member : child ∈ children)
    (listed : leaf ∈ tree.tasks) (named : leaf.standing.id ∈ child.taskIds) :
    leaf ∈ child.tasks := by
  obtain ⟨other, below, same⟩ := List.mem_map.mp named
  have inside := mem_nodes_of_child inside member (self_mem_nodes child)
  exact eq_of_id distinct ((tasks_sublist inside).subset below) listed same ▸ below

/-- Who waits for an invocation comes after it. -/
theorem Follows.runsBefore {first second : Task} (distinct : tree.taskIds.Nodup)
    (listed : first ∈ tree.tasks) (listed' : second ∈ tree.tasks)
    (follows : tree.Follows first.standing.id second.standing.id) :
    tree.RunsBefore first second := by
  obtain ⟨group, _, inside, serial, before, child, between, other, after, rfl, leaves, -, enters⟩ :=
    follows
  have apart {node : Tree} (member : node ∈ before ++ child :: (between ++ other :: after)) :
      node.taskIds.Nodup :=
    distinct_below distinct (mem_nodes_of_child inside member (self_mem_nodes _))
  have here : first ∈ child.tasks :=
    mem_child_of_id distinct inside (by simp) listed (awaited_subset (apart (by simp)) leaves)
  have there : second ∈ other.tasks :=
    mem_child_of_id distinct inside (by simp) listed' (entered_subset (apart (by simp)) enters)
  exact ⟨group, _, meets_of_children distinct inside here (by simp) there, serial,
    before, child, _, rfl, here, other, by simp, there⟩

/-- Who comes after an invocation waits for it, where the order is unbroken. -/
theorem RunsBefore.follows {first second : Task} (unbroken : tree.Unbroken)
    (checked : first.isUnchecked = false) (checked' : second.isUnchecked = false)
    (runsBefore : tree.RunsBefore first second) :
    tree.Follows first.standing.id second.standing.id := by
  obtain ⟨group, _, ⟨inside, -⟩, serial, before, child, after, rfl, here, other, later, there⟩ :=
    runsBefore
  obtain ⟨between, after, rfl⟩ := List.append_of_mem later
  refine ⟨group, _, inside, serial, before, child, between, other, after, rfl, ?_, ?_, ?_⟩
  · exact ((unbroken.below inside (by simp)).passes here checked).2.1
  · intro middle member
    -- What stands in between has an invocation that is waited for, since the second one is.
    have ordered := (List.pairwise_append.mp (unbroken _ inside serial)).2.1
    have ordered := (List.pairwise_append.mp (List.pairwise_cons.mp ordered).2).2.2
    have busy : ¬ middle.Idle := fun idle => by
      have unchecked := ordered middle member other List.mem_cons_self idle second there
      rw [checked'] at unchecked
      cases unchecked
    obtain ⟨waited, among, checked⟩ := exists_of_not_idle busy
    exact ((unbroken.below inside (by simp [member])).passes among checked).1
  · exact ((unbroken.below inside (by simp)).passes there checked').2.2

end Tree

namespace Graph

/-- The target is at the end of a path that begins at the source. -/
def Reaches (graph : Graph) (source target : Task) : Prop :=
  Relation.TransGen (Waits graph.links) source.standing.id target.standing.id

open BuildFlow.Tree

/-- Take two invocations that are not unchecked and lie in no unchecked group. Which paths of links
there are between such invocations can be read off the tree. A path from the first to the second
means that they meet in a serial group, the first below an earlier child. Where no child that nobody
waits for stands before another one in its serial group, there is a path for each such order. -/
theorem reaches_iff_runsBefore {root : Tree} (distinct : root.taskIds.Nodup) (strip : Nat)
    {first second : Task} (checked : first ∈ root.checkedTasks)
    (checked' : second ∈ root.checkedTasks) :
    (((Style.numeric strip).graph root).Reaches first second ↔
      root.Follows first.standing.id second.standing.id) ∧
    (((Style.numeric strip).graph root).Reaches first second → root.RunsBefore first second) ∧
    (root.Unbroken →
      (((Style.numeric strip).graph root).Reaches first second ↔ root.RunsBefore first second)) := by
  have listed := mem_tasks.mpr (of_mem_checkedTasks checked).1
  have listed' := mem_tasks.mpr (of_mem_checkedTasks checked').1
  have reaches : ((Style.numeric strip).graph root).Reaches first second ↔
      root.Follows first.standing.id second.standing.id :=
    reaches_span distinct
  have sound (path : ((Style.numeric strip).graph root).Reaches first second) :
      root.RunsBefore first second :=
    (reaches.mp path).runsBefore distinct listed listed'
  refine ⟨reaches, sound, fun unbroken => ⟨sound, fun runsBefore => reaches.mpr ?_⟩⟩
  exact runsBefore.follows unbroken (of_mem_checkedTasks checked).2 (of_mem_checkedTasks checked').2

/-- Two groups, and an unchecked invocation at the end of one of them. -/
def releaseTree : Tree :=
  .ofChildren true (.fresh 0 0 1 1 .normal) [
    .ofJob (.fresh 1 1 1 1 .normal) "checkout",
    .ofChildren false (.fresh 2 1 1 1 .normal) [
      .ofJob (.fresh 3 2 1 1 .normal) "build",
      .ofChildren true (.fresh 4 2 1 1 .normal) [
        .ofJob (.fresh 5 3 1 1 .normal) "test",
        .ofJob (.fresh 6 3 1 1 .unchecked) "lint"]],
    .ofJob (.fresh 7 1 1 1 .normal) "deploy"]

theorem reaches_iff_runsBefore_release :
    releaseTree.taskIds.Nodup ∧ releaseTree.Unbroken ∧
      ∃ first second, first.name = "checkout" ∧ second.name = "deploy" ∧
        first ∈ releaseTree.checkedTasks ∧ second ∈ releaseTree.checkedTasks ∧
        ((Style.numeric 0).graph releaseTree).links =
          [⟨.id 1, .id 3⟩, ⟨.id 1, .id 5⟩, ⟨.id 5, .id 6⟩, ⟨.id 3, .id 7⟩, ⟨.id 5, .id 7⟩] ∧
        (((Style.numeric 0).graph releaseTree).Reaches first second ↔
          releaseTree.Follows first.standing.id second.standing.id) ∧
        (((Style.numeric 0).graph releaseTree).Reaches first second →
          releaseTree.RunsBefore first second) ∧
        (releaseTree.Unbroken → (((Style.numeric 0).graph releaseTree).Reaches first second ↔
          releaseTree.RunsBefore first second)) := by
  have distinct : releaseTree.taskIds.Nodup := by decide
  have unbroken : releaseTree.Unbroken := by decide
  exact ⟨distinct, unbroken, _, _, rfl, rfl, .head _, .tail _ (.tail _ (.tail _ (.head _))),
    by decide, reaches_iff_runsBefore distinct 0 (.head _) (.tail _ (.tail _ (.tail _ (.head _))))⟩

/-- An unchecked invocation between two others. -/
def interruptedTree : Tree :=
  .ofChildren true (.fresh 0 0 1 1 .normal) [
    .ofJob (.fresh 1 1 1 1 .normal) "build",
    .ofJob (.fresh 2 1 1 1 .unchecked) "lint",
    .ofJob (.fresh 3 1 1 1 .normal) "deploy"]

/-- The last invocation comes after the first one, but no link leads to it. -/
theorem reaches_iff_runsBefore_interrupted :
    interruptedTree.taskIds.Nodup ∧
      ∃ first second, first.name = "build" ∧ second.name = "deploy" ∧
        first ∈ interruptedTree.checkedTasks ∧ second ∈ interruptedTree.checkedTasks ∧
        interruptedTree.RunsBefore first second ∧
        ((Style.numeric 0).graph interruptedTree).links = [⟨.id 1, .id 2⟩] ∧
        ¬ ((Style.numeric 0).graph interruptedTree).Reaches first second := by
  have distinct : interruptedTree.taskIds.Nodup := by decide
  have links : ((Style.numeric 0).graph interruptedTree).links = [⟨.id 1, .id 2⟩] := by decide
  refine ⟨distinct, _, _, rfl, rfl, .head _, .tail _ (.head _), ?_, links, fun path => ?_⟩
  · exact ⟨_, _, meets_of_children distinct (self_mem_nodes _) (.head _) (.tail _ (.head _))
      (.head _), rfl, [], _, _, rfl, .head _, _, .tail _ (.head _), .head _⟩
  · obtain ⟨_, _, last⟩ := Relation.TransGen.tail'_iff.mp path
    unfold Waits at last
    rw [links] at last
    cases List.mem_singleton.mp last

end Graph

end BuildFlow
