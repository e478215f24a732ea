import BuildFlow.Proofs.Draft.Remaining
import BuildFlow.Proofs.Precedence
/-!
The graph of a declared flow. Its nodes are the invocations in the order of their declaration, and a
link leads from an invocation that is waited for to a later one in the same serial group. No link is
there twice, and there is no way back.
-/
namespace BuildFlow

/-! ## Invocations in order -/

namespace Tree

variable {tree next : Tree} {first second : Task}

theorem taskIds_blank (tree : Tree) : tree.blank.taskIds = tree.taskIds := by
  induction tree using consInduction with
  | leaf leaf => rfl
  | empty group => rfl
  | cons group child rest ih ih' =>
      simp only [blank, blanks] at ih' ⊢
      rw [taskIds_cons, taskIds_cons, ih, ih']

/-- A run does not change which invocations there are. -/
theorem taskIds_of_layout (layout : next.blank = tree.blank) : next.taskIds = tree.taskIds := by
  rw [← taskIds_blank, layout, taskIds_blank]

theorem lastTasks_sublist (tree : Tree) : tree.lastTasks.Sublist tree.tasks := by
  induction tree using consInduction with
  | leaf leaf =>
      unfold lastTasks
      split
      · exact List.nil_sublist _
      · exact List.Sublist.refl _
  | empty group => simp [lastTasks, lastOf, allLast]
  | cons group child rest ih ih' =>
      cases serial : group.isSerial
      · simp only [lastTasks, serial, Bool.false_eq_true, if_false, allLast] at ih' ⊢
        exact ih.append ih'
      · simp only [lastTasks, serial, if_true, lastOf] at ih' ⊢
        split
        · exact ih.trans (List.sublist_append_left _ _)
        · exact ih'.trans (List.sublist_append_right _ _)

/-- Where ids ascend, what comes after an invocation has a larger id. -/
theorem RunsBefore.ascends (runsBefore : tree.RunsBefore first second)
    (ascending : tree.taskIds.Pairwise (· < ·)) : first.standing.id < second.standing.id := by
  obtain ⟨group, _, ⟨inside, -⟩, -, before, child, after, rfl, here, other, later, there⟩ :=
    runsBefore
  have below := ascending.sublist ((tasks_sublist inside).map fun leaf => leaf.standing.id)
  change (Tree.branch group (before ++ child :: after)).taskIds.Pairwise (· < ·) at below
  rw [Draft.taskIds_branch, List.flatMap_append, List.flatMap_cons] at below
  obtain ⟨-, below, -⟩ := List.pairwise_append.mp below
  refine (List.pairwise_append.mp below).2.2 _ (id_mem_taskIds here) _ ?_
  exact List.mem_flatMap.mpr ⟨other, later, id_mem_taskIds there⟩

end Tree

namespace Graph

open BuildFlow.Tree

variable {style : Style} {tree child : Tree} {group : Group} {rest : List Tree} {before : List Task}
  {strip : Nat} {link : Link}

/-! ## Links -/

namespace Style

theorem links_empty (style : Style) (group : Group) (before : List Task) :
    style.links (.branch group []) before = [] := by
  unfold links
  split <;> rfl

/-- The other children wait for the first one in a serial group, and for the same as the first one in
a parallel group. -/
theorem links_cons (style : Style) (group : Group) (child : Tree) (rest : List Tree)
    (before : List Task) :
    style.links (.branch group (child :: rest)) before = style.links child before ++
      style.links (.branch group rest) (if group.isSerial then child.lastTasks else before) := by
  cases serial : group.isSerial <;> simp [links, serial, serialLinks, parallelLinks]

/-- A link leads into the tree, and unless it comes from outside it begins at an invocation in the
tree that is not unchecked. -/
theorem mem_links (member : link ∈ style.links tree before) :
    ∃ first second, link = ⟨style.key first, style.key second⟩ ∧ second ∈ tree.tasks ∧
      (first ∈ before ∨ first ∈ tree.tasks ∧ first.isUnchecked = false) := by
  induction tree using consInduction generalizing before with
  | leaf leaf =>
      obtain ⟨first, outside, rfl⟩ := List.mem_map.mp member
      exact ⟨first, leaf, rfl, List.mem_singleton_self _, .inl outside⟩
  | empty group =>
      rw [links_empty] at member
      cases member
  | cons group child rest ih ih' =>
      rw [links_cons] at member
      simp only [tasks, tasksOf, List.mem_append] at ih' ⊢
      rcases List.mem_append.mp member with here | there
      · obtain ⟨first, second, same, target, source⟩ := ih here
        exact ⟨first, second, same, .inl target, source.imp_right (And.imp_left .inl)⟩
      · obtain ⟨first, second, same, target, source⟩ := ih' there
        refine ⟨first, second, same, .inr target, ?_⟩
        rcases source with outside | ⟨inside, checked⟩
        · split at outside
          · obtain ⟨inside, checked⟩ := mem_lastTasks outside
            exact .inr ⟨.inl inside, checked⟩
          · exact .inl outside
        · exact .inr ⟨.inr inside, checked⟩

/-- No link is there twice, since no two links of one child have the same target as those of
another. -/
theorem nodup_links (distinct : tree.taskIds.Nodup)
    (apart : (before.map fun leaf => leaf.standing.id).Nodup) :
    ((Style.numeric strip).links tree before).Nodup := by
  induction tree using consInduction generalizing before with
  | leaf leaf =>
      refine List.pairwise_map.mpr ((List.pairwise_map.mp apart).imp fun {first second} other same => ?_)
      exact other (Key.id.inj (Link.mk.inj same).1)
  | empty group =>
      rw [links_empty]
      exact List.nodup_nil
  | cons group child rest ih ih' =>
      obtain ⟨here, there, separate⟩ := nodup_cons strip distinct
      rw [links_cons]
      refine List.nodup_append.mpr ⟨ih here apart, ih' there ?_, ?_⟩
      · split
        · exact here.sublist ((lastTasks_sublist child).map _)
        · exact apart
      · rintro link inner _ outer rfl
        obtain ⟨_, second, rfl, target, -⟩ := mem_links inner
        obtain ⟨_, second', same, target', -⟩ := mem_links outer
        refine separate (id_mem_taskIds target) ?_
        rw [Key.id.inj (Link.mk.inj same).2]
        exact id_mem_taskIds target'

end Style

/-! ## Graphs -/

/-- A graph of a tree in which links lead forward only. -/
structure Forward (graph : Graph) (tree : Tree) : Prop where
  distinct : (graph.nodes.map Node.key).Nodup
  once : graph.links.Nodup
  /-- The invocations meet in a serial group, where the source lies below an earlier child. -/
  leads : ∀ link ∈ graph.links, ∃ first ∈ tree.tasks, ∃ second ∈ tree.tasks,
    link = ⟨.id first.standing.id, .id second.standing.id⟩ ∧ first.isUnchecked = false ∧
      first.standing.id < second.standing.id ∧ tree.RunsBefore first second
  acyclic : ∀ key, ¬ Relation.TransGen (fun source target => ⟨source, target⟩ ∈ graph.links) key key

theorem keys_graph (strip : Nat) (tree : Tree) :
    ((Style.numeric strip).graph tree).nodes.map Node.key = tree.taskIds.map .id := by
  unfold Style.graph taskIds
  rw [List.map_map, List.map_map]
  rfl

theorem leads_graph (ascending : tree.taskIds.Pairwise (· < ·)) (strip : Nat)
    (member : link ∈ ((Style.numeric strip).graph tree).links) :
    ∃ first ∈ tree.tasks, ∃ second ∈ tree.tasks,
      link = ⟨.id first.standing.id, .id second.standing.id⟩ ∧ first.isUnchecked = false ∧
        first.standing.id < second.standing.id ∧ tree.RunsBefore first second := by
  have distinct : tree.taskIds.Nodup := ascending.imp Nat.ne_of_lt
  obtain ⟨first, second, rfl, target, source⟩ := Style.mem_links member
  obtain ⟨source, checked⟩ := source.resolve_left List.not_mem_nil
  have edge : (tree.span strip).edge first.standing.id second.standing.id := member
  have runsBefore : tree.RunsBefore first second :=
    ((reaches_span distinct).mp (.single edge)).runsBefore distinct source target
  exact ⟨first, source, second, target, rfl, checked, runsBefore.ascends ascending, runsBefore⟩

theorem forward_graph (ascending : tree.taskIds.Pairwise (· < ·)) (strip : Nat) :
    ((Style.numeric strip).graph tree).Forward tree := by
  have distinct : tree.taskIds.Nodup := ascending.imp Nat.ne_of_lt
  refine ⟨?_, Style.nodup_links distinct List.nodup_nil, fun link => leads_graph ascending strip,
    fun key path => ?_⟩
  · rw [keys_graph]
    exact distinct.map fun _ _ => Key.id.inj
  · -- Along a path the ids become larger.
    have climbs {source target : Key} (path : Relation.TransGen (fun source target =>
        ⟨source, target⟩ ∈ ((Style.numeric strip).graph tree).links) source target) :
        ∃ first second, source = .id first ∧ target = .id second ∧ first < second := by
      induction path with
      | single edge =>
          obtain ⟨first, -, second, -, same, -, less, -⟩ := leads_graph ascending strip edge
          cases same
          exact ⟨_, _, rfl, rfl, less⟩
      | tail _ edge ih =>
          obtain ⟨start, middle, rfl, rfl, before⟩ := ih
          obtain ⟨first, -, second, -, same, -, less, -⟩ := leads_graph ascending strip edge
          cases same
          exact ⟨_, _, rfl, rfl, Nat.lt_trans before less⟩
    obtain ⟨first, second, same, same', less⟩ := climbs path
    rw [Key.id.inj (same.symm.trans same')] at less
    exact Nat.lt_irrefl _ less

end Graph

namespace Draft

open BuildFlow.Graph

variable {config : RunConfig} {root : GroupOptions} {serial : Bool} {draft : Draft} {log : Log}
  {tree now : Tree}

/-- Let a draft be given any commands, some of which may have failed, and let it be finished then. The
graph of the tree with ids for keys has a node for each invocation that is left, in the order of the
commands. Its links lead from invocations that are not unchecked to later ones, which meet them in a
serial group. This also holds of the graphs that are written while the flow runs, since a run keeps
the layout of the tree. -/
theorem finish_exports (session : Session config root serial log draft) {host : Host}
    {ended : Draft × Host} (finished : finish.run (draft, host) = (.ok tree, ended))
    (layout : now.blank = tree.blank) (strip : Nat) :
    ((Style.numeric strip).graph now).nodes = now.tasks.map (Style.numeric strip).node ∧
      ((Style.numeric strip).graph now).nodes.map Node.key =
        log.remaining.map (fun placed => .id placed.id) ∧
      ((Style.numeric strip).graph now).Forward now := by
  have same := Tree.taskIds_of_layout layout
  refine ⟨rfl, ?_, forward_graph (same ▸ session.ascending finished) strip⟩
  rw [keys_graph, same, session.taskIds_eq finished, List.map_map]
  rfl

/-- Two invocations beside each other, one of them unchecked, between two others. A group in front of
the last one is dropped. -/
def pipelineCommands : List Command := [
  .invoke .root "build" [] false,
  .begin .root {} false,
  .invoke ⟨2, 1⟩ "test" [] false,
  .invoke ⟨2, 1⟩ "lint" [] true,
  .close ⟨2, 1⟩,
  .begin .root {} true,
  .invoke ⟨5, 1⟩ "stage" [] false,
  .drop ⟨5, 1⟩,
  .invoke .root "deploy" [] false]

theorem finish_exports_pipeline : ∃ log draft tree ended, Session {} {} true log draft ∧
    finish.run (draft, .ofPlans []) = (.ok tree, ended) ∧ tree.finish.blank = tree.blank ∧
    ((Style.numeric 0).graph tree.finish).nodes.map Node.key = [.id 1, .id 3, .id 4, .id 7] ∧
    ((Style.numeric 0).graph tree.finish).links =
      [⟨.id 1, .id 3⟩, ⟨.id 1, .id 4⟩, ⟨.id 3, .id 7⟩] ∧
    ((Style.numeric 0).graph tree.finish).Forward tree.finish := by
  have session := session_plain.performAll pipelineCommands (.ofPlans [])
  generalize performed : performAll pipelineCommands [] (plain, .ofPlans []) = out at session
  have closed : out.2.1.outer.length = 0 := by
    rw [← performed]
    decide +kernel
  have remaining : out.1.remaining.map Log.Placed.id = [1, 3, 4, 7] := by
    rw [← performed]
    decide +kernel
  have links : ((Style.numeric 0).graph
      (withMessages out.2.1.messages out.2.1.innermost.toTree).finish).links =
        [⟨.id 1, .id 3⟩, ⟨.id 1, .id 4⟩, ⟨.id 3, .id 7⟩] := by
    rw [← performed]
    decide +kernel
  obtain ⟨ended, finished⟩ := exists_finish (List.length_eq_zero_iff.mp closed) (.ofPlans [])
  have layout := Tree.blank_finish (withMessages out.2.1.messages out.2.1.innermost.toTree)
  obtain ⟨-, keys, forward⟩ := finish_exports session finished layout 0
  refine ⟨_, _, _, ended, session, finished, layout, keys.trans ?_, links, forward⟩
  exact (List.map_map ..).symm.trans (congrArg (List.map Key.id) remaining)

end Draft

end BuildFlow
