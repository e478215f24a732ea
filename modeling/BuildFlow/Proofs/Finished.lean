import BuildFlow.Flow
import BuildFlow.Proofs.Draft.Kept
import BuildFlow.Proofs.Flow.Start
import Mathlib.Algebra.BigOperators.Group.List.Basic
/-!
What a finished flow looks like. All of it is told by the commands: which groups and invocations
there are and in which order, how often they may be tried, what they are called, also in the graph,
and which messages they have.
-/
namespace BuildFlow

/-! ## Names in the graph -/

namespace Graph.Style

theorem dropBytes?_append (front rest : List Char) :
    dropBytes? (String.ofList front).utf8ByteSize (front ++ rest) = some rest := by
  induction front with
  | nil => simp [dropBytes?]
  | cons c front ih =>
      have size : (String.ofList (c :: front)).utf8ByteSize =
          c.utf8Size + (String.ofList front).utf8ByteSize := by
        rw [← List.singleton_append, String.ofList_append, String.utf8ByteSize_append]
        simp
      have some' := c.utf8Size_pos
      rw [size, List.cons_append, dropBytes?, if_pos (by omega), Nat.add_sub_cancel_left, ih]
      omega

/-- What is in front of a name is cut off by its bytes. -/
theorem shortName_append (indent : Option Nat) (front rest : String) :
    shortName ⟨indent, front.utf8ByteSize⟩ (front ++ rest) = rest := by
  have drops := dropBytes?_append front.toList rest.toList
  rw [String.ofList_toList] at drops
  simp only [shortName, String.toList_append, drops, Option.map_some, Option.getD_some,
    String.ofList_toList]

theorem shortName_zero (indent : Option Nat) (name : String) :
    shortName ⟨indent, 0⟩ name = name := by
  simp [shortName, dropBytes?]

end Graph.Style

/-! ## Places in a tree -/

namespace Tree

theorem taskIds_eq (tree : Tree) : tree.taskIds = tree.nodes.filterMap taskId? := by
  induction tree using consInduction with
  | leaf => rfl
  | empty => rfl
  | cons group child rest ih ih' =>
      simp only [nodes, nodesOf_eq, List.flatMap_cons, taskIds_cons, ih, ih', List.filterMap_cons,
        taskId?, List.filterMap_append]

/-- The node lies in the tree, in these groups from the inside out. -/
inductive LiesIn (tree : Tree) : List Group → Tree → Prop
  | self : LiesIn tree [] tree
  | child {around : List Group} {group : Group} {children : List Tree} {child : Tree}
      (parent : LiesIn tree around (.branch group children)) (member : child ∈ children) :
      LiesIn tree (group :: around) child

variable {tree node : Tree} {around : List Group}

theorem LiesIn.mem_nodes (lies : tree.LiesIn around node) : node ∈ tree.nodes := by
  induction lies with
  | self => exact self_mem_nodes tree
  | child _ member ih => exact mem_nodes_of_child ih member (self_mem_nodes _)

/-- The nodes of a tree are all that have a place in it. -/
theorem mem_nodes_iff_liesIn : node ∈ tree.nodes ↔ ∃ around, tree.LiesIn around node := by
  refine ⟨fun inside => ?_, fun ⟨_, lies⟩ => lies.mem_nodes⟩
  suffices below : ∀ {start : Tree} {around}, tree.LiesIn around start → node ∈ start.nodes →
      ∃ around, tree.LiesIn around node from below .self inside
  intro start around lies inside
  induction start using childrenInduction generalizing around with
  | leaf => exact List.mem_singleton.mp inside ▸ ⟨around, lies⟩
  | branch group children ih =>
      rcases List.mem_cons.mp inside with rfl | deeper
      · exact ⟨around, lies⟩
      · obtain ⟨child, member, inside⟩ := mem_nodesOf.mp deeper
        exact ih child member (lies.child member) inside

end Tree

namespace Draft

open BuildFlow.Tree

variable {config : RunConfig} {root : GroupOptions} {serial : Bool} {draft : Draft} {log : Log}
  {messages : Table Nat String} {tree node child : Tree} {group : Group} {children : List Tree}
  {around : List Group}

/-! ## Messages -/

theorem allWithMessages_eq (messages : Table Nat String) (children : List Tree) :
    allWithMessages messages children = children.map (withMessages messages) := by
  induction children with
  | nil => rfl
  | cons child rest ih => rw [allWithMessages, ih, List.map_cons]

theorem nodes_withMessages (messages : Table Nat String) (tree : Tree) :
    (withMessages messages tree).nodes = tree.nodes.map (withMessages messages) := by
  induction tree using consInduction with
  | leaf => rfl
  | empty => rfl
  | cons group child rest ih ih' =>
      simp only [withMessages, allWithMessages_eq, nodes, nodesOf_eq, List.map_cons,
        List.flatMap_cons, List.map_append, ih] at ih' ⊢
      simpa using ih'

theorem standing_withMessages (messages : Table Nat String) (tree : Tree) :
    (withMessages messages tree).standing =
      { tree.standing with message := messages.get? tree.standing.id } := by
  cases tree <;> rfl

theorem nodeIds_withMessages (messages : Table Nat String) (tree : Tree) :
    (withMessages messages tree).nodeIds = tree.nodeIds := by
  simp only [nodeIds, nodes_withMessages, List.map_map]
  refine List.map_congr_left fun node _ => ?_
  rw [Function.comp_apply, standing_withMessages]

theorem taskId?_withMessages (messages : Table Nat String) (tree : Tree) :
    (withMessages messages tree).taskId? = tree.taskId? := by
  cases tree <;> rfl

theorem taskIds_withMessages (messages : Table Nat String) (tree : Tree) :
    (withMessages messages tree).taskIds = tree.taskIds := by
  simp only [taskIds_eq, nodes_withMessages, List.filterMap_map]
  exact List.filterMap_congr fun node _ => taskId?_withMessages messages node

/-- The group with its message. -/
def told (messages : Table Nat String) (group : Group) : Group :=
  { group with standing := { group.standing with message := messages.get? group.standing.id } }

theorem withMessages_branch (messages : Table Nat String) (group : Group) (children : List Tree) :
    withMessages messages (.branch group children) =
      .branch (told messages group) (children.map (withMessages messages)) := by
  rw [withMessages, allWithMessages_eq]
  rfl

theorem Fits.withMessages (fits : Fits root log group child) :
    Fits root log (told messages group) (withMessages messages child) := by
  cases child with
  | task leaf =>
      obtain ⟨level, maxTries, total, name⟩ := fits
      exact ⟨level, maxTries, total, name⟩
  | branch =>
      obtain ⟨level, maxTries, total, bounded, jobPrefix⟩ := fits
      exact ⟨level, maxTries, total, bounded, jobPrefix⟩

theorem Full.withMessages (full : Full root log group children) :
    Full root log (told messages group) (children.map (withMessages messages)) := by
  refine ⟨List.forall_mem_map.mpr fun child member => (full.fits child member).withMessages, ?_⟩
  refine Eq.trans ?_ full.listed
  rw [List.filterMap_map]
  exact List.filterMap_congr fun child _ => taskId?_withMessages messages child

theorem Closed.withMessages (closed : tree.Every (Closed root log)) :
    (withMessages messages tree).Every (Closed root log) := by
  intro node inside
  rw [nodes_withMessages] at inside
  obtain ⟨old, listed, rfl⟩ := List.mem_map.mp inside
  cases old with
  | task => trivial
  | branch group children =>
      obtain ⟨inhabited, full⟩ := closed (.branch group children) listed
      rw [withMessages_branch]
      exact ⟨by simpa using inhabited, full.withMessages⟩

/-! ## The tree as a whole -/

/-- A tree that was declared by the commands of a log. -/
def Grown (root : GroupOptions) (log : Log) : Tree → Prop
  | .task _ => False
  | .branch group children => Rooted root group ∧ Full root log group children ∧
      ∀ child ∈ children, child.Every (Closed root log)

theorem Grown.withMessages (grown : Grown root log tree) :
    Grown root log (withMessages messages tree) := by
  cases tree with
  | task => exact grown
  | branch group children =>
      obtain ⟨⟨id, level, maxTries, total, jobPrefix⟩, full, below⟩ := grown
      rw [withMessages_branch]
      refine ⟨⟨id, level, maxTries, total, jobPrefix⟩, full.withMessages, ?_⟩
      exact List.forall_mem_map.mpr fun child member => Closed.withMessages (below child member)

/-- What is known of a group at its place. Its children are all that lies below it. -/
theorem Grown.full (grown : Grown root log tree)
    (lies : tree.LiesIn around (.branch group children)) :
    Full root log group children ∧ (around ≠ [] → children ≠ []) ∧
      ∀ child ∈ children, child.Every (Closed root log) := by
  generalize same : Tree.branch group children = node at lies
  induction lies generalizing group children with
  | self =>
      subst same
      exact ⟨grown.2.1, fun nested => absurd rfl nested, grown.2.2⟩
  | child _ member ih =>
      subst same
      obtain ⟨-, -, below⟩ := ih rfl
      obtain ⟨⟨inhabited, full⟩, below⟩ := every_branch.mp (below _ member)
      exact ⟨full, fun _ => inhabited, below⟩

theorem Fits.level (fits : Fits root log group child) :
    child.standing.level = group.standing.level + 1 := by
  cases child with
  | task => exact Hangs.level fits
  | branch => exact Nests.level fits

/-- A node fits the group that it lies in. -/
theorem Grown.fits (grown : Grown root log tree) (lies : tree.LiesIn (group :: around) node) :
    Fits root log group node ∧
      ∃ children, tree.LiesIn around (.branch group children) ∧ node ∈ children := by
  cases lies with
  | child parent member => exact ⟨(grown.full parent).1.fits _ member, _, parent, member⟩

/-- What all job names in a group begin with, by the prefixes that were given to the groups. -/
def Log.prefixOf (root : GroupOptions) (log : Log) : List Group → String
  | [] => ""
  | group :: around => prefixOf root log around ++ (log.optionsOf root group.standing.id).jobPrefix

/-- What follows for a group from all groups around it. -/
structure Amounts (root : GroupOptions) (log : Log) (group : Group) (around : List Group) :
    Prop where
  level : group.standing.level = around.length
  maxTries : group.standing.maxTries = (log.optionsOf root group.standing.id).maxTries
  total : group.standing.totalMaxTries =
    ((group :: around).map fun group => group.standing.maxTries).prod
  bounded : group.standing.totalMaxTries < triesBound
  jobPrefix : group.jobPrefix = log.prefixOf root (group :: around)

theorem Grown.amounts (grown : Grown root log tree) (own : log.optionsOf root 0 = root)
    (bounded : root.maxTries < triesBound) (lies : tree.LiesIn around (.branch group children)) :
    Amounts root log group around := by
  generalize same : Tree.branch group children = node at lies
  induction lies generalizing group children with
  | self =>
      subst same
      obtain ⟨⟨id, level, maxTries, total, jobPrefix⟩, -⟩ := grown
      have own : log.optionsOf root group.standing.id = root := id ▸ own
      refine ⟨level, ?_, by simp [total, maxTries], total ▸ bounded, ?_⟩
      · rw [own, maxTries]
      · simp [Log.prefixOf, own, jobPrefix]
  | child parent member ih =>
      subst same
      obtain ⟨level, maxTries, total, bounded, jobPrefix⟩ := (grown.fits (parent.child member)).1
      have around := ih rfl
      refine ⟨?_, maxTries, ?_, bounded, ?_⟩
      · rw [level, around.level]
        rfl
      · rw [total, around.total]
        rfl
      · rw [jobPrefix, around.jobPrefix]
        rfl

theorem Grown.level (grown : Grown root log tree) (own : log.optionsOf root 0 = root)
    (bounded : root.maxTries < triesBound) (lies : tree.LiesIn around node) :
    node.standing.level = around.length := by
  cases lies with
  | self =>
      cases tree with
      | task => exact grown.elim
      | branch => exact grown.1.level
  | child parent member =>
      rw [((grown.full parent).1.fits _ member).level, (grown.amounts own bounded parent).level]
      rfl

/-- The prefix of the root stands in front of all others. -/
theorem Grown.prefixOf_root (grown : Grown root log tree) (own : log.optionsOf root 0 = root)
    (lies : tree.LiesIn (group :: around) node) : log.prefixOf root (group :: around) =
      root.jobPrefix ++ log.prefixOf root (group :: around).dropLast := by
  induction around generalizing group node with
  | nil =>
      obtain ⟨-, children, parent, -⟩ := grown.fits lies
      cases parent with
      | self =>
          have id : group.standing.id = 0 := grown.1.id
          simp [Log.prefixOf, id, own]
  | cons outer around ih =>
      obtain ⟨-, children, parent, -⟩ := grown.fits lies
      rw [Log.prefixOf, ih parent, String.append_assoc]
      rfl

/-- What a job is called in the tree, and in the graph, which may leave out the prefix of the
root. -/
theorem Grown.names (grown : Grown root log tree) (own : log.optionsOf root 0 = root)
    (bounded : root.maxTries < triesBound) {leaf : Task} (lies : tree.LiesIn around (.task leaf))
    (indent : Option Nat) (strips : Bool) :
    ∃ placed ∈ log.placed, placed.id = leaf.standing.id ∧
      leaf.name = log.prefixOf root around ++ placed.job ∧
      (Graph.Style.node ⟨indent, if strips then root.jobPrefix.utf8ByteSize else 0⟩ leaf).name =
        log.prefixOf root (if strips then around.dropLast else around) ++ placed.job := by
  cases lies with
  | self => exact grown.elim
  | child parent member =>
      have jobPrefix := (grown.amounts own bounded parent).jobPrefix
      have leading := grown.prefixOf_root own (parent.child member)
      obtain ⟨placed, known, same, name⟩ := ((grown.full parent).1.fits _ member).name
      rw [jobPrefix] at name
      refine ⟨placed, known, same, name, ?_⟩
      unfold Graph.Style.node
      cases strips
      · exact (Graph.Style.shortName_zero ..).trans name
      · rw [leading, String.append_assoc] at name
        rw [name]
        exact Graph.Style.shortName_append ..

/-! ## Finished flows -/

theorem Log.zero_mem_ids (log : Log) : 0 ∈ log.ids := by
  fun_induction Log.ids log with
  | case1 => exact List.mem_cons_self
  | case2 _ _ _ _ _ ih => exact List.mem_append_left _ ih
  | case3 _ _ _ _ _ _ ih => exact List.mem_append_left _ ih
  | case4 _ _ _ _ ih => exact ih

/-- The options of the root are those that the flow was started with. -/
theorem Session.optionsOf_root (session : Session config root serial log draft) :
    log.optionsOf root 0 = root := by
  refine session.keeps (p := fun log _ => log.optionsOf root 0 = root) (fun _ => rfl)
    (fun {log draft _ _ _} session own performs => ?_) fun own => ?_
  · cases performs with
    | begins =>
        have new : draft.nextId ≠ 0 := Nat.ne_of_gt (session.filed.below log.zero_mem_ids)
        exact (if_neg new).trans own
    | closes => exact own
    | drops => exact own
    | keeps => exact own
    | invokes => exact own
    | tells => exact own
  · rw [Log.optionsOf_error]
    exact own

theorem Session.grown (session : Session config root serial log draft) (closed : draft.outer = []) :
    Grown root log draft.innermost.toTree := by
  have stacked := session.shape.stacked
  rw [groups, closed] at stacked
  exact ⟨stacked.1, stacked.2.full, stacked.2.below⟩

/-- A finished flow as the commands have declared it. -/
structure Finished (config : RunConfig) (root : GroupOptions) (log : Log) (tree : Tree)
    (style : Graph.Style) : Prop where
  /-- Ids are given out in the order of the commands, and that is the order in the tree. -/
  given : log.ids.Pairwise (· < ·)
  ordered : tree.nodeIds.Pairwise (· < ·)
  first : tree.standing.id = 0
  level : ∀ {around node}, tree.LiesIn around node → node.standing.level = around.length
  inhabited : ∀ {around group children}, tree.LiesIn around (.branch group children) → around ≠ [] →
    children ≠ []
  /-- A group has all invocations that were declared in it, in their order. -/
  listed : ∀ {around group children}, tree.LiesIn around (.branch group children) →
    children.filterMap Tree.taskId? = log.placedIn group.standing.id
  /-- An invocation has its place in its group if no group around it was dropped. -/
  kept : ∀ placed ∈ log.placed, (∀ ref ∈ placed.scope, ref.id ∉ log.dropped) →
    ∃ around group children, tree.LiesIn around (.branch group children) ∧
      group.standing.id = placed.parent.id ∧
      (children.filterMap Tree.taskId?).count placed.id = 1
  gone : ∀ placed ∈ log.placed, ∀ ref ∈ placed.scope, ref.id ∈ log.dropped →
    placed.id ∉ tree.taskIds
  groups : ∀ {around group children}, tree.LiesIn around (.branch group children) →
    group.standing.maxTries = (log.optionsOf root group.standing.id).maxTries ∧
      group.standing.totalMaxTries =
        ((group :: around).map fun group => group.standing.maxTries).prod ∧
      group.standing.totalMaxTries < triesBound
  tries : ∀ {group around leaf}, tree.LiesIn (group :: around) (.task leaf) →
    leaf.standing.maxTries = group.standing.maxTries ∧
      leaf.standing.totalMaxTries = group.standing.totalMaxTries
  names : ∀ {around leaf}, tree.LiesIn around (.task leaf) →
    ∃ placed ∈ log.placed, placed.id = leaf.standing.id ∧
      leaf.name = log.prefixOf root around ++ placed.job ∧
      (style.node leaf).name =
        log.prefixOf root (if config.stripRootPrefix then around.dropLast else around) ++ placed.job
  messages : ∀ node ∈ tree.nodes, ∀ text, node.standing.message = some text ↔
    (.message node.standing.id text, .ok .done) ∈ log

theorem Filed.distinct {next : Nat} (filed : Filed log next) :
    (log.placed.map Log.Placed.id).Nodup :=
  ((List.pairwise_append.mp filed.ordered).1.imp Nat.ne_of_lt).sublist filed.listed

/-- An invocation that is in the tree is in the group that it was declared in. -/
theorem Grown.placed {next : Nat} (grown : Grown root log tree) (filed : Filed log next)
    {placed : Log.Placed} (member : placed ∈ log.placed) (inside : placed.id ∈ tree.taskIds) :
    ∃ around group children, tree.LiesIn around (.branch group children) ∧
      group.standing.id = placed.parent.id ∧
      (children.filterMap Tree.taskId?).count placed.id = 1 := by
  obtain ⟨leaf, among, named⟩ := List.mem_map.mp inside
  obtain ⟨around, lies⟩ := mem_nodes_iff_liesIn.mp (mem_tasks.mp among)
  cases lies with
  | self => exact grown.elim
  | @child around group children _ parent leafIn =>
      -- The group lists it, and no other invocation of the log has its id.
      have listed := (grown.full parent).1.listed
      have here : placed.id ∈ children.filterMap Tree.taskId? :=
        List.mem_filterMap.mpr ⟨.task leaf, leafIn, congrArg some named⟩
      have distinct : (children.filterMap Tree.taskId?).Nodup := by
        rw [listed]
        exact filed.distinct.sublist (List.filter_sublist.map _)
      obtain ⟨other, known, same⟩ := List.mem_map.mp (listed ▸ here)
      obtain ⟨known, parentId⟩ := List.mem_filter.mp known
      cases List.inj_on_of_nodup_map filed.distinct known member same
      exact ⟨around, group, children, parent, (of_decide_eq_true parentId).symm,
        List.count_eq_one_of_mem distinct here⟩

theorem Session.finished (session : Session config root serial log draft)
    (bounded : root.maxTries < triesBound) (closed : draft.outer = [])
    (env : RunConfig.Environment) :
    Finished config root log (withMessages draft.messages draft.innermost.toTree)
      (Flow.ofDraft draft (withMessages draft.messages draft.innermost.toTree) env).style := by
  have grown : Grown root log (withMessages draft.messages draft.innermost.toTree) :=
    (session.grown closed).withMessages
  have own := session.optionsOf_root
  -- All groups but the root have been closed, so everything that was declared is in its tree.
  have groups : draft.groups = [draft.innermost] := congrArg _ closed
  have accounts := session.accounts
  rw [groups] at accounts
  have account {placed : Log.Placed} (member : placed ∈ log.placed) :
      placed.id ∈ (withMessages draft.messages draft.innermost.toTree).taskIds ↔
        ∀ ref ∈ placed.scope, ref.id ∉ log.dropped := by
    rw [taskIds_withMessages]
    exact accounts placed member
  refine
    { given := (List.pairwise_append.mp session.filed.ordered).1
      ordered := ?_
      first := grown.1.id
      level := grown.level own bounded
      inhabited := fun lies => (grown.full lies).2.1
      listed := fun lies => (grown.full lies).1.listed
      kept := fun placed member spared =>
        grown.placed session.filed member ((account member).mpr spared)
      gone := fun placed member ref surrounds lost inside =>
        (account member).mp inside ref surrounds lost
      groups := fun lies => ?_
      tries := fun lies => ?_
      names := fun lies => ?_
      messages := fun node inside text => ?_ }
  · have ordered := session.shape.ordered
    rw [groups] at ordered
    rw [nodeIds_withMessages]
    exact (List.pairwise_append.mp ordered).1
  · have amounts := grown.amounts own bounded lies
    exact ⟨amounts.maxTries, amounts.total, amounts.bounded⟩
  · have hangs := (grown.fits lies).1
    exact ⟨Hangs.maxTries hangs, Hangs.total hangs⟩
  · obtain ⟨-, strip⟩ := session.settings
    unfold Flow.ofDraft
    rw [strip]
    exact grown.names own bounded lies _ _
  · rw [nodes_withMessages] at inside
    obtain ⟨old, -, rfl⟩ := List.mem_map.mp inside
    rw [standing_withMessages]
    exact session.told _ text

/-- Let a draft be given any commands, some of which may have failed, and let it be finished then.
The tree consists of what the commands have declared, except for what lies in dropped groups, and
each node is as they say: its id, its place and depth, how often it may be tried, its name in the
tree and in the graph, and its message. The commands may come from groups with steps of their own,
which are begun, and closed or dropped after their steps. -/
theorem finish_declared (session : Session config root serial log draft)
    (bounded : root.maxTries < triesBound) {host : Host} {after : Draft × Host}
    (finished : finish.run (draft, host) = (.ok tree, after)) (env : RunConfig.Environment) :
    Finished config root log tree (Flow.ofDraft draft tree env).style := by
  have settles := leads_finish.ran finished
  cases settles with
  | done closed _ did =>
      obtain ⟨-, rfl⟩ := did
      exact session.finished bounded closed env

theorem exists_finish (closed : draft.outer = []) (host : Host) :
    ∃ after, finish.run (draft, host) =
      (.ok (withMessages draft.messages draft.innermost.toTree), after) := by
  have settles : finish.Leads (draft, host) _ := leads_finish
  unfold Act.Leads at settles
  generalize finish.run (draft, host) = out at settles
  obtain ⟨answer, after⟩ := out
  cases settles with
  | done _ _ did => exact ⟨after, did.2 ▸ rfl⟩
  | refused still => exact (still closed).elim
  | failed _ unsound => exact (unsound trivial).elim

/-- Once a draft was given some commands it can be finished, unless they leave a group open. -/
theorem Session.exists_finished (session : Session config root serial log draft)
    (commands : List Command) (host : Host)
    (closed : (Draft.performAll commands log (draft, host)).2.1.outer.length = 0) :
    ∃ log' after, Session config root serial log' (Draft.performAll commands log (draft, host)).2.1 ∧
      finish.run ((Draft.performAll commands log (draft, host)).2.1, host) =
        (.ok (withMessages (Draft.performAll commands log (draft, host)).2.1.messages
          (Draft.performAll commands log (draft, host)).2.1.innermost.toTree), after) := by
  obtain ⟨after, finished⟩ := exists_finish (List.length_eq_zero_iff.mp closed) host
  exact ⟨_, after, session.performAll commands host, finished⟩

/-- A group with an invocation in it, and in the same group two others: one that is dropped with its
invocation, and one without children. -/
def releaseCommands : List Command := [
  .begin .root { jobPrefix := "release-", maxTries := 2 } true,
  .invoke ⟨1, 1⟩ "build" [] false,
  .begin ⟨1, 1⟩ {} false,
  .invoke ⟨3, 2⟩ "deploy" [] false,
  .drop ⟨3, 2⟩,
  .begin ⟨1, 1⟩ {} true,
  .close ⟨5, 2⟩,
  .close ⟨1, 1⟩,
  .message 2 "From scratch",
  .invoke .root "notify" [] true]

theorem finish_declared_release : ∃ log draft tree after, Session {} {} true log draft ∧
    finish.run (draft, .ofPlans []) = (.ok tree, after) ∧
    log.dropped = [3] ∧ log.placed.map Log.Placed.id = [2, 4, 6] ∧ tree.nodeIds = [0, 1, 2, 6] ∧
    tree.names = ["release-build", "notify"] ∧
    Finished {} {} log tree (Flow.ofDraft draft tree {}).style := by
  have session := session_plain.performAll releaseCommands (.ofPlans [])
  generalize performed : performAll releaseCommands [] (plain, .ofPlans []) = out at session
  have dropped : out.1.dropped = [3] := by
    rw [← performed]
    decide +kernel
  have placed : out.1.placed.map Log.Placed.id = [2, 4, 6] := by
    rw [← performed]
    decide +kernel
  have closed : out.2.1.outer.length = 0 := by
    rw [← performed]
    decide +kernel
  have ids : (withMessages out.2.1.messages out.2.1.innermost.toTree).nodeIds = [0, 1, 2, 6] := by
    rw [← performed]
    decide +kernel
  have names : (withMessages out.2.1.messages out.2.1.innermost.toTree).names =
      ["release-build", "notify"] := by
    rw [← performed]
    decide +kernel
  obtain ⟨after, finished⟩ := exists_finish (List.length_eq_zero_iff.mp closed) (.ofPlans [])
  exact ⟨_, _, _, after, session, finished, dropped, placed, ids, names,
    finish_declared session (by decide) finished _⟩

end Draft

end BuildFlow
