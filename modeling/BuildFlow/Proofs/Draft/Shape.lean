import BuildFlow.Proofs.Draft.Record
import BuildFlow.Proofs.Tree.Ids
/-!
What a draft consists of while it is declared. Each node fits the group that it was declared in, and
each group has the invocations that were declared in it. Groups are begun before what lies in them
and put into the one around them afterwards, which changes neither the order of the ids nor what
fits.
-/
namespace BuildFlow

def Tree.taskId? : Tree → Option Nat
  | .task leaf => some leaf.standing.id
  | .branch .. => none

/-- The group with another child. -/
def OpenGroup.putting (opened : OpenGroup) (child : Tree) : OpenGroup :=
  { opened with children := opened.children ++ [child] }

namespace Draft

/-! ## Nodes and groups -/

section

variable (root : GroupOptions) (log : Log)

/-- A group as it is declared in another one. -/
structure Nests (parent group : Group) : Prop where
  level : group.standing.level = parent.standing.level + 1
  maxTries : group.standing.maxTries = (log.optionsOf root group.standing.id).maxTries
  total : group.standing.totalMaxTries = group.standing.maxTries * parent.standing.totalMaxTries
  bounded : group.standing.totalMaxTries < triesBound
  jobPrefix : group.jobPrefix =
    parent.jobPrefix ++ (log.optionsOf root group.standing.id).jobPrefix

/-- An invocation as it is declared in a group. -/
structure Hangs (parent : Group) (leaf : Task) : Prop where
  level : leaf.standing.level = parent.standing.level + 1
  maxTries : leaf.standing.maxTries = parent.standing.maxTries
  total : leaf.standing.totalMaxTries = parent.standing.totalMaxTries
  name : ∃ placed ∈ log.placed,
    placed.id = leaf.standing.id ∧ leaf.name = parent.jobPrefix ++ placed.job

def Fits (parent : Group) : Tree → Prop
  | .task leaf => Hangs log parent leaf
  | .branch group _ => Nests root log parent group

/-- The children of a group are what was declared in it. -/
structure Full (group : Group) (children : List Tree) : Prop where
  fits : ∀ child ∈ children, Fits root log group child
  listed : children.filterMap Tree.taskId? = log.placedIn group.standing.id

/-- A group that is closed has not been left out. -/
def Closed : Tree → Prop
  | .task _ => True
  | .branch group children => children ≠ [] ∧ Full root log group children

/-- A group that may still be open. -/
structure Holds (opened : OpenGroup) : Prop where
  full : Full root log opened.group opened.children
  below : ∀ child ∈ opened.children, child.Every (Closed root log)

structure Rooted (group : Group) : Prop where
  id : group.standing.id = 0
  level : group.standing.level = 0
  maxTries : group.standing.maxTries = root.maxTries
  total : group.standing.totalMaxTries = root.maxTries
  jobPrefix : group.jobPrefix = root.jobPrefix

/-- The open groups, from the inside out. -/
def Stacked : List OpenGroup → Prop
  | [] => False
  | [opened] => Rooted root opened.group ∧ Holds root log opened
  | opened :: parent :: outer =>
      Nests root log parent.group opened.group ∧ Holds root log opened ∧ Stacked (parent :: outer)

end

/-- The ids of all nodes in the open groups, with those of the root first. -/
def stackIds : List OpenGroup → List Nat
  | [] => []
  | opened :: outer => stackIds outer ++ opened.toTree.nodeIds

variable {root : GroupOptions} {log log' : Log} {opened parent : OpenGroup}
  {outer : List OpenGroup} {group : Group} {children : List Tree} {child : Tree}

theorem Stacked.holds (stacked : Stacked root log (opened :: outer)) : Holds root log opened := by
  cases outer with
  | nil => exact stacked.2
  | cons => exact stacked.2.1

/-! ## Longer logs -/

/-- What the log tells about the group is still the same. -/
def Lasts (root : GroupOptions) (log log' : Log) (id : Nat) : Prop :=
  log'.optionsOf root id = log.optionsOf root id ∧ log'.placedIn id = log.placedIn id

section

variable (placed : log.placed ⊆ log'.placed)

theorem Nests.grow {parent group : Group} (nests : Nests root log parent group)
    (lasts : log'.optionsOf root group.standing.id = log.optionsOf root group.standing.id) :
    Nests root log' parent group := by
  obtain ⟨level, maxTries, total, bounded, jobPrefix⟩ := nests
  exact ⟨level, lasts ▸ maxTries, total, bounded, lasts ▸ jobPrefix⟩

include placed

theorem Fits.grow (fits : Fits root log group child)
    (lasts : log'.optionsOf root child.standing.id = log.optionsOf root child.standing.id) :
    Fits root log' group child := by
  cases child with
  | task leaf =>
      obtain ⟨level, maxTries, total, declared, member, same⟩ := fits
      exact ⟨level, maxTries, total, declared, placed member, same⟩
  | branch => exact Nests.grow fits lasts

theorem Full.grow (full : Full root log group children)
    (lasts : ∀ child ∈ children,
      log'.optionsOf root child.standing.id = log.optionsOf root child.standing.id)
    (here : log'.placedIn group.standing.id = log.placedIn group.standing.id) :
    Full root log' group children :=
  ⟨fun child member => (full.fits child member).grow placed (lasts child member),
    full.listed.trans here.symm⟩

theorem Closed.grow {tree : Tree} (closed : tree.Every (Closed root log))
    (lasts : ∀ id ∈ tree.nodeIds, Lasts root log log' id) : tree.Every (Closed root log') := by
  intro node inside
  have here := closed node inside
  cases node with
  | task => trivial
  | branch group children =>
      refine ⟨here.1, here.2.grow placed (fun child member => ?_) ?_⟩
      · have below := Tree.mem_nodes_of_child inside member (Tree.self_mem_nodes child)
        exact (lasts _ (List.mem_map_of_mem below)).1
      · exact (lasts _ (List.mem_map_of_mem inside)).2

theorem Holds.grow_below (holds : Holds root log opened)
    (lasts : ∀ id ∈ opened.children.flatMap Tree.nodeIds, Lasts root log log' id) :
    (∀ child ∈ opened.children, Fits root log' opened.group child) ∧
      ∀ child ∈ opened.children, child.Every (Closed root log') := by
  have below {child : Tree} (member : child ∈ opened.children) {id : Nat}
      (inside : id ∈ child.nodeIds) : Lasts root log log' id :=
    lasts id (List.mem_flatMap.mpr ⟨child, member, inside⟩)
  refine ⟨fun child member => (holds.full.fits child member).grow placed (below member ?_).1,
    fun child member => Closed.grow placed (holds.below child member) fun id => below member⟩
  exact List.mem_map_of_mem (Tree.self_mem_nodes child)

theorem Holds.grow (holds : Holds root log opened)
    (lasts : ∀ id ∈ opened.toTree.nodeIds, Lasts root log log' id) : Holds root log' opened := by
  rw [OpenGroup.toTree, Tree.nodeIds_branch] at lasts
  obtain ⟨fits, below⟩ :=
    holds.grow_below placed fun id inside => lasts id (List.mem_cons_of_mem _ inside)
  exact ⟨⟨fits, holds.full.listed.trans (lasts _ List.mem_cons_self).2.symm⟩, below⟩

/-- Another child of the group, which the log may tell of. -/
theorem Holds.put (holds : Holds root log opened)
    (lasts : ∀ id ∈ opened.children.flatMap Tree.nodeIds, Lasts root log log' id)
    (fits : Fits root log' opened.group child) (closed : child.Every (Closed root log'))
    (listed : log'.placedIn opened.group.standing.id =
      log.placedIn opened.group.standing.id ++ child.taskId?.toList) :
    Holds root log' (opened.putting child) := by
  obtain ⟨fits', below⟩ := holds.grow_below placed lasts
  refine ⟨⟨?_, ?_⟩, ?_⟩
  · exact List.forall_mem_append.mpr ⟨fits', List.forall_mem_singleton.mpr fits⟩
  · refine Eq.trans ?_ listed.symm
    rw [← holds.full.listed]
    cases child <;> exact List.filterMap_append
  · exact List.forall_mem_append.mpr ⟨below, List.forall_mem_singleton.mpr closed⟩

theorem Stacked.grow {groups : List OpenGroup} (stacked : Stacked root log groups)
    (lasts : ∀ id ∈ stackIds groups, Lasts root log log' id) : Stacked root log' groups := by
  induction groups with
  | nil => exact stacked
  | cons opened outer ih =>
      have here := stacked.holds.grow placed fun id member =>
        lasts id (List.mem_append_right _ member)
      have self : opened.group.standing.id ∈ stackIds (opened :: outer) :=
        List.mem_append_right _ (List.mem_map_of_mem (Tree.self_mem_nodes opened.toTree))
      cases outer with
      | nil => exact ⟨stacked.1, here⟩
      | cons parent outer =>
          exact ⟨stacked.1.grow (lasts _ self).1, here,
            ih stacked.2.2 fun id member => lasts id (List.mem_append_left _ member)⟩

/-- A group with another child still has its place among the open ones. -/
theorem Stacked.put (stacked : Stacked root log (opened :: outer))
    (here : log'.optionsOf root opened.group.standing.id =
      log.optionsOf root opened.group.standing.id)
    (lasts : ∀ id ∈ stackIds outer, Lasts root log log' id)
    (holds : Holds root log' (opened.putting child)) :
    Stacked root log' (opened.putting child :: outer) := by
  cases outer with
  | nil => exact ⟨stacked.1, holds⟩
  | cons parent outer => exact ⟨stacked.1.grow here, holds, stacked.2.2.grow placed lasts⟩

end

theorem stackIds_putting (opened : OpenGroup) (child : Tree) (outer : List OpenGroup) :
    stackIds (opened.putting child :: outer) = stackIds (opened :: outer) ++ child.nodeIds := by
  simp [stackIds, OpenGroup.toTree, OpenGroup.putting, Tree.nodeIds_branch]

/-! ## Drafts -/

/-- What a draft has come to be by the commands. -/
structure Shape (root : GroupOptions) (log : Log) (groups : List OpenGroup) (next : Nat) :
    Prop where
  stacked : Stacked root log groups
  ordered : (stackIds groups ++ [next]).Pairwise (· < ·)

variable {draft after : Draft} {command : Command} {reply : Reply}

theorem groups_outside (around : draft.outer = parent :: outer) :
    draft.outside.groups = parent :: outer := by
  unfold outside
  rw [around]
  rfl

theorem groups_folded (around : draft.outer = parent :: outer) : draft.folded.groups =
    if draft.innermost.children.isEmpty then parent :: outer
    else parent.putting draft.innermost.toTree :: outer := by
  unfold folded outside
  rw [around]
  split <;> rfl

/-- A group that can be left is inside of another one. -/
theorem exists_outer (draft : Draft) {ref : GroupRef} (leaves : draft.Leaves ref) :
    ∃ parent outer, draft.outer = parent :: outer ∧
      draft.groups = draft.innermost :: parent :: outer := by
  obtain ⟨parent, outer, around⟩ := List.exists_cons_of_ne_nil leaves.1
  exact ⟨parent, outer, around, congrArg _ around⟩

/-- The innermost group is put into the one around it. -/
theorem Stacked.fold (stacked : Stacked root log (opened :: parent :: outer))
    (inhabited : opened.children ≠ []) :
    Stacked root log (parent.putting opened.toTree :: outer) := by
  obtain ⟨nests, holds, around⟩ := stacked
  have closed : opened.toTree.Every (Closed root log) :=
    Tree.every_branch.mpr ⟨⟨inhabited, holds.full⟩, holds.below⟩
  have same : ∀ id, Lasts root log log id := fun _ => ⟨rfl, rfl⟩
  exact around.put (List.Subset.refl _) rfl (fun id _ => same id) <|
    around.holds.put (List.Subset.refl _) (fun id _ => same id) nests closed (List.append_nil _).symm

/-- The log tells nothing new about the nodes. -/
theorem Stacked.retold {groups : List OpenGroup} (stacked : Stacked root log groups)
    (placed : log'.placed = log.placed) (options : log'.optionsOf root = log.optionsOf root) :
    Stacked root log' groups := by
  refine stacked.grow (placed ▸ List.Subset.refl _) fun id _ => ⟨congrFun options id, ?_⟩
  exact congrArg (fun placed : List Log.Placed =>
    (placed.filter fun placed => placed.parent.id = id).map Log.Placed.id) placed

theorem placedIn_invoke (log : Log) (parent : GroupRef) (job : String)
    (params : List (String × ParamValue)) (unchecked : Bool) (id group : Nat) :
    Log.placedIn ((.invoke parent job params unchecked, .ok (.job id)) :: log) group =
      log.placedIn group ++ if parent.id = group then [id] else [] := by
  change ((log.placed ++ _).filter _).map _ = _
  rw [List.filter_append, List.map_append, List.filter_singleton]
  split <;> simp_all [Log.placedIn]

theorem ordered_outside {next : Nat}
    (ordered : (stackIds (opened :: outer) ++ [next]).Pairwise (· < ·)) :
    (stackIds outer ++ [next]).Pairwise (· < ·) :=
  ordered.sublist ((List.sublist_append_left _ _).append (List.Sublist.refl _))

section

variable (shape : Shape root log draft.groups draft.nextId) (tracks : Tracks log draft)
include shape

theorem Shape.fresh {id : Nat} (member : id ∈ stackIds draft.groups) : id < draft.nextId :=
  (List.pairwise_append.mp shape.ordered).2.2 id member _ List.mem_cons_self

include tracks

/-- The id of a group that is begun is new, so the log says the same as before about all others. -/
theorem Shape.begins (filed : Filed log draft.nextId) {parent : GroupRef} {options : GroupOptions}
    {serial : Bool} (secret : Pattern) (bounded : draft.nestedTotal options < triesBound) :
    let group := draft.nestedGroup options serial secret (draft.nestedTotal options)
    Shape root ((.begin parent options serial, .ok (.group ⟨draft.nextId, draft.level + 1⟩)) :: log)
      (draft.within group).groups (draft.within group).nextId := by
  obtain ⟨stacked, ordered⟩ := id shape
  have lasts : ∀ id ∈ stackIds draft.groups, Lasts root log
      ((.begin parent options serial, .ok (.group ⟨draft.nextId, draft.level + 1⟩)) :: log) id :=
    fun id member => ⟨if_neg (Nat.ne_of_gt (shape.fresh member)), rfl⟩
  have new : Log.optionsOf root ((.begin parent options serial,
      .ok (.group ⟨draft.nextId, draft.level + 1⟩)) :: log) draft.nextId = options := if_pos rfl
  refine ⟨⟨⟨?_, ?_, ?_, bounded, ?_⟩, ⟨⟨nofun, ?_⟩, nofun⟩, ?_⟩, ?_⟩
  · exact congrArg (· + 1) tracks.level.symm
  · exact congrArg GroupOptions.maxTries new.symm
  · rfl
  · exact congrArg (draft.innermost.group.jobPrefix ++ ·)
      (congrArg GroupOptions.jobPrefix new.symm)
  · exact (filed.placedIn_new (Nat.le_refl _)).symm
  · refine stacked.grow ?_ lasts
    exact List.Subset.refl _
  · exact pairwise_succ ordered

/-- Only the innermost group gets another invocation. -/
theorem Shape.invokes {parent : GroupRef} {job : String} {params : List (String × ParamValue)}
    {unchecked : Bool} (admits : draft.Admits parent) :
    let taking := draft.taking (draft.newTask job params unchecked)
    Shape root ((.invoke parent job params unchecked, .ok (.job draft.nextId)) :: log)
      taking.groups taking.nextId := by
  obtain ⟨stacked, ordered⟩ := shape
  have inner : draft.innermost.group.standing.id = parent.id := admits.2
  have listed (id : Nat) := placedIn_invoke log parent job params unchecked draft.nextId id
  have lasts {id : Nat} (other : id ≠ draft.innermost.group.standing.id) : Lasts root log
      ((.invoke parent job params unchecked, .ok (.job draft.nextId)) :: log) id := by
    refine ⟨rfl, (listed id).trans ?_⟩
    rw [if_neg (fun same => other (same.symm.trans inner.symm)), List.append_nil]
  have placed : log.placed ⊆
      Log.placed ((.invoke parent job params unchecked, .ok (.job draft.nextId)) :: log) :=
    List.subset_append_left _ _
  obtain ⟨-, inside, apart⟩ := List.pairwise_append.mp (List.pairwise_append.mp ordered).1
  rw [OpenGroup.toTree, Tree.nodeIds_branch] at inside apart
  refine ⟨stacked.put placed rfl (fun id member => lasts ?_) <|
    stacked.holds.put placed (fun id member => lasts ?_) ?_ (Tree.every_task.mpr trivial) ?_, ?_⟩
  · exact Nat.ne_of_lt (apart id member _ List.mem_cons_self)
  · exact Nat.ne_of_gt ((List.pairwise_cons.mp inside).1 id member)
  · exact ⟨congrArg (· + 1) tracks.level.symm, rfl, rfl, _,
      List.mem_append_right _ List.mem_cons_self, rfl, rfl⟩
  · rw [listed, if_pos inner.symm]
    rfl
  · change (stackIds (draft.innermost.putting _ :: draft.outer) ++ _).Pairwise _
    rw [stackIds_putting]
    exact pairwise_succ ordered

theorem Shape.performs (filed : Filed log draft.nextId)
    (performs : Performs draft command reply after) :
    Shape root ((command, .ok reply) :: log) after.groups after.nextId := by
  cases performs with
  | begins admits bounded => exact shape.begins tracks filed _ bounded
  | closes leaves =>
      obtain ⟨stacked, ordered⟩ := shape
      obtain ⟨parent, outer, around, groups⟩ := exists_outer draft leaves
      rw [groups] at stacked ordered
      rw [groups_folded around, nextId_folded]
      split
      · exact ⟨stacked.2.2.retold rfl rfl, ordered_outside ordered⟩
      · next inhabited =>
          refine ⟨(stacked.fold (by simpa using inhabited)).retold rfl rfl, ?_⟩
          rw [stackIds_putting]
          exact ordered
  | drops leaves =>
      obtain ⟨stacked, ordered⟩ := shape
      obtain ⟨parent, outer, around, groups⟩ := exists_outer draft leaves
      rw [groups] at stacked ordered
      rw [groups_outside around, nextId_outside]
      exact ⟨stacked.2.2.retold rfl rfl, ordered_outside ordered⟩
  | keeps => exact ⟨shape.stacked.retold rfl rfl, shape.ordered⟩
  | invokes admits => exact shape.invokes tracks admits
  | tells => exact ⟨shape.stacked.retold rfl rfl, shape.ordered⟩

end

variable {config : RunConfig} {serial : Bool}

theorem Session.shape (session : Session config root serial log draft) :
    Shape root log draft.groups draft.nextId := by
  refine session.keeps (p := fun log draft => Shape root log draft.groups draft.nextId)
    (fun secret => ?_) (fun session shape => shape.performs session.tracks session.filed)
    fun shape => ?_
  · have ordered : ([0] ++ [1] : List Nat).Pairwise (· < ·) := by decide
    exact ⟨⟨⟨rfl, rfl, rfl, rfl, rfl⟩, ⟨⟨nofun, rfl⟩, nofun⟩⟩, ordered⟩
  · exact ⟨shape.stacked.retold (Log.placed_error ..) (funext fun id => Log.optionsOf_error ..),
      shape.ordered⟩

end Draft

end BuildFlow
