import BuildFlow.Proofs.Draft.Shape
import BuildFlow.Proofs.Runner
/-!
What a draft does not lose. An invocation stays in it until a group that it was declared in is
dropped, and a message stays set. What the flow was started with does not change.
-/
namespace BuildFlow.Draft

/-- The ids of all invocations in the open groups. -/
def stackTasks : List OpenGroup → List Nat
  | [] => []
  | opened :: outer => stackTasks outer ++ opened.toTree.taskIds

variable {config : RunConfig} {root : GroupOptions} {serial : Bool} {draft after : Draft}
  {log : Log} {command : Command} {reply : Reply} {opened : OpenGroup} {outer : List OpenGroup}

theorem taskIds_branch (group : Group) (children : List Tree) :
    (Tree.branch group children).taskIds = children.flatMap Tree.taskIds := by
  induction children with
  | nil => rfl
  | cons child rest ih => rw [Tree.taskIds_cons, ih, List.flatMap_cons]

theorem taskIds_subset (tree : Tree) : tree.taskIds ⊆ tree.nodeIds := by
  intro id member
  obtain ⟨leaf, inside, rfl⟩ := List.mem_map.mp member
  exact List.mem_map_of_mem (Tree.mem_tasks.mp inside)

theorem stackTasks_subset (groups : List OpenGroup) : stackTasks groups ⊆ stackIds groups := by
  induction groups with
  | nil => exact List.Subset.refl _
  | cons opened outer ih =>
      exact List.append_subset.mpr ⟨List.Subset.trans ih (List.subset_append_left _ _),
        List.Subset.trans (taskIds_subset _) (List.subset_append_right _ _)⟩

theorem stackTasks_putting (opened : OpenGroup) (child : Tree) (outer : List OpenGroup) :
    stackTasks (opened.putting child :: outer) = stackTasks (opened :: outer) ++ child.taskIds := by
  simp [stackTasks, OpenGroup.toTree, OpenGroup.putting, taskIds_branch]

/-- An invocation in the innermost group was declared after the group. -/
theorem innermost_below {next id : Nat}
    (ordered : (stackIds (opened :: outer) ++ [next]).Pairwise (· < ·))
    (member : id ∈ opened.toTree.taskIds) : opened.group.standing.id < id := by
  have inside := (List.pairwise_append.mp (List.pairwise_append.mp ordered).1).2.1
  rw [OpenGroup.toTree, Tree.nodeIds_branch] at inside
  rw [OpenGroup.toTree, taskIds_branch] at member
  obtain ⟨child, among, below⟩ := List.mem_flatMap.mp member
  have listed : id ∈ opened.children.flatMap Tree.nodeIds :=
    List.mem_flatMap.mpr ⟨child, among, taskIds_subset _ below⟩
  exact (List.pairwise_cons.mp inside).1 id listed

/-- An invocation around the innermost group was declared before the group. -/
theorem outer_below {next id : Nat}
    (ordered : (stackIds (opened :: outer) ++ [next]).Pairwise (· < ·))
    (member : id ∈ stackTasks outer) : id < opened.group.standing.id :=
  (List.pairwise_append.mp (List.pairwise_append.mp ordered).1).2.2 id (stackTasks_subset _ member) _
    (List.mem_map_of_mem (Tree.self_mem_nodes opened.toTree))

/-- An invocation is in the draft unless a group around it was dropped. -/
def Accounts (log : Log) (groups : List OpenGroup) : Prop :=
  ∀ placed ∈ log.placed,
    placed.id ∈ stackTasks groups ↔ ∀ ref ∈ placed.scope, ref.id ∉ log.dropped

/-- By the ids, what a dropped group leaves was declared before it, and what it takes along was
declared after it. -/
theorem Accounts.drops (accounts : Accounts log draft.groups) (tracks : Tracks log draft)
    (filed : Filed log draft.nextId) (shape : Shape root log draft.groups draft.nextId)
    {group : GroupRef} (leaves : draft.Leaves group) :
    Accounts ((.drop group, .ok .done) :: log) draft.outside.groups := by
  obtain ⟨parent, outer, around, groups⟩ := exists_outer draft leaves
  have dropped : Log.dropped ((.drop group, .ok .done) :: log) = group.id :: log.dropped :=
    if_pos (tracks.leaves_iff.mp leaves)
  have inner : draft.innermost.ref.id = group.id := leaves.2
  have ordered := shape.ordered
  rw [groups] at ordered
  intro placed member
  have before := accounts placed member
  rw [groups, stackTasks, List.mem_append] at before
  rw [groups_outside around, dropped]
  constructor
  · intro kept ref surrounds
    have earlier := outer_below ordered kept
    have below := filed.inside placed member ref surrounds
    have other : ref.id ≠ group.id := inner ▸ Nat.ne_of_lt (Nat.lt_trans below earlier)
    exact List.not_mem_cons_of_ne_of_not_mem other (before.mp (.inl kept) ref surrounds)
  · intro spared
    have known := before.mpr fun ref surrounds =>
      List.not_mem_of_not_mem_cons (spared ref surrounds)
    refine known.resolve_right fun inside => ?_
    have open' : draft.innermost.ref ∈ log.scope := tracks.scope_eq ▸ List.mem_cons_self
    have surrounds := filed.around placed member _ open' (innermost_below ordered inside)
    exact spared _ surrounds (inner ▸ List.mem_cons_self)

/-- A group that is closed leaves its invocations to the one around it. -/
theorem stackTasks_folded {group : GroupRef} (leaves : draft.Leaves group) :
    stackTasks draft.folded.groups = stackTasks draft.groups := by
  obtain ⟨parent, outer, around, groups⟩ := exists_outer draft leaves
  rw [groups_folded around, groups]
  split
  · next empty =>
      have none : draft.innermost.toTree.taskIds = [] := by
        rw [OpenGroup.toTree, taskIds_branch, List.isEmpty_iff.mp empty]
        rfl
      rw [stackTasks, stackTasks, none, List.append_nil]
      rfl
  · exact stackTasks_putting ..

theorem Accounts.performs (accounts : Accounts log draft.groups) (tracks : Tracks log draft)
    (filed : Filed log draft.nextId) (shape : Shape root log draft.groups draft.nextId)
    (performs : Performs draft command reply after) :
    Accounts ((command, .ok reply) :: log) after.groups := by
  cases performs with
  | begins =>
      intro placed member
      change _ ∈ stackTasks draft.groups ++ [] ↔ _
      rw [List.append_nil]
      exact accounts placed member
  | closes leaves =>
      intro placed member
      rw [stackTasks_folded leaves]
      exact accounts placed member
  | drops leaves => exact accounts.drops tracks filed shape leaves
  | @keeps group stays =>
      have keeps := fun drops => stays (tracks.leaves_iff.mpr drops)
      have dropped : Log.dropped ((.drop group, .ok .done) :: log) = log.dropped := if_neg keeps
      intro placed member
      rw [dropped]
      exact accounts placed member
  | @invokes parent job params unchecked admits =>
      have groups : stackTasks (draft.taking (draft.newTask job params unchecked)).groups =
          stackTasks draft.groups ++ [draft.nextId] := stackTasks_putting ..
      unfold Accounts
      rw [groups]
      refine List.forall_mem_append.mpr ⟨fun placed member => ?_, List.forall_mem_singleton.mpr ?_⟩
      -- Invocations placed before have smaller ids than the new one.
      · have older := Nat.ne_of_lt (filed.placed_below member)
        rw [List.mem_append, List.mem_singleton, or_iff_left older]
        exact accounts placed member
      · refine iff_of_true (List.mem_append_right _ List.mem_cons_self) fun ref open' lost => ?_
        exact (filed.gone _ lost).2 ref open' rfl
  | tells => exact accounts

theorem Session.accounts (session : Session config root serial log draft) :
    Accounts log draft.groups := by
  refine session.keeps (p := fun log draft => Accounts log draft.groups) (fun _ => nofun)
    (fun session accounts => accounts.performs session.tracks session.filed session.shape)
    fun accounts => ?_
  unfold Accounts
  rw [Log.placed_error, Log.dropped_error]
  exact accounts

/-! ## Messages and settings -/

theorem outside_settings (draft : Draft) : draft.outside.config = draft.config ∧
    draft.outside.strip = draft.strip ∧ draft.outside.messages = draft.messages := by
  unfold outside
  split <;> exact ⟨rfl, rfl, rfl⟩

theorem folded_settings (draft : Draft) : draft.folded.config = draft.config ∧
    draft.folded.strip = draft.strip ∧ draft.folded.messages = draft.messages := by
  unfold folded
  split
  · exact outside_settings draft
  · exact outside_settings draft

/-- The messages are those that were set. -/
def Told (log : Log) (draft : Draft) : Prop :=
  ∀ id text, draft.messages.get? id = some text ↔ (.message id text, .ok .done) ∈ log

/-- A command that sets no message. -/
theorem Told.still (told : Told log draft) {entry : Command × Except Halt Reply}
    (still : after.messages = draft.messages)
    (other : ∀ id text, entry ≠ (.message id text, .ok .done)) : Told (entry :: log) after := by
  intro id text
  rw [still, told, List.mem_cons, or_iff_right (other id text).symm]

theorem Told.performs (told : Told log draft) (performs : Performs draft command reply after) :
    Told ((command, .ok reply) :: log) after := by
  cases performs with
  | begins => exact told.still rfl nofun
  | closes => exact told.still (folded_settings draft).2.2 nofun
  | drops => exact told.still (outside_settings draft).2.2 nofun
  | keeps => exact told.still rfl nofun
  | invokes => exact told.still rfl nofun
  | @tells id text silent =>
      intro other words
      have unset : (Command.message id words, .ok .done) ∉ log := fun set => by
        cases silent.symm.trans ((told id words).mpr set)
      rw [Table.get?_insert]
      split
      · next same => simp [same, unset, eq_comm]
      · next apart => simp [apart, told other words]

theorem Session.told (session : Session config root serial log draft) : Told log draft := by
  refine session.keeps (fun secret id text => ?_) (fun _ told performs => told.performs performs) ?_
  · exact iff_of_false nofun nofun
  · exact fun told => told.still rfl nofun

/-- What the flow was started with. -/
theorem Session.settings (session : Session config root serial log draft) :
    draft.config = config ∧
      draft.strip = if config.stripRootPrefix then root.jobPrefix.utf8ByteSize else 0 := by
  refine session.keeps (p := fun _ draft => draft.config = config ∧ draft.strip = _)
    (fun _ => ⟨rfl, rfl⟩) (fun {_ draft _ _ _} _ settings performs => ?_) id
  cases performs with
  | closes =>
      obtain ⟨same, strip, -⟩ := folded_settings draft
      exact ⟨same.trans settings.1, strip.trans settings.2⟩
  | drops =>
      obtain ⟨same, strip, -⟩ := outside_settings draft
      exact ⟨same.trans settings.1, strip.trans settings.2⟩
  | begins => exact settings
  | keeps => exact settings
  | invokes => exact settings
  | tells => exact settings

end BuildFlow.Draft
