import BuildFlow.Proofs.Finished
import Mathlib.Data.List.Induction
/-!
What an invocation takes over from the groups around it. A group copies what it does not set from the
group that it is begun in, and an invocation copies from its group. In the tree this comes to the
nearest group that sets an option, or else to what is configured.
-/
namespace BuildFlow

/-! ## Parameters -/

/-- Each name has the text of the last value that was given for it. -/
theorem Params.get?_ofValues (values : List (String × ParamValue)) (name : String) :
    (ofValues values).get? name = (values.reverse.lookup name).map ParamValue.render := by
  induction values using List.reverseRecOn with
  | nil => rfl
  | append_singleton values value ih =>
      have last : ofValues (values ++ [value]) =
          (ofValues values).insert value.1 value.2.render := by
        unfold ofValues Table.ofList
        rw [List.map_append, List.foldl_append]
        rfl
      rw [last, Table.get?_insert, ih, List.reverse_concat, Table.lookup_cons_eq]
      split <;> rfl

/-! ## Places below a group -/

namespace Tree

variable {group : Group} {children : List Tree} {tree child node : Tree} {inner around : List Group}
  {leaf : Task}

/-- A place in a child is one in the group. -/
theorem LiesIn.wrap (lies : child.LiesIn inner node) (member : child ∈ children) :
    (Tree.branch group children).LiesIn (inner ++ [group]) node := by
  induction lies with
  | self => exact .child .self member
  | child _ inside ih => exact .child ih inside

theorem liesIn_branch : (Tree.branch group children).LiesIn around node ↔
    (around = [] ∧ node = .branch group children) ∨
      ∃ child ∈ children, ∃ inner, around = inner ++ [group] ∧ child.LiesIn inner node := by
  constructor
  · intro lies
    induction lies with
    | self => exact .inl ⟨rfl, rfl⟩
    | @child _ next _ child _ inside ih =>
        rcases ih with ⟨rfl, same⟩ | ⟨first, member, inner, rfl, lies⟩
        · cases same
          exact .inr ⟨child, inside, [], rfl, .self⟩
        · exact .inr ⟨first, member, next :: inner, rfl, .child lies inside⟩
  · rintro (⟨rfl, rfl⟩ | ⟨child, member, inner, rfl, lies⟩)
    · exact .self
    · exact lies.wrap member

theorem liesIn_task : (Tree.task leaf).LiesIn around node ↔ around = [] ∧ node = .task leaf := by
  constructor
  · intro lies
    cases lies with
    | self => exact ⟨rfl, rfl⟩
    | child parent => cases List.mem_singleton.mp parent.mem_nodes
  · rintro ⟨rfl, rfl⟩
    exact .self

/-- The groups around a place are nodes of the tree. -/
theorem LiesIn.ids (lies : tree.LiesIn around node) (member : group ∈ around) :
    group.standing.id ∈ tree.nodeIds := by
  induction lies with
  | self => cases member
  | child parent _ ih =>
      rcases List.mem_cons.mp member with same | outer
      · exact same ▸ List.mem_map_of_mem parent.mem_nodes
      · exact ih outer

end Tree

namespace Draft

open BuildFlow.Tree

/-! ## The nearest setting -/

section

variable (config : RunConfig) (root : GroupOptions) (log : Log)

/-- What the nearest group sets that sets the option at all, of groups from the inside out. -/
def Log.nearest {α : Type} (option : GroupOptions → Option α) (around : List Group) : Option α :=
  (around.map fun group => log.optionsOf root group.standing.id).findSome? option

/-- How results are passed on in these groups. -/
def Log.propagationIn (around : List Group) : Propagation :=
  (log.nearest root GroupOptions.propagation around).getD .normal

/-- The token, the pattern of secret names and the leave for jobs to be missing are those of the
nearest group that sets them, or else those that are configured. -/
structure InForce (around : List Group) (token : Option String) (secret : Pattern)
    (allowMissing : Bool) : Prop where
  signs : token = (log.nearest root GroupOptions.securityToken around).or config.securityToken
  hides : Pattern.ofString?
    ((log.nearest root GroupOptions.secretPattern around).getD config.secretPattern) = some secret
  spares : allowMissing =
    (log.nearest root GroupOptions.allowMissingJobs around).getD config.allowMissingJobs

/-- An invocation is as its command and the groups around it say. Its parameters are texts, the last
one given for each name. -/
structure Inherits (around : List Group) (leaf : Task) : Prop
    extends InForce config root log around leaf.securityToken leaf.secret leaf.allowMissing where
  declared : ∃ parent job params unchecked,
    (.invoke parent job params unchecked, .ok (.job leaf.standing.id)) ∈ log ∧
    (∀ name, leaf.params.get? name = (params.reverse.lookup name).map ParamValue.render) ∧
    leaf.standing.propagation =
      if unchecked then .unchecked else log.propagationIn root around

/-- All invocations in a tree inherit, also from what is around the tree. -/
def Handed (around : List Group) (tree : Tree) : Prop :=
  ∀ inner leaf, tree.LiesIn inner (.task leaf) → Inherits config root log (inner ++ around) leaf

/-- The open groups, from the inside out, have what is in force in them, and so have the invocations
that were declared in them. -/
def Equipped : List OpenGroup → Prop
  | [] => True
  | opened :: outer =>
      InForce config root log ((opened :: outer).map OpenGroup.group) opened.securityToken
        opened.secret opened.allowMissing ∧
      opened.group.standing.propagation =
        log.propagationIn root ((opened :: outer).map OpenGroup.group) ∧
      (∀ child ∈ opened.children,
        Handed config root log ((opened :: outer).map OpenGroup.group) child) ∧
      Equipped outer

end

variable {config : RunConfig} {root : GroupOptions} {log log' : Log} {around inner : List Group}
  {group : Group} {children : List Tree} {child tree : Tree} {leaf : Task} {opened : OpenGroup}
  {groups outer : List OpenGroup} {token : Option String} {secret : Pattern} {allowMissing : Bool}

theorem Log.nearest_cons {α : Type} (option : GroupOptions → Option α) :
    log.nearest root option (group :: around) =
      (option (log.optionsOf root group.standing.id)).or (log.nearest root option around) := by
  unfold nearest
  rw [List.map_cons, List.findSome?_cons]
  split
  · next found => rw [found, Option.some_or]
  · next none => rw [none, Option.none_or]

theorem Log.propagationIn_cons : log.propagationIn root (group :: around) =
    (log.optionsOf root group.standing.id).propagation.getD (log.propagationIn root around) := by
  unfold propagationIn
  rw [nearest_cons]
  cases (log.optionsOf root group.standing.id).propagation <;> rfl

theorem handed_task : Handed config root log around (.task leaf) ↔
    Inherits config root log around leaf := by
  constructor
  · exact fun handed => handed [] leaf .self
  · rintro inherits inner other lies
    obtain ⟨rfl, same⟩ := liesIn_task.mp lies
    cases same
    exact inherits

theorem handed_branch : Handed config root log around (.branch group children) ↔
    ∀ child ∈ children, Handed config root log (group :: around) child := by
  constructor
  · intro handed child member inner leaf lies
    have whole := handed _ _ (lies.wrap member)
    rwa [List.append_assoc] at whole
  · intro handed within leaf lies
    rcases liesIn_branch.mp lies with ⟨-, same⟩ | ⟨child, member, inner, rfl, deeper⟩
    · cases same
    · rw [List.append_assoc]
      exact handed child member inner leaf deeper

/-! ## Longer logs -/

/-- A longer log, which tells the same of the options of some groups. -/
structure Prolongs (root : GroupOptions) (log log' : Log) (ids : List Nat) : Prop where
  entries : log ⊆ log'
  options : ∀ id ∈ ids, log'.optionsOf root id = log.optionsOf root id

theorem Prolongs.restrict {ids ids' : List Nat} (longer : Prolongs root log log' ids)
    (fewer : ids' ⊆ ids) : Prolongs root log log' ids' :=
  ⟨longer.entries, fun id member => longer.options id (fewer member)⟩

/-- The ids of some groups. -/
abbrev groupIds (around : List Group) : List Nat := around.map fun group => group.standing.id

section

variable (longer : Prolongs root log log' (groupIds around))
include longer

theorem Prolongs.nearest {α : Type} (option : GroupOptions → Option α) :
    log'.nearest root option around = log.nearest root option around :=
  congrArg (List.findSome? option) <| List.map_congr_left fun _ member =>
    longer.options _ (List.mem_map_of_mem member)

theorem Prolongs.propagationIn : log'.propagationIn root around = log.propagationIn root around :=
  congrArg (Option.getD · Propagation.normal) (longer.nearest _)

theorem InForce.grow (force : InForce config root log around token secret allowMissing) :
    InForce config root log' around token secret allowMissing := by
  obtain ⟨signs, hides, spares⟩ := force
  rw [← longer.nearest] at signs hides spares
  exact ⟨signs, hides, spares⟩

theorem Inherits.grow (inherits : Inherits config root log around leaf) :
    Inherits config root log' around leaf := by
  obtain ⟨parent, job, params, unchecked, listed, same, propagates⟩ := inherits.declared
  rw [← longer.propagationIn] at propagates
  exact ⟨inherits.toInForce.grow longer,
    parent, job, params, unchecked, longer.entries listed, same, propagates⟩

end

theorem Handed.grow (handed : Handed config root log around tree)
    (longer : Prolongs root log log' (tree.nodeIds ++ groupIds around)) :
    Handed config root log' around tree := by
  intro inner leaf lies
  apply (handed inner leaf lies).grow
  apply longer.restrict
  rw [groupIds, List.map_append]
  apply List.append_subset.mpr
  constructor
  · intro id member
    obtain ⟨group, among, rfl⟩ := List.mem_map.mp member
    exact List.mem_append_left _ (lies.ids among)
  · exact List.subset_append_right _ _

theorem groupIds_subset (groups : List OpenGroup) :
    groupIds (groups.map OpenGroup.group) ⊆ stackIds groups := by
  induction groups with
  | nil => exact List.Subset.refl _
  | cons opened outer ih =>
      have self : opened.group.standing.id ∈ opened.toTree.nodeIds :=
        List.mem_map_of_mem (Tree.self_mem_nodes opened.toTree)
      exact List.cons_subset.mpr ⟨List.mem_append_right _ self,
        List.Subset.trans ih (List.subset_append_left _ _)⟩

theorem Equipped.grow (equipped : Equipped config root log groups)
    (longer : Prolongs root log log' (stackIds groups)) : Equipped config root log' groups := by
  induction groups with
  | nil => trivial
  | cons opened outer ih =>
      obtain ⟨force, propagates, below, around⟩ := equipped
      have open' := longer.restrict (groupIds_subset (opened :: outer))
      refine ⟨force.grow open', propagates.trans open'.propagationIn.symm, ?_, ?_⟩
      · intro child member
        apply (below child member).grow
        apply longer.restrict
        apply List.append_subset.mpr
        constructor
        · intro id inside
          apply List.mem_append_right
          rw [OpenGroup.toTree, Tree.nodeIds_branch]
          exact List.mem_cons_of_mem _ (List.mem_flatMap.mpr ⟨child, member, inside⟩)
        · exact groupIds_subset (opened :: outer)
      · exact ih around (longer.restrict (List.subset_append_left _ _))

/-- The log tells nothing new about the options of groups. -/
theorem Equipped.retold (equipped : Equipped config root log groups) {entry : Command × Except Halt Reply}
    (same : Log.optionsOf root (entry :: log) = log.optionsOf root) :
    Equipped config root (entry :: log) groups :=
  equipped.grow ⟨List.subset_cons_self _ _, fun id _ => congrFun same id⟩

/-! ## Commands -/

theorem Equipped.put (equipped : Equipped config root log (opened :: outer))
    (handed : Handed config root log ((opened :: outer).map OpenGroup.group) child) :
    Equipped config root log (opened.putting child :: outer) := by
  obtain ⟨force, propagates, below, around⟩ := equipped
  exact ⟨force, propagates,
    List.forall_mem_append.mpr ⟨below, List.forall_mem_singleton.mpr handed⟩, around⟩

variable {draft after : Draft} {command : Command} {reply : Reply} {options : GroupOptions}
  {serial : Bool}

/-- A group has its own settings in force, and what it does not set it has from the group that it is
begun in. -/
theorem InForce.nested {total : Nat}
    (force : InForce config root log around draft.innermost.securityToken draft.innermost.secret
      draft.innermost.allowMissing)
    (own : log.optionsOf root draft.nextId = options)
    (read : draft.nestedSecret? options = some secret) :
    InForce config root log
      ((draft.nestedGroup options serial secret total).group :: around)
      (options.securityToken.or draft.innermost.securityToken) secret
      (options.allowMissingJobs.getD draft.innermost.allowMissing) := by
  have same : log.optionsOf root
      (draft.nestedGroup options serial secret total).group.standing.id = options := own
  obtain ⟨signs, hides, spares⟩ := force
  refine ⟨?_, ?_, ?_⟩
  · rw [Log.nearest_cons, same, signs, Option.or_assoc]
  · rw [Log.nearest_cons, same]
    unfold nestedSecret? at read
    cases set : options.secretPattern with
    | none =>
        rw [set] at read
        rw [Option.none_or, hides]
        exact read
    | some source =>
        rw [set] at read
        exact read
  · rw [Log.nearest_cons, same, spares]
    cases options.allowMissingJobs <;> rfl

/-- An invocation has what is in force in its group, and passes results on as the group does unless
it is unchecked. -/
theorem Inherits.newTask (equipped : Equipped config root log draft.groups) {parent : GroupRef}
    {job : String} {params : List (String × ParamValue)} {unchecked : Bool}
    (listed : (.invoke parent job params unchecked, .ok (.job draft.nextId)) ∈ log) :
    Inherits config root log (draft.groups.map OpenGroup.group)
      (draft.newTask job params unchecked) := by
  obtain ⟨force, propagates, -, -⟩ := equipped
  refine ⟨force, parent, job, params, unchecked, listed, Params.get?_ofValues params, ?_⟩
  exact congrArg (if unchecked then Propagation.unchecked else ·) propagates

theorem Equipped.performs (equipped : Equipped config root log draft.groups)
    (shape : Shape root log draft.groups draft.nextId)
    (performs : Performs draft command reply after) :
    Equipped config root ((command, .ok reply) :: log) after.groups := by
  cases performs with
  | @begins parent options serial secret admits bounded read =>
      -- The id of the group is new, so the log says the same about all others.
      have old : ∀ id ∈ stackIds draft.groups, Log.optionsOf root ((.begin parent options serial,
          .ok (.group ⟨draft.nextId, draft.level + 1⟩)) :: log) id = log.optionsOf root id :=
        fun id member => if_neg (Nat.ne_of_gt (shape.fresh member))
      have own : Log.optionsOf root ((.begin parent options serial,
          .ok (.group ⟨draft.nextId, draft.level + 1⟩)) :: log) draft.nextId = options := if_pos rfl
      have around := equipped.grow ⟨List.subset_cons_self _ _, old⟩
      refine ⟨around.1.nested own read, ?_, nofun, around⟩
      have passes : draft.innermost.group.standing.propagation = _ := around.2.1
      change options.propagation.getD draft.innermost.group.standing.propagation = _
      rw [passes]
      change _ = Log.propagationIn root _ (_ :: draft.groups.map OpenGroup.group)
      rw [Log.propagationIn_cons]
      exact congrArg (fun options : GroupOptions => options.propagation.getD _) own.symm
  | closes leaves =>
      obtain ⟨parent, outer, around, groups⟩ := exists_outer draft leaves
      rw [groups] at equipped
      rw [groups_folded around]
      obtain ⟨-, -, below, outside⟩ := equipped
      -- A group without children is left out. Any other keeps its place around its children.
      split
      · exact outside.retold rfl
      · exact (outside.put (handed_branch.mpr below)).retold rfl
  | drops leaves =>
      obtain ⟨parent, outer, around, groups⟩ := exists_outer draft leaves
      rw [groups] at equipped
      rw [groups_outside around]
      exact equipped.2.2.2.retold rfl
  | keeps => exact equipped.retold rfl
  | @invokes parent job params unchecked admits =>
      -- What is in force in the innermost group is copied to the invocation.
      have told : Equipped config root
          ((.invoke parent job params unchecked, .ok (.job draft.nextId)) :: log) draft.groups :=
        equipped.retold rfl
      exact told.put (handed_task.mpr (.newTask told List.mem_cons_self))
  | tells => exact equipped.retold rfl

/-- The root has its own settings in force, and what it does not set is configured. -/
theorem equipped_initial
    (read : Pattern.ofString? (root.secretPattern.getD config.secretPattern) = some secret) :
    Equipped config root [] (initial config root serial secret).groups := by
  have only {α : Type} (option : GroupOptions → Option α) :
      Log.nearest root [] option
        ((initial config root serial secret).groups.map OpenGroup.group) = option root :=
    List.findSome?_singleton
  refine ⟨⟨?_, ?_, ?_⟩, ?_, nofun, trivial⟩
  · exact congrArg (Option.or · config.securityToken) (only _).symm
  · rw [← only GroupOptions.secretPattern] at read
    exact read
  · exact congrArg (Option.getD · config.allowMissingJobs) (only _).symm
  · exact congrArg (Option.getD · Propagation.normal) (only _).symm

theorem Session.equipped (session : Session config root serial log draft) :
    Equipped config root log draft.groups := by
  apply session.keeps_read (p := fun log draft => Equipped config root log draft.groups)
  · exact fun secret read => equipped_initial read
  · exact fun session equipped performs => equipped.performs session.shape performs
  · exact fun equipped => equipped.retold (funext fun id => Log.optionsOf_error ..)

/-! ## Finished flows -/

/-- Messages do not change where a node lies. -/
theorem liesIn_withMessages {messages : Table Nat String} {node : Tree}
    (lies : (withMessages messages tree).LiesIn around node) :
    ∃ inner old, around = inner.map (told messages) ∧ node = withMessages messages old ∧
      tree.LiesIn inner old := by
  induction lies with
  | self => exact ⟨[], tree, rfl, rfl, .self⟩
  | @child _ _ _ child _ member ih =>
      obtain ⟨inner, old, rfl, same, lies⟩ := ih
      cases old with
      | task => cases same
      | branch group children =>
          rw [withMessages_branch] at same
          cases same
          obtain ⟨old, listed, rfl⟩ := List.mem_map.mp member
          exact ⟨group :: inner, old, rfl, rfl, .child lies listed⟩

theorem nearest_told {α : Type} (messages : Table Nat String)
    (option : GroupOptions → Option α) :
    log.nearest root option (around.map (told messages)) = log.nearest root option around := by
  unfold Log.nearest
  rw [List.map_map]
  rfl

theorem Handed.withMessages (messages : Table Nat String)
    (handed : Handed config root log [] tree) :
    Handed config root log [] (withMessages messages tree) := by
  intro within leaf lies
  obtain ⟨inner, old, rfl, same, placed⟩ := liesIn_withMessages lies
  cases old with
  | branch => cases same
  | task old =>
      cases same
      obtain ⟨⟨signs, hides, spares⟩, declared⟩ := handed inner old placed
      rw [List.append_nil] at signs hides spares declared ⊢
      unfold Log.propagationIn at declared
      rw [← nearest_told messages] at signs hides spares declared
      exact ⟨⟨signs, hides, spares⟩, declared⟩

/-- In a finished flow each invocation has what the nearest group sets. -/
theorem finish_hands (session : Session config root serial log draft) {host : Host}
    {after : Draft × Host} (finished : finish.run (draft, host) = (.ok tree, after))
    (lies : tree.LiesIn around (.task leaf)) : Inherits config root log around leaf := by
  obtain ⟨closed, rfl⟩ := finish_inv finished
  have equipped := session.equipped
  rw [groups, closed] at equipped
  have handed : Handed config root log [] draft.innermost.toTree :=
    handed_branch.mpr equipped.2.2.1
  have whole := handed.withMessages draft.messages around leaf lies
  rwa [List.append_nil] at whole

end Draft

end BuildFlow
