import BuildFlow.Proofs.Draft.Remaining
import BuildFlow.Proofs.Draft.Steps
/-!
How invocations are numbered. Each has the number of its place among all invocations of its name that
were declared. Those that were dropped with their group have been counted, so in a finished flow a
number may be missing.
-/
namespace BuildFlow.Draft

open BuildFlow.Tree

/-! ## Invocations of one name -/

section

variable (root : GroupOptions) (log : Log)

/-- What stands in front of names in the innermost of these groups, which are listed from the inside
out. -/
def Log.prefixIn : List GroupRef → String
  | [] => ""
  | ref :: around => prefixIn around ++ (log.optionsOf root ref.id).jobPrefix

def Log.nameOf (placed : Log.Placed) : String := log.prefixIn root placed.scope ++ placed.job

/-- All invocations that were declared under a name, in the order of the commands. -/
def Log.namesakes (name : String) : List Log.Placed :=
  log.placed.filter fun placed => log.nameOf root placed = name

end

variable {config : RunConfig} {root : GroupOptions} {serial : Bool} {draft after : Draft}
  {log log' : Log} {command : Command} {reply : Reply} {opened : OpenGroup} {outer : List OpenGroup}
  {tree child : Tree} {namesakes namesakes' : String → List Log.Placed}

theorem Log.prefixIn_congr {scope : List GroupRef}
    (same : ∀ ref ∈ scope, log'.optionsOf root ref.id = log.optionsOf root ref.id) :
    log'.prefixIn root scope = log.prefixIn root scope := by
  induction scope with
  | nil => rfl
  | cons ref around ih =>
      obtain ⟨here, around'⟩ := List.forall_mem_cons.mp same
      rw [prefixIn, prefixIn, here, ih around']

theorem Log.nameOf_congr {placed : Log.Placed}
    (same : ∀ ref ∈ placed.scope, log'.optionsOf root ref.id = log.optionsOf root ref.id) :
    log'.nameOf root placed = log.nameOf root placed :=
  congrArg (· ++ placed.job) (prefixIn_congr same)

theorem Log.namesakes_congr (placed : log'.placed = log.placed)
    (same : ∀ placed ∈ log.placed, ∀ ref ∈ placed.scope,
      log'.optionsOf root ref.id = log.optionsOf root ref.id) :
    log'.namesakes root = log.namesakes root := by
  funext name
  unfold namesakes
  rw [placed]
  refine List.filter_congr fun placed member => ?_
  rw [nameOf_congr (same placed member)]

theorem Log.namesakes_invoke (parent : GroupRef) (job : String)
    (params : List (String × ParamValue)) (unchecked : Bool) (id : Nat) (name : String) :
    Log.namesakes root ((.invoke parent job params unchecked, .ok (.job id)) :: log) name =
      log.namesakes root name ++
        if log.prefixIn root log.scope ++ job = name then [⟨id, parent, job, log.scope⟩] else [] := by
  have named (placed : Log.Placed) : Log.nameOf root
      ((.invoke parent job params unchecked, .ok (.job id)) :: log) placed = log.nameOf root placed :=
    nameOf_congr fun _ _ => rfl
  change (log.placed ++ _).filter _ = _
  rw [List.filter_append, List.filter_singleton]
  simp only [named, Bool.cond_decide]
  rfl

/-- The prefix of an open group is what the log says. -/
theorem Stacked.jobPrefix (stacked : Stacked root log (opened :: outer))
    (own : log.optionsOf root 0 = root) :
    opened.group.jobPrefix = log.prefixIn root ((opened :: outer).map OpenGroup.ref) := by
  induction outer generalizing opened with
  | nil =>
      obtain ⟨rooted, -⟩ := stacked
      have options : log.optionsOf root opened.ref.id = root := by
        rw [OpenGroup.ref, rooted.id, own]
      simp [Log.prefixIn, options, rooted.jobPrefix]
  | cons parent outer ih =>
      obtain ⟨nests, -, around⟩ := stacked
      rw [nests.jobPrefix, ih around]
      rfl

/-! ## Numbers -/

/-- An invocation is numbered by its place among those of its name. -/
def NumberedIn (namesakes : String → List Log.Placed) : Tree → Prop
  | .task leaf =>
      ∃ placed, (placed, leaf.number) ∈ (namesakes leaf.name).zipIdx 1 ∧
        placed.id = leaf.standing.id
  | .branch .. => True

/-- Later invocations do not change the places of those before them. -/
theorem NumberedIn.grow (numbered : tree.Every (NumberedIn namesakes))
    (longer : ∀ name, namesakes name <+: namesakes' name) : tree.Every (NumberedIn namesakes') := by
  refine numbered.mono fun node here => ?_
  cases node with
  | branch => trivial
  | task leaf =>
      obtain ⟨placed, counted, same⟩ := here
      obtain ⟨later, whole⟩ := longer leaf.name
      refine ⟨placed, ?_, same⟩
      rw [← whole, List.zipIdx_append]
      exact List.mem_append_left _ counted

theorem NumberedIn.putting (numbered : opened.toTree.Every (NumberedIn namesakes))
    (another : child.Every (NumberedIn namesakes)) :
    (opened.putting child).toTree.Every (NumberedIn namesakes) := by
  refine every_branch.mpr ⟨trivial, List.forall_mem_append.mpr ⟨?_, ?_⟩⟩
  · exact (every_branch.mp numbered).2
  · exact List.forall_mem_singleton.mpr another

theorem NumberedIn.withMessages {messages : Table Nat String}
    (numbered : tree.Every (NumberedIn namesakes)) :
    (withMessages messages tree).Every (NumberedIn namesakes) := by
  intro node inside
  rw [nodes_withMessages] at inside
  obtain ⟨old, listed, rfl⟩ := List.mem_map.mp inside
  have here := numbered old listed
  cases old with
  | task leaf => exact here
  | branch group children => trivial

/-- The draft counts what was declared under each name, and has numbered it. -/
structure Counts (namesakes : String → List Log.Placed) (draft : Draft) : Prop where
  counts : ∀ name, (draft.counts.get? name).getD 0 = (namesakes name).length
  numbered : ∀ opened ∈ draft.groups, opened.toTree.Every (NumberedIn namesakes)

theorem counts_outside (draft : Draft) : draft.outside.counts = draft.counts := by
  unfold outside
  split <;> rfl

theorem Counts.outside (counts : Counts namesakes draft) : Counts namesakes draft.outside := by
  refine ⟨counts_outside draft ▸ counts.counts, ?_⟩
  unfold Draft.outside
  split
  · exact counts.numbered
  · next parent outer around =>
      have numbered := counts.numbered
      rw [groups, around] at numbered
      exact (List.forall_mem_cons.mp numbered).2

theorem Counts.folded (counts : Counts namesakes draft) : Counts namesakes draft.folded := by
  obtain ⟨inner, -⟩ := List.forall_mem_cons.mp counts.numbered
  unfold Draft.folded
  split
  · exact counts.outside
  · obtain ⟨same, numbered⟩ := counts.outside
    obtain ⟨parent, around⟩ := List.forall_mem_cons.mp numbered
    exact ⟨same, List.forall_mem_cons.mpr ⟨NumberedIn.putting parent inner, around⟩⟩

/-- Another invocation has the next number of its name. -/
theorem Counts.taking {task : Task} (placed : Log.Placed) (counts : Counts namesakes draft)
    (number : task.number = (draft.counts.get? task.name).getD 0 + 1)
    (same : placed.id = task.standing.id)
    (told : ∀ name, namesakes' name =
      namesakes name ++ if task.name = name then [placed] else []) :
    Counts namesakes' (draft.taking task) := by
  have longer (name : String) : namesakes name <+: namesakes' name :=
    ⟨_, (told name).symm⟩
  have next : (placed, task.number) ∈ (namesakes' task.name).zipIdx 1 := by
    rw [told, if_pos rfl, List.zipIdx_append, number, counts.counts, Nat.add_comm]
    exact List.mem_append_right _ List.mem_cons_self
  obtain ⟨inner, around⟩ := List.forall_mem_cons.mp counts.numbered
  refine ⟨fun name => ?_, List.forall_mem_cons.mpr ⟨?_, fun opened member => ?_⟩⟩
  · change ((draft.counts.insert task.name task.number).get? name).getD 0 = _
    rw [Table.get?_insert, told, List.length_append]
    by_cases here : task.name = name
    · subst here
      simp [number, counts.counts]
    · simp [here, Ne.symm here, counts.counts]
  · exact NumberedIn.putting (NumberedIn.grow inner longer) (every_task.mpr ⟨placed, next, same⟩)
  · exact NumberedIn.grow (around opened member) longer

/-- The log tells nothing new about names. -/
theorem Counts.retold (counts : Counts (log.namesakes root) draft) (placed : log'.placed = log.placed)
    (options : log'.optionsOf root = log.optionsOf root) : Counts (log'.namesakes root) draft := by
  rw [Log.namesakes_congr placed fun _ _ ref _ => congrFun options ref.id]
  exact counts

theorem Counts.performs (counts : Counts (log.namesakes root) draft)
    (session : Session config root serial log draft)
    (performs : Performs draft command reply after) :
    Counts (Log.namesakes root ((command, .ok reply) :: log)) after := by
  cases performs with
  | @begins parent options serial =>
      -- The id of the group is new, so no name changes.
      have same : Log.namesakes root ((.begin parent options serial,
          .ok (.group ⟨draft.nextId, draft.level + 1⟩)) :: log) = log.namesakes root := by
        refine Log.namesakes_congr rfl fun placed member ref surrounds => if_neg ?_
        exact Nat.ne_of_gt (Nat.lt_trans (session.filed.inside placed member ref surrounds)
          (session.filed.placed_below member))
      rw [same]
      refine ⟨counts.counts, List.forall_mem_cons.mpr ⟨?_, counts.numbered⟩⟩
      exact every_branch.mpr ⟨trivial, nofun⟩
  | closes => exact counts.folded.retold rfl rfl
  | drops => exact counts.outside.retold rfl rfl
  | keeps => exact counts.retold rfl rfl
  | tells => exact Counts.retold ⟨counts.counts, counts.numbered⟩ rfl rfl
  | @invokes parent job params unchecked admits =>
      have inner : draft.innermost.group.jobPrefix = log.prefixIn root log.scope := by
        rw [← session.tracks.scope]
        exact session.shape.stacked.jobPrefix session.optionsOf_root
      refine counts.taking ⟨draft.nextId, parent, job, log.scope⟩ rfl rfl fun name => ?_
      rw [Log.namesakes_invoke, ← inner]
      rfl

theorem Session.counts (session : Session config root serial log draft) :
    Counts (log.namesakes root) draft := by
  refine session.keeps (p := fun log draft => Counts (log.namesakes root) draft) (fun secret => ?_)
    (fun session counts performs => counts.performs session performs) fun counts => ?_
  · exact ⟨fun _ => rfl, List.forall_mem_singleton.mpr (every_branch.mpr ⟨trivial, nofun⟩)⟩
  · exact counts.retold (Log.placed_error ..) (funext fun id => Log.optionsOf_error ..)

/-! ## Finished flows -/

/-- What is left of a list has the first places if it is the beginning of the list. -/
theorem places_eq_range' {α : Type} (p : α → Bool) (items : List α) (start : Nat) :
    ((items.zipIdx start).filter fun entry => p entry.1).map Prod.snd =
        List.range' start (items.filter p).length ↔ items.filter p <+: items := by
  induction items generalizing start with
  | nil => simp
  | cons item rest ih =>
      cases left : p item with
      | true =>
          simp only [List.zipIdx_cons, List.filter_cons, left, if_true, List.map_cons,
            List.length_cons, List.range'_succ, List.cons_inj_right, List.prefix_cons_inj, ih]
      | false =>
          simp only [List.zipIdx_cons, List.filter_cons, left, Bool.false_eq_true, if_false]
          cases kept : rest.filter p with
          | nil =>
              refine iff_of_true ?_ List.nil_prefix
              rw [List.length_nil, List.range'_zero, List.map_eq_nil_iff, List.filter_eq_nil_iff]
              exact fun entry member =>
                List.filter_eq_nil_iff.mp kept _ (List.fst_mem_of_mem_zipIdx member)
          | cons first others =>
              -- The first place is that of the item, and what is left does not begin with it.
              refine iff_of_false (fun same => ?_) fun begins => ?_
              · have taken : start ∈ List.range' start (first :: others).length :=
                  List.mem_range'_1.mpr ⟨Nat.le_refl _, Nat.lt_add_of_pos_right (Nat.succ_pos _)⟩
                rw [← same] at taken
                obtain ⟨entry, member, place⟩ := List.mem_map.mp taken
                have later := List.le_snd_of_mem_zipIdx (List.mem_filter.mp member).1
                omega
              · have first' : first ∈ rest.filter p := kept ▸ List.mem_cons_self
                rw [(List.cons_prefix_cons.mp begins).1] at first'
                rw [(List.mem_filter.mp first').2] at left
                cases left

/-- Lists that ascend by their first parts are equal if they have the same entries. -/
theorem eq_of_ascending {first second : List (Nat × Nat)}
    (ascending : first.Pairwise fun entry other => entry.1 < other.1)
    (ascending' : second.Pairwise fun entry other => entry.1 < other.1)
    (same : ∀ entry, entry ∈ first ↔ entry ∈ second) : first = second := by
  have antisymm : Std.Antisymm fun entry other : Nat × Nat => entry.1 < other.1 :=
    ⟨fun _ _ before behind => absurd behind (Nat.lt_asymm before)⟩
  have irrefl : Std.Irrefl fun entry other : Nat × Nat => entry.1 < other.1 :=
    ⟨fun _ => Nat.lt_irrefl _⟩
  exact ascending.eq_of_mem_iff ascending' same

theorem Log.declared_of_place {name : String} {placed : Log.Placed} {number : Nat}
    (counted : (placed, number) ∈ (log.namesakes root name).zipIdx 1) :
    placed ∈ log.placed ∧ log.nameOf root placed = name := by
  obtain ⟨listed, named⟩ := List.mem_filter.mp (List.fst_mem_of_mem_zipIdx counted)
  exact ⟨listed, of_decide_eq_true named⟩

theorem Filed.ascending_places {next : Nat} (filed : Filed log next) (root : GroupOptions)
    (name : String) :
    (((log.namesakes root name).zipIdx 1).map fun entry => entry.1.id).Pairwise (· < ·) := by
  have same : ((log.namesakes root name).zipIdx 1).map (fun entry => entry.1.id) =
      (log.namesakes root name).map Log.Placed.id :=
    List.map_map.symm.trans (congrArg _ (List.zipIdx_map_fst ..))
  rw [same]
  exact filed.ascending.sublist (List.filter_sublist.map _)

section

variable {host : Host} {ended : Draft × Host}
  (session : Session config root serial log draft)
  (finished : finish.run (draft, host) = (.ok tree, ended))
include session finished

theorem Session.finished_numbered : tree.Every (NumberedIn (log.namesakes root)) := by
  obtain ⟨-, rfl⟩ := finish_inv finished
  exact NumberedIn.withMessages (session.counts.numbered _ List.mem_cons_self)

/-- Each invocation under a name is one of those that were declared under it, with its place among
them. -/
theorem Session.numbers (name : String) :
    (tree.tasks.filter fun leaf => leaf.name = name).map
        (fun leaf => (leaf.standing.id, leaf.number)) =
      (((log.namesakes root name).zipIdx 1).filter fun entry => entry.1.Remains log).map
        fun entry => (entry.1.id, entry.2) := by
  have filed := session.filed
  have ids := filed.ascending_places root name
  -- Both lists ascend by the ids, so it is enough that they have the same entries.
  refine eq_of_ascending ?_ ?_ fun entry => ⟨fun member => ?_, fun member => ?_⟩
  · have ascending := List.pairwise_map.mp (session.ascending finished)
    exact List.pairwise_map.mpr (ascending.sublist List.filter_sublist)
  · exact List.pairwise_map.mpr ((List.pairwise_map.mp ids).sublist List.filter_sublist)
  · obtain ⟨leaf, among, rfl⟩ := List.mem_map.mp member
    obtain ⟨among, named⟩ := List.mem_filter.mp among
    obtain ⟨placed, counted, same⟩ := session.finished_numbered finished _ (mem_tasks.mp among)
    have remains : placed.Remains log :=
      (session.mem_taskIds finished (Log.declared_of_place counted).1).mp
        (same ▸ id_mem_taskIds among)
    rw [of_decide_eq_true named] at counted
    exact List.mem_map.mpr
      ⟨_, List.mem_filter.mpr ⟨counted, decide_eq_true remains⟩, Prod.ext same rfl⟩
  · obtain ⟨⟨placed, number⟩, left, rfl⟩ := List.mem_map.mp member
    obtain ⟨counted, remains⟩ := List.mem_filter.mp left
    obtain ⟨listed, named⟩ := Log.declared_of_place counted
    obtain ⟨leaf, among, same⟩ := List.mem_map.mp
      ((session.mem_taskIds finished listed).mpr (of_decide_eq_true remains))
    obtain ⟨other, counted', same'⟩ := session.finished_numbered finished _ (mem_tasks.mp among)
    obtain ⟨listed', named'⟩ := Log.declared_of_place counted'
    -- No two invocations have one id, so this is the one that is numbered.
    cases List.inj_on_of_nodup_map filed.distinct listed' listed (same'.trans same)
    rw [← named', named] at counted'
    cases List.inj_on_of_nodup_map (ids.imp Nat.ne_of_lt) counted' counted rfl
    exact List.mem_map.mpr
      ⟨leaf, List.mem_filter.mpr ⟨among, decide_eq_true (named'.symm.trans named)⟩, Prod.ext same rfl⟩

end

/-- Let a draft be given any commands, some of which may have failed, and let it be finished then. The
commands may come from groups with steps of their own, which are dropped if one of their steps fails.
The invocations of a name that are left have the numbers of their places among all that were declared
under the name. So they are numbered from 1 on without a gap if and only if no invocation of the name
that was dropped had been declared before one that is left. -/
theorem finish_numbers (session : Session config root serial log draft) {host : Host}
    {ended : Draft × Host} (finished : finish.run (draft, host) = (.ok tree, ended)) (name : String) :
    (tree.tasks.filter fun leaf => leaf.name = name).map
        (fun leaf => (leaf.standing.id, leaf.number)) =
      (((log.namesakes root name).zipIdx 1).filter fun entry => entry.1.Remains log).map
        (fun entry => (entry.1.id, entry.2)) ∧
    ((tree.tasks.filter fun leaf => leaf.name = name).map Task.number =
        List.range' 1 (tree.tasks.filter fun leaf => leaf.name = name).length ↔
      ((log.namesakes root name).filter fun placed => placed.Remains log) <+:
        log.namesakes root name) := by
  have numbers := session.numbers finished name
  refine ⟨numbers, ?_⟩
  have left : (((log.namesakes root name).zipIdx 1).filter fun entry => entry.1.Remains log).map
      Prod.fst = (log.namesakes root name).filter fun placed => placed.Remains log := by
    conv_rhs => rw [← List.zipIdx_map_fst 1 (log.namesakes root name), List.filter_map]
    rfl
  have long := congrArg List.length numbers
  have same := congrArg (List.map Prod.snd) numbers
  rw [← places_eq_range' _ _ 1, ← left, List.length_map]
  rw [List.length_map, List.length_map] at long
  rw [List.map_map, List.map_map] at same
  rw [long]
  exact Eq.congr_left same

/-- Three invocations of one job, the second of which is dropped with its group. -/
def rebuildCommands : List Command := [
  .invoke .root "build" [] false,
  .begin .root {} true,
  .invoke ⟨2, 1⟩ "build" [] false,
  .drop ⟨2, 1⟩,
  .invoke .root "build" [] false]

theorem finish_numbers_rebuild : ∃ log draft tree ended, Session {} {} true log draft ∧
    finish.run (draft, .ofPlans []) = (.ok tree, ended) ∧
    (log.namesakes {} "build").map Log.Placed.id = [1, 3, 4] ∧
    (tree.tasks.filter fun leaf => leaf.name = "build").map
      (fun leaf => (leaf.standing.id, leaf.number)) = [(1, 1), (4, 3)] := by
  have session := session_plain.performAll rebuildCommands (.ofPlans [])
  generalize performed : performAll rebuildCommands [] (plain, .ofPlans []) = out at session
  have closed : out.2.1.outer.length = 0 := by
    rw [← performed]
    decide +kernel
  have ids : (out.1.namesakes {} "build").map Log.Placed.id = [1, 3, 4] := by
    rw [← performed]
    decide +kernel
  have places : (((out.1.namesakes {} "build").zipIdx 1).filter fun entry =>
      entry.1.Remains out.1).map (fun entry => (entry.1.id, entry.2)) = [(1, 1), (4, 3)] := by
    rw [← performed]
    decide +kernel
  obtain ⟨ended, finished⟩ := exists_finish (List.length_eq_zero_iff.mp closed) (.ofPlans [])
  exact ⟨_, _, _, ended, session, finished, ids,
    (finish_numbers session finished "build").1.trans places⟩

/-- A stage that fails after its only invocation, and then an invocation of the same job. -/
def repeated : List Declaration.Step := [
  .scoped ⟨true, "root", some "stage", some {}⟩
    [(false, .invoke false "stage" "build" [] none), (false, .fail "no agent")],
  .invoke false "root" "build" [] none]

/-- The finished flow has a single invocation of the job, which is numbered as the second one. -/
theorem numbers_skip_dropped : ∃ draft, Session {} {} true [] draft ∧
    ∃ answers after later tree ended,
      (Declaration.runAll repeated).run (.start draft, .ofPlans []) = (.ok answers, after, later) ∧
      finish.run (after.draft, later) = (.ok tree, ended) ∧
      tree.tasks.map (fun leaf => (leaf.name, leaf.number)) = [("build", 2)] :=
  ⟨plain, session_plain, _, _, _, _, _, rfl, rfl, by decide +kernel⟩

end BuildFlow.Draft
