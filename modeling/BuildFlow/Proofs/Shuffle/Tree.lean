import Mathlib.Data.List.Perm.Basic
import BuildFlow.Proofs.Lists
import BuildFlow.Proofs.Shuffle.Task
import BuildFlow.Proofs.Tree.Layout
/-!
Trees that differ in the order of the children of their parallel groups, at any depth. Ids are
given out in the order of declaration, so they differ as well; nothing else does.
-/
namespace BuildFlow

/-! ## Groups -/

/-- How the group runs its children, whatever is kept of failed ones. -/
def Discipline.plain : Discipline → Discipline
  | .serial cursor => .serial cursor
  | .parallel _ => .parallel ∅

namespace Group

/-- The group, whichever id it has and whatever it keeps of failed children. -/
def plain (group : Group) : Group :=
  { group with standing := group.standing.plain, discipline := group.discipline.plain }

theorem plain_setFailed (group : Group) (failed : Table Nat String) :
    (group.setFailed failed).plain = group.plain := by
  cases discipline : group.discipline <;> simp [plain, setFailed, discipline, Discipline.plain]

theorem plain_setCursor (group : Group) (cursor : Nat) :
    (group.setCursor cursor).plain = group.plain.setCursor cursor := by
  cases discipline : group.discipline <;> simp [plain, setCursor, discipline, Discipline.plain]

theorem plain_started (group : Group) (now : Instant) :
    (group.started now).plain = group.plain.started now := by
  unfold started
  by_cases invoked : group.standing.isInvoked
  · rw [if_pos invoked, if_pos (by exact invoked)]
  · rw [if_neg invoked, if_neg (by exact invoked)]
    rfl

theorem plain_begun (group : Group) (now : Instant) :
    (group.begun now).plain = group.plain.begun now := by
  unfold begun
  by_cases report : group.reportInterval ≤ now.secondsSince group.lastReport
  · rw [if_pos report, if_pos (by exact report), ← plain_started]
    rfl
  · rw [if_neg report, if_neg (by exact report), plain_started]

theorem plain_prepare (group : Group) (scope : Bool) :
    (group.prepare scope).plain = group.plain.prepare scope := by
  unfold prepare
  rw [← plain_setCursor]
  rfl

theorem isSerial_plain (group : Group) : group.plain.isSerial = group.isSerial := by
  cases discipline : group.discipline <;> simp [plain, isSerial, discipline, Discipline.plain]

theorem cursor_plain (group : Group) : group.plain.cursor = group.cursor := by
  cases discipline : group.discipline <;> simp [plain, cursor, discipline, Discipline.plain]

variable {group group' : Group} (same : group'.plain = group.plain)

include same

theorem isSerial_of_plain : group'.isSerial = group.isSerial := by
  rw [← isSerial_plain, same, isSerial_plain]

theorem cursor_of_plain : group'.cursor = group.cursor := by
  rw [← cursor_plain, same, cursor_plain]

theorem standing_of_plain : group'.standing.plain = group.standing.plain :=
  (congrArg Group.standing same :)

theorem aborted_of_plain : group'.aborted = group.aborted :=
  (congrArg Group.aborted same :)

/-- Both groups come to stand in another way. -/
theorem plain_standing {standing standing' : Standing} (alike : standing'.plain = standing.plain) :
    { group' with standing := standing' }.plain = { group with standing }.plain := by
  have seen : ∀ (group : Group) (standing : Standing), { group with standing }.plain =
      { group.plain with standing := standing.plain } := fun _ _ => rfl
  rw [seen group' standing', seen group standing, same, alike]

theorem plain_aborted (aborted : Bool) :
    { group' with aborted }.plain = { group with aborted }.plain :=
  congrArg (fun group : Group => { group with aborted }) same

end Group

/-! ## Trees -/

namespace Tree

/-- The trees differ in ids, and in the order of the children of parallel groups. -/
inductive Shuffled : Tree → Tree → Prop
  | task {leaf leaf' : Task} (same : leaf'.plain = leaf.plain) (owns : leaf.Owns) :
      Shuffled (.task leaf) (.task leaf')
  | branch {group group' : Group} {children middle children' : List Tree}
      (same : group'.plain = group.plain) (each : List.Forall₂ Shuffled children middle)
      (order : middle.Perm children') (serial : group.isSerial → middle = children') :
      Shuffled (.branch group children) (.branch group' children')

variable {tree tree' : Tree}

theorem Shuffled.standing (shuffled : Shuffled tree tree') :
    tree'.standing.plain = tree.standing.plain := by
  cases shuffled with
  | task same => exact (congrArg Task.standing same :)
  | branch same => exact Group.standing_of_plain same

/-- What does not depend on ids is the same for both trees. -/
theorem Shuffled.reads {α : Type} {f : Standing → α} (blind : ∀ standing, f standing.plain = f standing)
    (shuffled : Shuffled tree tree') : f tree'.standing = f tree.standing := by
  rw [← blind, shuffled.standing, blind]

theorem Shuffled.names (shuffled : Shuffled tree tree') : tree'.names.Perm tree.names := by
  induction tree using childrenInduction generalizing tree' with
  | leaf leaf =>
      cases shuffled with
      | @task _ leaf' same =>
          have name : leaf'.name = leaf.name := (congrArg Task.name same :)
          rw [names_task, names_task, name]
  | branch group children ih =>
      cases shuffled with
      | @branch _ _ _ middle children' same each order kept =>
          rw [names_branch, names_branch]
          -- First the children are put in the other order, and then each is replaced.
          refine (order.symm.flatMap_right names).trans ?_
          have alike := forall₂_of_mem each fun child member other _ shuffled =>
            ih child member shuffled
          clear order each ih kept
          induction alike with
          | nil => exact .refl _
          | cons here _ ih =>
              rw [List.flatMap_cons, List.flatMap_cons]
              exact here.append ih

theorem Shuffled.length_children (shuffled : Shuffled tree tree') :
    tree'.children.length = tree.children.length := by
  cases shuffled with
  | task => rfl
  | branch _ each order => exact order.length_eq.symm.trans each.length_eq.symm

theorem Shuffled.isEmpty_children (shuffled : Shuffled tree tree') :
    tree'.children.isEmpty = tree.children.isEmpty := by
  apply Bool.eq_iff_iff.mpr
  rw [List.isEmpty_iff_length_eq_zero, List.isEmpty_iff_length_eq_zero, shuffled.length_children]

/-- Each node of the one tree is a shuffled node of the other one. -/
theorem Shuffled.nodes (shuffled : Shuffled tree tree') {node' : Tree} (member : node' ∈ tree'.nodes) :
    ∃ node ∈ tree.nodes, Shuffled node node' := by
  induction tree using childrenInduction generalizing tree' with
  | leaf leaf =>
      cases shuffled with
      | task same owns =>
          cases List.mem_singleton.mp member
          exact ⟨_, List.mem_singleton_self _, .task same owns⟩
  | branch group children ih =>
      have whole := shuffled
      cases shuffled with
      | @branch _ group' _ middle children' same each order serial =>
          simp only [Tree.nodes, List.mem_cons, mem_nodesOf] at member
          rcases member with rfl | ⟨child', among', inside⟩
          · exact ⟨_, self_mem_nodes _, whole⟩
          · obtain ⟨index, here⟩ := List.mem_iff_getElem?.mp (order.mem_iff.mpr among')
            obtain ⟨child, place, below⟩ := forall₂_getElem? each.flip here
            have among := List.mem_of_getElem? place
            obtain ⟨node, found, alike⟩ := ih child among below inside
            exact ⟨node, mem_nodes_of_child (self_mem_nodes _) among found, alike⟩

/-- Another standing that does not depend on ids keeps the trees alike. -/
theorem Shuffled.prepare (shuffled : Shuffled tree tree') (scope : Bool) :
    Shuffled (tree.prepare scope) (tree'.prepare scope) := by
  cases shuffled with
  | task same owns => exact .task (congrArg (fun task : Task => task.prepare scope) same) owns
  | branch same each order serial =>
      refine .branch ?_ each order fun kind => serial ?_
      · rw [Group.plain_prepare, Group.plain_prepare, same]
      · exact (Group.isSerial_setCursor _ _).symm.trans kind

theorem Shuffled.finish (shuffled : Shuffled tree tree') : Shuffled tree.finish tree'.finish := by
  cases shuffled with
  | task same owns =>
      exact .task (congrArg (fun task : Task => task.ended task.standing.result) same) owns
  | branch same each order serial =>
      refine .branch (Group.plain_standing same ?_) each order serial
      exact congrArg (fun standing : Standing => { standing with checking := .finished })
        (Group.standing_of_plain same)

/-- Both groups come to something else, and their children stay as they are. -/
theorem Shuffled.regroup {group group' : Group} {children children' : List Tree}
    (shuffled : Shuffled (.branch group children) (.branch group' children')) {next next' : Group}
    (same : next'.plain = next.plain) (kind : next.isSerial = group.isSerial) :
    Shuffled (.branch next children) (.branch next' children') := by
  cases shuffled with
  | branch _ each order serial => exact .branch same each order fun is => serial (kind ▸ is)

/-! ## What a sweep leaves alone -/

/-- A sweep changes nothing about the jobs of other trees. -/
theorem Sweeps.aside {now : Instant} {tree next : Tree} {world after : World}
    {answer : Except Halt Unit} (sweeps : Sweeps now tree world answer next after)
    (answered : Answered answer) {names : List String} (other : ∀ name ∈ names, name ∉ tree.names) :
    World.Agree names world after := by
  refine sweeps.rule (p := fun tree world answer _ after => Answered answer →
    (∀ name ∈ names, name ∉ tree.names) → World.Agree names world after) ?_ ?_ answered other
  · intro leaf world answer leaf' after follows answered other
    apply follows.aside answered
    intro named
    exact other leaf.name named (List.mem_singleton_self _)
  · intro group children world answer group' children' after sweeps answered other
    cases sweeps with
    | halts pass => cases answered; exact absurd rfl (pass.hard _)
    | @closes passed _ _ _ _ pass closes =>
        -- The pass visits children of the tree only, whatever became of the others.
        have apart : ∀ {branch : Branch} {child : Tree},
            branch.blank = Branch.blank (group, children) → child ∈ branch.2 →
              ∀ name ∈ names, name ∉ child.names := by
          intro branch child layout member name among named
          have same := names_of_layout (Branch.blank_tree layout)
          exact other name among (same ▸ mem_names_branch.mpr ⟨child, member, named⟩)
        refine (pass.carries (p := fun branch there _ =>
          branch.blank = Branch.blank (group, children) ∧ World.Agree names world there) ?_ ?_
          ⟨Branch.blank_begun (group, children) now, .refl names world⟩).2
        · rintro index branch there status child next after ⟨layout, same⟩ here - visit
          constructor
          · exact (Branch.blank_cleared _ _).trans
              ((Branch.blank_put here visit.1.blank).trans layout)
          · exact same.trans (visit.2 .ok (apart layout (List.mem_of_getElem? here)))
        · rintro index branch there status child next after failure again answered ⟨layout, same⟩
            here - visit answers
          constructor
          · exact (answers.blank (Branch.getElem?_put_self here next)).trans
              ((Branch.blank_put here visit.1.blank).trans layout)
          · exact same.trans (visit.2 (.failed failure) (apart layout (List.mem_of_getElem? here)))

end Tree

end BuildFlow
