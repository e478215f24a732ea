import BuildFlow.Proofs.Branch.Naming
import BuildFlow.Proofs.Tree.Single
/-!
Serial groups that take their children one by one. Where nothing below a group is unchecked and the
serial groups begin with children that report everything, a group at work is done with the children
before its cursor, and none of them has failed. So the child at the cursor is the only one that a
sweep visits, and the one that the group names when it fails, unless it has started over.
-/
namespace BuildFlow

namespace Tree

/-- The node is finished and does not look like a failure. -/
structure Done (tree : Tree) : Prop where
  finished : tree.standing.isFinished
  fine : tree.standing.propagatedResult ≠ .failure

/-- A serial group at work is done with the children before its cursor. -/
structure Advances (group : Group) (children : List Tree) : Prop where
  upright : group.standing.Upright
  passed : group.isSerial → group.standing.isFinished = false →
    ∀ child ∈ children.take group.cursor, child.Done

def Advanced : Tree → Prop
  | .task leaf => leaf.standing.Upright
  | .branch group children => Advances group children

/-- If nothing below the node is unchecked, it is done with what it has passed. -/
def Progressive (tree : Tree) : Prop := tree.Every Strict → tree.Advanced

variable {tree : Tree}

theorem Advanced.upright (advanced : tree.Advanced) : tree.standing.Upright := by
  cases tree with
  | task leaf => exact advanced
  | branch group children => exact Advances.upright advanced

theorem Progressive.upright (progressive : tree.Every Progressive) (strict : tree.Every Strict) :
    tree.standing.Upright :=
  (progressive.self strict).upright

/-- A node that is finished has nothing left to be done with. -/
theorem advanced_of_finished (checked : tree.standing.isUnchecked = false)
    (finished : tree.checking = .finished) : tree.Advanced := by
  have upright : tree.standing.Upright := ⟨checked, .inr finished⟩
  cases tree with
  | task leaf => exact upright
  | branch group children =>
      have closed : group.standing.isFinished := decide_eq_true finished
      exact ⟨upright, fun _ waits => absurd closed (Bool.eq_false_iff.mp waits)⟩

theorem every_progressive_prepare (progressive : tree.Every Progressive) (scope : Bool) :
    (tree.prepare scope).Every Progressive := by
  apply progressive.prepared
  intro strict
  have upright : (tree.prepare scope).standing.Upright := by
    have checked : tree.standing.isUnchecked = false :=
      (strict_of_layout (blank_prepare scope tree).symm strict).self.checked
    rw [standing_prepare]
    exact Standing.upright_prepare checked scope
  cases tree with
  | task leaf => exact upright
  | branch group children =>
      refine ⟨upright, fun _ _ => ?_⟩
      rw [Group.cursor_prepare]
      exact fun child member => (List.not_mem_nil member).elim

theorem every_progressive_finish (progressive : tree.Every Progressive) : tree.finish.Every Progressive := by
  apply progressive.finished
  intro strict
  apply advanced_of_finished strict.self.checked
  cases tree with
  | task leaf => rfl
  | branch group children => rfl

theorem strict_prepare (strict : tree.Every Strict) (scope : Bool) :
    (tree.prepare scope).Every Strict :=
  strict_of_layout (blank_prepare _ _) strict

/-- Before the first sweep no group has passed any child. -/
theorem progressive_of_ready {runner : Runner} (ready : tree.Every (Ready runner)) :
    tree.Every Progressive := by
  intro node member strict
  have here := ready node member
  have upright : node.standing.Upright := by
    rw [here.standing]
    exact Standing.upright_prepare ((isUnchecked_blank node).trans strict.self.checked) false
  cases node with
  | task leaf => exact upright
  | branch group children =>
      have same : group = group.blank.prepare false := here
      refine ⟨upright, fun _ _ => ?_⟩
      rw [same, Group.cursor_prepare]
      exact fun child member => (List.not_mem_nil member).elim

end Tree

namespace Branch

variable {now : Instant} {branch last next : Branch} {index : Nat} {child visited : Tree}
  {world there : World} {status : Checking} {failure : JobFailure} {answer : Except Halt Unit}
  {again : Bool}

/-- A child that can be put among those of a group with nothing unchecked below. -/
structure Fit (tree : Tree) : Prop where
  strict : tree.Every Tree.Strict
  progressive : tree.Every Tree.Progressive

/-- What a pass has left of a group that waited for its children. -/
structure Held (branch : Branch) (status : Checking) : Prop where
  unknown : branch.1.standing.result = .unknown
  checked : branch.1.standing.isUnchecked = false
  plain : status = .mustCheck ∨ status = .finished
  waits : branch.1.isSerial → status = .mustCheck →
    ∀ child ∈ branch.2.take branch.1.cursor, child.Done
  moves : branch.1.isSerial → status = .finished →
    (∀ child ∈ branch.2.take (branch.1.cursor + 1), child.standing.isFinished) ∨
      branch.2.length ≤ branch.1.cursor ∨
      ∃ child, branch.2[0]? = some child ∧ child.standing.propagatedResult = .failure

theorem Held.closed (held : Held branch status) : Held (branch.closed status) status where
  unknown := (result_closed branch status).trans held.unknown
  checked := by
    unfold Standing.isUnchecked
    rw [propagation_closed]
    exact held.checked
  plain := held.plain
  waits := held.waits
  moves := held.moves

/-- A group goes on only past a child that is done: one that is tried again looks like a failure. -/
theorem Held.moved (held : Held branch .finished) (serial : branch.1.isSerial)
    (fine : (branch.aggregate branch.span).isFailure = false)
    (more : branch.1.cursor + 1 < branch.2.length) :
    ∀ child ∈ branch.2.take (branch.1.cursor + 1), child.Done := by
  have span : branch.span = branch.1.cursor + 1 :=
    (span_serial serial).trans (Nat.min_eq_left (Nat.le_of_lt more))
  rw [span] at fine
  rcases held.moves serial rfl with done | left | ⟨child, first, failure⟩
  · exact fun child member => ⟨done child member, fine_of_aggregate fine member⟩
  · omega
  · have reached : child ∈ branch.2.take (branch.1.cursor + 1) :=
      Tree.mem_take_iff.mpr ⟨0, Nat.succ_pos _, first⟩
    exact absurd failure (fine_of_aggregate fine reached)

/-- How a group ends that a pass has left so. -/
theorem Closes.advances (closes : Closes now branch status answer last) (answered : Answered answer)
    (held : Held branch status) (checking : branch.1.standing.checking = status) :
    Tree.Advances last.1 last.2 ∧
      ∀ failure, answer = failedBy failure → last.1.standing.isFinished := by
  have closed : isPending status branch = false → status = .finished := fun settled =>
    held.plain.resolve_left (settled_iff.mp settled).1
  have ended : ∀ {group : Group}, group.standing.isUnchecked = false →
      group.standing.checking = .finished → Tree.Advances group branch.2 := by
    intro group checked finished
    have advanced : (Tree.branch group branch.2).Advanced :=
      Tree.advanced_of_finished checked finished
    exact advanced
  cases closes with
  | pending pending =>
      -- A group without a result only stays at work for a child that must be checked.
      obtain rfl := (isPending_iff.mp pending).resolve_right fun known => known held.unknown
      constructor
      · exact ⟨⟨held.checked, .inl ⟨checking, held.unknown⟩⟩, fun serial _ => held.waits serial rfl⟩
      · nofun
  | overdue => cases answered
  | fails settled =>
      obtain rfl := closed settled
      exact ⟨ended held.checked checking, fun _ _ => decide_eq_true checking⟩
  | moves settled fine serial more =>
      obtain rfl := closed settled
      have checked : branch.moved.waiting.1.standing.isUnchecked = false := by
        change branch.moved.1.standing.isUnchecked = false
        rw [standing_moved]
        exact held.checked
      have cursor : branch.moved.waiting.1.cursor = branch.1.cursor + 1 :=
        Group.cursor_setCursor serial _
      constructor
      · refine ⟨⟨checked, .inl ⟨rfl, rfl⟩⟩, fun _ _ => ?_⟩
        rw [cursor]
        exact held.moved serial fine more
      · nofun
  | ends settled =>
      obtain rfl := closed settled
      have standing : branch.summed.moved.1.standing = branch.summed.1.standing :=
        branch.summed.standing_moved
      have finished : branch.summed.moved.1.standing.checking = .finished := by
        rw [standing]
        exact checking
      constructor
      · apply ended _ finished
        rw [standing]
        exact held.checked
      · exact fun _ _ => decide_eq_true finished

/-! ## Visits -/

/-- The visits that keep nodes progressive. -/
def progressCourse : Course Tree := fun child _ answer next _ =>
  Answered answer → child.standing.isFinished = false → child.Every Tree.Progressive →
    next.Every Tree.Progressive ∧ (child.Every Tree.Strict →
      ∀ failure, answer = failedBy failure → next.standing.isFinished)

/-- The visits to children, with what they keep. -/
abbrev progressing (now : Instant) : Course Tree := fun child world answer next after =>
  Tree.Sweeps now child world answer next after ∧ progressCourse child world answer next after

theorem all_set {p : Tree → Prop} {children : List Tree} {new : Tree}
    (all : ∀ other ∈ children, p other) (placed : p new) : ∀ other ∈ children.set index new, p other := by
  intro other member
  rcases List.mem_or_eq_of_mem_set member with old | same
  · exact all other old
  · exact same ▸ placed

/-- Whatever happens in a pass, the nodes below the group stay progressive. -/
theorem Pass.progressive {indices : List Nat} {final : Checking}
    (pass : Pass (progressing now) indices branch world status (.ok final) last there)
    (every : ∀ child ∈ branch.2, child.Every Tree.Progressive) :
    ∀ child ∈ last.2, child.Every Tree.Progressive := by
  apply pass.carries (p := fun branch _ _ => ∀ child ∈ branch.2, child.Every Tree.Progressive)
  · intro index branch world status child next there every here unfinished visit
    exact all_set every (visit.2 .ok unfinished (every child (List.mem_of_getElem? here))).1
  · intro index branch world status child next there failure again answered every here unfinished
      visit answers
    have placed := (visit.2 (.failed failure) unfinished (every child (List.mem_of_getElem? here))).1
    exact answers.all (all_set every placed) placed (Tree.every_progressive_finish placed)
      fun other scope progressive => Tree.every_progressive_prepare progressive scope
  · exact every

/-- What a visit to a child of a group comes to below which nothing is unchecked. -/
theorem visit_fit (fit : Fit child) (unfinished : child.standing.isFinished = false)
    (visit : progressing now child world answer visited there) (answered : Answered answer) :
    Fit visited ∧ ∀ failure, answer = failedBy failure → visited.standing.isFinished := by
  obtain ⟨progressive, failed⟩ := visit.2 answered unfinished fit.progressive
  exact ⟨⟨Tree.strict_of_layout visit.1.blank fit.strict, progressive⟩, failed fit.strict⟩

theorem Fit.upright (fit : Fit child) : child.standing.Upright :=
  Tree.Progressive.upright fit.progressive fit.strict

theorem min_finished_iff (fit : Fit visited) {status : Checking}
    (plain : status = .mustCheck ∨ status = .finished) :
    min status visited.standing.propagatedChecking = .mustCheck ∨
      min status visited.standing.propagatedChecking = .finished ∧ visited.standing.isFinished := by
  apply (Checking.min_plain plain fit.upright.plain).imp_right
  rintro ⟨finished, -, ended⟩
  exact ⟨finished, fit.upright.isFinished ended⟩

/-- A parallel group without a result waits for a child, or it has come to its end. -/
theorem Pass.plain {indices : List Nat} {final : Checking}
    (pass : Pass (progressing now) indices branch world status (.ok final) last there)
    (fit : ∀ child ∈ branch.2, Fit child) (plain : status = .mustCheck ∨ status = .finished) :
    final = .mustCheck ∨ final = .finished := by
  have kept := pass.carries (p := fun branch _ status =>
    (∀ child ∈ branch.2, Fit child) ∧ (status = .mustCheck ∨ status = .finished))
  refine (kept ?_ ?_ ⟨fit, plain⟩).2
  · rintro index branch world status child next there ⟨fit, plain⟩ here unfinished visit
    have placed := (visit_fit (fit child (List.mem_of_getElem? here)) unfinished visit .ok).1
    exact ⟨all_set fit placed, (min_finished_iff placed plain).imp_right And.left⟩
  · rintro index branch world status child next there failure again answered ⟨fit, plain⟩ here
      unfinished visit answers
    have placed :=
      (visit_fit (fit child (List.mem_of_getElem? here)) unfinished visit (.failed failure)).1
    have finished : Fit next.finish :=
      ⟨Tree.strict_of_layout (Tree.blank_finish _) placed.strict,
        Tree.every_progressive_finish placed.progressive⟩
    constructor
    · exact answers.all (all_set fit placed) placed finished fun other scope fit =>
        ⟨Tree.strict_prepare fit.strict scope, Tree.every_progressive_prepare fit.progressive scope⟩
    · cases again with
      | true => exact .inl rfl
      | false => exact plain

/-! ## Serial groups -/

section

variable (passed : ∀ child ∈ branch.2.take branch.1.cursor, child.Done)
include passed

/-- The children before the cursor stay as they are when the one at the cursor is visited. -/
theorem passed_put (new : Tree) :
    ∀ other ∈ (branch.put branch.1.cursor new).2.take branch.1.cursor, other.Done := by
  intro other member
  obtain ⟨place, early, at'⟩ := Tree.mem_take_iff.mp member
  obtain ⟨-, at'⟩ := (getElem?_put at').resolve_left fun same => Nat.ne_of_lt early same.1
  exact passed other (Tree.mem_take_iff.mpr ⟨place, early, at'⟩)

theorem finished_put (finished : visited.standing.isFinished) :
    ∀ other ∈ (branch.put branch.1.cursor visited).2.take (branch.1.cursor + 1),
      other.standing.isFinished := by
  intro other member
  obtain ⟨place, within, at'⟩ := Tree.mem_take_iff.mp member
  rcases getElem?_put at' with ⟨-, rfl⟩ | ⟨different, at'⟩
  · exact finished
  · have early : place < branch.1.cursor := by omega
    exact (passed other (Tree.mem_take_iff.mpr ⟨place, early, at'⟩)).finished

variable (unknown : branch.1.standing.result = .unknown)
  (strict : (Tree.branch branch.1 branch.2).Every Tree.Strict)
include unknown strict

theorem held_passes (fit : Fit visited) :
    Held ((branch.put branch.1.cursor visited).cleared visited)
      (min .finished visited.standing.propagatedChecking) := by
  have status := min_finished_iff fit (.inr rfl)
  have cursor : ((branch.put branch.1.cursor visited).cleared visited).1.cursor = branch.1.cursor :=
    Group.cursor_setFailed _ _
  have standing : ((branch.put branch.1.cursor visited).cleared visited).1.standing =
      branch.1.standing := Group.standing_setFailed _ _
  constructor
  case unknown => exact standing ▸ unknown
  case checked => exact standing ▸ strict.self.1
  case plain => exact status.imp_right And.left
  case waits =>
    intro _ _
    rw [cursor]
    exact passed_put passed visited
  case moves =>
    intro _ ended
    left
    rw [cursor]
    apply finished_put passed
    rcases status with waits | ⟨-, finished⟩
    · cases waits.symm.trans ended
    · exact finished

variable (serial : branch.1.isSerial)
include serial

theorem held_fails (here : branch.2[branch.1.cursor]? = some child) (fit : Fit visited)
    (layout : visited.blank = child.blank) (finished : visited.standing.isFinished)
    (answers : Answers (branch.put branch.1.cursor visited) branch.1.cursor visited failure
      (.ok again) next) : Held next (if again then .mustCheck else .finished) := by
  have placed := getElem?_put_self here visited
  have unknown' := answers.result.trans unknown
  have checked : next.1.standing.isUnchecked = false := by
    unfold Standing.isUnchecked
    rw [answers.propagation]
    exact strict.self.1
  rcases answers.upright placed fit.upright.checked finished with
    ⟨same, rfl, cursor⟩ | ⟨-, same, cursor⟩
  · refine ⟨unknown', checked, .inr rfl, nofun, fun _ _ => ?_⟩
    rcases cursor serial with kept | left
    · left
      rw [same, kept]
      exact finished_put passed finished
    · exact .inr (.inl left)
  · -- The group starts over, and its first child waits for a result again.
    have strict' : Tree.Strict
        (.branch (branch.put branch.1.cursor visited).1 (branch.put branch.1.cursor visited).2) :=
      (Tree.strict_of_layout (blank_tree (blank_put here layout)) strict).self
    have serial' : (branch.put branch.1.cursor visited).1.isSerial := serial
    refine ⟨unknown', checked, by cases again <;> simp, fun _ _ => ?_, fun _ _ => ?_⟩
    · rw [cursor serial]
      exact fun child member => (List.not_mem_nil member).elim
    · rw [same]
      exact .inr (.inr (retried_first serial' strict' placed _ _))

theorem Single.held (fit : ∀ child ∈ branch.2, Fit child)
    (single : Single (progressing now) branch world (.ok status) last there) : Held last status := by
  cases single with
  | rests done =>
      refine ⟨unknown, strict.self.1, .inr rfl, nofun, fun _ _ => .inl fun child member => ?_⟩
      obtain ⟨place, within, at'⟩ := Tree.mem_take_iff.mp member
      rcases Nat.lt_or_eq_of_le (Nat.le_of_lt_succ within) with early | rfl
      · exact (passed child (Tree.mem_take_iff.mpr ⟨place, early, at'⟩)).finished
      · exact done child at'
  | passes here unfinished visit =>
      have fit := (visit_fit (fit _ (List.mem_of_getElem? here)) unfinished visit .ok).1
      exact held_passes passed unknown strict fit
  | @fails _ _ _ failure _ _ here unfinished visit answers =>
      obtain ⟨fit, finished⟩ :=
        visit_fit (fit _ (List.mem_of_getElem? here)) unfinished visit (.failed failure)
      exact held_fails passed unknown strict serial here fit visit.1.blank (finished failure rfl)
        answers

end

/-! ## Sweeps -/

/-- A group that waits for its children and was reached by a sweep. -/
structure Set (branch : Branch) : Prop where
  strict : (Tree.branch branch.1 branch.2).Every Tree.Strict
  fit : ∀ child ∈ branch.2, Fit child
  unknown : branch.1.standing.result = .unknown
  passed : branch.1.isSerial → ∀ child ∈ branch.2.take branch.1.cursor, child.Done

theorem set_begun {group : Group} {children : List Tree} (now : Instant)
    (strict : (Tree.branch group children).Every Tree.Strict)
    (every : (Tree.branch group children).Every Tree.Progressive)
    (unfinished : group.standing.isFinished = false) : Set (begun (group, children) now) := by
  have here : Tree.Advances group children := every.self strict
  obtain ⟨time, standing⟩ := Group.standing_begun group now
  constructor
  case strict => exact Tree.strict_of_layout (blank_tree (blank_begun (group, children) now)) strict
  case fit =>
    exact fun child member =>
      ⟨(Tree.every_branch.mp strict).2 child member, (Tree.every_branch.mp every).2 child member⟩
  case unknown =>
    change (group.begun now).standing.result = _
    rw [standing]
    exact (here.upright.waits unfinished).2
  case passed =>
    intro serial
    have cursor : (begun (group, children) now).1.cursor = group.cursor := Group.cursor_begun group now
    rw [cursor]
    exact here.passed ((Group.isSerial_begun group now).symm.trans serial) unfinished

theorem Set.held (set : Set branch)
    (pass : Pass (progressing now) (List.range branch.span) branch world .finished (.ok status)
      last there) : Held last status := by
  cases kind : branch.1.isSerial with
  | true =>
      have passed := set.passed kind
      have single := pass.single kind fun child member => (passed child member).finished
      exact single.held passed set.unknown set.strict kind set.fit
  | false =>
      have parallel : last.1.isSerial = false := pass.isSerial.trans kind
      have checked : last.1.standing.isUnchecked = false := by
        unfold Standing.isUnchecked
        rw [pass.propagation]
        exact set.strict.self.1
      exact ⟨pass.result.trans set.unknown, checked, pass.plain set.fit (.inr rfl),
        fun serial => absurd serial (Bool.eq_false_iff.mp parallel),
        fun serial => absurd serial (Bool.eq_false_iff.mp parallel)⟩

theorem Sweeps.progressive {group group' : Group} {children children' : List Tree}
    (sweeps : Sweeps now (progressing now) (group, children) world answer (group', children') there)
    (answered : Answered answer) (unfinished : group.standing.isFinished = false)
    (every : (Tree.branch group children).Every Tree.Progressive)
    (layout : (Tree.branch group' children').blank = (Tree.branch group children).blank) :
    (Tree.branch group' children').Every Tree.Progressive ∧
      ((Tree.branch group children).Every Tree.Strict →
        ∀ failure, answer = failedBy failure → group'.standing.isFinished) := by
  cases sweeps with
  | halts pass => cases answered; exact absurd rfl (pass.hard _)
  | @closes passed _ _ _ _ pass closes =>
      have local' : (Tree.branch group children).Every Tree.Strict →
          Tree.Advances group' children' ∧
            ∀ failure, answer = failedBy failure → group'.standing.isFinished := fun strict =>
        closes.advances answered ((set_begun now strict every unfinished).held pass).closed rfl
      have below : ∀ child ∈ children', child.Every Tree.Progressive := by
        rw [show children' = passed.2 from closes.children]
        exact pass.progressive (Tree.every_branch.mp every).2
      refine ⟨Tree.every_branch.mpr ⟨?_, below⟩, fun strict => (local' strict).2⟩
      intro strict
      exact (local' (Tree.strict_of_layout layout.symm strict)).1

end Branch

/-- A step of an invocation leaves it waiting or finished, and one that fails is finished. -/
theorem Task.Follows.upright {now : Instant} {task next : Task} {world after : World}
    {answer : Except Halt Unit} (follows : Follows now task world answer next after)
    (answered : Answered answer) (upright : task.standing.Upright) :
    next.standing.Upright ∧ ∀ failure, answer = failedBy failure → next.standing.isFinished := by
  cases follows with
  | missing => exact ⟨⟨upright.checked, .inr rfl⟩, fun _ _ => rfl⟩
  | waits finds begins =>
      obtain ⟨_, _, _, _, rfl⟩ := finds.attempted.trans begins.attempted
      exact ⟨⟨upright.checked, upright.settled⟩, nofun⟩
  | ends finds begins =>
      obtain ⟨_, _, _, _, rfl⟩ := finds.attempted.trans begins.attempted
      exact ⟨⟨upright.checked, .inr rfl⟩, fun _ _ => rfl⟩
  | strays _ _ _ strays => cases answered; cases strays
  | lost => cases answered

namespace Tree

variable {now : Instant} {tree next : Tree} {world after : World} {answer : Except Halt Unit}

/-- Sweeps keep it that groups are done with the children that they have passed. -/
theorem Sweeps.progressive (sweeps : Sweeps now tree world answer next after)
    (answered : Answered answer) (unfinished : tree.standing.isFinished = false)
    (every : tree.Every Progressive) : next.Every Progressive ∧ (tree.Every Strict →
      ∀ failure, answer = failedBy failure → next.standing.isFinished) := by
  apply Sweeps.rule (p := Branch.progressCourse) _ _ sweeps answered unfinished every
  · intro leaf world answer leaf' after follows answered unfinished every
    have kept : leaf.isUnchecked = false → _ := fun checked =>
      follows.upright answered (every.self (every_task.mpr checked))
    have progressive : (Tree.task leaf').Progressive := by
      intro strict
      have layout : (Tree.task leaf).blank = (Tree.task leaf').blank :=
        congrArg Tree.task follows.blank.symm
      exact (kept (strict_of_layout layout strict).self).1
    exact ⟨every_task.mpr progressive, fun strict => (kept strict.self).2⟩
  · intro group children world answer group' children' after sweeps answered unfinished every
    have layout := Branch.blank_tree (sweeps.blank fun visit => visit.1.blank)
    exact sweeps.progressive answered unfinished every layout

/-- A node that fails in a sweep has the result of a failure. -/
theorem Sweeps.failed (sweeps : Sweeps now tree world answer next after) {failure : JobFailure}
    (failed : answer = failedBy failure) : next.standing.result.isFailure := by
  apply Sweeps.rule (p := fun _ _ answer next _ =>
    ∀ failure, answer = failedBy failure → next.standing.result.isFailure) _ _ sweeps failure failed
  · exact fun follows failure failed => follows.failed failed
  · intro group children world answer group' children' after sweeps failure failed
    cases sweeps with
    | halts pass => cases failed; exact absurd rfl (pass.hard _)
    | closes pass closes =>
        cases closes with
        | fails _ failure => exact failure
        | _ => cases failed

end Tree

end BuildFlow
