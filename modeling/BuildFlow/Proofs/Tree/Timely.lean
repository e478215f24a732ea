import BuildFlow.Proofs.Tree.Life
import BuildFlow.Proofs.Tree.Sound
/-!
What a group waits for. Where nothing in the group is unchecked, it has no result before it is
finished, and a pass that leaves it unfinished leaves a child that is waited for. Unchecked work
breaks both: a group that has its result is still visited for the sake of such work, and the children
that it goes on with need not be waited for.
-/
namespace BuildFlow

namespace Tree

/-- No node of the tree is unchecked. -/
def Clean (tree : Tree) : Prop := tree.Every fun node => node.standing.isUnchecked = false

theorem clean_of_layout {tree next : Tree} (layout : next.blank = tree.blank) (clean : tree.Clean) :
    next.Clean := by
  have same : ∀ {tree : Tree}, tree.blank.Clean ↔ tree.Clean := fun {tree} => by
    refine every_blank.trans ⟨fun every => every.mono fun node checked => ?_,
      fun every => every.mono fun node checked => ?_⟩
    · exact (isUnchecked_blank node).symm.trans checked
    · exact (isUnchecked_blank node).trans checked
  exact same.mp (layout ▸ same.mpr clean)

/-- Where nothing is unchecked, the node is waited for until it is finished, and a group has no
result before it is. -/
structure Timely (tree : Tree) : Prop where
  waits : tree.Clean → tree.standing.checking = .mustCheck ∨ tree.standing.checking = .finished
  done : ∀ group children, tree = .branch group children → group.standing.result ≠ .unknown →
    (∀ child ∈ children, child.Clean) → group.standing.isFinished

/-- A node that waits for its result. -/
theorem Timely.waiting {tree : Tree} (unknown : tree.standing.result = .unknown)
    (waits : tree.standing.isUnchecked = false → tree.standing.checking = .mustCheck) :
    tree.Timely where
  waits clean := .inl (waits clean.self)
  done group children same known := by
    subst same
    exact absurd unknown known

theorem Timely.prepared {tree : Tree} {standing : Standing} {scope : Bool}
    (prepared : tree.standing = standing.prepare scope) : tree.Timely := by
  refine .waiting (prepared ▸ rfl) fun checked => ?_
  rw [prepared] at checked ⊢
  have same : standing.isUnchecked = false := checked
  simp [Standing.prepare, same]

theorem Timely.finish (tree : Tree) : tree.finish.Timely where
  waits _ := .inr (by rw [standing_finish])
  done group children same _ _ := by
    have finished : tree.finish.standing.isFinished := by
      rw [standing_finish]
      rfl
    rw [same] at finished
    exact finished

theorem checking_prepare {tree : Tree} {scope : Bool} (clean : (tree.prepare scope).Clean) :
    (tree.prepare scope).standing.checking = .mustCheck := by
  have checked : (tree.prepare scope).standing.isUnchecked = false := clean.self
  rw [standing_prepare] at checked ⊢
  have checked : tree.standing.isUnchecked = false := checked
  simp [Standing.prepare, checked]

end Tree

namespace Branch

/-- The visits that leave what was declared and keep nodes timely. -/
def timelyCourse : Course Tree := fun child _ _ next _ =>
  next.blank = child.blank ∧
    (child.standing.isFinished = false → child.Every Tree.Timely → next.Every Tree.Timely)

variable {now : Instant} {index : Nat} {rest indices : List Nat} {branch passed last next : Branch}
  {world after : World} {status final : Checking} {child visited : Tree} {failure : JobFailure}
  {again : Bool}

theorem clean_of_layout {first second : Branch} (layout : second.blank = first.blank)
    (clean : ∀ child ∈ first.2, child.Clean) : ∀ child ∈ second.2, child.Clean := by
  intro child member
  obtain ⟨place, at'⟩ := List.mem_iff_getElem?.mp member
  obtain ⟨old, held, blank⟩ := child_of_layout layout at'
  exact Tree.clean_of_layout blank (clean old (List.mem_of_getElem? held))

/-! ## Passes -/

/-- A child at a place before those that are still to be visited is waited for. -/
def Leaves (indices : List Nat) (branch : Branch) : Prop :=
  ∃ place child, (∀ index ∈ indices, place < index) ∧ branch.2[place]? = some child ∧
    child.standing.checking = .mustCheck

theorem Leaves.onward (leaves : Leaves (index :: rest) branch) : Leaves rest branch := by
  obtain ⟨place, child, before, here, waits⟩ := leaves
  exact ⟨place, child, fun later member => before later (List.mem_cons_of_mem _ member), here, waits⟩

theorem Leaves.put (leaves : Leaves (index :: rest) branch) (child : Tree) :
    Leaves (index :: rest) (branch.put index child) := by
  obtain ⟨place, other, before, here, waits⟩ := leaves
  have different : index ≠ place := Nat.ne_of_gt (before index List.mem_cons_self)
  exact ⟨place, other, before, (List.getElem?_set_ne different).trans here, waits⟩

theorem Leaves.answered (leaves : Leaves (index :: rest) branch)
    (answers : Answers branch index child failure (.ok again) next)
    (here : branch.2[index]? = some child) (clean : ∀ child ∈ next.2, child.Clean) :
    Leaves (index :: rest) next := by
  obtain ⟨place, other, before, there, waits⟩ := leaves
  obtain ⟨new, kept, rfl | ⟨scope, rfl⟩ | ⟨same, -⟩⟩ := answers.children here there
  · exact ⟨place, _, before, kept, waits⟩
  · exact ⟨place, _, before, kept, Tree.checking_prepare (clean _ (List.mem_of_getElem? kept))⟩
  · exact absurd same (Nat.ne_of_lt (before index List.mem_cons_self))

/-- Where a group tries again at once, it waits for the child that it tries, or for its first one. -/
theorem Answers.leaves_again (answers : Answers branch index child failure (.ok true) next)
    (here : branch.2[index]? = some child) (ordered : ∀ later ∈ rest, index < later)
    (clean : ∀ child ∈ next.2, child.Clean) : Leaves rest next := by
  generalize result : (Except.ok true : Except Halt Bool) = answer at answers
  cases answers with
  | retries =>
      have here' : (branch.noted child).2[index]? = some child := here
      obtain ⟨place, before, old, kept⟩ : ∃ place ≤ index, ∃ old,
          ((branch.noted child).retried index child).2[place]? =
            some (Tree.prepare child.standing.newScope old) := by
        unfold retried
        split
        · have inside : 0 < branch.2.length :=
            Nat.lt_of_le_of_lt (Nat.zero_le _) (List.getElem?_eq_some_iff.mp here).1
          have reached : 0 < (branch.noted child).reach := Nat.lt_min.mpr ⟨Nat.succ_pos _, inside⟩
          refine ⟨0, Nat.zero_le _, branch.2[0], (getElem?_restarted _ _ _).trans ?_⟩
          rw [show (branch.noted child).2 = branch.2 from rfl, List.getElem?_eq_getElem inside,
            Option.map_some, if_pos reached]
        · exact ⟨index, Nat.le_refl _, child, getElem?_put_self here' _⟩
      exact ⟨place, _, fun later member => Nat.lt_of_le_of_lt before (ordered later member), kept,
        Tree.checking_prepare (clean _ (List.mem_of_getElem? kept))⟩
  | _ => cases result

/-- The children of a group at some point of a pass: where nothing is unchecked, the status tells
whether a child that the pass has come by is waited for. -/
structure PassTimely (indices : List Nat) (branch : Branch) (status : Checking) : Prop where
  timely : ∀ child ∈ branch.2, child.Every Tree.Timely
  plain : (∀ child ∈ branch.2, child.Clean) →
    status = .finished ∨ status = .mustCheck ∧ Leaves indices branch

theorem PassTimely.put (kept : ∀ child ∈ branch.2, child.Every Tree.Timely)
    (timely : visited.Every Tree.Timely) :
    ∀ child ∈ (branch.put index visited).2, child.Every Tree.Timely := by
  intro child member
  rcases List.mem_or_eq_of_mem_set member with old | rfl
  · exact kept child old
  · exact timely

theorem PassTimely.answered {answer : Except Halt Bool}
    (kept : ∀ child ∈ branch.2, child.Every Tree.Timely)
    (answers : Answers branch index visited failure answer next)
    (timely : visited.Every Tree.Timely) : ∀ child ∈ next.2, child.Every Tree.Timely :=
  answers.all kept timely (timely.finished (.finish visited)) fun other scope every =>
    every.prepared (.prepared (Tree.standing_prepare other scope))

theorem PassTimely.passes (kept : PassTimely (index :: rest) branch status)
    (ordered : ∀ later ∈ rest, index < later) (here : branch.2[index]? = some child)
    (blank : visited.blank = child.blank) (timely : visited.Every Tree.Timely) :
    PassTimely rest ((branch.put index visited).cleared visited)
      (min status visited.standing.propagatedChecking) where
  timely := PassTimely.put kept.timely timely
  plain clean := by
    have placed := getElem?_put_self here visited
    have before := kept.plain (clean_of_layout (blank_put here blank).symm clean)
    have clean := clean visited (List.mem_of_getElem? placed)
    have checking : visited.standing.propagatedChecking = visited.standing.checking := by
      have checked : visited.standing.isUnchecked = false := clean.self
      simp [Standing.propagatedChecking, checked]
    rw [checking]
    rcases timely.self.waits clean with waits | finished
    · right
      constructor
      · rw [waits]
        rcases before with same | ⟨same, -⟩ <;> rw [same] <;> decide
      · exact ⟨index, visited, ordered, placed, waits⟩
    · rcases before with same | ⟨same, leaves⟩
      · exact .inl (by rw [finished, same]; decide)
      · exact .inr ⟨by rw [finished, same]; decide, (leaves.put visited).onward⟩

theorem PassTimely.fails (kept : PassTimely (index :: rest) branch status)
    (ordered : ∀ later ∈ rest, index < later) (here : branch.2[index]? = some child)
    (blank : visited.blank = child.blank) (timely : visited.Every Tree.Timely)
    (answers : Answers (branch.put index visited) index visited failure (.ok again) next) :
    PassTimely rest next (if again then .mustCheck else status) where
  timely := PassTimely.answered (PassTimely.put kept.timely timely) answers timely
  plain clean := by
    have placed := getElem?_put_self here visited
    have before := kept.plain (clean_of_layout
      ((answers.blank placed).trans (blank_put here blank)).symm clean)
    cases again with
    | true => exact .inr ⟨rfl, answers.leaves_again placed ordered clean⟩
    | false =>
        rcases before with same | ⟨same, leaves⟩
        · exact .inl same
        · exact .inr ⟨same, ((leaves.put visited).answered answers placed clean).onward⟩

/-- A pass that goes over the places in order keeps children timely, and its status tells whether it
leaves one that is waited for. -/
theorem Pass.timely {answer : Except Halt Checking}
    (pass : Pass timelyCourse indices branch world status answer last after)
    (ordered : indices.Pairwise (· < ·)) (kept : PassTimely indices branch status) :
    (∀ child ∈ last.2, child.Every Tree.Timely) ∧
      ∀ final, answer = .ok final → PassTimely [] last final := by
  induction pass with
  | done =>
      refine ⟨kept.timely, fun final same => ?_⟩
      cases same
      exact kept
  | skips _ _ ih =>
      apply ih ordered.tail
      exact ⟨kept.timely, fun clean => (kept.plain clean).imp_right fun waits =>
        ⟨waits.1, waits.2.onward⟩⟩
  | passes here unfinished visit _ ih =>
      have timely := visit.2 unfinished (kept.timely _ (List.mem_of_getElem? here))
      exact ih ordered.tail (kept.passes (List.pairwise_cons.mp ordered).1 here visit.1 timely)
  | fails here unfinished visit answers _ ih =>
      have timely := visit.2 unfinished (kept.timely _ (List.mem_of_getElem? here))
      exact ih ordered.tail
        (kept.fails (List.pairwise_cons.mp ordered).1 here visit.1 timely answers)
  | breaks here unfinished visit answers =>
      have timely := visit.2 unfinished (kept.timely _ (List.mem_of_getElem? here))
      exact ⟨PassTimely.answered (PassTimely.put kept.timely timely) answers timely, nofun⟩
  | halts here unfinished visit =>
      have timely := visit.2 unfinished (kept.timely _ (List.mem_of_getElem? here))
      exact ⟨PassTimely.put kept.timely timely, nofun⟩

/-- A pass leaves the status and the result of its group alone. -/
theorem Pass.checking {course : Course Tree} {answer : Except Halt Checking}
    (pass : Pass course indices branch world status answer last after) :
    last.1.standing.checking = branch.1.standing.checking := by
  refine pass.keeps (p := fun middle _ => middle.1.standing.checking = branch.1.standing.checking)
    (fun same _ _ _ => same) (fun same => ?_) (fun same _ answers => ?_) rfl
  · exact (congrArg Standing.checking (Group.standing_setFailed _ _)).trans same
  · rcases answers.standing with kept | kept
    · exact (congrArg Standing.checking kept).trans same
    · exact (congrArg Standing.checking kept).trans same

/-! ## Sweeps -/

theorem timely_group {group : Group} {children : List Tree}
    (waits : (∀ child ∈ children, child.Clean) →
      group.standing.checking = .mustCheck ∨ group.standing.checking = .finished)
    (done : (∀ child ∈ children, child.Clean) → group.standing.result ≠ .unknown →
      group.standing.checking = .finished) : (Tree.branch group children).Timely where
  waits clean := waits (Tree.every_branch.mp clean).2
  done := by
    rintro _ _ ⟨⟩ known clean
    exact decide_eq_true (done clean known)

/-- The end of a sweep leaves the group timely. -/
theorem Closes.timely {answer : Except Halt Unit} (closes : Closes now branch status answer last)
    (checking : branch.1.standing.checking = status)
    (unknown : (∀ child ∈ branch.2, child.Clean) → branch.1.standing.result = .unknown)
    (kept : PassTimely [] branch status) : (Tree.branch last.1 last.2).Timely := by
  have plain : (∀ child ∈ branch.2, child.Clean) → status = .mustCheck ∨ status = .finished :=
    fun clean => (kept.plain clean).elim .inr fun waits => .inl waits.1
  have ended : isPending status branch = false → (∀ child ∈ branch.2, child.Clean) →
      status = .finished :=
    fun settled clean => (plain clean).resolve_left (settled_iff.mp settled).1
  cases closes with
  | pending => exact timely_group (checking ▸ plain) fun clean known => absurd (unknown clean) known
  | overdue => exact timely_group (checking ▸ plain) fun clean known => absurd (unknown clean) known
  | fails settled =>
      exact timely_group (checking ▸ plain) fun clean _ => checking.trans (ended settled clean)
  | moves => exact .waiting rfl fun _ => rfl
  | ends settled =>
      have taken : branch.summed.moved.1.standing.checking = status := by
        rw [standing_moved]
        exact checking
      exact timely_group (taken ▸ plain) fun clean _ => taken.trans (ended settled clean)

section

variable (every : (Tree.branch branch.1 branch.2).Every Tree.Timely) (now : Instant)
include every

/-- What a sweep over a group leaves of its children. -/
theorem Pass.timely_begun {answer : Except Halt Checking}
    (pass : Pass timelyCourse (List.range (branch.begun now).span) (branch.begun now) world .finished
      answer last after) :
    (∀ child ∈ last.2, child.Every Tree.Timely) ∧
      ∀ final, answer = .ok final → PassTimely [] last final :=
  pass.timely List.pairwise_lt_range ⟨(Tree.every_branch.mp every).2, fun _ => .inl rfl⟩

variable (unfinished : branch.1.standing.isFinished = false)
include unfinished

/-- A group at work has no result where nothing in it is unchecked, also after a pass. -/
theorem Pass.unknown_of_clean {course : Course Tree} {answer : Except Halt Checking}
    (pass : Pass course (List.range (branch.begun now).span) (branch.begun now) world .finished
      answer last after) (blank : last.blank = branch.blank)
    (clean : ∀ child ∈ last.2, child.Clean) : last.1.standing.result = .unknown := by
  obtain ⟨time, standing⟩ := Group.standing_begun branch.1 now
  have same : last.1.standing.result = branch.1.standing.result := by
    refine pass.result.trans ?_
    change (branch.1.begun now).standing.result = _
    rw [standing]
  rw [same]
  apply Decidable.byContradiction
  intro known
  cases unfinished.symm.trans
    (every.self.done _ _ rfl known (clean_of_layout blank.symm clean))

theorem Pass.timely_halted {course : Course Tree} {answer : Except Halt Checking}
    (pass : Pass course (List.range (branch.begun now).span) (branch.begun now) world .finished
      answer last after) (blank : last.blank = branch.blank) :
    (Tree.branch last.1 last.2).Timely := by
  obtain ⟨time, standing⟩ := Group.standing_begun branch.1 now
  have same : last.1.standing.checking = branch.1.standing.checking := by
    refine pass.checking.trans ?_
    change (branch.1.begun now).standing.checking = _
    rw [standing]
  have layout : (Tree.branch branch.1 branch.2).blank = (Tree.branch last.1 last.2).blank :=
    (blank_tree blank).symm
  constructor
  · intro clean
    rw [show (Tree.branch last.1 last.2).standing = last.1.standing from rfl, same]
    exact every.self.waits (Tree.clean_of_layout layout clean)
  · rintro _ _ ⟨⟩ known clean
    exact absurd (pass.unknown_of_clean every now unfinished blank clean) known

/-- A sweep keeps all nodes of a group timely. -/
theorem Sweeps.timely {answer : Except Halt Unit}
    (sweeps : Sweeps now timelyCourse branch world answer last after) :
    (Tree.branch last.1 last.2).Every Tree.Timely := by
  have blank := sweeps.blank fun visit => visit.1
  cases sweeps with
  | halts pass =>
      exact Tree.every_branch.mpr
        ⟨pass.timely_halted every now unfinished blank, (pass.timely_begun every now).1⟩
  | @closes passed _ _ status _ pass closes =>
      obtain ⟨kept, plain⟩ := pass.timely_begun every now
      have blank' : passed.blank = branch.blank :=
        (pass.blank fun visit => visit.1).trans (blank_begun branch now)
      have unknown : (∀ child ∈ passed.2, child.Clean) →
          (passed.closed status).1.standing.result = .unknown := fun clean =>
        (result_closed passed status).trans (pass.unknown_of_clean every now unfinished blank' clean)
      have below : last.2 = passed.2 := closes.children
      refine Tree.every_branch.mpr ⟨closes.timely rfl unknown ?_, below ▸ kept⟩
      exact ⟨kept, (plain status rfl).plain⟩

end

end Branch

/-- A sweep over a tree keeps all its nodes timely. -/
theorem Tree.Sweeps.timely {now : Instant} {tree next : Tree} {world after : World}
    {answer : Except Halt Unit} (sweeps : Tree.Sweeps now tree world answer next after)
    (unfinished : tree.standing.isFinished = false) (every : tree.Every Timely) :
    next.Every Timely := by
  suffices visits : Branch.timelyCourse tree world answer next after from
    visits.2 unfinished every
  refine sweeps.rule (p := Branch.timelyCourse) ?_ ?_
  · intro leaf world answer leaf' after follows
    have layout : (Tree.task leaf').blank = (Tree.task leaf).blank :=
      congrArg Tree.task follows.blank
    refine ⟨layout, fun _ every => every_task.mpr ⟨fun clean => ?_, fun _ _ same => by cases same⟩⟩
    have waits := every.self.waits (clean_of_layout layout.symm clean)
    cases follows with
    | missing => exact .inr rfl
    | waits finds begins =>
        have attempted := finds.attempted.trans begins.attempted
        exact waits.imp attempted.checking.trans attempted.checking.trans
    | ends => exact .inr rfl
    | strays attempted => exact waits.imp attempted.checking.trans attempted.checking.trans
    | lost finds begins =>
        have attempted := finds.attempted.trans begins.attempted
        exact waits.imp attempted.checking.trans attempted.checking.trans
  · intro group children world answer group' children' after sweeps
    refine ⟨Branch.blank_tree (sweeps.blank fun visit => visit.1.blank), fun unfinished every => ?_⟩
    exact (sweeps.mono fun visit => visit.2).timely every now unfinished

end BuildFlow
