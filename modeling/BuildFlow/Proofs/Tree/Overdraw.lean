import BuildFlow.Proofs.Tree.Sound
/-!
Where counting tries comes to its limit. A sweep breaks off for want of a count
only at a group with a failed child that it has to try again, and it leaves the
tree as it stood at this group.
-/
namespace BuildFlow

namespace Tree

/-- Whether an aborted build is behind the result. -/
def isAborted : Tree → Bool
  | .task leaf => leaf.standing.result = .aborted
  | .branch group _ => group.aborted

/-- A failed child that the group has to try again. -/
structure Due (group : Group) (child : Tree) : Prop where
  failed : child.standing.result.isFailure
  unaborted : child.isAborted = false
  tries : child.standing.mayTry
  normal : group.isSerial → child.standing.propagation = .normal

/-- A child of the group is due, and the attempt cannot be counted. -/
def Overdrawn : Tree → Prop
  | .task _ => False
  | .branch group children =>
      ∃ child ∈ children, Due group child ∧ Branch.retriable (group, children) child = false

/-- The tree still waits, and some group in it cannot count the next attempt. -/
def Stuck (tree : Tree) : Prop :=
  tree.checking = .mustCheck ∧ ∃ node ∈ tree.nodes, node.Overdrawn

/-- A tree in which nothing has happened yet is not stuck. -/
theorem not_stuck_of_fresh {tree : Tree} (fresh : tree.IsFresh) : ¬ tree.Stuck := by
  rintro ⟨-, node, member, overdrawn⟩
  induction tree using childrenInduction with
  | leaf leaf =>
      rw [List.mem_singleton.mp member] at overdrawn
      exact overdrawn
  | branch group children ih =>
      have below := (fresh_branch.mp fresh).2
      rcases List.mem_cons.mp member with same | deeper
      · subst same
        obtain ⟨child, member, due, -⟩ := overdrawn
        have failed := due.failed
        rw [result_of_fresh (below child member)] at failed
        cases failed
      · obtain ⟨child, member, inside⟩ := mem_nodesOf.mp deeper
        exact ih child member (below child member) inside

/-- What a visit makes of a failure that it ends with, and of one that it cannot
answer. -/
structure Replies (tree : Tree) (answer : Except Halt Unit) (next : Tree) : Prop where
  overdrawn : answer = .error (.broken .tries) →
    next.checking = tree.checking ∧ ∃ node ∈ next.nodes, node.Overdrawn
  failed : ∀ failure, answer = failedBy failure →
    next.standing.result.isFailure ∧ failure.isAborted = next.isAborted

end Tree

theorem Task.Follows.replies {now : Instant} {task next : Task} {world after : World}
    {answer : Except Halt Unit} (follows : Follows now task world answer next after) :
    Tree.Replies (.task task) answer (.task next) := by
  cases follows with
  | missing =>
      refine ⟨nofun, fun failure ended => ?_⟩
      cases ended
      exact ⟨rfl, rfl⟩
  | waits => exact ⟨nofun, nofun⟩
  | ends =>
      unfold ending
      split
      · next bad =>
          refine ⟨nofun, fun failure ended => ?_⟩
          cases ended
          exact ⟨bad, rfl⟩
      · exact ⟨nofun, nofun⟩
  | strays _ _ _ strays => cases strays <;> exact ⟨nofun, nofun⟩
  | lost => exact ⟨nofun, nofun⟩

namespace Branch

def replyCourse : Course Tree := fun child _ answer next _ => child.Replies answer next

/-- A pass that cannot count an attempt ends at the group that needs it. -/
theorem Pass.overdrawn {indices : List Nat} {branch last : Branch} {world after : World}
    {status : Checking} {answer : Except Halt Checking}
    (pass : Pass replyCourse indices branch world status answer last after)
    (broken : answer = .error (.broken .tries)) :
    last.1.standing.checking = branch.1.standing.checking ∧
      ∃ node ∈ (Tree.branch last.1 last.2).nodes, node.Overdrawn := by
  have kept : ∀ {branch next : Branch} {index : Nat} {child : Tree} {failure : JobFailure}
      {answer : Except Halt Bool}, Answers branch index child failure answer next →
      next.1.standing.checking = branch.1.standing.checking := by
    intro branch next index child failure answer answers
    rcases answers.standing with same | same <;> rw [same]
    rfl
  -- By induction on the pass, which ends where an attempt cannot be counted, here or further below.
  induction pass with
  | done => cases broken
  | skips _ _ ih => exact ih broken
  | @passes _ _ branch _ _ _ _ _ _ child next _ _ _ _ ih =>
      obtain ⟨checking, overdrawn⟩ := ih broken
      refine ⟨checking.trans ?_, overdrawn⟩
      exact congrArg Standing.checking (Group.standing_setFailed _ _)
  | fails _ _ _ answers _ ih =>
      obtain ⟨checking, overdrawn⟩ := ih broken
      have same := kept answers
      exact ⟨checking.trans same, overdrawn⟩
  | @breaks index _ branch _ _ _ _ _ next _ _ here _ visit answers =>
      have checking := kept answers
      cases answers with
      | overdraws unaborted tries normal overdrawn =>
          obtain ⟨failed, aborted⟩ := visit.failed _ rfl
          refine ⟨checking, _, Tree.self_mem_nodes _, next, ?_, ?_, overdrawn⟩
          · exact List.mem_of_getElem? (getElem?_put_self here _)
          · refine ⟨failed, aborted.symm.trans unaborted, tries, fun serial => normal ?_⟩
            rwa [← Group.isSerial_setFailed]
  | @halts index _ branch _ _ _ _ next _ here _ visit =>
      cases broken
      obtain ⟨-, node, member, overdrawn⟩ := visit.overdrawn rfl
      refine ⟨rfl, node, ?_, overdrawn⟩
      have placed : next ∈ (branch.put index next).2 :=
        List.mem_of_getElem? (getElem?_put_self here _)
      exact List.mem_cons_of_mem _ (Tree.mem_nodesOf.mpr ⟨next, placed, member⟩)

end Branch

/-- A sweep that cannot count an attempt leaves the group that needs it in the tree. -/
theorem Tree.Sweeps.replies {now : Instant} {tree next : Tree} {world after : World}
    {answer : Except Halt Unit} (sweeps : Tree.Sweeps now tree world answer next after) :
    tree.Replies answer next := by
  refine sweeps.rule (p := Branch.replyCourse) (fun follows => follows.replies) ?_
  intro group children world answer group' children' after sweeps
  have sweeps := sweeps.mono fun visit => visit.2
  cases sweeps with
  | halts pass =>
      refine ⟨fun broken => ?_, fun failure failed => ?_⟩
      · obtain ⟨checking, overdrawn⟩ := pass.overdrawn (by cases broken; rfl)
        have begun : (group.begun now).standing.checking = group.standing.checking := by
          obtain ⟨time, same⟩ := Group.standing_begun group now
          rw [same]
        exact ⟨checking.trans begun, overdrawn⟩
      · cases failed
        exact absurd rfl (pass.hard failure)
  | closes _ closes =>
      cases closes with
      | pending => exact ⟨nofun, nofun⟩
      | overdue => exact ⟨nofun, nofun⟩
      | fails _ bad aborted =>
          refine ⟨nofun, fun failure failed => ?_⟩
          cases failed
          exact ⟨bad, aborted⟩
      | moves => exact ⟨nofun, nofun⟩
      | ends => exact ⟨nofun, nofun⟩


/-! ## What a sweep breaks off for -/

/-- Why a sweep over a tree can be left without an answer. -/
inductive Tree.Interrupts (tree : Tree) (runner : Runner) : Halt → Prop
  | failed (failure : JobFailure) : Interrupts tree runner (.error (.failed failure))
  | uncounted : Interrupts tree runner (.broken .tries)
  | overrun (overrun : ¬ runner.Fits) : Interrupts tree runner (.broken .ticks)
  | unknown {name : String} (named : name ∈ tree.names) (missing : runner.job? name = none) :
      Interrupts tree runner (.error (.runner (.unknownJob name)))
  | overdue {group : Group} {children : List Tree}
      (inside : .branch group children ∈ tree.nodes) (timed : 0 < group.timeout)
      {flow elapsed : String} {unfinished : List String} {propagation : Propagation} :
      Interrupts tree runner (.error (.timeout flow elapsed unfinished propagation))

/-- What interrupts the visit to a child interrupts the sweep. -/
theorem Tree.Interrupts.branch {child : Tree} {runner : Runner} {halt : Halt}
    (interrupts : child.Interrupts runner halt) {group : Group} {children : List Tree}
    (member : child ∈ children) : (Tree.branch group children).Interrupts runner halt := by
  cases interrupts with
  | failed failure => exact .failed failure
  | uncounted => exact .uncounted
  | overrun overrun => exact .overrun overrun
  | unknown named missing => exact .unknown (mem_names_branch.mpr ⟨child, member, named⟩) missing
  | overdue inside timed =>
      exact .overdue (List.mem_cons_of_mem _ (mem_nodesOf.mpr ⟨child, member, inside⟩)) timed

namespace Branch

def interruptCourse : Course Tree := fun child world answer next after =>
  child.standing.isFinished = false → child.Sound world.runner → ∀ halt, answer = .error halt →
    next.Interrupts after.runner halt

theorem Pass.interrupts {now : Instant} {start : Group} {indices : List Nat} {branch last : Branch}
    {world after : World} {status : Checking} {answer : Except Halt Checking} {halt : Halt}
    (pass : Pass (fun child world answer next after =>
      Tree.Sweeps now child world answer next after ∧ interruptCourse child world answer next after)
      indices branch world status answer last after)
    (sound : PassSound start branch world) (ended : answer = .error halt) :
    (Tree.branch last.1 last.2).Interrupts after.runner halt := by
  induction pass with
  | done => cases ended
  | skips _ _ ih => exact ih sound ended
  | passes here unfinished visit _ ih =>
      have childSound := sound.sound _ (List.mem_of_getElem? here)
      exact ih (sound.passes here visit.1.grows
        (visit.1.sound .ok unfinished childSound)) ended
  | @fails _ _ _ _ _ _ _ _ _ _ _ _ failure _ here unfinished visit answers _ ih =>
      have childSound := sound.sound _ (List.mem_of_getElem? here)
      exact ih (sound.fails here visit.1.grows
        (visit.1.sound (.failed failure) unfinished childSound) answers) ended
  | breaks _ _ _ answers =>
      cases ended
      cases answers
      exact .uncounted
  | halts here unfinished visit =>
      cases ended
      have interrupts := visit.2 unfinished (sound.sound _ (List.mem_of_getElem? here)) halt rfl
      exact interrupts.branch (List.mem_of_getElem? (getElem?_put_self here _))

end Branch

/-- A step that comes to no answer lacks its job, or the end of a build cannot be
told. -/
theorem Task.Follows.interrupts {now : Instant} {task next : Task} {world after : World}
    {halt : Halt} (follows : Follows now task world (.error halt) next after)
    (unfinished : task.standing.isFinished = false) (sound : task.Sound world.runner) :
    (Tree.task next).Interrupts after.runner halt := by
  generalize ended : Except.error halt = answer at follows
  cases follows with
  | missing =>
      cases ended
      exact .failed _
  | waits => cases ended
  | ends =>
      unfold ending at ended
      split at ended
      · cases ended
        exact .failed _
      · cases ended
  | strays attempted _ followed strays =>
      cases ended
      cases strays with
      | overrun overrun => exact .overrun overrun
      | @unknown name named missing =>
          refine .unknown (List.mem_singleton.mpr ?_) missing
          rcases named with named | ⟨ref, has, rfl⟩
          · exact named
          · rw [attempted.name]
            exact (followed ref has).elim (fun before => (sound.anchored ref before).1) id
  | lost finds begins followed listed lost =>
      -- A build that the invocation holds is in the history of its job, so it cannot be lost.
      have begun := (begins.sound (finds.sound sound)
        (finds.attempted.isFinished.trans unfinished)).1
      obtain ⟨-, build, held⟩ := begun.anchored _ followed
      simp [Runner.build?, listed, lost] at held

/-- A sweep over a tree that is sound is left for no other reasons. -/
theorem Tree.Sweeps.interrupts {now : Instant} {tree next : Tree} {world after : World}
    {halt : Halt} (sweeps : Tree.Sweeps now tree world (.error halt) next after)
    (unfinished : tree.standing.isFinished = false) (sound : tree.Sound world.runner) :
    next.Interrupts after.runner halt := by
  refine sweeps.rule (p := Branch.interruptCourse) ?_ ?_ unfinished sound halt rfl
  · intro leaf world answer leaf' after follows unfinished sound halt ended
    subst ended
    exact follows.interrupts unfinished (sound_task.mp sound)
  · intro group children world answer group' children' after sweeps _ sound halt ended
    cases sweeps with
    | halts pass =>
        cases ended
        exact pass.interrupts (.start sound now) rfl
    | closes _ closes =>
        cases closes with
        | pending => cases ended
        | overdue _ overdue =>
            cases ended
            refine .overdue (Tree.self_mem_nodes _) ?_
            simp only [Branch.isOverdue, Bool.and_eq_true, decide_eq_true_eq] at overdue
            exact overdue.1
        | fails =>
            cases ended
            exact .failed _
        | moves => cases ended
        | ends => cases ended

/-- It breaks down for want of a count, or because the end of a build cannot be
told. -/
theorem Tree.Sweeps.breakdown {now : Instant} {tree next : Tree} {world after : World}
    {breakdown : Breakdown}
    (sweeps : Tree.Sweeps now tree world (.error (.broken breakdown)) next after)
    (unfinished : tree.standing.isFinished = false) (sound : tree.Sound world.runner) :
    breakdown = .tries ∨ breakdown = .ticks ∧ ¬ after.runner.Fits := by
  cases sweeps.interrupts unfinished sound with
  | uncounted => exact .inl rfl
  | overrun overrun => exact .inr ⟨rfl, overrun⟩

end BuildFlow
