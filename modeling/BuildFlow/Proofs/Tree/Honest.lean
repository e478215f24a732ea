import BuildFlow.Proofs.Tree.Life
import BuildFlow.Proofs.Tree.Sound
import BuildFlow.Proofs.Tree.Tour
/-!
A known result hides no failure. An invocation with a result has ended, and a group whose
result is not a failure has no child that it takes for one. Tours keep this, wherever a
kill interrupts them.
-/
namespace BuildFlow

/-! ## Trees -/

namespace Tree

/-- The result of one node, if it is known, hides no failure. -/
def Tells : Tree → Prop
  | .task leaf => leaf.standing.result ≠ .unknown → leaf.standing.isFinished
  | .branch group children =>
      (group.standing.isFinished → children ≠ [] → group.standing.result ≠ .unknown) ∧
        (group.standing.result ≠ .unknown → group.standing.result ≠ .failure →
          ∀ child ∈ children, child.standing.propagatedResult ≠ .failure)

/-- No known result in the tree hides a failure. -/
def Honest (tree : Tree) : Prop := tree.Every Tells

theorem honest_task {leaf : Task} : (Tree.task leaf).Honest ↔
    (leaf.standing.result ≠ .unknown → leaf.standing.isFinished) := every_task

theorem honest_branch {group : Group} {children : List Tree} :
    (Tree.branch group children).Honest ↔
      ((group.standing.isFinished → children ≠ [] → group.standing.result ≠ .unknown) ∧
        (group.standing.result ≠ .unknown → group.standing.result ≠ .failure →
          ∀ child ∈ children, child.standing.propagatedResult ≠ .failure)) ∧
      ∀ child ∈ children, child.Honest := every_branch

theorem Honest.prepare {tree : Tree} (honest : tree.Honest) (scope : Bool) :
    (tree.prepare scope).Honest := by
  cases tree with
  | task leaf => exact honest_task.mpr fun known => absurd rfl known
  | branch group children =>
      refine honest_branch.mpr ⟨⟨fun finished => ?_, fun known => absurd rfl known⟩,
        (honest_branch.mp honest).2⟩
      cases (group.standing.isFinished_prepare scope).symm.trans finished

theorem Honest.finish {tree : Tree} (honest : tree.Honest)
    (known : tree.standing.result ≠ .unknown) : tree.finish.Honest := by
  cases tree with
  | task leaf => exact honest_task.mpr fun _ => rfl
  | branch group children =>
      obtain ⟨⟨-, fares⟩, below⟩ := honest_branch.mp honest
      exact honest_branch.mpr ⟨⟨fun _ _ => known, fares⟩, below⟩

/-- A visit keeps a tree honest. A node that has its result keeps it, and does not fail
any more. -/
structure KeepsHonest (tree : Tree) (answer : Except Halt Unit) (next : Tree) : Prop where
  honest : next.Honest
  propagation : next.standing.propagation = tree.standing.propagation
  kept : tree.standing.result ≠ .unknown →
    (∀ failure, answer ≠ failedBy failure) ∧ next.standing.result = tree.standing.result
  failed : ∀ failure, answer = failedBy failure → next.standing.result ≠ .unknown

/-- A node that is not taken for a failure is not after a visit, unless it gets a result. -/
theorem KeepsHonest.fares {tree next : Tree} {answer : Except Halt Unit}
    (keeps : KeepsHonest tree answer next) (fares : tree.standing.propagatedResult ≠ .failure) :
    next.standing.propagatedResult ≠ .failure := by
  rw [ne_eq, Standing.propagatedResult_eq_failure_iff, keeps.propagation]
  rintro ⟨normal, bad⟩
  refine fares (Standing.propagatedResult_eq_failure_iff.mpr ⟨normal, fun fine => ?_⟩)
  exact bad ((keeps.kept fine.known).2 ▸ fine)

end Tree

namespace Task

theorem Steps.honest {now : Instant} {leaf next : Task} {world after : World}
    {answer : Except Halt Unit} (steps : leaf.Steps now world answer next after)
    (resumes : Resumes answer) (unfinished : leaf.standing.isFinished = false)
    (honest : (Tree.task leaf).Honest) : Tree.KeepsHonest (.task leaf) answer (.task next) := by
  have tells := Tree.honest_task.mp honest
  have unknown : leaf.standing.result = .unknown := Decidable.not_not.mp fun known =>
    Bool.false_ne_true (unfinished.symm.trans (tells known))
  have kept : ∀ {p : Prop}, leaf.standing.result ≠ .unknown → p := fun known => absurd unknown known
  -- An invocation that has not finished has no result, so only a step that ends it has to be
  -- honest.
  rcases steps with follows | interrupted
  · refine ⟨Tree.honest_task.mpr ?_, follows.propagation, kept, ?_⟩
    · cases follows with
      | missing => exact fun _ => rfl
      | waits finds begins =>
          intro known
          exact kept ((finds.attempted.trans begins.attempted).result ▸ known)
      | ends => exact fun _ => rfl
      | strays _ _ _ strays => cases strays <;> cases resumes
      | lost => cases resumes
    · intro failure failed known
      have failing := follows.failed failed
      have unknown : next.standing.result = .unknown := known
      rw [unknown] at failing
      cases failing
  · have attempted := interrupted.finds.attempted
    refine ⟨Tree.honest_task.mpr fun known => kept (attempted.result ▸ known),
      attempted.propagation, kept, fun failure failed => ?_⟩
    obtain ⟨reason, killed⟩ := interrupted.killed
    cases killed.symm.trans failed

end Task

namespace Branch

/-- What a pass keeps of a group and its children. -/
structure PassHonest (first branch : Branch) : Prop where
  honest : ∀ child ∈ branch.2, child.Honest
  result : branch.1.standing.result = first.1.standing.result
  propagation : branch.1.standing.propagation = first.1.standing.propagation
  checking : branch.1.standing.checking = first.1.standing.checking
  length : branch.2.length = first.2.length
  fares : first.1.standing.result ≠ .unknown → first.1.standing.result ≠ .failure →
    ∀ child ∈ branch.2, child.standing.propagatedResult ≠ .failure

variable {first branch next : Branch} {index : Nat} {child visited : Tree}
  {answer : Except Halt Unit}

theorem PassHonest.start {group : Group} {children : List Tree}
    (honest : (Tree.branch group children).Honest) (now : Instant) :
    PassHonest (group, children) (begun (group, children) now) := by
  obtain ⟨⟨-, fares⟩, below⟩ := Tree.honest_branch.mp honest
  obtain ⟨time, same⟩ := Group.standing_begun group now
  have same : (begun (group, children) now).1.standing = _ := same
  exact ⟨below, by rw [same], by rw [same], by rw [same], rfl, fares⟩

theorem PassHonest.put (honest : PassHonest first branch) (here : branch.2[index]? = some child)
    (keeps : Tree.KeepsHonest child answer visited) :
    PassHonest first (branch.put index visited) := by
  refine ⟨fun other member => ?_, honest.result, honest.propagation, honest.checking,
    List.length_set.trans honest.length, fun known fine other member => ?_⟩
  · rcases List.mem_or_eq_of_mem_set member with old | same
    · exact honest.honest other old
    · exact same ▸ keeps.honest
  · rcases List.mem_or_eq_of_mem_set member with old | same
    · exact honest.fares known fine other old
    · exact same ▸ keeps.fares (honest.fares known fine child (List.mem_of_getElem? here))

theorem PassHonest.cleared (honest : PassHonest first branch) (child : Tree) :
    PassHonest first (branch.cleared child) :=
  have same : (branch.cleared child).1.standing = branch.1.standing := Group.standing_setFailed _ _
  ⟨honest.honest, same ▸ honest.result, same ▸ honest.propagation, same ▸ honest.checking,
    honest.length, honest.fares⟩

theorem PassHonest.fails {failure : JobFailure} {again : Bool}
    (honest : PassHonest first branch) (here : branch.2[index]? = some child)
    (keeps : Tree.KeepsHonest child (failedBy failure) visited)
    (answers : Answers (branch.put index visited) index visited failure (.ok again) next) :
    PassHonest first next := by
  have after := honest.put here keeps
  have here' := getElem?_put_self here visited
  have known := keeps.failed failure rfl
  have checking : next.1.standing.checking = branch.1.standing.checking := by
    rcases answers.standing with same | same <;> rw [same] <;> rfl
  refine ⟨?_, answers.result.trans honest.result, answers.propagation.trans honest.propagation,
    checking.trans honest.checking, answers.length.trans after.length, ?_⟩
  · have visited' := after.honest visited (List.mem_of_getElem? here')
    exact answers.all after.honest visited' (visited'.finish known)
      fun _ scope honest => honest.prepare scope
  · intro known fine other member
    -- A child that can still fail had no result, so the group that has one does not look at it.
    have abnormal : visited.standing.propagation ≠ .normal := by
      rw [keeps.propagation]
      intro normal
      have fares := honest.fares known fine child (List.mem_of_getElem? here)
      refine fares (Standing.propagatedResult_eq_failure_iff.mpr ⟨normal, fun fine => ?_⟩)
      exact (keeps.kept fine.known).1 failure rfl
    obtain ⟨new, propagation, same⟩ := answers.abnormal abnormal here'
    rw [same] at member
    rcases List.mem_or_eq_of_mem_set member with old | same
    · exact after.fares known fine other old
    · rw [same, ne_eq, Standing.propagatedResult_eq_failure_iff, propagation]
      exact fun failure => abnormal failure.1

theorem Closes.propagation {now : Instant} {branch last : Branch} {status : Checking}
    (closes : Closes now branch status answer last) :
    last.1.standing.propagation = branch.1.standing.propagation := by
  cases closes with
  | pending => rfl
  | overdue => rfl
  | fails => rfl
  | moves =>
      have same := congrArg Standing.propagation (standing_moved branch)
      exact same
  | ends =>
      have same := congrArg Standing.propagation (standing_moved branch.summed)
      exact same

/-- A group that takes over what its children came to hides no failure. -/
theorem PassHonest.closes {now : Instant} {group : Group} {children : List Tree}
    {passed last : Branch} {status : Checking} (honest : PassHonest (group, children) passed)
    (closes : Closes now (passed.closed status) status answer last) (resumes : Resumes answer) :
    Tree.KeepsHonest (.branch group children) answer (.branch last.1 last.2) := by
  have result : (passed.closed status).1.standing.result = group.standing.result :=
    (result_closed passed status).trans honest.result
  have propagation : last.1.standing.propagation = group.standing.propagation :=
    closes.propagation.trans ((propagation_closed passed status).trans honest.propagation)
  -- A group that has a result already is pending, so it never comes to another one.
  have unsettled : ∀ {p : Prop}, isPending status (passed.closed status) = false →
      group.standing.result ≠ .unknown → p := fun settled known =>
    absurd (result.symm.trans (settled_unknown settled)) known
  have checking : (passed.closed status).1.standing.checking = status := by
    unfold closed
    split <;> rfl
  cases closes with
  | pending pending =>
      refine ⟨Tree.honest_branch.mpr ⟨⟨fun finished some' => ?_, fun known fine => ?_⟩,
        honest.honest⟩, propagation, fun known => ⟨nofun, result⟩, nofun⟩
      · have finished : (passed.closed status).1.standing.checking = .finished :=
          of_decide_eq_true finished
        rcases isPending_iff.mp pending with waits | known
        · cases (checking.symm.trans finished).symm.trans waits
        · exact known
      · rw [result] at known fine
        exact honest.fares known fine
  | overdue => cases resumes
  | fails settled failure =>
      have failed := aggregate_of_isFailure (settled_unknown settled) failure
      have known : (passed.closed status).summed.1.standing.result = .failure := failed
      refine ⟨Tree.honest_branch.mpr ⟨⟨fun _ _ => ?_, fun _ fine => ?_⟩, honest.honest⟩,
        propagation, unsettled settled, fun _ _ => ?_⟩
      · exact known ▸ BuildResult.noConfusion
      · exact absurd known fine
      · exact known ▸ BuildResult.noConfusion
  | moves settled =>
      refine ⟨Tree.honest_branch.mpr ⟨⟨fun finished => ?_, fun known => ?_⟩, honest.honest⟩,
        propagation, unsettled settled, nofun⟩
      · cases finished
      · exact absurd rfl known
  | ends settled fine last =>
      have reach : (passed.closed status).2.take (passed.closed status).span =
          (passed.closed status).2 := by
        rw [span_all last]
        exact List.take_length
      have known : (passed.closed status).summed.moved.1.standing.result =
          (passed.closed status).aggregate (passed.closed status).span :=
        congrArg Standing.result (Group.standing_setCursor _ _)
      refine ⟨Tree.honest_branch.mpr ⟨⟨fun _ some' => ?_, fun _ _ child member => ?_⟩,
        honest.honest⟩, propagation, unsettled settled, nofun⟩
      · rw [known]
        refine aggregate_ne_unknown (settled_unknown settled) ?_
        rw [reach]
        exact some'
      · refine fine_of_aggregate fine ?_
        rw [reach]
        exact member

end Branch

namespace Tree

/-- Every tour keeps a tree honest, also one that a kill interrupts. -/
theorem Tours.honest {now : Instant} {tree next : Tree} {world after : World}
    {answer : Except Halt Unit} (tours : Tours now tree world answer next after)
    (resumes : Resumes answer) (unfinished : tree.standing.isFinished = false)
    (honest : tree.Honest) : KeepsHonest tree answer next := by
  refine tours.rule (p := fun tree _ answer next _ => Resumes answer →
    tree.standing.isFinished = false → tree.Honest → KeepsHonest tree answer next)
    (fun steps => steps.honest) ?_ resumes unfinished honest
  intro group children world answer group' children' after sweeps resumes unfinished honest
  have passes : ∀ {answer last after}, Branch.Pass (fun child world answer next after =>
      Tours now child world answer next after ∧ (Resumes answer →
        child.standing.isFinished = false → child.Honest → KeepsHonest child answer next))
      (List.range (Branch.begun (group, children) now).span) (Branch.begun (group, children) now)
      world .finished answer last after →
      (∀ halt, answer = .error halt → Resumes (.error halt)) →
      Branch.PassHonest (group, children) last := by
    intro answer last after pass goesOn
    refine pass.survives (p := fun branch _ => Branch.PassHonest (group, children) branch) ?_
      (fun honest => honest.cleared _) ?_ goesOn (.start honest now)
    · intro index branch world answer child next there resumes honest here unfinished visit
      exact honest.put here
        (visit.2 resumes unfinished (honest.honest child (List.mem_of_getElem? here)))
    · intro index branch world child next there failure again answered honest here unfinished visit
      exact honest.fails here
        (visit.2 (.failed failure) unfinished (honest.honest child (List.mem_of_getElem? here)))
  cases sweeps with
  | halts pass =>
      have kept := passes pass fun halt same => by cases same; exact resumes
      -- A group whose pass was broken off is as it was before, apart from its children.
      obtain ⟨⟨finishes, -⟩, -⟩ := honest_branch.mp honest
      refine ⟨honest_branch.mpr ⟨⟨fun finished => ?_, fun known fine => ?_⟩, kept.honest⟩,
        kept.propagation, fun _ => ⟨fun failure failed => ?_, kept.result⟩, fun failure failed => ?_⟩
      · have finished : group'.standing.checking = .finished := of_decide_eq_true finished
        have finished : group.standing.isFinished :=
          decide_eq_true (kept.checking.symm.trans finished)
        cases unfinished.symm.trans finished
      · rw [show group'.standing.result = group.standing.result from kept.result] at known fine
        exact kept.fares known fine
      · cases failed
        exact pass.hard failure rfl
      · cases failed
        exact absurd rfl (pass.hard failure)
  | closes pass closes => exact (passes pass nofun).closes closes resumes

end Tree

end BuildFlow
