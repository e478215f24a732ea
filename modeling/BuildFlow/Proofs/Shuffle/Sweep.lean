import BuildFlow.Proofs.Shuffle.Parallel
import BuildFlow.Proofs.Stopping
/-!
Sweeps over shuffled trees. What a group comes to at the end of a pass does not depend on
the order in which a parallel group has visited its children, so one sweep leads two runs
from shuffled trees to shuffled trees.
-/
namespace BuildFlow

instance : RightCommutative (min : BuildResult → BuildResult → BuildResult) where
  right_comm result first second := by cases result <;> cases first <;> cases second <;> rfl

/-! ## The end of a pass -/

namespace Branch

variable {now : Instant} {branch branch' last last' : Branch} {status : Checking}
  {answer answer' : Except Halt Unit}

/-- Whether a group fails after a pass, and what it comes to, unless its time is over. -/
def settlement (branch : Branch) (status : Checking) : Bool × Branch :=
  if isPending status branch then (false, branch)
  else if (branch.aggregate branch.span).isFailure then (true, branch.summed)
  else if branch.1.isSerial ∧ branch.1.cursor + 1 < branch.2.length then
    (false, branch.moved.waiting)
  else (false, branch.summed.moved)

theorem Closes.settles (closes : Closes now branch status answer last) (answered : Answered answer) :
    branch.settlement status = (false, last) ∧ answer = .ok () ∨
      ∃ reason : JobFailure, branch.settlement status = (true, last) ∧ answer = failedBy reason ∧
        reason.isAborted = branch.1.aborted := by
  unfold settlement
  cases closes with
  | pending pending => exact .inl ⟨if_pos pending, rfl⟩
  | overdue => cases answered
  | fails settled failure aborted =>
      rw [if_neg (by simp [settled]), if_pos failure]
      exact .inr ⟨_, rfl, rfl, aborted⟩
  | moves settled fine serial more =>
      rw [if_neg (by simp [settled]), if_neg (by simp [fine]), if_pos ⟨serial, more⟩]
      exact .inl ⟨rfl, rfl⟩
  | ends settled fine last =>
      rw [if_neg (by simp [settled]), if_neg (by simp [fine]), if_neg]
      · exact .inl ⟨rfl, rfl⟩
      · rintro ⟨serial, more⟩
        exact Nat.not_le.mpr more (last serial)

section

variable (shuffled : Tree.Shuffled (.branch branch.1 branch.2) (.branch branch'.1 branch'.2))

include shuffled

theorem plain_of_shuffled : branch'.1.plain = branch.1.plain := by
  cases shuffled with
  | branch same => exact same

theorem length_of_shuffled : branch'.2.length = branch.2.length := shuffled.length_children

theorem span_of_shuffled : branch'.span = branch.span := by
  have same := plain_of_shuffled shuffled
  exact span_eq (Group.isSerial_of_plain same) (Group.cursor_of_plain same)
    (length_of_shuffled shuffled)

/-- The children add up to the same result. -/
theorem aggregate_of_shuffled :
    branch'.aggregate branch'.span = branch.aggregate branch.span := by
  have span := span_of_shuffled shuffled
  have reads : ∀ child child' : Tree, child.Shuffled child' →
      child'.standing.propagatedResult = child.standing.propagatedResult :=
    fun _ _ here => here.reads (f := Standing.propagatedResult) fun _ => rfl
  have result : branch'.1.standing.result = branch.1.standing.result :=
    shuffled.reads (f := Standing.result) fun _ => rfl
  have length := length_of_shuffled shuffled
  unfold aggregate
  rw [span]
  change ((branch'.2.take branch.span).map _).foldl min branch'.1.standing.result =
    ((branch.2.take branch.span).map _).foldl min branch.1.standing.result
  rw [result]
  -- A serial group sums up the children up to its cursor, a parallel one all of them.
  cases shuffled with
  | branch same each order kept =>
      cases serial : branch.1.isSerial with
      | true =>
          rw [← kept serial, forall₂_map_eq (List.forall₂_take branch.span each) reads]
      | false =>
          rw [span_parallel serial, List.take_length, ← length, List.take_length, ← forall₂_map_eq each reads]
          exact ((order.map _).foldl_eq _).symm

theorem shuffled_begun (now : Instant) :
    Tree.Shuffled (.branch (branch.begun now).1 (branch.begun now).2)
      (.branch (branch'.begun now).1 (branch'.begun now).2) := by
  refine shuffled.regroup ?_ (Group.isSerial_begun _ _)
  exact (Group.plain_begun _ now).trans
    ((congrArg (Group.begun · now) (plain_of_shuffled shuffled)).trans (Group.plain_begun _ now).symm)

theorem shuffled_closed (status : Checking) :
    Tree.Shuffled (.branch (branch.closed status).1 (branch.closed status).2)
      (.branch (branch'.closed status).1 (branch'.closed status).2) := by
  have same := plain_of_shuffled shuffled
  have standing := Group.standing_of_plain same
  refine shuffled.regroup ?_ rfl
  refine Group.plain_standing same ?_
  have spent : (branch'.group.isSerial = false ∧ branch'.group.aborted) =
      (branch.group.isSerial = false ∧ branch.group.aborted) := by
    unfold group
    rw [Group.isSerial_of_plain same, Group.aborted_of_plain same]
  simp only [spent]
  split
  · exact congrArg (fun standing : Standing => { standing.exhaust with checking := status }) standing
  · exact congrArg (fun standing : Standing => { standing with checking := status }) standing

theorem shuffled_summed : Tree.Shuffled (.branch branch.summed.1 branch.summed.2)
    (.branch branch'.summed.1 branch'.summed.2) := by
  have same := plain_of_shuffled shuffled
  have standing := Group.standing_of_plain same
  refine shuffled.regroup (Group.plain_standing same ?_) rfl
  rw [aggregate_of_shuffled shuffled]
  exact congrArg (fun standing : Standing =>
    { standing with result := branch.aggregate branch.span }) standing

theorem shuffled_moved : Tree.Shuffled (.branch branch.moved.1 branch.moved.2)
    (.branch branch'.moved.1 branch'.moved.2) := by
  have same := plain_of_shuffled shuffled
  refine shuffled.regroup ?_ (Group.isSerial_setCursor _ _)
  unfold moved group
  rw [Group.plain_setCursor, Group.plain_setCursor, same, Group.cursor_of_plain same]

theorem shuffled_waiting : Tree.Shuffled (.branch branch.waiting.1 branch.waiting.2)
    (.branch branch'.waiting.1 branch'.waiting.2) := by
  have same := plain_of_shuffled shuffled
  refine shuffled.regroup (Group.plain_standing same ?_) rfl
  exact congrArg (fun standing : Standing =>
    { standing with checking := .mustCheck, result := .unknown }) (Group.standing_of_plain same)

/-- Both groups come to the same after a pass. -/
theorem shuffled_settlement (status : Checking) :
    (branch'.settlement status).1 = (branch.settlement status).1 ∧
      Tree.Shuffled (.branch (branch.settlement status).2.1 (branch.settlement status).2.2)
        (.branch (branch'.settlement status).2.1 (branch'.settlement status).2.2) := by
  have same := plain_of_shuffled shuffled
  have result : branch'.1.standing.result = branch.1.standing.result :=
    shuffled.reads (f := Standing.result) fun _ => rfl
  have pending : isPending status branch' = isPending status branch := by
    unfold isPending group
    rw [result]
  unfold settlement
  rw [pending, aggregate_of_shuffled shuffled, Group.isSerial_of_plain same,
    Group.cursor_of_plain same, length_of_shuffled shuffled]
  split
  · exact ⟨rfl, shuffled⟩
  · split
    · exact ⟨rfl, shuffled_summed shuffled⟩
    · split
      · exact ⟨rfl, shuffled_waiting (shuffled_moved shuffled)⟩
      · exact ⟨rfl, shuffled_moved (shuffled_summed shuffled)⟩

theorem Closes.twins (closes : Closes now branch status answer last) (answered : Answered answer)
    (closes' : Closes now branch' status answer' last') (answered' : Answered answer') :
    SameAnswers answer answer' ∧
      Tree.Shuffled (.branch last.1 last.2) (.branch last'.1 last'.2) := by
  have aborted := Group.aborted_of_plain (plain_of_shuffled shuffled)
  obtain ⟨fails, settled⟩ := shuffled_settlement shuffled status
  rcases closes.settles answered with ⟨here, rfl⟩ | ⟨reason, here, rfl, own⟩ <;>
    rcases closes'.settles answered' with ⟨here', rfl⟩ | ⟨reason', here', rfl, own'⟩ <;>
    rw [here, here'] at fails settled
  · exact ⟨.passed, settled⟩
  · cases fails
  · cases fails
  · exact ⟨.failed (by rw [own, own', aborted]), settled⟩

end

/-! ## Groups -/

theorem InStep.shuffled (step : InStep branch branch') :
    Tree.Shuffled (.branch branch.1 branch.2) (.branch branch'.1 branch'.2) :=
  .branch step.group step.children (.refl _) fun _ => rfl

/-- Both passes come to the same, whether the groups are serial or parallel. -/
theorem Pass.alike {world world' after after' : World} {status final final' : Checking}
    (pass : Pass (pairCourse now) (List.range branch.span) branch world status (.ok final) last after)
    (pass' : Pass (Tree.Sweeps now) (List.range branch'.span) branch' world' status (.ok final') last'
      after')
    (shuffled : Tree.Shuffled (.branch branch.1 branch.2) (.branch branch'.1 branch'.2))
    (distinct : (Tree.branch branch.1 branch.2).names.Nodup)
    (agree : World.Agree (Tree.branch branch.1 branch.2).names world world') :
    Tree.Shuffled (.branch last.1 last.2) (.branch last'.1 last'.2) ∧ final' = final ∧
      World.Agree (Tree.branch branch.1 branch.2).names after after' := by
  rw [span_of_shuffled shuffled] at pass'
  cases serial : branch.1.isSerial with
  | true =>
      have step : InStep branch branch' := by
        cases shuffled with
        | branch same each _ kept => exact ⟨same, kept serial ▸ each⟩
      obtain ⟨step, same, agree⟩ := pass.twins pass' distinct step agree
      exact ⟨step.shuffled, same, agree⟩
  | false =>
      rw [span_parallel serial] at pass pass'
      rw [← length_of_shuffled shuffled] at pass'
      exact pass.shuffles pass' serial shuffled distinct agree

/-- Both runs lead the groups to the same. -/
theorem Sweeps.twins {world world' after after' : World}
    (sweeps : Sweeps now (pairCourse now) branch world answer last after) (answered : Answered answer)
    (sweeps' : Sweeps now (Tree.Sweeps now) branch' world' answer' last' after')
    (answered' : Answered answer')
    (shuffled : Tree.Shuffled (.branch branch.1 branch.2) (.branch branch'.1 branch'.2))
    (distinct : (Tree.branch branch.1 branch.2).names.Nodup)
    (agree : World.Agree (Tree.branch branch.1 branch.2).names world world') :
    Tree.Twins (Tree.branch branch.1 branch.2).names answer answer' (.branch last.1 last.2)
      (.branch last'.1 last'.2) after after' := by
  cases sweeps with
  | halts pass => cases answered; exact absurd rfl (pass.hard _)
  | @closes passed _ _ status _ pass closes =>
      cases sweeps' with
      | halts pass' => cases answered'; exact absurd rfl (pass'.hard _)
      | @closes passed' _ _ status' _ pass' closes' =>
          obtain ⟨passes, rfl, agree⟩ :=
            pass.alike pass' (shuffled_begun shuffled now) distinct agree
          obtain ⟨answers, trees⟩ :=
            Closes.twins (shuffled_closed passes _) closes answered closes' answered'
          exact ⟨answers, trees, agree⟩

end Branch

/-! ## Trees -/

namespace Tree

/-- One sweep over shuffled trees leads both runs to the same. -/
theorem Sweeps.twins {now : Instant} {tree next : Tree} {world after : World}
    {answer : Except Halt Unit} (sweeps : Sweeps now tree world answer next after) :
    twinCourse now tree world answer next after := by
  refine sweeps.rule (p := twinCourse now) ?_ ?_
  · intro leaf world answer leaf' after follows distinct answered tree' world' answer' next' after'
      sweeps' answered' shuffled agree
    cases shuffled with
    | task same owns =>
        obtain ⟨leaf'', rfl, follows'⟩ := sweeps'.ofTask
        obtain ⟨answers, same, owns, worlds⟩ :=
          follows.twins answered follows' answered' same owns agree
        exact ⟨answers, .task same owns, worlds⟩
  · intro group children world answer group' children' after sweeps distinct answered tree' world'
      answer' next' after' sweeps' answered' shuffled agree
    cases shuffled with
    | branch same each order kept =>
        obtain ⟨_, _, rfl, swept⟩ := sweeps'.ofBranch
        exact Branch.Sweeps.twins sweeps answered swept answered' (.branch same each order kept)
          distinct agree

end Tree

end BuildFlow
