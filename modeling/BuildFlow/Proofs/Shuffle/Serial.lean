import BuildFlow.Proofs.Shuffle.Tree
/-!
Sweeps over the children of a serial group in two runs. The children stand in the same
order, so both passes go on in step: the same child fails, and the group answers in the
same way.
-/
namespace BuildFlow

/-! ## Answers -/

namespace Branch

variable {branch branch' : Branch} {index : Nat} {child child' : Tree}

/-- The answer of a group to the failure of a child, by what it depends on. -/
def reply (branch : Branch) (index : Nat) (child : Tree) (aborted : Bool) : Bool × Branch :=
  let finished := (branch.noted child).put index child.finish
  if aborted then
    (false, if child.standing.isUnchecked then finished else finished.aborting)
  else if child.standing.mayTry then
    if branch.group.isSerial ∧ child.standing.propagation ≠ .normal then
      (false, branch.noted child)
    else (!child.standing.newScope, (branch.noted child).retried index child)
  else (false, if child.standing.isUnchecked then finished else finished.leaving)

theorem Answers.replies {failure : JobFailure} {again : Bool} {next : Branch}
    (answers : Answers branch index child failure (.ok again) next) :
    branch.reply index child failure.isAborted = (again, next) := by
  unfold reply
  cases answers with
  | aborts aborted checked => rw [if_pos aborted, if_neg (by simp [checked])]
  | abortsUnchecked aborted unchecked => rw [if_pos aborted, if_pos unchecked]
  | stays unaborted tries serial abnormal =>
      rw [if_neg (by simp [unaborted]), if_pos tries, if_pos ⟨serial, abnormal⟩]
  | retries unaborted tries normal =>
      rw [if_neg (by simp [unaborted]), if_pos tries, if_neg]
      rintro ⟨serial, abnormal⟩
      exact abnormal (normal serial)
  | ends unaborted spent checked =>
      rw [if_neg (by simp [unaborted]), if_neg (by simp [spent]), if_neg (by simp [checked])]
  | endsUnchecked unaborted spent unchecked =>
      rw [if_neg (by simp [unaborted]), if_neg (by simp [spent]), if_pos unchecked]

/-- The groups differ in ids, and child for child their children are shuffled. -/
structure InStep (branch branch' : Branch) : Prop where
  group : branch'.1.plain = branch.1.plain
  children : List.Forall₂ Tree.Shuffled branch.2 branch'.2

namespace InStep

variable (step : InStep branch branch') (shuffled : child.Shuffled child')

include step

theorem reach : branch'.reach = branch.reach := by
  have length := step.children.length_eq
  unfold Branch.reach Branch.children Branch.group
  rw [Group.cursor_of_plain step.group, length]

theorem noted : InStep (branch.noted child) (branch'.noted child') := by
  refine ⟨?_, step.children⟩
  exact (Group.plain_setFailed _ _).trans (step.group.trans (Group.plain_setFailed _ _).symm)

theorem cleared : InStep (branch.cleared child) (branch'.cleared child') := by
  refine ⟨?_, step.children⟩
  exact (Group.plain_setFailed _ _).trans (step.group.trans (Group.plain_setFailed _ _).symm)

theorem leaving : InStep branch.leaving branch'.leaving := by
  refine ⟨?_, step.children⟩
  have length := step.children.length_eq
  unfold Branch.leaving
  rw [Group.plain_setCursor, Group.plain_setCursor, step.group, length]

theorem aborting : InStep branch.aborting branch'.aborting := by
  have aborted := Group.plain_aborted step.group true
  have standing := Group.standing_of_plain step.group
  unfold Branch.aborting Branch.group
  rw [Group.isSerial_of_plain step.group]
  split
  · refine leaving ⟨?_, step.children⟩
    exact Group.plain_standing aborted (congrArg Standing.exhaust standing)
  · exact ⟨aborted, step.children⟩

include shuffled

theorem put : InStep (branch.put index child) (branch'.put index child') :=
  ⟨step.group, forall₂_set step.children index shuffled⟩

theorem retried : InStep (branch.retried index child) (branch'.retried index child') := by
  have scope := shuffled.reads (f := Standing.newScope) fun _ => rfl
  unfold Branch.retried Branch.group
  rw [Group.isSerial_of_plain step.group, scope]
  split
  · constructor
    · change (branch'.1.setCursor 0).plain = (branch.1.setCursor 0).plain
      rw [Group.plain_setCursor, Group.plain_setCursor, step.group]
    · rw [step.reach]
      apply List.rel_append
      · exact List.rel_map (fun _ _ shuffled => shuffled.prepare _) (List.forall₂_take _ step.children)
      · exact List.forall₂_drop _ step.children
  · exact step.put (shuffled.prepare _)

/-- Both groups give the same answer. -/
theorem reply (index : Nat) (aborted : Bool) :
    (branch'.reply index child' aborted).1 = (branch.reply index child aborted).1 ∧
      InStep (branch.reply index child aborted).2 (branch'.reply index child' aborted).2 := by
  -- The answer looks at the standing of the child only, which the order of its parts leaves alone.
  have unchecked := shuffled.reads (f := Standing.isUnchecked) fun _ => rfl
  have tries := shuffled.reads (f := Standing.mayTry) fun _ => rfl
  have scope := shuffled.reads (f := Standing.newScope) fun _ => rfl
  have propagation := shuffled.reads (f := Standing.propagation) fun _ => rfl
  have serial : branch'.group.isSerial = branch.group.isSerial := Group.isSerial_of_plain step.group
  have noted : InStep (branch.noted child) (branch'.noted child') := step.noted
  have finished : InStep ((branch.noted child).put index child.finish)
      ((branch'.noted child').put index child'.finish) := noted.put shuffled.finish
  unfold Branch.reply
  rw [unchecked, tries, scope, propagation, serial]
  dsimp only
  split
  · refine ⟨rfl, ?_⟩
    split
    · exact finished
    · exact finished.aborting
  · split
    · split
      · exact ⟨rfl, noted⟩
      · exact ⟨rfl, noted.retried shuffled⟩
    · refine ⟨rfl, ?_⟩
      split
      · exact finished
      · exact finished.leaving

end InStep

end Branch

/-! ## Visits -/

namespace Tree

variable {now : Instant} {child child' next next' : Tree} {world world' after after' : World}
  {answer answer' : Except Halt Unit} {names : List String}

/-- What comes of two visits is the same for both runs. -/
structure Twins (names : List String) (answer answer' : Except Halt Unit) (next next' : Tree)
    (after after' : World) : Prop where
  answers : SameAnswers answer answer'
  trees : next.Shuffled next'
  worlds : World.Agree names after after'

/-- The visits with the same outcome as any visit of another run to the shuffled child. -/
def twinCourse (now : Instant) : Course Tree := fun child world answer next after =>
  child.names.Nodup → Answered answer → ∀ {child' world' answer' next' after'},
    Sweeps now child' world' answer' next' after' → Answered answer' → child.Shuffled child' →
      World.Agree child.names world world' → Twins child.names answer answer' next next' after after'

/-- The runs agree on all jobs that they agreed on, if they agree on those of the children. -/
theorem Sweeps.widen (sweeps : Sweeps now child world answer next after) (answered : Answered answer)
    (sweeps' : Sweeps now child' world' answer' next' after') (answered' : Answered answer')
    (shuffled : child.Shuffled child') (agree : World.Agree names world world')
    (within : World.Agree child.names after after') : World.Agree names after after' := by
  refine ⟨within.tick, fun name named => ?_⟩
  by_cases inside : name ∈ child.names
  · exact within.jobs name inside
  · -- A job of another child is as it was before the visits.
    have outside : ∀ other ∈ [name], other ∉ child.names := by simpa using inside
    have outside' : ∀ other ∈ [name], other ∉ child'.names := by
      simpa [shuffled.names.mem_iff] using inside
    have kept := (sweeps.aside answered outside).jobs name (List.mem_singleton_self _)
    have kept' := (sweeps'.aside answered' outside').jobs name (List.mem_singleton_self _)
    rw [kept, kept', agree.jobs name named]

end Tree

namespace Branch

/-- What a group makes of a visit to a child that answers it. -/
inductive Absorbs (branch : Branch) (index : Nat) (child : Tree) (status : Checking) :
    Except Halt Unit → Branch → Checking → Prop
  | passed : Absorbs branch index child status (.ok ()) (branch.cleared child)
      (min status child.standing.propagatedChecking)
  | failed {failure : JobFailure} {again : Bool} {answered : Branch}
      (answers : Answers branch index child failure (.ok again) answered) :
      Absorbs branch index child status (failedBy failure) answered
        (if again then .mustCheck else status)

/-- What a pass does at one place, when the pass goes on. -/
inductive Turn (course : Course Tree) (index : Nat) (branch : Branch) (world : World)
    (status : Checking) : Branch → World → Checking → Prop
  | rests (finished : ∀ child, branch.2[index]? = some child → child.standing.isFinished) :
      Turn course index branch world status branch world status
  | visits {child next : Tree} {answer : Except Halt Unit} {there : World} {after : Branch}
      {status' : Checking} (here : branch.2[index]? = some child)
      (unfinished : child.standing.isFinished = false) (visit : course child world answer next there)
      (absorbs : Absorbs (branch.put index next) index next status answer after status') :
      Turn course index branch world status after there status'

theorem Pass.turn {course : Course Tree} {index : Nat} {rest : List Nat} {branch last : Branch}
    {world after : World} {status final : Checking}
    (pass : Pass course (index :: rest) branch world status (.ok final) last after) :
    ∃ middle there status', Turn course index branch world status middle there status' ∧
      Pass course rest middle there status' (.ok final) last after := by
  cases pass with
  | skips finished onward => exact ⟨_, _, _, .rests finished, onward⟩
  | passes here unfinished visit onward =>
      exact ⟨_, _, _, .visits here unfinished visit .passed, onward⟩
  | fails here unfinished visit answers onward =>
      exact ⟨_, _, _, .visits here unfinished visit (.failed answers), onward⟩

variable {now : Instant} {branch branch' : Branch} {world world' : World}
  {status status' : Checking} {answer answer' : Except Halt Unit}

theorem Absorbs.answered {index : Nat} {child : Tree} {after : Branch}
    (absorbs : Absorbs branch index child status answer after status') : Answered answer := by
  cases absorbs with
  | passed => exact .ok
  | failed => exact .failed _

theorem Absorbs.blank {index : Nat} {child : Tree} {after : Branch}
    (absorbs : Absorbs branch index child status answer after status')
    (here : branch.2[index]? = some child) : after.blank = branch.blank := by
  cases absorbs with
  | passed => exact blank_cleared _ _
  | failed answers => exact answers.blank here

theorem Absorbs.twins {index : Nat} {child child' : Tree} {after after' : Branch}
    {next next' : Checking} (absorbs : Absorbs branch index child status answer after next)
    (absorbs' : Absorbs branch' index child' status answer' after' next')
    (step : InStep branch branch') (shuffled : child.Shuffled child')
    (same : SameAnswers answer answer') : InStep after after' ∧ next' = next := by
  cases same with
  | passed =>
      cases absorbs
      cases absorbs'
      exact ⟨step.cleared, by rw [shuffled.reads (f := Standing.propagatedChecking) fun _ => rfl]⟩
  | @failed failure _ aborted =>
      cases absorbs with
      | failed answers =>
          cases absorbs' with
          | failed answers' =>
              have alike := step.reply shuffled index failure.isAborted
              rw [answers.replies, ← aborted, answers'.replies] at alike
              obtain ⟨rfl, onward⟩ := alike
              exact ⟨onward, rfl⟩

theorem Turn.blank {course : Course Tree} (keeps : ∀ {child world answer next there},
      course child world answer next there → next.blank = child.blank)
    {index : Nat} {middle : Branch} {there : World}
    (turn : Turn course index branch world status middle there status') :
    middle.blank = branch.blank := by
  cases turn with
  | rests => rfl
  | visits here _ visit absorbs =>
      exact (absorbs.blank (getElem?_put_self here _)).trans (blank_put here (keeps visit))

/-- The visits of a run that come out as in any other run. -/
def pairCourse (now : Instant) : Course Tree := fun child world answer next after =>
  Tree.Sweeps now child world answer next after ∧ Tree.twinCourse now child world answer next after

/-- Both runs do the same at one place of groups that are in step. -/
theorem Turn.twins {index : Nat} {middle middle' : Branch} {there there' : World}
    {next next' : Checking}
    (turn : Turn (pairCourse now) index branch world status middle there next)
    (turn' : Turn (Tree.Sweeps now) index branch' world' status middle' there' next')
    (distinct : (Tree.branch branch.1 branch.2).names.Nodup) (step : InStep branch branch')
    (agree : World.Agree (Tree.branch branch.1 branch.2).names world world') :
    InStep middle middle' ∧ next' = next ∧
      World.Agree (Tree.branch branch.1 branch.2).names there there' := by
  have done : ∀ {child child' : Tree}, child.Shuffled child' →
      child'.standing.isFinished = child.standing.isFinished :=
    fun shuffled => shuffled.reads (f := Standing.isFinished) fun _ => rfl
  -- The child at the place is finished in both groups or in none of them.
  cases turn with
  | rests finished =>
      cases turn' with
      | rests => exact ⟨step, rfl, agree⟩
      | visits here' unfinished' =>
          obtain ⟨child, here, shuffled⟩ := forall₂_getElem? step.children.flip here'
          rw [done shuffled, finished child here] at unfinished'
          cases unfinished'
  | @visits child _ _ _ _ _ here unfinished visit absorbs =>
      obtain ⟨child', here', shuffled⟩ := forall₂_getElem? step.children here
      cases turn' with
      | rests finished' =>
          rw [← done shuffled, finished' child' here'] at unfinished
          cases unfinished
      | visits at' _ visit' absorbs' =>
          cases here'.symm.trans at'
          have inside := List.mem_of_getElem? here
          have distinct := Tree.nodup_of_child distinct inside
          have within := agree.mono fun name named =>
            Tree.mem_names_branch.mpr ⟨child, inside, named⟩
          obtain ⟨answers, trees, worlds⟩ :=
            visit.2 distinct absorbs.answered visit' absorbs'.answered shuffled within
          obtain ⟨onward, same⟩ := absorbs.twins absorbs' (step.put trees) trees answers
          refine ⟨onward, same, ?_⟩
          exact visit.1.widen absorbs.answered visit' absorbs'.answered shuffled agree worlds

/-- Both passes over groups that are in step come to the same. -/
theorem Pass.twins {indices : List Nat} {last last' : Branch} {after after' : World}
    {final final' : Checking}
    (pass : Pass (pairCourse now) indices branch world status (.ok final) last after)
    (pass' : Pass (Tree.Sweeps now) indices branch' world' status (.ok final') last' after')
    (distinct : (Tree.branch branch.1 branch.2).names.Nodup) (step : InStep branch branch')
    (agree : World.Agree (Tree.branch branch.1 branch.2).names world world') :
    InStep last last' ∧ final' = final ∧
      World.Agree (Tree.branch branch.1 branch.2).names after after' := by
  induction indices generalizing branch branch' world world' status with
  | nil =>
      cases pass
      cases pass'
      exact ⟨step, rfl, agree⟩
  | cons index rest ih =>
      obtain ⟨middle, there, next, turn, onward⟩ := pass.turn
      obtain ⟨middle', there', next', turn', onward'⟩ := pass'.turn
      obtain ⟨step, rfl, agree⟩ := turn.twins turn' distinct step agree
      have names : (Tree.branch middle.1 middle.2).names = (Tree.branch branch.1 branch.2).names :=
        Tree.names_of_layout (blank_tree (turn.blank fun visit => visit.1.blank))
      rw [← names] at distinct agree ⊢
      exact ih onward onward' distinct step agree

end Branch

end BuildFlow
