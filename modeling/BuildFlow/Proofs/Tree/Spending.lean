import BuildFlow.Proofs.Tree.Budget
/-!
Every visit spends within the budget of its tree, and one that spends nothing
either waits for a build or has nothing left to wait for.
-/
namespace BuildFlow

namespace Task

theorem budget_eq (task : Task) : (Tree.task task).budget =
    ⟨task.standing.totalLeft, task.standing.scopeLeft,
      task.standing.awaited + task.standing.unbegun⟩ := by
  simp [Tree.budget, Tree.totalLeft, Tree.scopeLeft, Tree.stepsLeft, Tree.standing]

/-- An attempt that begins is a step, and nothing else happens in one that goes on. -/
theorem Begun.spends {now : Instant} (set : now.isSet) {task begun : Task} {world after : World}
    (begins : Begun now task world begun after) :
    begun.standing.isInvoked ∧ ((Tree.task begun).budget.Less (Tree.task task).budget ∨
      begun = task ∧ ∀ name, after.runner.buildsOf name = world.runner.buildsOf name) := by
  have less : ∀ {started : Task}, task.standing.isInvoked = false →
      started.standing = { task.standing with invokedAt := now } →
      started.standing.isInvoked ∧ (Tree.task started).budget.Less (Tree.task task).budget := by
    intro started uninvoked same
    have invoked : started.standing.isInvoked := by
      rw [same]
      exact set
    refine ⟨invoked, ?_⟩
    have unbegun : started.standing.unbegun = 0 := if_pos invoked
    have before : task.standing.unbegun = 1 := if_neg (Bool.eq_false_iff.mp uninvoked)
    rw [budget_eq, budget_eq, unbegun, before, same]
    exact .inr ⟨rfl, .inr ⟨rfl, Nat.lt_succ_self _⟩⟩
  cases begins with
  | going invoked => exact ⟨invoked, .inr ⟨rfl, fun _ => rfl⟩⟩
  | joins uninvoked => exact (less uninvoked rfl).imp id .inl
  | @starts uninvoked _ _ ref =>
      have begun := @less { task.begun now with build := some ref } uninvoked rfl
      exact begun.imp id .inl

/-- Coming to a result uses up what was left of the attempt. -/
theorem spends_ended {task begun : Task} {result : BuildResult}
    (unknown : task.standing.result = .unknown) (attempted : Attempted task begun)
    (invoked : task.standing.isInvoked → begun.standing.isInvoked) (known : result ≠ .unknown) :
    (Tree.task (begun.ended result)).budget.Less (Tree.task task).budget ∧
      (0 < (begun.ended result).standing.remainingTotalTries →
        (Tree.task (begun.ended result)).budget.total < (Tree.task task).budget.total) ∧
      (0 < (begun.ended result).standing.remainingTries →
        (Tree.task (begun.ended result)).budget.scope < (Tree.task task).budget.scope) := by
  have steps : (begun.ended result).standing.unbegun ≤ task.standing.unbegun := by
    unfold Standing.unbegun
    split
    · exact Nat.zero_le _
    · next unbegun =>
        exact Nat.le_of_eq (if_neg fun before => unbegun (invoked before)).symm
  rw [budget_eq, budget_eq]
  generalize (begun.ended result).standing.unbegun = after at steps ⊢
  obtain ⟨time, resolved, build, oldBuild, rfl⟩ := attempted
  simp only [Standing.totalLeft, Standing.scopeLeft, Standing.awaited, ended, unknown, known,
    Standing.remainingTotalTries, Standing.remainingTries, Budget.Less, ↓reduceIte]
  omega

theorem Observed.busy {task : Task} {world : World} {result : BuildResult} {progress : Progress}
    (observes : Observed task world result progress) (followed : ∃ ref, task.build = some ref)
    (open' : progress.isIdle = false ∨ result = .unknown) :
    world.runner.Busy (Tree.task task).Attends := by
  obtain ⟨ref, followed⟩ := followed
  cases observes with
  | job unstarted => cases unstarted.symm.trans followed
  | @build ref' followed' job build found held =>
      refine ⟨ref', Tree.attends_task.mpr followed', build, ?_, open'.imp_left fun going idle => ?_⟩
      · rw [Runner.build?, found, Option.bind_some, held]
      · rw [idle] at going
        cases going

theorem Follows.spends {now : Instant} (set : now.isSet) {task next : Task} {world after : World}
    {answer : Except Halt Unit} (follows : Follows now task world answer next after)
    (answered : Answered answer) (unfinished : task.standing.isFinished = false)
    (sound : task.Sound world.runner) : Tree.Spends (.task task) world answer (.task next) after := by
  have unknown := sound.unknown unfinished
  have ending : ∀ {begun : Task} {result : BuildResult} {answer : Except Halt Unit},
      Attempted task begun → (task.standing.isInvoked → begun.standing.isInvoked) →
      result ≠ .unknown →
      Tree.Spends (.task task) world answer (.task (begun.ended result)) after := by
    intro begun result answer attempted invoked known
    obtain ⟨less, total, scope⟩ := spends_ended unknown attempted invoked known
    exact ⟨less.atMost, fun same => absurd less same, fun _ _ => less, fun _ _ => total,
      fun _ _ inside _ => scope inside, fun _ _ => .inl less⟩
  cases follows with
  | missing => exact ending (.refl task) id BuildResult.noConfusion
  | ends finds begins _ _ known =>
      exact ending (finds.attempted.trans begins.attempted) (fun _ => (begins.spends set).1) known
  | @waits found _ _ _ _ _ finds begins observes open' =>
      have budget : (Tree.task found).budget = (Tree.task task).budget := by
        rw [budget_eq, budget_eq, finds.standing]
      obtain ⟨-, spent⟩ := begins.spends set
      rw [budget] at spent
      -- An attempt that had begun before follows the same build as before.
      rcases spent with less | ⟨same, builds⟩
      · exact ⟨less.atMost, fun same => absurd less same, nofun, nofun, nofun, fun _ _ => .inl less⟩
      · subst same
        have attends : ∀ ref, (Tree.task next).Attends ref → (Tree.task task).Attends ref := by
          intro ref followed
          rw [Tree.attends_task] at followed ⊢
          exact finds.build.symm.trans followed
        refine ⟨?_, fun _ => ⟨attends, fun name => ?_⟩, nofun, nofun, nofun, fun _ waits => .inr ?_⟩
        · rw [budget]
          exact .refl _
        · exact (builds name).trans (finds.buildsOf name)
        · obtain ⟨begun, follows⟩ :=
            begins.sound (finds.sound sound) (finds.attempted.isFinished.trans unfinished)
          have checked := (Standing.propagatedChecking_eq_mustCheck.mp waits).1
          exact (observes.busy (follows checked) open').mono attends
  | strays _ _ _ strays => cases answered; cases strays
  | lost => cases answered

end Task

namespace Branch

/-- The visits that spend within the budget. -/
def spendCourse : Course Tree := fun child world answer next after =>
  Answered answer → child.standing.isFinished = false → child.Sound world.runner →
    child.Spends world answer next after

/-- What a pass over a group has spent. -/
structure PassSpent (first : Branch) (world : World) (branch : Branch) (there : World)
    (status : Checking) : Prop where
  sound : PassSound first.1 branch there
  layout : branch.blank = first.blank
  tick : there.runner.tick = world.runner.tick
  atMost : branch.budget.AtMost first.budget
  still : ¬ branch.budget.Less first.budget →
    (∀ ref, (Tree.branch branch.1 branch.2).Attends ref → (Tree.branch first.1 first.2).Attends ref) ∧
      ∀ name, there.runner.buildsOf name = world.runner.buildsOf name
  waits : status = .mustCheck → branch.budget.Less first.budget ∨
    there.runner.Busy (Tree.branch first.1 first.2).Attends

section

variable {now : Instant} {first branch next : Branch} {world there after : World}
  {status : Checking} {index : Nat} {child new : Tree}

theorem PassSpent.passes (spent : PassSpent first world branch there status)
    (here : branch.2[index]? = some child) (unfinished : child.standing.isFinished = false)
    (visit : Tree.Sweeps now child there (.ok ()) new after)
    (spends : spendCourse child there (.ok ()) new after) :
    PassSpent first world ((branch.put index new).cleared new) after
      (min status new.standing.propagatedChecking) := by
  have member := List.mem_of_getElem? here
  have childSound := spent.sound.sound child member
  have spends := spends .ok unfinished childSound
  have cleared : ((branch.put index new).cleared new).budget.AtMost (branch.put index new).budget :=
    (shrinks_setFailed _ _).atMost
  -- Whatever the visit has spent is spent by the whole group.
  have step := cleared.trans (atMost_put here spends.atMost)
  refine ⟨spent.sound.passes here visit.grows (visit.sound .ok unfinished childSound), ?_,
    visit.grows.tick.trans spent.tick, step.trans spent.atMost, fun same => ?_, fun waits => ?_⟩
  · exact (blank_cleared _ _).trans ((blank_put here visit.blank).trans spent.layout)
  · obtain ⟨attends, before⟩ := spent.still fun less => same (less.after step)
    obtain ⟨attends', here'⟩ := spends.still fun less =>
      same (((less_put here).mpr less).after cleared |>.before spent.atMost)
    refine ⟨fun ref holds => attends ref ?_, fun name => (here' name).trans (before name)⟩
    obtain ⟨other, inside, holds⟩ := Tree.attends_branch.mp holds
    rcases List.mem_or_eq_of_mem_set inside with old | same
    · exact Tree.attends_branch.mpr ⟨other, old, holds⟩
    · exact Tree.attends_branch.mpr ⟨child, member, attends' ref (same ▸ holds)⟩
  · by_cases less : new.budget.Less child.budget
    · exact .inl ((((less_put here).mpr less).after cleared).before spent.atMost)
    · rcases Checking.min_eq_mustCheck.mp waits with before | here'
      · rcases spent.waits before with spent' | busy
        · exact .inl (spent'.after step)
        · exact .inr (busy.same visit.grows.runner visit.grows.tick (spends.still less).2)
      · by_cases spent' : branch.budget.Less first.budget
        · exact .inl (spent'.after step)
        · refine .inr (((spends.waits rfl here').resolve_left less).mono fun ref holds => ?_)
          exact (spent.still spent').1 ref (Tree.attends_branch.mpr ⟨child, member, holds⟩)

theorem PassSpent.fails {failure : JobFailure} {again : Bool}
    (spent : PassSpent first world branch there status) (here : branch.2[index]? = some child)
    (unfinished : child.standing.isFinished = false)
    (visit : Tree.Sweeps now child there (failedBy failure) new after)
    (spends : spendCourse child there (failedBy failure) new after)
    (answers : Answers (branch.put index new) index new failure (.ok again) next) :
    PassSpent first world next after (if again then .mustCheck else status) := by
  have answered : Answered (failedBy failure) := .failed failure
  have childSound := spent.sound.sound child (List.mem_of_getElem? here)
  have less := (answers.spends here (spends answered unfinished childSound)).before spent.atMost
  have here' := getElem?_put_self here new
  exact ⟨spent.sound.fails here visit.grows (visit.sound answered unfinished childSound) answers,
    (answers.blank here').trans ((blank_put here visit.blank).trans spent.layout),
    visit.grows.tick.trans spent.tick, less.atMost, fun same => absurd less same, fun _ => .inl less⟩

end

/-- Where nothing was spent in the end, the group attends to no other builds than before, and no
builds were added. -/
theorem PassSpent.rests {now : Instant} {branch passed next : Branch} {world after : World}
    {status : Checking} (spent : PassSpent (branch.begun now) world passed after status)
    (onward : next.budget.AtMost (passed.closed status).budget) (kept : next.2 = passed.2)
    (same : ¬ next.budget.Less branch.budget) :
    (∀ ref, (Tree.branch next.1 next.2).Attends ref → (Tree.branch branch.1 branch.2).Attends ref) ∧
      ∀ name, after.runner.buildsOf name = world.runner.buildsOf name := by
  have begun := (shrinks_begun branch now).atMost
  have closed := (shrinks_closed passed status).atMost
  obtain ⟨attends, builds⟩ := spent.still fun less =>
    same (((less.after closed).before begun).after onward)
  refine ⟨fun ref holds => ?_, builds⟩
  rw [kept, Tree.attends_branch] at holds
  exact Tree.attends_branch.mpr (Tree.attends_branch.mp (attends ref (Tree.attends_branch.mpr holds)))

/-- Neither opening nor closing a sweep adds to the budget that its pass has left. -/
theorem PassSpent.closes {now : Instant} {branch passed last : Branch} {world after : World}
    {status : Checking} {answer : Except Halt Unit}
    (spent : PassSpent (branch.begun now) world passed after status)
    (closes : Closes now (passed.closed status) status answer last) (answered : Answered answer) :
    (Tree.branch branch.1 branch.2).Spends world answer (.branch last.1 last.2) after := by
  have begun := (shrinks_begun branch now).atMost
  have closed := (shrinks_closed passed status).atMost
  have atMost : (passed.closed status).budget.AtMost branch.budget :=
    (closed.trans spent.atMost).trans begun
  have checking : (passed.closed status).1.standing.checking = status := rfl
  -- Failing, moving on and ending each use up some of the budget; waiting leaves it as it is.
  cases closes with
  | pending =>
      refine ⟨atMost, spent.rests (.refl (passed.closed status).budget) rfl, nofun, nofun, nofun,
        fun _ waits => ?_⟩
      have waits : status = .mustCheck :=
        checking ▸ (Standing.propagatedChecking_eq_mustCheck.mp waits).2
      refine (spent.waits waits).imp (fun less => (less.after closed).before begun) fun busy => ?_
      exact busy.mono fun ref holds => Tree.attends_branch.mpr (Tree.attends_branch.mp holds)
  | overdue => cases answered
  | fails settled failure =>
      have unknown := settled_unknown settled
      have known : (passed.closed status).summed.1.standing.result ≠ .unknown := fun unknown => by
        have unknown : (passed.closed status).aggregate (passed.closed status).span = .unknown :=
          unknown
        rw [unknown] at failure
        cases failure
      obtain ⟨less, total, scope⟩ := spends_summed unknown known
      have less := less.before atMost
      refine ⟨less.atMost, fun same => absurd less same, fun _ _ => less, fun _ _ inside => ?_,
        fun _ _ inside same => ?_, nofun⟩
      · exact Nat.lt_of_lt_of_le (total inside) atMost.total
      · have summed := (shrinks_summed unknown).total
        exact Nat.lt_of_lt_of_le (scope inside)
          (atMost.scope (Nat.le_trans (Nat.le_of_eq same.symm) summed))
  | moves settled _ serial more =>
      have less := (less_moved (settled_unknown settled) serial more).before atMost
      exact ⟨less.atMost, fun same => absurd less same, nofun, nofun, nofun, fun _ _ => .inl less⟩
  | ends settled =>
      have shrinks := ((shrinks_moved _).trans (shrinks_summed (settled_unknown settled))).atMost
      refine ⟨shrinks.trans atMost, spent.rests shrinks rfl, nofun, nofun, nofun, fun _ waits => ?_⟩
      have waits := (Standing.propagatedChecking_eq_mustCheck.mp waits).2
      have same : (passed.closed status).summed.moved.1.standing.checking = status :=
        congrArg Standing.checking (Group.standing_setCursor _ _)
      rw [show status = .mustCheck from same.symm.trans waits] at settled
      exact absurd rfl (settled_iff.mp settled).1

/-- What a group had to spend before a sweep bounds what it has afterwards. -/
theorem Sweeps.spends {now : Instant} {group group' : Group} {children children' : List Tree}
    {world after : World} {answer : Except Halt Unit}
    (sweeps : Branch.Sweeps now (fun child world answer next after =>
        Tree.Sweeps now child world answer next after ∧ spendCourse child world answer next after)
      (group, children) world answer (group', children') after) (answered : Answered answer)
    (sound : (Tree.branch group children).Sound world.runner) :
    (Tree.branch group children).Spends world answer (.branch group' children') after := by
  cases sweeps with
  | halts pass => cases answered; exact absurd rfl (pass.hard _)
  | closes pass closes =>
      have start : PassSpent (begun (group, children) now) world (begun (group, children) now) world
          .finished :=
        ⟨.start sound now, rfl, rfl, .refl _, fun _ => ⟨fun _ holds => holds, fun _ => rfl⟩, nofun⟩
      have spent := pass.carries (p := PassSpent (Branch.begun (group, children) now) world)
        (fun spent here unfinished visit => spent.passes here unfinished visit.1 visit.2)
        (fun spent here unfinished visit answers =>
          spent.fails here unfinished visit.1 visit.2 answers) start
      exact spent.closes closes answered

end Branch

/-- Every sweep spends within the budget of the tree. -/
theorem Tree.Sweeps.spends {now : Instant} (set : now.isSet) {tree next : Tree} {world after : World}
    {answer : Except Halt Unit} (sweeps : Tree.Sweeps now tree world answer next after)
    (answered : Answered answer) (unfinished : tree.standing.isFinished = false)
    (sound : tree.Sound world.runner) : tree.Spends world answer next after := by
  refine sweeps.rule (p := Branch.spendCourse) ?_ ?_ answered unfinished sound
  · intro leaf world answer leaf' after follows answered unfinished sound
    exact follows.spends set answered unfinished (sound_task.mp sound)
  · intro group children world answer group' children' after sweeps answered _ sound
    exact sweeps.spends answered sound

end BuildFlow
