import BuildFlow.Proofs.Kill.Entry
/-!
What the invocations of a run know of jobs and builds where the kill loop begins.
An invocation that has found its job can find it still, and the build that it
follows was started in this run and is there.
-/
namespace BuildFlow

/-! ## The numbers of builds -/

/-- Later builds have higher numbers. -/
def Job.Numbered (job : Job) : Prop := (job.builds.map Build.number).Pairwise (· < ·)

theorem Job.numbered_invoke {job : Job} (numbered : job.Numbered) (tick : Nat)
    (request : InvokeRequest) : (job.invoke tick request).Numbered := by
  unfold Numbered at numbered ⊢
  have builds : (job.invoke tick request).builds.map Build.number =
      job.builds.map Build.number ++ [(job.nextBuild tick request).number] := by
    rw [← number_nextBuild_supersede job tick request, ← numbers_supersede job tick]
    exact List.map_append
  rw [builds, List.pairwise_append]
  refine ⟨numbered, List.pairwise_singleton _ _, fun number member next same => ?_⟩
  rw [List.mem_singleton.mp same]
  -- The number of the last build bounds the others.
  rcases List.eq_nil_or_concat job.builds with empty | ⟨front, last, shape⟩
  · rw [empty] at member
    cases member
  · have next : (job.nextBuild tick request).number = last.number + 1 := by
      simp [nextBuild, shape]
    rw [shape, List.concat_eq_append, List.map_append, List.map_singleton] at numbered member
    rw [next]
    rcases List.mem_append.mp member with earlier | same
    · exact Nat.lt_succ_of_lt ((List.pairwise_append.mp numbered).2.2 number earlier _
        (List.mem_singleton_self _))
    · rw [List.mem_singleton.mp same]
      exact Nat.lt_succ_self _

namespace Runner

def Numbered (runner : Runner) : Prop := runner.Every fun _ job => job.Numbered

theorem numbered_lasting : Lasting fun _ job => job.Numbered where
  lookups _ _ _ numbered := numbered
  present _ _ numbered := numbered
  plain _ := .nil

end Runner

/-! ## Invocations -/

namespace Task

/-- What an invocation knows of its job and of its build holds of a job table, which
`base` was when the run began. -/
structure Tied (base runner : Runner) (task : Task) : Prop where
  grown : (base.buildsOf task.name).length ≤ (runner.buildsOf task.name).length
  listed : task.resolved → ∃ job, runner.job? task.name = some job
  held : ∀ ref, task.build = some ref →
    ref.job = task.name ∧ (base.buildsOf task.name).length ≤ ref.index ∧
      ∃ build, runner.build? ref = some build ∧ build.number = ref.number

variable {base : Runner} {task : Task}

theorem Tied.grows {before after : Runner} (tied : task.Tied base before)
    (grows : before.Grows after) : task.Tied base after where
  grown := Nat.le_trans tied.grown (grows.length task.name)
  listed resolved := by
    obtain ⟨job, found⟩ := tied.listed resolved
    obtain ⟨next, found, -⟩ := grows.job? found
    exact ⟨next, found⟩
  held ref followed := by
    obtain ⟨named, index, build, held, number⟩ := tied.held ref followed
    obtain ⟨next, held, grows⟩ := grows.build? held
    exact ⟨named, index, next, held, grows.number.trans number⟩

/-- What was not looked at may have changed. -/
theorem Tied.same {runner : Runner} {next : Task} (tied : task.Tied base runner)
    (name : next.name = task.name) (resolved : next.resolved = task.resolved)
    (build : next.build = task.build) : next.Tied base runner where
  grown := name ▸ tied.grown
  listed found := name ▸ tied.listed (resolved ▸ found)
  held ref followed := name ▸ tied.held ref (build ▸ followed)

theorem Found.tied {found : Task} {world there : World} (finds : Found task world found there)
    (tied : task.Tied base world.runner) : found.Tied base there.runner := by
  have grown := tied.grows finds.grows.runner
  cases finds with
  | known => exact grown
  | listed _ _ found => exact ⟨grown.grown, fun _ => ⟨_, found⟩, grown.held⟩
  | looked _ _ found =>
      obtain ⟨next, found, -⟩ := (Runner.grows_lookup world.runner task.name).job? found
      exact ⟨grown.grown, fun _ => ⟨next, found⟩, grown.held⟩

theorem Begun.tied {now : Instant} {begun : Task} {world after : World}
    (begins : Begun now task world begun after) (tied : task.Tied base world.runner) :
    begun.Tied base after.runner := by
  have grown := tied.grows begins.grows.runner
  cases begins with
  | going => exact grown
  | joins => exact grown.same rfl rfl rfl
  | starts _ _ invoked =>
      refine ⟨grown.grown, grown.listed, fun ref followed => ?_⟩
      cases followed
      obtain ⟨job, found, -, index, -⟩ := Runner.invoke?_eq_some invoked
      obtain ⟨named, held⟩ := build?_invoked invoked
      refine ⟨named, ?_, held⟩
      have base' : _ ≤ (world.runner.buildsOf task.name).length := tied.grown
      rw [Runner.buildsOf_of_job? found] at base'
      exact index ▸ base'

theorem Found.stopSent {found : Task} {world there : World}
    (finds : Found task world found there) : found.stopSent = task.stopSent := by
  cases finds <;> rfl

theorem Begun.stopSent {now : Instant} {begun : Task} {world after : World}
    (begins : Begun now task world begun after) : begun.stopSent = task.stopSent := by
  cases begins <;> rfl

/-- Invocations that are followed keep their ties, and send no stop. -/
theorem kept_tied (now : Instant) : Tree.KeptByLeaf now fun runner task =>
    task.Tied base runner ∧ task.stopSent = false where
  grows grows := And.imp_left fun tied => tied.grows grows
  standing _ kept := ⟨kept.1.same rfl rfl rfl, rfl⟩
  finished _ kept := ⟨kept.1.same rfl rfl rfl, kept.2⟩
  steps := by
    rintro task world answer next after (follows | interrupted) resumes ⟨tied, unsent⟩
    · cases follows with
      | missing => exact ⟨(tied.grows (Runner.grows_lookup _ _)).same rfl rfl rfl, unsent⟩
      | waits finds begins =>
          exact ⟨begins.tied (finds.tied tied), begins.stopSent.trans (finds.stopSent.trans unsent)⟩
      | ends finds begins =>
          exact ⟨(begins.tied (finds.tied tied)).same rfl rfl rfl,
            begins.stopSent.trans (finds.stopSent.trans unsent)⟩
      | strays _ _ _ strays => cases strays <;> cases resumes
      | lost => cases resumes
    · exact ⟨interrupted.finds.tied tied, interrupted.finds.stopSent.trans unsent⟩

theorem Begun.resolved {now : Instant} {begun : Task} {world after : World}
    (begins : Begun now task world begun after) : begun.resolved = task.resolved := by
  cases begins <;> rfl

/-- A job that was found stays found. -/
theorem kept_resolved (now : Instant) : Tree.KeptByLeaf now fun _ task => task.resolved where
  grows _ resolved := resolved
  standing _ resolved := resolved
  finished _ resolved := resolved
  steps := by
    rintro task world answer next after (follows | interrupted) resumes resolved
    · cases follows with
      | missing unresolved => exact absurd resolved (unresolved ▸ Bool.false_ne_true)
      | waits finds begins => exact begins.resolved.trans finds.resolved
      | ends finds begins => exact begins.resolved.trans finds.resolved
      | strays _ _ _ strays => cases strays <;> cases resumes
      | lost => cases resumes
    · exact interrupted.finds.resolved

end Task

/-! ## Where the kill loop begins -/

theorem Tree.Tours.resumes {answer : Except Halt Unit} (goesOn : answer = .ok () ∨ IsKilled answer) :
    Resumes answer := by
  rcases goesOn with rfl | ⟨reason, rfl⟩
  · exact .ok
  · exact .killed reason

/-- What holds of a tree and its world before builds are stopped. -/
structure Tree.Armed (base : Runner) (tree : Tree) (world : World) : Prop where
  tied : ∀ leaf ∈ tree.tasks, leaf.Tied base world.runner ∧ leaf.stopSent = false
  numbered : world.runner.Numbered
  grown : ∀ name, (base.buildsOf name).length ≤ (world.runner.buildsOf name).length

namespace Flow

/-- Trees are armed wherever a kill may be noticed. -/
theorem lasts_armed (base : Runner) : Lasts fun tree host => tree.Armed base host.world where
  rests armed _ rests _ :=
    { tied leaf member := And.imp_left (fun tied => tied.grows rests.grows) (armed.tied leaf member)
      numbered := rests.every _ Runner.numbered_lasting armed.numbered
      grown name := Nat.le_trans (armed.grown name) (rests.grows.length name) }
  tours armed _ _ _ tours goesOn :=
    have resumes := Tree.Tours.resumes goesOn
    { tied := tours.tasks (Task.kept_tied _) resumes armed.tied
      numbered := tours.every Runner.numbered_lasting
        (fun _ _ tick request numbered => Job.numbered_invoke numbered tick request) resumes
        armed.numbered
      grown name := Nat.le_trans (armed.grown name) (tours.grows.runner.length name) }

theorem armed_of_prepared {requireIdle : Bool} {tree next : Tree} {world after : World}
    (numbered : world.runner.Numbered)
    (prepared : tree.Prepared requireIdle world (.ok ()) next after) :
    next.Armed world.runner after := by
  obtain ⟨same, -, ready⟩ := prepared
  refine ⟨fun leaf member => ?_, same.every _ Runner.numbered_lasting numbered,
    fun name => Nat.le_of_eq (congrArg List.length (same.builds name).symm)⟩
  obtain ⟨⟨resolved, oldBuild, shape⟩, found⟩ := ready _ (Tree.mem_tasks.mp member)
  have unbuilt : leaf.build = none := congrArg Task.build shape
  refine ⟨⟨?_, fun resolved => ?_, ?_⟩, congrArg Task.stopSent shape⟩
  · exact Nat.le_of_eq (congrArg List.length (same.builds leaf.name).symm)
  · exact Option.isSome_iff_exists.mp (found.mp resolved)
  · exact fun ref followed => nomatch unbuilt.symm.trans followed

end Flow

end BuildFlow
