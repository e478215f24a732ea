import BuildFlow.Proofs.Attempts
import BuildFlow.Proofs.Flow.Ending
import BuildFlow.Proofs.Kill.Loss
import BuildFlow.Proofs.Stopping
import BuildFlow.Proofs.Sums
import BuildFlow.Proofs.Surfacing
/-!
What became of the builds of a run that ends without an error. No invocation has a result that
its last build does not have; one that reports everything up to the root has the result. Below a
node that turns failures into something better, an invocation can be left waiting for another
attempt that nobody starts.
-/
namespace BuildFlow

namespace Task

/-- Something that holds of an invocation at all times: it survives what happens elsewhere, new
attempts, and the steps of the invocation itself. -/
structure Lasting (p : Runner → Task → Prop) : Prop where
  grows : ∀ {before after : Runner} {task : Task}, before.Grows after → p before task → p after task
  prepare : ∀ {runner : Runner} {task : Task} (scope : Bool), p runner task →
    p runner (task.prepare scope)
  follows : ∀ {now : Instant} {task next : Task} {world after : World} {answer : Except Halt Unit},
    Follows now task world answer next after → Answered answer →
    task.standing.isFinished = false → p world.runner task → p after.runner next

/-- An invocation that a step leaves with a failure has ended. -/
theorem Follows.ended_of_failed {now : Instant} {task next : Task} {world after : World}
    {failure : JobFailure} (follows : Follows now task world (failedBy failure) next after) :
    next.standing.checking = .finished := by
  generalize failed : failedBy failure = answer at follows
  cases follows with
  | missing => rfl
  | waits => cases failed
  | ends => rfl
  | strays _ _ _ strays => cases failed; cases strays
  | lost => cases failed

end Task

/-! ## Sweeps -/

namespace Tree

theorem tasks_finish_of_failed {now : Instant} {tree next : Tree} {world after : World}
    {failure : JobFailure} (sweeps : Sweeps now tree world (failedBy failure) next after) :
    next.finish.tasks = next.tasks := by
  refine sweeps.rule (p := fun _ _ answer next _ => answer = failedBy failure →
    next.finish.tasks = next.tasks) ?_ (fun _ _ => rfl) rfl
  rintro leaf world answer leaf' after follows rfl
  have done : (task leaf').standing.checking = .finished := follows.ended_of_failed
  rw [finish_of_finished done]

theorem mem_tasks_prepare {tree : Tree} {scope : Bool} {leaf : Task}
    (member : leaf ∈ (tree.prepare scope).tasks) :
    leaf ∈ tree.tasks ∨ ∃ old ∈ tree.tasks, leaf = old.prepare scope := by
  cases tree with
  | task old => exact .inr ⟨old, List.mem_singleton_self old, List.mem_singleton.mp member⟩
  | branch group children => exact .inl member

/-- What lasts holds of all invocations after a sweep if it does before. -/
theorem Sweeps.lasting {p : Runner → Task → Prop} (lasting : Task.Lasting p) {now : Instant}
    {tree next : Tree} {world after : World} {answer : Except Halt Unit}
    (sweeps : Sweeps now tree world answer next after) (answered : Answered answer)
    (unfinished : tree.standing.isFinished = false) (holds : ∀ leaf ∈ tree.tasks, p world.runner leaf) :
    ∀ leaf ∈ next.tasks, p after.runner leaf := by
  refine sweeps.rule (p := fun tree world answer next after => Answered answer →
    tree.standing.isFinished = false → (∀ leaf ∈ tree.tasks, p world.runner leaf) →
      ∀ leaf ∈ next.tasks, p after.runner leaf) ?_ ?_ answered unfinished holds
  · intro leaf world answer leaf' after follows answered unfinished holds other member
    rw [List.mem_singleton.mp member]
    exact lasting.follows follows answered unfinished (holds leaf (List.mem_singleton_self leaf))
  · intro group children world answer group' children' after sweeps answered _ holds
    have below : ∀ child ∈ children, ∀ leaf ∈ child.tasks, p world.runner leaf :=
      fun child among leaf inside => holds leaf (mem_tasks_branch.mpr ⟨child, among, inside⟩)
    suffices ∀ child ∈ children', ∀ leaf ∈ child.tasks, p after.runner leaf by
      intro leaf member
      obtain ⟨child, among, inside⟩ := mem_tasks_branch.mp member
      exact this child among leaf inside
    cases sweeps with
    | halts pass => cases answered; exact absurd rfl (pass.hard _)
    | closes pass closes =>
        -- Children that were visited keep it by the rule, all others as their jobs only grow.
        rw [show children' = _ from closes.children]
        refine pass.carries (p := fun branch there _ => ∀ child ∈ branch.2, ∀ leaf ∈ child.tasks,
          p there.runner leaf) ?_ ?_ below
        · intro index branch there status child next after kept here unfinished visit other member
          rcases List.mem_or_eq_of_mem_set member with old | rfl
          · exact fun leaf inside => lasting.grows visit.1.grows.runner (kept other old leaf inside)
          · exact visit.2 .ok unfinished (kept child (List.mem_of_getElem? here))
        · intro index branch there status child next after failure again answered kept here
            unfinished visit answers
          have visited : ∀ leaf ∈ next.tasks, p after.runner leaf :=
            visit.2 (.failed failure) unfinished (kept child (List.mem_of_getElem? here))
          refine answers.all (p := fun child => ∀ leaf ∈ child.tasks, p after.runner leaf) ?_ visited
            (tasks_finish_of_failed visit.1 ▸ visited) ?_
          · intro other member
            rcases List.mem_or_eq_of_mem_set member with old | rfl
            · exact fun leaf inside => lasting.grows visit.1.grows.runner (kept other old leaf inside)
            · exact visited
          · intro other scope holds leaf member
            rcases mem_tasks_prepare member with inside | ⟨old, inside, rfl⟩
            · exact holds leaf inside
            · exact lasting.prepare scope (holds old inside)

end Tree

/-! ## Results and builds -/

namespace Task

/-- The result of the invocation is that of the build that it started last. -/
structure Recorded (runner : Runner) (task : Task) : Prop where
  resolved : task.build.isSome → task.resolved
  recorded : task.standing.isFinished → ∀ ref, task.build = some ref →
    runner.report? ref = some (task.standing.result, .idle)

theorem lasting_recorded : Lasting Recorded where
  grows grows recorded := ⟨recorded.resolved, fun finished ref followed =>
    grows.report? (recorded.recorded finished ref followed)⟩
  prepare scope recorded := ⟨recorded.resolved, fun finished =>
    absurd finished (by simp [Task.prepare, Standing.isFinished_prepare])⟩
  follows := by
    intro now task next world after answer follows answered unfinished recorded
    cases follows with
    | missing unresolved =>
        refine ⟨recorded.resolved, fun _ ref followed => ?_⟩
        rw [recorded.resolved (by exact followed ▸ rfl)] at unresolved
        cases unresolved
    | waits finds begins =>
        refine ⟨fun _ => begins.resolved.trans finds.resolved, fun finished => ?_⟩
        rw [(finds.attempted.trans begins.attempted).isFinished, unfinished] at finished
        cases finished
    | ends finds begins observes idle =>
        refine ⟨fun _ => begins.resolved.trans finds.resolved, fun _ ref followed => ?_⟩
        rw [observes.report followed, Progress.eq_idle idle]
        rfl
    | strays _ _ _ strays => cases answered; cases strays
    | lost => cases answered

end Task

namespace Tree

/-- Where a group has come to something better than a failure, so has every invocation below it
that reports everything to it. -/
theorem fine_of_sums {tree : Tree} (sums : tree.Every Sums)
    (fine : tree.standing.propagatedResult ≠ .failure) :
    ∀ leaf ∈ tree.normalTasks, leaf.standing.result.IsFine := by
  induction tree using childrenInduction with
  | leaf leaf =>
      intro other member
      obtain ⟨rfl, normal⟩ := mem_normalTasks_task.mp member
      exact Decidable.byContradiction fun bad =>
        fine (Standing.propagatedResult_eq_failure_iff.mpr ⟨normal, bad⟩)
  | branch group children ih =>
      intro leaf member
      obtain ⟨normal, child, among, inside⟩ := mem_normalTasks_branch.mp member
      obtain ⟨here, below⟩ := every_branch.mp sums
      have good : group.standing.result.IsFine := Decidable.byContradiction fun bad =>
        fine (Standing.propagatedResult_eq_failure_iff.mpr ⟨normal, bad⟩)
      refine ih child among (below child among) (fun failed => ?_) leaf inside
      have bound := (here good.known).1 child among
      rw [failed] at bound
      have least := Branch.eq_failure_of_le bound
      rw [least] at good
      exact absurd good (by decide)

theorem mem_tasks_of_normal {tree : Tree} {leaf : Task} (member : leaf ∈ tree.normalTasks) :
    leaf ∈ tree.tasks := by
  induction tree using childrenInduction with
  | leaf other =>
      obtain ⟨rfl, -⟩ := mem_normalTasks_task.mp member
      exact List.mem_singleton_self _
  | branch group children ih =>
      obtain ⟨-, child, among, inside⟩ := mem_normalTasks_branch.mp member
      exact mem_tasks_branch.mpr ⟨child, among, ih child among inside⟩

end Tree

/-! ## Where a group ends without a failure -/

theorem Tree.inhabited_of_layout {tree next : Tree} (layout : next.blank = tree.blank)
    (inhabited : tree.children ≠ []) : next.children ≠ [] := by
  intro none
  have below := congrArg children layout
  rw [children_blank, children_blank, none] at below
  exact inhabited (List.map_eq_nil_iff.mp below.symm)

/-- Results stand for builds. An invocation that has ended has the result that its last build came
to, and the others have none. Below the root those that report everything have ended. -/
structure Tree.Told (runner : Runner) (tree : Tree) : Prop where
  named : ∀ leaf ∈ tree.tasks, ∀ ref, leaf.build = some ref → ref.job = leaf.name
  recorded : ∀ leaf ∈ tree.tasks, ∀ ref, leaf.build = some ref → leaf.standing.isFinished →
    runner.report? ref = some (leaf.standing.result, .idle)
  waiting : ∀ leaf ∈ tree.tasks, leaf.standing.isFinished = false → leaf.standing.result = .unknown
  ended : ∀ child ∈ tree.children, ∀ leaf ∈ child.normalTasks, leaf.build.isSome →
    leaf.standing.isFinished

/-- Nothing was built by the invocation, and it has no result. -/
def Task.Idle (task : Task) : Prop := task.build = none ∧ task.standing.result = .unknown

theorem Tree.told_of_idle {runner : Runner} {tree : Tree} (idle : ∀ leaf ∈ tree.tasks, leaf.Idle) :
    tree.Told runner where
  named leaf member _ followed := nomatch (idle leaf member).1.symm.trans followed
  recorded leaf member _ followed := nomatch (idle leaf member).1.symm.trans followed
  waiting leaf member _ := (idle leaf member).2
  ended child among leaf inside built := by
    have member : leaf ∈ tree.tasks := by
      cases tree with
      | task => cases among
      | branch => exact mem_tasks_branch.mpr ⟨child, among, mem_tasks_of_normal inside⟩
    rw [(idle leaf member).1] at built
    cases built

theorem Tree.idle_of_fresh {tree : Tree} (fresh : tree.IsFresh) :
    ∀ leaf ∈ tree.tasks, leaf.Idle := by
  have every : tree.blank.Every fun node => ∀ leaf, node = .task leaf → leaf.Idle := by
    refine every_blank.mpr fun node _ leaf same => ?_
    cases node with
    | task old => cases same; exact ⟨rfl, rfl⟩
    | branch => cases same
  rw [fresh] at every
  exact fun leaf member => every _ (mem_tasks.mp member) leaf rfl

theorem Tree.idle_of_ready {runner : Runner} {tree : Tree} (ready : tree.Every (Ready runner)) :
    ∀ leaf ∈ tree.tasks, leaf.Idle := by
  intro leaf member
  obtain ⟨⟨resolved, oldBuild, same⟩, -⟩ := ready _ (mem_tasks.mp member)
  exact ⟨congrArg Task.build same, congrArg (fun task : Task => task.standing.result) same⟩

/-- The node has not failed, and it is waited for unless it has come to a result. -/
structure Tree.Fares (tree : Tree) : Prop where
  unfailed : tree.standing.result.isFailure = false
  waits : tree.checking = .mustCheck ∨ tree.standing.result ≠ .unknown

/-- A group with children that does not fail in a sweep is waited for until it has a result. -/
theorem Tree.Sweeps.fares {now : Instant} {group : Group} {children : List Tree} {next : Tree}
    {world after : World} (sweeps : Sweeps now (.branch group children) world (.ok ()) next after)
    (inhabited : children ≠ []) (unfailed : group.standing.result.isFailure = false) : next.Fares := by
  have layout := sweeps.blank
  obtain ⟨group', children', rfl, swept⟩ := sweeps.ofBranch
  cases swept with
  | @closes passed _ _ status _ pass closes =>
      have result : (passed.closed status).1.standing.result = group.standing.result := by
        obtain ⟨time, begun⟩ := Group.standing_begun group now
        refine (Branch.result_closed passed status).trans (pass.result.trans ?_)
        change (group.begun now).standing.result = _
        rw [begun]
      cases closes with
      | pending pending =>
          exact ⟨result ▸ unfailed, Branch.isPending_iff.mp pending⟩
      | moves => exact ⟨rfl, .inl rfl⟩
      | ends settled fine last =>
          have standing := ((passed.closed status).summed).standing_moved
          have inhabited' : passed.2 ≠ [] :=
            (branch group children).inhabited_of_layout layout inhabited
          refine ⟨?_, .inr ?_⟩
          · exact (congrArg (fun standing => standing.result.isFailure) standing).trans fine
          · intro unknown
            refine Branch.aggregate_ne_unknown (Branch.settled_unknown settled)
              (Branch.take_span_ne_nil inhabited') ?_
            exact (congrArg Standing.result standing).symm.trans unknown

namespace Flow

/-- The result of a run that ends without an error, or with the one that tells its result. -/
def concluded? : Except Halt BuildResult → Option BuildResult
  | .ok result => some result
  | .error (.error (.finalResult result)) => some result
  | .error _ => none

theorem Looped.fares {dir : Bool} {limit : Nat} {reads : Instant → Prop} {tree last : Tree}
    {world after : World} (looped : Looped dir limit reads tree world (.ok ()) last after)
    (inhabited : tree.children ≠ []) (fares : tree.Fares) : last.Fares := by
  generalize ended : Except.ok () = answer at looped
  induction looped with
  | settled => exact fares
  | @again tree next _ _ _ _ _ _ _ _ _ sweep _ ih =>
      cases tree with
      | task leaf => exact absurd rfl inhabited
      | branch group children =>
          exact ih (Tree.inhabited_of_layout sweep.blank inhabited)
            (sweep.fares inhabited fares.unfailed) ended
  | broke => cases ended
  | refused => cases ended
  | overrun => cases ended
  | unwritten => cases ended

theorem Passes.recorded {flow : Flow} {reads : Instant → Prop} {world : World}
    {state : Tree × World} (passes : flow.Passes reads world state) :
    ∀ leaf ∈ state.1.tasks, leaf.Recorded state.2.runner := by
  refine passes.keeps (p := fun state => ∀ leaf ∈ state.1.tasks, leaf.Recorded state.2.runner)
    (fun prepared leaf member => ?_) ?_
  · have unbuilt := (Tree.idle_of_ready prepared.2.2 leaf member).1
    refine ⟨fun followed => ?_, fun _ ref followed => nomatch unbuilt.symm.trans followed⟩
    rw [unbuilt] at followed
    cases followed
  · rintro state next - recorded ⟨unsettled, -, answered, sweep⟩
    refine sweep.lasting Task.lasting_recorded answered (Standing.unfinished unsettled)
      fun leaf member => ?_
    exact Task.lasting_recorded.grows (Runner.grows_next state.2.runner) (recorded leaf member)

/-- Where the root has come to a result that is no failure, results stand for builds. -/
theorem Passes.told {flow : Flow} {reads : Instant → Prop} {world : World} {state : Tree × World}
    (passes : flow.Passes reads world state) (fares : state.1.children ≠ [] → state.1.Fares)
    (settled : state.1.checking ≠ .mustCheck) : state.1.Told state.2.runner := by
  have sound : ∀ leaf ∈ state.1.tasks, leaf.Sound state.2.runner :=
    fun leaf member => passes.sound _ (Tree.mem_tasks.mp member)
  refine
    { named leaf member ref followed := ((sound leaf member).anchored ref followed).1
      recorded leaf member ref followed finished :=
        (passes.recorded leaf member).recorded finished ref followed
      waiting leaf member := (sound leaf member).unknown
      ended child among leaf inside _ := ?_ }
  have fares := fares (List.ne_nil_of_mem among)
  have known := fares.waits.resolve_left settled
  have sums := passes.sums
  cases root : state.1 with
  | task => rw [root] at among; cases among
  | branch group children =>
      rw [root] at among fares known sums
      obtain ⟨here, below⟩ := Tree.every_branch.mp sums
      -- The root is no better than its children, and it has not failed.
      have passed : child.standing.propagatedResult ≠ .failure := fun failed => by
        have bound := (here known).1 child among
        rw [failed] at bound
        have failure : group.standing.result = .failure := Branch.eq_failure_of_le bound
        cases (show group.standing.result.isFailure = false from fares.unfailed).symm.trans
          (failure ▸ rfl : group.standing.result.isFailure = true)
      have good := Tree.fine_of_sums (below child among) passed leaf inside
      have member : leaf ∈ state.1.tasks :=
        root ▸ Tree.mem_tasks_branch.mpr ⟨child, among, Tree.mem_tasks_of_normal inside⟩
      exact (sound leaf member).settled.mpr good.known

/-- The loop of a run does not end with the error that tells its result. -/
theorem Looped.unraised {dir : Bool} {limit : Nat} {reads : Instant → Prop} {tree last : Tree}
    {world after : World} {result : BuildResult} :
    ¬ Looped dir limit reads tree world (.error (.error (.finalResult result))) last after := by
  intro looped
  generalize ended : Except.error (Halt.error (.finalResult result)) = answer at looped
  induction looped with
  | settled => cases ended
  | again _ _ _ _ _ ih => exact ih ended
  | broke _ _ _ sweep =>
      cases ended
      cases sweep.ofSweep
  | refused => cases ended
  | overrun => cases ended
  | unwritten => cases ended

theorem Driven.unraised {config : RunConfig} {requireIdle : Bool} {limit : Nat}
    {reads : Instant → Prop} {tree last : Tree} {world after : World} {result : BuildResult} :
    ¬ Driven config requireIdle limit reads tree world (.error (.error (.finalResult result))) last
      after := by
  intro driven
  cases driven with
  | unprepared prepared =>
      obtain ⟨-, -, leaf, -, refused⟩ := prepared
      cases refused
  | looped _ looped concluded =>
      cases concluded
      exact looped.unraised

theorem Driven.told {flow : Flow} {limit : Nat} {reads : Instant → Prop} {last : Tree}
    {world after : World} {result : BuildResult}
    (driven : Driven flow.config flow.settings.requireIdle limit reads flow.root world (.ok result)
      last after) : last.blank = flow.root ∧ last.Told after.runner := by
  cases driven with
  | @looped first _ there _ ended _ prepared looped concluded =>
      cases concluded
      refine ⟨looped.blank.trans prepared.2.1, ?_⟩
      by_cases waits : first.checking = .mustCheck
      · have unknown := (Tree.counts_of_ready prepared.2.2).2.2.1
        have fares : last.children ≠ [] → last.Fares := fun inhabited =>
          looped.fares (Tree.inhabited_of_layout looped.blank.symm inhabited)
            ⟨unknown ▸ rfl, .inl waits⟩
        have settled := looped.settles
        obtain ⟨state, reaches, left⟩ := looped.trail
        cases left with
        | rests => exact Passes.told ⟨_, prepared, reaches⟩ fares settled
      · cases looped with
        | settled => exact Tree.told_of_idle (Tree.idle_of_ready prepared.2.2)
        | again unsettled => exact absurd unsettled waits

/-- A run that ends without an error leaves results that stand for builds: no result is made up,
and an invocation that reports everything to the root has that of its last build. -/
theorem run_tells_outcomes {flow flow' : Flow} {host host' : Host} {answer : Except Halt BuildResult}
    {result : BuildResult} (fresh : flow.root.IsFresh) (quiet : host.Quiet)
    (alive : flow.config.killAll = false) (ran : run.run (flow, host) = (answer, flow', host'))
    (concludes : concluded? answer = some result) :
    flow'.root.blank = flow.root ∧ flow'.root.Told host'.runner := by
  have led := (leads_run quiet fresh alive).ran ran
  change _ ∧ flow'.root.Told host'.world.runner
  dsimp only at led
  generalize flow'.root = last, host'.world = after at led ⊢
  cases led with
  | unwritten => cases concludes
  | idle => exact ⟨fresh, Tree.told_of_idle (Tree.idle_of_fresh fresh)⟩
  | halted driven =>
      unfold concluded? at concludes
      split at concludes
      · next same => cases same
      · next same =>
          rw [same] at driven
          exact driven.unraised.elim
      · cases concludes
  | finished driven => exact driven.told
  | raised driven => exact driven.told

/-- A group whose failures count as unstable, and then a build. -/
def mildFlow : Flow :=
  .ofTree (.ofChildren true (.fresh 0 0 2 2 .normal) [
    .ofChildren false (.fresh 1 1 1 2 .failureToUnstable) [
      .ofJob (.fresh 2 2 1 2 .failureToUnstable) "lint"],
    .ofJob (.fresh 3 1 2 2 .normal) "build"])

def mildHost : Host := .ofPlans [{ name := "lint", maxFails := 1 }, { name := "build" }]

set_option maxRecDepth 100000 in
theorem run_tells_outcomes_lenient :
    ∃ (answer : Except Halt BuildResult) (flow' : Flow) (host' : Host),
      run.run (mildFlow, mildHost) = (answer, flow', host') ∧
      concluded? answer = some .unstable ∧ flow'.root.blank = mildFlow.root ∧
      flow'.root.Told host'.runner := by
  have unstable : concluded? (run.run (mildFlow, mildHost)).1 = some .unstable := by
    decide +kernel
  generalize ran : run.run (mildFlow, mildHost) = out at unstable
  obtain ⟨answer, flow', host'⟩ := out
  exact ⟨answer, flow', host', rfl, unstable,
    run_tells_outcomes rfl (Host.quiet_start _ _ _) rfl ran unstable⟩

set_option maxRecDepth 100000 in
/-- The invocation below the group fails. It is said to be tried again through the outer group,
but the group itself counts as unstable and the root goes on: nobody begins the new attempt, and
the failure of its only build is gone. -/
theorem run_loses_outcome :
    mildFlow.root.IsFresh ∧ mildHost.Quiet ∧
      ∃ (answer : Except Halt BuildResult) (flow' : Flow) (host' : Host),
        run.run (mildFlow, mildHost) = (answer, flow', host') ∧
        concluded? answer = some .unstable ∧
        tells host' "RETRY: lint failed but will be retried. Up to 1 more times through outer flow" ∧
        (host'.runner.history "lint").results = [.failure] ∧
        (flow'.root.checkedTasks.map fun leaf =>
          (leaf.name, leaf.build.isSome, leaf.standing.isFinished, leaf.standing.result)) =
            [("lint", true, false, .unknown), ("build", true, true, .success)] := by
  refine ⟨rfl, Host.quiet_start _ _ _, ?_⟩
  have unstable : concluded? (run.run (mildFlow, mildHost)).1 = some .unstable := by
    decide +kernel
  have told : tells (run.run (mildFlow, mildHost)).2.2
      "RETRY: lint failed but will be retried. Up to 1 more times through outer flow" := by
    decide +kernel
  have results : ((run.run (mildFlow, mildHost)).2.2.runner.history "lint").results =
      [.failure] := by decide +kernel
  have left : ((run.run (mildFlow, mildHost)).2.1.root.checkedTasks.map fun leaf =>
      (leaf.name, leaf.build.isSome, leaf.standing.isFinished, leaf.standing.result)) =
        [("lint", true, false, .unknown), ("build", true, true, .success)] := by decide +kernel
  generalize run.run (mildFlow, mildHost) = out at *
  obtain ⟨answer, flow', host'⟩ := out
  exact ⟨answer, flow', host', rfl, unstable, told, results, left⟩

end Flow

end BuildFlow
