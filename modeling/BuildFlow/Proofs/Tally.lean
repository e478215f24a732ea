import BuildFlow.Proofs.Flow.Watch
import BuildFlow.Proofs.Restart
import BuildFlow.Proofs.Tree.Tended
/-!
Attempts and builds in trees where every node reports everything. The count of attempts of an
invocation is that of its builds, but for an attempt that has not begun yet, and none of its
builds goes on but the one that it follows.
-/
namespace BuildFlow

namespace Task

/-- What an invocation keeps track of in a run that began with the job table `before`. -/
structure Tallied (before runner : Runner) (task : Task) : Prop where
  resolved : task.resolved
  begun : task.standing.isFinished → task.standing.isInvoked
  counted : (before.newBuilds runner task.name).length + 1 =
    task.standing.totalTried + if task.standing.isInvoked then 1 else 0
  handle : task.standing.isInvoked → ∃ ref, task.build = some ref ∧ ref.job = task.name ∧
    ref.index + 1 = (runner.buildsOf task.name).length

variable {before runner : Runner} {task : Task}

theorem length_newBuilds (name : String) : (before.newBuilds runner name).length =
    (runner.buildsOf name).length - (before.buildsOf name).length :=
  List.length_drop

theorem Found.eq_of_resolved {found : Task} {world there : World}
    (finds : Found task world found there) (resolved : task.resolved) :
    found = task ∧ there = world := by
  cases finds with
  | known => exact ⟨rfl, rfl⟩
  | listed unresolved => cases resolved.symm.trans unresolved
  | looked unresolved => cases resolved.symm.trans unresolved

/-- An attempt that begins is one more build, which the invocation follows. -/
theorem Begun.tallied {now : Instant} (set : now.isSet) {begun : Task} {world after : World}
    (begins : Begun now task world begun after) (tallied : task.Tallied before world.runner)
    (covered : task.Covered before world.runner) :
    begun.Tallied before after.runner ∧ begun.standing.isInvoked := by
  cases begins with
  | going invoked => exact ⟨tallied, invoked⟩
  | joins _ unchecked => cases covered.upright.checked.symm.trans unchecked
  | @starts uninvoked _ _ ref runner invoked =>
      obtain ⟨job, found, named, index, -⟩ := Runner.invoke?_eq_some invoked
      have length := Runner.length_invoked invoked task.name
      rw [if_pos rfl] at length
      refine ⟨⟨tallied.resolved, fun _ => set, ?_, fun _ => ⟨ref, rfl, named, ?_⟩⟩, set⟩
      · have counted := tallied.counted
        have since := covered.since
        rw [if_neg (Bool.eq_false_iff.mp uninvoked), length_newBuilds] at counted
        change (before.newBuilds runner task.name).length + 1 =
          task.standing.totalTried + if now.isSet then 1 else 0
        rw [if_pos set, length_newBuilds, length]
        omega
      · change ref.index + 1 = (runner.buildsOf task.name).length
        rw [length, index, Runner.buildsOf_of_job? found]

theorem tended_tallied (before : Runner) : Tended before (Tallied before) where
  later := by
    intro runner after task same tallied
    refine ⟨tallied.resolved, tallied.begun, ?_, fun invoked => ?_⟩
    · exact (congrArg (·.length + 1) (Runner.newBuilds_congr same)).trans tallied.counted
    · exact same ▸ tallied.handle invoked
  prepare := by
    intro runner task scope finished tallied
    -- The finished attempt has built, and its build is what the new attempt is counted by.
    have counted := tallied.counted
    rw [if_pos (tallied.begun finished)] at counted
    refine ⟨tallied.resolved, fun closed => ?_, counted, nofun⟩
    cases (task.standing.isFinished_prepare scope).symm.trans closed
  follows := by
    intro now task next world after answer set follows answered unfinished covered tallied
    cases follows with
    | missing unresolved => cases tallied.resolved.symm.trans unresolved
    | waits finds begins =>
        obtain ⟨rfl, rfl⟩ := finds.eq_of_resolved tallied.resolved
        exact (begins.tallied set tallied covered).1
    | ends finds begins =>
        obtain ⟨rfl, rfl⟩ := finds.eq_of_resolved tallied.resolved
        obtain ⟨begun, invoked⟩ := begins.tallied set tallied covered
        exact ⟨begun.resolved, fun _ => invoked, begun.counted, begun.handle⟩
    | strays _ _ _ strays => cases answered; cases strays
    | lost => cases answered

/-- The invocation has started one build in each attempt that has begun, and follows the only one
that may go on still. -/
structure Counts (before runner : Runner) (task : Task) : Prop where
  started : (before.newBuilds runner task.name).length =
    if task.standing.isInvoked then task.standing.totalTried else task.standing.totalTried - 1
  followed : ∀ index build, (before.buildsOf task.name).length ≤ index →
    (runner.buildsOf task.name)[index]? = some build → (build.progress runner.tick).isIdle = false →
    ∃ ref, task.build = some ref ∧ ref.job = task.name ∧ ref.index = index

theorem Tallied.counts (tallied : task.Tallied before runner) (covered : task.Covered before runner) :
    task.Counts before runner where
  started := by
    have counted := tallied.counted
    cases invoked : task.standing.isInvoked with
    | true =>
        rw [invoked, if_pos rfl] at counted
        exact Nat.succ_inj.mp counted
    | false =>
        rw [invoked, if_neg Bool.false_ne_true] at counted
        exact Nat.eq_sub_of_add_eq counted
  followed := by
    intro index build own at' active
    have member : build ∈ before.newBuilds runner task.name := by
      refine List.mem_of_getElem? (i := index - (before.buildsOf task.name).length) ?_
      rw [Runner.newBuilds, List.getElem?_drop, Nat.add_sub_cancel' own]
      exact at'
    have idle : before.Still runner task.name → False := fun still => by
      rw [still build member] at active
      cases active
    have unfinished : task.standing.isFinished = false :=
      Bool.eq_false_iff.mpr fun finished => idle (covered.still (.inl finished))
    have invoked : task.standing.isInvoked :=
      Bool.of_not_eq_false fun uninvoked => idle (covered.still (.inr uninvoked))
    obtain ⟨ref, followed, named, last⟩ := tallied.handle invoked
    refine ⟨ref, followed, named, ?_⟩
    -- All builds but the last one have ended.
    obtain ⟨-, earlier, latest, -, -, -, builds, ended⟩ := (covered.busy unfinished invoked).follows
    have length := congrArg List.length builds
    rw [length_newBuilds, List.length_append, List.length_singleton] at length
    have inside := (List.getElem?_eq_some_iff.mp at').1
    by_contra other
    have early : index - (before.buildsOf task.name).length < earlier.length := by omega
    have placed : earlier[index - (before.buildsOf task.name).length]? = some build := by
      have within : (earlier ++ [latest])[index - (before.buildsOf task.name).length]? =
          earlier[index - (before.buildsOf task.name).length]? := List.getElem?_append_left early
      rw [← within, ← builds, Runner.newBuilds, List.getElem?_drop, Nat.add_sub_cancel' own]
      exact at'
    rw [ended build (List.mem_of_getElem? placed)] at active
    cases active

end Task

namespace Flow

variable {flow : Flow} {reads : Instant → Prop} {world : World} {state : Tree × World}

theorem Passes.tallied (passes : flow.Passes reads world state) (set : ∀ now, reads now → now.isSet)
    (distinct : flow.root.names.Nodup) (strict : flow.root.Every Tree.Strict)
    (present : ∀ name ∈ flow.root.names, ∃ job, world.runner.job? name = some job) :
    state.1.Leaves (Task.Tallied world.runner) state.2.runner := by
  have tended := Task.tended_tallied world.runner
  -- The tally is right once the tree is prepared, and each sweep keeps it.
  refine passes.keeps
    (p := fun state => state.1.Leaves (Task.Tallied world.runner) state.2.runner) ?_ ?_
  · rintro first there ⟨same, layout, ready⟩ leaf member
    obtain ⟨⟨resolved, oldBuild, shape⟩, found⟩ := ready _ (Tree.mem_tasks.mp member)
    obtain ⟨tried, total, unknown, uninvoked⟩ :=
      Tree.counts_of_ready (Tree.every_task.mpr (ready _ (Tree.mem_tasks.mp member)))
    have named : leaf.name ∈ flow.root.names := by
      rw [← layout, Tree.names_blank]
      exact List.mem_map_of_mem member
    obtain ⟨job, listed⟩ := present _ named
    refine ⟨found.mpr ?_, fun finished => ?_, ?_, fun invoked => ?_⟩
    · rw [same.found, listed]
      rfl
    · rw [shape] at finished
      cases (leaf.blank.standing.isFinished_prepare false).symm.trans finished
    · rw [Runner.newBuilds_eq_nil (same.builds leaf.name)]
      change _ = (Tree.task leaf).standing.totalTried +
        if (Tree.task leaf).standing.isInvoked then 1 else 0
      rw [total, uninvoked]
      rfl
    · cases uninvoked.symm.trans invoked
  · rintro state next passes tallied ⟨unsettled, read, answered, sweep⟩
    have watched := passes.watched set distinct strict
    refine sweep.leaves (set _ read) tended answered (Standing.unfinished unsettled) watched.next ?_
    exact tallied.later tended fun name _ => Runner.buildsOf_next state.2.runner name

/-- In a run of a tree where every node reports everything, after every sweep each invocation has
started a build in each of its attempts that has begun. -/
theorem run_counts {flow flow' : Flow} {host host' : Host} {answer : Except Halt BuildResult}
    (fresh : flow.root.IsFresh) (distinct : flow.root.names.Nodup)
    (normal : flow.root.Every fun node => node.standing.propagation = .normal) (quiet : host.Quiet)
    (alive : flow.config.killAll = false)
    (present : ∀ name ∈ flow.root.names, ∃ job, host.runner.job? name = some job)
    (ran : run.run (flow, host) = (answer, flow', host'))
    (set : ∀ now, host'.reads now → now.isSet) :
    flow.Halted host'.reads host.world answer flow'.root host'.world ∧
      ∀ state, flow.Passes host'.reads host.world state → ∀ leaf ∈ state.1.tasks,
        leaf.Counts host.runner state.2.runner := by
  refine ⟨((leads_run quiet fresh alive).ran ran).halts fresh, fun state passes leaf member => ?_⟩
  have strict := Tree.strict_of_normal normal
  have covered : leaf.Covered host.runner state.2.runner :=
    (passes.watched set distinct strict).covered _ (Tree.mem_tasks.mp member)
  exact (passes.tallied set distinct strict present leaf member).counts covered

/-- Two invocations at once, and then another one; there are two tries everywhere. -/
def countedFlow : Flow :=
  .ofTree (.ofChildren true (.fresh 0 0 2 2 .normal) [
    .ofChildren false (.fresh 1 1 2 4 .normal) [
      .ofJob (.fresh 2 2 2 4 .normal) "build",
      .ofJob (.fresh 3 2 2 4 .normal) "lint"],
    .ofJob (.fresh 4 1 2 2 .normal) "deploy"])

/-- The second invocation fails once, and the last one fails every time. -/
def countedHost : Host :=
  .ofPlans [{ name := "build" }, { name := "lint", execTicks := 3, maxFails := 1 },
    { name := "deploy", maxFails := 9 }]

set_option maxRecDepth 100000 in
theorem run_counts_counted :
    ∃ (answer : Except Halt BuildResult) (flow' : Flow) (host' : Host),
      run.run (countedFlow, countedHost) = (answer, flow', host') ∧
      (flow'.root.tasks.map fun leaf => (leaf.name, leaf.standing.totalTried)) =
        [("build", 1), ("lint", 2), ("deploy", 2)] ∧
      host'.runner.order = ["build", "lint", "lint", "deploy", "deploy"] ∧
      countedFlow.Halted host'.reads countedHost.world answer flow'.root host'.world ∧
      ∀ state, countedFlow.Passes host'.reads countedHost.world state → ∀ leaf ∈ state.1.tasks,
        leaf.Counts countedHost.runner state.2.runner := by
  have tried : ((run.run (countedFlow, countedHost)).2.1.root.tasks.map fun leaf =>
      (leaf.name, leaf.standing.totalTried)) = [("build", 1), ("lint", 2), ("deploy", 2)] := by
    decide +kernel
  have order : (run.run (countedFlow, countedHost)).2.2.runner.order =
      ["build", "lint", "lint", "deploy", "deploy"] := by decide +kernel
  have timed : ∀ event ∈ (run.run (countedFlow, countedHost)).2.2.trace, Host.timed event := by
    decide +kernel
  have normal : countedFlow.root.Every fun node => node.standing.propagation = .normal := by
    unfold Tree.Every
    decide
  have present : ∀ name ∈ countedFlow.root.names,
      (countedHost.runner.job? name).isSome := by decide
  generalize ran : run.run (countedFlow, countedHost) = out at *
  obtain ⟨answer, flow', host'⟩ := out
  obtain ⟨halted, counts⟩ := @run_counts countedFlow _ countedHost _ _ rfl (by decide) normal
    (Host.quiet_start _ _ _) rfl (fun name named => Option.isSome_iff_exists.mp (present name named))
    ran (Host.set_of_timed timed)
  exact ⟨answer, flow', host', rfl, tried, order, halted, counts⟩

end Flow

end BuildFlow
