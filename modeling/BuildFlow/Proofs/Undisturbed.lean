import BuildFlow.Proofs.Order
import BuildFlow.Proofs.Surfacing
import BuildFlow.Proofs.Termination
import BuildFlow.Proofs.Tree.Calm
/-!
What unchecked work cannot change. As long as no checked invocation uses up the tries
of its own retry scope, it does not matter how long the unchecked jobs take and what
they end with: every run comes to the same results. Once a checked invocation is given
up, it does matter.
-/
namespace BuildFlow

/-! ## Before the first sweep -/

/-- The job exists, and none of its builds goes on. -/
structure Runner.Offers (runner : Runner) (name : String) : Prop where
  present : ∃ job, runner.job? name = some job
  past : ∀ build ∈ runner.buildsOf name, build.progress runner.tick = .idle

theorem Runner.offers_of_idle {runner : Runner} {name : String}
    (idle : ∃ job, runner.job? name = some job ∧ job.progress runner.tick = .idle) :
    runner.Offers name := by
  obtain ⟨job, found, idle⟩ := idle
  refine ⟨⟨job, found⟩, ?_⟩
  rw [buildsOf_of_job? found]
  exact Job.progress_idle.mp idle

theorem Runner.Offers.same {world there : World} {name : String} (offers : world.runner.Offers name)
    (same : world.Same there) : there.runner.Offers name where
  present := by
    obtain ⟨job, found⟩ := offers.present
    obtain ⟨next, found, -⟩ := same.grows.runner.job? found
    exact ⟨next, found⟩
  past build member := by
    rw [same.builds] at member
    rw [same.grows.tick]
    exact offers.past build member

/-- An invocation whose job is there and idle is not refused. -/
theorem Task.Refused.overrun_of_offers {requireIdle : Bool} {task : Task} {runner : Runner}
    {halt : Halt} (refused : task.Refused requireIdle runner halt)
    (offers : runner.Offers task.name) : halt = .broken .ticks := by
  obtain ⟨job, found⟩ := offers.present
  cases refused with
  | missing missing => cases missing.symm.trans found
  | unknown missing => cases missing.symm.trans found
  | busy _ found' busy =>
      have past := offers.past
      rw [Runner.buildsOf_of_job? found'] at past
      rw [Job.progress_idle.mpr past] at busy
      cases busy
  | overrun => rfl

/-- The job of the invocation fails only so often that a try is left. -/
def Task.Endures (runner : Runner) (task : Task) : Prop :=
  ∃ job, runner.job? task.name = some job ∧ job.plan.Bearable task.standing

theorem Task.Endures.grows {before after : Runner} {task : Task} (endures : task.Endures before)
    (grows : before.Grows after) : task.Endures after := by
  obtain ⟨job, found, bearable⟩ := endures
  obtain ⟨next, found', grown⟩ := grows.job? found
  exact ⟨next, found', grown.plan ▸ bearable⟩

/-- What is declared of an invocation tells whether it endures the failures. -/
theorem Task.endures_blank {runner : Runner} {task : Task} :
    task.blank.Endures runner ↔ task.Endures runner := by
  unfold Endures
  exact exists_congr fun job => and_congr_right fun _ =>
    ⟨fun bearable => ⟨bearable.final, bearable.fails⟩, fun bearable => ⟨bearable.final, bearable.fails⟩⟩

/-- An invocation that is ready waits for its first build. -/
theorem Task.Ready.tries {runner : Runner} {task : Task} (ready : task.Ready runner)
    (offers : runner.Offers task.name) (endures : task.Endures runner) : task.Tries runner := by
  obtain ⟨job, found, bearable⟩ := endures
  obtain ⟨⟨resolved, oldBuild, same⟩, -⟩ := ready
  refine ⟨⟨job, found, bearable, .waiting ?_ ?_ offers.past fun _ => ?_⟩, ?_⟩
  · rw [same]
    rfl
  · rw [same]
    rfl
  · rw [same]
    exact Nat.le_add_left 1 _
  · rw [same]
    exact Standing.settled_prepare _ _

namespace Tree

theorem calm_of_ready {runner : Runner} {tree : Tree} (ready : tree.Every (Ready runner))
    (plain : tree.Every Plain) (offers : ∀ name ∈ tree.names, runner.Offers name)
    (endures : ∀ leaf ∈ tree.checkedTasks, leaf.Endures runner) : tree.Calm runner := by
  induction tree using childrenInduction with
  | leaf leaf =>
      cases unchecked : leaf.isUnchecked with
      | true => exact .unchecked unchecked
      | false =>
          have among : leaf ∈ (Tree.task leaf).checkedTasks := by simp [checkedTasks, unchecked]
          exact .task ((every_task.mp ready).tries (offers _ (List.mem_singleton_self _))
            (endures leaf among))
  | branch group children ih =>
      obtain ⟨here, below⟩ := every_branch.mp ready
      obtain ⟨⟨inhabited, -⟩, below'⟩ := every_branch.mp plain
      cases unchecked : group.standing.isUnchecked with
      | true => exact .unchecked unchecked
      | false =>
          have unknown : group.standing.result = .unknown := (counts_of_ready ready).2.2.1
          -- The cursor stands at the first child, so no child before it has to have passed.
          have standing : group.standing = _ := standing_of_ready ready
          refine .branch ⟨inhabited, .inl unknown, ?_, fun _ => ?_⟩ fun child member => ?_
          · rw [standing]
            exact Standing.settled_prepare _ _
          · rw [show group = group.blank.prepare false from here, Group.cursor_prepare]
            exact fun child member => absurd member List.not_mem_nil
          · refine ih child member (below child member) (below' child member)
              (fun name named => offers name (mem_names_branch.mpr ⟨child, member, named⟩)) ?_
            intro leaf inside
            apply endures
            rw [checkedTasks_branch, unchecked]
            exact List.mem_flatMap.mpr ⟨child, member, inside⟩

/-! ## Runs -/

/-- A checked group at work in which no checked invocation uses up its tries. -/
structure AtEase (runner : Runner) (tree : Tree) : Prop where
  grouped : tree.children ≠ []
  checked : tree.standing.isUnchecked = false
  distinct : tree.names.Nodup
  plain : tree.Every Plain
  present : ∀ name ∈ tree.names, ∃ job, runner.job? name = some job
  sound : tree.Sound runner
  calm : tree.Calm runner

theorem AtEase.next {world : World} {tree : Tree} (ease : tree.AtEase world.runner) :
    tree.AtEase world.next.runner :=
  { ease with
    present := by
      intro name named
      obtain ⟨job, found⟩ := ease.present name named
      obtain ⟨next, found, -⟩ := (Runner.grows_next world.runner).job? found
      exact ⟨next, found⟩
    sound := ease.sound.grows (Runner.grows_next _)
    calm := ease.calm.grows (Runner.grows_next _) fun name _ => Runner.buildsOf_next _ name }

/-- Children and timeouts are declared. -/
theorem AtEase.declared {runner : Runner} {tree next : Tree} (ease : tree.AtEase runner)
    (layout : next.blank = tree.blank) : next.children ≠ [] ∧ next.Every Plain := by
  constructor
  · intro none
    have children := congrArg Tree.children layout
    rw [children_blank, children_blank, none] at children
    exact ease.grouped (List.map_eq_nil_iff.mp children.symm)
  · have blank : tree.blank.Every Plain :=
      every_blank.mpr (ease.plain.mono fun node => (plain_blank node).mpr)
    rw [← layout] at blank
    exact (every_blank.mp blank).mono fun node => (plain_blank node).mp

theorem AtEase.sweep {now : Instant} (set : now.isSet) {tree next : Tree} {world after : World}
    (ease : tree.AtEase world.runner) (unfinished : tree.standing.isFinished = false)
    (sweep : Sweeps now tree world (.ok ()) next after) : next.AtEase after.runner := by
  have keeps := sweep.sound .ok unfinished ease.sound
  have names := names_of_layout sweep.blank
  obtain ⟨grouped, plain⟩ := ease.declared sweep.blank
  refine ⟨grouped, ?_, names ▸ ease.distinct, plain, ?_, keeps.sound, ?_⟩
  · unfold Standing.isUnchecked
    rw [keeps.propagation]
    exact ease.checked
  · intro name named
    obtain ⟨job, found⟩ := ease.present name (names ▸ named)
    obtain ⟨next, found, -⟩ := sweep.grows.runner.job? found
    exact ⟨next, found⟩
  · cases sweep.calm set .ok unfinished ease.distinct ease.sound ease.calm with
    | ok calm => exact calm

/-- No failure leaves the tree, its jobs are there, and nothing is overdue. -/
theorem AtEase.halts {now : Instant} (set : now.isSet) {tree next : Tree} {world after : World}
    {halt : Halt} (ease : tree.AtEase world.runner)
    (unfinished : tree.standing.isFinished = false)
    (sweep : Sweeps now tree world (.error halt) next after) :
    ∃ breakdown, halt = .broken breakdown := by
  obtain ⟨grouped, plain⟩ := ease.declared sweep.blank
  cases sweep.interrupts unfinished ease.sound with
  | uncounted => exact ⟨_, rfl⟩
  | overrun => exact ⟨_, rfl⟩
  | failed failure =>
      have keeps := sweep.sound (.failed failure) unfinished ease.sound
      cases sweep.calm set (.failed failure) unfinished ease.distinct ease.sound ease.calm with
      | unchecked unchecked =>
          unfold Standing.isUnchecked at unchecked
          rw [keeps.propagation] at unchecked
          cases ease.checked.symm.trans unchecked
      | missed same =>
          subst same
          exact absurd rfl grouped
  | unknown named missing =>
      obtain ⟨job, found⟩ := ease.present _ (names_of_layout sweep.blank ▸ named)
      obtain ⟨next, found, -⟩ := sweep.grows.runner.job? found
      cases missing.symm.trans found
  | overdue inside timed => exact absurd timed (plain _ inside).2

/-- What it has come to once it is not waited for. -/
theorem AtEase.success {runner : Runner} {tree : Tree} (ease : tree.AtEase runner)
    (settled : tree.checking ≠ .mustCheck) :
    tree.result = .success ∧ ∀ leaf ∈ tree.checkedTasks, leaf.standing.result = .success := by
  have good : tree.standing.result.IsGood := by
    have passed := ease.calm.settled fun waits =>
      settled (Standing.propagatedChecking_eq_mustCheck.mp waits).2
    refine (Standing.propagatedResult_eq_success.mp passed).resolve_right fun unchecked => ?_
    cases ease.checked.symm.trans unchecked
  constructor
  · exact (ease.calm.hopeful ease.checked).resolve_left good.known
  · intro leaf member
    have known := (ease.sound.good good leaf member).known
    exact (ease.calm.tries leaf member).hopeful.resolve_left known

end Tree

namespace Flow

/-- How something ends where no checked invocation is given up: with a value, or
without any since the ticks are used up or something breaks down. -/
inductive EndsCalm {α : Type} (holds : α → Prop) : Except Halt α → Prop
  | ok {value : α} (calm : holds value) : EndsCalm holds (.ok value)
  | refused : EndsCalm holds (.error Host.tickLimit)
  | broken (breakdown : Breakdown) : EndsCalm holds (.error (.broken breakdown))

theorem Looped.calm {limit : Nat} {reads : Instant → Prop} {tree last : Tree}
    {world after : World} {answer : Except Halt Unit}
    (looped : Looped false limit reads tree world answer last after)
    (set : ∀ now, reads now → now.isSet) (ease : tree.AtEase world.runner) :
    EndsCalm (fun _ => last.AtEase after.runner ∧ last.checking ≠ .mustCheck) answer := by
  generalize drawn : false = dir at looped
  induction looped with
  | settled settled => exact .ok ⟨ease, settled⟩
  | again unsettled read _ sweep _ ih =>
      exact ih (ease.next.sweep (set _ read) (Standing.unfinished unsettled) sweep)
  | broke unsettled read _ sweep =>
      obtain ⟨breakdown, rfl⟩ := ease.next.halts (set _ read) (Standing.unfinished unsettled) sweep
      exact .broken breakdown
  | refused => exact .refused
  | overrun => exact .broken .ticks
  | unwritten written =>
      subst drawn
      cases written

/-- The jobs of the flow are there and idle, and those of the checked invocations fail
only so often that a try is left. -/
structure Serves (flow : Flow) (runner : Runner) : Prop where
  offers : ∀ name ∈ flow.root.names, runner.Offers name
  endures : ∀ leaf ∈ flow.root.checkedTasks, leaf.Endures runner

/-- A checked flow of distinct jobs, with children in every group and no timeouts, that
is run and draws no graph. -/
structure Plain (flow : Flow) : Prop where
  inhabited : flow.root.children ≠ []
  plain : flow.root.Every Tree.Plain
  distinct : flow.root.names.Nodup
  checked : flow.root.standing.isUnchecked = false
  undumped : flow.config.justDump = false
  undrawn : flow.config.graphDir = none
  sleeps : flow.config.sleepDuration? ≠ none

/-- What the checked invocations of a tree have come to. -/
def checkedResults (root : Tree) : List (String × BuildResult) :=
  root.checkedTasks.map fun leaf => (leaf.name, leaf.standing.result)

theorem Plain.ease {flow : Flow} (plain : flow.Plain) {requireIdle : Bool} {first : Tree}
    {world there : World}
    (prepared : flow.root.Prepared requireIdle world (.ok ()) first there)
    (serves : flow.Serves world.runner) : first.AtEase there.runner := by
  obtain ⟨same, layout, ready⟩ := prepared
  have names : first.names = flow.root.names := by rw [← Tree.names_blank, layout]
  have offers : ∀ name ∈ first.names, there.runner.Offers name := fun name named =>
    (serves.offers name (names ▸ named)).same same
  -- Being plain is read off the layout, which the preparation leaves as it was.
  have plain' : first.Every Tree.Plain := by
    have blank := plain.plain
    rw [← layout] at blank
    exact (Tree.every_blank.mp blank).mono fun node => (Tree.plain_blank node).mp
  constructor
  case grouped =>
    intro none
    apply plain.inhabited
    rw [← layout, Tree.children_blank, none]
    rfl
  case checked =>
    rw [← Tree.isUnchecked_blank, layout]
    exact plain.checked
  case distinct => exact names ▸ plain.distinct
  case plain => exact plain'
  case present => exact fun name named => (offers name named).present
  case sound => exact Tree.sound_of_ready ready
  case calm =>
    apply Tree.calm_of_ready ready plain' offers
    intro leaf member
    have among : leaf.blank ∈ flow.root.checkedTasks := by
      rw [← layout, Tree.checkedTasks_blank]
      exact List.mem_map_of_mem member
    exact (Task.endures_blank.mp (serves.endures leaf.blank among)).grows same.grows.runner

theorem Driven.calm {flow : Flow} (plain : flow.Plain) {requireIdle : Bool} {limit : Nat}
    {reads : Instant → Prop} {last : Tree} {world after : World} {answer : Except Halt BuildResult}
    (driven : Driven flow.config requireIdle limit reads flow.root world answer last after)
    (serves : flow.Serves world.runner) (set : ∀ now, reads now → now.isSet) :
    EndsCalm (fun result => result = .success ∧ last.blank = flow.root ∧
      ∀ leaf ∈ last.checkedTasks, leaf.standing.result = .success) answer := by
  have unwritten : flow.config.graphDir.isSome = false := by rw [plain.undrawn]; rfl
  cases driven with
  | unprepared prepared =>
      obtain ⟨same, -, leaf, member, refused⟩ := prepared
      have offers := (serves.offers leaf.name (List.mem_map_of_mem member)).same same
      rw [refused.overrun_of_offers offers]
      exact .broken .ticks
  | unwritten _ written => cases unwritten.symm.trans written
  | unslept _ unslept => exact absurd unslept plain.sleeps
  -- No graph is written and the pause is valid, so only the loop can end the run.
  | looped prepared looped concluded =>
      rw [unwritten] at looped concluded
      have layout := looped.blank.trans prepared.2.1
      have ends := looped.calm set (plain.ease prepared serves)
      cases concluded with
      | halted =>
          cases ends with
          | refused => exact .refused
          | broken breakdown => exact .broken breakdown
      | finished =>
          cases ends with
          | ok calm =>
              obtain ⟨ease, settled⟩ := calm
              obtain ⟨success, results⟩ := ease.success settled
              exact .ok ⟨success, layout, results⟩
      | unwritten written => cases written
      | overrun => exact .broken .ticks

theorem Ran.calm {flow : Flow} (plain : flow.Plain) {limit : Nat} {reads : Instant → Prop}
    {last : Tree} {world after : World} {answer : Except Halt BuildResult}
    (ran : Ran flow limit reads world answer last after) (serves : flow.Serves world.runner)
    (set : ∀ now, reads now → now.isSet) :
    EndsCalm (fun result => result = .success ∧ last.blank = flow.root ∧
      ∀ leaf ∈ last.checkedTasks, leaf.standing.result = .success) answer := by
  cases ran with
  | unwritten written =>
      rw [plain.undrawn] at written
      cases written
  | idle idle =>
      rcases idle with dump | empty
      · cases plain.undumped.symm.trans dump
      · exact absurd empty plain.inhabited
  | halted driven =>
      cases driven.calm plain serves set with
      | refused => exact .refused
      | broken breakdown => exact .broken breakdown
  | finished driven => exact driven.calm plain serves set
  | raised driven bad =>
      cases driven.calm plain serves set with
      | ok calm => exact absurd calm.1 bad

/-- A run that went on to its end: the clock showed the time, the ends of all builds
could be told, and no group was left that cannot count an attempt. -/
structure Finishes (flow : Flow) (host : Host) (answer : Except Halt BuildResult) (flow' : Flow)
    (host' : Host) : Prop where
  ran : run.run (flow, host) = (answer, flow', host')
  set : ∀ now, host'.reads now → now.isSet
  fits : host'.runner.Fits
  unstuck : ¬ flow'.root.Stuck

/-- A run in which no checked invocation uses up its tries is told no end of the ticks
if it may go on for long enough. It then succeeds, as does every checked invocation. -/
theorem run_calm {flow : Flow} {host : Host} (fresh : flow.root.IsFresh) (plain : flow.Plain)
    (alive : flow.config.killAll = false) (quiet : host.Quiet) (known : host.runner.Known)
    (serves : flow.Serves host.runner) :
    ∃ ticks, ∀ (limit : Nat) (answer : Except Halt BuildResult) (flow' : Flow) (host' : Host),
      flow.Finishes (host.upTo limit) answer flow' host' →
      (ticks ≤ limit → answer ≠ .error Host.tickLimit) ∧
      (answer ≠ .error Host.tickLimit → answer = .ok .success ∧
        checkedResults flow'.root = flow.root.checkedNames.map fun name => (name, .success)) := by
  obtain ⟨longest, positive, brief⟩ := Runner.exists_brief host.runner
  refine ⟨host.runner.tick + sweepsCap flow.root longest, fun limit answer flow' host' run => ?_⟩
  have led := (leads_run (quiet.upTo limit) fresh alive).ran run.ran
  have knownOf : ∀ first there,
      flow.root.Prepared flow.settings.requireIdle host.world (.ok ()) first there →
      there.runner.Every (Runner.KnownOf first.names) := fun first there prepared =>
    prepared.1.every _ (Runner.known_lasting _) fun name job listed _ => known name job listed
  obtain ⟨-, refuses⟩ := led.within positive fresh run.set (lively_known _) knownOf brief
  refine ⟨fun enough refused => Nat.not_lt.mpr enough (refuses refused), fun answered => ?_⟩
  have ends := led.ends fresh run.fits
  cases led.calm plain serves run.set with
  | ok calm =>
      obtain ⟨rfl, layout, results⟩ := calm
      refine ⟨rfl, ?_⟩
      rw [← layout, Tree.checkedNames_blank]
      unfold checkedResults Tree.checkedNames
      rw [List.map_map]
      exact List.map_congr_left fun leaf member => congrArg _ (results leaf member)
  | refused => exact absurd rfl answered
  | broken breakdown =>
      -- Where nothing is told the run has a result, since it is not stuck.
      rcases ends with ⟨_, errs⟩ | ⟨-, unslept⟩ | settles
      · cases errs
      · exact absurd unslept plain.sleeps
      · obtain ⟨_, result⟩ := settles.mpr run.unstuck
        cases result

/-- Two invocations at once, one of them unchecked, and then two more; there are two
tries everywhere. -/
def besideFlow : Flow :=
  .ofTree (.ofChildren true (.fresh 0 0 2 2 .normal) [
    .ofChildren false (.fresh 1 1 2 4 .normal) [
      .ofJob (.fresh 2 2 2 4 .normal) "build",
      .ofJob (.fresh 3 2 2 4 .unchecked) "lint"],
    .ofJob (.fresh 4 1 2 2 .normal) "test",
    .ofJob (.fresh 5 1 2 2 .normal) "deploy"])

/-- The unchecked job takes long and fails so many times, the others fail once. -/
def flakyPlans (fails : Nat) : List JobPlan :=
  [{ name := "build", execTicks := 2, maxFails := 1 },
    { name := "lint", execTicks := 6, maxFails := fails },
    { name := "test", maxFails := 1 }, { name := "deploy", maxFails := 1 }]

theorem plain_besideFlow : besideFlow.Plain where
  inhabited := nofun
  plain := by
    have untimed : ¬ (0 : Float) < 0 := by decide +kernel
    intro node member
    simp only [besideFlow, Flow.ofTree, Tree.ofChildren, Tree.ofJob, Tree.nodes, Tree.nodesOf,
      List.mem_cons, List.mem_append, List.not_mem_nil, or_false] at member
    rcases member with rfl | (rfl | rfl | rfl) | rfl | rfl
    · exact ⟨List.cons_ne_nil _ _, untimed⟩
    · exact ⟨List.cons_ne_nil _ _, untimed⟩
    · trivial
    · trivial
    · trivial
    · trivial
  distinct := by decide
  checked := rfl
  undumped := rfl
  undrawn := rfl
  sleeps := by decide +kernel

theorem known_flakyPlans (fails : Nat) : (Host.ofPlans (flakyPlans fails)).runner.Known := by
  refine Runner.every_addAll (p := fun _ job => job.Known) (fun plan member => ?_) (Runner.every_empty _)
  simp only [flakyPlans, List.mem_cons, List.not_mem_nil, or_false] at member
  rcases member with rfl | rfl | rfl | rfl <;> exact Job.known_ofPlan (fun _ => nofun) nofun

theorem serves_flakyPlans {fails : Nat} (within : fails = 0 ∨ fails = 1) :
    besideFlow.Serves (Host.ofPlans (flakyPlans fails)).runner where
  offers name named := by
    have named : name ∈ ["build", "lint", "test", "deploy"] := named
    simp only [List.mem_cons, List.not_mem_nil, or_false] at named
    rcases within with rfl | rfl <;> rcases named with rfl | rfl | rfl | rfl <;>
      exact Runner.offers_of_idle ⟨_, rfl, rfl⟩
  endures leaf member := by
    have member : leaf ∈ [_, _, _] := member
    simp only [List.mem_cons, List.not_mem_nil, or_false] at member
    rcases within with rfl | rfl <;> rcases member with rfl | rfl | rfl <;>
      exact ⟨_, rfl, rfl, fun _ => ⟨rfl, rfl, by decide⟩⟩

set_option maxRecDepth 100000 in
theorem finishes_flakyPlans {fails : Nat} (within : fails = 0 ∨ fails = 1) :
    ∃ left after, besideFlow.Finishes ((Host.ofPlans (flakyPlans fails)).upTo 100) (.ok .success)
      left after := by
  have ended : (run.run (besideFlow, (Host.ofPlans (flakyPlans fails)).upTo 100)).1 =
        .ok .success ∧
      (∀ event ∈ (run.run (besideFlow, (Host.ofPlans (flakyPlans fails)).upTo 100)).2.2.trace,
        Host.timed event) ∧
      (run.run (besideFlow, (Host.ofPlans (flakyPlans fails)).upTo 100)).2.2.runner.Fits ∧
      (run.run (besideFlow, (Host.ofPlans (flakyPlans fails)).upTo 100)).2.1.root.checking ≠
        .mustCheck := by rcases within with rfl | rfl <;> decide +kernel
  generalize ran : run.run (besideFlow, (Host.ofPlans (flakyPlans fails)).upTo 100) = out at *
  obtain ⟨answer, left, after⟩ := out
  obtain ⟨rfl, timed, fits, settled⟩ := ended
  exact ⟨left, after, ran, Host.set_of_timed timed, fits, fun stuck => settled stuck.1⟩

/-- The unchecked job takes long, and fails so many times. -/
def besideHost (fails : Nat) : Host :=
  .ofPlans [
    { name := "build" },
    { name := "lint", execTicks := 6, maxFails := fails },
    { name := "test", maxFails := 2 },
    { name := "deploy", maxFails := 1 }]

/-- The recorded results of some jobs. -/
def recorded (root : Tree) (names : List String) : List (Option BuildResult) :=
  names.map fun name => (root.task? name).map fun leaf => leaf.standing.result

end Flow

end BuildFlow
