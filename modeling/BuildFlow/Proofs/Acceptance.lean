import BuildFlow.Proofs.Verdict
/-!
What a run accepts. Before its first sweep a run looks up the jobs of all invocations, in the order of
their declaration. It ends at the first one whose job is missing and must not be, or is at work and
has to be idle; nothing has been built or stopped by then, and no tick has passed.
-/
namespace BuildFlow

open NodeAct Act

/-- All jobs of the roster exist. -/
def World.Founded (world : World) : Prop :=
  ∀ name ∈ world.resolved, (world.runner.job? name).isSome

theorem World.Same.fits {before after : World} (same : before.Same after)
    (fits : before.runner.Fits) : after.runner.Fits :=
  Runner.fits_iff.mpr (same.every _ Runner.fits_lasting (Runner.fits_iff.mp fits))

theorem World.Founded.looked {world : World} (founded : world.Founded) (name : String) :
    Founded ⟨(world.runner.lookup name).2, world.resolved⟩ :=
  fun other member => (Runner.found_lookup world.runner name other).trans (founded other member)

namespace Task

/-- Why a run does not begin with this invocation, if it does not. -/
def offence? (requireIdle : Bool) (runner : Runner) (task : Task) : Option FlowError :=
  match runner.job? task.name with
  | none => if task.allowMissing then none else some (.failed (.missing task.name))
  | some job =>
      if requireIdle && !(job.progress runner.tick).isIdle then
        some (.notIdle task.name (job.progress runner.tick))
      else none

/-- The builds of a world decide on an invocation, however often jobs have been looked up. -/
theorem offence?_same {before after : World} (same : before.Same after) (requireIdle : Bool) :
    offence? requireIdle after.runner = offence? requireIdle before.runner := by
  funext task
  have present := same.found task.name
  have builds := same.builds task.name
  unfold offence?
  cases found : before.runner.job? task.name with
  | none =>
      have missing : after.runner.job? task.name = none := by simpa [found] using present
      rw [missing]
  | some job =>
      rw [found] at present
      obtain ⟨job', found'⟩ := Option.isSome_iff_exists.mp present
      rw [Runner.buildsOf_of_job? found, Runner.buildsOf_of_job? found'] at builds
      have progress : job'.progress after.runner.tick = job.progress before.runner.tick := by
        unfold Job.progress
        rw [builds, same.grows.tick]
      rw [found']
      dsimp only
      rw [progress]

end Task

/-- Ends with the error, if there is one. -/
def refusal : Option FlowError → Except Halt Unit
  | none => .ok ()
  | some error => .error (.error error)

namespace Task

variable {task : Task} {sweep : Sweep} {host : Host}

/-- A job that exists can be looked at. -/
theorem leads_attach_found (faultless : host.script.faults = []) (fits : host.runner.Fits) {job : Job}
    (found : host.runner.job? task.name = some job) :
    (attach : Step JobStatus).Leads (task, host) fun answer state =>
      answer = .ok (job.status host.runner.tick) ∧ state.2 = host := by
  unfold attach
  simp only [leads_bind, leads_node, leads_onHost, Host.leads_jobPoll faultless,
    Host.leads_jobStatus faultless]
  rw [found]
  dsimp only
  rw [if_pos (fits.statusFits found _)]
  exact ⟨rfl, rfl⟩

/-- Once the job was found, the invocation is refused only for a job that is at work. -/
theorem leads_greet_offence (fresh : task.blank = task) (faultless : host.script.faults = [])
    (alive : sweep.killMode = false) (fits : host.runner.Fits) {job : Job}
    (found : host.runner.job? task.name = some job) :
    (greet task sweep).Leads (task, host) fun answer state =>
      answer = refusal (task.offence? sweep.settings.requireIdle host.runner) ∧
        state.2.world = host.world := by
  have prepares : task.standing.canPrepare false :=
    fresh ▸ Standing.canPrepare_blank task.standing false
  have offence : task.offence? sweep.settings.requireIdle host.runner =
      if sweep.settings.requireIdle && !(job.progress host.runner.tick).isIdle then
        some (.notIdle task.name (job.progress host.runner.tick)) else none := by
    unfold offence?
    rw [found]
  unfold greet
  rw [offence, leads_bind, leads_onHost, Host.leads_breakUnless, if_pos prepares]
  dsimp only
  rw [leads_bind, leads_setStanding]
  dsimp only
  have found' : host.runner.job? (task.prepare false).name = some job := found
  rw [prepared_eq fresh, leads_bind]
  apply (leads_attach_found faultless fits found').mono
  rintro answer ⟨attached, there⟩ ⟨rfl, rfl⟩
  dsimp only [Job.status]
  rw [alive, Bool.not_false, Bool.and_true]
  split
  · exact ⟨rfl, rfl⟩
  · exact ⟨rfl, rfl⟩

/-- The run goes on to what is declared next only if there is nothing against the invocation. -/
theorem leads_prepareFirst_offence (fresh : task.blank = task)
    (faultless : host.script.faults = []) (alive : sweep.killMode = false)
    (fits : host.runner.Fits) (founded : host.world.Founded) :
    (prepareFirst sweep : Step Unit).Leads (task, host) fun answer state =>
      answer = refusal (task.offence? sweep.settings.requireIdle host.runner) ∧
        state.2.world.Founded := by
  have prepares : task.standing.canPrepare false :=
    fresh ▸ Standing.canPrepare_blank task.standing false
  unfold prepareFirst
  rw [leads_bind, leads_node]
  dsimp only
  rw [leads_bind, leads_onHost, Host.leads_attempt, Host.leads_resolve faultless]
  split
  · next listed =>
      obtain ⟨job, found⟩ := Option.isSome_iff_exists.mp (founded task.name listed)
      apply (leads_greet_offence fresh faultless alive fits found).mono
      rintro answer state ⟨rfl, same⟩
      exact ⟨rfl, same ▸ founded⟩
  · cases found : host.runner.job? task.name with
    | some job =>
        -- Looking the job up may queue or end builds, but it does not change what is against the
        -- task.
        have same : World.Same host.world ((host.lookedUp task.name).keep task.name).world :=
          World.same_lookup host.world task.name _
        have still : (((host.lookedUp task.name).keep task.name).runner.job? task.name).isSome := by
          exact (same.found task.name).trans (congrArg Option.isSome found)
        obtain ⟨job', found'⟩ := Option.isSome_iff_exists.mp still
        rw [if_pos (by rw [Runner.lookup_found found])]
        have faultless' : ((host.lookedUp task.name).keep task.name).script.faults = [] := faultless
        apply (leads_greet_offence fresh faultless' alive (same.fits fits) found').mono
        rintro answer state ⟨rfl, same'⟩
        rw [show Task.offence? _ ((host.lookedUp task.name).keep task.name).runner = _ from
          offence?_same same _, same']
        refine ⟨rfl, fun name member => ?_⟩
        rcases List.mem_append.mp member with listed | new
        · exact (same.found name).trans (founded name listed)
        · exact List.mem_singleton.mp new ▸ still
    | none =>
        have offence : task.offence? sweep.settings.requireIdle host.runner =
            if task.allowMissing then none else some (.failed (.missing task.name)) := by
          unfold offence?
          rw [found]
        rw [if_neg (by rw [(Runner.lookup_missing found).1]; exact Bool.noConfusion), offence]
        dsimp only
        rw [alive, Bool.or_false]
        split
        · rw [leads_bind, leads_log]
          dsimp only
          rw [leads_bind, leads_onHost, Host.leads_breakUnless, if_pos prepares]
          dsimp only
          rw [leads_setStanding]
          exact ⟨rfl, founded.looked task.name⟩
        · exact ⟨rfl, founded.looked task.name⟩

end Task

namespace Tree

/-- The pass before the first sweep ends at the first of these invocations that there is something
against. -/
def Screens (offence : Task → Option FlowError) (leaves : List Task) (answer : Except Halt Unit)
    (after : Host) : Prop :=
  answer = refusal (leaves.findSome? offence) ∧ after.world.Founded

section

variable {offence : Task → Option FlowError} {sweep : Sweep}

theorem prepareChildren_screens {children : List Tree}
    (each : ∀ child ∈ children, ∀ host : Host, host.script.faults = [] → host.runner.Fits →
      host.world.Founded → Task.offence? sweep.settings.requireIdle host.runner = offence →
      Screens offence child.tasks (prepareFirst sweep child host).1
        (prepareFirst sweep child host).2.2)
    (fresh : ∀ child ∈ children, child.IsFresh) (host : Host) (faultless : host.script.faults = [])
    (fits : host.runner.Fits) (founded : host.world.Founded)
    (decides : Task.offence? sweep.settings.requireIdle host.runner = offence) :
    Screens offence (tasksOf children) (prepareChildren sweep children host).1
      (prepareChildren sweep children host).2.2 := by
  induction children generalizing host with
  | nil => exact ⟨rfl, founded⟩
  | cons child rest ih =>
      obtain ⟨answered, founded'⟩ := each child List.mem_cons_self host faultless fits founded decides
      obtain ⟨stays, same, -⟩ :=
        prepareFirst_prepared sweep child (fresh child List.mem_cons_self) host faultless
      have listed : tasksOf (child :: rest) = child.tasks ++ tasksOf rest := rfl
      unfold Screens prepareChildren
      rw [listed, List.findSome?_append]
      generalize prepareFirst sweep child host = out at answered founded' stays same
      obtain ⟨answer, next, there⟩ := out
      dsimp only at answered founded' stays same
      subst answered
      cases child.tasks.findSome? offence with
      | some error => exact ⟨rfl, founded'⟩
      | none =>
          have decides : Task.offence? sweep.settings.requireIdle there.runner = offence :=
            (Task.offence?_same same _).trans decides
          exact ih (fun other member => each other (List.mem_cons_of_mem _ member))
            (fun other member => fresh other (List.mem_cons_of_mem _ member)) there
            (stays.faultless faultless) (same.fits fits) founded' decides

theorem prepareFirst_screens (alive : sweep.killMode = false) (tree : Tree) (fresh : tree.IsFresh)
    (host : Host) (faultless : host.script.faults = []) (fits : host.runner.Fits)
    (founded : host.world.Founded)
    (decides : Task.offence? sweep.settings.requireIdle host.runner = offence) :
    Screens offence tree.tasks (prepareFirst sweep tree host).1
      (prepareFirst sweep tree host).2.2 := by
  induction tree using childrenInduction generalizing host with
  | leaf leaf =>
      have fresh : leaf.blank = leaf := by simpa [IsFresh, blank] using fresh
      obtain ⟨answered, founded⟩ :=
        Task.leads_prepareFirst_offence fresh faultless alive fits founded
      have one : (task leaf).tasks.findSome? offence = offence leaf := by
        rw [tasks, List.findSome?_cons]
        cases offence leaf <;> rfl
      unfold Screens prepareFirst
      rw [one, visit_eq, ← decides]
      exact ⟨answered, founded⟩
  | branch group children ih =>
      obtain ⟨freshGroup, freshChildren⟩ := fresh_branch.mp fresh
      unfold prepareFirst
      rw [run_openGroup freshGroup]
      dsimp only
      obtain ⟨answered, founded⟩ := prepareChildren_screens
        (fun child member => ih child member (freshChildren child member)) freshChildren
        (host.after (.log .info (group.standing.indentation ++ group.opening) [])) faultless fits
        founded decides
      -- The group itself is never refused: its answer is that of its children.
      generalize prepareChildren sweep children _ = out at answered founded
      obtain ⟨answer, next, there⟩ := out
      dsimp only at answered founded
      subst answered
      unfold Screens
      rw [tasks]
      cases (tasksOf children).findSome? offence with
      | some error => exact ⟨rfl, founded⟩
      | none => exact ⟨rfl, founded⟩

end

end Tree

namespace Flow

/-! ## Loops -/

theorem tick_swept {now : Instant} {tree next : Tree} {world after : World}
    {answer : Except Halt Unit} (sweep : Tree.Sweeps now tree world.next answer next after) :
    after.runner.tick = world.runner.tick + 1 :=
  sweep.grows.tick.trans (Runner.tick_next _)

variable {dir : Bool} {limit : Nat} {reads : Instant → Prop} {tree last : Tree} {world after : World}
  {ended : Except Halt Unit}

theorem Looped.later (looped : Looped dir limit reads tree world ended last after) :
    world.runner.tick ≤ after.runner.tick := by
  induction looped with
  | settled => exact Nat.le_refl _
  | again _ _ _ sweep _ ih =>
      have tick := tick_swept sweep
      omega
  | broke _ _ _ sweep => exact tick_swept sweep ▸ Nat.le_succ _
  | refused => exact Runner.tick_next _ ▸ Nat.le_succ _
  | overrun => exact Nat.le_refl _
  | unwritten _ _ _ _ sweep => exact tick_swept sweep ▸ Nat.le_succ _

/-- A loop over a tree that waits for results lets a tick pass. -/
theorem Looped.advances (looped : Looped dir limit reads tree world ended last after)
    (unsettled : tree.checking = .mustCheck) (fits : world.runner.Fits) :
    world.runner.tick < after.runner.tick := by
  cases looped with
  | settled settled => exact absurd unsettled settled
  | again _ _ _ sweep onward =>
      have tick := tick_swept sweep
      have later := onward.later
      omega
  | broke _ _ _ sweep => exact tick_swept sweep ▸ Nat.lt_succ_self _
  | refused => exact Runner.tick_next world.runner ▸ Nat.lt_succ_self _
  | overrun overrun => exact absurd fits overrun
  | unwritten _ _ _ _ sweep => exact tick_swept sweep ▸ Nat.lt_succ_self _

/-! ## Runs -/

/-- What there is against a flow, if anything: what there is against the first of its invocations. -/
def offence? (flow : Flow) (runner : Runner) : Option FlowError :=
  flow.root.tasks.findSome? (Task.offence? flow.settings.requireIdle runner)

/-- How a run starts: with an error that leaves the builds and the time as they were, or with a tick,
if the root is waited for. -/
def Opens (flow : Flow) (world : World) (answer : Except Halt BuildResult) (after : World) : Prop :=
  match flow.offence? world.runner with
  | some error => answer = .error (.error error) ∧ world.Same after
  | none => flow.root.standing.isUnchecked = false → world.runner.tick < after.runner.tick

section

variable {flow : Flow} {host : Host} (fresh : flow.root.IsFresh) (quiet : host.Quiet)
  (fits : host.runner.Fits) (founded : host.world.Founded)
include fresh quiet fits founded

theorem firstPass_screens : Tree.Screens (Task.offence? flow.settings.requireIdle host.runner)
    flow.root.tasks (flow.firstPass host).1 (flow.firstPass host).2.2 :=
  Tree.prepareFirst_screens quiet.unrequested flow.root fresh host quiet.faultless fits founded rfl

variable (unwritten : flow.config.graphDir = none) (sleeps : flow.config.sleepDuration?.isSome)
include unwritten sleeps

theorem leads_drive_opens : (drive : Step BuildResult).Leads (flow, host) fun answer state =>
    flow.Opens host.world answer state.2.world := by
  rw [drive_eq, leads_bind]
  apply (leads_setUp_readied quiet.faultless fun _ faultless =>
    (firstPass_prepared fresh faultless).1).mono
  rintro answer ⟨prepared, there⟩ ⟨polled, setsUp⟩
  have runner : polled.runner = host.runner := congrArg World.runner setsUp.same
  have screens := firstPass_screens fresh (quiet.stays setsUp.polls) (runner ▸ fits)
    (setsUp.same ▸ founded)
  obtain ⟨passes, same, layout, ready⟩ := firstPass_prepared fresh (setsUp.polls.faultless
    quiet.faultless)
  have stays := (setsUp.polls.trans passes).trans setsUp.stays
  have readied := setsUp.readied
  rw [setsUp.same, ← setsUp.world] at same
  rw [runner] at screens
  have answered : (flow.firstPass polled).1 = refusal (flow.offence? host.world.runner) := screens.1
  rw [answered] at readied ready
  unfold Opens
  -- Either something is against an invocation and the run is over, or the loop goes on to a sweep.
  cases offence : flow.offence? host.world.runner with
  | some error =>
      rw [offence] at readied
      cases readied
      exact ⟨rfl, same⟩
  | none =>
      rw [offence] at readied ready
      cases readied with
      | unwritten written => simp [unwritten] at written
      | unslept unslept => simp [unslept] at sleeps
      | ready =>
          apply (leads_loop _ (quiet.stays stays)).mono
          rintro answer state ⟨-, -, ended, looped, -⟩ checked
          have waits : prepared.root.checking = .mustCheck := by
            have root : prepared.root = (flow.firstPass polled).2.1 := setsUp.root
            rw [root]
            exact waits_of_ready ready (layout ▸ checked)
          have advances := looped.advances waits (same.fits fits)
          exact same.grows.tick ▸ advances

theorem leads_run_opens (alive : flow.config.killAll = false) (works : flow.config.justDump = false)
    (inhabited : flow.root.children ≠ []) :
    (run : Step BuildResult).Leads (flow, host) fun answer state =>
      flow.Opens host.world answer state.2.world := by
  apply leads_run_of_main quiet alive works inhabited
  · intro written
    simp [unwritten] at written
  · intro there quiet same _
    have runner : there.runner = host.runner := congrArg World.runner same
    rw [mainRun_eq, leads_bind, leads_outcome]
    apply (leads_drive_opens fresh quiet (runner ▸ fits) (same ▸ founded) unwritten sleeps).mono
    rintro ended state opens
    rw [same] at opens
    unfold Opens at opens ⊢
    apply leads_conclude
    · rintro halt rfl last world
      rw [world]
      exact opens
    · rintro result rfl last world
      rw [world]
      cases offence : flow.offence? host.world.runner with
      | some error =>
          rw [offence] at opens
          cases opens.1
      | none =>
          rw [offence] at opens
          exact ⟨opens, opens⟩

end

/-- A run that may write no graph and can sleep between its sweeps ends with an error before a tick
has passed if and only if there is something against one of its invocations, provided that its root
is waited for. In any case the error is that of the first such invocation, and all builds are as they
were. -/
theorem run_begins {flow flow' : Flow} {host host' : Host} {answer : Except Halt BuildResult}
    (fresh : flow.root.IsFresh) (inhabited : flow.root.children ≠ []) (quiet : host.Quiet)
    (fits : host.runner.Fits)
    (founded : ∀ name ∈ host.roster.resolved, (host.runner.job? name).isSome)
    (alive : flow.config.killAll = false) (works : flow.config.justDump = false)
    (unwritten : flow.config.graphDir = none) (sleeps : flow.config.sleepDuration?.isSome)
    (ran : run.run (flow, host) = (answer, flow', host')) :
    (flow.root.standing.isUnchecked = false →
      ((∃ halt, answer = .error halt) ∧ host'.runner.tick = host.runner.tick ↔
        ∃ leaf ∈ flow.root.tasks,
          (leaf.offence? flow.settings.requireIdle host.runner).isSome)) ∧
    ∀ before leaf after error, flow.root.tasks = before ++ leaf :: after →
      (∀ other ∈ before, other.offence? flow.settings.requireIdle host.runner = none) →
      leaf.offence? flow.settings.requireIdle host.runner = some error →
      answer = .error (.error error) ∧ host'.runner.tick = host.runner.tick ∧
        ∀ name, host'.runner.buildsOf name = host.runner.buildsOf name := by
  have opens : flow.Opens host.world answer host'.world :=
    (leads_run_opens fresh quiet fits founded unwritten sleeps alive works inhabited).ran ran
  unfold Opens at opens
  have refuses : ∀ error, flow.offence? host.runner = some error →
      answer = .error (.error error) ∧ host'.runner.tick = host.runner.tick ∧
        ∀ name, host'.runner.buildsOf name = host.runner.buildsOf name := by
    intro error offence
    rw [show flow.offence? host.world.runner = some error from offence] at opens
    exact ⟨opens.1, opens.2.grows.tick, opens.2.builds⟩
  constructor
  · intro checked
    constructor
    · rintro ⟨-, still⟩
      by_contra fine
      have none : flow.offence? host.world.runner = none := by
        apply List.findSome?_eq_none_iff.mpr
        intro leaf member
        by_contra some
        exact fine ⟨leaf, member, Option.isSome_iff_ne_none.mpr some⟩
      rw [none] at opens
      exact absurd still (Nat.ne_of_gt (opens checked))
    · rintro ⟨leaf, member, offends⟩
      have found := List.findSome?_isSome_iff.mpr ⟨leaf, member, offends⟩
      obtain ⟨error, offence⟩ := Option.isSome_iff_exists.mp found
      obtain ⟨same, still, -⟩ := refuses error offence
      exact ⟨⟨_, same⟩, still⟩
  · intro before leaf after error listed fine offence
    exact refuses error (List.findSome?_eq_some_iff.mpr ⟨before, leaf, after, listed, offence, fine⟩)

/-- Three invocations, and a host with the first job alone. -/
def trioFlow : Flow :=
  .ofTree (.ofChildren true (.fresh 0 0 1 1 .normal) [
    .ofJob (.fresh 1 1 1 1 .normal) "build",
    .ofChildren false (.fresh 2 1 1 1 .normal) [
      .ofJob (.fresh 3 2 1 1 .normal) "test",
      .ofJob (.fresh 4 2 1 1 .normal) "lint"]])

def partialHost : Host := .ofPlans [{ name := "build" }]

theorem run_begins_missing : ∃ (flow' : Flow) (host' : Host),
    run.run (trioFlow, partialHost) =
      (.error (.error (.failed (.missing "test"))), flow', host') ∧
    host'.runner.tick = partialHost.runner.tick ∧
    ∀ name, host'.runner.buildsOf name = partialHost.runner.buildsOf name := by
  generalize ran : run.run (trioFlow, partialHost) = out
  obtain ⟨answer, flow', host'⟩ := out
  have fits : partialHost.runner.Fits := by decide +kernel
  have sleeps : trioFlow.config.sleepDuration?.isSome := by decide +kernel
  have fine : ∀ other ∈ trioFlow.root.tasks.take 1,
      other.offence? trioFlow.settings.requireIdle partialHost.runner = none := by
    intro other member
    cases List.mem_singleton.mp member
    rfl
  have fresh : trioFlow.root.IsFresh := rfl
  have inhabited : trioFlow.root.children ≠ [] := nofun
  obtain ⟨-, refused⟩ := run_begins fresh inhabited (Host.quiet_start _ _ _) fits nofun rfl rfl rfl
    sleeps ran
  obtain ⟨rfl, still, builds⟩ := refused _ _ _ _ rfl fine rfl
  exact ⟨flow', host', rfl, still, builds⟩

/-- Nothing is against a flow with an unchecked root, but its run ends with an error before a tick has
passed: nobody waits for such a root. -/
theorem run_begins_nowhere : (singleFlow .unchecked).root.IsFresh ∧
    (singleFlow .unchecked).root.children ≠ [] ∧ partialHost.Quiet ∧ partialHost.runner.Fits ∧
    (∀ leaf ∈ (singleFlow .unchecked).root.tasks,
      leaf.offence? (singleFlow .unchecked).settings.requireIdle partialHost.runner = none) ∧
    ∃ (halt : Halt) (flow' : Flow) (host' : Host),
      run.run (singleFlow .unchecked, partialHost) = (.error halt, flow', host') ∧
      host'.runner.tick = partialHost.runner.tick := by
  have fits : partialHost.runner.Fits := by decide +kernel
  have fine : ∀ leaf ∈ (singleFlow .unchecked).root.tasks,
      leaf.offence? (singleFlow .unchecked).settings.requireIdle partialHost.runner = none := by
    intro leaf member
    cases List.mem_singleton.mp member
    rfl
  have failed : (run.run (singleFlow .unchecked, partialHost)).1.isOk = false := by decide +kernel
  have still : (run.run (singleFlow .unchecked, partialHost)).2.2.runner.tick =
      partialHost.runner.tick := by decide +kernel
  refine ⟨rfl, nofun, Host.quiet_start _ _ _, fits, fine, ?_⟩
  generalize run.run (singleFlow .unchecked, partialHost) = out at failed still
  obtain ⟨answer, flow', host'⟩ := out
  cases answer with
  | ok => cases failed
  | error halt => exact ⟨halt, flow', host', rfl, still⟩

end Flow

end BuildFlow
