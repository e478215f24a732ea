import BuildFlow.Proofs.Host
import BuildFlow.Sweep.Task
/-!
What one step of following an invocation can do. The invocation is found, a
build is started unless one is followed already, and the build either goes on
or ends the invocation with its result.
-/
namespace BuildFlow

/-- Visits that end with an answer, as a relation between nodes and worlds. -/
abbrev Course (ν : Type) := ν → World → Except Halt Unit → ν → World → Prop

/-- How a visit ends on a failure that may be retried. -/
def failedBy (failure : JobFailure) : Except Halt Unit := .error (.error (.failed failure))

namespace World

/-- The world goes on within a sweep: builds are added while the tick stays. -/
structure Grows (before after : World) : Prop where
  runner : before.runner.Grows after.runner
  tick : after.runner.tick = before.runner.tick

theorem Grows.refl (world : World) : Grows world world := ⟨.refl _, rfl⟩

theorem Grows.trans {before middle after : World} (left : Grows before middle)
    (right : Grows middle after) : Grows before after :=
  ⟨left.runner.trans right.runner, right.tick.trans left.tick⟩

end World

namespace Task

open NodeAct Act

/-! ## The parts of a step -/

/-- The invocation has found its job, now or earlier. -/
inductive Found (task : Task) (world : World) : Task → World → Prop
  | known (resolved : task.resolved) : Found task world task world
  | listed (unresolved : task.resolved = false) (member : task.name ∈ world.resolved)
      {job : Job} (found : world.runner.job? task.name = some job) (oldBuild : Option Nat) :
      Found task world { task with resolved := true, oldBuild } world
  | looked (unresolved : task.resolved = false) (unlisted : task.name ∉ world.resolved)
      {job : Job} (found : world.runner.job? task.name = some job) (oldBuild : Option Nat) :
      Found task world { task with resolved := true, oldBuild }
        ⟨(world.runner.lookup task.name).2, world.resolved ++ [task.name]⟩

/-- What an attempt may have changed before it comes to a result. -/
def Attempted (task after : Task) : Prop :=
  ∃ time resolved build oldBuild, after =
    { task with standing := { task.standing with invokedAt := time }, resolved, build, oldBuild }

theorem Attempted.refl (task : Task) : Attempted task task := ⟨_, _, _, _, rfl⟩

theorem Attempted.trans {task middle after : Task} (left : Attempted task middle)
    (right : Attempted middle after) : Attempted task after := by
  obtain ⟨_, _, _, _, rfl⟩ := left
  obtain ⟨_, _, _, _, rfl⟩ := right
  exact ⟨_, _, _, _, rfl⟩

theorem Found.attempted {task found : Task} {world there : World}
    (finds : Found task world found there) : Attempted task found := by
  cases finds with
  | known => exact .refl task
  | listed => exact ⟨_, _, _, _, rfl⟩
  | looked => exact ⟨_, _, _, _, rfl⟩

/-- Marks the start of the current attempt. -/
def begun (task : Task) (now : Instant) : Task :=
  { task with standing := { task.standing with invokedAt := now } }

/-- The invocation follows a build, or the job if it is unchecked and busy. -/
inductive Begun (now : Instant) (task : Task) (world : World) : Task → World → Prop
  | going (invoked : task.standing.isInvoked) : Begun now task world task world
  | joins (uninvoked : task.standing.isInvoked = false) (unchecked : task.isUnchecked)
      {job : Job} (found : world.runner.job? task.name = some job)
      (busy : (job.progress world.runner.tick).isIdle = false) :
      Begun now task world (task.begun now) world
  | starts (uninvoked : task.standing.isInvoked = false)
      (free : task.isUnchecked → ∃ job, world.runner.job? task.name = some job ∧
        (job.progress world.runner.tick).isIdle)
      {request : InvokeRequest} {ref : BuildRef} {runner : Runner}
      (invoked : world.runner.invoke? task.name request = some (ref, runner)) :
      Begun now task world { task.begun now with build := some ref } ⟨runner, world.resolved⟩

theorem attempted_begun (task : Task) (now : Instant) : Attempted task (task.begun now) :=
  ⟨_, _, _, _, rfl⟩

theorem Begun.attempted {now : Instant} {task begun : Task} {world after : World}
    (begins : Begun now task world begun after) : Attempted task begun := by
  cases begins with
  | going => exact .refl task
  | joins => exact attempted_begun task now
  | starts => exact ⟨_, _, _, _, rfl⟩

theorem Found.grows {task found : Task} {world there : World}
    (finds : Found task world found there) : world.Grows there := by
  cases finds with
  | known => exact .refl world
  | listed => exact .refl world
  | looked => exact ⟨Runner.grows_lookup _ _, Runner.tick_lookup _ _⟩

theorem Begun.grows {now : Instant} {task begun : Task} {world after : World}
    (begins : Begun now task world begun after) : world.Grows after := by
  cases begins with
  | going => exact .refl world
  | joins => exact .refl world
  | starts _ _ invoked =>
      exact ⟨Runner.grows_invoke invoked, (Runner.invoke?_eq_some invoked).choose_spec.2.2.2.1⟩

theorem Found.build {task found : Task} {world there : World}
    (finds : Found task world found there) : found.build = task.build := by
  cases finds <;> rfl

theorem Found.standing {task found : Task} {world there : World}
    (finds : Found task world found there) : found.standing = task.standing := by
  cases finds <;> rfl

theorem Found.resolved {task found : Task} {world there : World}
    (finds : Found task world found there) : found.resolved := by
  cases finds with
  | known resolved => exact resolved
  | listed => rfl
  | looked => rfl

theorem Attempted.name {task after : Task} (attempted : Attempted task after) :
    after.name = task.name := by
  obtain ⟨_, _, _, _, rfl⟩ := attempted
  rfl

theorem Attempted.result {task after : Task} (attempted : Attempted task after) :
    after.standing.result = task.standing.result := by
  obtain ⟨_, _, _, _, rfl⟩ := attempted
  rfl

theorem Found.buildsOf {task found : Task} {world there : World}
    (finds : Found task world found there) (name : String) :
    there.runner.buildsOf name = world.runner.buildsOf name := by
  cases finds with
  | known => rfl
  | listed => rfl
  | looked => exact Runner.buildsOf_lookup _ _ _

/-- A build that is followed was followed before, or it was started here. -/
theorem Begun.followed {now : Instant} {task found begun : Task} {world there after : World}
    (finds : Found task world found there) (begins : Begun now found there begun after)
    (ref : BuildRef) (followed : begun.build = some ref) :
    task.build = some ref ∨ ref.job = task.name := by
  cases begins with
  | going => exact .inl (finds.build ▸ followed)
  | joins => exact .inl (finds.build ▸ followed)
  | starts _ _ invoked =>
      obtain ⟨_, _, _, _, named⟩ := finds.attempted
      obtain ⟨-, -, job, -⟩ := Runner.invoke?_eq_some invoked
      cases followed
      rw [named] at job
      exact .inr job

/-- What the runner says of the build or of the job. -/
inductive Observed (task : Task) (world : World) : BuildResult → Progress → Prop
  | build {ref : BuildRef} (followed : task.build = some ref) {job : Job} {build : Build}
      (found : world.runner.job? ref.job = some job) (held : job.builds[ref.index]? = some build) :
      Observed task world (build.result world.runner.tick) (build.progress world.runner.tick)
  | job (unstarted : task.build = none) {job : Job}
      (found : world.runner.job? task.name = some job) :
      Observed task world (job.status world.runner.tick).result
        (job.status world.runner.tick).progress

/-- Why a step ends without an answer. -/
inductive Strays (task : Task) (world : World) : Halt → Prop
  | unknown {name : String}
      (named : name = task.name ∨ ∃ ref, task.build = some ref ∧ ref.job = name)
      (missing : world.runner.job? name = none) :
      Strays task world (.error (.runner (.unknownJob name)))
  | overrun (overrun : ¬ world.runner.Fits) : Strays task world (.broken .ticks)

/-- Why nothing can be read of the build or of the job. -/
inductive Unread (task : Task) (world : World) : Halt → Prop
  | strays {halt : Halt} (strays : Strays task world halt) : Unread task world halt
  | lost {ref : BuildRef} (followed : task.build = some ref) {job : Job}
      (found : world.runner.job? ref.job = some job) (lost : job.builds[ref.index]? = none) :
      Unread task world (.broken .build)

/-- The invocation has come to a result. -/
def ended (task : Task) (result : BuildResult) : Task :=
  { task with standing := { task.standing with checking := .finished, result } }

/-- How a step ends that comes to a result. -/
def ending (task : Task) (result : BuildResult) : Except Halt Unit :=
  if result.isFailure then failedBy (.job task.name result task.standing.propagation) else .ok ()

/-- Where one step of following an invocation leads. -/
inductive Follows (now : Instant) (task : Task) (world : World) :
    Except Halt Unit → Task → World → Prop
  | missing (unresolved : task.resolved = false) (unlisted : task.name ∉ world.resolved)
      (missing : world.runner.job? task.name = none) :
      Follows now task world (failedBy (.missing task.name)) (task.ended .failure)
        { world with runner := (world.runner.lookup task.name).2 }
  | waits {found begun : Task} {there after : World} {result : BuildResult} {progress : Progress}
      (finds : Found task world found there) (begins : Begun now found there begun after)
      (observes : Observed begun after result progress)
      (open' : progress.isIdle = false ∨ result = .unknown) :
      Follows now task world (.ok ()) begun after
  | ends {found begun : Task} {there after : World} {result : BuildResult} {progress : Progress}
      (finds : Found task world found there) (begins : Begun now found there begun after)
      (observes : Observed begun after result progress)
      (idle : progress.isIdle) (known : result ≠ .unknown) :
      Follows now task world (begun.ending result) (begun.ended result) after
  | strays {strayed : Task} {after : World} {halt : Halt}
      (attempted : Attempted task strayed) (grows : world.Grows after)
      (followed : ∀ ref, strayed.build = some ref → task.build = some ref ∨ ref.job = task.name)
      (strays : Strays strayed after halt) :
      Follows now task world (.error halt) strayed after
  | lost {found begun : Task} {there after : World} {ref : BuildRef} {job : Job}
      (finds : Found task world found there) (begins : Begun now found there begun after)
      (followed : begun.build = some ref) (listed : after.runner.job? ref.job = some job)
      (lost : job.builds[ref.index]? = none) :
      Follows now task world (.error (.broken .build)) begun after

/-! ## The step does no more -/

section

variable {task : Task} {host : Host} {sweep : Sweep}

/-- How looking for the job ends. -/
inductive Required (task : Task) (world : World) : Except Halt Unit → Task → World → Prop
  | found {found : Task} {there : World} (finds : Found task world found there) :
      Required task world (.ok ()) found there
  | missing (unresolved : task.resolved = false) (unlisted : task.name ∉ world.resolved)
      (missing : world.runner.job? task.name = none) :
      Required task world (failedBy (.missing task.name)) (task.ended .failure)
        { world with runner := (world.runner.lookup task.name).2 }
  | strays {after : World} {halt : Halt} (grows : world.Grows after)
      (strays : Strays task after halt) : Required task world (.error halt) task after

theorem leads_attach (faultless : host.script.faults = []) :
    (attach : Step JobStatus).Leads (task, host) fun answer state =>
      state.2 = host ∧
        match answer with
        | .ok status => ∃ oldBuild, state.1 = { task with resolved := true, oldBuild } ∧
            ∃ job, host.runner.job? task.name = some job ∧ status = job.status host.runner.tick
        | .error halt => state.1 = task ∧ Strays task host.world halt := by
  unfold attach
  simp only [leads_bind, leads_node, leads_onHost, Host.leads_jobPoll faultless,
    Host.leads_jobStatus faultless]
  cases found : host.runner.job? task.name with
  | none => exact ⟨trivial, trivial, .unknown (.inl rfl) found⟩
  | some job =>
      dsimp only
      split
      · exact ⟨rfl, _, rfl, job, rfl, rfl⟩
      · next overrun =>
          exact ⟨trivial, trivial, .overrun fun fits => overrun (fits.statusFits found _)⟩

theorem leads_require (faultless : host.script.faults = []) :
    (require : Step Unit).Leads (task, host) fun answer state =>
      Host.Stays host state.2 ∧ Required task host.world answer state.1 state.2.world := by
  unfold require
  rw [leads_bind, leads_node]
  dsimp only
  cases resolved : task.resolved with
  | true => exact ⟨.refl host, .found (.known resolved)⟩
  | false =>
      simp only [Bool.false_eq_true, ↓reduceIte, leads_bind, leads_onHost, Host.leads_attempt,
        Host.leads_resolve faultless]
      split
      · next member =>
          rw [leads_discard]
          refine (leads_attach faultless).mono ?_
          rintro answer ⟨task', host'⟩ ⟨same, attached⟩
          cases same
          cases answer with
          | ok =>
              obtain ⟨oldBuild, same, job, found, -⟩ := attached
              cases same
              exact ⟨.refl _, .found (.listed resolved member found oldBuild)⟩
          | error halt =>
              obtain ⟨same, strays⟩ := attached
              cases same
              exact ⟨.refl _, .strays (.refl _) strays⟩
      · next unlisted =>
          cases found : host.runner.job? task.name with
          -- A job that is known is looked up on the runner before it is attached.
          | some job =>
              have stays : Host.Stays host ((host.lookedUp task.name).keep task.name) :=
                (Host.stays_lookedUp host _).trans (Host.stays_keep _ _)
              rw [if_pos (by rw [Runner.lookup_found found]), leads_discard]
              refine (leads_attach (stays.faultless faultless)).mono ?_
              rintro answer ⟨task', host'⟩ ⟨same, attached⟩
              cases same
              cases answer with
              | ok =>
                  obtain ⟨oldBuild, same, -⟩ := attached
                  cases same
                  exact ⟨stays, .found (.looked resolved unlisted found oldBuild)⟩
              | error halt =>
                  obtain ⟨same, strays⟩ := attached
                  replace same : task' = task := same
                  subst same
                  exact ⟨stays, .strays ⟨Runner.grows_lookup _ _, Runner.tick_lookup _ _⟩ strays⟩
          | none =>
              rw [if_neg (by rw [(Runner.lookup_missing found).1]; exact Bool.noConfusion)]
              exact ⟨Host.stays_lookedUp host _, .missing resolved unlisted found⟩

/-- How starting an attempt ends. -/
inductive Started (now : Instant) (task : Task) (world : World) :
    Except Halt Unit → Task → World → Prop
  | begun {begun : Task} {after : World} (begins : Begun now task world begun after) :
      Started now task world (.ok ()) begun after
  | strays {after : World} {halt : Halt} (grows : world.Grows after)
      (strays : Strays (task.begun now) after halt) :
      Started now task world (.error halt) (task.begun now) after

theorem stays_announce (standing : Standing) (kind shown : String) (host : Host)
    {post : Except Halt Unit → Host → Prop}
    (led : ∀ after, Host.Stays host after → after.world = host.world → post (.ok ()) after) :
    (standing.announce kind shown).Leads host post := by
  unfold Standing.announce
  cases standing.message with
  | none => exact led _ (Host.stays_after host rfl) rfl
  | some message =>
      exact led _ ((Host.stays_log host .info message _).trans (Host.stays_after _ rfl)) rfl

theorem leads_startBuild (conduct : Host.Conduct) (fit : conduct.fit host) (now : Instant)
    (uninvoked : task.standing.isInvoked = false)
    (free : task.isUnchecked → ∃ job, host.runner.job? task.name = some job ∧
      (job.progress host.runner.tick).isIdle) :
    (startBuild sweep : Step Unit).Leads (task.begun now, host) fun answer state =>
      conduct.goes host state.2 ∧ Started now task host.world answer state.1 state.2.world := by
  unfold startBuild
  rw [leads_bind, leads_node]
  dsimp only
  rw [leads_bind, leads_onHost]
  refine stays_announce _ _ _ host fun announced stays same => ?_
  have runner : announced.runner = host.runner := congrArg World.runner same
  have resolved : announced.roster.resolved = host.roster.resolved := congrArg World.resolved same
  have requested : Host.Stays host (announced.after
      (.invoke task.name ((task.begun now).request sweep.settings))) :=
    stays.trans (Host.stays_after announced rfl)
  dsimp only
  rw [leads_bind, leads_onHost]
  -- The request meets no job, a status that cannot be told, or a new build.
  refine Host.leads_invoke conduct (conduct.fits fit stays) _ _ ?_ ?_ ?_
  · intro missing
    exact ⟨conduct.stays requested, .strays (same ▸ .refl _) (.unknown (.inl rfl) missing)⟩
  · intro job found overrun
    refine ⟨conduct.stays requested, .strays (same ▸ .refl _) (.overrun fun fits => ?_)⟩
    exact overrun (fits.flowStatusFits found _)
  · intro ref next after invoked goes world
    rw [runner] at invoked
    have started : Started now task host.world (.ok ()) { task.begun now with build := some ref }
        after.world := by
      rw [world, resolved]
      exact .begun (.starts uninvoked free invoked)
    have goes := conduct.trans (conduct.stays stays) goes
    dsimp only
    rw [leads_bind, leads_host]
    dsimp only
    cases after.consoleUrl? ref with
    | none => exact ⟨goes, started⟩
    | some url => exact ⟨conduct.trans goes (conduct.stays (Host.stays_after after rfl)), started⟩

theorem leads_invoke (conduct : Host.Conduct) (fit : conduct.fit host) (now : Instant)
    (uninvoked : task.standing.isInvoked = false) :
    (invoke sweep : Step Unit).Leads (task.begun now, host) fun answer state =>
      conduct.goes host state.2 ∧ Started now task host.world answer state.1 state.2.world := by
  unfold invoke
  rw [leads_bind, leads_node]
  dsimp only
  have same : (task.begun now).isUnchecked = task.isUnchecked := rfl
  rw [same]
  -- Only an unchecked invocation asks first whether the job is busy.
  cases unchecked : task.isUnchecked with
  | false => exact leads_startBuild conduct fit now uninvoked (by simp [unchecked])
  | true =>
      rw [if_pos rfl, leads_bind, leads_onHost, Host.leads_jobStatus (conduct.faultless fit)]
      cases found : host.runner.job? task.name with
      | none =>
          have found : host.runner.job? (task.begun now).name = none := found
          rw [found]
          exact ⟨conduct.refl _, .strays (.refl _) (.unknown (.inl rfl) found)⟩
      | some job =>
          have found' : host.runner.job? (task.begun now).name = some job := found
          rw [found']
          dsimp only
          split
          · cases idle : (job.status host.runner.tick).progress.isIdle with
            | true => exact leads_startBuild conduct fit now uninvoked fun _ => ⟨job, found, idle⟩
            | false =>
                exact ⟨conduct.stays (Host.stays_after host rfl),
                  .begun (.joins uninvoked unchecked found idle)⟩
          · next overrun =>
              exact ⟨conduct.refl _,
                .strays (.refl _) (.overrun fun fits => overrun (fits.statusFits found _))⟩

theorem leads_observe (faultless : host.script.faults = []) :
    (observe : Step (BuildResult × Progress)).Leads (task, host) fun answer state =>
      state = (task, host) ∧
        match answer with
        | .ok (result, progress) => Observed task host.world result progress
        | .error halt => Unread task host.world halt := by
  unfold observe
  rw [leads_bind, leads_node]
  dsimp only
  -- Without a build of its own the invocation goes by the job as a whole.
  cases followed : task.build with
  | none =>
      dsimp only
      rw [leads_bind, leads_onHost, Host.leads_jobStatus faultless]
      cases found : host.runner.job? task.name with
      | none => exact ⟨rfl, .strays (.unknown (.inl rfl) found)⟩
      | some job =>
          dsimp only
          split
          · exact ⟨rfl, .job followed found⟩
          · next overrun =>
              exact ⟨rfl, .strays (.overrun fun fits => overrun (fits.statusFits found _))⟩
  | some ref =>
      dsimp only
      rw [leads_onHost, Host.leads_status faultless]
      cases found : host.runner.job? ref.job with
      | none => exact ⟨rfl, .strays (.unknown (.inr ⟨ref, followed, rfl⟩) found)⟩
      | some job =>
          dsimp only
          cases held : job.builds[ref.index]? with
          | none => exact ⟨rfl, .lost followed found held⟩
          | some build =>
              dsimp only
              split
              · exact ⟨rfl, .build followed found held⟩
              · next overrun =>
                  refine ⟨rfl, .strays (.overrun fun fits => overrun ?_)⟩
                  exact Runner.endFits_statusFits (fits job (Runner.mem_of_job? found) build
                    (List.mem_of_getElem? held)) _

theorem leads_setStanding (f : Standing → Standing) (state : Task × Host)
    (post : Except Halt Unit → Task × Host → Prop) :
    (setStanding f : Step Unit).Leads state post ↔
      post (.ok ()) ({ state.1 with standing := f state.1.standing }, state.2) := Iff.rfl

theorem leads_conclude (result : BuildResult) :
    (conclude sweep result : Step Unit).Leads (task, host) fun answer state =>
      Host.Stays host state.2 ∧ state.2.world = host.world ∧ answer = task.ending result ∧
        state.1 = task.ended result := by
  unfold conclude
  simp only [leads_bind, leads_setStanding, leads_node, leads_log, leads_host]
  split
  · next failure =>
      exact ⟨(Host.stays_after host rfl).trans (Host.stays_after _ rfl), rfl,
        (if_pos failure).symm, rfl⟩
  · next fine =>
      exact ⟨(Host.stays_after host rfl).trans (Host.stays_after _ rfl), rfl,
        (if_neg fine).symm, rfl⟩

/-- An attempt begins, unless a kill was requested. -/
theorem leads_checkpoint (post : Except Halt Unit → Task × Host → Prop) :
    (checkpoint : Step Unit).Leads (task, host) post ↔
      match host.kill.checkpoint with
      | some reason => post (.error (.error (.killed reason))) (task, host)
      | none => post (.ok ()) (task, host) := by
  unfold checkpoint
  rw [leads_bind, leads_host]
  dsimp only
  cases host.kill.checkpoint <;> exact Iff.rfl

/-- Follows an attempt that has begun. -/
def track (sweep : Sweep) (report : Bool) : Step Unit := do
  let task ← node
  onHost (Host.jobPoll task.name)
  let (result, progress) ← observe
  if !progress.isIdle || result = .unknown then
    if report then
      log .info (task.statusLine progress task.oldBuild)
        (task.jobField ++ [("progress", .text progress.name)])
    else pure ()
  else conclude sweep result

theorem check_eq (sweep : Sweep) (report : Bool) :
    (check sweep report : Step Unit) = (do
      require
      if (← node).standing.isInvoked then track sweep report
      else
        checkpoint
        setStanding fun standing => { standing with invokedAt := sweep.now }
        invoke sweep
        track sweep report) := by
  unfold check track
  congr 1

theorem leads_track (faultless : host.script.faults = []) (report : Bool) :
    (track sweep report : Step Unit).Leads (task, host) fun answer state =>
      Host.Stays host state.2 ∧ state.2.world = host.world ∧
        ((∃ halt, answer = .error halt ∧ state.1 = task ∧ Unread task host.world halt) ∨
          ∃ result progress, Observed task host.world result progress ∧
            ((progress.isIdle = false ∨ result = .unknown) ∧ answer = .ok () ∧ state.1 = task ∨
              progress.isIdle = true ∧ result ≠ .unknown ∧ answer = task.ending result ∧
                state.1 = task.ended result)) := by
  unfold track
  rw [leads_bind, leads_node]
  dsimp only
  rw [leads_bind, leads_onHost, Host.leads_jobPoll faultless]
  dsimp only
  rw [leads_bind]
  refine (leads_observe faultless).mono ?_
  -- Looking leaves the invocation and the host as they were.
  rintro answer ⟨task', host'⟩ ⟨same, observed⟩
  cases same
  cases answer with
  | error halt => exact ⟨.refl _, rfl, .inl ⟨halt, rfl, rfl, observed⟩⟩
  | ok seen =>
      obtain ⟨result, progress⟩ := seen
      dsimp only at observed ⊢
      split
      · next open' =>
          have waits : progress.isIdle = false ∨ result = .unknown := by simpa using open'
          split
          · exact ⟨Host.stays_after _ rfl, rfl, .inr ⟨result, progress, observed, .inl ⟨waits, rfl, rfl⟩⟩⟩
          · exact ⟨.refl _, rfl, .inr ⟨result, progress, observed, .inl ⟨waits, rfl, rfl⟩⟩⟩
      · next past =>
          have idle : progress.isIdle = true ∧ result ≠ .unknown := by simpa using past
          refine (leads_conclude result).mono ?_
          rintro answer ⟨task', host'⟩ ⟨stays, same, ending, ended⟩
          exact ⟨stays, same, .inr ⟨result, progress, observed, .inr ⟨idle.1, idle.2, ending, ended⟩⟩⟩

/-- A kill was requested before the attempt began. -/
structure Interrupted (task : Task) (world : World) (answer : Except Halt Unit) (found : Task)
    (there : World) : Prop where
  finds : Found task world found there
  uninvoked : found.standing.isInvoked = false
  killed : ∃ reason, answer = .error (.error (.killed reason))

/-- Once an attempt has begun, following it is a step of the whole. -/
theorem leads_track_begun (conduct : Host.Conduct) {found started : Task} {there : World}
    (finds : Found task host.world found there) {after : Host} (fit : conduct.fit after)
    (begins : Begun sweep.now found there started after.world) (report : Bool) :
    (track sweep report : Step Unit).Leads (started, after) fun answer state =>
      conduct.goes after state.2 ∧
        Follows sweep.now task host.world answer state.1 state.2.world := by
  refine (leads_track (conduct.faultless fit) report).mono ?_
  rintro answer ⟨task', last⟩ ⟨further, unchanged, tracked⟩
  refine ⟨conduct.stays further, ?_⟩
  dsimp only at unchanged tracked ⊢
  rw [unchanged]
  rcases tracked with ⟨halt, rfl, rfl, unread⟩ | ⟨result, progress, observes, seen⟩
  · cases unread with
    | strays strays =>
        exact .strays (finds.attempted.trans begins.attempted)
          (finds.grows.trans begins.grows) (begins.followed finds) strays
    | lost followed listed lost => exact .lost finds begins followed listed lost
  · rcases seen with ⟨waits, rfl, rfl⟩ | ⟨idle, known, rfl, rfl⟩
    · exact .waits finds begins observes waits
    · exact .ends finds begins observes idle known

theorem leads_checkWith (conduct : Host.Conduct) (task : Task) (sweep : Sweep)
    (fit : conduct.fit host) (report : Bool) :
    (check sweep report : Step Unit).Leads (task, host) fun answer state =>
      conduct.goes host state.2 ∧
        (Follows sweep.now task host.world answer state.1 state.2.world ∨
          Interrupted task host.world answer state.1 state.2.world ∧
            ∃ at', conduct.fit at' ∧ at'.kill.checkpoint.isSome) := by
  rw [check_eq, leads_bind]
  refine (leads_require (conduct.faultless fit)).mono ?_
  rintro answer ⟨found, there⟩ ⟨stays, required⟩
  have fit' := conduct.fits fit stays
  have goes := conduct.stays stays
  dsimp only at stays required ⊢
  generalize same : there.world = world at required
  cases required with
  | missing unresolved unlisted missing => exact ⟨goes, .inl (.missing unresolved unlisted missing)⟩
  | strays grows strays =>
      exact ⟨goes, .inl (.strays (.refl task) grows (fun _ followed => .inl followed) strays)⟩
  | found finds =>
      -- From here on the job is known; it is followed on once its attempt has begun.
      have going : ∀ {started : Task} {host' : Host}, conduct.goes there host' →
          Begun sweep.now found world started host'.world →
          Leads (track sweep report) (started, host') fun answer state =>
            conduct.goes host state.2 ∧
              (Follows sweep.now task host.world answer state.1 state.2.world ∨
                Interrupted task host.world answer state.1 state.2.world ∧
                  ∃ at', conduct.fit at' ∧ at'.kill.checkpoint.isSome) := by
        intro started host' onward begins
        refine (leads_track_begun conduct finds (conduct.kept fit' onward) begins report).mono ?_
        rintro answer state ⟨further, follows⟩
        exact ⟨conduct.trans (conduct.trans goes onward) further, .inl follows⟩
      rw [leads_bind, leads_node]
      dsimp only
      cases invoked : found.standing.isInvoked with
      | true => exact going (conduct.refl _) (same ▸ .going invoked)
      | false =>
          rw [if_neg Bool.false_ne_true, leads_bind, leads_checkpoint]
          cases asked : there.kill.checkpoint with
          | some reason =>
              refine ⟨goes, .inr ⟨⟨same ▸ finds, invoked, reason, rfl⟩, there, fit', ?_⟩⟩
              rw [asked]
              rfl
          | none =>
              dsimp only
              rw [leads_bind, leads_setStanding]
              dsimp only
              rw [leads_bind]
              refine (leads_invoke conduct fit' sweep.now invoked).mono ?_
              rintro answer ⟨started, host'⟩ ⟨onward, begins⟩
              dsimp only at onward begins
              rw [same] at begins
              generalize same' : host'.world = after at begins
              cases begins with
              | begun begins => exact going onward (same' ▸ begins)
              | strays grows strays =>
                  refine ⟨conduct.trans goes onward, .inl ?_⟩
                  exact .strays (finds.attempted.trans (attempted_begun found sweep.now))
                    (finds.grows.trans grows) (fun _ followed => .inl (finds.build ▸ followed))
                    strays

/-- Where nobody asks for a kill, nothing is interrupted. -/
theorem leads_check (task : Task) (sweep : Sweep) (quiet : host.Quiet) (report : Bool) :
    (check sweep report : Step Unit).Leads (task, host) fun answer state =>
      Host.Stays host state.2 ∧
        Follows sweep.now task host.world answer state.1 state.2.world := by
  refine (leads_checkWith .quiet task sweep quiet report).mono ?_
  rintro answer state ⟨stays, follows | ⟨-, there, quiet, asked⟩⟩
  · exact ⟨stays, follows⟩
  · simp [KillSwitch.checkpoint, Host.Quiet.unrequested quiet] at asked

end

/-! ## Stopping -/

/-- What is left of a step of stopping once the builds of the job were stopped. -/
def quit (dequeue : Bool) (kind : KillKind) : Step Unit := do
  let task ← node
  if task.standing.isFinished then pure ()
  else if !task.resolved then finish
  else if kind = .all then awaitIdle
  else
    match task.build, task.standing.isInvoked with
    | some ref, true => stopBuild ref dequeue
    | _, _ => finish

theorem kill_eq (dequeue : Bool) :
    (kill dequeue : Step Unit) = (do
      let kind := (← host).kill.kind
      if kind = .all then
        stopAll
        quit dequeue kind
      else quit dequeue kind) := by
  unfold kill quit
  rfl

end Task

end BuildFlow
