import BuildFlow.Proofs.Kill.Builds
/-!
One step of stopping an invocation. All builds of its job are stopped if the kill
asks for that, once for each name; else the build that is followed is stopped. An
invocation that has nothing to wait for is finished at once.
-/
namespace BuildFlow

/-- What a pass that stops builds works against. -/
structure Scene where
  runner : Runner
  /-- The jobs whose builds were all stopped. -/
  stopped : List String
  /-- The stops on record, newest first. -/
  stops : List Event

namespace Host

open Act

def scene (host : Host) : Scene :=
  ⟨host.runner, host.roster.stopped, host.trace.filter Event.isStop⟩

/-- What stopping builds leaves as it is. -/
structure Spares (before after : Host) : Prop where
  kill : after.kill = before.kill
  script : after.script = before.script

theorem Spares.refl (host : Host) : Spares host host := ⟨rfl, rfl⟩

theorem Spares.trans {before middle after : Host} (left : Spares before middle)
    (right : Spares middle after) : Spares before after :=
  ⟨right.kill.trans left.kill, right.script.trans left.script⟩

theorem scene_after (host : Host) {event : Event} (mute : event.isStop = false) :
    (host.after event).scene = host.scene := by
  have stops := (stays_after host mute).stops
  unfold scene
  rw [stops]
  rfl

variable {host : Host}

theorem leads_stopAll (faultless : host.script.faults = []) {name : String} {job : Job}
    (found : host.runner.job? name = some job) (fits : host.runner.Fits)
    (post : Except Halt Unit → Host → Prop) :
    (stopAll name).Leads host post ↔
      post (.ok ()) ((host.after (.stopAll name)).withRunner
        (host.runner.setJob name (job.stopAll host.runner.tick))) := by
  have logged : (host.after (.stopAll name)).script.faults = [] := faultless
  have tellable := fits.statusFits found host.runner.tick
  unfold stopAll
  rw [leads_bind, leads_record]
  dsimp only
  rw [leads_bind, leads_meetFaults logged]
  simp only [Bool.false_eq_true, ↓reduceIte, leads_bind, leads_job, leads_get, leads_breakUnless,
    runner_after, found, tellable]
  exact Iff.rfl

theorem leads_stop (faultless : host.script.faults = []) {ref : BuildRef} {job : Job}
    {build : Build} (found : host.runner.job? ref.job = some job)
    (held : job.builds[ref.index]? = some build) (fits : host.runner.Fits) (dequeue : Bool)
    (post : Except Halt Unit → Host → Prop) :
    (stop ref dequeue).Leads host post ↔
      post (.ok ()) ((host.after (.stop (Runner.consoleUrl ref) dequeue)).withRunner
        (host.runner.stopBuild ref job build dequeue)) := by
  have logged : (host.after (.stop (Runner.consoleUrl ref) dequeue)).script.faults = [] := faultless
  have tellable := Runner.endFits_statusFits
    (fits job (Runner.mem_of_job? found) build (List.mem_of_getElem? held)) host.runner.tick
  unfold stop Host.build
  rw [leads_bind, leads_record]
  dsimp only
  rw [leads_bind, leads_meetFaults logged]
  simp only [Bool.false_eq_true, ↓reduceIte, leads_bind, leads_job, leads_pure, leads_get,
    leads_breakUnless, runner_after, found, held, tellable]
  exact Iff.rfl

end Host

namespace Task

open NodeAct Act

/-! ## All builds of the job -/

/-- All builds of the job are stopped, unless this was done before. -/
inductive Silences (task : Task) (before : Scene) : Scene → Prop
  | spares (known : task.resolved = false ∨ task.name ∈ before.stopped) :
      Silences task before before
  | stops (resolved : task.resolved) (new : task.name ∉ before.stopped) {job : Job}
      (found : before.runner.job? task.name = some job) :
      Silences task before
        { runner := before.runner.setJob task.name (job.stopAll before.runner.tick)
          stopped := before.stopped ++ [task.name]
          stops := .stopAll task.name :: before.stops }

/-- What becomes of all builds of the job: nothing, unless all are asked to stop. -/
def Hushes (all : Bool) (task : Task) (before after : Scene) : Prop :=
  if all then task.Silences before after else after = before

theorem Silences.halts {task : Task} {before after : Scene} (silences : task.Silences before after) :
    before.runner.Halts after.runner := by
  cases silences with
  | spares => exact .refl _
  | stops _ _ found =>
      exact Runner.halts_setJob (Runner.job?_eq_some.mp found).1 (Job.halts_stopAll _ _)

variable {task : Task} {host : Host}

theorem leads_stopAll (faultless : host.script.faults = [])
    (listed : task.resolved → ∃ job, host.runner.job? task.name = some job)
    (fits : host.runner.Fits) :
    (stopAll : Step Unit).Leads (task, host) fun answer state =>
      answer = .ok () ∧ state.1 = task ∧ Host.Spares host state.2 ∧
        task.Silences host.scene state.2.scene := by
  unfold stopAll
  rw [leads_bind, leads_node]
  dsimp only
  split
  · next resolved =>
      obtain ⟨job, found⟩ := listed resolved
      unfold Host.markStopped
      rw [leads_bind, leads_onHost, leads_bind, leads_get]
      dsimp only
      split
      · next known => exact ⟨rfl, rfl, .refl host, .spares (.inr known)⟩
      · next new =>
          -- The job is marked before the request is sent, so no later pass sends another.
          rw [leads_bind, leads_set]
          dsimp only
          rw [leads_pure]
          dsimp only
          rw [if_pos rfl, leads_bind, leads_log]
          dsimp only
          rw [leads_onHost, Host.leads_stopAll (by exact faultless) (by exact found)
            (by exact fits)]
          refine ⟨rfl, rfl, ⟨rfl, rfl⟩, ?_⟩
          exact .stops resolved new found
  · next unresolved =>
      exact ⟨rfl, rfl, .refl host, .spares (.inl (Bool.not_eq_true _ ▸ unresolved))⟩

/-! ## The build that is followed -/

/-- The invocation is taken for finished without a result. -/
def dropped (task : Task) : Task :=
  { task with standing := { task.standing with checking := .finished } }

/-- One step of stopping an invocation. -/
inductive Quits (all : Bool) (task : Task) (before : Scene) : Task → Scene → Prop
  | settled {after : Scene} (finished : task.standing.isFinished)
      (hushes : task.Hushes all before after) : Quits all task before task after
  | missing {after : Scene} (unfinished : task.standing.isFinished = false)
      (unresolved : task.resolved = false) (hushes : task.Hushes all before after) :
      Quits all task before task.dropped after
  | silenced {after : Scene} {job : Job} (unfinished : task.standing.isFinished = false)
      (resolved : task.resolved) (asked : all = true) (silences : task.Silences before after)
      (found : after.runner.job? task.name = some job)
      (idle : (job.progress after.runner.tick).isIdle) :
      Quits all task before (task.ended (job.status after.runner.tick).result) after
  | waits {after : Scene} {job : Job} (unfinished : task.standing.isFinished = false)
      (resolved : task.resolved) (asked : all = true) (silences : task.Silences before after)
      (found : after.runner.job? task.name = some job)
      (busy : (job.progress after.runner.tick).isIdle = false) :
      Quits all task before task after
  | unstarted (unfinished : task.standing.isFinished = false) (resolved : task.resolved)
      (own : all = false) (unstarted : task.build = none ∨ task.standing.isInvoked = false) :
      Quits all task before task.dropped before
  | ended {ref : BuildRef} {build : Build} (unfinished : task.standing.isFinished = false)
      (resolved : task.resolved) (own : all = false) (followed : task.build = some ref)
      (invoked : task.standing.isInvoked) (held : before.runner.build? ref = some build)
      (idle : (build.progress before.runner.tick).isIdle) :
      Quits all task before (task.ended (build.result before.runner.tick)) before
  | told {ref : BuildRef} {build : Build} (unfinished : task.standing.isFinished = false)
      (resolved : task.resolved) (own : all = false) (followed : task.build = some ref)
      (invoked : task.standing.isInvoked) (held : before.runner.build? ref = some build)
      (busy : (build.progress before.runner.tick).isIdle = false) (sent : task.stopSent) :
      Quits all task before task before
  | tells {ref : BuildRef} {job : Job} {build : Build}
      (unfinished : task.standing.isFinished = false) (resolved : task.resolved)
      (own : all = false) (followed : task.build = some ref) (invoked : task.standing.isInvoked)
      (found : before.runner.job? ref.job = some job)
      (held : job.builds[ref.index]? = some build)
      (busy : (build.progress before.runner.tick).isIdle = false)
      (unsent : task.stopSent = false) (dequeue : Bool)
      (asked : build.progress before.runner.tick = .queued → dequeue) :
      Quits all task before { task with stopSent := true }
        { before with
          runner := before.runner.stopBuild ref job build dequeue
          stops := .stop (Runner.consoleUrl ref) dequeue :: before.stops }

theorem leads_finish (post : Except Halt Unit → Task × Host → Prop) :
    (finish : Step Unit).Leads (task, host) post ↔ post (.ok ()) (task.dropped, host) := Iff.rfl

theorem leads_concludeKilled (result : BuildResult) :
    (concludeKilled result : Step Unit).Leads (task, host) fun answer state =>
      answer = .ok () ∧ state.1 = task.ended result ∧ Host.Spares host state.2 ∧
        state.2.scene = host.scene := by
  unfold concludeKilled
  rw [leads_bind, leads_setStanding]
  dsimp only
  rw [leads_bind, leads_node]
  dsimp only
  rw [leads_bind, leads_log]
  dsimp only
  rw [leads_log]
  exact ⟨rfl, rfl, ⟨rfl, rfl⟩, (Host.scene_after _ rfl).trans (Host.scene_after _ rfl)⟩

theorem leads_awaitIdle (faultless : host.script.faults = []) {job : Job}
    (found : host.runner.job? task.name = some job) (fits : host.runner.Fits) :
    (awaitIdle : Step Unit).Leads (task, host) fun answer state =>
      answer = .ok () ∧ Host.Spares host state.2 ∧ state.2.scene = host.scene ∧
        state.1 = if (job.progress host.runner.tick).isIdle then
          task.ended (job.status host.runner.tick).result else task := by
  unfold awaitIdle
  rw [leads_bind, leads_node]
  dsimp only
  rw [leads_bind, leads_onHost, Host.leads_jobPoll faultless]
  dsimp only
  rw [leads_bind, leads_onHost, Host.leads_jobStatus faultless, found]
  dsimp only
  rw [if_pos (fits.statusFits found _)]
  have progress : (job.status host.runner.tick).progress = job.progress host.runner.tick := rfl
  rw [progress]
  split
  · refine (leads_concludeKilled _).mono ?_
    rintro answer state ⟨rfl, ended, spares, scene⟩
    exact ⟨rfl, spares, scene, ended⟩
  · exact ⟨rfl, .refl host, rfl, rfl⟩

theorem leads_stopBuild (faultless : host.script.faults = []) (fits : host.runner.Fits)
    {ref : BuildRef} {build : Build} (unfinished : task.standing.isFinished = false)
    (resolved : task.resolved) (followed : task.build = some ref)
    (invoked : task.standing.isInvoked) (held : host.runner.build? ref = some build) :
    (stopBuild ref true : Step Unit).Leads (task, host) fun answer state =>
      answer = .ok () ∧ Host.Spares host state.2 ∧
        task.Quits false host.scene state.1 state.2.scene := by
  obtain ⟨job, found, there⟩ := Option.bind_eq_some_iff.mp held
  -- The sums of ticks fit, so neither the status nor the stop can break down.
  have tellable := Runner.endFits_statusFits
    (fits job (Runner.mem_of_job? found) build (List.mem_of_getElem? there)) host.runner.tick
  unfold stopBuild
  rw [leads_bind, leads_node]
  dsimp only
  rw [leads_bind, leads_onHost, Host.leads_status faultless, found]
  dsimp only
  rw [there]
  dsimp only
  rw [if_pos tellable]
  have status : build.status host.runner.tick =
      (build.result host.runner.tick, build.progress host.runner.tick) := rfl
  rw [status]
  dsimp only
  split
  · next idle =>
      refine (leads_concludeKilled _).mono ?_
      rintro answer ⟨task', after⟩ ⟨rfl, rfl, spares, scene⟩
      refine ⟨rfl, spares, ?_⟩
      dsimp only at scene ⊢
      rw [scene]
      exact .ended unfinished resolved rfl followed invoked held idle
  · next busy =>
      have busy := Bool.not_eq_true _ ▸ busy
      split
      · next sent =>
          exact ⟨rfl, .refl host, .told unfinished resolved rfl followed invoked held busy sent⟩
      · next unsent =>
          rw [leads_bind, leads_log]
          dsimp only
          rw [leads_bind, leads_onHost, Host.leads_stop (by exact faultless) (by exact found) there
            (by exact fits)]
          dsimp only
          rw [leads_modifyNode]
          refine ⟨rfl, ⟨rfl, rfl⟩, ?_⟩
          exact .tells unfinished resolved rfl followed invoked found there busy
            (Bool.not_eq_true _ ▸ unsent) _ fun queued => (Bool.true_and _).trans (decide_eq_true queued)

/-- All builds of the job are stopped first, also those that were started elsewhere. -/
theorem leads_kill_all {base : Runner} (faultless : host.script.faults = [])
    (fits : host.runner.Fits) (tied : task.Tied base host.runner) (all : host.kill.kind = .all) :
    (kill true : Step Unit).Leads (task, host) fun answer state =>
      answer = .ok () ∧ Host.Spares host state.2 ∧
        task.Quits true host.scene state.1 state.2.scene := by
  unfold kill
  rw [leads_bind, leads_host]
  dsimp only
  rw [if_pos all, leads_bind]
  refine (leads_stopAll faultless tied.listed fits).mono ?_
  rintro answer ⟨task', there⟩ ⟨rfl, rfl, spares, silences⟩
  dsimp only at spares silences ⊢
  rw [leads_bind, leads_node]
  dsimp only
  split
  · next finished => exact ⟨rfl, spares, .settled finished silences⟩
  next unfinished =>
  have unfinished := Bool.not_eq_true _ ▸ unfinished
  split
  · next unresolved =>
      rw [leads_finish]
      exact ⟨rfl, spares, .missing unfinished (Bool.not_eq_true' _ ▸ unresolved) silences⟩
  next resolved =>
  have resolved : task'.resolved := by simpa using resolved
  -- Stopping the builds has not taken the job away.
  obtain ⟨job, found⟩ := tied.listed resolved
  obtain ⟨next, found, -⟩ := silences.halts.grows.job? found
  refine (leads_awaitIdle (spares.script ▸ faultless) found (silences.halts.fits fits)).mono ?_
  rintro answer ⟨task', after⟩ ⟨rfl, spares', scene, awaited⟩
  refine ⟨rfl, spares.trans spares', ?_⟩
  dsimp only at scene awaited ⊢
  rw [scene, awaited]
  split
  · next idle => exact .silenced unfinished resolved rfl silences found idle
  · next busy =>
      exact .waits unfinished resolved rfl silences found (Bool.not_eq_true _ ▸ busy)

/-- Only the build that the invocation follows is stopped, if there is one. -/
theorem leads_kill_own {base : Runner} (faultless : host.script.faults = [])
    (fits : host.runner.Fits) (tied : task.Tied base host.runner) (own : host.kill.kind ≠ .all) :
    (kill true : Step Unit).Leads (task, host) fun answer state =>
      answer = .ok () ∧ Host.Spares host state.2 ∧
        task.Quits false host.scene state.1 state.2.scene := by
  unfold kill
  rw [leads_bind, leads_host]
  dsimp only
  rw [if_neg own, leads_bind, leads_node]
  dsimp only
  split
  · next finished => exact ⟨rfl, .refl host, .settled finished rfl⟩
  next unfinished =>
  have unfinished := Bool.not_eq_true _ ▸ unfinished
  split
  · next unresolved =>
      rw [leads_finish]
      exact ⟨rfl, .refl host, .missing unfinished (Bool.not_eq_true' _ ▸ unresolved) rfl⟩
  next resolved =>
  have resolved : task.resolved := by simpa using resolved
  cases followed : task.build with
  | none =>
      rw [leads_finish]
      exact ⟨rfl, .refl host, .unstarted unfinished resolved rfl (.inl followed)⟩
  | some ref =>
      cases invoked : task.standing.isInvoked with
      | false =>
          rw [leads_finish]
          exact ⟨rfl, .refl host, .unstarted unfinished resolved rfl (.inr invoked)⟩
      | true =>
          -- The build that is followed is still in the history of its job.
          obtain ⟨-, -, build, held, -⟩ := tied.held ref followed
          exact leads_stopBuild faultless fits unfinished resolved followed invoked held

/-- The step comes to its end, whatever it finds. -/
theorem leads_kill {base : Runner} (faultless : host.script.faults = []) (fits : host.runner.Fits)
    (tied : task.Tied base host.runner) :
    (kill true : Step Unit).Leads (task, host) fun answer state =>
      answer = .ok () ∧ Host.Spares host state.2 ∧
        task.Quits (host.kill.kind = .all) host.scene state.1 state.2.scene := by
  by_cases all : host.kill.kind = .all
  · rw [decide_eq_true all]
    exact leads_kill_all faultless fits tied all
  · rw [decide_eq_false all]
    exact leads_kill_own faultless fits tied all

end Task

/-! ## What steps lead to in turn -/

namespace Scene

/-- No build of a job is active once all of them were stopped. -/
def Hushed (scene : Scene) : Prop := ∀ name ∈ scene.stopped, scene.runner.Silent name

/-- A scene that follows on another while builds are stopped. -/
structure Onward (before after : Scene) : Prop where
  halts : before.runner.Halts after.runner
  stopped : before.stopped ⊆ after.stopped
  hushed : before.Hushed → after.Hushed

theorem Onward.refl (scene : Scene) : Onward scene scene :=
  ⟨.refl _, List.Subset.refl _, id⟩

theorem Onward.trans {before middle after : Scene} (left : Onward before middle)
    (right : Onward middle after) : Onward before after :=
  ⟨left.halts.trans right.halts, List.Subset.trans left.stopped right.stopped,
    right.hushed ∘ left.hushed⟩

end Scene

namespace Task

variable {all : Bool} {task next : Task} {before after : Scene}

theorem Silences.onward (silences : task.Silences before after) : before.Onward after := by
  refine ⟨silences.halts, ?_, ?_⟩
  · cases silences with
    | spares => exact List.Subset.refl _
    | stops => exact List.subset_append_left _ _
  · intro hushed name member
    cases silences with
    | spares => exact hushed name member
    | @stops resolved new job found =>
        have halts := (Silences.stops resolved new found).halts
        rcases List.mem_append.mp member with known | same
        · exact halts.silent (hushed name known)
        · rw [List.mem_singleton.mp same]
          refine (Runner.silent_iff ?_).mpr (job.stopAll_idle before.runner.tick)
          exact (Runner.get?_setJob _ _ _ _).trans (if_pos rfl)

theorem Silences.stopped (silences : task.Silences before after) (resolved : task.resolved) :
    task.name ∈ after.stopped := by
  cases silences with
  | spares known =>
      rcases known with unresolved | known
      · cases unresolved.symm.trans resolved
      · exact known
  | stops => exact List.mem_append_right _ (List.mem_singleton_self _)

theorem Hushes.onward (hushes : task.Hushes all before after) : before.Onward after := by
  unfold Hushes at hushes
  split at hushes
  · exact hushes.onward
  · exact hushes ▸ .refl _

theorem Quits.onward (quits : task.Quits all before next after) : before.Onward after := by
  cases quits with
  | settled _ hushes => exact hushes.onward
  | missing _ _ hushes => exact hushes.onward
  | silenced _ _ _ silences => exact silences.onward
  | waits _ _ _ silences => exact silences.onward
  | unstarted => exact .refl _
  | ended => exact .refl _
  | told => exact .refl _
  | tells _ _ _ _ _ found held _ _ dequeue =>
      have halts := Runner.halts_stopBuild found held dequeue
      exact ⟨halts, List.Subset.refl _, fun hushed name known => halts.silent (hushed name known)⟩

/-- What a step may change of an invocation. -/
def Stilled (task next : Task) : Prop :=
  ∃ checking result stopSent, next =
    { task with standing := { task.standing with checking, result }, stopSent }

theorem Stilled.refl (task : Task) : Stilled task task := ⟨_, _, _, rfl⟩

theorem Quits.stilled (quits : task.Quits all before next after) : task.Stilled next := by
  cases quits with
  | settled => exact .refl task
  | missing => exact ⟨_, _, _, rfl⟩
  | silenced => exact ⟨_, _, _, rfl⟩
  | waits => exact .refl task
  | unstarted => exact ⟨_, _, _, rfl⟩
  | ended => exact ⟨_, _, _, rfl⟩
  | told => exact .refl task
  | tells => exact ⟨_, _, _, rfl⟩

theorem Stilled.tied {base runner : Runner} (stilled : task.Stilled next)
    (tied : task.Tied base runner) : next.Tied base runner := by
  obtain ⟨_, _, _, rfl⟩ := stilled
  exact tied.same rfl rfl rfl

end Task

end BuildFlow
