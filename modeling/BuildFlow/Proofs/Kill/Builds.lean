import BuildFlow.Proofs.Kill.Ties
/-!
What stopping builds does to a job table. A build that is still queued or running
may be ended early, with a result that counts for nothing; everything else stays.
-/
namespace BuildFlow

/-! ## Builds -/

namespace Build

/-- The build may have been stopped. -/
def Halts (tick : Nat) (before after : Build) : Prop :=
  after = before ∨ ∃ dequeue, after = before.stop tick dequeue

variable {tick : Nat} {build next : Build}

/-- A stop has no effect, or the build was active and now has been ended early. -/
theorem stop_cases (build : Build) (tick : Nat) (dequeue : Bool) :
    build.stop tick dequeue = build ∨ (build.progress tick).isIdle = false ∧
      (build.stop tick dequeue = build.force .dequeued tick ∨
        build.stop tick dequeue = build.force .aborted tick) := by
  unfold stop
  split
  · next queued =>
      rw [queued]
      split
      · exact .inr ⟨rfl, .inl rfl⟩
      · exact .inl rfl
  · next running => exact .inr ⟨by rw [running]; rfl, .inr rfl⟩
  · exact .inl rfl

theorem stop_of_idle (idle : (build.progress tick).isIdle) (dequeue : Bool) :
    build.stop tick dequeue = build := by
  rcases build.stop_cases tick dequeue with same | ⟨busy, -⟩
  · exact same
  · cases idle.symm.trans busy

theorem stop_idle {dequeue : Bool} (asked : build.progress tick = .queued → dequeue) :
    ((build.stop tick dequeue).progress tick).isIdle := by
  unfold stop
  split
  · next queued =>
      rw [if_pos (asked queued)]
      rfl
  · rfl
  · next idle => rw [idle]; rfl

theorem grows_force (busy : (build.progress tick).isIdle = false) {result : BuildResult}
    (known : result ≠ .unknown) : Grows tick tick build (build.force result tick) where
  number := rfl
  ends := rfl
  starts := rfl
  known planned := ⟨planned.1, fun _ _ forced => by cases forced; exact known⟩
  idle result' idle := by
    have progress : build.progress tick = .idle := congrArg Prod.snd idle
    rw [progress] at busy
    cases busy

theorem Halts.grows (halts : Halts tick build next) : Grows tick tick build next := by
  rcases halts with rfl | ⟨dequeue, rfl⟩
  · exact .later _ (Nat.le_refl tick)
  · rcases build.stop_cases tick dequeue with same | ⟨busy, same | same⟩ <;> rw [same]
    · exact .later _ (Nat.le_refl tick)
    · exact grows_force busy BuildResult.noConfusion
    · exact grows_force busy BuildResult.noConfusion

theorem Halts.fits (halts : Halts tick build next) (fits : build.endFits) : next.endFits := by
  rcases halts with rfl | ⟨dequeue, rfl⟩
  · exact fits
  · rcases build.stop_cases tick dequeue with same | ⟨-, same | same⟩ <;> rw [same]
    · exact fits
    · rfl
    · rfl

theorem Halts.trans {last : Build} (left : Halts tick build next) (right : Halts tick next last) :
    Halts tick build last := by
  rcases left with rfl | ⟨dequeue, rfl⟩
  · exact right
  rcases build.stop_cases tick dequeue with same | ⟨-, ended⟩
  · exact same ▸ right
  · -- The build has ended, so another stop has no effect.
    have idle : ((build.stop tick dequeue).progress tick).isIdle := by
      rcases ended with same | same <;> rw [same] <;> rfl
    rcases right with rfl | ⟨again, rfl⟩
    · exact .inr ⟨dequeue, rfl⟩
    · exact .inr ⟨dequeue, stop_of_idle idle again⟩

/-- Stopping a build does not make it succeed. -/
theorem Halts.fine (halts : Halts tick build next) (fine : (next.result tick).IsFine) :
    (build.result tick).IsFine := by
  rcases halts with rfl | ⟨dequeue, rfl⟩
  · exact fine
  · rcases build.stop_cases tick dequeue with same | ⟨-, same | same⟩ <;> rw [same] at fine
    · exact fine
    · rcases fine with fine | fine | fine <;> cases fine
    · rcases fine with fine | fine | fine <;> cases fine

end Build

/-! ## Jobs -/

namespace Job

/-- Some builds of the job may have been stopped. -/
structure Halts (tick : Nat) (before after : Job) : Prop where
  plan : after.plan = before.plan
  present : after.present = before.present
  builds : ∀ index : Nat,
    Option.Rel (Build.Halts tick) before.builds[index]? after.builds[index]?

variable {tick : Nat} {job next : Job}

theorem Halts.of_builds {builds : List Build} {stopCalls stopAllCalls : Nat}
    (halts : ∀ index : Nat, Option.Rel (Build.Halts tick) job.builds[index]? builds[index]?) :
    Halts tick job { job with builds, stopCalls, stopAllCalls } :=
  ⟨rfl, rfl, halts⟩

theorem rel_refl (build? : Option Build) : Option.Rel (Build.Halts tick) build? build? := by
  cases build? with
  | none => exact .none
  | some build => exact .some (.inl rfl)

theorem Halts.refl (job : Job) : Halts tick job job := ⟨rfl, rfl, fun _ => rel_refl _⟩

theorem Halts.trans {last : Job} (left : Halts tick job next) (right : Halts tick next last) :
    Halts tick job last where
  plan := right.plan.trans left.plan
  present := right.present.trans left.present
  builds index := by
    have first := left.builds index
    have second := right.builds index
    generalize job.builds[index]? = one, next.builds[index]? = two, last.builds[index]? = three
      at first second
    cases first with
    | none => cases second; exact .none
    | some halts => cases second with | some halts' => exact .some (halts.trans halts')

/-- Each build after is one that was there before. -/
theorem Halts.held (halts : Halts tick job next) {index : Nat} {build : Build}
    (held : next.builds[index]? = some build) :
    ∃ old, job.builds[index]? = some old ∧ Build.Halts tick old build := by
  have here := halts.builds index
  rw [held] at here
  generalize job.builds[index]? = old? at here
  cases here with
  | some halts => exact ⟨_, rfl, halts⟩

theorem Halts.holds (halts : Halts tick job next) {index : Nat} {build : Build}
    (held : job.builds[index]? = some build) :
    ∃ later, next.builds[index]? = some later ∧ Build.Halts tick build later := by
  have here := halts.builds index
  rw [held] at here
  generalize next.builds[index]? = next? at here
  cases here with
  | some halts => exact ⟨_, rfl, halts⟩

theorem Halts.grows (halts : Halts tick job next) : Grows tick tick job next where
  plan := halts.plan
  present present := halts.present.trans present
  builds index build held := by
    obtain ⟨later, held, halts⟩ := halts.holds held
    exact ⟨later, held, halts.grows⟩

theorem Halts.numbers (halts : Halts tick job next) :
    next.builds.map Build.number = job.builds.map Build.number := by
  refine List.ext_getElem? fun index => ?_
  rw [List.getElem?_map, List.getElem?_map]
  have here := halts.builds index
  generalize job.builds[index]? = one, next.builds[index]? = two at here
  cases here with
  | none => rfl
  | some halts => exact congrArg some halts.grows.number

theorem Halts.fits (halts : Halts tick job next) (fits : ∀ build ∈ job.builds, build.endFits) :
    ∀ build ∈ next.builds, build.endFits := by
  intro build member
  obtain ⟨index, held⟩ := List.getElem?_of_mem member
  obtain ⟨old, held, halts⟩ := halts.held held
  exact halts.fits (fits old (List.mem_of_getElem? held))

/-- Stopping builds of a job does not make its latest one succeed. -/
theorem Halts.fine (halts : Halts tick job next) (fine : (next.status tick).result.IsFine) :
    (job.status tick).result.IsFine := by
  have length : next.builds.length = job.builds.length := by
    simpa using congrArg List.length halts.numbers
  have last := halts.builds (job.builds.length - 1)
  unfold status at fine ⊢
  dsimp only at fine ⊢
  rw [List.getLast?_eq_getElem?, length] at fine
  rw [List.getLast?_eq_getElem?]
  generalize job.builds[job.builds.length - 1]? = one,
    next.builds[job.builds.length - 1]? = two at last fine ⊢
  cases last with
  | none => exact fine
  | some halts => exact halts.fine fine

theorem halts_stopAll (job : Job) (tick : Nat) : Halts tick job (job.stopAll tick) := by
  refine .of_builds fun index => ?_
  rw [List.getElem?_map]
  cases job.builds[index]? with
  | none => exact .none
  | some build => exact .some (.inr ⟨true, rfl⟩)

theorem halts_set {index : Nat} {build : Build} (held : job.builds[index]? = some build)
    (dequeue : Bool) (stopCalls : Nat) :
    Halts tick job
      { job with stopCalls, builds := job.builds.set index (build.stop tick dequeue) } := by
  refine .of_builds fun other => ?_
  by_cases same : index = other
  · subst same
    rw [List.getElem?_set_self (List.getElem?_eq_some_iff.mp held).1, held]
    exact .some (.inr ⟨dequeue, rfl⟩)
  · rw [List.getElem?_set_ne same]
    exact rel_refl _

theorem idle_iff : (job.progress tick).isIdle ↔
    ∀ build ∈ job.builds, (build.progress tick).isIdle := by
  have busy {progress : Progress} (other : progress ≠ .idle)
      (some' : job.builds.any fun build => build.progress tick = progress) :
      ¬ ∀ build ∈ job.builds, (build.progress tick).isIdle := by
    obtain ⟨build, member, same⟩ := List.any_eq_true.mp some'
    intro all
    have idle := Progress.eq_idle (all build member)
    exact other ((of_decide_eq_true same).symm.trans idle)
  unfold progress
  split
  · next running => exact iff_of_false Bool.false_ne_true (busy Progress.noConfusion running)
  split
  · next queued => exact iff_of_false Bool.false_ne_true (busy Progress.noConfusion queued)
  · next unstarted ended =>
      refine iff_of_true rfl fun build member => ?_
      have here : ∀ progress, ¬ (job.builds.any fun build => build.progress tick = progress) →
          build.progress tick ≠ progress := fun progress none same =>
        none (List.any_eq_true.mpr ⟨build, member, decide_eq_true same⟩)
      cases progress : build.progress tick with
      | idle => rfl
      | running => exact absurd progress (here _ unstarted)
      | queued => exact absurd progress (here _ ended)

/-- No build of the job is active any more. -/
theorem stopAll_idle (job : Job) (tick : Nat) : ((job.stopAll tick).progress tick).isIdle := by
  refine idle_iff.mpr fun build member => ?_
  obtain ⟨old, -, rfl⟩ := List.mem_map.mp member
  exact Build.stop_idle fun _ => rfl

theorem Halts.idle (halts : Halts tick job next) (idle : (job.progress tick).isIdle) :
    (next.progress tick).isIdle := by
  refine idle_iff.mpr fun build member => ?_
  obtain ⟨index, held⟩ := List.getElem?_of_mem member
  obtain ⟨old, held, halts⟩ := halts.held held
  have ended := idle_iff.mp idle old (List.mem_of_getElem? held)
  have status : old.status tick = (old.result tick, .idle) :=
    Prod.ext rfl (Progress.eq_idle ended)
  have later := halts.grows.idle _ status
  rw [Build.progress, later]
  rfl

end Job

/-! ## The job table -/

namespace Runner

/-- Some builds may have been stopped. -/
structure Halts (before after : Runner) : Prop where
  tick : after.tick = before.tick
  jobs : ∀ name, Option.Rel (Job.Halts before.tick) (before.jobs.get? name) (after.jobs.get? name)

variable {runner before after : Runner}

theorem Halts.refl (runner : Runner) : Halts runner runner := by
  refine ⟨rfl, fun name => ?_⟩
  cases runner.jobs.get? name with
  | none => exact .none
  | some job => exact .some (.refl job)

theorem Halts.trans {last : Runner} (left : Halts before after) (right : Halts after last) :
    Halts before last := by
  refine ⟨right.tick.trans left.tick, fun name => ?_⟩
  have first := left.jobs name
  have second := right.jobs name
  rw [left.tick] at second
  generalize before.jobs.get? name = one, after.jobs.get? name = two,
    last.jobs.get? name = three at first second
  cases first with
  | none => cases second; exact .none
  | some halts => cases second with | some halts' => exact .some (halts.trans halts')

theorem Halts.listed (halts : Halts before after) {name : String} {next : Job}
    (listed : after.jobs.get? name = some next) :
    ∃ job, before.jobs.get? name = some job ∧ Job.Halts before.tick job next := by
  have here := halts.jobs name
  rw [listed] at here
  generalize before.jobs.get? name = job? at here
  cases here with
  | some halts => exact ⟨_, rfl, halts⟩

theorem Halts.lists (halts : Halts before after) {name : String} {job : Job}
    (listed : before.jobs.get? name = some job) :
    ∃ next, after.jobs.get? name = some next ∧ Job.Halts before.tick job next := by
  have here := halts.jobs name
  rw [listed] at here
  generalize after.jobs.get? name = next? at here
  cases here with
  | some halts => exact ⟨_, rfl, halts⟩

theorem Halts.grows (halts : Halts before after) : before.Grows after where
  tick := Nat.le_of_eq halts.tick.symm
  jobs name job listed := by
    obtain ⟨next, listed, halts'⟩ := halts.lists listed
    exact ⟨next, listed, halts.tick ▸ halts'.grows⟩

theorem Halts.fits (halts : Halts before after) (fits : before.Fits) : after.Fits := by
  rw [fits_iff] at fits ⊢
  intro name next listed
  obtain ⟨job, listed, halts⟩ := halts.listed listed
  exact halts.fits (fits name job listed)

theorem Halts.numbered (halts : Halts before after) (numbered : before.Numbered) :
    after.Numbered := by
  intro name next listed
  obtain ⟨job, listed, halts⟩ := halts.listed listed
  unfold Job.Numbered
  rw [halts.numbers]
  exact numbered name job listed

theorem halts_setJob {name : String} {job next : Job} (listed : runner.jobs.get? name = some job)
    (halts : Job.Halts runner.tick job next) : Halts runner (runner.setJob name next) := by
  refine ⟨rfl, fun other => ?_⟩
  rw [get?_setJob]
  by_cases same : other = name
  · rw [if_pos same, same, listed]
    exact .some halts
  · rw [if_neg same]
    cases runner.jobs.get? other with
    | none => exact .none
    | some job => exact .some (.refl job)

theorem halts_stopBuild {ref : BuildRef} {job : Job} {build : Build}
    (found : runner.job? ref.job = some job) (held : job.builds[ref.index]? = some build)
    (dequeue : Bool) : Halts runner (runner.stopBuild ref job build dequeue) :=
  halts_setJob (job?_eq_some.mp found).1 (Job.halts_set held dequeue _)

/-! ### Jobs at rest -/

/-- No build of the job is queued or running. -/
def Silent (runner : Runner) (name : String) : Prop :=
  ∀ build ∈ runner.buildsOf name, (build.progress runner.tick).isIdle

theorem silent_iff {name : String} {job : Job} (listed : runner.jobs.get? name = some job) :
    runner.Silent name ↔ (job.progress runner.tick).isIdle := by
  rw [Silent, buildsOf_of_get? listed, Job.idle_iff]

theorem silent_missing {name : String} (missing : runner.jobs.get? name = none) :
    runner.Silent name := by
  intro build member
  rw [buildsOf, missing] at member
  cases member

theorem Halts.silent (halts : Halts before after) {name : String} (silent : before.Silent name) :
    after.Silent name := by
  cases listed : after.jobs.get? name with
  | none => exact silent_missing listed
  | some next =>
      obtain ⟨job, listed', halts'⟩ := halts.listed listed
      rw [silent_iff listed, halts.tick]
      exact halts'.idle ((silent_iff listed').mp silent)

theorem Rests.silent (rests : Rests before after) {name : String} (silent : before.Silent name) :
    after.Silent name := by
  intro build member
  rw [rests.builds] at member
  have status : build.status before.tick = (build.result before.tick, .idle) :=
    Prod.ext rfl (Progress.eq_idle (silent build member))
  have later := (Build.Grows.later build rests.grows.tick).idle _ status
  rw [Build.progress, later]
  rfl

end Runner

end BuildFlow
