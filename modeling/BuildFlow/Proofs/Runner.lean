import BuildFlow.Runner.Table
/-!
How a job table changes while a run works against it. Builds are only added,
and a build that has ended keeps its result, so what a run once read of an
ended build stays true for the rest of the run.
-/
namespace BuildFlow

namespace Table

variable {κ α : Type} [LT κ] [DecidableLT κ] [DecidableEq κ]

omit [LT κ] [DecidableLT κ] in
theorem lookup_cons_eq (entry : κ × α) (rest : List (κ × α)) (key : κ) :
    (entry :: rest).lookup key = if key = entry.1 then some entry.2 else rest.lookup key := by
  rw [List.lookup_cons]
  by_cases same : key = entry.1
  · simp [same]
  · simp [beq_false_of_ne same, same]

theorem lookup_put (key other : κ) (value : α) (entries : List (κ × α)) :
    (put key value entries).lookup other =
      if other = key then some value else entries.lookup other := by
  induction entries with
  | nil => simp [put, lookup_cons_eq]
  | cons entry rest ih =>
      simp only [put]
      split
      · exact lookup_cons_eq (key, value) (entry :: rest) other
      · split
        · next replaced =>
            subst replaced
            simp only [lookup_cons_eq]
            split <;> rfl
        · next different =>
            simp only [lookup_cons_eq, ih]
            split
            · next here => rw [here, if_neg (Ne.symm different)]
            · rfl

theorem get?_insert [LE κ] [Std.LawfulOrderLT κ] [Std.IsLinearOrder κ]
    (table : Table κ α) (key other : κ) (value : α) :
    (table.insert key value).get? other =
      if other = key then some value else table.get? other :=
  lookup_put key other value table.entries

omit [DecidableLT κ] in
theorem get?_erase (table : Table κ α) (key other : κ) :
    (table.erase key).get? other = if other = key then none else table.get? other := by
  obtain ⟨entries, sorted⟩ := table
  change (entries.filter fun entry => entry.1 ≠ key).lookup other =
    if other = key then none else entries.lookup other
  clear sorted
  induction entries with
  | nil => simp
  | cons entry rest ih =>
      by_cases erased : entry.1 = key
      · rw [List.filter_cons_of_neg (by simpa using erased), lookup_cons_eq, ih, erased]
        split <;> rfl
      · rw [List.filter_cons_of_pos (by simpa using erased), lookup_cons_eq, lookup_cons_eq, ih]
        split
        · next here => rw [if_neg (here ▸ erased)]
        · rfl

omit [LT κ] [DecidableLT κ] in
theorem mem_of_lookup {entries : List (κ × α)} {key : κ} {value : α}
    (found : entries.lookup key = some value) : (key, value) ∈ entries := by
  obtain ⟨front, behind, rfl, -⟩ := List.lookup_eq_some_iff.mp found
  exact List.mem_append_right front List.mem_cons_self

omit [DecidableLT κ] in
theorem mem_values_of_get? (table : Table κ α) {key : κ} {value : α}
    (found : table.get? key = some value) : value ∈ table.values :=
  List.mem_map.mpr ⟨(key, value), mem_of_lookup found, rfl⟩

omit [DecidableLT κ] in
theorem get?_of_mem_values [LE κ] [Std.LawfulOrderLT κ] [Std.IsLinearOrder κ]
    (table : Table κ α) {value : α} (member : value ∈ table.values) :
    ∃ key, table.get? key = some value := by
  obtain ⟨entries, sorted⟩ := table
  change value ∈ entries.map (·.2) at member
  change ∃ key, entries.lookup key = some value
  induction entries with
  | nil => cases member
  | cons entry rest ih =>
      obtain ⟨smallest, sorted⟩ := List.pairwise_cons.mp sorted
      rcases List.mem_cons.mp member with same | later
      · exact ⟨entry.1, by rw [lookup_cons_eq, if_pos rfl, same]⟩
      · obtain ⟨key, found⟩ := ih sorted later
        refine ⟨key, ?_⟩
        rw [lookup_cons_eq, if_neg ?_]
        · exact found
        · -- The keys of the rest are larger.
          rintro rfl
          exact Std.lt_irrefl (smallest (entry.1, value) (mem_of_lookup found))

end Table

/-! ## Builds -/

namespace Build

/-- Whatever the build ends with is a result. -/
def Known (build : Build) : Prop :=
  build.planned ≠ .unknown ∧ ∀ result tick, build.forced = some (result, tick) → result ≠ .unknown

theorem status_known {build : Build} {tick : Nat} {result : BuildResult} (known : build.Known)
    (idle : build.status tick = (result, .idle)) : result ≠ .unknown := by
  unfold status at idle
  split at idle
  · next forced _ forcedBy =>
      cases idle
      exact known.2 _ _ forcedBy
  · split at idle
    · cases idle
    · split at idle
      · cases idle
      · cases idle
        exact known.1

/-- A build goes on for a while: it ends when it would have, or was ended, and
once it has ended its result stays. -/
structure Grows (tick later : Nat) (before after : Build) : Prop where
  number : after.number = before.number
  ends : after.endTick = before.endTick
  starts : after.startTick = before.startTick
  known : before.Known → after.Known
  idle : ∀ result, before.status tick = (result, .idle) → after.status later = (result, .idle)

theorem Grows.later {tick later : Nat} (build : Build) (order : tick ≤ later) :
    Grows tick later build build where
  number := rfl
  ends := rfl
  starts := rfl
  known := id
  idle result idle := by
    have starts : build.startTick ≤ build.endTick := Nat.le_add_right _ _
    unfold status at idle ⊢
    split at idle
    · next forcedBy => simpa only [forcedBy] using idle
    · next forcedBy =>
        split at idle
        · cases idle
        · split at idle
          · cases idle
          · next past =>
              rw [if_neg (by omega), if_neg (by omega)]
              exact idle

theorem Grows.trans {first second third : Nat} {before middle after : Build}
    (left : Grows first second before middle) (right : Grows second third middle after) :
    Grows first third before after where
  number := right.number.trans left.number
  ends := right.ends.trans left.ends
  starts := right.starts.trans left.starts
  known := right.known ∘ left.known
  idle result idle := right.idle result (left.idle result idle)

/-- Only a build that is still queued is superseded. -/
theorem grows_supersede (build : Build) (tick : Nat) :
    Grows tick tick build
      (if build.byFlow && build.progress tick = .queued then build.force .superseded tick
      else build) := by
  split
  · next queued =>
      simp only [Bool.and_eq_true, decide_eq_true_eq] at queued
      refine ⟨rfl, rfl, rfl, fun known => ⟨known.1, ?_⟩, ?_⟩
      · intro result at' forced
        cases forced
        decide
      · intro result idle
        have progress : build.progress tick = .idle := congrArg Prod.snd idle
        rw [queued.2] at progress
        cases progress
  · exact .later build (Nat.le_refl tick)

end Build

/-! ## Jobs -/

namespace Job

/-- Every build that the job has or will have ends with a result. -/
structure Known (job : Job) : Prop where
  builds : ∀ build ∈ job.builds, build.Known
  fails : 0 < job.plan.maxFails → job.plan.failResult ≠ .unknown
  final : job.plan.finalResult ≠ .unknown

/-- A job goes on for a while: it gets more builds and keeps those that it has. -/
structure Grows (tick later : Nat) (before after : Job) : Prop where
  plan : after.plan = before.plan
  present : before.present → after.present
  builds : ∀ (index : Nat) (build : Build), before.builds[index]? = some build →
    ∃ next, after.builds[index]? = some next ∧ Build.Grows tick later build next

theorem Grows.later {tick later : Nat} (job : Job) (order : tick ≤ later) :
    Grows tick later job job where
  plan := rfl
  present := id
  builds _ build found := ⟨build, found, .later build order⟩

theorem Grows.trans {first second third : Nat} {before middle after : Job}
    (left : Grows first second before middle) (right : Grows second third middle after) :
    Grows first third before after where
  plan := right.plan.trans left.plan
  present := right.present ∘ left.present
  builds index build found := by
    obtain ⟨next, found, grows⟩ := left.builds index build found
    obtain ⟨last, found, grows'⟩ := right.builds index next found
    exact ⟨last, found, grows.trans grows'⟩

theorem grows_invoke (job : Job) (tick : Nat) (request : InvokeRequest) :
    Grows tick tick job (job.invoke tick request) where
  plan := rfl
  present := id
  builds index build found := by
    have inside : index < job.builds.length := (List.getElem?_eq_some_iff.mp found).1
    simp only [invoke, supersede]
    rw [List.getElem?_append_left (by simpa using inside), List.getElem?_map, found]
    exact ⟨_, rfl, Build.grows_supersede build tick⟩

/-- Builds that have ended are not superseded. -/
theorem supersede_idle {builds : List Build} {tick : Nat}
    (idle : ∀ build ∈ builds, build.progress tick = .idle) :
    builds.map (fun build => if build.byFlow && build.progress tick = .queued then
      build.force .superseded tick else build) = builds := by
  refine (List.map_congr_left fun build member => ?_).trans (List.map_id' _)
  apply if_neg
  simp [idle build member]

theorem numbers_supersede (job : Job) (tick : Nat) :
    (job.supersede tick).builds.map Build.number = job.builds.map Build.number := by
  rw [supersede, List.map_map]
  refine List.map_congr_left fun build _ => ?_
  exact (Build.grows_supersede build tick).number

/-- Superseding earlier builds does not change how the next one is numbered. -/
theorem number_nextBuild_supersede (job : Job) (tick : Nat) (request : InvokeRequest) :
    ((job.supersede tick).nextBuild tick request).number =
      (job.nextBuild tick request).number := by
  have numbers := congrArg List.getLast? (numbers_supersede job tick)
  rw [List.getLast?_map, List.getLast?_map] at numbers
  have next (last? : Option Build) : (last?.map fun build => build.number + 1) =
      (last?.map Build.number).map (· + 1) := by rw [Option.map_map]; rfl
  unfold nextBuild
  dsimp only
  rw [next, next, numbers]

theorem known_supersede {job : Job} (known : job.Known) (tick : Nat) :
    (job.supersede tick).Known where
  fails := known.fails
  final := known.final
  builds build member := by
    obtain ⟨old, member, same⟩ := List.mem_map.mp member
    exact same ▸ (Build.grows_supersede old tick).known (known.builds old member)

theorem nextResult_known {job : Job} (known : job.Known) : job.nextResult ≠ .unknown := by
  unfold nextResult
  split
  · exact known.fails (by omega)
  · exact known.final

theorem known_invoke {job : Job} (known : job.Known) (tick : Nat) (request : InvokeRequest) :
    (job.invoke tick request).Known where
  fails := known.fails
  final := known.final
  builds build member := by
    have superseded := known_supersede known tick
    rcases List.mem_append.mp member with old | new
    · exact superseded.builds build old
    · rw [List.mem_singleton.mp new]
      exact ⟨nextResult_known superseded, fun result at' forced => by cases forced⟩

end Job

/-! ## The job table -/

namespace Runner

/-- The builds that a job has, none if it does not exist. -/
def buildsOf (runner : Runner) (name : String) : List Build :=
  ((runner.jobs.get? name).map Job.builds).getD []

/-- The build that a handle stands for, if its job exists. -/
def build? (runner : Runner) (ref : BuildRef) : Option Build :=
  (runner.job? ref.job).bind fun job => job.builds[ref.index]?

/-- What the runner says of a build now. -/
def report? (runner : Runner) (ref : BuildRef) : Option (BuildResult × Progress) :=
  (runner.build? ref).map fun build => build.status runner.tick

/-- Every job in the table with its name, also one that does not exist yet. -/
def Every (p : String → Job → Prop) (runner : Runner) : Prop :=
  ∀ name job, runner.jobs.get? name = some job → p name job

/-- The table goes on for a while. -/
structure Grows (before after : Runner) : Prop where
  tick : before.tick ≤ after.tick
  jobs : ∀ name job, before.jobs.get? name = some job →
    ∃ next, after.jobs.get? name = some next ∧ Job.Grows before.tick after.tick job next

theorem Grows.refl (runner : Runner) : Grows runner runner where
  tick := Nat.le_refl _
  jobs _ job found := ⟨job, found, .later job (Nat.le_refl _)⟩

theorem Grows.trans {before middle after : Runner} (left : Grows before middle)
    (right : Grows middle after) : Grows before after where
  tick := Nat.le_trans left.tick right.tick
  jobs name job found := by
    obtain ⟨next, found, grows⟩ := left.jobs name job found
    obtain ⟨last, found, grows'⟩ := right.jobs name next found
    exact ⟨last, found, grows.trans grows'⟩

theorem job?_eq_some {runner : Runner} {name : String} {job : Job} :
    runner.job? name = some job ↔ runner.jobs.get? name = some job ∧ job.present := by
  simp [job?, Option.filter_eq_some_iff]

theorem Grows.job? {before after : Runner} (grows : Grows before after) {name : String} {job : Job}
    (found : before.job? name = some job) :
    ∃ next, after.job? name = some next ∧ Job.Grows before.tick after.tick job next := by
  obtain ⟨listed, present⟩ := job?_eq_some.mp found
  obtain ⟨next, found, grows⟩ := grows.jobs name job listed
  exact ⟨next, job?_eq_some.mpr ⟨found, grows.present present⟩, grows⟩

theorem mem_of_job? {runner : Runner} {name : String} {job : Job}
    (found : runner.job? name = some job) : job ∈ runner.jobs.values :=
  Table.mem_values_of_get? _ (job?_eq_some.mp found).1

theorem buildsOf_of_get? {runner : Runner} {name : String} {job : Job}
    (listed : runner.jobs.get? name = some job) : runner.buildsOf name = job.builds := by
  simp [buildsOf, listed]

theorem buildsOf_of_job? {runner : Runner} {name : String} {job : Job}
    (found : runner.job? name = some job) : runner.buildsOf name = job.builds :=
  buildsOf_of_get? (job?_eq_some.mp found).1

theorem Grows.build? {before after : Runner} (grows : Grows before after) {ref : BuildRef}
    {build : Build} (found : before.build? ref = some build) :
    ∃ next, after.build? ref = some next ∧ Build.Grows before.tick after.tick build next := by
  obtain ⟨job, listed, held⟩ := Option.bind_eq_some_iff.mp found
  obtain ⟨next, listed', grows⟩ := grows.job? listed
  obtain ⟨later, held', grows⟩ := grows.builds ref.index build held
  exact ⟨later, Option.bind_eq_some_iff.mpr ⟨next, listed', held'⟩, grows⟩

/-- What was reported of a build that has ended is reported again. -/
theorem Grows.report? {before after : Runner} (grows : Grows before after) {ref : BuildRef}
    {result : BuildResult} (reported : before.report? ref = some (result, .idle)) :
    after.report? ref = some (result, .idle) := by
  obtain ⟨build, found, status⟩ := Option.map_eq_some_iff.mp reported
  obtain ⟨next, found', grows⟩ := grows.build? found
  exact Option.map_eq_some_iff.mpr ⟨next, found', grows.idle result status⟩

theorem Grows.length {before after : Runner} (grows : before.Grows after) (name : String) :
    (before.buildsOf name).length ≤ (after.buildsOf name).length := by
  unfold buildsOf
  cases listed : before.jobs.get? name with
  | none => exact Nat.zero_le _
  | some job =>
      obtain ⟨next, listed', grown⟩ := grows.jobs name job listed
      rw [listed']
      refine Nat.le_of_not_lt fun fewer => ?_
      -- The last build that was there before would be lost.
      obtain ⟨_, held, -⟩ := grown.builds next.builds.length job.builds[next.builds.length]
        (List.getElem?_eq_getElem fewer)
      rw [List.getElem?_eq_none (Nat.le_refl _)] at held
      cases held

/-! ### One entry changes -/

theorem get?_setJob (runner : Runner) (name other : String) (job : Job) :
    (runner.setJob name job).jobs.get? other =
      if other = name then some job else runner.jobs.get? other :=
  Table.get?_insert runner.jobs name other job

theorem grows_setJob {runner : Runner} {name : String} {job : Job}
    (grows : ∀ old, runner.jobs.get? name = some old → Job.Grows runner.tick runner.tick old job) :
    Grows runner (runner.setJob name job) where
  tick := Nat.le_refl _
  jobs other old listed := by
    rw [get?_setJob]
    split
    · next same => exact ⟨job, rfl, grows old (same ▸ listed)⟩
    · exact ⟨old, listed, .later old (Nat.le_refl _)⟩

theorem every_setJob {p : String → Job → Prop} {runner : Runner} {name : String} {job : Job}
    (every : runner.Every p) (holds : p name job) : (runner.setJob name job).Every p := by
  intro other next listed
  rw [get?_setJob] at listed
  split at listed
  · next same => exact Option.some.inj listed ▸ same ▸ holds
  · exact every other next listed

theorem buildsOf_setJob (runner : Runner) (name other : String) (job : Job) :
    (runner.setJob name job).buildsOf other =
      if other = name then job.builds else runner.buildsOf other := by
  unfold buildsOf
  rw [get?_setJob]
  split <;> rfl

/-! ### Look-ups -/

theorem lookup_found {runner : Runner} {name : String} {job : Job}
    (found : runner.job? name = some job) :
    runner.lookup name = (true, runner.setJob name { job with lookups := job.lookups + 1 }) := by
  simp [lookup, found]

theorem lookup_missing {runner : Runner} {name : String} (missing : runner.job? name = none) :
    (runner.lookup name).1 = false ∧ (runner.lookup name).2.jobs = runner.jobs ∧
      (runner.lookup name).2.tick = runner.tick ∧ (runner.lookup name).2.hooks = runner.hooks := by
  simp [lookup, missing]

theorem job?_missing {runner : Runner} {name : String} (missing : runner.job? name = none)
    (other : String) : (runner.lookup name).2.job? other = runner.job? other := by
  unfold job?
  rw [(lookup_missing missing).2.1]

theorem jobs_lookup (runner : Runner) (name other : String) :
    (runner.lookup name).2.jobs.get? other =
      ((runner.jobs.get? other).map fun job =>
        if other = name ∧ job.present then { job with lookups := job.lookups + 1 } else job) := by
  cases found : runner.job? name with
  | some job =>
      obtain ⟨listed, present⟩ := job?_eq_some.mp found
      rw [lookup_found found, get?_setJob]
      by_cases same : other = name
      · subst same
        simp [listed, present]
      · simp [same]
  | none =>
      rw [(lookup_missing found).2.1]
      cases listed : runner.jobs.get? other with
      | none => rfl
      | some job =>
          by_cases same : other = name ∧ job.present
          · have exists' := job?_eq_some.mpr ⟨same.1 ▸ listed, same.2⟩
            rw [found] at exists'
            cases exists'
          · simp [same]

/-- Looking a job up does not make one exist. -/
theorem found_lookup (runner : Runner) (name other : String) :
    ((runner.lookup name).2.job? other).isSome = (runner.job? other).isSome := by
  unfold job?
  rw [jobs_lookup]
  cases runner.jobs.get? other with
  | none => rfl
  | some job => by_cases same : other = name ∧ job.present <;> simp [same, Option.isSome_filter]

theorem buildsOf_lookup (runner : Runner) (name other : String) :
    (runner.lookup name).2.buildsOf other = runner.buildsOf other := by
  unfold buildsOf
  rw [jobs_lookup, Option.map_map]
  congr 2
  funext job
  by_cases same : other = name ∧ job.present <;> simp [same]

@[simp] theorem tick_lookup (runner : Runner) (name : String) :
    (runner.lookup name).2.tick = runner.tick := by
  unfold lookup
  split <;> rfl

@[simp] theorem hooks_lookup (runner : Runner) (name : String) :
    (runner.lookup name).2.hooks = runner.hooks := by
  unfold lookup
  split <;> rfl

theorem grows_lookup (runner : Runner) (name : String) :
    Grows runner (runner.lookup name).2 where
  tick := Nat.le_of_eq (tick_lookup runner name).symm
  jobs other job listed := by
    rw [jobs_lookup, listed, tick_lookup]
    refine ⟨_, rfl, ?_⟩
    dsimp only
    split
    · exact ⟨rfl, id, (Job.Grows.later job (Nat.le_refl _)).builds⟩
    · exact .later job (Nat.le_refl _)

/-! ### A tick passes -/

theorem get?_create (runner : Runner) (name other : String) :
    (runner.create name).jobs.get? other =
      if other = name then
        some { (runner.jobs.get? name).getD (.ofPlan { name }) with present := true }
      else runner.jobs.get? other :=
  get?_setJob runner name other _

theorem buildsOf_create (runner : Runner) (name other : String) :
    (runner.create name).buildsOf other = runner.buildsOf other := by
  unfold buildsOf
  rw [get?_create]
  split
  · next same =>
      subst same
      cases runner.jobs.get? other <;> rfl
  · rfl

theorem grows_create (runner : Runner) (name : String) : Grows runner (runner.create name) :=
  grows_setJob fun old listed => by
    rw [listed]
    exact ⟨rfl, fun _ => rfl, (Job.Grows.later old (Nat.le_refl _)).builds⟩

/-- Creating jobs keeps what holds of a table. -/
theorem createAll_induction {p : Runner → Prop} (step : ∀ runner name, p runner → p (runner.create name))
    (names : List String) {runner : Runner} (holds : p runner) : p (names.foldl create runner) := by
  induction names generalizing runner with
  | nil => exact holds
  | cons name rest ih => exact ih (step runner name holds)

theorem buildsOf_createAll (names : List String) (runner : Runner) (other : String) :
    (names.foldl create runner).buildsOf other = runner.buildsOf other :=
  createAll_induction (fun middle name same => (buildsOf_create middle name other).trans same)
    names rfl

theorem grows_createAll (names : List String) (runner : Runner) :
    Grows runner (names.foldl create runner) :=
  createAll_induction (fun middle name grows => grows.trans (grows_create middle name))
    names (.refl runner)

theorem tick_createAll (names : List String) (runner : Runner) :
    (names.foldl create runner).tick = runner.tick :=
  createAll_induction (p := fun after => after.tick = runner.tick) (fun _ _ same => same) names rfl

theorem hooks_createAll (names : List String) (runner : Runner) :
    (names.foldl create runner).hooks = runner.hooks :=
  createAll_induction (p := fun after => after.hooks = runner.hooks) (fun _ _ same => same) names
    rfl

/-- The table after a tick, when no hook waits for one. -/
def next (runner : Runner) : Runner :=
  let runner := { runner with tick := runner.tick + 1 }
  runner.createdJobs.foldl create runner

theorem advance_eq {runner : Runner} (unhooked : runner.hooks = []) :
    runner.advance = (runner.next, []) := by
  have hooks : runner.next.hooks = [] := (hooks_createAll _ _).trans unhooked
  have ended : runner.advance =
      ({ runner.next with
          hooks := (runner.next.hooks.partition fun hook => hook.tick ≤ runner.next.tick).2 },
        (runner.next.hooks.partition fun hook => hook.tick ≤ runner.next.tick).1) := rfl
  rw [ended, hooks]
  change ({ runner.next with hooks := [] }, []) = (runner.next, [])
  rw [← hooks]

@[simp] theorem tick_next (runner : Runner) : runner.next.tick = runner.tick + 1 :=
  tick_createAll _ _

@[simp] theorem hooks_next (runner : Runner) : runner.next.hooks = runner.hooks :=
  hooks_createAll _ _

@[simp] theorem buildsOf_next (runner : Runner) (name : String) :
    runner.next.buildsOf name = runner.buildsOf name :=
  buildsOf_createAll _ _ _

theorem grows_next (runner : Runner) : Grows runner runner.next := by
  have passed : Grows runner { runner with tick := runner.tick + 1 } :=
    ⟨Nat.le_succ _, fun _ job listed => ⟨job, listed, .later job (Nat.le_succ _)⟩⟩
  exact passed.trans (grows_createAll _ _)

/-! ### A build starts -/

theorem invoke?_eq_some {runner after : Runner} {name : String} {request : InvokeRequest}
    {ref : BuildRef} (invoked : runner.invoke? name request = some (ref, after)) :
    ∃ job, runner.job? name = some job ∧ ref.job = name ∧ ref.index = job.builds.length ∧
      after.tick = runner.tick ∧ after.hooks = runner.hooks ∧
      after.jobs = (runner.setJob name (job.invoke runner.tick request)).jobs := by
  obtain ⟨job, found, made⟩ := Option.map_eq_some_iff.mp invoked
  cases made
  exact ⟨job, found, rfl, rfl, rfl, rfl, rfl⟩

/-- The builds of a job that has got another one. -/
theorem buildsOf_invoke {runner after : Runner} {name : String} {request : InvokeRequest}
    {ref : BuildRef} (invoked : runner.invoke? name request = some (ref, after)) {job : Job}
    (found : runner.job? name = some job) :
    ref.index = job.builds.length ∧ after.buildsOf name =
      (job.supersede runner.tick).builds ++ [(job.supersede runner.tick).nextBuild runner.tick request] := by
  obtain ⟨job', found', -, index, -, -, jobs⟩ := invoke?_eq_some invoked
  cases found'.symm.trans found
  have same := buildsOf_setJob runner name name (job.invoke runner.tick request)
  rw [if_pos rfl] at same
  refine ⟨index, ?_⟩
  unfold buildsOf at same ⊢
  rw [jobs]
  exact same

theorem buildsOf_invoked {runner after : Runner} {name : String} {request : InvokeRequest}
    {ref : BuildRef} (invoked : runner.invoke? name request = some (ref, after)) {other : String}
    (different : other ≠ name) : after.buildsOf other = runner.buildsOf other := by
  obtain ⟨job, -, -, -, -, -, jobs⟩ := invoke?_eq_some invoked
  unfold buildsOf
  rw [jobs, get?_setJob, if_neg different]

/-- Invoking a job adds one build to it and none to another job. -/
theorem length_invoked {runner after : Runner} {name : String} {request : InvokeRequest}
    {ref : BuildRef} (invoked : runner.invoke? name request = some (ref, after)) (other : String) :
    (after.buildsOf other).length =
      (runner.buildsOf other).length + if other = name then 1 else 0 := by
  by_cases same : other = name
  · subst same
    obtain ⟨job, found, -⟩ := invoke?_eq_some invoked
    rw [if_pos rfl, (buildsOf_invoke invoked found).2, buildsOf_of_job? found]
    simp [Job.supersede]
  · rw [if_neg same, buildsOf_invoked invoked same, Nat.add_zero]

theorem grows_invoke {runner after : Runner} {name : String} {request : InvokeRequest}
    {ref : BuildRef} (invoked : runner.invoke? name request = some (ref, after)) :
    Grows runner after := by
  obtain ⟨job, found, -, -, tick, -, jobs⟩ := invoke?_eq_some invoked
  have grows : Grows runner (runner.setJob name (job.invoke runner.tick request)) :=
    grows_setJob fun old listed => by
      rw [(job?_eq_some.mp found).1] at listed
      cases listed
      exact Job.grows_invoke job runner.tick request
  exact ⟨Nat.le_of_eq tick.symm, by rw [jobs, tick]; exact grows.jobs⟩

/-! ### What holds of every job -/

/-- What looking a job up or creating it does not change. -/
structure Lasting (p : String → Job → Prop) : Prop where
  lookups : ∀ name job count, p name job → p name { job with lookups := count }
  present : ∀ name job, p name job → p name { job with present := true }
  plain : ∀ name, p name (.ofPlan { name })

theorem every_lookup {p : String → Job → Prop} (lasting : Lasting p) {runner : Runner} (name : String)
    (every : runner.Every p) : (runner.lookup name).2.Every p := by
  intro other job listed
  rw [jobs_lookup] at listed
  obtain ⟨old, found, same⟩ := Option.map_eq_some_iff.mp listed
  subst same
  split
  · exact lasting.lookups other old _ (every other old found)
  · exact every other old found

theorem every_next {p : String → Job → Prop} (lasting : Lasting p) {runner : Runner}
    (every : runner.Every p) : runner.next.Every p := by
  refine createAll_induction (p := fun runner => runner.Every p) ?_ _ every
  intro runner name every
  refine every_setJob every (lasting.present _ _ ?_)
  cases listed : runner.jobs.get? name with
  | none => exact lasting.plain name
  | some job => exact every name job listed

theorem every_invoke {p : String → Job → Prop} {runner after : Runner} {name : String}
    {request : InvokeRequest} {ref : BuildRef}
    (invoked : runner.invoke? name request = some (ref, after)) (every : runner.Every p)
    (starts : ∀ job, p name job → p name (job.invoke runner.tick request)) : after.Every p := by
  obtain ⟨job, found, -, -, -, -, jobs⟩ := invoke?_eq_some invoked
  unfold Every
  rw [jobs]
  exact every_setJob every (starts job (every name job (job?_eq_some.mp found).1))

/-- All builds end with a result. -/
def Known (runner : Runner) : Prop := runner.Every fun _ job => job.Known

/-- All builds of some jobs end with a result. -/
def KnownOf (names : List String) (name : String) (job : Job) : Prop := name ∈ names → job.Known

theorem known_lasting (names : List String) : Lasting (KnownOf names) where
  lookups _ _ _ known member := ⟨(known member).builds, (known member).fails, (known member).final⟩
  present _ _ known member := ⟨(known member).builds, (known member).fails, (known member).final⟩
  plain _ _ := ⟨fun _ member => (List.not_mem_nil member).elim,
    fun fails => absurd fails (Nat.lt_irrefl 0), BuildResult.noConfusion⟩

/-- The ends of all builds can be told. -/
def Fits (runner : Runner) : Prop :=
  ∀ job ∈ runner.jobs.values, ∀ build ∈ job.builds, build.endFits

/-- The ends of all builds can be told if those of the builds of every job can. -/
theorem fits_iff {runner : Runner} :
    runner.Fits ↔ runner.Every fun _ job => ∀ build ∈ job.builds, build.endFits := by
  constructor
  · exact fun fits name job listed => fits job (Table.mem_values_of_get? _ listed)
  · intro every job member
    obtain ⟨name, listed⟩ := Table.get?_of_mem_values _ member
    exact every name job listed

theorem fits_lasting : Lasting fun _ job => ∀ build ∈ job.builds, build.endFits where
  lookups _ _ _ fits := fits
  present _ _ fits := fits
  plain _ _ member := (List.not_mem_nil member).elim

theorem endFits_statusFits {build : Build} (fits : build.endFits) (tick : Nat) :
    build.statusFits tick := by
  unfold Build.endFits at fits
  unfold Build.statusFits
  grind

theorem Fits.statusFits {runner : Runner} (fits : runner.Fits) {name : String} {job : Job}
    (found : runner.job? name = some job) (tick : Nat) : job.statusFits tick :=
  List.all_eq_true.mpr fun build member =>
    endFits_statusFits (fits job (mem_of_job? found) build member) tick

theorem Fits.flowStatusFits {runner : Runner} (fits : runner.Fits) {name : String} {job : Job}
    (found : runner.job? name = some job) (tick : Nat) : job.flowStatusFits tick :=
  List.all_eq_true.mpr fun build member =>
    endFits_statusFits
      (fits job (mem_of_job? found) build (List.mem_filter.mp member).1) tick

theorem Fits.endsFit {runner : Runner} (fits : runner.Fits) : runner.endsFit :=
  List.all_eq_true.mpr fun job member => List.all_eq_true.mpr fun build taken =>
    fits job member build
      (List.mem_filter.mp ((List.takeWhile_sublist _).subset taken)).1

end Runner

end BuildFlow
