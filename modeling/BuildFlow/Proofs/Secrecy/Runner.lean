import BuildFlow.Proofs.Runner
/-!
What a runner is without the requests of its builds. A request is kept with the
job only to be looked at afterwards: no answer of a runner depends on it, except
that a build takes its description from it.
-/
namespace BuildFlow

namespace Table

section

variable {κ α β : Type} [LT κ] [DecidableLT κ] [DecidableEq κ]

omit [DecidableLT κ] [DecidableEq κ] in
theorem ext_entries {table other : Table κ α} (same : table.entries = other.entries) :
    table = other := by
  cases table
  cases other
  cases same
  rfl

omit [DecidableLT κ] in
theorem get?_mapValues (f : κ → α → β) (table : Table κ α) (key : κ) :
    (table.mapValues f).get? key = (table.get? key).map (f key) := by
  obtain ⟨entries, sorted⟩ := table
  change (entries.map fun entry => (entry.1, f entry.1 entry.2)).lookup key = _
  change _ = (entries.lookup key).map (f key)
  clear sorted
  induction entries with
  | nil => rfl
  | cons entry rest ih =>
      rw [List.map_cons, lookup_cons_eq, lookup_cons_eq, ih]
      split
      · next here => rw [here, Option.map_some]
      · rfl

omit [DecidableLT κ] [DecidableEq κ] in
theorem values_mapValues (f : α → β) (table : Table κ α) :
    (table.mapValues fun _ => f).values = table.values.map f := by
  simp [values, mapValues, Function.comp_def]

omit [DecidableLT κ] in
theorem mapValues_erase (f : κ → α → β) (table : Table κ α) (key : κ) :
    (table.erase key).mapValues f = (table.mapValues f).erase key := by
  apply ext_entries
  simp [erase, mapValues, List.filter_map, Function.comp_def]

theorem mapValues_insert [LE κ] [Std.LawfulOrderLT κ] [Std.IsLinearOrder κ] (f : κ → α → β)
    (table : Table κ α) (key : κ) (value : α) :
    (table.insert key value).mapValues f = (table.mapValues f).insert key (f key value) := by
  apply ext_entries
  obtain ⟨entries, sorted⟩ := table
  change (put key value entries).map _ = put key _ (entries.map _)
  clear sorted
  induction entries with
  | nil => rfl
  | cons entry rest ih =>
      simp only [put, List.map_cons, ← ih]
      split
      · rfl
      · split <;> rfl

end

end Table

/-! ## Jobs -/

namespace Job

/-- The job without the requests of its builds. -/
def bare (job : Job) : Job := { job with requests := [] }

theorem bare_invoke {job other : Job} (alike : job.bare = other.bare) (tick : Nat)
    {request request' : InvokeRequest} (same : request.description = request'.description) :
    (job.invoke tick request).bare = (other.invoke tick request').bare := by
  have next : (other.supersede tick).nextBuild tick request =
      (other.supersede tick).nextBuild tick request' := by
    unfold nextBuild
    rw [same]
  obtain ⟨plan, present, builds, requests, stopCalls, stopAllCalls, lookups⟩ := job
  obtain ⟨plan', present', builds', requests', stopCalls', stopAllCalls', lookups'⟩ := other
  cases alike
  unfold invoke bare
  dsimp only
  rw [← next]
  rfl

end Job

/-! ## Runners -/

namespace Runner

/-- The runner without the requests of its builds. -/
def bare (runner : Runner) : Runner :=
  { runner with jobs := runner.jobs.mapValues fun _ => Job.bare }

variable (runner : Runner) (name : String)

theorem job?_bare : runner.bare.job? name = (runner.job? name).map Job.bare := by
  unfold job? bare
  rw [Table.get?_mapValues, Option.filter_map]
  rfl

theorem bare_setJob (job : Job) :
    (runner.setJob name job).bare = runner.bare.setJob name job.bare := by
  unfold setJob bare
  rw [Table.mapValues_insert]

theorem bare_add (plan : JobPlan) : (runner.add plan).bare = runner.bare.add plan :=
  bare_setJob runner plan.name (.ofPlan plan)

theorem bare_create : (runner.create name).bare = runner.bare.create name := by
  unfold create
  dsimp only
  rw [bare_setJob]
  unfold bare
  rw [Table.get?_mapValues]
  cases runner.jobs.get? name <;> rfl

theorem delete?_bare : runner.bare.delete? name = (runner.delete? name).map bare := by
  unfold delete?
  rw [job?_bare]
  cases runner.job? name with
  | none => rfl
  | some job =>
      unfold bare
      simp only [Option.map_some, Table.mapValues_erase]

theorem lookup_bare :
    runner.bare.lookup name = ((runner.lookup name).1, (runner.lookup name).2.bare) := by
  unfold lookup
  rw [job?_bare]
  cases runner.job? name with
  | none => rfl
  | some job =>
      simp only [Option.map_some, bare_setJob]
      rfl

theorem createdJobs_bare : runner.bare.createdJobs = runner.createdJobs := by
  unfold createdJobs bare
  rw [Table.values_mapValues, List.filterMap_map]
  rfl

theorem endsFit_bare : runner.bare.endsFit = runner.endsFit := by
  unfold endsFit bare
  rw [Table.values_mapValues, List.all_map]
  rfl

theorem bare_createAll (names : List String) :
    (names.foldl create runner).bare = names.foldl create runner.bare := by
  induction names generalizing runner with
  | nil => rfl
  | cons name rest ih => rw [List.foldl_cons, List.foldl_cons, ih, bare_create]

theorem advance_bare : runner.bare.advance = (runner.advance.1.bare, runner.advance.2) := by
  let next : Runner := { runner with tick := runner.tick + 1 }
  have all : next.bare.createdJobs.foldl create next.bare =
      (next.createdJobs.foldl create next).bare := by
    rw [createdJobs_bare, bare_createAll]
  unfold advance
  dsimp only
  rw [show ({ runner.bare with tick := runner.bare.tick + 1 } : Runner) = next.bare from rfl, all]
  rfl

theorem tick_of_bare {runner other : Runner} (alike : runner.bare = other.bare) :
    runner.tick = other.tick :=
  (congrArg Runner.tick alike :)

theorem job?_of_bare {runner other : Runner} (alike : runner.bare = other.bare) (name : String) :
    (runner.job? name).map Job.bare = (other.job? name).map Job.bare := by
  rw [← job?_bare, ← job?_bare, alike]

theorem bare_setJob_of_bare {runner other : Runner} (alike : runner.bare = other.bare)
    (name : String) {job job' : Job} (same : job.bare = job'.bare) :
    (runner.setJob name job).bare = (other.setJob name job').bare := by
  rw [bare_setJob, bare_setJob, alike, same]

theorem invoke?_of_bare {runner other : Runner} (alike : runner.bare = other.bare) (name : String)
    {request request' : InvokeRequest} (same : request.description = request'.description) :
    (runner.invoke? name request).map (Prod.map id bare) =
      (other.invoke? name request').map (Prod.map id bare) := by
  have jobs := job?_of_bare alike name
  have tick := tick_of_bare alike
  unfold invoke?
  cases found : runner.job? name with
  | none =>
      rw [found, Option.map_none, eq_comm, Option.map_eq_none_iff] at jobs
      rw [jobs]
      rfl
  | some job =>
      rw [found, Option.map_some, eq_comm, Option.map_eq_some_iff] at jobs
      obtain ⟨job', found', same'⟩ := jobs
      have builds : job'.builds = job.builds := (congrArg Job.builds same' :)
      have next := bare_setJob_of_bare alike name (Job.bare_invoke same'.symm runner.tick same)
      rw [found', ← tick]
      simp only [Option.map_some, Prod.map_apply, id, Option.some.injEq, Prod.mk.injEq]
      refine ⟨?_, ?_⟩
      · unfold Job.nextBuild
        rw [builds]
      · exact (congrArg (fun runner : Runner => { runner with order := runner.order ++ [name] }) next :)

end Runner

end BuildFlow
