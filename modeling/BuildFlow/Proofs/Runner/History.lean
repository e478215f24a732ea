import BuildFlow.Proofs.Lists
import BuildFlow.Proofs.Runner.Command
/-!
The builds of a job while a runner is in use. As long as the job is not replaced while it has builds,
they keep their places, there may be new ones behind them, and each goes on from the queue to its end
and stays as it ended.
-/
namespace BuildFlow

/-- How far a build has come. -/
def Progress.stage : Progress → Nat
  | .queued => 0
  | .running => 1
  | .idle => 2

/-! ## Builds -/

namespace Build

variable {tick later last : Nat} {build before middle after : Build}

/-- What was laid down when the build was started. -/
def origin (build : Build) : Build := { build with forced := none, description := "" }

/-- At one tick, the build was left as it is, described or ended early. -/
structure Alters (tick : Nat) (before after : Build) : Prop where
  origin : after.origin = before.origin
  forced : after.forced = before.forced ∨
    before.progress tick ≠ .idle ∧ ∃ result, after.forced = some (result, tick)

theorem Alters.number (alters : Alters tick before after) : after.number = before.number := by
  have number : after.origin.number = before.origin.number := congrArg Build.number alters.origin
  exact number

theorem Alters.refl (build : Build) : Alters tick build build := ⟨rfl, .inl rfl⟩

theorem alters_force (active : build.progress tick ≠ .idle) (result : BuildResult) :
    Alters tick build (build.force result tick) :=
  ⟨rfl, .inr ⟨active, result, rfl⟩⟩

theorem alters_stop (build : Build) (dequeue : Bool) :
    Alters tick build (build.stop tick dequeue) := by
  rcases build.stop_cases tick dequeue with same | ⟨busy, same | same⟩ <;> rw [same]
  · exact .refl build
  all_goals
    apply alters_force
    intro idle
    rw [idle] at busy
    cases busy

theorem alters_supersede (build : Build) :
    Alters tick build
      (if build.byFlow && build.progress tick = .queued then build.force .superseded tick
      else build) := by
  split
  · next queued =>
      simp only [Bool.and_eq_true, decide_eq_true_eq] at queued
      apply alters_force
      rw [queued.2]
      exact Progress.noConfusion
  · exact .refl build

theorem alters_change (build : Build) (call : Runner.BuildCall) :
    Alters tick build (call.change tick build) := by
  cases call with
  | status => exact .refl build
  | stop dequeue => exact alters_stop build dequeue
  | describe => exact ⟨rfl, .inl rfl⟩

/-- A build that was only described is told to be as far as before. -/
theorem status_congr (origin : after.origin = before.origin) (forced : after.forced = before.forced) :
    after.status tick = before.status tick ∧ after.finishedAt tick = before.finishedAt tick := by
  obtain ⟨_, _, _, _, _, _, _, _⟩ := before
  obtain ⟨_, _, _, _, _, _, _, _⟩ := after
  cases origin
  cases forced
  exact ⟨rfl, rfl⟩

theorem progress_eq (build : Build) (tick : Nat) :
    build.progress tick =
      if build.forced.isSome then .idle
      else if tick < build.startTick then .queued
      else if tick < build.endTick then .running
      else .idle := by
  unfold progress status
  cases build.forced with
  | some => rfl
  | none =>
      simp only [Option.isSome_none, Bool.false_eq_true, if_false]
      split
      · rfl
      · split <;> rfl

/-- A build goes on: it comes further, and once it has ended it stays as it is. -/
structure Advances (tick later : Nat) (before after : Build) : Prop where
  origin : after.origin = before.origin
  stage : (before.progress tick).stage ≤ (after.progress later).stage
  settled : before.progress tick = .idle →
    after.status later = before.status tick ∧ after.finishedAt later = before.finishedAt tick

theorem Advances.trans (left : Advances tick later before middle)
    (right : Advances later last middle after) : Advances tick last before after where
  origin := right.origin.trans left.origin
  stage := Nat.le_trans left.stage right.stage
  settled idle := by
    obtain ⟨status, finished⟩ := left.settled idle
    have idle' : middle.progress later = .idle := (congrArg Prod.snd status).trans idle
    obtain ⟨status', finished'⟩ := right.settled idle'
    exact ⟨status'.trans status, finished'.trans finished⟩

/-- Time passes for a build. -/
theorem advances_succ (build : Build) (tick : Nat) : Advances tick (tick + 1) build build where
  origin := rfl
  stage := by
    have order : build.startTick ≤ build.endTick := Nat.le_add_right _ _
    rw [progress_eq, progress_eq]
    grind [Progress.stage]
  settled idle := by
    rw [progress_eq] at idle
    unfold status finishedAt
    grind [endTick]

theorem Alters.advances (alters : Alters tick before after) : Advances tick tick before after where
  origin := alters.origin
  stage := by
    rcases alters.forced with same | ⟨-, result, forced⟩
    · exact Nat.le_of_eq (congrArg Progress.stage
        (congrArg Prod.snd (status_congr alters.origin same).1)).symm
    · have idle : after.progress tick = .idle := by
        rw [progress_eq, forced]
        rfl
      rw [idle]
      cases before.progress tick <;> decide
  settled idle := by
    rcases alters.forced with same | ⟨active, -⟩
    · exact status_congr alters.origin same
    · exact absurd idle active

/-- One command is given: a tick passes, or the build is altered. -/
def Steps (tick later : Nat) (before after : Build) : Prop :=
  later = tick + 1 ∧ after = before ∨ later = tick ∧ Alters tick before after

theorem Steps.advances (steps : Steps tick later before after) : Advances tick later before after := by
  rcases steps with ⟨rfl, rfl⟩ | ⟨rfl, alters⟩
  · exact advances_succ _ tick
  · exact alters.advances

end Build

/-! ## Jobs -/

namespace Job

/-- How the builds of a job change with one command, unless a job that has builds is replaced. -/
inductive Moves (tick : Nat) (before : List Build) : Nat → List Build → Prop
  | passes : Moves tick before (tick + 1) before
  | alters {after : List Build} (each : List.Forall₂ (Build.Alters tick) before after) :
      Moves tick before tick after
  | starts {kept : List Build} {build : Build}
      (each : List.Forall₂ (Build.Alters tick) before kept)
      (cleared : ∀ old ∈ kept, old.byFlow → old.progress tick ≠ .queued)
      (number : build.number = (kept.getLast?.map fun last => last.number + 1).getD 1)
      (started : build.byFlow) (unforced : build.forced = none) :
      Moves tick before tick (kept ++ [build])
  | founded (unused : before = []) (plan : JobPlan) :
      Moves tick before tick (ofPlan plan).builds

variable {tick later : Nat} {before after builds : List Build} {build : Build}

theorem alters_map {f : Build → Build} (alters : ∀ build, Build.Alters tick build (f build))
    (builds : List Build) : List.Forall₂ (Build.Alters tick) builds (builds.map f) :=
  List.forall₂_map_right_iff.mpr (List.forall₂_same.mpr fun build _ => alters build)

theorem alters_set {index : Nat} {next : Build} (held : builds[index]? = some build)
    (alters : Build.Alters tick build next) :
    List.Forall₂ (Build.Alters tick) builds (builds.set index next) := by
  have refl : List.Forall₂ (Build.Alters tick) builds builds :=
    List.forall₂_same.mpr fun build _ => .refl build
  obtain ⟨inside, here⟩ := List.getElem?_eq_some_iff.mp held
  have kept := forall₂_set refl index alters
  rwa [← here, List.set_getElem_self] at kept

/-- Whoever is superseded is not queued any more. -/
theorem superseded_unqueued {tick : Nat} {job : Job} {old : Build}
    (member : old ∈ (job.supersede tick).builds) (flow : old.byFlow) :
    old.progress tick ≠ .queued := by
  obtain ⟨build, -, rfl⟩ := List.mem_map.mp member
  split
  · exact Progress.noConfusion
  · next waits =>
      rw [if_neg waits] at flow
      simpa [flow] using waits

theorem Moves.same (builds : after = before) : Moves tick before tick after :=
  builds ▸ .alters (List.forall₂_same.mpr fun build _ => .refl build)

/-- Each build keeps its place. -/
theorem Moves.holds (moves : Moves tick before later after) {index : Nat}
    (held : before[index]? = some build) :
    ∃ next, after[index]? = some next ∧ Build.Steps tick later build next := by
  cases moves with
  | passes => exact ⟨build, held, .inl ⟨rfl, rfl⟩⟩
  | alters each =>
      obtain ⟨next, held', alters⟩ := forall₂_getElem? each held
      exact ⟨next, held', .inr ⟨rfl, alters⟩⟩
  | starts each =>
      obtain ⟨next, held', alters⟩ := forall₂_getElem? each held
      have inside := (List.getElem?_eq_some_iff.mp held').1
      exact ⟨next, (List.getElem?_append_left inside).trans held', .inr ⟨rfl, alters⟩⟩
  | founded unused =>
      rw [unused] at held
      cases held

end Job

/-! ## The job table -/

namespace Runner

/-- The command puts a new job in the place of one, or takes the job away. -/
def Command.Replaces (runner : Runner) (name : String) : Command → Prop
  | .add plan => plan.name = name
  | .delete other => other = name ∧ (runner.job? name).isSome
  | _ => False

variable {runner after : Runner} {command : Command} {answer : Except RunnerError Reply}
  {name : String}

theorem buildsOf_erase (runner : Runner) (name other : String) :
    buildsOf { runner with jobs := runner.jobs.erase name } other =
      if other = name then [] else runner.buildsOf other := by
  unfold buildsOf
  rw [Table.get?_erase]
  split <;> rfl

theorem buildsOf_carry {ref : BuildRef} {job : Job} {build : Build}
    (found : runner.job? ref.job = some job) (held : job.builds[ref.index]? = some build)
    (call : BuildCall) (other : String) :
    (call.carry runner ref job build).buildsOf other =
      if other = ref.job then
        (runner.buildsOf ref.job).set ref.index (call.change runner.tick build)
      else runner.buildsOf other := by
  rw [buildsOf_of_job? found]
  cases call with
  | status =>
      obtain ⟨inside, same⟩ := List.getElem?_eq_some_iff.mp held
      change runner.buildsOf other = if other = ref.job then job.builds.set ref.index build else _
      rw [← same, List.set_getElem_self]
      split
      · next here => rw [here, buildsOf_of_job? found]
      · rfl
  | stop dequeue => exact buildsOf_setJob runner ref.job other _
  | describe text replace separator => exact buildsOf_setJob runner ref.job other _

/-- Where the builds of one job are set, those of any other stay as they are. -/
theorem moves_set {other : String} {builds : List Build}
    (set : after.buildsOf name = if name = other then builds else runner.buildsOf name)
    (here : name = other → Job.Moves runner.tick (runner.buildsOf name) runner.tick builds) :
    Job.Moves runner.tick (runner.buildsOf name) runner.tick (after.buildsOf name) := by
  by_cases same : name = other
  · rw [set, if_pos same]
    exact here same
  · rw [if_neg same] at set
    exact .same set

/-- What a command does to the builds of a job that it does not replace. -/
theorem Turns.moves (turns : Turns runner command answer after)
    (protects : command.Replaces runner name → runner.buildsOf name = []) :
    Job.Moves runner.tick (runner.buildsOf name) after.tick (after.buildsOf name) := by
  -- Commands that set another job leave this one alone, so mostly the two are told apart first.
  cases turns with
  | adds plan =>
      exact moves_set (buildsOf_setJob runner plan.name name (.ofPlan plan))
        fun same => .founded (protects same.symm) plan
  | creates other => exact .same (buildsOf_create runner other name)
  | @deletes other job found =>
      refine moves_set (buildsOf_erase runner other name) fun same => ?_
      subst same
      exact .same (protects ⟨rfl, by rw [found]; rfl⟩).symm
  | ticks =>
      obtain ⟨rests, ticked⟩ := rests_advance runner
      rw [ticked, rests.builds]
      exact .passes
  | finds other =>
      rw [tick_lookup]
      exact .same (buildsOf_lookup runner other name)
  | @invokes other request ref after invoked =>
      obtain ⟨job, found, -, -, tick, -⟩ := invoke?_eq_some invoked
      rw [tick]
      by_cases same : name = other
      · subst same
        rw [(buildsOf_invoke invoked found).2, buildsOf_of_job? found]
        exact .starts (Job.alters_map Build.alters_supersede job.builds)
          (fun old => Job.superseded_unqueued) rfl rfl rfl
      · exact .same (buildsOf_invoked invoked same)
  | @stopsAll other job found =>
      refine moves_set (buildsOf_setJob runner other name (job.stopAll runner.tick)) fun same => ?_
      subst same
      rw [buildsOf_of_job? found]
      exact .alters (Job.alters_map (fun build => Build.alters_stop build true) job.builds)
  | @calls ref call job build found held =>
      have tick : (call.carry runner ref job build).tick = runner.tick := by cases call <;> rfl
      rw [tick]
      refine moves_set (buildsOf_carry found held call name) fun same => ?_
      subst same
      rw [buildsOf_of_job? found]
      exact .alters (Job.alters_set held (Build.alters_change build call))
  | hooks => exact .same rfl
  | reads => exact .same rfl
  | refuses => exact .same rfl

end Runner

namespace Host

open Runner

variable {allowed : Runner → Command → Prop} {before after : Host} {name : String}

/-- Allowed commands do not replace the job as long as it has builds. -/
def Protects (allowed : Runner → Command → Prop) (name : String) : Prop :=
  ∀ runner command, allowed runner command → command.Replaces runner name →
    runner.buildsOf name = []

theorem Session.direct (direct : before.Direct) (session : Session allowed before after) :
    after.Direct := by
  induction session with
  | refl => exact direct
  | tail _ step ih =>
      obtain ⟨_, _, _, answered⟩ := step
      exact (answered.turns ih).1

theorem Proceeds.moves (direct : before.Direct) (protects : Protects allowed name)
    (proceeds : Proceeds allowed before after) :
    Job.Moves before.runner.tick (before.runner.buildsOf name) after.runner.tick
      (after.runner.buildsOf name) := by
  obtain ⟨command, answer, fine, answered⟩ := proceeds
  exact (answered.turns direct).2.moves (protects _ _ fine)

/-- A build of a job that is protected is there from then on, and goes on. -/
theorem Session.advances (direct : before.Direct) (protects : Protects allowed name)
    (session : Session allowed before after) {index : Nat} {build : Build}
    (held : (before.runner.buildsOf name)[index]? = some build) :
    ∃ next, (after.runner.buildsOf name)[index]? = some next ∧
      Build.Advances before.runner.tick after.runner.tick build next := by
  induction session with
  | refl => exact ⟨build, held, rfl, Nat.le_refl _, fun _ => ⟨rfl, rfl⟩⟩
  | tail reached step ih =>
      obtain ⟨there, held', advances⟩ := ih
      obtain ⟨next, held'', steps⟩ := (step.moves (Session.direct direct reached) protects).holds held'
      exact ⟨next, held'', advances.trans steps.advances⟩

end Host

end BuildFlow
