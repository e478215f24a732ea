import BuildFlow.Proofs.Flow.Start
import BuildFlow.Proofs.Runner.History
/-!
Histories of builds only move forward. As long as no job is replaced that has builds, the builds of
each job are numbered from 1, at most one of them is queued, and each goes from the queue to its end
and stays as it ended.
-/
namespace BuildFlow

/-! ## Builds -/

namespace Build

variable {tick later : Nat} {build before after : Build}

theorem queued_iff : build.progress tick = .queued ↔ build.forced = none ∧ tick < build.startTick := by
  rw [progress_eq]
  cases build.forced with
  | some => simp
  | none =>
      by_cases waits : tick < build.startTick
      · simp [waits]
      · by_cases runs : tick < build.endTick <;> simp [waits, runs]

theorem isSome_finishedAt (build : Build) (tick : Nat) :
    (build.finishedAt tick).isSome ↔ build.progress tick = .idle := by
  have order : build.startTick ≤ build.endTick := Nat.le_add_right _ _
  rw [progress_eq, finishedAt]
  cases build.forced with
  | some => simp
  | none =>
      by_cases ended : build.endTick ≤ tick
      · simp [ended, Nat.not_lt.mpr ended, Nat.not_lt.mpr (Nat.le_trans order ended)]
      · by_cases waits : tick < build.startTick <;> simp [ended, waits, Nat.not_le.mp ended]

theorem finishedAt_le {ended : Nat} (past : ∀ result at', build.forced = some (result, at') → at' ≤ tick)
    (finished : build.finishedAt tick = some ended) : ended ≤ tick := by
  unfold finishedAt at finished
  split at finished
  · next forced =>
      cases finished
      exact past _ _ forced
  · split at finished
    · next early =>
        cases finished
        exact early
    · cases finished

theorem Steps.unforced (steps : Steps tick later before after) (unforced : after.forced = none) :
    before.forced = none := by
  rcases steps with ⟨rfl, rfl⟩ | ⟨rfl, alters⟩
  · exact unforced
  · rcases alters.forced with same | ⟨-, result, forced⟩
    · exact same.symm.trans unforced
    · cases unforced.symm.trans forced

/-- A build that is not ended early does not leave the queue for its end in one step, unless it takes
no time. -/
theorem Steps.runs (steps : Steps tick later before after) (queued : before.progress tick = .queued)
    (ended : after.progress later = .idle) (unforced : after.forced = none) :
    before.execTicks = 0 := by
  have waits := (queued_iff.mp queued).2
  have still := steps.unforced unforced
  rcases steps with ⟨rfl, rfl⟩ | ⟨rfl, alters⟩
  · rw [progress_eq, unforced] at ended
    unfold endTick at ended
    grind
  · have same : after.progress later = before.progress later :=
      congrArg Prod.snd (status_congr alters.origin (unforced.trans still.symm)).1
    rw [ended, queued] at same
    cases same

end Build

/-! ## Jobs -/

namespace Job

/-- The builds of a job in good order. -/
structure Orderly (tick : Nat) (builds : List Build) : Prop where
  numbers : builds.map Build.number = List.range' 1 builds.length
  queued : (builds.countP fun build => build.progress tick = .queued) ≤ 1
  foreign : ∀ build ∈ builds, build.byFlow = false → build.startTick = 0
  past : ∀ build ∈ builds, ∀ result ended, build.forced = some (result, ended) → ended ≤ tick

variable {tick later : Nat} {before after builds : List Build} {build : Build}

theorem orderly_nil (tick : Nat) : Orderly tick [] where
  numbers := rfl
  queued := Nat.zero_le 1
  foreign _ member := (List.not_mem_nil member).elim
  past _ member := (List.not_mem_nil member).elim

theorem orderly_ofPlan (plan : JobPlan) (tick : Nat) : Orderly tick (ofPlan plan).builds := by
  have waits : foreignBuild.progress tick ≠ .queued := fun queued =>
    Nat.not_lt_zero tick (Build.queued_iff.mp queued).2
  refine ⟨?_, ?_, fun build member _ => ?_, fun build member result ended forced => ?_⟩
  · unfold ofPlan
    dsimp only
    split <;> rfl
  · rw [List.countP_eq_zero.mpr]
    · exact Nat.zero_le 1
    · intro build member
      rw [eq_foreignBuild_of_mem member, decide_eq_true_eq]
      exact waits
  · rw [eq_foreignBuild_of_mem member]
    rfl
  · rw [eq_foreignBuild_of_mem member] at forced
    cases forced

theorem Orderly.passes (orderly : Orderly tick builds) : Orderly (tick + 1) builds where
  numbers := orderly.numbers
  queued := by
    refine Nat.le_trans (List.countP_mono_left fun build _ queued => ?_) orderly.queued
    simp only [decide_eq_true_eq, Build.queued_iff] at queued ⊢
    exact ⟨queued.1, Nat.lt_of_succ_lt queued.2⟩
  foreign := orderly.foreign
  past build member result ended forced :=
    Nat.le_succ_of_le (orderly.past build member result ended forced)

/-- No build gets into the queue by being altered. -/
theorem countP_queued_le (each : List.Forall₂ (Build.Alters tick) before after) :
    (after.countP fun build => build.progress tick = .queued) ≤
      before.countP fun build => build.progress tick = .queued := by
  induction each with
  | nil => exact Nat.le_refl 0
  | @cons old new _ _ alters _ ih =>
      have queued : new.progress tick = .queued → old.progress tick = .queued := by
        intro queued
        have stage := alters.advances.stage
        rw [queued] at stage
        revert stage
        cases old.progress tick <;> decide
      rw [List.countP_cons, List.countP_cons]
      refine Nat.add_le_add ih ?_
      by_cases waits : new.progress tick = .queued <;> simp [waits, queued]

theorem Orderly.alters (orderly : Orderly tick before)
    (each : List.Forall₂ (Build.Alters tick) before after) : Orderly tick after where
  numbers := by
    rw [← each.length_eq, ← orderly.numbers]
    exact forall₂_map_eq each fun old new alters => alters.number
  queued := Nat.le_trans (countP_queued_le each) orderly.queued
  foreign build member foreign := by
    obtain ⟨old, earlier, alters⟩ := exists_of_mem_right each member
    have same : build.origin.byFlow = old.origin.byFlow := congrArg Build.byFlow alters.origin
    have starts : build.origin.startTick = old.origin.startTick :=
      congrArg Build.startTick alters.origin
    exact starts.trans (orderly.foreign old earlier (same.symm.trans foreign))
  past build member result ended forced := by
    obtain ⟨old, earlier, alters⟩ := exists_of_mem_right each member
    rcases alters.forced with same | ⟨-, result', forced'⟩
    · exact orderly.past old earlier result ended (same.symm.trans forced)
    · cases forced.symm.trans forced'
      exact Nat.le_refl tick

/-- The next build has the next number. -/
theorem Orderly.nextNumber (orderly : Orderly tick builds) :
    ((builds.getLast?.map fun last => last.number + 1).getD 1) = builds.length + 1 := by
  rcases List.eq_nil_or_concat builds with rfl | ⟨front, last, rfl⟩
  · rfl
  · have numbers := orderly.numbers
    rw [List.concat_eq_append, List.map_append, List.length_append, List.length_singleton,
      List.range'_concat, List.map_singleton] at numbers
    have number := List.singleton_inj.mp (List.append_inj' numbers rfl).2
    simp [number]
    omega

theorem Orderly.starts (orderly : Orderly tick builds)
    (cleared : ∀ old ∈ builds, old.byFlow → old.progress tick ≠ .queued)
    (number : build.number = builds.length + 1) (started : build.byFlow)
    (unforced : build.forced = none) : Orderly tick (builds ++ [build]) where
  numbers := by
    rw [List.map_append, orderly.numbers, List.map_singleton, number, List.length_append,
      List.length_singleton, List.range'_concat]
    congr 2
    omega
  queued := by
    -- Nobody else's build waits in the queue, and the others were taken from it.
    have none : (builds.countP fun old => old.progress tick = .queued) = 0 := by
      rw [List.countP_eq_zero]
      intro old member
      rw [decide_eq_true_eq]
      cases foreign : old.byFlow with
      | true => exact cleared old member foreign
      | false =>
          intro queued
          have waits := (Build.queued_iff.mp queued).2
          rw [orderly.foreign old member foreign] at waits
          exact Nat.not_lt_zero tick waits
    rw [List.countP_append, none, Nat.zero_add]
    exact List.countP_le_length
  foreign other member foreign := by
    rcases List.mem_append.mp member with old | new
    · exact orderly.foreign other old foreign
    · rw [List.mem_singleton.mp new, started] at foreign
      cases foreign
  past other member result ended forced := by
    rcases List.mem_append.mp member with old | new
    · exact orderly.past other old result ended forced
    · rw [List.mem_singleton.mp new, unforced] at forced
      cases forced

theorem Orderly.moves (orderly : Orderly tick before) (moves : Moves tick before later after) :
    Orderly later after := by
  cases moves with
  | passes => exact orderly.passes
  | alters each => exact orderly.alters each
  | starts each cleared number started unforced =>
      have kept := orderly.alters each
      exact kept.starts cleared (number.trans kept.nextNumber) started unforced
  | founded _ plan => exact orderly_ofPlan plan tick

end Job

/-! ## The job table -/

namespace Runner

/-- No job is replaced that has builds. -/
def Command.Sparing (runner : Runner) (command : Command) : Prop :=
  ∀ name, command.Replaces runner name → runner.buildsOf name = []

instance (runner : Runner) : DecidablePred (Command.Sparing runner)
  | .add plan => decidable_of_iff (runner.buildsOf plan.name = [])
      ⟨fun unused _ same => same ▸ unused, fun sparing => sparing plan.name rfl⟩
  | .delete name =>
      decidable_of_iff ((runner.job? name).isSome → runner.buildsOf name = [])
        ⟨fun unused _ ⟨same, found⟩ => same ▸ unused (same ▸ found),
          fun sparing found => sparing name ⟨rfl, found⟩⟩
  | .create _ | .tick | .poll | .queuePoll | .find _ | .jobPoll _ | .jobStatus _ | .invoke .. |
    .stopAll _ | .call .. | .killAt _ => .isTrue fun _ replaces => replaces.elim

/-- The builds of jobs that nobody has used yet are in good order. -/
theorem orderly_ofPlans (plans : List JobPlan) (tick : Nat) (name : String) :
    Job.Orderly tick ((plans.foldl add {}).buildsOf name) := by
  have every : (plans.foldl add {}).Every fun _ job => Job.Orderly tick job.builds :=
    every_addAll (fun plan _ => Job.orderly_ofPlan plan tick) (every_empty _)
  unfold buildsOf
  cases listed : (plans.foldl add {}).jobs.get? name with
  | none => exact Job.orderly_nil tick
  | some job => exact every name job listed

end Runner

/-! ## Sessions -/

namespace Host

open Runner

variable {allowed : Runner → Command → Prop} {start before after : Host} {name : String}

theorem protects_sparing (name : String) : Protects (fun runner => Command.Sparing runner) name :=
  fun _ _ sparing => sparing name

theorem Session.orderly (direct : before.Direct) (protects : Protects allowed name)
    (session : Session allowed before after)
    (orderly : Job.Orderly before.runner.tick (before.runner.buildsOf name)) :
    Job.Orderly after.runner.tick (after.runner.buildsOf name) := by
  induction session with
  | refl => exact orderly
  | tail reached step ih => exact ih.moves (step.moves (Session.direct direct reached) protects)

/-- A build runs before it ends as planned. -/
theorem Session.runs (direct : before.Direct) (protects : Protects allowed name)
    (session : Session allowed before after) {index : Nat} {build next : Build}
    (held : (before.runner.buildsOf name)[index]? = some build)
    (queued : build.progress before.runner.tick = .queued)
    (held' : (after.runner.buildsOf name)[index]? = some next)
    (ended : next.progress after.runner.tick = .idle) (unforced : next.forced = none)
    (lasts : 0 < build.execTicks) :
    ∃ middle there, Session allowed before middle ∧ Session allowed middle after ∧
      (middle.runner.buildsOf name)[index]? = some there ∧
      there.progress middle.runner.tick = .running := by
  induction session generalizing next with
  | refl =>
      cases held.symm.trans held'
      cases queued.symm.trans ended
  | @tail middle _ reached step ih =>
      obtain ⟨there, at', advances⟩ := Session.advances direct protects reached held
      obtain ⟨_, held'', steps⟩ := (step.moves (Session.direct direct reached) protects).holds at'
      cases held'.symm.trans held''
      cases progress : there.progress middle.runner.tick with
      | running => exact ⟨middle, there, reached, .single step, at', progress⟩
      | idle =>
          obtain ⟨first, early, begun, onward, found⟩ := ih at' progress (steps.unforced unforced)
          exact ⟨first, early, begun, onward.tail step, found⟩
      | queued =>
          have time : there.origin.execTicks = build.origin.execTicks :=
            congrArg Build.execTicks advances.origin
          have none : there.execTicks = 0 := steps.runs progress ended unforced
          exact absurd (time.symm.trans none) (Nat.ne_of_gt lasts)

/-- While commands are given to a runner that replace no job with builds, the builds of a job are
numbered from 1 and at most one of them is queued. A build has finished at a tick that is past if and
only if it is idle. Each build stays in its place and only moves forward: from the queue to its end,
and what it ended with and when stays the same. It is running in between, unless it takes no time or
is ended early. -/
theorem builds_move_forward {plans : List JobPlan} (direct : start.Direct)
    (table : start.runner = plans.foldl Runner.add {})
    (reached : Session (fun runner => Command.Sparing runner) start before)
    (onward : Session (fun runner => Command.Sparing runner) before after) (name : String) :
    (before.runner.buildsOf name).map Build.number =
        List.range' 1 (before.runner.buildsOf name).length ∧
      ((before.runner.buildsOf name).countP fun build =>
        build.progress before.runner.tick = .queued) ≤ 1 ∧
      ∀ (index : Nat) (build : Build), (before.runner.buildsOf name)[index]? = some build →
        ((build.finishedAt before.runner.tick).isSome ↔
          build.progress before.runner.tick = .idle) ∧
        (∀ ended, build.finishedAt before.runner.tick = some ended → ended ≤ before.runner.tick) ∧
        ∃ next, (after.runner.buildsOf name)[index]? = some next ∧
          Build.Advances before.runner.tick after.runner.tick build next ∧
          (build.progress before.runner.tick = .queued → next.progress after.runner.tick = .idle →
            next.forced = none → 0 < build.execTicks →
            ∃ middle there, Session (fun runner => Command.Sparing runner) before middle ∧
              Session (fun runner => Command.Sparing runner) middle after ∧
              (middle.runner.buildsOf name)[index]? = some there ∧
              there.progress middle.runner.tick = .running) := by
  have protects := protects_sparing name
  have direct' := reached.direct direct
  have orderly := reached.orderly direct protects (table ▸ orderly_ofPlans plans _ name)
  refine ⟨orderly.numbers, orderly.queued, fun index build held => ?_⟩
  obtain ⟨next, held', advances⟩ := onward.advances direct' protects held
  refine ⟨build.isSome_finishedAt _, fun ended => ?_, next, held', advances, ?_⟩
  · exact Build.finishedAt_le (orderly.past build (List.mem_of_getElem? held))
  · intro queued ended unforced lasts
    exact onward.runs direct' protects held queued held' ended unforced lasts

/-- A job whose builds are queued for a tick and run for two. -/
def queueingPlan : JobPlan := { name := "build", queueTicks := 1, execTicks := 2 }

def queuedBuild : Build := (Job.ofPlan queueingPlan).nextBuild 0 {}

/-- The build is started, and three ticks later it is over and another one is started. -/
theorem builds_move_forward_queued :
    (ofPlans [queueingPlan]).Direct ∧ ∃ before after,
      Session (fun runner => Command.Sparing runner) (ofPlans [queueingPlan]) before ∧
      Session (fun runner => Command.Sparing runner) before after ∧
      (before.runner.buildsOf "build").map Build.number = [1] ∧
      (before.runner.buildsOf "build")[0]? = some queuedBuild ∧
      ∃ next, (after.runner.buildsOf "build")[0]? = some next ∧
        Build.Advances before.runner.tick after.runner.tick queuedBuild next ∧
        next.status after.runner.tick = (.success, .idle) ∧
        ∃ middle there, Session (fun runner => Command.Sparing runner) before middle ∧
          Session (fun runner => Command.Sparing runner) middle after ∧
          (middle.runner.buildsOf "build")[0]? = some there ∧
          there.progress middle.runner.tick = .running := by
  have performed : ((performAll (fun runner => Command.Sparing runner) [.invoke "build" {}]
      (ofPlans [queueingPlan])).bind fun before =>
        (performAll (fun runner => Command.Sparing runner)
          [.tick, .tick, .tick, .invoke "build" {}] before).map fun after =>
            (before.runner.buildsOf "build", before.runner.tick,
              (after.runner.buildsOf "build")[0]?, after.runner.tick)) =
      some ([queuedBuild], 0, some queuedBuild, 3) := by decide +kernel
  obtain ⟨before, started, performed⟩ := Option.bind_eq_some_iff.mp performed
  obtain ⟨after, ended, same⟩ := Option.map_eq_some_iff.mp performed
  simp only [Prod.mk.injEq] at same
  obtain ⟨builds, tick, last, tick'⟩ := same
  have direct : (ofPlans [queueingPlan]).Direct := ⟨rfl, rfl⟩
  have reached := session_performAll started
  have onward := session_performAll ended
  have held : (before.runner.buildsOf "build")[0]? = some queuedBuild := by
    rw [builds]
    rfl
  obtain ⟨numbers, -, each⟩ := builds_move_forward direct rfl reached onward "build"
  obtain ⟨-, -, next, held', advances, runs⟩ := each 0 queuedBuild held
  obtain rfl : next = queuedBuild := Option.some.inj (held'.symm.trans last)
  have finished : queuedBuild.status after.runner.tick = (.success, .idle) := by
    rw [tick']
    decide
  have queued : queuedBuild.progress before.runner.tick = .queued := by
    rw [tick]
    decide
  refine ⟨direct, before, after, reached, onward, ?_, held, queuedBuild, held', advances, finished, ?_⟩
  · rw [numbers, builds]
    rfl
  · exact runs queued (congrArg Prod.snd finished) rfl (by decide)

end Host

end BuildFlow
