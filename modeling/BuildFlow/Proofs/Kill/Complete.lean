import BuildFlow.Proofs.Kill.Settlement
/-!
A kill of all builds is complete. If all builds are to be stopped when the kill loop
begins, one round tells every job of the tree to stop its builds, once for each name,
and leaves none of them queued or running.
-/
namespace BuildFlow

open Act

/-! ## Jobs that are told to stop all builds -/

/-- The job that is told to stop all of its builds. -/
def Event.stopAllName? : Event → Option String
  | .stopAll name => some name
  | _ => none

/-- The jobs that were told to stop all of their builds, latest first. -/
def stopAllNames (events : List Event) : List String := events.filterMap Event.stopAllName?

/-- Since `start` each job that is marked was told to stop all builds, and no other. -/
structure Scene.Tallied (start : List Event) (names : List String) (scene : Scene) : Prop where
  told : ∃ new, scene.stops = new ++ start ∧ stopAllNames new = scene.stopped.reverse
  distinct : scene.stopped.Nodup
  among : scene.stopped ⊆ names

namespace Task

variable {all : Bool} {task next : Task} {before after : Scene} {start : List Event}
  {names : List String}

theorem Silences.tallied (silences : task.Silences before after) (named : task.name ∈ names)
    (tallied : before.Tallied start names) : after.Tallied start names := by
  cases silences with
  | spares => exact tallied
  | stops _ unmarked =>
      obtain ⟨new, stops, told⟩ := tallied.told
      refine ⟨⟨.stopAll task.name :: new, congrArg (List.cons _) stops, ?_⟩, ?_, ?_⟩
      · rw [List.reverse_append, ← told]
        rfl
      · refine List.nodup_append.mpr ⟨tallied.distinct, List.pairwise_singleton _ _, ?_⟩
        rintro name member other same rfl
        exact unmarked (List.mem_singleton.mp same ▸ member)
      · refine List.append_subset.mpr ⟨tallied.among, fun name same => ?_⟩
        exact List.mem_singleton.mp same ▸ named

theorem Hushes.tallied (hushes : task.Hushes all before after) (named : task.name ∈ names)
    (tallied : before.Tallied start names) : after.Tallied start names := by
  unfold Hushes at hushes
  split at hushes
  · exact hushes.tallied named tallied
  · exact hushes ▸ tallied

theorem Quits.tallied (quits : task.Quits all before next after) (named : task.name ∈ names)
    (tallied : before.Tallied start names) : after.Tallied start names := by
  cases quits with
  | settled _ hushes => exact hushes.tallied named tallied
  | missing _ _ hushes => exact hushes.tallied named tallied
  | silenced _ _ _ silences => exact silences.tallied named tallied
  | waits _ _ _ silences => exact silences.tallied named tallied
  | unstarted => exact tallied
  | ended => exact tallied
  | told => exact tallied
  | tells =>
      obtain ⟨new, stops, told⟩ := tallied.told
      exact ⟨⟨.stop _ _ :: new, congrArg (List.cons _) stops, told⟩, tallied.distinct,
        tallied.among⟩

end Task

theorem Tree.Quits.tallied {all : Bool} {tree next : Tree} {before after : Scene}
    {start : List Event} (quits : Tree.Quits all tree before next after)
    (tallied : before.Tallied start tree.names) : after.Tallied start tree.names :=
  quits.keeps (q := fun _ leaf => leaf.name ∈ tree.names) (fun named _ => named)
    Task.Quits.tallied (fun _ member => List.mem_map.mpr ⟨_, member, rfl⟩) tallied

namespace Flow

/-! ## Trees whose jobs all exist -/

theorem lasts_resolved : Lasts fun tree _ => ∀ leaf ∈ tree.tasks, leaf.resolved where
  rests resolved _ _ _ := resolved
  tours resolved _ _ _ tours goesOn :=
    tours.tasks (Task.kept_resolved _) (Tree.Tours.resumes goesOn) resolved

theorem resolved_of_prepared {requireIdle : Bool} {root tree : Tree} {world after : World}
    (listed : ∀ name ∈ root.names, (world.runner.job? name).isSome)
    (prepared : root.Prepared requireIdle world (.ok ()) tree after) :
    ∀ leaf ∈ tree.tasks, leaf.resolved := by
  obtain ⟨same, layout, ready⟩ := prepared
  intro leaf member
  obtain ⟨-, found⟩ := ready _ (Tree.mem_tasks.mp member)
  refine found.mpr ((same.found leaf.name).trans (listed leaf.name ?_))
  rw [← layout, Tree.names_blank]
  exact List.mem_map.mpr ⟨leaf, member, rfl⟩

/-! ## The loop -/

/-- If all builds are to be stopped, one round is enough. -/
theorem Quells.all {rounds : Nat} {tree last : Tree} {host ended : Host}
    {answer : Except Halt Unit} (quells : Quells rounds tree host answer last ended)
    (some' : rounds ≠ 0) (within : host.runner.tick + 1 ≤ host.script.maxTicks)
    (all : host.kill.kind = .all) (hushed : host.scene.Hushed) :
    answer = .ok () ∧ ∃ ticked, host.Idles 1 ticked ∧
      Tree.Quits true tree ticked.scene last ended.scene := by
  have whole : ∀ {next : Tree} {ticked after : Host}, Round tree host ticked next after →
      Tree.Quits true tree ticked.scene next after.scene := by
    intro next ticked after round
    have kind : ticked.kill.kind = .all := KillKind.eq_all_of_le (all ▸ round.idles.goes.kill)
    have quits := round.quits
    rwa [decide_eq_true kind] at quits
  cases quells with
  | breaks late => omega
  | settles round => exact ⟨rfl, _, round.idles, whole round⟩
  | goesOn round unsettled =>
      have settled := (whole round).finished_all (hushed_idles round.idles hushed)
      cases settled.symm.trans unsettled

/-- If all jobs of the tree exist when the run begins, and all builds are to be stopped
when its kill loop begins, then the loop tells every job of the tree to stop its builds,
each exactly once, and no build of these jobs is queued or running when it ends. -/
theorem killLoop_stops_all {flow : Flow} {host : Host} {sleep : Duration} {rounds : Nat}
    {state : Flow × Host} (enters : flow.Enters host sleep rounds state)
    (listed : ∀ name ∈ flow.root.names, (host.runner.job? name).isSome)
    (all : state.2.kill.kind = .all)
    (within : state.2.runner.tick + 1 ≤ host.script.maxTicks) :
    let ended := (killLoop sleep rounds).run state
    ended.1 = .ok () ∧
      (∃ new, ended.2.2.scene.stops = new ++ host.scene.stops ∧ (stopAllNames new).Nodup ∧
        ∀ name, name ∈ stopAllNames new ↔ name ∈ flow.root.names) ∧
      ∀ name ∈ flow.root.names, ∀ build ∈ ended.2.2.runner.buildsOf name,
        build.progress ended.2.2.runner.tick = .idle := by
  have quells := enters.quells
  have goes := enters.armed.goes
  have enough := enters.armed.enough
  have resolved := (enters.entered lasts_resolved fun _ => resolved_of_prepared listed).kept
  generalize (killLoop sleep rounds).run state = ended at quells ⊢
  rw [goes.script] at enough
  obtain ⟨answered, ticked, idles, quits⟩ :=
    quells.all (by omega) (goes.script ▸ within) all enters.hushed
  have names : state.1.root.names = flow.root.names := by
    rw [← enters.layout, Tree.names_blank]
  -- Nothing was told to stop all of its builds before the loop.
  have start : ticked.scene.Tallied host.scene.stops state.1.root.names := by
    have none : ticked.scene.stopped = [] :=
      (idles.goes.stopped.trans goes.stopped).trans enters.unstopped
    refine ⟨⟨[], idles.goes.stops.trans goes.stops, ?_⟩, ?_, ?_⟩ <;> rw [none]
    · rfl
    · exact List.nodup_nil
    · exact List.nil_subset _
  have hushed := quits.onward.hushed (hushed_idles idles enters.hushed)
  have tallied := quits.tallied start
  have stopped : ∀ name, name ∈ ended.2.2.scene.stopped ↔ name ∈ flow.root.names := by
    refine fun name => ⟨fun member => names ▸ tallied.among member, fun among => ?_⟩
    obtain ⟨leaf, member, rfl⟩ := List.mem_map.mp (names.symm ▸ among)
    exact quits.stopped leaf member (resolved leaf member)
  refine ⟨answered, ?_, fun name member build held => ?_⟩
  · obtain ⟨new, stops, told⟩ := tallied.told
    refine ⟨new, stops, ?_, fun name => ?_⟩
    · rw [told]
      exact List.pairwise_reverse.mpr (tallied.distinct.imp Ne.symm)
    rw [told, List.mem_reverse]
    exact stopped name
  · exact Progress.eq_idle (hushed name ((stopped name).mpr member) build held)

set_option maxRecDepth 100000 in
theorem killLoop_stops_all_halted :
    ∃ (sleep : Duration) (rounds : Nat) (state : Flow × Host),
      haltedFlow.Enters (haltedHost [⟨2, .all⟩]) sleep rounds state ∧
      ((killLoop sleep rounds).run state).1 = .ok () ∧
      ∀ name ∈ ["build", "test", "lint"],
        ∀ build ∈ ((killLoop sleep rounds).run state).2.2.runner.buildsOf name,
          build.progress ((killLoop sleep rounds).run state).2.2.runner.tick = .idle := by
  have reached : gets (reach.run (haltedFlow, haltedHost [⟨2, .all⟩])).1 ∧
      (reach.run (haltedFlow, haltedHost [⟨2, .all⟩])).2.2.runner.Fits ∧
      (reach.run (haltedFlow, haltedHost [⟨2, .all⟩])).2.2.runner.tick = 2 ∧
      (reach.run (haltedFlow, haltedHost [⟨2, .all⟩])).2.2.kill.kind = .all := by
    decide +kernel
  generalize ran : reach.run (haltedFlow, haltedHost [⟨2, .all⟩]) = out at reached
  obtain ⟨answer, state⟩ := out
  obtain ⟨reached, fits, tick, all⟩ := reached
  have fresh : haltedFlow.root.IsFresh := rfl
  have faithful : (haltedHost [⟨2, .all⟩]).Faithful := Host.faithful_ofHooks _ _
  have numbered : (haltedHost [⟨2, .all⟩]).runner.Numbered := Host.numbered_ofHooks _ _
  have listed : ∀ name ∈ haltedFlow.root.names,
      ((haltedHost [⟨2, .all⟩]).runner.job? name).isSome := by decide
  obtain ⟨sleep, rounds, enters⟩ := enters_of_gets fresh faithful numbered rfl ran reached fits
  have within : state.2.runner.tick + 1 ≤ 100 := by
    have tick : state.2.runner.tick = 2 := tick
    omega
  obtain ⟨ended, -, idle⟩ := killLoop_stops_all enters listed all within
  exact ⟨sleep, rounds, state, enters, ended, idle⟩

end Flow

end BuildFlow
