import BuildFlow.Proofs.Kill.Settlement
/-!
What a kill of the builds of this run leaves behind. The loop gets to the builds that
are pursued where it begins, and to no others: a build that was started by this run, but
is not followed by an open attempt any more, goes on when the loop has ended.
-/
namespace BuildFlow

open Act

namespace Runner

/-- Whether a build is queued or running at a tick. -/
def activeAt (runner : Runner) (tick : Nat) (name : String) (index : Nat) : Bool :=
  (runner.buildsOf name)[index]?.any fun build => !(build.progress tick).isIdle

variable {runner before after : Runner} {tick later : Nat} {name : String} {index : Nat}

theorem activeAt_iff : runner.activeAt tick name index ↔
    ∃ build, (runner.buildsOf name)[index]? = some build ∧
      (build.progress tick).isIdle = false := by
  simp [activeAt, Option.any_eq_true]

/-- A build that is active was so before. -/
theorem activeAt_earlier (active : runner.activeAt later name index) (order : tick ≤ later) :
    runner.activeAt tick name index := by
  obtain ⟨build, held, busy⟩ := activeAt_iff.mp active
  refine activeAt_iff.mpr ⟨build, held, Bool.not_eq_true _ ▸ fun idle => ?_⟩
  exact Bool.false_ne_true (busy.symm.trans (idle_of_grows (.later build order) idle))

theorem activeAt_congr (same : (after.buildsOf name)[index]? = (before.buildsOf name)[index]?) :
    after.activeAt tick name index = before.activeAt tick name index :=
  congrArg (Option.any _) same

end Runner

theorem Task.Ceased.not_activeAt {task : Task} {runner : Runner} (ceased : task.Ceased runner)
    {ref : BuildRef} {build : Build} (followed : task.build = some ref)
    (held : runner.build? ref = some build) : ¬ runner.activeAt runner.tick ref.job ref.index := by
  intro active
  obtain ⟨other, listed, busy⟩ := Runner.activeAt_iff.mp active
  obtain ⟨job, found, there⟩ := Option.bind_eq_some_iff.mp held
  rw [Runner.buildsOf_of_job? found, there] at listed
  cases listed
  exact Bool.false_ne_true (busy.symm.trans (ceased.idle followed held))

namespace Flow

/-- One round is enough for all builds that are pursued. -/
theorem Quells.catches {rounds : Nat} {tree last : Tree} {host ended : Host}
    (quells : Quells rounds tree host (.ok ()) last ended) (own : ended.kill.kind ≠ .all)
    (unsent : ∀ leaf ∈ tree.tasks, leaf.stopSent = false) {leaf : Task}
    (member : leaf ∈ tree.openTasks) {ref : BuildRef} (pursues : leaf.Pursues ref) :
    leaf.Ceased ended.runner := by
  cases quells with
  | settles round => exact (round.own own).catches unsent member pursues
  | goesOn round _ sleeps onward =>
      have own' := KillKind.ne_all_of_le (KillKind.le_trans sleeps.goes.kill onward.kill) own
      exact ((round.own own').catches unsent member pursues).grows
        (sleeps.rests.grows.trans onward.grows)

/-- If the loop comes to its end, and only builds of this run were to be stopped, then
the builds that are active at its end are those that were not pursued where it began and
last until then. So none of this run is active if all that were active were pursued. -/
theorem killLoop_stops_pursued {flow : Flow} {host : Host} {sleep : Duration} {rounds : Nat}
    {state : Flow × Host} (enters : flow.Enters host sleep rounds state)
    (answered : ((killLoop sleep rounds).run state).1 = .ok ())
    (current : ((killLoop sleep rounds).run state).2.2.kill.kind = .current) :
    let last := ((killLoop sleep rounds).run state).2.2.runner
    (∀ name index, last.activeAt last.tick name index ↔
      state.2.runner.activeAt last.tick name index ∧
        ∀ ref, state.1.root.Pursues ref → ¬ (ref.job = name ∧ ref.index = index)) ∧
    ((∀ name index, (host.runner.buildsOf name).length ≤ index →
        state.2.runner.activeAt state.2.runner.tick name index →
          ∃ ref, state.1.root.Pursues ref ∧ ref.job = name ∧ ref.index = index) →
      ∀ name index, (host.runner.buildsOf name).length ≤ index →
        ¬ last.activeAt last.tick name index) := by
  have quells := enters.quells
  generalize (killLoop sleep rounds).run state = ended at quells answered current ⊢
  rw [answered] at quells
  have own : ended.2.2.kill.kind ≠ .all := fun all => nomatch current.symm.trans all
  -- Whatever is pursued where the loop begins is over when the loop ends.
  have caught : ∀ ref, state.1.root.Pursues ref →
      ¬ ended.2.2.runner.activeAt ended.2.2.runner.tick ref.job ref.index := by
    rintro ref ⟨leaf, member, pursues⟩
    have tied := (enters.stopping.tied leaf (Tree.openTasks_subset member)).grows quells.grows
    obtain ⟨-, -, build, held, -⟩ := tied.held ref pursues.followed
    exact (quells.catches own enters.unsent member pursues).not_activeAt pursues.followed held
  have those : ∀ name index, ended.2.2.runner.activeAt ended.2.2.runner.tick name index ↔
      state.2.runner.activeAt ended.2.2.runner.tick name index ∧
        ∀ ref, state.1.root.Pursues ref → ¬ (ref.job = name ∧ ref.index = index) := by
    intro name index
    constructor
    · intro active
      have free : ∀ ref, state.1.root.Pursues ref → ¬ (ref.job = name ∧ ref.index = index) := by
        rintro ref pursues ⟨rfl, rfl⟩
        exact caught ref pursues active
      exact ⟨Runner.activeAt_congr (quells.untouched own free) ▸ active, free⟩
    · rintro ⟨active, free⟩
      exact (Runner.activeAt_congr (quells.untouched own free)).trans active
  refine ⟨those, fun covered name index new active => ?_⟩
  obtain ⟨active, free⟩ := (those name index).mp active
  obtain ⟨ref, pursues, same⟩ := covered name index new (Runner.activeAt_earlier active quells.grows.tick)
  exact free ref pursues same

set_option maxRecDepth 100000 in
theorem killLoop_stops_pursued_halted :
    ∃ (sleep : Duration) (rounds : Nat) (state : Flow × Host),
      haltedFlow.Enters (haltedHost [⟨2, .current⟩]) sleep rounds state ∧
      let last := ((killLoop sleep rounds).run state).2.2.runner
      state.2.runner.activeAt last.tick "lint" 0 ∧ ¬ last.activeAt last.tick "lint" 0 := by
  have reached : gets (reach.run (haltedFlow, haltedHost [⟨2, .current⟩])).1 ∧
      (reach.run (haltedFlow, haltedHost [⟨2, .current⟩])).2.2.runner.Fits ∧
      (reach.run (haltedFlow, haltedHost [⟨2, .current⟩])).2.2.runner.activeAt 4 "lint" 0 ∧
      ∃ leaf ∈ (reach.run (haltedFlow, haltedHost [⟨2, .current⟩])).2.1.root.openTasks,
        leaf.resolved ∧ leaf.standing.isInvoked ∧ leaf.build = some ⟨"lint", 0, 1⟩ := by
    decide +kernel
  have left : (through.run (haltedFlow, haltedHost [⟨2, .current⟩])).1 = .ok () ∧
      (through.run (haltedFlow, haltedHost [⟨2, .current⟩])).2.2.kill.kind = .current ∧
      (through.run (haltedFlow, haltedHost [⟨2, .current⟩])).2.2.runner.tick = 4 := by
    decide +kernel
  generalize ran : reach.run (haltedFlow, haltedHost [⟨2, .current⟩]) = out at reached
  obtain ⟨answer, state⟩ := out
  obtain ⟨reached, fits, active, leaf, member, resolved, invoked, followed⟩ := reached
  have fresh : haltedFlow.root.IsFresh := rfl
  have faithful : (haltedHost [⟨2, .current⟩]).Faithful := Host.faithful_ofHooks _ _
  have numbered : (haltedHost [⟨2, .current⟩]).runner.Numbered := Host.numbered_ofHooks _ _
  obtain ⟨sleep, rounds, enters⟩ := enters_of_gets fresh faithful numbered rfl ran reached fits
  rw [enters.through] at left
  obtain ⟨answered, current, tick⟩ := left
  obtain ⟨those, -⟩ := killLoop_stops_pursued enters answered current
  refine ⟨sleep, rounds, state, enters, tick ▸ active, fun stays => ?_⟩
  have pursues : state.1.root.Pursues ⟨"lint", 0, 1⟩ := ⟨leaf, member, resolved, invoked, followed⟩
  exact ((those "lint" 0).mp stays).2 _ pursues ⟨rfl, rfl⟩

/-- An unchecked invocation and a checked one after it, that are tried again together. -/
def detachedFlow : Flow :=
  .ofTree (.ofChildren true (.fresh 0 0 2 2 .normal) [
    .ofJob (.fresh 1 1 2 2 .unchecked) "lint", .ofJob (.fresh 2 1 2 2 .normal) "build"])

/-- The first build of the checked job fails, which starts the group over. A kill is asked
for when the other build has not been followed again. -/
def detachedHost : Host :=
  .ofHooks [⟨3, .current⟩] [
    { name := "lint", execTicks := 50 }, { name := "build", maxFails := 1, execTicks := 1 }]

set_option maxRecDepth 100000 in
/-- The build of an attempt that was prepared anew goes on when the loop has ended. -/
theorem killLoop_leaves_detached :
    ∃ (sleep : Duration) (rounds : Nat) (state : Flow × Host),
      detachedFlow.Enters detachedHost sleep rounds state ∧
      ((killLoop sleep rounds).run state).1 = .ok () ∧
      ((killLoop sleep rounds).run state).2.2.kill.kind = .current ∧
      (detachedHost.runner.buildsOf "lint").length ≤ 0 ∧
      ((killLoop sleep rounds).run state).2.2.runner.activeAt
        ((killLoop sleep rounds).run state).2.2.runner.tick "lint" 0 := by
  have reached : gets (reach.run (detachedFlow, detachedHost)).1 ∧
      (reach.run (detachedFlow, detachedHost)).2.2.runner.Fits := by decide +kernel
  have left : (through.run (detachedFlow, detachedHost)).1 = .ok () ∧
      (through.run (detachedFlow, detachedHost)).2.2.kill.kind = .current ∧
      (through.run (detachedFlow, detachedHost)).2.2.runner.activeAt
        (through.run (detachedFlow, detachedHost)).2.2.runner.tick "lint" 0 := by decide +kernel
  generalize ran : reach.run (detachedFlow, detachedHost) = out at reached
  obtain ⟨answer, state⟩ := out
  obtain ⟨reached, fits⟩ := reached
  have fresh : detachedFlow.root.IsFresh := rfl
  have faithful : detachedHost.Faithful := Host.faithful_ofHooks _ _
  have numbered : detachedHost.runner.Numbered := Host.numbered_ofHooks _ _
  obtain ⟨sleep, rounds, enters⟩ := enters_of_gets fresh faithful numbered rfl ran reached fits
  rw [enters.through] at left
  obtain ⟨answered, current, active⟩ := left
  exact ⟨sleep, rounds, state, enters, answered, current, by decide, active⟩

end Flow

end BuildFlow
