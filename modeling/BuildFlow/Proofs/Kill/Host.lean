import BuildFlow.Proofs.Flow.Run
/-!
Hosts on which a kill may be requested at any time, by a hook of the runner, a
trap, the script or a signal. Every call reaches the job table, no job is taken
away, and what happens outside of a run starts and stops no build.
-/
namespace BuildFlow

/-- Whether an action leaves the jobs that exist in the table. -/
def Action.keepsJobs : Action → Bool
  | .add _ | .delete _ => false
  | _ => true

namespace KillKind

theorem le_refl (kind : KillKind) : kind ≤ kind := Nat.le_refl kind.rank

theorem le_trans {first second third : KillKind} (left : first ≤ second)
    (right : second ≤ third) : first ≤ third :=
  Nat.le_trans (show first.rank ≤ second.rank from left) right

theorem eq_all_of_le {kind : KillKind} (le : .all ≤ kind) : kind = .all := by
  cases kind with
  | all => rfl
  | none => exact absurd le (by decide)
  | current => exact absurd le (by decide)

theorem ne_all_of_le {before after : KillKind} (le : before ≤ after) (own : after ≠ .all) :
    before ≠ .all :=
  fun all => own (eq_all_of_le (all ▸ le))

end KillKind

/-- Builds are left alone: none is started or stopped, and jobs are only created. -/
structure Runner.Rests (before after : Runner) : Prop where
  grows : before.Grows after
  builds : ∀ name, after.buildsOf name = before.buildsOf name
  every : ∀ p, Runner.Lasting p → before.Every p → after.Every p

namespace Runner

theorem Rests.refl (runner : Runner) : Rests runner runner :=
  ⟨.refl runner, fun _ => rfl, fun _ _ every => every⟩

theorem Rests.trans {before middle after : Runner} (left : Rests before middle)
    (right : Rests middle after) : Rests before after :=
  ⟨left.grows.trans right.grows, fun name => (right.builds name).trans (left.builds name),
    fun p lasting every => right.every p lasting (left.every p lasting every)⟩

theorem rests_create (runner : Runner) (name : String) : Rests runner (runner.create name) where
  grows := grows_create runner name
  builds := buildsOf_create runner name
  every p lasting every := by
    apply every_setJob every
    apply lasting.present
    cases listed : runner.jobs.get? name with
    | none => exact lasting.plain name
    | some job => exact every name job listed

theorem rests_next (runner : Runner) : Rests runner runner.next :=
  ⟨grows_next runner, buildsOf_next runner, fun _ lasting => every_next lasting⟩

/-- A tick passes, whether hooks wait for it or not. -/
theorem rests_advance (runner : Runner) :
    Rests runner runner.advance.1 ∧ runner.advance.1.tick = runner.tick + 1 := by
  have rests := rests_next runner
  exact ⟨⟨⟨rests.grows.tick, rests.grows.jobs⟩, rests.builds, rests.every⟩, tick_next runner⟩

end Runner

namespace Host

open Act

/-- Every call reaches the job table, and no job is taken away. -/
structure Faithful (host : Host) : Prop where
  faultless : host.script.faults = []
  lasting : ∀ action ∈ host.script.actions, action.2.keepsJobs

/-- What stays as it is until builds are stopped. Requests for a kill only rise. -/
structure Goes (before after : Host) : Prop where
  kill : before.kill.kind ≤ after.kill.kind
  script : after.script = before.script
  stopped : after.roster.stopped = before.roster.stopped
  trace : before.trace <:+ after.trace
  stops : after.trace.filter Event.isStop = before.trace.filter Event.isStop

theorem Goes.refl (host : Host) : Goes host host :=
  ⟨KillKind.le_refl _, rfl, rfl, List.suffix_refl _, rfl⟩

theorem Goes.trans {before middle after : Host} (left : Goes before middle)
    (right : Goes middle after) : Goes before after where
  kill := KillKind.le_trans left.kill right.kill
  script := right.script.trans left.script
  stopped := right.stopped.trans left.stopped
  trace := left.trace.trans right.trace
  stops := right.stops.trans left.stops

theorem Stays.goes {before after : Host} (stays : Stays before after) : Goes before after :=
  ⟨stays.kill ▸ KillKind.le_refl _, stays.script, stays.stopped, stays.trace, stays.stops⟩

theorem Goes.reads {before after : Host} (goes : Goes before after) {now : Instant}
    (read : before.reads now) : after.reads now := by
  obtain ⟨tick, member⟩ := read
  exact ⟨tick, goes.trace.subset member⟩

theorem Faithful.goes {before after : Host} (faithful : before.Faithful)
    (goes : Goes before after) : after.Faithful :=
  ⟨goes.script ▸ faithful.faultless, goes.script ▸ faithful.lasting⟩

/-- The action comes to its end, and all it can do is to ask for a kill or to let
jobs be created. -/
def Tame (action : Act Host Unit) : Prop :=
  ∀ host : Host, host.Faithful → action.Leads host fun answer after =>
    answer = .ok () ∧ Goes host after ∧ host.runner.Rests after.runner ∧
      after.runner.tick = host.runner.tick ∧ after.roster.resolved = host.roster.resolved

theorem tame_pure : Tame (pure ()) := fun host _ => ⟨rfl, .refl host, .refl _, rfl, rfl⟩

theorem Mild.tame {action : Act Host Unit} (mild : Mild action) : Tame action := by
  intro host faithful
  refine (mild host faithful.faultless).mono ?_
  rintro answer after ⟨rfl, stays, same⟩
  have runner : after.runner = host.runner := congrArg World.runner same
  exact ⟨rfl, stays.goes, runner ▸ .refl _, congrArg Runner.tick runner,
    congrArg World.resolved same⟩

theorem Tame.bind {first second : Act Host Unit} (tame : Tame first) (tame' : Tame second) :
    Tame (first >>= fun _ => second) := by
  intro host faithful
  rw [leads_bind]
  refine (tame host faithful).mono ?_
  rintro answer there ⟨rfl, goes, rests, tick, resolved⟩
  refine (tame' there (faithful.goes goes)).mono ?_
  rintro answer after ⟨rfl, goes', rests', tick', resolved'⟩
  exact ⟨rfl, goes.trans goes', rests.trans rests', tick'.trans tick, resolved'.trans resolved⟩

theorem tame_forM {α : Type} {action : α → Act Host Unit} {items : List α}
    (tame : ∀ item ∈ items, Tame (action item)) : Tame (items.forM action) := by
  induction items with
  | nil => exact tame_pure
  | cons item rest ih =>
      apply (tame item List.mem_cons_self).bind
      exact ih fun other member => tame other (List.mem_cons_of_mem _ member)

/-- Asking for a kill changes nothing else. -/
theorem leads_requestKill (kind : KillKind) (reason : String) (host : Host) :
    (requestKill kind reason).Leads host fun answer after =>
      answer = .ok () ∧ Goes host after ∧ after.world = host.world := by
  unfold requestKill
  rw [leads_bind, leads_get]
  dsimp only
  split
  · next raises =>
      have above : host.kill.kind.rank < kind.rank := of_decide_eq_true raises
      have requested : (host.kill.request kind reason).kind = kind := by
        rw [KillSwitch.request, if_pos raises]
      have risen : host.kill.kind ≤ (host.kill.request kind reason).kind := by
        rw [requested]
        exact Nat.le_of_lt above
      exact ⟨rfl, ⟨risen, rfl, rfl, List.suffix_cons _ _, rfl⟩, rfl⟩
  · exact ⟨rfl, .refl host, rfl⟩

theorem leads_requestKills {α : Type} (kind : α → KillKind) (reason : α → String) (items : List α)
    (host : Host) :
    (items.forM fun item => requestKill (kind item) (reason item)).Leads host fun answer after =>
      answer = .ok () ∧ Goes host after ∧ after.world = host.world := by
  induction items generalizing host with
  | nil => exact ⟨rfl, .refl host, rfl⟩
  | cons item rest ih =>
      rw [List.forM, leads_bind]
      refine (leads_requestKill (kind item) (reason item) host).mono ?_
      rintro answer there ⟨rfl, goes, same⟩
      refine (ih there).mono ?_
      rintro answer after ⟨rfl, goes', same'⟩
      exact ⟨rfl, goes.trans goes', same'.trans same⟩

theorem tame_requestKill (kind : KillKind) (reason : String) : Tame (requestKill kind reason) := by
  intro host _
  refine (leads_requestKill kind reason host).mono ?_
  rintro answer after ⟨rfl, goes, same⟩
  have runner : after.runner = host.runner := congrArg World.runner same
  exact ⟨rfl, goes, runner ▸ .refl _, congrArg Runner.tick runner, congrArg World.resolved same⟩

theorem tame_perform {action : Action} (keeps : action.keepsJobs) : Tame (perform action) := by
  cases action with
  | add => cases keeps
  | delete => cases keeps
  | create job =>
      exact fun host _ => ⟨rfl, ⟨KillKind.le_refl _, rfl, rfl, List.suffix_refl _, rfl⟩,
        Runner.rests_create host.runner job, rfl, rfl⟩
  | kill kind reason => exact tame_requestKill kind reason
  | shiftClock micros =>
      have mild : Mild (perform (.shiftClock micros)) := mild_perform rfl
      exact mild.tame
  | blockGraph =>
      have mild : Mild (perform .blockGraph) := mild_perform rfl
      exact mild.tame
  | terminate =>
      intro host _
      unfold perform
      rw [leads_modify]
      split
      · exact ⟨rfl, ⟨KillKind.le_refl _, rfl, rfl, List.suffix_refl _, rfl⟩, .refl _, rfl, rfl⟩
      · exact ⟨rfl, .refl host, .refl _, rfl, rfl⟩

/-- A sweep on such a host may be interrupted. -/
def Conduct.faithful : Conduct where
  fit := Faithful
  goes := Goes
  faultless faithful := faithful.faultless
  stays := Stays.goes
  trans := .trans
  kept := Faithful.goes
  springs {host} _ _ := leads_requestKills InvokeTrap.kind InvokeTrap.reason _ host

/-! ## Time -/

/-- How waiting for a tick ends where kills may be requested. -/
structure Passes (host : Host) (answer : Except Halt Unit) (after : Host) : Prop where
  goes : Goes host after
  rests : host.runner.Rests after.runner
  resolved : after.roster.resolved = host.roster.resolved
  tick : answer = .ok () →
    after.runner.tick = host.runner.tick + 1 ∧ host.runner.tick + 1 ≤ host.script.maxTicks
  reads : answer = .ok () → after.reads after.clock
  answered : host.runner.Fits → host.runner.tick + 1 ≤ host.script.maxTicks → answer = .ok ()

/-- Builds go on, and whatever fires or acts at the tick can at most ask for a kill. -/
theorem leads_strike_faithful {host : Host} (faithful : host.Faithful) :
    strike.Leads host fun answer after =>
      answer = .ok (host.runner.tick + 1) ∧ Goes host after ∧ host.runner.Rests after.runner ∧
        after.runner.tick = host.runner.tick + 1 ∧
          after.roster.resolved = host.roster.resolved := by
  unfold strike
  rw [leads_bind, leads_get]
  dsimp only
  obtain ⟨rests, ticked⟩ := Runner.rests_advance host.runner
  generalize host.runner.advance = out at rests ticked ⊢
  obtain ⟨advanced, fired⟩ := out
  dsimp only at rests ticked ⊢
  rw [leads_bind, setRunner, leads_modify]
  dsimp only
  have moved : Goes host { host with runner := advanced } :=
    ⟨KillKind.le_refl _, rfl, rfl, List.suffix_refl _, rfl⟩
  -- Neither the hooks that fire nor what the script does at the tick can start or stop builds.
  have hooks : Tame (fired.forM fun hook =>
      requestKill hook.kind "kill requested by mock runner") :=
    tame_forM fun hook _ => tame_requestKill _ _
  rw [leads_bind]
  refine (hooks _ (faithful.goes moved)).mono ?_
  rintro answer asked ⟨rfl, goes, rests', tick, resolved⟩
  replace goes := moved.trans goes
  dsimp only
  rw [leads_bind, leads_get]
  dsimp only
  rw [leads_bind]
  have acts : Tame ((asked.script.actions.filter fun action =>
      action.1 = advanced.tick).forM fun action => perform action.2) :=
    tame_forM fun action member => tame_perform
      ((faithful.goes goes).lasting action (List.mem_filter.mp member).1)
  refine (acts asked (faithful.goes goes)).mono ?_
  rintro answer after ⟨rfl, onward, rests'', tick', resolved'⟩
  exact ⟨congrArg Except.ok ticked, goes.trans onward, (rests.trans rests').trans rests'',
    (tick'.trans tick).trans ticked, resolved'.trans resolved⟩

theorem passes_quickPoll {host : Host} (faithful : host.Faithful) :
    quickPoll.Leads host (Passes host) := by
  refine leads_quickPoll_of faithful.faultless ?_ fun there _ stays same => ?_
  · intro there stays same unfit
    have runner : there.runner = host.runner := congrArg World.runner same
    exact ⟨stays.goes, runner ▸ .refl _, congrArg World.resolved same, nofun, nofun,
      fun fits _ => absurd fits.endsFit unfit⟩
  · have runner : there.runner = host.runner := congrArg World.runner same
    refine (leads_strike_faithful (faithful.goes stays.goes)).mono ?_
    rintro answer after ⟨rfl, goes, rests, tick, resolved⟩
    rw [runner] at rests tick ⊢
    replace goes := stays.goes.trans goes
    replace resolved := resolved.trans (congrArg World.resolved same)
    have recorded : Goes host (after.after (.tick (host.runner.tick + 1) after.clock)) :=
      goes.trans (stays_after after rfl).goes
    refine ⟨_, rfl, goes.script, fun beyond => ?_, fun within => ?_⟩
    · exact ⟨recorded, rests, resolved, nofun, nofun,
        fun _ within => absurd within (Nat.not_le_of_lt beyond)⟩
    · exact ⟨recorded, rests, resolved, fun _ => ⟨tick, within⟩,
        fun _ => ⟨_, List.mem_cons_self⟩, fun _ _ => rfl⟩

theorem tame_sleep (duration : Duration) : Tame (sleep duration) := by
  intro host faithful
  unfold sleep
  rw [leads_bind, leads_get]
  dsimp only
  rw [leads_bind, leads_set]
  have slept : Goes host { host with clock := host.clock.add duration.micros } :=
    ⟨KillKind.le_refl _, rfl, rfl, List.suffix_refl _, rfl⟩
  dsimp only
  split
  · have delivers : Tame (do
        modify fun host => { host with listener := .off }
        log .warn "Received SIGTERM, killing builds started by this flow" []
        requestKill .current "SIGTERM") := by
      apply Tame.bind (fun host _ => ⟨rfl, ⟨KillKind.le_refl _, rfl, rfl, List.suffix_refl _, rfl⟩, .refl _, rfl, rfl⟩)
      exact (mild_log _ _ _).tame.bind (tame_requestKill _ _)
    refine (delivers _ (faithful.goes slept)).mono ?_
    rintro answer after ⟨rfl, goes, rests, tick, resolved⟩
    exact ⟨rfl, slept.trans goes, rests, tick, resolved⟩
  · exact ⟨rfl, slept, .refl _, rfl, rfl⟩

theorem mild_queuePoll : Mild queuePoll :=
  (mild_record rfl).bind (mild_meetFaults _ _)

end Host

end BuildFlow
