import BuildFlow.Proofs.Kill.Own
/-!
The kill loop as a chain of rounds, in each of which a tick passes and the tree is
gone through once. Requests for a kill may still rise between two rounds.
-/
namespace BuildFlow

open NodeAct Act

/-- So many ticks pass while no build is started or stopped. -/
structure Host.Idles (ticks : Nat) (before after : Host) : Prop where
  goes : before.Goes after
  rests : before.runner.Rests after.runner
  tick : after.runner.tick = before.runner.tick + ticks

namespace Flow

/-! ## Rounds -/

/-- What the kill loop relies on. -/
structure Stopping (base : Runner) (tree : Tree) (host : Host) : Prop where
  faithful : host.Faithful
  fits : host.runner.Fits
  tied : ∀ leaf ∈ tree.tasks, leaf.Tied base host.runner

/-- One round of the kill loop: a tick passes, and then builds are stopped. -/
structure Round (tree : Tree) (host ticked : Host) (next : Tree) (after : Host) : Prop where
  idles : host.Idles 1 ticked
  within : host.runner.tick + 1 ≤ host.script.maxTicks
  /-- Nothing asks for a kill between the tick and the stops. -/
  asked : ticked.kill.kind = ((Host.quickPoll).run host).2.kill.kind
  spares : ticked.Spares after
  quits : tree.Quits (ticked.kill.kind = .all) ticked.scene next after.scene

/-- Where so many rounds of the kill loop lead. -/
inductive Quells : Nat → Tree → Host → Except Halt Unit → Tree → Host → Prop
  | breaks {rounds : Nat} {tree : Tree} {host after : Host} {halt : Halt}
      (late : rounds = 0 ∨ host.script.maxTicks < host.runner.tick + 1)
      (goes : host.Goes after) (rests : host.runner.Rests after.runner) :
      Quells rounds tree host (.error halt) tree after
  | settles {rounds : Nat} {tree next : Tree} {host ticked after : Host}
      (round : Round tree host ticked next after) (settled : next.standing.isFinished) :
      Quells (rounds + 1) tree host (.ok ()) next after
  | goesOn {rounds : Nat} {tree next last : Tree} {host ticked after slept ended : Host}
      {answer : Except Halt Unit} (round : Round tree host ticked next after)
      (unsettled : next.standing.isFinished = false) (sleeps : after.Idles 0 slept)
      (onward : Quells rounds next slept answer last ended) :
      Quells (rounds + 1) tree host answer last ended

section

variable {base : Runner} {tree next : Tree} {host ticked after : Host}

theorem Stopping.idles (stopping : Stopping base tree host) {ticks : Nat}
    (idles : host.Idles ticks after) : Stopping base tree after where
  faithful := stopping.faithful.goes idles.goes
  fits := Runner.fits_iff.mpr
    (idles.rests.every _ Runner.fits_lasting (Runner.fits_iff.mp stopping.fits))
  tied leaf member := (stopping.tied leaf member).grows idles.rests.grows

theorem Round.goes (round : Round tree host ticked next after) :
    host.kill.kind ≤ after.kill.kind ∧ after.script = host.script :=
  ⟨round.spares.kill ▸ round.idles.goes.kill, round.spares.script.trans round.idles.goes.script⟩

theorem Round.tick (round : Round tree host ticked next after) :
    after.runner.tick = host.runner.tick + 1 :=
  round.quits.halts.tick.trans round.idles.tick

theorem Round.own (round : Round tree host ticked next after) (own : after.kill.kind ≠ .all) :
    Tree.Quits false tree ticked.scene next after.scene := by
  have quits := round.quits
  rwa [decide_eq_false (round.spares.kill ▸ own)] at quits

theorem Stopping.round (stopping : Stopping base tree host)
    (round : Round tree host ticked next after) : Stopping base next after where
  faithful :=
    have faithful := (stopping.idles round.idles).faithful
    ⟨round.spares.script ▸ faithful.faultless, round.spares.script ▸ faithful.lasting⟩
  fits := round.quits.halts.fits (stopping.idles round.idles).fits
  tied := round.quits.tied (stopping.idles round.idles).tied

end

theorem tame_ticks {action : Act Host Unit} (tame : Host.Tame action) {host : Host}
    (faithful : host.Faithful) :
    action.Leads host fun answer after => answer = .ok () ∧ host.Idles 0 after := by
  refine (tame host faithful).mono ?_
  rintro answer after ⟨rfl, goes, rests, tick, -⟩
  exact ⟨rfl, goes, rests, tick⟩

/-- One round of the kill loop: a tick passes, and builds are stopped wherever the tree asks for it. -/
def killRound : Step Unit := do
  onHost Host.quickPoll
  onHost Host.queuePoll
  killOnce

theorem killLoop_succ (sleep : Duration) (rounds : Nat) :
    (killLoop sleep (rounds + 1) : Step Unit) = (do
      killRound
      if (← node).root.checking = .finished then pure ()
      else
        onHost (Host.sleep sleep)
        killLoop sleep rounds) := by
  simp only [killRound, bind_assoc]
  rfl

theorem leads_killRound {base : Runner} {flow : Flow} {host : Host}
    (stopping : Stopping base flow.root host) :
    killRound.Leads (flow, host) fun answer state =>
      (answer = .ok () → ∃ ticked, Round flow.root host ticked state.1.root state.2) ∧
      ∀ halt, answer = .error halt → host.script.maxTicks < host.runner.tick + 1 ∧
        state.1 = flow ∧ host.Goes state.2 ∧ host.runner.Rests state.2.runner := by
  unfold killRound
  rw [leads_bind, leads_onHost]
  refine (Host.passes_quickPoll stopping.faithful).known.mono ?_
  rintro answer polled ⟨passes, ran⟩
  cases answer with
  | error halt =>
      refine ⟨nofun, fun _ _ => ⟨Nat.lt_of_not_le fun within => ?_, rfl, passes.goes, passes.rests⟩⟩
      cases passes.answered stopping.fits within
  | ok =>
      obtain ⟨now, within⟩ := passes.tick rfl
      have polls : host.Idles 1 polled := ⟨passes.goes, passes.rests, now⟩
      dsimp only
      rw [leads_bind, leads_onHost]
      refine (Host.mild_queuePoll polled (stopping.idles polls).faithful.faultless).mono ?_
      rintro answer ticked ⟨rfl, stays, world⟩
      have runner : ticked.runner = polled.runner := congrArg World.runner world
      have idles : host.Idles 1 ticked :=
        ⟨polls.goes.trans stays.goes, runner ▸ polls.rests, runner ▸ polls.tick⟩
      -- Nothing asks for a kill while the queue is looked at.
      have asked : ticked.kill.kind = (Host.quickPoll.run host).2.kill.kind := by
        rw [ran]
        exact stays.kill
      have stopping' := stopping.idles idles
      obtain ⟨ended, spares, quits⟩ := Tree.kill_quits flow.root stopping'.faithful.faultless
        stopping'.fits stopping'.tied
      dsimp only
      unfold killOnce visitRoot
      rw [leads_bind, leads_node]
      dsimp only
      rw [leads_onPart, ended]
      exact ⟨fun _ => ⟨ticked, idles, within, asked, spares, quits⟩, nofun⟩

/-- The kill loop leads where rounds lead. -/
theorem leads_killLoop {base : Runner} (sleep : Duration) (rounds : Nat) {flow : Flow} {host : Host}
    (stopping : Stopping base flow.root host) :
    (killLoop sleep rounds).Leads (flow, host) fun answer state =>
      Quells rounds flow.root host answer state.1.root state.2 := by
  -- By induction on the rounds left; each leaves a host that is still being stopped.
  induction rounds generalizing flow host with
  | zero => exact .breaks (.inl rfl) (.refl host) (.refl _)
  | succ rounds ih =>
      rw [killLoop_succ, leads_bind]
      refine (leads_killRound stopping).mono ?_
      rintro answer ⟨stopped, after⟩ ⟨goesOn, breaks⟩
      cases answer with
      | error halt =>
          obtain ⟨late, rfl, goes, rests⟩ := breaks halt rfl
          exact .breaks (.inr late) goes rests
      | ok =>
          obtain ⟨ticked, round⟩ := goesOn rfl
          dsimp only at round ⊢
          rw [leads_bind, leads_node]
          dsimp only
          split
          · next settled => exact .settles round (decide_eq_true settled)
          · next unsettled =>
              have stopping' := stopping.round round
              rw [leads_bind, leads_onHost]
              refine (tame_ticks (Host.tame_sleep sleep) stopping'.faithful).mono ?_
              rintro answer slept ⟨rfl, sleeps⟩
              refine (ih (stopping'.idles sleeps)).mono ?_
              exact fun answer state onward =>
                .goesOn round (decide_eq_false unsettled) sleeps onward

/-! ## What rounds keep -/

variable {rounds : Nat} {tree last : Tree} {host ended : Host} {answer : Except Halt Unit}

theorem Quells.kill (quells : Quells rounds tree host answer last ended) :
    host.kill.kind ≤ ended.kill.kind := by
  induction quells with
  | breaks _ goes => exact goes.kill
  | settles round => exact round.goes.1
  | goesOn round _ sleeps _ ih =>
      exact KillKind.le_trans round.goes.1 (KillKind.le_trans sleeps.goes.kill ih)

/-- Nothing is tried again. -/
theorem Quells.counts (quells : Quells rounds tree host answer last ended) :
    last.counts = tree.counts := by
  induction quells with
  | breaks => rfl
  | settles round => exact round.quits.counts
  | goesOn round _ _ _ ih => exact ih.trans round.quits.counts

theorem Quells.grows (quells : Quells rounds tree host answer last ended) :
    host.runner.Grows ended.runner := by
  induction quells with
  | breaks _ _ rests => exact rests.grows
  | settles round => exact round.idles.rests.grows.trans round.quits.halts.grows
  | goesOn round _ sleeps _ ih =>
      exact ((round.idles.rests.grows.trans round.quits.halts.grows).trans sleeps.rests.grows).trans ih

theorem once_idles {start : List Event} {before after : Host} (goes : before.Goes after)
    (rests : before.runner.Rests after.runner) (once : before.scene.Once start) :
    after.scene.Once start := by
  obtain ⟨new, stops, distinct, ceased⟩ := once.since
  exact ⟨rests.every _ Runner.numbered_lasting once.numbered, new, goes.stops.trans stops, distinct,
    fun url member => rests.ended (ceased url member)⟩

/-- No build is told to stop twice. -/
theorem Quells.once {base : Runner} {start : List Event}
    (quells : Quells rounds tree host answer last ended) (stopping : Stopping base tree host)
    (once : host.scene.Once start) : ended.scene.Once start := by
  induction quells with
  | breaks _ goes rests => exact once_idles goes rests once
  | settles round =>
      exact round.quits.once (stopping.idles round.idles).tied
        (once_idles round.idles.goes round.idles.rests once)
  | goesOn round _ sleeps _ ih =>
      have once := round.quits.once (stopping.idles round.idles).tied
        (once_idles round.idles.goes round.idles.rests once)
      exact ih ((stopping.round round).idles sleeps) (once_idles sleeps.goes sleeps.rests once)

/-- As long as not all builds are to be stopped, only pursued builds are touched. -/
theorem Quells.untouched (quells : Quells rounds tree host answer last ended)
    (own : ended.kill.kind ≠ .all) {name : String} {index : Nat}
    (free : ∀ ref, tree.Pursues ref → ¬ (ref.job = name ∧ ref.index = index)) :
    (ended.runner.buildsOf name)[index]? = (host.runner.buildsOf name)[index]? := by
  have passes : ∀ {tree next : Tree} {host ticked after : Host}, Round tree host ticked next after →
      after.kill.kind ≠ .all →
      (∀ ref, tree.Pursues ref → ¬ (ref.job = name ∧ ref.index = index)) →
      (after.runner.buildsOf name)[index]? = (host.runner.buildsOf name)[index]? ∧
        ∀ ref, next.Pursues ref → ¬ (ref.job = name ∧ ref.index = index) := by
    intro tree next host ticked after round own free
    have quits := round.own own
    refine ⟨(quits.untouched free).trans ?_, fun ref pursues => free ref (quits.pursues pursues)⟩
    exact congrArg (·[index]?) (round.idles.rests.builds name)
  induction quells with
  | breaks _ _ rests => rw [rests.builds]
  | settles round => exact (passes round own free).1
  | goesOn round _ sleeps onward ih =>
      have own' := KillKind.ne_all_of_le (KillKind.le_trans sleeps.goes.kill onward.kill) own
      obtain ⟨same, free⟩ := passes round own' free
      exact (ih own free).trans ((congrArg (·[index]?) (sleeps.rests.builds name)).trans same)

/-- As long as not all builds are to be stopped, no job is told to stop all of its builds. -/
theorem Quells.own (quells : Quells rounds tree host answer last ended)
    (own : ended.kill.kind ≠ .all) :
    ∃ new, ended.scene.stops = new ++ host.scene.stops ∧
      ∀ event ∈ new, event.isStopAll = false := by
  have passes : ∀ {tree next : Tree} {host ticked after : Host}, Round tree host ticked next after →
      after.kill.kind ≠ .all → ∃ new, after.scene.stops = new ++ host.scene.stops ∧
        ∀ event ∈ new, event.isStopAll = false := by
    intro tree next host ticked after round own
    obtain ⟨new, stops, single⟩ := (round.own own).own
    exact ⟨new, stops.trans (congrArg (new ++ ·) round.idles.goes.stops), single⟩
  induction quells with
  | breaks _ goes => exact ⟨[], goes.stops, fun _ member => nomatch member⟩
  | settles round => exact passes round own
  | goesOn round _ sleeps onward ih =>
      have own' := KillKind.ne_all_of_le (KillKind.le_trans sleeps.goes.kill onward.kill) own
      obtain ⟨earlier, stops, single⟩ := passes round own'
      obtain ⟨later, stops', single'⟩ := ih own
      have middle : _ = _ := sleeps.goes.stops
      refine ⟨later ++ earlier, ?_, fun event member => ?_⟩
      · rw [stops', List.append_assoc, ← stops]
        exact congrArg (later ++ ·) middle
      · exact (List.mem_append.mp member).elim (single' event) (single event)

/-! ## The end of the loop -/

theorem hushed_idles {before after : Host} {ticks : Nat} (idles : before.Idles ticks after)
    (hushed : before.scene.Hushed) : after.scene.Hushed := by
  intro name member
  have stopped : after.scene.stopped = before.scene.stopped := idles.goes.stopped
  exact idles.rests.silent (hushed name (stopped ▸ member))

/-- After one round the tree is settled, or waits for builds that are over. -/
theorem Round.ceased {next : Tree} {ticked after : Host} (round : Round tree host ticked next after)
    (unsent : ∀ leaf ∈ tree.tasks, leaf.stopSent = false) (hushed : host.scene.Hushed)
    (unsettled : next.standing.isFinished = false) :
    ∀ leaf ∈ next.openTasks, leaf.Ceased after.runner := by
  have quits := round.quits
  cases all : decide (ticked.kill.kind = .all) with
  | false =>
      rw [all] at quits
      exact quits.ceased unsent
  | true =>
      rw [all] at quits
      cases (quits.finished_all (hushed_idles round.idles hushed)).symm.trans unsettled

/-- Where all builds that are waited for are over, one round settles the tree. -/
theorem Round.settles {next : Tree} {ticked after : Host} (round : Round tree host ticked next after)
    (ceased : ∀ leaf ∈ tree.openTasks, leaf.Ceased host.runner) (hushed : host.scene.Hushed) :
    next.standing.isFinished := by
  have quits := round.quits
  cases all : decide (ticked.kill.kind = .all) with
  | false =>
      rw [all] at quits
      exact quits.finished_ceased fun leaf member =>
        (ceased leaf member).grows round.idles.rests.grows
  | true =>
      rw [all] at quits
      exact quits.finished_all (hushed_idles round.idles hushed)

/-- If two more ticks are answered, the loop comes to its end by then. -/
theorem Quells.ends (quells : Quells rounds tree host answer last ended) (two : 2 ≤ rounds)
    (within : host.runner.tick + 2 ≤ host.script.maxTicks)
    (unsent : ∀ leaf ∈ tree.tasks, leaf.stopSent = false) (hushed : host.scene.Hushed) :
    answer = .ok () ∧ last.standing.isFinished ∧
      ended.runner.tick ≤ host.runner.tick + 2 := by
  cases quells with
  | breaks late => omega
  | settles round settled => exact ⟨rfl, settled, by rw [round.tick]; omega⟩
  | goesOn round unsettled sleeps onward =>
      have ceased := round.ceased unsent hushed unsettled
      have hushed : _ := hushed_idles sleeps
        (round.quits.onward.hushed (hushed_idles round.idles hushed))
      have limit := congrArg Script.maxTicks (sleeps.goes.script.trans round.goes.2)
      have tick := sleeps.tick.trans round.tick
      cases onward with
      | breaks late => omega
      | settles round' settled => exact ⟨rfl, settled, by rw [round'.tick]; omega⟩
      | goesOn round' unsettled' =>
          -- The second round leaves nothing to wait for.
          have settled := round'.settles
            (fun leaf member => (ceased leaf member).grows sleeps.rests.grows) hushed
          cases settled.symm.trans unsettled'

/-! ## Where the loop begins -/

/-- A run up to the end of its kill loop, if it gets there. -/
def through : Step Unit := do
  match ← reach with
  | some (sleep, rounds) => killLoop sleep rounds
  | none => pure ()

/-- A flow that was not run before enters its kill loop. -/
structure Enters (flow : Flow) (host : Host) (sleep : Duration) (rounds : Nat)
    (state : Flow × Host) : Prop where
  fresh : flow.root.IsFresh
  faithful : host.Faithful
  numbered : host.runner.Numbered
  /-- No job was told to stop all of its builds before. -/
  unstopped : host.roster.stopped = []
  reached : reach.run (flow, host) = (.ok (some (sleep, rounds)), state)
  fits : state.2.runner.Fits

section

variable {flow : Flow} {sleep : Duration} {state : Flow × Host}

/-- What every prepared tree has, and tours keep, the tree has when the loop begins. -/
theorem Enters.entered (enters : flow.Enters host sleep rounds state)
    {kept : Tree → Host → Prop} (lasts : Lasts kept)
    (prepares : ∀ {tree after}, host.Goes after →
      flow.root.Prepared flow.settings.requireIdle host.world (.ok ()) tree after.world →
        kept tree after) : Entered kept host rounds state :=
  (leads_reach lasts enters.faithful enters.fresh prepares).ran enters.reached sleep rounds rfl

theorem Enters.layout (enters : flow.Enters host sleep rounds state) :
    state.1.root.blank = flow.root :=
  (enters.entered (lasts_layout flow.root) fun _ prepared => prepared.2.1).kept

theorem Enters.armed (enters : flow.Enters host sleep rounds state) :
    Entered (fun tree there => tree.Armed host.runner there.world) host rounds state :=
  enters.entered (lasts_armed host.runner) fun _ => armed_of_prepared enters.numbered

theorem Enters.stopping (enters : flow.Enters host sleep rounds state) :
    Stopping host.runner state.1.root state.2 where
  faithful := enters.faithful.goes enters.armed.goes
  fits := enters.fits
  tied leaf member := (enters.armed.kept.tied leaf member).1

theorem Enters.unsent (enters : flow.Enters host sleep rounds state) :
    ∀ leaf ∈ state.1.root.tasks, leaf.stopSent = false :=
  fun leaf member => (enters.armed.kept.tied leaf member).2

theorem Enters.hushed (enters : flow.Enters host sleep rounds state) : state.2.scene.Hushed := by
  have none : state.2.scene.stopped = [] := enters.armed.goes.stopped.trans enters.unstopped
  intro name member
  rw [none] at member
  cases member

theorem Enters.once (enters : flow.Enters host sleep rounds state) :
    state.2.scene.Once host.scene.stops where
  numbered := enters.armed.kept.numbered
  since := ⟨[], enters.armed.goes.stops, List.nodup_nil, fun _ member => nomatch member⟩

/-- Whether a run gets to its kill loop. -/
def gets : Except Halt (Option (Duration × Nat)) → Bool
  | .ok (some _) => true
  | _ => false

theorem enters_of_gets (fresh : flow.root.IsFresh) (faithful : host.Faithful)
    (numbered : host.runner.Numbered) (unstopped : host.roster.stopped = [])
    {answer : Except Halt (Option (Duration × Nat))}
    (ran : reach.run (flow, host) = (answer, state)) (reached : gets answer)
    (fits : state.2.runner.Fits) : ∃ sleep rounds, flow.Enters host sleep rounds state := by
  cases answer with
  | error halt => cases reached
  | ok found? =>
      cases found? with
      | none => cases reached
      | some found => exact ⟨found.1, found.2, fresh, faithful, numbered, unstopped, ran, fits⟩

/-- The loop of the run, as a chain of rounds. -/
theorem Enters.quells (enters : flow.Enters host sleep rounds state) :
    Quells rounds state.1.root state.2 ((killLoop sleep rounds).run state).1
      ((killLoop sleep rounds).run state).2.1.root ((killLoop sleep rounds).run state).2.2 :=
  leads_killLoop sleep rounds enters.stopping

theorem Enters.through (enters : flow.Enters host sleep rounds state) :
    through.run (flow, host) = (killLoop sleep rounds).run state :=
  run_bind_of_ok enters.reached

end

end Flow

end BuildFlow
