import BuildFlow.Proofs.Flow.Prepare
import BuildFlow.Flow
/-!
The loop of a run on a quiet host, as rounds: a tick passes, and one sweep goes
over the tree. The loop ends when the root waits for nothing any more, when a
sweep breaks off, or when no more ticks are answered.
-/
namespace BuildFlow

open NodeAct Act

namespace Host

/-! ## Calls that change nothing a sweep looks at -/

/-- The action comes to its end and leaves the job table and the roster alone. -/
def Mild (action : Act Host Unit) : Prop :=
  ∀ host : Host, host.script.faults = [] → action.Leads host fun answer after =>
    answer = .ok () ∧ Stays host after ∧ after.world = host.world

theorem mild_pure : Mild (pure ()) := fun host _ => ⟨rfl, .refl host, rfl⟩

theorem mild_record {event : Event} (mute : event.isStop = false) : Mild (record event) :=
  fun host _ => ⟨rfl, stays_after host mute, rfl⟩

theorem mild_log (level : Level) (message : String) (fields : List (String × Json)) :
    Mild (Host.log level message fields) :=
  mild_record rfl

theorem Mild.bind {first second : Act Host Unit} (mild : Mild first) (mild' : Mild second) :
    Mild (first >>= fun _ => second) := by
  intro host faultless
  rw [leads_bind]
  refine (mild host faultless).mono ?_
  rintro answer there ⟨rfl, stays, same⟩
  refine (mild' there (stays.faultless faultless)).mono ?_
  rintro answer after ⟨rfl, onward, same'⟩
  exact ⟨rfl, stays.trans onward, same'.trans same⟩

theorem mild_forM {α : Type} {action : α → Act Host Unit} {items : List α}
    (mild : ∀ item ∈ items, Mild (action item)) : Mild (items.forM action) := by
  induction items with
  | nil => exact mild_pure
  | cons item rest ih =>
      exact (mild item List.mem_cons_self).bind
        (ih fun other member => mild other (List.mem_cons_of_mem _ member))

theorem mild_lookAtGraph : Mild lookAtGraph := by
  intro host _
  unfold lookAtGraph
  rw [leads_bind, leads_get]
  dsimp only
  split
  · exact ⟨rfl, ⟨rfl, rfl, rfl, rfl, rfl, List.suffix_cons _ _, rfl⟩, rfl⟩
  · exact ⟨rfl, .refl host, rfl⟩

theorem mild_meetFaults (call : Call) (job : Option String) : Mild (discard (meetFaults call job)) := by
  intro host faultless
  rw [leads_discard, leads_meetFaults faultless]
  exact ⟨rfl, .refl host, rfl⟩

theorem mild_poll : Mild poll :=
  (mild_record rfl).bind (mild_lookAtGraph.bind (mild_meetFaults _ _))

theorem mild_perform {action : Action} (gentle : action.isGentle) : Mild (perform action) := by
  intro host _
  cases action with
  | shiftClock => exact ⟨rfl, ⟨rfl, rfl, rfl, rfl, rfl, List.suffix_refl _, rfl⟩, rfl⟩
  | blockGraph =>
      unfold perform
      rw [leads_modify]
      split
      · exact ⟨rfl, ⟨rfl, rfl, rfl, rfl, rfl, List.suffix_refl _, rfl⟩, rfl⟩
      · exact ⟨rfl, .refl host, rfl⟩
  | _ => cases gentle

end Host

/-- The readings of the clock that ticks were put on record with. -/
def Host.reads (host : Host) (now : Instant) : Prop := ∃ tick, .tick tick now ∈ host.trace

theorem Host.Stays.reads {before after : Host} (stays : Stays before after) {now : Instant}
    (read : before.reads now) : after.reads now := by
  obtain ⟨tick, member⟩ := read
  exact ⟨tick, stays.trace.subset member⟩

/-- The world after a tick. -/
def World.next (world : World) : World := ⟨world.runner.next, world.resolved⟩

namespace Host

/-- What the runner says once it answers no more ticks. -/
def tickLimit : Halt := .error (.runner (.request "tick limit"))

/-- How waiting for a tick ends. -/
inductive Ticked (host : Host) : Except Halt Unit → Host → Prop
  | passed {after : Host} (world : after.world = host.world.next)
      (reads : .tick (host.runner.tick + 1) after.clock ∈ after.trace)
      (within : host.runner.tick + 1 ≤ host.script.maxTicks) : Ticked host (.ok ()) after
  | refused {after : Host} (world : after.world = host.world.next)
      (beyond : host.script.maxTicks < host.runner.tick + 1) :
      Ticked host (.error tickLimit) after
  | overrun {after : Host} (world : after.world = host.world) (overrun : ¬ host.runner.Fits) :
      Ticked host (.error (.broken .ticks)) after

/-! ### A tick, taken apart -/

/-- What happens at a tick: builds go on, hooks fire, and the script acts. The answer is the tick. -/
def strike : Act Host Nat := do
  let (runner, fired) := (← get).runner.advance
  setRunner runner
  fired.forM fun hook => requestKill hook.kind "kill requested by mock runner"
  ((← get).script.actions.filter fun action => action.1 = runner.tick).forM fun action =>
    perform action.2
  return runner.tick

/-- Puts a tick on record. It is refused beyond the limit. -/
def answerTick (tick : Nat) : Act Host Unit := do
  let host ← get
  record (.tick tick host.clock)
  if host.script.maxTicks < tick then refuse (.request "tick limit")
  else discard <| meetFaults .quickPoll none

theorem quickPoll_eq : quickPoll = (do
    lookAtGraph
    breakUnless (← get).runner.endsFit .ticks
    let tick ← strike
    answerTick tick) := by
  unfold quickPoll strike answerTick
  simp only [bind_assoc, pure_bind]

theorem leads_answerTick {host : Host} (faultless : host.script.faults = []) (tick : Nat) :
    (answerTick tick).Leads host fun answer after =>
      after = host.after (.tick tick host.clock) ∧
        (host.script.maxTicks < tick ∧ answer = .error tickLimit ∨
          tick ≤ host.script.maxTicks ∧ answer = .ok ()) := by
  unfold answerTick
  rw [leads_bind, leads_get]
  dsimp only
  rw [leads_bind, leads_record]
  dsimp only
  split
  · next beyond => exact ⟨rfl, .inl ⟨beyond, rfl⟩⟩
  · next within =>
      have faultless : (host.after (.tick tick host.clock)).script.faults = [] := faultless
      rw [leads_discard, leads_meetFaults faultless]
      exact ⟨rfl, .inr ⟨Nat.le_of_not_lt within, rfl⟩⟩

/-- Where a tick leads follows from what happens at it, on any host whose script makes no call
fail. -/
theorem leads_quickPoll_of {host : Host} (faultless : host.script.faults = [])
    {post : Except Halt Unit → Host → Prop}
    (overrun : ∀ there, Stays host there → there.world = host.world → ¬ host.runner.endsFit →
      post (.error (.broken .ticks)) there)
    (struck : ∀ there, lookAtGraph.run host = (.ok (), there) → Stays host there →
      there.world = host.world → strike.Leads there fun answer after =>
        ∃ tick, answer = .ok tick ∧ after.script = host.script ∧
          (host.script.maxTicks < tick →
            post (.error tickLimit) (after.after (.tick tick after.clock))) ∧
          (tick ≤ host.script.maxTicks → post (.ok ()) (after.after (.tick tick after.clock)))) :
    quickPoll.Leads host post := by
  rw [quickPoll_eq, leads_bind]
  refine (mild_lookAtGraph host faultless).known.mono ?_
  rintro answer there ⟨⟨rfl, stays, same⟩, looked⟩
  have runner : there.runner = host.runner := congrArg World.runner same
  dsimp only
  rw [leads_bind, leads_get]
  dsimp only
  rw [leads_bind, leads_breakUnless]
  split
  · dsimp only
    rw [leads_bind]
    refine (struck there looked stays same).mono ?_
    rintro answer after ⟨tick, rfl, script, refused, passed⟩
    refine (leads_answerTick (script ▸ faultless) tick).mono ?_
    rintro answer last ⟨rfl, ⟨beyond, rfl⟩ | ⟨within, rfl⟩⟩
    · exact refused (script ▸ beyond)
    · exact passed (script ▸ within)
  · next unfit => exact overrun there stays same (runner ▸ unfit)

/-- On a quiet host no hook fires at a tick, so that only the script acts. -/
theorem leads_strike_of {host : Host} (quiet : host.Quiet) {post : Except Halt Nat → Host → Prop}
    (acted : ((host.script.actions.filter fun action => action.1 = host.runner.tick + 1).forM
      fun action => perform action.2).Leads (host.withRunner host.runner.next) fun answer after =>
        answer = .ok () ∧ post (.ok (host.runner.tick + 1)) after) :
    strike.Leads host post := by
  unfold strike
  rw [leads_bind, leads_get]
  dsimp only
  rw [Runner.advance_eq quiet.unhooked]
  dsimp only
  rw [setRunner, leads_bind, leads_modify]
  change Leads _ (host.withRunner host.runner.next) _
  rw [leads_bind, List.forM, leads_pure]
  dsimp only
  rw [leads_bind, leads_get]
  dsimp only
  rw [leads_bind, Runner.tick_next]
  refine acted.mono ?_
  rintro answer after ⟨rfl, led⟩
  exact led

theorem leads_strike {host : Host} (quiet : host.Quiet) :
    strike.Leads host fun answer after =>
      answer = .ok (host.runner.tick + 1) ∧ Stays host after ∧ after.world = host.world.next := by
  have moved : Stays host (host.withRunner host.runner.next) :=
    stays_withRunner host (Runner.hooks_next _)
  have acts : Mild ((host.script.actions.filter fun action =>
      action.1 = host.runner.tick + 1).forM fun action => perform action.2) :=
    mild_forM fun action member => mild_perform (quiet.gentle action (List.mem_filter.mp member).1)
  refine leads_strike_of quiet ((acts _ (quiet.stays moved).faultless).mono ?_)
  rintro answer after ⟨rfl, onward, same⟩
  exact ⟨rfl, rfl, moved.trans onward, same⟩

theorem leads_quickPoll {host : Host} (quiet : host.Quiet) :
    quickPoll.Leads host fun answer after => Stays host after ∧ Ticked host answer after := by
  refine leads_quickPoll_of quiet.faultless ?_ fun there _ stays same => ?_
  · exact fun there stays same unfit => ⟨stays, .overrun same fun fits => unfit fits.endsFit⟩
  · have tick : there.runner.tick = host.runner.tick := congrArg (·.runner.tick) same
    refine (leads_strike (quiet.stays stays)).mono ?_
    rintro answer after ⟨rfl, onward, world⟩
    rw [same] at world
    rw [tick]
    replace onward := stays.trans onward
    have last : Stays host (after.after (.tick (host.runner.tick + 1) after.clock)) :=
      onward.trans (stays_after after rfl)
    exact ⟨_, rfl, onward.script, fun beyond => ⟨last, .refused world beyond⟩,
      fun within => ⟨last, .passed world List.mem_cons_self within⟩⟩

/-- Time passes, and no signal has come. -/
theorem leads_sleep {host : Host} (unsignalled : host.listener ≠ .signalled)
    (duration : Duration) : (sleep duration).Leads host fun answer after =>
      answer = .ok () ∧ Stays host after ∧ after.world = host.world := by
  unfold sleep
  rw [leads_bind, leads_get]
  dsimp only
  rw [leads_bind, leads_set]
  dsimp only
  rw [if_neg unsignalled]
  exact ⟨rfl, ⟨rfl, rfl, rfl, rfl, rfl, List.suffix_refl _, rfl⟩, rfl⟩

end Host

namespace Flow

variable {flow : Flow} {host : Host}

/-- Writing the graph changes nothing that a sweep looks at, and fails only
where there is a directory for it. -/
theorem leads_writeGraph :
    (writeGraph : Step Unit).Leads (flow, host) fun answer state =>
      state.1 = flow ∧ Host.Stays host state.2 ∧ state.2.world = host.world ∧
        ∀ halt, answer = .error halt →
          flow.config.graphDir.isSome ∧ ∃ fault, halt = .error (.file fault) := by
  unfold writeGraph
  rw [leads_bind, leads_node]
  dsimp only
  split
  · next dir =>
      rw [leads_onHost]
      unfold Host.writeGraph
      rw [leads_bind, leads_get]
      dsimp only
      split
      · exact ⟨rfl, ⟨rfl, rfl, rfl, rfl, rfl, List.suffix_refl _, rfl⟩, rfl, fun _ same => by cases same⟩
      · exact ⟨rfl, .refl _, rfl, fun _ same => by cases same; exact ⟨dir, _, rfl⟩⟩
      · exact ⟨rfl, .refl _, rfl, fun _ same => by cases same; exact ⟨dir, _, rfl⟩⟩
  · exact ⟨rfl, .refl _, rfl, fun _ same => by cases same⟩

theorem leads_reportGraph (now : Instant) :
    (reportGraph now : Step Unit).Leads (flow, host) fun answer state =>
      state.1.root = flow.root ∧ state.1.config = flow.config ∧ Host.Stays host state.2 ∧
        state.2.world = host.world ∧
          ∀ halt, answer = .error halt →
            flow.config.graphDir.isSome ∧ ∃ fault, halt = .error (.file fault) := by
  unfold reportGraph
  rw [leads_bind, leads_node]
  dsimp only
  split
  · rw [leads_bind, leads_setNode]
    dsimp only
    refine leads_writeGraph.mono ?_
    rintro answer ⟨flow', after⟩ ⟨same, stays, world, fails⟩
    cases same
    exact ⟨rfl, rfl, stays, world, fails⟩
  · exact ⟨rfl, rfl, .refl _, rfl, fun _ same => by cases same⟩

theorem run_outcome {α : Type} (action : Step α) (state : Flow × Host) :
    (outcome action).run state = (.ok (action.run state).1, (action.run state).2) := by
  unfold outcome
  rw [run_tryCatch, run_bind]
  cases ended : action.run state with
  | mk answer state => cases answer <;> rfl

theorem leads_outcome {α : Type} (action : Step α) (state : Flow × Host)
    (post : Except Halt (Except Halt α) → Flow × Host → Prop) :
    (outcome action).Leads state post ↔
      action.Leads state fun answer state => post (.ok answer) state := by
  unfold Leads
  rw [run_outcome]

/-- A sweep over the tree is made while kill requests are let in, and its end is taken as an
answer. -/
theorem leads_checkOnce_of {now : Instant}
    {post : Except Halt (Except Halt Unit) → Flow × Host → Prop}
    (swept :
      let visited := Tree.check (flow.sweepAt now false) false flow.root
        { host with kill := host.kill.openWindow }
      post (.ok visited.1) ({ flow with root := visited.2.1 },
        { visited.2.2 with kill := visited.2.2.kill.closeWindow })) :
    (checkOnce now : Step (Except Halt Unit)).Leads (flow, host) post := by
  unfold checkOnce
  rw [leads_bind, leads_onHost, leads_modify]
  dsimp only
  rw [leads_bind, leads_node]
  dsimp only
  rw [leads_bind, leads_outcome]
  unfold visitRoot
  rw [leads_bind, leads_node]
  dsimp only
  rw [leads_onPart]
  exact swept

/-- One sweep over the tree of a flow. -/
theorem leads_checkOnce (quiet : host.Quiet) (now : Instant) :
    (checkOnce now : Step (Except Halt Unit)).Leads (flow, host) fun answer state =>
      ∃ ended, answer = .ok ended ∧ state.1.config = flow.config ∧ Host.Stays host state.2 ∧
        Tree.Sweeps now flow.root host.world ended state.1.root state.2.world := by
  have stays : Host.Stays host { host with kill := host.kill.openWindow } :=
    ⟨rfl, rfl, rfl, rfl, rfl, List.suffix_refl _, rfl⟩
  obtain ⟨onward, sweeps⟩ :=
    Tree.check_sweeps (flow.sweepAt now false) false flow.root (quiet.stays stays)
  refine leads_checkOnce_of ⟨_, rfl, rfl, ?_, sweeps⟩
  exact (stays.trans onward).trans ⟨rfl, rfl, rfl, rfl, rfl, List.suffix_refl _, rfl⟩

/-! ## One round -/

/-- What follows a sweep that came to its end. -/
def pause (sleep : Duration) (now : Instant) : Step Unit := do
  reportGraph now
  onHost (Host.sleep sleep)

/-- One round of the loop of a run: a tick passes, a sweep goes by the clock at that tick, and
unless a kill request broke it off, a report and a pause follow. -/
def turn (sleep : Duration) : Step Unit := do
  onHost Host.quickPoll
  let now := (← NodeAct.host).clock
  match ← checkOnce now with
  | .ok () => pause sleep now
  | .error (.error (.killed reason)) =>
      log .info "Sweep interrupted by kill request" [("reason", .text reason)]
  | .error halt => throw halt

/-- What follows the polls of a round does so after the whole round. -/
theorem turn_bind {α : Type} (sleep : Duration) (next : Step α) :
    (turn sleep >>= fun _ => next) = (do
      onHost Host.quickPoll
      let now := (← NodeAct.host).clock
      match ← checkOnce now with
      | .ok () =>
          reportGraph now
          onHost (Host.sleep sleep)
          next
      | .error (.error (.killed reason)) =>
          log .info "Sweep interrupted by kill request" [("reason", .text reason)]
          next
      | .error halt => throw halt) := by
  simp only [turn, bind_assoc]
  congr 1
  funext _
  congr 1
  funext host
  congr 1
  funext ended
  cases ended with
  | ok => exact bind_assoc _ _ _
  | error halt =>
      cases halt with
      | broken => rfl
      | error error => cases error <;> rfl

/-- The loop of a run stops builds, is over, or goes through one round more. -/
theorem pollLoop_succ (sleep : Duration) (ticks : Nat) : (pollLoop sleep (ticks + 1) : Step Unit) = (do
    if (← NodeAct.host).kill.isRequested then
      announceKill
      killLoop sleep (ticks + 1)
    else if (← node).root.checking ≠ .mustCheck then pure ()
    else
      turn sleep
      pollLoop sleep ticks) := by
  simp only [turn_bind]
  rfl

/-! ## The loop -/

/-- Where the loop of a run leads, from a tree and a world. `reads` holds of the
readings of the clock that sweeps go by, `dir` says whether the graph is
written. -/
inductive Looped (dir : Bool) (limit : Nat) (reads : Instant → Prop) :
    Tree → World → Except Halt Unit → Tree → World → Prop
  | settled {tree : Tree} {world : World} (settled : tree.checking ≠ .mustCheck) :
      Looped dir limit reads tree world (.ok ()) tree world
  | again {tree next last : Tree} {world there after : World} {now : Instant}
      {answer : Except Halt Unit} (unsettled : tree.checking = .mustCheck) (read : reads now)
      (within : world.runner.tick + 1 ≤ limit)
      (sweep : Tree.Sweeps now tree world.next (.ok ()) next there)
      (onward : Looped dir limit reads next there answer last after) :
      Looped dir limit reads tree world answer last after
  | broke {tree next : Tree} {world after : World} {now : Instant} {halt : Halt}
      (unsettled : tree.checking = .mustCheck) (read : reads now)
      (within : world.runner.tick + 1 ≤ limit)
      (sweep : Tree.Sweeps now tree world.next (.error halt) next after) :
      Looped dir limit reads tree world (.error halt) next after
  | refused {tree : Tree} {world : World} (unsettled : tree.checking = .mustCheck)
      (beyond : limit < world.runner.tick + 1) :
      Looped dir limit reads tree world (.error Host.tickLimit) tree world.next
  | overrun {tree : Tree} {world : World} (overrun : ¬ world.runner.Fits) :
      Looped dir limit reads tree world (.error (.broken .ticks)) tree world
  | unwritten {tree next : Tree} {world after : World} {now : Instant} {fault : FileFault}
      (written : dir) (unsettled : tree.checking = .mustCheck) (read : reads now)
      (within : world.runner.tick + 1 ≤ limit)
      (sweep : Tree.Sweeps now tree world.next (.ok ()) next after) :
      Looped dir limit reads tree world (.error (.error (.file fault))) next after

theorem Looped.mono {dir : Bool} {limit : Nat} {reads wider : Instant → Prop}
    (widens : ∀ now, reads now → wider now) {tree next : Tree} {world after : World}
    {answer : Except Halt Unit} (looped : Looped dir limit reads tree world answer next after) :
    Looped dir limit wider tree world answer next after := by
  induction looped with
  | settled settled => exact .settled settled
  | again unsettled read within sweep _ ih => exact .again unsettled (widens _ read) within sweep ih
  | broke unsettled read within sweep => exact .broke unsettled (widens _ read) within sweep
  | refused unsettled beyond => exact .refused unsettled beyond
  | overrun overrun => exact .overrun overrun
  | unwritten written unsettled read within sweep =>
      exact .unwritten written unsettled (widens _ read) within sweep

theorem Looped.blank {dir : Bool} {limit : Nat} {reads : Instant → Prop} {tree last : Tree}
    {world after : World} {answer : Except Halt Unit}
    (looped : Looped dir limit reads tree world answer last after) : last.blank = tree.blank := by
  induction looped with
  | settled => rfl
  | again _ _ _ sweep _ ih => exact ih.trans sweep.blank
  | broke _ _ _ sweep => exact sweep.blank
  | refused => rfl
  | overrun => rfl
  | unwritten _ _ _ _ sweep => exact sweep.blank

/-- A pause on a quiet host changes nothing that a sweep looks at, and fails only if the graph
cannot be written. -/
theorem leads_pause (sleep : Duration) (now : Instant) {flow : Flow} {host : Host}
    (quiet : host.Quiet) :
    (pause sleep now).Leads (flow, host) fun answer state =>
      state.1.root = flow.root ∧ state.1.config = flow.config ∧ Host.Stays host state.2 ∧
        state.2.world = host.world ∧
          ∀ halt, answer = .error halt →
            flow.config.graphDir.isSome ∧ ∃ fault, halt = .error (.file fault) := by
  unfold pause
  rw [leads_bind]
  refine (leads_reportGraph _).mono ?_
  rintro answer ⟨reported, written⟩ ⟨root, config, stays, same, fails⟩
  cases answer with
  | error halt =>
      obtain ⟨dir, fault, rfl⟩ := fails halt rfl
      exact ⟨root, config, stays, same, fun _ ended => by cases ended; exact ⟨dir, fault, rfl⟩⟩
  | ok =>
      dsimp only at stays same ⊢
      rw [leads_onHost]
      refine (Host.leads_sleep (quiet.stays stays).unsignalled sleep).mono ?_
      rintro answer slept ⟨rfl, slept', same'⟩
      exact ⟨root, config, stays.trans slept', same'.trans same, nofun⟩

/-- One round on a quiet host. Its sweep is not broken off by a kill, as nobody asks for one. -/
theorem leads_turn (sleep : Duration) {flow : Flow} {host : Host} (quiet : host.Quiet)
    (unsettled : flow.root.checking = .mustCheck) :
    (turn sleep).Leads (flow, host) fun answer state =>
      state.1.config = flow.config ∧ Host.Stays host state.2 ∧
        ((answer = .ok () ∧ host.runner.tick + 1 ≤ host.script.maxTicks ∧
            state.2.runner.tick = host.runner.tick + 1 ∧ ∃ now, state.2.reads now ∧
              Tree.Sweeps now flow.root host.world.next (.ok ()) state.1.root state.2.world) ∨
          ∃ halt, answer = .error halt ∧
            Looped flow.config.graphDir.isSome host.script.maxTicks state.2.reads flow.root host.world
              answer state.1.root state.2.world) := by
  unfold turn
  rw [leads_bind, leads_onHost]
  refine (Host.leads_quickPoll quiet).mono ?_
  rintro answer there ⟨stays, ticked⟩
  -- The tick may be refused, or tell of a build that ends beyond what can be counted.
  cases ticked with
  | refused world beyond =>
      refine ⟨rfl, stays, .inr ⟨_, rfl, ?_⟩⟩
      rw [world]
      exact .refused unsettled beyond
  | overrun world overrun =>
      refine ⟨rfl, stays, .inr ⟨_, rfl, ?_⟩⟩
      rw [world]
      exact .overrun overrun
  | passed world reads within =>
      dsimp only
      rw [leads_bind, leads_host]
      dsimp only
      rw [leads_bind]
      refine (leads_checkOnce (quiet.stays stays) _).mono ?_
      rintro answer ⟨swept, after⟩ ⟨ended, rfl, config, onward, sweeps⟩
      dsimp only at config onward sweeps ⊢
      rw [world] at sweeps
      have read : after.reads there.clock := onward.reads ⟨_, reads⟩
      replace stays := stays.trans onward
      cases ended with
      | error halt =>
          have broke : Looped flow.config.graphDir.isSome host.script.maxTicks after.reads
              flow.root host.world (.error halt) swept.root after.world :=
            .broke unsettled read within sweeps
          cases halt with
          | broken => exact ⟨config, stays, .inr ⟨_, rfl, broke⟩⟩
          | error error =>
              cases error with
              -- A sweep is broken off only by a kill that was asked for.
              | killed => cases sweeps.ofSweep
              | _ => exact ⟨config, stays, .inr ⟨_, rfl, broke⟩⟩
      | ok =>
          refine (leads_pause sleep _ (quiet.stays stays)).mono ?_
          rintro answer ⟨rested, slept⟩ ⟨root, config', further, same, fails⟩
          dsimp only at root config' further same fails
          rw [← root, ← same] at sweeps
          rw [config] at config' fails
          replace read := further.reads read
          replace stays := stays.trans further
          cases answer with
          | error halt =>
              obtain ⟨dir, fault, rfl⟩ := fails halt rfl
              exact ⟨config', stays, .inr ⟨_, rfl, .unwritten dir unsettled read within sweeps⟩⟩
          | ok =>
              have tick : slept.runner.tick = host.runner.tick + 1 :=
                sweeps.grows.tick.trans (Runner.tick_next _)
              exact ⟨config', stays, .inl ⟨rfl, within, tick, _, read, sweeps⟩⟩

/-- By induction on the rounds left, of which there are enough for the ticks that are answered. -/
theorem leads_pollLoop (sleep : Duration) (ticks : Nat) {flow : Flow} {host : Host}
    (quiet : host.Quiet) (left : 1 ≤ ticks)
    (enough : host.script.maxTicks + 1 ≤ ticks + host.runner.tick) :
    (pollLoop sleep ticks : Step Unit).Leads (flow, host) fun answer state =>
      state.1.config = flow.config ∧ Host.Stays host state.2 ∧
        Looped flow.config.graphDir.isSome host.script.maxTicks state.2.reads flow.root host.world
          answer state.1.root state.2.world := by
  induction ticks generalizing flow host with
  | zero => omega
  | succ ticks ih =>
      rw [pollLoop_succ, leads_bind, leads_host]
      dsimp only
      rw [quiet.unrequested, if_neg Bool.false_ne_true, leads_bind, leads_node]
      dsimp only
      split
      · next settled => exact ⟨rfl, .refl host, .settled settled⟩
      next unsettled =>
      have unsettled : flow.root.checking = .mustCheck := Decidable.not_not.mp unsettled
      rw [leads_bind]
      refine (leads_turn sleep quiet unsettled).mono ?_
      rintro answer ⟨turned, there⟩ ⟨config, stays, led⟩
      dsimp only at config stays led ⊢
      rcases led with ⟨rfl, within, tick, now, read, sweep⟩ | ⟨halt, rfl, looped⟩
      -- One tick has passed and one round was used up, so the rounds left are still enough.
      · have script := stays.script
        refine (ih (quiet.stays stays) (by omega) (by rw [script, tick]; omega)).mono ?_
        rintro answer ⟨last, final⟩ ⟨config', onward, looped⟩
        dsimp only at config' onward looped ⊢
        rw [config, script] at looped
        exact ⟨config'.trans config, stays.trans onward,
          .again unsettled (onward.reads read) within sweep looped⟩
      · exact ⟨config, stays, looped⟩

end Flow

end BuildFlow
