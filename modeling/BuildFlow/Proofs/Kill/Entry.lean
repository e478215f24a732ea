import BuildFlow.Proofs.Kill.Run
import BuildFlow.Proofs.Tree.Tour
/-!
The way of a run to its kill loop. What a run does until then is cut off here as
an action of its own, with the proof that the run goes on with the kill loop from
wherever that action ends. What tours and ticks keep holds in every state in which
a run can enter the kill loop.
-/
namespace BuildFlow

open NodeAct Act

namespace Act

variable {σ α β : Type} {action : Act σ α} {next : α → Act σ β} {state after last : σ}

theorem run_bind_of_ok {value : α} (ran : action.run state = (.ok value, after)) :
    (action >>= next).run state = (next value).run after := by
  rw [run_bind, ran]

theorem run_bind_congr {other : Act σ α} {start : σ} (same : action.run state = other.run start)
    (next : α → Act σ β) : (action >>= next).run state = (other >>= next).run start := by
  rw [run_bind, run_bind, same]

/-- An action that came to its end did so step by step. -/
theorem ok_of_run_bind {result : β} (ran : (action >>= next).run state = (.ok result, last)) :
    ∃ value after, action.run state = (.ok value, after) ∧
      (next value).run after = (.ok result, last) := by
  rw [run_bind] at ran
  cases first : action.run state with
  | mk answer after =>
      rw [first] at ran
      cases answer with
      | ok value => exact ⟨value, after, rfl, ran⟩
      | error halt => cases ran

end Act

namespace Flow

/-! ## The part before the kill loop -/

/-- Follows builds until a kill is requested. The answer is how many rounds the
kill loop may take, none if the loop of the run ends without it. -/
def follow (sleep : Duration) : Nat → Step (Option Nat)
  | 0 => do
      outOfTicks
      return none
  | ticks + 1 => do
      if (← host).kill.isRequested then
        announceKill
        return some (ticks + 1)
      else if (← node).root.checking ≠ .mustCheck then return none
      else
        onHost Host.quickPoll
        let now := (← host).clock
        match ← checkOnce now with
        | .ok () =>
            reportGraph now
            onHost (Host.sleep sleep)
            follow sleep ticks
        | .error (.error (.killed reason)) =>
            log .info "Sweep interrupted by kill request" [("reason", .text reason)]
            follow sleep ticks
        | .error halt => throw halt

/-- Stops builds in so many rounds, if at all. -/
def killFor (sleep : Duration) : Option Nat → Step Unit
  | none => pure ()
  | some rounds => killLoop sleep rounds

/-- Following builds asks for the kill loop, is over, or goes through one round more. -/
theorem follow_succ (sleep : Duration) (ticks : Nat) : follow sleep (ticks + 1) = (do
    if (← host).kill.isRequested then
      announceKill
      return some (ticks + 1)
    else if (← node).root.checking ≠ .mustCheck then return none
    else
      turn sleep
      follow sleep ticks) := by
  simp only [turn_bind]
  rfl

theorem pollLoop_eq (sleep : Duration) (ticks : Nat) :
    pollLoop sleep ticks = follow sleep ticks >>= killFor sleep := by
  induction ticks with
  | zero =>
      simp only [pollLoop, follow, bind_assoc, pure_bind, killFor, bind_pure_unit]
  | succ ticks ih =>
      simp only [pollLoop_succ, follow_succ, bind_assoc]
      congr 1
      funext host
      split
      · simp only [bind_assoc, pure_bind, killFor]
      · simp only [bind_assoc]
        congr 1
        funext flow
        split
        · simp only [pure_bind, killFor]
        · simp only [bind_assoc, ih]

/-- From the first look at the jobs to the kill loop. -/
def lead : Step (Option (Duration × Nat)) := do
  let sleep ← setUp
  let rounds ← follow sleep (roundsLeft (← host))
  return rounds.map fun rounds => (sleep, rounds)

/-- The way to the kill loop once it is known whether all builds are to be stopped. -/
def approach (flow : Flow) : Step (Option (Duration × Nat)) := do
  if flow.config.handleTermination then setListener .waiting
  lead

/-- What a run does before its kill loop. The answer is the time between the
rounds of the loop and how many there may be, none if the run ends without it. -/
def reach : Step (Option (Duration × Nat)) := do
  writeGraph
  let flow ← node
  if flow.config.justDump then return none
  else if flow.root.children.isEmpty then return none
  else if flow.config.killAll then
    onHost (Host.requestKill .all "Killing all running builds of jobs in flow")
    approach flow
  else approach flow

theorem run_outcome_of_ok {α β : Type} {action : Step α} {next : α → Step β}
    {state after : Flow × Host} {value : α} (ran : action.run state = (.ok value, after)) :
    (outcome (action >>= next)).run state = (outcome (next value)).run after := by
  rw [run_outcome, run_outcome, run_bind_of_ok ran]

theorem run_outcome_congr {α : Type} {action other : Step α} {state start : Flow × Host}
    (same : action.run state = other.run start) :
    (outcome action).run state = (outcome other).run start := by
  rw [run_outcome, run_outcome, same]

theorem mainRun_of_lead {flow : Flow} {start state : Flow × Host} {sleep : Duration} {rounds : Nat}
    (reached : lead.run start = (.ok (some (sleep, rounds)), state)) :
    (mainRun flow).run start =
      (outcome (outcome (killLoop sleep rounds) >>= tell) >>= conclude flow).run state := by
  obtain ⟨sleep', prepared, setUp, reached⟩ := ok_of_run_bind reached
  have seen : (host : Step Host).run prepared = (.ok prepared.2, prepared) := rfl
  rw [run_bind_of_ok seen] at reached
  obtain ⟨rounds?, followed, follows, reached⟩ := ok_of_run_bind reached
  cases rounds? with
  | none => cases reached
  | some rounds' =>
      cases reached
      have loops : (pollLoop sleep (roundsLeft prepared.2)).run prepared =
          (killLoop sleep rounds).run state := by
        rw [pollLoop_eq]
        exact run_bind_of_ok follows
      have drives : (outcome drive).run start =
          (outcome (outcome (killLoop sleep rounds) >>= tell)).run state := by
        rw [drive_eq, run_outcome_of_ok setUp, run_outcome_of_ok seen]
        exact run_outcome_congr (run_bind_congr (run_outcome_congr loops) tell)
      rw [mainRun_eq]
      exact run_bind_congr drives (conclude flow)

theorem run_of_approach {flow : Flow} {start state : Flow × Host} {sleep : Duration} {rounds : Nat}
    (reached : (approach flow).run start = (.ok (some (sleep, rounds)), state)) :
    (proceed flow).run start =
      (outcome (outcome (killLoop sleep rounds) >>= tell) >>= conclude flow).run state := by
  unfold approach at reached
  unfold proceed
  split at reached
  · next handles =>
      obtain ⟨_, listening, listens, reached⟩ := ok_of_run_bind reached
      rw [if_pos handles, run_bind_of_ok listens]
      exact mainRun_of_lead reached
  · next ignores =>
      rw [if_neg ignores]
      exact mainRun_of_lead reached

/-- Where the way to the kill loop ends, the run goes on with the loop. -/
theorem run_of_reach {flow : Flow} {host : Host} {state : Flow × Host} {sleep : Duration}
    {rounds : Nat} (reached : reach.run (flow, host) = (.ok (some (sleep, rounds)), state)) :
    run.run (flow, host) =
      (outcome (outcome (killLoop sleep rounds) >>= tell) >>= conclude flow).run state := by
  obtain ⟨_, written, wrote, reached⟩ := ok_of_run_bind reached
  have same : written.1 = flow := (leads_writeGraph.ran wrote).1
  have seen : (node : Step Flow).run written = (.ok written.1, written) := rfl
  rw [run_bind_of_ok seen] at reached
  rw [run_eq, run_bind_of_ok wrote, run_bind_of_ok seen]
  split at reached
  · cases reached
  · next works =>
      rw [if_neg works]
      split at reached
      · cases reached
      · next inhabited =>
          rw [if_neg inhabited]
          split at reached
          · next all =>
              rw [if_pos all]
              obtain ⟨_, asked, asks, reached⟩ := ok_of_run_bind reached
              rw [run_bind_of_ok asks, ← same]
              exact run_of_approach reached
          · next some' =>
              rw [if_neg some', ← same]
              exact run_of_approach reached

/-- Only flows with something to do get to the kill loop. -/
theorem inhabited_of_reach {flow : Flow} {host : Host} {state : Flow × Host} {sleep : Duration}
    {rounds : Nat} (reached : reach.run (flow, host) = (.ok (some (sleep, rounds)), state)) :
    flow.root.children ≠ [] := by
  obtain ⟨_, written, wrote, reached⟩ := ok_of_run_bind reached
  have same : written.1 = flow := (leads_writeGraph.ran wrote).1
  have seen : (node : Step Flow).run written = (.ok written.1, written) := rfl
  rw [run_bind_of_ok seen, same] at reached
  split at reached
  · cases reached
  split at reached
  · cases reached
  · next inhabited => exact fun empty => inhabited (List.isEmpty_iff.mpr empty)

/-! ## What holds where the kill loop begins -/

/-- One sweep over the tree of a flow. -/
theorem tours_checkOnce {flow : Flow} {host : Host} (faithful : host.Faithful) (now : Instant) :
    (checkOnce now : Step (Except Halt Unit)).Leads (flow, host) fun answer state =>
      ∃ ended, answer = .ok ended ∧ state.1.config = flow.config ∧ host.Goes state.2 ∧
        Tree.Tours now flow.root host.world ended state.1.root state.2.world := by
  have opened : host.Goes { host with kill := host.kill.openWindow } :=
    ⟨KillKind.le_refl _, rfl, rfl, List.suffix_refl _, rfl⟩
  obtain ⟨goes, tours⟩ :=
    Tree.check_tours (flow.sweepAt now false) false flow.root (faithful.goes opened)
  refine leads_checkOnce_of ⟨_, rfl, rfl, ?_, tours⟩
  exact (opened.trans goes).trans ⟨KillKind.le_refl _, rfl, rfl, List.suffix_refl _, rfl⟩

/-- What tours keep, and the time between them. -/
structure Lasts (kept : Tree → Host → Prop) : Prop where
  rests : ∀ {tree host after}, kept tree host → host.Goes after →
    host.runner.Rests after.runner → after.roster.resolved = host.roster.resolved → kept tree after
  tours : ∀ {now tree host answer next after}, kept tree host → tree.checking = .mustCheck →
    host.Goes after → after.reads now → Tree.Tours now tree host.world answer next after.world →
    answer = .ok () ∨ IsKilled answer → kept next after

/-- No tour changes what was declared. -/
theorem lasts_layout (root : Tree) : Lasts fun tree _ => tree.blank = root where
  rests layout _ _ _ := layout
  tours layout _ _ _ tours _ := tours.blank.trans layout

theorem Lasts.stays {kept : Tree → Host → Prop} (lasts : Lasts kept) {tree : Tree}
    {host after : Host} (start : kept tree host) (stays : host.Stays after)
    (world : after.world = host.world) : kept tree after := by
  have runner : after.runner = host.runner := congrArg World.runner world
  exact lasts.rests start stays.goes (runner ▸ .refl _) (congrArg World.resolved world)

/-- A state in which the kill loop begins, with the rounds that it may take. -/
structure Entered (kept : Tree → Host → Prop) (before : Host) (rounds : Nat)
    (state : Flow × Host) : Prop where
  kept : kept state.1.root state.2
  goes : before.Goes state.2
  requested : state.2.kill.isRequested
  enough : state.2.script.maxTicks + 2 ≤ rounds + state.2.runner.tick

theorem Entered.later {kept : Tree → Host → Prop} {before middle : Host} {rounds : Nat}
    {state : Flow × Host} (entered : Entered kept middle rounds state)
    (goes : before.Goes middle) : Entered kept before rounds state :=
  { entered with goes := goes.trans entered.goes }

section

variable {kept : Tree → Host → Prop} (lasts : Lasts kept)
include lasts

theorem keeps_pause (sleep : Duration) (now : Instant) {flow : Flow} {host : Host}
    (faithful : host.Faithful) (start : kept flow.root host) :
    (pause sleep now).Leads (flow, host) fun answer state => answer = .ok () →
      kept state.1.root state.2 ∧ host.Goes state.2 ∧ state.2.runner.tick = host.runner.tick := by
  unfold pause
  rw [leads_bind]
  refine (leads_reportGraph _).mono ?_
  rintro answer ⟨reported, written⟩ ⟨root, -, stays, world, -⟩
  cases answer with
  | error halt => exact nofun
  | ok =>
      dsimp only at root stays world ⊢
      have start : kept reported.root written := root ▸ lasts.stays start stays world
      have same : written.runner = host.runner := congrArg World.runner world
      rw [leads_onHost]
      refine (Host.tame_sleep sleep written (faithful.goes stays.goes)).mono ?_
      rintro answer slept ⟨rfl, slept', rests, tick, resolved⟩
      exact fun _ => ⟨lasts.rests start slept' rests resolved, stays.goes.trans slept',
        tick.trans (congrArg Runner.tick same)⟩

/-- One round, in which a sweep may be broken off by a kill request. What is kept survives the tick,
the sweep and the pause. -/
theorem keeps_turn (sleep : Duration) {flow : Flow} {host : Host} (faithful : host.Faithful)
    (start : kept flow.root host) (unsettled : flow.root.checking = .mustCheck) :
    (turn sleep).Leads (flow, host) fun answer state => answer = .ok () →
      kept state.1.root state.2 ∧ host.Goes state.2 ∧
        state.2.runner.tick = host.runner.tick + 1 := by
  unfold turn
  rw [leads_bind, leads_onHost]
  refine (Host.passes_quickPoll faithful).mono ?_
  rintro answer ticked passes
  cases answer with
  | error halt => exact nofun
  | ok =>
      obtain ⟨now, -⟩ := passes.tick rfl
      have start : kept flow.root ticked :=
        lasts.rests start passes.goes passes.rests passes.resolved
      have read := passes.reads rfl
      dsimp only
      rw [leads_bind, leads_host]
      dsimp only
      rw [leads_bind]
      refine (tours_checkOnce (faithful.goes passes.goes) _).mono ?_
      rintro answer ⟨swept, after⟩ ⟨ended, rfl, -, goes, tours⟩
      -- A sweep that was broken off by a kill has kept it too: what is kept lasts through every
      -- visit.
      have keeps : ended = .ok () ∨ IsKilled ended → kept swept.root after :=
        lasts.tours start unsettled goes (goes.reads read) tours
      replace goes := passes.goes.trans goes
      have tick : after.runner.tick = host.runner.tick + 1 := tours.grows.tick.trans now
      dsimp only at tours goes tick ⊢
      cases ended with
      | ok =>
          refine (keeps_pause lasts sleep _ (faithful.goes goes) (keeps (.inl rfl))).mono ?_
          rintro answer ⟨rested, slept⟩ pauses ended
          obtain ⟨kept, paused, same⟩ := pauses ended
          exact ⟨kept, goes.trans paused, same.trans tick⟩
      | error halt =>
          cases halt with
          | broken => exact nofun
          | error error =>
              cases error with
              | killed reason =>
                  have logged := Host.stays_log after .info "Sweep interrupted by kill request"
                    [("reason", .text reason)]
                  rw [NodeAct.leads_log]
                  exact fun _ => ⟨lasts.stays (keeps (.inr ⟨reason, rfl⟩)) logged rfl,
                    goes.trans logged.goes, tick⟩
              | _ => exact nofun

theorem leads_follow (sleep : Duration) (ticks : Nat) {flow : Flow} {host : Host}
    (faithful : host.Faithful) (start : kept flow.root host)
    (enough : host.script.maxTicks + 2 ≤ ticks + host.runner.tick) :
    (follow sleep ticks).Leads (flow, host) fun answer state =>
      ∀ rounds, answer = .ok (some rounds) → Entered kept host rounds state := by
  -- By induction on the rounds left; each takes one of the ticks left.
  induction ticks generalizing flow host with
  | zero => exact fun rounds ended => by cases ended
  | succ ticks ih =>
      rw [follow_succ, leads_bind, leads_host]
      dsimp only
      split
      · next requested =>
          intro rounds ended
          cases ended
          exact ⟨lasts.stays start (Host.stays_after host rfl) rfl,
            (Host.stays_after host rfl).goes, requested, enough⟩
      rw [leads_bind, leads_node]
      dsimp only
      split
      · exact fun rounds ended => by cases ended
      next unsettled =>
      rw [leads_bind]
      refine (keeps_turn lasts sleep faithful start (Decidable.not_not.mp unsettled)).mono ?_
      rintro answer ⟨turned, there⟩ turns
      cases answer with
      | error halt => exact fun rounds ended => by cases ended
      | ok =>
          obtain ⟨start, goes, tick⟩ := turns rfl
          have script := goes.script
          refine (ih (faithful.goes goes) start (by rw [script, tick]; omega)).mono ?_
          exact fun _ _ entered rounds ended => (entered rounds ended).later goes

variable {flow : Flow} {host : Host} (faithful : host.Faithful) (fresh : flow.root.IsFresh)
  (prepares : ∀ {tree after}, host.Goes after →
    flow.root.Prepared flow.settings.requireIdle host.world (.ok ()) tree after.world →
      kept tree after)
include faithful fresh prepares

theorem leads_lead {start : Host} (goes : host.Goes start) (world : start.world = host.world) :
    lead.Leads (flow, start) fun answer state =>
      ∀ sleep rounds, answer = .ok (some (sleep, rounds)) → Entered kept host rounds state := by
  unfold lead
  rw [leads_bind]
  refine (leads_setUp (faithful.goes goes).faultless fresh).mono ?_
  rintro answer ⟨prepared, there⟩ ⟨-, stays, led⟩
  replace goes := goes.trans stays.goes
  dsimp only at goes led
  rw [world] at led
  generalize same : there.world = after at led
  -- A run that fails while it is set up does not get to its loop.
  cases led with
  | unprepared => exact fun sleep rounds ended => by cases ended
  | unwritten => exact fun sleep rounds ended => by cases ended
  | unslept => exact fun sleep rounds ended => by cases ended
  | ready ready =>
      dsimp only
      rw [leads_bind, leads_host]
      dsimp only
      rw [leads_bind]
      have start : kept prepared.root there := prepares goes (same ▸ ready)
      have enough : there.script.maxTicks + 2 ≤ roundsLeft there + there.runner.tick := by
        unfold roundsLeft
        omega
      refine (leads_follow lasts _ _ (faithful.goes goes) start enough).mono ?_
      rintro answer state entered
      cases answer with
      | error halt => exact fun sleep rounds ended => by cases ended
      | ok rounds? =>
          cases rounds? with
          | none => exact fun sleep rounds ended => by cases ended
          | some rounds' =>
              rintro sleep rounds ended
              cases ended
              exact (entered rounds' rfl).later goes

/-- What holds of every prepared tree, and is kept by tours and between them, holds
where the kill loop begins. -/
theorem leads_reach :
    reach.Leads (flow, host) fun answer state =>
      ∀ sleep rounds, answer = .ok (some (sleep, rounds)) → Entered kept host rounds state := by
  unfold reach
  rw [leads_bind]
  refine leads_writeGraph.mono ?_
  rintro answer ⟨flow', written⟩ ⟨rfl, stays, world, -⟩
  cases answer with
  | error halt => exact fun sleep rounds ended => by cases ended
  | ok =>
      dsimp only at stays world ⊢
      -- Listening for a signal changes nothing that the way to the loop looks at.
      have leads : ∀ {start : Host}, host.Goes start → start.world = host.world →
          (approach flow').Leads (flow', start) fun answer state =>
            ∀ sleep rounds, answer = .ok (some (sleep, rounds)) → Entered kept host rounds state := by
        intro start goes world
        unfold approach
        split
        · rw [leads_bind, leads_setListener]
          have listens : host.Goes { start with listener := .waiting } :=
            goes.trans ⟨KillKind.le_refl _, rfl, rfl, List.suffix_refl _, rfl⟩
          exact leads_lead lasts faithful fresh prepares listens world
        · exact leads_lead lasts faithful fresh prepares goes world
      rw [leads_bind, leads_node]
      dsimp only
      split
      · exact fun sleep rounds ended => by cases ended
      split
      · exact fun sleep rounds ended => by cases ended
      split
      · rw [leads_bind, leads_onHost]
        refine (Host.leads_requestKill .all _ written).mono ?_
        rintro answer asked ⟨rfl, goes, same⟩
        exact leads (stays.goes.trans goes) (same.trans world)
      · exact leads stays.goes world

end

end Flow

end BuildFlow
