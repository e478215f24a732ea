import BuildFlow.Proofs.Flow.Rounds
import BuildFlow.Proofs.Shuffle.Around
/-!
How ticks, waiting and writing the graph change what a run goes by beside the jobs. All of
it depends on that alone, so two runs that go by the same at first always do.
-/
namespace BuildFlow

open Act NodeAct

namespace Around

/-- What a scripted action changes, if it asks for no kill and leaves the runner alone. -/
def perform (around : Around) : Action → Around
  | .shiftClock micros => { around with clock := around.clock.add micros }
  | .blockGraph =>
      if around.place = .usable then { around with place := .replaced } else around
  | _ => around

/-- A tick passes: the script acts, and then the tick is put on record. -/
def ticked (around : Around) (script : Script) (tick : Nat) : Around :=
  let acted := (script.actions.filter fun action => action.1 = tick).foldl
    (fun around action => around.perform action.2) around
  { acted with ticks := (tick, acted.clock) :: acted.ticks }

def slept (around : Around) (duration : Duration) : Around :=
  { around with clock := around.clock.add duration.micros }

end Around

/-- How writing the graph ends, which depends on the place of the file alone. -/
def GraphPlace.write : GraphPlace → Except Halt Unit
  | .usable => .ok ()
  | .replaced => .error (.error (.file .exists))
  | .unreachable => .error (.error (.file .notDirectory))

namespace Host

variable {host : Host}

theorem leads_perform {action : Action} (gentle : action.isGentle) :
    (perform action).Leads host fun answer after =>
      answer = .ok () ∧ after.around = host.around.perform action := by
  cases action with
  | shiftClock => exact ⟨rfl, rfl⟩
  | blockGraph =>
      unfold perform Around.perform
      rw [leads_modify]
      change _ ∧ _ = if host.graph.place = .usable then { host.around with place := .replaced }
        else host.around
      split <;> exact ⟨rfl, rfl⟩
  | _ => cases gentle

theorem leads_performs {actions : List (Nat × Action)}
    (gentle : ∀ action ∈ actions, action.2.isGentle) :
    (actions.forM fun action => perform action.2).Leads host fun answer after =>
      answer = .ok () ∧
        after.around = actions.foldl (fun around action => around.perform action.2) host.around := by
  induction actions generalizing host with
  | nil => exact ⟨rfl, rfl⟩
  | cons action rest ih =>
      rw [List.forM, leads_bind]
      refine (leads_perform (gentle action List.mem_cons_self)).mono ?_
      rintro answer there ⟨rfl, same⟩
      refine (ih fun other member => gentle other (List.mem_cons_of_mem _ member)).mono ?_
      rintro answer after ⟨rfl, same'⟩
      rw [List.foldl_cons, ← same]
      exact ⟨rfl, same'⟩

/-- What the script does at a tick. -/
theorem around_strike (quiet : host.Quiet) : strike.Leads host fun _ after =>
    after.around = (host.script.actions.filter fun action => action.1 = host.runner.tick + 1).foldl
      (fun around action => around.perform action.2) host.around := by
  refine leads_strike_of quiet ((leads_performs fun action member =>
    quiet.gentle action (List.mem_filter.mp member).1).mono ?_)
  rintro answer after ⟨rfl, acted⟩
  exact ⟨rfl, acted⟩

theorem around_quickPoll (quiet : host.Quiet) : quickPoll.Leads host fun answer after =>
    answer = .error (.broken .ticks) ∨
      after.around = host.around.ticked host.script (host.runner.tick + 1) := by
  refine leads_quickPoll_of quiet.faultless (fun _ _ _ _ => .inl rfl) fun there looked stays same => ?_
  have around : there.around = host.around := by
    have still : lookAtGraph.Leads host fun _ there => there.around = host.around :=
      still_lookAtGraph host
    exact still.ran looked
  have tick : there.runner.tick = host.runner.tick := congrArg (·.runner.tick) same
  have strikes : strike.Leads there fun answer after =>
      (answer = .ok (there.runner.tick + 1) ∧ Stays there after ∧ after.world = there.world.next) ∧
        after.around = (there.script.actions.filter fun action =>
          action.1 = there.runner.tick + 1).foldl
            (fun around action => around.perform action.2) there.around :=
    ⟨leads_strike (quiet.stays stays), around_strike (quiet.stays stays)⟩
  refine strikes.mono ?_
  rintro answer after ⟨⟨rfl, onward, -⟩, acted⟩
  rw [tick, stays.script, around] at acted
  rw [tick]
  -- Whether the tick is answered or refused, it is on record by now.
  have ticked : (after.after (.tick (host.runner.tick + 1) after.clock)).around =
      host.around.ticked host.script (host.runner.tick + 1) := by
    rw [Around.ticked, ← acted]
    rfl
  exact ⟨_, rfl, (stays.trans onward).script, fun _ => .inr ticked, fun _ => .inr ticked⟩

theorem around_sleep (unsignalled : host.listener ≠ .signalled) (duration : Duration) :
    (sleep duration).Leads host fun _ after => after.around = host.around.slept duration := by
  unfold sleep
  rw [leads_bind, leads_get]
  dsimp only
  rw [leads_bind, leads_set]
  dsimp only
  rw [if_neg unsignalled]
  rfl

end Host

end BuildFlow
