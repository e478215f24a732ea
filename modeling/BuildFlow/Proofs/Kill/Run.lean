import BuildFlow.Proofs.Flow.Run
import BuildFlow.Proofs.Kill.Sweep
/-!
Runs heed requests for a kill. Whenever one comes, from the configuration, a
signal, the runner or the script, no job is invoked any more, and that a sweep
was interrupted stays inside of the run.
-/
namespace BuildFlow

open NodeAct Act

/-! ## Reports -/

namespace Task

variable {window : Bool}

theorem mindful_define (task : Task) (order : List String) :
    Host.Mindful window (task.define order) := by
  unfold define
  dsimp only
  split
  · exact (Host.mindful_log (by decide) _ _).bind fun _ =>
      heedful_forM fun _ _ => Host.mindful_log (by decide) _ _
  · exact (Host.mindful_log (by decide) _ _).bind fun _ =>
      heedful_forM fun _ _ => Host.mindful_log (by decide) _ _

theorem mindful_finalProgress (task : Task) : Host.Mindful window task.finalProgress := by
  refine (Host.mindful_attempt (Host.mindful_jobStatus _)).bind fun status => ?_
  split
  · exact heedful_pure _
  · exact (Host.mindful_warn (by decide) _).bind fun _ => heedful_pure _

theorem mindful_finalStatus (task : Task) : Host.Mindful window task.finalStatus := by
  unfold finalStatus
  dsimp only
  refine heedful_ite (Host.mindful_log (by decide) _ _) ?_
  refine heedful_ite (Host.mindful_log (by decide) _ _) ?_
  exact (mindful_finalProgress task).bind fun _ => heedful_get.bind fun _ =>
    Host.mindful_log (by decide) _ _

end Task

namespace Tree

variable {window : Bool}

theorem mindful_define (tree : Tree) (order : List String) :
    Host.Mindful window (tree.define order) :=
  heedful_forM fun task _ => task.mindful_define order

theorem mindful_finalStatus (tree : Tree) : Host.Mindful window tree.finalStatus := by
  induction tree using childrenInduction with
  | leaf leaf => exact leaf.mindful_finalStatus
  | branch group children ih =>
      have below : Host.Mindful window (finalStatuses children) := by
        induction children with
        | nil => exact heedful_pure ()
        | cons child rest ihRest =>
            exact (ih child List.mem_cons_self).bind fun _ =>
              ihRest fun other member => ih other (List.mem_cons_of_mem _ member)
      exact (Host.mindful_log (by decide) _ _).bind fun _ => below.bind fun _ =>
        Host.mindful_log (by decide) _ _

end Tree

namespace Flow

variable {window : Bool}

/-! ## Parts of a run -/

theorem mindful_writeGraph : Mindful window (writeGraph : Step Unit) :=
  mindful_node.bind fun _ => heedful_ite (mindful_onHost (Host.mindful_writeGraph _)) (heedful_pure _)

theorem mindful_visitRoot {visit : Visit Tree} (mindful : Visit.Mindful window visit) :
    Mindful window (visitRoot visit) :=
  mindful_node.bind fun _ => mindful_onPart mindful _ _

/-- Once an early end is an answer, the rest has to deal with it. -/
theorem mindful_outcome {α β : Type} {action : Step α} {next : Except Halt α → Step β}
    (first : Mindful window action)
    (second : ∀ ended, (IsKilled ended → window) → Mindful window (next ended)) :
    Mindful window (outcome action >>= next) := by
  intro state isOpen
  rw [leads_bind, leads_outcome]
  refine (first state isOpen).mono fun answer there minds => ?_
  exact (second answer minds.killed).onward minds.heeds minds.isOpen

theorem mindful_killOnce : Mindful window (killOnce : Step Unit) :=
  mindful_visitRoot (Tree.mindful_killTree true)

theorem mindful_outOfTicks : Mindful window (outOfTicks : Step Unit) :=
  mindful_onHost (Host.mindful_refuse _)

theorem mindful_reportGraph (now : Instant) : Mindful window (reportGraph now : Step Unit) :=
  mindful_node.bind fun _ => heedful_ite ((mindful_setNode _).bind fun _ => mindful_writeGraph)
    (heedful_pure _)

/-- A sweep has its window, and takes its interruption for an answer. -/
theorem mindful_checkOnce (now : Instant) :
    Mindful false (checkOnce now : Step (Except Halt Unit)) := by
  intro state _
  unfold checkOnce
  rw [leads_bind, leads_onHost, leads_modify]
  dsimp only
  rw [leads_bind, leads_node]
  dsimp only
  rw [leads_bind, leads_outcome]
  have sweeps : Mindful true (visitRoot (Tree.check (state.1.sweepAt now false) false)) :=
    mindful_visitRoot (Tree.mindful_checkTree false)
  have opened : state.2.Heeds { state.2 with kill := state.2.kill.openWindow } :=
    Host.heeds_of_same rfl rfl
  refine (sweeps.onward opened fun _ => rfl).mono fun ended there minds => ?_
  dsimp only
  rw [leads_bind, leads_onHost, leads_modify]
  exact .ok (minds.heeds.trans (Host.heeds_of_same rfl rfl)) (by rintro ⟨⟩)

theorem mindful_announceKill : Mindful window (announceKill : Step Unit) :=
  mindful_host.bind fun _ => mindful_log (by decide) _ _

/-! ## Loops -/

theorem mindful_killLoop (sleep : Duration) (ticks : Nat) :
    Mindful window (killLoop sleep ticks : Step Unit) := by
  induction ticks with
  | zero => exact mindful_outOfTicks
  | succ ticks ih =>
      refine (mindful_onHost Host.mindful_quickPoll).bind fun _ => ?_
      refine (mindful_onHost Host.mindful_queuePoll).bind fun _ => ?_
      refine mindful_killOnce.bind fun _ => mindful_node.bind fun flow => ?_
      exact heedful_ite (heedful_pure _) ((mindful_onHost (Host.mindful_sleep _)).bind fun _ => ih)

theorem mindful_pollLoop (sleep : Duration) (ticks : Nat) :
    Mindful false (pollLoop sleep ticks : Step Unit) := by
  induction ticks with
  | zero => exact mindful_outOfTicks
  | succ ticks ih =>
      refine mindful_host.bind fun host => heedful_ite ?_ (mindful_node.bind fun flow => ?_)
      · exact mindful_announceKill.bind fun _ => mindful_killLoop _ _
      refine heedful_ite (heedful_pure _) ((mindful_onHost Host.mindful_quickPoll).bind fun _ => ?_)
      refine mindful_host.bind fun host => (mindful_checkOnce _).bind fun ended => ?_
      split
      · refine (mindful_reportGraph _).bind fun _ => ?_
        exact (mindful_onHost (Host.mindful_sleep _)).bind fun _ => ih
      · exact (mindful_log (by decide) _ _).bind fun _ => ih
      · next other => exact heedful_throw fun reason same => other reason same

/-! ## Whole runs -/

theorem mindful_setUp : Mindful window setUp := by
  refine (mindful_log (by decide) _ _).bind fun _ => (mindful_onHost Host.mindful_poll).bind fun _ => ?_
  refine mindful_host.bind fun host => mindful_node.bind fun flow => ?_
  refine (mindful_visitRoot Tree.mindful_prepareTree).bind fun _ => mindful_host.bind fun host => ?_
  refine (mindful_log (by decide) _ _).bind fun _ => mindful_node.bind fun flow => ?_
  refine (mindful_onHost (flow.root.mindful_define _)).bind fun _ => mindful_writeGraph.bind fun _ => ?_
  refine mindful_host.bind fun host => (mindful_modifyNode _).bind fun _ => ?_
  refine (mindful_log (by decide) _ _).bind fun _ => ?_
  split
  · exact heedful_throw (by rintro reason ⟨⟩)
  · exact heedful_pure _

/-- Telling what the loop came to ends with an interruption only if the loop did. -/
theorem mindful_tell (looped : Except Halt Unit) (calm : ¬ IsKilled looped) :
    Mindful false (tell looped) := by
  refine (mindful_log (by decide) _ _).bind fun _ => mindful_node.bind fun flow => ?_
  refine (mindful_onHost (flow.root.mindful_finalStatus)).bind fun _ => ?_
  refine mindful_outcome mindful_writeGraph fun written calm' => ?_
  split
  · exact heedful_throw fun reason same => (calm ⟨reason, congrArg _ same⟩).elim
  · exact heedful_throw fun reason same => nomatch calm' ⟨reason, congrArg _ same⟩
  · exact mindful_node.bind fun _ => heedful_pure _

theorem mindful_drive : Mindful false (drive : Step BuildResult) := by
  rw [drive_eq]
  refine mindful_setUp.bind fun sleep => mindful_host.bind fun host => ?_
  exact mindful_outcome (mindful_pollLoop _ _) fun looped calm =>
    mindful_tell looped fun killed => nomatch calm killed

theorem mindful_setListener (listener : Listener) :
    Mindful window (setListener listener : Step Unit) :=
  mindful_onHost (heedful_modify (fun _ => rfl) fun _ => rfl)

theorem mindful_conclude (flow : Flow) (ended : Except Halt BuildResult) (calm : ¬ IsKilled ended) :
    Mindful false (conclude flow ended) := by
  refine (mindful_setListener _).bind fun _ => (mindful_log (by decide) _ _).bind fun _ => ?_
  split
  · refine (mindful_warn (fun same => ?_) _).bind fun _ =>
      heedful_throw fun reason same => (calm ⟨reason, congrArg _ same⟩).elim
    have first := congrArg (fun message => message.toList.head?) same
    simp at first
  · exact heedful_throw fun reason same => (calm ⟨reason, congrArg _ same⟩).elim
  · exact mindful_host.bind fun _ => heedful_ite (heedful_throw (by rintro reason ⟨⟩)) (heedful_pure _)

theorem mindful_mainRun (flow : Flow) : Mindful false (mainRun flow) := by
  rw [mainRun_eq]
  exact mindful_outcome mindful_drive fun ended calm =>
    mindful_conclude flow ended fun killed => nomatch calm killed

theorem mindful_proceed (flow : Flow) : Mindful false (proceed flow) := by
  unfold proceed
  exact heedful_ite ((mindful_setListener _).bind fun _ => mindful_mainRun flow) (mindful_mainRun flow)

theorem mindful_run : Mindful false (run : Step BuildResult) := by
  rw [run_eq]
  refine mindful_writeGraph.bind fun _ => mindful_node.bind fun flow => ?_
  refine heedful_ite (heedful_pure _) (heedful_ite ?_ (heedful_ite ?_ (mindful_proceed flow)))
  · refine (mindful_warn (fun same => ?_) _).bind fun _ => heedful_pure _
    have first := congrArg (fun message => message.toList.head?) same
    simp at first
  · exact (mindful_onHost (Host.mindful_requestKill _ _)).bind fun _ => mindful_proceed flow

end Flow

namespace Host

/-- No invocation was put on record in between. -/
def Invokeless (before after : Host) : Prop :=
  ∃ events, after.trace = events ++ before.trace ∧ ∀ event ∈ events, event.isInvoke = false

theorem invokeless_of_same {before after : Host} (trace : after.trace = before.trace) :
    Invokeless before after :=
  ⟨[], trace, fun _ member => nomatch member⟩

theorem Invokeless.trans {before middle after : Host} (first : Invokeless before middle)
    (second : Invokeless middle after) : Invokeless before after := by
  obtain ⟨earlier, trace, none⟩ := first
  obtain ⟨later, trace', none'⟩ := second
  refine ⟨later ++ earlier, by rw [trace', trace, List.append_assoc], fun event member => ?_⟩
  exact (List.mem_append.mp member).elim (none' event) (none event)

theorem Heeds.invokeless {before after : Host} (heeds : Heeds before after)
    (requested : before.kill.isRequested) : Invokeless before after := by
  obtain ⟨events, adds⟩ := heeds
  exact ⟨events, adds.trace, adds.held requested⟩

theorem leads_requestKill_all (reason : String) (host : Host) :
    (requestKill .all reason).Leads host fun answer after =>
      answer = .ok () ∧ Invokeless host after ∧ after.kill.isRequested := by
  unfold requestKill
  rw [leads_bind, leads_get]
  dsimp only
  split
  · next raises =>
      rw [leads_bind, leads_set]
      refine ⟨rfl, ⟨_, List.singleton_append.symm, ?_⟩, isRequested_request raises reason⟩
      simp [Event.isInvoke]
  · next held =>
      have highest : ∀ kind : KillKind, ¬ decide (kind < .all) → kind.isRequested := by
        intro kind
        cases kind <;> decide
      exact ⟨rfl, invokeless_of_same rfl, highest _ held⟩

end Host

namespace Flow

theorem leads_writeGraph_trace (flow : Flow) (host : Host) :
    (writeGraph : Step Unit).Leads (flow, host) fun _ state =>
      state.1 = flow ∧ state.2.trace = host.trace := by
  unfold writeGraph
  rw [leads_bind, leads_node]
  dsimp only
  split
  · rw [leads_onHost]
    unfold Host.writeGraph
    rw [leads_bind, leads_get]
    dsimp only
    split <;> exact ⟨rfl, rfl⟩
  · exact ⟨rfl, rfl⟩

/-- A run that is to stop all builds asks for that before it looks at any job. -/
theorem leads_run_killAll {flow : Flow} (all : flow.config.killAll) (host : Host) :
    (run : Step BuildResult).Leads (flow, host) fun _ state => host.Invokeless state.2 := by
  rw [run_eq, leads_bind]
  refine (leads_writeGraph_trace flow host).mono ?_
  rintro answer ⟨flow, there⟩ ⟨rfl, trace⟩
  have written := Host.invokeless_of_same trace
  cases answer with
  | error halt => exact written
  | ok =>
      dsimp only
      rw [leads_bind, leads_node]
      dsimp only
      split
      · exact written
      split
      · refine written.trans ⟨_, List.singleton_append.symm, ?_⟩
        simp [Event.isInvoke]
      · rw [leads_bind, leads_onHost]
        refine (Host.leads_requestKill_all _ there).mono ?_
        rintro answer asked ⟨rfl, between, requested⟩
        have rest := mindful_proceed flow (flow, asked) (by rintro ⟨⟩)
        refine rest.mono fun answer state minds => ?_
        exact (written.trans between).trans (minds.heeds.invokeless requested)

/-- However a run ends, it does not end by a kill. What it puts on record tells
whether the switch holds a request in the end, and no invocation of a job is on
record after a request for a kill. There is none at all if the switch held a
request from the start, or if the flow is to stop all builds. -/
theorem run_heeds_kills (flow : Flow) (host : Host) :
    (∀ reason, (run.run (flow, host)).1 ≠ .error (.error (.killed reason))) ∧
      ∃ events, host.Adds (run.run (flow, host)).2.2 events ∧
        (flow.config.killAll → ∀ event ∈ events, event.isInvoke = false) := by
  have minds := mindful_run (flow, host) (by rintro ⟨⟩)
  refine ⟨fun reason same => Bool.false_ne_true (minds.killed ⟨reason, same⟩), ?_⟩
  obtain ⟨events, adds⟩ := minds.heeds
  refine ⟨events, adds, fun all => ?_⟩
  obtain ⟨events', trace, uninvoked⟩ := leads_run_killAll all host
  have same : events' = events := List.append_cancel_right (trace.symm.trans adds.trace)
  exact same ▸ uninvoked

end Flow

end BuildFlow
