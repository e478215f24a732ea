import BuildFlow.Proofs.Flow.Run
import BuildFlow.Proofs.Secrecy.Sweep
import BuildFlow.Rehearsal
/-!
Runs of a flow with the values of its secret parameters hidden. The loops go
around as often, write the same graphs and come to the same end.
-/
namespace BuildFlow.Flow

open NodeAct Act

/-- The flow with the secret values of its invocations hidden. -/
def veil (flow : Flow) : Flow := { flow with root := flow.root.veil }

theorem graphText_veil (flow : Flow) : flow.veil.graphText = flow.graphText :=
  Graph.Style.write_veil flow.style flow.root

theorem checking_root_veil (flow : Flow) : flow.veil.root.checking = flow.root.checking :=
  Tree.checking_repaint _ flow.root

theorem result_veil (flow : Flow) : flow.veil.result = flow.result :=
  Tree.result_repaint _ flow.root

/-! ## Parts of a run -/

theorem veiled_writeGraph : Veiled veil writeGraph := by
  refine mirrors_node_bind fun flow => ?_
  rw [graphText_veil]
  exact mirrors_ite (mirrors_onHost (Host.blind_writeGraph _)) (mirrors_pure rfl)

theorem veiled_visitRoot {visit : Visit Tree} (veiled : VeiledVisit Tree.veil visit) :
    Veiled veil (visitRoot visit) :=
  mirrors_node_bind fun flow => veiled_onPart veiled flow.root fun _ => rfl

theorem veiled_outcome {α : Type} {action : Step α} (veiled : Veiled veil action) :
    Veiled veil (outcome action) :=
  (veiled.next fun _ => mirrors_pure rfl).catching fun _ => mirrors_pure rfl

theorem veiled_setKill (f : KillSwitch → KillSwitch) :
    Veiled veil (onHost (modify fun host => { host with kill := f host.kill })) :=
  mirrors_onHost (mirrors_modify fun _ _ alike => { alike with kill := by rw [alike.kill] })

theorem veiled_checkOnce (now : Instant) : Veiled veil (checkOnce now) := by
  refine (veiled_setKill KillSwitch.openWindow).next fun _ => mirrors_node_bind fun flow => ?_
  refine (veiled_outcome (veiled_visitRoot (Tree.veiled_check _ false))).next fun ended => ?_
  exact (veiled_setKill KillSwitch.closeWindow).next fun _ => mirrors_pure rfl

theorem veiled_reportGraph (now : Instant) : Veiled veil (reportGraph now) := by
  refine mirrors_node_bind fun flow => mirrors_ite ?_ (mirrors_pure rfl)
  exact (veiled_setNode rfl).next fun _ => veiled_writeGraph

theorem veiled_outOfTicks : Veiled veil outOfTicks := mirrors_onHost (Host.blind_refuse _)

/-! ## Loops -/

theorem veiled_killLoop (sleep : Duration) (ticks : Nat) : Veiled veil (killLoop sleep ticks) := by
  induction ticks with
  | zero => exact veiled_outOfTicks
  | succ ticks ih =>
      refine (mirrors_onHost Host.blind_quickPoll).next fun _ => ?_
      refine (mirrors_onHost Host.blind_queuePoll).next fun _ => ?_
      refine (veiled_visitRoot (Tree.veiled_kill true)).next fun _ => mirrors_node_bind fun flow => ?_
      rw [checking_root_veil]
      refine mirrors_ite (mirrors_pure rfl) ?_
      exact (mirrors_onHost (Host.blind_sleep sleep)).next fun _ => ih

theorem veiled_announceKill : Veiled veil announceKill := by
  refine mirrors_host_bind fun host other alike => ?_
  rw [alike.kill]
  exact veiled_log _ _ _

theorem veiled_pollLoop (sleep : Duration) (ticks : Nat) : Veiled veil (pollLoop sleep ticks) := by
  induction ticks with
  | zero => exact veiled_outOfTicks
  | succ ticks ih =>
      refine mirrors_host_bind fun host other alike => ?_
      rw [alike.kill]
      refine mirrors_ite (veiled_announceKill.next fun _ => veiled_killLoop sleep _) ?_
      refine mirrors_node_bind fun flow => ?_
      rw [checking_root_veil]
      refine mirrors_ite (mirrors_pure rfl) ?_
      refine (mirrors_onHost Host.blind_quickPoll).next fun _ => mirrors_host_bind fun _ _ alike => ?_
      rw [alike.clock]
      refine (veiled_checkOnce _).next fun ended => ?_
      split
      · refine (veiled_reportGraph _).next fun _ => ?_
        exact (mirrors_onHost (Host.blind_sleep sleep)).next fun _ => ih
      · exact (veiled_log _ _ _).next fun _ => ih
      · exact mirrors_throw _

/-! ## Whole runs -/

theorem veiled_setUp : Veiled veil setUp := by
  refine (veiled_log _ _ _).next fun _ => (mirrors_onHost Host.blind_poll).next fun _ => ?_
  refine mirrors_host_bind fun host other alike => mirrors_node_bind fun flow => ?_
  rw [alike.clock, alike.kill]
  refine (veiled_visitRoot (Tree.veiled_prepareFirst _)).next fun _ => ?_
  refine mirrors_host_bind fun host other alike => ?_
  rw [alike.roster]
  refine (veiled_log _ _ _).next fun _ => mirrors_node_bind fun flow => ?_
  refine (mirrors_onHost (Tree.mirrors_define flow.root _)).next fun _ => ?_
  refine veiled_writeGraph.next fun _ => mirrors_host_bind fun host other alike => ?_
  rw [alike.clock]
  have begun : Veiled veil (modifyNode fun flow =>
      { flow with start := other.clock, lastGraph := other.clock }) :=
    veiled_modifyNode fun _ => rfl
  refine begun.next fun _ => (veiled_log _ _ _).next fun _ => ?_
  rw [show flow.veil.config = flow.config from rfl]
  split
  · exact mirrors_throw _
  · exact mirrors_pure rfl

theorem veiled_tell (looped : Except Halt Unit) : Veiled veil (tell looped) := by
  refine (veiled_log _ _ _).next fun _ => mirrors_node_bind fun flow => ?_
  refine (mirrors_onHost (Tree.mirrors_finalStatus flow.root)).next fun _ => ?_
  refine (veiled_outcome veiled_writeGraph).next fun written => ?_
  split
  · exact mirrors_throw _
  · exact mirrors_throw _
  · refine mirrors_node_bind fun flow => ?_
    rw [result_veil]
    exact mirrors_pure rfl

theorem veiled_drive : Veiled veil drive := by
  rw [drive_eq]
  refine veiled_setUp.next fun sleep => mirrors_host_bind fun host other alike => ?_
  rw [roundsLeft, roundsLeft, alike.script, alike.tick]
  exact (veiled_outcome (veiled_pollLoop sleep _)).next fun looped => veiled_tell looped

theorem veiled_setListener (listener : Listener) : Veiled veil (setListener listener) :=
  mirrors_onHost (mirrors_modify fun _ _ alike => { alike with listener := rfl })

theorem mirrors_mainRun (flow : Flow) :
    Mirrors (Seen veil) Eq (mainRun flow) (mainRun flow.veil) := by
  refine (veiled_outcome veiled_drive).next fun ended => (veiled_setListener _).next fun _ => ?_
  refine (veiled_log _ _ _).next fun _ => ?_
  split
  · exact (veiled_log _ _ _).next fun _ => mirrors_throw _
  · exact mirrors_throw _
  · refine mirrors_host_bind fun host other alike => ?_
    have raises : ∀ result, flow.mustRaise host result = flow.veil.mustRaise other result := by
      intro result
      unfold mustRaise
      rw [alike.kill]
      rfl
    rw [raises]
    exact mirrors_ite (mirrors_throw _) (mirrors_pure rfl)

theorem mirrors_proceed (flow : Flow) :
    Mirrors (Seen veil) Eq (proceed flow) (proceed flow.veil) :=
  mirrors_ite ((veiled_setListener _).next fun _ => mirrors_mainRun flow) (mirrors_mainRun flow)

theorem veiled_run : Veiled veil run := by
  rw [run_eq]
  refine veiled_writeGraph.next fun _ => mirrors_node_bind fun flow => ?_
  rw [result_veil, show flow.veil.root.sequence = flow.root.sequence from flow.root.sequence_veil,
    show flow.veil.root.children.isEmpty = flow.root.children.isEmpty from
      Tree.isEmpty_children_repaint _ flow.root]
  refine mirrors_ite (mirrors_pure rfl) (mirrors_ite ?_ (mirrors_ite ?_ (mirrors_proceed flow)))
  · exact (veiled_log _ _ _).next fun _ => mirrors_pure rfl
  · exact (mirrors_onHost (Host.blind_requestKill _ _)).next fun _ => mirrors_proceed flow

/-- A run that is left after some rounds of its loop. -/
def runFor (rounds : Nat) : Step Unit := do
  writeGraph
  let flow ← node
  if flow.config.justDump || flow.root.children.isEmpty then pure ()
  else
    if flow.config.killAll then
      onHost (Host.requestKill .all "Killing all running builds of jobs in flow")
    if flow.config.handleTermination then setListener .waiting
    let sleep ← setUp
    pollLoop sleep rounds

theorem veiled_runFor (rounds : Nat) : Veiled veil (runFor rounds) := by
  refine veiled_writeGraph.next fun _ => mirrors_node_bind fun flow => ?_
  rw [show flow.veil.root.children.isEmpty = flow.root.children.isEmpty from
    Tree.isEmpty_children_repaint _ flow.root]
  have looped : Veiled veil (do let sleep ← setUp; pollLoop sleep rounds : Step Unit) :=
    veiled_setUp.next fun sleep => veiled_pollLoop sleep rounds
  have heeded : Veiled veil
      (if flow.config.handleTermination then do
        setListener .waiting
        let sleep ← setUp
        pollLoop sleep rounds
      else do
        let sleep ← setUp
        pollLoop sleep rounds : Step Unit) :=
    mirrors_ite ((veiled_setListener _).next fun _ => looped) looped
  refine mirrors_ite (mirrors_pure rfl) (mirrors_ite ?_ heeded)
  exact (mirrors_onHost (Host.blind_requestKill _ _)).next fun _ => heeded

end BuildFlow.Flow

namespace BuildFlow.Rehearsal

open NodeAct Act

theorem veiled_runOnce (index : Nat) : Veiled Flow.veil (runOnce index) := by
  refine (mirrors_onHost (Host.mirrors_record rfl)).next fun _ => ?_
  refine (Flow.veiled_outcome Flow.veiled_run).next fun ended => ?_
  refine (mirrors_onHost Host.blind_lookAtGraph).next fun _ => ?_
  split
  · exact mirrors_pure rfl
  · exact mirrors_pure rfl
  · exact mirrors_throw _

theorem veiled_runAll (rehearsal : Rehearsal) : Veiled Flow.veil rehearsal.runAll := by
  have runs : Veiled Flow.veil ((List.range rehearsal.runs).mapM runOnce) := by
    have each : Mirrors (Seen Flow.veil) Eq ((List.range rehearsal.runs).mapM runOnce)
        (((List.range rehearsal.runs).map id).mapM runOnce) :=
      mirrors_mapM fun index _ => veiled_runOnce index
    rwa [List.map_id] at each
  unfold runAll
  generalize rehearsal.killBefore = kill
  cases kill with
  | none => exact runs
  | some kill => exact (mirrors_onHost (Host.blind_requestKill _ _)).next fun _ => runs

end BuildFlow.Rehearsal
