import BuildFlow.Proofs.Secrecy.Node
import BuildFlow.Proofs.Task
import BuildFlow.Sweep.Report
/-!
An invocation with the values of its secret parameters hidden. It is found,
started, followed and stopped just as the invocation itself: its values reach
nothing but the request for its build.
-/
namespace BuildFlow

namespace Params

theorem mask_mask (secret : Pattern) (params : Params) :
    (params.mask secret).mask secret = params.mask secret := by
  apply Table.ext_entries
  simp only [mask, Table.mapValues, List.map_map, List.map_inj_left, Function.comp_apply]
  intro entry _
  split <;> rfl

end Params

namespace Task

/-- Changes the parameters, given the pattern of the secret ones. -/
def repaint (paint : Pattern → Params → Params) (task : Task) : Task :=
  { task with params := paint task.secret task.params }

/-- The invocation with its secret values hidden. -/
def veil (task : Task) : Task := task.repaint fun secret params => params.mask secret

@[simp] theorem shownParams_veil (task : Task) : task.veil.shownParams = task.shownParams :=
  Params.mask_mask task.secret task.params

open NodeAct Act

variable (sweep : Sweep)

theorem veiled_setStanding (f : Standing → Standing) : Veiled veil (setStanding f) :=
  veiled_modifyNode fun _ => rfl

/-! ## Finding the job -/

theorem veiled_attach : Veiled veil attach := by
  refine mirrors_node_bind fun task => ?_
  refine (mirrors_onHost (Host.blind_jobPoll task.name)).next fun _ => ?_
  refine (mirrors_onHost (Host.blind_jobStatus task.name)).next fun status => ?_
  exact (veiled_setNode rfl).next fun _ => mirrors_pure rfl

theorem veiled_failMissing {α : Type} : Veiled veil (failMissing : Step α) :=
  mirrors_node_bind fun _ => (veiled_setStanding _).next fun _ => mirrors_throw _

theorem veiled_fail {α : Type} (error : FlowError) : Veiled veil (fail error : Step α) :=
  mirrors_throw _

theorem veiled_resolve (name : String) :
    Veiled veil (onHost (Host.attempt (Host.resolve name))) :=
  mirrors_onHost (Host.blind_attempt (Host.blind_resolve name))

theorem veiled_require : Veiled veil require := by
  refine mirrors_node_bind fun task => mirrors_ite (mirrors_pure rfl) ?_
  refine (veiled_resolve task.name).next fun resolved => ?_
  split
  · exact veiled_attach.discard
  · exact veiled_failMissing
  · exact veiled_fail _

theorem veiled_prepareFirst : Veiled veil (prepareFirst sweep) := by
  refine mirrors_node_bind fun task => (veiled_resolve task.name).next fun resolved => ?_
  split
  · refine mirrors_ite ?_ veiled_failMissing
    refine (veiled_log _ _ _).next fun _ => ?_
    exact (mirrors_onHost (Host.blind_breakUnless _ _)).next fun _ => veiled_setStanding _
  · exact veiled_fail _
  · refine (mirrors_onHost (Host.blind_breakUnless _ _)).next fun _ => ?_
    refine (veiled_setStanding _).next fun _ => veiled_attach.next fun status => ?_
    exact mirrors_ite (veiled_fail _) (veiled_log _ _ _)

/-! ## Running -/

theorem veiled_checkpoint : Veiled veil checkpoint := by
  refine mirrors_host_bind fun host other alike => ?_
  rw [alike.kill]
  split
  · exact veiled_fail _
  · exact mirrors_pure rfl

theorem blind_announce (standing : Standing) (kind shown : String) :
    Host.Blind (standing.announce kind shown) := by
  unfold Standing.announce
  generalize standing.message = message
  cases message with
  | none => exact Host.blind_log _ _ _
  | some message => exact (Host.blind_log _ _ _).next fun _ => Host.blind_log _ _ _

theorem veiled_startBuild : Veiled veil (startBuild sweep) := by
  refine mirrors_node_bind fun task => ?_
  refine (mirrors_onHost (blind_announce _ _ _)).next fun _ => ?_
  have asked : (task.request sweep.settings).veil = (task.veil.request sweep.settings).veil := rfl
  refine (mirrors_onHost (Host.mirrors_invoke task.name asked)).next fun ref => ?_
  refine mirrors_host_bind fun host other alike => ?_
  rw [alike.consoleUrl?]
  split
  · exact (veiled_log _ _ _).next fun _ => veiled_setNode rfl
  · exact (mirrors_pure rfl).next fun _ => veiled_setNode rfl

theorem veiled_invoke : Veiled veil (invoke sweep) := by
  refine mirrors_node_bind fun task => mirrors_ite ?_ (veiled_startBuild sweep)
  refine (mirrors_onHost (Host.blind_jobStatus task.name)).next fun status => ?_
  exact mirrors_ite (veiled_startBuild sweep) (veiled_log _ _ _)

theorem veiled_observe : Veiled veil observe := by
  refine mirrors_node_bind fun task => ?_
  rw [show task.veil.build = task.build from rfl]
  split
  · exact mirrors_onHost (Host.blind_status _)
  · exact (mirrors_onHost (Host.blind_jobStatus task.name)).next fun _ => mirrors_pure rfl

theorem consoleUrl?_veil (task : Task) {host other : Host} (alike : host.Alike other) :
    task.veil.consoleUrl? other = task.consoleUrl? host := by
  have reads : other.consoleUrl? = host.consoleUrl? := funext fun ref => (alike.consoleUrl? ref).symm
  unfold consoleUrl?
  rw [reads]
  rfl

theorem veiled_conclude (result : BuildResult) : Veiled veil (conclude sweep result) := by
  refine (veiled_setStanding _).next fun _ => mirrors_node_bind fun task => ?_
  refine (veiled_log _ _ _).next fun _ => mirrors_host_bind fun host other alike => ?_
  rw [consoleUrl?_veil task alike]
  exact (veiled_log _ _ _).next fun _ => mirrors_ite (veiled_fail _) (mirrors_pure rfl)

theorem veiled_track (report : Bool) : Veiled veil (track sweep report) := by
  refine mirrors_node_bind fun task => ?_
  refine (mirrors_onHost (Host.blind_jobPoll task.name)).next fun _ => ?_
  refine veiled_observe.next fun seen => mirrors_ite ?_ (veiled_conclude sweep _)
  exact mirrors_ite (veiled_log _ _ _) (mirrors_pure rfl)

theorem veiled_check (report : Bool) : Veiled veil (check sweep report) := by
  rw [check_eq]
  refine veiled_require.next fun _ => mirrors_node_bind fun task => ?_
  refine mirrors_ite (veiled_track sweep report) ?_
  refine veiled_checkpoint.next fun _ => (veiled_setStanding _).next fun _ => ?_
  exact (veiled_invoke sweep).next fun _ => veiled_track sweep report

/-! ## Stopping -/

theorem veiled_concludeKilled (result : BuildResult) : Veiled veil (concludeKilled result) := by
  refine (veiled_setStanding _).next fun _ => mirrors_node_bind fun task => ?_
  exact (veiled_log _ _ _).next fun _ => veiled_log _ _ _

theorem veiled_stopAll : Veiled veil stopAll := by
  refine mirrors_node_bind fun task => mirrors_ite ?_ (mirrors_pure rfl)
  refine (mirrors_onHost (Host.blind_markStopped task.name)).next fun marked => ?_
  refine mirrors_ite ?_ (mirrors_pure rfl)
  exact (veiled_log _ _ _).next fun _ => mirrors_onHost (Host.blind_stopAll task.name)

theorem veiled_awaitIdle : Veiled veil awaitIdle := by
  refine mirrors_node_bind fun task => ?_
  refine (mirrors_onHost (Host.blind_jobPoll task.name)).next fun _ => ?_
  refine (mirrors_onHost (Host.blind_jobStatus task.name)).next fun status => ?_
  exact mirrors_ite (veiled_concludeKilled _) (mirrors_pure rfl)

theorem veiled_stopBuild (ref : BuildRef) (dequeue : Bool) :
    Veiled veil (stopBuild ref dequeue) := by
  refine mirrors_node_bind fun task => ?_
  refine (mirrors_onHost (Host.blind_status ref)).next fun seen => ?_
  refine mirrors_ite (veiled_concludeKilled _) (mirrors_ite (mirrors_pure rfl) ?_)
  refine (veiled_log _ _ _).next fun _ => (mirrors_onHost (Host.blind_stop ref _)).next fun _ => ?_
  exact veiled_modifyNode fun _ => rfl

theorem veiled_quit (dequeue : Bool) (kind : KillKind) : Veiled veil (quit dequeue kind) := by
  refine mirrors_node_bind fun task => mirrors_ite (mirrors_pure rfl) ?_
  refine mirrors_ite (veiled_setStanding _) (mirrors_ite veiled_awaitIdle ?_)
  rw [show task.veil.build = task.build from rfl, show task.veil.standing = task.standing from rfl]
  split
  · exact veiled_stopBuild _ dequeue
  · exact veiled_setStanding _

theorem veiled_kill (dequeue : Bool) : Veiled veil (kill dequeue) := by
  rw [kill_eq]
  refine mirrors_host_bind fun host other alike => ?_
  rw [alike.kill]
  refine mirrors_ite ?_ (veiled_quit dequeue _)
  exact veiled_stopAll.next fun _ => veiled_quit dequeue _

/-! ## Reports -/

theorem mirrors_define (task : Task) (order : List String) :
    Mirrors Host.Alike Eq (task.define order) (task.veil.define order) := by
  unfold define
  rw [shownParams_veil]
  rw [show task.veil.jobUrl? = task.jobUrl? from rfl]
  split
  · exact (Host.blind_log _ _ _).next fun _ => mirrors_forM fun _ => Host.blind_log _ _ _
  · exact (Host.blind_log _ _ _).next fun _ => mirrors_forM fun _ => Host.blind_log _ _ _

theorem mirrors_finalProgress (task : Task) :
    Mirrors Host.Alike Eq task.finalProgress task.veil.finalProgress := by
  refine (Host.blind_attempt (Host.blind_jobStatus task.name)).next fun status => ?_
  split
  · exact mirrors_pure rfl
  · exact (Host.blind_log _ _ _).next fun _ => mirrors_pure rfl

theorem mirrors_finalStatus (task : Task) :
    Mirrors Host.Alike Eq task.finalStatus task.veil.finalStatus := by
  refine mirrors_ite (Host.blind_log _ _ _) (mirrors_ite (Host.blind_log _ _ _) ?_)
  refine (mirrors_finalProgress task).next fun progress => mirrors_get_bind fun host other alike => ?_
  rw [consoleUrl?_veil task alike]
  exact Host.blind_log _ _ _

end Task

end BuildFlow
