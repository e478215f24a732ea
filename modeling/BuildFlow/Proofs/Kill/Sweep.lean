import BuildFlow.Proofs.Kill.Heed
import BuildFlow.Proofs.Tree.Layout
import BuildFlow.Proofs.Tree.Sweep
import BuildFlow.Sweep.Kill
import BuildFlow.Sweep.Prepare
/-!
Passes over a tree heed requests for a kill. An invocation stops at a checkpoint
before its job is invoked, and no group takes that for a failure of its child.
A pass that stops builds, or prepares the first attempts, invokes nothing.
-/
namespace BuildFlow

open Act

namespace NodeAct

variable {ν μ α : Type} {window : Bool}

/-- An action on a node that heeds requests for a kill. -/
abbrev Mindful (window : Bool) (action : NodeAct ν α) : Prop := Heedful window Prod.snd action

theorem mindful_onHost {action : Act Host α} (mindful : Host.Mindful window action) :
    Mindful window (onHost action : NodeAct ν α) := by
  intro state isOpen
  rw [leads_onHost]
  exact mindful state.2 isOpen

theorem mindful_node : Mindful window (node : NodeAct ν ν) :=
  fun _ isOpen => .ok (.refl _) isOpen

theorem mindful_host : Mindful window (host : NodeAct ν Host) :=
  fun _ isOpen => .ok (.refl _) isOpen

theorem mindful_setNode (node : ν) : Mindful window (setNode node) :=
  heedful_modify (fun _ => rfl) fun _ => rfl

theorem mindful_modifyNode (f : ν → ν) : Mindful window (modifyNode f) :=
  heedful_modify (fun _ => rfl) fun _ => rfl

theorem mindful_log {level : Level} (plain : level ≠ .warn) (message : String)
    (fields : List (String × Json)) : Mindful window (log level message fields : NodeAct ν Unit) :=
  mindful_onHost (Host.mindful_log plain message fields)

theorem mindful_warn {message : String} (other : message ≠ "Kill requested")
    (fields : List (String × Json)) : Mindful window (log .warn message fields : NodeAct ν Unit) :=
  mindful_onHost (Host.mindful_warn other fields)

end NodeAct

/-- A visit that heeds requests for a kill. -/
def Visit.Mindful {μ : Type} (window : Bool) (visit : Visit μ) : Prop :=
  ∀ part host, (window → host.kill.interruptible) →
    Host.Minds window host (visit part host).1 (visit part host).2.2

namespace NodeAct

variable {ν μ α : Type} {window : Bool}

theorem Mindful.visit {action : NodeAct ν Unit} (mindful : Mindful window action) :
    Visit.Mindful window (visit action) :=
  fun part host isOpen => mindful (part, host) isOpen

theorem mindful_onPart {visit : Visit μ} (mindful : Visit.Mindful window visit) (part : μ)
    (put : μ → ν) : Mindful window (onPart visit part put) :=
  fun state isOpen => (leads_onPart visit part put _).mpr (mindful part state.2 isOpen)

theorem mindful_failure? {action : NodeAct ν Unit} (mindful : Mindful window action) :
    Mindful window (failure? action) := by
  refine (mindful.bind fun _ => heedful_pure _).tryCatch fun halt outside => ?_
  split
  · exact heedful_pure _
  · exact fun _ isOpen => ⟨.refl _, isOpen, by rintro ⟨reason, ⟨⟩⟩; exact outside reason rfl⟩

end NodeAct

open NodeAct

/-- What an announcement adds to the record is no request. -/
theorem Standing.leads_announce (standing : Standing) (kind shown : String) (host : Host) :
    (standing.announce kind shown).Leads host fun answer after =>
      answer = .ok () ∧ host.Heeds after ∧ after.kill = host.kill := by
  unfold announce
  cases standing.message with
  | none => exact ⟨rfl, Host.heeds_after host rfl rfl, rfl⟩
  | some message =>
      exact ⟨rfl, (Host.heeds_after host rfl rfl).trans (Host.heeds_after _ rfl rfl), rfl⟩

/-- Asking for the status of a job leaves the host alone. -/
theorem Host.leads_jobStatus_same (name : String) (host : Host) :
    (jobStatus name).Leads host fun answer after => after = host ∧ ¬ IsKilled answer := by
  have answered : (do
      let job ← job name
      let tick := (← get).runner.tick
      breakUnless (job.statusFits tick) .ticks
      return job.status tick : Act Host JobStatus).Leads host fun answer after =>
        after = host ∧ ¬ IsKilled answer := by
    rw [leads_bind, leads_job]
    split
    · dsimp only
      rw [leads_bind, leads_get]
      dsimp only
      rw [leads_bind, leads_breakUnless]
      split
      · exact ⟨rfl, by rintro ⟨reason, ⟨⟩⟩⟩
      · exact ⟨rfl, by rintro ⟨reason, ⟨⟩⟩⟩
    · exact ⟨rfl, by rintro ⟨reason, ⟨⟩⟩⟩
  unfold jobStatus meetFaults
  rw [leads_bind, leads_discard, leads_bind, leads_get]
  dsimp only
  split
  · exact ⟨rfl, by rintro ⟨reason, ⟨⟩⟩⟩
  · exact answered
  · exact answered

namespace Task

variable {window : Bool} {sweep : Sweep} {host : Host} {task : Task}

theorem mindful_setStanding (f : Standing → Standing) :
    Mindful window (setStanding f : Step Unit) :=
  mindful_modifyNode _

theorem mindful_fail {α : Type} {error : FlowError} (unkilled : ∀ reason, error ≠ .killed reason) :
    Mindful window (fail error : Step α) :=
  heedful_throw fun reason same => unkilled reason (Halt.error.inj same)

theorem mindful_attach : Mindful window (attach : Step JobStatus) :=
  mindful_node.bind fun _ => (mindful_onHost (Host.mindful_jobPoll _)).bind fun _ =>
    (mindful_onHost (Host.mindful_jobStatus _)).bind fun _ =>
      (mindful_setNode _).bind fun _ => heedful_pure _

theorem mindful_failMissing {α : Type} : Mindful window (failMissing : Step α) :=
  mindful_node.bind fun _ => (mindful_setStanding _).bind fun _ =>
    heedful_throw (by rintro reason ⟨⟩)

theorem mindful_resolve (name : String) :
    Mindful window (onHost (Host.attempt (Host.resolve name)) : Step (Except RunnerError Unit)) :=
  mindful_onHost (Host.mindful_attempt (Host.mindful_resolve name))

theorem mindful_require : Mindful window (require : Step Unit) := by
  refine mindful_node.bind fun task => heedful_ite (heedful_pure _) ?_
  refine (mindful_resolve _).bind fun found => ?_
  split
  · exact mindful_attach.discard
  · exact mindful_failMissing
  · exact mindful_fail (by rintro reason ⟨⟩)

theorem mindful_prepareFirst (sweep : Sweep) :
    Mindful window (prepareFirst sweep : Step Unit) := by
  have prepared : Mindful window (setStanding fun standing => standing.prepare false : Step Unit) :=
    mindful_setStanding _
  refine mindful_node.bind fun task => (mindful_resolve _).bind fun found => ?_
  split
  · refine heedful_ite ((mindful_log (by decide) _ _).bind fun _ => ?_) mindful_failMissing
    exact (mindful_onHost (Host.mindful_breakUnless _ _)).bind fun _ => prepared
  · exact mindful_fail (by rintro reason ⟨⟩)
  · refine (mindful_onHost (Host.mindful_breakUnless _ _)).bind fun _ => prepared.bind fun _ => ?_
    refine mindful_attach.bind fun status => heedful_ite ?_ (mindful_log (by decide) _ _)
    exact mindful_fail (by rintro reason ⟨⟩)

theorem mindful_observe : Mindful window (observe : Step (BuildResult × Progress)) := by
  refine mindful_node.bind fun task => ?_
  split
  · exact mindful_onHost (Host.mindful_status _)
  · exact (mindful_onHost (Host.mindful_jobStatus _)).bind fun _ => heedful_pure _

theorem mindful_conclude (sweep : Sweep) (result : BuildResult) :
    Mindful window (conclude sweep result : Step Unit) := by
  refine (mindful_setStanding _).bind fun _ => mindful_node.bind fun task => ?_
  refine (mindful_log (by decide) _ _).bind fun _ => mindful_host.bind fun host => ?_
  refine (mindful_log (by decide) _ _).bind fun _ => heedful_ite ?_ (heedful_pure _)
  exact mindful_fail (by rintro reason ⟨⟩)

theorem mindful_track (sweep : Sweep) (report : Bool) :
    Mindful window (track sweep report : Step Unit) := by
  refine mindful_node.bind fun task => (mindful_onHost (Host.mindful_jobPoll _)).bind fun _ => ?_
  refine mindful_observe.bind fun seen => heedful_ite ?_ (mindful_conclude _ _)
  exact heedful_ite (mindful_log (by decide) _ _) (heedful_pure _)

/-! ## Invoking the job -/

theorem leads_startBuild_unasked (unasked : host.kill.isRequested = false)
    (isOpen : window → host.kill.interruptible) :
    (startBuild sweep : Step Unit).Leads (task, host) fun answer state =>
      Host.Minds window host answer state.2 := by
  unfold startBuild
  rw [leads_bind, leads_node]
  dsimp only
  rw [leads_bind, leads_onHost]
  refine (task.standing.leads_announce "Job" task.shown host).mono ?_
  rintro answer announced ⟨rfl, heeds, same⟩
  dsimp only
  rw [leads_bind, leads_onHost]
  have isOpen' : window → announced.kill.interruptible := same ▸ isOpen
  refine (Host.leads_invoke_unasked (same ▸ unasked) isOpen' _ _).mono fun answer invoked minds => ?_
  cases answer with
  | error halt => exact heeds.minds minds.halted
  | ok ref =>
      refine Heedful.onward ?_ (heeds.trans minds.heeds) minds.isOpen
      refine mindful_host.bind fun host => ?_
      split
      · exact (mindful_log (by decide) _ _).bind fun _ => mindful_setNode _
      · exact mindful_setNode _

theorem leads_invoke_unasked (unasked : host.kill.isRequested = false)
    (isOpen : window → host.kill.interruptible) :
    (invoke sweep : Step Unit).Leads (task, host) fun answer state =>
      Host.Minds window host answer state.2 := by
  unfold invoke
  rw [leads_bind, leads_node]
  dsimp only
  split
  · rw [leads_bind, leads_onHost]
    refine (Host.leads_jobStatus_same task.name host).mono ?_
    rintro answer there ⟨rfl, unkilled⟩
    cases answer with
    | error halt =>
        exact .error (.refl _) isOpen fun reason same => unkilled ⟨reason, congrArg _ same⟩
    | ok status =>
        dsimp only
        split
        · exact leads_startBuild_unasked unasked isOpen
        · exact mindful_log (by decide) _ _ _ isOpen
  · exact leads_startBuild_unasked unasked isOpen

/-- In an open window a checkpoint lets nothing pass once a kill is requested. -/
theorem leads_checkpoint_open (isOpen : host.kill.interruptible) :
    (checkpoint : Step Unit).Leads (task, host) fun answer state =>
      state = (task, host) ∧ (answer = .ok () → host.kill.isRequested = false) := by
  unfold checkpoint
  rw [leads_bind, leads_host]
  dsimp only
  unfold KillSwitch.checkpoint
  rw [isOpen, Bool.and_true]
  cases host.kill.isRequested with
  | true => exact ⟨rfl, by rintro ⟨⟩⟩
  | false => exact ⟨rfl, fun _ => rfl⟩

theorem mindful_check (sweep : Sweep) (report : Bool) :
    Mindful true (check sweep report : Step Unit) := by
  rw [check_eq]
  refine mindful_require.bind fun _ => mindful_node.bind fun task => ?_
  refine heedful_ite (mindful_track _ _) ?_
  rintro ⟨task, host⟩ isOpen
  rw [leads_bind]
  refine (leads_checkpoint_open (isOpen rfl)).mono ?_
  rintro answer state ⟨rfl, passed⟩
  cases answer with
  | error halt => exact ⟨.refl _, isOpen, fun _ => rfl⟩
  | ok =>
      rw [leads_bind, leads_setStanding]
      dsimp only
      rw [leads_bind]
      refine (leads_invoke_unasked (passed rfl) isOpen).mono fun answer there minds => ?_
      cases answer with
      | error halt => exact minds.halted
      | ok => exact (mindful_track _ _).onward minds.heeds minds.isOpen

/-! ## Stopping builds -/

theorem mindful_concludeKilled (result : BuildResult) :
    Mindful window (concludeKilled result : Step Unit) :=
  (mindful_setStanding _).bind fun _ => mindful_node.bind fun _ =>
    (mindful_log (by decide) _ _).bind fun _ => mindful_log (by decide) _ _

theorem mindful_stopAll : Mindful window (stopAll : Step Unit) := by
  refine mindful_node.bind fun task => heedful_ite ?_ (heedful_pure _)
  refine (mindful_onHost (Host.mindful_markStopped _)).bind fun _ => ?_
  refine heedful_ite ((mindful_log (by decide) _ _).bind fun _ => ?_) (heedful_pure _)
  exact mindful_onHost (Host.mindful_stopAll _)

theorem mindful_finish : Mindful window (finish : Step Unit) := mindful_setStanding _

theorem mindful_awaitIdle : Mindful window (awaitIdle : Step Unit) :=
  mindful_node.bind fun _ => (mindful_onHost (Host.mindful_jobPoll _)).bind fun _ =>
    (mindful_onHost (Host.mindful_jobStatus _)).bind fun _ =>
      heedful_ite (mindful_concludeKilled _) (heedful_pure _)

theorem mindful_stopBuild (ref : BuildRef) (dequeue : Bool) :
    Mindful window (stopBuild ref dequeue : Step Unit) := by
  refine mindful_node.bind fun task => (mindful_onHost (Host.mindful_status _)).bind fun seen => ?_
  refine heedful_ite (mindful_concludeKilled _) (heedful_ite (heedful_pure _) ?_)
  refine (mindful_log (by decide) _ _).bind fun _ => ?_
  exact (mindful_onHost (Host.mindful_stop _ _)).bind fun _ => mindful_modifyNode _

theorem mindful_kill (dequeue : Bool) : Mindful window (kill dequeue : Step Unit) := by
  have rest : ∀ (task : Task) (all : Prop) [Decidable all] (last : Step Unit),
      Mindful window last → Mindful window
        (if task.standing.isFinished then pure ()
          else if !task.resolved then finish
          else if all then awaitIdle
          else last : Step Unit) :=
    fun task all _ last mindful => heedful_ite (heedful_pure _)
      (heedful_ite mindful_finish (heedful_ite mindful_awaitIdle mindful))
  apply mindful_host.bind
  intro host
  apply heedful_ite
  · refine mindful_stopAll.bind fun _ => mindful_node.bind fun task => rest task _ _ ?_
    split
    · exact mindful_stopBuild _ _
    · exact mindful_finish
  · refine mindful_node.bind fun task => rest task _ _ ?_
    split
    · exact mindful_stopBuild _ _
    · exact mindful_finish

end Task

namespace Branch

variable {window : Bool} {sweep : Sweep}

theorem mindful_setGroup (f : Group → Group) : Mindful window (setGroup f : Step Unit) :=
  mindful_modifyNode _

theorem mindful_setStanding (f : Standing → Standing) :
    Mindful window (setStanding f : Step Unit) :=
  mindful_modifyNode _

theorem mindful_setChild (index : Nat) (child : Tree) :
    Mindful window (setChild index child : Step Unit) :=
  mindful_modifyNode _

theorem mindful_fail {α : Type} {error : FlowError} (unkilled : ∀ reason, error ≠ .killed reason) :
    Mindful window (fail error : Step α) :=
  heedful_throw fun reason same => unkilled reason (Halt.error.inj same)

theorem mindful_announce (standing : Standing) (kind shown : String) :
    Mindful window (onHost (standing.announce kind shown) : Step Unit) := by
  refine mindful_onHost fun host isOpen => (standing.leads_announce kind shown host).mono ?_
  rintro answer after ⟨rfl, heeds, same⟩
  exact .ok heeds fun inside => same ▸ isOpen inside

theorem mindful_beginSweep (sweep : Sweep) : Mindful window (beginSweep sweep : Step Bool) := by
  have reports : ∀ branch : Branch, Mindful window
      (if branch.group.reportInterval ≤ sweep.now.secondsSince branch.group.lastReport then do
        setGroup fun group => { group with lastReport := sweep.now }
        return true
      else return false : Step Bool) :=
    fun branch => heedful_ite ((mindful_setGroup _).bind fun _ => heedful_pure _) (heedful_pure _)
  refine mindful_node.bind fun branch => heedful_ite (reports branch) ?_
  refine (mindful_setStanding _).bind fun _ => ?_
  exact (mindful_announce _ _ _).bind fun _ => reports branch

theorem mindful_visitChild {visit : Visit Tree} (mindful : Visit.Mindful window visit) (index : Nat)
    (child : Tree) : Mindful window (visitChild visit index child) :=
  mindful_node.bind fun _ => mindful_failure? (mindful_onPart mindful _ _)

theorem mindful_restart (scope : Bool) : Mindful window (restart scope : Step Unit) :=
  mindful_node.bind fun _ => (mindful_onHost (Host.mindful_breakUnless _ _)).bind fun _ =>
    mindful_setNode _

theorem mindful_aborted {action : Step Bool} (mindful : Mindful window action) (child : Tree)
    (fields : List (String × Json)) : Mindful window (do
      log .warn ("ABORTED: " ++ child.sequence ++ " was aborted, it will not be retried") fields
      action) := by
  refine (mindful_warn (fun same => ?_) _).bind fun _ => mindful
  have first := congrArg (fun message => message.toList.head?) same
  simp at first

theorem mindful_answerFailure (index : Nat) (child : Tree) (failure : JobFailure) :
    Mindful window (answerFailure index child failure) := by
  have leave : Mindful window (leave : Step Unit) := mindful_modifyNode _
  have retry : ∀ (stay again : String) (fields : List (String × Json)) (scope answer : Bool),
      Mindful window (if child.standing.propagation ≠ .normal then do
          log .info stay fields
          return false
        else do
          log .info again fields
          restart scope
          return answer : Step Bool) := by
    intro stay again fields scope answer
    refine heedful_ite ((mindful_log (by decide) _ _).bind fun _ => heedful_pure _) ?_
    exact (mindful_log (by decide) _ _).bind fun _ => (mindful_restart _).bind fun _ =>
      heedful_pure _
  unfold answerFailure
  dsimp only
  refine heedful_ite (mindful_aborted ?_ _ _) (heedful_ite (retry _ _ _ _ _)
    (heedful_ite (retry _ _ _ _ _) ?_))
  · refine (mindful_setChild _ _).bind fun _ => heedful_ite (heedful_pure _) ?_
    exact (mindful_setGroup _).bind fun _ => leave.bind fun _ => heedful_pure _
  · refine (mindful_setChild _ _).bind fun _ => heedful_ite (heedful_pure _) ?_
    exact leave.bind fun _ => heedful_pure _

theorem mindful_answerInPlace (index : Nat) (child : Tree) (failure : JobFailure) :
    Mindful window (answerInPlace index child failure) := by
  have retry : ∀ (again : String) (fields : List (String × Json)) (scope answer : Bool),
      Mindful window (do
          log .info again fields
          prepareChild index child scope
          return answer : Step Bool) := by
    intro again fields scope answer
    refine (mindful_log (by decide) _ _).bind fun _ => ?_
    refine Heedful.bind ?_ fun _ => heedful_pure _
    exact (mindful_onHost (Host.mindful_breakUnless _ _)).bind fun _ => mindful_setChild _ _
  unfold answerInPlace
  dsimp only
  refine (mindful_setGroup _).bind fun _ => ?_
  refine heedful_ite (mindful_aborted ?_ _ _) (heedful_ite (retry _ _ _ _) (heedful_ite (retry _ _ _ _) ?_))
  · refine (mindful_setChild _ _).bind fun _ => heedful_ite (heedful_pure _) ?_
    exact (mindful_setGroup _).bind fun _ => heedful_pure _
  · exact (mindful_setChild _ _).bind fun _ => heedful_pure _

theorem mindful_passWith {clear : Tree → Step Unit} {answer : Nat → Tree → JobFailure → Step Bool}
    {visit : Visit Tree} (clears : ∀ child, Mindful window (clear child))
    (answers : ∀ index child failure, Mindful window (answer index child failure))
    (visits : Visit.Mindful window visit) (indices : List Nat) (status : Checking) :
    Mindful window (passWith clear answer visit indices status) := by
  induction indices generalizing status with
  | nil => exact heedful_pure _
  | cons index rest ih =>
      refine mindful_node.bind fun branch => ?_
      split
      · exact ih _
      · refine heedful_ite (ih _) ((mindful_visitChild visits _ _).bind fun failure => ?_)
        refine mindful_node.bind fun branch => ?_
        dsimp only
        split
        · exact (clears _).bind fun _ => ih _
        · exact (answers _ _ _).bind fun again => heedful_ite (ih _) (ih _)

theorem mindful_reportResult (sweep : Sweep) : Mindful window (reportResult sweep : Step Unit) :=
  mindful_node.bind fun _ => mindful_log (by decide) _ _

theorem mindful_checkTimeout (sweep : Sweep) : Mindful window (checkTimeout sweep : Step Unit) :=
  mindful_node.bind fun _ => heedful_ite (mindful_fail (by rintro reason ⟨⟩)) (heedful_pure _)

theorem mindful_advance (sweep : Sweep) : Mindful window (advance sweep : Step Unit) := by
  refine mindful_node.bind fun branch => (mindful_setStanding _).bind fun _ => ?_
  refine heedful_ite ((mindful_reportResult _).bind fun _ => mindful_fail (by rintro reason ⟨⟩)) ?_
  refine (mindful_setGroup _).bind fun _ => ?_
  exact heedful_ite (mindful_setStanding _) (mindful_reportResult _)

theorem mindful_settle (sweep : Sweep) : Mindful window (settle sweep : Step Unit) := by
  refine mindful_node.bind fun branch => (mindful_setStanding _).bind fun _ => ?_
  refine (mindful_reportResult _).bind fun _ => ?_
  exact heedful_ite (mindful_fail (by rintro reason ⟨⟩)) (heedful_pure _)

theorem mindful_checkSerial {visit : Bool → Visit Tree}
    (visits : ∀ report, Visit.Mindful window (visit report)) :
    Mindful window (checkSerial sweep visit) := by
  refine (mindful_beginSweep _).bind fun report => mindful_node.bind fun branch => ?_
  rw [serialPass_eq]
  refine (mindful_passWith (fun _ => heedful_pure _) mindful_answerFailure (visits _) _ _).bind
    fun status => (mindful_setStanding _).bind fun _ => mindful_node.bind fun branch => ?_
  exact heedful_ite (mindful_checkTimeout _) (mindful_advance _)

theorem mindful_checkParallel {visit : Bool → Visit Tree}
    (visits : ∀ report, Visit.Mindful window (visit report)) :
    Mindful window (checkParallel sweep visit) := by
  refine (mindful_beginSweep _).bind fun report => mindful_node.bind fun branch => ?_
  have clears : ∀ child, Mindful window (clearFailed child) := fun _ => mindful_setGroup _
  rw [parallelPass_eq]
  refine (mindful_passWith clears mindful_answerInPlace (visits _) _ _).bind
    fun status => (mindful_setGroup _).bind fun _ => mindful_node.bind fun branch => ?_
  exact heedful_ite (mindful_checkTimeout _) (mindful_settle _)

end Branch

namespace Tree

variable {window : Bool} {sweep : Sweep}

/-- A sweep that finds the window open heeds requests for a kill. -/
theorem mindful_checkWithin (levels : Nat) (report : Bool) :
    Visit.Mindful true (checkWithin sweep levels report) := by
  induction levels generalizing report with
  | zero =>
      intro tree host isOpen
      cases tree with
      | task leaf => exact Task.mindful_check sweep report (leaf, host) isOpen
      | branch => exact ⟨.refl host, isOpen, fun _ => rfl⟩
  | succ levels ih =>
      intro tree host isOpen
      cases tree with
      | task leaf => exact Task.mindful_check sweep report (leaf, host) isOpen
      | branch group children =>
          have mindful : Mindful true
              (if group.isSerial then Branch.checkSerial sweep (checkWithin sweep levels)
                else Branch.checkParallel sweep (checkWithin sweep levels)) :=
            heedful_ite (Branch.mindful_checkSerial ih) (Branch.mindful_checkParallel ih)
          exact mindful ((group, children), host) isOpen

theorem mindful_checkTree (report : Bool) : Visit.Mindful true (check sweep report) :=
  fun tree host isOpen => mindful_checkWithin tree.height report tree host isOpen

/-- What visits to the children in turn heed. -/
theorem mindful_killChildren {dequeue : Bool} (all : Bool) {children : List Tree}
    (each : ∀ child ∈ children, ∀ host : Host, (window → host.kill.interruptible) →
      Host.Minds window host (kill dequeue child host).1 (kill dequeue child host).2.2)
    (host : Host) (isOpen : window → host.kill.interruptible) :
    Host.Minds window host (killChildren dequeue all children host).1
      (killChildren dequeue all children host).2.2 := by
  induction children generalizing host with
  | nil =>
      rw [killChildren]
      exact .ok (.refl host) isOpen
  | cons child rest ih =>
      have onward := ih fun other member => each other (List.mem_cons_of_mem _ member)
      rw [killChildren]
      split
      · have first := each child List.mem_cons_self host isOpen
        generalize kill dequeue child host = out at first ⊢
        obtain ⟨answer, child', there⟩ := out
        cases answer with
        | error halt => exact first
        | ok => exact first.heeds.minds (onward there first.isOpen)
      · exact onward host isOpen

theorem mindful_killTree (dequeue : Bool) (tree : Tree) (host : Host)
    (isOpen : window → host.kill.interruptible) :
    Host.Minds window host (kill dequeue tree host).1 (kill dequeue tree host).2.2 := by
  induction tree using childrenInduction generalizing host with
  | leaf leaf =>
      rw [kill]
      exact (Task.mindful_kill dequeue).visit leaf host isOpen
  | branch group children ih =>
      rw [kill]
      dsimp only
      split
      · exact .ok (.refl host) isOpen
      · have below := mindful_killChildren (decide (host.kill.kind = .all)) ih host isOpen
        generalize killChildren dequeue (decide (host.kill.kind = .all)) children host = out at below ⊢
        obtain ⟨answer, children', there⟩ := out
        cases answer with
        | error halt => exact below
        | ok => exact below

theorem mindful_prepareChildren {children : List Tree}
    (each : ∀ child ∈ children, ∀ host : Host, (window → host.kill.interruptible) →
      Host.Minds window host (prepareFirst sweep child host).1 (prepareFirst sweep child host).2.2)
    (host : Host) (isOpen : window → host.kill.interruptible) :
    Host.Minds window host (prepareChildren sweep children host).1
      (prepareChildren sweep children host).2.2 := by
  induction children generalizing host with
  | nil =>
      rw [prepareChildren]
      exact .ok (.refl host) isOpen
  | cons child rest ih =>
      have onward := ih fun other member => each other (List.mem_cons_of_mem _ member)
      have first := each child List.mem_cons_self host isOpen
      rw [prepareChildren]
      generalize prepareFirst sweep child host = out at first ⊢
      obtain ⟨answer, child', there⟩ := out
      cases answer with
      | error halt => exact first
      | ok => exact first.heeds.minds (onward there first.isOpen)

theorem mindful_openGroup (group : Group) : Host.Mindful window (openGroup group) :=
  (Host.mindful_breakUnless _ _).bind fun _ => (Host.mindful_log (by decide) _ _).bind fun _ =>
    heedful_pure _

theorem mindful_closeGroup (group : Group) : Host.Mindful window (closeGroup group) :=
  Host.mindful_log (by decide) _ _

theorem mindful_prepareTree (tree : Tree) (host : Host)
    (isOpen : window → host.kill.interruptible) :
    Host.Minds window host (prepareFirst sweep tree host).1 (prepareFirst sweep tree host).2.2 := by
  induction tree using childrenInduction generalizing host with
  | leaf leaf =>
      rw [prepareFirst]
      exact (Task.mindful_prepareFirst sweep).visit leaf host isOpen
  | branch group children ih =>
      rw [prepareFirst]
      have opened : Host.Minds window host _ _ := mindful_openGroup group host isOpen
      generalize (openGroup group).run host = out at opened ⊢
      obtain ⟨answer, there⟩ := out
      cases answer with
      | error halt => exact opened.halted
      | ok group =>
          have below := mindful_prepareChildren ih there opened.isOpen
          dsimp only
          generalize prepareChildren sweep children there = out at below ⊢
          obtain ⟨answer, children', middle⟩ := out
          cases answer with
          | error halt => exact opened.heeds.minds below
          | ok =>
              exact (opened.heeds.trans below.heeds).minds
                (mindful_closeGroup group middle below.isOpen)

end Tree

end BuildFlow
